/-
  Teaclave.Leveldb.Basic
  ──────────────────────
  **STATUS, CHECKSUMS AND THEIR MASK IN `rusty_leveldb_sgx`.**

  `error.rs`: a `Status` is a `StatusCode` and a message, `Status::new`
  prefixes the message with the code's name.  The log's checksums are the
  CRC-32C of the `crc` crate (`crc32::checksum_castagnoli`), stored masked
  (`log.rs`, `mask_crc`): rotated right by 15 bits and offset by a
  constant, so that the checksum of a text that holds checksums is not
  itself a plain CRC.

    • `unmask_mask_crc`: `unmask_crc` undoes `mask_crc`.
    • `unmask_crc_eq_iff`: a stored checksum passes the check of a CRC
      exactly when it is that CRC's mask, so a changed one never does.
-/
import Mathlib

namespace Teaclave.Leveldb

/-! ## §1. `Status`. -/

/-- `StatusCode`. -/
inductive StatusCode
  | OK
  | AlreadyExists
  | Corruption
  | CompressionError
  | IOError
  | InvalidArgument
  | InvalidData
  | LockError
  | NotFound
  | NotSupported
  | PermissionDenied
  | Unknown
  | Errno (c : Int)
  deriving DecidableEq, Repr

/-- The code's `Debug` text. -/
def StatusCode.debug : StatusCode → String
  | .OK => "OK"
  | .AlreadyExists => "AlreadyExists"
  | .Corruption => "Corruption"
  | .CompressionError => "CompressionError"
  | .IOError => "IOError"
  | .InvalidArgument => "InvalidArgument"
  | .InvalidData => "InvalidData"
  | .LockError => "LockError"
  | .NotFound => "NotFound"
  | .NotSupported => "NotSupported"
  | .PermissionDenied => "PermissionDenied"
  | .Unknown => "Unknown"
  | .Errno c => "Errno(" ++ toString c ++ ")"

/-- `Status`: a code and a message. -/
structure Status where
  code : StatusCode
  err : String
  deriving DecidableEq, Repr

/-- `Status::new`: the message after the code's name, or the name alone. -/
def Status.new (code : StatusCode) (msg : String) : Status :=
  if msg.isEmpty then ⟨code, code.debug⟩ else ⟨code, code.debug ++ ": " ++ msg⟩

/-- `leveldb::Result`. -/
abbrev Result (α : Type) := Except Status α

/-- `err`. -/
def err {α : Type} (code : StatusCode) (msg : String) : Result α := .error (Status.new code msg)

example : (Status.new .Corruption "Invalid Checksum").err = "Corruption: Invalid Checksum" := by
  decide

/-! ## §2. CRC-32C. -/

/-- One bit of the reflected CRC-32C register (polynomial `0x82f63b78`). -/
def crc32c_shift (c : UInt32) : UInt32 :=
  if c &&& 1 = 1 then (c >>> 1) ^^^ 0x82f63b78 else c >>> 1

/-- `n` bits of the register. -/
def crc32c_shifts : Nat → UInt32 → UInt32
  | 0, c => c
  | n + 1, c => crc32c_shifts n (crc32c_shift c)

/-- One byte into the register. -/
def crc32c_update (c : UInt32) (b : UInt8) : UInt32 := crc32c_shifts 8 (c ^^^ b.toUInt32)

/-- `crc32::checksum_castagnoli`, the value a `Digest` over `CASTAGNOLI`
    sums to after `write`s of these bytes. -/
def checksum_castagnoli (bs : List UInt8) : UInt32 :=
  bs.foldl crc32c_update 0xffffffff ^^^ 0xffffffff

-- The `crc` crate's own test vectors (`test_crc_sanity`): the fold over 32
-- bytes of 8 shifts each nests deeper than the default recursion limit.
set_option maxRecDepth 12000 in
example : checksum_castagnoli (List.replicate 32 0) = 0x8a9136aa := by decide

set_option maxRecDepth 12000 in
example : checksum_castagnoli (List.replicate 32 0xff) = 0x62a8ab43 := by decide

/-! ## §3. The mask. -/

/-- `MASK_DELTA`. -/
def MASK_DELTA : UInt32 := 0xa282ead8

/-- `mask_crc`: rotate right by 15, then add `MASK_DELTA` (wrapping). -/
def mask_crc (c : UInt32) : UInt32 := ((c >>> 15) ||| (c <<< 17)) + MASK_DELTA

/-- `unmask_crc`: subtract `MASK_DELTA`, then rotate right by 17. -/
def unmask_crc (mc : UInt32) : UInt32 :=
  let rot := mc - MASK_DELTA
  (rot >>> 17) ||| (rot <<< 15)

theorem mask_crc_eq (c : UInt32) : mask_crc c = ((c >>> 15) ||| (c <<< 17)) + MASK_DELTA := rfl

theorem unmask_crc_eq (mc : UInt32) :
    unmask_crc mc = ((mc - MASK_DELTA) >>> 17) ||| ((mc - MASK_DELTA) <<< 15) := rfl

/-- Rotating a word right by `a` and then by `b`, with `a + b = 32`, turns
    it once round. -/
theorem rotate_rotate {a b : Nat} (hab : a + b = 32) (x : BitVec 32) :
    ((x >>> a ||| x <<< b) >>> b) ||| ((x >>> a ||| x <<< b) <<< a) = x := by
  apply BitVec.eq_of_getLsbD_eq
  intro i hi
  simp only [BitVec.getLsbD_or, BitVec.getLsbD_ushiftRight, BitVec.getLsbD_shiftLeft]
  simp
  -- bit `i` comes back from bit `i + b` or from bit `i - a` of the first rotation
  have hout : x.getLsbD (a + (b + i)) = false := BitVec.getLsbD_of_ge _ _ (by omega)
  by_cases hlt : i < a
  · simp [hout, hlt, show b + i < 32 by omega]
  · have hback : a + (i - a) = i := by omega
    simp [hout, hlt, hi, hback, show ¬ b + i < 32 by omega, show i - a < b by omega]

theorem rotate_15_17 (c : UInt32) :
    (((c >>> 15) ||| (c <<< 17)) >>> 17) ||| (((c >>> 15) ||| (c <<< 17)) <<< 15) = c := by
  apply UInt32.toBitVec_inj.mp
  simp only [UInt32.toBitVec_or, UInt32.toBitVec_shiftRight, UInt32.toBitVec_shiftLeft,
    BitVec.ushiftRight_eq', BitVec.shiftLeft_eq']
  exact @rotate_rotate 15 17 rfl c.toBitVec

theorem rotate_17_15 (c : UInt32) :
    (((c >>> 17) ||| (c <<< 15)) >>> 15) ||| (((c >>> 17) ||| (c <<< 15)) <<< 17) = c := by
  apply UInt32.toBitVec_inj.mp
  simp only [UInt32.toBitVec_or, UInt32.toBitVec_shiftRight, UInt32.toBitVec_shiftLeft,
    BitVec.ushiftRight_eq', BitVec.shiftLeft_eq']
  exact @rotate_rotate 17 15 rfl c.toBitVec

/-- **`unmask_crc` undoes `mask_crc`** (`test_crc_mask_crc`, for every
    checksum). -/
theorem unmask_mask_crc (c : UInt32) : unmask_crc (mask_crc c) = c := by
  simp only [unmask_crc_eq, mask_crc_eq, UInt32.add_sub_cancel]
  exact rotate_15_17 c

theorem mask_unmask_crc (mc : UInt32) : mask_crc (unmask_crc mc) = mc := by
  rw [unmask_crc_eq, mask_crc_eq, rotate_17_15, UInt32.sub_add_cancel]

/-- A stored checksum passes the check of a text's CRC exactly when it is
    that CRC's mask. -/
theorem unmask_crc_eq_iff {mc c : UInt32} : unmask_crc mc = c ↔ mc = mask_crc c := by
  constructor
  · rintro rfl
    exact (mask_unmask_crc mc).symm
  · rintro rfl
    exact unmask_mask_crc c

end Teaclave.Leveldb
