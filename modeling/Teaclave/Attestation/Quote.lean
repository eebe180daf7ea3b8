/-
  Teaclave.Attestation.Quote
  ──────────────────────────
  **THE SGX QUOTE BODY.**

  `SgxQuoteBody::parse_from` of `teaclave_attestation/src/quote.rs` reads a
  quote body with a cursor: the closure `take(n)` hands out the next `n`
  bytes and moves the cursor, or fails at the end of the input.  Nineteen
  takes, three of them reserved gaps, read the fields at the offsets the
  comments give; the version must be 1 or 2, the signature type 0 or 1; the
  64 bytes of `report_data` are copied one at a time from an iterator; and
  the cursor must end at the end of the input.

  `parse_from_layout`: the parse succeeds exactly on 432 bytes with a good
  version and signature type, and then every field is the little-endian
  value of the bytes at its offset.
-/
import Mathlib

namespace Teaclave.Attestation

/-! ## §1. The quote body. -/

/-- `SgxQuoteVersion`. -/
inductive SgxQuoteVersion where
  | V1
  | V2
  deriving DecidableEq, Repr

/-- `SgxQuoteSigType`. -/
inductive SgxQuoteSigType where
  | Unlinkable
  | Linkable
  deriving DecidableEq, Repr

/-- `SgxReport` (an `[u8; n]` is its list of bytes). -/
structure SgxReport where
  cpu_svn : List UInt8
  misc_select : UInt32
  attributes : List UInt8
  mr_enclave : List UInt8
  mr_signer : List UInt8
  isv_prod_id : UInt16
  isv_svn : UInt16
  report_data : List UInt8
  deriving DecidableEq, Repr

/-- `SgxQuoteBody` (the `Uuid` by its sixteen bytes). -/
structure SgxQuoteBody where
  version : SgxQuoteVersion
  signature_type : SgxQuoteSigType
  gid : UInt32
  isv_svn_qe : UInt16
  isv_svn_pce : UInt16
  qe_vendor_id : List UInt8
  user_data : List UInt8
  report_body : SgxReport
  deriving DecidableEq, Repr

/-! ## §2. Bytes. -/

/-- The bytes from offset `a` up to `b`. -/
def slice (bytes : List UInt8) (a b : Nat) : List UInt8 := (bytes.drop a).take (b - a)

/-- The little-endian value of a byte string. -/
def le_value (bs : List UInt8) : Nat := bs.foldr (fun b acc => b.toNat + 256 * acc) 0

/-- `u16::from_le_bytes`. -/
def u16_from_le_bytes (b : List UInt8) : UInt16 := (le_value b).toUInt16

example : u16_from_le_bytes [0x01, 0x02] = 0x0201 := by decide

/-- `u32::from_le_bytes`. -/
def u32_from_le_bytes (b : List UInt8) : UInt32 := (le_value b).toUInt32

/-- `<[u8; n]>::try_from(slice).ok()` (and `Uuid::from_slice(..).ok()` for
    `n = 16`): the slice when it has `n` bytes. -/
def array_of (n : Nat) (s : List UInt8) : Option (List UInt8) :=
  if s.length = n then some s else none

/-- The closure `take`: the `n` bytes at the cursor `pos` and the cursor
    past them; `none` for `n = 0` or past the end. -/
def take (bytes : List UInt8) (pos n : Nat) : Option (List UInt8 × Nat) :=
  if n > 0 ∧ bytes.length ≥ pos + n then some (slice bytes pos (pos + n), pos + n) else none

/-- The copy loop of `report_data`: each of `n` slots takes the iterator's
    next byte (`_it.next()?`). -/
def fill_from : Nat → List UInt8 → Option (List UInt8)
  | 0, _ => some []
  | _ + 1, [] => none
  | n + 1, b :: it => (fill_from n it).map (b :: ·)

/-- The version field. -/
def version_of (v : UInt16) : Option SgxQuoteVersion :=
  if v = 1 then some .V1 else if v = 2 then some .V2 else none

/-- The signature-type field. -/
def signature_type_of (v : UInt16) : Option SgxQuoteSigType :=
  if v = 0 then some .Unlinkable else if v = 1 then some .Linkable else none

/-! ## §3. `parse_from`. -/

/-- `SgxQuoteBody::parse_from`, the cursor `pos` passed along. -/
def parse_from (bytes : List UInt8) : Option SgxQuoteBody := do
  -- off 0, size 2
  let (b, pos) ← take bytes 0 2
  let version ← version_of (u16_from_le_bytes (← array_of 2 b))
  -- off 2, size 2
  let (b, pos) ← take bytes pos 2
  let signature_type ← signature_type_of (u16_from_le_bytes (← array_of 2 b))
  -- off 4, size 4
  let (b, pos) ← take bytes pos 4
  let gid := u32_from_le_bytes (← array_of 4 b)
  -- off 8, size 2
  let (b, pos) ← take bytes pos 2
  let isv_svn_qe := u16_from_le_bytes (← array_of 2 b)
  -- off 10, size 2
  let (b, pos) ← take bytes pos 2
  let isv_svn_pce := u16_from_le_bytes (← array_of 2 b)
  -- off 12, size 16
  let (b, pos) ← take bytes pos 16
  let qe_vendor_id_raw ← array_of 16 b
  let qe_vendor_id ← array_of 16 qe_vendor_id_raw
  -- off 28, size 20
  let (b, pos) ← take bytes pos 20
  let user_data ← array_of 20 b
  -- off 48, size 16
  let (b, pos) ← take bytes pos 16
  let cpu_svn ← array_of 16 b
  -- off 64, size 4
  let (b, pos) ← take bytes pos 4
  let misc_select := u32_from_le_bytes (← array_of 4 b)
  -- off 68, size 28
  let (_, pos) ← take bytes pos 28
  -- off 96, size 16
  let (b, pos) ← take bytes pos 16
  let attributes ← array_of 16 b
  -- off 112, size 32
  let (b, pos) ← take bytes pos 32
  let mr_enclave ← array_of 32 b
  -- off 144, size 32
  let (_, pos) ← take bytes pos 32
  -- off 176, size 32
  let (b, pos) ← take bytes pos 32
  let mr_signer ← array_of 32 b
  -- off 208, size 96
  let (_, pos) ← take bytes pos 96
  -- off 304, size 2
  let (b, pos) ← take bytes pos 2
  let isv_prod_id := u16_from_le_bytes (← array_of 2 b)
  -- off 306, size 2
  let (b, pos) ← take bytes pos 2
  let isv_svn := u16_from_le_bytes (← array_of 2 b)
  -- off 308, size 60
  let (_, pos) ← take bytes pos 60
  -- off 368, size 64
  let (report_data_raw, pos) ← take bytes pos 64
  let report_data ← fill_from 64 report_data_raw
  if pos ≠ bytes.length then none
  some ⟨version, signature_type, gid, isv_svn_qe, isv_svn_pce, qe_vendor_id, user_data,
    ⟨cpu_svn, misc_select, attributes, mr_enclave, mr_signer, isv_prod_id, isv_svn, report_data⟩⟩

/-! ## §4. The layout. -/

theorem take_eq_some {bytes : List UInt8} {pos n pos' : Nat} {s : List UInt8} :
    take bytes pos n = some (s, pos') ↔
      s = slice bytes pos (pos + n) ∧ pos' = pos + n ∧ 0 < n ∧ pos + n ≤ bytes.length := by
  unfold take
  split_ifs with h
  · simp only [Option.some.injEq, Prod.mk.injEq]
    constructor
    · rintro ⟨rfl, rfl⟩
      exact ⟨rfl, rfl, h.1, h.2⟩
    · rintro ⟨rfl, rfl, -⟩
      exact ⟨rfl, rfl⟩
  · simp only [false_iff]
    rintro ⟨-, -, h1, h2⟩
    exact h ⟨h1, h2⟩

theorem array_of_eq_some {n : Nat} {s a : List UInt8} :
    array_of n s = some a ↔ a = s ∧ s.length = n := by
  unfold array_of
  split_ifs with h <;> simp [h, eq_comm]

theorem fill_from_eq_some : ∀ {n : Nat} {it r : List UInt8},
    fill_from n it = some r ↔ r = it.take n ∧ n ≤ it.length
  | 0, it, r => by simp [fill_from, eq_comm]
  | n + 1, [], r => by simp [fill_from]
  | n + 1, b :: it, r => by
      simp only [fill_from, Option.map_eq_some_iff, fill_from_eq_some, List.take_succ_cons,
        List.length_cons, Nat.add_le_add_iff_right]
      constructor
      · rintro ⟨r', ⟨rfl, h⟩, rfl⟩
        exact ⟨rfl, h⟩
      · rintro ⟨rfl, h⟩
        exact ⟨_, ⟨rfl, h⟩, rfl⟩

/-- What `parse_from` reads from 432 bytes: each field from its offset. -/
def quote_fields (bytes : List UInt8) (version : SgxQuoteVersion) (signature_type : SgxQuoteSigType) :
    SgxQuoteBody :=
  ⟨version, signature_type, u32_from_le_bytes (slice bytes 4 8), u16_from_le_bytes (slice bytes 8 10),
    u16_from_le_bytes (slice bytes 10 12), slice bytes 12 28, slice bytes 28 48,
    ⟨slice bytes 48 64, u32_from_le_bytes (slice bytes 64 68), slice bytes 96 112, slice bytes 112 144,
      slice bytes 176 208, u16_from_le_bytes (slice bytes 304 306), u16_from_le_bytes (slice bytes 306 308),
      slice bytes 368 432⟩⟩

theorem length_slice {bytes : List UInt8} {a b : Nat} (hb : b ≤ bytes.length) :
    (slice bytes a b).length = b - a := by
  simp [slice]
  omega

theorem take_of_le {bytes : List UInt8} {pos n : Nat} (hn : 0 < n) (h : pos + n ≤ bytes.length) :
    take bytes pos n = some (slice bytes pos (pos + n), pos + n) :=
  take_eq_some.mpr ⟨rfl, rfl, hn, h⟩

theorem array_of_slice {bytes : List UInt8} {n a b : Nat} (hab : a + n = b) (hb : b ≤ bytes.length) :
    array_of n (slice bytes a b) = some (slice bytes a b) :=
  array_of_eq_some.mpr ⟨rfl, by rw [length_slice hb]; omega⟩

theorem fill_from_of_le {n : Nat} {it : List UInt8} (h : n ≤ it.length) :
    fill_from n it = some (it.take n) :=
  fill_from_eq_some.mpr ⟨rfl, h⟩

/-- The do-block's binds are reduced in their monadic form: Mathlib's
    congruence rule for `Option.bind` makes `simp` revisit every nested
    bind of `parse_from` under each of its hypotheses. -/
theorem some_bind_eq {α β : Type} (a : α) (f : α → Option β) : (some a >>= f) = f a := rfl

theorem bind_eq_some_iff {α β : Type} {x : Option α} {f : α → Option β} {b : β} :
    (x >>= f) = some b ↔ ∃ a, x = some a ∧ f a = some b :=
  Option.bind_eq_some_iff

theorem parse_from_eq (bytes : List UInt8) :
    parse_from bytes =
      if bytes.length = 432 then
        (version_of (u16_from_le_bytes (slice bytes 0 2))).bind fun version =>
          (signature_type_of (u16_from_le_bytes (slice bytes 2 4))).map fun signature_type =>
            quote_fields bytes version signature_type
      else none := by
  split_ifs with hlen
  · -- every take is in bounds, and the cursor ends at the end
    have hreport : fill_from 64 (slice bytes 368 432) = some (slice bytes 368 432) := by
      rw [fill_from_of_le (by rw [length_slice (by omega)]),
        List.take_of_length_le (by rw [length_slice (by omega)])]
    simp (disch := omega) only [parse_from, take_of_le, array_of_slice, some_bind_eq,
      Nat.reduceAdd, hreport]
    simp only [hlen, ne_eq, not_true_eq_false, if_false]
    congr 1
    funext version
    cases signature_type_of (u16_from_le_bytes (slice bytes 2 4)) <;> rfl
  · rw [Option.eq_none_iff_forall_ne_some]
    intro q h
    have hlen' : ¬ 432 = bytes.length := fun e => hlen e.symm
    simp only [parse_from, bind_eq_some_iff, Prod.exists, take_eq_some,
      array_of_eq_some, fill_from_eq_some, and_assoc, exists_eq_left, exists_and_left, Nat.reduceAdd,
      ne_eq, ite_not, hlen', if_false, reduceCtorEq, false_and, and_false, exists_false] at h

theorem version_of_isSome (v : UInt16) : (version_of v).isSome ↔ v = 1 ∨ v = 2 := by
  unfold version_of
  split_ifs <;> simp_all

theorem signature_type_of_isSome (v : UInt16) : (signature_type_of v).isSome ↔ v = 0 ∨ v = 1 := by
  unfold signature_type_of
  split_ifs <;> simp_all

/-- **The layout of the quote body**: `parse_from` succeeds exactly on 432
    bytes whose version is 1 or 2 and whose signature type is 0 or 1, and
    then reads every field, little-endian, at the offset of its comment. -/
theorem parse_from_layout (bytes : List UInt8) :
    ((parse_from bytes).isSome ↔ bytes.length = 432 ∧
        (u16_from_le_bytes (slice bytes 0 2) = 1 ∨ u16_from_le_bytes (slice bytes 0 2) = 2) ∧
        (u16_from_le_bytes (slice bytes 2 4) = 0 ∨ u16_from_le_bytes (slice bytes 2 4) = 1)) ∧
      ∀ q, parse_from bytes = some q →
        q.gid = u32_from_le_bytes (slice bytes 4 8) ∧
        q.isv_svn_qe = u16_from_le_bytes (slice bytes 8 10) ∧
        q.isv_svn_pce = u16_from_le_bytes (slice bytes 10 12) ∧
        q.qe_vendor_id = slice bytes 12 28 ∧
        q.user_data = slice bytes 28 48 ∧
        q.report_body.cpu_svn = slice bytes 48 64 ∧
        q.report_body.misc_select = u32_from_le_bytes (slice bytes 64 68) ∧
        q.report_body.attributes = slice bytes 96 112 ∧
        q.report_body.mr_enclave = slice bytes 112 144 ∧
        q.report_body.mr_signer = slice bytes 176 208 ∧
        q.report_body.isv_prod_id = u16_from_le_bytes (slice bytes 304 306) ∧
        q.report_body.isv_svn = u16_from_le_bytes (slice bytes 306 308) ∧
        q.report_body.report_data = slice bytes 368 432 := by
  rw [parse_from_eq]
  constructor
  · split_ifs with hlen
    · rw [← version_of_isSome, ← signature_type_of_isSome]
      cases version_of (u16_from_le_bytes (slice bytes 0 2)) <;>
        cases signature_type_of (u16_from_le_bytes (slice bytes 2 4)) <;> simp [hlen]
    · simp [hlen]
  · intro q h
    -- a short or long input was refused
    split_ifs at h with hlen
    obtain ⟨version, -, hq⟩ := Option.bind_eq_some_iff.mp h
    obtain ⟨signature_type, -, rfl⟩ := Option.map_eq_some_iff.mp hq
    simp [quote_fields]

end Teaclave.Attestation
