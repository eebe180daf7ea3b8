/-
  Teaclave.Lib.FixedInt
  ─────────────────────
  **FIXED-WIDTH LITTLE-ENDIAN INTEGERS.**

  The `FixedInt` encoding of `integer_encoding`: an integer of `w` bytes
  written least significant byte first, and read back by the same rule.

    • `decode_encode_fixed`: reading `w` written bytes gives the value
      modulo `256 ^ w`.
-/
import Mathlib

namespace Teaclave.Lib

/-- `encode_fixed`: the `w` low bytes of `n`, least significant first. -/
def encode_fixed : Nat → Nat → List UInt8
  | 0, _ => []
  | w + 1, n => (n % 256).toUInt8 :: encode_fixed w (n / 256)

theorem encode_fixed_zero (n : Nat) : encode_fixed 0 n = [] := rfl

theorem encode_fixed_succ (w n : Nat) :
    encode_fixed (w + 1) n = (n % 256).toUInt8 :: encode_fixed w (n / 256) := rfl

/-- `decode_fixed`: the value of little-endian bytes. -/
def decode_fixed (bs : List UInt8) : Nat := bs.foldr (fun b acc => b.toNat + 256 * acc) 0

example : encode_fixed 4 0x01020304 = [4, 3, 2, 1] := by decide

@[simp] theorem length_encode_fixed (w n : Nat) : (encode_fixed w n).length = w := by
  induction w generalizing n with
  | zero => rfl
  | succ w ih => simp [encode_fixed_succ, ih]

@[simp] theorem decode_fixed_nil : decode_fixed [] = 0 := rfl

@[simp] theorem decode_fixed_cons (b : UInt8) (bs : List UInt8) :
    decode_fixed (b :: bs) = b.toNat + 256 * decode_fixed bs := rfl

/-- **Reading back what was written** gives the value modulo the width. -/
theorem decode_encode_fixed (w n : Nat) : decode_fixed (encode_fixed w n) = n % 256 ^ w := by
  -- induction on the width; each byte is one digit of `n` in base 256
  induction w generalizing n with
  | zero => simp [encode_fixed_zero, Nat.mod_one]
  | succ w ih =>
      have hdigit : ((n % 256).toUInt8).toNat = n % 256 := by
        rw [Nat.toUInt8_eq, UInt8.toNat_ofNat', Nat.mod_mod_of_dvd _ (by decide)]
      simp only [encode_fixed_succ, decode_fixed_cons, hdigit, ih]
      rw [Nat.pow_succ', Nat.mod_mul]

end Teaclave.Lib
