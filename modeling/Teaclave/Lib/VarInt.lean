/-
  Teaclave.Lib.VarInt
  ───────────────────
  **VARIABLE-LENGTH INTEGERS (LEB128).**

  The `VarInt` encoding of `integer_encoding`: seven bits of the integer
  per byte, least significant first, the high bit set on every byte but
  the last.  `decode_var` reads bytes until one without the high bit (or
  the end of the input) and returns the value and the number of bytes it
  read; a `u64` never needs more than ten, so the model reads without the
  cap and the wrapping that only malformed input reaches.

    • `decode_var_encode_var`: decoding what was encoded, with any bytes
      after it, gives the integer and the length of its encoding.
    • `length_encode_var_le`: an integer below `128 ^ k` takes at most `k`
      bytes (at least one).

  Nothing here names the repository.
-/
import Mathlib

namespace Teaclave.Lib

/-- The loop of `encode_var`: one byte per pass while the integer is at
    least `128`, on fuel. -/
def encode_var_loop : Nat → Nat → List UInt8
  | 0, n => [n.toUInt8]
  | fuel + 1, n => if n < 128 then [n.toUInt8] else (n % 128 + 128).toUInt8 :: encode_var_loop fuel (n / 128)

/-- `encode_var`: seven bits per byte, lowest first, the high bit on every
    byte but the last.  The integer itself is fuel enough. -/
def encode_var (n : Nat) : List UInt8 := encode_var_loop n n

theorem encode_var_loop_step (fuel n : Nat) :
    encode_var_loop (fuel + 1) n =
      if n < 128 then [n.toUInt8] else (n % 128 + 128).toUInt8 :: encode_var_loop fuel (n / 128) := rfl

theorem encode_var_eq (n : Nat) : encode_var n = encode_var_loop n n := rfl

/-- `decode_var`: the value of the bytes up to the first without the high
    bit, and how many bytes that is. -/
def decode_var : List UInt8 → Nat × Nat
  | [] => (0, 0)
  | b :: bs =>
    if b.toNat < 128 then (b.toNat, 1)
    else
      let r := decode_var bs
      (b.toNat - 128 + 128 * r.1, r.2 + 1)

/-- `required_space`: the length of the encoding. -/
def required_space (n : Nat) : Nat := (encode_var n).length

example : encode_var 300 = [0xac, 0x02] := by decide
example : decode_var [0xac, 0x02, 0x07] = (300, 2) := by decide

theorem toNat_toUInt8_of_lt {n : Nat} (h : n < 256) : n.toUInt8.toNat = n := by
  simp [Nat.mod_eq_of_lt h]

/-- Fuel beyond the integer changes nothing. -/
theorem encode_var_loop_succ : ∀ (fuel n : Nat), n ≤ fuel → encode_var_loop (fuel + 1) n = encode_var_loop fuel n
  | 0, n, h => by
      obtain rfl : n = 0 := by omega
      rfl
  | fuel + 1, n, h => by
      rw [encode_var_loop_step (fuel + 1) n, encode_var_loop_step fuel n]
      split_ifs with hn
      · rfl
      · rw [encode_var_loop_succ fuel (n / 128) (by omega)]

theorem encode_var_loop_of_le {fuel n : Nat} (h : n ≤ fuel) : encode_var_loop fuel n = encode_var n := by
  induction fuel, h using Nat.le_induction with
  | base => rfl
  | succ fuel hle ih => rw [encode_var_loop_succ fuel n hle, ih]

theorem encode_var_of_lt {n : Nat} (h : n < 128) : encode_var n = [n.toUInt8] := by
  cases n with
  | zero => rfl
  | succ n => rw [encode_var_eq, encode_var_loop_step, if_pos h]

theorem encode_var_of_ge {n : Nat} (h : 128 ≤ n) :
    encode_var n = (n % 128 + 128).toUInt8 :: encode_var (n / 128) := by
  obtain ⟨f, rfl⟩ : ∃ f, n = f + 1 := ⟨n - 1, by omega⟩
  rw [encode_var_eq, encode_var_loop_step, if_neg (by omega), encode_var_loop_of_le (by omega)]

theorem encode_var_ne_nil (n : Nat) : encode_var n ≠ [] := by
  by_cases h : n < 128
  · simp [encode_var_of_lt h]
  · simp [encode_var_of_ge (not_lt.mp h)]

/-- **Round trip**: by strong induction on the integer, one byte per step. -/
theorem decode_var_encode_var (n : Nat) (rest : List UInt8) :
    decode_var (encode_var n ++ rest) = (n, (encode_var n).length) := by
  induction n using Nat.strongRecOn with
  | ind n ih =>
    by_cases hn : n < 128
    · rw [encode_var_of_lt hn, List.singleton_append, decode_var, toNat_toUInt8_of_lt (by omega), if_pos hn]
      rfl
    · -- a byte with the high bit, then the encoding of the rest of the integer
      have hb := toNat_toUInt8_of_lt (show n % 128 + 128 < 256 by omega)
      rw [encode_var_of_ge (by omega), List.cons_append, decode_var, hb, if_neg (by omega)]
      simp only [ih (n / 128) (by omega), List.length_cons, Prod.mk.injEq, and_true]
      omega

theorem decode_var_encode_var_nil (n : Nat) : decode_var (encode_var n) = (n, required_space n) := by
  simpa [required_space] using decode_var_encode_var n []

/-- An integer below `128 ^ k` takes at most `k` bytes. -/
theorem length_encode_var_le : ∀ (k n : Nat), n < 128 ^ (k + 1) → (encode_var n).length ≤ k + 1
  | 0, n, h => by rw [encode_var_of_lt (by simpa using h)]; simp
  | k + 1, n, h => by
      by_cases hn : n < 128
      · rw [encode_var_of_lt hn]; simp
      · have hdiv : n / 128 < 128 ^ (k + 1) := by
          rw [Nat.div_lt_iff_lt_mul (by decide), ← pow_succ]
          exact h
        rw [encode_var_of_ge (by omega), List.length_cons]
        have := length_encode_var_le k (n / 128) hdiv
        omega

theorem required_space_pos (n : Nat) : 0 < required_space n :=
  List.length_pos_iff.mpr (encode_var_ne_nil n)

end Teaclave.Lib
