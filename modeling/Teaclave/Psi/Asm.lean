/-
  Teaclave.Psi.Asm
  ────────────────
  **THE INLINE ASSEMBLY OF THE PSI PRIMITIVES.**

  `trusted_worker/psi/basic.rs` writes `oequal`, `ob` and `omov` in inline
  assembly (`asm!`, LLVM's syntax), and `Psi.Basic` models each by what it
  computes.  Here the three templates run on `Lib.X86`, with their operands
  bound as the constraints say:

      oequal   cmp %rcx, %rdx; sete %al          x in rcx, y in rdx, al out
      ob       cmp %rdx, %rcx; setb %al          x in rcx, y in rdx, al out
      omov     xor %rcx, %rcx; mov $1, %rcx;     flag in "r", x in rax,
               test %rcx, %rcx; cmovz %rdx, %rax     y in rdx, rax out

  In `omov`, `$1` is operand 1, the register `"r"(flag)` gets; it is not the
  number one.  That register is any the other operands and the clobbers
  leave (`FlagReg`).  Whatever the machine held before:

    • `oequal_asm_eq`: `oequal` is equality of the two words;
    • `ob_asm_eq`: `ob` is the unsigned `x < y`;
    • `omov_asm_eq`: `omov` is `x` when the flag is not zero, else `y`;
    • `psi_comparisons_exact`: with `eq_eq` and `le_eq`, the comparisons of
      whole records are exact.
-/
import Teaclave.Lib.X86
import Teaclave.Psi.Basic

namespace Teaclave.Psi

open Teaclave.Lib.X86

/-! ## §1. The templates. -/

/-- `"={al}"(ret) : "{rcx}"(x), "{rdx}"(y)`: operands `0`, `1`, `2`. -/
def cmp_bind : Nat → Reg
  | 0 => .rax
  | 1 => .rcx
  | _ => .rdx

/-- `oequal`: `cmp %rcx, %rdx; sete %al`. -/
def oequal_code : List Instr := [.cmp (.reg .rcx) (.reg .rdx), .sete (.reg .rax)]

/-- `ob`: `cmp %rdx, %rcx; setb %al`. -/
def ob_code : List Instr := [.cmp (.reg .rdx) (.reg .rcx), .setb (.reg .rax)]

/-- `oequal` as its assembly runs: a `bool` read from `al`. -/
def oequal_asm (x y : BitVec 64) (m : Machine) : Bool :=
  bool_of_byte (low_byte (asm_block cmp_bind oequal_code [(.rcx, x), (.rdx, y)] .rax m))

/-- `ob` as its assembly runs. -/
def ob_asm (x y : BitVec 64) (m : Machine) : Bool :=
  bool_of_byte (low_byte (asm_block cmp_bind ob_code [(.rcx, x), (.rdx, y)] .rax m))

/-- The register `"r"(flag)` may get: not `rax` or `rdx`, which hold the
    other inputs, and not the clobbered `rcx`. -/
structure FlagReg where
  reg : Reg
  free : reg ≠ .rax ∧ reg ≠ .rcx ∧ reg ≠ .rdx

/-- `"={rax}"(ret) : "r"(flag), "{rax}"(x), "{rdx}"(y)`: operands `0` to `3`. -/
def omov_bind (r : FlagReg) : Nat → Reg
  | 0 => .rax
  | 1 => r.reg
  | 2 => .rax
  | _ => .rdx

/-- `omov`: `xor %rcx, %rcx; mov $1, %rcx; test %rcx, %rcx; cmovz %rdx, %rax`. -/
def omov_code : List Instr :=
  [.xor (.reg .rcx) (.reg .rcx), .mov (.op 1) (.reg .rcx), .test (.reg .rcx) (.reg .rcx),
    .cmovz (.reg .rdx) (.reg .rax)]

/-- `omov` as its assembly runs: the word left in `rax`. -/
def omov_asm (r : FlagReg) (flag x y : BitVec 64) (m : Machine) : BitVec 64 :=
  asm_block (omov_bind r) omov_code [(r.reg, flag), (.rax, x), (.rdx, y)] .rax m

/-! ## §2. What they compute. -/

/-- **`oequal` is equality.** -/
theorem oequal_asm_eq (x y : BitVec 64) (m : Machine) : oequal_asm x y m = decide (x = y) := by
  -- `cmp` sets `ZF` to `y = x`, and `sete` copies it into `al`
  have hyx : decide (y = x) = decide (x = y) := by simp only [eq_comm]
  simp [oequal_asm, asm_block_eq, oequal_code, Arg.resolve_reg, hyx]

/-- **`ob` is the unsigned `x < y`.** -/
theorem ob_asm_eq (x y : BitVec 64) (m : Machine) : ob_asm x y m = decide (x.toNat < y.toNat) := by
  -- `cmp` computes `x - y`, whose borrow `setb` copies into `al`
  simp [ob_asm, asm_block_eq, ob_code, Arg.resolve_reg]

theorem toInt_ne_zero_iff {x : BitVec 64} : x.toInt ≠ 0 ↔ x ≠ 0 := by
  simp [← BitVec.toInt_inj]

/-- **`omov` is `x` when the flag is not zero, else `y`**, whichever
    register holds the flag. -/
theorem omov_asm_eq (r : FlagReg) (flag x y : BitVec 64) (m : Machine) :
    omov_asm r flag x y m = if flag ≠ 0 then x else y := by
  -- the flag's register is none that the template writes or loads
  obtain ⟨hax, hcx, hdx⟩ := r.free
  -- `cmovz` moves `y` exactly when the flag tested zero
  by_cases hf : flag = 0#64
  · simp [omov_asm, asm_block_eq, omov_code, omov_bind, Arg.resolve_reg, Arg.resolve_op, hax, hcx,
      hdx, hf]
  · simp [omov_asm, asm_block_eq, omov_code, omov_bind, Arg.resolve_reg, Arg.resolve_op, hax, hcx,
      hdx, hf]

/-- The assembly computes the primitives of `Psi.Basic` on the words they
    are given. -/
theorem omov_asm_toInt (r : FlagReg) (flag x y : BitVec 64) (m : Machine) :
    (omov_asm r flag x y m).toInt = omov flag.toInt x.toInt y.toInt := by
  rw [omov_asm_eq, omov_eq]
  by_cases hf : flag = 0#64
  · simp [hf]
  · simp [hf, toInt_ne_zero_iff.mpr hf]

theorem oequal_asm_toNat (x y : BitVec 64) (m : Machine) :
    oequal_asm x y m = oequal x.toNat y.toNat := by
  rw [oequal_asm_eq, oequal_eq]
  by_cases h : x = y
  · simp [h]
  · simp [h, BitVec.toNat_inj]

theorem ob_asm_toNat (x y : BitVec 64) (m : Machine) : ob_asm x y m = ob x.toNat y.toNat := by
  rw [ob_asm_eq, ob_eq]

/-- **The comparisons of the PSI worker are exact.**  On 32-byte records,
    `eq` is `1` exactly for equal records and `0` otherwise, and `le` is `1`
    exactly when the first record's bytes are lexicographically at most the
    second's; the assembly of `omov`, `oequal` and `ob` computes the choice
    on a non-zero flag, equality, and the unsigned `<`. -/
theorem psi_comparisons_exact :
    (∀ a b : HashRecord, eq a b = if a = b then 1 else 0) ∧
    (∀ a b : HashRecord, le a b = if bytes a ≤ bytes b then 1 else 0) ∧
    (∀ (r : FlagReg) (flag x y : BitVec 64) (m : Machine),
      (omov_asm r flag x y m).toInt = if flag.toInt ≠ 0 then x.toInt else y.toInt) ∧
    (∀ (x y : BitVec 64) (m : Machine), oequal_asm x y m = decide (x.toNat = y.toNat)) ∧
    (∀ (x y : BitVec 64) (m : Machine), ob_asm x y m = decide (x.toNat < y.toNat)) := by
  refine ⟨eq_eq, le_eq, fun r flag x y m => ?_, fun x y m => ?_, ob_asm_eq⟩
  · exact omov_asm_toInt r flag x y m
  · exact oequal_asm_toNat x y m

end Teaclave.Psi
