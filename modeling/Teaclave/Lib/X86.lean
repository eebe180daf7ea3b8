/-
  Teaclave.Lib.X86
  ────────────────
  **A FEW x86-64 INSTRUCTIONS, AND INLINE ASSEMBLY.**

  Sixteen 64-bit registers and the two flags that comparisons leave for
  `setcc` and `cmovcc` (`ZF`, `CF`; the other flags are not modelled).  The
  instructions take AT&T operand order, source first:

      xor   s, d    d := d ^ s           ZF := (d ^ s = 0), CF := 0
      mov   s, d    d := s               flags kept
      test  s, d    d & s, not written   ZF := (d & s = 0), CF := 0
      cmp   s, d    d - s, not written   ZF := (d = s), CF := (d < s unsigned)
      cmovz s, d    d := s when ZF       flags kept
      sete d, setb d                     the low byte of d := ZF, CF

  An inline-assembly template names its operands `$0`, `$1`, … in LLVM's
  syntax, outputs first: `Arg.op n` is operand `n`, which the constraints
  bind to a register.  `asm_block` loads the inputs, runs the template from
  whatever the machine held before, and reads the output register.

    • `run_append` composes runs; the `exec_*` lemmas say what each
      instruction writes.
    • `low_byte_set_low_byte`: what `setcc` leaves in the low byte.

  Nothing here names the repository.
-/
import Mathlib

namespace Teaclave.Lib.X86

/-! ## §1. The machine. -/

inductive Reg where
  | rax | rbx | rcx | rdx | rsi | rdi | rbp | rsp
  | r8 | r9 | r10 | r11 | r12 | r13 | r14 | r15
  deriving DecidableEq, Repr

structure Machine where
  regs : Reg → BitVec 64
  zf : Bool
  cf : Bool

/-- A register written, the others and the flags kept. -/
def Machine.write (m : Machine) (r : Reg) (v : BitVec 64) : Machine :=
  { m with regs := fun r' => if r' = r then v else m.regs r' }

section Write

variable (m : Machine) (r : Reg) (v : BitVec 64)

theorem Machine.write_regs : (m.write r v).regs = fun r' => if r' = r then v else m.regs r' := rfl

@[simp] theorem Machine.write_self : (m.write r v).regs r = v := by
  simp [Machine.write_regs]

@[simp] theorem Machine.write_ne {r' : Reg} (h : r' ≠ r) : (m.write r v).regs r' = m.regs r' := by
  simp [Machine.write_regs, h]

@[simp] theorem Machine.write_zf : (m.write r v).zf = m.zf := rfl

@[simp] theorem Machine.write_cf : (m.write r v).cf = m.cf := rfl

end Write

/-- The low byte of a register, as `al` is of `rax`. -/
def low_byte (v : BitVec 64) : BitVec 8 := v.setWidth 8

/-- What `setcc` writes: the low byte becomes `1` or `0`, the rest is kept. -/
def set_low_byte (v : BitVec 64) (b : Bool) : BitVec 64 :=
  (v &&& ~~~(0xFF#64)) ||| (if b then 1#64 else 0#64)

@[simp] theorem low_byte_set_low_byte (v : BitVec 64) (b : Bool) :
    low_byte (set_low_byte v b) = if b then 1#8 else 0#8 := by
  unfold low_byte set_low_byte
  cases b <;> ext i hi <;> simp

/-- A `bool` output read from a byte register: `setcc` leaves `0` or `1`. -/
def bool_of_byte (v : BitVec 8) : Bool := v != 0

@[simp] theorem bool_of_byte_ite (p : Prop) [Decidable p] :
    bool_of_byte (if p then 1#8 else 0#8) = decide p := by
  by_cases hp : p <;> simp [hp, bool_of_byte]

/-! ## §2. Instructions and templates. -/

/-- An operand of a template: a register it names, or operand `n` of the
    block (`$n`). -/
inductive Arg where
  | reg (r : Reg)
  | op (n : Nat)

inductive Instr where
  | xor (s d : Arg)
  | mov (s d : Arg)
  | test (s d : Arg)
  | cmp (s d : Arg)
  | cmovz (s d : Arg)
  | sete (d : Arg)
  | setb (d : Arg)

/-- The register an operand stands for, as the constraints bind it. -/
def Arg.resolve (bind : Nat → Reg) : Arg → Reg
  | .reg r => r
  | .op n => bind n

theorem Arg.resolve_reg (bind : Nat → Reg) (r : Reg) : (Arg.reg r).resolve bind = r := rfl

theorem Arg.resolve_op (bind : Nat → Reg) (n : Nat) : (Arg.op n).resolve bind = bind n := rfl

section Exec

variable (bind : Nat → Reg)

def Instr.exec (m : Machine) : Instr → Machine
  | .xor s d =>
      let v := m.regs (d.resolve bind) ^^^ m.regs (s.resolve bind)
      { m.write (d.resolve bind) v with zf := v == 0, cf := false }
  | .mov s d => m.write (d.resolve bind) (m.regs (s.resolve bind))
  | .test s d =>
      { m with zf := (m.regs (d.resolve bind) &&& m.regs (s.resolve bind)) == 0, cf := false }
  | .cmp s d =>
      let a := m.regs (d.resolve bind)
      let b := m.regs (s.resolve bind)
      -- `a - b` is computed only for its flags: zero, and the borrow
      { m with zf := a == b, cf := decide (a.toNat < b.toNat) }
  | .cmovz s d => if m.zf then m.write (d.resolve bind) (m.regs (s.resolve bind)) else m
  | .sete d => m.write (d.resolve bind) (set_low_byte (m.regs (d.resolve bind)) m.zf)
  | .setb d => m.write (d.resolve bind) (set_low_byte (m.regs (d.resolve bind)) m.cf)

/-- A template run from `m`, one instruction after another. -/
def run (m : Machine) (code : List Instr) : Machine := code.foldl (Instr.exec bind) m

@[simp] theorem run_nil (m : Machine) : run bind m [] = m := rfl

@[simp] theorem run_cons (m : Machine) (i : Instr) (code : List Instr) :
    run bind m (i :: code) = run bind (i.exec bind m) code := rfl

theorem run_append (m : Machine) (c₁ c₂ : List Instr) :
    run bind m (c₁ ++ c₂) = run bind (run bind m c₁) c₂ := by
  simp [run, List.foldl_append]

/-- An inline-assembly block: the inputs loaded into their registers, the
    template run, the output register read. -/
def asm_block (code : List Instr) (inputs : List (Reg × BitVec 64)) (out : Reg) (m : Machine) :
    BitVec 64 :=
  (run bind (inputs.foldl (fun m rv => m.write rv.1 rv.2) m) code).regs out

theorem asm_block_eq (code : List Instr) (inputs : List (Reg × BitVec 64)) (out : Reg) (m : Machine) :
    asm_block bind code inputs out m =
      (run bind (inputs.foldl (fun m rv => m.write rv.1 rv.2) m) code).regs out := rfl

end Exec

section Semantics

variable (bind : Nat → Reg) (m : Machine) (s d : Arg)

theorem exec_xor :
    (Instr.xor s d).exec bind m =
      { m.write (d.resolve bind) (m.regs (d.resolve bind) ^^^ m.regs (s.resolve bind)) with
        zf := (m.regs (d.resolve bind) ^^^ m.regs (s.resolve bind)) == 0, cf := false } := rfl

theorem exec_test :
    (Instr.test s d).exec bind m =
      { m with zf := (m.regs (d.resolve bind) &&& m.regs (s.resolve bind)) == 0, cf := false } := rfl

@[simp] theorem exec_xor_self :
    (Instr.xor s s).exec bind m = { m.write (s.resolve bind) 0 with zf := true, cf := false } := by
  simp [exec_xor]

@[simp] theorem exec_mov : (Instr.mov s d).exec bind m = m.write (d.resolve bind) (m.regs (s.resolve bind)) :=
  rfl

@[simp] theorem exec_test_self :
    (Instr.test s s).exec bind m = { m with zf := m.regs (s.resolve bind) == 0, cf := false } := by
  simp [exec_test]

@[simp] theorem exec_cmp :
    (Instr.cmp s d).exec bind m =
      { m with zf := m.regs (d.resolve bind) == m.regs (s.resolve bind),
               cf := decide ((m.regs (d.resolve bind)).toNat < (m.regs (s.resolve bind)).toNat) } :=
  rfl

@[simp] theorem exec_cmovz :
    (Instr.cmovz s d).exec bind m =
      if m.zf then m.write (d.resolve bind) (m.regs (s.resolve bind)) else m :=
  rfl

@[simp] theorem exec_sete :
    (Instr.sete d).exec bind m = m.write (d.resolve bind) (set_low_byte (m.regs (d.resolve bind)) m.zf) :=
  rfl

@[simp] theorem exec_setb :
    (Instr.setb d).exec bind m = m.write (d.resolve bind) (set_low_byte (m.regs (d.resolve bind)) m.cf) :=
  rfl

end Semantics

end Teaclave.Lib.X86
