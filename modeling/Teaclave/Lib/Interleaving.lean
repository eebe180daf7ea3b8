/-
  Teaclave.Lib.Interleaving
  ──────────────────────────
  **LABELLED TRANSITION SYSTEMS AND THREAD POOLS.**

  Two generic pieces every service model of the development is built on.

    • A partial step function `step : σ → ε → Option σ` is replayed over a
      trace of labels by `run`; `Reachable` is the set of states some trace
      reaches.  `Reachable.invariant` is the one induction rule: an invariant
      that holds initially and survives every enabled step holds everywhere.
      `run_invariant` is its form over traces, for invariants that also speak
      of the labels seen so far (a random source that never repeats itself,
      an event that happened earlier).

    • A `Pool` is a shared state and a growing list of threads, each serving
      one request.  A label either spawns a thread or lets thread `i` take one
      atomic step on the shared state (`PoolLabel.exec`).  Every interleaving
      of the threads' atomic steps is a trace of the pool.  `Pool.step_exec`
      is the inversion lemma the invariant proofs use instead of unfolding.

  Nothing here names the repository.
-/
import Mathlib

namespace Teaclave.Lib

/-! ## §1. Traces of a partial step function. -/

section Run

variable {σ ε : Type} (step : σ → ε → Option σ)

/-- Replay a trace: apply the labels in order, failing at the first disabled one. -/
def run : σ → List ε → Option σ
  | s, [] => some s
  | s, e :: es => (step s e).bind (fun s' => run s' es)

@[simp] theorem run_nil (s : σ) : run step s [] = some s := rfl

@[simp] theorem run_cons (s : σ) (e : ε) (es : List ε) :
    run step s (e :: es) = (step s e).bind (fun s' => run step s' es) := rfl

/-- Replaying a concatenation replays the two halves in turn. -/
theorem run_append (s : σ) (es fs : List ε) :
    run step s (es ++ fs) = (run step s es).bind (fun s' => run step s' fs) := by
  induction es generalizing s with
  | nil => rfl
  | cons e es ih =>
      simp only [List.cons_append, run_cons]
      cases step s e with
      | none => rfl
      | some s' => exact ih s'

/-- The states some trace reaches from `init`. -/
inductive Reachable (init : σ) : σ → Prop
  | init : Reachable init init
  | step {s s' : σ} (e : ε) : Reachable init s → step s e = some s' → Reachable init s'

variable {step}

/-- Replaying a trace from a reachable state stays among the reachable states. -/
theorem Reachable.extend {init s₀ s : σ} (h₀ : Reachable step init s₀) :
    ∀ {es : List ε}, run step s₀ es = some s → Reachable step init s := by
  intro es
  induction es generalizing s₀ with
  | nil =>
      intro h
      cases h
      exact h₀
  | cons e es ih =>
      intro h
      simp only [run_cons] at h
      cases hs : step s₀ e with
      | none => simp [hs] at h
      | some s₁ =>
          simp only [hs, Option.bind_some] at h
          exact ih (.step e h₀ hs) h

/-- A state a trace reaches from `init` is reachable. -/
theorem Reachable.of_run {init s : σ} {es : List ε} (h : run step init es = some s) :
    Reachable step init s :=
  Reachable.init.extend h

/-- Every reachable state is reached by a trace. -/
theorem Reachable.exists_run {init s : σ} (h : Reachable step init s) :
    ∃ es : List ε, run step init es = some s := by
  induction h with
  | init => exact ⟨[], rfl⟩
  | step e _ hs ih =>
      obtain ⟨es, hes⟩ := ih
      refine ⟨es ++ [e], ?_⟩
      rw [run_append, hes]
      simp [hs]

/-- **The invariant rule.**  A property of the initial state that every enabled
    step from a reachable state preserves holds in every reachable state. -/
theorem Reachable.invariant {init : σ} {P : σ → Prop} (h0 : P init)
    (hstep : ∀ s e s', Reachable step init s → P s → step s e = some s' → P s')
    {s : σ} (h : Reachable step init s) : P s := by
  induction h with
  | init => exact h0
  | step e hr hs ih => exact hstep _ e _ hr ih hs

/-- **The trace invariant rule.**  A property of a trace and the state it
    reaches, true of the empty trace and kept by every enabled step, holds of
    every run; it may speak of the labels seen so far. -/
theorem run_invariant {init : σ} {P : List ε → σ → Prop} (h0 : P [] init)
    (hstep : ∀ es s e s', run step init es = some s → P es s → step s e = some s' →
      P (es ++ [e]) s')
    {es : List ε} {s : σ} (h : run step init es = some s) : P es s := by
  induction es using List.reverseRecOn generalizing s with
  | nil =>
      cases h
      exact h0
  | append_singleton es e ih =>
      rw [run_append] at h
      cases hr : run step init es with
      | none => simp [hr] at h
      | some s₀ =>
          simp only [hr, Option.bind_some, run_cons, run_nil] at h
          cases hs : step s₀ e with
          | none => simp [hs] at h
          | some s₁ =>
              simp only [hs, Option.bind_some, Option.some.injEq] at h
              subst h
              exact hstep es s₀ e s₁ hr (ih hr) hs

end Run

/-! ## §2. Thread pools: every interleaving of atomic steps. -/

/-- A shared state and the threads serving requests, in order of arrival. -/
structure Pool (σ τ : Type) where
  shared : σ
  threads : List τ

/-- One scheduling decision: a request arrives, or thread `i` takes one atomic
    step, reading the outside input `a` (what a remote service or a random
    source answered). -/
inductive PoolLabel (ρ α : Type) where
  | spawn (r : ρ)
  | exec (i : Nat) (a : α)

section PoolStep

variable {σ τ ρ α : Type} (start : ρ → τ) (tstep : Nat → σ → τ → α → Option (σ × τ))

/-- The pool's step: spawning appends a fresh thread; `exec i a` runs thread `i`'s
    next atomic step, which may be disabled (a lock that is held, a thread that
    has finished).  The thread step is told its own index, which is what a lock
    records as its holder. -/
def Pool.step (p : Pool σ τ) : PoolLabel ρ α → Option (Pool σ τ)
  | .spawn r => some ⟨p.shared, p.threads ++ [start r]⟩
  | .exec i a =>
      match p.threads[i]? with
      | none => none
      | some t =>
          match tstep i p.shared t a with
          | none => none
          | some (s', t') => some ⟨s', p.threads.set i t'⟩

variable {start tstep}

/-- **Inversion for a spawn.** -/
theorem Pool.step_spawn {p p' : Pool σ τ} {r : ρ}
    (h : Pool.step start tstep p (.spawn r) = some p') :
    p' = ⟨p.shared, p.threads ++ [start r]⟩ := by
  simp only [Pool.step, Option.some.injEq] at h
  exact h.symm

/-- **Inversion for a thread step**: which thread ran, what it saw, what it left. -/
theorem Pool.step_exec {p p' : Pool σ τ} {i : Nat} {a : α}
    (h : Pool.step start tstep p (.exec i a) = some p') :
    ∃ t s' t', p.threads[i]? = some t ∧ tstep i p.shared t a = some (s', t') ∧
      p' = ⟨s', p.threads.set i t'⟩ := by
  simp only [Pool.step] at h
  cases ht : p.threads[i]? with
  | none => simp [ht] at h
  | some t =>
      simp only [ht] at h
      cases hs : tstep i p.shared t a with
      | none => simp [hs] at h
      | some st =>
          obtain ⟨s', t'⟩ := st
          simp only [hs, Option.some.injEq] at h
          exact ⟨t, s', t', rfl, hs, h.symm⟩

/-- After a thread step, the thread list reads the new state at `i` and the old
    states everywhere else. -/
theorem getElem?_set_of {ts : List τ} {i j : Nat} {t t' : τ} (h : ts[i]? = some t) :
    (ts.set i t')[j]? = if j = i then some t' else ts[j]? := by
  have hi : i < ts.length := (List.getElem?_eq_some_iff.mp h).1
  by_cases hj : j = i
  · subst hj
    simp [hi]
  · simp [hj, List.getElem?_set_ne (Ne.symm hj)]

/-- A fact about every thread survives a thread step when the new state at `i`
    has it and every other thread had it. -/
theorem forall_set_of {ts : List τ} {i : Nat} {t t' : τ} {P : Nat → τ → Prop}
    (h : ts[i]? = some t) (hi : P i t') (ho : ∀ j t₀, j ≠ i → ts[j]? = some t₀ → P j t₀) :
    ∀ j t₀, (ts.set i t')[j]? = some t₀ → P j t₀ := by
  intro j t₀ hj
  rw [getElem?_set_of h] at hj
  by_cases hji : j = i
  · subst hji
    rw [if_pos rfl, Option.some.injEq] at hj
    subst hj
    exact hi
  · rw [if_neg hji] at hj
    exact ho j t₀ hji hj

/-- Counting threads after a thread step: the old state at `i` leaves the count,
    the new one joins it. -/
theorem countP_set_of {ts : List τ} {i : Nat} {t : τ} (f : τ → Bool) (t' : τ)
    (h : ts[i]? = some t) :
    (ts.set i t').countP f + (if f t then 1 else 0) = ts.countP f + (if f t' then 1 else 0) := by
  obtain ⟨hi, rfl⟩ := List.getElem?_eq_some_iff.mp h
  have hle : (if f ts[i] then 1 else 0) ≤ ts.countP f := List.boole_getElem_le_countP hi
  rw [List.countP_set hi]
  omega

/-- A fact about every thread survives a spawn when the new thread has it at
    the next index. -/
theorem forall_append_of {ts : List τ} {t : τ} {P : Nat → τ → Prop} (hn : P ts.length t)
    (ho : ∀ j t₀, ts[j]? = some t₀ → P j t₀) :
    ∀ j t₀, (ts ++ [t])[j]? = some t₀ → P j t₀ := by
  intro j t₀ hj
  by_cases hlt : j < ts.length
  · rw [List.getElem?_append_left hlt] at hj
    exact ho j t₀ hj
  · rw [List.getElem?_append_right (Nat.le_of_not_lt hlt), List.getElem?_singleton] at hj
    split_ifs at hj with h0
    · rw [Option.some.injEq] at hj
      subst hj
      have hj : j = ts.length := by omega
      subst hj
      exact hn

end PoolStep

end Teaclave.Lib
