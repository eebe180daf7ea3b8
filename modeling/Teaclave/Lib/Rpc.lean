/-
  Teaclave.Lib.Rpc
  ────────────────
  **A SYNCHRONOUS CALL BETWEEN TWO PARTIES.**

  A client writes its request to a channel and blocks; a thread of the
  server reads it and runs the handler, one atomic step at a time, between
  the steps of everyone else; the handler's result travels back and the
  client goes on with it.  The channel can fail on the way out (the handler
  never runs) and on the way back (the handler ran; its result is lost):
  either way the client sees the channel's error.

  `Call π ρ` is where one call is, with handler states `π` and results `ρ`;
  `Call.step` is one step of it, told what the channel answered when the
  step is a send or a receive.  `Call.step_holds` is the rule the invariant
  proofs of the callers use: a call keeps whatever its handler keeps.
-/
import Mathlib

namespace Teaclave.Lib

/-- One call in flight. -/
inductive Call (π ρ : Type) where
  /-- The request is being written. -/
  | sending
  /-- The server's handler is at `handler`. -/
  | serving (handler : π)
  /-- The handler returned `reply`; it is being read back. -/
  | replying (reply : ρ)
  deriving DecidableEq, Repr

section CallStep

variable {σ π ρ ε : Type} (start : π) (handle : σ → π → Option (σ × (π ⊕ ρ))) (lost : ε → ρ)

/-- One step of a call on the server's state `s`.  The input is the
    channel's answer for a send or a receive, or `none` for a step of the
    handler.  The result is the call's next state (`inl`), or what the
    client receives (`inr`). -/
def Call.step (s : σ) : Call π ρ → Option (Except ε Unit) → Option (σ × (Call π ρ ⊕ ρ))
  | .sending, some (.error e) => some (s, .inr (lost e))
  | .sending, some (.ok ()) => some (s, .inl (.serving start))
  | .serving h, none =>
      match handle s h with
      | none => none
      | some (s', .inl h') => some (s', .inl (.serving h'))
      | some (s', .inr r) => some (s', .inl (.replying r))
  | .replying r, some (.ok ()) => some (s, .inr r)
  | .replying _, some (.error e) => some (s, .inr (lost e))
  | _, _ => none

/-- What a call in flight carries: the handler's invariant `H` while it is
    served, the reply's invariant `R` once it is back. -/
def Call.Holds (H : π → Prop) (R : ρ → Prop) : Call π ρ → Prop
  | .sending => True
  | .serving h => H h
  | .replying r => R r

/-- **A call keeps what its handler keeps.**  If every handler step keeps the
    server's invariant `S` and leads from `H` to `H` or to a result in `R`, the
    handler starts in `H` and a lost call's error is in `R`, then every step of
    the call keeps `S` and `Call.Holds H R`, and the client receives a result
    in `R`. -/
theorem Call.step_holds {S : σ → Prop} {H : π → Prop} {R : ρ → Prop} (hstart : H start)
    (hlost : ∀ e, R (lost e))
    (hhandle : ∀ s h s' r, S s → H h → handle s h = some (s', r) → S s' ∧ Sum.elim H R r)
    {s s' : σ} {c : Call π ρ} {a : Option (Except ε Unit)} {r : Call π ρ ⊕ ρ} (hs : S s)
    (hc : c.Holds H R) (h : Call.step start handle lost s c a = some (s', r)) :
    S s' ∧ Sum.elim (Call.Holds H R) R r := by
  cases c with
  | sending =>
      rcases a with _ | ⟨e⟩ | ⟨⟨⟩⟩ <;>
        simp only [Call.step, reduceCtorEq, Option.some.injEq, Prod.mk.injEq] at h <;>
        obtain ⟨rfl, rfl⟩ := h
      · exact ⟨hs, hlost e⟩
      · exact ⟨hs, hstart⟩
  | serving h₀ =>
      cases a with
      | some _ => simp [Call.step] at h
      | none =>
          -- one step of the handler, on the server's state
          cases hh : handle s h₀ with
          | none => simp [Call.step, hh] at h
          | some res =>
              obtain ⟨s₁, r₁⟩ := res
              obtain ⟨hs₁, hr₁⟩ := hhandle s h₀ s₁ r₁ hs hc hh
              cases r₁ with
              | inl h₁ =>
                  simp only [Call.step, hh, Option.some.injEq, Prod.mk.injEq] at h
                  obtain ⟨rfl, rfl⟩ := h
                  exact ⟨hs₁, hr₁⟩
              | inr r₁ =>
                  simp only [Call.step, hh, Option.some.injEq, Prod.mk.injEq] at h
                  obtain ⟨rfl, rfl⟩ := h
                  exact ⟨hs₁, hr₁⟩
  | replying r₀ =>
      rcases a with _ | ⟨e⟩ | ⟨⟨⟩⟩ <;>
        simp only [Call.step, reduceCtorEq, Option.some.injEq, Prod.mk.injEq] at h <;>
        obtain ⟨rfl, rfl⟩ := h
      · exact ⟨hs, hlost e⟩
      · exact ⟨hs, hc⟩

end CallStep

end Teaclave.Lib
