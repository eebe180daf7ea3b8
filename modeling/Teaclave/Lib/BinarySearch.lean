/-
  Teaclave.Lib.BinarySearch
  ─────────────────────────
  **BINARY SEARCH FOR THE END OF A PREFIX.**

  The loop

      while lo <= hi {
          mid = lo + (hi - lo) / 2;
          if go_right(mid) { lo = mid + 1 } else { hi = mid - 1 }
      }

  over integer indices probes a sequence of midpoints (`probes`, run for at
  most `fuel` rounds).  Each round drops at least the midpoint from
  `[lo, hi]`, so `hi + 1 - lo` rounds always suffice (`probes_isSome`), and
  every probe lies in `[lo, hi]` (`mem_probes`).  When `go_right` holds
  exactly below a boundary `k` with `lo < k ≤ hi + 1`, the last index below
  the boundary is probed (`boundary_mem_probes`): the search always ends by
  looking at it.

  Nothing here names the repository.
-/
import Mathlib

namespace Teaclave.Lib

/-! ## §1. The probes. -/

/-- The midpoint `lo + (hi - lo) / 2`, with the machine's truncating division. -/
def midpoint (lo hi : Int) : Int := lo + (hi - lo).tdiv 2

theorem midpoint_mem {lo hi : Int} (h : lo ≤ hi) : lo ≤ midpoint lo hi ∧ midpoint lo hi ≤ hi := by
  unfold midpoint
  rw [Int.tdiv_eq_ediv_of_nonneg (by omega)]
  omega

/-- The probes of the search on `[lo, hi]`, in order; `none` when `fuel`
    rounds do not end it. -/
def probes (go_right : Int → Bool) : Nat → Int → Int → Option (List Int)
  | 0, lo, hi => if lo ≤ hi then none else some []
  | fuel + 1, lo, hi =>
      if lo ≤ hi then
        let mid := midpoint lo hi
        (if go_right mid then probes go_right fuel (mid + 1) hi
          else probes go_right fuel lo (mid - 1)).map (mid :: ·)
      else some []

section Probes

variable {go_right : Int → Bool}

/-- With no rounds left, only an empty interval ends the search. -/
theorem probes_zero {lo hi : Int} :
    probes go_right 0 lo hi = if lo ≤ hi then none else some [] := rfl

/-- One round on a non-empty interval. -/
theorem probes_succ {fuel : Nat} {lo hi : Int} (h : lo ≤ hi) :
    probes go_right (fuel + 1) lo hi =
      (if go_right (midpoint lo hi) then probes go_right fuel (midpoint lo hi + 1) hi
        else probes go_right fuel lo (midpoint lo hi - 1)).map (midpoint lo hi :: ·) :=
  if_pos h

/-- An empty interval ends the search at once. -/
theorem probes_of_lt {fuel : Nat} {lo hi : Int} (h : hi < lo) :
    probes go_right fuel lo hi = some [] := by
  cases fuel <;> exact if_neg (show ¬ lo ≤ hi by omega)

/-- **The rounds end**: `hi + 1 - lo` of them suffice. -/
theorem probes_isSome :
    ∀ (fuel : Nat) (lo hi : Int), hi + 1 - lo ≤ fuel → (probes go_right fuel lo hi).isSome
  | 0, lo, hi, h => by
      rw [probes_of_lt (by omega)]
      rfl
  | fuel + 1, lo, hi, h => by
      by_cases hle : lo ≤ hi
      · -- the round drops the midpoint, whichever way it goes
        obtain ⟨hlo, hhi⟩ := midpoint_mem hle
        rw [probes_succ hle, Option.isSome_map]
        split
        · exact probes_isSome fuel _ _ (by omega)
        · exact probes_isSome fuel _ _ (by omega)
      · rw [probes_of_lt (by omega)]
        rfl

/-- Every probe lies in `[lo, hi]`. -/
theorem mem_probes :
    ∀ {fuel : Nat} {lo hi : Int} {ms : List Int} {m : Int},
      probes go_right fuel lo hi = some ms → m ∈ ms → lo ≤ m ∧ m ≤ hi
  | 0, lo, hi, ms, m, h, hm => by
      rw [probes_zero] at h
      split_ifs at h
      cases h
      simp at hm
  | fuel + 1, lo, hi, ms, m, h, hm => by
      by_cases hle : lo ≤ hi
      · obtain ⟨hlo, hhi⟩ := midpoint_mem hle
        rw [probes_succ hle] at h
        obtain ⟨ms', h', rfl⟩ := Option.map_eq_some_iff.mp h
        rcases List.mem_cons.mp hm with rfl | hm'
        · exact ⟨hlo, hhi⟩
        · split at h'
          · have := mem_probes h' hm'
            omega
          · have := mem_probes h' hm'
            omega
      · rw [probes_of_lt (by omega)] at h
        cases h
        simp at hm

/-- **The search looks at the end of the prefix.**  If `go_right` holds on
    `[lo, hi]` exactly below `k`, with `lo < k ≤ hi + 1`, then `k - 1` is
    probed. -/
theorem boundary_mem_probes {k : Int} :
    ∀ {fuel : Nat} {lo hi : Int} {ms : List Int}, lo < k → k ≤ hi + 1 →
      (∀ m, lo ≤ m → m ≤ hi → (go_right m = true ↔ m < k)) →
      probes go_right fuel lo hi = some ms → k - 1 ∈ ms
  | 0, lo, hi, ms, hk, hk', _, h => by
      simp [probes_zero, show lo ≤ hi by omega] at h
  | fuel + 1, lo, hi, ms, hk, hk', hgo, h => by
      have hle : lo ≤ hi := by omega
      obtain ⟨hlo, hhi⟩ := midpoint_mem hle
      rw [probes_succ hle] at h
      obtain ⟨ms', h', rfl⟩ := Option.map_eq_some_iff.mp h
      by_cases hmid : midpoint lo hi = k - 1
      · rw [hmid]
        exact List.mem_cons_self
      · apply List.mem_cons_of_mem
        by_cases hgm : go_right (midpoint lo hi) = true
        · -- the midpoint is below the boundary: the rest of the search is right of it
          rw [if_pos hgm] at h'
          have hlt := (hgo _ hlo hhi).mp hgm
          exact boundary_mem_probes (by omega) hk' (fun m _ h2 => hgo m (by omega) h2) h'
        · -- the midpoint is at or past the boundary: the rest is left of it
          rw [if_neg hgm] at h'
          have hge : ¬ midpoint lo hi < k := fun hlt => hgm ((hgo _ hlo hhi).mpr hlt)
          exact boundary_mem_probes hk (by omega) (fun m h1 _ => hgo m h1 (by omega)) h'

end Probes

/-! ## §2. The last place a value occurs. -/

/-- A value that occurs in a list occurs a last time. -/
theorem exists_last_index {α : Type} {x : α} :
    ∀ {xs : List α}, x ∈ xs → ∃ j : Nat, xs[j]? = some x ∧ ∀ j' : Nat, j < j' → xs[j']? ≠ some x := by
  intro xs
  induction xs using List.reverseRecOn with
  | nil => simp
  | append_singleton xs y ih =>
      intro hx
      by_cases hy : y = x
      · -- the new last element is `x`
        subst hy
        refine ⟨xs.length, by simp, fun j' hj' => ?_⟩
        rw [List.getElem?_append_right (by omega), List.getElem?_eq_none (by simp; omega)]
        simp
      · -- `x` occurs in the old list, and not at its new end
        have hxs : x ∈ xs := by
          rcases List.mem_append.mp hx with h | h
          · exact h
          · exact absurd (List.mem_singleton.mp h).symm hy
        obtain ⟨j, hj, hlast⟩ := ih hxs
        have hjlt : j < xs.length := (List.getElem?_eq_some_iff.mp hj).1
        refine ⟨j, by rw [List.getElem?_append_left hjlt]; exact hj, fun j' hj' => ?_⟩
        by_cases hj₂ : j' < xs.length
        · rw [List.getElem?_append_left hj₂]
          exact hlast j' hj'
        · rw [List.getElem?_append_right (by omega)]
          intro he
          have he' := List.getElem?_eq_some_iff.mp he
          simp only [List.length_singleton] at he'
          obtain ⟨hlt, heq⟩ := he'
          have h0 : j' - xs.length = 0 := by omega
          simp only [h0, List.getElem_singleton] at heq
          exact hy heq

end Teaclave.Lib
