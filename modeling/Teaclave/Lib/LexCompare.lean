/-
  Teaclave.Lib.LexCompare
  ───────────────────────
  **COMPARING TWO SEQUENCES IN ONE BRANCH-FREE SCAN.**

  A constant-time comparison of two sequences of the same length visits
  every position, whatever it has seen.  For order, it computes the sign of
  each pair's comparison (`sign_cmp`) and keeps the first sign that is not
  zero (`keep_first`): the result is the sign of the lexicographic
  comparison (`lex_scan_zip`).  For equality, it carries a flag that a pair
  that differs clears (`foldl_eq_scan`).

  Nothing here names the repository.
-/
import Mathlib

namespace Teaclave.Lib

/-! ## §1. The order scan. -/

section OrderScan

variable {α : Type} [LinearOrder α]

/-- The sign of the comparison of `x` with `y`: `0`, `-1` below, `1` above. -/
def sign_cmp (x y : α) : Int := if x = y then 0 else if x < y then -1 else 1

theorem sign_cmp_self (x : α) : sign_cmp x x = 0 := if_pos rfl

theorem sign_cmp_of_lt {x y : α} (h : x < y) : sign_cmp x y = -1 :=
  (if_neg (ne_of_lt h)).trans (if_pos h)

theorem sign_cmp_of_gt {x y : α} (h : y < x) : sign_cmp x y = 1 :=
  (if_neg (ne_of_gt h)).trans (if_neg (not_lt.mpr h.le))

/-- One step of the scan: a decided comparison stays, an undecided one takes `c`. -/
def keep_first (ret c : Int) : Int := if ret ≠ 0 then ret else c

theorem keep_first_eq (ret c : Int) : keep_first ret c = if ret ≠ 0 then ret else c := rfl

theorem keep_first_of_ne {ret : Int} (h : ret ≠ 0) (c : Int) : keep_first ret c = ret := if_pos h

theorem keep_first_zero (c : Int) : keep_first 0 c = c := if_neg (not_not.mpr rfl)

/-- The scan over the pairs, from an undecided start. -/
def lex_scan (ps : List (α × α)) : Int :=
  ps.foldl (fun ret p => keep_first ret (sign_cmp p.1 p.2)) 0

theorem lex_scan_eq (ps : List (α × α)) :
    lex_scan ps = ps.foldl (fun ret p => keep_first ret (sign_cmp p.1 p.2)) 0 := rfl

/-- Once decided, the scan does not change its mind. -/
theorem foldl_keep_first_of_ne {ret : Int} (h : ret ≠ 0) :
    ∀ ps : List (α × α), ps.foldl (fun ret p => keep_first ret (sign_cmp p.1 p.2)) ret = ret
  | [] => rfl
  | p :: ps => by
      rw [List.foldl_cons, keep_first_of_ne h]
      exact foldl_keep_first_of_ne h ps

theorem lex_scan_cons (x y : α) (ps : List (α × α)) :
    lex_scan ((x, y) :: ps) = if x = y then lex_scan ps else sign_cmp x y := by
  rw [lex_scan_eq, lex_scan_eq, List.foldl_cons, keep_first_zero]
  by_cases hxy : x = y
  · subst hxy
    rw [sign_cmp_self, if_pos rfl]
  · -- the first pair that differs decides
    have hne : sign_cmp x y ≠ 0 := by
      rcases lt_or_gt_of_ne hxy with hlt | hgt
      · rw [sign_cmp_of_lt hlt]; decide
      · rw [sign_cmp_of_gt hgt]; decide
    rw [if_neg hxy]
    exact foldl_keep_first_of_ne hne ps

/-- **The scan computes the lexicographic comparison** of two sequences of
    the same length: `0` exactly when they are equal, negative exactly when
    the first is below. -/
theorem lex_scan_zip :
    ∀ (xs ys : List α), xs.length = ys.length →
      (lex_scan (xs.zip ys) = 0 ↔ xs = ys) ∧ (lex_scan (xs.zip ys) < 0 ↔ xs < ys)
  | [], [], _ => by simp [lex_scan_eq]
  | x :: xs, y :: ys, h => by
      have ih := lex_scan_zip xs ys (by simpa using h)
      rw [List.zip_cons_cons, lex_scan_cons]
      by_cases hxy : x = y
      · subst hxy
        rw [if_pos rfl, ih.1, ih.2, List.cons.injEq]
        exact ⟨by simp, List.lex_cons_iff.symm⟩
      · rw [if_neg hxy]
        have hne : x :: xs ≠ y :: ys := fun he => hxy (List.cons.inj he).1
        rcases lt_or_gt_of_ne hxy with hlt | hgt
        · -- the first difference is below
          have hs : sign_cmp x y = -1 := sign_cmp_of_lt hlt
          rw [hs]
          exact ⟨by simp [hne], by simpa using List.Lex.rel hlt⟩
        · -- the first difference is above
          have hs : sign_cmp x y = 1 := sign_cmp_of_gt hgt
          have hgt' : y :: ys < x :: xs := List.Lex.rel hgt
          rw [hs]
          exact ⟨by simp [hne], by simpa using not_lt_of_gt hgt'⟩
  | [], _ :: _, h => by simp at h
  | _ :: _, [], h => by simp at h

/-- The scan is at most `0` exactly when the first sequence is at most the second. -/
theorem lex_scan_nonpos_iff {xs ys : List α} (h : xs.length = ys.length) :
    lex_scan (xs.zip ys) ≤ 0 ↔ xs ≤ ys := by
  obtain ⟨heq, hlt⟩ := lex_scan_zip xs ys h
  rw [Int.le_iff_lt_or_eq, le_iff_lt_or_eq, hlt, heq]

end OrderScan

/-! ## §2. The equality scan. -/

section EqualityScan

variable {α : Type} [DecidableEq α]

/-- The flag survives a pair that agrees, and is cleared by one that differs. -/
theorem foldl_eq_scan :
    ∀ (xs ys : List α) (ret : Int), xs.length = ys.length →
      (xs.zip ys).foldl (fun ret p => if p.1 = p.2 then ret else 0) ret =
        if xs = ys then ret else 0
  | [], [], ret, _ => by simp
  | x :: xs, y :: ys, ret, h => by
      rw [List.zip_cons_cons, List.foldl_cons, foldl_eq_scan xs ys _ (by simpa using h)]
      by_cases hxy : x = y
      · simp [hxy]
      · simp [hxy]
  | [], _ :: _, _, h => by simp at h
  | _ :: _, [], _, h => by simp at h

end EqualityScan

end Teaclave.Lib
