/-
  Teaclave.Lib.SkipList
  ─────────────────────
  **THE LEVELS OF A SKIP LIST, READ OFF ITS BOTTOM LEVEL.**

  A skip list is described here by its bottom level: the entries in order,
  each with the node that holds it, its key, its value and its height.
  Level `l` links every place, the head or a node, to the first entry after
  it that is taller than `l` (`linkAt`).  Places are numbered: `0` is the
  head and `k + 1` the node of the `k`-th entry (`ptrAt`), so that "after"
  is a comparison of numbers.

    • `linkAt_step`, `linkAt_cases`: a link, entry by entry.
    • `linkAt_insertIdx_*`: the links of the bottom level with one more
      entry, from the old ones.
    • `IsCut`, `exists_cut`: a sorted bottom level cut where the keys stop
      being less than a key.
    • `contents_insertIdx_cut`, `find?_contents_cut`: at the cut, inserting
      is the ordered insertion of the contents, and the first entry there
      is the first whose key is not less; `sorted_insertIdx_cut`: the
      level stays sorted.
    • `transCmp_comap`, `find?_pairwise`: a comparator read through a
      function, and the first element of a sorted list that passes a test.
-/
import Mathlib

namespace Teaclave.Lib

/-- An entry of a skip list's bottom level: the node it is stored in, its
    key and value, and how many levels link to it. -/
structure SkipEntry (K V : Type) where
  idx : Nat
  key : K
  value : V
  height : Nat

/-- A place in a skip list: its head, or a node. -/
inductive Ptr
  | head
  | node (i : Nat)
  deriving DecidableEq, Repr

/-! ## §1. Places and links. -/

section Levels

variable {K V : Type}

/-- The place numbered `k`: the head for `0`, the node of the `k`-th entry
    for `k + 1`. -/
def ptrAt (view : List (SkipEntry K V)) : Nat → Ptr
  | 0 => .head
  | k + 1 =>
    match view[k]? with
    | some e => .node e.idx
    | none => .head

/-- The height of the place numbered `k`; the head's is `top`. -/
def heightAt (view : List (SkipEntry K V)) (top : Nat) : Nat → Nat
  | 0 => top
  | k + 1 =>
    match view[k]? with
    | some e => e.height
    | none => 0

/-- The link at level `l` out of place `k`: the node of the first entry
    after it that is taller than `l`. -/
def linkAt (view : List (SkipEntry K V)) (l k : Nat) : Option Nat :=
  ((view.drop k).find? (fun e => decide (l < e.height))).map SkipEntry.idx

/-- The contents of the bottom level, key and value of each entry. -/
def contents (view : List (SkipEntry K V)) : List (K × V) :=
  view.map fun e => (e.key, e.value)

theorem contents_eq (view : List (SkipEntry K V)) : contents view = view.map fun e => (e.key, e.value) :=
  rfl

variable {view : List (SkipEntry K V)} {l k : Nat}

theorem ptrAt_succ_eq (k : Nat) :
    ptrAt view (k + 1) =
      match view[k]? with
      | some e => .node e.idx
      | none => .head := rfl

theorem heightAt_succ_eq (top k : Nat) :
    heightAt view top (k + 1) =
      match view[k]? with
      | some e => e.height
      | none => 0 := rfl

theorem linkAt_eq : linkAt view l k = ((view.drop k).find? (fun e => decide (l < e.height))).map SkipEntry.idx :=
  rfl

@[simp] theorem ptrAt_zero : ptrAt view 0 = .head := rfl

@[simp] theorem heightAt_zero (top : Nat) : heightAt view top 0 = top := rfl

theorem ptrAt_succ {e : SkipEntry K V} (he : view[k]? = some e) : ptrAt view (k + 1) = .node e.idx := by
  rw [ptrAt_succ_eq, he]

theorem heightAt_succ {e : SkipEntry K V} (he : view[k]? = some e) (top : Nat) :
    heightAt view top (k + 1) = e.height := by
  rw [heightAt_succ_eq, he]

/-- One entry at a time: a link stops at an entry taller than its level and
    passes over the others. -/
theorem linkAt_step {e : SkipEntry K V} (he : view[k]? = some e) :
    linkAt view l k = if l < e.height then some e.idx else linkAt view l (k + 1) := by
  obtain ⟨hk, rfl⟩ := List.getElem?_eq_some_iff.mp he
  rw [linkAt_eq, List.drop_eq_getElem_cons hk, List.find?_cons]
  by_cases hl : l < view[k].height
  · simp [hl]
  · simp [hl, linkAt_eq]

theorem linkAt_of_length_le (hk : view.length ≤ k) : linkAt view l k = none := by
  simp [linkAt_eq, List.drop_eq_nil_of_le hk]

/-- A link passes over a stretch of entries no taller than its level. -/
theorem linkAt_skip :
    ∀ (d : Nat) {k : Nat}, (∀ j e, k ≤ j → j < k + d → view[j]? = some e → e.height ≤ l) →
      linkAt view l k = linkAt view l (k + d) := by
  intro d
  induction d with
  | zero => intro k _; rfl
  | succ d ih =>
      intro k hlow
      cases he : view[k]? with
      | none =>
          have hk : view.length ≤ k := List.getElem?_eq_none_iff.mp he
          rw [linkAt_of_length_le hk, linkAt_of_length_le (by omega)]
      | some e =>
          have hshort : ¬ l < e.height := by
            have := hlow k e (le_refl k) (by omega) he
            omega
          rw [linkAt_step he, if_neg hshort, ih (k := k + 1) (fun j e' hj hj' => hlow j e' (by omega) (by omega)),
            show k + 1 + d = k + (d + 1) by omega]

theorem linkAt_eq_some_of {k' : Nat} {e : SkipEntry K V} (hkk : k ≤ k')
    (hlow : ∀ j e', k ≤ j → j < k' → view[j]? = some e' → e'.height ≤ l)
    (he : view[k']? = some e) (htall : l < e.height) : linkAt view l k = some e.idx := by
  obtain ⟨d, rfl⟩ : ∃ d, k' = k + d := ⟨k' - k, by omega⟩
  rw [linkAt_skip d hlow, linkAt_step he, if_pos htall]

theorem linkAt_eq_none_of (hlow : ∀ j e, k ≤ j → view[j]? = some e → e.height ≤ l) :
    linkAt view l k = none := by
  rw [linkAt_skip (view.length - k) (fun j e hj _ he => hlow j e hj he),
    linkAt_of_length_le (by omega)]

/-- **What a link is**: none when every entry after the place is no taller
    than the level, else the first entry after it that is taller. -/
theorem linkAt_cases (view : List (SkipEntry K V)) (l k : Nat) :
    (linkAt view l k = none ∧ ∀ j e, k ≤ j → view[j]? = some e → e.height ≤ l) ∨
    (∃ k' e, k ≤ k' ∧ view[k']? = some e ∧ l < e.height ∧
      (∀ j e', k ≤ j → j < k' → view[j]? = some e' → e'.height ≤ l) ∧
      linkAt view l k = some e.idx) := by
  classical
  by_cases htall : ∃ j, k ≤ j ∧ ∃ e, view[j]? = some e ∧ l < e.height
  · -- the first taller entry
    obtain ⟨hk, e, he, hl⟩ := Nat.find_spec htall
    have hlow : ∀ j e', k ≤ j → j < Nat.find htall → view[j]? = some e' → e'.height ≤ l := by
      intro j e' hj hjlt he'
      have := Nat.find_min htall hjlt
      simp only [not_and, not_exists] at this
      exact Nat.le_of_not_lt (this hj e' he')
    exact .inr ⟨_, e, hk, he, hl, hlow, linkAt_eq_some_of hk hlow he hl⟩
  · have hlow : ∀ j e, k ≤ j → view[j]? = some e → e.height ≤ l := by
      intro j e hj he
      exact Nat.le_of_not_lt fun hl => htall ⟨j, hj, e, he, hl⟩
    exact .inl ⟨linkAt_eq_none_of hlow, hlow⟩

/-- Two bottom levels that agree on a stretch with a tall entry in it have
    the same link into it. -/
theorem linkAt_congr {view' : List (SkipEntry K V)} {k' : Nat} {e : SkipEntry K V}
    (hagree : ∀ j, k ≤ j → j ≤ k' → view'[j]? = view[j]?) (hkk : k ≤ k') (he : view[k']? = some e)
    (htall : l < e.height) : linkAt view' l k = linkAt view l k := by
  rcases linkAt_cases view l k with ⟨-, hnone⟩ | ⟨k₀, e₀, hk₀, he₀, htall₀, hlow₀, hlink⟩
  · exact absurd (hnone k' e hkk he) (by omega)
  · have hk₀k' : k₀ ≤ k' := by
      by_contra hlt
      exact absurd (hlow₀ k' e hkk (by omega) he) (by omega)
    rw [hlink]
    refine linkAt_eq_some_of hk₀ (fun j e' hj hjlt he' => ?_) (by rw [hagree k₀ hk₀ hk₀k', he₀]) htall₀
    exact hlow₀ j e' hj hjlt (by rw [← hagree j hj (by omega), he'])

/-- Distinct entries are at distinct places. -/
theorem ptrAt_injective (hnodup : (view.map SkipEntry.idx).Nodup) {k k' : Nat}
    (hk : k ≤ view.length) (hk' : k' ≤ view.length) (h : ptrAt view k = ptrAt view k') : k = k' := by
  cases k with
  | zero =>
      cases k' with
      | zero => rfl
      | succ k' =>
          simp [ptrAt_succ (List.getElem?_eq_getElem (show k' < view.length by omega))] at h
  | succ k =>
      have he := List.getElem?_eq_getElem (show k < view.length by omega)
      cases k' with
      | zero => simp [ptrAt_succ he] at h
      | succ k' =>
          have he' := List.getElem?_eq_getElem (show k' < view.length by omega)
          rw [ptrAt_succ he, ptrAt_succ he', Ptr.node.injEq] at h
          have hk₁ : k < (view.map SkipEntry.idx).length := by simp; omega
          have hk₂ : k' < (view.map SkipEntry.idx).length := by simp; omega
          have hidx : (view.map SkipEntry.idx)[k] = (view.map SkipEntry.idx)[k'] := by simpa using h
          rw [hnodup.getElem_inj_iff] at hidx
          omega

end Levels

/-! ## §2. One more entry. -/

section Insert

variable {K V : Type} {view : List (SkipEntry K V)} {q l : Nat} {new : SkipEntry K V}

/-- The new entry is where it was put, once the place is in range. -/
theorem getElem?_insertIdx_at (hq : q ≤ view.length) : (view.insertIdx q new)[q]? = some new := by
  rw [List.getElem?_insertIdx_self, if_pos hq]

theorem ptrAt_insertIdx_of_le {k : Nat} (hk : k ≤ q) :
    ptrAt (view.insertIdx q new) k = ptrAt view k := by
  cases k with
  | zero => rfl
  | succ k => simp only [ptrAt_succ_eq, List.getElem?_insertIdx_of_lt (show k < q by omega)]

theorem ptrAt_insertIdx_self (hq : q ≤ view.length) :
    ptrAt (view.insertIdx q new) (q + 1) = .node new.idx :=
  ptrAt_succ (getElem?_insertIdx_at hq)

theorem ptrAt_insertIdx_of_gt {k : Nat} (hk : q < k) :
    ptrAt (view.insertIdx q new) (k + 1) = ptrAt view k := by
  obtain ⟨k, rfl⟩ : ∃ k', k = k' + 1 := ⟨k - 1, by omega⟩
  simp only [ptrAt_succ_eq, List.getElem?_insertIdx_of_gt (show q < k + 1 by omega), Nat.add_sub_cancel]

theorem heightAt_insertIdx_of_le (top : Nat) {k : Nat} (hk : k ≤ q) :
    heightAt (view.insertIdx q new) top k = heightAt view top k := by
  cases k with
  | zero => rfl
  | succ k => simp only [heightAt_succ_eq, List.getElem?_insertIdx_of_lt (show k < q by omega)]

theorem heightAt_insertIdx_self (hq : q ≤ view.length) (top : Nat) :
    heightAt (view.insertIdx q new) top (q + 1) = new.height :=
  heightAt_succ (getElem?_insertIdx_at hq) top

theorem heightAt_insertIdx_of_gt (top : Nat) {k : Nat} (hk : q < k) :
    heightAt (view.insertIdx q new) top (k + 1) = heightAt view top k := by
  obtain ⟨k, rfl⟩ : ∃ k', k = k' + 1 := ⟨k - 1, by omega⟩
  simp only [heightAt_succ_eq, List.getElem?_insertIdx_of_gt (show q < k + 1 by omega), Nat.add_sub_cancel]

/-- Out of the new entry, the links are those of the place it went in at. -/
theorem linkAt_insertIdx_self :
    linkAt (view.insertIdx q new) l (q + 1) = linkAt view l q := by
  have hdrop : (view.insertIdx q new).drop (q + 1) = view.drop q := by
    refine List.ext_getElem? fun j => ?_
    rw [List.getElem?_drop, List.getElem?_drop, List.getElem?_insertIdx_of_gt (by omega)]
    congr 1
    omega
  simp only [linkAt_eq, hdrop]

/-- Out of a place after the new entry, nothing changes. -/
theorem linkAt_insertIdx_of_gt {k : Nat} (hk : q < k) :
    linkAt (view.insertIdx q new) l (k + 1) = linkAt view l k := by
  have hdrop : (view.insertIdx q new).drop (k + 1) = view.drop k := by
    refine List.ext_getElem? fun j => ?_
    rw [List.getElem?_drop, List.getElem?_drop, List.getElem?_insertIdx_of_gt (by omega)]
    congr 1
    omega
  simp only [linkAt_eq, hdrop]

/-- Out of a place before the new entry, a link that meets a taller entry
    first is unchanged. -/
theorem linkAt_insertIdx_of_tall {k j : Nat} {e : SkipEntry K V} (hkj : k ≤ j)
    (hjq : j < q) (he : view[j]? = some e) (htall : l < e.height) :
    linkAt (view.insertIdx q new) l k = linkAt view l k :=
  linkAt_congr (fun i _ hi => List.getElem?_insertIdx_of_lt (by omega)) hkj he htall

/-- Out of a place before the new entry with nothing taller between, a
    level the new entry reaches links to it. -/
theorem linkAt_insertIdx_of_low (hq : q ≤ view.length) {k : Nat} (hk : k ≤ q)
    (hlow : ∀ j e, k ≤ j → j < q → view[j]? = some e → e.height ≤ l) (hnew : l < new.height) :
    linkAt (view.insertIdx q new) l k = some new.idx := by
  refine linkAt_eq_some_of hk (fun j e hj hjq he => ?_) (getElem?_insertIdx_at hq) hnew
  exact hlow j e hj hjq (by rwa [List.getElem?_insertIdx_of_lt hjq] at he)

/-- A level the new entry does not reach keeps its links. -/
theorem linkAt_insertIdx_of_short (hq : q ≤ view.length) {k : Nat} (hk : k ≤ q) (hshort : new.height ≤ l) :
    linkAt (view.insertIdx q new) l k = linkAt view l k := by
  rcases linkAt_cases view l k with ⟨hnone, hlow⟩ | ⟨k', e, hkk, he, htall, hlow, hlink⟩
  · -- nothing taller after the place, before or after the insertion
    rw [hnone]
    refine linkAt_eq_none_of fun j e hj he => ?_
    rcases Nat.lt_trichotomy j q with hjq | rfl | hjq
    · exact hlow j e hj (by rwa [List.getElem?_insertIdx_of_lt hjq] at he)
    · rw [getElem?_insertIdx_at hq] at he
      cases he
      exact hshort
    · exact hlow (j - 1) e (by omega) (by rwa [List.getElem?_insertIdx_of_gt hjq] at he)
  · rw [hlink]
    by_cases hk'q : k' < q
    · rw [← hlink]
      exact linkAt_insertIdx_of_tall hkk hk'q he htall
    · -- the taller entry moved one place on, past the new one
      refine linkAt_eq_some_of (show k ≤ k' + 1 by omega) (fun j e' hj hjk he' => ?_)
        (by rw [List.getElem?_insertIdx_of_gt (by omega), Nat.add_sub_cancel, he]) htall
      rcases Nat.lt_trichotomy j q with hjq | rfl | hjq
      · exact hlow j e' hj (by omega) (by rwa [List.getElem?_insertIdx_of_lt hjq] at he')
      · rw [getElem?_insertIdx_at hq] at he'
        cases he'
        exact hshort
      · exact hlow (j - 1) e' (by omega) (by omega) (by rwa [List.getElem?_insertIdx_of_gt hjq] at he')

end Insert

/-! ## §3. A sorted bottom level, cut at a key. -/

section Cut

variable {K V : Type} (cmp : K → K → Ordering) (view : List (SkipEntry K V))

/-- The bottom level's keys strictly increase. -/
def Sorted : Prop := view.Pairwise fun a b => cmp a.key b.key = .lt

/-- `q` cuts the bottom level at `t`: the keys before it are less than `t`,
    those from it on are not. -/
structure IsCut (t : K) (q : Nat) : Prop where
  le_length : q ≤ view.length
  lt_before : ∀ j e, j < q → view[j]? = some e → cmp e.key t = .lt
  not_lt_from : ∀ j e, q ≤ j → view[j]? = some e → cmp e.key t ≠ .lt

variable {cmp view}

theorem Sorted.lt_of_lt (hs : Sorted cmp view) {i j : Nat} {a b : SkipEntry K V} (hij : i < j)
    (ha : view[i]? = some a) (hb : view[j]? = some b) : cmp a.key b.key = .lt := by
  obtain ⟨hi, rfl⟩ := List.getElem?_eq_some_iff.mp ha
  obtain ⟨hj, rfl⟩ := List.getElem?_eq_some_iff.mp hb
  exact List.pairwise_iff_getElem.mp hs i j hi hj hij

/-- **A sorted bottom level has a cut at every key**: the keys less than it
    come first. -/
theorem exists_cut [Std.TransCmp cmp] (hs : Sorted cmp view) (t : K) : ∃ q, IsCut cmp view t q := by
  refine ⟨view.findIdx (fun e => cmp e.key t != .lt), List.findIdx_le_length, ?_, ?_⟩
  · intro j e hj he
    obtain ⟨hjl, rfl⟩ := List.getElem?_eq_some_iff.mp he
    simpa using List.not_of_lt_findIdx hj
  · intro j e hj he
    obtain ⟨hjl, rfl⟩ := List.getElem?_eq_some_iff.mp he
    have hq : view.findIdx (fun e => cmp e.key t != .lt) < view.length := by omega
    have hfirst := List.findIdx_getElem (w := hq)
    simp only [bne_iff_ne, ne_eq] at hfirst
    rcases Nat.eq_or_lt_of_le hj with hjq | hjq
    · simp only [← hjq] at hfirst ⊢
      exact hfirst
    · -- a later key not less than `t` would make the first one less
      intro hlt
      exact hfirst (Std.TransCmp.lt_trans
        (hs.lt_of_lt hjq (List.getElem?_eq_getElem hq) (List.getElem?_eq_getElem hjl)) hlt)

/-- Past the first entry, the cut is one place earlier. -/
theorem IsCut.tail {e : SkipEntry K V} {t : K} {q : Nat} (hcut : IsCut cmp (e :: view) t (q + 1)) :
    IsCut cmp view t q :=
  ⟨by simpa using hcut.le_length, fun j e' hj he' => hcut.lt_before (j + 1) e' (by omega) he',
    fun j e' hj he' => hcut.not_lt_from (j + 1) e' (by omega) he'⟩

/-- A key neither less than nor equal to another is greater. -/
theorem swap_lt_of_ne [Std.OrientedCmp cmp] {a b : K} (hlt : cmp a b ≠ .lt) (heq : cmp a b ≠ .eq) :
    cmp b a = .lt := by
  rw [@Std.OrientedCmp.eq_swap _ cmp _ b a]
  cases hc : cmp a b <;> simp_all

/-- A comparator read through a function is still a total preorder. -/
theorem transCmp_comap {β : Type} (c : β → β → Ordering) [Std.TransCmp c] (f : K → β) :
    Std.TransCmp (fun a b => c (f a) (f b)) where
  eq_swap := Std.OrientedCmp.eq_swap
  isLE_trans := Std.TransCmp.isLE_trans

/-- In a list sorted by `r`, the first element that passes a test is below
    every other element that passes it. -/
theorem find?_pairwise {α : Type} {r : α → α → Prop} {p : α → Bool} {l : List α} {x : α}
    (hs : l.Pairwise r) (h : l.find? p = some x) : p x ∧ ∀ y ∈ l, p y → y = x ∨ r x y := by
  obtain ⟨hx, as, bs, rfl, has⟩ := List.find?_eq_some_iff_append.mp h
  refine ⟨hx, fun y hy hpy => ?_⟩
  rcases List.mem_append.mp hy with hy | hy
  · exact absurd hpy (by simpa using has y hy)
  · rcases List.mem_cons.mp hy with rfl | hy
    · exact .inl rfl
    · exact .inr (List.rel_of_pairwise_cons (List.pairwise_append.mp hs).2.1 hy)

/-- The first entry whose key is not less than `t` is the one at the cut. -/
theorem find?_contents_cut {t : K} :
    ∀ {view : List (SkipEntry K V)} {q : Nat}, IsCut cmp view t q →
      (contents view).find? (fun a => cmp a.1 t != .lt) = (view[q]?).map fun e => (e.key, e.value)
  | [], q, _ => by simp [contents_eq]
  | e :: view, 0, hcut => by
      have hge := hcut.not_lt_from 0 e (le_refl 0) rfl
      simp [contents_eq, hge]
  | e :: view, q + 1, hcut => by
      have hlt := hcut.lt_before 0 e (by omega) rfl
      simp only [contents_eq, List.map_cons, List.find?_cons, hlt, bne_self_eq_false,
        List.getElem?_cons_succ]
      exact find?_contents_cut hcut.tail

/-- **Inserting at the cut is ordered insertion**: with no key equal to the
    new one, the contents with the new entry at the cut are the old
    contents with the new key and value put before the first greater key. -/
theorem contents_insertIdx_cut [Std.TransCmp cmp] {new : SkipEntry K V} :
    ∀ {view : List (SkipEntry K V)} {q : Nat}, IsCut cmp view new.key q →
      (∀ e ∈ view, cmp e.key new.key ≠ .eq) →
      contents (view.insertIdx q new) =
        (contents view).orderedInsert (fun a b => (cmp a.1 b.1).isLE) (new.key, new.value)
  | [], 0, _, _ => by simp [contents_eq]
  | [], q + 1, hcut, _ => by simpa using hcut.le_length
  | e :: view, 0, hcut, hne => by
      -- the first entry is greater than the new key
      have hgt : cmp new.key e.key = .lt :=
        swap_lt_of_ne (hcut.not_lt_from 0 e (le_refl 0) rfl) (hne e (by simp))
      simp [contents_eq, hgt]
  | e :: view, q + 1, hcut, hne => by
      have hlt := hcut.lt_before 0 e (by omega) rfl
      have hnotle : (cmp new.key e.key).isLE = false := by
        rw [@Std.OrientedCmp.eq_swap _ cmp _ new.key e.key, hlt]
        rfl
      have ih := contents_insertIdx_cut hcut.tail fun e' he' => hne e' (by simp [he'])
      simp only [contents_eq] at ih
      simp [contents_eq, List.insertIdx_succ_cons, hnotle, ih]

/-- Inserting at the cut keeps the bottom level sorted, when no key is
    equal to the new one. -/
theorem sorted_insertIdx_cut [Std.TransCmp cmp] {new : SkipEntry K V} :
    ∀ {view : List (SkipEntry K V)} {q : Nat}, Sorted cmp view → IsCut cmp view new.key q →
      (∀ e ∈ view, cmp e.key new.key ≠ .eq) → Sorted cmp (view.insertIdx q new)
  | [], 0, _, _, _ => List.pairwise_singleton _ _
  | [], q + 1, _, hcut, _ => by simpa using hcut.le_length
  | e :: view, 0, hs, hcut, hne => by
      -- the new key is less than every key of the level
      rw [List.insertIdx_zero]
      refine List.Pairwise.cons (fun x hx => ?_) hs
      obtain ⟨j, hj⟩ := List.getElem?_of_mem hx
      exact swap_lt_of_ne (hcut.not_lt_from j x (Nat.zero_le j) hj) (hne x hx)
  | e :: view, q + 1, hs, hcut, hne => by
      have hq : q ≤ view.length := by simpa using hcut.le_length
      rw [List.insertIdx_succ_cons]
      obtain ⟨he, hs'⟩ := List.pairwise_cons.mp hs
      refine List.Pairwise.cons (fun x hx => ?_)
        (sorted_insertIdx_cut hs' hcut.tail fun e' he' => hne e' (by simp [he']))
      rcases (List.mem_insertIdx hq).mp hx with rfl | hx
      · exact hcut.lt_before 0 e (by omega) rfl
      · exact he x hx

end Cut

end Teaclave.Lib
