/-
  Teaclave.Leveldb.SkipMapSearch
  ──────────────────────────────
  **THE SKIP MAP'S SEARCH FINDS WHAT A SCAN OF ITS ENTRIES FINDS.**

  `SkipInv` says what a skip map is: the arena holds the entries of a
  sorted bottom level, each node with the height it was drawn, and every
  link of every place at every level of its height is the first entry after
  the place that is taller than the level (`linkAt`), `next` the first
  entry after it.  Over such a map the search of `get_greater_or_equal`
  (and of `insert`) goes along a level while the next key is less, and
  down otherwise; the invariant of the descent is that nothing between the
  place reached and the cut at the key rises above the level.

    • `gge_loop_eq`: by induction on the fuel, the search ends at the cut.
    • `seek_current`: `SkipMapIter::seek` then `current` give the first
      entry whose key is not less than the key sought.
    • `insert_loop_eq`: `insert`'s search ends before the cut, and records
      at each level the last place of that level before it;
      `insert_loop_eq_none`: with a key equal to the one sought, it panics.
-/
import Teaclave.Leveldb.SkipMap

namespace Teaclave.Leveldb

open Teaclave.Lib

variable {K V : Type}

/-- The skip map `m` holds the bottom level `view`. -/
structure SkipInv (cmp : K → K → Ordering) (m : SkipMap K V) (view : List (SkipEntry K V)) : Prop where
  idx_nodup : (view.map SkipEntry.idx).Nodup
  length_eq : view.length = m.nodes.length
  node_at : ∀ e ∈ view, ∃ n, m.nodes[e.idx]? = some n ∧ n.key = e.key ∧ n.value = e.value ∧
    n.skips.length = e.height
  sorted : Sorted cmp view
  height_pos : ∀ e ∈ view, 0 < e.height
  height_le : ∀ e ∈ view, e.height ≤ MAX_HEIGHT
  head_height : m.head_skips.length = MAX_HEIGHT
  links : ∀ k ≤ view.length, ∀ l < heightAt view MAX_HEIGHT k, m.link (ptrAt view k) l = some (linkAt view l k)
  nexts : ∀ k ≤ view.length, m.next_of (ptrAt view k) = some (linkAt view 0 k)
  len_eq : m.len = view.length

/-- The new map holds the empty bottom level. -/
theorem skipInv_new (cmp : K → K → Ordering) (rand : Nat → UInt32) :
    SkipInv cmp (SkipMap.new rand : SkipMap K V) [] where
  idx_nodup := List.nodup_nil
  length_eq := rfl
  node_at := by simp
  sorted := List.Pairwise.nil
  height_pos := by simp
  height_le := by simp
  head_height := List.length_replicate
  links := by
    intro k hk l hl
    obtain rfl : k = 0 := by simpa using hk
    simp only [ptrAt_zero, link_head, SkipMap.new, heightAt_zero] at hl ⊢
    rw [List.getElem?_replicate_of_lt hl, linkAt_of_length_le (by simp)]
  nexts := by
    intro k hk
    obtain rfl : k = 0 := by simpa using hk
    rfl
  len_eq := rfl

section Inv

variable {cmp : K → K → Ordering} {m : SkipMap K V} {view : List (SkipEntry K V)}

theorem SkipInv.node_of (hinv : SkipInv cmp m view) {j : Nat} {e : SkipEntry K V} (he : view[j]? = some e) :
    ∃ n, m.nodes[e.idx]? = some n ∧ n.key = e.key ∧ n.value = e.value ∧ n.skips.length = e.height :=
  hinv.node_at e (List.mem_of_getElem? he)

theorem SkipInv.height_pos_of (hinv : SkipInv cmp m view) {j : Nat} {e : SkipEntry K V}
    (he : view[j]? = some e) : 0 < e.height :=
  hinv.height_pos e (List.mem_of_getElem? he)

/-- Heights are at least one, so a stretch no taller than level 0 is
    empty. -/
theorem SkipInv.eq_of_low_zero (hinv : SkipInv cmp m view) {k q : Nat} (hkq : k ≤ q) (hq : q ≤ view.length)
    (hlow : ∀ j e, k ≤ j → j < q → view[j]? = some e → e.height ≤ 0) : k = q := by
  by_contra hne
  have he := List.getElem?_eq_getElem (show k < view.length by omega)
  have := hlow k _ (le_refl k) (by omega) he
  have := hinv.height_pos_of he
  omega

theorem SkipInv.with_rand (hinv : SkipInv cmp m view) (rand : Nat → UInt32) :
    SkipInv cmp { m with rand := rand } view :=
  { hinv with }

end Inv

/-! ## §1. `get_greater_or_equal`. -/

section Search

variable {cmp : K → K → Ordering} [Std.TransCmp cmp] {m : SkipMap K V} {view : List (SkipEntry K V)}
  {t : K} {q : Nat}

/-- A key equal to `t` is at the cut: any entry before it would be less
    than `t`. -/
theorem eq_cut_of_eq (hinv : SkipInv cmp m view) (hcut : IsCut cmp view t q) {k' : Nat} {e : SkipEntry K V}
    (hqk : q ≤ k') (he : view[k']? = some e) (heq : cmp e.key t = .eq) : k' = q := by
  by_contra hne
  have hqlen : q < view.length := by
    have := (List.getElem?_eq_some_iff.mp he).1
    omega
  have hx := List.getElem?_eq_getElem hqlen
  have hlt : cmp view[q].key t = .lt :=
    Std.TransCmp.lt_of_lt_of_eq (hinv.sorted.lt_of_lt (by omega) hx he) heq
  exact hcut.not_lt_from q _ (le_refl q) hx hlt

/-- **The descent of the search**: from a place `k` before the cut, at a
    level within its height, with nothing between it and the cut taller
    than the level above, the search ends at the entry at the cut. -/
theorem gge_loop_eq (hinv : SkipInv cmp m view) (hcut : IsCut cmp view t q) :
    ∀ fuel k level, k ≤ q → level < heightAt view MAX_HEIGHT k →
      (∀ j e, k ≤ j → j < q → view[j]? = some e → e.height ≤ level + 1) → q - k + level < fuel →
      m.gge_loop cmp t fuel (ptrAt view k) level = some ((view[q]?).map SkipEntry.idx) := by
  intro fuel
  induction fuel with
  | zero => intro k level _ _ _ hfuel; omega
  | succ fuel ih =>
      intro k level hkq hlev hlow hfuel
      have hq := hcut.le_length
      have hlink := hinv.links k (by omega) level hlev
      rcases linkAt_cases view level k with ⟨hnone, hall⟩ | ⟨k', e, hkk', he, htall, hbetween, hsome⟩
      · -- no link on at this level: down, or the end of the search
        rw [hnone] at hlink
        simp only [SkipMap.gge_loop, hlink]
        split_ifs with h0
        · subst h0
          have hkq' : k = q := hinv.eq_of_low_zero hkq hq fun j e hj _ he => hall j e hj he
          have hend : view.length ≤ q := by
            by_contra hlt
            have he := List.getElem?_eq_getElem (show q < view.length by omega)
            have := hall q _ (by omega) he
            have := hinv.height_pos_of he
            omega
          rw [List.getElem?_eq_none hend]
          cases k with
          | zero => rfl
          | succ k =>
              have he := List.getElem?_eq_getElem (show k < view.length by omega)
              obtain ⟨n, hn, hkey, -⟩ := hinv.node_of he
              simp [ptrAt_succ he, SkipMap.gge_last, hn, hkey, hcut.lt_before k _ (by omega) he]
        · exact ih k (level - 1) hkq (by omega) (fun j e hj _ he => (hall j e hj he).trans (by omega))
            (by omega)
      · rw [hsome] at hlink
        obtain ⟨n, hn, hkey, -⟩ := hinv.node_of he
        simp only [SkipMap.gge_loop, hlink, hn, hkey]
        by_cases hk'q : k' < q
        · -- a lesser key: along the level to it
          rw [hcut.lt_before k' e hk'q he, ← ptrAt_succ he]
          exact ih (k' + 1) level (by omega) (by rw [heightAt_succ he]; exact htall)
            (fun j e' hj hjq he' => hlow j e' (by omega) hjq he') (by omega)
        · have hbelow : ∀ j e', k ≤ j → j < q → view[j]? = some e' → e'.height ≤ level :=
            fun j e' hj hjq he' => hbetween j e' hj (by omega) he'
          cases hc : cmp e.key t with
          | lt => exact absurd hc (hcut.not_lt_from k' e (by omega) he)
          | eq =>
              obtain rfl := eq_cut_of_eq hinv hcut (by omega) he hc
              simp [he]
          | gt =>
              simp only
              split_ifs with h0
              · -- at level 0 the entry after the place is the one at the cut
                subst h0
                have hkq' : k = q := hinv.eq_of_low_zero hkq hq hbelow
                have hkk : k' = k := by
                  by_contra hne
                  have hk := List.getElem?_eq_getElem (show k < view.length by
                    have := (List.getElem?_eq_some_iff.mp he).1
                    omega)
                  have := hbetween k _ (le_refl k) (by omega) hk
                  have := hinv.height_pos_of hk
                  omega
                subst hkk hkq'
                simp [he]
              · exact ih k (level - 1) hkq (by omega)
                  (fun j e' hj hjq he' => (hbelow j e' hj hjq he').trans (by omega)) (by omega)

/-- **`get_greater_or_equal` finds the entry at the cut**: the node with
    the first key not less than the key sought, or none. -/
theorem get_greater_or_equal_eq (hinv : SkipInv cmp m view) (hcut : IsCut cmp view t q) :
    m.get_greater_or_equal cmp t = some ((view[q]?).map SkipEntry.idx) := by
  have hq := hcut.le_length
  unfold SkipMap.get_greater_or_equal
  rw [hinv.head_height, ← hinv.length_eq]
  exact gge_loop_eq hinv hcut _ 0 (MAX_HEIGHT - 1) (Nat.zero_le q) (by simp [MAX_HEIGHT_eq])
    (fun j e _ _ he => by have := hinv.height_le e (List.mem_of_getElem? he); simp [MAX_HEIGHT_eq] at this ⊢; omega)
    (by simp [MAX_HEIGHT_eq]; omega)

/-- **Seeking in the skip map** (`SkipMapIter::seek`, then `current`)
    gives the first entry whose key is not less than the key sought. -/
theorem seek_current (hinv : SkipInv cmp m view) (it : SkipMapIter) (t : K) :
    (SkipMapIter.seek cmp m it t).bind (SkipMapIter.current m) =
      some ((contents view).find? fun a => cmp a.1 t != .lt) := by
  obtain ⟨q, hcut⟩ := exists_cut hinv.sorted t
  rw [find?_contents_cut hcut]
  unfold SkipMapIter.seek
  rw [get_greater_or_equal_eq hinv hcut]
  cases he : view[q]? with
  | none => rfl
  | some e =>
      obtain ⟨n, hn, hkey, hval, -⟩ := hinv.node_of he
      simp [SkipMapIter.current, hn, hkey, hval]

end Search

/-! ## §2. `insert`'s search. -/

section InsertSearch

variable {cmp : K → K → Ordering} {m : SkipMap K V} {view : List (SkipEntry K V)}
  {t : K} {q : Nat}

/-- Place `k` is the last of level `j` before the cut at `q`: it reaches
    level `j`, and nothing between it and the cut does. -/
def PrevAt (view : List (SkipEntry K V)) (q j k : Nat) : Prop :=
  k ≤ q ∧ j < heightAt view MAX_HEIGHT k ∧ ∀ i e, k ≤ i → i < q → view[i]? = some e → e.height ≤ j

/-- **The search of `insert`**: with no key equal to `t`, it ends at the
    place before the cut, and each level below the new height has recorded
    its last place before the cut. -/
theorem insert_loop_eq (hinv : SkipInv cmp m view) (hcut : IsCut cmp view t q)
    (hne : ∀ e ∈ view, cmp e.key t ≠ .eq) (new_height : Nat) :
    ∀ fuel k level (ks : List Nat), k ≤ q → level < heightAt view MAX_HEIGHT k →
      (∀ j e, k ≤ j → j < q → view[j]? = some e → e.height ≤ level + 1) → q - k + level < fuel →
      ks.length = new_height → (∀ j (hj : j < ks.length), level < j → PrevAt view q j ks[j]) →
      ∃ ks' : List Nat, m.insert_loop cmp t new_height fuel (ptrAt view k) level (ks.map (ptrAt view)) =
          some (ptrAt view q, ks'.map (ptrAt view)) ∧ ks'.length = new_height ∧
        ∀ j (hj : j < ks'.length), PrevAt view q j ks'[j] := by
  intro fuel
  induction fuel with
  | zero => intro k level ks _ _ _ hfuel; omega
  | succ fuel ih =>
      intro k level ks hkq hlev hlow hfuel hks hprev
      have hq := hcut.le_length
      have hlink := hinv.links k (by omega) level hlev
      -- at the end of the level: record the place, then down or stop
      have hdown : (∀ j e, k ≤ j → j < q → view[j]? = some e → e.height ≤ level) →
          ∃ ks' : List Nat,
            (let prevs := if level < new_height then (ks.map (ptrAt view)).set level (ptrAt view k)
                else ks.map (ptrAt view)
             if level = 0 then some (ptrAt view k, prevs)
             else m.insert_loop cmp t new_height fuel (ptrAt view k) (level - 1) prevs) =
              some (ptrAt view q, ks'.map (ptrAt view)) ∧ ks'.length = new_height ∧
            ∀ j (hj : j < ks'.length), PrevAt view q j ks'[j] := by
        intro hbelow
        have hprevk : PrevAt view q level k := ⟨hkq, hlev, hbelow⟩
        -- the places recorded so far, with this one
        set ks₁ := if level < new_height then ks.set level k else ks with hks₁
        have hmap : (if level < new_height then (ks.map (ptrAt view)).set level (ptrAt view k)
            else ks.map (ptrAt view)) = ks₁.map (ptrAt view) := by
          split_ifs <;> simp [*, List.map_set]
        have hlen₁ : ks₁.length = new_height := by
          split_ifs at hks₁ <;> simp [hks₁, hks]
        have hprev₁ : ∀ j (hj : j < ks₁.length), level ≤ j → PrevAt view q j ks₁[j] := by
          intro j hj hlj
          by_cases hjl : j = level
          · subst hjl
            have hset : ks₁ = ks.set j k := by rw [hks₁, if_pos (by omega)]
            simp only [hset, List.getElem_set_self]
            exact hprevk
          · have hjk : j < ks.length := by omega
            have hget : ks₁[j] = ks[j] := by
              simp only [hks₁]
              split_ifs
              · exact List.getElem_set_ne (Ne.symm hjl) _
              · rfl
            rw [hget]
            exact hprev j (by omega) (by omega)
        simp only [hmap]
        split_ifs with h0
        · -- level 0: the place is the one before the cut
          subst h0
          obtain rfl : k = q := hinv.eq_of_low_zero hkq hq hbelow
          exact ⟨ks₁, rfl, hlen₁, fun j hj => hprev₁ j hj (Nat.zero_le j)⟩
        · exact ih k (level - 1) ks₁ hkq (by omega) (fun j e hj hjq he => (hbelow j e hj hjq he).trans (by omega))
            (by omega) hlen₁ (fun j hj hlj => hprev₁ j hj (by omega))
      rcases linkAt_cases view level k with ⟨hnone, hall⟩ | ⟨k', e, hkk', he, htall, hbetween, hsome⟩
      · rw [hnone] at hlink
        simp only [SkipMap.insert_loop_succ, hlink, SkipMap.ahead_none]
        exact hdown fun j e hj _ he => hall j e hj he
      · rw [hsome] at hlink
        obtain ⟨n, hn, hkey, -⟩ := hinv.node_of he
        by_cases hk'q : k' < q
        · -- a lesser key: along the level to it
          have hahead : m.ahead cmp t (some e.idx) = some (some e.idx) := by
            simp [SkipMap.ahead_some, hn, hkey, hcut.lt_before k' e hk'q he]
          simp only [SkipMap.insert_loop_succ, hlink, hahead]
          rw [← ptrAt_succ he]
          exact ih (k' + 1) level ks (by omega) (by rw [heightAt_succ he]; exact htall)
            (fun j e' hj hjq he' => hlow j e' (by omega) hjq he') (by omega) hks hprev
        · -- a greater key: the end of the level
          have hgt : cmp e.key t = .gt := by
            have h1 := hcut.not_lt_from k' e (by omega) he
            have h2 := hne e (List.mem_of_getElem? he)
            cases hc : cmp e.key t <;> simp_all
          have hahead : m.ahead cmp t (some e.idx) = some none := by
            simp [SkipMap.ahead_some, hn, hkey, hgt]
          simp only [SkipMap.insert_loop_succ, hlink, hahead]
          exact hdown fun j e' hj hjq he' => hbetween j e' hj (by omega) he'

/-- **`insert`'s search panics on a key already in the map**: with the
    entry at the cut equal to `t`, the search meets it (at some level) and
    the `assert!(ord != Ordering::Equal)` fails. -/
theorem insert_loop_eq_none (hinv : SkipInv cmp m view) (hcut : IsCut cmp view t q) {e : SkipEntry K V}
    (he : view[q]? = some e) (heq : cmp e.key t = .eq) (new_height : Nat) :
    ∀ fuel k level (prevs : List Ptr), k ≤ q → level < heightAt view MAX_HEIGHT k →
      (∀ j e', k ≤ j → j < q → view[j]? = some e' → e'.height ≤ level + 1) → q - k + level < fuel →
      m.insert_loop cmp t new_height fuel (ptrAt view k) level prevs = none := by
  intro fuel
  induction fuel with
  | zero => intro k level prevs _ _ _ hfuel; omega
  | succ fuel ih =>
      intro k level prevs hkq hlev hlow hfuel
      have hq := hcut.le_length
      have hepos := hinv.height_pos_of he
      have hlink := hinv.links k (by omega) level hlev
      -- the end of a level above 0: down, with the place recorded or not
      have hdown : 0 < level → (∀ j e', k ≤ j → j < q → view[j]? = some e' → e'.height ≤ level) →
          (let prevs := if level < new_height then prevs.set level (ptrAt view k) else prevs
           if level = 0 then some (ptrAt view k, prevs)
           else m.insert_loop cmp t new_height fuel (ptrAt view k) (level - 1) prevs) = none := by
        intro hpos hbelow
        simp only [if_neg (show level ≠ 0 by omega)]
        exact ih k (level - 1) _ hkq (by omega) (fun j e' hj hjq he' => (hbelow j e' hj hjq he').trans (by omega))
          (by omega)
      rcases linkAt_cases view level k with ⟨hnone, hall⟩ | ⟨k', e', hkk', he', htall, hbetween, hsome⟩
      · -- no link on: the entry at the cut is no taller than the level, which is not 0
        rw [hnone] at hlink
        have hqlow := hall q e hkq he
        simp only [SkipMap.insert_loop_succ, hlink, SkipMap.ahead_none]
        exact hdown (by omega) fun j e' hj _ he' => hall j e' hj he'
      · rw [hsome] at hlink
        obtain ⟨n, hn, hkey, -⟩ := hinv.node_of he'
        by_cases hk'q : k' < q
        · -- a lesser key: along the level to it
          have hahead : m.ahead cmp t (some e'.idx) = some (some e'.idx) := by
            simp [SkipMap.ahead_some, hn, hkey, hcut.lt_before k' e' hk'q he']
          simp only [SkipMap.insert_loop_succ, hlink, hahead]
          rw [← ptrAt_succ he']
          exact ih (k' + 1) level prevs (by omega) (by rw [heightAt_succ he']; exact htall)
            (fun j e'' hj hjq he'' => hlow j e'' (by omega) hjq he'') (by omega)
        · cases hc : cmp e'.key t with
          | lt => exact absurd hc (hcut.not_lt_from k' e' (by omega) he')
          | eq =>
              -- the equal key: the assertion fails
              simp [SkipMap.insert_loop_succ, hlink, SkipMap.ahead_some, hn, hkey, hc]
          | gt =>
              -- past the key: the entry at the cut lies between, no taller than the level
              have hk'q' : k' ≠ q := fun h => by rw [h, he] at he'; cases he'; rw [heq] at hc; cases hc
              have hqlow := hbetween q e hkq (by omega) he
              have hahead : m.ahead cmp t (some e'.idx) = some none := by
                simp [SkipMap.ahead_some, hn, hkey, hc]
              simp only [SkipMap.insert_loop_succ, hlink, hahead]
              exact hdown (by omega) fun j e'' hj hjq he'' => hbetween j e'' hj (by omega) he''

end InsertSearch

end Teaclave.Leveldb
