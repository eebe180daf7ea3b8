/-
  Teaclave.Leveldb.SkipMapInsert
  ──────────────────────────────
  **`SkipMap::insert` IS AN ORDERED INSERTION.**

  `insert` draws a height, runs the search of `insert_loop` (which records,
  for each level below the height, the last place of that level before the
  key), splices the new node into each of those levels and links it after
  the place the search ended at.  Over a map that holds a bottom level
  `view`, the map built holds `view` with the new entry at the cut of its
  key: every link of every place is again the first entry after the place
  that is taller than the link's level.

    • `splice_spec`: by induction on the recorded places, the splice sets
      one link per level and returns the links it replaced (`Spliced`).
    • `SkipInv.insert_links`, `SkipInv.insert_nexts`: the links of the new
      level, place by place: before the cut, the new entry, after it.
    • `insert_spec`: a key that is neither empty nor in the map is
      inserted, the map still holds a level, and its contents are the
      ordered insertion of the pair; `insert_dup`: a key in the map panics.
    • `skipmap_insert_refines`, `skipmap_seek_after_inserts`,
      `skipmap_insert_dup_panics`: over any run of inserts from a new map,
      by induction on the pairs (`inserts_from`).
-/
import Teaclave.Leveldb.SkipMapSearch

namespace Teaclave.Leveldb

open Teaclave.Lib

variable {K V : Type}

/-! ## §1. The splice. -/

/-- What the splice of `newp` at the places `prevs`, from level `l` up,
    did to `m`: the place `prevs[j]` links to `newp` at level `l + j`,
    `skips[j]` is the link it had there, and nothing else changed. -/
structure Spliced (m m' : SkipMap K V) (newp l : Nat) (prevs : List Ptr) (skips : List (Option Nat)) :
    Prop where
  length_skips : skips.length = prevs.length
  old_link : ∀ j (hj : j < prevs.length), m.link prevs[j] (l + j) = skips[j]?
  new_link : ∀ j (hj : j < prevs.length), m'.link prevs[j] (l + j) = some (some newp)
  other_link : ∀ p l', (∀ j (hj : j < prevs.length), l + j = l' → p ≠ prevs[j]) → m'.link p l' = m.link p l'
  next_of : ∀ p, m'.next_of p = m.next_of p
  nodes : ∀ i : Nat, (m'.nodes[i]?).map (fun n : Node K V => (n.key, n.value, n.skips.length)) =
    (m.nodes[i]?).map (fun n : Node K V => (n.key, n.value, n.skips.length))
  length_nodes : m'.nodes.length = m.nodes.length
  head_height : m'.head_skips.length = m.head_skips.length
  len : m'.len = m.len

/-- **The splice**: where every recorded place has a link at its level, the
    splice succeeds, and does what `Spliced` says. -/
theorem splice_spec (newp : Nat) :
    ∀ (prevs : List Ptr) (m : SkipMap K V) (l : Nat),
      (∀ j (hj : j < prevs.length), (m.link prevs[j] (l + j)).isSome) →
      ∃ skips m', m.splice newp l prevs = some (skips, m') ∧ Spliced m m' newp l prevs skips
  | [], m, l, _ =>
      ⟨[], m, rfl,
        { length_skips := rfl, old_link := by simp, new_link := by simp,
          other_link := fun _ _ _ => rfl, next_of := fun _ => rfl, nodes := fun _ => rfl,
          length_nodes := rfl, head_height := rfl, len := rfl }⟩
  | prev :: prevs, m, l, hsome => by
      obtain ⟨link, hlink⟩ := Option.isSome_iff_exists.mp (hsome 0 (by simp))
      simp only [List.getElem_cons_zero, Nat.add_zero] at hlink
      -- the levels further up are read in `m` itself: the first update is below them
      have hup : ∀ j p, (m.set_skip prev l (some newp)).link p (l + 1 + j) = m.link p (l + 1 + j) :=
        fun j p => link_set_skip_of_ne _ (.inr (by omega))
      obtain ⟨skips, m', hrec, hsp⟩ := splice_spec newp prevs (m.set_skip prev l (some newp)) (l + 1)
        fun j hj => by
          have hnext := hsome (j + 1) (by simpa using hj)
          rwa [List.getElem_cons_succ, show l + (j + 1) = l + 1 + j by omega, ← hup] at hnext
      refine ⟨link :: skips, m', by simp [SkipMap.splice, hlink, hrec], ?_⟩
      exact {
        length_skips := by simp [hsp.length_skips]
        old_link := by
          intro j hj
          cases j with
          | zero => simpa using hlink
          | succ j =>
              have hold := hsp.old_link j (by simpa using hj)
              rw [hup] at hold
              simpa [show l + (j + 1) = l + 1 + j by omega] using hold
        new_link := by
          intro j hj
          cases j with
          | zero =>
              rw [List.getElem_cons_zero, Nat.add_zero,
                hsp.other_link _ _ fun j _ hj' => absurd hj' (by omega), link_set_skip_self, hlink]
              rfl
          | succ j => simpa [show l + (j + 1) = l + 1 + j by omega] using hsp.new_link j (by simpa using hj)
        other_link := by
          intro p l' hp
          rw [hsp.other_link p l' fun j hj hl => by
            have hne := hp (j + 1) (by simpa using hj) (by omega)
            rwa [List.getElem_cons_succ] at hne]
          by_cases hl : l' = l
          · have hne := hp 0 (by simp) (by omega)
            rw [List.getElem_cons_zero] at hne
            exact link_set_skip_of_ne _ (.inl hne)
          · exact link_set_skip_of_ne _ (.inr hl)
        next_of := fun p => (hsp.next_of p).trans (next_of_set_skip prev p l _)
        nodes := fun i => (hsp.nodes i).trans (nodes_set_skip prev l _ i)
        length_nodes := by rw [hsp.length_nodes, length_nodes_set_skip]
        head_height := by rw [hsp.head_height, length_head_skips_set_skip]
        len := by rw [hsp.len, len_set_skip] }

/-- A node whose key, value and height are as they were. -/
theorem exists_node_of_map_eq {m m' : SkipMap K V} {i : Nat} {n : Node K V}
    (h : (m'.nodes[i]?).map (fun n => (n.key, n.value, n.skips.length)) =
      (m.nodes[i]?).map (fun n => (n.key, n.value, n.skips.length)))
    (hn : m.nodes[i]? = some n) :
    ∃ n', m'.nodes[i]? = some n' ∧ n'.key = n.key ∧ n'.value = n.value ∧ n'.skips.length = n.skips.length := by
  rw [hn, Option.map_some, Option.map_eq_some_iff] at h
  obtain ⟨n', hn', heq⟩ := h
  simp only [Prod.mk.injEq] at heq
  exact ⟨n', hn', heq.1, heq.2.1, heq.2.2⟩

/-! ## §2. The new node at the end of the arena. -/

section Push

variable {m : SkipMap K V} {n : Node K V} {c : Nat}

theorem link_push_of_ne {p : Ptr} (hp : p ≠ .node m.nodes.length) (l : Nat) :
    ({ m with nodes := m.nodes ++ [n], len := c } : SkipMap K V).link p l = m.link p l := by
  cases p with
  | head => rfl
  | node i =>
      have hi : i ≠ m.nodes.length := fun h => hp (by rw [h])
      simp only [link_node]
      rcases Nat.lt_or_gt_of_ne hi with hlt | hgt
      · rw [List.getElem?_append_left hlt]
      · rw [List.getElem?_eq_none (by simp; omega), List.getElem?_eq_none (by omega)]

theorem link_push_self {i : Nat} (hi : i = m.nodes.length) (l : Nat) :
    ({ m with nodes := m.nodes ++ [n], len := c } : SkipMap K V).link (.node i) l = n.skips[l]? := by
  subst hi
  simp [link_node]

theorem next_of_push_of_ne {p : Ptr} (hp : p ≠ .node m.nodes.length) :
    ({ m with nodes := m.nodes ++ [n], len := c } : SkipMap K V).next_of p = m.next_of p := by
  cases p with
  | head => rfl
  | node i =>
      have hi : i ≠ m.nodes.length := fun h => hp (by rw [h])
      simp only [next_of_node]
      rcases Nat.lt_or_gt_of_ne hi with hlt | hgt
      · rw [List.getElem?_append_left hlt]
      · rw [List.getElem?_eq_none (by simp; omega), List.getElem?_eq_none (by omega)]

theorem next_of_push_self {i : Nat} (hi : i = m.nodes.length) :
    ({ m with nodes := m.nodes ++ [n], len := c } : SkipMap K V).next_of (.node i) = some n.next := by
  subst hi
  simp [next_of_node]

@[simp] theorem head_skips_set_next (p : Ptr) (x : Option Nat) : (m.set_next p x).head_skips = m.head_skips := by
  cases p <;> rfl

end Push

/-! ## §3. The new bottom level. -/

section Level

variable {cmp : K → K → Ordering} {m : SkipMap K V} {view : List (SkipEntry K V)} {q l k₀ : Nat}

theorem SkipInv.idx_lt (hinv : SkipInv cmp m view) {e : SkipEntry K V} (he : e ∈ view) :
    e.idx < m.nodes.length := by
  obtain ⟨n, hn, -⟩ := hinv.node_at e he
  exact (List.getElem?_eq_some_iff.mp hn).1

/-- No place of the level is the node allocated next. -/
theorem SkipInv.ptrAt_ne_new (hinv : SkipInv cmp m view) (k : Nat) : ptrAt view k ≠ .node m.nodes.length := by
  cases k with
  | zero => simp
  | succ k =>
      cases he : view[k]? with
      | none => simp [ptrAt_succ_eq, he]
      | some e =>
          have := hinv.idx_lt (List.mem_of_getElem? he)
          rw [ptrAt_succ he]
          simp only [ne_eq, Ptr.node.injEq]
          omega

/-- The last place of level `l` before the cut has the link the cut has. -/
theorem PrevAt.linkAt_eq {k : Nat} (hp : PrevAt view q l k) : linkAt view l k = linkAt view l q := by
  obtain ⟨hkq, -, hlow⟩ := hp
  have hskip : linkAt view l k = linkAt view l (k + (q - k)) :=
    linkAt_skip (q - k) fun i e hi hiq he => hlow i e hi (by omega) he
  rwa [Nat.add_sub_cancel' hkq] at hskip

/-- At a level below the new height, the last place before the cut links
    to the new entry. -/
theorem linkAt_insertIdx_of_prevAt {new : SkipEntry K V} (hq : q ≤ view.length) {k : Nat}
    (hp : PrevAt view q l k) (hl : l < new.height) :
    linkAt (view.insertIdx q new) l k = some new.idx :=
  linkAt_insertIdx_of_low hq hp.1 hp.2.2 hl

/-- At a level below the new height, a place before the cut other than the
    last of the level keeps its link: an entry of the level stands between
    it and the cut. -/
theorem linkAt_insertIdx_of_ne_prevAt {new : SkipEntry K V} (hp : PrevAt view q l k₀) (hq : q ≤ view.length)
    {k : Nat} (hk : k ≤ q) (hl : l < heightAt view MAX_HEIGHT k) (hne : k ≠ k₀) :
    linkAt (view.insertIdx q new) l k = linkAt view l k := by
  obtain ⟨hk₀q, htall₀, hlow₀⟩ := hp
  rcases Nat.lt_or_gt_of_ne hne with hlt | hgt
  · -- the place `k₀` is an entry after `k` that reaches level `l`
    obtain ⟨j, rfl⟩ : ∃ j, k₀ = j + 1 := ⟨k₀ - 1, by omega⟩
    have he := List.getElem?_eq_getElem (show j < view.length by omega)
    rw [heightAt_succ he] at htall₀
    exact linkAt_insertIdx_of_tall (by omega) (by omega) he htall₀
  · -- `k` would be an entry between `k₀` and the cut that reaches level `l`
    obtain ⟨j, rfl⟩ : ∃ j, k = j + 1 := ⟨k - 1, by omega⟩
    have he := List.getElem?_eq_getElem (show j < view.length by omega)
    rw [heightAt_succ he] at hl
    exact absurd (hlow₀ j _ (by omega) (by omega) he) (by omega)

end Level

/-! ## §4. The invariant after `insert`. -/

section Insert

variable {cmp : K → K → Ordering} {m m' M : SkipMap K V} {view : List (SkipEntry K V)} {q : Nat}
  {ks : List Nat} {skips : List (Option Nat)} {new : SkipEntry K V}

/-- The splice at the recorded places of the bottom level: the last place of
    a level below the new height links to the new node. -/
theorem Spliced.link_prev {newp : Nat} (hsp : Spliced m m' newp 0 (ks.map (ptrAt view)) skips) {l : Nat}
    (hl : l < ks.length) : m'.link (ptrAt view ks[l]) l = some (some newp) := by
  have hnew := hsp.new_link l (by simpa using hl)
  rwa [List.getElem_map, Nat.zero_add] at hnew

/-- … and the other places keep their links. -/
theorem Spliced.link_other {newp : Nat} (hinv : SkipInv cmp m view)
    (hsp : Spliced m m' newp 0 (ks.map (ptrAt view)) skips) (hks : ∀ j (hj : j < ks.length), ks[j] ≤ view.length)
    {k l : Nat} (hk : k ≤ view.length) (hne : ∀ hl : l < ks.length, ks[l] ≠ k) :
    m'.link (ptrAt view k) l = m.link (ptrAt view k) l := by
  refine hsp.other_link _ _ fun j hj hjl heq => ?_
  simp only [List.length_map, List.getElem_map, Nat.zero_add] at hj hjl heq
  subst hjl
  exact hne hj (ptrAt_injective hinv.idx_nodup (hks j hj) hk heq.symm)

/-- **The links of the new level**, for a map `M` whose links are the
    spliced map's, with the new node's read from the splice. -/
theorem SkipInv.insert_links (hinv : SkipInv cmp m view) (hq : q ≤ view.length)
    (hprev : ∀ j (hj : j < ks.length), PrevAt view q j ks[j])
    (hsp : Spliced m m' new.idx 0 (ks.map (ptrAt view)) skips) (hh : new.height = ks.length)
    (hM_new : ∀ l, M.link (.node new.idx) l = skips[l]?)
    (hM_old : ∀ k l, M.link (ptrAt view k) l = m'.link (ptrAt view k) l) :
    ∀ k ≤ (view.insertIdx q new).length, ∀ l < heightAt (view.insertIdx q new) MAX_HEIGHT k,
      M.link (ptrAt (view.insertIdx q new) k) l = some (linkAt (view.insertIdx q new) l k) := by
  intro k hk l hl
  have hlen : (view.insertIdx q new).length = view.length + 1 := List.length_insertIdx_of_le_length hq new
  have hks : ∀ j (hj : j < ks.length), ks[j] ≤ view.length := fun j hj => (hprev j hj).1.trans hq
  rcases Nat.lt_or_ge q k with hqk | hkq
  · obtain ⟨k, rfl⟩ : ∃ k₀, k = k₀ + 1 := ⟨k - 1, by omega⟩
    rcases Nat.lt_or_ge q k with hqk' | hkq'
    · -- an entry after the new one: its links are as they were
      rw [heightAt_insertIdx_of_gt _ hqk'] at hl
      rw [ptrAt_insertIdx_of_gt hqk', linkAt_insertIdx_of_gt hqk', hM_old,
        hsp.link_other hinv hks (by omega) fun hl' heq => absurd (hprev l hl').1 (by omega),
        hinv.links k (by omega) l hl]
    · -- the new entry: its links are those the splice replaced
      obtain rfl : k = q := by omega
      rw [heightAt_insertIdx_self hq, hh] at hl
      have hold := hsp.old_link l (by simpa using hl)
      simp only [List.getElem_map, Nat.zero_add] at hold
      rw [ptrAt_insertIdx_self hq, linkAt_insertIdx_self, hM_new, ← hold,
        hinv.links _ (hks l hl) l (hprev l hl).2.1, (hprev l hl).linkAt_eq]
  · -- a place before the cut
    rw [heightAt_insertIdx_of_le _ hkq] at hl
    rw [ptrAt_insertIdx_of_le hkq, hM_old]
    by_cases hpre : ∃ hl' : l < ks.length, ks[l] = k
    · obtain ⟨hl', rfl⟩ := hpre
      rw [hsp.link_prev hl', linkAt_insertIdx_of_prevAt hq (hprev l hl') (by omega)]
    · rw [hsp.link_other hinv hks (by omega) fun hl' heq => hpre ⟨hl', heq⟩, hinv.links k (by omega) l hl]
      by_cases hlh : l < ks.length
      · rw [linkAt_insertIdx_of_ne_prevAt (hprev l hlh) hq hkq hl fun heq => hpre ⟨hlh, heq.symm⟩]
      · rw [linkAt_insertIdx_of_short hq hkq (by omega)]

/-- **The `next` links of the new level**, for a map `M` in which the place
    before the cut owns the new node, the new node owns what that place
    owned, and every other place owns what it did. -/
theorem SkipInv.insert_nexts (hinv : SkipInv cmp m view) (hq : q ≤ view.length) (hpos : 0 < new.height)
    (hM_new : M.next_of (.node new.idx) = m.next_of (ptrAt view q))
    (hM_at : M.next_of (ptrAt view q) = some (some new.idx))
    (hM_old : ∀ k, ptrAt view k ≠ ptrAt view q → M.next_of (ptrAt view k) = m.next_of (ptrAt view k)) :
    ∀ k ≤ (view.insertIdx q new).length,
      M.next_of (ptrAt (view.insertIdx q new) k) = some (linkAt (view.insertIdx q new) 0 k) := by
  intro k hk
  have hlen : (view.insertIdx q new).length = view.length + 1 := List.length_insertIdx_of_le_length hq new
  have hne : ∀ k ≤ view.length, k ≠ q → ptrAt view k ≠ ptrAt view q :=
    fun k hk hkq heq => hkq (ptrAt_injective hinv.idx_nodup hk hq heq)
  rcases Nat.lt_or_ge q k with hqk | hkq
  · obtain ⟨k, rfl⟩ : ∃ k₀, k = k₀ + 1 := ⟨k - 1, by omega⟩
    rcases Nat.lt_or_ge q k with hqk' | hkq'
    · rw [ptrAt_insertIdx_of_gt hqk', linkAt_insertIdx_of_gt hqk', hM_old k (hne k (by omega) (by omega)),
        hinv.nexts k (by omega)]
    · obtain rfl : q = k := by omega
      rw [ptrAt_insertIdx_self hq, linkAt_insertIdx_self, hM_new, hinv.nexts q hq]
  · rw [ptrAt_insertIdx_of_le hkq]
    rcases Nat.lt_or_ge k q with hkq' | hqk
    · -- before the place: the entry at `k` reaches level 0
      have he := List.getElem?_eq_getElem (show k < view.length by omega)
      rw [hM_old k (hne k (by omega) (by omega)), hinv.nexts k (by omega),
        linkAt_insertIdx_of_tall (le_refl k) hkq' he (hinv.height_pos_of he)]
    · obtain rfl : k = q := by omega
      rw [hM_at, linkAt_insertIdx_of_low hq (le_refl k) (fun j e h₁ h₂ _ => by omega) hpos]

/-- **`insert` keeps the invariant**: the map built from the spliced one,
    with the place before the cut owning the new node at the end of the
    arena, holds the level with the new entry at the cut. -/
theorem SkipInv.insert_node [Std.TransCmp cmp] {key : K} (hinv : SkipInv cmp m view)
    (hcut : IsCut cmp view key q) (hne : ∀ e ∈ view, cmp e.key key ≠ .eq) (hh₁ : 0 < ks.length)
    (hh₂ : ks.length ≤ MAX_HEIGHT) (hprev : ∀ j (hj : j < ks.length), PrevAt view q j ks[j])
    (hsp : Spliced m m' m.nodes.length 0 (ks.map (ptrAt view)) skips) {next : Option Nat}
    (hnext : m'.next_of (ptrAt view q) = some next) (val : V) :
    SkipInv cmp
      { m'.set_next (ptrAt view q) (some m.nodes.length) with
        nodes := (m'.set_next (ptrAt view q) (some m.nodes.length)).nodes ++ [⟨skips, next, key, val⟩]
        len := (m'.set_next (ptrAt view q) (some m.nodes.length)).len + 1 }
      (view.insertIdx q ⟨m.nodes.length, key, val, ks.length⟩) := by
  have hq := hcut.le_length
  have hlen₂ : (m'.set_next (ptrAt view q) (some m.nodes.length)).nodes.length = m.nodes.length := by
    rw [length_nodes_set_next, hsp.length_nodes]
  -- the places of the old level are not the new node
  have hold : ∀ k, ptrAt view k ≠ .node (m'.set_next (ptrAt view q) (some m.nodes.length)).nodes.length :=
    fun k => by rw [hlen₂]; exact hinv.ptrAt_ne_new k
  refine
    { idx_nodup := ?_, length_eq := ?_, node_at := ?_, sorted := sorted_insertIdx_cut hinv.sorted hcut hne,
      height_pos := ?_, height_le := ?_, head_height := ?_, links := ?_, nexts := ?_, len_eq := ?_ }
  · rw [List.map_insertIdx, (List.perm_insertIdx _ _ (by simpa using hq)).nodup_iff, List.nodup_cons]
    refine ⟨fun hmem => ?_, hinv.idx_nodup⟩
    obtain ⟨e, he, heq : e.idx = m.nodes.length⟩ := List.mem_map.mp hmem
    have := hinv.idx_lt he
    omega
  · show _ = ((m'.set_next _ _).nodes ++ _).length
    rw [List.length_append, hlen₂, List.length_insertIdx_of_le_length hq, hinv.length_eq]
    rfl
  · intro e he
    rcases (List.mem_insertIdx hq).mp he with rfl | he
    · refine ⟨⟨skips, next, key, val⟩, ?_, rfl, rfl, by simp [hsp.length_skips]⟩
      show ((m'.set_next _ _).nodes ++ [_])[_]? = _
      rw [List.getElem?_append_right hlen₂.le, hlen₂, Nat.sub_self]
      rfl
    · obtain ⟨n, hn, hkey, hval, hskips⟩ := hinv.node_at e he
      have hlt := hinv.idx_lt he
      obtain ⟨n', hn', hkey', hval', hskips'⟩ :=
        exists_node_of_map_eq ((nodes_set_next _ _ e.idx).trans (hsp.nodes e.idx)) hn
      refine ⟨n', ?_, hkey'.trans hkey, hval'.trans hval, hskips'.trans hskips⟩
      rw [List.getElem?_append_left (by omega), hn']
  · intro e he
    rcases (List.mem_insertIdx hq).mp he with rfl | he
    · exact hh₁
    · exact hinv.height_pos e he
  · intro e he
    rcases (List.mem_insertIdx hq).mp he with rfl | he
    · exact hh₂
    · exact hinv.height_le e he
  · simp [hsp.head_height, hinv.head_height]
  · refine hinv.insert_links hq hprev hsp rfl (fun l => link_push_self hlen₂.symm l) fun k l => ?_
    rw [link_push_of_ne (hold k), link_set_next]
  · refine hinv.insert_nexts hq hh₁ ?_ ?_ fun k hk => ?_
    · rw [next_of_push_self hlen₂.symm, ← hsp.next_of, hnext]
    · rw [next_of_push_of_ne (hold q), next_of_set_next_self, hnext]
      rfl
    · rw [next_of_push_of_ne (hold k), next_of_set_next_of_ne _ hk, hsp.next_of]
  · simp [List.length_insertIdx_of_le_length hq, hsp.len, hinv.len_eq]

end Insert

/-! ## §5. `insert`. -/

section Spec

variable {cmp : K → K → Ordering} [Std.TransCmp cmp] {m : SkipMap K V} {view : List (SkipEntry K V)}

/-- **`SkipMap::insert`**: over a map that holds a level, a key that is not
    empty and equal to no key of the level is inserted.  The map built holds
    a level whose contents are the ordered insertion of the pair. -/
theorem insert_spec (is_empty : K → Bool) (hinv : SkipInv cmp m view) {key : K} (hkey : is_empty key = false)
    (hne : ∀ e ∈ view, cmp e.key key ≠ .eq) (val : V) :
    ∃ m' view', m.insert cmp is_empty key val = some m' ∧ SkipInv cmp m' view' ∧
      contents view' = (contents view).orderedInsert (fun a b => (cmp a.1 b.1).isLE) (key, val) := by
  obtain ⟨q, hcut⟩ := exists_cut hinv.sorted key
  have hq := hcut.le_length
  -- the height drawn, and the map with its generator moved on
  obtain ⟨h, m₁, hrh, hh₁, hh₂, hinv₁⟩ :
      ∃ h m₁, m.random_height = (h, m₁) ∧ 1 ≤ h ∧ h ≤ MAX_HEIGHT ∧ SkipInv cmp m₁ view :=
    ⟨_, _, rfl, random_height_pos m, random_height_le m, hinv.with_rand _⟩
  -- the search, from the top level of the head
  obtain ⟨ks, hloop, hks, hprev⟩ := insert_loop_eq hinv₁ hcut hne h (m₁.nodes.length + MAX_HEIGHT) 0
    (MAX_HEIGHT - 1) (List.replicate h 0) (Nat.zero_le q) (by simp [MAX_HEIGHT_eq])
    (fun j e _ _ he => (hinv₁.height_le e (List.mem_of_getElem? he)).trans (by simp [MAX_HEIGHT_eq]))
    (by rw [← hinv₁.length_eq]; simp [MAX_HEIGHT_eq]; omega) (by simp)
    (fun j hj hlt => absurd hlt (by simp at hj; omega))
  simp only [ptrAt_zero, List.map_replicate] at hloop
  -- the splice reads a link at every recorded place
  obtain ⟨skips, m', hsplice, hsp⟩ := splice_spec m₁.nodes.length (ks.map (ptrAt view)) m₁ 0 fun j hj => by
    simp only [List.length_map] at hj
    have hp := hprev j hj
    simp [hinv₁.links _ (hp.1.trans hq) j hp.2.1]
  have hnext : m'.next_of (ptrAt view q) = some (linkAt view 0 q) := by
    rw [hsp.next_of, hinv₁.nexts q hq]
  have hcontents : contents (view.insertIdx q ⟨m₁.nodes.length, key, val, ks.length⟩) =
      (contents view).orderedInsert (fun a b => (cmp a.1 b.1).isLE) (key, val) :=
    contents_insertIdx_cut hcut hne
  refine ⟨_, view.insertIdx q ⟨m₁.nodes.length, key, val, ks.length⟩, ?_,
    hinv₁.insert_node hcut hne (by omega) (by omega) hprev hsp hnext val, hcontents⟩
  simp only [SkipMap.insert_of_not_empty _ hkey, hrh, hloop, hsplice, hnext]

/-- **`insert` panics on a key already in the map**
    (`assert!(ord != Ordering::Equal, "No duplicates allowed")`). -/
theorem insert_dup (is_empty : K → Bool) (hinv : SkipInv cmp m view) {e : SkipEntry K V} (he : e ∈ view) {key : K}
    (heq : cmp e.key key = .eq) (val : V) : m.insert cmp is_empty key val = none := by
  cases hkey : is_empty key
  · obtain ⟨q, hcut⟩ := exists_cut hinv.sorted key
    obtain ⟨j, hj⟩ := List.getElem?_of_mem he
    -- the equal entry is the one at the cut
    have hqj : q ≤ j := by
      by_contra hlt
      rw [hcut.lt_before j e (by omega) hj] at heq
      cases heq
    obtain rfl := eq_cut_of_eq hinv hcut hqj hj heq
    obtain ⟨h, m₁, hrh, hinv₁⟩ : ∃ h m₁, m.random_height = (h, m₁) ∧ SkipInv cmp m₁ view :=
      ⟨_, _, rfl, hinv.with_rand _⟩
    have hloop := insert_loop_eq_none hinv₁ hcut hj heq h (m₁.nodes.length + MAX_HEIGHT) 0 (MAX_HEIGHT - 1)
      (List.replicate h .head) (Nat.zero_le j) (by simp [MAX_HEIGHT_eq])
      (fun i e' _ _ he' => (hinv₁.height_le e' (List.mem_of_getElem? he')).trans (by simp [MAX_HEIGHT_eq]))
      (by rw [← hinv₁.length_eq]; have := hcut.le_length; simp [MAX_HEIGHT_eq]; omega)
    simp only [ptrAt_zero] at hloop
    simp only [SkipMap.insert_of_not_empty _ hkey, hrh, hloop]
  · exact SkipMap.insert_of_empty _ hkey val

end Spec

/-! ## §6. Runs of inserts. -/

section Ordered

variable {cmp : K → K → Ordering}

/-- The abstract map: pairs kept in the comparator's order, each inserted by
    `List.orderedInsert`. -/
def ordered_inserts (cmp : K → K → Ordering) (acc : List (K × V)) (kvs : List (K × V)) : List (K × V) :=
  kvs.foldl (fun acc kv => acc.orderedInsert (fun a b => (cmp a.1 b.1).isLE) kv) acc

theorem mem_ordered_inserts {a : K × V} :
    ∀ (acc kvs : List (K × V)), a ∈ ordered_inserts cmp acc kvs ↔ a ∈ acc ∨ a ∈ kvs
  | acc, [] => by simp [ordered_inserts]
  | acc, kv :: kvs => by
      rw [ordered_inserts, List.foldl_cons, ← ordered_inserts, mem_ordered_inserts, List.mem_orderedInsert]
      simp only [List.mem_cons]
      tauto

end Ordered

section Run

variable {cmp : K → K → Ordering} [Std.TransCmp cmp] (is_empty : K → Bool)

/-- **A run of inserts**, by induction on the pairs: from a map holding a
    level whose contents are `acc`, pairs with keys that are not empty and
    are unequal to each other and to those of `acc` are all inserted, and
    the map built holds their ordered insertion. -/
theorem inserts_from : ∀ (kvs : List (K × V)) (m : SkipMap K V) (view : List (SkipEntry K V)),
    SkipInv cmp m view → (∀ kv ∈ kvs, is_empty kv.1 = false) → kvs.Pairwise (fun a b => cmp a.1 b.1 ≠ .eq) →
    (∀ kv ∈ kvs, ∀ a ∈ contents view, cmp a.1 kv.1 ≠ .eq) →
    ∃ m' view', kvs.foldlM (fun m kv => m.insert cmp is_empty kv.1 kv.2) m = some m' ∧ SkipInv cmp m' view' ∧
      contents view' = ordered_inserts cmp (contents view) kvs
  | [], m, view, hinv, _, _, _ => ⟨m, view, rfl, hinv, rfl⟩
  | kv :: kvs, m, view, hinv, hkeys, hpair, hfresh => by
      obtain ⟨hkv, hpair'⟩ := List.pairwise_cons.mp hpair
      -- the first pair is fresh in the level
      have hne : ∀ e ∈ view, cmp e.key kv.1 ≠ .eq :=
        fun e he => hfresh kv (by simp) (e.key, e.value) (List.mem_map.mpr ⟨e, he, rfl⟩)
      obtain ⟨m₁, view₁, hins, hinv₁, hcontents⟩ := insert_spec is_empty hinv (hkeys kv (by simp)) hne kv.2
      -- the rest are fresh in the new level too
      have hfresh₁ : ∀ kv' ∈ kvs, ∀ a ∈ contents view₁, cmp a.1 kv'.1 ≠ .eq := by
        intro kv' hkv' a ha
        rw [hcontents, List.mem_orderedInsert] at ha
        rcases ha with rfl | ha
        · exact hkv kv' hkv'
        · exact hfresh kv' (by simp [hkv']) a ha
      obtain ⟨m', view', hrest, hinv', hcontents'⟩ :=
        inserts_from kvs m₁ view₁ hinv₁ (fun kv' h => hkeys kv' (by simp [h])) hpair' hfresh₁
      refine ⟨m', view', by simp [List.foldlM_cons, hins, hrest], hinv', ?_⟩
      rw [hcontents', hcontents]
      rfl

/-- **The skip map refines an ordered list**: pairs with keys that are not
    empty and pairwise unequal, inserted one after another into a new map,
    are all inserted; the map holds a level, and its contents are the
    ordered insertion of the pairs. -/
theorem skipmap_insert_refines (rand : Nat → UInt32) (kvs : List (K × V))
    (hkeys : ∀ kv ∈ kvs, is_empty kv.1 = false) (hpair : kvs.Pairwise fun a b => cmp a.1 b.1 ≠ .eq) :
    ∃ m view, kvs.foldlM (fun m kv => m.insert cmp is_empty kv.1 kv.2) (SkipMap.new rand) = some m ∧
      SkipInv cmp m view ∧ contents view = ordered_inserts cmp [] kvs :=
  inserts_from is_empty kvs _ [] (skipInv_new cmp rand) hkeys hpair (by simp [contents_eq])

theorem skipmap_insert_refines_three :
    ∃ m view, [(5, 50), (1, 10), (3, 30)].foldlM (fun m kv => m.insert compare (fun _ => false) kv.1 kv.2)
        (SkipMap.new fun _ => 0 : SkipMap Nat Nat) = some m ∧
      SkipInv compare m view ∧ contents view = ordered_inserts compare [] [(5, 50), (1, 10), (3, 30)] :=
  skipmap_insert_refines (fun _ => false) (fun _ => 0) _ (by decide) (by decide)

/-- **Seeking after a run of inserts**: `SkipMapIter::seek` then `current`
    give the first pair, in the comparator's order, whose key is not less
    than the key sought: what a scan of the ordered list finds. -/
theorem skipmap_seek_after_inserts (rand : Nat → UInt32) (kvs : List (K × V))
    (hkeys : ∀ kv ∈ kvs, is_empty kv.1 = false) (hpair : kvs.Pairwise fun a b => cmp a.1 b.1 ≠ .eq) :
    ∃ m, kvs.foldlM (fun m kv => m.insert cmp is_empty kv.1 kv.2) (SkipMap.new rand) = some m ∧
      ∀ (it : SkipMapIter) (t : K), (SkipMapIter.seek cmp m it t).bind (SkipMapIter.current m) =
        some ((ordered_inserts cmp [] kvs).find? fun a => cmp a.1 t != .lt) := by
  obtain ⟨m, view, hrun, hinv, hcontents⟩ :=
    inserts_from is_empty kvs _ [] (skipInv_new cmp rand) hkeys hpair (by simp [contents_eq])
  exact ⟨m, hrun, fun it t => by rw [seek_current hinv it t, hcontents]; rfl⟩

theorem skipmap_seek_after_inserts_three :
    ∃ m, [(5, 50), (1, 10), (3, 30)].foldlM (fun m kv => m.insert compare (fun _ => false) kv.1 kv.2)
        (SkipMap.new fun _ => 0 : SkipMap Nat Nat) = some m ∧
      ∀ (it : SkipMapIter) (t : Nat), (SkipMapIter.seek compare m it t).bind (SkipMapIter.current m) =
        some ((ordered_inserts compare [] [(5, 50), (1, 10), (3, 30)]).find? fun a => compare a.1 t != .lt) :=
  skipmap_seek_after_inserts (fun _ => false) (fun _ => 0) _ (by decide) (by decide)

/-- **No duplicates after a run of inserts**: inserting a key equal to one
    already inserted panics (`none`). -/
theorem skipmap_insert_dup_panics (rand : Nat → UInt32) (kvs : List (K × V))
    (hkeys : ∀ kv ∈ kvs, is_empty kv.1 = false) (hpair : kvs.Pairwise fun a b => cmp a.1 b.1 ≠ .eq) :
    ∃ m, kvs.foldlM (fun m kv => m.insert cmp is_empty kv.1 kv.2) (SkipMap.new rand) = some m ∧
      ∀ kv ∈ kvs, ∀ (key : K) (val : V), cmp kv.1 key = .eq → m.insert cmp is_empty key val = none := by
  obtain ⟨m, view, hrun, hinv, hcontents⟩ :=
    inserts_from is_empty kvs _ [] (skipInv_new cmp rand) hkeys hpair (by simp [contents_eq])
  refine ⟨m, hrun, fun kv hkv key val heq => ?_⟩
  -- the pair is an entry of the level
  have hmem : kv ∈ contents view := by
    rw [hcontents, mem_ordered_inserts]
    exact .inr hkv
  obtain ⟨e, he, hekv⟩ := List.mem_map.mp hmem
  exact insert_dup is_empty hinv he (by rw [← hekv] at heq; exact heq) val

theorem skipmap_insert_dup_panics_three :
    ∃ m, [(5, 50), (1, 10), (3, 30)].foldlM (fun m kv => m.insert compare (fun _ => false) kv.1 kv.2)
        (SkipMap.new fun _ => 0 : SkipMap Nat Nat) = some m ∧
      ∀ kv ∈ [(5, 50), (1, 10), (3, 30)], ∀ (key val : Nat), compare kv.1 key = .eq →
        m.insert compare (fun _ => false) key val = none :=
  skipmap_insert_dup_panics (fun _ => false) (fun _ => 0) _ (by decide) (by decide)

end Run

end Teaclave.Leveldb
