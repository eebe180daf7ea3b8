/-
  Teaclave.Leveldb.SkipMap
  ────────────────────────
  **THE SKIP MAP BEHIND A MEMTABLE.**

  `rusty_leveldb_sgx/src/skipmap.rs`.  A `SkipMap` is a head node and a set
  of heap nodes, each with a key, a value, a vector of raw `skips`
  pointers (one per level of its height) and an owning `next` box.
  `insert` draws a height from the map's generator, searches from the top
  level down for the place before the key, recording the last place of each
  level below the height, and links the new node in after them;
  `get_greater_or_equal` runs the same search and stops at the first node
  whose key is not less.

  Nodes live in an arena: a pointer is the node's index, the head is apart
  (its key and value are never read).  The generator is a stream of draws
  (`StdRng` seeded with `0xdeadbeef`), the comparator a parameter.  The
  loops run on fuel, and read a missing link or node as a panic (`none`).

    • `link_set_skip_self`, `link_set_skip_of_ne`, `next_of_set_next_self`,
      … : what each update of the arena changes, one lemma per update.
    • `random_height_le`, `random_height_pos`: drawn heights are between
      `1` and `MAX_HEIGHT`.
-/
import Teaclave.Lib.SkipList

namespace Teaclave.Leveldb

open Teaclave.Lib

/-! ## §1. Nodes and the map. -/

/-- `MAX_HEIGHT`. -/
def MAX_HEIGHT : Nat := 12

theorem MAX_HEIGHT_eq : MAX_HEIGHT = 12 := rfl

/-- `BRANCHING_FACTOR`. -/
def BRANCHING_FACTOR : UInt32 := 4

/-- `Node`: the skip links (`skips[0]` is the node after), the owning link
    `next`, the key and the value.  Links are arena indices. -/
structure Node (K V : Type) where
  skips : List (Option Nat)
  next : Option Nat
  key : K
  value : V

/-- `SkipMap` with the fields of its `InnerSkipMap`: the head's links, the
    arena of the other nodes in the order they were allocated, the
    generator (its draws to come) and `len`. -/
structure SkipMap (K V : Type) where
  head_skips : List (Option Nat)
  head_next : Option Nat
  nodes : List (Node K V)
  rand : Nat → UInt32
  len : Nat

variable {K V : Type}

/-- `SkipMap::new`: a head of `MAX_HEIGHT` empty links. -/
def SkipMap.new (rand : Nat → UInt32) : SkipMap K V :=
  ⟨List.replicate MAX_HEIGHT none, none, [], rand, 0⟩

/-- The loop of `random_height`: one level more while the height is below
    `MAX_HEIGHT` and the next draw is a multiple of `BRANCHING_FACTOR`. -/
def random_height_loop : Nat → Nat → (Nat → UInt32) → Nat × (Nat → UInt32)
  | 0, height, rand => (height, rand)
  | fuel + 1, height, rand =>
    if height < MAX_HEIGHT then
      if rand 0 % BRANCHING_FACTOR = 0 then random_height_loop fuel (height + 1) (fun n => rand (n + 1))
      else (height, fun n => rand (n + 1))
    else (height, rand)

/-- `InnerSkipMap::random_height`. -/
def SkipMap.random_height (m : SkipMap K V) : Nat × SkipMap K V :=
  let (height, rand) := random_height_loop MAX_HEIGHT 1 m.rand
  (height, { m with rand := rand })

/-- The skip links of the place `p`, if it is a node of the arena. -/
def SkipMap.skips_of (m : SkipMap K V) : Ptr → Option (List (Option Nat))
  | .head => some m.head_skips
  | .node i => m.nodes[i]?.map Node.skips

/-- `(*p).skips[level]`: `none` where the index is out of range. -/
def SkipMap.link (m : SkipMap K V) (p : Ptr) (level : Nat) : Option (Option Nat) :=
  match m.skips_of p with
  | some s => s[level]?
  | none => none

/-- `(*p).next`. -/
def SkipMap.next_of (m : SkipMap K V) : Ptr → Option (Option Nat)
  | .head => some m.head_next
  | .node i => m.nodes[i]?.map Node.next

/-- `(*p).skips[level] = link`. -/
def SkipMap.set_skip (m : SkipMap K V) (p : Ptr) (level : Nat) (link : Option Nat) : SkipMap K V :=
  match p with
  | .head => { m with head_skips := m.head_skips.set level link }
  | .node i => { m with nodes := m.nodes.modify i fun n => { n with skips := n.skips.set level link } }

/-- `(*p).next = link`. -/
def SkipMap.set_next (m : SkipMap K V) (p : Ptr) (link : Option Nat) : SkipMap K V :=
  match p with
  | .head => { m with head_next := link }
  | .node i => { m with nodes := m.nodes.modify i fun n => { n with next := link } }

/-! ## §2. The search. -/

section Search

variable (cmp : K → K → Ordering)

/-- The end of `get_greater_or_equal` once level 0 has no link on: the
    place the search stopped at, if it is a node whose key is not less. -/
def SkipMap.gge_last (m : SkipMap K V) (key : K) : Ptr → Option (Option Nat)
  | .head => some none
  | .node i =>
    match m.nodes[i]? with
    | some n => if cmp n.key key = .lt then some none else some (some i)
    | none => none

/-- The loop of `get_greater_or_equal`: along a level while the next key is
    less, down a level otherwise; an equal key, or a greater one at level
    0, is the answer. -/
def SkipMap.gge_loop (m : SkipMap K V) (key : K) : Nat → Ptr → Nat → Option (Option Nat)
  | 0, _, _ => none
  | fuel + 1, current, level =>
    match m.link current level with
    | none => none
    | some none =>
      if level = 0 then m.gge_last cmp key current else m.gge_loop key fuel current (level - 1)
    | some (some next) =>
      match m.nodes[next]? with
      | none => none
      | some n =>
        match cmp n.key key with
        | .lt => m.gge_loop key fuel (.node next) level
        | .eq => some (some next)
        | .gt => if level = 0 then some (some next) else m.gge_loop key fuel current (level - 1)

/-- `InnerSkipMap::get_greater_or_equal`: the node with the key or the next
    greater one, from the top level of the head down. -/
def SkipMap.get_greater_or_equal (m : SkipMap K V) (key : K) : Option (Option Nat) :=
  m.gge_loop cmp key (m.nodes.length + m.head_skips.length) .head (m.head_skips.length - 1)

/-- What `insert`'s search does with a level's link: move on to a node
    whose key is less (`some (some next)`), stay (`some none`), or panic on
    an equal key (`assert!(ord != Ordering::Equal)`). -/
def SkipMap.ahead (m : SkipMap K V) (key : K) : Option Nat → Option (Option Nat)
  | none => some none
  | some next =>
    match m.nodes[next]? with
    | none => none
    | some n =>
      match cmp n.key key with
      | .lt => some (some next)
      | .eq => none
      | .gt => some none

theorem SkipMap.ahead_none (m : SkipMap K V) (key : K) : m.ahead cmp key none = some none := rfl

theorem SkipMap.ahead_some (m : SkipMap K V) (key : K) (next : Nat) :
    m.ahead cmp key (some next) =
      match m.nodes[next]? with
      | none => none
      | some n =>
        match cmp n.key key with
        | .lt => some (some next)
        | .eq => none
        | .gt => some none := rfl

/-- The search loop of `insert`: as `get_greater_or_equal`'s, and at the
    end of each level below `new_height` the place reached is recorded in
    `prevs`. -/
def SkipMap.insert_loop (m : SkipMap K V) (key : K) (new_height : Nat) :
    Nat → Ptr → Nat → List Ptr → Option (Ptr × List Ptr)
  | 0, _, _, _ => none
  | fuel + 1, current, level, prevs =>
    match m.link current level with
    | none => none
    | some link =>
      match m.ahead cmp key link with
      | none => none
      | some (some next) => m.insert_loop key new_height fuel (.node next) level prevs
      | some none =>
        let prevs := if level < new_height then prevs.set level current else prevs
        if level = 0 then some (current, prevs)
        else m.insert_loop key new_height fuel current (level - 1) prevs

theorem SkipMap.insert_loop_succ (m : SkipMap K V) (key : K) (new_height fuel : Nat) (current : Ptr)
    (level : Nat) (prevs : List Ptr) :
    m.insert_loop cmp key new_height (fuel + 1) current level prevs =
      match m.link current level with
      | none => none
      | some link =>
        match m.ahead cmp key link with
        | none => none
        | some (some next) => m.insert_loop cmp key new_height fuel (.node next) level prevs
        | some none =>
          let prevs := if level < new_height then prevs.set level current else prevs
          if level = 0 then some (current, prevs)
          else m.insert_loop cmp key new_height fuel current (level - 1) prevs := rfl

end Search

/-! ## §3. Insertion. -/

/-- The splice loop of `insert`: level by level, the new node takes the
    link of the place recorded before it, and that place links to it. -/
def SkipMap.splice (m : SkipMap K V) (newp : Nat) (level : Nat) :
    List Ptr → Option (List (Option Nat) × SkipMap K V)
  | [] => some ([], m)
  | prev :: prevs =>
    match m.link prev level with
    | none => none
    | some link =>
      match (m.set_skip prev level (some newp)).splice newp (level + 1) prevs with
      | none => none
      | some (skips, m') => some (link :: skips, m')

/-- `SkipMap::insert`: the key must not be empty (`is_empty`) nor equal to
    one in the map.  The new node is allocated at the end of the arena. -/
def SkipMap.insert (cmp : K → K → Ordering) (is_empty : K → Bool) (m : SkipMap K V) (key : K) (val : V) :
    Option (SkipMap K V) :=
  if is_empty key then none
  else
    let (new_height, m) := m.random_height
    match m.insert_loop cmp key new_height (m.nodes.length + MAX_HEIGHT) .head (MAX_HEIGHT - 1)
        (List.replicate new_height .head) with
    | none => none
    | some (current, prevs) =>
      let newp := m.nodes.length
      match m.splice newp 0 prevs with
      | none => none
      | some (skips, m) =>
        -- the new node takes `current.next` and becomes it
        match m.next_of current with
        | none => none
        | some next =>
          let m := m.set_next current (some newp)
          some { m with nodes := m.nodes ++ [⟨skips, next, key, val⟩], len := m.len + 1 }

theorem SkipMap.insert_of_empty {cmp : K → K → Ordering} {is_empty : K → Bool} (m : SkipMap K V) {key : K}
    (h : is_empty key = true) (val : V) : m.insert cmp is_empty key val = none := if_pos h

theorem SkipMap.insert_of_not_empty {cmp : K → K → Ordering} {is_empty : K → Bool} (m : SkipMap K V)
    {key : K} (h : is_empty key = false) (val : V) :
    m.insert cmp is_empty key val = (
      let (new_height, m) := m.random_height
      match m.insert_loop cmp key new_height (m.nodes.length + MAX_HEIGHT) .head (MAX_HEIGHT - 1)
          (List.replicate new_height .head) with
      | none => none
      | some (current, prevs) =>
        let newp := m.nodes.length
        match m.splice newp 0 prevs with
        | none => none
        | some (skips, m) =>
          match m.next_of current with
          | none => none
          | some next =>
            let m := m.set_next current (some newp)
            some { m with nodes := m.nodes ++ [⟨skips, next, key, val⟩], len := m.len + 1 }) :=
  if_neg (by simp [h])

/-! ## §4. `SkipMapIter`. -/

/-- `SkipMapIter`: the place it stands at (its `current`). -/
structure SkipMapIter where
  cur : Ptr
  deriving DecidableEq, Repr

/-- `SkipMap::iter`: at the head. -/
def SkipMap.iter (_m : SkipMap K V) : SkipMapIter := ⟨.head⟩

/-- `SkipMapIter::valid`: not at the head. -/
def SkipMapIter.valid (it : SkipMapIter) : Bool := it.cur != .head

/-- `SkipMapIter::seek`: to the node `get_greater_or_equal` finds, or back
    to the head. -/
def SkipMapIter.seek (cmp : K → K → Ordering) (m : SkipMap K V) (_it : SkipMapIter) (key : K) :
    Option SkipMapIter :=
  match m.get_greater_or_equal cmp key with
  | none => none
  | some (some i) => some ⟨.node i⟩
  | some none => some ⟨.head⟩

/-- `SkipMapIter::advance`: to the next node, or back to the head at the
    end. -/
def SkipMapIter.advance (m : SkipMap K V) (it : SkipMapIter) : Option (Bool × SkipMapIter) :=
  match m.next_of it.cur with
  | none => none
  | some (some i) => some (true, ⟨.node i⟩)
  | some none => some (false, ⟨.head⟩)

/-- `SkipMapIter::current`: the key and value of the node it is at. -/
def SkipMapIter.current (m : SkipMap K V) (it : SkipMapIter) : Option (Option (K × V)) :=
  match it.cur with
  | .head => some none
  | .node i => m.nodes[i]?.map fun n => some (n.key, n.value)

/-! ## §5. What each update changes. -/

section Frame

variable {m : SkipMap K V}

@[simp] theorem link_head (l : Nat) : m.link .head l = m.head_skips[l]? := rfl

theorem set_skip_head (l : Nat) (x : Option Nat) :
    m.set_skip .head l x = { m with head_skips := m.head_skips.set l x } := rfl

theorem set_skip_node (i l : Nat) (x : Option Nat) :
    m.set_skip (.node i) l x =
      { m with nodes := m.nodes.modify i fun n => { n with skips := n.skips.set l x } } := rfl

theorem set_next_head (x : Option Nat) : m.set_next .head x = { m with head_next := x } := rfl

theorem set_next_node (i : Nat) (x : Option Nat) :
    m.set_next (.node i) x = { m with nodes := m.nodes.modify i fun n => { n with next := x } } := rfl

theorem next_of_node (i : Nat) : m.next_of (.node i) = m.nodes[i]?.map Node.next := rfl

theorem link_node (i l : Nat) : m.link (.node i) l = (m.nodes[i]?).bind fun n => n.skips[l]? := by
  cases h : m.nodes[i]? <;> simp [SkipMap.link, SkipMap.skips_of, h]

/-- Setting a link: the link set reads the new value (where it is in range). -/
theorem link_set_skip_self (p : Ptr) (l : Nat) (x : Option Nat) :
    (m.set_skip p l x).link p l = (m.link p l).map fun _ => x := by
  cases p with
  | head =>
      simp only [set_skip_head, link_head, List.getElem?_set_self']
      rfl
  | node i =>
      simp only [set_skip_node, link_node, List.getElem?_modify_eq]
      cases m.nodes[i]? with
      | none => rfl
      | some n =>
          simp only [Option.map_eq_map, Option.map_some, Option.bind_some, List.getElem?_set_self']
          rfl

/-- … and every other link is as it was. -/
theorem link_set_skip_of_ne {p p' : Ptr} {l l' : Nat} (x : Option Nat) (h : p' ≠ p ∨ l' ≠ l) :
    (m.set_skip p l x).link p' l' = m.link p' l' := by
  cases p with
  | head =>
      cases p' with
      | head =>
          have hl : l ≠ l' := by rcases h with h | h <;> [exact absurd rfl h; exact Ne.symm h]
          simp only [set_skip_head, link_head, List.getElem?_set_ne hl]
      | node j => rfl
  | node i =>
      cases p' with
      | head => rfl
      | node j =>
          simp only [set_skip_node, link_node]
          by_cases hij : i = j
          · subst hij
            have hl : l ≠ l' := by
              rcases h with h | h <;> [exact absurd rfl h; exact Ne.symm h]
            rw [List.getElem?_modify_eq]
            cases m.nodes[i]? with
            | none => rfl
            | some n => simp only [Option.map_eq_map, Option.map_some, Option.bind_some, List.getElem?_set_ne hl]
          · rw [List.getElem?_modify_ne _ _ hij]

theorem next_of_set_skip (p p' : Ptr) (l : Nat) (x : Option Nat) :
    (m.set_skip p l x).next_of p' = m.next_of p' := by
  cases p with
  | head => cases p' <;> rfl
  | node i =>
      cases p' with
      | head => rfl
      | node j =>
          simp only [set_skip_node, next_of_node]
          by_cases hij : i = j
          · subst hij
            rw [List.getElem?_modify_eq]
            cases m.nodes[i]? <;> rfl
          · rw [List.getElem?_modify_ne _ _ hij]

theorem link_set_next (p p' : Ptr) (l : Nat) (x : Option Nat) :
    (m.set_next p x).link p' l = m.link p' l := by
  cases p with
  | head => cases p' <;> rfl
  | node i =>
      cases p' with
      | head => rfl
      | node j =>
          simp only [set_next_node, link_node]
          by_cases hij : i = j
          · subst hij
            rw [List.getElem?_modify_eq]
            cases m.nodes[i]? <;> rfl
          · rw [List.getElem?_modify_ne _ _ hij]

theorem next_of_set_next_self (p : Ptr) (x : Option Nat) :
    (m.set_next p x).next_of p = (m.next_of p).map fun _ => x := by
  cases p with
  | head => rfl
  | node i =>
      simp only [set_next_node, next_of_node, List.getElem?_modify_eq]
      cases m.nodes[i]? <;> rfl

theorem next_of_set_next_of_ne {p p' : Ptr} (x : Option Nat) (h : p' ≠ p) :
    (m.set_next p x).next_of p' = m.next_of p' := by
  cases p with
  | head =>
      cases p' with
      | head => exact absurd rfl h
      | node j => rfl
  | node i =>
      cases p' with
      | head => rfl
      | node j =>
          have hij : i ≠ j := fun hij => h (by rw [hij])
          simp only [set_next_node, next_of_node, List.getElem?_modify_ne _ _ hij]

/-- The nodes' keys, values and heights, through either update. -/
theorem nodes_set_skip (p : Ptr) (l : Nat) (x : Option Nat) (i : Nat) :
    ((m.set_skip p l x).nodes[i]?).map (fun n => (n.key, n.value, n.skips.length)) =
      (m.nodes[i]?).map (fun n => (n.key, n.value, n.skips.length)) := by
  cases p with
  | head => rfl
  | node j =>
      simp only [set_skip_node]
      by_cases hij : j = i
      · subst hij
        rw [List.getElem?_modify_eq]
        cases m.nodes[j]? <;> simp
      · rw [List.getElem?_modify_ne _ _ hij]

theorem nodes_set_next (p : Ptr) (x : Option Nat) (i : Nat) :
    ((m.set_next p x).nodes[i]?).map (fun n => (n.key, n.value, n.skips.length)) =
      (m.nodes[i]?).map (fun n => (n.key, n.value, n.skips.length)) := by
  cases p with
  | head => rfl
  | node j =>
      simp only [set_next_node]
      by_cases hij : j = i
      · subst hij
        rw [List.getElem?_modify_eq]
        cases m.nodes[j]? <;> rfl
      · rw [List.getElem?_modify_ne _ _ hij]

@[simp] theorem length_nodes_set_skip (p : Ptr) (l : Nat) (x : Option Nat) :
    (m.set_skip p l x).nodes.length = m.nodes.length := by
  cases p <;> simp [set_skip_head, set_skip_node]

@[simp] theorem length_nodes_set_next (p : Ptr) (x : Option Nat) :
    (m.set_next p x).nodes.length = m.nodes.length := by
  cases p <;> simp [set_next_head, set_next_node]

@[simp] theorem length_head_skips_set_skip (p : Ptr) (l : Nat) (x : Option Nat) :
    (m.set_skip p l x).head_skips.length = m.head_skips.length := by
  cases p <;> simp [set_skip_head, set_skip_node]

@[simp] theorem len_set_skip (p : Ptr) (l : Nat) (x : Option Nat) : (m.set_skip p l x).len = m.len := by
  cases p <;> rfl

@[simp] theorem len_set_next (p : Ptr) (x : Option Nat) : (m.set_next p x).len = m.len := by
  cases p <;> rfl

end Frame

/-! ## §6. Heights. -/

theorem random_height_loop_bounds :
    ∀ (fuel h : Nat) (rand : Nat → UInt32), 1 ≤ h → h ≤ MAX_HEIGHT →
      1 ≤ (random_height_loop fuel h rand).1 ∧ (random_height_loop fuel h rand).1 ≤ MAX_HEIGHT := by
  intro fuel
  induction fuel with
  | zero => intro h rand h1 hle; exact ⟨h1, hle⟩
  | succ fuel ih =>
      intro h rand h1 hle
      unfold random_height_loop
      split_ifs with hlt
      · exact ih (h + 1) _ (by omega) (by omega)
      · exact ⟨h1, hle⟩
      · exact ⟨h1, hle⟩

theorem random_height_pos (m : SkipMap K V) : 1 ≤ m.random_height.1 :=
  (random_height_loop_bounds MAX_HEIGHT 1 m.rand (le_refl 1) (by decide)).1

theorem random_height_le (m : SkipMap K V) : m.random_height.1 ≤ MAX_HEIGHT :=
  (random_height_loop_bounds MAX_HEIGHT 1 m.rand (le_refl 1) (by decide)).2

end Teaclave.Leveldb
