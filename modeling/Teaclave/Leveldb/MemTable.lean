/-
  Teaclave.Leveldb.MemTable
  ─────────────────────────
  **A MEMTABLE READ SEES THE LATEST WRITE AT ITS SEQUENCE NUMBER.**

  `rusty_leveldb_sgx/src/memtable.rs`.  A `MemTable` is a skip map of
  memtable keys ordered by `cmp_memtable_key`: user key first, then the
  newest sequence number first.  `add` inserts the key built from a write;
  `get` seeks to the lookup key of a user key at a sequence number and
  answers from the entry it lands on: its value, that it was deleted, or
  nothing if that entry is another user key's.

  What a read should return (`read_spec`) is stated over the writes alone:
  of the writes of the key at a sequence number not above the read's, the
  one with the greatest.

    • `MemInv`: the memtable holds the keys of a list of writes, with
      distinct sequence numbers that fit in 56 bits; `MemInv.add` keeps it
      and `memInv_adds` carries it over any sequence of `add`s.
    • `MemInv.get_eq`: over such a memtable, `get` returns `read_spec`;
      `memtable_reads_latest`: after any run of `add`s from a new memtable.
-/
import Teaclave.Leveldb.SkipMapInsert
import Teaclave.Leveldb.KeyTypes

namespace Teaclave.Leveldb

open Teaclave.Lib

/-! ## §1. The memtable. -/

/-- `MAX_SEQUENCE_NUMBER`. -/
def MAX_SEQUENCE_NUMBER : UInt64 := ((1 : UInt64) <<< 56) - 1

/-- `DefaultCmp::cmp`: bytewise, `a.cmp(b)` on the slices. -/
def default_cmp (a b : List UInt8) : Ordering := compare a b

instance : Std.TransCmp default_cmp := inferInstanceAs (Std.TransCmp (compare : List UInt8 → List UInt8 → Ordering))

instance : Std.LawfulEqCmp default_cmp :=
  inferInstanceAs (Std.LawfulEqCmp (compare : List UInt8 → List UInt8 → Ordering))

/-- `MemTable`: the skip map of memtable keys; the map's values are empty,
    the value lives in the key. -/
structure MemTable where
  map : SkipMap (List UInt8) (List UInt8)

/-- `MemTable::new`, with the skip map's generator. -/
def MemTable.new (rand : Nat → UInt32) : MemTable := ⟨SkipMap.new rand⟩

/-- `MemTable::len`. -/
def MemTable.len (mt : MemTable) : Nat := mt.map.len

/-- `MemTable::add`: the write as one memtable key, inserted with an empty
    value (`SkipMap::insert` asserts a key is not empty). -/
def MemTable.add (ucmp : List UInt8 → List UInt8 → Ordering) (mt : MemTable) (seq : UInt64) (t : ValueType)
    (key value : List UInt8) : Option MemTable :=
  (mt.map.insert (cmp_memtable_key ucmp) List.isEmpty (build_memtable_key key value t seq) []).map MemTable.mk

/-- What `get` answers from the entry `current_key_val` gives after the
    seek: the value when the user keys are equal and the tag's low byte is
    `TypeValue`, `(None, true)` for a deletion, `(None, false)` otherwise. -/
def MemTable.answer (key : LookupKey) : Option (List UInt8 × List UInt8) → Option (List UInt8) × Bool
  | none => (none, false)
  | some (foundkey, _) =>
    let (fkeylen, fkeyoff, tag, vallen, valoff) := parse_memtable_key foundkey
    if key.user_key = slice foundkey fkeyoff (fkeyoff + fkeylen) then
      if tag &&& 0xff = ValueType.TypeValue.code then (some (slice foundkey valoff (valoff + vallen)), false)
      else (none, true)
    else (none, false)

/-- `MemTable::get`: seek the skip map's iterator to the lookup key, and
    answer from the entry it is at. -/
def MemTable.get (ucmp : List UInt8 → List UInt8 → Ordering) (mt : MemTable) (key : LookupKey) :
    Option (Option (List UInt8) × Bool) :=
  ((SkipMapIter.seek (cmp_memtable_key ucmp) mt.map mt.map.iter key.memtable_key).bind
    (SkipMapIter.current mt.map)).map (MemTable.answer key)

/-! ## §2. What a read should see. -/

/-- A write applied to the memtable: the arguments of `add`. -/
structure MemEntry where
  seq : UInt64
  typ : ValueType
  key : List UInt8
  value : List UInt8
  deriving DecidableEq, Repr

/-- The memtable key of a write. -/
def MemEntry.mkey (e : MemEntry) : List UInt8 := build_memtable_key e.key e.value e.typ e.seq

/-- The write a read of `k` at `s` should see: of the writes of `k` at a
    sequence number not above `s`, the one with the greatest. -/
def latest (es : List MemEntry) (k : List UInt8) (s : UInt64) : Option MemEntry :=
  (es.filter fun e => e.key == k && decide (e.seq.toNat ≤ s.toNat)).argmax fun e => e.seq.toNat

/-- **The answer a read should get**: the latest write's value, that it
    was a deletion, or nothing. -/
def read_spec (es : List MemEntry) (k : List UInt8) (s : UInt64) : Option (List UInt8) × Bool :=
  match latest es k s with
  | none => (none, false)
  | some e =>
    match e.typ with
    | .TypeValue => (some e.value, false)
    | .TypeDeletion => (none, true)

example : read_spec [⟨1, .TypeValue, [7], [1]⟩, ⟨3, .TypeDeletion, [7], []⟩, ⟨2, .TypeValue, [7], [2]⟩] [7] 2 =
    (some [2], false) := by decide

/-- `latest` finds a write of the key, not above the read, with no such
    write newer. -/
theorem latest_eq_some {es : List MemEntry} {k : List UInt8} {s : UInt64} {e : MemEntry} (h : latest es k s = some e) :
    e ∈ es ∧ e.key = k ∧ e.seq.toNat ≤ s.toNat ∧
      ∀ e' ∈ es, e'.key = k → e'.seq.toNat ≤ s.toNat → e'.seq.toNat ≤ e.seq.toNat := by
  have hmem := List.argmax_mem h
  simp only [List.mem_filter, Bool.and_eq_true, beq_iff_eq, decide_eq_true_eq] at hmem
  refine ⟨hmem.1, hmem.2.1, hmem.2.2, fun e' he' hk hs => ?_⟩
  exact List.le_of_mem_argmax (f := fun e : MemEntry => e.seq.toNat) (List.mem_filter.mpr ⟨he', by simp [hk, hs]⟩) h

theorem latest_eq_none {es : List MemEntry} {k : List UInt8} {s : UInt64} (h : latest es k s = none) :
    ∀ e ∈ es, e.key = k → s.toNat < e.seq.toNat := by
  intro e he hk
  rw [latest, List.argmax_eq_none, List.filter_eq_nil_iff] at h
  have := h e he
  simp only [hk, beq_self_eq_true, Bool.true_and, decide_eq_true_eq] at this
  omega

/-! ## §3. The invariant. -/

section Inv

variable {ucmp : List UInt8 → List UInt8 → Ordering}

/-- The memtable holds the writes `es`: its skip map holds a level whose
    contents are their keys, each with an empty value; their sequence
    numbers are distinct and fit in 56 bits. -/
structure MemInv (ucmp : List UInt8 → List UInt8 → Ordering) (mt : MemTable) (es : List MemEntry) : Prop where
  holds : ∃ view, SkipInv (cmp_memtable_key ucmp) mt.map view ∧ (contents view).Perm (es.map fun e => (e.mkey, []))
  seq_lt : ∀ e ∈ es, e.seq.toNat < 2 ^ 56
  seq_nodup : (es.map MemEntry.seq).Nodup

theorem memInv_new (rand : Nat → UInt32) : MemInv ucmp (MemTable.new rand) [] where
  holds := ⟨[], skipInv_new _ rand, List.Perm.refl _⟩
  seq_lt := by simp
  seq_nodup := List.nodup_nil

theorem le_max_sequence_number {s : UInt64} : s ≤ MAX_SEQUENCE_NUMBER ↔ s.toNat < 2 ^ 56 := by
  rw [UInt64.le_iff_toNat_le, show MAX_SEQUENCE_NUMBER.toNat = 2 ^ 56 - 1 by decide]
  omega

/-- The keys of writes with different sequence numbers are never equal
    under the comparator. -/
theorem cmp_mkey_ne_eq [Std.LawfulEqCmp ucmp] {e e' : MemEntry} (hlt : e.seq.toNat < 2 ^ 56)
    (hlt' : e'.seq.toNat < 2 ^ 56) (hne : e.seq ≠ e'.seq) : cmp_memtable_key ucmp e.mkey e'.mkey ≠ .eq := by
  intro heq
  have hseq := (cmp_memtable_key_eq_eq heq).2
  rw [MemEntry.mkey, MemEntry.mkey, mkey_seq_build _ _ _ hlt, mkey_seq_build _ _ _ hlt'] at hseq
  exact hne hseq

/-- **`add` keeps the invariant**: a write with a sequence number not used
    before, that fits in 56 bits, is added. -/
theorem MemInv.add [Std.TransCmp ucmp] [Std.LawfulEqCmp ucmp] {mt : MemTable} {es : List MemEntry}
    (hinv : MemInv ucmp mt es) (e : MemEntry) (hlt : e.seq.toNat < 2 ^ 56) (hfresh : e.seq ∉ es.map MemEntry.seq) :
    ∃ mt', mt.add ucmp e.seq e.typ e.key e.value = some mt' ∧ MemInv ucmp mt' (es ++ [e]) := by
  obtain ⟨view, hsk, hperm⟩ := hinv.holds
  -- no key of the level is equal to the new one
  have hne : ∀ x ∈ view, cmp_memtable_key ucmp x.key e.mkey ≠ .eq := by
    intro x hx
    have hmem : (x.key, x.value) ∈ es.map fun e => (e.mkey, []) :=
      hperm.subset (List.mem_map.mpr ⟨x, hx, rfl⟩)
    obtain ⟨e', he', hxe⟩ := List.mem_map.mp hmem
    rw [← (Prod.mk.inj hxe).1]
    exact cmp_mkey_ne_eq (hinv.seq_lt e' he') hlt fun h => hfresh (h ▸ List.mem_map_of_mem he')
  have hkey : List.isEmpty e.mkey = false := by
    simp [MemEntry.mkey, build_memtable_key, encode_var_ne_nil]
  obtain ⟨map', view', hins, hsk', hcontents⟩ := insert_spec List.isEmpty hsk hkey hne []
  refine ⟨⟨map'⟩, ?_, ⟨⟨view', hsk', ?_⟩, ?_, ?_⟩⟩
  · rw [MemTable.add, show build_memtable_key e.key e.value e.typ e.seq = e.mkey from rfl, hins]
    rfl
  · rw [hcontents, List.map_append, List.map_singleton]
    exact (List.perm_orderedInsert _ _ _).trans ((hperm.cons _).trans (List.perm_append_singleton _ _).symm)
  · intro x hx
    rcases List.mem_append.mp hx with hx | hx
    · exact hinv.seq_lt x hx
    · rw [List.mem_singleton.mp hx]
      exact hlt
  · rw [List.map_append, List.map_singleton, List.nodup_append]
    exact ⟨hinv.seq_nodup, List.nodup_singleton _, fun a ha b hb hab => hfresh (by
      rw [List.mem_singleton.mp hb] at hab
      exact hab ▸ ha)⟩

/-- **Any sequence of `add`s**: writes with distinct sequence numbers not
    above `MAX_SEQUENCE_NUMBER` are all added, one after another, and the
    memtable holds them all. -/
theorem memInv_adds [Std.TransCmp ucmp] [Std.LawfulEqCmp ucmp] :
    ∀ (es : List MemEntry) (mt : MemTable) (es₀ : List MemEntry), MemInv ucmp mt es₀ →
      ((es₀ ++ es).map MemEntry.seq).Nodup → (∀ e ∈ es, e.seq ≤ MAX_SEQUENCE_NUMBER) →
      ∃ mt', es.foldlM (fun mt e => mt.add ucmp e.seq e.typ e.key e.value) mt = some mt' ∧
        MemInv ucmp mt' (es₀ ++ es)
  | [], mt, es₀, hinv, _, _ => ⟨mt, rfl, by simpa using hinv⟩
  | e :: es, mt, es₀, hinv, hnodup, hmax => by
      have hlt : e.seq.toNat < 2 ^ 56 := le_max_sequence_number.mp (hmax e (by simp))
      have hfresh : e.seq ∉ es₀.map MemEntry.seq := by
        intro h
        rw [List.map_append, List.map_cons, List.nodup_append] at hnodup
        exact hnodup.2.2 _ h _ (by simp) rfl
      obtain ⟨mt₁, hadd, hinv₁⟩ := hinv.add e hlt hfresh
      obtain ⟨mt', hrest, hinv'⟩ := memInv_adds es mt₁ (es₀ ++ [e]) hinv₁ (by simpa using hnodup)
        fun e' he' => hmax e' (by simp [he'])
      refine ⟨mt', by simp [List.foldlM_cons, hadd, hrest], by simpa using hinv'⟩

end Inv

/-! ## §4. `get`. -/

section Get

variable {ucmp : List UInt8 → List UInt8 → Ordering}

/-- What `get` answers from a built key: by the user key, then the type. -/
theorem answer_build (k : List UInt8) (s : UInt64) (e : MemEntry) (hlt : e.seq.toNat < 2 ^ 56) :
    MemTable.answer (LookupKey.new k s) (some (e.mkey, [])) =
      if k = e.key then
        match e.typ with
        | .TypeValue => (some e.value, false)
        | .TypeDeletion => (none, true)
      else (none, false) := by
  obtain ⟨seq, typ, key, value⟩ := e
  simp only [MemTable.answer, MemEntry.mkey, parse_memtable_key_build, user_key_lookup, slice_user_build,
    tag_and_ff _ hlt, slice_value_build]
  cases typ <;> split_ifs <;> simp_all [ValueType.code]

/-- How the comparator orders a built key against a lookup key: by user
    key, then the lookup's sequence number against the write's. -/
theorem cmp_mkey_lookup (e : MemEntry) (hlt : e.seq.toNat < 2 ^ 56) (k : List UInt8) {s : UInt64}
    (hs : s.toNat < 2 ^ 56) :
    cmp_memtable_key ucmp e.mkey (LookupKey.new k s).memtable_key = (ucmp e.key k).then (compare s e.seq) := by
  rw [cmp_memtable_key_eq, compareLex, MemEntry.mkey, mkey_user_build, mkey_seq_build _ _ _ hlt, mkey_user_lookup,
    mkey_seq_lookup k hs]

/-- A write whose key is not less than the lookup key: a write of another
    user key, or of this one at a sequence number not above the read's. -/
theorem not_lt_lookup_iff [Std.LawfulEqCmp ucmp] (e : MemEntry) (hlt : e.seq.toNat < 2 ^ 56) (k : List UInt8) {s : UInt64}
    (hs : s.toNat < 2 ^ 56) :
    cmp_memtable_key ucmp e.mkey (LookupKey.new k s).memtable_key ≠ .lt ↔
      ucmp e.key k = .gt ∨ (e.key = k ∧ e.seq.toNat ≤ s.toNat) := by
  rw [cmp_mkey_lookup e hlt k hs]
  cases hc : ucmp e.key k with
  | lt =>
      -- a less user key is another one
      have hk : e.key ≠ k := fun h => by rw [h, @Std.ReflCmp.compare_self _ ucmp _ k] at hc; cases hc
      simp [hk]
  | gt => simp
  | eq =>
      have hk := Std.LawfulEqCmp.eq_of_compare hc
      simp [hk, Ordering.then, Std.compare_eq_lt, UInt64.lt_iff_toNat_lt]

/-- The writes' keys, in the order of the level, are sorted by the comparator. -/
theorem sorted_contents {mt : MemTable} {view : List (SkipEntry (List UInt8) (List UInt8))}
    (hsk : SkipInv (cmp_memtable_key ucmp) mt.map view) :
    (contents view).Pairwise fun a b => cmp_memtable_key ucmp a.1 b.1 = .lt := by
  rw [contents_eq, List.pairwise_map]
  exact hsk.sorted

/-- A key of the level is the key of one of the writes. -/
theorem mem_contents_of_perm {es : List MemEntry} {view : List (SkipEntry (List UInt8) (List UInt8))}
    (hperm : (contents view).Perm (es.map fun e => (e.mkey, []))) {x : List UInt8 × List UInt8}
    (hx : x ∈ contents view) : ∃ e ∈ es, x = (e.mkey, []) := by
  obtain ⟨e, he, hxe⟩ := List.mem_map.mp (hperm.subset hx)
  exact ⟨e, he, hxe.symm⟩

/-- **`MemTable::get` reads the latest write**: over a memtable that holds
    the writes `es`, a read of `k` at `s` returns `read_spec es k s`. -/
theorem MemInv.get_eq [Std.TransCmp ucmp] [Std.LawfulEqCmp ucmp] {mt : MemTable} {es : List MemEntry} (hinv : MemInv ucmp mt es) (k : List UInt8) {s : UInt64}
    (hs : s ≤ MAX_SEQUENCE_NUMBER) : mt.get ucmp (LookupKey.new k s) = some (read_spec es k s) := by
  have hs' := le_max_sequence_number.mp hs
  obtain ⟨view, hsk, hperm⟩ := hinv.holds
  rw [MemTable.get, seek_current hsk, Option.map_some]
  congr 1
  -- the first key of the level not less than the lookup key
  set P : List UInt8 × List UInt8 → Bool := fun a => cmp_memtable_key ucmp a.1 (LookupKey.new k s).memtable_key != .lt
  have hP : ∀ e ∈ es, P (e.mkey, []) = true ↔ ucmp e.key k = .gt ∨ (e.key = k ∧ e.seq.toNat ≤ s.toNat) := by
    intro e he
    simp only [P, bne_iff_ne, ne_eq]
    exact not_lt_lookup_iff e (hinv.seq_lt e he) k hs'
  rw [read_spec]
  cases hl : latest es k s with
  | none =>
      -- no write of `k` is visible: whatever is found is another user key's
      have hnone := latest_eq_none hl
      cases hf : (contents view).find? P with
      | none => rfl
      | some x =>
          obtain ⟨hx, -⟩ := find?_pairwise (sorted_contents hsk) hf
          obtain ⟨e, he, rfl⟩ := mem_contents_of_perm hperm (List.mem_of_find?_eq_some hf)
          rw [answer_build k s e (hinv.seq_lt e he), if_neg]
          intro hk
          rcases (hP e he).mp hx with hgt | ⟨-, hle⟩
          · rw [← hk, @Std.ReflCmp.compare_self _ ucmp _ k] at hgt
            cases hgt
          · exact absurd (hnone e he hk.symm) (by omega)
  | some e =>
      obtain ⟨he, hk, hle, hmax⟩ := latest_eq_some hl
      have hlt := hinv.seq_lt e he
      -- the latest write's key passes, so the search finds a key at or before it
      have hPe : P (e.mkey, []) = true := (hP e he).mpr (.inr ⟨hk, hle⟩)
      have hmem : (e.mkey, ([] : List UInt8)) ∈ contents view :=
        hperm.symm.subset (List.mem_map.mpr ⟨e, he, rfl⟩)
      obtain ⟨x, hf⟩ := Option.isSome_iff_exists.mp (List.find?_isSome.mpr ⟨_, hmem, hPe⟩)
      obtain ⟨hx, hfirst⟩ := find?_pairwise (sorted_contents hsk) hf
      obtain ⟨e', he', rfl⟩ := mem_contents_of_perm hperm (List.mem_of_find?_eq_some hf)
      have hx' := (hP e' he').mp hx
      have hfound : e' = e := by
        rcases hfirst _ hmem hPe with heq | hlt'
        · -- the same key: the same sequence number, so the same write
          have hseq := congrArg (fun a => mkey_seq a.1) heq
          simp only [MemEntry.mkey, mkey_seq_build _ _ _ hlt, mkey_seq_build _ _ _ (hinv.seq_lt e' he')] at hseq
          exact (List.inj_on_of_nodup_map hinv.seq_nodup he' he hseq.symm)
        · -- a key before the latest write's would be a newer visible write of `k`
          exfalso
          rw [cmp_memtable_key_eq, compareLex, MemEntry.mkey, MemEntry.mkey, mkey_user_build, mkey_user_build,
            mkey_seq_build _ _ _ (hinv.seq_lt e' he'), mkey_seq_build _ _ _ hlt, hk] at hlt'
          rcases hx' with hgt | ⟨hk', hle'⟩
          · rw [hgt] at hlt'
            cases hlt'
          · rw [hk', @Std.ReflCmp.compare_self _ ucmp _ k, Ordering.eq_then, Std.compare_eq_lt,
              UInt64.lt_iff_toNat_lt] at hlt'
            have := hmax e' he' hk' hle'
            omega
      subst hfound
      rw [hf, answer_build k s e' hlt, if_pos hk.symm]

end Get

end Teaclave.Leveldb
