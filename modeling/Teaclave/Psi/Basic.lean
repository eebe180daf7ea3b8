/-
  Teaclave.Psi.Basic
  ──────────────────
  **THE OBLIVIOUS SEARCH OF THE PSI WORKER.**

  `trusted_worker/psi/basic.rs`.  A record is a `[u8; SGX_HASH_SIZE]`.  The
  three primitives are inline assembly, modelled by what the instructions
  compute: `oequal` (`cmp; sete`) tests equality, `ob` (`cmp; setb`) is the
  unsigned `x < y`, `omov` (`test; cmovz`) picks `x` when the flag is set and
  `y` otherwise.  From them:

    • `eq` and `le` scan both records whole (§2), and compute record
      equality and the lexicographic `≤` of their bytes (`eq_eq`, `le_eq`,
      through `Lib.LexCompare`);
    • `obinary_search` runs the binary search of `Lib.BinarySearch` on the
      sorted records of `b` (`obinary_search_loop_eq`), going right on
      `b[mid] ≤ target`, remembering the last probe that hit and marking it
      in `v2` (§3, §4);
    • `oget_intersection` searches `b` for every record of `a` (§5).

  `isize` and `usize` values are integers; `z as usize` wraps modulo `2^64`,
  which only `ret = -1` ever needs.  An index out of bounds is a panic, and
  the `while` loop runs for at most `b.len()` rounds (it needs fewer): both
  make the functions return `none`, which never happens (`obinary_search_spec`).
-/
import Mathlib
import Teaclave.Lib.LexCompare
import Teaclave.Lib.BinarySearch

namespace Teaclave.Psi

open Teaclave.Lib

/-! ## §1. Records and machine words. -/

/-- `sgx_types::SGX_HASH_SIZE`. -/
def SGX_HASH_SIZE : Nat := 32

/-- `[u8; SGX_HASH_SIZE]`: one record of a PSI input. -/
abbrev HashRecord := List.Vector UInt8 SGX_HASH_SIZE

/-- A record's bytes, as the comparisons read them (`a[i] as usize`). -/
def bytes (r : HashRecord) : List Nat := r.toList.map UInt8.toNat

/-- `z as usize` for an `isize` `z`: two's complement on 64 bits. -/
def as_usize (z : Int) : Nat := (z % 2 ^ 64).toNat

/-- `usize::max_value()`. -/
def usize_max : Nat := 2 ^ 64 - 1

/-- `v[i] = x` on a `Vec`: a panic out of bounds. -/
def vec_set {α : Type} (v : List α) (i : Nat) (x : α) : Option (List α) :=
  if i < v.length then some (v.set i x) else none

/-! ## §2. The primitives and the record comparisons. -/

/-- `oequal`: `cmp; sete`. -/
def oequal (x y : Nat) : Bool := x == y

theorem oequal_eq (x y : Nat) : oequal x y = (x == y) := rfl

/-- `ob`: `cmp; setb`, the unsigned `x < y`. -/
def ob (x y : Nat) : Bool := decide (x < y)

theorem ob_eq (x y : Nat) : ob x y = decide (x < y) := rfl

/-- `omov`: `test; cmovz`, `x` when the flag is set, `y` otherwise. -/
def omov (flag x y : Int) : Int := if flag ≠ 0 then x else y

theorem omov_eq (flag x y : Int) : omov flag x y = if flag ≠ 0 then x else y := rfl

/-- `eq`: `1` while every position agrees, `0` once one differs. -/
def eq (a b : HashRecord) : Int :=
  (a.toList.zip b.toList).foldl
    (fun ret p => omov (oequal p.1.toNat p.2.toNat).toNat ret 0) 1

/-- `le`: the first non-zero comparison of a position (`-1` below, `1`
    above), and `1` when it is not positive. -/
def le (a b : HashRecord) : Int :=
  let ret := (a.toList.zip b.toList).foldl
    (fun ret p =>
      let hit := oequal p.1.toNat p.2.toNat
      let be := ob p.1.toNat p.2.toNat
      let cmp := omov hit.toNat 0 (omov be.toNat (-1) 1)
      omov ret ret cmp) 0
  (decide (ret ≤ 0)).toNat

theorem bytes_injective : Function.Injective bytes := by
  intro a b h
  apply List.Vector.toList_injective
  exact List.map_injective_iff.mpr (fun x y hxy => UInt8.toNat_inj.mp hxy) h

theorem length_bytes (r : HashRecord) : (bytes r).length = SGX_HASH_SIZE := by
  simp [bytes]

theorem omov_oequal (x y : UInt8) (ret : Int) :
    omov (oequal x.toNat y.toNat).toNat ret 0 = if x = y then ret else 0 := by
  by_cases h : x = y
  · simp [omov_eq, oequal_eq, h]
  · have hn : x.toNat ≠ y.toNat := fun he => h (UInt8.toNat_inj.mp he)
    simp [omov_eq, oequal_eq, h, hn]

/-- **`eq` is record equality.** -/
theorem eq_eq (a b : HashRecord) : eq a b = if a = b then 1 else 0 := by
  unfold eq
  simp only [omov_oequal]
  rw [foldl_eq_scan a.toList b.toList 1 (by simp)]
  by_cases h : a = b
  · simp [h]
  · simp [h, List.Vector.toList_injective.ne h]

/-- One position of `le` is one step of the lexicographic scan. -/
theorem le_step (ret : Int) (x y : Nat) :
    omov ret ret (omov (oequal x y).toNat 0 (omov (ob x y).toNat (-1) 1)) =
      keep_first ret (sign_cmp x y) := by
  by_cases hxy : x = y
  · subst hxy
    simp [omov_eq, oequal_eq, keep_first_eq, sign_cmp_self]
  · rcases lt_or_gt_of_ne hxy with hlt | hgt
    · simp [omov_eq, oequal_eq, ob_eq, keep_first_eq, sign_cmp_of_lt hlt, hxy, hlt]
    · simp [omov_eq, oequal_eq, ob_eq, keep_first_eq, sign_cmp_of_gt hgt, hxy, not_lt.mpr hgt.le]

/-- **`le` is the lexicographic `≤` of the bytes.** -/
theorem le_eq (a b : HashRecord) : le a b = if bytes a ≤ bytes b then 1 else 0 := by
  unfold le
  simp only [le_step]
  -- the scan over the pairs of bytes is the scan over the pairs of `u8`s
  have hscan : (a.toList.zip b.toList).foldl
      (fun ret p => keep_first ret (sign_cmp p.1.toNat p.2.toNat)) 0 =
      lex_scan ((bytes a).zip (bytes b)) := by
    rw [lex_scan, bytes, bytes, List.zip_map, List.foldl_map]
    rfl
  rw [hscan]
  by_cases hle : bytes a ≤ bytes b
  · have := (lex_scan_nonpos_iff (by simp [length_bytes])).mpr hle
    simp [hle, this]
  · have := mt (lex_scan_nonpos_iff (by simp [length_bytes])).mp hle
    simp [hle, this]

/-! ## §3. `obinary_search`. -/

/-- The `while lo <= hi` loop of `obinary_search`, for at most `fuel`
    rounds; `none` when a round panics or the rounds run out. -/
def obinary_search_loop (b : List HashRecord) (target : HashRecord) :
    Nat → Int → Int → Int → List UInt8 → Option (Int × List UInt8)
  | 0, lo, hi, ret, v2 => if lo ≤ hi then none else some (ret, v2)
  | fuel + 1, lo, hi, ret, v2 =>
      if lo ≤ hi then do
        let mid := lo + (hi - lo).tdiv 2
        let b_mid ← b[as_usize mid]?
        let hit := eq b_mid target
        let ret := omov hit mid ret
        let v2_mid ← v2[as_usize mid]?
        let v2 ← vec_set v2 (as_usize mid) (UInt8.ofInt (omov hit 1 v2_mid.toNat))
        let be := le b_mid target
        obinary_search_loop b target fuel (omov be (mid + 1) lo) (omov be hi (mid - 1)) ret v2
      else some (ret, v2)

/-- `obinary_search`: the loop on `[0, b.len() - 1]` from `ret = -1`, for at
    most `b.len()` rounds. -/
def obinary_search (b : List HashRecord) (target : HashRecord) (v2 : List UInt8) :
    Option (Int × List UInt8) :=
  obinary_search_loop b target b.length 0 ((b.length : Int) - 1) (-1) v2

/-- The search goes right of `m` when the record there is not above the target. -/
def goes_right (b : List HashRecord) (target : HashRecord) (m : Int) : Bool :=
  match b[as_usize m]? with
  | some r => decide (bytes r ≤ bytes target)
  | none => false

/-- What a round does to `(ret, v2)` at the probe `m`: a hit is remembered
    and marked. -/
def mark (b : List HashRecord) (target : HashRecord) (st : Int × List UInt8) (m : Int) :
    Int × List UInt8 :=
  if b[as_usize m]? = some target then (m, st.2.set (as_usize m) 1) else st

theorem mark_eq (b : List HashRecord) (target : HashRecord) (st : Int × List UInt8) (m : Int) :
    mark b target st m = if b[as_usize m]? = some target then (m, st.2.set (as_usize m) 1) else st :=
  rfl

/-- `x as isize as u8` is `x`. -/
theorem ofInt_toNat (x : UInt8) : UInt8.ofInt (x.toNat : Int) = x := by
  have hx : x.toNat < 256 := UInt8.toNat_lt x
  unfold UInt8.ofInt
  rw [Int.emod_eq_of_lt (by omega) (by omega)]
  simp

theorem as_usize_of_nonneg {z : Int} (h0 : 0 ≤ z) (h : z < 2 ^ 64) : as_usize z = z.toNat := by
  unfold as_usize
  rw [Int.emod_eq_of_lt h0 h]

/-- A round on an in-bounds midpoint neither panics nor changes `v2`'s length. -/
theorem obinary_search_round {b : List HashRecord} (target : HashRecord) (ret : Int)
    {v2 : List UInt8} {mid : Int} {b_mid : HashRecord} (hb : b[as_usize mid]? = some b_mid)
    (hv2 : v2.length = b.length) :
    ∃ v2_mid, v2[as_usize mid]? = some v2_mid ∧
      vec_set v2 (as_usize mid) (UInt8.ofInt (omov (eq b_mid target) 1 v2_mid.toNat)) =
        some (mark b target (ret, v2) mid).2 := by
  have hlt : as_usize mid < v2.length := by
    rw [hv2]
    exact (List.getElem?_eq_some_iff.mp hb).1
  refine ⟨v2[as_usize mid], List.getElem?_eq_getElem hlt, ?_⟩
  unfold vec_set
  rw [mark_eq]
  rw [if_pos hlt, eq_eq, hb, Option.some.injEq]
  by_cases he : b_mid = target
  · simp [he, omov_eq]
  · -- a miss writes back the byte that was there
    simp [he, omov_eq, ofInt_toNat]

/-- **The loop is the binary search of `Lib.BinarySearch`**, with `mark` at
    each probe, while its bounds stay inside `b`. -/
theorem obinary_search_loop_eq {b : List HashRecord} {target : HashRecord}
    (hlen : b.length < 2 ^ 63) :
    ∀ (fuel : Nat) (lo hi ret : Int) (v2 : List UInt8), 0 ≤ lo → hi < b.length →
      v2.length = b.length →
      obinary_search_loop b target fuel lo hi ret v2 =
        (probes (goes_right b target) fuel lo hi).map (·.foldl (mark b target) (ret, v2))
  | 0, lo, hi, ret, v2, _, _, _ => by
      by_cases hle : lo ≤ hi
      · simp [obinary_search_loop, probes_zero, hle]
      · simp [obinary_search_loop, probes_zero, hle]
  | fuel + 1, lo, hi, ret, v2, hlo, hhi, hv2 => by
      by_cases hle : lo ≤ hi
      · obtain ⟨hmlo, hmhi⟩ := midpoint_mem hle
        -- the midpoint is in bounds, so the round reads `b` and `v2` there
        have hmid : as_usize (midpoint lo hi) = (midpoint lo hi).toNat :=
          as_usize_of_nonneg (by omega) (by omega)
        have hbl : (midpoint lo hi).toNat < b.length := by omega
        have hb : b[as_usize (midpoint lo hi)]? = some b[(midpoint lo hi).toNat] := by
          rw [hmid]
          exact List.getElem?_eq_getElem hbl
        obtain ⟨v2_mid, hv2m, hset⟩ := obinary_search_round target ret hb hv2
        have hv2' : (mark b target (ret, v2) (midpoint lo hi)).2.length = b.length := by
          rw [mark_eq]
          split <;> simp [hv2]
        -- the round remembers the hit, and goes the way `goes_right` says
        have hret : omov (eq b[(midpoint lo hi).toNat] target) (midpoint lo hi) ret =
            (mark b target (ret, v2) (midpoint lo hi)).1 := by
          rw [mark_eq]
          rw [hb, eq_eq]
          by_cases he : b[(midpoint lo hi).toNat] = target <;> simp [he, omov_eq]
        have hgo : goes_right b target (midpoint lo hi) =
            decide (bytes b[(midpoint lo hi).toNat] ≤ bytes target) := by
          simp [goes_right, hb]
        rw [probes_succ hle, Option.map_map]
        simp only [obinary_search_loop, if_pos hle]
        rw [show lo + (hi - lo).tdiv 2 = midpoint lo hi from rfl, hb]
        simp only [Option.bind_eq_bind, Option.bind_some, hv2m, hset, le_eq, hret, hgo]
        by_cases hr : bytes b[(midpoint lo hi).toNat] ≤ bytes target
        · simp only [hr, decide_true, if_true, omov_eq]
          rw [if_pos (by decide)]
          exact (obinary_search_loop_eq hlen fuel _ hi _ _ (by omega) hhi hv2').trans rfl
        · simp only [hr, decide_false, omov_eq]
          rw [if_neg (by decide)]
          exact (obinary_search_loop_eq hlen fuel lo _ _ _ hlo (by omega) hv2').trans rfl
      · rw [probes_of_lt (by omega)]
        simp [obinary_search_loop, hle]

/-! ## §4. What one search finds and marks. -/

section Search

variable {b : List HashRecord} {target : HashRecord}

/-- The records of `b` in non-decreasing order of their bytes. -/
def RecordsSorted (b : List HashRecord) : Prop := (b.map bytes).Pairwise (· ≤ ·)

instance (b : List HashRecord) : Decidable (RecordsSorted b) :=
  inferInstanceAs (Decidable ((b.map bytes).Pairwise (· ≤ ·)))

theorem RecordsSorted.le (hs : RecordsSorted b) {i j : Nat} {r s : HashRecord} (hij : i ≤ j)
    (hi : b[i]? = some r) (hj : b[j]? = some s) : bytes r ≤ bytes s := by
  obtain ⟨hil, rfl⟩ := List.getElem?_eq_some_iff.mp hi
  obtain ⟨hjl, rfl⟩ := List.getElem?_eq_some_iff.mp hj
  rcases Nat.lt_or_eq_of_le hij with hlt | rfl
  · have := List.pairwise_iff_getElem.mp hs i j (by simpa using hil) (by simpa using hjl) hlt
    simpa using this
  · exact le_rfl

/-- The fold remembers the last probe that hit, if any. -/
theorem foldl_mark_fst :
    ∀ (ms : List Int) (st : Int × List UInt8),
      (ms.foldl (mark b target) st).1 = st.1 ∨
        ((ms.foldl (mark b target) st).1 ∈ ms ∧
          b[as_usize (ms.foldl (mark b target) st).1]? = some target)
  | [], _ => .inl rfl
  | m :: ms, st => by
      rw [List.foldl_cons]
      rcases foldl_mark_fst ms (mark b target st m) with h | h
      · rw [h]
        rw [mark_eq]
        split_ifs with hm
        · exact .inr ⟨List.mem_cons_self, hm⟩
        · exact .inl rfl
      · exact .inr ⟨List.mem_cons_of_mem _ h.1, h.2⟩

/-- A probe that hits makes the fold end on a hit. -/
theorem foldl_mark_fst_of_hit {m : Int} (hhit : b[as_usize m]? = some target) :
    ∀ {ms : List Int} (st : Int × List UInt8), m ∈ ms →
      (ms.foldl (mark b target) st).1 ∈ ms ∧
        b[as_usize (ms.foldl (mark b target) st).1]? = some target
  | [], _, hm => absurd hm List.not_mem_nil
  | m₀ :: ms, st, hm => by
      rw [List.foldl_cons]
      rcases List.mem_cons.mp hm with rfl | hm'
      · -- the head hits; the rest keeps it or ends on a later hit
        rcases foldl_mark_fst ms (mark b target st m) with h | h
        · rw [h]
          simp [mark_eq, hhit]
        · exact ⟨List.mem_cons_of_mem _ h.1, h.2⟩
      · obtain ⟨h1, h2⟩ := foldl_mark_fst_of_hit hhit (mark b target st m₀) hm'
        exact ⟨List.mem_cons_of_mem _ h1, h2⟩

theorem length_foldl_mark :
    ∀ (ms : List Int) (st : Int × List UInt8),
      (ms.foldl (mark b target) st).2.length = st.2.length
  | [], _ => rfl
  | m :: ms, st => by
      rw [List.foldl_cons, length_foldl_mark ms]
      rw [mark_eq]
      split <;> simp

/-- The fold only writes `1`s, and only where `b` holds the target. -/
theorem foldl_mark_snd :
    ∀ (ms : List Int) (st : Int × List UInt8) (j : Nat) (x : UInt8),
      (ms.foldl (mark b target) st).2[j]? = some x →
        st.2[j]? = some x ∨ (x = 1 ∧ b[j]? = some target)
  | [], _, _, _, h => .inl h
  | m :: ms, st, j, x, h => by
      rw [List.foldl_cons] at h
      rcases foldl_mark_snd ms _ j x h with h' | h'
      · rw [mark_eq] at h'
        split_ifs at h' with hm
        · by_cases hj : as_usize m = j
          · -- the write of this round
            subst hj
            rw [List.getElem?_set] at h'
            simp only [if_true] at h'
            split_ifs at h'
            cases h'
            exact .inr ⟨rfl, hm⟩
          · rw [List.getElem?_set_ne hj] at h'
            exact .inl h'
        · exact .inl h'
      · exact .inr h'

/-- A `1` stays a `1`. -/
theorem foldl_mark_snd_one :
    ∀ (ms : List Int) (st : Int × List UInt8) (j : Nat), st.2[j]? = some 1 →
      (ms.foldl (mark b target) st).2[j]? = some 1
  | [], _, _, h => h
  | m :: ms, st, j, h => by
      rw [List.foldl_cons]
      apply foldl_mark_snd_one ms
      rw [mark_eq]
      split_ifs
      · by_cases hj : as_usize m = j
        · subst hj
          exact List.getElem?_set_self (List.getElem?_eq_some_iff.mp h).1
        · rw [List.getElem?_set_ne hj]
          exact h
      · exact h

/-- A probe that hits is marked. -/
theorem foldl_mark_snd_of_hit {m : Int} (hhit : b[as_usize m]? = some target) :
    ∀ {ms : List Int} (st : Int × List UInt8), m ∈ ms → as_usize m < st.2.length →
      (ms.foldl (mark b target) st).2[as_usize m]? = some 1
  | [], _, hm, _ => absurd hm List.not_mem_nil
  | m₀ :: ms, st, hm, hlt => by
      rw [List.foldl_cons]
      rcases List.mem_cons.mp hm with rfl | hm'
      · apply foldl_mark_snd_one
        simp [mark_eq, hhit, List.getElem?_set_self hlt]
      · have hlt' : as_usize m < (mark b target st m₀).2.length := by
          rw [mark_eq]
          split <;> simpa using hlt
        exact foldl_mark_snd_of_hit hhit _ hm' hlt'

/-- In sorted records, the search for the record at its last place `j` goes
    right exactly up to `j`. -/
theorem goes_right_iff_of_last (hs : RecordsSorted b) (hlen : b.length < 2 ^ 63) {j : Nat}
    (hj : b[j]? = some target) (hlast : ∀ j' : Nat, j < j' → b[j']? ≠ some target) {m : Int}
    (h0 : 0 ≤ m) (hm : m < b.length) : goes_right b target m = true ↔ m < j + 1 := by
  have hidx : as_usize m = m.toNat := as_usize_of_nonneg h0 (by omega)
  have hml : m.toNat < b.length := by omega
  have hb : b[as_usize m]? = some b[m.toNat] := by
    rw [hidx]
    exact List.getElem?_eq_getElem hml
  simp only [goes_right, hb, decide_eq_true_eq]
  constructor
  · -- a record after `j` is above the target: sorted, and not equal to it
    intro hle
    by_contra hgt
    have hjm : j < m.toNat := by omega
    have hge := hs.le hjm.le hj (List.getElem?_eq_getElem hml)
    have heq : bytes b[m.toNat] = bytes target := le_antisymm hle hge
    exact hlast m.toNat hjm (by rw [List.getElem?_eq_getElem hml, bytes_injective heq])
  · intro hlt
    exact hs.le (by omega) (List.getElem?_eq_getElem hml) hj

/-- **The search on any records**, sorted or not: its rounds end inside
    `b`, and what it returns is the fold of `mark` over its probes. -/
theorem obinary_search_run (hlen : b.length < 2 ^ 63) {v2 : List UInt8} (hv2 : v2.length = b.length) :
    ∃ ms, probes (goes_right b target) b.length 0 ((b.length : Int) - 1) = some ms ∧
      obinary_search b target v2 = some (ms.foldl (mark b target) (-1, v2)) := by
  obtain ⟨ms, hms⟩ := Option.isSome_iff_exists.mp
    (@probes_isSome (goes_right b target) b.length 0 ((b.length : Int) - 1) (by omega))
  refine ⟨ms, hms, ?_⟩
  rw [obinary_search, obinary_search_loop_eq hlen _ _ _ _ _ le_rfl (by omega) hv2, hms]
  rfl

/-- **What one search does**, on sorted records: it returns without
    panicking; `ret` is `-1` exactly when the target is not in `b`, and
    otherwise an index of `b`; `v2` gains `1`s only where `b` holds the
    target, and gains one at the target's last place. -/
theorem obinary_search_spec (hs : RecordsSorted b) (hlen : b.length < 2 ^ 63) {v2 : List UInt8}
    (hv2 : v2.length = b.length) :
    ∃ ret v2', obinary_search b target v2 = some (ret, v2') ∧
      (ret = -1 ↔ target ∉ b) ∧ -1 ≤ ret ∧ ret < b.length ∧ v2'.length = v2.length ∧
      (∀ (j : Nat) x, v2'[j]? = some x → v2[j]? = some x ∨ (x = 1 ∧ b[j]? = some target)) ∧
      (∀ j : Nat, b[j]? = some target → (∀ j' : Nat, j < j' → b[j']? ≠ some target) →
        v2'[j]? = some 1) := by
  obtain ⟨ms, hms, hrun⟩ := @obinary_search_run b target hlen v2 hv2
  -- the last place of a record of `b` is probed
  have hprobed : ∀ j : Nat, b[j]? = some target → (∀ j' : Nat, j < j' → b[j']? ≠ some target) →
      (j : Int) ∈ ms ∧ b[as_usize j]? = some target := by
    intro j hj hlast
    have hjl : j < b.length := (List.getElem?_eq_some_iff.mp hj).1
    have hmem := boundary_mem_probes (k := (j : Int) + 1) (by omega) (by omega)
      (fun m h0 hm => goes_right_iff_of_last hs hlen hj hlast h0 (by omega)) hms
    rw [add_sub_cancel_right] at hmem
    exact ⟨hmem, by rw [as_usize_of_nonneg (by omega) (by omega)]; exact hj⟩
  have hrange : -1 ≤ (ms.foldl (mark b target) (-1, v2)).1 ∧
      (ms.foldl (mark b target) (-1, v2)).1 < b.length := by
    rcases foldl_mark_fst ms (-1, v2) with h | h
    · rw [h]
      omega
    · have := mem_probes hms h.1
      omega
  refine ⟨_, _, hrun, ⟨fun hret hmem => ?_, fun hnot => ?_⟩, hrange.1, hrange.2,
    length_foldl_mark ms _, fun j x h => foldl_mark_snd ms _ j x h, fun j hj hlast => ?_⟩
  · -- found: the fold ends on a hit, whose index is not `-1`
    obtain ⟨j, hj, hlast⟩ := exists_last_index hmem
    obtain ⟨hjm, hhit⟩ := hprobed j hj hlast
    have hin := (foldl_mark_fst_of_hit hhit (-1, v2) hjm).1
    have := mem_probes hms hin
    omega
  · -- not found: no probe hits, so `ret` stays `-1`
    rcases foldl_mark_fst ms (-1, v2) with h | h
    · exact h
    · exact absurd (List.mem_of_getElem? h.2) hnot
  · obtain ⟨hjm, hhit⟩ := hprobed j hj hlast
    have hjl : j < b.length := (List.getElem?_eq_some_iff.mp hj).1
    have hidx : as_usize (j : Int) = j := by
      rw [as_usize_of_nonneg (by omega) (by omega)]
      rfl
    rw [← hidx]
    exact foldl_mark_snd_of_hit hhit _ hjm (by rw [hidx, hv2]; exact hjl)

/-- **The oblivious binary search**, on records in any order: it returns
    without panicking or reading outside `b`; what it returns is `-1` or an
    index of `b` holding the target; it keeps `v2`'s length and writes `1`s
    only where `b` holds the target, leaving every other entry as it was.
    On sorted records it returns `-1` exactly when the target is not in `b`,
    and it marks the last place whose record is at most the target when
    that record is the target. -/
theorem obinary_search_exact (b : List HashRecord) (target : HashRecord) (v2 : List UInt8)
    (hlen : b.length < 2 ^ 63) (hv2 : v2.length = b.length) :
    ∃ ret v2', obinary_search b target v2 = some (ret, v2') ∧ v2'.length = v2.length ∧
      (ret = -1 ∨ (0 ≤ ret ∧ ret < b.length ∧ b[ret.toNat]? = some target)) ∧
      (∀ (j : Nat) x, v2'[j]? = some x → v2[j]? = some x ∨ (x = 1 ∧ b[j]? = some target)) ∧
      (RecordsSorted b →
        (ret = -1 ↔ target ∉ b) ∧
        ∀ j : Nat, b[j]? = some target →
          (∀ (j' : Nat) (r : HashRecord), j < j' → b[j']? = some r → ¬ bytes r ≤ bytes target) →
          v2'[j]? = some 1) := by
  obtain ⟨ms, hms, hrun⟩ := @obinary_search_run b target hlen v2 hv2
  refine ⟨_, _, hrun, length_foldl_mark ms _, ?_, fun j x h => foldl_mark_snd ms _ j x h,
    fun hs => ?_⟩
  · -- a value other than `-1` is a probe that hit
    rcases foldl_mark_fst ms (-1, v2) with h | ⟨hmem, hhit⟩
    · exact .inl h
    · have hin := mem_probes hms hmem
      refine .inr ⟨by omega, by omega, ?_⟩
      rwa [as_usize_of_nonneg (by omega) (by omega)] at hhit
  · -- on sorted records, `obinary_search_spec` says the rest of the same run
    obtain ⟨ret, v2', hrun', hfound, -, -, -, -, hlast⟩ :=
      @obinary_search_spec b target hs hlen v2 hv2
    rw [hrun, Option.some.injEq] at hrun'
    rw [hrun']
    refine ⟨hfound, fun j hj hgt => hlast j hj fun j' hj' hb => ?_⟩
    exact hgt j' target hj' hb le_rfl

/-- Two sorted records, the target the second: the search finds it and
    marks its place. -/
theorem obinary_search_exact_two :
    ∃ ret v2', obinary_search [List.Vector.replicate SGX_HASH_SIZE 0, List.Vector.replicate SGX_HASH_SIZE 1]
        (List.Vector.replicate SGX_HASH_SIZE 1) [0, 0] = some (ret, v2') ∧ ret ≠ -1 ∧ v2'[1]? = some 1 := by
  obtain ⟨ret, v2', hrun, -, -, -, hsorted⟩ :=
    obinary_search_exact [List.Vector.replicate SGX_HASH_SIZE 0, List.Vector.replicate SGX_HASH_SIZE 1]
      (List.Vector.replicate SGX_HASH_SIZE 1) [0, 0] (by decide) rfl
  obtain ⟨hfound, hlast⟩ := hsorted (by decide)
  refine ⟨ret, v2', hrun, fun h => hfound.mp h (List.mem_cons_of_mem _ List.mem_cons_self),
    hlast 1 rfl ?_⟩
  -- nothing stands after the second record
  intro j' r hj' hr
  rw [List.getElem?_eq_none (by simp only [List.length_cons, List.length_nil]; omega)] at hr
  cases hr

end Search

/-! ## §5. `oget_intersection`. -/

/-- Round `i` of `oget_intersection`: search `b` for `a[i]`, and set `v1[i]`
    to `1` unless the search returned `-1`. -/
def oget_round (a b : List HashRecord) (vs : List UInt8 × List UInt8) (i : Nat) :
    Option (List UInt8 × List UInt8) := do
  let a_i ← a[i]?
  let (ret, v2) ← obinary_search b a_i vs.2
  let miss := oequal usize_max (as_usize ret)
  let v1 ← vec_set vs.1 i (UInt8.ofInt (omov miss.toNat 0 1))
  some (v1, v2)

/-- `oget_intersection`: one round for each record of `a`. -/
def oget_intersection (a b : List HashRecord) (v1 v2 : List UInt8) :
    Option (List UInt8 × List UInt8) :=
  (List.range a.length).foldlM (oget_round a b) (v1, v2)

/-- What the first `i` rounds have done to `(v1, v2)`. -/
structure RoundsDone (a b : List HashRecord) (v1 v2 : List UInt8) (i : Nat)
    (vs : List UInt8 × List UInt8) : Prop where
  length1 : vs.1.length = v1.length
  found : ∀ k r, k < i → a[k]? = some r → vs.1[k]? = some (if r ∈ b then 1 else 0)
  rest : ∀ k, i ≤ k → vs.1[k]? = v1[k]?
  length2 : vs.2.length = v2.length
  sound : ∀ (j : Nat) x, vs.2[j]? = some x →
    v2[j]? = some x ∨ (x = 1 ∧ ∃ k r, k < i ∧ a[k]? = some r ∧ b[j]? = some r)
  complete : ∀ k r (j : Nat), k < i → a[k]? = some r → b[j]? = some r →
    (∀ j' : Nat, j < j' → b[j']? ≠ some r) → vs.2[j]? = some 1

section Rounds

variable {a b : List HashRecord} {v1 v2 : List UInt8}

/-- The `miss` flag: `ret as usize` is `usize::MAX` exactly for `ret = -1`. -/
theorem oequal_miss {ret : Int} (h1 : -1 ≤ ret) (h2 : ret < 2 ^ 63) :
    oequal usize_max (as_usize ret) = decide (ret = -1) := by
  rcases Int.lt_or_eq_of_le h1 with hlt | rfl
  · rw [as_usize_of_nonneg (by omega) (by omega)]
    have hne : usize_max ≠ ret.toNat := by
      unfold usize_max
      omega
    have : ret ≠ -1 := by omega
    simp [oequal_eq, hne, this]
  · rfl

theorem RoundsDone.init : RoundsDone a b v1 v2 0 (v1, v2) where
  length1 := rfl
  found _ _ h := absurd h (Nat.not_lt_zero _)
  rest _ _ := rfl
  length2 := rfl
  sound _ _ h := .inl h
  complete _ _ _ h := absurd h (Nat.not_lt_zero _)

/-- **One round keeps the record**, and does not panic. -/
theorem RoundsDone.step (hs : RecordsSorted b) (hlen : b.length < 2 ^ 63) (hv1 : v1.length = a.length)
    (hv2 : v2.length = b.length) {i : Nat} {vs : List UInt8 × List UInt8}
    (hdone : RoundsDone a b v1 v2 i vs) (hi : i < a.length) :
    ∃ vs', oget_round a b vs i = some vs' ∧ RoundsDone a b v1 v2 (i + 1) vs' := by
  obtain ⟨r, hr⟩ : ∃ r, a[i]? = some r := ⟨a[i], List.getElem?_eq_getElem hi⟩
  obtain ⟨ret, v2', hsearch, hfound, hlo, hhi, hlen2, hsound, hcomplete⟩ :=
    @obinary_search_spec b r hs hlen _ (hdone.length2.trans hv2)
  have hi1 : i < vs.1.length := by rw [hdone.length1, hv1]; exact hi
  -- `v1[i]` becomes the membership bit
  have hbit : UInt8.ofInt (omov (oequal usize_max (as_usize ret)).toNat 0 1) =
      if r ∈ b then 1 else 0 := by
    rw [oequal_miss hlo (by omega)]
    by_cases hm : r ∈ b
    · have : ret ≠ -1 := fun h => hfound.mp h hm
      simp [omov_eq, this, hm, UInt8.ofInt]
    · simp [omov_eq, hfound.mpr hm, hm, UInt8.ofInt]
  refine ⟨(vs.1.set i (if r ∈ b then 1 else 0), v2'), ?_, ?_⟩
  · simp only [oget_round, hr, Option.bind_eq_bind, Option.bind_some, hsearch, hbit, vec_set,
      if_pos hi1]
  · refine ⟨by simp [hdone.length1], fun k r' hk hk' => ?_, fun k hk => ?_, hlen2.trans hdone.length2,
      fun j x hj => ?_, fun k r' j hk hk' hj hlast => ?_⟩
    · -- `found`: the new bit at `i`, the old ones before it
      rcases Nat.lt_succ_iff_lt_or_eq.mp hk with hk | rfl
      · rw [List.getElem?_set_ne (by omega)]
        exact hdone.found k r' hk hk'
      · rw [hr, Option.some.injEq] at hk'
        subst hk'
        exact List.getElem?_set_self hi1
    · rw [List.getElem?_set_ne (by omega)]
      exact hdone.rest k (by omega)
    · -- `sound`: this search marks only hits of `a[i]`
      rcases hsound j x hj with h | ⟨rfl, hb⟩
      · rcases hdone.sound j x h with h' | ⟨rfl, k, r', hk, hk', hb'⟩
        · exact .inl h'
        · exact .inr ⟨rfl, k, r', by omega, hk', hb'⟩
      · exact .inr ⟨rfl, i, r, by omega, hr, hb⟩
    · -- `complete`: this search marks `a[i]`'s last place; a `1` stays
      rcases Nat.lt_succ_iff_lt_or_eq.mp hk with hk | rfl
      · have hold := hdone.complete k r' j hk hk' hj hlast
        rcases hsound' : v2'[j]? with _ | x
        · have : j < v2'.length := by
            rw [hlen2, hdone.length2, hv2]
            exact (List.getElem?_eq_some_iff.mp hj).1
          simp [List.getElem?_eq_getElem this] at hsound'
        · rcases hsound j x hsound' with h | ⟨rfl, _⟩
          · rw [hold] at h
            exact h.symm
          · rfl
      · rw [hr, Option.some.injEq] at hk'
        subst hk'
        exact hcomplete j hj hlast

/-- Every prefix of the rounds runs without panicking and keeps the record. -/
theorem RoundsDone.run (hs : RecordsSorted b) (hlen : b.length < 2 ^ 63) (hv1 : v1.length = a.length)
    (hv2 : v2.length = b.length) :
    ∀ i ≤ a.length, ∃ vs, (List.range i).foldlM (oget_round a b) (v1, v2) = some vs ∧
      RoundsDone a b v1 v2 i vs
  | 0, _ => ⟨(v1, v2), rfl, RoundsDone.init⟩
  | i + 1, hi => by
      obtain ⟨vs, hrun, hdone⟩ := RoundsDone.run hs hlen hv1 hv2 i (by omega)
      obtain ⟨vs', hround, hdone'⟩ := hdone.step hs hlen hv1 hv2 (by omega)
      refine ⟨vs', ?_, hdone'⟩
      rw [List.range_succ, List.foldlM_append, hrun]
      simp [hround]

end Rounds

/-- **What `oget_intersection` computes**, on records `b` sorted by their
    bytes and result vectors of the right lengths: it does not panic; `v1`
    becomes the bit "is in `b`" of each record of `a`; `v2` keeps its length
    and gains `1`s only at records of `b` that occur in `a`, and one at the
    last place of each of them. -/
theorem oget_intersection_spec (a b : List HashRecord) (v1 v2 : List UInt8)
    (hs : RecordsSorted b) (hlen : b.length < 2 ^ 63) (hv1 : v1.length = a.length)
    (hv2 : v2.length = b.length) :
    ∃ v1' v2', oget_intersection a b v1 v2 = some (v1', v2') ∧
      v1' = a.map (fun r => if r ∈ b then 1 else 0) ∧ v2'.length = b.length ∧
      (∀ (j : Nat) x, v2'[j]? = some x → v2[j]? = some x ∨ (x = 1 ∧ ∃ r ∈ a, b[j]? = some r)) ∧
      (∀ (j : Nat) r, b[j]? = some r → r ∈ a → (∀ j' : Nat, j < j' → b[j']? ≠ some r) →
        v2'[j]? = some 1) := by
  obtain ⟨⟨v1', v2'⟩, hrun, hdone⟩ := RoundsDone.run hs hlen hv1 hv2 a.length le_rfl
  refine ⟨v1', v2', hrun, ?_, hdone.length2.trans hv2, fun j x hj => ?_,
    fun j r hj hr hlast => ?_⟩
  · -- every position of `v1` is a round's bit
    apply List.ext_getElem?
    intro k
    by_cases hk : k < a.length
    · rw [hdone.found k a[k] hk (List.getElem?_eq_getElem hk), List.getElem?_map,
        List.getElem?_eq_getElem hk]
      rfl
    · have h1 : v1'[k]? = none := List.getElem?_eq_none (by simp [hdone.length1, hv1]; omega)
      rw [h1, List.getElem?_map, List.getElem?_eq_none (by omega)]
      rfl
  · rcases hdone.sound j x hj with h | ⟨rfl, k, r, _, hk, hb⟩
    · exact .inl h
    · exact .inr ⟨rfl, r, List.mem_of_getElem? hk, hb⟩
  · obtain ⟨k, hk⟩ := List.getElem?_of_mem hr
    exact hdone.complete k r j (List.getElem?_eq_some_iff.mp hk).1 hk hj hlast

end Teaclave.Psi
