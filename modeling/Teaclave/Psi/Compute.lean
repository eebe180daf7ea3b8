/-
  Teaclave.Psi.Compute
  ────────────────────
  **PRIVATE SET INTERSECTION.**

  `trusted_worker/psi/compute.rs` and `psi/mod.rs`.  `PSIWorker::execute`
  reads the two parties' files, loads each into a `SetIntersection` buffer
  as 32-byte records (`psi_add_hash_data`), and `compute` runs
  `oget_intersection` with the first party's records as `a` and the
  second's as `b`; the two result vectors go back to the files' owners.

  What the result vectors hold (§3), when both inputs are whole records, the
  second party's records are sorted, and neither input is empty:
    • the first party's vector is exactly "is this record in the other set";
    • the second party's vector has a `1` only at a record the first party
      holds, and has one at the last copy of each such record: the binary
      search always continues right on a hit, so an earlier copy of a
      repeated record may keep its `0`.
  An empty input panics in `psi_add_hash_data` (`&input[0]`).
-/
import Teaclave.Core.Basic
import Teaclave.Psi.Basic

namespace Teaclave.Psi

open Teaclave.Core

/-! ## §1. `SetIntersection`. -/

/-- `HashDataBuffer`. -/
structure HashDataBuffer where
  hashdata : List HashRecord
  result : List UInt8

/-- `SetIntersection`; `data` is the `[HashDataBuffer; 2]` of the two parties. -/
structure SetIntersection where
  data : Fin 2 → HashDataBuffer
  number : UInt32

/-- `SetIntersection::new`: both buffers empty. -/
def SetIntersection.new : SetIntersection := ⟨fun _ => ⟨[], []⟩, 0⟩

/-- The records `copy_nonoverlapping` writes into the buffer: record `k` holds
    the bytes `32 k` to `32 k + 31` of the input. -/
def records_of (input : List UInt8) : List HashRecord :=
  (List.range (input.length / SGX_HASH_SIZE)).map fun k =>
    List.Vector.ofFn fun i : Fin SGX_HASH_SIZE => input.getD (SGX_HASH_SIZE * k + i) 0

/-- `psi_add_hash_data`: `false` unless the input is whole records; the
    buffer of party `index` then holds its records.  `none` is a panic: an
    `index` past the two buffers, or `&input[0]` on an empty input. -/
def SetIntersection.psi_add_hash_data (si : SetIntersection) (input : List UInt8) (index : Nat) :
    Option (SetIntersection × Bool) :=
  let len := input.length
  if len % SGX_HASH_SIZE ≠ 0 then some (si, false)
  else if h : index < 2 then
    if len = 0 then none
    else
      some ({ si with
        data := Function.update si.data ⟨index, h⟩
          { si.data ⟨index, h⟩ with hashdata := records_of input } }, true)
  else none

/-- `compute`: zeroed result vectors of the buffers' lengths, filled by
    `oget_intersection`. -/
def SetIntersection.compute (si : SetIntersection) : Option (SetIntersection × Bool) := do
  let v_cid := List.replicate (si.data 0).hashdata.length 0
  let v_other := List.replicate (si.data 1).hashdata.length 0
  let (v_cid, v_other) ←
    oget_intersection (si.data 0).hashdata (si.data 1).hashdata v_cid v_other
  some ({ si with
    data := Function.update (Function.update si.data 0 { si.data 0 with result := v_cid }) 1
      { si.data 1 with result := v_other } }, true)

/-! ## §2. The worker. -/

/-- `PSIWorker::prepare_input`: exactly two input files. -/
def prepare_input (file_ids : List String) : Result (String × String) :=
  match file_ids with
  | [file1, file2] => .ok (file1, file2)
  | _ => .error .InvalidInputError

/-- `PSIWorker::execute`, from the plaintexts `read_file` returned to the two
    result vectors it saves for the files' owners; `none` is a panic. -/
def psi_execute (plaintext1 plaintext2 : List UInt8) :
    Option (Result (List UInt8 × List UInt8)) := do
  let (si, ok1) ← SetIntersection.new.psi_add_hash_data plaintext1 0
  if !ok1 then return .error .InvalidInputError
  let (si, ok2) ← si.psi_add_hash_data plaintext2 1
  if !ok2 then return .error .InvalidInputError
  let (si, _) ← si.compute
  return .ok ((si.data 0).result, (si.data 1).result)

/-! ## §3. What the result vectors hold. -/

theorem length_records_of (input : List UInt8) :
    (records_of input).length = input.length / SGX_HASH_SIZE := by
  simp [records_of]

/-- Whole records, not empty: the buffer takes them. -/
theorem psi_add_hash_data_eq (si : SetIntersection) {input : List UInt8} {index : Nat}
    (hmod : input.length % SGX_HASH_SIZE = 0) (hne : input ≠ []) (h : index < 2) :
    si.psi_add_hash_data input index =
      some ({ si with
        data := Function.update si.data ⟨index, h⟩
          { si.data ⟨index, h⟩ with hashdata := records_of input } }, true) := by
  have hlen : input.length ≠ 0 := fun h0 => hne (List.eq_nil_of_length_eq_zero h0)
  simp [SetIntersection.psi_add_hash_data, hmod, h, hlen]

/-- **`compute`**, on sorted second-party records: it does not panic, and
    fills the two result vectors as `oget_intersection_spec` says. -/
theorem compute_spec {si : SetIntersection} (hs : RecordsSorted (si.data 1).hashdata)
    (hlen : (si.data 1).hashdata.length < 2 ^ 63) :
    ∃ si', si.compute = some (si', true) ∧
      (si'.data 0).result =
        (si.data 0).hashdata.map (fun r => if r ∈ (si.data 1).hashdata then 1 else 0) ∧
      (si'.data 1).result.length = (si.data 1).hashdata.length ∧
      (∀ (j : Nat) x, (si'.data 1).result[j]? = some x →
        x = 0 ∨ (x = 1 ∧ ∃ r ∈ (si.data 0).hashdata, (si.data 1).hashdata[j]? = some r)) ∧
      (∀ (j : Nat) r, (si.data 1).hashdata[j]? = some r → r ∈ (si.data 0).hashdata →
        (∀ j' : Nat, j < j' → (si.data 1).hashdata[j']? ≠ some r) →
        (si'.data 1).result[j]? = some 1) := by
  obtain ⟨v1', v2', hrun, hv1, hlen2, hsound, hcomplete⟩ :=
    oget_intersection_spec (si.data 0).hashdata (si.data 1).hashdata
      (List.replicate (si.data 0).hashdata.length 0) (List.replicate (si.data 1).hashdata.length 0)
      hs hlen (by simp) (by simp)
  -- the state `compute` leaves: the two vectors in the two buffers
  let si' : SetIntersection := { si with
    data := Function.update (Function.update si.data 0 { si.data 0 with result := v1' }) 1
      { si.data 1 with result := v2' } }
  have h0 : (si'.data 0).result = v1' := by simp [si']
  have h1 : (si'.data 1).result = v2' := by simp [si']
  refine ⟨si', ?_, h0.trans hv1, by rw [h1, hlen2], fun j x hj => ?_,
    fun j r hj hr hlast => ?_⟩
  · simp only [SetIntersection.compute, Option.bind_eq_bind, hrun, Option.bind_some, si']
  · -- a byte of the second vector is a zero it started with, or a mark
    rw [h1] at hj
    rcases hsound j x hj with h | h
    · exact .inl (List.eq_of_mem_replicate (List.mem_of_getElem? h))
    · exact .inr h
  · rw [h1]
    exact hcomplete j r hj hr hlast

/-- **Private set intersection, as it is computed.**  For byte strings `p1`
    and `p2` of whole 32-byte records, neither empty, with the records of
    `p2` in non-decreasing lexicographic byte order: both loads return
    `true` and `compute` returns `true`, without panicking; the first
    party's vector has one entry per record of `p1`, `1` exactly for the
    records that occur in `p2`; the second party's vector has one entry per
    record of `p2`, `1` only for records that occur in `p1`, and `0` for
    such a record only when it occurs again later in `p2`. -/
theorem psi_intersection_marks (p1 p2 : List UInt8)
    (h1 : p1.length % SGX_HASH_SIZE = 0) (h2 : p2.length % SGX_HASH_SIZE = 0)
    (hne1 : p1 ≠ []) (hne2 : p2 ≠ []) (hlen : p2.length < 2 ^ 63)
    (hsorted : RecordsSorted (records_of p2)) :
    ∃ si₁ si₂ si₃,
      SetIntersection.new.psi_add_hash_data p1 0 = some (si₁, true) ∧
      si₁.psi_add_hash_data p2 1 = some (si₂, true) ∧
      si₂.compute = some (si₃, true) ∧
      (si₃.data 0).result = (records_of p1).map (fun r => if r ∈ records_of p2 then 1 else 0) ∧
      (si₃.data 1).result.length = (records_of p2).length ∧
      ∀ (j : Nat) r, (records_of p2)[j]? = some r →
        ((si₃.data 1).result[j]? = some 1 ∧ r ∈ records_of p1) ∨
        ((si₃.data 1).result[j]? = some 0 ∧
          (r ∈ records_of p1 → ∃ j' : Nat, j < j' ∧ (records_of p2)[j']? = some r)) := by
  have hadd₁ := psi_add_hash_data_eq SetIntersection.new h1 hne1 (by decide : 0 < 2)
  set si₁ := { SetIntersection.new with
    data := Function.update SetIntersection.new.data ⟨0, by decide⟩
      { SetIntersection.new.data ⟨0, by decide⟩ with hashdata := records_of p1 } }
  have hadd₂ := psi_add_hash_data_eq si₁ h2 hne2 (by decide : 1 < 2)
  set si₂ := { si₁ with
    data := Function.update si₁.data ⟨1, by decide⟩
      { si₁.data ⟨1, by decide⟩ with hashdata := records_of p2 } }
  -- the two buffers hold the two parties' records
  have hA : (si₂.data 0).hashdata = records_of p1 := rfl
  have hB : (si₂.data 1).hashdata = records_of p2 := rfl
  have hBlen : (si₂.data 1).hashdata.length < 2 ^ 63 := by
    rw [hB, length_records_of]
    exact lt_of_le_of_lt (Nat.div_le_self _ _) hlen
  obtain ⟨si₃, hcomp, hres1, hlen2, hsound, hcomplete⟩ := compute_spec (hB ▸ hsorted) hBlen
  rw [hA, hB] at hres1 hsound hcomplete
  rw [hB] at hlen2
  refine ⟨si₁, si₂, si₃, hadd₁, hadd₂, hcomp, hres1, hlen2, fun j r hj => ?_⟩
  have hjl : j < (si₃.data 1).result.length := by
    rw [hlen2]
    exact (List.getElem?_eq_some_iff.mp hj).1
  rcases hsound j _ (List.getElem?_eq_getElem hjl) with h0 | ⟨h1', r', hr', hb⟩
  · -- a zero: a record of `p1` left unmarked has a later copy
    refine .inr ⟨by rw [List.getElem?_eq_getElem hjl, h0], fun hr => ?_⟩
    by_contra hnone
    have := hcomplete j r hj hr (fun j' hj' he => hnone ⟨j', hj', he⟩)
    rw [List.getElem?_eq_getElem hjl, h0] at this
    exact absurd (Option.some.inj this) (by decide)
  · rw [hj, Option.some.injEq] at hb
    subst hb
    exact .inl ⟨by rw [List.getElem?_eq_getElem hjl, h1'], hr'⟩

/-- One record `7…7` against the sorted records `7…7`, `9…9`. -/
theorem psi_intersection_marks_sorted_pair :
    ∃ si₁ si₂ si₃,
      SetIntersection.new.psi_add_hash_data (List.replicate 32 7) 0 = some (si₁, true) ∧
      si₁.psi_add_hash_data (List.replicate 32 7 ++ List.replicate 32 9) 1 = some (si₂, true) ∧
      si₂.compute = some (si₃, true) ∧
      (si₃.data 0).result = (records_of (List.replicate 32 7)).map
        (fun r => if r ∈ records_of (List.replicate 32 7 ++ List.replicate 32 9) then 1 else 0) ∧
      (si₃.data 1).result.length =
        (records_of (List.replicate 32 7 ++ List.replicate 32 9)).length ∧
      ∀ (j : Nat) r, (records_of (List.replicate 32 7 ++ List.replicate 32 9))[j]? = some r →
        ((si₃.data 1).result[j]? = some 1 ∧ r ∈ records_of (List.replicate 32 7)) ∨
        ((si₃.data 1).result[j]? = some 0 ∧
          (r ∈ records_of (List.replicate 32 7) → ∃ j' : Nat, j < j' ∧
            (records_of (List.replicate 32 7 ++ List.replicate 32 9))[j']? = some r)) :=
  psi_intersection_marks (List.replicate 32 7) (List.replicate 32 7 ++ List.replicate 32 9)
    (by decide) (by decide) (by simp) (by simp) (by simp) (by decide)

set_option maxRecDepth 4000 in
/-- The claim fails as stated, twice: an empty input panics in
    `psi_add_hash_data`; and with one record of `p1` repeated three times in
    `p2`, the second party's vector marks only the last two copies. -/
theorem psi_claim_counterexample :
    SetIntersection.new.psi_add_hash_data [] 0 = none ∧
      psi_execute (List.replicate 32 7) (List.replicate 96 7) = some (.ok ([1], [0, 1, 1])) := by
  decide

end Teaclave.Psi
