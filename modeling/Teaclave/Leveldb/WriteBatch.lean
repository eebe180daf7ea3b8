/-
  Teaclave.Leveldb.WriteBatch
  ───────────────────────────
  **A WRITE BATCH READS BACK AS IT WAS BUILT.**

  `rusty_leveldb_sgx/src/write_batch.rs`.  A `WriteBatch` is one byte
  vector: a header of twelve bytes (the sequence number, a fixed `u64` at
  offset 0; the count of entries, a fixed `u32` at offset 8), then one
  record per entry: the tag (`TypeValue` or `TypeDeletion`), the key's
  length as a varint and the key, and for a put the value's length and the
  value.  `put` and `delete` append a record and count it; `encode` writes
  the sequence number; the iterator decodes the records from offset 12,
  and `insert_into_memtable` adds them at consecutive sequence numbers.

  What the batch holds is stated as the list of operations it was built
  from (`BatchOp`).  Slices are read with `take` and `drop`; on the batches
  laid out here every slice is in range.

    • `of_ops_entries`: the bytes of a batch built from operations are the
      header with the count of the operations, then their records.
    • `iter_from_ops`: the iterator decodes one record per step (by
      `iter_next_op`), so over such bytes it yields the operations.
    • `write_batch_round_trip`: a batch built, encoded with a sequence
      number and read back with `set_contents` has that sequence number,
      that count and those operations.
    • `insert_into_memtable_of_ops`: inserting a batch is adding its
      operations' writes, one after another at consecutive sequence
      numbers.
-/
import Teaclave.Leveldb.MemTable

namespace Teaclave.Leveldb

open Teaclave.Lib

/-! ## §1. The batch. -/

/-- `SEQNUM_OFFSET`. -/
def WriteBatch.SEQNUM_OFFSET : Nat := 0

/-- `COUNT_OFFSET`. -/
def WriteBatch.COUNT_OFFSET : Nat := 8

/-- `HEADER_SIZE` of `write_batch.rs` (the log's is another). -/
def WriteBatch.HEADER_SIZE : Nat := 12

/-- `WriteBatch`: the header and the records, as one vector. -/
structure WriteBatch where
  entries : List UInt8
  deriving DecidableEq, Repr

namespace WriteBatch

/-- `WriteBatch::new`: a header of zeroes. -/
def new : WriteBatch := ⟨List.replicate WriteBatch.HEADER_SIZE 0⟩

/-- `set_contents`: clear, then copy in a serialized batch. -/
def set_contents (b : WriteBatch) (src : List UInt8) : WriteBatch := { b with entries := src }

/-- `set_count`: the count as a fixed `u32` at `COUNT_OFFSET`. -/
def set_count (b : WriteBatch) (c : UInt32) : WriteBatch :=
  { b with entries := overwrite b.entries WriteBatch.COUNT_OFFSET (encode_fixed 4 c.toNat) }

/-- `count`. -/
def count (b : WriteBatch) : UInt32 :=
  (decode_fixed (slice b.entries WriteBatch.COUNT_OFFSET (WriteBatch.COUNT_OFFSET + 4))).toUInt32

/-- `set_sequence`: the sequence number as a fixed `u64` at `SEQNUM_OFFSET`. -/
def set_sequence (b : WriteBatch) (s : UInt64) : WriteBatch :=
  { b with entries := overwrite b.entries WriteBatch.SEQNUM_OFFSET (encode_fixed 8 s.toNat) }

/-- `sequence`. -/
def sequence (b : WriteBatch) : UInt64 :=
  (decode_fixed (slice b.entries WriteBatch.SEQNUM_OFFSET (WriteBatch.SEQNUM_OFFSET + 8))).toUInt64

/-- What `put` and `delete` share: write a record, then count it with
    `set_count(count() + 1)` (a `u32`, wrapping). -/
def append_record (b : WriteBatch) (record : List UInt8) : WriteBatch :=
  let b := { b with entries := b.entries ++ record }
  b.set_count (b.count + 1)

/-- `put`: the tag `TypeValue`, the key's length and the key, the value's
    length and the value. -/
def put (b : WriteBatch) (k v : List UInt8) : WriteBatch :=
  b.append_record ([ValueType.TypeValue.code.toUInt8] ++ encode_var k.length ++ k ++ encode_var v.length ++ v)

/-- `delete`: the tag `TypeDeletion`, the key's length and the key. -/
def delete (b : WriteBatch) (k : List UInt8) : WriteBatch :=
  b.append_record ([ValueType.TypeDeletion.code.toUInt8] ++ encode_var k.length ++ k)

/-- `clear`. -/
def clear (b : WriteBatch) : WriteBatch := { b with entries := [] }

/-- `byte_size`. -/
def byte_size (b : WriteBatch) : Nat := b.entries.length

/-- `encode`: the bytes, with the sequence number written in. -/
def encode (b : WriteBatch) (seq : UInt64) : List UInt8 := (b.set_sequence seq).entries

/-- `WriteBatchIter::next` from offset `ix`: the entry of the record there
    and the offset after it, or `None` past the end.  Any tag but
    `TypeValue` is a deletion. -/
def iter_next (b : WriteBatch) (ix : Nat) : Option ((List UInt8 × Option (List UInt8)) × Nat) :=
  match b.entries[ix]? with
  | none => none
  | some tag =>
    let ix := ix + 1
    let (klen, l) := decode_var (b.entries.drop ix)
    let ix := ix + l
    let k := slice b.entries ix (ix + klen)
    let ix := ix + klen
    if tag = ValueType.TypeValue.code.toUInt8 then
      let (vlen, m) := decode_var (b.entries.drop ix)
      let ix := ix + m
      let v := slice b.entries ix (ix + vlen)
      some ((k, some v), ix + vlen)
    else some ((k, none), ix)

/-- The iterator from offset `ix`, on fuel.  Each step reads the tag, so
    moves on by a byte at least: the length of the bytes is fuel enough. -/
def iter_from (b : WriteBatch) : Nat → Nat → List (List UInt8 × Option (List UInt8))
  | 0, _ => []
  | fuel + 1, ix =>
    match b.iter_next ix with
    | none => []
    | some (e, ix') => e :: b.iter_from fuel ix'

/-- `iter`: from the end of the header. -/
def iter (b : WriteBatch) : List (List UInt8 × Option (List UInt8)) :=
  b.iter_from b.entries.length WriteBatch.HEADER_SIZE

/-- The loop of `insert_into_memtable`: each entry is added at `seq`, a put
    with its value and a deletion with an empty one, then `seq += 1`. -/
def insert_entries (ucmp : List UInt8 → List UInt8 → Ordering) :
    List (List UInt8 × Option (List UInt8)) → UInt64 → MemTable → Option MemTable
  | [], _, mt => some mt
  | (k, v) :: es, seq, mt => do
    let mt ← match v with
      | some v_ => mt.add ucmp seq .TypeValue k v_
      | none => mt.add ucmp seq .TypeDeletion k []
    insert_entries ucmp es (seq + 1) mt

/-- `insert_into_memtable`. -/
def insert_into_memtable (ucmp : List UInt8 → List UInt8 → Ordering) (b : WriteBatch) (seq : UInt64)
    (mt : MemTable) : Option MemTable :=
  insert_entries ucmp b.iter seq mt

end WriteBatch

/-! ## §2. What a batch holds. -/

/-- One operation of a batch: a `put` or a `delete`. -/
inductive BatchOp
  | put (k v : List UInt8)
  | delete (k : List UInt8)
  deriving DecidableEq, Repr

/-- The operation applied to a batch. -/
def WriteBatch.apply (b : WriteBatch) : BatchOp → WriteBatch
  | .put k v => b.put k v
  | .delete k => b.delete k

/-- The batch built from a new one by the operations, in order. -/
def WriteBatch.of_ops (ops : List BatchOp) : WriteBatch := ops.foldl WriteBatch.apply WriteBatch.new

/-- The entry the iterator yields for an operation. -/
def BatchOp.entry : BatchOp → List UInt8 × Option (List UInt8)
  | .put k v => (k, some v)
  | .delete k => (k, none)

/-- The record of an operation. -/
def BatchOp.bytes : BatchOp → List UInt8
  | .put k v => ValueType.TypeValue.code.toUInt8 :: (encode_var k.length ++ k ++ encode_var v.length ++ v)
  | .delete k => ValueType.TypeDeletion.code.toUInt8 :: (encode_var k.length ++ k)

/-- The memtable write of an operation at a sequence number. -/
def BatchOp.write (seq : UInt64) : BatchOp → MemEntry
  | .put k v => ⟨seq, .TypeValue, k, v⟩
  | .delete k => ⟨seq, .TypeDeletion, k, []⟩

@[simp] theorem BatchOp.seq_write (seq : UInt64) (op : BatchOp) : (op.write seq).seq = seq := by
  cases op <;> rfl

@[simp] theorem BatchOp.key_write (seq : UInt64) (op : BatchOp) : (op.write seq).key = op.entry.1 := by
  cases op <;> rfl

/-- The writes of operations from a sequence number on, one number each. -/
def BatchOp.writes : List BatchOp → UInt64 → List MemEntry
  | [], _ => []
  | op :: ops, seq => op.write seq :: BatchOp.writes ops (seq + 1)

example : (WriteBatch.of_ops [.put [97] [98, 99], .delete [100]]).iter = [([97], some [98, 99]), ([100], none)] := by
  decide

/-! ## §3. The header. -/

namespace WriteBatch

variable {S : List UInt8}

theorem toUInt32_succ (n : Nat) : (n + 1).toUInt32 = n.toUInt32 + 1 := UInt32.ofNat_add n 1

theorem count_layout (hS : S.length = 8) (c : UInt32) (body : List UInt8) :
    count ⟨S ++ encode_fixed 4 c.toNat ++ body⟩ = c := by
  have hslice : slice (S ++ encode_fixed 4 c.toNat ++ body) COUNT_OFFSET (COUNT_OFFSET + 4) =
      encode_fixed 4 c.toNat := slice_of_eq rfl hS.symm (by simp [hS, COUNT_OFFSET])
  have hlt : c.toNat < 256 ^ 4 := c.toNat_lt
  rw [count, hslice, decode_encode_fixed, Nat.mod_eq_of_lt hlt]
  exact UInt32.ofNat_toNat

theorem set_count_layout (hS : S.length = 8) (n : Nat) (c : UInt32) (body : List UInt8) :
    set_count ⟨S ++ encode_fixed 4 n ++ body⟩ c = ⟨S ++ encode_fixed 4 c.toNat ++ body⟩ := by
  rw [set_count, show COUNT_OFFSET = S.length from hS.symm, overwrite_append _ _ _ _ (by simp)]

theorem sequence_layout (s : UInt64) (rest : List UInt8) : sequence ⟨encode_fixed 8 s.toNat ++ rest⟩ = s := by
  have hslice : slice (encode_fixed 8 s.toNat ++ rest) SEQNUM_OFFSET (SEQNUM_OFFSET + 8) = encode_fixed 8 s.toNat :=
    slice_of_eq (P := []) (R := rest) (by simp) rfl (by simp [SEQNUM_OFFSET])
  rw [sequence, hslice, decode_encode_fixed, toUInt64_toNat_mod]

theorem set_sequence_layout (hS : S.length = 8) (s : UInt64) (rest : List UInt8) :
    set_sequence ⟨S ++ rest⟩ s = ⟨encode_fixed 8 s.toNat ++ rest⟩ := by
  have h := overwrite_append [] S rest (encode_fixed 8 s.toNat) (by simp [hS])
  simp only [List.nil_append, List.length_nil] at h
  rw [set_sequence, show SEQNUM_OFFSET = 0 from rfl, h]

/-- A record appended after a header of count `c` leaves the header of
    count `c + 1`. -/
theorem append_record_layout (hS : S.length = 8) (c : UInt32) (body record : List UInt8) :
    append_record ⟨S ++ encode_fixed 4 c.toNat ++ body⟩ record =
      ⟨S ++ encode_fixed 4 (c + 1).toNat ++ (body ++ record)⟩ := by
  have hentries : S ++ encode_fixed 4 c.toNat ++ body ++ record = S ++ encode_fixed 4 c.toNat ++ (body ++ record) := by
    simp
  simp only [append_record, hentries, count_layout hS, set_count_layout hS]

theorem apply_layout (hS : S.length = 8) (c : UInt32) (body : List UInt8) (op : BatchOp) :
    apply ⟨S ++ encode_fixed 4 c.toNat ++ body⟩ op = ⟨S ++ encode_fixed 4 (c + 1).toNat ++ (body ++ op.bytes)⟩ := by
  cases op with
  | put k v =>
    rw [apply, put, append_record_layout hS]
    simp [BatchOp.bytes]
  | delete k =>
    rw [apply, delete, append_record_layout hS]
    simp [BatchOp.bytes]

/-- **Building a batch**: by induction on the operations, each appends its
    record and counts it. -/
theorem foldl_apply_layout (hS : S.length = 8) :
    ∀ (ops : List BatchOp) (c : UInt32) (body : List UInt8),
      ops.foldl apply ⟨S ++ encode_fixed 4 c.toNat ++ body⟩ =
        ⟨S ++ encode_fixed 4 (c + ops.length.toUInt32).toNat ++ (body ++ ops.flatMap BatchOp.bytes)⟩
  | [], c, body => by simp
  | op :: ops, c, body => by
    rw [List.foldl_cons, apply_layout hS, foldl_apply_layout hS ops]
    have hc : c + 1 + ops.length.toUInt32 = c + (op :: ops).length.toUInt32 := by
      rw [List.length_cons, toUInt32_succ]
      ac_rfl
    simp [hc]

theorem of_ops_entries (ops : List BatchOp) :
    (of_ops ops).entries =
      List.replicate 8 0 ++ encode_fixed 4 ops.length.toUInt32.toNat ++ ops.flatMap BatchOp.bytes := by
  have hnew : new = ⟨List.replicate 8 0 ++ encode_fixed 4 (0 : UInt32).toNat ++ []⟩ := rfl
  rw [of_ops, hnew, foldl_apply_layout (by simp)]
  simp

/-! ## §4. The iterator. -/

/-- The tag and the key of a record, wherever it stands in the bytes, and
    the bytes after the key. -/
theorem record_key (b : WriteBatch) (P : List UInt8) (t : UInt8) (k rest : List UInt8)
    (hb : b.entries = P ++ t :: (encode_var k.length ++ k ++ rest)) :
    b.entries[P.length]? = some t ∧
      decode_var (b.entries.drop (P.length + 1)) = (k.length, (encode_var k.length).length) ∧
      slice b.entries (P.length + 1 + (encode_var k.length).length)
        (P.length + 1 + (encode_var k.length).length + k.length) = k ∧
      b.entries.drop (P.length + 1 + (encode_var k.length).length + k.length) = rest := by
  have hdrop : b.entries.drop (P.length + 1) = encode_var k.length ++ k ++ rest := by simp [hb]
  refine ⟨by simp [hb], by rw [hdrop, List.append_assoc, decode_var_encode_var], ?_, ?_⟩
  · exact slice_of_eq (P := P ++ [t] ++ encode_var k.length) (R := rest) (by simp [hb]) (by simp; omega)
      (by simp; omega)
  · exact drop_of_eq (P := P ++ [t] ++ encode_var k.length ++ k) (by simp [hb]) (by simp; omega)

/-- **One step of the iterator** decodes the record at its offset. -/
theorem iter_next_op (b : WriteBatch) (P : List UInt8) (op : BatchOp) (rest : List UInt8)
    (hb : b.entries = P ++ op.bytes ++ rest) :
    b.iter_next P.length = some (op.entry, P.length + op.bytes.length) := by
  cases op with
  | put k v =>
    obtain ⟨htag, hk, hkey, hafter⟩ := record_key b P ValueType.TypeValue.code.toUInt8 k (encode_var v.length ++ v ++ rest)
      (by simp [hb, BatchOp.bytes])
    -- after the key, the value's length and the value
    have hv : decode_var (b.entries.drop (P.length + 1 + (encode_var k.length).length + k.length)) =
        (v.length, (encode_var v.length).length) := by
      rw [hafter, List.append_assoc, decode_var_encode_var]
    have hval : slice b.entries (P.length + 1 + (encode_var k.length).length + k.length + (encode_var v.length).length)
        (P.length + 1 + (encode_var k.length).length + k.length + (encode_var v.length).length + v.length) = v :=
      slice_of_eq (P := P ++ [ValueType.TypeValue.code.toUInt8] ++ encode_var k.length ++ k ++ encode_var v.length)
        (R := rest) (by simp [hb, BatchOp.bytes]) (by simp; omega) (by simp; omega)
    simp only [iter_next, htag, hk, hkey, hv, hval, if_true, BatchOp.entry, BatchOp.bytes]
    simp only [List.length_cons, List.length_append, Option.some.injEq, Prod.mk.injEq, true_and]
    omega
  | delete k =>
    obtain ⟨htag, hk, hkey, -⟩ := record_key b P ValueType.TypeDeletion.code.toUInt8 k rest
      (by simp [hb, BatchOp.bytes])
    have hne : ValueType.TypeDeletion.code.toUInt8 ≠ ValueType.TypeValue.code.toUInt8 := by decide
    simp only [iter_next, htag, hk, hkey, hne, if_false, BatchOp.entry, BatchOp.bytes]
    simp only [List.length_cons, List.length_append, Option.some.injEq, Prod.mk.injEq, true_and]
    omega

theorem iter_next_end (b : WriteBatch) : b.iter_next b.entries.length = none := by
  simp [iter_next]

/-- **The iterator over records**: by induction on the operations, one
    step each (`iter_next_op`), then the end. -/
theorem iter_from_ops (b : WriteBatch) :
    ∀ (ops : List BatchOp) (fuel : Nat) (P : List UInt8), b.entries = P ++ ops.flatMap BatchOp.bytes →
      ops.length ≤ fuel → b.iter_from fuel P.length = ops.map BatchOp.entry
  | [], 0, _, _, _ => rfl
  | [], fuel + 1, P, hb, _ => by
    have hend : b.iter_next P.length = none := by
      simpa [hb] using iter_next_end b
    simp [iter_from, hend]
  | op :: ops, fuel + 1, P, hb, hfuel => by
    have hstep := iter_next_op b P op (ops.flatMap BatchOp.bytes) (by simp [hb])
    have hrest := iter_from_ops b ops fuel (P ++ op.bytes) (by simp [hb]) (by simp at hfuel; omega)
    rw [List.length_append] at hrest
    simp [iter_from, hstep, hrest]

theorem length_le_flatMap_bytes : ∀ ops : List BatchOp, ops.length ≤ (ops.flatMap BatchOp.bytes).length
  | [] => le_refl _
  | op :: ops => by
    have hop : 1 ≤ op.bytes.length := by cases op <;> simp [BatchOp.bytes]
    have := length_le_flatMap_bytes ops
    simp only [List.flatMap_cons, List.length_append, List.length_cons]
    omega

/-- Over a header and the records of operations, `iter` yields the
    operations. -/
theorem iter_layout (b : WriteBatch) (H : List UInt8) (hH : H.length = HEADER_SIZE) (ops : List BatchOp)
    (hb : b.entries = H ++ ops.flatMap BatchOp.bytes) : b.iter = ops.map BatchOp.entry := by
  have hfuel : ops.length ≤ b.entries.length := by
    have := length_le_flatMap_bytes ops
    rw [hb, List.length_append]
    omega
  rw [iter, ← hH]
  exact iter_from_ops b ops _ H hb hfuel

/-- The bytes of a batch built from operations and encoded: the sequence
    number, the count, the records. -/
theorem encode_of_ops (ops : List BatchOp) (s : UInt64) :
    (of_ops ops).encode s =
      encode_fixed 8 s.toNat ++ encode_fixed 4 ops.length.toUInt32.toNat ++ ops.flatMap BatchOp.bytes := by
  have hentries : of_ops ops = ⟨List.replicate 8 0 ++
      (encode_fixed 4 ops.length.toUInt32.toNat ++ ops.flatMap BatchOp.bytes)⟩ := by
    rw [← List.append_assoc, ← of_ops_entries]
  rw [encode, hentries, set_sequence_layout (by simp), List.append_assoc]

theorem iter_of_ops (ops : List BatchOp) : (of_ops ops).iter = ops.map BatchOp.entry :=
  iter_layout _ (List.replicate 8 0 ++ encode_fixed 4 ops.length.toUInt32.toNat) (by simp [HEADER_SIZE]) ops
    (of_ops_entries ops)

theorem iter_of_ops_encode (ops : List BatchOp) (s : UInt64) (b : WriteBatch) :
    (b.set_contents ((of_ops ops).encode s)).iter = ops.map BatchOp.entry :=
  iter_layout _ (encode_fixed 8 s.toNat ++ encode_fixed 4 ops.length.toUInt32.toNat) (by simp [HEADER_SIZE]) ops
    (by simp only [set_contents, encode_of_ops])

theorem sequence_of_ops_encode (ops : List BatchOp) (s : UInt64) (b : WriteBatch) :
    (b.set_contents ((of_ops ops).encode s)).sequence = s := by
  rw [set_contents, encode_of_ops, List.append_assoc, sequence_layout]

theorem count_of_ops_encode (ops : List BatchOp) (s : UInt64) (b : WriteBatch) :
    (b.set_contents ((of_ops ops).encode s)).count = ops.length.toUInt32 := by
  rw [set_contents, encode_of_ops, count_layout (by simp)]

theorem count_of_ops (ops : List BatchOp) : (of_ops ops).count = ops.length.toUInt32 := by
  have h : of_ops ops = ⟨List.replicate 8 0 ++ encode_fixed 4 ops.length.toUInt32.toNat ++
      ops.flatMap BatchOp.bytes⟩ := by
    rw [← of_ops_entries]
  rw [h, count_layout (by simp)]

/-- A batch's bytes are at least its header. -/
theorem header_le_length_encode (ops : List BatchOp) (s : UInt64) :
    HEADER_SIZE ≤ ((of_ops ops).encode s).length := by
  simp only [encode_of_ops, List.length_append, length_encode_fixed, HEADER_SIZE]
  omega

theorem encode_of_ops_ne_nil (ops : List BatchOp) (s : UInt64) : (of_ops ops).encode s ≠ [] :=
  List.ne_nil_of_length_pos (lt_of_lt_of_le (by decide) (header_le_length_encode ops s))

end WriteBatch

/-! ## §5. Into the memtable. -/

section Insert

variable (ucmp : List UInt8 → List UInt8 → Ordering)

/-- The loop of `insert_into_memtable` adds the operations' writes. -/
theorem insert_entries_ops (mt : MemTable) :
    ∀ (ops : List BatchOp) (seq : UInt64),
      WriteBatch.insert_entries ucmp (ops.map BatchOp.entry) seq mt =
        (BatchOp.writes ops seq).foldlM (fun mt e => mt.add ucmp e.seq e.typ e.key e.value) mt := by
  intro ops
  induction ops generalizing mt with
  | nil => intro seq; rfl
  | cons op ops ih =>
    intro seq
    cases op <;>
    · simp only [List.map_cons, BatchOp.entry, WriteBatch.insert_entries, BatchOp.writes, BatchOp.write,
        List.foldlM_cons]
      congr 1
      funext mt'
      exact ih mt' (seq + 1)

/-- **Inserting a batch is adding its writes**, one after another at the
    sequence numbers from the one given: a batch built from operations, and
    one read back from their bytes. -/
theorem insert_into_memtable_of_ops (ops : List BatchOp) (seq : UInt64) (mt : MemTable) :
    (WriteBatch.of_ops ops).insert_into_memtable ucmp seq mt =
      (BatchOp.writes ops seq).foldlM (fun mt e => mt.add ucmp e.seq e.typ e.key e.value) mt := by
  rw [WriteBatch.insert_into_memtable, WriteBatch.iter_of_ops, insert_entries_ops]

theorem insert_into_memtable_of_ops_encode (ops : List BatchOp) (s seq : UInt64) (b : WriteBatch) (mt : MemTable) :
    (b.set_contents ((WriteBatch.of_ops ops).encode s)).insert_into_memtable ucmp seq mt =
      (BatchOp.writes ops seq).foldlM (fun mt e => mt.add ucmp e.seq e.typ e.key e.value) mt := by
  rw [WriteBatch.insert_into_memtable, WriteBatch.iter_of_ops_encode, insert_entries_ops]

end Insert

end Teaclave.Leveldb
