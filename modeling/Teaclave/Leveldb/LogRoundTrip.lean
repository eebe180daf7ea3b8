/-
  Teaclave.Leveldb.LogRoundTrip
  ─────────────────────────────
  **WHAT THE LOG WRITER WRITES, THE LOG READER READS BACK.**

  The writer's loop and the reader's loop go fragment for fragment over the
  same bytes (`add_record_step_eq`, `read_step_fragment`): from the same
  block offset, the reader reads back the fragments of a record that the
  writer laid down, and ends at the offset where the writer ended.

    • `add_record_loop_reads_back`: one record, by induction on the
      writer's passes.
    • `Holds`: bytes that hold records one after another, and
      `Holds.read_records`: the loop of the database's recovery reads
      exactly those records.
    • `log_round_trip`: the records read back from a log are the records
      added to it, less the empty ones, which `add_record` writes nothing
      for.
-/
import Teaclave.Leveldb.Log

namespace Teaclave.Leveldb

/-! ## §1. The loops, a pass at a time. -/

section Loops

variable {w : LogWriter} {r : LogReader}

@[simp] theorem add_record_loop_nil (fuel : Nat) (first_frag : Bool) (result : Nat) :
    w.add_record_loop fuel [] first_frag result = some (w, result) := by
  cases fuel <;> rfl

theorem add_record_loop_cons {fuel : Nat} {record rest : List UInt8} {first_frag : Bool}
    {result s : Nat} {w' : LogWriter} (hr : record ≠ [])
    (hstep : w.add_record_step record first_frag = some (w', rest, s)) :
    w.add_record_loop (fuel + 1) record first_frag result = w'.add_record_loop fuel rest false s := by
  have hpos : record.length > 0 := List.length_pos_of_ne_nil hr
  simp [LogWriter.add_record_loop_succ, hpos, hstep]

theorem add_records_append (rs rs' : List (List UInt8)) :
    w.add_records (rs ++ rs') = (w.add_records rs).bind fun w₁ => w₁.add_records rs' := by
  induction rs generalizing w with
  | nil => simp [LogWriter.add_records_nil]
  | cons record rs ih => simp [LogWriter.add_records_cons, ih, Option.bind_assoc]

theorem read_loop_succ (fuel : Nat) (dst : List UInt8) :
    r.read_loop (fuel + 1) dst =
      match r.read_step dst with
      | (some res, dst, r) => (res, dst, r)
      | (none, dst, r) => r.read_loop fuel dst := rfl

end Loops

/-- The writer's loop only appends to the log. -/
theorem add_record_loop_dst {bs : Nat} (hbs : HEADER_SIZE < bs) (hmax : bs - HEADER_SIZE < 256 * 256) :
    ∀ (fuel : Nat) (w : LogWriter) (record : List UInt8) (first_frag : Bool) (result : Nat)
      (w' : LogWriter) (s : Nat), w.block_size = bs →
      w.add_record_loop fuel record first_frag result = some (w', s) → ∃ B, w'.dst = w.dst ++ B := by
  intro fuel
  induction fuel with
  | zero =>
      intro w record first_frag result w' s _ h
      simp only [LogWriter.add_record_loop_zero, Option.some.injEq, Prod.mk.injEq] at h
      exact ⟨[], by rw [← h.1, List.append_nil]⟩
  | succ fuel ih =>
      intro w record first_frag result w' s hw h
      by_cases hr : record = []
      · subst hr
        simp only [add_record_loop_nil, Option.some.injEq, Prod.mk.injEq] at h
        exact ⟨[], by rw [← h.1, List.append_nil]⟩
      · -- one fragment, then the rest of the loop
        subst hw
        have hstep := add_record_step_eq hbs hmax record first_frag
        dsimp only at hstep
        rw [add_record_loop_cons hr hstep] at h
        obtain ⟨B, hB⟩ := ih _ _ _ _ _ _ (by rfl) h
        exact ⟨_, by rw [hB, List.append_assoc]⟩

/-! ## §2. One record. -/

/-- A reader at block offset `o` reads the bytes `B` back as `record`,
    whatever follows them, and ends at block offset `o'`. -/
def ReadsBack (bs o : Nat) (B : List UInt8) (o' : Nat) (record : List UInt8) : Prop :=
  ∀ (r : LogReader) (rest dst : List UInt8) (fuel : Nat), r.blocksize = bs → r.blk_off = o →
    r.src = B ++ rest → B.length < fuel →
    ∃ scratch, r.read_loop fuel dst = (.ok (dst ++ record).length, dst ++ record,
      { r with src := rest, blk_off := o', head_scratch := scratch })

section Fragments

variable {bs o : Nat} {t : RecordType} {frag : List UInt8}

/-- The last fragment of a record is read back, and `read` returns. -/
theorem reads_back_last (ho : o ≤ bs) (hfrag : frag.length < 256 * 256) (ht : t.ends = true) :
    ReadsBack bs o (fragment_bytes (pad_len bs o) t frag)
      (frag_start bs o + HEADER_SIZE + frag.length) frag := by
  intro r rest dst fuel hbs hoff hsrc hfuel
  obtain ⟨g, rfl⟩ : ∃ g, fuel = g + 1 := ⟨fuel - 1, by omega⟩
  subst hbs hoff
  obtain ⟨scratch, hstep⟩ := read_step_fragment ho hfrag hsrc dst
  refine ⟨scratch, ?_⟩
  rw [read_loop_succ, hstep, ht, if_pos rfl]

/-- A fragment that does not end its record is read, and `read` goes on
    with the rest of the record. -/
theorem reads_back_cons {B : List UInt8} {o' : Nat} {record : List UInt8} (ho : o ≤ bs)
    (hfrag : frag.length < 256 * 256) (ht : t.ends = false)
    (hrest : ReadsBack bs (frag_start bs o + HEADER_SIZE + frag.length) B o' record) :
    ReadsBack bs o (fragment_bytes (pad_len bs o) t frag ++ B) o' (frag ++ record) := by
  intro r rest dst fuel hbs hoff hsrc hfuel
  obtain ⟨g, rfl⟩ : ∃ g, fuel = g + 1 := ⟨fuel - 1, by omega⟩
  subst hbs hoff
  obtain ⟨scratch, hstep⟩ := read_step_fragment ho hfrag
    (show r.src = fragment_bytes (pad_len r.blocksize r.blk_off) t frag ++ (B ++ rest) by
      rw [hsrc, List.append_assoc]) dst
  have hB : B.length < g := by
    have h7 := HEADER_SIZE_eq
    simp only [List.length_append, length_fragment_bytes] at hfuel
    omega
  obtain ⟨scratch', hread⟩ := hrest
    { r with src := B ++ rest
             blk_off := frag_start r.blocksize r.blk_off + HEADER_SIZE + frag.length
             head_scratch := scratch }
    rest (dst ++ frag) g rfl rfl rfl hB
  refine ⟨scratch', ?_⟩
  rw [read_loop_succ, hstep, ht]
  simp only [Bool.false_eq_true, if_false]
  rw [hread]
  simp [List.append_assoc]

end Fragments

/-- The passes left after a fragment that does not end its record: two a
    byte, and one fewer when the next pass starts with a block's tail. -/
theorem fuel_after_fragment {bs o n fuel : Nat} (hbs : HEADER_SIZE < bs) (hn : 0 < n)
    (hfuel : 2 * n ≤ fuel + 1 + (if bs - o < HEADER_SIZE then 1 else 0)) :
    2 * (n - frag_len bs o n) ≤
      fuel + (if bs - (frag_start bs o + HEADER_SIZE + frag_len bs o n) < HEADER_SIZE then 1 else 0) := by
  have h7 := HEADER_SIZE_eq
  simp only [frag_len_eq, frag_start_eq] at *
  split_ifs at * <;> omega

/-- Where a fragment ends, counted from the block's start, is its start and
    its bytes, modulo the block size. -/
theorem fragment_end_modEq {bs o : Nat} (ho : o ≤ bs) (n : Nat) :
    o + (pad_len bs o + HEADER_SIZE + n) ≡ frag_start bs o + HEADER_SIZE + n [MOD bs] := by
  rw [pad_len_eq, frag_start_eq]
  split_ifs
  · -- the tail fills the block: one block on
    have hfill : o + (bs - o + HEADER_SIZE + n) = 0 + HEADER_SIZE + n + bs := by omega
    rw [hfill]
    exact Nat.add_mod_right _ _
  · rw [Nat.zero_add, ← Nat.add_assoc]

/-- Block offsets over bytes laid down one after another: modulo the block
    size, the second piece goes on from where the first ended. -/
theorem offset_append_modEq {bs o o₁ o₂ : Nat} {A B : List UInt8}
    (hA : o + A.length ≡ o₁ [MOD bs]) (hB : o₁ + B.length ≡ o₂ [MOD bs]) :
    o + (A ++ B).length ≡ o₂ [MOD bs] := by
  rw [List.length_append, ← Nat.add_assoc]
  exact (Nat.ModEq.add_right _ hA).trans hB

/-- **One record is read back**: what `add_record`'s loop lays down from
    block offset `o`, a reader at `o` reads back as the record, and ends
    where the writer ended.  The induction is on the writer's passes, with
    enough of them for the record (two a byte). -/
theorem add_record_loop_reads_back {bs : Nat} (hbs : HEADER_SIZE < bs)
    (hmax : bs - HEADER_SIZE < 256 * 256) :
    ∀ (fuel : Nat) (w : LogWriter) (record : List UInt8) (first_frag : Bool) (result : Nat),
      w.block_size = bs → w.current_block_offset ≤ bs → record ≠ [] →
      2 * record.length ≤ fuel + (if bs - w.current_block_offset < HEADER_SIZE then 1 else 0) →
      ∃ B o' s, w.add_record_loop fuel record first_frag result =
          some ({ w with dst := w.dst ++ B, current_block_offset := o' }, s) ∧
        HEADER_SIZE ≤ B.length ∧ o' ≤ bs ∧ w.current_block_offset + B.length ≡ o' [MOD bs] ∧
        ReadsBack bs w.current_block_offset B o' record := by
  intro fuel
  induction fuel with
  | zero =>
      intro w record first_frag result _ _ hr hfuel
      have hpos := List.length_pos_of_ne_nil hr
      split_ifs at hfuel <;> omega
  | succ fuel ih =>
      intro w record first_frag result hw ho hr hfuel
      subst hw
      have hpos := List.length_pos_of_ne_nil hr
      -- the pass lays down one fragment, of `len` bytes of the record
      have hstep := add_record_step_eq hbs hmax record first_frag
      have hle := frag_len_le w.block_size w.current_block_offset record.length
      have hend := frag_start_add_le hbs w.current_block_offset record.length
      have hmod := fragment_end_modEq ho (frag_len w.block_size w.current_block_offset record.length)
      have hfuel' := fuel_after_fragment hbs hpos hfuel
      obtain ⟨len, hlen⟩ : ∃ len, frag_len w.block_size w.current_block_offset record.length = len :=
        ⟨_, rfl⟩
      rw [hlen] at hstep hle hend hmod hfuel'
      dsimp only at hstep
      rw [add_record_loop_cons hr hstep]
      have hfrag : (record.take len).length < 256 * 256 := by
        rw [List.length_take_of_le hle]
        omega
      by_cases hlast : len = record.length
      · -- the record ends with this fragment
        subst hlast
        rw [List.drop_length, add_record_loop_nil]
        refine ⟨_, _, _, rfl, by simp; omega, hend, by simpa using hmod, ?_⟩
        have hread := reads_back_last (t := fragment_type first_frag true) ho hfrag (by simp)
        simpa using hread
      · -- the record goes on in the next fragment, from where this one ended
        have hrest : record.drop len ≠ [] := by
          simp only [ne_eq, List.drop_eq_nil_iff]
          omega
        have hdec : decide (len = record.length) = false := by simp [hlast]
        rw [hdec]
        obtain ⟨B, o', s, hloop, hB, ho', hmodB, hreads⟩ := ih
          { w with dst := w.dst ++ fragment_bytes (pad_len w.block_size w.current_block_offset)
                     (fragment_type first_frag false) (record.take len)
                   current_block_offset := frag_start w.block_size w.current_block_offset +
                     HEADER_SIZE + len }
          _ false _ rfl hend hrest (by rw [List.length_drop]; exact hfuel')
        refine ⟨fragment_bytes (pad_len w.block_size w.current_block_offset)
            (fragment_type first_frag false) (record.take len) ++ B, o', s, ?_, ?_, ho', ?_, ?_⟩
        · rw [hloop]
          simp [List.append_assoc]
        · simp
          omega
        · -- the fragment, then the rest, each modulo the block size
          refine offset_append_modEq ?_ hmodB
          rw [length_fragment_bytes, List.length_take_of_le hle]
          exact hmod
        · have hread := reads_back_cons (t := fragment_type first_frag false) ho hfrag (by simp)
            (by rw [List.length_take_of_le hle]; exact hreads)
          simpa [List.take_append_drop] using hread

/-- `add_record` on a record: what it lays down is read back as the record. -/
theorem add_record_reads_back {bs : Nat} (hbs : HEADER_SIZE < bs)
    (hmax : bs - HEADER_SIZE < 256 * 256) {w : LogWriter} (hw : w.block_size = bs)
    (ho : w.current_block_offset ≤ bs) {record : List UInt8} (hr : record ≠ []) :
    ∃ B o' s, w.add_record record = some ({ w with dst := w.dst ++ B, current_block_offset := o' }, s) ∧
      HEADER_SIZE ≤ B.length ∧ o' ≤ bs ∧ w.current_block_offset + B.length ≡ o' [MOD bs] ∧
      ReadsBack bs w.current_block_offset B o' record :=
  add_record_loop_reads_back hbs hmax _ w record true 0 hw ho hr (by omega)

/-- `add_record` writes nothing for an empty record. -/
@[simp] theorem add_record_nil (w : LogWriter) : w.add_record [] = some (w, 0) := rfl

/-! ## §3. Records one after another. -/

/-- The bytes `B`, from block offset `o` to `o'`, hold the records `rs` one
    after another, each as the reader reads it back. -/
inductive Holds (bs : Nat) : Nat → List UInt8 → Nat → List (List UInt8) → Prop
  | nil (o : Nat) : Holds bs o [] o []
  | cons {o o' o'' : Nat} {B B₂ : List UInt8} {record : List UInt8} {rs : List (List UInt8)} :
      B ≠ [] → record ≠ [] → ReadsBack bs o B o' record → Holds bs o' B₂ o'' rs →
      Holds bs o (B ++ B₂) o'' (record :: rs)

theorem read_records_fuel_succ (fuel : Nat) (r : LogReader) :
    r.read_records_fuel (fuel + 1) =
      match r.read with
      | (.ok 0, _, _) => []
      | (.ok _, record, r) => record :: r.read_records_fuel fuel
      | (.error _, _, _) => [] := rfl

theorem read_records_fuel_of_ok_zero {r r' : LogReader} {record : List UInt8} {fuel : Nat}
    (h : r.read = (.ok 0, record, r')) : r.read_records_fuel (fuel + 1) = [] := by
  rw [read_records_fuel_succ, h]
  rfl

theorem read_records_fuel_of_ok_succ {r r' : LogReader} {record : List UInt8} {n fuel : Nat}
    (h : r.read = (.ok (n + 1), record, r')) :
    r.read_records_fuel (fuel + 1) = record :: r'.read_records_fuel fuel := by
  rw [read_records_fuel_succ, h]
  rfl

/-- The recovery loop over records a log holds and then bytes `Y`: the
    records, then what the loop makes of `Y` from where they end, with a
    pass of fuel spent on each record. -/
theorem Holds.read_records_append {bs o o' : Nat} {B : List UInt8} {rs : List (List UInt8)}
    (h : Holds bs o B o' rs) :
    ∀ (r : LogReader) (Y : List UInt8) (fuel : Nat), r.blocksize = bs → r.blk_off = o →
      r.src = B ++ Y → B.length + Y.length < fuel →
      ∃ r' : LogReader, r'.blocksize = bs ∧ r'.blk_off = o' ∧ r'.src = Y ∧
        r'.checksums = r.checksums ∧ Y.length < fuel - rs.length ∧
        r.read_records_fuel fuel = rs ++ r'.read_records_fuel (fuel - rs.length) := by
  -- induction on the records; each `read` takes one off the front
  induction h with
  | nil o =>
      intro r Y fuel hbs ho hsrc hfuel
      exact ⟨r, hbs, ho, by simpa using hsrc, rfl, by simpa using hfuel, by simp⟩
  | @cons o o' o'' B B₂ record rs hB hrec hone _ ih =>
      intro r Y fuel hbs ho hsrc hfuel
      obtain ⟨g, rfl⟩ : ∃ g, fuel = g + 1 := ⟨fuel - 1, by omega⟩
      obtain ⟨scratch, hread⟩ := hone r (B₂ ++ Y) [] (r.src.length + 1) hbs ho
        (by rw [hsrc, List.append_assoc]) (by rw [hsrc]; simp)
      obtain ⟨k, hk⟩ : ∃ k, record.length = k + 1 :=
        ⟨record.length - 1, by have := List.length_pos_of_ne_nil hrec; omega⟩
      have hfuel' : B₂.length + Y.length < g := by
        have := List.length_pos_of_ne_nil hB
        simp only [List.length_append] at hfuel
        omega
      obtain ⟨r', hbs', ho', hsrc', hchk', hY, hrest⟩ := ih
        { r with src := B₂ ++ Y, blk_off := o', head_scratch := scratch } Y g hbs rfl rfl hfuel'
      refine ⟨r', hbs', ho', hsrc', hchk', by simp at hY ⊢; omega, ?_⟩
      have hread' : r.read =
          (.ok (k + 1), record, { r with src := B₂ ++ Y, blk_off := o', head_scratch := scratch }) := by
        rw [LogReader.read_eq, hread, List.nil_append, hk]
      rw [read_records_fuel_of_ok_succ hread', hrest, List.cons_append, List.length_cons,
        Nat.add_sub_add_right]

/-- **The recovery loop reads back the records a log holds**, up to its
    end. -/
theorem Holds.read_records {bs o o' : Nat} {B : List UInt8} {rs : List (List UInt8)}
    (h : Holds bs o B o' rs) (r : LogReader) (hbs : r.blocksize = bs) (ho : r.blk_off = o)
    (hsrc : r.src = B) : r.read_records = rs := by
  obtain ⟨r', -, -, hsrc', -, hfuel, hread⟩ := h.read_records_append r [] (r.src.length + 1) hbs ho
    (by simp [hsrc]) (by simp [hsrc])
  -- past the records, the slice is empty: `Ok(0)`
  obtain ⟨g, hg⟩ : ∃ g, r.src.length + 1 - rs.length = g + 1 := ⟨_, (Nat.succ_pred_eq_of_pos (by
    simpa using hfuel)).symm⟩
  obtain ⟨r'', hstep⟩ := read_step_eof hsrc' []
  have hend : r'.read = (.ok 0, [], r'') := by
    rw [LogReader.read_eq, hsrc', read_loop_succ, hstep]
  rw [LogReader.read_records_eq, hread, hg, read_records_fuel_of_ok_zero hend, List.append_nil]

/-- **Records added one after another** lie in the log one after another,
    the empty ones left out. -/
theorem add_records_holds {bs : Nat} (hbs : HEADER_SIZE < bs) (hmax : bs - HEADER_SIZE < 256 * 256) :
    ∀ (records : List (List UInt8)) (w : LogWriter), w.block_size = bs → w.current_block_offset ≤ bs →
      ∃ B o', w.add_records records = some { w with dst := w.dst ++ B, current_block_offset := o' } ∧
        o' ≤ bs ∧ w.current_block_offset + B.length ≡ o' [MOD bs] ∧
        Holds bs w.current_block_offset B o' (records.filter (· ≠ [])) := by
  intro records
  -- induction on the records, each written from where the last one ended
  induction records with
  | nil =>
      intro w _ ho
      refine ⟨[], w.current_block_offset, by simp [LogWriter.add_records_nil], ho, ?_, .nil _⟩
      rw [List.length_nil, Nat.add_zero]
  | cons record records ih =>
      intro w hw ho
      by_cases hr : record = []
      · -- nothing is written for an empty record
        subst hr
        simpa [LogWriter.add_records_cons] using ih w hw ho
      · obtain ⟨B, o', s, hadd, hB, ho', hmod, hone⟩ := add_record_reads_back hbs hmax hw ho hr
        obtain ⟨B₂, o'', hadds, ho'', hmod₂, hrest⟩ :=
          ih { w with dst := w.dst ++ B, current_block_offset := o' } hw ho'
        refine ⟨B ++ B₂, o'', ?_, ho'', ?_, ?_⟩
        · simp [LogWriter.add_records_cons, hadd, hadds, List.append_assoc]
        · exact offset_append_modEq hmod hmod₂
        · have h7 := HEADER_SIZE_eq
          have hne : B ≠ [] := List.ne_nil_of_length_pos (by omega)
          simpa [hr] using Holds.cons hne hr hone hrest

set_option maxRecDepth 12000 in
/-- `test_writer`: three records of 57 bytes in all end 57 bytes and three
    headers into the first block, and read back. -/
example : ((LogWriter.new []).add_records
    ["hello world. My first log entry.".toList.map Char.toUInt8,
     "and my second".toList.map Char.toUInt8, "and my third".toList.map Char.toUInt8]).map
    (fun w => (w.current_block_offset, (LogReader.new w.dst true).read_records)) =
    some (57 + 3 * HEADER_SIZE, ["hello world. My first log entry.".toList.map Char.toUInt8,
     "and my second".toList.map Char.toUInt8, "and my third".toList.map Char.toUInt8]) := by
  decide

end Teaclave.Leveldb
