/-
  Teaclave.Leveldb.Log
  ────────────────────
  **THE LOG: BLOCKS OF CHECKSUMMED FRAGMENTS.**

  `rusty_leveldb_sgx/src/log.rs`.  A log is a run of blocks of
  `BLOCK_SIZE` bytes.  `LogWriter::add_record` cuts a record into fragments
  that each fit the rest of the current block after a seven-byte header
  (the masked CRC, the length, the type `Full`, `First`, `Middle` or
  `Last`), and fills a block's tail of six or fewer bytes with zeros.
  `LogReader::read` skips such a tail, reads a header and the fragment it
  announces, checks the CRC, and returns at a `Full` or `Last` fragment.

  The writer writes to a `Vec<u8>`, which takes every write whole; the
  reader reads a `&[u8]`, which hands out what fits.  Both loops run on
  fuel that bounds their passes (`add_record`, `read`).

    • `add_record_step_eq`: one pass of the writer lays down the padding,
      the header and the fragment (`fragment_bytes`).
    • `read_step_fragment`: one pass of the reader over those bytes reads
      the fragment back, and says whether the record ends there.
-/
import Teaclave.Leveldb.Basic
import Teaclave.Lib.FixedInt

namespace Teaclave.Leveldb

open Teaclave.Lib

/-! ## §1. Records. -/

/-- `BLOCK_SIZE`. -/
def BLOCK_SIZE : Nat := 32 * 1024

/-- `HEADER_SIZE`: the checksum, the length and the type. -/
def HEADER_SIZE : Nat := 4 + 2 + 1

theorem HEADER_SIZE_eq : HEADER_SIZE = 7 := rfl

/-- `RecordType`. -/
inductive RecordType
  | Full
  | First
  | Middle
  | Last
  deriving DecidableEq, Repr

/-- `t as u8`. -/
def RecordType.code : RecordType → UInt8
  | .Full => 1
  | .First => 2
  | .Middle => 3
  | .Last => 4

/-! ## §2. `LogWriter`. -/

/-- `LogWriter` over a `Vec<u8>`: the bytes so far, the offset in the
    current block, the block size. -/
structure LogWriter where
  dst : List UInt8
  current_block_offset : Nat
  block_size : Nat
  deriving DecidableEq, Repr

/-- `LogWriter::new`. -/
def LogWriter.new (writer : List UInt8) : LogWriter := ⟨writer, 0, BLOCK_SIZE⟩

theorem LogWriter.new_eq (writer : List UInt8) : LogWriter.new writer = ⟨writer, 0, BLOCK_SIZE⟩ := rfl

/-- `LogWriter::new_with_off`: a writer that goes on with a log of `off`
    bytes. -/
def LogWriter.new_with_off (writer : List UInt8) (off : Nat) : LogWriter :=
  { LogWriter.new writer with current_block_offset := off % BLOCK_SIZE }

/-- `emit_record`: the header and the first `len` bytes of `data` are
    written, and their number returned; `none` is the panic of its
    assertion.  Its caller passes `len ≤ data.len()`, so `&data[0..len]` is
    in range. -/
def LogWriter.emit_record (w : LogWriter) (t : RecordType) (data : List UInt8) (len : Nat) :
    Option (LogWriter × Nat) :=
  if len < 256 * 256 then
    let chksum := mask_crc (checksum_castagnoli (t.code :: data.take len))
    let out := encode_fixed 4 chksum.toNat ++ encode_fixed 2 len ++ [t.code] ++ data.take len
    some ({ w with dst := w.dst ++ out, current_block_offset := w.current_block_offset + out.length },
      out.length)
  else none

/-- One pass of `add_record`'s loop: a block's tail too short for a header
    is filled with zeros, and one fragment is emitted; the writer, the rest
    of the record and the bytes of the fragment.  `none` is a panic. -/
def LogWriter.add_record_step (w : LogWriter) (record : List UInt8) (first_frag : Bool) :
    Option (LogWriter × List UInt8 × Nat) :=
  if w.block_size ≤ HEADER_SIZE then none
  else
    let space_left := w.block_size - w.current_block_offset
    -- fill up the block, go to the next one
    let w := if space_left < HEADER_SIZE then
        { w with dst := w.dst ++ (List.replicate 6 0).take space_left, current_block_offset := 0 }
      else w
    let avail_for_data := w.block_size - w.current_block_offset - HEADER_SIZE
    let data_frag_len := if record.length < avail_for_data then record.length else avail_for_data
    let recordtype :=
      if first_frag ∧ data_frag_len = record.length then RecordType.Full
      else if first_frag then RecordType.First
      else if data_frag_len = record.length then RecordType.Last
      else RecordType.Middle
    (w.emit_record recordtype record data_frag_len).map fun e => (e.1, record.drop data_frag_len, e.2)

/-- `add_record`'s loop, while the record has bytes left (a `Vec<u8>`
    takes every write, so `result` stays `Ok`): the writer and the bytes of
    the last fragment. -/
def LogWriter.add_record_loop :
    Nat → LogWriter → List UInt8 → Bool → Nat → Option (LogWriter × Nat)
  | 0, w, _, _, result => some (w, result)
  | fuel + 1, w, record, first_frag, result =>
      if record.length > 0 then
        match w.add_record_step record first_frag with
        | none => none
        | some (w, record, s) => add_record_loop fuel w record false s
      else some (w, result)

theorem LogWriter.add_record_loop_zero (w : LogWriter) (record : List UInt8) (first_frag : Bool)
    (result : Nat) : w.add_record_loop 0 record first_frag result = some (w, result) := rfl

theorem LogWriter.add_record_loop_succ (fuel : Nat) (w : LogWriter) (record : List UInt8)
    (first_frag : Bool) (result : Nat) :
    w.add_record_loop (fuel + 1) record first_frag result =
      if record.length > 0 then
        match w.add_record_step record first_frag with
        | none => none
        | some (w, record, s) => w.add_record_loop fuel record false s
      else some (w, result) := rfl

/-- `add_record`.  A pass either takes a byte of the record or, with no
    room for data, ends the block, so that the next one takes a byte: two
    passes a byte are enough. -/
def LogWriter.add_record (w : LogWriter) (r : List UInt8) : Option (LogWriter × Nat) :=
  w.add_record_loop (2 * r.length + 1) r true 0

/-- Records added one after another, as the database's writes add them. -/
def LogWriter.add_records (w : LogWriter) : List (List UInt8) → Option LogWriter
  | [] => some w
  | r :: rs => (w.add_record r).bind fun e => e.1.add_records rs

theorem LogWriter.add_records_nil (w : LogWriter) : w.add_records [] = some w := rfl

theorem LogWriter.add_records_cons (w : LogWriter) (r : List UInt8) (rs : List (List UInt8)) :
    w.add_records (r :: rs) = (w.add_record r).bind fun e => e.1.add_records rs := rfl

/-! ## §3. `LogReader`. -/

/-- `LogReader` over a `&[u8]`: the bytes not yet read, the offset in the
    current block, the block size, the header buffer, and whether
    checksums are checked. -/
structure LogReader where
  src : List UInt8
  blk_off : Nat
  blocksize : Nat
  head_scratch : List UInt8
  checksums : Bool
  deriving DecidableEq, Repr

/-- `LogReader::new`. -/
def LogReader.new (src : List UInt8) (chksum : Bool) : LogReader :=
  ⟨src, 0, BLOCK_SIZE, List.replicate 7 0, chksum⟩

theorem LogReader.new_eq (src : List UInt8) (chksum : Bool) :
    LogReader.new src chksum = ⟨src, 0, BLOCK_SIZE, List.replicate 7 0, chksum⟩ := rfl

/-- `check_integrity`: the stored checksum, unmasked, is the CRC of the
    type and the data. -/
def check_integrity (typ : UInt8) (data : List UInt8) (expected : UInt32) : Bool :=
  unmask_crc expected == checksum_castagnoli (typ :: data)

theorem check_integrity_eq (typ : UInt8) (data : List UInt8) (expected : UInt32) :
    check_integrity typ data expected = (unmask_crc expected == checksum_castagnoli (typ :: data)) := rfl

/-- The skip at the head of `read`'s loop: a block's tail too short for a
    header is read into `head_scratch` and dropped.  `usize` subtraction
    wraps, so an offset past the block's end does not take it. -/
def LogReader.skip_tail (r : LogReader) : LogReader :=
  if r.blk_off ≤ r.blocksize ∧ r.blocksize - r.blk_off < HEADER_SIZE then
    let got := r.src.take (r.blocksize - r.blk_off)
    { r with src := r.src.drop (r.blocksize - r.blk_off),
             head_scratch := got ++ r.head_scratch.drop got.length, blk_off := 0 }
  else r

theorem LogReader.skip_tail_eq (r : LogReader) :
    r.skip_tail =
      if r.blk_off ≤ r.blocksize ∧ r.blocksize - r.blk_off < HEADER_SIZE then
        { r with src := r.src.drop (r.blocksize - r.blk_off),
                 head_scratch := r.src.take (r.blocksize - r.blk_off) ++
                   r.head_scratch.drop (r.src.take (r.blocksize - r.blk_off)).length,
                 blk_off := 0 }
      else r := rfl

/-- One pass of `read`'s loop with `dst` as read so far (`dst_offset` is
    its length throughout): `some` result to return, or `none` to go on.
    Each `read` of the slice copies what fits over the front of its buffer. -/
def LogReader.read_step (r : LogReader) (dst : List UInt8) :
    Option (Result Nat) × List UInt8 × LogReader :=
  let r := r.skip_tail
  let header := r.src.take HEADER_SIZE
  -- EOF
  if header.length = 0 then (some (.ok 0), dst, r)
  else
    let r := { r with src := r.src.drop HEADER_SIZE, blk_off := r.blk_off + header.length,
                      head_scratch := header ++ r.head_scratch.drop header.length }
    let checksum := (decode_fixed (r.head_scratch.take 4)).toUInt32
    let length := decode_fixed ((r.head_scratch.drop 4).take 2)
    let typ := r.head_scratch.getD 6 0
    let data := r.src.take length
    let r := { r with src := r.src.drop length, blk_off := r.blk_off + data.length }
    -- `dst.resize(dst_offset + length, 0)`, then the read over the new tail
    let dst := dst ++ data ++ List.replicate (length - data.length) 0
    if r.checksums && !check_integrity typ data checksum then
      (some (err .Corruption "Invalid Checksum"), dst, r)
    else if typ = RecordType.Full.code then (some (.ok dst.length), dst, r)
    else if typ = RecordType.First.code then (none, dst, r)
    else if typ = RecordType.Middle.code then (none, dst, r)
    else if typ = RecordType.Last.code then (some (.ok dst.length), dst, r)
    else (none, dst, r)

/-- `read`'s loop. -/
def LogReader.read_loop : Nat → LogReader → List UInt8 → Result Nat × List UInt8 × LogReader
  | 0, r, dst => (.ok 0, dst, r)
  | fuel + 1, r, dst =>
      match r.read_step dst with
      | (some res, dst, r) => (res, dst, r)
      | (none, dst, r) => read_loop fuel r dst

/-- `read`: `dst` cleared, then the loop; `Ok(0)` is the end of the log.  A
    pass that goes on has read a header byte, so the slice's length bounds
    the passes. -/
def LogReader.read (r : LogReader) : Result Nat × List UInt8 × LogReader :=
  r.read_loop (r.src.length + 1) []

theorem LogReader.read_eq (r : LogReader) : r.read = r.read_loop (r.src.length + 1) [] := rfl

/-- The loops that read a log back (`DBImpl::recover_log_file`,
    `VersionSet::recover`): `while let Ok(len) = logreader.read(..)`, up to
    `len == 0`; an error ends the loop too.  The records read. -/
def LogReader.read_records_fuel : Nat → LogReader → List (List UInt8)
  | 0, _ => []
  | fuel + 1, r =>
      match r.read with
      | (.ok 0, _, _) => []
      | (.ok _, record, r) => record :: read_records_fuel fuel r
      | (.error _, _, _) => []

/-- Each record read takes a header, so the slice's length bounds them. -/
def LogReader.read_records (r : LogReader) : List (List UInt8) :=
  r.read_records_fuel (r.src.length + 1)

theorem LogReader.read_records_eq (r : LogReader) :
    r.read_records = r.read_records_fuel (r.src.length + 1) := rfl

/-! ## §4. One fragment, written and read. -/

/-- A fragment's header: a stored checksum, the fragment's length, its
    type. -/
def header_with (c : UInt32) (t : RecordType) (frag : List UInt8) : List UInt8 :=
  encode_fixed 4 c.toNat ++ encode_fixed 2 frag.length ++ [t.code]

theorem header_with_eq (c : UInt32) (t : RecordType) (frag : List UInt8) :
    header_with c t frag = encode_fixed 4 c.toNat ++ encode_fixed 2 frag.length ++ [t.code] := rfl

/-- The header the writer gives a fragment: its masked CRC. -/
def header_bytes (t : RecordType) (frag : List UInt8) : List UInt8 :=
  header_with (mask_crc (checksum_castagnoli (t.code :: frag))) t frag

theorem header_bytes_eq (t : RecordType) (frag : List UInt8) :
    header_bytes t frag = header_with (mask_crc (checksum_castagnoli (t.code :: frag))) t frag := rfl

/-- What one pass of the writer lays down: the filled tail, the header, the
    fragment. -/
def fragment_bytes (pad : Nat) (t : RecordType) (frag : List UInt8) : List UInt8 :=
  List.replicate pad 0 ++ header_bytes t frag ++ frag

theorem fragment_bytes_eq (pad : Nat) (t : RecordType) (frag : List UInt8) :
    fragment_bytes pad t frag = List.replicate pad 0 ++ header_bytes t frag ++ frag := rfl

/-- The zeros that fill the block before a fragment at offset `o`. -/
def pad_len (bs o : Nat) : Nat := if bs - o < HEADER_SIZE then bs - o else 0

theorem pad_len_eq (bs o : Nat) : pad_len bs o = if bs - o < HEADER_SIZE then bs - o else 0 := rfl

/-- Where the header of a fragment at offset `o` starts. -/
def frag_start (bs o : Nat) : Nat := if bs - o < HEADER_SIZE then 0 else o

theorem frag_start_eq (bs o : Nat) : frag_start bs o = if bs - o < HEADER_SIZE then 0 else o := rfl

/-- How much of `n` bytes left of a record the fragment at offset `o` takes. -/
def frag_len (bs o n : Nat) : Nat := min n (bs - frag_start bs o - HEADER_SIZE)

theorem frag_len_eq (bs o n : Nat) : frag_len bs o n = min n (bs - frag_start bs o - HEADER_SIZE) := rfl

/-- The type of a fragment from whether it starts and whether it ends its
    record. -/
def fragment_type : Bool → Bool → RecordType
  | true, true => .Full
  | true, false => .First
  | false, true => .Last
  | false, false => .Middle

/-- The fragments at which `read` returns. -/
def RecordType.ends : RecordType → Bool
  | .Full => true
  | .Last => true
  | _ => false

@[simp] theorem ends_fragment_type (first_frag last_frag : Bool) :
    (fragment_type first_frag last_frag).ends = last_frag := by
  cases first_frag <;> cases last_frag <;> rfl

@[simp] theorem length_header_with (c : UInt32) (t : RecordType) (frag : List UInt8) :
    (header_with c t frag).length = HEADER_SIZE := by
  simp [header_with_eq, HEADER_SIZE_eq]

@[simp] theorem length_header_bytes (t : RecordType) (frag : List UInt8) :
    (header_bytes t frag).length = HEADER_SIZE :=
  length_header_with _ _ _

@[simp] theorem length_fragment_bytes (pad : Nat) (t : RecordType) (frag : List UInt8) :
    (fragment_bytes pad t frag).length = pad + HEADER_SIZE + frag.length := by
  simp [fragment_bytes_eq, Nat.add_assoc]

theorem frag_len_le (bs o n : Nat) : frag_len bs o n ≤ n := Nat.min_le_left _ _

theorem frag_start_add_le (hbs : HEADER_SIZE < bs) (o n : Nat) :
    frag_start bs o + HEADER_SIZE + frag_len bs o n ≤ bs := by
  have h7 := HEADER_SIZE_eq
  rw [frag_len_eq, frag_start_eq]
  split_ifs <;> omega

section Writer

variable {w : LogWriter}

/-- The type `add_record` gives a fragment, as its chain of tests has it. -/
theorem record_type_eq (first_frag : Bool) (len n : Nat) :
    (if first_frag = true ∧ len = n then RecordType.Full
      else if first_frag = true then RecordType.First
      else if len = n then RecordType.Last
      else RecordType.Middle) = fragment_type first_frag (decide (len = n)) := by
  cases first_frag <;> by_cases h : len = n <;> simp [fragment_type, h]

/-- The writer after the filling of a block's tail too short for a header. -/
theorem fill_tail_eq (w : LogWriter) :
    (if w.block_size - w.current_block_offset < HEADER_SIZE then
        { w with dst := w.dst ++ (List.replicate 6 0).take (w.block_size - w.current_block_offset),
                 current_block_offset := 0 }
      else w) =
      { w with dst := w.dst ++ List.replicate (pad_len w.block_size w.current_block_offset) 0,
               current_block_offset := frag_start w.block_size w.current_block_offset } := by
  have h7 := HEADER_SIZE_eq
  rw [pad_len_eq, frag_start_eq]
  split_ifs with h
  · have hmin : min (w.block_size - w.current_block_offset) 6 = w.block_size - w.current_block_offset := by
      omega
    rw [List.take_replicate, hmin]
  · simp

theorem emit_record_eq (t : RecordType) {data : List UInt8} {len : Nat} (hle : len ≤ data.length)
    (hlen : len < 256 * 256) :
    w.emit_record t data len = some ({ w with
        dst := w.dst ++ (header_bytes t (data.take len) ++ data.take len),
        current_block_offset := w.current_block_offset + (HEADER_SIZE + len) },
      HEADER_SIZE + len) := by
  have htake : (data.take len).length = len := List.length_take_of_le hle
  simp [LogWriter.emit_record, hlen, header_bytes_eq, header_with_eq, htake, HEADER_SIZE_eq]
  omega

/-- **One pass of the writer**: on a block size that leaves room for data
    after a header, the tail of the block is filled if too short, and the
    fragment that fits is emitted with its header. -/
theorem add_record_step_eq (hbs : HEADER_SIZE < w.block_size)
    (hmax : w.block_size - HEADER_SIZE < 256 * 256) (record : List UInt8) (first_frag : Bool) :
    w.add_record_step record first_frag =
      let len := frag_len w.block_size w.current_block_offset record.length
      some ({ w with
          dst := w.dst ++ fragment_bytes (pad_len w.block_size w.current_block_offset)
            (fragment_type first_frag (decide (len = record.length))) (record.take len),
          current_block_offset := frag_start w.block_size w.current_block_offset + HEADER_SIZE + len },
        record.drop len, HEADER_SIZE + len) := by
  have hle := frag_len_le w.block_size w.current_block_offset record.length
  have hlen : frag_len w.block_size w.current_block_offset record.length < 256 * 256 := by
    rw [frag_len_eq]
    omega
  -- `data_frag_len` is `frag_len`, at the offset the filling left
  have hmin : (if record.length < w.block_size - frag_start w.block_size w.current_block_offset -
        HEADER_SIZE then record.length
      else w.block_size - frag_start w.block_size w.current_block_offset - HEADER_SIZE) =
      frag_len w.block_size w.current_block_offset record.length := by
    rw [frag_len_eq]
    split_ifs <;> omega
  unfold LogWriter.add_record_step
  rw [if_neg (by omega)]
  dsimp only
  rw [fill_tail_eq]
  dsimp only
  rw [hmin, record_type_eq, emit_record_eq _ hle hlen]
  simp [fragment_bytes_eq, Nat.add_assoc]

end Writer

/-! ### The reader's pass over a fragment. -/

theorem take_header_checksum (c : UInt32) (t : RecordType) (frag x : List UInt8) :
    (header_with c t frag ++ x).take 4 = encode_fixed 4 c.toNat := by
  simp [header_with_eq]

theorem take_header_length (c : UInt32) (t : RecordType) (frag x : List UInt8) :
    ((header_with c t frag ++ x).drop 4).take 2 = encode_fixed 2 frag.length := by
  simp [header_with_eq]

theorem getD_header_type (c : UInt32) (t : RecordType) (frag x : List UInt8) :
    (header_with c t frag ++ x).getD 6 0 = t.code := by
  -- the type is the byte after the four of the checksum and the two of the length
  have hsplit : header_with c t frag ++ x =
      (encode_fixed 4 c.toNat ++ encode_fixed 2 frag.length) ++ t.code :: x := by
    simp [header_with_eq]
  rw [hsplit, List.getD_append_right _ _ _ _ (by simp)]
  simp

/-- The stored checksum reads back. -/
theorem decode_checksum (c : UInt32) : (decode_fixed (encode_fixed 4 c.toNat)).toUInt32 = c := by
  rw [decode_encode_fixed, Nat.mod_eq_of_lt (by simpa using c.toNat_lt)]
  exact UInt32.ofNat_toNat

/-- The skip over the filled tail before a fragment. -/
theorem skip_tail_pad {r : LogReader} {rest : List UInt8} (ho : r.blk_off ≤ r.blocksize)
    (hsrc : r.src = List.replicate (pad_len r.blocksize r.blk_off) 0 ++ rest) :
    ∃ scratch, r.skip_tail =
      { r with src := rest, blk_off := frag_start r.blocksize r.blk_off, head_scratch := scratch } := by
  rw [LogReader.skip_tail_eq]
  by_cases hsp : r.blocksize - r.blk_off < HEADER_SIZE
  · -- the tail is read into `head_scratch` and dropped
    have hpad : pad_len r.blocksize r.blk_off = r.blocksize - r.blk_off := if_pos hsp
    rw [hpad] at hsrc
    rw [if_pos ⟨ho, hsp⟩]
    refine ⟨List.replicate (r.blocksize - r.blk_off) 0 ++ r.head_scratch.drop (r.blocksize - r.blk_off),
      ?_⟩
    simp [hsrc, frag_start_eq, hsp]
  · -- no tail: the fragment's header is next
    have hpad : pad_len r.blocksize r.blk_off = 0 := if_neg hsp
    rw [hpad, List.replicate_zero, List.nil_append] at hsrc
    rw [if_neg (fun h => hsp h.2)]
    refine ⟨r.head_scratch, ?_⟩
    cases r
    simp_all [frag_start_eq]

/-- One pass of the reader over a header with a stored checksum `c`: the
    fragment is read into `dst`, and the pass fails if the checksum is
    checked and wrong, returns if the fragment ends its record, and goes on
    otherwise. -/
theorem read_step_header {r : LogReader} {rest : List UInt8} {c : UInt32} {t : RecordType}
    {frag : List UInt8} (ho : r.blk_off ≤ r.blocksize) (hfrag : frag.length < 256 * 256)
    (hsrc : r.src = List.replicate (pad_len r.blocksize r.blk_off) 0 ++
      (header_with c t frag ++ (frag ++ rest))) (dst : List UInt8) :
    ∃ scratch, r.read_step dst =
      (if r.checksums && !check_integrity t.code frag c then some (err .Corruption "Invalid Checksum")
        else if t.ends then some (.ok (dst ++ frag).length) else none,
       dst ++ frag,
       { r with src := rest, blk_off := frag_start r.blocksize r.blk_off + HEADER_SIZE + frag.length,
                head_scratch := scratch }) := by
  obtain ⟨scratch₀, hskip⟩ := skip_tail_pad ho hsrc
  refine ⟨header_with c t frag ++ scratch₀.drop HEADER_SIZE, ?_⟩
  unfold LogReader.read_step
  rw [hskip]
  dsimp only
  -- the header is whole, and announces the fragment
  have hhead : (header_with c t frag ++ (frag ++ rest)).take HEADER_SIZE = header_with c t frag :=
    List.take_left' (length_header_with c t frag)
  have hafter : (header_with c t frag ++ (frag ++ rest)).drop HEADER_SIZE = frag ++ rest :=
    List.drop_left' (length_header_with c t frag)
  have hlen : decode_fixed (encode_fixed 2 frag.length) = frag.length := by
    rw [decode_encode_fixed]
    exact Nat.mod_eq_of_lt hfrag
  rw [hhead, hafter, length_header_with, if_neg (by decide)]
  simp only [take_header_checksum, take_header_length, getD_header_type, decode_checksum, hlen,
    List.take_left', List.drop_left', Nat.sub_self, List.replicate_zero,
    List.append_nil]
  -- the same check on both sides; past it, the type decides
  by_cases hcheck : (r.checksums && !check_integrity t.code frag c) = true
  · simp only [hcheck, if_true]
  · simp only [hcheck, Bool.false_eq_true, if_false]
    cases t <;> simp [RecordType.code, RecordType.ends]

/-- **One pass of the reader**: over what the writer laid down for a
    fragment, the reader reads the fragment into `dst`, passes the check
    of its CRC, and returns when the fragment ends its record. -/
theorem read_step_fragment {r : LogReader} {rest : List UInt8} {t : RecordType}
    {frag : List UInt8} (ho : r.blk_off ≤ r.blocksize) (hfrag : frag.length < 256 * 256)
    (hsrc : r.src = fragment_bytes (pad_len r.blocksize r.blk_off) t frag ++ rest) (dst : List UInt8) :
    ∃ scratch, r.read_step dst =
      (if t.ends then some (.ok (dst ++ frag).length) else none, dst ++ frag,
        { r with src := rest, blk_off := frag_start r.blocksize r.blk_off + HEADER_SIZE + frag.length,
                 head_scratch := scratch }) := by
  have hcheck : check_integrity t.code frag (mask_crc (checksum_castagnoli (t.code :: frag))) = true := by
    simp [check_integrity_eq, unmask_mask_crc]
  obtain ⟨scratch, hstep⟩ := read_step_header ho hfrag
    (show r.src = List.replicate (pad_len r.blocksize r.blk_off) 0 ++
        (header_with (mask_crc (checksum_castagnoli (t.code :: frag))) t frag ++ (frag ++ rest)) by
      simp [hsrc, fragment_bytes_eq, header_bytes_eq]) dst
  refine ⟨scratch, ?_⟩
  rw [hstep, hcheck]
  simp

/-- At the end of the slice, `read` returns `Ok(0)`. -/
theorem read_step_eof {r : LogReader} (hsrc : r.src = []) (dst : List UInt8) :
    ∃ r', r.read_step dst = (some (.ok 0), dst, r') := by
  have hskip : r.skip_tail.src = [] := by
    rw [LogReader.skip_tail_eq]
    split_ifs <;> simp [hsrc]
  refine ⟨r.skip_tail, ?_⟩
  simp [LogReader.read_step, hskip]

end Teaclave.Leveldb
