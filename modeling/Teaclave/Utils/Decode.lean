/-
  Teaclave.Utils.Decode
  ─────────────────────
  **THE DECODERS OF `teaclave_utils`: HEX, THE SPID, PERCENT ESCAPES.**

  `teaclave_utils/src/lib.rs`.  A `&str` is the list of its characters
  (`Lib.RustStd`); a panic is `none`, and `UtilsError` the `Err` the
  functions return.

    • `decode_hex` reads two hex digits per byte and skips a space only
      where a byte may start; `decode_spid` trims, asks for 32 bytes of
      text, decodes, and slices the first 16 bytes.  `decode_hex_iff`: it
      accepts exactly the texts `HexSpaced` derives, with their bytes.
      `decode_spid_ok_iff`: `Ok` exactly for at least 16 such bytes, and
      `decode_spid_eq_none_iff`: a panic exactly for fewer.  The length
      test counts characters and the slice counts bytes, so eleven spaced
      bytes, 32 characters, which `RuntimeConfig` admits, make
      `decoded_vec[..16]` panic (`decode_spid_spaced_panics`).
    • `percent_decode` removes `%0A`, splits on `%`, and reads the first two
      bytes of each later piece as a hex byte.  On a text of plain
      characters and `%XY` escapes it decodes every escape
      (`percent_decode_escaped`); a `%` at the end makes `&s[0..2]` panic
      (`percent_decode_panics`, `percent_decode_pct_last`).
-/
import Teaclave.Lib.RustStd

namespace Teaclave.Utils

open Teaclave.Lib

/-! ## §1. The functions. -/

inductive UtilsError where
  | ParseError
  deriving DecidableEq, Repr

/-- `decode_hex_digit`: `digit as u8` less the code of the range's first
    digit. -/
def decode_hex_digit (digit : Char) : Except UtilsError UInt8 :=
  if '0' ≤ digit ∧ digit ≤ '9' then .ok (digit.toUInt8 - '0'.toUInt8)
  else if 'a' ≤ digit ∧ digit ≤ 'f' then .ok (digit.toUInt8 - 'a'.toUInt8 + 10)
  else if 'A' ≤ digit ∧ digit ≤ 'F' then .ok (digit.toUInt8 - 'A'.toUInt8 + 10)
  else .error .ParseError

/-- The `loop` of `decode_hex` on the characters left, `r` the bytes so far:
    a space where a byte may start is skipped, a lone last character is an
    error. -/
def decode_hex_loop (r : List UInt8) : List Char → Except UtilsError (List UInt8)
  | [] => .ok r
  | ' ' :: rest => decode_hex_loop r rest
  | _ :: [] => .error .ParseError
  | first :: second :: rest => do
      let hi ← decode_hex_digit first
      let lo ← decode_hex_digit second
      decode_hex_loop (r ++ [(hi <<< 4) ||| lo]) rest

theorem decode_hex_loop_nil (r : List UInt8) : decode_hex_loop r [] = .ok r := rfl

theorem decode_hex_loop_space (r : List UInt8) (rest : List Char) :
    decode_hex_loop r (' ' :: rest) = decode_hex_loop r rest := rfl

/-- `decode_hex`. -/
def decode_hex (hex : List Char) : Except UtilsError (List UInt8) := decode_hex_loop [] hex

/-- `sgx_types::sgx_spid_t`. -/
structure sgx_spid_t where
  id : List.Vector UInt8 16
  deriving DecidableEq

/-- `decode_spid`: `none` is the panic of `&decoded_vec[..16]` on fewer
    than 16 decoded bytes. -/
def decode_spid (hex : List Char) : Option (Except UtilsError sgx_spid_t) :=
  let hex := trim hex
  if utf8_len hex < 16 * 2 then some (.error .ParseError)
  else
    match decode_hex hex with
    | .error e => some (.error e)
    | .ok decoded_vec =>
        if h : 16 ≤ decoded_vec.length then
          some (.ok ⟨⟨decoded_vec.take 16, by simp; omega⟩⟩)
        else none

theorem decode_spid_eq (hex : List Char) :
    decode_spid hex =
      if utf8_len (trim hex) < 16 * 2 then some (.error .ParseError)
      else
        match decode_hex (trim hex) with
        | .error e => some (.error e)
        | .ok decoded_vec =>
            if h : 16 ≤ decoded_vec.length then
              some (.ok ⟨⟨decoded_vec.take 16, by simp; omega⟩⟩)
            else none := rfl

/-- The `IAS_SPID` part of `RuntimeConfig::from_toml`: the variable trimmed,
    and refused unless 32 bytes long. -/
def runtime_config_ias_spid (ias_spid : List Char) : Option (List Char) :=
  let ias_spid := trim ias_spid
  if utf8_len ias_spid ≠ 32 then none else some ias_spid

/-- The loop of `percent_decode` over the pieces after the first: the first
    two bytes of each are a hex byte, pushed as a character, and the rest
    follows it. -/
def decode_pieces (ret : List Char) : List (List Char) → Option (Except UtilsError (List Char))
  | [] => some (.ok ret)
  | s :: v => do
      -- `&s[0..2]` and `&s[2..]`: a panic off the text or inside a character
      let (digits, rest) ← split_at_byte s 2
      match u8_from_str_radix digits 16 with
      | none => some (.error .ParseError)
      | some digit => decode_pieces (ret ++ [char_of_u8 digit] ++ rest) v

theorem decode_pieces_nil (ret : List Char) : decode_pieces ret [] = some (.ok ret) := rfl

theorem decode_pieces_cons (ret s : List Char) (v : List (List Char)) :
    decode_pieces ret (s :: v) = (do
      let (digits, rest) ← split_at_byte s 2
      match u8_from_str_radix digits 16 with
      | none => some (.error .ParseError)
      | some digit => decode_pieces (ret ++ [char_of_u8 digit] ++ rest) v) := rfl

/-- `percent_decode`. -/
def percent_decode (orig : List Char) : Option (Except UtilsError (List Char)) :=
  let orig := replace orig ['%', '0', 'A'] []
  -- `v[0]`: `split` gives at least one piece
  match orig.splitOn '%' with
  | [] => none
  | v0 :: v => decode_pieces v0 v

theorem percent_decode_eq (orig : List Char) :
    percent_decode orig =
      match (replace orig ['%', '0', 'A'] []).splitOn '%' with
      | [] => none
      | v0 :: v => decode_pieces v0 v := rfl

/-- **A `%` with nothing after it panics**: the piece after it is empty,
    and `&s[0..2]` is out of range. -/
theorem percent_decode_panics : percent_decode ['%'] = none := by
  decide

/-! ## §2. One hex digit. -/

theorem toNat_toUInt8 (c : Char) : c.toUInt8.toNat = c.toNat % 256 := by
  rw [← Char.toUInt8_val, UInt32.toNat_toUInt8]
  rfl

/-- `digit as u8 - base` for a digit at or after `base`: no wrap-around. -/
theorem toNat_toUInt8_sub {c base : Char} (h : base.toNat ≤ c.toNat) (hc : c.toNat < 256) :
    (c.toUInt8 - base.toUInt8).toNat = c.toNat - base.toNat := by
  have hle : base.toUInt8 ≤ c.toUInt8 := by
    rw [UInt8.le_iff_toNat_le, toNat_toUInt8, toNat_toUInt8]
    omega
  rw [UInt8.toNat_sub_of_le _ _ hle, toNat_toUInt8, toNat_toUInt8]
  omega

/-- **`decode_hex_digit` is `to_digit` in radix 16.** -/
theorem decode_hex_digit_eq (c : Char) :
    decode_hex_digit c =
      match to_digit c 16 with
      | some d => .ok (UInt8.ofNat d)
      | none => .error .ParseError := by
  have hle : ∀ a b : Char, a ≤ b ↔ a.toNat ≤ b.toNat := fun _ _ => Iff.rfl
  have h0 : '0'.toNat = 48 := rfl
  have h9 : '9'.toNat = 57 := rfl
  have ha : 'a'.toNat = 97 := rfl
  have hf : 'f'.toNat = 102 := rfl
  have hz : 'z'.toNat = 122 := rfl
  have hA : 'A'.toNat = 65 := rfl
  have hF : 'F'.toNat = 70 := rfl
  have hZ : 'Z'.toNat = 90 := rfl
  rw [to_digit_eq]
  unfold decode_hex_digit
  simp only [hle, h0, h9, ha, hf, hz, hA, hF, hZ]
  -- the ranges agree on `0-9`, `a-f` and `A-F`; a letter past `f` is a
  -- digit of `16` or more, which `to_digit` refuses in radix 16
  split_ifs <;> first | omega | rfl | skip
  · -- `0` to `9`
    congr 1
    apply UInt8.toNat_inj.mp
    rw [toNat_toUInt8_sub (by omega) (by omega), h0, UInt8.toNat_ofNat']
    omega
  · -- `a` to `f`
    congr 1
    apply UInt8.toNat_inj.mp
    rw [UInt8.toNat_add, toNat_toUInt8_sub (by omega) (by omega), ha, UInt8.toNat_ofNat']
    simp only [UInt8.reduceToNat]
  · -- `A` to `F`
    congr 1
    apply UInt8.toNat_inj.mp
    rw [UInt8.toNat_add, toNat_toUInt8_sub (by omega) (by omega), hA, UInt8.toNat_ofNat']
    simp only [UInt8.reduceToNat]

theorem to_digit_lt {c : Char} {radix d : Nat} (h : to_digit c radix = some d) : d < radix := by
  rw [to_digit_eq] at h
  obtain ⟨hlt, hd⟩ := Option.ite_none_right_eq_some.mp h
  rw [← Option.some.inj hd]
  exact hlt

/-- A character `to_digit` reads is an ASCII digit or letter. -/
theorem to_digit_range {c : Char} {radix d : Nat} (h : to_digit c radix = some d) :
    ('0' ≤ c ∧ c ≤ '9') ∨ ('a' ≤ c ∧ c ≤ 'z') ∨ ('A' ≤ c ∧ c ≤ 'Z') := by
  rw [to_digit_eq] at h
  obtain ⟨hlt, -⟩ := Option.ite_none_right_eq_some.mp h
  -- outside the three ranges the digit is `radix`, which is not below `radix`
  split_ifs at hlt with h1 h2 h3
  · exact Or.inl h1
  · exact Or.inr (Or.inl h2)
  · exact Or.inr (Or.inr h3)
  · omega

/-- A digit is one byte of text, and not `%`, `+` or a space. -/
theorem to_digit_char {c : Char} {radix d : Nat} (h : to_digit c radix = some d) :
    c.utf8Size = 1 ∧ c ≠ '%' ∧ c ≠ '+' ∧ c ≠ ' ' := by
  have hle : ∀ a b : Char, a ≤ b ↔ a.toNat ≤ b.toNat := fun _ _ => Iff.rfl
  have hr := to_digit_range h
  simp only [hle, Char.reduceToNat] at hr
  refine ⟨Char.utf8Size_eq_one_iff.mpr ?_, ?_, ?_, ?_⟩
  · rw [UInt32.le_iff_toNat_le, Char.toNat_val]
    simp only [UInt32.reduceToNat]
    omega
  all_goals
    rintro rfl
    revert hr
    decide

/-! ## §3. What `decode_hex` accepts. -/

/-- The byte two hex digits stand for, the first the high half. -/
def hex_byte (hi lo : Char) : Option UInt8 := do
  let h ← to_digit hi 16
  let l ← to_digit lo 16
  pure (UInt8.ofNat (16 * h + l))

theorem hex_byte_eq (hi lo : Char) :
    hex_byte hi lo = (do
      let h ← to_digit hi 16
      let l ← to_digit lo 16
      pure (UInt8.ofNat (16 * h + l))) := rfl

theorem hex_byte_eq_some {hi lo : Char} {b : UInt8} (h : hex_byte hi lo = some b) :
    ∃ dh dl, to_digit hi 16 = some dh ∧ to_digit lo 16 = some dl ∧ b = UInt8.ofNat (16 * dh + dl) := by
  rw [hex_byte_eq] at h
  cases hh : to_digit hi 16 with
  | none =>
    rw [hh] at h
    cases h
  | some dh =>
    cases hl : to_digit lo 16 with
    | none =>
      rw [hh, hl] at h
      cases h
    | some dl =>
      rw [hh, hl] at h
      exact ⟨dh, dl, rfl, rfl, (Option.some.inj h).symm⟩

theorem shiftLeft_or_digit {h l : Nat} (hh : h < 16) (hl : l < 16) :
    (UInt8.ofNat h <<< 4 ||| UInt8.ofNat l) = UInt8.ofNat (16 * h + l) := by
  have all : ∀ h l : Fin 16,
      (UInt8.ofNat h.val <<< 4 ||| UInt8.ofNat l.val) = UInt8.ofNat (16 * h.val + l.val) := by
    decide
  exact all ⟨h, hh⟩ ⟨l, hl⟩

/-- Two digits read by `decode_hex_digit` and joined as `decode_hex` joins
    them are `hex_byte`. -/
theorem decode_hex_pair {β : Type} (hi lo : Char) (k : UInt8 → Except UtilsError β) :
    (do
      let x ← decode_hex_digit hi
      let y ← decode_hex_digit lo
      k ((x <<< 4) ||| y)) =
      match hex_byte hi lo with
      | some b => k b
      | none => .error .ParseError := by
  rw [decode_hex_digit_eq, decode_hex_digit_eq]
  rw [hex_byte_eq]
  cases hh : to_digit hi 16 with
  | none => rfl
  | some h =>
    cases hl : to_digit lo 16 with
    | none => rfl
    | some l =>
      show k _ = k _
      rw [shiftLeft_or_digit (to_digit_lt hh) (to_digit_lt hl)]

/-- The texts `decode_hex` reads, with the bytes they stand for: spaces
    where a byte may start, and pairs of hex digits of either case. -/
inductive HexSpaced : List Char → List UInt8 → Prop
  | nil : HexSpaced [] []
  | space {s bs} : HexSpaced s bs → HexSpaced (' ' :: s) bs
  | byte {hi lo b s bs} : hex_byte hi lo = some b → HexSpaced s bs → HexSpaced (hi :: lo :: s) (b :: bs)

theorem decode_hex_loop_pair {first : Char} (h : first ≠ ' ') (r : List UInt8) (second : Char)
    (rest : List Char) :
    decode_hex_loop r (first :: second :: rest) =
      match hex_byte first second with
      | some b => decode_hex_loop (r ++ [b]) rest
      | none => .error .ParseError := by
  rw [← decode_hex_pair]
  -- `h` rules out the branch of a space, which the match tries first
  simp [decode_hex_loop]

/-- Every text `decode_hex` accepts is derived, with the bytes it returns. -/
theorem decode_hex_loop_spaced {r out : List UInt8} {s : List Char} (h : decode_hex_loop r s = .ok out) :
    ∃ bs, HexSpaced s bs ∧ out = r ++ bs := by
  fun_induction decode_hex_loop r s with
  | case1 r =>
    cases h
    exact ⟨[], .nil, by simp⟩
  | case2 r rest ih =>
    obtain ⟨bs, hs, rfl⟩ := ih h
    exact ⟨bs, .space hs, rfl⟩
  | case3 r c =>
    cases h
  | case4 r first second rest hne ih =>
    -- the two digits are the byte `hex_byte` reads, and the loop goes on after it
    rw [decode_hex_pair first second (fun b => decode_hex_loop (r ++ [b]) rest)] at h
    cases hb : hex_byte first second with
    | none =>
      rw [hb] at h
      cases h
    | some b =>
      rw [hb] at h
      obtain ⟨dh, dl, hh, hl, rfl⟩ := hex_byte_eq_some hb
      have hor := shiftLeft_or_digit (to_digit_lt hh) (to_digit_lt hl)
      rw [← hor] at h
      obtain ⟨bs, hs, rfl⟩ := ih _ _ h
      exact ⟨_ :: bs, .byte hb hs, by rw [hor]; simp⟩

/-- Every derived text is accepted, with its bytes. -/
theorem decode_hex_loop_of_spaced {s : List Char} {bs : List UInt8} (h : HexSpaced s bs) (r : List UInt8) :
    decode_hex_loop r s = .ok (r ++ bs) := by
  induction h generalizing r with
  | nil => simp [decode_hex_loop_nil]
  | space _ ih => simpa [decode_hex_loop_space] using ih r
  | @byte hi lo b s bs hb _ ih =>
    obtain ⟨dh, dl, hh, -, -⟩ := hex_byte_eq_some hb
    rw [decode_hex_loop_pair (to_digit_char hh).2.2.2, hb]
    simpa using ih (r ++ [b])

/-- **`decode_hex` accepts exactly the texts `HexSpaced` derives**, and
    returns their bytes. -/
theorem decode_hex_iff (hex : List Char) (out : List UInt8) :
    decode_hex hex = .ok out ↔ HexSpaced hex out := by
  unfold decode_hex
  constructor
  · intro h
    obtain ⟨bs, hs, rfl⟩ := decode_hex_loop_spaced h
    simpa using hs
  · intro h
    simpa using decode_hex_loop_of_spaced h []

theorem HexSpaced.unique {s : List Char} {bs bs' : List UInt8} (h : HexSpaced s bs)
    (h' : HexSpaced s bs') : bs = bs' := by
  have e := ((decode_hex_iff s bs).mpr h).symm.trans ((decode_hex_iff s bs').mpr h')
  exact Except.ok.inj e

/-- The bytes `decode_hex` returned are the only ones the text derives. -/
theorem spaced_iff_of_decode_hex {s : List Char} {v : List UInt8} (hd : decode_hex s = .ok v)
    (bs : List UInt8) : HexSpaced s bs ↔ bs = v :=
  ⟨fun hs => hs.unique ((decode_hex_iff s v).mp hd), fun h => h ▸ (decode_hex_iff s v).mp hd⟩

/-- A text `decode_hex` refuses derives nothing. -/
theorem not_spaced_of_decode_hex {s : List Char} {e : UtilsError} (hd : decode_hex s = .error e)
    (bs : List UInt8) : ¬ HexSpaced s bs := by
  intro hs
  rw [(decode_hex_iff s bs).mpr hs] at hd
  cases hd

/-- Each byte takes two characters of text, each at least one byte long. -/
theorem HexSpaced.two_mul_length_le {s : List Char} {bs : List UInt8} (h : HexSpaced s bs) :
    2 * bs.length ≤ utf8_len s := by
  induction h with
  | nil => simp
  | space _ ih =>
    simp only [utf8_len_cons]
    omega
  | @byte hi lo _ _ _ _ _ ih =>
    have h1 := Char.utf8Size_pos hi
    have h2 := Char.utf8Size_pos lo
    simp only [utf8_len_cons, List.length_cons]
    omega

/-! ## §4. `decode_spid`. -/

theorem sgx_spid_t.ext_toList {a b : sgx_spid_t} (h : a.id.toList = b.id.toList) : a = b := by
  cases a
  cases b
  congr
  exact List.Vector.toList_injective h

/-- **`decode_spid` returns `Ok` exactly on a text that trims to at least
    16 hex bytes**, and the SPID is the first 16 of them.  The length test
    refuses nothing more: 16 bytes take 32 characters. -/
theorem decode_spid_ok_iff (hex : List Char) (spid : sgx_spid_t) :
    decode_spid hex = some (.ok spid) ↔
      ∃ bs, HexSpaced (trim hex) bs ∧ 16 ≤ bs.length ∧ spid.id.toList = bs.take 16 := by
  rw [decode_spid_eq]
  by_cases hlen : utf8_len (trim hex) < 16 * 2
  · -- too short for the test, and too short for 16 bytes
    rw [if_pos hlen]
    simp only [Option.some.injEq, reduceCtorEq, false_iff]
    rintro ⟨bs, hs, hl, -⟩
    have := hs.two_mul_length_le
    omega
  · rw [if_neg hlen]
    cases hd : decode_hex (trim hex) with
    | error e =>
      simp only [Option.some.injEq, reduceCtorEq, false_iff]
      rintro ⟨bs, hs, -⟩
      exact not_spaced_of_decode_hex hd bs hs
    | ok v =>
      -- the bytes of a text are unique, so the right side speaks of `v`
      simp only [spaced_iff_of_decode_hex hd, exists_eq_left]
      split
      · rename_i h16
        simp only [h16, true_and, Option.some.injEq, Except.ok.injEq]
        constructor
        · rintro rfl
          rfl
        · intro hid
          exact sgx_spid_t.ext_toList hid.symm
      · rename_i h16
        simp only [h16, false_and, reduceCtorEq]

/-- **`decode_spid` panics exactly on a text of at least 32 bytes that
    trims to fewer than 16 hex bytes.** -/
theorem decode_spid_eq_none_iff (hex : List Char) :
    decode_spid hex = none ↔
      32 ≤ utf8_len (trim hex) ∧ ∃ bs, HexSpaced (trim hex) bs ∧ bs.length < 16 := by
  rw [decode_spid_eq]
  by_cases hlen : utf8_len (trim hex) < 16 * 2
  · rw [if_pos hlen]
    simp only [reduceCtorEq, false_iff, not_and]
    omega
  · rw [if_neg hlen]
    cases hd : decode_hex (trim hex) with
    | error e =>
      simp only [reduceCtorEq, false_iff, not_and, not_exists]
      exact fun _ bs hs => absurd hs (not_spaced_of_decode_hex hd bs)
    | ok v =>
      simp only [spaced_iff_of_decode_hex hd, exists_eq_left]
      split
      · rename_i h16
        simp only [reduceCtorEq, false_iff, not_and, not_lt]
        exact fun _ => h16
      · rename_i h16
        simp only [true_iff]
        omega

/-- Eleven zero bytes with a space between each two, `"00 00 … 00"`:
    32 characters. -/
def spaced_spid : List Char := ['0', '0'] ++ (List.replicate 10 [' ', '0', '0']).flatten

/-- **`RuntimeConfig` admits a SPID on which `decode_spid` panics.**  The
    text is 32 bytes long, so both length tests pass, but it decodes to
    eleven bytes and `&decoded_vec[..16]` is out of range. -/
theorem decode_spid_spaced_panics :
    runtime_config_ias_spid spaced_spid = some spaced_spid ∧ decode_spid spaced_spid = none := by
  decide

/-! ## §5. `percent_decode`. -/

/-- `u8::from_str_radix` reads two hex digits as `hex_byte` does: neither
    is a sign. -/
theorem u8_from_str_radix_hex {hi lo : Char} {b : UInt8} (h : hex_byte hi lo = some b) :
    u8_from_str_radix [hi, lo] 16 = some b := by
  obtain ⟨dh, dl, hh, hl, rfl⟩ := hex_byte_eq_some h
  have hplus := (to_digit_char hh).2.2.1
  have hdh := to_digit_lt hh
  have hdl := to_digit_lt hl
  -- `parse_radix` reads `(0 * 16 + dh) * 16 + dl`
  have hlt : dh * 16 + dl < 256 := by omega
  simp [u8_from_str_radix, hplus, parse_radix, hh, hl, hlt, Nat.toUInt8_eq, Nat.mul_comm]

/-- One escape: its two digits are one byte each, the byte is pushed as a
    character, and the piece's rest follows. -/
theorem decode_pieces_escape {hi lo : Char} {b : UInt8} (h : hex_byte hi lo = some b)
    (ret rest : List Char) (v : List (List Char)) :
    decode_pieces ret ((hi :: lo :: rest) :: v) = decode_pieces (ret ++ [char_of_u8 b] ++ rest) v := by
  obtain ⟨dh, dl, hh, hl, -⟩ := hex_byte_eq_some h
  simp only [decode_pieces_cons, split_at_byte_two (to_digit_char hh).1 (to_digit_char hl).1,
    Option.bind_eq_bind, Option.bind_some, u8_from_str_radix_hex h]

/-- A piece of a percent-encoded text: a character other than `%`, or `%`
    and two hex digits with the byte they stand for. -/
inductive PctPiece where
  | plain (c : Char) (not_pct : c ≠ '%')
  | escape (hi lo : Char) (b : UInt8) (hex : hex_byte hi lo = some b)

/-- A piece as written. -/
def PctPiece.text : PctPiece → List Char
  | .plain c _ => [c]
  | .escape hi lo _ _ => ['%', hi, lo]

/-- A piece as decoded: an escape is the character of its byte. -/
def PctPiece.decoded : PctPiece → List Char
  | .plain c _ => [c]
  | .escape _ _ b _ => [char_of_u8 b]

/-- The loop over a text of plain characters and escapes followed by any
    `tail`: the split at `%` starts with a first piece `v0`, and decoding
    from `ret ++ v0` goes on as decoding the split of `tail` would, from
    `ret` and the decoded pieces. -/
theorem decode_pieces_escaped (ps : List PctPiece) {tail w0 : List Char} {w : List (List Char)}
    (ht : tail.splitOn '%' = w0 :: w) (ret : List Char) :
    ∃ v0 v, ((ps.map PctPiece.text).flatten ++ tail).splitOn '%' = v0 :: v ∧
      decode_pieces (ret ++ v0) v = decode_pieces (ret ++ (ps.map PctPiece.decoded).flatten ++ w0) w := by
  induction ps generalizing ret with
  | nil => exact ⟨w0, w, by simpa using ht, by simp⟩
  | cons p ps ih =>
    cases p with
    | plain c hc =>
      -- a plain character joins the first piece
      obtain ⟨v0, v, hs, hd⟩ := ih (ret ++ [c])
      refine ⟨c :: v0, v, ?_, ?_⟩
      · have hne : (c == '%') = false := by simpa using hc
        simp [PctPiece.text, List.splitOn_cons_eq_if_modifyHead, hne, hs]
      · simpa [PctPiece.decoded] using hd
    | escape hi lo b hb =>
      -- the `%` closes the first piece, empty, and the digits open the next
      obtain ⟨v0, v, hs, hd⟩ := ih (ret ++ [char_of_u8 b])
      obtain ⟨dh, dl, hh, hl, -⟩ := hex_byte_eq_some hb
      have hhi : (hi == '%') = false := by simpa using (to_digit_char hh).2.1
      have hlo : (lo == '%') = false := by simpa using (to_digit_char hl).2.1
      refine ⟨[], (hi :: lo :: v0) :: v, ?_, ?_⟩
      · simp [PctPiece.text, List.splitOn_cons_eq_if_modifyHead, hhi, hlo, hs]
      · rw [List.append_nil, decode_pieces_escape hb]
        simpa [PctPiece.decoded] using hd

/-- **`percent_decode` decodes every escape**: once `%0A` is removed, a
    text of plain characters and `%` with two hex digits is returned with
    each escape replaced by the character of its byte. -/
theorem percent_decode_escaped (s : List Char) (ps : List PctPiece)
    (h : replace s ['%', '0', 'A'] [] = (ps.map PctPiece.text).flatten) :
    percent_decode s = some (.ok (ps.map PctPiece.decoded).flatten) := by
  obtain ⟨v0, v, hs, hd⟩ := decode_pieces_escaped ps (List.splitOn_nil '%') []
  rw [percent_decode_eq]
  rw [h, ← List.append_nil (ps.map PctPiece.text).flatten, hs]
  simpa [decode_pieces_nil] using hd

/-- `a%41b` decodes to `aAb`. -/
theorem percent_decode_escaped_sample :
    percent_decode ['a', '%', '4', '1', 'b'] = some (.ok ['a', 'A', 'b']) :=
  (percent_decode_escaped _
    [.plain 'a' (by decide), .escape '4' '1' 0x41 (by decide), .plain 'b' (by decide)]
    (by decide)).trans rfl

/-- **A `%` at the end panics, whatever is before it**: after plain
    characters and escapes, the piece it opens is empty, and `&s[0..2]`
    is out of range. -/
theorem percent_decode_pct_last (s : List Char) (ps : List PctPiece)
    (h : replace s ['%', '0', 'A'] [] = (ps.map PctPiece.text).flatten ++ ['%']) :
    percent_decode s = none := by
  have ht : ['%'].splitOn '%' = [] :: [[]] := by decide
  obtain ⟨v0, v, hs, hd⟩ := decode_pieces_escaped ps ht []
  rw [percent_decode_eq]
  rw [h, hs]
  simpa [decode_pieces_cons, decode_pieces_nil, split_at_byte_nil_succ] using hd

/-- `a%` panics. -/
theorem percent_decode_pct_last_sample : percent_decode ['a', '%'] = none :=
  percent_decode_pct_last _ [.plain 'a' (by decide)] (by decide)

end Teaclave.Utils
