/-
  Teaclave.Lib.RustStd
  ────────────────────
  **THE RUST STANDARD-LIBRARY CALLS OF THE WORKERS, ON LISTS.**

  A `str` is the list of its characters, a `Vec` a list.

    • `char::is_whitespace` is Unicode's `White_Space`; `str::trim` drops it
      at both ends (`trim`).
    • `str::split` on one character is `List.splitOn`.
    • `str::len` counts UTF-8 bytes (`utf8_len`).
    • `u32::from_str` reads an optional `+` and then decimal digits, and
      refuses a value that does not fit (`parse_u32`); `Display` for an
      integer writes its decimal digits (`Nat.toDigits 10`).
    • `s[..i]`, `s[i..]` cut at a byte offset and panic (`none`) inside a
      character (`split_at_byte`); `u8::from_str_radix` reads a `+` sign
      and digits of any radix (`u8_from_str_radix`); `u8 as char` is the
      character of that code; `str::replace` replaces from the left, and
      `str::split` on a longer pattern cuts at its occurrences from the left
      (`split_str`).
    • `Vec::swap_remove` takes out one element and moves the last into its
      place, and panics (`none`) out of bounds.
    • `&v[i..j]` is the elements from `i` up to `j` (`slice`); writing
      into that slice is `overwrite`.

  The lemmas are those the workers' proofs use: when `trim` keeps a list,
  how `split_str` reads a character and an occurrence, and `swap_remove` at
  the last index (a `pop`).
-/
import Mathlib

namespace Teaclave.Lib

/-! ## §1. White space and `trim`. -/

/-- `char::is_whitespace`: the characters with Unicode's `White_Space`. -/
def is_whitespace (c : Char) : Bool :=
  let n := c.toNat
  (0x09 ≤ n && n ≤ 0x0D) || n == 0x20 || n == 0x85 || n == 0xA0 || n == 0x1680 ||
    (0x2000 ≤ n && n ≤ 0x200A) || n == 0x2028 || n == 0x2029 || n == 0x202F ||
    n == 0x205F || n == 0x3000

/-- `str::trim_start`. -/
def trim_start (s : List Char) : List Char := s.dropWhile is_whitespace

/-- `str::trim_end`. -/
def trim_end (s : List Char) : List Char := (s.reverse.dropWhile is_whitespace).reverse

/-- `str::trim`. -/
def trim (s : List Char) : List Char := trim_end (trim_start s)

/-- `str::len`: the length of the UTF-8 encoding. -/
def utf8_len (s : List Char) : Nat := (s.map Char.utf8Size).sum

@[simp] theorem utf8_len_nil : utf8_len [] = 0 := rfl

@[simp] theorem utf8_len_cons (c : Char) (s : List Char) :
    utf8_len (c :: s) = c.utf8Size + utf8_len s := by
  simp [utf8_len]

/-- A list with no white space at either end. -/
def Trimmed (s : List Char) : Prop :=
  (∀ c ∈ s.head?, is_whitespace c = false) ∧ ∀ c ∈ s.getLast?, is_whitespace c = false

theorem trim_start_of_head {s : List Char} (h : ∀ c ∈ s.head?, is_whitespace c = false) :
    trim_start s = s := by
  cases s with
  | nil => rfl
  | cons c cs => simp [trim_start, h c rfl]

theorem trim_end_of_last {s : List Char} (h : ∀ c ∈ s.getLast?, is_whitespace c = false) :
    trim_end s = s := by
  unfold trim_end
  rcases List.eq_nil_or_concat s with rfl | ⟨init, c, rfl⟩
  · rfl
  · have hc : is_whitespace c = false := h c (by simp)
    simp [hc]

/-- **`trim` keeps a list with no white space at its ends.** -/
theorem trim_of_trimmed {s : List Char} (h : Trimmed s) : trim s = s := by
  rw [trim, trim_start_of_head h.1, trim_end_of_last h.2]

/-! ## §2. `u32::from_str` and `Display`. -/

/-- The value of an ASCII decimal digit. -/
def digit_value (c : Char) : Option Nat :=
  if '0' ≤ c ∧ c ≤ '9' then some (c.toNat - '0'.toNat) else none

/-- The digits read from the left, `none` at the first non-digit. -/
def parse_digits : List Char → Nat → Option Nat
  | [], acc => some acc
  | c :: cs, acc =>
      match digit_value c with
      | none => none
      | some d => parse_digits cs (acc * 10 + d)

/-- `u32::from_str` (`from_str_radix(src, 10)`): a `+` sign may lead; a
    lone sign, a `-`, any other character, an empty string and a value of
    `2 ^ 32` or more are refused. -/
def parse_u32 (src : List Char) : Option UInt32 :=
  let digits :=
    match src with
    | [] => none
    | ['+'] | ['-'] => none
    | '+' :: rest => some rest
    | _ => some src
  match digits.bind (parse_digits · 0) with
  | some n => if n < 2 ^ 32 then some n.toUInt32 else none
  | none => none

/-! ## §3. Byte offsets, `from_str_radix` and `replace`. -/

/-- `(&s[..i], &s[i..])`: the characters before byte offset `i` and those
    after it; `none`, the panic, when `i` is past the end or inside the
    UTF-8 encoding of a character. -/
def split_at_byte : List Char → Nat → Option (List Char × List Char)
  | s, 0 => some ([], s)
  | [], _ + 1 => none
  | c :: cs, i + 1 =>
      if c.utf8Size ≤ i + 1 then
        (split_at_byte cs (i + 1 - c.utf8Size)).map fun p => (c :: p.1, p.2)
      else none

theorem split_at_byte_nil_succ (i : Nat) : split_at_byte [] (i + 1) = none := rfl

/-- Two one-byte characters are the first two bytes. -/
theorem split_at_byte_two {a b : Char} (ha : a.utf8Size = 1) (hb : b.utf8Size = 1) (rest : List Char) :
    split_at_byte (a :: b :: rest) 2 = some ([a, b], rest) := by
  simp [split_at_byte, ha, hb]

/-- `char::to_digit`: the value of a digit in `radix`, the letters of
    either case standing for `10` and up. -/
def to_digit (c : Char) (radix : Nat) : Option Nat :=
  let d :=
    if '0' ≤ c ∧ c ≤ '9' then c.toNat - '0'.toNat
    else if 'a' ≤ c ∧ c ≤ 'z' then c.toNat - 'a'.toNat + 10
    else if 'A' ≤ c ∧ c ≤ 'Z' then c.toNat - 'A'.toNat + 10
    else radix
  if d < radix then some d else none

theorem to_digit_eq (c : Char) (radix : Nat) :
    to_digit c radix =
      let d :=
        if '0' ≤ c ∧ c ≤ '9' then c.toNat - '0'.toNat
        else if 'a' ≤ c ∧ c ≤ 'z' then c.toNat - 'a'.toNat + 10
        else if 'A' ≤ c ∧ c ≤ 'Z' then c.toNat - 'A'.toNat + 10
        else radix
      if d < radix then some d else none := rfl

/-- The digits in `radix` read from the left, `none` at the first that is
    not one. -/
def parse_radix (radix : Nat) : List Char → Nat → Option Nat
  | [], acc => some acc
  | c :: cs, acc =>
      match to_digit c radix with
      | none => none
      | some d => parse_radix radix cs (acc * radix + d)

/-- `u8::from_str_radix`: a `+` sign may lead; a lone sign, a `-`, any
    other non-digit, an empty string and a value of `256` or more are
    refused. -/
def u8_from_str_radix (src : List Char) (radix : Nat) : Option UInt8 :=
  let digits :=
    match src with
    | [] => none
    | ['+'] | ['-'] => none
    | '+' :: rest => some rest
    | _ => some src
  match digits.bind (parse_radix radix · 0) with
  | some n => if n < 256 then some n.toUInt8 else none
  | none => none

/-- `u8 as char`: the character whose code is the byte. -/
def char_of_u8 (b : UInt8) : Char := Char.ofNat b.toNat

/-- `str::replace` for a non-empty pattern, at most `fuel` characters on:
    the occurrences of `pat` from the left, none overlapping, each replaced
    by `repl`. -/
def replace_fuel (pat repl : List Char) : Nat → List Char → List Char
  | 0, s => s
  | _ + 1, [] => []
  | n + 1, c :: cs =>
      if pat ≠ [] ∧ pat.isPrefixOf (c :: cs) then
        repl ++ replace_fuel pat repl n ((c :: cs).drop pat.length)
      else c :: replace_fuel pat repl n cs

/-- `s.replace(pat, repl)`: one character or one occurrence per step, so
    the length of `s` is fuel enough. -/
def replace (s pat repl : List Char) : List Char := replace_fuel pat repl s.length s

/-- `str::split` on a non-empty pattern, `cur` the piece read so far and at
    most `fuel` characters on: each occurrence of `pat` from the left, none
    overlapping, ends a piece. -/
def split_str_fuel (pat cur : List Char) : Nat → List Char → List (List Char)
  | 0, s => [cur ++ s]
  | _ + 1, [] => [cur]
  | n + 1, c :: cs =>
      if pat ≠ [] ∧ pat.isPrefixOf (c :: cs) then
        cur :: split_str_fuel pat [] n ((c :: cs).drop pat.length)
      else split_str_fuel pat (cur ++ [c]) n cs

/-- `s.split(pat).collect()`: the length of `s` is fuel enough. -/
def split_str (s pat : List Char) : List (List Char) := split_str_fuel pat [] s.length s

section SplitStr

variable {pat : List Char}

theorem split_str_fuel_zero (cur s : List Char) : split_str_fuel pat cur 0 s = [cur ++ s] := rfl

theorem split_str_fuel_nil (cur : List Char) (n : Nat) : split_str_fuel pat cur (n + 1) [] = [cur] := rfl

theorem split_str_fuel_cons (cur : List Char) (n : Nat) (c : Char) (cs : List Char) :
    split_str_fuel pat cur (n + 1) (c :: cs) =
      if pat ≠ [] ∧ pat.isPrefixOf (c :: cs) then
        cur :: split_str_fuel pat [] n ((c :: cs).drop pat.length)
      else split_str_fuel pat (cur ++ [c]) n cs := rfl

/-- Fuel beyond the text's length changes nothing. -/
theorem split_str_fuel_congr {n m : Nat} {cur s : List Char} (hn : s.length ≤ n)
    (hm : s.length ≤ m) : split_str_fuel pat cur n s = split_str_fuel pat cur m s := by
  -- on the fuel, for every piece and text: a step takes one unit and one character at least
  induction n generalizing m cur s with
  | zero =>
    obtain rfl : s = [] := List.eq_nil_of_length_eq_zero (by omega)
    cases m <;> simp [split_str_fuel_zero, split_str_fuel_nil]
  | succ n ih =>
    cases s with
    | nil => cases m <;> simp [split_str_fuel_zero, split_str_fuel_nil]
    | cons c cs =>
      obtain ⟨m, rfl⟩ : ∃ m', m = m' + 1 := ⟨m - 1, by simp at hm; omega⟩
      simp only [List.length_cons] at hn hm
      rw [split_str_fuel_cons, split_str_fuel_cons]
      split_ifs with hp
      · have hdrop : ((c :: cs).drop pat.length).length ≤ cs.length := by
          have := List.length_pos_of_ne_nil hp.1
          simp
          omega
        rw [ih (m := m) (by omega) (by omega)]
      · rw [ih (m := m) (by omega) (by omega)]

/-- Characters that cannot start the pattern join the piece. -/
theorem split_str_fuel_plain {p : Char} {ps : List Char} (hpat : pat = p :: ps) {a : List Char}
    (ha : p ∉ a) (n : Nat) (cur rest : List Char) :
    split_str_fuel pat cur (n + a.length) (a ++ rest) = split_str_fuel pat (cur ++ a) n rest := by
  induction a generalizing cur with
  | nil => simp
  | cons c a ih =>
    have hc : c ≠ p := fun h => ha (h ▸ List.mem_cons_self)
    have hnot : ¬ (pat ≠ [] ∧ pat.isPrefixOf (c :: (a ++ rest)) = true) := by
      subst hpat
      simp [List.isPrefixOf, Ne.symm hc]
    rw [List.length_cons, ← Nat.add_assoc, List.cons_append, split_str_fuel_cons, if_neg hnot,
      ih (fun h => ha (List.mem_cons_of_mem c h))]
    simp

/-- An occurrence of the pattern ends the piece. -/
theorem split_str_fuel_pat (hpat : pat ≠ []) (n : Nat) (cur rest : List Char) :
    split_str_fuel pat cur (n + 1) (pat ++ rest) = cur :: split_str_fuel pat [] n rest := by
  obtain ⟨p, ps, rfl⟩ := List.exists_cons_of_ne_nil hpat
  -- the text starts with the whole pattern
  rw [List.cons_append, split_str_fuel_cons, if_pos ⟨hpat, by simp⟩]
  simp

/-- The same, with the fuel the rest's own length: a run of such
    characters joins the piece. -/
theorem split_str_fuel_plain_len {p : Char} {ps : List Char} (hpat : pat = p :: ps) {a : List Char}
    (ha : p ∉ a) (cur rest : List Char) {n : Nat} (hn : (a ++ rest).length ≤ n) :
    split_str_fuel pat cur n (a ++ rest) = split_str_fuel pat (cur ++ a) rest.length rest := by
  rw [split_str_fuel_congr (m := rest.length + a.length) hn (by simp; omega),
    split_str_fuel_plain hpat ha]

/-- The same for an occurrence of the pattern. -/
theorem split_str_fuel_pat_len (hpat : pat ≠ []) (cur rest : List Char) {n : Nat}
    (hn : (pat ++ rest).length ≤ n) :
    split_str_fuel pat cur n (pat ++ rest) = cur :: split_str_fuel pat [] rest.length rest := by
  have hlen := List.length_pos_of_ne_nil hpat
  -- the occurrence takes one unit of fuel, whatever its length
  rw [split_str_fuel_congr (m := rest.length + (pat.length - 1) + 1) hn (by simp; omega),
    split_str_fuel_pat hpat, split_str_fuel_congr (m := rest.length) (by omega) le_rfl]

/-- A text in which the pattern cannot start is one piece. -/
theorem split_str_of_not_mem {p : Char} {ps : List Char} {s : List Char} (hs : p ∉ s) :
    split_str s (p :: ps) = [s] := by
  have h := @split_str_fuel_plain (p :: ps) p ps rfl s hs 0 [] []
  simp only [Nat.zero_add, List.append_nil] at h
  rw [split_str, h, split_str_fuel_zero, List.append_nil, List.nil_append]

end SplitStr

/-! ## §4. `Vec::swap_remove`. -/

section SwapRemove

variable {α : Type}

/-- `Vec::swap_remove`: the element at `index`, and the vector with its last
    element moved into the hole; `none` (the panic of `assert!(index < len)`)
    out of bounds. -/
def swap_remove (v : List α) (index : Nat) : Option (α × List α) :=
  if h : index < v.length then
    some (v[index], v.dropLast.set index (v.getLast (List.ne_nil_of_length_pos (by omega))))
  else none

theorem swap_remove_of_lt {v : List α} {index : Nat} (h : index < v.length) :
    swap_remove v index =
      some (v[index], v.dropLast.set index (v.getLast (List.ne_nil_of_length_pos (by omega)))) :=
  dif_pos h

theorem swap_remove_of_le {v : List α} {index : Nat} (h : v.length ≤ index) :
    swap_remove v index = none :=
  dif_neg (Nat.not_lt.mpr h)

/-- **At the last index `swap_remove` is `pop`.** -/
theorem swap_remove_last {v : List α} (hv : v ≠ []) :
    swap_remove v (v.length - 1) = some (v.getLast hv, v.dropLast) := by
  have hlt : v.length - 1 < v.length := by
    have := List.length_pos_of_ne_nil hv
    omega
  simp only [swap_remove_of_lt hlt, Option.some.injEq, Prod.mk.injEq]
  refine ⟨(List.getLast_eq_getElem hv).symm, ?_⟩
  -- the hole is past the end of `dropLast`
  exact List.set_eq_of_length_le (by simp)

end SwapRemove

/-! ## §5. `&v[i..j]`. -/

section Slice

variable {α : Type}

/-- `&v[i..j]`: the elements from `i` up to `j`, read with `take` and
    `drop` (the source panics out of range; the slices the proofs read are
    in range). -/
def slice (v : List α) (i j : Nat) : List α := (v.take j).drop i

/-- `v[off..off + bs.len()]` written over with `bs` (`encode_fixed` into a
    slice of a vector). -/
def overwrite (v : List α) (off : Nat) (bs : List α) : List α := v.take off ++ bs ++ v.drop (off + bs.length)

/-- A slice that spans one part of a list is that part. -/
theorem slice_append_mid (P k R : List α) : slice (P ++ k ++ R) P.length (P.length + k.length) = k := by
  simp [slice, List.take_append]

/-- … wherever the list is cut so. -/
theorem slice_of_eq {v P k R : List α} (h : v = P ++ k ++ R) {i j : Nat} (hi : i = P.length)
    (hj : j = P.length + k.length) : slice v i j = k := by
  rw [h, hi, hj, slice_append_mid]

theorem drop_of_eq {v P R : List α} (h : v = P ++ R) {i : Nat} (hi : i = P.length) : v.drop i = R := by
  rw [h, hi, List.drop_left]

/-- Writing over the part of a list after a prefix of that length. -/
theorem overwrite_append (P X R bs : List α) (h : X.length = bs.length) :
    overwrite (P ++ X ++ R) P.length bs = P ++ bs ++ R := by
  simp [overwrite, List.drop_append, h]

end Slice

end Teaclave.Lib
