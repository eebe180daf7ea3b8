/-
  Teaclave.Acs.Written
  ────────────────────
  **A MODEL TEXT AS IT MAY BE WRITTEN, AND WHAT `preprocess` MAKES OF IT.**

  `mesatee_services/acs/python/acs_engine.py`, `preprocess`: escaped line
  breaks joined, each line cut at its `#`, the whole stripped and one `\n`
  added.  A model may be written with any blanks around its tokens, any
  comments, any blank lines, and continuations after spaces (`Written`,
  `Continued`); the text the grammar then reads is the model's lines, each
  in a `Shape`: blanks before, between and after the tokens, and the line
  ends that follow.

    • `preprocess_of_continued`: a continuation put after a space changes
      nothing `preprocess` returns.
    • `preprocess_written`: `preprocess` of a written model is its shaped
      text; the first line loses its blanks in front and the last keeps one
      line end.

  Python's `str.splitlines` splits at `\n`, `\r` and `\r\n` (§1); no
  token, blank or comment here holds either.
-/
import Teaclave.Acs.Conf

namespace Teaclave.Acs

open Teaclave.Lib

/-! ## §1. `preprocess`, byte by byte. -/

theorem remove_escaped_breaks_cons {b : UInt8} {rest : List UInt8}
    (h : ¬ (b = 92 ∧ rest.head? = some 10)) :
    remove_escaped_breaks (b :: rest) = b :: remove_escaped_breaks rest :=
  remove_escaped_breaks.eq_2 b rest fun _ hb hr => h ⟨hb, by simp [hr]⟩

theorem remove_escaped_breaks_escape (rest : List UInt8) :
    remove_escaped_breaks (92 :: 10 :: rest) = remove_escaped_breaks rest := rfl

/-- The scan never joins the end of `x` to what follows it unless `x`
    ends in a backslash. -/
theorem remove_escaped_breaks_append :
    ∀ (x z : List UInt8), x.getLast? ≠ some 92 →
      remove_escaped_breaks (x ++ z) = remove_escaped_breaks x ++ remove_escaped_breaks z := by
  intro x z h
  -- along the scan's own recursion: a continuation dropped, or one byte kept
  fun_induction remove_escaped_breaks x with
  | case1 rest ih =>
    have h' : rest.getLast? ≠ some 92 := by
      cases rest with
      | nil => simp
      | cons c rest => simpa [List.getLast?_cons_cons] using h
    simp only [List.cons_append, remove_escaped_breaks_escape]
    exact ih h'
  | case2 b rest hbr ih =>
    have h' : rest.getLast? ≠ some 92 := by
      cases rest with
      | nil => simp
      | cons c rest => simpa [List.getLast?_cons_cons] using h
    -- `z` cannot complete a continuation: `x` does not end in a backslash
    have hcons : ¬ (b = 92 ∧ (rest ++ z).head? = some 10) := by
      rintro ⟨hb, hz⟩
      cases rest with
      | nil => subst hb; simp at h
      | cons c rest => exact hbr rest hb (by simp at hz; rw [hz])
    rw [List.cons_append, remove_escaped_breaks_cons hcons, ih h', List.cons_append]
  | case3 => rfl

/-- A continuation put after a space is what `preprocess` removes. -/
theorem remove_escaped_breaks_insert {x y : List UInt8} (hx : x.getLast? = some 32) :
    remove_escaped_breaks (x ++ [92, 10] ++ y) = remove_escaped_breaks (x ++ y) := by
  have hx' : x.getLast? ≠ some 92 := by rw [hx]; decide
  rw [List.append_assoc, remove_escaped_breaks_append x _ hx', remove_escaped_breaks_append x _ hx']
  rfl

theorem remove_escaped_breaks_of_not_mem {l : List UInt8} (hl : 10 ∉ l) :
    remove_escaped_breaks l = l := by
  induction l with
  | nil => rfl
  | cons b rest ih =>
      have hb : ¬ (b = 92 ∧ rest.head? = some 10) := by
        rintro ⟨-, hr⟩
        cases rest with
        | nil => simp at hr
        | cons c rest => simp at hr; simp [hr] at hl
      rw [remove_escaped_breaks_cons hb, ih (fun h => hl (List.mem_cons_of_mem _ h))]

/-- Lines that neither hold a line end nor end in a backslash: there is no
    escaped line break between them. -/
theorem remove_escaped_breaks_intercalate :
    ∀ (ls : List (List UInt8)), (∀ l ∈ ls, 10 ∉ l ∧ l.getLast? ≠ some 92) →
      remove_escaped_breaks ([10].intercalate ls) = [10].intercalate ls
  | [], _ => rfl
  | [l], h => by
      simpa using remove_escaped_breaks_of_not_mem (h l (by simp)).1
  | l :: l' :: ls, h => by
      have hl := h l (by simp)
      rw [List.intercalate_cons_cons, List.append_assoc, remove_escaped_breaks_append l _ hl.2,
        remove_escaped_breaks_of_not_mem hl.1, List.singleton_append,
        remove_escaped_breaks_cons (by simp),
        remove_escaped_breaks_intercalate (l' :: ls) (fun x hx => h x (List.mem_cons_of_mem _ hx))]

/-- A byte that is neither `\n` nor `\r`. -/
def OneLine (l : List UInt8) : Prop := ∀ b ∈ l, b ≠ 10 ∧ b ≠ 13

instance (l : List UInt8) : Decidable (OneLine l) := List.decidableBAll _ l

theorem OneLine.nil : OneLine [] := fun _ h => nomatch h

theorem splitlines_from_nil (cur : List UInt8) :
    splitlines_from cur [] = if cur = [] then [] else [cur] := rfl

theorem splitlines_from_lf (cur rest : List UInt8) :
    splitlines_from cur (10 :: rest) = cur :: splitlines_from [] rest := rfl

/-- A byte that ends no line joins the current one. -/
theorem splitlines_from_of_one_line {b : UInt8} (hb : b ≠ 10 ∧ b ≠ 13) (cur rest : List UInt8) :
    splitlines_from cur (b :: rest) = splitlines_from (cur ++ [b]) rest :=
  splitlines_from.eq_5 cur b rest (fun _ h13 _ => hb.2 h13) hb.2 hb.1

theorem splitlines_from_append {l : List UInt8} (hl : OneLine l) :
    ∀ (cur rest : List UInt8), splitlines_from cur (l ++ rest) = splitlines_from (cur ++ l) rest := by
  induction l with
  | nil => intro cur rest; simp
  | cons b l ih =>
      intro cur rest
      have hb := hl b List.mem_cons_self
      rw [List.cons_append, splitlines_from_of_one_line hb,
        ih (fun c hc => hl c (List.mem_cons_of_mem _ hc)), List.append_assoc, List.singleton_append]

/-- `splitlines` gives the lines back, but for an empty last one. -/
theorem splitlines_intercalate :
    ∀ (ls : List (List UInt8)), (∀ l ∈ ls, OneLine l) →
      splitlines ([10].intercalate ls) = if ls.getLast? = some [] then ls.dropLast else ls
  | [], _ => rfl
  | [l], h => by
      have hl := splitlines_from_append (h l (by simp)) [] []
      rw [List.append_nil, List.nil_append] at hl
      by_cases hnil : l = [] <;> simp [splitlines, hl, splitlines_from_nil, hnil]
  | l :: l' :: ls, h => by
      have hrest := splitlines_intercalate (l' :: ls) (fun x hx => h x (List.mem_cons_of_mem _ hx))
      rw [List.intercalate_cons_cons, splitlines, List.append_assoc,
        splitlines_from_append (h l (by simp)), List.nil_append, List.singleton_append]
      simp only [splitlines] at hrest
      simp only [splitlines_from_lf, hrest, List.getLast?_cons_cons, List.dropLast_cons_cons]
      split_ifs <;> rfl

theorem strip_append_space {x : List UInt8} {b : UInt8} (hb : is_space b = true) :
    strip (x ++ [b]) = strip x := by
  unfold strip
  rw [List.dropWhile_append]
  split_ifs with hx
  · rw [List.isEmpty_iff.mp hx]
    simp [hb]
  · simp [hb]

/-- `strip` takes off the whitespace around a text that neither starts
    nor ends with it. -/
theorem strip_eq {P Y S : List UInt8} (hP : ∀ b ∈ P, is_space b = true)
    (hS : ∀ b ∈ S, is_space b = true) (hhead : ∃ b, Y.head? = some b ∧ is_space b = false)
    (hlast : ∀ b, Y.getLast? = some b → is_space b = false) :
    strip (P ++ Y ++ S) = Y := by
  obtain ⟨c, hc, hsc⟩ := hhead
  obtain ⟨Y', rfl⟩ : ∃ Y', Y = c :: Y' := by
    cases Y with
    | nil => simp at hc
    | cons c' Y' => simp only [List.head?_cons, Option.some.injEq] at hc; exact ⟨Y', by rw [hc]⟩
  -- the last byte of `Y` is the first of its reverse, and stays
  have hrev : (c :: Y').reverse.dropWhile is_space = (c :: Y').reverse := by
    obtain ⟨d, Z, hZ⟩ : ∃ d Z, (c :: Y').reverse = d :: Z := by
      cases h : (c :: Y').reverse with
      | nil => simp at h
      | cons d Z => exact ⟨d, Z, rfl⟩
    have hd : (c :: Y').getLast? = some d := by
      rw [List.getLast?_eq_head?_reverse, hZ, List.head?_cons]
    rw [hZ, List.dropWhile_cons_of_neg (by simp [hlast d hd])]
  unfold strip
  rw [List.append_assoc, List.dropWhile_append_of_pos hP, List.cons_append,
    List.dropWhile_cons_of_neg (by simp [hsc]), ← List.cons_append, List.reverse_append,
    List.dropWhile_append_of_pos (by simpa using hS), hrev, List.reverse_reverse]

/-- `str.strip` after joining the lines with `\n` is `str.strip` after
    ending each with `\n`. -/
theorem strip_intercalate (xs : List (List UInt8)) :
    strip ([10].intercalate xs) = strip (xs.map (· ++ [10])).flatten := by
  cases xs with
  | nil => rfl
  | cons x xs =>
      have h : [10].intercalate (x :: xs) ++ [10] = ((x :: xs).map (· ++ [10])).flatten := by
        induction xs generalizing x with
        | nil => simp
        | cons y ys ih => rw [List.intercalate_cons_cons, List.append_assoc, List.append_assoc, ih]; simp
      rw [← h, strip_append_space (by decide)]

/-- The comment of a line cut off: what comes before its `#`. -/
def uncomment (l : List UInt8) : List UInt8 := l.takeWhile (· != ascii '#')

/-- **`preprocess` of lines** that neither hold a line end nor end in a
    backslash: the lines without their comments, each ended by `\n`,
    stripped, and one `\n` after. -/
theorem preprocess_intercalate (ls : List (List UInt8)) (hone : ∀ l ∈ ls, OneLine l)
    (hcont : ∀ l ∈ ls, l.getLast? ≠ some 92) :
    preprocess ([10].intercalate ls) = strip (ls.map fun l => uncomment l ++ [10]).flatten ++ [10] := by
  have hrm := remove_escaped_breaks_intercalate ls fun l hl => ⟨fun h10 => (hone l hl 10 h10).1 rfl, hcont l hl⟩
  simp only [preprocess, hrm, splitlines_intercalate ls hone, strip_intercalate, List.map_map,
    Function.comp_def]
  congr 1
  split_ifs with hlast
  · -- an empty last line adds one more `\n` to what `strip` removes
    obtain ⟨ls', rfl⟩ := List.getLast?_eq_some_iff.mp hlast
    simp only [List.dropLast_concat, List.map_append, List.flatten_append, List.map_cons,
      List.map_nil, List.flatten_cons, List.flatten_nil, List.append_nil]
    exact (strip_append_space (by decide)).symm
  · rfl

/-! ## §2. A model as it may be written. -/

/-- Spaces and tabs. -/
structure Gap where
  text : List UInt8
  blank : ∀ b ∈ text, b = 32 ∨ b = 9

def Gap.nil : Gap := ⟨[], by simp⟩

/-- The text after a `#`: one line, and not ending in a backslash, which
    would continue it. -/
structure Comment where
  text : List UInt8
  one_line : OneLine text
  not_continued : text.getLast? ≠ some 92

def comment_text : Option Comment → List UInt8
  | none => []
  | some c => ascii '#' :: c.text

theorem comment_text_none : comment_text none = [] := rfl

theorem comment_text_some (c : Comment) : comment_text (some c) = ascii '#' :: c.text := rfl

/-- A line with nothing on it but blanks and perhaps a comment. -/
structure BlankLine where
  gap : Gap
  comment : Option Comment

def BlankLine.text (l : BlankLine) : List UInt8 := l.gap.text ++ comment_text l.comment

def is_ident_char (c : UInt8) : Bool := c == ascii '_' || is_alpha c || is_digit c

theorem is_ident_char_eq (c : UInt8) : is_ident_char c = (c == ascii '_' || is_alpha c || is_digit c) :=
  rfl

/-- What `identifier_matcher` reads whole. -/
def is_identifier : List UInt8 → Bool
  | [] => false
  | c :: cs => (c == ascii '_' || is_alpha c) && cs.all is_ident_char

theorem is_identifier_nil : is_identifier [] = false := rfl

theorem is_identifier_cons (c : UInt8) (cs : List UInt8) :
    is_identifier (c :: cs) = ((c == ascii '_' || is_alpha c) && cs.all is_ident_char) := rfl

structure Ident where
  text : List UInt8
  valid : is_identifier text = true

/-- A definition `name = a, b, ...`. -/
structure DefEntry where
  name : Ident
  attrs : List Ident
  attrs_ne : attrs ≠ []

/-- A one-line Python expression as written after `=`: no line end and no
    `#`, no whitespace at either end, and no backslash at its end. -/
structure ExprText where
  text : List UInt8
  one_line : OneLine text
  no_hash : ascii '#' ∉ text
  head_ok : ∃ b, text.head? = some b ∧ is_space b = false
  last_ok : ∀ b, text.getLast? = some b → is_space b = false ∧ b ≠ 92

/-- A matcher, and what `compile` makes of its expression. -/
structure MatcherEntry {C : Type} (compile : List UInt8 → Option C) where
  name : Ident
  expr : ExprText
  code : C
  compiles : compile expr.text = some code

def requests_tokens : List (List UInt8) := [ascii_bytes "[requests]"]
def terms_tokens : List (List UInt8) := [ascii_bytes "[terms]"]
def matchers_tokens : List (List UInt8) := [ascii_bytes "[matchers]"]

/-- `name = a, b, ...` as tokens. -/
def DefEntry.tokens (d : DefEntry) : List (List UInt8) :=
  d.name.text :: ascii_bytes "=" :: (d.attrs.map Ident.text).intersperse (ascii_bytes ",")

theorem DefEntry.tokens_eq (d : DefEntry) :
    d.tokens = d.name.text :: ascii_bytes "=" :: (d.attrs.map Ident.text).intersperse (ascii_bytes ",") :=
  rfl

/-- `name = expr` as tokens. -/
def MatcherEntry.tokens {C : Type} {compile : List UInt8 → Option C} (m : MatcherEntry compile) :
    List (List UInt8) :=
  [m.name.text, ascii_bytes "=", m.expr.text]

theorem MatcherEntry.tokens_eq {C : Type} {compile : List UInt8 → Option C} (m : MatcherEntry compile) :
    m.tokens = [m.name.text, ascii_bytes "=", m.expr.text] := rfl

/-- Tokens with the given blanks between them; missing blanks are empty. -/
def interleave : List (List UInt8) → List (List UInt8) → List UInt8
  | [], _ => []
  | [t], _ => t
  | t :: ts, gs => t ++ gs.headD [] ++ interleave ts gs.tail

theorem interleave_nil (gs : List (List UInt8)) : interleave [] gs = [] := rfl

theorem interleave_singleton (t : List UInt8) (gs : List (List UInt8)) : interleave [t] gs = t := rfl

theorem interleave_cons_cons (t t' : List UInt8) (ts gs : List (List UInt8)) :
    interleave (t :: t' :: ts) gs = t ++ gs.headD [] ++ interleave (t' :: ts) gs.tail := rfl

/-- How one line of the model is written: blanks before, between and after
    its tokens, a comment, and the blank lines that follow it. -/
structure Dress where
  lead : Gap
  inner : List Gap
  trail : Gap
  comment : Option Comment
  after : List BlankLine

def Dress.line (d : Dress) (ts : List (List UInt8)) : List UInt8 :=
  d.lead.text ++ interleave ts (d.inner.map Gap.text) ++ d.trail.text ++ comment_text d.comment

def Dress.lines (d : Dress) (ts : List (List UInt8)) : List (List UInt8) :=
  d.line ts :: d.after.map BlankLine.text

section Written

variable {C : Type} {compile : List UInt8 → Option C}

/-- **A model as written**: blank lines, then the three sections, each line
    dressed its own way.  With one space around each `=` and after each `,`
    and nothing else, it is the canonical rendering. -/
structure Written (compile : List UInt8 → Option C) where
  pre : List BlankLine
  requests : Dress
  request_def : List (DefEntry × Dress)
  terms : Dress
  term_def : List (DefEntry × Dress)
  matchers : Dress
  matcher_def : List (MatcherEntry compile × Dress)

def Written.lines (w : Written compile) : List (List UInt8) :=
  w.pre.map BlankLine.text ++ w.requests.lines requests_tokens ++
    w.request_def.flatMap (fun e => e.2.lines e.1.tokens) ++ w.terms.lines terms_tokens ++
    w.term_def.flatMap (fun e => e.2.lines e.1.tokens) ++ w.matchers.lines matchers_tokens ++
    w.matcher_def.flatMap (fun e => e.2.lines e.1.tokens)

theorem Written.lines_eq (w : Written compile) :
    w.lines =
      w.pre.map BlankLine.text ++ w.requests.lines requests_tokens ++
        w.request_def.flatMap (fun e => e.2.lines e.1.tokens) ++ w.terms.lines terms_tokens ++
        w.term_def.flatMap (fun e => e.2.lines e.1.tokens) ++ w.matchers.lines matchers_tokens ++
        w.matcher_def.flatMap (fun e => e.2.lines e.1.tokens) := rfl

/-- The text: the lines joined by `\n`. -/
def Written.text (w : Written compile) : List UInt8 := [10].intercalate w.lines

end Written

/-- `D'` is `D` with backslash-newline continuations put after spaces. -/
inductive Continued (D : List UInt8) : List UInt8 → Prop
  | refl : Continued D D
  | cont {x y : List UInt8} : Continued D (x ++ y) → x.getLast? = some 32 →
      Continued D (x ++ [92, 10] ++ y)

theorem remove_escaped_breaks_of_continued {D D' : List UInt8} (h : Continued D D') :
    remove_escaped_breaks D' = remove_escaped_breaks D := by
  induction h with
  | refl => rfl
  | cont _ hx ih => rw [remove_escaped_breaks_insert hx, ih]

theorem preprocess_of_continued {D D' : List UInt8} (h : Continued D D') :
    preprocess D' = preprocess D := by
  simp only [preprocess, remove_escaped_breaks_of_continued h]

/-! ## §3. Tokens and the lines they make. -/

/-- What each token and gap of a line is: one line, no `#`, and no
    backslash at its end. -/
structure Token (t : List UInt8) : Prop where
  one_line : OneLine t
  no_hash : ascii '#' ∉ t
  last_ne : t.getLast? ≠ some 92

theorem Token.nil : Token [] := ⟨OneLine.nil, by simp, by simp⟩

theorem Token.append {a b : List UInt8} (ha : Token a) (hb : Token b) : Token (a ++ b) where
  one_line x hx := (List.mem_append.mp hx).elim (ha.one_line x) (hb.one_line x)
  no_hash h := (List.mem_append.mp h).elim ha.no_hash hb.no_hash
  last_ne := by
    rw [List.getLast?_append]
    cases h : b.getLast? with
    | none => simpa using ha.last_ne
    | some x => simpa [h] using hb.last_ne

/-- A text with no whitespace at either end. -/
def Solid (x : List UInt8) : Prop :=
  x ≠ [] ∧ x.head?.all (fun b => !is_space b) = true ∧ x.getLast?.all (fun b => !is_space b) = true

instance (x : List UInt8) : Decidable (Solid x) := inferInstanceAs (Decidable (_ ∧ _ ∧ _))

theorem Gap.token (g : Gap) : Token g.text where
  one_line b hb := by rcases g.blank b hb with rfl | rfl <;> decide
  no_hash h := by rcases g.blank _ h with h | h <;> exact absurd h (by decide)
  last_ne h := by rcases g.blank 92 (List.mem_of_getLast? h) with h | h <;> exact absurd h (by decide)

theorem comment_text_token (c : Option Comment) :
    OneLine (comment_text c) ∧ (comment_text c).getLast? ≠ some 92 := by
  cases c with
  | none => exact ⟨OneLine.nil, by simp [comment_text_none]⟩
  | some c =>
      refine ⟨?_, ?_⟩
      · intro b hb
        rcases List.mem_cons.mp hb with rfl | hb
        · decide
        · exact c.one_line b hb
      · simp only [comment_text_some, List.getLast?_cons]
        cases h : c.text.getLast? with
        | none => decide
        | some x => simpa [h] using c.not_continued

theorem uncomment_append_comment {x : List UInt8} (hx : ascii '#' ∉ x) (c : Option Comment) :
    uncomment (x ++ comment_text c) = x := by
  have hpos : ∀ b ∈ x, (b != ascii '#') = true := fun b hb => by
    simp only [bne_iff_ne, ne_eq]
    rintro rfl
    exact hx hb
  rw [uncomment, List.takeWhile_append_of_pos hpos]
  cases c <;> simp [comment_text_none, comment_text_some]

theorem is_ident_char_spec : ∀ c : UInt8, is_ident_char c = true →
    c ≠ 10 ∧ c ≠ 13 ∧ c ≠ ascii '#' ∧ c ≠ 92 ∧ is_space c = false := by
  intro c h
  -- `_`, a letter or a digit, by its code point
  simp only [is_ident_char_eq, is_alpha, is_digit, is_space, ascii, Bool.or_eq_true, Bool.and_eq_true,
    beq_iff_eq, decide_eq_true_eq, ne_eq, Bool.or_eq_false_iff, Bool.and_eq_false_imp,
    beq_eq_false_iff_ne, UInt8.le_iff_toNat_le, UInt8.ext_iff] at h ⊢
  simp [Char.toUInt8] at h ⊢
  omega

theorem is_identifier_all : ∀ {t : List UInt8}, is_identifier t = true → ∀ c ∈ t, is_ident_char c = true
  | [], h => by simp [is_identifier_nil] at h
  | c :: cs, h => by
      simp only [is_identifier_cons, Bool.and_eq_true, List.all_eq_true] at h
      intro x hx
      rcases List.mem_cons.mp hx with rfl | hx
      · simp only [is_ident_char_eq, Bool.or_eq_true] at h ⊢
        exact Or.inl h.1
      · exact h.2 x hx

theorem Ident.token (i : Ident) : Token i.text where
  one_line b hb := let h := is_ident_char_spec b (is_identifier_all i.valid b hb); ⟨h.1, h.2.1⟩
  no_hash h := (is_ident_char_spec _ (is_identifier_all i.valid _ h)).2.2.1 rfl
  last_ne h := (is_ident_char_spec 92 (is_identifier_all i.valid _ (List.mem_of_getLast? h))).2.2.2.1 rfl

theorem Ident.solid (i : Ident) : Solid i.text := by
  obtain ⟨c, cs, hc⟩ : ∃ c cs, i.text = c :: cs := by
    cases h : i.text with
    | nil => have := i.valid; rw [h] at this; simp [is_identifier_nil] at this
    | cons c cs => exact ⟨c, cs, rfl⟩
  have hall := is_identifier_all i.valid
  refine ⟨by simp [hc], ?_, ?_⟩
  · rw [hc, List.head?_cons, Option.all_some, (is_ident_char_spec c (hall c (by simp [hc]))).2.2.2.2]
    rfl
  · cases h : i.text.getLast? with
    | none => rfl
    | some x =>
        rw [Option.all_some, (is_ident_char_spec x (hall x (List.mem_of_getLast? h))).2.2.2.2]
        rfl

theorem ExprText.token (e : ExprText) : Token e.text :=
  ⟨e.one_line, e.no_hash, fun h => (e.last_ok 92 h).2 rfl⟩

theorem ExprText.solid (e : ExprText) : Solid e.text := by
  obtain ⟨b, hb, hsb⟩ := e.head_ok
  refine ⟨fun h => by simp [h] at hb, by simp [hb, hsb], ?_⟩
  cases h : e.text.getLast? with
  | none => rfl
  | some x => simp [(e.last_ok x h).1]

theorem interleave_token : ∀ (ts gs : List (List UInt8)), (∀ t ∈ ts, Token t) → (∀ g ∈ gs, Token g) →
    Token (interleave ts gs)
  | [], _, _, _ => Token.nil
  | [t], _, hts, _ => hts t (by simp)
  | t :: t' :: ts, gs, hts, hgs => by
      have hg : Token (gs.headD []) := by
        cases gs with
        | nil => exact Token.nil
        | cons g gs => exact hgs g (by simp)
      have hrest := interleave_token (t' :: ts) gs.tail (fun x hx => hts x (List.mem_cons_of_mem _ hx))
        (fun x hx => hgs x (List.mem_of_mem_tail hx))
      exact ((hts t (by simp)).append hg).append hrest

theorem interleave_head? {t : List UInt8} (ht : t ≠ []) :
    ∀ (ts gs : List (List UInt8)), (interleave (t :: ts) gs).head? = t.head?
  | [], _ => rfl
  | _ :: _, _ => by simp only [interleave_cons_cons, List.append_assoc, List.head?_append_of_ne_nil _ ht]

theorem interleave_getLast? : ∀ (ts gs : List (List UInt8)), (∀ t ∈ ts, t ≠ []) →
    (interleave ts gs).getLast? = ts.getLast?.bind List.getLast?
  | [], _, _ => rfl
  | [t], _, _ => by simp [interleave_singleton]
  | t :: t' :: ts, gs, hne => by
      have ih := interleave_getLast? (t' :: ts) gs.tail (fun x hx => hne x (List.mem_cons_of_mem _ hx))
      obtain ⟨x, hx⟩ : ∃ x, (t' :: ts).getLast?.bind List.getLast? = some x := by
        have hl := hne ((t' :: ts).getLast (by simp)) (List.mem_cons_of_mem _ (List.getLast_mem _))
        rw [List.getLast?_eq_some_getLast (by simp), Option.bind_some]
        exact ⟨_, List.getLast?_eq_some_getLast hl⟩
      simp only [interleave_cons_cons, List.getLast?_append, ih, hx, Option.some_or, List.getLast?_cons_cons]

theorem mem_intersperse {sep t : List UInt8} :
    ∀ {l : List (List UInt8)}, t ∈ l.intersperse sep → t = sep ∨ t ∈ l
  | [], h => by simp at h
  | [x], h => by simp at h; exact Or.inr (by simp [h])
  | x :: y :: l, h => by
      rw [List.intersperse_cons_cons] at h
      rcases List.mem_cons.mp h with rfl | h
      · exact Or.inr List.mem_cons_self
      rcases List.mem_cons.mp h with rfl | h
      · exact Or.inl rfl
      rcases mem_intersperse h with h | h
      · exact Or.inl h
      · exact Or.inr (List.mem_cons_of_mem _ h)

theorem getLast?_intersperse (sep : List UInt8) :
    ∀ (l : List (List UInt8)), (l.intersperse sep).getLast? = l.getLast?
  | [] => rfl
  | [_] => rfl
  | x :: y :: l => by
      obtain ⟨z, hz⟩ : ∃ z, (y :: l).getLast? = some z := ⟨_, List.getLast?_eq_some_getLast (by simp)⟩
      rw [List.intersperse_cons_cons, List.getLast?_cons_cons, List.getLast?_cons_cons,
        List.getLast?_cons, getLast?_intersperse sep (y :: l), hz]
      rfl

theorem solid_interleave {ts : List (List UInt8)} (gs : List (List UInt8)) (hne : ∀ t ∈ ts, t ≠ [])
    {t₀ t₁ : List UInt8} (hhead : ts.head? = some t₀) (hlast : ts.getLast? = some t₁)
    (h₀ : Solid t₀) (h₁ : Solid t₁) : Solid (interleave ts gs) := by
  obtain ⟨ts', rfl⟩ : ∃ ts', ts = t₀ :: ts' := by
    cases ts with
    | nil => simp at hhead
    | cons t ts' => simp only [List.head?_cons, Option.some.injEq] at hhead; exact ⟨ts', by rw [hhead]⟩
  have hlast' : (interleave (t₀ :: ts') gs).getLast? = t₁.getLast? := by
    rw [interleave_getLast? _ gs hne, hlast, Option.bind_some]
  refine ⟨?_, ?_, ?_⟩
  · intro h
    have := congrArg List.head? h
    rw [interleave_head? h₀.1] at this
    exact h₀.1 (List.head?_eq_none_iff.mp this)
  · rw [interleave_head? h₀.1]
    exact h₀.2.1
  · rw [hlast']
    exact h₁.2.2

theorem requests_tokens_token : ∀ t ∈ requests_tokens, Token t := by
  simp only [requests_tokens, List.mem_singleton, forall_eq]
  exact ⟨by decide, by decide, by decide⟩

theorem terms_tokens_token : ∀ t ∈ terms_tokens, Token t := by
  simp only [terms_tokens, List.mem_singleton, forall_eq]
  exact ⟨by decide, by decide, by decide⟩

theorem matchers_tokens_token : ∀ t ∈ matchers_tokens, Token t := by
  simp only [matchers_tokens, List.mem_singleton, forall_eq]
  exact ⟨by decide, by decide, by decide⟩

theorem header_solid (s : String) (gs : List (List UInt8)) (hs : Solid (ascii_bytes s)) :
    Solid (interleave [ascii_bytes s] gs) := hs

theorem DefEntry.tokens_token (d : DefEntry) : ∀ t ∈ d.tokens, Token t := by
  intro t ht
  simp only [DefEntry.tokens_eq, List.mem_cons] at ht
  rcases ht with rfl | rfl | ht
  · exact d.name.token
  · exact ⟨by decide, by decide, by decide⟩
  · rcases mem_intersperse ht with rfl | ht
    · exact ⟨by decide, by decide, by decide⟩
    · obtain ⟨a, -, rfl⟩ := List.mem_map.mp ht
      exact a.token

theorem DefEntry.tokens_ne_nil (d : DefEntry) : ∀ t ∈ d.tokens, t ≠ [] := by
  intro t ht
  simp only [DefEntry.tokens_eq, List.mem_cons] at ht
  rcases ht with rfl | rfl | ht
  · exact d.name.solid.1
  · decide
  · rcases mem_intersperse ht with rfl | ht
    · decide
    · obtain ⟨a, -, rfl⟩ := List.mem_map.mp ht
      exact a.solid.1

theorem DefEntry.body_solid (d : DefEntry) (gs : List (List UInt8)) : Solid (interleave d.tokens gs) := by
  obtain ⟨a, ha, hlast⟩ : ∃ a ∈ d.attrs, d.attrs.getLast? = some a :=
    ⟨_, List.getLast_mem d.attrs_ne, List.getLast?_eq_some_getLast d.attrs_ne⟩
  refine solid_interleave gs d.tokens_ne_nil rfl ?_ d.name.solid a.solid
  -- the last token is the last attribute
  rw [DefEntry.tokens_eq, List.getLast?_cons_cons, List.getLast?_cons, getLast?_intersperse,
    List.getLast?_map, hlast]
  rfl

theorem MatcherEntry.tokens_token {C : Type} {compile : List UInt8 → Option C} (m : MatcherEntry compile) :
    ∀ t ∈ m.tokens, Token t := by
  intro t ht
  simp only [MatcherEntry.tokens_eq, List.mem_cons, List.not_mem_nil, or_false] at ht
  rcases ht with rfl | rfl | rfl
  · exact m.name.token
  · exact ⟨by decide, by decide, by decide⟩
  · exact m.expr.token

theorem MatcherEntry.body_solid {C : Type} {compile : List UInt8 → Option C} (m : MatcherEntry compile)
    (gs : List (List UInt8)) : Solid (interleave m.tokens gs) := by
  refine solid_interleave gs ?_ rfl rfl m.name.solid m.expr.solid
  intro t ht
  simp only [MatcherEntry.tokens_eq, List.mem_cons, List.not_mem_nil, or_false] at ht
  rcases ht with rfl | rfl | rfl
  · exact m.name.solid.1
  · decide
  · exact m.expr.solid.1

/-! ## §4. What `preprocess` makes of a written model. -/

/-- Runs of blanks, each closed by a line end. -/
def line_ends (ws : List (List UInt8)) : List UInt8 := (ws.map (· ++ [10])).flatten

theorem line_ends_eq_flatten (ws : List (List UInt8)) :
    line_ends ws = (ws.map (· ++ [10])).flatten := rfl

/-- A line as the grammar reads it after `preprocess`: blanks, the tokens
    with blanks between them, and one or more runs of blanks each closed by
    a line end. -/
structure Shape where
  lead : Gap
  inner : List Gap
  ends : List Gap
  ends_ne : ends ≠ []

def Shape.body (sh : Shape) (ts : List (List UInt8)) : List UInt8 := interleave ts (sh.inner.map Gap.text)

def Shape.text (sh : Shape) (ts : List (List UInt8)) : List UInt8 :=
  sh.lead.text ++ sh.body ts ++ line_ends (sh.ends.map Gap.text)

theorem Shape.body_eq (sh : Shape) (ts : List (List UInt8)) :
    sh.body ts = interleave ts (sh.inner.map Gap.text) := rfl

theorem Shape.text_eq (sh : Shape) (ts : List (List UInt8)) :
    sh.text ts = sh.lead.text ++ sh.body ts ++ line_ends (sh.ends.map Gap.text) := rfl

/-- The first line after `strip`: nothing before it. -/
def Shape.unlead (sh : Shape) : Shape := { sh with lead := Gap.nil }

/-- The last line after `strip` and the `\n` that `preprocess` adds. -/
def Shape.closed (sh : Shape) : Shape := { sh with ends := [Gap.nil], ends_ne := List.cons_ne_nil _ _ }

def Dress.shape (d : Dress) : Shape :=
  ⟨d.lead, d.inner, d.trail :: d.after.map BlankLine.gap, List.cons_ne_nil _ _⟩

/-- Lines in their shapes, one after another. -/
def shaped_text (L : List (Shape × List (List UInt8))) : List UInt8 := (L.map fun l => l.1.text l.2).flatten

theorem shaped_text_eq (L : List (Shape × List (List UInt8))) :
    shaped_text L = (L.map fun l => l.1.text l.2).flatten := rfl

section Shaped

variable {C : Type} {compile : List UInt8 → Option C}

/-- **A model as the grammar reads it**: the three sections, each line in
    its shape. -/
structure Shaped (compile : List UInt8 → Option C) where
  requests : Shape
  request_def : List (DefEntry × Shape)
  terms : Shape
  term_def : List (DefEntry × Shape)
  matchers : Shape
  matcher_def : List (MatcherEntry compile × Shape)

def Shaped.lines (m : Shaped compile) : List (Shape × List (List UInt8)) :=
  (m.requests, requests_tokens) :: (m.request_def.map fun e => (e.2, e.1.tokens)) ++
    (m.terms, terms_tokens) :: (m.term_def.map fun e => (e.2, e.1.tokens)) ++
    (m.matchers, matchers_tokens) :: (m.matcher_def.map fun e => (e.2, e.1.tokens))

def Shaped.text (m : Shaped compile) : List UInt8 := shaped_text m.lines

/-- `[R, T, M]`: the names and attributes of the definitions, and the names
    and compiled expressions of the matchers. -/
def Shaped.model (m : Shaped compile) :
    List (List UInt8 × List (List UInt8)) × List (List UInt8 × List (List UInt8)) ×
      List (List UInt8 × C) :=
  (m.request_def.map fun e => (e.1.name.text, e.1.attrs.map Ident.text),
    m.term_def.map fun e => (e.1.name.text, e.1.attrs.map Ident.text),
    m.matcher_def.map fun e => (e.1.name.text, e.1.code))

/-- The lines of a written model in their shapes, before `strip`. -/
def Written.dressed (w : Written compile) : List (Shape × List (List UInt8)) :=
  (w.requests.shape, requests_tokens) :: (w.request_def.map fun e => (e.2.shape, e.1.tokens)) ++
    (w.terms.shape, terms_tokens) :: (w.term_def.map fun e => (e.2.shape, e.1.tokens)) ++
    (w.matchers.shape, matchers_tokens) :: (w.matcher_def.map fun e => (e.2.shape, e.1.tokens))

theorem Written.dressed_eq (w : Written compile) :
    w.dressed =
      (w.requests.shape, requests_tokens) :: (w.request_def.map fun e => (e.2.shape, e.1.tokens)) ++
        (w.terms.shape, terms_tokens) :: (w.term_def.map fun e => (e.2.shape, e.1.tokens)) ++
        (w.matchers.shape, matchers_tokens) :: (w.matcher_def.map fun e => (e.2.shape, e.1.tokens)) := rfl

/-- The shapes `preprocess` leaves: the first line loses the blanks in front
    of it, and the last keeps a single line end. -/
def Written.shaped (w : Written compile) : Shaped compile where
  requests := w.requests.shape.unlead
  request_def := w.request_def.map fun e => (e.1, e.2.shape)
  terms := w.terms.shape
  term_def := w.term_def.map fun e => (e.1, e.2.shape)
  matchers := if w.matcher_def = [] then w.matchers.shape.closed else w.matchers.shape
  matcher_def := (w.matcher_def.map fun e => (e.1, e.2.shape)).modifyLast fun e => (e.1, e.2.closed)

/-- What the written model defines: `[R, T, M]`. -/
def Written.model (w : Written compile) :
    List (List UInt8 × List (List UInt8)) × List (List UInt8 × List (List UInt8)) ×
      List (List UInt8 × C) :=
  (w.request_def.map fun e => (e.1.name.text, e.1.attrs.map Ident.text),
    w.term_def.map fun e => (e.1.name.text, e.1.attrs.map Ident.text),
    w.matcher_def.map fun e => (e.1.name.text, e.1.code))

end Shaped

theorem map_modifyLast {α β : Type} (f : α → α) (g : β → β) (h : α → β) (hfg : ∀ a, h (f a) = g (h a)) :
    ∀ (l : List α), (l.modifyLast f).map h = (l.map h).modifyLast g := by
  intro l
  induction l using List.reverseRecOn with
  | nil => rfl
  | append_singleton l a _ =>
      rw [List.modifyLast_concat, List.map_append, List.map_append, List.map_singleton,
        List.map_singleton, List.modifyLast_concat, hfg]

theorem line_ends_space {ws : List (List UInt8)} (hws : ∀ w ∈ ws, ∀ b ∈ w, b = 32 ∨ b = 9) :
    ∀ b ∈ line_ends ws, is_space b = true := by
  intro b hb
  simp only [line_ends_eq_flatten, List.mem_flatten, List.mem_map] at hb
  obtain ⟨_, ⟨w, hw, rfl⟩, hb⟩ := hb
  rcases List.mem_append.mp hb with hb | hb
  · rcases hws w hw b hb with rfl | rfl <;> decide
  · rw [List.mem_singleton.mp hb]; decide

theorem Gap.space (g : Gap) : ∀ b ∈ g.text, is_space b = true := fun b hb => by
  rcases g.blank b hb with rfl | rfl <;> decide

-- The unled line has the same body and ends, and an empty lead.
theorem Shape.text_unlead (sh : Shape) (ts : List (List UInt8)) :
    sh.text ts = sh.lead.text ++ sh.unlead.text ts :=
  List.append_assoc _ _ _

theorem Shape.text_closed (sh : Shape) (ts : List (List UInt8)) :
    sh.closed.text ts = sh.lead.text ++ sh.body ts ++ [10] := rfl

/-- `strip` of shaped lines: the blanks before the first line and what
    follows the last line's tokens go. -/
theorem strip_shaped_text {P : List UInt8} (hP : ∀ b ∈ P, is_space b = true)
    (e : Shape × List (List UInt8)) (L : List (Shape × List (List UInt8)))
    (hsolid : ∀ l ∈ e :: L, Solid (l.1.body l.2)) :
    strip (P ++ shaped_text (e :: L)) ++ [10] =
      shaped_text (((e.1.unlead, e.2) :: L).modifyLast fun l => (l.1.closed, l.2)) := by
  set X := (e.1.unlead, e.2) :: L with hX
  have hXne : X ≠ [] := List.cons_ne_nil _ _
  set x := X.getLast hXne
  have hsplit : X = X.dropLast ++ [x] := (List.dropLast_append_getLast hXne).symm
  have hxsolid : Solid (x.1.body x.2) := by
    have hx : x ∈ X := List.getLast_mem hXne
    rw [hX, List.mem_cons] at hx
    rcases hx with hx | hx
    · rw [hx]; exact hsolid e List.mem_cons_self
    · exact hsolid x (List.mem_cons_of_mem _ hx)
  set Y := shaped_text X.dropLast ++ x.1.lead.text ++ x.1.body x.2 with hY
  have hXtext : shaped_text X = Y ++ line_ends (x.1.ends.map Gap.text) := by
    conv_lhs => rw [hsplit]
    simp [shaped_text_eq, Shape.text_eq, hY]
  have hclosed : shaped_text (X.modifyLast fun l => (l.1.closed, l.2)) = Y ++ [10] := by
    rw [hsplit, List.modifyLast_concat]
    simp [shaped_text_eq, Shape.text_closed, hY]
  have hfirst : shaped_text (e :: L) = e.1.lead.text ++ shaped_text X := by
    simp [shaped_text_eq, hX, Shape.text_unlead e.1 e.2]
  -- `Y` starts with the first line's tokens and ends with the last line's
  have hYne : Y ≠ [] := by
    rw [hY]
    exact List.append_ne_nil_of_right_ne_nil _ hxsolid.1
  have hhead : Y.head? = (e.1.body e.2).head? := by
    have h1 : (shaped_text X).head? = Y.head? := by rw [hXtext, List.head?_append_of_ne_nil _ hYne]
    have h2 : (shaped_text X).head? = (e.1.body e.2).head? := by
      simp only [shaped_text_eq, hX, List.map_cons, List.flatten_cons, Shape.text_eq, Shape.unlead, Gap.nil,
        List.nil_append, List.append_assoc]
      exact List.head?_append_of_ne_nil _ (hsolid e List.mem_cons_self).1
    rw [← h1, h2]
  have hlast : Y.getLast? = (x.1.body x.2).getLast? := by
    rw [hY, List.getLast?_append]
    cases h : (x.1.body x.2).getLast? with
    | none => exact absurd (List.getLast?_eq_none_iff.mp h) hxsolid.1
    | some c => rfl
  have hstrip : strip ((P ++ e.1.lead.text) ++ Y ++ line_ends (x.1.ends.map Gap.text)) = Y := by
    apply strip_eq
    · intro b hb
      rcases List.mem_append.mp hb with hb | hb
      · exact hP b hb
      · exact e.1.lead.space b hb
    · refine line_ends_space fun w hw b hb => ?_
      obtain ⟨g, -, rfl⟩ := List.mem_map.mp hw
      exact g.blank b hb
    · obtain ⟨b, hb⟩ : ∃ b, (e.1.body e.2).head? = some b := by
        cases h : (e.1.body e.2).head? with
        | none => exact absurd (List.head?_eq_none_iff.mp h) (hsolid e List.mem_cons_self).1
        | some b => exact ⟨b, rfl⟩
      have hsb := (hsolid e List.mem_cons_self).2.1
      rw [hb] at hsb
      exact ⟨b, by rw [hhead, hb], by simpa using hsb⟩
    · intro b hb
      have hsb := hxsolid.2.2
      rw [← hlast, hb] at hsb
      simpa using hsb
  rw [hclosed, hfirst, hXtext, ← List.append_assoc P, ← List.append_assoc (P ++ e.1.lead.text), hstrip]

theorem line_ok {x : List UInt8} (hx : Token x) (c : Option Comment) :
    OneLine (x ++ comment_text c) ∧ (x ++ comment_text c).getLast? ≠ some 92 := by
  obtain ⟨h1, h2⟩ := comment_text_token c
  refine ⟨fun b hb => (List.mem_append.mp hb).elim (hx.one_line b) (h1 b), ?_⟩
  rw [List.getLast?_append]
  cases h : (comment_text c).getLast? with
  | none => simpa using hx.last_ne
  | some y => simpa [h] using h2

theorem Dress.line_token (d : Dress) {ts : List (List UInt8)} (hts : ∀ t ∈ ts, Token t) :
    Token (d.lead.text ++ interleave ts (d.inner.map Gap.text) ++ d.trail.text) := by
  have hgs : ∀ g ∈ d.inner.map Gap.text, Token g := by
    intro g hg
    obtain ⟨g', -, rfl⟩ := List.mem_map.mp hg
    exact g'.token
  exact (d.lead.token.append (interleave_token ts _ hts hgs)).append d.trail.token

theorem Dress.lines_ok (d : Dress) {ts : List (List UInt8)} (hts : ∀ t ∈ ts, Token t) :
    ∀ l ∈ d.lines ts, OneLine l ∧ l.getLast? ≠ some 92 := by
  intro l hl
  rcases List.mem_cons.mp hl with rfl | hl
  · exact line_ok (d.line_token hts) d.comment
  · obtain ⟨b, -, rfl⟩ := List.mem_map.mp hl
    exact line_ok b.gap.token b.comment

theorem BlankLine.uncomment_text (b : BlankLine) : uncomment b.text = b.gap.text :=
  uncomment_append_comment b.gap.token.no_hash b.comment

/-- A dressed line and the blank lines after it, comments cut and each
    ended by `\n`, are the line in its shape. -/
theorem Dress.uncommented (d : Dress) {ts : List (List UInt8)} (hts : ∀ t ∈ ts, Token t) :
    ((d.lines ts).map fun l => uncomment l ++ [10]).flatten = d.shape.text ts := by
  have hline : uncomment (d.line ts) = d.lead.text ++ interleave ts (d.inner.map Gap.text) ++ d.trail.text :=
    uncomment_append_comment (d.line_token hts).no_hash d.comment
  simp [Dress.lines, hline, BlankLine.uncomment_text, Dress.shape, Shape.text_eq, Shape.body_eq, line_ends_eq_flatten,
    Function.comp_def]

section Written

variable {C : Type} {compile : List UInt8 → Option C}

theorem Written.lines_ok (w : Written compile) : ∀ l ∈ w.lines, OneLine l ∧ l.getLast? ≠ some 92 := by
  intro l hl
  simp only [Written.lines_eq, List.mem_append, List.mem_flatMap, List.mem_map, or_assoc] at hl
  rcases hl with ⟨b, -, rfl⟩ | hl | ⟨e, -, hl⟩ | hl | ⟨e, -, hl⟩ | hl | ⟨e, -, hl⟩
  · exact line_ok b.gap.token b.comment
  · exact w.requests.lines_ok requests_tokens_token l hl
  · exact e.2.lines_ok e.1.tokens_token l hl
  · exact w.terms.lines_ok terms_tokens_token l hl
  · exact e.2.lines_ok e.1.tokens_token l hl
  · exact w.matchers.lines_ok matchers_tokens_token l hl
  · exact e.2.lines_ok e.1.tokens_token l hl

theorem flatMap_uncommented {E : Type} (tok : E → List (List UInt8)) (htok : ∀ e, ∀ t ∈ tok e, Token t) :
    ∀ xs : List (E × Dress),
      ((xs.flatMap fun e => e.2.lines (tok e.1)).map fun l => uncomment l ++ [10]).flatten =
        (xs.map fun e => e.2.shape.text (tok e.1)).flatten
  | [] => rfl
  | e :: xs => by
      rw [List.flatMap_cons, List.map_append, List.flatten_append, Dress.uncommented _ (htok e.1),
        flatMap_uncommented tok htok xs, List.map_cons, List.flatten_cons]

theorem Written.uncommented (w : Written compile) :
    (w.lines.map fun l => uncomment l ++ [10]).flatten =
      line_ends (w.pre.map fun b => b.gap.text) ++ shaped_text w.dressed := by
  have hpre : (w.pre.map fun b => uncomment b.text ++ [10]).flatten =
      line_ends (w.pre.map fun b => b.gap.text) := by
    simp [line_ends_eq_flatten, BlankLine.uncomment_text, Function.comp_def]
  simp only [Written.lines_eq, List.map_append, List.flatten_append, hpre,
    Dress.uncommented _ requests_tokens_token, Dress.uncommented _ terms_tokens_token,
    Dress.uncommented _ matchers_tokens_token, flatMap_uncommented _ DefEntry.tokens_token,
    flatMap_uncommented _ MatcherEntry.tokens_token, Written.dressed_eq, shaped_text_eq, List.map_cons,
    List.flatten_cons, List.map_map, Function.comp_def, List.append_assoc]

theorem Written.dressed_solid (w : Written compile) : ∀ l ∈ w.dressed, Solid (l.1.body l.2) := by
  intro l hl
  simp only [Written.dressed_eq, List.cons_append, List.mem_cons, List.mem_append, List.mem_map,
    or_assoc] at hl
  rcases hl with rfl | ⟨e, -, rfl⟩ | rfl | ⟨e, -, rfl⟩ | rfl | ⟨e, -, rfl⟩
  · exact header_solid _ _ (by decide)
  · exact e.1.body_solid _
  · exact header_solid _ _ (by decide)
  · exact e.1.body_solid _
  · exact header_solid _ _ (by decide)
  · exact e.1.body_solid _

theorem modifyLast_append_cons {α : Type} (f : α → α) (P : List α) (c : α) (M : List α) :
    (P ++ c :: M).modifyLast f = if M = [] then P ++ [f c] else P ++ c :: M.modifyLast f := by
  split_ifs with hM
  · rw [hM, List.modifyLast_concat]
  · rw [← List.singleton_append, ← List.append_assoc, List.modifyLast_append_of_right_ne_nil _ _ _ hM,
      List.append_assoc, List.singleton_append]

theorem Written.shaped_lines (w : Written compile) :
    w.shaped.lines =
      ((w.requests.shape.unlead, requests_tokens) :: (w.request_def.map fun e => (e.2.shape, e.1.tokens)) ++
        (w.terms.shape, terms_tokens) :: (w.term_def.map fun e => (e.2.shape, e.1.tokens)) ++
        (w.matchers.shape, matchers_tokens) ::
          (w.matcher_def.map fun e => (e.2.shape, e.1.tokens))).modifyLast
        fun l => (l.1.closed, l.2) := by
  have hmap := map_modifyLast (fun e : MatcherEntry compile × Shape => (e.1, e.2.closed))
    (fun l : Shape × List (List UInt8) => (l.1.closed, l.2)) (fun e => (e.2, e.1.tokens)) (fun _ => rfl)
    (w.matcher_def.map fun e => (e.1, e.2.shape))
  rw [modifyLast_append_cons]
  by_cases hM : w.matcher_def = []
  · -- the matchers header is the last line
    have h0 : ([] : List (MatcherEntry compile × Shape)).modifyLast (fun e => (e.1, e.2.closed)) = [] := rfl
    simp [Written.shaped, Shaped.lines, hM, h0, Function.comp_def]
  · simp only [Written.shaped, Shaped.lines, hM, if_false, hmap, List.map_map, Function.comp_def,
      List.map_eq_nil_iff]

/-- **What `preprocess` makes of a written model**: its lines in their
    shapes, the comments, the blank lines at either end and the blanks
    before the first line gone. -/
theorem preprocess_written (w : Written compile) : preprocess w.text = w.shaped.text := by
  rw [Written.text, preprocess_intercalate w.lines (fun l hl => (w.lines_ok l hl).1)
    (fun l hl => (w.lines_ok l hl).2), w.uncommented, Shaped.text, w.shaped_lines]
  have hpre : ∀ b ∈ line_ends (w.pre.map fun b => b.gap.text), is_space b = true :=
    line_ends_space fun x hx b hb => by
      obtain ⟨l, -, rfl⟩ := List.mem_map.mp hx
      exact l.gap.blank b hb
  have hsolid := w.dressed_solid
  simp only [Written.dressed_eq, List.cons_append] at hsolid ⊢
  exact strip_shaped_text hpre _ _ hsolid

end Written

end Teaclave.Acs
