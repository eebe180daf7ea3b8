/-
  Teaclave.Acs.RoundTrip
  ──────────────────────
  **THE ACS MODEL FRONT END: WHAT THE GRAMMAR READS.**

  `Written` (in `Acs.Written`) is a model as a person may write it, and
  `preprocess_written` what `preprocess` makes of it: its lines in their
  shapes (`Shaped`).  Here the grammar reads those lines back, one parser at
  a time, each at the position the one before it left:

    • tokens: `Identifier_of`, `IdTuple_of`, `PyExpr_with_of`, `NewLine_of`;
    • lines: `Definition_of`, `Matcher_with_of`, `header_of` — in any shape;
    • sections: `rep_lines_of`, `section_of` — up to the next `[` or the end;
    • the model: `ModelDef_with_shaped`, then `parse_model_with_written`,
      the round trip through continuations, comments and blank lines;
    • `rep` always returns (`Definition_advancing`, `Matcher_with_advancing`);
    • `acs_setup_model_ok_iff`: the three consistency checks of
      `Model.__init__`.

  `compile` stands for Python's `compile`; of it the round trip needs only
  that blanks at the end of a line change nothing.
-/
import Teaclave.Acs.Written
import Teaclave.Acs.Engine

namespace Teaclave.Acs

open Teaclave.Lib

/-! ## §1. Reading tokens. -/

theorem is_space_of_is_ws : ∀ b : UInt8, is_ws b = true → is_space b = true := by
  intro b h
  simp only [is_ws_eq, Bool.or_eq_true, beq_iff_eq] at h
  rcases h with (rfl | rfl) | rfl <;> rfl

theorem Gap.ws (g : Gap) : ∀ b ∈ g.text, is_ws b = true := fun b hb => by
  rcases g.blank b hb with rfl | rfl <;> decide

/-- `identifier_matcher` reads an identifier whole. -/
theorem identifier_matcher_of {items id rest : List UInt8} {pos : Nat} (h : items.drop pos = id ++ rest)
    (hid : is_identifier id = true) (hr : ∀ c, rest.head? = some c → is_ident_char c = false) :
    identifier_matcher items pos = some (id, pos + id.length) := by
  obtain ⟨c, cs, rfl⟩ : ∃ c cs, id = c :: cs := by
    cases id with
    | nil => simp [is_identifier_nil] at hid
    | cons c cs => exact ⟨c, cs, rfl⟩
  simp only [is_identifier_cons, Bool.and_eq_true, List.all_eq_true] at hid
  have hfirst : (c != ascii '_' && !is_alpha c) = false := by
    simp only [Bool.and_eq_false_iff, bne_eq_false_iff_eq, Bool.not_eq_false']
    simpa [Bool.or_eq_true, beq_iff_eq] using hid.1
  have htail : (cs ++ rest).takeWhile (fun c => c == ascii '_' || is_alpha c || is_digit c) = cs := by
    change (cs ++ rest).takeWhile is_ident_char = cs
    rw [List.takeWhile_append_of_pos hid.2]
    cases rest with
    | nil => simp
    | cons d rest => simp [show is_ident_char d = false from hr d rfl]
  simp only [identifier_matcher_eq, h, List.cons_append, hfirst, Bool.false_eq_true, if_false, htail,
    List.length_cons]
  congr 2
  omega

/-- **An identifier after blanks** is read whole. -/
theorem Identifier_of {items w id rest : List UInt8} {pos : Nat} (h : items.drop pos = w ++ id ++ rest)
    (hw : ∀ b ∈ w, is_ws b = true) (hid : is_identifier id = true)
    (hr : ∀ c, rest.head? = some c → is_ident_char c = false) :
    Identifier ⟨items, pos⟩ = some (id, ⟨items, pos + w.length + id.length⟩) := by
  obtain ⟨c, cs, rfl⟩ : ∃ c cs, id = c :: cs := by
    cases id with
    | nil => simp [is_identifier_nil] at hid
    | cons c cs => exact ⟨c, cs, rfl⟩
  have hc : is_ws c = false := by
    have := (is_ident_char_spec c (is_identifier_all hid c List.mem_cons_self)).2.2.2.2
    cases hws : is_ws c
    · rfl
    · rw [is_space_of_is_ws c hws] at this; cases this
  have hskip : skip_ws items pos = pos + w.length :=
    skip_ws_of (show items.drop pos = w ++ (c :: cs ++ rest) by simpa using h) hw (by simp [hc])
  simp only [Identifier_apply, Stream.accept_matcher_eq, hskip,
    identifier_matcher_of (drop_append_of (by simpa using h)) hid hr, Option.map_some]

/-- No identifier where, after blanks, something other than a letter or
    `_` (or nothing) stands. -/
theorem Identifier_none {items rest : List UInt8} {pos : Nat} (h : items.drop pos = rest)
    (hr : ∀ c, (rest.dropWhile is_ws).head? = some c → c ≠ ascii '_' ∧ is_alpha c = false) :
    Identifier ⟨items, pos⟩ = none := by
  have hskip : items.drop (skip_ws items pos) = rest.dropWhile is_ws := by
    rw [drop_skip_ws, h]
  simp only [Identifier_apply, Stream.accept_matcher_eq, Option.map_eq_none_iff, identifier_matcher_eq, hskip]
  cases hd : rest.dropWhile is_ws with
  | nil => rfl
  | cons c cs =>
      obtain ⟨h1, h2⟩ := hr c (by rw [hd]; rfl)
      simp [h1, h2]

/-- `pyparser_matcher` compiles the rest of the line. -/
theorem pyparser_matcher_with_of {C : Type} (compile : List UInt8 → Option C) {items line rest : List UInt8}
    {pos : Nat} (h : items.drop pos = line ++ 10 :: rest) (hl : 10 ∉ line) :
    pyparser_matcher_with compile items pos = (compile line).map fun c => (c, pos + line.length) := by
  have hpos : ∀ b ∈ line, (b != 10) = true := fun b hb => by
    simp only [bne_iff_ne, ne_eq]
    rintro rfl
    exact hl hb
  simp [pyparser_matcher_with, h, List.takeWhile_append_of_pos hpos]

/-- Line ends after runs of blanks, read by `NewLine` up to the next line. -/
theorem NewLine_of {items rest : List UInt8} (hr : (rest.dropWhile is_ws).head? ≠ some 10) :
    ∀ (ws : List (List UInt8)) (pos : Nat), (∀ w ∈ ws, ∀ b ∈ w, is_ws b = true) →
      items.drop pos = line_ends ws ++ rest → pos ≤ items.length →
      NewLine ⟨items, pos⟩ = some (ws.map fun _ => [10], ⟨items, pos + (line_ends ws).length⟩)
  | [], pos, _, h, hpos => by
      simp only [line_ends_eq_flatten, List.map_nil, List.flatten_nil, List.nil_append] at h
      simp only [NewLine, List.map_nil, line_ends_eq_flatten, List.flatten_nil, List.length_nil, Nat.add_zero]
      exact rep_of_none (str_lit_none_of h (by decide) hr) hpos
  | w :: ws, pos, hws, h, hpos => by
      have h' : items.drop pos = w ++ [10] ++ (line_ends ws ++ rest) := by
        simpa [line_ends_eq_flatten] using h
      have hlit := str_lit_of h' (hws w List.mem_cons_self) rfl (by decide)
      rw [Nat.add_assoc, ← List.length_append] at hlit
      have hnext := NewLine_of hr ws (pos + (w ++ [10]).length)
        (fun x hx => hws x (List.mem_cons_of_mem _ hx)) (drop_append_of h') (le_length_of_drop h' hpos)
      have hlt : pos < pos + (w ++ [10]).length := by simp
      have := rep_of_some hlit rfl hlt hnext
      simp only [NewLine] at this ⊢
      rw [this]
      simp [line_ends_eq_flatten]
      omega

/-! ## §2. Reading a line. -/

theorem is_ident_char_of_ws : ∀ c : UInt8, is_ws c = true → is_ident_char c = false := by
  intro c h
  simp only [is_ws_eq, Bool.or_eq_true, beq_iff_eq] at h
  rcases h with (rfl | rfl) | rfl <;> rfl

theorem headD_ws {gs : List (List UInt8)} (hgs : ∀ g ∈ gs, ∀ b ∈ g, is_ws b = true) :
    ∀ b ∈ gs.headD [], is_ws b = true := by
  cases gs with
  | nil => simp
  | cons g gs => exact hgs g List.mem_cons_self

theorem tail_ws {gs : List (List UInt8)} (hgs : ∀ g ∈ gs, ∀ b ∈ g, is_ws b = true) :
    ∀ g ∈ gs.tail, ∀ b ∈ g, is_ws b = true := fun g hg => hgs g (List.mem_of_mem_tail hg)

/-- What follows a token: blanks and then something that is not part of an
    identifier. -/
theorem head_not_ident_append {g x : List UInt8} (hg : ∀ b ∈ g, is_ws b = true)
    (hx : ∀ c, x.head? = some c → is_ident_char c = false) :
    ∀ c, (g ++ x).head? = some c → is_ident_char c = false := by
  intro c hc
  cases g with
  | nil => exact hx c hc
  | cons b g =>
      simp only [List.cons_append, List.head?_cons, Option.some.injEq] at hc
      rw [← hc]
      exact is_ident_char_of_ws b (hg b List.mem_cons_self)

theorem interleave_cons_of_ne_nil (t : List UInt8) {ts : List (List UInt8)} (gs : List (List UInt8))
    (hts : ts ≠ []) : interleave (t :: ts) gs = t ++ gs.headD [] ++ interleave ts gs.tail := by
  cases ts with
  | nil => contradiction
  | cons t' ts => rfl

/-- The text after the first of several items joined by `sep`, with the
    blanks `gs` on either side of each `sep`. -/
def sep_tail (sep : List UInt8) : List (List UInt8) → List (List UInt8) → List UInt8
  | [], _ => []
  | b :: bs, gs => gs.headD [] ++ sep ++ gs.tail.headD [] ++ b ++ sep_tail sep bs gs.tail.tail

theorem sep_tail_nil (sep : List UInt8) (gs : List (List UInt8)) : sep_tail sep [] gs = [] := rfl

theorem sep_tail_cons (sep b : List UInt8) (bs gs : List (List UInt8)) :
    sep_tail sep (b :: bs) gs = gs.headD [] ++ sep ++ gs.tail.headD [] ++ b ++ sep_tail sep bs gs.tail.tail :=
  rfl

theorem interleave_intersperse_eq (sep a : List UInt8) :
    ∀ (as gs : List (List UInt8)), interleave ((a :: as).intersperse sep) gs = a ++ sep_tail sep as gs
  | [], gs => by simp [interleave_singleton, sep_tail_nil]
  | b :: bs, gs => by
      have hne : (b :: bs).intersperse sep ≠ [] := by cases bs <;> simp
      rw [List.intersperse_cons_cons, interleave_cons_of_ne_nil _ _ (List.cons_ne_nil _ _),
        interleave_cons_of_ne_nil _ _ hne, interleave_intersperse_eq sep b bs]
      simp [sep_tail_cons]

/-- After a literal that is no identifier byte. -/
theorem head_not_ident_of_eq {sep x : List UInt8} {s : UInt8} {ss : List UInt8} (hsep : sep = s :: ss)
    (hs : is_ident_char s = false) : ∀ c, (sep ++ x).head? = some c → is_ident_char c = false := by
  intro c hc
  subst hsep
  simp only [List.cons_append, List.head?_cons, Option.some.injEq] at hc
  rw [← hc]
  exact hs

/-- Blanks, then a literal that is no identifier byte. -/
theorem head_not_ident_gap_lit {g sep x : List UInt8} {s : UInt8} {ss : List UInt8}
    (hg : ∀ b ∈ g, is_ws b = true) (hsep : sep = s :: ss) (hs : is_ident_char s = false) :
    ∀ c, (g ++ sep ++ x).head? = some c → is_ident_char c = false := by
  rw [List.append_assoc]
  exact head_not_ident_append hg (head_not_ident_of_eq hsep hs)

/-- After the first item, a comma or the text after the last. -/
theorem sep_tail_head {rest : List UInt8} (hr : ∀ c, rest.head? = some c → is_ident_char c = false) :
    ∀ (as gs : List (List UInt8)), (∀ g ∈ gs, ∀ b ∈ g, is_ws b = true) →
      ∀ c, (sep_tail (ascii_bytes ",") as gs ++ rest).head? = some c → is_ident_char c = false
  | [], _, _ => by simpa [sep_tail_nil] using hr
  | b :: bs, gs, hgs => by
      have hcomma := head_not_ident_gap_lit
        (x := gs.tail.headD [] ++ b ++ sep_tail (ascii_bytes ",") bs gs.tail.tail ++ rest) (headD_ws hgs)
        (show ascii_bytes "," = [ascii ','] from rfl) (by decide)
      simpa [sep_tail_cons, List.append_assoc] using hcomma

/-- The attributes after the first: `(Comma + Identifier)*`. -/
theorem comma_idents_of {items rest : List UInt8}
    (hr1 : ∀ c, rest.head? = some c → is_ident_char c = false)
    (hr2 : (rest.dropWhile is_ws).head? ≠ some (ascii ',')) :
    ∀ (as gs : List (List UInt8)) (pos : Nat), (∀ x ∈ as, is_identifier x = true) →
      (∀ g ∈ gs, ∀ b ∈ g, is_ws b = true) →
      items.drop pos = sep_tail (ascii_bytes ",") as gs ++ rest → pos ≤ items.length →
      (Comma.seq_right Identifier).rep ⟨items, pos⟩ =
        some (as, ⟨items, pos + (sep_tail (ascii_bytes ",") as gs).length⟩)
  | [], gs, pos, _, _, h, hpos => by
      have hnone : Comma ⟨items, pos⟩ = none :=
        str_lit_none_of (by simpa [sep_tail_nil] using h) (by decide) hr2
      have hseq : (Comma.seq_right Identifier) ⟨items, pos⟩ = none := by
        simp only [Parser.seq_right, hnone, Option.bind_eq_bind, Option.bind_none]
      simpa [sep_tail_nil] using rep_of_none hseq hpos
  | b :: bs, gs, pos, hids, hgs, h, hpos => by
      set T := sep_tail (ascii_bytes ",") bs gs.tail.tail
      have h₀ : items.drop pos = gs.headD [] ++ ascii_bytes "," ++ (gs.tail.headD [] ++ b ++ (T ++ rest)) := by
        rw [h]; simp [sep_tail_cons, T]
      have hcomma : Comma ⟨items, pos⟩ = some (_, _) := str_lit_of h₀ (headD_ws hgs) rfl (by decide)
      have h₁ := drop_append₂_of h₀
      have hid := Identifier_of h₁ (headD_ws (tail_ws hgs)) (hids b List.mem_cons_self)
        (sep_tail_head hr1 bs gs.tail.tail (tail_ws (tail_ws hgs)))
      have hrest := comma_idents_of hr1 hr2 bs gs.tail.tail _
        (fun x hx => hids x (List.mem_cons_of_mem _ hx)) (tail_ws (tail_ws hgs)) (drop_append₂_of h₁)
        (le_length_of_drop₂ h₁ (le_length_of_drop₂ h₀ hpos))
      have hlen : (ascii_bytes ",").length = 1 := rfl
      rw [rep_of_some (seq_right_of hcomma hid) rfl (by dsimp only; rw [hlen]; omega) hrest]
      simp only [sep_tail_cons, List.length_append, Option.some.injEq, Prod.mk.injEq, Stream.mk.injEq, true_and]
      omega

/-- **The attributes of a definition** are read whole. -/
theorem IdTuple_of {items w rest : List UInt8} {pos : Nat} {a : List UInt8} {as gs : List (List UInt8)}
    (h : items.drop pos = w ++ interleave ((a :: as).intersperse (ascii_bytes ",")) gs ++ rest)
    (hpos : pos ≤ items.length) (hw : ∀ b ∈ w, is_ws b = true)
    (hids : ∀ x ∈ a :: as, is_identifier x = true) (hgs : ∀ g ∈ gs, ∀ b ∈ g, is_ws b = true)
    (hr1 : ∀ c, rest.head? = some c → is_ident_char c = false)
    (hr2 : (rest.dropWhile is_ws).head? ≠ some (ascii ',')) :
    IdTuple ⟨items, pos⟩ = some (a :: as,
      ⟨items, pos + w.length + (interleave ((a :: as).intersperse (ascii_bytes ",")) gs).length⟩) := by
  rw [interleave_intersperse_eq] at h ⊢
  have h₀ : items.drop pos = w ++ a ++ (sep_tail (ascii_bytes ",") as gs ++ rest) := by
    rw [h]; simp only [List.append_assoc]
  have hid := Identifier_of h₀ hw (hids a List.mem_cons_self) (sep_tail_head hr1 as gs hgs)
  have hrest := comma_idents_of hr1 hr2 as gs _ (fun x hx => hids x (List.mem_cons_of_mem _ hx)) hgs
    (drop_append₂_of h₀) (le_length_of_drop₂ h₀ hpos)
  simp only [IdTuple_eq, map_of _ (seq_of hid hrest), List.length_append, Nat.add_assoc]

/-! ## §3. Lines in their shapes. -/

theorem Shape.inner_ws (sh : Shape) : ∀ g ∈ sh.inner.map Gap.text, ∀ b ∈ g, is_ws b = true := by
  intro g hg
  obtain ⟨x, -, rfl⟩ := List.mem_map.mp hg
  exact x.ws

theorem Shape.ends_ws (sh : Shape) : ∀ g ∈ sh.ends.map Gap.text, ∀ b ∈ g, is_ws b = true := by
  intro g hg
  obtain ⟨x, -, rfl⟩ := List.mem_map.mp hg
  exact x.ws

/-- The end of a line: the blanks of its first gap, then `\n`. -/
theorem Shape.line_ends_eq (sh : Shape) : ∃ e es, line_ends (sh.ends.map Gap.text) = e.text ++ 10 ::
    line_ends (es.map Gap.text) ∧ sh.ends = e :: es := by
  obtain ⟨e, es, he⟩ := List.exists_cons_of_ne_nil sh.ends_ne
  exact ⟨e, es, by simp [he, line_ends_eq_flatten], he⟩

@[simp] theorem line_ends_cons (w : List UInt8) (ws : List (List UInt8)) :
    line_ends (w :: ws) = w ++ 10 :: line_ends ws := by
  simp [line_ends_eq_flatten]

/-- After the tokens of a line: no identifier byte, and after the blanks a
    line end. -/
theorem Shape.ends_head (sh : Shape) (rest : List UInt8) :
    (∀ c, (line_ends (sh.ends.map Gap.text) ++ rest).head? = some c → is_ident_char c = false) ∧
      ((line_ends (sh.ends.map Gap.text) ++ rest).dropWhile is_ws).head? = some 10 := by
  obtain ⟨e, es, htext, -⟩ := sh.line_ends_eq
  rw [htext, List.append_assoc, List.cons_append]
  refine ⟨head_not_ident_append e.ws (head_not_ident_of_eq (show [(10 : UInt8)] = [10] from rfl) (by decide)), ?_⟩
  rw [List.dropWhile_append_of_pos e.ws, List.dropWhile_cons_of_neg (by decide)]
  rfl

theorem DefEntry.text_eq (d : DefEntry) (sh : Shape) {a : List UInt8} {as : List (List UInt8)}
    (hattrs : d.attrs.map Ident.text = a :: as) :
    sh.text d.tokens = sh.lead.text ++ d.name.text ++ ((sh.inner.map Gap.text).headD [] ++ ascii_bytes "=" ++
      ((sh.inner.map Gap.text).tail.headD [] ++
        interleave ((a :: as).intersperse (ascii_bytes ",")) (sh.inner.map Gap.text).tail.tail ++
          line_ends (sh.ends.map Gap.text))) := by
  have hX : (a :: as).intersperse (ascii_bytes ",") ≠ [] := by cases as <;> simp
  simp only [Shape.text_eq, Shape.body_eq, DefEntry.tokens_eq, hattrs,
    interleave_cons_of_ne_nil _ _ (List.cons_ne_nil _ _), interleave_cons_of_ne_nil _ _ hX, List.append_assoc]

/-- **A definition line**, in any shape, is read whole. -/
theorem Definition_of {items rest : List UInt8} {pos : Nat} (d : DefEntry) (sh : Shape)
    (h : items.drop pos = sh.text d.tokens ++ rest) (hpos : pos ≤ items.length)
    (hr : (rest.dropWhile is_ws).head? ≠ some 10) :
    Definition ⟨items, pos⟩ =
      some ((d.name.text, d.attrs.map Ident.text), ⟨items, pos + (sh.text d.tokens).length⟩) := by
  obtain ⟨a, as, hattrs⟩ : ∃ a as, d.attrs.map Ident.text = a :: as :=
    List.exists_cons_of_ne_nil (by simpa using d.attrs_ne)
  have hids : ∀ x ∈ a :: as, is_identifier x = true := by
    rw [← hattrs]
    intro x hx
    obtain ⟨i, -, rfl⟩ := List.mem_map.mp hx
    exact i.valid
  obtain ⟨hE1, hE2⟩ := sh.ends_head rest
  have htext := d.text_eq sh hattrs
  -- the name, `=`, the attributes and the line ends, each after its blanks
  have h₀ : items.drop pos = sh.lead.text ++ d.name.text ++ ((sh.inner.map Gap.text).headD [] ++
      ascii_bytes "=" ++ ((sh.inner.map Gap.text).tail.headD [] ++
        interleave ((a :: as).intersperse (ascii_bytes ",")) (sh.inner.map Gap.text).tail.tail ++
          (line_ends (sh.ends.map Gap.text) ++ rest))) := by
    rw [h, htext]; simp only [List.append_assoc]
  have hid := Identifier_of h₀ sh.lead.ws d.name.valid
    (head_not_ident_gap_lit (headD_ws sh.inner_ws) (show ascii_bytes "=" = [ascii '='] from rfl) (by decide))
  have h₁ := drop_append₂_of h₀
  have heq : Equal _ = some (_, _) := str_lit_of h₁ (headD_ws sh.inner_ws) rfl (by decide)
  have h₂ := drop_append₂_of h₁
  have htuple := IdTuple_of h₂ (le_length_of_drop₂ h₁ (le_length_of_drop₂ h₀ hpos))
    (headD_ws (tail_ws sh.inner_ws)) hids (tail_ws (tail_ws sh.inner_ws)) hE1 (by rw [hE2]; decide)
  have h₃ := drop_append₂_of h₂
  have hnl := NewLine_of hr _ _ sh.ends_ws h₃ (le_length_of_drop₂ h₂ (le_length_of_drop₂ h₁
    (le_length_of_drop₂ h₀ hpos)))
  rw [Definition, seq_left_of (seq_of (seq_left_of hid heq) htuple) hnl, hattrs, htext]
  simp only [List.length_append, Option.some.injEq, Prod.mk.injEq, Stream.mk.injEq, true_and]
  omega

/-- `PyExpr`: after blanks, the rest of the line, compiled. -/
theorem PyExpr_with_of {C : Type} (compile : List UInt8 → Option C) {items w line rest : List UInt8}
    {pos : Nat} (h : items.drop pos = w ++ line ++ 10 :: rest) (hw : ∀ b ∈ w, is_ws b = true)
    (hl : 10 ∉ line) (hhead : ∀ c, line.head? = some c → is_ws c = false) :
    PyExpr_with compile ⟨items, pos⟩ =
      (compile line).map fun c => (c, ⟨items, pos + w.length + line.length⟩) := by
  have hr : ∀ b, (line ++ 10 :: rest).head? = some b → is_ws b = false := by
    intro b hb
    cases line with
    | nil =>
        simp only [List.nil_append, List.head?_cons, Option.some.injEq] at hb
        rw [← hb]; decide
    | cons c cs => exact hhead b (by simpa using hb)
  have hskip : skip_ws items pos = pos + w.length := skip_ws_of (by simpa using h) hw hr
  simp only [PyExpr_with_apply, Stream.accept_matcher_eq, hskip,
    pyparser_matcher_with_of compile (drop_append_of (by simpa using h)) hl, Option.map_map]
  rfl

theorem MatcherEntry.text_eq {C : Type} {compile : List UInt8 → Option C} (m : MatcherEntry compile)
    (sh : Shape) : sh.text m.tokens = sh.lead.text ++ m.name.text ++ ((sh.inner.map Gap.text).headD [] ++
      ascii_bytes "=" ++ ((sh.inner.map Gap.text).tail.headD [] ++ m.expr.text ++
        line_ends (sh.ends.map Gap.text))) := by
  simp only [Shape.text_eq, Shape.body_eq, MatcherEntry.tokens_eq,
    interleave_cons_of_ne_nil _ _ (List.cons_ne_nil _ _), interleave_singleton, List.append_assoc]

/-- An expression after `=` is one line that starts with no blank. -/
theorem ExprText.line_ok (e : ExprText) {g : Gap} :
    10 ∉ e.text ++ g.text ∧ ∀ c, (e.text ++ g.text).head? = some c → is_ws c = false := by
  obtain ⟨b, hb, hsp⟩ := e.head_ok
  refine ⟨?_, ?_⟩
  · intro h10
    rcases List.mem_append.mp h10 with h | h
    · exact (e.one_line 10 h).1 rfl
    · rcases g.blank 10 h with h' | h' <;> cases h'
  · intro c hc
    rw [List.head?_append, hb] at hc
    simp only [Option.some_or, Option.some.injEq] at hc
    subst hc
    cases hws : is_ws b
    · rfl
    · rw [is_space_of_is_ws b hws] at hsp; cases hsp

/-- **A section header**, in any shape, is read whole. -/
theorem header_of {items rest t : List UInt8} {pos : Nat} {b : UInt8} {bs : List UInt8}
    (ht : t = b :: bs) (hb : is_ws b = false) (sh : Shape)
    (h : items.drop pos = sh.text [t] ++ rest) (hpos : pos ≤ items.length)
    (hr : (rest.dropWhile is_ws).head? ≠ some 10) :
    (str_lit t).seq_left NewLine ⟨items, pos⟩ = some (t, ⟨items, pos + (sh.text [t]).length⟩) := by
  have h₀ : items.drop pos = sh.lead.text ++ t ++ (line_ends (sh.ends.map Gap.text) ++ rest) := by
    rw [h]; simp [Shape.text_eq, Shape.body_eq, interleave_singleton]
  have hnl := NewLine_of hr _ _ sh.ends_ws (drop_append₂_of h₀) (le_length_of_drop₂ h₀ hpos)
  rw [seq_left_of (str_lit_of h₀ sh.lead.ws ht hb) hnl]
  simp only [Shape.text_eq, Shape.body_eq, interleave_singleton, List.length_append, Nat.add_assoc]

/-- Where the next line starts: after its blanks, its first token. -/
theorem Shape.text_dropWhile (sh : Shape) (ts : List (List UInt8)) (x : List UInt8)
    (hs : Solid (sh.body ts)) :
    (sh.text ts ++ x).dropWhile is_ws = sh.body ts ++ (line_ends (sh.ends.map Gap.text) ++ x) := by
  obtain ⟨c, cs, hc⟩ := List.exists_cons_of_ne_nil hs.1
  have hcs : is_ws c = false := by
    have h := hs.2.1
    rw [hc] at h
    cases hws : is_ws c
    · rfl
    · simp [is_space_of_is_ws c hws] at h
  rw [Shape.text_eq, List.append_assoc, List.append_assoc, List.dropWhile_append_of_pos sh.lead.ws, hc,
    List.cons_append, List.dropWhile_cons_of_neg (by simp [hcs])]

/-- What follows lines in their shapes, after blanks: the first token of
    the first line, or what follows them. -/
theorem shaped_text_dropWhile_head? {rest : List UInt8} :
    ∀ (L : List (Shape × List (List UInt8))), (∀ l ∈ L, Solid (l.1.body l.2)) →
      ((shaped_text L ++ rest).dropWhile is_ws).head? =
        (L.head?.map fun l => l.1.body l.2).elim (rest.dropWhile is_ws).head? List.head?
  | [], _ => by simp [shaped_text_eq]
  | l :: L, hL => by
      have hs := hL l List.mem_cons_self
      have hne := hs.1
      simp only [shaped_text_eq, List.map_cons, List.flatten_cons, List.append_assoc] at ⊢
      rw [Shape.text_dropWhile _ _ _ hs, List.head?_append_of_ne_nil _ hne]
      rfl

/-- Lines with no blank at either end are no empty lines. -/
theorem shaped_text_next {rest : List UInt8} (L : List (Shape × List (List UInt8)))
    (hL : ∀ l ∈ L, Solid (l.1.body l.2)) (hr : (rest.dropWhile is_ws).head? ≠ some 10) :
    ((shaped_text L ++ rest).dropWhile is_ws).head? ≠ some 10 := by
  rw [shaped_text_dropWhile_head? L hL]
  cases L with
  | nil => exact hr
  | cons l L =>
      have hs := (hL l List.mem_cons_self).2.1
      intro h
      simp only [List.head?_cons, Option.map_some, Option.elim_some] at h
      rw [h] at hs
      cases hs

theorem Shape.text_length_pos {sh : Shape} {ts : List (List UInt8)} (hs : Solid (sh.body ts)) :
    0 < (sh.text ts).length := by
  have := List.length_pos_of_ne_nil hs.1
  simp only [Shape.text_eq, List.length_append]
  omega

@[simp] theorem shaped_text_nil : shaped_text [] = [] := rfl

@[simp] theorem shaped_text_cons (l : Shape × List (List UInt8)) (L : List (Shape × List (List UInt8))) :
    shaped_text (l :: L) = l.1.text l.2 ++ shaped_text L := rfl

@[simp] theorem shaped_text_append (L L' : List (Shape × List (List UInt8))) :
    shaped_text (L ++ L') = shaped_text L ++ shaped_text L' := by
  simp [shaped_text_eq]

/-- **`rep` over lines**: each line is read by `p`, and `p` fails where the
    lines stop. -/
theorem rep_lines_of {α E : Type} {p : Parser α} {items rest : List UInt8}
    (line : E → Shape × List (List UInt8)) (val : E → α)
    (hsolid : ∀ e, Solid ((line e).1.body (line e).2))
    (hline : ∀ e pos x, items.drop pos = (line e).1.text (line e).2 ++ x → pos ≤ items.length →
      (x.dropWhile is_ws).head? ≠ some 10 →
        p ⟨items, pos⟩ = some (val e, ⟨items, pos + ((line e).1.text (line e).2).length⟩))
    (hstop : ∀ pos, items.drop pos = rest → p ⟨items, pos⟩ = none)
    (hr : (rest.dropWhile is_ws).head? ≠ some 10) :
    ∀ (es : List E) (pos : Nat), items.drop pos = shaped_text (es.map line) ++ rest → pos ≤ items.length →
      p.rep ⟨items, pos⟩ = some (es.map val, ⟨items, pos + (shaped_text (es.map line)).length⟩)
  | [], pos, h, hpos => by
      simpa using rep_of_none (hstop pos (by simpa using h)) hpos
  | e :: es, pos, h, hpos => by
      have h₀ : items.drop pos = (line e).1.text (line e).2 ++ (shaped_text (es.map line) ++ rest) := by
        rw [h]; simp
      have hnext := shaped_text_next (es.map line) (by
        intro l hl
        obtain ⟨e', -, rfl⟩ := List.mem_map.mp hl
        exact hsolid e') hr
      have hrest := rep_lines_of line val hsolid hline hstop hr es _ (drop_append_of h₀)
        (le_length_of_drop h₀ hpos)
      have hlt : pos < pos + ((line e).1.text (line e).2).length := by
        have := Shape.text_length_pos (hsolid e)
        omega
      rw [rep_of_some (hline e pos _ h₀ hpos hnext) rfl hlt hrest]
      simp only [List.map_cons, shaped_text_cons, List.length_append, Nat.add_assoc]

/-- No definition or matcher where a `[` or the end comes next. -/
theorem line_none_of_bracket {β : Type} (q : Parser β) {items rest : List UInt8} {pos : Nat}
    (h : items.drop pos = rest) (hr : ∀ c, (rest.dropWhile is_ws).head? = some c → c = ascii '[') :
    ((Identifier.seq_left Equal).seq q).seq_left NewLine ⟨items, pos⟩ = none :=
  seq_left_of_none (seq_of_none (seq_left_of_none (Identifier_none h fun c hc => by rw [hr c hc]; decide)))

/-- A header line starts with `[`. -/
theorem header_bracket {t : List UInt8} (ht : t.head? = some (ascii '[')) (sh : Shape)
    (hs : Solid (sh.body [t])) (x : List UInt8) :
    ∀ c, ((sh.text [t] ++ x).dropWhile is_ws).head? = some c → c = ascii '[' := by
  intro c hc
  rw [Shape.text_dropWhile _ _ _ hs, List.head?_append_of_ne_nil _ hs.1] at hc
  simp only [Shape.body_eq, interleave_singleton, ht, Option.some.injEq] at hc
  exact hc.symm

/-- **A section**: its header, then its lines up to a `[` or the end. -/
theorem section_of {α E : Type} {p : Parser α} {items rest t : List UInt8} {b : UInt8} {bs : List UInt8}
    (ht : t = b :: bs) (hb : is_ws b = false) (line : E → Shape × List (List UInt8)) (val : E → α)
    (hsolid : ∀ e, Solid ((line e).1.body (line e).2))
    (hline : ∀ e pos x, items.drop pos = (line e).1.text (line e).2 ++ x → pos ≤ items.length →
      (x.dropWhile is_ws).head? ≠ some 10 →
        p ⟨items, pos⟩ = some (val e, ⟨items, pos + ((line e).1.text (line e).2).length⟩))
    (hstop : ∀ pos, items.drop pos = rest → p ⟨items, pos⟩ = none)
    (hr : ∀ c, (rest.dropWhile is_ws).head? = some c → c = ascii '[')
    (sh : Shape) (es : List E) (pos : Nat)
    (h : items.drop pos = sh.text [t] ++ (shaped_text (es.map line) ++ rest)) (hpos : pos ≤ items.length) :
    ((str_lit t).seq_left NewLine).seq_right p.rep ⟨items, pos⟩ =
      some (es.map val, ⟨items, pos + (sh.text [t]).length + (shaped_text (es.map line)).length⟩) := by
  have hr10 : (rest.dropWhile is_ws).head? ≠ some 10 := fun h10 => absurd (hr 10 h10) (by decide)
  have hnext := shaped_text_next (es.map line) (by
    intro l hl
    obtain ⟨e, -, rfl⟩ := List.mem_map.mp hl
    exact hsolid e) hr10
  have hlines := rep_lines_of line val hsolid hline hstop hr10 es _ (drop_append_of h)
    (le_length_of_drop h hpos)
  rw [seq_right_of (header_of ht hb sh h hpos hnext) hlines]

section Compile

variable {C : Type} {compile : List UInt8 → Option C}

/-- **A matcher line**, in any shape, is read whole, when blanks after an
    expression do not change what it compiles to. -/
theorem Matcher_with_of (htrail : ∀ e w, (∀ b ∈ w, b = 32 ∨ b = 9) → compile (e ++ w) = compile e)
    {items rest : List UInt8} {pos : Nat} (m : MatcherEntry compile) (sh : Shape)
    (h : items.drop pos = sh.text m.tokens ++ rest) (hpos : pos ≤ items.length)
    (hr : (rest.dropWhile is_ws).head? ≠ some 10) :
    Matcher_with compile ⟨items, pos⟩ =
      some ((m.name.text, m.code), ⟨items, pos + (sh.text m.tokens).length⟩) := by
  obtain ⟨e, es, hends, -⟩ := sh.line_ends_eq
  have htext := m.text_eq sh
  rw [hends] at htext
  obtain ⟨hl, hhead⟩ := m.expr.line_ok (g := e)
  -- the name and `=` as in a definition; the expression takes the rest of the line
  have h₀ : items.drop pos = sh.lead.text ++ m.name.text ++ ((sh.inner.map Gap.text).headD [] ++
      ascii_bytes "=" ++ ((sh.inner.map Gap.text).tail.headD [] ++ (m.expr.text ++ e.text) ++
        10 :: (line_ends (es.map Gap.text) ++ rest))) := by
    rw [h, htext]; simp only [List.append_assoc, List.cons_append]
  have hid := Identifier_of h₀ sh.lead.ws m.name.valid
    (head_not_ident_gap_lit (headD_ws sh.inner_ws) (show ascii_bytes "=" = [ascii '='] from rfl) (by decide))
  have h₁ := drop_append₂_of h₀
  have heq : Equal _ = some (_, _) := str_lit_of h₁ (headD_ws sh.inner_ws) rfl (by decide)
  have h₂ := drop_append₂_of h₁
  have hexpr := PyExpr_with_of compile h₂ (headD_ws (tail_ws sh.inner_ws)) hl hhead
  rw [htrail _ _ e.blank, m.compiles, Option.map_some] at hexpr
  -- the line end that is left, and the blank lines after it
  have h₃ := (drop_append₂_of h₂).trans
    (show 10 :: (line_ends (es.map Gap.text) ++ rest) = line_ends ([] :: es.map Gap.text) ++ rest by simp)
  have hws : ∀ g ∈ [] :: es.map Gap.text, ∀ b ∈ g, is_ws b = true := by
    intro g hg
    rcases List.mem_cons.mp hg with rfl | hg
    · simp
    · obtain ⟨x, -, rfl⟩ := List.mem_map.mp hg
      exact x.ws
  have hnl := NewLine_of hr _ _ hws h₃
    (le_length_of_drop₂ h₂ (le_length_of_drop₂ h₁ (le_length_of_drop₂ h₀ hpos)))
  rw [Matcher_with, seq_left_of (seq_of (seq_left_of hid heq) hexpr) hnl, htext]
  simp only [line_ends_cons, List.length_append, List.length_cons, List.length_nil, Option.some.injEq,
    Prod.mk.injEq, Stream.mk.injEq, true_and]
  omega

theorem Shaped.solid (m : Shaped compile) : ∀ l ∈ m.lines, Solid (l.1.body l.2) := by
  intro l hl
  simp only [Shaped.lines, List.cons_append, List.mem_cons, List.mem_append, List.mem_map,
    or_assoc] at hl
  rcases hl with rfl | ⟨e, -, rfl⟩ | rfl | ⟨e, -, rfl⟩ | rfl | ⟨e, -, rfl⟩
  · exact header_solid _ _ (by decide)
  · exact e.1.body_solid _
  · exact header_solid _ _ (by decide)
  · exact e.1.body_solid _
  · exact header_solid _ _ (by decide)
  · exact e.1.body_solid _

/-- **The grammar reads a model in its shapes**: `[R, T, M]`, and the end
    of the text. -/
theorem ModelDef_with_shaped
    (htrail : ∀ e w, (∀ b ∈ w, b = 32 ∨ b = 9) → compile (e ++ w) = compile e) (m : Shaped compile) :
    ModelDef_with compile ⟨m.text, 0⟩ = some (m.model, ⟨m.text, m.text.length⟩) := by
  have htext : m.text = m.requests.text [ascii_bytes "[requests]"] ++
      (shaped_text (m.request_def.map fun e => (e.2, e.1.tokens)) ++
      (m.terms.text [ascii_bytes "[terms]"] ++ (shaped_text (m.term_def.map fun e => (e.2, e.1.tokens)) ++
      (m.matchers.text [ascii_bytes "[matchers]"] ++
        (shaped_text (m.matcher_def.map fun e => (e.2, e.1.tokens)) ++ []))))) := by
    simp [Shaped.text, Shaped.lines, requests_tokens, terms_tokens, matchers_tokens]
  -- each section ends where the next header starts, the last at the end
  have hbrT := header_bracket (t := ascii_bytes "[terms]") rfl m.terms (header_solid "[terms]" _ (by decide))
    (shaped_text (m.term_def.map fun e => (e.2, e.1.tokens)) ++ (m.matchers.text [ascii_bytes "[matchers]"] ++
      (shaped_text (m.matcher_def.map fun e => (e.2, e.1.tokens)) ++ [])))
  have hbrM := header_bracket (t := ascii_bytes "[matchers]") rfl m.matchers
    (header_solid "[matchers]" _ (by decide)) (shaped_text (m.matcher_def.map fun e => (e.2, e.1.tokens)) ++ [])
  have hbrE : ∀ c, (([] : List UInt8).dropWhile is_ws).head? = some c → c = ascii '[' := by simp
  have h₀ : m.text.drop 0 = _ := (List.drop_zero).trans htext
  have hR : RequestDefSec ⟨m.text, 0⟩ = some (_, _) := section_of (p := Definition) (t := ascii_bytes "[requests]") rfl (by decide)
    (fun e : DefEntry × Shape => (e.2, e.1.tokens)) (fun e => (e.1.name.text, e.1.attrs.map Ident.text))
    (fun e => e.1.body_solid _) (fun e _ _ h hpos hx => Definition_of e.1 e.2 h hpos hx)
    (fun _ h => line_none_of_bracket _ h hbrT) hbrT m.requests m.request_def 0 h₀ (Nat.zero_le _)
  have h₁ := drop_append₂_of (h₀.trans (List.append_assoc _ _ _).symm)
  have hpos₁ := le_length_of_drop₂ (h₀.trans (List.append_assoc _ _ _).symm) (Nat.zero_le _)
  have hT : TermDefSec ⟨m.text, _⟩ = some (_, _) := section_of (p := Definition) (t := ascii_bytes "[terms]") rfl (by decide)
    (fun e : DefEntry × Shape => (e.2, e.1.tokens)) (fun e => (e.1.name.text, e.1.attrs.map Ident.text))
    (fun e => e.1.body_solid _) (fun e _ _ h hpos hx => Definition_of e.1 e.2 h hpos hx)
    (fun _ h => line_none_of_bracket _ h hbrM) hbrM m.terms m.term_def _ h₁ hpos₁
  have h₂ := drop_append₂_of (h₁.trans (List.append_assoc _ _ _).symm)
  have hpos₂ := le_length_of_drop₂ (h₁.trans (List.append_assoc _ _ _).symm) hpos₁
  have hM : MatchersSec_with compile ⟨m.text, _⟩ = some (_, _) := section_of (p := Matcher_with compile) (t := ascii_bytes "[matchers]") rfl (by decide)
    (fun e : MatcherEntry compile × Shape => (e.2, e.1.tokens)) (fun e => (e.1.name.text, e.1.code))
    (fun e => e.1.body_solid _) (fun e _ _ h hpos hx => Matcher_with_of htrail e.1 e.2 h hpos hx)
    (fun _ h => line_none_of_bracket _ h hbrE) hbrE m.matchers m.matcher_def _ h₂ hpos₂
  rw [ModelDef_with, map_of _ (seq_of (seq_of hR hT) hM)]
  have hlen := congrArg List.length htext
  simp only [List.length_append, List.length_nil] at hlen
  simp only [Shaped.model, Option.some.injEq, Prod.mk.injEq, Stream.mk.injEq, true_and]
  omega

theorem Shaped.parse (htrail : ∀ e w, (∀ b ∈ w, b = 32 ∨ b = 9) → compile (e ++ w) = compile e)
    (m : Shaped compile) : (ModelDef_with compile).parse_from ⟨m.text, 0⟩ = some m.model :=
  parse_from_of (ModelDef_with_shaped htrail m) (by simp [Stream.is_end])

/-- A change to the last item that `h` does not see. -/
theorem map_modifyLast_of_eq {α β : Type} (f : α → α) (h : α → β) (hf : ∀ a, h (f a) = h a) :
    ∀ (l : List α), (l.modifyLast f).map h = l.map h := by
  intro l
  induction l using List.reverseRecOn with
  | nil => rfl
  | append_singleton l a _ =>
      rw [List.modifyLast_concat, List.map_append, List.map_append, List.map_singleton,
        List.map_singleton, hf]

/-- The shapes `preprocess` leaves do not change what the model defines. -/
theorem Written.shaped_model (w : Written compile) : w.shaped.model = w.model := by
  have hM := map_modifyLast_of_eq (fun e : MatcherEntry compile × Shape => (e.1, e.2.closed))
    (fun e => (e.1.name.text, e.1.code)) (fun _ => rfl) (w.matcher_def.map fun e => (e.1, e.2.shape))
  simp only [Shaped.model, Written.shaped, Written.model, hM, List.map_map, Function.comp_def]

/-- **The round trip**: a written model, with continuations put after
    spaces, parses to what it defines. -/
theorem parse_model_with_written
    (htrail : ∀ e w, (∀ b ∈ w, b = 32 ∨ b = 9) → compile (e ++ w) = compile e)
    (w : Written compile) {D : List UInt8} (hD : Continued w.text D) :
    parse_model_with compile D = some w.model := by
  rw [parse_model_with, preprocess_of_continued hD, preprocess_written, Shaped.parse htrail,
    w.shaped_model]

end Compile

/-! ## §4. Every `rep` of the grammar returns. -/

theorem identifier_matcher_bound (text : List UInt8) (pos : Nat) (r : List UInt8 × Nat)
    (h : identifier_matcher text pos = some r) : pos < r.2 ∧ r.2 ≤ text.length := by
  unfold identifier_matcher at h
  split at h
  · cases h
  · rename_i first rest hdrop
    split at h
    · cases h
    · simp only [Option.some.injEq] at h
      subst h
      have hl := congrArg List.length hdrop
      have ht := (List.takeWhile_sublist (l := rest) fun c => c == ascii '_' || is_alpha c || is_digit c).length_le
      simp only [List.length_drop, List.length_cons] at hl
      exact ⟨by omega, by simp only; omega⟩

theorem pyparser_matcher_with_bound {C : Type} (compile : List UInt8 → Option C) (text : List UInt8)
    (pos : Nat) (r : C × Nat) (h : pyparser_matcher_with compile text pos = some r) :
    pos ≤ r.2 ∧ r.2 ≤ text.length := by
  unfold pyparser_matcher_with at h
  dsimp only at h
  split at h
  · rename_i hnl
    obtain ⟨c, -, rfl⟩ := Option.map_eq_some_iff.mp h
    have hne : text.drop pos ≠ [] := by
      intro h0
      rw [h0] at hnl
      cases hnl
    have hl := (List.takeWhile_sublist (l := text.drop pos) fun b => b != 10).length_le
    have hd := List.length_pos_of_ne_nil hne
    simp only [List.length_drop] at hl hd
    exact ⟨Nat.le_add_right _ _, by simp only; omega⟩
  · cases h

theorem Identifier_advancing : Identifier.Advancing := custom_advancing identifier_matcher_bound

theorem NewLine_forward : NewLine.Forward := (str_lit_advancing rfl (by decide)).forward.rep

theorem comma_ident_advancing : (Comma.seq_right Identifier).Advancing :=
  (str_lit_advancing rfl (by decide)).seq_right Identifier_advancing.forward

theorem IdTuple_advancing : IdTuple.Advancing := by
  intro s r h
  simp only [IdTuple_eq] at h
  obtain ⟨r₁, h₁, rfl⟩ := map_eq_some.mp h
  exact (Identifier_advancing.seq comma_ident_advancing.forward.rep) s r₁ h₁

/-- A line starts with its name, which moves forward. -/
theorem line_advancing {β : Type} {q : Parser β} (hq : q.Forward) :
    (((Identifier.seq_left Equal).seq q).seq_left NewLine).Advancing :=
  ((Identifier_advancing.seq_left (str_lit_advancing rfl (by decide)).forward).seq hq).seq_left
    NewLine_forward

theorem Definition_advancing : Definition.Advancing := line_advancing IdTuple_advancing.forward

theorem Matcher_with_advancing {C : Type} (compile : List UInt8 → Option C) :
    (Matcher_with compile).Advancing :=
  line_advancing (custom_forward (pyparser_matcher_with_bound compile))

/-! ## §5. What `acs_setup_model` accepts. -/

/-- `Model.__init__` succeeds exactly when the request names are the
    matcher names and no request is a term. -/
theorem Model.new_isSome_iff (raw : RawModel) :
    (Model.new raw).isSome ↔
      (∀ n, n ∈ raw.request_def.map (·.1) ↔ n ∈ raw.matchers.map (·.1)) ∧
        ∀ n ∈ raw.request_def.map (·.1), n ∉ raw.term_def.map (·.1) := by
  unfold Model.new
  dsimp only
  simp only [List.any_eq_true, List.contains_iff_mem, Bool.not_eq_eq_eq_not, Bool.not_true,
    Bool.eq_false_iff, ne_eq]
  split_ifs with h₁ h₂ h₃
  · -- a request is a term: `redundant_def`
    obtain ⟨n, hR, hT⟩ := h₁
    simp only [Option.isSome_none, Bool.false_eq_true, false_iff, not_and]
    exact fun _ h => h n hR hT
  · -- a request without a matcher: `missing_matchers`
    obtain ⟨n, hR, hM⟩ := h₂
    simp only [Option.isSome_none, Bool.false_eq_true, false_iff, not_and]
    exact fun h _ => hM ((h n).mp hR)
  · -- a matcher that is no request: `unknown_requests`
    obtain ⟨n, hM, hR⟩ := h₃
    simp only [Option.isSome_none, Bool.false_eq_true, false_iff, not_and]
    exact fun h _ => hR ((h n).mpr hM)
  · push Not at h₁ h₂ h₃
    simp only [Option.isSome_some, true_iff]
    exact ⟨fun n => ⟨h₂ n, h₃ n⟩, h₁⟩

/-- **`acs_setup_model` returns `0`** exactly when the text parses, the
    request names are the matcher names, and no request is a term. -/
theorem acs_setup_model_ok_iff (global_perm_model : Option Model) (conf : List UInt8) :
    (acs_setup_model global_perm_model conf).2 = 0 ↔
      ∃ raw, parse_model conf = some raw ∧
        (∀ n, n ∈ raw.request_def.map (·.1) ↔ n ∈ raw.matchers.map (·.1)) ∧
          ∀ n ∈ raw.request_def.map (·.1), n ∉ raw.term_def.map (·.1) := by
  unfold acs_setup_model
  cases hp : parse_model conf with
  | none => simp
  | some raw =>
      simp only [Option.bind_some, Option.some.injEq, exists_eq_left', ← Model.new_isSome_iff]
      cases Model.new raw <;> simp

/-! ## §6. The front end. -/

/-- One space. -/
def Gap.one : Gap := ⟨[32], by simp⟩

/-- `[requests]`, `launch = task, user`, `[terms]`, `owner = task, user`,
    `[matchers]`, `launch = owner`, one space around each `=` and after each
    `,`, and a comment on the last line. -/
def sample_written : Written fun _ : List UInt8 => some () where
  pre := []
  requests := ⟨Gap.nil, [], Gap.nil, none, []⟩
  request_def := [(⟨⟨ascii_bytes "launch", by decide⟩,
    [⟨ascii_bytes "task", by decide⟩, ⟨ascii_bytes "user", by decide⟩], by simp⟩,
    ⟨Gap.nil, [Gap.one, Gap.one, Gap.nil, Gap.one], Gap.nil, none, []⟩)]
  terms := ⟨Gap.nil, [], Gap.nil, none, []⟩
  term_def := [(⟨⟨ascii_bytes "owner", by decide⟩,
    [⟨ascii_bytes "task", by decide⟩, ⟨ascii_bytes "user", by decide⟩], by simp⟩,
    ⟨Gap.nil, [Gap.one, Gap.one, Gap.nil, Gap.one], Gap.nil, none, []⟩)]
  matchers := ⟨Gap.nil, [], Gap.nil, none, []⟩
  matcher_def := [(⟨⟨ascii_bytes "launch", by decide⟩,
    ⟨ascii_bytes "owner", by decide, by decide, ⟨ascii 'o', rfl, by decide⟩,
      fun b hb => by cases hb; decide⟩, (), rfl⟩,
    ⟨Gap.nil, [Gap.one, Gap.one], Gap.one, some ⟨ascii_bytes " ok", by decide, by decide⟩, []⟩)]

end Teaclave.Acs
