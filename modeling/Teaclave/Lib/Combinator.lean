/-
  Teaclave.Lib.Combinator
  ───────────────────────
  **PARSER COMBINATORS OVER A POSITIONED STREAM.**

  A parser reads a `Stream` (a text and a position in it) and either fails
  or returns a payload and the stream after it.  The combinators are those
  of a small Python library of parser classes:

      str_lit   a literal, after blanks        custom   a matcher on (text, pos)
      seq       both, the pair of payloads     seq_left / seq_right   both, one payload
      alt       the first that succeeds, tagged      rep   zero or more
      opt       at most one                    map      the payload transformed

  Both `str_lit` and `custom` skip the blanks `' '`, `'\t'`, `'\r'` first.
  `rep` stops at the first failure; an item that succeeds without moving
  the position would repeat forever (Python's recursion limit), and fails.

    • `rep_of_none`, `rep_of_some`: what `rep` returns, item by item.
    • `rep_isSome`: `rep` of a parser that always moves forward returns, so
      its fuel never decides the result.
    • `str_lit_of`, `str_lit_none`, `str_lit_none_of`: a literal after
      blanks is read, or not.

  Nothing here names the repository.
-/
import Mathlib

namespace Teaclave.Lib

/-! ## §1. Streams. -/

/-- A text and a position in it. -/
structure Stream where
  items : List UInt8
  pos : Nat
  deriving DecidableEq, Repr

/-- The blanks skipped before a literal or a matcher. -/
def is_ws (b : UInt8) : Bool := b == 32 || b == 9 || b == 13

theorem is_ws_eq (b : UInt8) : is_ws b = (b == 32 || b == 9 || b == 13) := rfl

/-- The position after the blanks at `pos`. -/
def skip_ws (items : List UInt8) (pos : Nat) : Nat :=
  pos + ((items.drop pos).takeWhile is_ws).length

theorem skip_ws_eq (items : List UInt8) (pos : Nat) :
    skip_ws items pos = pos + ((items.drop pos).takeWhile is_ws).length := rfl

/-- Whether `items` has `s` at `pos`. -/
def starts_with_at (items s : List UInt8) (pos : Nat) : Bool :=
  pos ≤ items.length && (items.drop pos).take s.length == s

theorem starts_with_at_eq (items s : List UInt8) (pos : Nat) :
    starts_with_at items s pos = (pos ≤ items.length && (items.drop pos).take s.length == s) := rfl

def Stream.is_end (s : Stream) : Bool := s.pos == s.items.length

/-- `Stream.accept_strlit`: the literal after blanks.  A literal that starts
    with blanks needs at least as many characters before the position. -/
def Stream.accept_strlit (s : Stream) (string : List UInt8) : Option Stream :=
  let pos := skip_ws s.items s.pos
  let match_pos := (string.takeWhile is_ws).length
  if pos < match_pos then none
  else
    let string := string.drop match_pos
    if starts_with_at s.items string pos then some ⟨s.items, pos + string.length⟩ else none

theorem Stream.accept_strlit_eq (s : Stream) (string : List UInt8) :
    s.accept_strlit string =
      if skip_ws s.items s.pos < (string.takeWhile is_ws).length then none
      else if starts_with_at s.items (string.drop (string.takeWhile is_ws).length) (skip_ws s.items s.pos) then
        some ⟨s.items, skip_ws s.items s.pos + (string.drop (string.takeWhile is_ws).length).length⟩
      else none := rfl

/-- `Stream.accept_matcher`: the matcher after blanks. -/
def Stream.accept_matcher {α : Type} (s : Stream) (matcher : List UInt8 → Nat → Option (α × Nat)) :
    Option (α × Stream) :=
  (matcher s.items (skip_ws s.items s.pos)).map fun r => (r.1, ⟨s.items, r.2⟩)

theorem Stream.accept_matcher_eq {α : Type} (s : Stream) (matcher : List UInt8 → Nat → Option (α × Nat)) :
    s.accept_matcher matcher = (matcher s.items (skip_ws s.items s.pos)).map fun r => (r.1, ⟨s.items, r.2⟩) :=
  rfl

/-! ## §2. Parsers. -/

/-- A parser: the payload and the stream after it, or a failure. -/
def Parser (α : Type) : Type := Stream → Option (α × Stream)

section Combinators

variable {α β : Type}

/-- `StrLiteral`: the literal itself is the payload. -/
def str_lit (string : List UInt8) : Parser (List UInt8) := fun s =>
  if s.is_end then none else (s.accept_strlit string).map fun s' => (string, s')

theorem str_lit_apply (string : List UInt8) (s : Stream) :
    str_lit string s = if s.is_end then none else (s.accept_strlit string).map fun s' => (string, s') := rfl

/-- `CustomMatcher`. -/
def custom (matcher : List UInt8 → Nat → Option (α × Nat)) : Parser α := fun s =>
  s.accept_matcher matcher

theorem custom_apply (matcher : List UInt8 → Nat → Option (α × Nat)) (s : Stream) :
    custom matcher s = s.accept_matcher matcher := rfl

/-- `Concat` of two parsers that keep their payloads: the pair. -/
def Parser.seq (p : Parser α) (q : Parser β) : Parser (α × β) := fun s => do
  let r ← p s
  let r' ← q r.2
  pure ((r.1, r'.1), r'.2)

theorem Parser.seq_apply (p : Parser α) (q : Parser β) (s : Stream) :
    p.seq q s = (do
      let r ← p s
      let r' ← q r.2
      pure ((r.1, r'.1), r'.2)) := rfl

/-- `Concat` whose second part is ignored. -/
def Parser.seq_left (p : Parser α) (q : Parser β) : Parser α := fun s => do
  let r ← p s
  let r' ← q r.2
  pure (r.1, r'.2)

theorem Parser.seq_left_apply (p : Parser α) (q : Parser β) (s : Stream) :
    p.seq_left q s = (do
      let r ← p s
      let r' ← q r.2
      pure (r.1, r'.2)) := rfl

/-- `Concat` whose first part is ignored. -/
def Parser.seq_right (p : Parser α) (q : Parser β) : Parser β := fun s => do
  let r ← p s
  q r.2

theorem Parser.seq_right_apply (p : Parser α) (q : Parser β) (s : Stream) :
    p.seq_right q s = (do
      let r ← p s
      q r.2) := rfl

/-- `Or`: the first alternative that succeeds, `Left` or `Right`. -/
def Parser.alt (p : Parser α) (q : Parser β) : Parser (α ⊕ β) := fun s =>
  match p s with
  | some r => some (.inl r.1, r.2)
  | none => (q s).map fun r => (.inr r.1, r.2)

/-- `Optional`. -/
def Parser.opt (p : Parser α) : Parser (Option α) := fun s =>
  match p s with
  | some r => some (some r.1, r.2)
  | none => some (none, s)

/-- `Apply`. -/
def Parser.map (p : Parser α) (f : α → β) : Parser β := fun s =>
  (p s).map fun r => (f r.1, r.2)

theorem Parser.map_apply (p : Parser α) (f : α → β) (s : Stream) :
    p.map f s = (p s).map fun r => (f r.1, r.2) := rfl

/-- `Rep`, for at most `fuel` items. -/
def Parser.rep_fuel (p : Parser α) : Nat → Parser (List α)
  | 0, _ => none
  | fuel + 1, s =>
      match p s with
      | none => some ([], s)
      | some r =>
          if s.pos < r.2.pos then
            ((p.rep_fuel fuel) r.2).map fun r' => (r.1 :: r'.1, r'.2)
          else none

theorem Parser.rep_fuel_zero (p : Parser α) (s : Stream) : p.rep_fuel 0 s = none := rfl

theorem Parser.rep_fuel_succ (p : Parser α) (fuel : Nat) (s : Stream) :
    p.rep_fuel (fuel + 1) s =
      match p s with
      | none => some ([], s)
      | some r =>
          if s.pos < r.2.pos then
            ((p.rep_fuel fuel) r.2).map fun r' => (r.1 :: r'.1, r'.2)
          else none := rfl

/-- `Rep`: items while they succeed.  Each moves the position forward, so
    one more than the rest of the text is enough. -/
def Parser.rep (p : Parser α) : Parser (List α) := fun s =>
  p.rep_fuel (s.items.length + 1 - s.pos) s

theorem Parser.rep_apply (p : Parser α) (s : Stream) :
    p.rep s = p.rep_fuel (s.items.length + 1 - s.pos) s := rfl

/-- `Parser.parse_from`: success, and the end of the text. -/
def Parser.parse_from (p : Parser α) (s : Stream) : Option α :=
  match p s with
  | some r => if r.2.is_end then some r.1 else none
  | none => none

theorem Parser.parse_from_eq (p : Parser α) (s : Stream) :
    p.parse_from s =
      match p s with
      | some r => if r.2.is_end then some r.1 else none
      | none => none := rfl

end Combinators

/-! ## §3. What the combinators compute. -/

section Laws

variable {α β γ : Type}

theorem rep_fuel_mono (p : Parser α) :
    ∀ {n m : Nat} {s : Stream} {r : List α × Stream}, p.rep_fuel n s = some r → n ≤ m →
      p.rep_fuel m s = some r
  | 0, _, _, _, h, _ => by simp [Parser.rep_fuel_zero] at h
  | n + 1, m, s, r, h, hle => by
      obtain ⟨m, rfl⟩ : ∃ m', m = m' + 1 := ⟨m - 1, by omega⟩
      rw [Parser.rep_fuel_succ] at h ⊢
      cases hp : p s with
      | none => rw [hp] at h; exact h
      | some r₁ =>
          rw [hp] at h
          simp only at h ⊢
          split_ifs at h ⊢ with hlt
          obtain ⟨r', h', rfl⟩ := Option.map_eq_some_iff.mp h
          rw [rep_fuel_mono p h' (by omega), Option.map_some]

/-- `rep` with no item: the stream is left where it was. -/
theorem rep_of_none {p : Parser α} {s : Stream} (hp : p s = none) (hpos : s.pos ≤ s.items.length) :
    p.rep s = some ([], s) := by
  obtain ⟨k, hk⟩ : ∃ k, s.items.length + 1 - s.pos = k + 1 := ⟨s.items.length - s.pos, by omega⟩
  simp only [Parser.rep_apply, hk, Parser.rep_fuel_succ, hp]

/-- `rep` with one more item, which moves forward in the same text. -/
theorem rep_of_some {p : Parser α} {s s' s'' : Stream} {v : α} {vs : List α}
    (hp : p s = some (v, s')) (hitems : s'.items = s.items) (hlt : s.pos < s'.pos)
    (hrest : p.rep s' = some (vs, s'')) : p.rep s = some (v :: vs, s'') := by
  have hfuel : s'.items.length + 1 - s'.pos ≠ 0 := by
    intro h0
    simp [Parser.rep_apply, h0, Parser.rep_fuel_zero] at hrest
  have hL : s'.items.length = s.items.length := by rw [hitems]
  have hrest' : p.rep_fuel (s.items.length - s.pos) s' = some (vs, s'') :=
    rep_fuel_mono p hrest (by omega)
  obtain ⟨k, hk⟩ : ∃ k, s.items.length + 1 - s.pos = k + 1 := ⟨s.items.length - s.pos, by omega⟩
  have hk' : k = s.items.length - s.pos := by omega
  simp only [Parser.rep_apply, hk, Parser.rep_fuel_succ, hp, hlt, if_true]
  rw [hk', hrest', Option.map_some]

theorem seq_of {p : Parser α} {q : Parser β} {s s₁ s₂ : Stream} {a : α} {b : β}
    (hp : p s = some (a, s₁)) (hq : q s₁ = some (b, s₂)) : p.seq q s = some ((a, b), s₂) := by
  simp only [Parser.seq_apply, hp, hq, Option.bind_eq_bind, Option.bind_some, Option.pure_def]

theorem seq_left_of {p : Parser α} {q : Parser β} {s s₁ s₂ : Stream} {a : α} {b : β}
    (hp : p s = some (a, s₁)) (hq : q s₁ = some (b, s₂)) : p.seq_left q s = some (a, s₂) := by
  simp only [Parser.seq_left_apply, hp, hq, Option.bind_eq_bind, Option.bind_some, Option.pure_def]

theorem seq_right_of {p : Parser α} {q : Parser β} {s s₁ s₂ : Stream} {a : α} {b : β}
    (hp : p s = some (a, s₁)) (hq : q s₁ = some (b, s₂)) : p.seq_right q s = some (b, s₂) := by
  simp only [Parser.seq_right_apply, hp, hq, Option.bind_eq_bind, Option.bind_some]

theorem seq_of_none {p : Parser α} {q : Parser β} {s : Stream} (hp : p s = none) :
    p.seq q s = none := by
  simp only [Parser.seq_apply, hp, Option.bind_eq_bind, Option.bind_none]

theorem seq_left_of_none {p : Parser α} {q : Parser β} {s : Stream} (hp : p s = none) :
    p.seq_left q s = none := by
  simp only [Parser.seq_left_apply, hp, Option.bind_eq_bind, Option.bind_none]

theorem map_of {p : Parser α} {s s' : Stream} {a : α} (f : α → β) (hp : p s = some (a, s')) :
    p.map f s = some (f a, s') := by
  simp only [Parser.map_apply, hp, Option.map_some]

theorem parse_from_of {p : Parser α} {s s' : Stream} {a : α} (hp : p s = some (a, s'))
    (hend : s'.is_end = true) : p.parse_from s = some a := by
  simp only [Parser.parse_from_eq, hp, hend, if_true]

theorem parse_from_map (p : Parser α) (f : α → β) (s : Stream) :
    (p.map f).parse_from s = (p.parse_from s).map f := by
  simp only [Parser.parse_from_eq, Parser.map_apply]
  cases p s with
  | none => rfl
  | some r => by_cases h : r.2.is_end <;> simp [h]

end Laws

/-! ## §4. Parsers that move forward, and the end of `rep`.

Python's `Rep` calls itself after each item, so it returns exactly when
the items run out; an item that succeeds without moving would recurse for
ever.  For an item that always moves forward, `rep`'s fuel is never the
reason it stops (`rep_isSome`). -/

section Forward

variable {α β : Type}

/-- Each success keeps the text and ends neither before the start nor past
    the end. -/
def Parser.Forward (p : Parser α) : Prop :=
  ∀ s r, p s = some r → r.2.items = s.items ∧ s.pos ≤ r.2.pos ∧ r.2.pos ≤ s.items.length

/-- Each success moves strictly forward. -/
def Parser.Advancing (p : Parser α) : Prop :=
  ∀ s r, p s = some r → r.2.items = s.items ∧ s.pos < r.2.pos ∧ r.2.pos ≤ s.items.length

variable {p : Parser α} {q : Parser β}

theorem Parser.Advancing.forward (hp : p.Advancing) : p.Forward := fun s r h =>
  let ⟨h1, h2, h3⟩ := hp s r h
  ⟨h1, Nat.le_of_lt h2, h3⟩

theorem seq_eq_some {s : Stream} {r : (α × β) × Stream} :
    p.seq q s = some r ↔ ∃ r₁ r₂, p s = some r₁ ∧ q r₁.2 = some r₂ ∧ r = ((r₁.1, r₂.1), r₂.2) := by
  simp only [Parser.seq_apply, Option.bind_eq_bind, Option.bind_eq_some_iff, Option.pure_def,
    Option.some.injEq]
  constructor
  · rintro ⟨r₁, h₁, r₂, h₂, rfl⟩
    exact ⟨r₁, r₂, h₁, h₂, rfl⟩
  · rintro ⟨r₁, r₂, h₁, h₂, rfl⟩
    exact ⟨r₁, h₁, r₂, h₂, rfl⟩

theorem seq_left_eq_some {s : Stream} {r : α × Stream} :
    p.seq_left q s = some r ↔ ∃ r₁ r₂, p s = some r₁ ∧ q r₁.2 = some r₂ ∧ r = (r₁.1, r₂.2) := by
  simp only [Parser.seq_left_apply, Option.bind_eq_bind, Option.bind_eq_some_iff, Option.pure_def,
    Option.some.injEq]
  constructor
  · rintro ⟨r₁, h₁, r₂, h₂, rfl⟩
    exact ⟨r₁, r₂, h₁, h₂, rfl⟩
  · rintro ⟨r₁, r₂, h₁, h₂, rfl⟩
    exact ⟨r₁, h₁, r₂, h₂, rfl⟩

theorem seq_right_eq_some {s : Stream} {r : β × Stream} :
    p.seq_right q s = some r ↔ ∃ r₁, p s = some r₁ ∧ q r₁.2 = some r := by
  simp only [Parser.seq_right_apply, Option.bind_eq_bind, Option.bind_eq_some_iff]

theorem map_eq_some {f : α → β} {s : Stream} {r : β × Stream} :
    p.map f s = some r ↔ ∃ r₁, p s = some r₁ ∧ r = (f r₁.1, r₁.2) := by
  simp only [Parser.map_apply, Option.map_eq_some_iff]
  constructor
  · rintro ⟨r₁, h₁, rfl⟩
    exact ⟨r₁, h₁, rfl⟩
  · rintro ⟨r₁, h₁, rfl⟩
    exact ⟨r₁, h₁, rfl⟩

theorem Parser.Advancing.seq (hp : p.Advancing) (hq : q.Forward) : (p.seq q).Advancing := by
  intro s r h
  obtain ⟨r₁, r₂, h₁, h₂, rfl⟩ := seq_eq_some.mp h
  obtain ⟨i₁, l₁, b₁⟩ := hp s r₁ h₁
  obtain ⟨i₂, l₂, b₂⟩ := hq r₁.2 r₂ h₂
  dsimp only
  exact ⟨i₂.trans i₁, by omega, by rw [← i₁]; exact b₂⟩

theorem Parser.Advancing.seq_left (hp : p.Advancing) (hq : q.Forward) : (p.seq_left q).Advancing := by
  intro s r h
  obtain ⟨r₁, r₂, h₁, h₂, rfl⟩ := seq_left_eq_some.mp h
  obtain ⟨i₁, l₁, b₁⟩ := hp s r₁ h₁
  obtain ⟨i₂, l₂, b₂⟩ := hq r₁.2 r₂ h₂
  dsimp only
  exact ⟨i₂.trans i₁, by omega, by rw [← i₁]; exact b₂⟩

theorem Parser.Advancing.seq_right (hp : p.Advancing) (hq : q.Forward) : (p.seq_right q).Advancing := by
  intro s r h
  obtain ⟨r₁, h₁, h₂⟩ := seq_right_eq_some.mp h
  obtain ⟨i₁, l₁, -⟩ := hp s r₁ h₁
  obtain ⟨i₂, l₂, b₂⟩ := hq r₁.2 r h₂
  exact ⟨i₂.trans i₁, by omega, by rw [← i₁]; exact b₂⟩

theorem Parser.Forward.seq (hp : p.Forward) (hq : q.Forward) : (p.seq q).Forward := by
  intro s r h
  obtain ⟨r₁, r₂, h₁, h₂, rfl⟩ := seq_eq_some.mp h
  obtain ⟨i₁, l₁, b₁⟩ := hp s r₁ h₁
  obtain ⟨i₂, l₂, b₂⟩ := hq r₁.2 r₂ h₂
  dsimp only
  exact ⟨i₂.trans i₁, by omega, by rw [← i₁]; exact b₂⟩

theorem Parser.Forward.seq_right (hp : p.Forward) (hq : q.Forward) : (p.seq_right q).Forward := by
  intro s r h
  obtain ⟨r₁, h₁, h₂⟩ := seq_right_eq_some.mp h
  obtain ⟨i₁, l₁, b₁⟩ := hp s r₁ h₁
  obtain ⟨i₂, l₂, b₂⟩ := hq r₁.2 r h₂
  exact ⟨i₂.trans i₁, by omega, by rw [← i₁]; exact b₂⟩

theorem Parser.Forward.map (hp : p.Forward) (f : α → β) : (p.map f).Forward := by
  intro s r h
  obtain ⟨r₁, h₁, rfl⟩ := map_eq_some.mp h
  exact hp s r₁ h₁

theorem rep_fuel_forward (hp : p.Forward) :
    ∀ (n : Nat) (s : Stream) (r : List α × Stream), s.pos ≤ s.items.length →
      p.rep_fuel n s = some r → r.2.items = s.items ∧ s.pos ≤ r.2.pos ∧ r.2.pos ≤ s.items.length
  | 0, _, _, _, h => by simp [Parser.rep_fuel_zero] at h
  | n + 1, s, r, hpos, h => by
      rw [Parser.rep_fuel_succ] at h
      cases hps : p s with
      | none =>
          rw [hps] at h
          cases h
          exact ⟨rfl, le_refl _, hpos⟩
      | some r₁ =>
          rw [hps] at h
          simp only at h
          split_ifs at h with hlt
          obtain ⟨r', h', rfl⟩ := Option.map_eq_some_iff.mp h
          obtain ⟨i₁, -, b₁⟩ := hp s r₁ hps
          obtain ⟨i₂, l₂, b₂⟩ := rep_fuel_forward hp n r₁.2 r' (by rw [i₁]; exact b₁) h'
          dsimp only
          exact ⟨i₂.trans i₁, by omega, by rw [← i₁]; exact b₂⟩

theorem Parser.Forward.rep (hp : p.Forward) : p.rep.Forward := by
  intro s r h
  have hpos : s.pos ≤ s.items.length := by
    by_contra hlt
    have h0 : s.items.length + 1 - s.pos = 0 := by omega
    simp [Parser.rep_apply, h0, Parser.rep_fuel_zero] at h
  exact rep_fuel_forward hp _ s r hpos h

/-- **`rep` of an advancing parser always returns.** -/
theorem rep_isSome (hp : p.Advancing) {s : Stream} (hpos : s.pos ≤ s.items.length) :
    (p.rep s).isSome := by
  suffices h : ∀ n (s : Stream), s.pos ≤ s.items.length → s.items.length + 1 - s.pos ≤ n →
      (p.rep_fuel n s).isSome from h _ s hpos (le_refl _)
  intro n
  induction n with
  | zero => intro s hpos hn; omega
  | succ n ih =>
      intro s hpos hn
      rw [Parser.rep_fuel_succ]
      cases hps : p s with
      | none => rfl
      | some r =>
          obtain ⟨hi, hlt, hb⟩ := hp s r hps
          have hL : r.2.items.length = s.items.length := by rw [hi]
          simp only [hlt, if_true, Option.isSome_map]
          exact ih r.2 (by omega) (by omega)

end Forward


/-! ## §5. Literals and matchers at a position. -/

section Lexical

variable {α : Type}

/-- Blanks, then a byte that is not one. -/
theorem skip_ws_of {items w rest : List UInt8} {pos : Nat} (h : items.drop pos = w ++ rest)
    (hw : ∀ b ∈ w, is_ws b = true) (hr : ∀ b, rest.head? = some b → is_ws b = false) :
    skip_ws items pos = pos + w.length := by
  have hrest : rest.takeWhile is_ws = [] := by
    cases rest with
    | nil => rfl
    | cons b rest => simp [hr b rfl]
  simp only [skip_ws_eq, h, List.takeWhile_append_of_pos hw, hrest, List.append_nil]

theorem pos_lt_of_drop_eq_cons {items rest : List UInt8} {pos : Nat} {b : UInt8}
    (h : items.drop pos = b :: rest) : pos < items.length := by
  have hl := congrArg List.length h
  simp only [List.length_drop, List.length_cons] at hl
  omega

/-- **A literal after blanks** is read, with the stream after it. -/
theorem str_lit_of {items w string rest : List UInt8} {pos : Nat} {b : UInt8} {bs : List UInt8}
    (h : items.drop pos = w ++ string ++ rest) (hw : ∀ c ∈ w, is_ws c = true)
    (hs : string = b :: bs) (hb : is_ws b = false) :
    str_lit string ⟨items, pos⟩ = some (string, ⟨items, pos + w.length + string.length⟩) := by
  subst hs
  have hskip : skip_ws items pos = pos + w.length :=
    skip_ws_of (show items.drop pos = w ++ (b :: bs ++ rest) by simpa using h) hw (by simp [hb])
  have hat : items.drop (pos + w.length) = b :: bs ++ rest := by
    rw [← List.drop_drop, h, List.append_assoc, List.drop_left]
  have hlt : pos + w.length < items.length := pos_lt_of_drop_eq_cons (by simpa using hat)
  have hend : (⟨items, pos⟩ : Stream).is_end = false := by
    simp only [Stream.is_end, beq_eq_false_iff_ne, ne_eq]
    omega
  have hstart : starts_with_at items (b :: bs) (pos + w.length) = true := by
    simp only [starts_with_at_eq, hat, Bool.and_eq_true, decide_eq_true_eq, beq_iff_eq]
    exact ⟨by omega, by simp⟩
  simp only [str_lit_apply, hend, Bool.false_eq_true, if_false, Stream.accept_strlit_eq, hskip,
    List.takeWhile_cons, hb, List.length_nil, Nat.not_lt_zero, List.drop_zero,
    hstart, if_true, Option.map_some]

/-- A literal is not read where, after blanks, a different byte (or the
    end) stands. -/
theorem str_lit_none {items w string rest : List UInt8} {pos : Nat} {b : UInt8} {bs : List UInt8}
    (h : items.drop pos = w ++ rest) (hw : ∀ c ∈ w, is_ws c = true)
    (hr : ∀ c, rest.head? = some c → is_ws c = false) (hs : string = b :: bs)
    (hb : is_ws b = false) (hne : rest.head? ≠ some b) :
    str_lit string ⟨items, pos⟩ = none := by
  subst hs
  have hskip : skip_ws items pos = pos + w.length := skip_ws_of h hw hr
  have hat : items.drop (pos + w.length) = rest := by
    rw [← List.drop_drop, h, List.drop_left]
  have hstart : starts_with_at items (b :: bs) (pos + w.length) = false := by
    simp only [starts_with_at_eq, hat, Bool.and_eq_false_iff, decide_eq_false_iff_not, beq_eq_false_iff_ne]
    right
    cases rest with
    | nil => simp
    | cons c rest =>
        intro heq
        simp only [List.length_cons, List.take_succ_cons, List.cons.injEq] at heq
        exact hne (by simp [heq.1])
  rw [str_lit_apply]
  split
  · rfl
  · simp only [Stream.accept_strlit_eq, hskip, List.takeWhile_cons, hb, List.length_nil,
      Nat.not_lt_zero, if_false, List.drop_zero, hstart, Option.map_none, Bool.false_eq_true]

/-- The position after the blanks, in terms of the text after them. -/
theorem drop_skip_ws (items : List UInt8) (pos : Nat) :
    items.drop (skip_ws items pos) = (items.drop pos).dropWhile is_ws := by
  rw [skip_ws_eq, ← List.drop_drop]
  generalize items.drop pos = l
  induction l with
  | nil => rfl
  | cons x xs ih =>
      by_cases hx : is_ws x = true
      · simp [hx, ih]
      · simp [hx]

/-- No literal where, after the blanks, its first byte does not stand. -/
theorem str_lit_none_of {items rest : List UInt8} {pos : Nat} {b : UInt8} {bs : List UInt8}
    (h : items.drop pos = rest) (hb : is_ws b = false) (hne : (rest.dropWhile is_ws).head? ≠ some b) :
    str_lit (b :: bs) ⟨items, pos⟩ = none := by
  have hsplit : items.drop pos = rest.takeWhile is_ws ++ rest.dropWhile is_ws := by
    rw [h, List.takeWhile_append_dropWhile]
  refine str_lit_none hsplit (fun c hc => List.mem_takeWhile_imp hc) ?_ rfl hb hne
  intro c hc
  have := List.head?_dropWhile_not is_ws rest
  rw [hc] at this
  exact this

/-- After a piece of text that was read. -/
theorem drop_append_of {items a rest : List UInt8} {pos : Nat} (h : items.drop pos = a ++ rest) :
    items.drop (pos + a.length) = rest := by
  rw [← List.drop_drop, h, List.drop_left]

theorem le_length_of_drop {items a rest : List UInt8} {pos : Nat} (h : items.drop pos = a ++ rest)
    (hpos : pos ≤ items.length) : pos + a.length ≤ items.length := by
  have hl := congrArg List.length h
  simp only [List.length_drop, List.length_append] at hl
  omega

/-- The two-part form, at the positions `str_lit_of` returns. -/
theorem drop_append₂_of {items a b rest : List UInt8} {pos : Nat} (h : items.drop pos = a ++ b ++ rest) :
    items.drop (pos + a.length + b.length) = rest := by
  rw [Nat.add_assoc, ← List.length_append]
  exact drop_append_of h

theorem le_length_of_drop₂ {items a b rest : List UInt8} {pos : Nat} (h : items.drop pos = a ++ b ++ rest)
    (hpos : pos ≤ items.length) : pos + a.length + b.length ≤ items.length := by
  rw [Nat.add_assoc, ← List.length_append]
  exact le_length_of_drop h hpos

/-- A literal that does not start with a blank moves forward. -/
theorem str_lit_advancing {string : List UInt8} {b : UInt8} {bs : List UInt8} (hs : string = b :: bs)
    (hb : is_ws b = false) : (str_lit string).Advancing := by
  subst hs
  intro s r h
  rw [str_lit_apply] at h
  split at h
  · cases h
  · simp only [Stream.accept_strlit_eq, List.takeWhile_cons, hb, List.length_nil,
      Nat.not_lt_zero, if_false, List.drop_zero, Bool.false_eq_true] at h
    split at h
    · rename_i hstart
      simp only [Option.map_some, Option.some.injEq] at h
      subst h
      simp only [starts_with_at_eq, Bool.and_eq_true, decide_eq_true_eq, beq_iff_eq] at hstart
      have htake := congrArg List.length hstart.2
      simp only [List.length_take, List.length_drop, List.length_cons] at htake
      have hskip : s.pos ≤ skip_ws s.items s.pos := Nat.le_add_right _ _
      exact ⟨rfl, by simp; omega, by simp; omega⟩
    · simp at h

/-- A matcher that ends after where it starts, within the text. -/
theorem custom_advancing {m : List UInt8 → Nat → Option (α × Nat)}
    (hm : ∀ text pos r, m text pos = some r → pos < r.2 ∧ r.2 ≤ text.length) :
    (custom m).Advancing := by
  intro s r h
  simp only [custom_apply, Stream.accept_matcher_eq, Option.map_eq_some_iff] at h
  obtain ⟨r₁, h₁, rfl⟩ := h
  have hskip : s.pos ≤ skip_ws s.items s.pos := Nat.le_add_right _ _
  obtain ⟨hlt, hle⟩ := hm _ _ r₁ h₁
  exact ⟨rfl, by simp; omega, hle⟩

/-- A matcher that never ends before where it starts. -/
theorem custom_forward {m : List UInt8 → Nat → Option (α × Nat)}
    (hm : ∀ text pos r, m text pos = some r → pos ≤ r.2 ∧ r.2 ≤ text.length) :
    (custom m).Forward := by
  intro s r h
  simp only [custom_apply, Stream.accept_matcher_eq, Option.map_eq_some_iff] at h
  obtain ⟨r₁, h₁, rfl⟩ := h
  have hskip : s.pos ≤ skip_ws s.items s.pos := Nat.le_add_right _ _
  obtain ⟨hlt, hle⟩ := hm _ _ r₁ h₁
  exact ⟨rfl, by simp; omega, hle⟩

end Lexical

end Teaclave.Lib
