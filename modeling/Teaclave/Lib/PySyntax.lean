/-
  Teaclave.Lib.PySyntax
  ─────────────────────
  **PYTHON 2 EXPRESSIONS: TOKENS, LEXER AND PARSER.**

  What `eval(text)` and `compile(text, name, 'eval')` read, over the bytes of
  `text`, for the subset of expressions made of

      names, short string literals ('...' and "..."), list displays,
      attribute access, calls, one comparison, `not`, `and`, `or`.

  The lexer (`lex`) is a machine with one step per byte (`step`): short
  string literals with every escape of a Python 2 byte string (`\\`, `\'`,
  `\"`, `\a` … `\v`, octal, `\x`, the backslash-newline, and an unknown
  escape that keeps its backslash), adjacent literals as separate tokens,
  `<>` as `!=`.  The parser (`parse_expr`) is a recursive descent over the
  tokens, one function per level of the grammar, with a fuel that bounds the
  depth of the descent.

  `none` means the text is not an expression of the subset: a `SyntaxError`,
  a `ValueError` of a bad `\x` escape, or syntax the subset leaves out
  (numbers, other operators, subscripts, triple-quoted or prefixed strings,
  chained comparisons, keyword arguments).  Where the result is `some`, it is
  the expression Python reads.

  Nothing here names the repository.
-/
import Mathlib

namespace Teaclave.Lib

/-! ## §1. Bytes. -/

/-- The byte of an ASCII character. -/
def ascii (c : Char) : UInt8 := c.toUInt8

/-- The bytes of an ASCII text. -/
def ascii_bytes (s : String) : List UInt8 := s.toList.map ascii

def is_alpha (b : UInt8) : Bool :=
  (ascii 'a' ≤ b && b ≤ ascii 'z') || (ascii 'A' ≤ b && b ≤ ascii 'Z')

def is_digit (b : UInt8) : Bool := ascii '0' ≤ b && b ≤ ascii '9'

def is_octal (b : UInt8) : Bool := ascii '0' ≤ b && b ≤ ascii '7'

/-- The value of a hexadecimal digit. -/
def hex_value (b : UInt8) : Option Nat :=
  if is_digit b then some (b.toNat - 48)
  else if ascii 'a' ≤ b && b ≤ ascii 'f' then some (b.toNat - 87)
  else if ascii 'A' ≤ b && b ≤ ascii 'F' then some (b.toNat - 55)
  else none

def is_name_start (b : UInt8) : Bool := is_alpha b || b == ascii '_'

def is_name_char (b : UInt8) : Bool := is_name_start b || is_digit b

/-- Space, tab and form feed: what separates tokens on one line. -/
def is_blank (b : UInt8) : Bool := b == ascii ' ' || b == 9 || b == 12

def is_quote (b : UInt8) : Bool := b == ascii '\'' || b == ascii '"'

/-- The keywords of Python 2, which are not names. -/
def KEYWORDS : List String :=
  ["and", "as", "assert", "break", "class", "continue", "def", "del", "elif", "else", "except",
   "exec", "finally", "for", "from", "global", "if", "import", "in", "is", "lambda", "not", "or",
   "pass", "print", "raise", "return", "try", "while", "with", "yield"]

def is_keyword (n : List UInt8) : Bool := (KEYWORDS.map ascii_bytes).contains n

/-! ## §2. Tokens and the lexer. -/

inductive Token where
  | name (n : List UInt8)
  | str (s : List UInt8)
  | lbrack | rbrack | lparen | rparen | comma | dot
  | lt | le | gt | ge | eq | ne
  deriving DecidableEq, Repr

inductive LexState where
  | top
  | name (acc : List UInt8)
  /-- After `<`, `>`, `=` or `!`. -/
  | cmp (c : UInt8)
  /-- After an opening quote. -/
  | open1 (q : UInt8)
  /-- After two quotes: an empty literal, or the start of a triple quote. -/
  | open2 (q : UInt8)
  | body (q : UInt8) (acc : List UInt8)
  | escape (q : UInt8) (acc : List UInt8)
  /-- Inside an octal escape: its value and how many digits it has. -/
  | octal (q : UInt8) (acc : List UInt8) (v n : Nat)
  /-- Inside a `\x` escape: the digits read. -/
  | hex (q : UInt8) (acc : List UInt8) (d : List UInt8)
  deriving DecidableEq, Repr

/-- A byte between tokens. -/
def top_step (b : UInt8) : Option (LexState × List Token) :=
  if b = ascii '[' then some (.top, [.lbrack])
  else if b = ascii ']' then some (.top, [.rbrack])
  else if b = ascii '(' then some (.top, [.lparen])
  else if b = ascii ')' then some (.top, [.rparen])
  else if b = ascii ',' then some (.top, [.comma])
  else if b = ascii '.' then some (.top, [.dot])
  else if is_blank b then some (.top, [])
  else if is_quote b then some (.open1 b, [])
  else if b = ascii '<' || b = ascii '>' || b = ascii '=' || b = ascii '!' then some (.cmp b, [])
  else if is_name_start b then some (.name [b], [])
  else none

/-- A byte inside a literal opened by `q`: the closing quote, an escape, or
    a byte of the value; a line end is `EOL while scanning string literal`. -/
def str_step (q : UInt8) (acc : List UInt8) (b : UInt8) : Option (LexState × List Token) :=
  if b = q then some (.top, [.str acc])
  else if b = ascii '\\' then some (.escape q acc, [])
  else if b = 10 || b = 13 then none
  else some (.body q (acc ++ [b]), [])

/-- The byte after a backslash. -/
def escape_step (q : UInt8) (acc : List UInt8) (b : UInt8) : Option (LexState × List Token) :=
  if b = 10 then some (.body q acc, [])
  else if b = ascii '\\' || b = ascii '\'' || b = ascii '"' then some (.body q (acc ++ [b]), [])
  else if b = ascii 'a' then some (.body q (acc ++ [7]), [])
  else if b = ascii 'b' then some (.body q (acc ++ [8]), [])
  else if b = ascii 'f' then some (.body q (acc ++ [12]), [])
  else if b = ascii 'n' then some (.body q (acc ++ [10]), [])
  else if b = ascii 'r' then some (.body q (acc ++ [13]), [])
  else if b = ascii 't' then some (.body q (acc ++ [9]), [])
  else if b = ascii 'v' then some (.body q (acc ++ [11]), [])
  else if is_octal b then some (.octal q acc (b.toNat - 48) 1, [])
  else if b = ascii 'x' then some (.hex q acc [], [])
  else if b = 13 then none
  else some (.body q (acc ++ [ascii '\\', b]), [])

/-- The byte after a comparison character: `<=`, `>=`, `==`, `!=`, `<>`. -/
def cmp_step (c b : UInt8) : Option (LexState × List Token) :=
  if b = ascii '=' then
    if c = ascii '<' then some (.top, [.le])
    else if c = ascii '>' then some (.top, [.ge])
    else if c = ascii '=' then some (.top, [.eq])
    else some (.top, [.ne])
  else if c = ascii '<' && b = ascii '>' then some (.top, [.ne])
  else if c = ascii '<' then (top_step b).map fun r => (r.1, .lt :: r.2)
  else if c = ascii '>' then (top_step b).map fun r => (r.1, .gt :: r.2)
  else none

/-- **One byte of the lexer.** -/
def step : LexState → UInt8 → Option (LexState × List Token)
  | .top, b => top_step b
  | .name acc, b =>
      if is_name_char b then some (.name (acc ++ [b]), [])
      else (top_step b).map fun r => (r.1, .name acc :: r.2)
  | .cmp c, b => cmp_step c b
  | .open1 q, b => if b = q then some (.open2 q, []) else str_step q [] b
  | .open2 q, b =>
      -- a third quote opens a triple-quoted literal, which the subset leaves out
      if b = q then none else (top_step b).map fun r => (r.1, .str [] :: r.2)
  | .body q acc, b => str_step q acc b
  | .escape q acc, b => escape_step q acc b
  | .octal q acc v n, b =>
      if n < 3 && is_octal b then some (.octal q acc (8 * v + (b.toNat - 48)) (n + 1), [])
      else str_step q (acc ++ [UInt8.ofNat v]) b
  | .hex q acc d, b =>
      match hex_value b, d with
      | some _, [] => some (.hex q acc [b], [])
      | some v, d₀ :: _ => (hex_value d₀).map fun u => (.body q (acc ++ [UInt8.ofNat (16 * u + v)]), [])
      | none, _ => none

/-- The end of the text: an open literal is unterminated. -/
def finish : LexState → Option (List Token)
  | .top => some []
  | .name acc => some [.name acc]
  | .cmp c => if c = ascii '<' then some [.lt] else if c = ascii '>' then some [.gt] else none
  | .open2 _ => some [.str []]
  | _ => none

/-- The lexer from a state. -/
def lex_from : LexState → List UInt8 → Option (List Token)
  | st, [] => finish st
  | st, b :: bs => do
      let r ← step st b
      let rest ← lex_from r.1 bs
      pure (r.2 ++ rest)

def lex (text : List UInt8) : Option (List Token) := lex_from .top text

/-! ## §3. The lexer on the pieces of a literal. -/

section LexLemmas

theorem lex_from_cons (st : LexState) (b : UInt8) (bs : List UInt8) :
    lex_from st (b :: bs) =
      (step st b).bind fun r => (lex_from r.1 bs).map (r.2 ++ ·) := by
  simp only [lex_from, Option.bind_eq_bind, Option.pure_def]
  congr
  funext r
  cases lex_from r.1 bs <;> rfl

theorem step_top (b : UInt8) : step .top b = top_step b := rfl

theorem step_open1 (q b : UInt8) :
    step (.open1 q) b = if b = q then some (.open2 q, []) else str_step q [] b := rfl

theorem step_open2 (q b : UInt8) :
    step (.open2 q) b = if b = q then none else (top_step b).map fun r => (r.1, .str [] :: r.2) :=
  rfl

theorem step_body (q : UInt8) (acc : List UInt8) (b : UInt8) :
    step (.body q acc) b = str_step q acc b := rfl

/-- A step that is known. -/
theorem lex_from_of_step {st st' : LexState} {b : UInt8} {ts : List Token}
    (h : step st b = some (st', ts)) (bs : List UInt8) :
    lex_from st (b :: bs) = (lex_from st' bs).map (ts ++ ·) := by
  rw [lex_from_cons, h, Option.bind_some]

/-- A step that emits nothing. -/
theorem lex_from_of_step_nil {st st' : LexState} {b : UInt8} (h : step st b = some (st', []))
    (bs : List UInt8) : lex_from st (b :: bs) = lex_from st' bs := by
  rw [lex_from_of_step h]
  cases lex_from st' bs <;> rfl

/-- A byte of a literal's value. -/
def SafeByte (q b : UInt8) : Prop := b ≠ q ∧ b ≠ ascii '\\' ∧ b ≠ 10 ∧ b ≠ 13

instance (q b : UInt8) : Decidable (SafeByte q b) :=
  inferInstanceAs (Decidable (_ ∧ _ ∧ _ ∧ _))

theorem str_step_safe {q b : UInt8} (h : SafeByte q b) (acc : List UInt8) :
    str_step q acc b = some (.body q (acc ++ [b]), []) := by
  obtain ⟨hq, hbs, hlf, hcr⟩ := h
  simp [str_step, hq, hbs, hlf, hcr]

/-- The value of a literal, up to and past its closing quote. -/
theorem lex_from_body {q : UInt8} :
    ∀ (s acc rest : List UInt8), (∀ b ∈ s, SafeByte q b) →
      lex_from (.body q acc) (s ++ q :: rest) = (lex_from .top rest).map (.str (acc ++ s) :: ·)
  | [], acc, rest, _ => by
      have h : step (.body q acc) q = some (.top, [.str acc]) := by
        rw [step_body]
        exact if_pos rfl
      rw [List.nil_append, lex_from_of_step h, List.append_nil]
      rfl
  | b :: s, acc, rest, hs => by
      have h : step (.body q acc) b = some (.body q (acc ++ [b]), []) :=
        str_step_safe (hs b List.mem_cons_self) acc
      rw [List.cons_append, lex_from_of_step_nil h,
        lex_from_body s (acc ++ [b]) rest (fun b' hb' => hs b' (List.mem_cons_of_mem _ hb'))]
      simp

/-- **A quoted literal lexes to its value**, when what follows it does not
    start with the same quote (which would make it a triple quote). -/
theorem lex_from_quoted {q : UInt8} (hq : top_step q = some (.open1 q, [])) {s : List UInt8}
    (hs : ∀ b ∈ s, SafeByte q b) {rest : List UInt8} (hrest : rest.head? ≠ some q) :
    lex_from .top (q :: (s ++ q :: rest)) = (lex_from .top rest).map (.str s :: ·) := by
  rw [lex_from_of_step_nil (show step .top q = some (.open1 q, []) from hq)]
  cases s with
  | nil =>
      -- the empty literal: its token waits for the next byte
      have h : step (.open1 q) q = some (.open2 q, []) := by
        rw [step_open1]
        exact if_pos rfl
      rw [List.nil_append, lex_from_of_step_nil h]
      cases rest with
      | nil => rfl
      | cons c rest =>
          have hc : c ≠ q := fun h => hrest (by simp [h])
          rw [lex_from_cons, lex_from_cons]
          simp only [step_top, step_open2, if_neg hc]
          cases top_step c with
          | none => rfl
          | some r =>
              simp only [Option.map_some, Option.bind_some, Option.map_map]
              rfl
  | cons b s =>
      have hb := hs b List.mem_cons_self
      have h : step (.open1 q) b = some (.body q [b], []) := by
        rw [step_open1, if_neg hb.1]
        exact str_step_safe hb []
      rw [List.cons_append, lex_from_of_step_nil h,
        lex_from_body s [b] rest (fun b' hb' => hs b' (List.mem_cons_of_mem _ hb'))]
      rfl

theorem top_step_quote : top_step (ascii '\'') = some (.open1 (ascii '\''), []) := by decide

/-- A bracket, a parenthesis or a comma is a token of its own. -/
theorem lex_from_punct {c : UInt8} {t : Token} (h : top_step c = some (.top, [t]))
    (bs : List UInt8) : lex_from .top (c :: bs) = (lex_from .top bs).map (t :: ·) :=
  lex_from_of_step (show step .top c = some (.top, [t]) from h) bs

/-- The call `set(`. -/
theorem lex_from_set_call (bs : List UInt8) :
    lex_from .top (ascii_bytes "set(" ++ bs) =
      (lex_from .top bs).map ([.name (ascii_bytes "set"), .lparen] ++ ·) := by
  have h₁ : step .top (ascii 's') = some (.name [ascii 's'], []) := by decide
  have h₂ : step (.name [ascii 's']) (ascii 'e') = some (.name [ascii 's', ascii 'e'], []) := by
    decide
  have h₃ : step (.name [ascii 's', ascii 'e']) (ascii 't') =
      some (.name [ascii 's', ascii 'e', ascii 't'], []) := by decide
  have h₄ : step (.name [ascii 's', ascii 'e', ascii 't']) (ascii '(') =
      some (.top, [.name (ascii_bytes "set"), .lparen]) := by decide
  show lex_from .top (ascii 's' :: ascii 'e' :: ascii 't' :: ascii '(' :: bs) = _
  rw [lex_from_of_step_nil h₁, lex_from_of_step_nil h₂, lex_from_of_step_nil h₃,
    lex_from_of_step h₄]

end LexLemmas

/-! ## §4. Expressions and the parser. -/

inductive CmpOp where
  | lt | le | gt | ge | eq | ne
  deriving DecidableEq, Repr

def Token.cmp_op : Token → Option CmpOp
  | .lt => some .lt | .le => some .le | .gt => some .gt
  | .ge => some .ge | .eq => some .eq | .ne => some .ne
  | _ => none

inductive Expr where
  | name (n : List UInt8)
  | str (s : List UInt8)
  | list (items : List Expr)
  | attr (e : Expr) (field : List UInt8)
  | call (f : Expr) (args : List Expr)
  | cmp (op : CmpOp) (a b : Expr)
  | not_ (a : Expr)
  | and_ (a b : Expr)
  | or_ (a b : Expr)
  deriving Repr

mutual

/-- Structural equality of expressions. -/
def Expr.beq : Expr → Expr → Bool
  | .name a, .name b => a == b
  | .str a, .str b => a == b
  | .list xs, .list ys => Expr.beq_list xs ys
  | .attr e f, .attr e' f' => Expr.beq e e' && f == f'
  | .call f args, .call f' args' => Expr.beq f f' && Expr.beq_list args args'
  | .cmp op a b, .cmp op' a' b' => op == op' && Expr.beq a a' && Expr.beq b b'
  | .not_ a, .not_ a' => Expr.beq a a'
  | .and_ a b, .and_ a' b' => Expr.beq a a' && Expr.beq b b'
  | .or_ a b, .or_ a' b' => Expr.beq a a' && Expr.beq b b'
  | _, _ => false

def Expr.beq_list : List Expr → List Expr → Bool
  | [], [] => true
  | x :: xs, y :: ys => Expr.beq x y && Expr.beq_list xs ys
  | _, _ => false

end

mutual

theorem Expr.eq_of_beq : ∀ {a b : Expr}, Expr.beq a b = true → a = b
  | .name x, b, h | .str x, b, h => by cases b <;> simp_all [Expr.beq]
  | .list xs, b, h => by
      cases b <;> simp only [Expr.beq, Bool.false_eq_true] at h
      rw [Expr.eq_of_beq_list h]
  | .attr e f, b, h => by
      cases b <;> simp only [Expr.beq, Bool.false_eq_true, Bool.and_eq_true, beq_iff_eq] at h
      rw [Expr.eq_of_beq h.1, h.2]
  | .call f args, b, h => by
      cases b <;> simp only [Expr.beq, Bool.false_eq_true, Bool.and_eq_true] at h
      rw [Expr.eq_of_beq h.1, Expr.eq_of_beq_list h.2]
  | .cmp op a c, b, h => by
      cases b <;> simp only [Expr.beq, Bool.false_eq_true, Bool.and_eq_true, beq_iff_eq] at h
      rw [h.1.1, Expr.eq_of_beq h.1.2, Expr.eq_of_beq h.2]
  | .not_ a, b, h => by
      cases b <;> simp only [Expr.beq, Bool.false_eq_true] at h
      rw [Expr.eq_of_beq h]
  | .and_ a c, b, h | .or_ a c, b, h => by
      cases b <;> simp only [Expr.beq, Bool.false_eq_true, Bool.and_eq_true] at h
      all_goals rw [Expr.eq_of_beq h.1, Expr.eq_of_beq h.2]

theorem Expr.eq_of_beq_list : ∀ {xs ys : List Expr}, Expr.beq_list xs ys = true → xs = ys
  | [], ys, h => by cases ys <;> simp_all [Expr.beq_list]
  | x :: xs, ys, h => by
      cases ys <;> simp only [Expr.beq_list, Bool.false_eq_true, Bool.and_eq_true] at h
      rw [Expr.eq_of_beq h.1, Expr.eq_of_beq_list h.2]

end

mutual

theorem Expr.beq_refl : ∀ a : Expr, Expr.beq a a = true
  | .name _ | .str _ => by simp [Expr.beq]
  | .list xs => by simp only [Expr.beq]; exact Expr.beq_list_refl xs
  | .attr e _ => by simp [Expr.beq, Expr.beq_refl e]
  | .call f args => by simp [Expr.beq, Expr.beq_refl f, Expr.beq_list_refl args]
  | .cmp _ a c => by simp [Expr.beq, Expr.beq_refl a, Expr.beq_refl c]
  | .not_ a => by simp [Expr.beq, Expr.beq_refl a]
  | .and_ a c | .or_ a c => by simp [Expr.beq, Expr.beq_refl a, Expr.beq_refl c]

theorem Expr.beq_list_refl : ∀ xs : List Expr, Expr.beq_list xs xs = true
  | [] => rfl
  | x :: xs => by simp [Expr.beq_list, Expr.beq_refl x, Expr.beq_list_refl xs]

end

instance : DecidableEq Expr := fun a b =>
  if h : Expr.beq a b then isTrue (Expr.eq_of_beq h)
  else isFalse fun e => h (e ▸ Expr.beq_refl a)

/-- Adjacent string literals, which Python joins into one. -/
def take_strs : List Token → List UInt8 × List Token
  | .str s :: ts => let r := take_strs ts; (s ++ r.1, r.2)
  | ts => ([], ts)

mutual

/-- `or_test: and_test ('or' and_test)*`. -/
def parse_expr : Nat → List Token → Option (Expr × List Token)
  | 0, _ => none
  | n + 1, ts => do
      let r ← parse_and n ts
      parse_or_rest n r.1 r.2

def parse_or_rest : Nat → Expr → List Token → Option (Expr × List Token)
  | 0, _, _ => none
  | n + 1, a, .name kw :: ts =>
      if kw = ascii_bytes "or" then do
        let r ← parse_and n ts
        parse_or_rest n (.or_ a r.1) r.2
      else some (a, .name kw :: ts)
  | _ + 1, a, ts => some (a, ts)

/-- `and_test: not_test ('and' not_test)*`. -/
def parse_and : Nat → List Token → Option (Expr × List Token)
  | 0, _ => none
  | n + 1, ts => do
      let r ← parse_not n ts
      parse_and_rest n r.1 r.2

def parse_and_rest : Nat → Expr → List Token → Option (Expr × List Token)
  | 0, _, _ => none
  | n + 1, a, .name kw :: ts =>
      if kw = ascii_bytes "and" then do
        let r ← parse_not n ts
        parse_and_rest n (.and_ a r.1) r.2
      else some (a, .name kw :: ts)
  | _ + 1, a, ts => some (a, ts)

/-- `not_test: 'not' not_test | comparison`. -/
def parse_not : Nat → List Token → Option (Expr × List Token)
  | 0, _ => none
  | n + 1, .name kw :: ts =>
      if kw = ascii_bytes "not" then (parse_not n ts).map fun r => (.not_ r.1, r.2)
      else parse_comparison n (.name kw :: ts)
  | n + 1, ts => parse_comparison n ts

/-- `comparison: primary (comp_op primary)?`; a chain is left out. -/
def parse_comparison : Nat → List Token → Option (Expr × List Token)
  | 0, _ => none
  | n + 1, ts => do
      let r ← parse_primary n ts
      match r.2 with
      | t :: ts' =>
          match t.cmp_op with
          | some op => do
              let r' ← parse_primary n ts'
              match r'.2 with
              | t' :: _ => if t'.cmp_op.isSome then none else some (.cmp op r.1 r'.1, r'.2)
              | [] => some (.cmp op r.1 r'.1, [])
          | none => some r
      | [] => some r

/-- `primary: atom trailer*`. -/
def parse_primary : Nat → List Token → Option (Expr × List Token)
  | 0, _ => none
  | n + 1, ts => do
      let r ← parse_atom n ts
      parse_trailers n r.1 r.2

/-- `trailer: '.' NAME | '(' arguments ')'`. -/
def parse_trailers : Nat → Expr → List Token → Option (Expr × List Token)
  | 0, _, _ => none
  | n + 1, a, .dot :: .name f :: ts =>
      if is_keyword f then none else parse_trailers n (.attr a f) ts
  | n + 1, a, .lparen :: ts => do
      let r ← parse_items n .rparen [] ts
      parse_trailers n (.call a r.1) r.2
  | _ + 1, _, .dot :: _ => none
  | _ + 1, a, ts => some (a, ts)

/-- `atom: NAME | STRING+ | '[' items ']' | '(' expr ')'`. -/
def parse_atom : Nat → List Token → Option (Expr × List Token)
  | 0, _ => none
  | _ + 1, .name n :: ts => if is_keyword n then none else some (.name n, ts)
  | _ + 1, .str s :: ts => let r := take_strs ts; some (.str (s ++ r.1), r.2)
  | n + 1, .lbrack :: ts => (parse_items n .rbrack [] ts).map fun r => (.list r.1, r.2)
  | n + 1, .lparen :: ts => do
      let r ← parse_expr n ts
      match r.2 with
      | .rparen :: ts' => some (r.1, ts')
      | _ => none
  | _ + 1, _ => none

/-- The items of a display or the arguments of a call, up to `close`, with
    an optional trailing comma. -/
def parse_items : Nat → Token → List Expr → List Token → Option (List Expr × List Token)
  | 0, _, _, _ => none
  | n + 1, close, acc, t :: ts =>
      if t = close then some (acc, ts)
      else do
        let r ← parse_expr n (t :: ts)
        match r.2 with
        | .comma :: ts' => parse_items n close (acc ++ [r.1]) ts'
        | t' :: ts' => if t' = close then some (acc ++ [r.1], ts') else none
        | [] => none
  | _ + 1, _, _, [] => none

end

/-- What `eval` and `compile(..., 'eval')` parse: one expression and nothing
    after it.  The fuel is eight levels of descent per token, more than any
    path of the descent takes. -/
def parse_eval_input (ts : List Token) : Option Expr :=
  match parse_expr (8 * (ts.length + 1)) ts with
  | some (e, []) => some e
  | _ => none

/-! ## §5. The parser on the tokens of literals. -/

section ParseLemmas

/-- What may follow a complete item: the end, a comma or a closing bracket. -/
def Closes : List Token → Prop
  | [] => True
  | t :: _ => t = .comma ∨ t = .rbrack ∨ t = .rparen

/-- `e` is read from the tokens `ts`, with any fuel from `K` on, whatever
    closes it. -/
def Parses (K : Nat) (e : Expr) (ts : List Token) : Prop :=
  ∀ rest, Closes rest → ∀ m, K ≤ m → parse_expr m (ts ++ rest) = some (e, rest)

theorem parse_primary_succ (n : Nat) (ts : List Token) :
    parse_primary (n + 1) ts = (do let r ← parse_atom n ts; parse_trailers n r.1 r.2) := rfl

theorem parse_atom_name (n : Nat) (f : List UInt8) (ts : List Token) :
    parse_atom (n + 1) (.name f :: ts) = if is_keyword f then none else some (.name f, ts) := rfl

theorem parse_atom_str (n : Nat) (s : List UInt8) (ts : List Token) :
    parse_atom (n + 1) (.str s :: ts) = some (.str (s ++ (take_strs ts).1), (take_strs ts).2) :=
  rfl

theorem parse_atom_lbrack (n : Nat) (ts : List Token) :
    parse_atom (n + 1) (.lbrack :: ts) =
      (parse_items n .rbrack [] ts).map fun r => (.list r.1, r.2) := rfl

theorem parse_trailers_lparen (n : Nat) (a : Expr) (ts : List Token) :
    parse_trailers (n + 1) a (.lparen :: ts) =
      (do let r ← parse_items n .rparen [] ts; parse_trailers n (.call a r.1) r.2) := rfl

theorem parse_items_cons (n : Nat) (close : Token) (acc : List Expr) (t : Token) (ts : List Token) :
    parse_items (n + 1) close acc (t :: ts) =
      if t = close then some (acc, ts)
      else (do
        let r ← parse_expr n (t :: ts)
        match r.2 with
        | .comma :: ts' => parse_items n close (acc ++ [r.1]) ts'
        | t' :: ts' => if t' = close then some (acc ++ [r.1], ts') else none
        | [] => none) := rfl

theorem take_strs_of_closes {rest : List Token} (hc : Closes rest) : take_strs rest = ([], rest) := by
  cases rest with
  | nil => rfl
  | cons t ts => rcases hc with rfl | rfl | rfl <;> rfl

theorem parse_trailers_of_closes {rest : List Token} (hc : Closes rest) (n : Nat) (a : Expr) :
    parse_trailers (n + 1) a rest = some (a, rest) := by
  cases rest with
  | nil => simp [parse_trailers]
  | cons t ts => rcases hc with rfl | rfl | rfl <;> simp [parse_trailers]

theorem parse_and_rest_of_closes {rest : List Token} (hc : Closes rest) (n : Nat) (a : Expr) :
    parse_and_rest (n + 1) a rest = some (a, rest) := by
  cases rest with
  | nil => simp [parse_and_rest]
  | cons t ts => rcases hc with rfl | rfl | rfl <;> simp [parse_and_rest]

theorem parse_or_rest_of_closes {rest : List Token} (hc : Closes rest) (n : Nat) (a : Expr) :
    parse_or_rest (n + 1) a rest = some (a, rest) := by
  cases rest with
  | nil => simp [parse_or_rest]
  | cons t ts => rcases hc with rfl | rfl | rfl <;> simp [parse_or_rest]

/-- Without a leading `not`, a `not_test` is a comparison. -/
theorem parse_not_of_head {ts : List Token} (hts : ts.head? ≠ some (.name (ascii_bytes "not")))
    (n : Nat) : parse_not (n + 1) ts = parse_comparison n ts := by
  match ts with
  | [] => simp [parse_not]
  | .name kw :: ts' =>
      have hkw : kw ≠ ascii_bytes "not" := fun h => hts (by simp [h])
      simp [parse_not, hkw]
  | .str _ :: _ | .lbrack :: _ | .rbrack :: _ | .lparen :: _ | .rparen :: _ | .comma :: _
  | .dot :: _ | .lt :: _ | .le :: _ | .gt :: _ | .ge :: _ | .eq :: _ | .ne :: _ =>
      simp [parse_not]

/-- **A primary that nothing follows is a whole expression**: the levels of
    comparison, `not`, `and` and `or` pass it through. -/
theorem parses_of_primary {K : Nat} {ts : List Token} {e : Expr}
    (hts : ts.head? ≠ some (.name (ascii_bytes "not")))
    (hp : ∀ rest, Closes rest → ∀ m, K ≤ m → parse_primary m (ts ++ rest) = some (e, rest)) :
    Parses (K + 4) e ts := by
  intro rest hc m hm
  obtain ⟨d, rfl⟩ : ∃ d, m = d + 4 := ⟨m - 4, by omega⟩
  have hts' : (ts ++ rest).head? ≠ some (.name (ascii_bytes "not")) := by
    cases ts with
    | nil =>
        -- then the head is what closes the expression
        cases rest with
        | nil => simp
        | cons t ts' => rcases hc with rfl | rfl | rfl <;> simp
    | cons t ts => exact hts
  have hcmp : parse_comparison (d + 1) (ts ++ rest) = some (e, rest) := by
    simp only [parse_comparison, hp rest hc d (by omega), Option.bind_eq_bind, Option.bind_some]
    cases rest with
    | nil => rfl
    | cons t ts' => rcases hc with rfl | rfl | rfl <;> rfl
  have hand : parse_and (d + 3) (ts ++ rest) = some (e, rest) := by
    simp only [parse_and, parse_not_of_head hts' (d + 1), hcmp, Option.bind_eq_bind, Option.bind_some]
    exact parse_and_rest_of_closes hc (d + 1) e
  simp only [parse_expr, hand, Option.bind_eq_bind, Option.bind_some]
  exact parse_or_rest_of_closes hc (d + 2) e

theorem Parses.mono {K K' : Nat} {e : Expr} {ts : List Token} (h : Parses K e ts) (hK : K ≤ K') :
    Parses K' e ts :=
  fun rest hc m hm => h rest hc m (Nat.le_trans hK hm)

/-- **What `eval` reads**: an expression that the whole input makes, with
    the fuel `parse_eval_input` gives. -/
theorem parse_eval_input_of_parses {K : Nat} {e : Expr} {ts : List Token} (h : Parses K e ts)
    (hK : K ≤ 8 * (ts.length + 1)) : parse_eval_input ts = some e := by
  have he := h [] trivial (8 * (ts.length + 1)) hK
  rw [List.append_nil] at he
  simp [parse_eval_input, he]

/-- A string literal. -/
theorem parses_str (s : List UInt8) : Parses 7 (.str s) [.str s] := by
  apply parses_of_primary (K := 3) (by simp)
  intro rest hc m hm
  obtain ⟨d, rfl⟩ : ∃ d, m = d + 3 := ⟨m - 3, by omega⟩
  simp only [List.singleton_append, parse_primary_succ, parse_atom_str, take_strs_of_closes hc,
    List.append_nil, Option.bind_eq_bind, Option.bind_some]
  exact parse_trailers_of_closes hc (d + 1) _

/-- A list display, from what reads its items up to the `]`. -/
theorem parses_list {K : Nat} {es : List Expr} {ts : List Token}
    (hi : ∀ rest, Closes rest → ∀ m, K ≤ m →
      parse_items m .rbrack [] (ts ++ rest) = some (es, rest)) :
    Parses (K + 6) (.list es) (.lbrack :: ts) := by
  apply parses_of_primary (K := K + 2) (by simp)
  intro rest hc m hm
  obtain ⟨d, rfl⟩ : ∃ d, m = d + 2 := ⟨m - 2, by omega⟩
  simp only [List.cons_append, parse_primary_succ, parse_atom_lbrack, hi rest hc d (by omega),
    Option.map_some, Option.bind_eq_bind, Option.bind_some]
  exact parse_trailers_of_closes hc d _

/-- A call of a name, from what reads its arguments up to the `)`. -/
theorem parses_call {K : Nat} {f : List UInt8} (hf : is_keyword f = false) {args : List Expr}
    {ts : List Token}
    (hi : ∀ rest, Closes rest → ∀ m, K ≤ m →
      parse_items m .rparen [] (ts ++ rest) = some (args, rest)) :
    Parses (K + 7) (.call (.name f) args) (.name f :: .lparen :: ts) := by
  have hnot : f ≠ ascii_bytes "not" := by
    rintro rfl
    exact absurd hf (by decide)
  apply parses_of_primary (K := K + 3) (by simpa using hnot)
  intro rest hc m hm
  obtain ⟨d, rfl⟩ : ∃ d, m = d + 3 := ⟨m - 3, by omega⟩
  simp only [List.cons_append, parse_primary_succ, parse_atom_name, hf, Bool.false_eq_true,
    if_false, Option.bind_eq_bind, Option.bind_some, parse_trailers_lparen,
    hi rest hc (d + 1) (by omega)]
  exact parse_trailers_of_closes hc d _

/-- An item of a display or a call: what reads it, and a first token that
    does not close the display. -/
def Item (K : Nat) (close : Token) (x : Expr × List Token) : Prop :=
  Parses K x.1 x.2 ∧ ∃ t ts, x.2 = t :: ts ∧ t ≠ close

/-- **Items each followed by a comma**, then the closing bracket. -/
theorem parse_items_trailing {K : Nat} {close : Token} :
    ∀ (xs : List (Expr × List Token)), (∀ x ∈ xs, Item K close x) →
      ∀ (acc : List Expr) (rest : List Token) (m : Nat), K + xs.length + 1 ≤ m →
        parse_items m close acc ((xs.flatMap fun x => x.2 ++ [.comma]) ++ close :: rest) =
          some (acc ++ xs.map (·.1), rest)
  | [], _, acc, rest, m, hm => by
      obtain ⟨d, rfl⟩ : ∃ d, m = d + 1 := ⟨m - 1, by omega⟩
      simp [parse_items_cons]
  | x :: xs, hxs, acc, rest, m, hm => by
      obtain ⟨d, rfl⟩ : ∃ d, m = d + 1 := ⟨m - 1, by omega⟩
      obtain ⟨hx, t, ts, hts, htc⟩ := hxs x List.mem_cons_self
      -- the item, then its comma
      have hrest : Closes (.comma :: ((xs.flatMap fun x => x.2 ++ [.comma]) ++ close :: rest)) :=
        Or.inl rfl
      have hparse := hx _ hrest d (by simp at hm; omega)
      rw [hts] at hparse
      have ih := parse_items_trailing xs (fun y hy => hxs y (List.mem_cons_of_mem _ hy))
        (acc ++ [x.1]) rest d (by simp at hm; omega)
      simp only [List.flatMap_cons, hts, List.cons_append, List.append_assoc, List.nil_append,
        parse_items_cons, if_neg htc, Option.bind_eq_bind] at hparse ⊢
      rw [hparse, Option.bind_some]
      simpa using ih

/-- **Items separated by commas**, then the closing bracket. -/
theorem parse_items_separated {K : Nat} {close : Token} (hclose : close = .rbrack ∨ close = .rparen) :
    ∀ (xs : List (Expr × List Token)) (x : Expr × List Token), (∀ y ∈ x :: xs, Item K close y) →
      ∀ (acc : List Expr) (rest : List Token) (m : Nat), K + xs.length + 1 ≤ m →
        parse_items m close acc (x.2 ++ (xs.flatMap fun y => .comma :: y.2) ++ close :: rest) =
          some (acc ++ (x :: xs).map (·.1), rest)
  | [], x, hxs, acc, rest, m, hm => by
      obtain ⟨d, rfl⟩ : ∃ d, m = d + 1 := ⟨m - 1, by omega⟩
      obtain ⟨hx, t, ts, hts, htc⟩ := hxs x List.mem_cons_self
      have hrest : Closes (close :: rest) := by rcases hclose with rfl | rfl <;> simp [Closes]
      have hparse := hx _ hrest d (by simp at hm; omega)
      rw [hts] at hparse
      simp only [List.flatMap_nil, List.append_nil, hts, List.cons_append, parse_items_cons, if_neg htc,
        Option.bind_eq_bind] at hparse ⊢
      rw [hparse, Option.bind_some]
      rcases hclose with rfl | rfl <;> simp
  | y :: xs, x, hxs, acc, rest, m, hm => by
      obtain ⟨d, rfl⟩ : ∃ d, m = d + 1 := ⟨m - 1, by omega⟩
      obtain ⟨hx, t, ts, hts, htc⟩ := hxs x List.mem_cons_self
      have hrest : Closes (.comma :: (y.2 ++ (xs.flatMap fun y => .comma :: y.2) ++ close :: rest)) :=
        Or.inl rfl
      have hparse := hx _ hrest d (by simp at hm; omega)
      have ih := parse_items_separated hclose xs y
        (fun z hz => hxs z (List.mem_cons_of_mem _ hz)) (acc ++ [x.1]) rest d (by simp at hm; omega)
      rw [hts] at hparse
      simp only [List.flatMap_cons, hts, List.cons_append, List.append_assoc, parse_items_cons,
        if_neg htc, Option.bind_eq_bind] at hparse ⊢
      rw [hparse, Option.bind_some]
      simpa [List.append_assoc] using ih

end ParseLemmas

end Teaclave.Lib
