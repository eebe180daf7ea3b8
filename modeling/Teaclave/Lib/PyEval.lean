/-
  Teaclave.Lib.PyEval
  ───────────────────
  **PYTHON 2 EXPRESSIONS: OBJECTS AND EVALUATION.**

  The objects an expression of `PySyntax` evaluates to: `None`, booleans,
  byte strings, lists, tuples, sets and the builtin `set`, and the objects
  of the program that runs `eval` (`Host`), whose calls, attributes, `<=`
  and iteration it supplies.  Evaluation (`eval_expr`) follows Python's:
  names from the globals, then the builtins; `or` and `and` return an
  operand by its truth value; `set(x)` builds a set of the items of `x`,
  which must be hashable.  A comparison other than `<=`, and `<=` between
  objects of other kinds than sets or a host object on the left, is outside
  the model (`none`), as is every error Python raises.

  Nothing here names the repository.
-/
import Teaclave.Lib.PySyntax

namespace Teaclave.Lib

/-! ## §1. Objects. -/

inductive PyObj (H : Type) where
  | none_
  | bool (b : Bool)
  | str (s : List UInt8)
  | list (xs : List (PyObj H))
  | tuple (xs : List (PyObj H))
  | set (xs : List (PyObj H))
  | builtin_set
  | host (h : H)
  deriving Repr

/-- What the program running `eval` adds: its objects' `__call__`,
    attributes, `__le__`, `__iter__`, and which of them are the same object. -/
structure Host (H : Type) where
  call : H → List (PyObj H) → Option (PyObj H)
  getattr : H → List UInt8 → Option (PyObj H)
  le : H → PyObj H → Option (PyObj H)
  iter : H → Option (List (PyObj H))
  eq : H → H → Bool

section Objects

variable {H : Type}

/-- The truth value: empty containers, `None` and `False` are false; an
    object without `__len__` or `__nonzero__` is true. -/
def PyObj.truthy : PyObj H → Bool
  | .none_ => false
  | .bool b => b
  | .str s => !s.isEmpty
  | .list xs | .tuple xs | .set xs => !xs.isEmpty
  | .builtin_set | .host _ => true

/-- Whether an object can be put in a set: lists and sets cannot. -/
def PyObj.hashable : PyObj H → Bool
  | .list _ | .set _ => false
  | .tuple xs => hashable_all xs
  | _ => true
where
  hashable_all : List (PyObj H) → Bool
    | [] => true
    | x :: xs => x.hashable && hashable_all xs

@[simp] theorem PyObj.hashable_str (s : List UInt8) : (PyObj.str s : PyObj H).hashable = true := rfl

theorem PyObj.hashable_tuple (xs : List (PyObj H)) :
    (PyObj.tuple xs).hashable = PyObj.hashable.hashable_all xs := rfl

theorem PyObj.hashable_all_cons (x : PyObj H) (xs : List (PyObj H)) :
    PyObj.hashable.hashable_all (x :: xs) = (x.hashable && PyObj.hashable.hashable_all xs) := rfl

/-- `iter(x)`: the items of a container, the one-byte strings of a string. -/
def iter_items (host : Host H) : PyObj H → Option (List (PyObj H))
  | .list xs | .tuple xs | .set xs => some xs
  | .str s => some (s.map fun b => .str [b])
  | .host h => host.iter h
  | _ => none

/-- The items `len(x)` counts and `tuple(x)` takes: those of a builtin
    container, the one-byte strings of a string. -/
def PyObj.seq_items : PyObj H → Option (List (PyObj H))
  | .list xs | .tuple xs | .set xs => some xs
  | .str s => some (s.map fun b => .str [b])
  | _ => none

theorem PyObj.seq_items_list (xs : List (PyObj H)) : (PyObj.list xs).seq_items = some xs := rfl

variable (host : Host H)

mutual

/-- `x == y` on the objects a set can hold: `None`, booleans, strings,
    tuples item by item, and the program's objects by identity. -/
def PyObj.beq : PyObj H → PyObj H → Bool
  | .none_, .none_ => true
  | .bool a, .bool b => a == b
  | .str a, .str b => a == b
  | .tuple xs, .tuple ys => PyObj.beq_list xs ys
  | .builtin_set, .builtin_set => true
  | .host a, .host b => host.eq a b
  | _, _ => false

def PyObj.beq_list : List (PyObj H) → List (PyObj H) → Bool
  | [], [] => true
  | x :: xs, y :: ys => PyObj.beq x y && PyObj.beq_list xs ys
  | _, _ => false

end

/-- Whether a set holds an item. -/
def py_mem (x : PyObj H) (xs : List (PyObj H)) : Bool := xs.any fun y => y.beq host x

/-- The items in order, each once (a set's contents). -/
def py_dedup (xs : List (PyObj H)) : List (PyObj H) :=
  xs.foldl (fun acc x => if py_mem host x acc then acc else acc ++ [x]) []

/-- A set of the items; `TypeError` for an unhashable item. -/
def make_set (xs : List (PyObj H)) : Option (PyObj H) :=
  if xs.all PyObj.hashable then some (.set (py_dedup host xs)) else none

theorem py_dedup_eq (xs : List (PyObj H)) :
    py_dedup host xs = xs.foldl (fun acc x => if py_mem host x acc then acc else acc ++ [x]) [] := rfl

theorem make_set_of_hashable {xs : List (PyObj H)} (h : xs.all PyObj.hashable = true) :
    make_set host xs = some (.set (py_dedup host xs)) := if_pos h

/-- `x <= y`: the host's `__le__`, or set inclusion. -/
def py_le : PyObj H → PyObj H → Option (PyObj H)
  | .host h, y => host.le h y
  | .set xs, .set ys => some (.bool (xs.all fun x => py_mem host x ys))
  | _, _ => none

/-- The builtin `set`: `set()` or `set(iterable)`. -/
def call_set : List (PyObj H) → Option (PyObj H)
  | [] => some (.set [])
  | [x] => (iter_items host x).bind (make_set host)
  | _ => none

end Objects

/-! ## §2. Evaluation. -/

section Eval

variable {H : Type} (host : Host H) (env : List UInt8 → Option (PyObj H))

mutual

/-- **Evaluation of an expression**, operands left to right. -/
def eval_expr : Expr → Option (PyObj H)
  | .name n => env n
  | .str s => some (.str s)
  | .list items => (eval_items items).map .list
  | .attr e f => (eval_expr e).bind fun o =>
      match o with
      | .host h => host.getattr h f
      | _ => none
  | .call f args => do
      let fo ← eval_expr f
      let xs ← eval_items args
      match fo with
      | .builtin_set => call_set host xs
      | .host h => host.call h xs
      | _ => none
  | .cmp op a b => do
      let x ← eval_expr a
      let y ← eval_expr b
      match op with
      | .le => py_le host x y
      | _ => none
  | .not_ a => (eval_expr a).map fun x => .bool !x.truthy
  | .and_ a b => do
      let x ← eval_expr a
      if x.truthy then eval_expr b else some x
  | .or_ a b => do
      let x ← eval_expr a
      if x.truthy then some x else eval_expr b

def eval_items : List Expr → Option (List (PyObj H))
  | [] => some []
  | e :: es => do
      let x ← eval_expr e
      let xs ← eval_items es
      pure (x :: xs)

end

theorem eval_expr_name (n : List UInt8) : eval_expr host env (.name n) = env n := rfl

theorem eval_expr_str (s : List UInt8) : eval_expr host env (.str s) = some (.str s) := rfl

theorem eval_expr_list (items : List Expr) :
    eval_expr host env (.list items) = (eval_items host env items).map .list := rfl

theorem eval_expr_attr (e : Expr) (f : List UInt8) :
    eval_expr host env (.attr e f) = (eval_expr host env e).bind fun o =>
      match o with
      | .host h => host.getattr h f
      | _ => none := rfl

theorem eval_expr_call (f : Expr) (args : List Expr) :
    eval_expr host env (.call f args) = (do
      let fo ← eval_expr host env f
      let xs ← eval_items host env args
      match fo with
      | .builtin_set => call_set host xs
      | .host h => host.call h xs
      | _ => none) := rfl

theorem eval_expr_cmp (op : CmpOp) (a b : Expr) :
    eval_expr host env (.cmp op a b) = (do
      let x ← eval_expr host env a
      let y ← eval_expr host env b
      match op with
      | .le => py_le host x y
      | _ => none) := rfl

theorem eval_expr_or (a b : Expr) :
    eval_expr host env (.or_ a b) = (do
      let x ← eval_expr host env a
      if x.truthy then some x else eval_expr host env b) := rfl

theorem eval_items_nil : eval_items host env [] = some [] := rfl

theorem eval_items_cons (e : Expr) (es : List Expr) :
    eval_items host env (e :: es) = (do
      let x ← eval_expr host env e
      let xs ← eval_items host env es
      pure (x :: xs)) := rfl

/-- `a or b` of two booleans. -/
theorem eval_or_bool {a b : Expr} {x y : Bool} (ha : eval_expr host env a = some (.bool x))
    (hb : eval_expr host env b = some (.bool y)) :
    eval_expr host env (.or_ a b) = some (.bool (x || y)) := by
  cases x <;> simp [eval_expr_or, ha, hb, PyObj.truthy]

end Eval

section Run

variable {H : Type}

/-- The builtins the subset reads: `set`, `True`, `False`, `None`. -/
def builtins (n : List UInt8) : Option (PyObj H) :=
  if n = ascii_bytes "set" then some .builtin_set
  else if n = ascii_bytes "True" then some (.bool true)
  else if n = ascii_bytes "False" then some (.bool false)
  else if n = ascii_bytes "None" then some .none_
  else none

/-- Name lookup: the globals, then the builtins. -/
def with_builtins (globals : List UInt8 → Option (PyObj H)) (n : List UInt8) : Option (PyObj H) :=
  (globals n).or (builtins n)

theorem with_builtins_eq (globals : List UInt8 → Option (PyObj H)) (n : List UInt8) :
    with_builtins globals n = (globals n).or (builtins n) := rfl

/-- **`eval(text, globals)`.** -/
def py_eval (host : Host H) (globals : List UInt8 → Option (PyObj H)) (text : List UInt8) :
    Option (PyObj H) := do
  let ts ← lex text
  let e ← parse_eval_input ts
  eval_expr host (with_builtins globals) e

theorem with_builtins_set (globals : List UInt8 → Option (PyObj H))
    (h : globals (ascii_bytes "set") = none) :
    with_builtins globals (ascii_bytes "set") = some .builtin_set := by
  simp [with_builtins_eq, h, builtins]

end Run

/-! ## §3. Lists and sets of strings. -/

section Strings

variable {H : Type} (host : Host H)

@[simp] theorem PyObj.beq_str (a b : List UInt8) :
    (PyObj.str a : PyObj H).beq host (.str b) = decide (a = b) := by
  rw [PyObj.beq, Bool.eq_iff_iff]
  simp

theorem py_mem_strs (s : List UInt8) (acc : List (List UInt8)) :
    py_mem host (PyObj.str s : PyObj H) (acc.map .str) = decide (s ∈ acc) := by
  rw [Bool.eq_iff_iff]
  simp [py_mem, List.any_map, Function.comp_def]

/-- Distinct strings are a set's contents as they are. -/
theorem py_dedup_strs_aux :
    ∀ (ss acc : List (List UInt8)), ss.Nodup → (∀ s ∈ ss, s ∉ acc) →
      (ss.map PyObj.str).foldl (fun acc x => if py_mem host x acc then acc else acc ++ [x])
          (acc.map (PyObj.str : List UInt8 → PyObj H)) = (acc ++ ss).map .str
  | [], acc, _, _ => by simp
  | s :: ss, acc, hnd, hout => by
      have hs : s ∉ acc := hout s List.mem_cons_self
      have hss : ∀ s' ∈ ss, s' ∉ acc ++ [s] := by
        intro s' hs' hmem
        rcases List.mem_append.mp hmem with h | h
        · exact hout s' (List.mem_cons_of_mem _ hs') h
        · exact (List.nodup_cons.mp hnd).1 ((List.mem_singleton.mp h) ▸ hs')
      have ih := py_dedup_strs_aux ss (acc ++ [s]) (List.nodup_cons.mp hnd).2 hss
      simp only [List.map_cons, List.foldl_cons, py_mem_strs, hs, decide_false, Bool.false_eq_true,
        if_false]
      simpa using ih

/-- A string equals only that string. -/
theorem PyObj.str_beq_iff (s : List UInt8) (b : PyObj H) :
    (PyObj.str s).beq host b = true ↔ b = .str s := by
  cases b with
  | str b => simp [eq_comm]
  | _ => simp [PyObj.beq]

theorem PyObj.beq_list_strs :
    ∀ ss ts : List (List UInt8),
      PyObj.beq_list host (ss.map PyObj.str) (ts.map PyObj.str) = decide (ss = ts)
  | [], [] | [], _ :: _ | _ :: _, [] => by simp [PyObj.beq_list]
  | s :: ss, t :: ts => by simp [PyObj.beq_list, PyObj.beq_list_strs ss ts]

theorem PyObj.map_str_inj {ss ts : List (List UInt8)} :
    (ss.map PyObj.str : List (PyObj H)) = ts.map .str ↔ ss = ts :=
  List.map_inj_right fun _ _ h => PyObj.str.inj h

/-- Objects that are all strings are the strings of a list. -/
theorem exists_map_str :
    ∀ xs : List (PyObj H), (∀ x ∈ xs, ∃ s, x = .str s) → ∃ ss : List (List UInt8), xs = ss.map .str
  | [], _ => ⟨[], rfl⟩
  | x :: xs, h => by
      obtain ⟨s, rfl⟩ := h x List.mem_cons_self
      obtain ⟨ss, rfl⟩ := exists_map_str xs fun y hy => h y (List.mem_cons_of_mem _ hy)
      exact ⟨s :: ss, rfl⟩

/-- A tuple of strings can be put in a set. -/
theorem hashable_tuple_strs (ss : List (List UInt8)) :
    (PyObj.tuple (ss.map PyObj.str) : PyObj H).hashable = true := by
  induction ss with
  | nil => rfl
  | cons s ss ih =>
      rw [PyObj.hashable_tuple] at ih ⊢
      rw [List.map_cons, PyObj.hashable_all_cons, PyObj.hashable_str, ih]
      rfl

/-- Building a set of strings keeps each string once: the result holds
    exactly what the accumulator and the input hold. -/
theorem py_dedup_strs_mem_aux :
    ∀ (ss acc : List (List UInt8)), ∃ out : List (List UInt8),
      (ss.map PyObj.str).foldl (fun acc x => if py_mem host x acc then acc else acc ++ [x])
          (acc.map (PyObj.str : List UInt8 → PyObj H)) = out.map .str ∧
        ∀ s, s ∈ out ↔ s ∈ acc ∨ s ∈ ss
  | [], acc => ⟨acc, by simp⟩
  | s :: ss, acc => by
      by_cases hs : s ∈ acc
      · obtain ⟨out, hout, hmem⟩ := py_dedup_strs_mem_aux ss acc
        refine ⟨out, ?_, fun s' => ?_⟩
        · simpa [py_mem_strs, hs] using hout
        · rw [hmem, List.mem_cons]
          constructor
          · tauto
          · rintro (h | h | h)
            · exact .inl h
            · exact .inl (h ▸ hs)
            · exact .inr h
      · obtain ⟨out, hout, hmem⟩ := py_dedup_strs_mem_aux ss (acc ++ [s])
        refine ⟨out, ?_, fun s' => ?_⟩
        · simpa [py_mem_strs, hs] using hout
        · rw [hmem, List.mem_append, List.mem_singleton, List.mem_cons]
          tauto

/-- **The set of some strings**: it holds exactly those strings. -/
theorem make_set_strs_mem (ss : List (List UInt8)) :
    ∃ out : List (List UInt8),
      make_set host (ss.map PyObj.str : List (PyObj H)) = some (.set (out.map .str)) ∧
        ∀ s, s ∈ out ↔ s ∈ ss := by
  obtain ⟨out, hout, hmem⟩ := py_dedup_strs_mem_aux host ss []
  refine ⟨out, ?_, fun s => by simp [hmem]⟩
  have hd : py_dedup host (ss.map PyObj.str : List (PyObj H)) = out.map .str := by
    simpa [py_dedup_eq] using hout
  rw [make_set_of_hashable host (by simp), hd]

/-- `<=` of two sets of strings is inclusion. -/
theorem py_le_strs (xs ys : List (List UInt8)) :
    py_le host (.set (xs.map PyObj.str) : PyObj H) (.set (ys.map .str)) =
      some (.bool (decide (∀ x ∈ xs, x ∈ ys))) := by
  simp [py_le, py_mem_strs, List.all_eq]

theorem make_set_strs {ss : List (List UInt8)} (h : ss.Nodup) :
    make_set host (ss.map PyObj.str : List (PyObj H)) = some (.set (ss.map .str)) := by
  have hd : py_dedup host (ss.map PyObj.str : List (PyObj H)) = ss.map .str := by
    simpa [py_dedup_eq] using py_dedup_strs_aux host ss [] h (by simp)
  rw [make_set_of_hashable host (by simp), hd]

theorem eval_items_strs (env : List UInt8 → Option (PyObj H)) :
    ∀ ss : List (List UInt8), eval_items host env (ss.map Expr.str) = some (ss.map PyObj.str)
  | [] => eval_items_nil host env
  | s :: ss => by simp [eval_items_cons, eval_expr_str, eval_items_strs env ss]

end Strings

/-! ## §4. Literals of strings: from the bytes to the object. -/

/-- The single-quoted literal of a string, its bytes as they are. -/
def quoted (s : List UInt8) : List UInt8 := ascii '\'' :: (s ++ [ascii '\''])

theorem quoted_eq (s : List UInt8) : quoted s = ascii '\'' :: (s ++ [ascii '\'']) := rfl

/-- A string whose bytes stand for themselves between single quotes: no
    quote, no backslash, no line end. -/
def Unescaped (s : List UInt8) : Prop := ∀ b ∈ s, SafeByte (ascii '\'') b

-- Decided along the list, not over all 256 bytes as `Fintype` would.
instance (s : List UInt8) : Decidable (Unescaped s) :=
  List.decidableBAll _ s

/-- `[s₀,s₁,…]`: a list display of such literals. -/
def str_list_literal : List (List UInt8) → List UInt8
  | [] => ascii_bytes "[]"
  | s :: ss => ascii '[' :: (quoted s ++ (ss.flatMap fun s' => ascii ',' :: quoted s') ++ [ascii ']'])

/-- `set([s₀,s₁,…,])`: a set of such literals, each followed by a comma. -/
def set_call_literal (ss : List (List UInt8)) : List UInt8 :=
  ascii_bytes "set([" ++ (ss.flatMap fun s => quoted s ++ [ascii ',']) ++ ascii_bytes "])"

section Literals

/-- The bytes of a literal of strings: the strings' and `[',]`. -/
theorem mem_str_list_literal {b : UInt8} {ss : List (List UInt8)} (h : b ∈ str_list_literal ss) :
    b ∈ ascii_bytes "[',]" ∨ ∃ s ∈ ss, b ∈ s := by
  have hp : ascii_bytes "[',]" = [ascii '[', ascii '\'', ascii ',', ascii ']'] := rfl
  rw [hp]
  cases ss with
  | nil =>
      have hnil : str_list_literal [] = [ascii '[', ascii ']'] := rfl
      rw [hnil] at h
      simp only [List.mem_cons, List.not_mem_nil, or_false] at h
      rcases h with rfl | rfl <;> simp
  | cons s ss =>
      simp only [str_list_literal, quoted_eq, List.mem_cons, List.mem_append, List.mem_flatMap] at h
      grind

/-- The bytes of a call of `set`: the strings' and `set([',])`. -/
theorem mem_set_call_literal {b : UInt8} {ss : List (List UInt8)} (h : b ∈ set_call_literal ss) :
    b ∈ ascii_bytes "set([',])" ∨ ∃ s ∈ ss, b ∈ s := by
  have hp : ascii_bytes "set([',])" =
      [ascii 's', ascii 'e', ascii 't', ascii '(', ascii '[', ascii '\'', ascii ',', ascii ']',
        ascii ')'] := rfl
  have hl : ascii_bytes "set([" = [ascii 's', ascii 'e', ascii 't', ascii '(', ascii '['] := rfl
  have hr : ascii_bytes "])" = [ascii ']', ascii ')'] := rfl
  rw [hp]
  simp only [set_call_literal, hl, hr, quoted_eq, List.mem_cons, List.mem_append, List.mem_flatMap,
    List.not_mem_nil, or_false] at h
  rcases h with ((h | h | h | h | h) | ⟨s, hs, (h | h | h) | h⟩) | h | h
  all_goals first
    | exact .inr ⟨s, hs, h⟩
    | (left; subst h; simp)

theorem lex_from_quoted_str {s : List UInt8} (hs : Unescaped s) {rest : List UInt8}
    (hrest : rest.head? ≠ some (ascii '\'')) :
    lex_from .top (quoted s ++ rest) = (lex_from .top rest).map (.str s :: ·) := by
  rw [quoted_eq, List.cons_append, List.append_assoc, List.singleton_append]
  exact lex_from_quoted top_step_quote hs hrest

/-- The tail `,s₁,…` of a list display. -/
theorem lex_from_comma_strs :
    ∀ {ss : List (List UInt8)}, (∀ s ∈ ss, Unescaped s) → ∀ {rest : List UInt8},
      rest.head? ≠ some (ascii '\'') →
      lex_from .top ((ss.flatMap fun s => ascii ',' :: quoted s) ++ rest) =
        (lex_from .top rest).map ((ss.flatMap fun s => [.comma, .str s]) ++ ·)
  | [], _, rest, _ => by simp
  | s :: ss, hss, rest, hrest => by
      have hnext : ((ss.flatMap fun s => ascii ',' :: quoted s) ++ rest).head? ≠ some (ascii '\'') := by
        cases ss with
        | nil => simpa using hrest
        | cons s' ss' => simp; decide
      rw [List.flatMap_cons, List.append_assoc, List.cons_append,
        lex_from_punct (by decide : top_step (ascii ',') = some (.top, [.comma])),
        lex_from_quoted_str (hss s List.mem_cons_self) hnext,
        lex_from_comma_strs (fun s' hs' => hss s' (List.mem_cons_of_mem _ hs')) hrest]
      simp [Option.map_map, Function.comp_def]

/-- The tail `s₀,s₁,…,` of a set's list. -/
theorem lex_from_strs_comma :
    ∀ {ss : List (List UInt8)}, (∀ s ∈ ss, Unescaped s) → ∀ {rest : List UInt8},
      rest.head? ≠ some (ascii '\'') →
      lex_from .top ((ss.flatMap fun s => quoted s ++ [ascii ',']) ++ rest) =
        (lex_from .top rest).map ((ss.flatMap fun s => [.str s, .comma]) ++ ·)
  | [], _, rest, _ => by simp
  | s :: ss, hss, rest, hrest => by
      rw [List.flatMap_cons, List.append_assoc, List.append_assoc,
        lex_from_quoted_str (hss s List.mem_cons_self) (by simp; decide), List.singleton_append,
        lex_from_punct (by decide : top_step (ascii ',') = some (.top, [.comma])),
        lex_from_strs_comma (fun s' hs' => hss s' (List.mem_cons_of_mem _ hs')) hrest]
      simp [Option.map_map, Function.comp_def]

/-- The tokens of `[s₀,s₁,…]`. -/
theorem lex_str_list_literal {s : List UInt8} {ss : List (List UInt8)}
    (hss : ∀ s' ∈ s :: ss, Unescaped s') :
    lex (str_list_literal (s :: ss)) =
      some (Token.lbrack :: .str s :: (ss.flatMap fun s' => [Token.comma, .str s']) ++ [Token.rbrack]) := by
  have hend : lex_from .top [ascii ']'] = some [.rbrack] := by decide
  have hhead : ((ss.flatMap fun s' => ascii ',' :: quoted s') ++ [ascii ']']).head? ≠
      some (ascii '\'') := by
    cases ss with
    | nil => decide
    | cons s' ss' => simp; decide
  rw [lex, str_list_literal, lex_from_punct (by decide : top_step (ascii '[') = some (.top, [.lbrack])),
    List.append_assoc, lex_from_quoted_str (hss s List.mem_cons_self) hhead,
    lex_from_comma_strs (fun s' hs' => hss s' (List.mem_cons_of_mem _ hs')) (by decide), hend]
  simp

/-- The tokens of `set([s₀,s₁,…,])`, before what follows. -/
theorem lex_from_set_call_literal {ss : List (List UInt8)} (hss : ∀ s ∈ ss, Unescaped s)
    (rest : List UInt8) :
    lex_from .top (set_call_literal ss ++ rest) =
      (lex_from .top rest).map
        (([Token.name (ascii_bytes "set"), .lparen, .lbrack] ++
          (ss.flatMap fun s => [Token.str s, .comma]) ++ [Token.rbrack, .rparen]) ++ ·) := by
  have hclose : ∀ bs, lex_from .top (ascii_bytes "])" ++ bs) =
      (lex_from .top bs).map ([.rbrack, .rparen] ++ ·) := by
    intro bs
    show lex_from .top (ascii ']' :: ascii ')' :: bs) = _
    rw [lex_from_punct (by decide : top_step (ascii ']') = some (.top, [.rbrack])),
      lex_from_punct (by decide : top_step (ascii ')') = some (.top, [.rparen]))]
    simp [Option.map_map, Function.comp_def]
  have hopen : ascii_bytes "set([" = ascii_bytes "set(" ++ [ascii '['] := by decide
  rw [set_call_literal, hopen, List.append_assoc, List.append_assoc, List.append_assoc,
    lex_from_set_call, List.singleton_append,
    lex_from_punct (by decide : top_step (ascii '[') = some (.top, [.lbrack])),
    lex_from_strs_comma hss (by show (ascii ']' :: ascii ')' :: rest).head? ≠ _; simp; decide),
    hclose]
  simp [Option.map_map, Function.comp_def]

/-- The items of a string list, for `Item`. -/
theorem item_str (close : Token) (hclose : close = .rbrack ∨ close = .rparen) (s : List UInt8) :
    Item 7 close (.str s, [.str s]) :=
  ⟨parses_str s, .str s, [], rfl, by rcases hclose with rfl | rfl <;> simp⟩

/-- What reads `[s₀,s₁,…]`. -/
theorem parses_str_list (s : List UInt8) (ss : List (List UInt8)) :
    Parses (ss.length + 14) (.list ((s :: ss).map .str))
      (Token.lbrack :: .str s :: (ss.flatMap fun s' => [Token.comma, .str s']) ++ [Token.rbrack]) := by
  have hitems : ∀ rest, Closes rest → ∀ m, 7 + ss.length + 1 ≤ m →
      parse_items m .rbrack [] ((Token.str s :: (ss.flatMap fun s' => [Token.comma, .str s']) ++
        [Token.rbrack]) ++ rest) = some ((s :: ss).map Expr.str, rest) := by
    intro rest _ m hm
    have h := parse_items_separated (Or.inl rfl) (ss.map fun s' => (Expr.str s', [Token.str s']))
      (.str s, [.str s]) (by
        intro y hy
        simp only [List.mem_cons, List.mem_map] at hy
        rcases hy with rfl | ⟨s', _, rfl⟩ <;> exact item_str _ (Or.inl rfl) _)
      [] rest m (by simpa using hm)
    simpa [List.flatMap_map, Function.comp_def] using h
  exact (parses_list hitems).mono (by omega)

/-- **A list of string literals evaluates to the list of the strings.** -/
theorem py_eval_str_list_literal {H : Type} (host : Host H)
    (globals : List UInt8 → Option (PyObj H)) {s : List UInt8} {ss : List (List UInt8)}
    (hss : ∀ s' ∈ s :: ss, Unescaped s') :
    py_eval host globals (str_list_literal (s :: ss)) = some (.list ((s :: ss).map .str)) := by
  have hparse := parse_eval_input_of_parses (parses_str_list s ss) (by simp; omega)
  simp only [py_eval, lex_str_list_literal hss, Option.bind_eq_bind, Option.bind_some, hparse,
    eval_expr_list]
  rw [eval_items_strs host _ (s :: ss)]
  rfl

/-- The tokens of `set([s₀,s₁,…,])`. -/
def set_call_tokens (ss : List (List UInt8)) : List Token :=
  [.name (ascii_bytes "set"), .lparen, .lbrack] ++ (ss.flatMap fun s => [.str s, .comma]) ++
    [.rbrack, .rparen]

theorem length_set_call_tokens (ss : List (List UInt8)) :
    (set_call_tokens ss).length = 2 * ss.length + 5 := by
  simp [set_call_tokens, List.length_flatMap]
  omega

/-- What reads `set([s₀,s₁,…,])`: a call of `set` on a list display. -/
theorem parses_set_call (ss : List (List UInt8)) :
    Parses (ss.length + 22) (.call (.name (ascii_bytes "set")) [.list (ss.map .str)])
      (set_call_tokens ss) := by
  -- the list display, its items each followed by a comma
  have hlist : Parses (ss.length + 14) (.list (ss.map .str))
      (Token.lbrack :: ((ss.flatMap fun s => [Token.str s, .comma]) ++ [Token.rbrack])) := by
    have hitems : ∀ rest, Closes rest → ∀ m, 7 + ss.length + 1 ≤ m →
        parse_items m .rbrack [] (((ss.flatMap fun s => [Token.str s, .comma]) ++ [Token.rbrack]) ++ rest) =
          some (ss.map Expr.str, rest) := by
      intro rest _ m hm
      have h := parse_items_trailing (ss.map fun s => (Expr.str s, [Token.str s])) (by
        intro y hy
        simp only [List.mem_map] at hy
        obtain ⟨s, _, rfl⟩ := hy
        exact item_str _ (Or.inl rfl) s) [] rest m (by simpa using hm)
      simpa [List.flatMap_map, Function.comp_def] using h
    exact (parses_list hitems).mono (by omega)
  -- the call's one argument
  have hargs : ∀ rest, Closes rest → ∀ m, ss.length + 15 ≤ m →
      parse_items m .rparen []
          ((Token.lbrack :: ((ss.flatMap fun s => [Token.str s, .comma]) ++ [Token.rbrack])) ++
            [Token.rparen] ++ rest) =
        some ([.list (ss.map .str)], rest) := by
    intro rest _ m hm
    have h := parse_items_separated (Or.inr rfl) []
      (.list (ss.map .str), Token.lbrack :: ((ss.flatMap fun s => [Token.str s, .comma]) ++
        [Token.rbrack]))
      (by
        intro y hy
        simp only [List.mem_singleton] at hy
        subst hy
        exact ⟨hlist, .lbrack, _, rfl, by simp⟩) [] rest m (by simp; omega)
    simpa using h
  have hcall := parses_call (by decide : is_keyword (ascii_bytes "set") = false) hargs
  simpa [set_call_tokens] using hcall

/-- **`set([…])` of distinct strings is the set of them.** -/
theorem eval_set_call {H : Type} (host : Host H)
    {env : List UInt8 → Option (PyObj H)} (henv : env (ascii_bytes "set") = some .builtin_set)
    {ss : List (List UInt8)} (hnd : ss.Nodup) :
    eval_expr host env (.call (.name (ascii_bytes "set")) [.list (ss.map .str)]) =
      some (.set (ss.map .str)) := by
  simp only [eval_expr_call, eval_expr_name, henv, eval_items_cons, eval_items_nil, eval_expr_list,
    eval_items_strs, Option.map_some, Option.bind_eq_bind, Option.bind_some, Option.pure_def,
    call_set, iter_items]
  exact make_set_strs host hnd

end Literals

end Teaclave.Lib
