/-
  Teaclave.Acs.Conf
  ─────────────────
  **THE ACCESS-CONTROL MODEL AND ITS PARSER.**

  `mesatee_services/acs/python/acs_engine.py` (the grammar, `preprocess`,
  `parse_model`) and `mesatee_services/acs/model.conf`, which `sgx.rs`
  includes as `MODEL_TEXT` and hands to `acs_setup_model`.

  `preprocess` joins escaped line breaks, cuts comments and strips the
  text; the grammar reads three sections of `name = a, b` definitions and
  `name = <python expression>` matchers.  A matcher line is `compile`d as an
  expression of the subset of `PySyntax`: a line outside it fails here as a
  `SyntaxError` would.  The shipped text parses to the definitions and
  matchers of `model_conf_raw` (`parse_model_conf`).
-/
import Teaclave.Lib.Combinator
import Teaclave.Lib.PySyntax

namespace Teaclave.Acs

open Teaclave.Lib

/-! ## §1. The text. -/

/-- The lines of `model.conf`. -/
def MODEL_LINES : List String :=
  ["[requests]",
   "launch_task = task, participants",
   "access_data = task, data",
   "delete_data = usr, data",
   "access_script = task, script",
   "delete_script = usr, script",
   "",
   "[terms]",
   "task_creator = task, usr",
   "task_participant = task, usr",
   "",
   "script_owner = script, usr",
   "is_public_script = script",
   "",
   "data_owner = data, usr",
   "",
   "[matchers]",
   "# All participants must approve task launch",
   "launch_task = task_participant(launch_task.task, _) <= launch_task.participants",
   "",
   "# All participants must approve data access",
   "access_data = data_owner(access_data.data, _) <= task_participant(access_data.task, _)",
   "",
   "# Any creator of the data can request for deletion",
   "delete_data = data_owner(delete_data.data, delete_data.usr)",
   "",
   "access_script = \\",
   "    is_public_script(access_script.script) or \\",
   "    script_owner(access_script.script, _) <= task_participant(access_script.task, _)",
   "",
   "# Only creator of the script can request for deletion",
   "delete_script = script_owner(delete_script.script, delete_script.usr)"]

/-- `MODEL_TEXT`: the file's bytes (it is ASCII, with no line break at its end). -/
def MODEL_TEXT : List UInt8 := [10].intercalate (MODEL_LINES.map ascii_bytes)

/-! ## §2. `preprocess`. -/

/-- `conf.replace('\\\n', '')`. -/
def remove_escaped_breaks : List UInt8 → List UInt8
  | 92 :: 10 :: rest => remove_escaped_breaks rest
  | b :: rest => b :: remove_escaped_breaks rest
  | [] => []

/-- `str.splitlines` of a byte string: at `\n`, `\r` and `\r\n`, without an
    empty last line. -/
def splitlines_from (cur : List UInt8) : List UInt8 → List (List UInt8)
  | [] => if cur = [] then [] else [cur]
  | 13 :: 10 :: rest => cur :: splitlines_from [] rest
  | 13 :: rest => cur :: splitlines_from [] rest
  | 10 :: rest => cur :: splitlines_from [] rest
  | b :: rest => splitlines_from (cur ++ [b]) rest

def splitlines (text : List UInt8) : List (List UInt8) := splitlines_from [] text

/-- The bytes `str.strip` removes: space, `\t`, `\n`, `\v`, `\f`, `\r`. -/
def is_space (b : UInt8) : Bool := b == 32 || (9 ≤ b && b ≤ 13)

/-- `str.strip()`. -/
def strip (text : List UInt8) : List UInt8 :=
  ((text.dropWhile is_space).reverse.dropWhile is_space).reverse

/-- `preprocess`. -/
def preprocess (conf : List UInt8) : List UInt8 :=
  -- process escaped line breaks
  let conf := remove_escaped_breaks conf
  -- remove comments
  let conf := [10].intercalate ((splitlines conf).map fun line => line.takeWhile (· != ascii '#'))
  -- remove redundant new lines
  let conf := strip conf
  conf ++ [10]

/-! ## §3. The matchers of identifiers and expressions. -/

/-- `identifier_matcher`: a letter or `_`, then letters, digits and `_`. -/
def identifier_matcher (text : List UInt8) (pos : Nat) : Option (List UInt8 × Nat) :=
  match text.drop pos with
  | [] => none
  | first :: rest =>
      if first != ascii '_' && !is_alpha first then none
      else
        let tail := rest.takeWhile fun c => c == ascii '_' || is_alpha c || is_digit c
        some (first :: tail, pos + 1 + tail.length)

theorem identifier_matcher_eq (text : List UInt8) (pos : Nat) :
    identifier_matcher text pos =
      match text.drop pos with
      | [] => none
      | first :: rest =>
          if first != ascii '_' && !is_alpha first then none
          else
            some (first :: rest.takeWhile (fun c => c == ascii '_' || is_alpha c || is_digit c),
              pos + 1 + (rest.takeWhile fun c => c == ascii '_' || is_alpha c || is_digit c).length) := rfl

/-- `pyparser_matcher`: the rest of the line, compiled as an expression. -/
def pyparser_matcher (text : List UInt8) (pos : Nat) : Option (Expr × Nat) :=
  let rest := text.drop pos
  if rest.contains 10 then
    let line := rest.takeWhile (· != 10)
    ((lex line).bind parse_eval_input).map fun e => (e, pos + line.length)
  else none

/-! ## §4. The grammar. -/

def Equal : Parser (List UInt8) := str_lit (ascii_bytes "=")
def Comma : Parser (List UInt8) := str_lit (ascii_bytes ",")

/-- `NewLine = (~StrLiteral('\n')).ignore()`: any number of line ends. -/
def NewLine : Parser (List (List UInt8)) := (str_lit [10]).rep

def Identifier : Parser (List UInt8) := custom identifier_matcher

theorem Identifier_apply (s : Stream) : Identifier s = s.accept_matcher identifier_matcher := rfl

/-- `IdTuple = rep_with_sep(Identifier, Comma)`. -/
def IdTuple : Parser (List (List UInt8)) :=
  (Identifier.seq (Comma.seq_right Identifier).rep).map fun x => x.1 :: x.2

theorem IdTuple_eq : IdTuple = (Identifier.seq (Comma.seq_right Identifier).rep).map fun x => x.1 :: x.2 :=
  rfl

/-- `Definition = Identifier + Equal + IdTuple + NewLine`: a name and its attributes. -/
def Definition : Parser (List UInt8 × List (List UInt8)) :=
  ((Identifier.seq_left Equal).seq IdTuple).seq_left NewLine

def PyExpr : Parser Expr := custom pyparser_matcher

/-- `Matcher = Identifier + Equal + PyExpr + NewLine`. -/
def Matcher : Parser (List UInt8 × Expr) :=
  ((Identifier.seq_left Equal).seq PyExpr).seq_left NewLine

def RequestDefHeader : Parser (List UInt8) := (str_lit (ascii_bytes "[requests]")).seq_left NewLine
def TermDefHeader : Parser (List UInt8) := (str_lit (ascii_bytes "[terms]")).seq_left NewLine
def MatchersHeader : Parser (List UInt8) := (str_lit (ascii_bytes "[matchers]")).seq_left NewLine

def RequestDefSec : Parser (List (List UInt8 × List (List UInt8))) :=
  RequestDefHeader.seq_right Definition.rep
def TermDefSec : Parser (List (List UInt8 × List (List UInt8))) :=
  TermDefHeader.seq_right Definition.rep
def MatchersSec : Parser (List (List UInt8 × Expr)) := MatchersHeader.seq_right Matcher.rep

/-- What `parse_model` returns: the request and term definitions, and the matchers. -/
structure RawModel where
  request_def : List (List UInt8 × List (List UInt8))
  term_def : List (List UInt8 × List (List UInt8))
  matchers : List (List UInt8 × Expr)
  deriving DecidableEq

/-- `ModelDef = (RequestDefSec + TermDefSec + MatchersSec) ** flatten`. -/
def ModelDef : Parser RawModel :=
  ((RequestDefSec.seq TermDefSec).seq MatchersSec).map fun x => ⟨x.1.1, x.1.2, x.2⟩

/-- `parse_model`. -/
def parse_model (text : List UInt8) : Option RawModel :=
  ModelDef.parse_from ⟨preprocess text, 0⟩

/-! ## §5. The grammar over any `compile`.

`pyparser_matcher` calls Python's `compile`; here it is a parameter, so
that what is proved of the grammar holds whatever `compile` accepts.  The
shipped parser is the case of `python_compile`. -/

/-- `compile(text, '__abac_model__.py', 'eval')` as §3 reads it. -/
def python_compile (line : List UInt8) : Option Expr := (lex line).bind parse_eval_input

/-- `pyparser_matcher`, with `compile` given. -/
def pyparser_matcher_with {C : Type} (compile : List UInt8 → Option C) (text : List UInt8)
    (pos : Nat) : Option (C × Nat) :=
  let rest := text.drop pos
  if rest.contains 10 then
    let line := rest.takeWhile (· != 10)
    (compile line).map fun c => (c, pos + line.length)
  else none

section Compile

variable {C : Type} (compile : List UInt8 → Option C)

def PyExpr_with : Parser C := custom (pyparser_matcher_with compile)

theorem PyExpr_with_apply (s : Stream) : PyExpr_with compile s = s.accept_matcher (pyparser_matcher_with compile) :=
  rfl

def Matcher_with : Parser (List UInt8 × C) :=
  ((Identifier.seq_left Equal).seq (PyExpr_with compile)).seq_left NewLine

def MatchersSec_with : Parser (List (List UInt8 × C)) :=
  MatchersHeader.seq_right (Matcher_with compile).rep

/-- `ModelDef`: the request and term definitions and the matchers, as the
    list `[R, T, M]` that `flatten` returns. -/
def ModelDef_with :
    Parser (List (List UInt8 × List (List UInt8)) × List (List UInt8 × List (List UInt8)) ×
      List (List UInt8 × C)) :=
  ((RequestDefSec.seq TermDefSec).seq (MatchersSec_with compile)).map fun x => (x.1.1, x.1.2, x.2)

def parse_model_with (text : List UInt8) :
    Option (List (List UInt8 × List (List UInt8)) × List (List UInt8 × List (List UInt8)) ×
      List (List UInt8 × C)) :=
  (ModelDef_with compile).parse_from ⟨preprocess text, 0⟩

end Compile

/-- The shipped parser is the grammar at `python_compile`. -/
theorem parse_model_eq_with (text : List UInt8) :
    parse_model text = (parse_model_with python_compile text).map fun r => ⟨r.1, r.2.1, r.2.2⟩ := by
  have hdef : ModelDef = (ModelDef_with python_compile).map fun r => ⟨r.1, r.2.1, r.2.2⟩ := by
    funext s
    simp only [ModelDef, ModelDef_with, Parser.map_apply, Option.map_map]
    rfl
  rw [parse_model, hdef, parse_from_map]
  rfl

/-! ## §6. What the shipped text defines. -/

/-- `r.f`: an attribute of the request. -/
def attr_of (r f : String) : Expr := .attr (.name (ascii_bytes r)) (ascii_bytes f)

/-- `t(args)`: a term called. -/
def term_call (t : String) (args : List Expr) : Expr := .call (.name (ascii_bytes t)) args

/-- `_`, the placeholder of a query. -/
def placeholder_arg : Expr := .name (ascii_bytes "_")

/-- Definitions written as strings. -/
def defs_of (ds : List (String × List String)) : List (List UInt8 × List (List UInt8)) :=
  ds.map fun d => (ascii_bytes d.1, d.2.map ascii_bytes)

/-- `launch_task`: all participants must approve task launch. -/
def launch_task_matcher : Expr :=
  .cmp .le (term_call "task_participant" [attr_of "launch_task" "task", placeholder_arg])
    (attr_of "launch_task" "participants")

/-- `access_data`: all participants must approve data access. -/
def access_data_matcher : Expr :=
  .cmp .le (term_call "data_owner" [attr_of "access_data" "data", placeholder_arg])
    (term_call "task_participant" [attr_of "access_data" "task", placeholder_arg])

/-- `delete_data`: any creator of the data can request its deletion. -/
def delete_data_matcher : Expr :=
  term_call "data_owner" [attr_of "delete_data" "data", attr_of "delete_data" "usr"]

/-- `access_script`: a public script, or one all of whose owners take part. -/
def access_script_matcher : Expr :=
  .or_ (term_call "is_public_script" [attr_of "access_script" "script"])
    (.cmp .le (term_call "script_owner" [attr_of "access_script" "script", placeholder_arg])
      (term_call "task_participant" [attr_of "access_script" "task", placeholder_arg]))

/-- `delete_script`: only the creator of the script can request its deletion. -/
def delete_script_matcher : Expr :=
  term_call "script_owner" [attr_of "delete_script" "script", attr_of "delete_script" "usr"]

/-- The model `model.conf` defines: five requests, five terms, and a matcher
    for each request, with `or` binding looser than `<=`. -/
def model_conf_raw : RawModel where
  request_def := defs_of
    [("launch_task", ["task", "participants"]), ("access_data", ["task", "data"]),
     ("delete_data", ["usr", "data"]), ("access_script", ["task", "script"]),
     ("delete_script", ["usr", "script"])]
  term_def := defs_of
    [("task_creator", ["task", "usr"]), ("task_participant", ["task", "usr"]),
     ("script_owner", ["script", "usr"]), ("is_public_script", ["script"]),
     ("data_owner", ["data", "usr"])]
  matchers :=
    [(ascii_bytes "launch_task", launch_task_matcher),
     (ascii_bytes "access_data", access_data_matcher),
     (ascii_bytes "delete_data", delete_data_matcher),
     (ascii_bytes "access_script", access_script_matcher),
     (ascii_bytes "delete_script", delete_script_matcher)]

/-- **The shipped text parses** to the model above. -/
theorem parse_model_conf : parse_model MODEL_TEXT = some model_conf_raw := by
  decide +kernel

end Teaclave.Acs
