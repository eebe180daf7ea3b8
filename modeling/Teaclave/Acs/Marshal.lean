/-
  Teaclave.Acs.Marshal
  ────────────────────
  **THE ACS REQUESTS AS PYTHON LITERALS.**

  `mesatee_services/acs/sgx_trusted_lib/src/acs.rs`.  `handle_request` turns
  a request, and each fact it announces, into a type name and a Python
  literal (`PyMarshallable::marshal`); the engine reads the literal back with
  `eval` (`acs_engine.py`: `acs_enforce_request`, `acs_announce_fact`).
  `marshal` writes a string between single quotes as it is.

  For strings with no quote, backslash or line end the round trip is exact
  (§3): `eval` gives the list of the strings, and for `launch_task` the set
  of the participants.  A quote inside a string ends the literal early (§4):
  the strings `alice','bob` and `d` of a `delete_data` request come back as
  the three strings `alice`, `bob` and `d`.

  A Rust `String` is its UTF-8 bytes; a `HashSet` is the order in which its
  iterator visits its items.
-/
import Teaclave.Lib.PyEval

namespace Teaclave.Acs

open Teaclave.Lib

/-! ## §1. `PyMarshallable`. -/

/-- `std::collections::HashSet`, by its iteration order. -/
structure HashSet (α : Type) where
  elems : List α
  nodup : elems.Nodup

/-- The one-element tuple `(T,)`. -/
structure Tuple1 (α : Type) where
  fst : α

/-- `PyMarshallable`: append the object's Python form to the buffer. -/
class PyMarshallable (α : Type) where
  marshal : α → List UInt8 → List UInt8

open PyMarshallable (marshal)

/-- `impl PyMarshallable for String` (and for `&String`). -/
instance : PyMarshallable (List UInt8) where
  marshal s buffer := buffer ++ [ascii '\''] ++ s ++ [ascii '\'']

/-- `impl<T> PyMarshallable for (T,)`. -/
instance {T : Type} [PyMarshallable T] : PyMarshallable (Tuple1 T) where
  marshal t buffer := marshal t.fst (buffer ++ [ascii '[']) ++ [ascii ']']

/-- `impl<U, V> PyMarshallable for (U, V)`. -/
instance {U V : Type} [PyMarshallable U] [PyMarshallable V] : PyMarshallable (U × V) where
  marshal p buffer :=
    marshal p.2 (marshal p.1 (buffer ++ [ascii '[']) ++ [ascii ',']) ++ [ascii ']']

/-- `impl<T> PyMarshallable for &HashSet<T>`: each item followed by a comma. -/
instance {T : Type} [PyMarshallable T] : PyMarshallable (HashSet T) where
  marshal s buffer :=
    s.elems.foldl (fun buffer t => marshal t buffer ++ [ascii ',']) (buffer ++ ascii_bytes "set([") ++
      ascii_bytes "])"

/-! ## §2. What `handle_request` passes to the engine. -/

/-- `acs_proto::EnforceRequest`. -/
inductive EnforceRequest where
  | LaunchTask (usr : List UInt8) (task : HashSet (List UInt8))
  | AccessData (task data : List UInt8)
  | DeleteData (usr data : List UInt8)
  | AccessScript (task script : List UInt8)
  | DeleteScript (usr script : List UInt8)

/-- `acs_proto::AccessControlTerms`. -/
inductive AccessControlTerms where
  | TaskCreator (task usr : List UInt8)
  | TaskParticipant (task usr : List UInt8)
  | DataOwner (data usr : List UInt8)
  | ScriptOwner (script usr : List UInt8)
  | IsPublicScript (script : List UInt8)

/-- `EnforceRequest::handle_request`: the `request_type` and the
    `request_content` it passes to `acs_enforce_request`. -/
def EnforceRequest.request : EnforceRequest → List UInt8 × List UInt8
  | .LaunchTask usr task => (ascii_bytes "launch_task", marshal (usr, task) [])
  | .AccessData task data => (ascii_bytes "access_data", marshal (task, data) [])
  | .DeleteData usr data => (ascii_bytes "delete_data", marshal (usr, data) [])
  | .AccessScript task script => (ascii_bytes "access_script", marshal (task, script) [])
  | .DeleteScript usr script => (ascii_bytes "delete_script", marshal (usr, script) [])

/-- `AnnounceRequest::handle_request`: the `term_type` and `term_fact` of one
    fact, passed to `acs_announce_fact`. -/
def AccessControlTerms.fact : AccessControlTerms → List UInt8 × List UInt8
  | .TaskCreator task usr => (ascii_bytes "task_creator", marshal (task, usr) [])
  | .TaskParticipant task usr => (ascii_bytes "task_participant", marshal (task, usr) [])
  | .DataOwner data usr => (ascii_bytes "data_owner", marshal (data, usr) [])
  | .ScriptOwner script usr => (ascii_bytes "script_owner", marshal (script, usr) [])
  | .IsPublicScript script => (ascii_bytes "is_public_script", marshal (Tuple1.mk script) [])

/-- The strings a request carries. -/
def EnforceRequest.strings : EnforceRequest → List (List UInt8)
  | .LaunchTask usr task => usr :: task.elems
  | .AccessData a b | .DeleteData a b | .AccessScript a b | .DeleteScript a b => [a, b]

def AccessControlTerms.strings : AccessControlTerms → List (List UInt8)
  | .TaskCreator a b | .TaskParticipant a b | .DataOwner a b | .ScriptOwner a b => [a, b]
  | .IsPublicScript script => [script]

/-- The object `eval` is meant to give back: the strings as a list, the
    participants of `launch_task` as a set. -/
def EnforceRequest.py_args {H : Type} : EnforceRequest → PyObj H
  | .LaunchTask usr task => .list [.str usr, .set (task.elems.map .str)]
  | .AccessData a b | .DeleteData a b | .AccessScript a b | .DeleteScript a b =>
      .list [.str a, .str b]

def AccessControlTerms.py_args {H : Type} (t : AccessControlTerms) : PyObj H :=
  .list (t.strings.map .str)

/-! ## §3. The round trip for strings that need no escape. -/

section RoundTrip

theorem marshal_pair (a b : List UInt8) : marshal (a, b) [] = str_list_literal [a, b] := by
  simp [marshal, str_list_literal, quoted]

theorem marshal_tuple1 (a : List UInt8) : marshal (Tuple1.mk a) [] = str_list_literal [a] := by
  simp [marshal, str_list_literal, quoted]

/-- The items of a `HashSet`, each with its comma. -/
theorem foldl_marshal_comma :
    ∀ (ss : List (List UInt8)) (buffer : List UInt8),
      ss.foldl (fun buffer t => marshal t buffer ++ [ascii ',']) buffer =
        buffer ++ ss.flatMap fun s => quoted s ++ [ascii ',']
  | [], buffer => by simp
  | s :: ss, buffer => by
      rw [List.foldl_cons, foldl_marshal_comma ss]
      simp [marshal, quoted]

theorem marshal_launch_task (usr : List UInt8) (task : HashSet (List UInt8)) :
    marshal (usr, task) [] =
      ascii '[' :: (quoted usr ++ ascii ',' :: (set_call_literal task.elems ++ [ascii ']'])) := by
  simp [marshal, set_call_literal, quoted, List.flatMap_def]

section
variable {H : Type} (host : Host H) (globals : List UInt8 → Option (PyObj H))

/-- The content of `launch_task` evaluates to the user and the set. -/
theorem py_eval_launch_task (hset : globals (ascii_bytes "set") = none) {usr : List UInt8}
    {task : HashSet (List UInt8)} (hss : ∀ s ∈ usr :: task.elems, Unescaped s) :
    py_eval host globals (marshal (usr, task) []) =
      some (.list [.str usr, .set (task.elems.map .str)]) := by
  have htask : ∀ s ∈ task.elems, Unescaped s := fun s hs => hss s (List.mem_cons_of_mem _ hs)
  -- the tokens
  have hlex : lex (marshal (usr, task) []) =
      some (.lbrack :: .str usr :: .comma :: (set_call_tokens task.elems ++ [.rbrack])) := by
    have hend : lex_from .top [ascii ']'] = some [.rbrack] := by decide
    rw [marshal_launch_task, lex,
      lex_from_punct (by decide : top_step (ascii '[') = some (.top, [.lbrack])),
      lex_from_quoted_str (hss usr List.mem_cons_self) (by simp; decide),
      lex_from_punct (by decide : top_step (ascii ',') = some (.top, [.comma])),
      lex_from_set_call_literal htask, hend]
    simp [set_call_tokens]
  -- the expression: a list of the user and the call of `set`
  have hitems : ∀ rest, Closes rest → ∀ m, task.elems.length + 24 ≤ m →
      parse_items m .rbrack []
          ((.str usr :: .comma :: (set_call_tokens task.elems ++ [.rbrack])) ++ rest) =
        some ([.str usr, .call (.name (ascii_bytes "set")) [.list (task.elems.map .str)]], rest) := by
    intro rest _ m hm
    have h := parse_items_separated (K := task.elems.length + 22) (Or.inl rfl)
      [(.call (.name (ascii_bytes "set")) [.list (task.elems.map .str)], set_call_tokens task.elems)]
      (.str usr, [.str usr]) (by
        intro y hy
        simp only [List.mem_cons, List.not_mem_nil, or_false] at hy
        rcases hy with rfl | rfl
        · exact ⟨(parses_str usr).mono (by omega), .str usr, [], rfl, by simp⟩
        · exact ⟨parses_set_call task.elems, _, _, rfl, by simp⟩)
      [] rest m (by simp; omega)
    simpa using h
  have hparse := parse_eval_input_of_parses (parses_list hitems)
    (by simp [length_set_call_tokens]; omega)
  -- the object
  have hcall := eval_set_call host (with_builtins_set globals hset) task.nodup
  have hval : eval_items host (with_builtins globals)
      [.str usr, .call (.name (ascii_bytes "set")) [.list (task.elems.map .str)]] =
        some [.str usr, .set (task.elems.map .str)] := by
    simp only [eval_items, hcall, Option.bind_eq_bind, Option.bind_some, Option.pure_def]
    rfl
  simp only [py_eval, hlex, Option.bind_eq_bind, Option.bind_some]
  rw [hparse, Option.bind_some]
  show (eval_items host _ _).map PyObj.list = _
  rw [hval]
  rfl

/-- **Requests round-trip**: when no string of the request needs an
    escape, `eval` of its content is the list of its strings (the set of the
    participants for `launch_task`). -/
theorem request_content_round_trip (hset : globals (ascii_bytes "set") = none)
    (req : EnforceRequest) (hss : ∀ s ∈ req.strings, Unescaped s) :
    py_eval host globals req.request.2 = some req.py_args := by
  cases req with
  | LaunchTask usr task => exact py_eval_launch_task host globals hset hss
  | AccessData a b | DeleteData a b | AccessScript a b | DeleteScript a b =>
      simp only [EnforceRequest.request, marshal_pair]
      exact py_eval_str_list_literal host globals hss

/-- **Facts round-trip** the same way. -/
theorem fact_round_trip (t : AccessControlTerms) (hss : ∀ s ∈ t.strings, Unescaped s) :
    py_eval host globals t.fact.2 = some t.py_args := by
  cases t with
  | TaskCreator a b | TaskParticipant a b | DataOwner a b | ScriptOwner a b =>
      simp only [AccessControlTerms.fact, marshal_pair]
      exact py_eval_str_list_literal host globals hss
  | IsPublicScript script =>
      simp only [AccessControlTerms.fact, marshal_tuple1]
      exact py_eval_str_list_literal host globals hss

end

end RoundTrip

/-! ## §4. A quote in a string. -/

/-- A `delete_data` request by a user whose id holds a quote. -/
def quote_request : EnforceRequest := .DeleteData (ascii_bytes "alice','bob") (ascii_bytes "d")

theorem quote_request_content :
    quote_request.request.2 =
      str_list_literal [ascii_bytes "alice", ascii_bytes "bob", ascii_bytes "d"] := by
  decide

/-- **The quote splits the string**: the two strings of the request come
    back as three. -/
theorem marshal_quote_splits_string {H : Type} (host : Host H) :
    py_eval host (fun _ => none) quote_request.request.2 =
        some (.list [.str (ascii_bytes "alice"), .str (ascii_bytes "bob"), .str (ascii_bytes "d")]) ∧
      quote_request.py_args ≠
        (.list [.str (ascii_bytes "alice"), .str (ascii_bytes "bob"), .str (ascii_bytes "d")] :
          PyObj H) := by
  refine ⟨?_, ?_⟩
  · rw [quote_request_content, py_eval_str_list_literal host _ (by decide)]
    rfl
  · intro h
    simp [quote_request, EnforceRequest.py_args] at h

end Teaclave.Acs
