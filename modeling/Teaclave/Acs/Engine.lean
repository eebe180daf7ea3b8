/-
  Teaclave.Acs.Engine
  ───────────────────
  **THE ACCESS-CONTROL ENGINE, FROM THE ENCLAVE DOWN TO THE MATCHERS.**

  `mesatee_services/acs/python/acs_engine.py` (`Request`, `QueryResult`,
  `Term`, `Model` and the entry points `acs_setup_model`,
  `acs_enforce_request`, `acs_announce_fact`), with the enclave side of
  `sgx_trusted_lib/src/acs.rs` (the two `handle_request`s) and `sgx.rs`
  (`handle_init_enclave`).

  A matcher is evaluated by `PyEval` over a host whose objects are the
  engine's own: the request, the terms of the knowledge base, the
  placeholder `_`, and the `QueryResult` a term returns when it is called
  with placeholders.  The engine's state is `global_perm_model`: set up once
  from `model.conf`, grown by announcements, read by enforcements.

  The results, bottom up:
    * `Term.call_concrete`, `Term.call_query` — a call without placeholders
      is fact membership; with placeholders it yields the projections of the
      matching facts (`Matches`, `picked`);
    * `Model.Shipped` — the invariant of every state reached from the
      shipped model by announcements: the requests and matchers are those
      of `model.conf`, and each term holds exactly the announced string
      tuples; `shipped_init` and `Model.Shipped.announce` keep it;
    * `Model.Shipped.enforce` — every request is answered by the
      set-theoretic reading of the matchers (`conf_reading`);
    * the enclave's handlers on top, through the marshalling of `Marshal`.
-/
import Teaclave.Core.Basic
import Teaclave.Acs.Conf
import Teaclave.Acs.Marshal

namespace Teaclave.Acs

open Teaclave.Lib Teaclave.Core
open PyMarshallable (marshal)

/-! ## §1. Dictionaries. -/

section Dict

variable {K V : Type} [DecidableEq K]

/-- `{k: v for k, v in items}`: a later item of a key overrides an earlier one. -/
def dict_of (items : List (K × V)) : Memdb K V :=
  items.foldl (fun d kv => d.set kv.1 kv.2) Memdb.open

/-- A dictionary of transformed values is the transformed dictionary. -/
theorem get_dict_of_map {W : Type} (f : V → W) (items : List (K × V)) (k : K) :
    (dict_of (items.map fun kv => (kv.1, f kv.2))).get k = ((dict_of items).get k).map f := by
  suffices h : ∀ (d : Memdb K V) (d' : Memdb K W), (∀ k, d'.get k = (d.get k).map f) →
      ∀ k, ((items.map fun kv => (kv.1, f kv.2)).foldl (fun d kv => d.set kv.1 kv.2) d').get k =
        ((items.foldl (fun d kv => d.set kv.1 kv.2) d).get k).map f from
    h Memdb.open Memdb.open (by simp) k
  induction items with
  | nil => exact fun _ _ h => h
  | cons kv items ih =>
      intro d d' h
      apply ih
      intro k'
      simp only [Memdb.get_set]
      split_ifs <;> simp [h]

end Dict

/-! ## §2. The engine's objects. -/

/-- The objects of the engine a matcher reaches: the request, a term of the
    knowledge base (by its name), `Term.PLACEHOLDER`, and a `QueryResult`
    with the items its generator yields. -/
inductive AcsObj where
  | request
  | term (name : List UInt8)
  | placeholder
  | query_result (items : List (PyObj AcsObj))

/-- A Python object of the engine. -/
abbrev Obj : Type := PyObj AcsObj

/-- `is`: the request, each term and the placeholder are single objects;
    two query results are never taken for the same object. -/
def acs_eq : AcsObj → AcsObj → Bool
  | .request, .request => true
  | .term a, .term b => a == b
  | .placeholder, .placeholder => true
  | _, _ => false

/-- `QueryResult.__iter__`. -/
def acs_iter : AcsObj → Option (List Obj)
  | .query_result items => some items
  | _ => none

/-- The host of plain objects: iteration and identity only. -/
def base_host : Host AcsObj where
  call _ _ := none
  getattr _ _ := none
  le _ _ := none
  iter := acs_iter
  eq := acs_eq

/-- `arg is Term.PLACEHOLDER`. -/
def is_placeholder : Obj → Bool
  | .host .placeholder => true
  | _ => false

theorem is_placeholder_placeholder : is_placeholder (.host .placeholder) = true := rfl

theorem is_placeholder_str (s : List UInt8) : is_placeholder (.str s) = false := rfl

/-! ## §3. `Term`. -/

/-- `Term`: its arity and its set of facts, each a tuple of the arity
    (`add_fact` asserts it before adding). -/
structure Term where
  arity : Nat
  facts : List (List Obj)
  facts_arity : ∀ f ∈ facts, f.length = arity

/-- `Term(arity)`: no facts. -/
def Term.new (arity : Nat) : Term := ⟨arity, [], by simp⟩

theorem Term.new_facts (arity : Nat) : (Term.new arity).facts = [] := rfl

/-- `self.__facts.add(fact)` of a fact not yet in the set. -/
def Term.add_new_fact (t : Term) (fact : List Obj) (h : fact.length = t.arity) : Term where
  arity := t.arity
  facts := t.facts ++ [fact]
  facts_arity := by
    intro f hf
    rcases List.mem_append.mp hf with hf | hf
    · exact t.facts_arity f hf
    · rw [List.mem_singleton.mp hf, h]

/-- `Term.add_fact`: `len(fact)` must be the arity; `tuple(fact)` is hashed
    into the set, which keeps one copy of equal tuples. -/
def Term.add_fact (t : Term) (fact : Obj) : Option Term :=
  match fact.seq_items with
  | none => none
  | some items =>
      if h : items.length = t.arity then
        if !(PyObj.tuple items).hashable then none
        else if py_mem base_host (.tuple items) (t.facts.map .tuple) then some t
        else some (t.add_new_fact items h)
      else none

theorem Term.add_fact_list (t : Term) (items : List Obj) :
    t.add_fact (.list items) =
      if h : items.length = t.arity then
        if !(PyObj.tuple items).hashable then none
        else if py_mem base_host (.tuple items) (t.facts.map .tuple) then some t
        else some (t.add_new_fact items h)
      else none := rfl

/-- One fact against a call's arguments (the loop of `gen`): the fact's
    values at the placeholders, or `none` once a concrete argument differs.
    A fact is hashable, so `a != b` is the negation of `PyObj.beq`. -/
def match_fact : List Obj → List Obj → Option (List Obj)
  | a :: fact, b :: args =>
      if is_placeholder b then (match_fact fact args).map (a :: ·)
      else if a.beq base_host b then match_fact fact args
      else none
  | _, _ => some []

/-- What `gen` yields for a matching fact: `rns[0]` for one placeholder
    (`rns` has one value per placeholder, so the default is never read),
    else `tuple(rns)`. -/
def query_item (n_placeholders : Nat) (rns : List Obj) : Obj :=
  if n_placeholders = 1 then rns.headD .none_ else .tuple rns

/-- `Term.__call__`. -/
def Term.call (t : Term) (args : List Obj) : Option Obj :=
  if args.length ≠ t.arity then none
  else
    let n_placeholders := args.countP is_placeholder
    if n_placeholders = 0 then
      -- all arguments concrete: whether a fact is the called tuple
      some (.bool (t.facts.any fun fact => (fact.zip args).all fun p => p.1.beq base_host p.2))
    else
      some (.host (.query_result (t.facts.filterMap fun fact =>
        (match_fact fact args).map (query_item n_placeholders))))

theorem Term.call_eq (t : Term) (args : List Obj) :
    t.call args =
      if args.length ≠ t.arity then none
      else if args.countP is_placeholder = 0 then
        some (.bool (t.facts.any fun fact => (fact.zip args).all fun p => p.1.beq base_host p.2))
      else
        some (.host (.query_result (t.facts.filterMap fun fact =>
          (match_fact fact args).map (query_item (args.countP is_placeholder))))) := rfl

/-! ## §4. `Request`, `QueryResult.__le__` and `Model`. -/

/-- `Request(attrs, vals)`: `len(vals)` must be the number of attributes,
    which are then set in order. -/
def Request.new (attrs : List (List UInt8)) (vals : Obj) : Option (Memdb (List UInt8) Obj) := do
  let items ← vals.seq_items
  if attrs.length = items.length then some (dict_of (attrs.zip items)) else none

/-- `QueryResult.__le__`: `set(self) <= set(iterable)`. -/
def query_le (items : List Obj) (iterable : Obj) : Option Obj := do
  let ys ← iter_items base_host iterable
  let xs ← make_set base_host items
  let ys ← make_set base_host ys
  py_le base_host xs ys

/-- `Model`: the request templates, the matchers and the term knowledge
    base (the term templates only size the terms). -/
structure Model where
  request_template : Memdb (List UInt8) (List (List UInt8))
  matchers : Memdb (List UInt8) Expr
  term_knowledge_base : Memdb (List UInt8) Term

/-- `Model.__init__`: the consistency checks, then a term for each term
    template. -/
def Model.new (raw_model : RawModel) : Option Model :=
  let request_names := raw_model.request_def.map (·.1)
  let term_names := raw_model.term_def.map (·.1)
  let matcher_names := raw_model.matchers.map (·.1)
  -- a name in both sections (`redundant_def`, whose own `NameError` is raised instead)
  if request_names.any (term_names.contains ·) then none
  -- `missing_matchers`
  else if request_names.any (!matcher_names.contains ·) then none
  -- `unknown_requests`
  else if matcher_names.any (!request_names.contains ·) then none
  else some
    { request_template := dict_of raw_model.request_def
      matchers := dict_of raw_model.matchers
      term_knowledge_base :=
        dict_of (raw_model.term_def.map fun t => (t.1, Term.new t.2.length)) }

/-- `Model.add_term_item`: `KeyError` for an unknown term. -/
def Model.add_term_item (m : Model) (term_name : List UInt8) (fact : Obj) : Option Model := do
  let term ← m.term_knowledge_base.get term_name
  let term ← term.add_fact fact
  some { m with term_knowledge_base := m.term_knowledge_base.set term_name term }

theorem Model.add_term_item_eq (m : Model) (term_name : List UInt8) (fact : Obj) :
    m.add_term_item term_name fact = (do
      let term ← m.term_knowledge_base.get term_name
      let term ← term.add_fact fact
      some { m with term_knowledge_base := m.term_knowledge_base.set term_name term }) := rfl

/-- The globals of `enforce`: `{request_type: request, 'true': True,
    'false': False, 'null': None, '_': Term.PLACEHOLDER, 'X': Term.WILDCARD}`
    (`WILDCARD` is `None`), updated with the knowledge base. -/
def Model.enforcer_env (m : Model) (request_type n : List UInt8) : Option Obj :=
  if (m.term_knowledge_base.get n).isSome then some (.host (.term n))
  else if n = ascii_bytes "true" then some (.bool true)
  else if n = ascii_bytes "false" then some (.bool false)
  else if n = ascii_bytes "null" then some .none_
  else if n = ascii_bytes "_" then some (.host .placeholder)
  else if n = ascii_bytes "X" then some .none_
  else if n = request_type then some (.host .request)
  else none

theorem Model.enforcer_env_eq (m : Model) (request_type n : List UInt8) :
    m.enforcer_env request_type n =
      if (m.term_knowledge_base.get n).isSome then some (.host (.term n))
      else if n = ascii_bytes "true" then some (.bool true)
      else if n = ascii_bytes "false" then some (.bool false)
      else if n = ascii_bytes "null" then some .none_
      else if n = ascii_bytes "_" then some (.host .placeholder)
      else if n = ascii_bytes "X" then some .none_
      else if n = request_type then some (.host .request)
      else none := rfl

/-- The engine's objects under a matcher: a term's `__call__`, the request's
    attributes, `QueryResult.__le__` and `__iter__`.  Python 2 also orders
    other objects by type name and address; no matcher of `model.conf`
    compares them. -/
def Model.enforce_host (m : Model) (request : Memdb (List UInt8) Obj) : Host AcsObj where
  call h args := match h with
    | .term n => (m.term_knowledge_base.get n).bind fun t => t.call args
    | _ => none
  getattr h f := match h with
    | .request => request.get f
    | _ => none
  le h y := match h with
    | .query_result items => query_le items y
    | _ => none
  iter := acs_iter
  eq := acs_eq

section Host

variable (m : Model) (R : Memdb (List UInt8) Obj)

@[simp] theorem enforce_host_call_term (n : List UInt8) (args : List Obj) :
    (m.enforce_host R).call (.term n) args = (m.term_knowledge_base.get n).bind fun t => t.call args :=
  rfl

@[simp] theorem enforce_host_getattr_request (f : List UInt8) :
    (m.enforce_host R).getattr .request f = R.get f :=
  rfl

@[simp] theorem enforce_host_le_query_result (items : List Obj) (y : Obj) :
    (m.enforce_host R).le (.query_result items) y = query_le items y :=
  rfl

end Host

/-- `Model.enforce`: the request built from its template, then the
    request's matcher evaluated. -/
def Model.enforce (m : Model) (request_type : List UInt8) (request_content : Obj) : Option Obj := do
  let tpl ← m.request_template.get request_type
  let request ← Request.new tpl request_content
  let matcher ← m.matchers.get request_type
  eval_expr (m.enforce_host request) (with_builtins (m.enforcer_env request_type)) matcher

/-! ## §5. The entry points and the enclave. -/

/-- The module's globals as a literal sees them: a request's or a fact's
    text names none of them. -/
def literal_globals (_ : List UInt8) : Option Obj := none

/-- `acs_setup_model`: a model that fails to parse or to check leaves
    `global_perm_model` as it was, and returns `-1`. -/
def acs_setup_model (global_perm_model : Option Model) (conf : List UInt8) : Option Model × Int :=
  match (parse_model conf).bind Model.new with
  | some m => (some m, 0)
  | none => (global_perm_model, -1)

/-- `acs_enforce_request`: `1` and `0` for the two booleans, `-1` for an
    exception; any other result is not an `int`, which `cffi` turns into
    its default `0`. -/
def acs_enforce_request (global_perm_model : Option Model) (request_type request_content : List UInt8) :
    Int :=
  let result := do
    let content ← py_eval base_host literal_globals request_content
    let m ← global_perm_model
    m.enforce request_type content
  match result with
  | some (.bool b) => if b then 1 else 0
  | some _ => 0
  | none => -1

/-- `acs_announce_fact`: a failed announcement changes nothing. -/
def acs_announce_fact (global_perm_model : Option Model) (term_type term_fact : List UInt8) :
    Option Model × Int :=
  let result := do
    let fact ← py_eval base_host literal_globals term_fact
    let m ← global_perm_model
    m.add_term_item term_type fact
  match result with
  | some m => (some m, 0)
  | none => (global_perm_model, -1)

/-- A fact that evaluates and is added: the new state, and `0`. -/
theorem acs_announce_fact_of_add {m m' : Model} {term_type term_fact : List UInt8} {fact : Obj}
    (hev : py_eval base_host literal_globals term_fact = some fact)
    (hadd : m.add_term_item term_type fact = some m') :
    acs_announce_fact (some m) term_type term_fact = (some m', 0) := by
  simp only [acs_announce_fact, hev, hadd, Option.bind_eq_bind, Option.bind_some]

/-- A fact that evaluates but is refused: the state as it was, and `-1`. -/
theorem acs_announce_fact_of_add_none {m : Model} {term_type term_fact : List UInt8} {fact : Obj}
    (hev : py_eval base_host literal_globals term_fact = some fact)
    (hadd : m.add_term_item term_type fact = none) :
    acs_announce_fact (some m) term_type term_fact = (some m, -1) := by
  simp only [acs_announce_fact, hev, hadd, Option.bind_eq_bind, Option.bind_some]

/-- `ACSResponse`. -/
inductive ACSResponse where
  | Enforce (b : Bool)
  | Announce
  deriving DecidableEq, Repr

/-- `CString::new(s).unwrap()`, which panics (`none`) on a NUL byte. -/
def c_string (s : List UInt8) : Option (List UInt8) := if 0 ∈ s then none else some s

/-- `EnforceRequest::handle_request`. -/
def EnforceRequest.handle_request (global_perm_model : Option Model) (req : EnforceRequest) :
    Option (Result ACSResponse) := do
  let request_type ← c_string req.request.1
  let request_content ← c_string req.request.2
  match acs_enforce_request global_perm_model request_type request_content with
  | 0 => some (.ok (.Enforce false))
  | 1 => some (.ok (.Enforce true))
  | _ => some (.error .MesaPyError)

/-- `AnnounceRequest::handle_request`: the facts in order, stopping at the
    first that fails (those before it stay announced). -/
def AnnounceRequest.handle_request (global_perm_model : Option Model) :
    List AccessControlTerms → Option (Option Model × Result ACSResponse)
  | [] => some (global_perm_model, .ok .Announce)
  | fact :: facts => do
      let term_type ← c_string fact.fact.1
      let term_fact ← c_string fact.fact.2
      let r := acs_announce_fact global_perm_model term_type term_fact
      if r.2 ≠ 0 then some (r.1, .error .MesaPyError)
      else AnnounceRequest.handle_request r.1 facts

theorem AnnounceRequest.handle_request_cons (global_perm_model : Option Model)
    (fact : AccessControlTerms) (facts : List AccessControlTerms) :
    AnnounceRequest.handle_request global_perm_model (fact :: facts) = (do
      let term_type ← c_string fact.fact.1
      let term_fact ← c_string fact.fact.2
      let r := acs_announce_fact global_perm_model term_type term_fact
      if r.2 ≠ 0 then some (r.1, .error .MesaPyError)
      else AnnounceRequest.handle_request r.1 facts) := rfl

/-- `handle_init_enclave`: the model set up from `MODEL_TEXT`. -/
def handle_init_enclave : Option Model × Result Unit :=
  let r := acs_setup_model none MODEL_TEXT
  (r.1, if r.2 ≠ 0 then .error .MesaPyError else .ok ())

/-! ## §6. What a term answers. -/

/-- Every fact of the term is a tuple of strings. -/
def Term.StringFacts (t : Term) : Prop := ∀ f ∈ t.facts, ∃ ss : List (List UInt8), f = ss.map .str

/-- The tuples of strings among the term's facts. -/
def Term.str_facts (t : Term) : Set (List (List UInt8)) := {ss | ss.map .str ∈ t.facts}

theorem Term.mem_str_facts (t : Term) (ss : List (List UInt8)) :
    ss ∈ t.str_facts ↔ ss.map .str ∈ t.facts := Iff.rfl

/-- A call's arguments fit a fact of strings: each is the placeholder or the
    fact's string at its place. -/
def Matches (args : List Obj) (ss : List (List UInt8)) : Prop :=
  List.Forall₂ (fun b s => is_placeholder b = true ∨ b = .str s) args ss

/-- The strings of a fact at a call's placeholders. -/
def picked : List Obj → List (List UInt8) → List (List UInt8)
  | b :: args, s :: ss => if is_placeholder b then s :: picked args ss else picked args ss
  | _, _ => []

theorem picked_nil (ss : List (List UInt8)) : picked [] ss = [] := rfl

theorem picked_cons (b : Obj) (args : List Obj) (s : List UInt8) (ss : List (List UInt8)) :
    picked (b :: args) (s :: ss) = if is_placeholder b then s :: picked args ss else picked args ss :=
  rfl

theorem matches_cons {b : Obj} {args : List Obj} {s : List UInt8} {ss : List (List UInt8)} :
    Matches (b :: args) (s :: ss) ↔ (is_placeholder b = true ∨ b = .str s) ∧ Matches args ss :=
  List.forall₂_cons

/-- The facts a term holds have the term's arity. -/
theorem Term.length_of_mem_str_facts {t : Term} {ss : List (List UInt8)} (h : ss ∈ t.str_facts) :
    ss.length = t.arity := by
  rw [← t.facts_arity _ h, List.length_map]

/-- The loop of `gen` over a fact of strings: it keeps the fact exactly when
    the arguments fit it, with the strings at the placeholders. -/
theorem match_fact_strs :
    ∀ (ss : List (List UInt8)) (args : List Obj), args.length = ss.length → ∀ rns,
      match_fact (ss.map .str) args = some rns ↔ Matches args ss ∧ rns = (picked args ss).map .str
  | [], [], _, rns => by
      simp only [List.map_nil, match_fact, picked_nil, Option.some.injEq]
      exact ⟨fun h => ⟨.nil, h.symm⟩, fun h => h.2.symm⟩
  | s :: ss, b :: args, hlen, rns => by
      have ih := match_fact_strs ss args (by simpa using hlen)
      rw [matches_cons, List.map_cons, match_fact, picked_cons]
      by_cases hb : is_placeholder b = true
      · -- a placeholder takes the fact's string
        simp only [hb, if_true, true_or, true_and, Option.map_eq_some_iff, ih]
        constructor
        · rintro ⟨r, ⟨hm, rfl⟩, rfl⟩
          exact ⟨hm, rfl⟩
        · rintro ⟨hm, rfl⟩
          exact ⟨_, ⟨hm, rfl⟩, rfl⟩
      · -- a concrete argument must be the fact's string
        simp only [hb, Bool.false_eq_true, if_false, false_or]
        by_cases hs : b = .str s
        · subst hs
          simp [ih]
        · have hne : (PyObj.str s).beq base_host b = false :=
            Bool.eq_false_iff.mpr fun h => hs ((PyObj.str_beq_iff base_host s b).mp h)
          simp [hne, hs]

/-- Zipping a fact of strings with as many arguments, all pairs are equal
    exactly when the arguments are those strings. -/
theorem zip_all_beq_strs :
    ∀ (ss : List (List UInt8)) (args : List Obj), args.length = ss.length →
      ((((ss.map PyObj.str : List Obj).zip args).all fun p => p.1.beq base_host p.2) = true ↔
        args = ss.map .str)
  | [], [], _ => by simp
  | s :: ss, b :: args, hlen => by
      simp [PyObj.str_beq_iff, zip_all_beq_strs ss args (by simpa using hlen)]

section Call

variable (t : Term) (hs : t.StringFacts)
include hs

/-- **A call without placeholders is fact membership.** -/
theorem Term.call_concrete (args : List Obj) (hlen : args.length = t.arity)
    (hk : args.countP is_placeholder = 0) :
    ∃ b, t.call args = some (.bool b) ∧ (b = true ↔ ∃ ss ∈ t.str_facts, args = ss.map .str) := by
  refine ⟨t.facts.any fun fact => (fact.zip args).all fun p => p.1.beq base_host p.2,
    by simp [Term.call_eq, hlen, hk], ?_⟩
  rw [List.any_eq_true]
  constructor
  · rintro ⟨f, hf, hall⟩
    obtain ⟨ss, rfl⟩ := hs f hf
    exact ⟨ss, hf, (zip_all_beq_strs ss args (hlen.trans (Term.length_of_mem_str_facts hf).symm)).mp hall⟩
  · rintro ⟨ss, hss, rfl⟩
    exact ⟨_, hss, (zip_all_beq_strs ss _ (by simp)).mpr rfl⟩

/-- **A call with placeholders yields the projections of the matching facts.** -/
theorem Term.call_query (args : List Obj) (hlen : args.length = t.arity)
    (hk : args.countP is_placeholder ≠ 0) :
    ∃ items, t.call args = some (.host (.query_result items)) ∧
      ∀ o, o ∈ items ↔ ∃ ss ∈ t.str_facts, Matches args ss ∧
        o = query_item (args.countP is_placeholder) ((picked args ss).map .str) := by
  refine ⟨t.facts.filterMap fun fact =>
      (match_fact fact args).map (query_item (args.countP is_placeholder)),
    by simp [Term.call_eq, hlen, hk], fun o => ?_⟩
  rw [List.mem_filterMap]
  constructor
  · rintro ⟨f, hf, ho⟩
    obtain ⟨ss, rfl⟩ := hs f hf
    obtain ⟨rns, hrns, rfl⟩ := Option.map_eq_some_iff.mp ho
    have hlen' := hlen.trans (Term.length_of_mem_str_facts hf).symm
    obtain ⟨hm, rfl⟩ := (match_fact_strs ss args hlen' rns).mp hrns
    exact ⟨ss, hf, hm, rfl⟩
  · rintro ⟨ss, hss, hm, rfl⟩
    have hlen' := hlen.trans (Term.length_of_mem_str_facts hss).symm
    refine ⟨ss.map .str, hss, ?_⟩
    rw [(match_fact_strs ss args hlen' _).mpr ⟨hm, rfl⟩]
    rfl

/-- A call with strings only: whether they are a fact. -/
theorem Term.call_strs (ss : List (List UInt8)) (hlen : ss.length = t.arity) :
    ∃ b, t.call (ss.map .str) = some (.bool b) ∧ (b = true ↔ ss ∈ t.str_facts) := by
  have hk : (ss.map PyObj.str : List Obj).countP is_placeholder = 0 := by
    simp [List.countP_eq_zero, is_placeholder_str]
  obtain ⟨b, hb, hiff⟩ := Term.call_concrete t hs (ss.map .str) (by simpa using hlen) hk
  refine ⟨b, hb, hiff.trans ⟨?_, fun h => ⟨ss, h, rfl⟩⟩⟩
  rintro ⟨ss', hss', heq⟩
  rwa [PyObj.map_str_inj.mp heq]

/-- `t(a, _)` for a pair term: the second strings of the facts whose first is `a`. -/
theorem Term.call_pair_query (ht : t.arity = 2) (a : List UInt8) :
    ∃ qs : List (List UInt8),
      t.call [.str a, .host .placeholder] = some (.host (.query_result (qs.map .str))) ∧
        ∀ u, u ∈ qs ↔ [a, u] ∈ t.str_facts := by
  obtain ⟨items, hcall, hmem⟩ := Term.call_query t hs [.str a, .host .placeholder]
    (by simp [ht]) (by simp [is_placeholder_placeholder, is_placeholder_str])
  -- the pattern fits exactly the pairs `[a, u]`, and yields `u`
  have hfit : ∀ o, o ∈ items ↔ ∃ u, [a, u] ∈ t.str_facts ∧ o = .str u := by
    intro o
    rw [hmem]
    constructor
    · rintro ⟨ss, hss, hm, rfl⟩
      obtain ⟨s₁, s₂, rfl⟩ : ∃ s₁ s₂, ss = [s₁, s₂] := by
        have hl := Term.length_of_mem_str_facts hss
        match ss, hl with
        | [s₁, s₂], _ => exact ⟨s₁, s₂, rfl⟩
      have h₁ : a = s₁ :=
        (by simpa [matches_cons, is_placeholder_placeholder, is_placeholder_str] using hm : a = s₁ ∧ _).1
      subst h₁
      exact ⟨s₂, hss, by simp [picked_cons, picked_nil, is_placeholder_placeholder, is_placeholder_str,
        query_item]⟩
    · rintro ⟨u, hu, rfl⟩
      refine ⟨[a, u], hu, ?_, by simp [picked_cons, picked_nil, is_placeholder_placeholder,
        is_placeholder_str, query_item]⟩
      simp [is_placeholder_placeholder, is_placeholder_str, Matches]
  obtain ⟨qs, rfl⟩ := exists_map_str items fun o ho => by
    obtain ⟨u, _, rfl⟩ := (hfit o).mp ho
    exact ⟨u, rfl⟩
  refine ⟨qs, hcall, fun u => ?_⟩
  have h := hfit (.str u)
  simp only [List.mem_map, PyObj.str.injEq, exists_eq_right] at h
  exact h.trans ⟨fun ⟨u', hu', he⟩ => he ▸ hu', fun hu => ⟨u, hu, rfl⟩⟩

end Call

/-- A fact of strings added to a term of strings: the term holds it, once. -/
theorem Term.add_fact_strs (t : Term) (hs : t.StringFacts) (ss : List (List UInt8))
    (hlen : ss.length = t.arity) :
    ∃ t', t.add_fact (.list (ss.map .str)) = some t' ∧ t'.arity = t.arity ∧ t'.StringFacts ∧
      t'.str_facts = insert ss t.str_facts := by
  have hlen' : (ss.map PyObj.str : List Obj).length = t.arity := by simpa using hlen
  -- the set holds the tuple when a fact is those strings
  have hmem : py_mem base_host (.tuple (ss.map .str)) (t.facts.map .tuple) = true ↔
      ss ∈ t.str_facts := by
    simp only [py_mem, List.any_map, List.any_eq_true, Function.comp]
    constructor
    · rintro ⟨f, hf, hbeq⟩
      obtain ⟨ss', rfl⟩ := hs f hf
      have : PyObj.beq_list base_host (ss'.map .str) (ss.map .str) = true := by
        simpa [PyObj.beq] using hbeq
      rw [PyObj.beq_list_strs] at this
      have heq : ss' = ss := of_decide_eq_true this
      subst heq
      exact hf
    · intro h
      exact ⟨_, h, by simp [PyObj.beq, PyObj.beq_list_strs]⟩
  by_cases hin : ss ∈ t.str_facts
  · refine ⟨t, ?_, rfl, hs, (Set.insert_eq_of_mem hin).symm⟩
    simp [Term.add_fact_list, hlen', hashable_tuple_strs, hmem.mpr hin]
  · refine ⟨t.add_new_fact (ss.map .str) hlen', ?_, rfl, ?_, ?_⟩
    · have hno : py_mem base_host (.tuple (ss.map .str)) (t.facts.map .tuple) = false := by
        simpa using mt hmem.mp hin
      simp [Term.add_fact_list, hlen', hashable_tuple_strs, hno]
    · intro f hf
      rcases List.mem_append.mp hf with hf | hf
      · exact hs f hf
      · exact ⟨ss, List.mem_singleton.mp hf⟩
    · ext ss'
      simp [Term.mem_str_facts, Term.add_new_fact, PyObj.map_str_inj, or_comm]

/-! ## §7. The shipped model and the states announcements reach. -/

/-- The terms of `model.conf` and their arities. -/
def conf_arity (n : List UInt8) : Option Nat :=
  ((dict_of model_conf_raw.term_def).get n).map List.length

/-- The model `acs_setup_model` builds from `model.conf`. -/
def model_conf : Model where
  request_template := dict_of model_conf_raw.request_def
  matchers := dict_of model_conf_raw.matchers
  term_knowledge_base :=
    dict_of (model_conf_raw.term_def.map fun t => (t.1, Term.new t.2.length))

/-- The shipped definitions pass the consistency checks. -/
theorem model_new_conf : Model.new model_conf_raw = some model_conf := by
  rfl

/-- A text that parses to a consistent model sets it up. -/
theorem acs_setup_model_of {conf : List UInt8} {m : Model} (global_perm_model : Option Model)
    (h : (parse_model conf).bind Model.new = some m) :
    acs_setup_model global_perm_model conf = (some m, 0) := by
  unfold acs_setup_model
  rw [h]

theorem acs_setup_model_conf (global_perm_model : Option Model) :
    acs_setup_model global_perm_model MODEL_TEXT = (some model_conf, 0) := by
  apply acs_setup_model_of
  rw [parse_model_conf]
  exact model_new_conf

/-- The facts `F` with one more tuple `ss` for the term `n`. -/
def add_fact_to (F : List UInt8 → Set (List (List UInt8))) (n : List UInt8)
    (ss : List (List UInt8)) (n' : List UInt8) : Set (List (List UInt8)) :=
  if n' = n then insert ss (F n') else F n'

theorem add_fact_to_eq (F : List UInt8 → Set (List (List UInt8))) (n : List UInt8)
    (ss : List (List UInt8)) (n' : List UInt8) :
    add_fact_to F n ss n' = if n' = n then insert ss (F n') else F n' := rfl

/-- The facts the enclave's announcements give each term: the strings of each
    announcement of that term. -/
def announced (facts : List AccessControlTerms) (n : List UInt8) : Set (List (List UInt8)) :=
  {ss | ∃ a ∈ facts, a.fact.1 = n ∧ a.strings = ss}

theorem mem_announced {facts : List AccessControlTerms} {n : List UInt8} {ss : List (List UInt8)} :
    ss ∈ announced facts n ↔ ∃ a ∈ facts, a.fact.1 = n ∧ a.strings = ss := Iff.rfl

theorem announced_nil : announced [] = fun _ => ∅ := by
  funext n
  ext ss
  simp [mem_announced]

theorem announced_snoc (facts : List AccessControlTerms) (a : AccessControlTerms) :
    announced (facts ++ [a]) = add_fact_to (announced facts) a.fact.1 a.strings := by
  funext n
  ext ss
  rw [add_fact_to_eq]
  split_ifs with hn
  · subst hn
    simp only [mem_announced, List.mem_append, List.mem_singleton, Set.mem_insert_iff]
    constructor
    · rintro ⟨a', ha' | rfl, hn, rfl⟩
      · exact .inr ⟨a', ha', hn, rfl⟩
      · exact .inl rfl
    · rintro (rfl | ⟨a', ha', hn, rfl⟩)
      · exact ⟨a, .inr rfl, rfl, rfl⟩
      · exact ⟨a', .inl ha', hn, rfl⟩
  · simp only [mem_announced, List.mem_append, List.mem_singleton]
    constructor
    · rintro ⟨a', ha' | rfl, hn', rfl⟩
      · exact ⟨a', ha', hn', rfl⟩
      · exact absurd hn'.symm hn
    · rintro ⟨a', ha', hn', rfl⟩
      exact ⟨a', .inl ha', hn', rfl⟩

/-- Each announcement names a term of `model.conf` of its own arity. -/
theorem conf_arity_fact (a : AccessControlTerms) : conf_arity a.fact.1 = some a.strings.length := by
  cases a <;> rfl

/-- **The states of the shipped model**: its requests and matchers are those
    of `model.conf`, its terms are those of `model.conf`, and each term holds
    exactly the tuples of strings `F` gives it. -/
structure Model.Shipped (m : Model) (F : List UInt8 → Set (List (List UInt8))) : Prop where
  request_template : m.request_template = dict_of model_conf_raw.request_def
  matchers : m.matchers = dict_of model_conf_raw.matchers
  arity : ∀ n, (m.term_knowledge_base.get n).map Term.arity = conf_arity n
  strings : ∀ n t, m.term_knowledge_base.get n = some t → t.StringFacts
  facts : ∀ n t, m.term_knowledge_base.get n = some t → t.str_facts = F n

theorem get_model_conf_terms (n : List UInt8) :
    model_conf.term_knowledge_base.get n =
      ((dict_of model_conf_raw.term_def).get n).map fun tpl => Term.new tpl.length :=
  get_dict_of_map (fun tpl : List (List UInt8) => Term.new tpl.length) _ n

/-- The model set up from `model.conf` holds no fact. -/
theorem shipped_init : model_conf.Shipped fun _ => ∅ := by
  refine ⟨rfl, rfl, fun n => ?_, fun n t ht => ?_, fun n t ht => ?_⟩
  · rw [get_model_conf_terms, Option.map_map]
    rfl
  · rw [get_model_conf_terms] at ht
    obtain ⟨tpl, _, rfl⟩ := Option.map_eq_some_iff.mp ht
    intro f hf
    simp [Term.new_facts] at hf
  · rw [get_model_conf_terms] at ht
    obtain ⟨tpl, _, rfl⟩ := Option.map_eq_some_iff.mp ht
    ext ss
    simp [Term.mem_str_facts, Term.new_facts]

section Shipped

variable {m : Model} {F : List UInt8 → Set (List (List UInt8))}

/-- A term of `model.conf` is in the knowledge base, with its arity. -/
theorem Model.Shipped.get_term (hm : m.Shipped F) {n : List UInt8} {k : Nat}
    (hn : conf_arity n = some k) :
    ∃ t, m.term_knowledge_base.get n = some t ∧ t.arity = k ∧ t.StringFacts ∧ t.str_facts = F n := by
  have h := hm.arity n
  rw [hn] at h
  obtain ⟨t, ht, rfl⟩ := Option.map_eq_some_iff.mp h
  exact ⟨t, ht, rfl, hm.strings n t ht, hm.facts n t ht⟩

/-- Other names are not in the knowledge base. -/
theorem Model.Shipped.get_not_term (hm : m.Shipped F) {n : List UInt8} (hn : conf_arity n = none) :
    m.term_knowledge_base.get n = none := by
  have h := hm.arity n
  rw [hn] at h
  simpa using h

/-- **A tuple of strings of its term's arity is added to the term**, and the
    state stays a state of the shipped model. -/
theorem Model.Shipped.add_term_item_strs (hm : m.Shipped F) {n : List UInt8}
    {ss : List (List UInt8)} (hn : conf_arity n = some ss.length) :
    ∃ m', m.add_term_item n (.list (ss.map .str)) = some m' ∧ m'.Shipped (add_fact_to F n ss) := by
  obtain ⟨t, ht, harity, hs, hfacts⟩ := hm.get_term hn
  obtain ⟨t', ht', harity', hs', hfacts'⟩ := t.add_fact_strs hs ss harity.symm
  refine ⟨{ m with term_knowledge_base := m.term_knowledge_base.set n t' }, ?_, ?_⟩
  · simp [Model.add_term_item_eq, ht, ht']
  · refine ⟨hm.request_template, hm.matchers, fun n' => ?_, fun n' u hu => ?_, fun n' u hu => ?_⟩
    · -- the term written keeps its arity
      rw [Memdb.get_set]
      split_ifs with h
      · subst h
        rw [← hm.arity, ht]
        simp [harity']
      · exact hm.arity n'
    · rw [Memdb.get_set] at hu
      split_ifs at hu with h
      · cases hu
        exact hs'
      · exact hm.strings n' u hu
    · -- the term written holds the new tuple, the others are unchanged
      rw [Memdb.get_set] at hu
      rw [add_fact_to_eq]
      split_ifs at hu ⊢ with h
      · cases hu
        rw [hfacts', hfacts, h]
      · exact hm.facts n' u hu

/-- Any other tuple of strings fails and changes nothing: an unknown term
    (`KeyError`) or another arity (`assert`). -/
theorem Model.Shipped.add_term_item_strs_none (hm : m.Shipped F) {n : List UInt8}
    {ss : List (List UInt8)} (hn : conf_arity n ≠ some ss.length) :
    m.add_term_item n (.list (ss.map .str)) = none := by
  cases h : m.term_knowledge_base.get n with
  | none => simp [Model.add_term_item_eq, h]
  | some t =>
      have harity : conf_arity n = some t.arity := by rw [← hm.arity, h]; rfl
      have hlen : ¬ ss.length = t.arity := fun heq => hn (by rw [harity, heq])
      simp [Model.add_term_item_eq, h, Term.add_fact_list, hlen]

/-- **An announcement of the enclave is added to its term.** -/
theorem Model.Shipped.announce {facts : List AccessControlTerms} (hm : m.Shipped (announced facts))
    (a : AccessControlTerms) :
    ∃ m', m.add_term_item a.fact.1 a.py_args = some m' ∧ m'.Shipped (announced (facts ++ [a])) := by
  rw [announced_snoc]
  exact hm.add_term_item_strs (conf_arity_fact a)

end Shipped

/-! ## §8. The shipped matchers evaluated. -/

/-- **The set-theoretic reading of `model.conf`**, over the facts `F` of its
    terms: what its comments say each request needs. -/
def conf_reading (F : List UInt8 → Set (List (List UInt8))) : EnforceRequest → Prop
  | .LaunchTask task participants =>
      {u | [task, u] ∈ F (ascii_bytes "task_participant")} ⊆ {u | u ∈ participants.elems}
  | .AccessData task data =>
      {u | [data, u] ∈ F (ascii_bytes "data_owner")} ⊆
        {u | [task, u] ∈ F (ascii_bytes "task_participant")}
  | .DeleteData usr data => [data, usr] ∈ F (ascii_bytes "data_owner")
  | .AccessScript task script =>
      [script] ∈ F (ascii_bytes "is_public_script") ∨
        {u | [script, u] ∈ F (ascii_bytes "script_owner")} ⊆
          {u | [task, u] ∈ F (ascii_bytes "task_participant")}
  | .DeleteScript usr script => [script, usr] ∈ F (ascii_bytes "script_owner")

/-- The request names are no term's and no constant's. -/
theorem request_names_plain : ∀ rt ∈ model_conf_raw.request_def.map (·.1),
    conf_arity rt = none ∧ rt ≠ ascii_bytes "true" ∧ rt ≠ ascii_bytes "false" ∧
      rt ≠ ascii_bytes "null" ∧ rt ≠ ascii_bytes "_" ∧ rt ≠ ascii_bytes "X" := by
  decide

theorem placeholder_name_plain :
    conf_arity (ascii_bytes "_") = none ∧ ascii_bytes "_" ≠ ascii_bytes "true" ∧
      ascii_bytes "_" ≠ ascii_bytes "false" ∧ ascii_bytes "_" ≠ ascii_bytes "null" := by
  decide

/-- `set(self) <= set(iterable)` of strings is inclusion. -/
theorem query_le_strs (qs ps : List (List UInt8)) {y : Obj}
    (hy : iter_items base_host y = some (ps.map .str)) :
    query_le (qs.map .str) y = some (.bool (decide (∀ u ∈ qs, u ∈ ps))) := by
  obtain ⟨xs, hxs, hmx⟩ := make_set_strs_mem base_host qs
  obtain ⟨ys, hys, hmy⟩ := make_set_strs_mem base_host ps
  have hiff : (∀ x ∈ xs, x ∈ ys) ↔ ∀ u ∈ qs, u ∈ ps := by simp only [hmx, hmy]
  simp only [query_le, hy, hxs, hys, py_le_strs, Option.bind_eq_bind, Option.bind_some]
  simp [hiff]

/-- `Request(attrs, vals)` of two distinct attributes. -/
theorem request_new_pair {a b : List UInt8} (hab : a ≠ b) (x y : Obj) :
    ∃ R, Request.new [a, b] (.list [x, y]) = some R ∧ R.get a = some x ∧ R.get b = some y := by
  refine ⟨dict_of [(a, x), (b, y)], by simp [Request.new, PyObj.seq_items_list], ?_, ?_⟩
  · simp [dict_of, hab]
  · simp [dict_of]

theorem Model.enforce_eq {m : Model} {rt : List UInt8} {tpl : List (List UInt8)} {content : Obj}
    {R : Memdb (List UInt8) Obj} {e : Expr} (htpl : m.request_template.get rt = some tpl)
    (hreq : Request.new tpl content = some R) (he : m.matchers.get rt = some e) :
    m.enforce rt content = eval_expr (m.enforce_host R) (with_builtins (m.enforcer_env rt)) e := by
  simp [Model.enforce, htpl, hreq, he]

section Matchers

variable {m : Model} {F : List UInt8 → Set (List (List UInt8))} {R : Memdb (List UInt8) Obj}
  {rt : List UInt8}

/-- The request's attributes. -/
theorem eval_attr_request {env : List UInt8 → Option Obj} {r f : List UInt8} {v : Obj}
    (henv : env r = some (.host .request)) (hf : R.get f = some v) :
    eval_expr (m.enforce_host R) env (.attr (.name r) f) = some v := by
  simp [eval_expr_attr, eval_expr_name, henv, hf]

/-- A query result compared with `<=` to an iterable of strings. -/
theorem eval_le_query {env : List UInt8 → Option Obj} {A B : Expr} {qs ps : List (List UInt8)}
    {y : Obj} (hA : eval_expr (m.enforce_host R) env A = some (.host (.query_result (qs.map .str))))
    (hB : eval_expr (m.enforce_host R) env B = some y) (hy : iter_items base_host y = some (ps.map .str)) :
    eval_expr (m.enforce_host R) env (.cmp .le A B) = some (.bool (decide (∀ u ∈ qs, u ∈ ps))) := by
  simp [eval_expr_cmp, hA, hB, py_le, query_le_strs qs ps hy]

variable (hm : m.Shipped F)
include hm

theorem Model.Shipped.env_request (request_type : List UInt8)
    (hrt : request_type ∈ model_conf_raw.request_def.map (·.1)) :
    with_builtins (m.enforcer_env request_type) request_type = some (.host .request) := by
  obtain ⟨hn, h1, h2, h3, h4, h5⟩ := request_names_plain request_type hrt
  simp [with_builtins_eq, Model.enforcer_env_eq, hm.get_not_term hn, h1, h2, h3, h4, h5]

theorem Model.Shipped.env_placeholder :
    with_builtins (m.enforcer_env rt) (ascii_bytes "_") = some (.host .placeholder) := by
  obtain ⟨hn, h1, h2, h3⟩ := placeholder_name_plain
  simp [with_builtins_eq, Model.enforcer_env_eq, hm.get_not_term hn, h1, h2, h3]

theorem Model.Shipped.env_term {T : List UInt8} {k : Nat} (hT : conf_arity T = some k) :
    with_builtins (m.enforcer_env rt) T = some (.host (.term T)) := by
  obtain ⟨t, ht, -⟩ := hm.get_term hT
  simp [with_builtins_eq, Model.enforcer_env_eq, ht]

/-- `T(x, _)` for a pair term `T` and a string `x`: the strings paired with it. -/
theorem Model.Shipped.eval_query (T : List UInt8) (hT : conf_arity T = some 2) {x : Expr}
    {a : List UInt8} (hx : eval_expr (m.enforce_host R) (with_builtins (m.enforcer_env rt)) x = some (.str a)) :
    ∃ qs : List (List UInt8),
      eval_expr (m.enforce_host R) (with_builtins (m.enforcer_env rt)) (.call (.name T) [x, placeholder_arg]) =
          some (.host (.query_result (qs.map .str))) ∧
        ∀ u, u ∈ qs ↔ [a, u] ∈ F T := by
  obtain ⟨t, ht, harity, hs, hfacts⟩ := hm.get_term hT
  obtain ⟨qs, hcall, hqs⟩ := t.call_pair_query hs harity a
  refine ⟨qs, ?_, fun u => hfacts ▸ hqs u⟩
  simp [eval_expr_call, eval_expr_name, eval_items_cons, eval_items_nil, hx, hm.env_term hT,
    placeholder_arg, hm.env_placeholder, ht, hcall]

/-- `T(x, …)` with strings only: whether they are a fact of `T`. -/
theorem Model.Shipped.eval_member (T : List UInt8) {args : List Expr} {ss : List (List UInt8)}
    {k : Nat} (hT : conf_arity T = some k) (hk : ss.length = k)
    (hargs : eval_items (m.enforce_host R) (with_builtins (m.enforcer_env rt)) args = some (ss.map .str)) :
    ∃ b, eval_expr (m.enforce_host R) (with_builtins (m.enforcer_env rt)) (.call (.name T) args) =
        some (.bool b) ∧ (b = true ↔ ss ∈ F T) := by
  obtain ⟨t, ht, harity, hs, hfacts⟩ := hm.get_term hT
  obtain ⟨b, hcall, hb⟩ := t.call_strs hs ss (hk.trans harity.symm)
  refine ⟨b, ?_, hfacts ▸ hb⟩
  simp [eval_expr_call, eval_expr_name, hargs, hm.env_term hT, ht, hcall]

/-- A request of two attributes of the shipped model: its matcher evaluated
    with the two values. -/
theorem Model.Shipped.enforce_pair (request_type a b : List UInt8) (e : Expr)
    (x y : Obj) (htpl : (dict_of model_conf_raw.request_def).get request_type = some [a, b])
    (hab : a ≠ b) (he : (dict_of model_conf_raw.matchers).get request_type = some e) :
    ∃ R : Memdb (List UInt8) Obj, R.get a = some x ∧ R.get b = some y ∧
      m.enforce request_type (.list [x, y]) =
        eval_expr (m.enforce_host R) (with_builtins (m.enforcer_env request_type)) e := by
  obtain ⟨R, hR, ha, hb⟩ := request_new_pair hab x y
  exact ⟨R, ha, hb, Model.enforce_eq (hm.request_template ▸ htpl) hR (hm.matchers ▸ he)⟩

/-- **The shipped matchers compute the set-theoretic reading**: every
    request is answered by a boolean, true exactly when `conf_reading`
    holds of the facts. -/
theorem Model.Shipped.enforce (req : EnforceRequest) :
    ∃ b, m.enforce req.request.1 req.py_args = some (.bool b) ∧ (b = true ↔ conf_reading F req) := by
  cases req with
  | LaunchTask task participants =>
      -- `task_participant(launch_task.task, _) <= launch_task.participants`
      obtain ⟨R, hRt, hRp, henf⟩ := hm.enforce_pair (ascii_bytes "launch_task") (ascii_bytes "task")
        (ascii_bytes "participants") launch_task_matcher
        (.str task) (.set (participants.elems.map .str)) (by decide) (by decide) (by decide)
      have hrt := hm.env_request (ascii_bytes "launch_task") (by decide)
      obtain ⟨qs, hq, hqs⟩ :=
        hm.eval_query (ascii_bytes "task_participant") (by decide) (eval_attr_request hrt hRt)
      have hle := eval_le_query hq (eval_attr_request hrt hRp) rfl
      refine ⟨_, henf.trans hle, ?_⟩
      simp [conf_reading, Set.subset_def, hqs]
  | AccessData task data =>
      -- `data_owner(access_data.data, _) <= task_participant(access_data.task, _)`
      obtain ⟨R, hRt, hRd, henf⟩ := hm.enforce_pair (ascii_bytes "access_data") (ascii_bytes "task")
        (ascii_bytes "data") access_data_matcher
        (.str task) (.str data) (by decide) (by decide) (by decide)
      have hrt := hm.env_request (ascii_bytes "access_data") (by decide)
      obtain ⟨qs, hq, hqs⟩ :=
        hm.eval_query (ascii_bytes "data_owner") (by decide) (eval_attr_request hrt hRd)
      obtain ⟨ps, hp, hps⟩ :=
        hm.eval_query (ascii_bytes "task_participant") (by decide) (eval_attr_request hrt hRt)
      have hle := eval_le_query hq hp rfl
      refine ⟨_, henf.trans hle, ?_⟩
      simp [conf_reading, Set.subset_def, hqs, hps]
  | DeleteData usr data =>
      -- `data_owner(delete_data.data, delete_data.usr)`
      obtain ⟨R, hRu, hRd, henf⟩ := hm.enforce_pair (ascii_bytes "delete_data") (ascii_bytes "usr")
        (ascii_bytes "data") delete_data_matcher
        (.str usr) (.str data) (by decide) (by decide) (by decide)
      have hrt := hm.env_request (ascii_bytes "delete_data") (by decide)
      have hargs : eval_items (m.enforce_host R) (with_builtins (m.enforcer_env (ascii_bytes "delete_data")))
          [attr_of "delete_data" "data", attr_of "delete_data" "usr"] = some ([data, usr].map .str) := by
        simp [eval_items, attr_of, eval_attr_request hrt hRd, eval_attr_request hrt hRu]
      obtain ⟨b, hb, hiff⟩ := hm.eval_member (ascii_bytes "data_owner") (k := 2) (by decide) rfl
        hargs
      exact ⟨b, henf.trans hb, hiff⟩
  | AccessScript task script =>
      -- `is_public_script(access_script.script) or
      --  script_owner(access_script.script, _) <= task_participant(access_script.task, _)`
      obtain ⟨R, hRt, hRs, henf⟩ := hm.enforce_pair (ascii_bytes "access_script") (ascii_bytes "task")
        (ascii_bytes "script")
        access_script_matcher (.str task) (.str script) (by decide) (by decide) (by decide)
      have hrt := hm.env_request (ascii_bytes "access_script") (by decide)
      have harg : eval_items (m.enforce_host R)
          (with_builtins (m.enforcer_env (ascii_bytes "access_script")))
          [attr_of "access_script" "script"] = some ([script].map .str) := by
        simp [eval_items, attr_of, eval_attr_request hrt hRs]
      obtain ⟨b, hb, hiff⟩ := hm.eval_member (ascii_bytes "is_public_script") (k := 1) (by decide) rfl
        harg
      obtain ⟨qs, hq, hqs⟩ :=
        hm.eval_query (ascii_bytes "script_owner") (by decide) (eval_attr_request hrt hRs)
      obtain ⟨ps, hp, hps⟩ :=
        hm.eval_query (ascii_bytes "task_participant") (by decide) (eval_attr_request hrt hRt)
      have hle := eval_le_query hq hp rfl
      refine ⟨b || decide (∀ u ∈ qs, u ∈ ps), henf.trans (eval_or_bool _ _ hb hle), ?_⟩
      simp [conf_reading, Set.subset_def, ← hiff, hqs, hps]
  | DeleteScript usr script =>
      -- `script_owner(delete_script.script, delete_script.usr)`
      obtain ⟨R, hRu, hRs, henf⟩ := hm.enforce_pair (ascii_bytes "delete_script") (ascii_bytes "usr")
        (ascii_bytes "script")
        delete_script_matcher (.str usr) (.str script) (by decide) (by decide) (by decide)
      have hrt := hm.env_request (ascii_bytes "delete_script") (by decide)
      have hargs : eval_items (m.enforce_host R)
          (with_builtins (m.enforcer_env (ascii_bytes "delete_script")))
          [attr_of "delete_script" "script", attr_of "delete_script" "usr"] =
            some ([script, usr].map .str) := by
        simp [eval_items, attr_of, eval_attr_request hrt hRs, eval_attr_request hrt hRu]
      obtain ⟨b, hb, hiff⟩ := hm.eval_member (ascii_bytes "script_owner") (k := 2) (by decide) rfl
        hargs
      exact ⟨b, henf.trans hb, hiff⟩

end Matchers

/-! ## §9. The enclave. -/

/-- A string the enclave hands to the engine as it is and `eval` reads back:
    no quote, backslash or line end (`Unescaped`), and no NUL (`CString`). -/
def Plain (s : List UInt8) : Prop := Unescaped s ∧ 0 ∉ s

instance (s : List UInt8) : Decidable (Plain s) := inferInstanceAs (Decidable (_ ∧ _))

theorem c_string_of {s : List UInt8} (h : 0 ∉ s) : c_string s = some s := by
  simp [c_string, h]

theorem zero_not_mem_str_list_literal {ss : List (List UInt8)} (h : ∀ s ∈ ss, 0 ∉ s) :
    0 ∉ str_list_literal ss := by
  intro h0
  rcases mem_str_list_literal h0 with h0 | ⟨s, hs, h0⟩
  · exact absurd h0 (by decide)
  · exact h s hs h0

theorem zero_not_mem_set_call_literal {ss : List (List UInt8)} (h : ∀ s ∈ ss, 0 ∉ s) :
    0 ∉ set_call_literal ss := by
  intro h0
  rcases mem_set_call_literal h0 with h0 | ⟨s, hs, h0⟩
  · exact absurd h0 (by decide)
  · exact h s hs h0

/-- The request names of the enclave are those of `model.conf`. -/
theorem request_type_mem (req : EnforceRequest) :
    req.request.1 ∈ model_conf_raw.request_def.map (·.1) := by
  have h : ∀ rt ∈ [ascii_bytes "launch_task", ascii_bytes "access_data", ascii_bytes "delete_data",
      ascii_bytes "access_script", ascii_bytes "delete_script"],
      rt ∈ model_conf_raw.request_def.map (·.1) := by
    decide
  cases req <;> exact h _ (by simp [EnforceRequest.request])

/-- What the enclave marshals from strings without NUL has none. -/
theorem zero_not_mem_request (req : EnforceRequest) (h : ∀ s ∈ req.strings, 0 ∉ s) :
    0 ∉ req.request.1 ∧ 0 ∉ req.request.2 := by
  have hnames : ∀ rt ∈ model_conf_raw.request_def.map (·.1), 0 ∉ rt := by decide
  refine ⟨hnames _ (request_type_mem req), ?_⟩
  cases req with
  | LaunchTask usr task =>
      have hp : ∀ c ∈ [ascii '[', ascii '\'', ascii ',', ascii ']'], (0 : UInt8) ≠ c := by
        simp only [List.forall_mem_cons, List.not_mem_nil, IsEmpty.forall_iff, forall_const, and_true]
        decide
      have husr : 0 ∉ usr := h usr List.mem_cons_self
      have hset := zero_not_mem_set_call_literal fun s hs => h s (List.mem_cons_of_mem _ hs)
      simp only [List.mem_cons, List.not_mem_nil, or_false, forall_eq_or_imp, forall_eq] at hp
      simp [EnforceRequest.request, marshal_launch_task, quoted_eq, hp, husr, hset]
  | AccessData x y | DeleteData x y | AccessScript x y | DeleteScript x y =>
      show 0 ∉ marshal (x, y) []
      rw [marshal_pair]
      exact zero_not_mem_str_list_literal h

/-- The term names of the enclave's facts are those of `model.conf`. -/
theorem fact_type_mem (a : AccessControlTerms) : a.fact.1 ∈ model_conf_raw.term_def.map (·.1) := by
  have h : ∀ n ∈ [ascii_bytes "task_creator", ascii_bytes "task_participant",
      ascii_bytes "data_owner", ascii_bytes "script_owner", ascii_bytes "is_public_script"],
      n ∈ model_conf_raw.term_def.map (·.1) := by
    decide
  cases a <;> exact h _ (by simp [AccessControlTerms.fact])

theorem zero_not_mem_fact (a : AccessControlTerms) (h : ∀ s ∈ a.strings, 0 ∉ s) :
    0 ∉ a.fact.1 ∧ 0 ∉ a.fact.2 := by
  have hnames : ∀ n ∈ model_conf_raw.term_def.map (·.1), 0 ∉ n := by decide
  refine ⟨hnames _ (fact_type_mem a), ?_⟩
  cases a with
  | TaskCreator x y | TaskParticipant x y | DataOwner x y | ScriptOwner x y =>
      show 0 ∉ marshal (x, y) []
      rw [marshal_pair]
      exact zero_not_mem_str_list_literal h
  | IsPublicScript script =>
      show 0 ∉ marshal (Tuple1.mk script) []
      rw [marshal_tuple1]
      exact zero_not_mem_str_list_literal h

/-! ## §10. Runs of the entry points. -/

/-- A sequence of `acs_announce_fact` calls, each on the state the one before
    left. -/
def announce_calls (global_perm_model : Option Model) :
    List (List UInt8 × List UInt8) → Option Model
  | [] => global_perm_model
  | c :: calls => announce_calls (acs_announce_fact global_perm_model c.1 c.2).1 calls

/-- The facts a sequence of calls adds: the tuple of strings of each call that
    names a term of `model.conf` and has its arity. -/
def announced_calls (calls : List (List UInt8 × List UInt8)) (n : List UInt8) :
    Set (List (List UInt8)) :=
  {ss | ∃ c ∈ calls, c.1 = n ∧ py_eval base_host literal_globals c.2 = some (.list (ss.map .str)) ∧
    conf_arity n = some ss.length}

/-- The facts of one more call in front. -/
theorem announced_calls_cons {c : List UInt8 × List UInt8} {ss : List (List UInt8)}
    (hc : py_eval base_host literal_globals c.2 = some (.list (ss.map .str)))
    (calls : List (List UInt8 × List UInt8)) (n : List UInt8) :
    announced_calls (c :: calls) n =
      {ss' | ss' = ss ∧ c.1 = n ∧ conf_arity n = some ss.length} ∪ announced_calls calls n := by
  ext ss'
  simp only [announced_calls, List.mem_cons, Set.mem_union, Set.mem_ofPred_eq]
  constructor
  · rintro ⟨c', rfl | hc', hn, hev, hk⟩
    · -- the call itself: its text evaluates to one tuple only
      have heq : ss = ss' := by
        rw [hc] at hev
        simpa [PyObj.map_str_inj] using hev
      subst heq
      exact .inl ⟨rfl, hn, hk⟩
    · exact .inr ⟨c', hc', hn, hev, hk⟩
  · rintro (⟨rfl, hn, hk⟩ | ⟨c', hc', hn, hev, hk⟩)
    · exact ⟨c, .inl rfl, hn, hc, hk⟩
    · exact ⟨c', .inr hc', hn, hev, hk⟩

section Runs

variable {m : Model} {F : List UInt8 → Set (List (List UInt8))}

/-- **A run of announcements of strings** keeps the state a state of the
    shipped model, holding the facts it had and those the calls add. -/
theorem Model.Shipped.announce_calls (hm : m.Shipped F) (calls : List (List UInt8 × List UInt8))
    (hcalls : ∀ c ∈ calls, ∃ ss : List (List UInt8),
      py_eval base_host literal_globals c.2 = some (.list (ss.map .str))) :
    ∃ m', announce_calls (some m) calls = some m' ∧
      m'.Shipped fun n => F n ∪ announced_calls calls n := by
  induction calls generalizing m F with
  | nil => exact ⟨m, rfl, by simpa [announced_calls] using hm⟩
  | cons c calls ih =>
      obtain ⟨ss, hss⟩ := hcalls c List.mem_cons_self
      have hrest := fun c' hc' => hcalls c' (List.mem_cons_of_mem _ hc')
      by_cases hn : conf_arity c.1 = some ss.length
      · -- the call adds its tuple
        obtain ⟨m₁, hm₁, hs₁⟩ := hm.add_term_item_strs hn
        obtain ⟨m', hm', hs'⟩ := ih hs₁ hrest
        refine ⟨m', by simpa [announce_calls, acs_announce_fact_of_add hss hm₁] using hm', ?_⟩
        convert hs' using 2 with n
        rw [announced_calls_cons hss]
        ext ss'
        rw [add_fact_to_eq]
        split_ifs with h
        · subst h
          simp [hn]
          tauto
        · simp [Ne.symm h]
      · -- the call fails and changes nothing
        have hnone := hm.add_term_item_strs_none hn
        obtain ⟨m', hm', hs'⟩ := ih hm hrest
        refine ⟨m', by simpa [announce_calls, acs_announce_fact_of_add_none hss hnone] using hm', ?_⟩
        convert hs' using 2 with n
        rw [announced_calls_cons hss]
        ext ss'
        simp only [Set.mem_union, Set.mem_ofPred_eq]
        constructor
        · rintro (h | ⟨rfl, rfl, hk⟩ | h)
          · exact .inl h
          · exact absurd hk hn
          · exact .inr h
        · rintro (h | h)
          · exact .inl h
          · exact .inr (.inr h)

/-- `acs_enforce_request` of a text that evaluates to the request's
    arguments: `1` or `0` by the reading. -/
theorem Model.Shipped.acs_enforce (hm : m.Shipped F) (req : EnforceRequest) {content : List UInt8}
    (hc : py_eval base_host literal_globals content = some req.py_args) :
    ∃ b, acs_enforce_request (some m) req.request.1 content = (if b then 1 else 0) ∧
      (b = true ↔ conf_reading F req) := by
  obtain ⟨b, hb, hiff⟩ := hm.enforce req
  refine ⟨b, ?_, hiff⟩
  simp [acs_enforce_request, hc, hb]

end Runs

theorem enforce_conf_reading :
    (∀ (t : Term) (args : List Obj), t.StringFacts → args.length = t.arity →
      (args.countP is_placeholder = 0 →
        ∃ b, t.call args = some (.bool b) ∧ (b = true ↔ ∃ ss ∈ t.str_facts, args = ss.map .str)) ∧
      (args.countP is_placeholder ≠ 0 →
        ∃ items, t.call args = some (.host (.query_result items)) ∧
          ∀ o, o ∈ items ↔ ∃ ss ∈ t.str_facts, Matches args ss ∧
            o = query_item (args.countP is_placeholder) ((picked args ss).map .str))) ∧
    acs_setup_model none MODEL_TEXT = (some model_conf, 0) ∧
    ∀ (calls : List (List UInt8 × List UInt8)) (req : EnforceRequest) (content : List UInt8),
      (∀ c ∈ calls, ∃ ss : List (List UInt8),
        py_eval base_host literal_globals c.2 = some (.list (ss.map .str))) →
      py_eval base_host literal_globals content = some req.py_args →
      ∃ b, acs_enforce_request (announce_calls (acs_setup_model none MODEL_TEXT).1 calls)
          req.request.1 content = (if b then 1 else 0) ∧
        (b = true ↔ conf_reading (announced_calls calls) req) := by
  refine ⟨fun t args hs hlen => ⟨Term.call_concrete t hs args hlen, Term.call_query t hs args hlen⟩,
    acs_setup_model_conf none, fun calls req content hcalls hc => ?_⟩
  obtain ⟨m, hm, hshipped⟩ := shipped_init.announce_calls calls hcalls
  rw [acs_setup_model_conf, hm]
  exact (show m.Shipped (announced_calls calls) by simpa using hshipped).acs_enforce req hc

/-- One announcement: `t` has the participant `bob`. -/
def sample_calls : List (List UInt8 × List UInt8) :=
  [(ascii_bytes "task_participant", str_list_literal [ascii_bytes "t", ascii_bytes "bob"])]

/-- `bob` asks to delete the data `d`. -/
def sample_request : EnforceRequest := .DeleteData (ascii_bytes "bob") (ascii_bytes "d")

def sample_args : List Obj := [.str (ascii_bytes "t"), .host .placeholder]

theorem enforce_conf_reading_sample :
    ((Term.new 2).StringFacts ∧ sample_args.length = (Term.new 2).arity ∧
      (sample_args.countP is_placeholder ≠ 0 →
        ∃ items, (Term.new 2).call sample_args = some (.host (.query_result items)) ∧
          ∀ o, o ∈ items ↔ ∃ ss ∈ (Term.new 2).str_facts, Matches sample_args ss ∧
            o = query_item (sample_args.countP is_placeholder) ((picked sample_args ss).map .str))) ∧
    (∀ c ∈ sample_calls, ∃ ss : List (List UInt8),
      py_eval base_host literal_globals c.2 = some (.list (ss.map .str))) ∧
    py_eval base_host literal_globals (str_list_literal [ascii_bytes "bob", ascii_bytes "d"]) =
      some sample_request.py_args ∧
    ∃ b, acs_enforce_request (announce_calls (acs_setup_model none MODEL_TEXT).1 sample_calls)
        sample_request.request.1 (str_list_literal [ascii_bytes "bob", ascii_bytes "d"]) =
          (if b then 1 else 0) ∧
      (b = true ↔ conf_reading (announced_calls sample_calls) sample_request) := by
  have hs : (Term.new 2).StringFacts := fun f hf => by simp [Term.new_facts] at hf
  have hcalls : ∀ c ∈ sample_calls, ∃ ss : List (List UInt8),
      py_eval base_host literal_globals c.2 = some (.list (ss.map .str)) := by
    intro c hc
    simp only [sample_calls, List.mem_singleton] at hc
    subst hc
    exact ⟨_, py_eval_str_list_literal base_host literal_globals (by decide)⟩
  have hc : py_eval base_host literal_globals (str_list_literal [ascii_bytes "bob", ascii_bytes "d"]) =
      some sample_request.py_args :=
    py_eval_str_list_literal base_host literal_globals (by decide)
  exact ⟨⟨hs, rfl, (enforce_conf_reading.1 (Term.new 2) sample_args hs rfl).2⟩, hcalls, hc,
    enforce_conf_reading.2.2 sample_calls sample_request _ hcalls hc⟩

/-! ## §11. The enclave. -/

section Enclave

variable {m : Model} {F : List UInt8 → Set (List (List UInt8))}

/-- An enforcement marshalled by the enclave: `1` or `0` by the reading. -/
theorem Model.Shipped.ffi_enforce (hm : m.Shipped F) (req : EnforceRequest)
    (hss : ∀ s ∈ req.strings, Unescaped s) :
    ∃ b, acs_enforce_request (some m) req.request.1 req.request.2 = (if b then 1 else 0) ∧
      (b = true ↔ conf_reading F req) :=
  hm.acs_enforce req (request_content_round_trip base_host literal_globals rfl req hss)

/-- **An enforcement is answered by the reading** and changes nothing. -/
theorem Model.Shipped.handle_enforce (hm : m.Shipped F) (req : EnforceRequest)
    (hss : ∀ s ∈ req.strings, Plain s) :
    ∃ b, req.handle_request (some m) = some (.ok (.Enforce b)) ∧ (b = true ↔ conf_reading F req) := by
  obtain ⟨b, hb, hiff⟩ := hm.ffi_enforce req fun s hs => (hss s hs).1
  obtain ⟨h1, h2⟩ := zero_not_mem_request req fun s hs => (hss s hs).2
  refine ⟨b, ?_, hiff⟩
  cases b <;> simp [EnforceRequest.handle_request, c_string_of h1, c_string_of h2, hb]

/-- An announcement marshalled by the enclave: added to its term. -/
theorem Model.Shipped.ffi_announce {facts : List AccessControlTerms}
    (hm : m.Shipped (announced facts)) (a : AccessControlTerms) (hss : ∀ s ∈ a.strings, Unescaped s) :
    ∃ m', acs_announce_fact (some m) a.fact.1 a.fact.2 = (some m', 0) ∧
      m'.Shipped (announced (facts ++ [a])) := by
  obtain ⟨m', hm', hs'⟩ := hm.announce a
  exact ⟨m', acs_announce_fact_of_add (fact_round_trip base_host literal_globals a hss) hm', hs'⟩

/-- **Announcements of strings all succeed**, each adding its fact. -/
theorem Model.Shipped.handle_announce {facts : List AccessControlTerms}
    (hm : m.Shipped (announced facts)) (more : List AccessControlTerms)
    (hss : ∀ a ∈ more, ∀ s ∈ a.strings, Plain s) :
    ∃ m', AnnounceRequest.handle_request (some m) more = some (some m', .ok .Announce) ∧
      m'.Shipped (announced (facts ++ more)) := by
  induction more generalizing m facts with
  | nil => exact ⟨m, rfl, by simpa using hm⟩
  | cons a more ih =>
      have ha : ∀ s ∈ a.strings, Plain s := hss a List.mem_cons_self
      obtain ⟨h1, h2⟩ := zero_not_mem_fact a fun s hs => (ha s hs).2
      obtain ⟨m', hm', hs'⟩ := hm.ffi_announce a fun s hs => (ha s hs).1
      obtain ⟨m'', hm'', hs''⟩ := ih hs' fun a' ha' => hss a' (List.mem_cons_of_mem _ ha')
      refine ⟨m'', ?_, by simpa using hs''⟩
      simp [AnnounceRequest.handle_request_cons, c_string_of h1, c_string_of h2, hm', hm'']

/-- Two shipped models whose knowledge bases agree hold the same facts. -/
theorem Model.Shipped.facts_eq_of_kb {m' : Model} {F' : List UInt8 → Set (List (List UInt8))}
    (hm : m.Shipped F) (hm' : m'.Shipped F') (hkb : m.term_knowledge_base = m'.term_knowledge_base)
    {n : List UInt8} {k : Nat} (hn : conf_arity n = some k) : F n = F' n := by
  obtain ⟨t, ht, -, -, hF⟩ := hm.get_term hn
  obtain ⟨t', ht', -, -, hF'⟩ := hm'.get_term hn
  rw [hkb, ht'] at ht
  cases ht
  rw [← hF, ← hF']

end Enclave

/-- An announcement of two participants of task `t`: `u`, then an id
    holding a quote. -/
def split_announcement : List AccessControlTerms :=
  [.TaskParticipant (ascii_bytes "t") (ascii_bytes "u"),
    .TaskParticipant (ascii_bytes "a','b") (ascii_bytes "c")]

/-- The second fact marshals to a literal of three strings. -/
theorem split_announcement_fact :
    (AccessControlTerms.TaskParticipant (ascii_bytes "a','b") (ascii_bytes "c")).fact.2 =
      str_list_literal [ascii_bytes "a", ascii_bytes "b", ascii_bytes "c"] := by
  decide

/-- **A failed announcement keeps the facts announced before it**: the
    second fact's three strings do not fit `task_participant` and the call
    returns `Err`, while the first fact stays in the knowledge base. -/
theorem announce_error_keeps_earlier_fact :
    ∃ m, AnnounceRequest.handle_request (some model_conf) split_announcement =
        some (some m, .error .MesaPyError) ∧
      m.term_knowledge_base ≠ model_conf.term_knowledge_base := by
  have hinit : model_conf.Shipped (announced []) := by
    rw [announced_nil]
    exact shipped_init
  -- the first fact is added
  obtain ⟨m, hm, hs⟩ :=
    hinit.ffi_announce (.TaskParticipant (ascii_bytes "t") (ascii_bytes "u")) (by decide)
  rw [List.nil_append] at hs
  -- the second evaluates to three strings, which `add_term_item` refuses
  have hev : py_eval base_host literal_globals
      (AccessControlTerms.TaskParticipant (ascii_bytes "a','b") (ascii_bytes "c")).fact.2 =
      some (.list ([ascii_bytes "a", ascii_bytes "b", ascii_bytes "c"].map .str)) := by
    rw [split_announcement_fact]
    exact py_eval_str_list_literal base_host literal_globals (by decide)
  have hnone := hs.add_term_item_strs_none
    (show conf_arity (AccessControlTerms.TaskParticipant (ascii_bytes "a','b") (ascii_bytes "c")).fact.1 ≠
      some ([ascii_bytes "a", ascii_bytes "b", ascii_bytes "c"] : List (List UInt8)).length by decide)
  obtain ⟨h1, h2⟩ := zero_not_mem_fact (.TaskParticipant (ascii_bytes "t") (ascii_bytes "u")) (by decide)
  obtain ⟨h3, h4⟩ :=
    zero_not_mem_fact (.TaskParticipant (ascii_bytes "a','b") (ascii_bytes "c")) (by decide)
  simp only [List.map_cons, List.map_nil] at hev hnone
  refine ⟨m, ?_, fun hkb => ?_⟩
  · simp only [split_announcement, AnnounceRequest.handle_request_cons, c_string_of h1, c_string_of h2,
      c_string_of h3, c_string_of h4, Option.bind_eq_bind, Option.bind_some, hm]
    simp [acs_announce_fact_of_add_none hev hnone]
  · -- the knowledge bases differ in `task_participant`
    have hF := hs.facts_eq_of_kb hinit hkb (n := ascii_bytes "task_participant") (k := 2) rfl
    have hmem : [ascii_bytes "t", ascii_bytes "u"] ∈
        announced [.TaskParticipant (ascii_bytes "t") (ascii_bytes "u")]
          (ascii_bytes "task_participant") := ⟨_, List.mem_singleton_self _, rfl, rfl⟩
    rw [hF, announced_nil] at hmem
    exact Set.notMem_empty _ hmem

theorem handle_init_enclave_eq : handle_init_enclave = (some model_conf, .ok ()) := by
  simp [handle_init_enclave, acs_setup_model_conf]

theorem enclave_enforces_conf_reading :
    handle_init_enclave = (some model_conf, .ok ()) ∧
    ∀ (facts : List AccessControlTerms) (req : EnforceRequest),
      (∀ a ∈ facts, ∀ s ∈ a.strings, Plain s) → (∀ s ∈ req.strings, Plain s) →
        ∃ m b, AnnounceRequest.handle_request handle_init_enclave.1 facts =
            some (some m, .ok .Announce) ∧
          req.handle_request (some m) = some (.ok (.Enforce b)) ∧
          (b = true ↔ conf_reading (announced facts) req) := by
  refine ⟨handle_init_enclave_eq, fun facts req hfacts hreq => ?_⟩
  have hinit : model_conf.Shipped (announced []) := by
    rw [announced_nil]
    exact shipped_init
  obtain ⟨m, hm, hshipped⟩ := hinit.handle_announce facts hfacts
  obtain ⟨b, hb, hiff⟩ := hshipped.handle_enforce req hreq
  rw [handle_init_enclave_eq]
  exact ⟨m, b, by simpa using hm, hb, by simpa using hiff⟩

/-- The enclave is told that `bob` takes part in task `t`, then asked to
    launch `t` with `{bob}`. -/
theorem enclave_enforces_conf_reading_sample :
    (∀ a ∈ [AccessControlTerms.TaskParticipant (ascii_bytes "t") (ascii_bytes "bob")],
      ∀ s ∈ a.strings, Plain s) ∧
    (∀ s ∈ (EnforceRequest.LaunchTask (ascii_bytes "t") ⟨[ascii_bytes "bob"], by simp⟩).strings,
      Plain s) ∧
    ∃ m b, AnnounceRequest.handle_request handle_init_enclave.1
          [.TaskParticipant (ascii_bytes "t") (ascii_bytes "bob")] = some (some m, .ok .Announce) ∧
        (EnforceRequest.LaunchTask (ascii_bytes "t") ⟨[ascii_bytes "bob"], by simp⟩).handle_request
            (some m) = some (.ok (.Enforce b)) ∧
        (b = true ↔ conf_reading (announced [.TaskParticipant (ascii_bytes "t") (ascii_bytes "bob")])
          (.LaunchTask (ascii_bytes "t") ⟨[ascii_bytes "bob"], by simp⟩)) :=
  ⟨by decide, by decide, enclave_enforces_conf_reading.2 _ _ (by decide) (by decide)⟩

end Teaclave.Acs
