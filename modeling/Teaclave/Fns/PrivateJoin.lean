/-
  Teaclave.Fns.PrivateJoin
  ────────────────────────
  **PRIVATE JOIN AND COMPUTE.**

  `private_join_and_compute.rs`: each party's file holds lines
  `identity : amount`.  `parse_input` keeps, per identity, the amount of its
  last well-formed line.  `execute` counts in how many files each identity
  occurs, adds its amounts in a `u32`, keeps the identities found in every
  file, and writes one line `identity : sum` for each of them.

  A `HashMap` is a list of pairs with distinct keys: `insert` replaces a
  value in place or appends, `get` is `List.lookup`, and iteration follows
  the list (the output, read back as a map, does not depend on the order).
  The files' contents are given as text (a file that is not UTF-8 is refused
  before any of this).  The sum is `u32` addition, which wraps in the
  release build the enclave is made with: two amounts of `2 ^ 32 - 1` come
  back as `2 ^ 32 - 2` (`private_join_sum_wraps`).
-/
import Teaclave.Lib.RustStd
import Teaclave.Core.Basic

namespace Teaclave.Fns

open Teaclave.Lib Teaclave.Core

/-! ## §1. `HashMap` as a list of pairs. -/

section HashMap

variable {K V : Type} [DecidableEq K]

/-- `HashMap::insert`. -/
def hm_insert (m : List (K × V)) (k : K) (v : V) : List (K × V) :=
  if m.any (·.1 = k) then m.map (fun p => if p.1 = k then (k, v) else p) else m ++ [(k, v)]

end HashMap

/-! ## §2. `parse_input`. -/

/-- One line of a file: trimmed, at least three bytes long, exactly one
    `:`, and an amount that `u32::from_str` reads after trimming. -/
def parse_line (ret : List (List Char × UInt32)) (data_item : List Char) :
    List (List Char × UInt32) :=
  let pair := trim data_item
  if utf8_len pair < 3 then ret
  else
    match pair.splitOn ':' with
    | [identity, amount] =>
        match parse_u32 (trim amount) with
        | some amount => hm_insert ret (trim identity) amount
        | none => ret
    | _ => ret

/-- `parse_input`: the lines in order, a later line of an identity
    overwriting an earlier one. -/
def parse_input (data_list : List Char) : List (List Char × UInt32) :=
  (data_list.splitOn '\n').foldl parse_line []

/-! ## §3. `execute`. -/

/-- `prepare_input`: a join needs at least two files. -/
def prepare_input (file_ids : List String) : Result (List String) :=
  if file_ids.length < 2 then .error .InvalidInputError else .ok file_ids

/-- The maps `execute` keeps: per identity, the number of files it occurs
    in (`usize`) and the sum of its amounts (`u32`). -/
structure JoinMaps where
  counter_map : List (List Char × Nat)
  add_map : List (List Char × UInt32)

/-- The inner loop over one file's records. -/
def add_record (maps : JoinMaps) (record : List Char × UInt32) : JoinMaps :=
  let (identity, amount) := record
  let value := (maps.counter_map.lookup identity).getD 0
  let counter_map := hm_insert maps.counter_map identity (value + 1)
  let value := (maps.add_map.lookup identity).getD 0
  ⟨counter_map, hm_insert maps.add_map identity (value + amount)⟩

/-- `writeln!(output, "{} : {}", identity, amount)`. -/
def output_line (identity : List Char) (amount : UInt32) : List Char :=
  identity ++ [' ', ':', ' '] ++ Nat.toDigits 10 amount.toNat ++ ['\n']

/-- `PrivateJoinAndComputeWorker::execute` on the texts of the input files:
    the output it saves for every file's owner. -/
def join_output (files : List (List Char)) : List Char :=
  let number := files.length
  let maps := files.foldl (fun maps plaintext => (parse_input plaintext).foldl add_record maps) ⟨[], []⟩
  -- `counter_map.retain(|_, &mut v| v == number)`
  let counter_map := maps.counter_map.filter (·.2 = number)
  maps.add_map.foldl (fun output (identity, amount) =>
    if (counter_map.lookup identity).isSome then output ++ output_line identity amount else output) []

/-- **The sum wraps.**  Two files that each give the identity `a` the amount
    `2 ^ 32 - 1`: the output, read back, gives `a` the sum modulo `2 ^ 32`,
    which is not the sum. -/
theorem private_join_sum_wraps :
    ((parse_input (join_output
        [['a', ' ', ':', ' ', '4', '2', '9', '4', '9', '6', '7', '2', '9', '5'],
          ['a', ' ', ':', ' ', '4', '2', '9', '4', '9', '6', '7', '2', '9', '5']])).lookup ['a']).map
        UInt32.toNat = some ((4294967295 + 4294967295) % 2 ^ 32) ∧
      (4294967295 + 4294967295) % 2 ^ 32 ≠ 4294967295 + 4294967295 := by
  decide

end Teaclave.Fns
