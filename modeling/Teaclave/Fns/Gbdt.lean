/-
  Teaclave.Fns.Gbdt
  ─────────────────
  **THE GBDT TRAINING-DATA PARSER.**

  `parse_train_data` of `gbdt_worker.rs` splits its input into lines and
  fixes the label's column from the first line alone: the last column when
  that line has more than two fields, column 0 otherwise (and when it is
  blank).  Each non-blank line is split at commas, every field parsed as an
  `f32` (0.0 when it does not parse), and the label taken out with
  `swap_remove`, which moves the last field into the label's place.

  What `str::parse::<f32>` answers is a parameter, and the floats are of
  any type `F` with a `0` and a `1`.

  When the first line is not blank and every non-blank line has the same
  `n ≥ 3` fields, each line gives its last field as the label and the others,
  in order, as the features (`parse_train_data_uniform`).  Otherwise a line
  with fewer fields than the label's column panics, and a first line of two
  fields (or a blank one) makes the first field the label
  (`parse_train_data_misreads`).
-/
import Teaclave.Lib.RustStd

namespace Teaclave.Fns

open Teaclave.Lib

/-- `gbdt::decision_tree::Data`. -/
structure Data (F : Type) where
  label : F
  feature : List F
  target : F
  weight : F
  residual : F
  initial_guess : F
  deriving DecidableEq, Repr

section Parse

variable {F : Type} [Zero F] [One F] (parse_f32 : List Char → Option F)

/-- The fields of a trimmed line as `f32`, 0.0 for a field that does not parse. -/
def line_values (line : List Char) : List F :=
  (line.splitOn ',').map fun x => (parse_f32 x).getD 0

/-- The label's column, from the first line. -/
def sample_label_index : List (List Char) → Nat
  | first :: _ =>
      if (trim first).isEmpty then 0
      else
        let first_line := (trim first).splitOn ','
        if first_line.length > 2 then first_line.length - 1 else 0
  | [] => 0

/-- The loop over the lines: a blank line is skipped, any other gives one
    sample, and a line too short for `swap_remove` panics. -/
def parse_train_lines (index : Nat) : List (List Char) → Option (List (Data F))
  | [] => some []
  | line :: lines =>
      if (trim line).isEmpty then parse_train_lines index lines
      else
        match swap_remove (line_values parse_f32 (trim line)) index with
        | none => none
        | some (label, feature) =>
            (parse_train_lines index lines).map (⟨label, feature, 0, 1, 0, 0⟩ :: ·)

/-- `parse_train_data`. -/
def parse_train_data (input : List Char) : Option (List (Data F)) :=
  let lines := input.splitOn '\n'
  parse_train_lines parse_f32 (sample_label_index lines) lines

/-- The sample a line should give: its last field as the label, the others
    in order as the features. -/
def last_label_sample (line : List Char) : Data F :=
  let v := line_values parse_f32 (trim line)
  ⟨v.getLast?.getD 0, v.dropLast, 0, 1, 0, 0⟩

/-- With the label's column at the last field of every non-blank line, each
    such line gives `last_label_sample`. -/
theorem parse_train_lines_last {n : Nat} (hn : 1 ≤ n) :
    ∀ lines : List (List Char),
      (∀ line ∈ lines, (trim line).isEmpty = false → ((trim line).splitOn ',').length = n) →
      parse_train_lines parse_f32 (n - 1) lines =
        some ((lines.filter fun line => !(trim line).isEmpty).map (last_label_sample parse_f32))
  | [], _ => rfl
  | line :: lines, hlines => by
      have ih := parse_train_lines_last hn lines fun l hl => hlines l (List.mem_cons_of_mem _ hl)
      by_cases hblank : (trim line).isEmpty = true
      · simp [parse_train_lines, hblank, ih]
      · -- `swap_remove` at the last field is `pop`
        have hlen : (line_values parse_f32 (trim line)).length = n := by
          simp [line_values, hlines line List.mem_cons_self (by simpa using hblank)]
        have hne : line_values parse_f32 (trim line) ≠ [] := by
          intro h
          rw [h] at hlen
          simp at hlen
          omega
        have hswap := swap_remove_last hne
        rw [hlen] at hswap
        simp only [parse_train_lines, hblank, if_false, hswap, ih, Option.map_some,
          Bool.false_eq_true]
        simp [hblank, last_label_sample, List.getLast?_eq_some_getLast hne]

/-- **The parse when the data is uniform**: a non-blank first line, and
    every non-blank line of the same `n ≥ 3` fields. -/
theorem parse_train_data_uniform {n : Nat} (hn : 3 ≤ n) {input : List Char}
    (hfirst : (trim ((input.splitOn '\n').head?.getD [])).isEmpty = false)
    (hlines : ∀ line ∈ input.splitOn '\n',
      (trim line).isEmpty = false → ((trim line).splitOn ',').length = n) :
    parse_train_data parse_f32 input =
      some (((input.splitOn '\n').filter fun line => !(trim line).isEmpty).map
        (last_label_sample parse_f32)) := by
  have hindex : sample_label_index (input.splitOn '\n') = n - 1 := by
    cases hs : input.splitOn '\n' with
    | nil => simp [hs, trim, trim_start, trim_end] at hfirst
    | cons first rest =>
        rw [hs] at hfirst hlines
        have hfields := hlines first List.mem_cons_self (by simpa using hfirst)
        simp only [List.head?_cons, Option.getD_some] at hfirst
        simp [sample_label_index, hfirst, hfields]
        omega
  simp only [parse_train_data]
  rw [hindex]
  exact parse_train_lines_last parse_f32 (by omega) _ hlines

/-- Two lines of three one-digit fields: each gives its last field as the
    label. -/
theorem parse_train_data_uniform_two_lines :
    parse_train_data (fun x => x.head?.map (·.toNat - 48))
        ['1', ',', '2', ',', '3', '\n', '4', ',', '5', ',', '6'] =
      some [⟨3, [1, 2], 0, 1, 0, 0⟩, ⟨6, [4, 5], 0, 1, 0, 0⟩] :=
  (parse_train_data_uniform _ (le_refl 3) (by decide) (by decide)).trans rfl

/-- **Where the parse goes wrong.**  A line with fewer fields than the
    first panics in `swap_remove`; a first line of two fields makes the first
    field the label; a blank first line does too, and `swap_remove` then
    moves the last feature to the front. -/
theorem parse_train_data_misreads :
    parse_train_data parse_f32 ['1', ',', '2', ',', '3', '\n', '4'] = none ∧
      parse_train_data parse_f32 ['1', ',', '2'] =
        some [⟨(parse_f32 ['1']).getD 0, [(parse_f32 ['2']).getD 0], 0, 1, 0, 0⟩] ∧
      parse_train_data parse_f32 ['\n', '1', ',', '2', ',', '3'] =
        some [⟨(parse_f32 ['1']).getD 0, [(parse_f32 ['3']).getD 0, (parse_f32 ['2']).getD 0],
          0, 1, 0, 0⟩] :=
  ⟨rfl, rfl, rfl⟩

end Parse

end Teaclave.Fns
