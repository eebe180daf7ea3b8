/-
  Teaclave.Attestation.Cert
  ─────────────────────────
  **THE ATTESTATION CERTIFICATE: WRITTEN BY THE ENCLAVE'S KEY, READ BY THE PEER.**

  `cert.rs` gives the certificate's layout as a type-level list of ASN.1
  combinators.  `key.rs` writes a certificate for the enclave's key with the
  IAS report triple in an extension (`create_cert_with_extension`), the
  triple joined by `|` (`ra.rs`).  `quote.rs` parses it back and takes the
  public key and the extension's payload from fixed places of the value.

  The primitives of `yasna` are those of `Lib.Der`, gathered in a `Yasna`
  record, each writer with its reader; `BitVec::from_bytes` and `to_bytes`
  are inverse, so a bit string is its bytes.  The time and the ECDSA
  signature are inputs.

    • `create_cert_parses`: the writer's certificate parses back, with the
      key's bytes and the payload where the reader looks for them.
    • `ra_payload_fields`: the payload splits at `|` into the report, the
      signature, and the signing certificate's own `|`-separated parts.
    • `create_cert_extension_agrees`: the two together, and the key's bytes
      after the form byte are the report data the enclave signed.
-/
import Teaclave.Lib.Der

namespace Teaclave.Attestation

open Teaclave.Lib

/-! ## §1. The primitives (`yasna`, `bit_vec`). -/

/-- `yasna::models::ObjectIdentifier`, by its arcs. -/
abbrev ObjectIdentifier := List Nat

/-- `yasna::models::UTCTime`, by its seconds since the epoch. -/
abbrev UTCTime := Nat

/-- The primitives of `yasna` that `cert.rs` calls: the framing, and the
    contents codec of each primitive type. -/
structure Yasna where
  framing : Framing
  i8 : Contents Int8
  u8 : Contents UInt8
  biguint : Contents Nat
  utf8_string : Contents (List Char)
  oid : Contents ObjectIdentifier
  utctime : Contents UTCTime
  bitvec : Contents (List UInt8)
  bytes : Contents (List UInt8)

/-- Contents of bytes through the natural numbers. -/
def bytes_contents : Contents (List UInt8) :=
  .map (.of_encodable (List Nat)) (·.map UInt8.toNat) (·.map Nat.toUInt8)
    (fun v => by simp [Function.comp_def])

/-- A `Yasna` whose framing and codecs meet the laws: the laws the
    theorems assume are consistent. -/
def Yasna.escaped : Yasna where
  framing := .escaped
  i8 := .map (.of_encodable Nat) (·.toUInt8.toNat) (·.toUInt8.toInt8) (by simp)
  u8 := .map (.of_encodable Nat) UInt8.toNat Nat.toUInt8 (by simp)
  biguint := .of_encodable Nat
  utf8_string := .map (.of_encodable (List Nat)) (·.map Char.toNat) (·.map Char.ofNat)
    (fun v => by simp [Function.comp_def])
  oid := .of_encodable (List Nat)
  utctime := .of_encodable Nat
  bitvec := bytes_contents
  bytes := bytes_contents

/-! ## §2. The layout (`cert.rs`). -/

/-- `<CertSignAlgo as Asn1Ty>::ValueTy`. -/
abbrev CertSignAlgoValue := ObjectIdentifier × Unit

/-- `<Issuer as Asn1Ty>::ValueTy`, also the subject's. -/
abbrev NameValue := ((ObjectIdentifier × (List Char × Unit)) × Unit) × Unit

/-- `<ValidRange as Asn1Ty>::ValueTy`. -/
abbrev ValidRangeValue := UTCTime × (UTCTime × Unit)

/-- `<PubKeyAlgo as Asn1Ty>::ValueTy`. -/
abbrev PubKeyAlgoValue := ObjectIdentifier × (ObjectIdentifier × Unit)

/-- `<PubKey as Asn1Ty>::ValueTy`. -/
abbrev PubKeyValue := PubKeyAlgoValue × (List UInt8 × Unit)

/-- `<SgxRaCertExt as Asn1Ty>::ValueTy`. -/
abbrev SgxRaCertExtValue := (ObjectIdentifier × (List UInt8 × Unit)) × Unit

/-- `<TbsCert as Asn1Ty>::ValueTy`. -/
abbrev TbsCertValue :=
  Int8 × (UInt8 × (CertSignAlgoValue × (NameValue × (ValidRangeValue × (NameValue ×
    (PubKeyValue × (SgxRaCertExtValue × Unit)))))))

/-- `<X509 as Asn1Ty>::ValueTy`. -/
abbrev X509Value := TbsCertValue × (CertSignAlgoValue × (List UInt8 × Unit))

namespace Cert

variable (y : Yasna)

def I8 : Asn1Ty Int8 := .prim y.framing TAG_INTEGER y.i8
def U8 : Asn1Ty UInt8 := .prim y.framing TAG_INTEGER y.u8
def BigUint : Asn1Ty Nat := .prim y.framing TAG_INTEGER y.biguint
def Utf8Str : Asn1Ty (List Char) := .prim y.framing TAG_UTF8STRING y.utf8_string
def Oid : Asn1Ty ObjectIdentifier := .prim y.framing TAG_OID y.oid
def UtcTime : Asn1Ty UTCTime := .prim y.framing TAG_UTCTIME y.utctime
def BitVec : Asn1Ty (List UInt8) := .prim y.framing TAG_BITSTRING y.bitvec
def Bytes : Asn1Ty (List UInt8) := .prim y.framing TAG_OCTETSTRING y.bytes

/-- `CtxT0`, `CtxT3`. -/
def CtxT0 : Tag := context_tag 0
def CtxT3 : Tag := context_tag 3

def Version : Asn1Ty Int8 := Asn1.Tagged y.framing CtxT0 (I8 y)
def Serial : Asn1Ty UInt8 := U8 y
def CertSignAlgo : Asn1Ty CertSignAlgoValue := Asn1.Sequence y.framing (Oid y) .nil
def ValidRange : Asn1Ty ValidRangeValue :=
  Asn1.Sequence y.framing (UtcTime y) (.cons (UtcTime y) .nil)
def Issuer : Asn1Ty NameValue :=
  Asn1.Sequence y.framing
    (Asn1.Set y.framing (Asn1.Sequence y.framing (Oid y) (.cons (Utf8Str y) .nil)) .nil) .nil
def Subject : Asn1Ty NameValue := Issuer y
def PubKeyAlgo : Asn1Ty PubKeyAlgoValue := Asn1.Sequence y.framing (Oid y) (.cons (Oid y) .nil)
def PubKey : Asn1Ty PubKeyValue := Asn1.Sequence y.framing (PubKeyAlgo y) (.cons (BitVec y) .nil)
def SgxRaCertExt : Asn1Ty SgxRaCertExtValue :=
  Asn1.Tagged y.framing CtxT3
    (Asn1.Sequence y.framing (Asn1.Sequence y.framing (Oid y) (.cons (Bytes y) .nil)) .nil)
def TbsCert : Asn1Ty TbsCertValue :=
  Asn1.Sequence y.framing (Version y)
    (.cons (Serial y) (.cons (CertSignAlgo y) (.cons (Issuer y) (.cons (ValidRange y)
      (.cons (Subject y) (.cons (PubKey y) (.cons (SgxRaCertExt y) .nil)))))))
def CertSig : Asn1Ty (List UInt8) := BitVec y
def X509 : Asn1Ty X509Value :=
  Asn1.Sequence y.framing (TbsCert y) (.cons (CertSignAlgo y) (.cons (CertSig y) .nil))

end Cert

/-! ## §3. Writing the certificate (`key.rs`, `ra.rs`). -/

/-- `sgx_ec256_public_t`: the two coordinates, 32 bytes each, least
    significant byte first. -/
structure SgxEc256Public where
  gx : List UInt8
  gy : List UInt8
  gx_len : gx.length = 32
  gy_len : gy.length = 32

/-- `sgx_ec256_signature_t`. -/
structure SgxEc256Signature where
  x : List UInt32
  y : List UInt32

/-- `Secp256k1KeyPair`, by its public half; the private half is used only
    by the signer, which is an input. -/
structure Secp256k1KeyPair where
  pub_k : SgxEc256Public

/-- `CERT_VALID_DAYS`. -/
def CERT_VALID_DAYS : Nat := 90

def ecdsa_with_sha256_oid : ObjectIdentifier := [1, 2, 840, 10045, 4, 3, 2]
def common_name_oid : ObjectIdentifier := [2, 5, 4, 3]
def ec_public_key_oid : ObjectIdentifier := [1, 2, 840, 10045, 2, 1]
def prime256v1_oid : ObjectIdentifier := [1, 2, 840, 10045, 3, 1, 7]
def comment_oid : ObjectIdentifier := [2, 16, 840, 1, 113730, 1, 13]

/-- `public_key_into_bytes`: `4`, the uncompressed form, then the two
    coordinates most significant byte first. -/
def Secp256k1KeyPair.public_key_into_bytes (kp : Secp256k1KeyPair) : List UInt8 :=
  [4] ++ kp.pub_k.gx.reverse ++ kp.pub_k.gy.reverse

/-- `BigUint::from_slice`: little-endian 32-bit digits. -/
def biguint_from_slice (digits : List UInt32) : Nat :=
  digits.foldr (fun d acc => d.toNat + 2 ^ 32 * acc) 0

/-- The TBS certificate `create_cert_with_extension` fills in. -/
def tbs_cert_of (pub_key_bytes : List UInt8) (issue_ts expire_ts : UTCTime)
    (issuer subject : List Char) (payload : List UInt8) : TbsCertValue :=
  let version : Int8 := 2
  let serial : UInt8 := 1
  let cert_sign_algo := (ecdsa_with_sha256_oid, ())
  let issuer := (((common_name_oid, (issuer, ())), ()), ())
  let valid_range := (issue_ts, (expire_ts, ()))
  let subject := (((common_name_oid, (subject, ())), ()), ())
  let pub_key := ((ec_public_key_oid, (prime256v1_oid, ())), (pub_key_bytes, ()))
  let sgx_ra_cert_ext := ((comment_oid, (payload, ())), ())
  (version, (serial, (cert_sign_algo, (issuer, (valid_range, (subject, (pub_key,
    (sgx_ra_cert_ext, ()))))))))

/-- The signature's DER: its two coordinates as integers in a sequence. -/
def sig_der (y : Yasna) (sig : SgxEc256Signature) : List UInt8 :=
  y.framing.write TAG_SEQUENCE
    ((Cert.BigUint y).dump (biguint_from_slice sig.x.reverse) ++
      (Cert.BigUint y).dump (biguint_from_slice sig.y.reverse))

/-- `create_cert_with_extension`, at time `now` (seconds since the epoch),
    with the enclave's ECDSA signer. -/
def Secp256k1KeyPair.create_cert_with_extension (kp : Secp256k1KeyPair) (y : Yasna) (now : Nat)
    (ecdsa_sign_slice : List UInt8 → SgxEc256Signature) (issuer subject : List Char)
    (payload : List UInt8) : List UInt8 :=
  let pub_key_bytes := kp.public_key_into_bytes
  let issue_ts := now
  let expire_ts := now + CERT_VALID_DAYS * 86400
  let tbs_cert_der :=
    (Cert.TbsCert y).dump (tbs_cert_of pub_key_bytes issue_ts expire_ts issuer subject payload)
  let sig := ecdsa_sign_slice tbs_cert_der
  y.framing.write TAG_SEQUENCE
    (tbs_cert_der ++ (Cert.CertSignAlgo y).dump (ecdsa_with_sha256_oid, ()) ++
      (Cert.BitVec y).dump (sig_der y sig))

/-- The extension's payload in `ra.rs`: `[report, signature,
    signing_cert].join("|")`. -/
def ra_payload (report signature signing_cert : List UInt8) : List UInt8 :=
  [0x7C].intercalate [report, signature, signing_cert]

/-- `IasReport::create_report`'s `report_data`: the two coordinates, most
    significant byte first, in its 64 bytes. -/
def create_report_data (pub_k : SgxEc256Public) : List UInt8 :=
  pub_k.gx.reverse ++ pub_k.gy.reverse

/-! ## §4. Reading it back (`extract_verified_quote`). -/

/-- `pub_k`: the public key's bit string, read out of the TBS certificate. -/
def cert_pub_k (x509 : X509Value) : List UInt8 :=
  let tbs_cert := x509.1
  let pub_key := tbs_cert.2.2.2.2.2.2.1
  pub_key.2.1

/-- `payload`: the bytes of the attestation extension. -/
def cert_payload (x509 : X509Value) : List UInt8 :=
  let tbs_cert := x509.1
  let sgx_ra_cert_ext := tbs_cert.2.2.2.2.2.2.2.1
  sgx_ra_cert_ext.1.2.1

/-! ## §5. What the peer reads back. -/

/-- The writer writes the `X509` layout: the TBS certificate, the algorithm
    and the signature in one sequence. -/
theorem create_cert_eq_dump (kp : Secp256k1KeyPair) (y : Yasna) (now : Nat)
    (ecdsa_sign_slice : List UInt8 → SgxEc256Signature) (issuer subject : List Char)
    (payload : List UInt8) :
    let tbs := tbs_cert_of kp.public_key_into_bytes now (now + CERT_VALID_DAYS * 86400)
      issuer subject payload
    kp.create_cert_with_extension y now ecdsa_sign_slice issuer subject payload =
      (Cert.X509 y).dump
        (tbs, ((ecdsa_with_sha256_oid, ()), (sig_der y (ecdsa_sign_slice ((Cert.TbsCert y).dump tbs)), ()))) := by
  simp only [Secp256k1KeyPair.create_cert_with_extension, Cert.X509, Cert.CertSig, Asn1.Sequence,
    Asn1Ty.framed, Asn1ConsTy.cons, Asn1ConsTy.nil, List.append_assoc, List.append_nil]

/-- **The certificate parses back**, with the key's bytes and the payload
    where the reader takes them from. -/
theorem create_cert_parses (kp : Secp256k1KeyPair) (y : Yasna) (now : Nat)
    (ecdsa_sign_slice : List UInt8 → SgxEc256Signature) (issuer subject : List Char)
    (payload : List UInt8) :
    ∃ x509, parse_der (Cert.X509 y)
        (kp.create_cert_with_extension y now ecdsa_sign_slice issuer subject payload) = some x509 ∧
      cert_pub_k x509 = kp.public_key_into_bytes ∧ cert_payload x509 = payload := by
  exact ⟨_, by rw [create_cert_eq_dump, parse_der_dump], rfl, rfl⟩

theorem ra_payload_eq (report signature signing_cert : List UInt8) :
    ra_payload report signature signing_cert = report ++ 0x7C :: (signature ++ 0x7C :: signing_cert) := by
  simp [ra_payload, List.intercalate]

/-- **The payload's fields**: the report and the signature, then the
    signing certificate cut at its own `|`s. -/
theorem ra_payload_fields {report signature : List UInt8} (hr : 0x7C ∉ report)
    (hs : 0x7C ∉ signature) (signing_cert : List UInt8) :
    (ra_payload report signature signing_cert).splitOn 0x7C =
      report :: signature :: signing_cert.splitOn 0x7C := by
  rw [ra_payload_eq, List.splitOn_append_cons_self_of_not_mem hr,
    List.splitOn_append_cons_self_of_not_mem hs]

/-- The key's bytes after the form byte are `create_report`'s report data. -/
theorem public_key_into_bytes_drop_one (kp : Secp256k1KeyPair) :
    kp.public_key_into_bytes.drop 1 = create_report_data kp.pub_k := rfl

/-- **The encoder and the decoder agree**: the certificate parses; its
    payload splits into the report, the signature, and the parts of the
    signing certificate between its own `|`s (the signing certificate
    itself when it has none); its key is the enclave's, and the key's last
    64 bytes are the report data. -/
theorem create_cert_extension_agrees (kp : Secp256k1KeyPair) (y : Yasna) (now : Nat)
    (ecdsa_sign_slice : List UInt8 → SgxEc256Signature) (issuer subject : List Char)
    {report signature : List UInt8} (hr : 0x7C ∉ report) (hs : 0x7C ∉ signature)
    (signing_cert : List UInt8) :
    ∃ x509, parse_der (Cert.X509 y) (kp.create_cert_with_extension y now ecdsa_sign_slice
        issuer subject (ra_payload report signature signing_cert)) = some x509 ∧
      (∃ rest, (cert_payload x509).splitOn 0x7C = report :: signature :: rest ∧
        [0x7C].intercalate rest = signing_cert) ∧
      (0x7C ∉ signing_cert →
        (cert_payload x509).splitOn 0x7C = [report, signature, signing_cert]) ∧
      cert_pub_k x509 = kp.public_key_into_bytes ∧
      (cert_pub_k x509).drop 1 = create_report_data kp.pub_k := by
  obtain ⟨x509, hparse, hkey, hpayload⟩ :=
    create_cert_parses kp y now ecdsa_sign_slice issuer subject (ra_payload report signature signing_cert)
  have hfields := ra_payload_fields hr hs signing_cert
  refine ⟨x509, hparse, ⟨_, hpayload ▸ hfields, List.intercalate_splitOn _⟩, fun hc => ?_, hkey, ?_⟩
  · rw [hpayload, hfields, List.splitOn_eq_singleton hc]
  · rw [hkey, public_key_into_bytes_drop_one]

/-- A key whose coordinates are all ones and all twos. -/
def sample_key_pair : Secp256k1KeyPair :=
  ⟨⟨List.replicate 32 1, List.replicate 32 2, List.length_replicate, List.length_replicate⟩⟩

theorem create_cert_extension_agrees_sample :
    ∃ x509, parse_der (Cert.X509 Yasna.escaped)
        (sample_key_pair.create_cert_with_extension Yasna.escaped 0 (fun _ => ⟨[], []⟩)
          [] [] (ra_payload [0x41] [0x42] [0x43])) = some x509 ∧
      (cert_payload x509).splitOn 0x7C = [[0x41], [0x42], [0x43]] := by
  obtain ⟨x509, hparse, -, hfields, -⟩ :=
    create_cert_extension_agrees sample_key_pair Yasna.escaped 0 (fun _ => ⟨[], []⟩) [] []
      (by decide : (0x7C : UInt8) ∉ [0x41]) (by decide : (0x7C : UInt8) ∉ [0x42]) [0x43]
  exact ⟨x509, hparse, hfields (by decide)⟩

/-- A signing certificate with a `|` in it: the payload's third field is
    what comes before it. -/
theorem create_cert_pipe_in_signing_cert :
    ∃ x509, parse_der (Cert.X509 Yasna.escaped)
        (sample_key_pair.create_cert_with_extension Yasna.escaped 0 (fun _ => ⟨[], []⟩)
          [] [] (ra_payload [] [] [0x7C])) = some x509 ∧
      (cert_payload x509).splitOn 0x7C = [[], [], [], []] := by
  obtain ⟨x509, hparse, -, hpayload⟩ :=
    create_cert_parses sample_key_pair Yasna.escaped 0 (fun _ => ⟨[], []⟩) [] []
      (ra_payload [] [] [0x7C])
  exact ⟨x509, hparse, by rw [hpayload]; decide⟩

end Teaclave.Attestation
