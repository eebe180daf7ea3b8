/-
  Teaclave.Attestation.Verifier
  ─────────────────────────────
  **WHAT THE PEER'S CERTIFICATE CHECK ACCEPTS.**

  `SgxQuote::extract_verified_quote` (`quote.rs`) parses the peer's
  certificate, splits the extension's payload at `|` into the attestation
  report, its signature and the IAS signing certificate, checks the signing
  certificate's chain and the report's signature, reads the report's
  timestamp, status and quote body, and binds the quote to the certificate's
  key.  `SgxQuoteVerifier::verify_cert` (`verifier.rs`) then compares the
  quote's measurements with the configured ones and its status.

  The calls into `webpki`, `serde_json`, `base64` and `chrono` are inputs
  (`VerifyEnv`); the configured IAS root certificate is part of the chain
  check.  `none` is a panic.

    • `verify_cert_accepts`: what a certificate `verify_cert` accepts has met.
    • `verify_cert_stale_report`: a report two days old is accepted; the
      freshness is computed and never compared.
-/
import Teaclave.Attestation.Cert
import Teaclave.Attestation.Quote

namespace Teaclave.Attestation

open Teaclave.Lib

/-! ## §1. Quotes and the verifier's inputs. -/

/-- `CertVerificationError`. -/
inductive CertVerificationError where
  | InvalidCertFormat
  | BadAttnReport
  | WebpkiFailure
  deriving DecidableEq, Repr

/-- The errors of `extract_verified_quote`: its own, and those of `base64`,
    `chrono` and `u64::try_from` that `?` passes on. -/
inductive QuoteError where
  | cert (e : CertVerificationError)
  | Base64Error
  | ParseError
  | TryFromIntError
  deriving DecidableEq, Repr

/-- `SgxQuoteStatus`. -/
inductive SgxQuoteStatus where
  | OK
  | GroupOutOfDate
  | ConfigurationNeeded
  | UnknownBadStatus
  deriving DecidableEq, Repr

/-- `From<&str> for SgxQuoteStatus`. -/
def SgxQuoteStatus.of_str (status : List Char) : SgxQuoteStatus :=
  if status = "OK".toList then .OK
  else if status = "GROUP_OUT_OF_DATE".toList then .GroupOutOfDate
  else if status = "CONFIGURATION_NEEDED".toList then .ConfigurationNeeded
  else .UnknownBadStatus

/-- `SgxQuote`, the freshness in seconds. -/
structure SgxQuote where
  freshness : Nat
  status : SgxQuoteStatus
  body : SgxQuoteBody
  deriving DecidableEq, Repr

/-- The fields of the attestation report that are read, each `none` where
    `as_str` fails. -/
structure AttnReport where
  timestamp : Option (List Char)
  isvEnclaveQuoteStatus : Option (List Char)
  isvEnclaveQuoteBody : Option (List Char)

/-- The calls `extract_verified_quote` makes outside this crate; `C` is
    `webpki`'s end-entity certificate.  `verify_is_valid_tls_server_cert`
    checks the chain to the configured IAS root at the current time, and
    `parse_from_str` reads a timestamp as seconds since the epoch. -/
structure VerifyEnv (C : Type) where
  base64_decode : List UInt8 → Option (List UInt8)
  end_entity_cert : List UInt8 → Option C
  verify_is_valid_tls_server_cert : C → Bool
  verify_signature : C → List UInt8 → List UInt8 → Bool
  from_slice : List UInt8 → Option AttnReport
  parse_from_str : List Char → Option Int
  now : Int

/-- `str::as_bytes`: the UTF-8 encoding. -/
def as_bytes (s : List Char) : List UInt8 := s.flatMap String.utf8EncodeChar

/-! ## §2. `extract_verified_quote`. -/

section Extract

variable {C : Type} (y : Yasna) (env : VerifyEnv C)

/-- The payload's first three fields: the report, and the signature and the
    signing certificate decoded. -/
def payload_fields (payload : List UInt8) :
    Except QuoteError (List UInt8 × List UInt8 × List UInt8) :=
  match payload.splitOn 0x7C with
  | attn_report_raw :: sig_raw :: rest =>
      match env.base64_decode sig_raw with
      | none => .error .Base64Error
      | some sig =>
          match rest with
          | sig_cert_raw :: _ =>
              match env.base64_decode sig_cert_raw with
              | none => .error .Base64Error
              | some sig_cert_dec => .ok (attn_report_raw, sig, sig_cert_dec)
          | [] => .error (.cert .InvalidCertFormat)
  | _ => .error (.cert .InvalidCertFormat)

/-- Step 1: the seconds since the report's timestamp. -/
def quote_freshness (attn_report : AttnReport) : Except QuoteError Nat :=
  match attn_report.timestamp with
  | none => .error (.cert .BadAttnReport)
  | some time =>
      match env.parse_from_str (time ++ "+0000".toList) with
      | none => .error .ParseError
      | some ts => if env.now - ts < 0 then .error .TryFromIntError else .ok (env.now - ts).toNat

/-- Step 2: the quote's status. -/
def quote_status (attn_report : AttnReport) : Except QuoteError SgxQuoteStatus :=
  match attn_report.isvEnclaveQuoteStatus with
  | none => .error (.cert .BadAttnReport)
  | some status_string => .ok (SgxQuoteStatus.of_str status_string)

/-- Step 3: the quote body. -/
def quote_body (attn_report : AttnReport) : Except QuoteError SgxQuoteBody :=
  match attn_report.isvEnclaveQuoteBody with
  | none => .error (.cert .BadAttnReport)
  | some quote_encoded =>
      match env.base64_decode (as_bytes quote_encoded) with
      | none => .error .Base64Error
      | some quote_raw =>
          match parse_from quote_raw with
          | none => .error (.cert .BadAttnReport)
          | some body => .ok body

/-- A check of `webpki` made with `map_err(..)?`. -/
def webpki_check (ok : Bool) : Except QuoteError Unit :=
  if ok then .ok () else .error (.cert .WebpkiFailure)

/-- Everything `extract_verified_quote` checks before the key binding: the
    key's bit string and the report's three steps. -/
def verified_report (cert_der : List UInt8) :
    Except QuoteError (List UInt8 × Nat × SgxQuoteStatus × SgxQuoteBody) := do
  let x509 ← (parse_der (Cert.X509 y) cert_der).elim (.error (.cert .InvalidCertFormat)) .ok
  let pub_k := cert_pub_k x509
  let (attn_report_raw, sig, sig_cert_dec) ← payload_fields env (cert_payload x509)
  let sig_cert ← (env.end_entity_cert sig_cert_dec).elim (.error (.cert .InvalidCertFormat)) .ok
  webpki_check (env.verify_is_valid_tls_server_cert sig_cert)
  webpki_check (env.verify_signature sig_cert attn_report_raw sig)
  let attn_report ← (env.from_slice attn_report_raw).elim (.error (.cert .BadAttnReport)) .ok
  let quote_freshness ← quote_freshness env attn_report
  let quote_status ← quote_status attn_report
  let quote_body ← quote_body env attn_report
  return (pub_k, quote_freshness, quote_status, quote_body)

theorem verified_report_eq (cert_der : List UInt8) :
    verified_report y env cert_der = (do
      let x509 ← (parse_der (Cert.X509 y) cert_der).elim (.error (.cert .InvalidCertFormat)) .ok
      let pub_k := cert_pub_k x509
      let (attn_report_raw, sig, sig_cert_dec) ← payload_fields env (cert_payload x509)
      let sig_cert ← (env.end_entity_cert sig_cert_dec).elim (.error (.cert .InvalidCertFormat)) .ok
      webpki_check (env.verify_is_valid_tls_server_cert sig_cert)
      webpki_check (env.verify_signature sig_cert attn_report_raw sig)
      let attn_report ← (env.from_slice attn_report_raw).elim (.error (.cert .BadAttnReport)) .ok
      let quote_freshness ← quote_freshness env attn_report
      let quote_status ← quote_status attn_report
      let quote_body ← quote_body env attn_report
      return (pub_k, quote_freshness, quote_status, quote_body)) := rfl

/-- `SgxQuote::extract_verified_quote`: the key must be in the uncompressed
    form and be the quote's report data; `raw_pub_k[0]` panics on an empty
    key. -/
def extract_verified_quote (cert_der : List UInt8) : Option (Except QuoteError SgxQuote) :=
  match verified_report y env cert_der with
  | .error e => some (.error e)
  | .ok (raw_pub_k, quote_freshness, quote_status, quote_body) =>
      match raw_pub_k with
      | [] => none
      | b0 :: pub_k =>
          let is_uncompressed := b0 == 4
          if !is_uncompressed || pub_k != quote_body.report_body.report_data then
            some (.error (.cert .BadAttnReport))
          else some (.ok ⟨quote_freshness, quote_status, quote_body⟩)

theorem extract_verified_quote_eq (cert_der : List UInt8) :
    extract_verified_quote y env cert_der =
      match verified_report y env cert_der with
      | .error e => some (.error e)
      | .ok (raw_pub_k, quote_freshness, quote_status, quote_body) =>
          match raw_pub_k with
          | [] => none
          | b0 :: pub_k =>
              if !(b0 == 4) || pub_k != quote_body.report_body.report_data then
                some (.error (.cert .BadAttnReport))
              else some (.ok ⟨quote_freshness, quote_status, quote_body⟩) := rfl

end Extract

/-! ## §3. `SgxQuoteVerifier`. -/

/-- `EnclaveMeasurement`. -/
structure EnclaveMeasurement where
  mr_signer : List UInt8
  mr_enclave : List UInt8
  deriving DecidableEq, Repr

/-- `EnclaveAttr`. -/
structure EnclaveAttr where
  measures : List EnclaveMeasurement

/-- `SgxQuoteVerifier`. -/
structure SgxQuoteVerifier where
  enclave_attr : EnclaveAttr
  verifier : SgxQuote → Bool

/-- `universal_quote_verifier`. -/
def universal_quote_verifier (quote : SgxQuote) : Bool :=
  quote.status != .UnknownBadStatus

/-- `SgxQuoteVerifier::new`. -/
def SgxQuoteVerifier.new (enclave_attr : EnclaveAttr) : SgxQuoteVerifier :=
  ⟨enclave_attr, universal_quote_verifier⟩

/-- `verify_measures`. -/
def SgxQuoteVerifier.verify_measures (self : SgxQuoteVerifier) (quote : SgxQuote) : Bool :=
  self.enclave_attr.measures.any fun m =>
    m.mr_signer == quote.body.report_body.mr_signer &&
      m.mr_enclave == quote.body.report_body.mr_enclave

/-- `verify_cert`, under the build flags `sgx_sim` and `test_mode`. -/
def SgxQuoteVerifier.verify_cert {C : Type} (sgx_sim test_mode : Bool) (y : Yasna)
    (env : VerifyEnv C) (self : SgxQuoteVerifier) (cert_der : List UInt8) : Option Bool :=
  if sgx_sim then some true
  else
    match extract_verified_quote y env cert_der with
    | none => none
    | some (.error _) => some false
    | some (.ok quote) =>
        if test_mode then some (self.verifier quote)
        else some (self.verify_measures quote && self.verifier quote)

theorem SgxQuoteVerifier.verify_cert_eq {C : Type} (sgx_sim test_mode : Bool) (y : Yasna)
    (env : VerifyEnv C) (self : SgxQuoteVerifier) (cert_der : List UInt8) :
    self.verify_cert sgx_sim test_mode y env cert_der =
      if sgx_sim then some true
      else
        match extract_verified_quote y env cert_der with
        | none => none
        | some (.error _) => some false
        | some (.ok quote) =>
            if test_mode then some (self.verifier quote)
            else some (self.verify_measures quote && self.verifier quote) := rfl

/-! ## §4. What an accepted certificate has met. -/

theorem except_bind_eq_ok {ε α β : Type} {x : Except ε α} {f : α → Except ε β} {b : β} :
    x.bind f = .ok b ↔ ∃ a, x = .ok a ∧ f a = .ok b := by
  cases x <;> simp [Except.bind]

theorem option_elim_eq_ok {ε α : Type} {o : Option α} {e : ε} {a : α} :
    o.elim (.error e) .ok = (.ok a : Except ε α) ↔ o = some a := by
  cases o <;> simp

@[simp] theorem webpki_check_eq_ok {ok : Bool} {u : Unit} :
    webpki_check ok = .ok u ↔ ok = true := by
  cases ok <;> simp [webpki_check]

section Accepts

variable {C : Type} {y : Yasna} {env : VerifyEnv C} {cert_der : List UInt8}

/-- The checks a report that passed has met, in the order they are made. -/
theorem verified_report_eq_ok {pub_k : List UInt8} {freshness : Nat} {status : SgxQuoteStatus}
    {body : SgxQuoteBody} (h : verified_report y env cert_der = .ok (pub_k, freshness, status, body)) :
    ∃ x509 attn_report_raw sig sig_cert_dec sig_cert attn_report,
      parse_der (Cert.X509 y) cert_der = some x509 ∧
      payload_fields env (cert_payload x509) = .ok (attn_report_raw, sig, sig_cert_dec) ∧
      env.end_entity_cert sig_cert_dec = some sig_cert ∧
      env.verify_is_valid_tls_server_cert sig_cert = true ∧
      env.verify_signature sig_cert attn_report_raw sig = true ∧
      env.from_slice attn_report_raw = some attn_report ∧
      quote_freshness env attn_report = .ok freshness ∧
      quote_status attn_report = .ok status ∧
      quote_body env attn_report = .ok body ∧
      pub_k = cert_pub_k x509 := by
  simp only [verified_report_eq, bind, except_bind_eq_ok, option_elim_eq_ok, webpki_check_eq_ok] at h
  obtain ⟨x509, hparse, ⟨attn_report_raw, sig, sig_cert_dec⟩, hfields, sig_cert, hcert, -, hchain, -,
    hsig, attn_report, hreport, _, hfresh, _, hstatus, _, hbody, hret⟩ := h
  simp only [pure, Except.pure, Except.ok.injEq, Prod.mk.injEq] at hret
  obtain ⟨rfl, rfl, rfl, rfl⟩ := hret
  exact ⟨x509, attn_report_raw, sig, sig_cert_dec, sig_cert, attn_report, hparse, hfields, hcert,
    hchain, hsig, hreport, hfresh, hstatus, hbody, rfl⟩

/-- A quote that came out: its key was `4` and the quote's report data. -/
theorem extract_verified_quote_eq_ok {quote : SgxQuote}
    (h : extract_verified_quote y env cert_der = some (.ok quote)) :
    verified_report y env cert_der =
      .ok (4 :: quote.body.report_body.report_data, quote.freshness, quote.status, quote.body) := by
  rw [extract_verified_quote_eq] at h
  split at h
  · cases h
  · rename_i raw_pub_k freshness status body hrep
    cases raw_pub_k with
    | nil => cases h
    | cons b0 pub_k =>
        -- the key binding: `b0 = 4` and the rest is the report data
        simp only at h
        split_ifs at h with hbind
        · cases h
        · have hkey : b0 = 4 ∧ pub_k = body.report_body.report_data := by simpa using hbind
          cases h
          rw [hrep, hkey.1, hkey.2]

/-- What `verify_cert` asks of a quote outside `sgx_sim` and `test_mode`. -/
theorem verify_cert_eq_true {attr : EnclaveAttr}
    (h : (SgxQuoteVerifier.new attr).verify_cert false false y env cert_der = some true) :
    ∃ quote, extract_verified_quote y env cert_der = some (.ok quote) ∧
      (SgxQuoteVerifier.new attr).verify_measures quote = true ∧
      quote.status ≠ .UnknownBadStatus := by
  simp only [SgxQuoteVerifier.verify_cert_eq, Bool.false_eq_true, if_false] at h
  split at h
  · cases h
  · cases h
  · rename_i quote hq
    simp only [Option.some.injEq, Bool.and_eq_true, SgxQuoteVerifier.new,
      universal_quote_verifier, bne_iff_ne, ne_eq] at h
    exact ⟨quote, hq, h.1, h.2⟩

/-- **What `verify_cert` accepts**: outside `sgx_sim` and `test_mode`, a
    certificate is accepted only if it parses; the signing certificate in
    its payload chains to the IAS root and has signed the report; the report
    has a timestamp no later than now, a status other than
    `UnknownBadStatus` and a quote body that parses; the key is `4` and
    then the quote's report data; and the quote's measurements are among
    the configured ones.  Nothing bounds the report's age. -/
theorem verify_cert_accepts {attr : EnclaveAttr}
    (h : (SgxQuoteVerifier.new attr).verify_cert false false y env cert_der = some true) :
    ∃ x509 attn_report_raw sig sig_cert_dec sig_cert attn_report, ∃ quote : SgxQuote,
      parse_der (Cert.X509 y) cert_der = some x509 ∧
      payload_fields env (cert_payload x509) = .ok (attn_report_raw, sig, sig_cert_dec) ∧
      env.end_entity_cert sig_cert_dec = some sig_cert ∧
      env.verify_is_valid_tls_server_cert sig_cert = true ∧
      env.verify_signature sig_cert attn_report_raw sig = true ∧
      env.from_slice attn_report_raw = some attn_report ∧
      quote_freshness env attn_report = .ok quote.freshness ∧
      quote_status attn_report = .ok quote.status ∧ quote.status ≠ .UnknownBadStatus ∧
      quote_body env attn_report = .ok quote.body ∧
      cert_pub_k x509 = 4 :: quote.body.report_body.report_data ∧
      ∃ m ∈ attr.measures, m.mr_signer = quote.body.report_body.mr_signer ∧
        m.mr_enclave = quote.body.report_body.mr_enclave := by
  obtain ⟨quote, hq, hmeasures, hstatus⟩ := verify_cert_eq_true h
  obtain ⟨x509, attn_report_raw, sig, sig_cert_dec, sig_cert, attn_report, hparse, hfields, hcert,
    hchain, hsig, hreport, hfresh, hst, hbody, hkey⟩ :=
    verified_report_eq_ok (extract_verified_quote_eq_ok hq)
  -- the configured measurement that matched
  obtain ⟨m, hm, hmatch⟩ := List.any_eq_true.mp hmeasures
  simp only [Bool.and_eq_true, beq_iff_eq] at hmatch
  exact ⟨x509, attn_report_raw, sig, sig_cert_dec, sig_cert, attn_report, quote, hparse, hfields,
    hcert, hchain, hsig, hreport, hfresh, hst, hstatus, hbody, hkey.symm, m, hm, hmatch⟩

end Accepts

/-! ## §5. A certificate with every check passed, at two clocks. -/

/-- A quote body for `sample_key_pair`: version 2, linkable, zero
    measurements, and the key's coordinates as report data. -/
def sample_quote_raw : List UInt8 :=
  [2, 0, 1, 0] ++ List.replicate 364 0 ++ create_report_data sample_key_pair.pub_k

/-- An attestation report stamped at the epoch, status `OK`, with that
    quote body (every byte ASCII, so its text is its bytes). -/
def sample_report : AttnReport :=
  ⟨some "1970-01-01T00:00:00".toList, some "OK".toList,
    some (sample_quote_raw.map fun b => Char.ofNat b.toNat)⟩

/-- Library calls that all succeed, `now` seconds after the report's
    timestamp. -/
def sample_env (now : Int) : VerifyEnv Unit where
  base64_decode := some
  end_entity_cert _ := some ()
  verify_is_valid_tls_server_cert _ := true
  verify_signature _ _ _ := true
  from_slice _ := some sample_report
  parse_from_str _ := some 0
  now := now

/-- The enclave the verifier expects: zero measurements. -/
def zero_measures : EnclaveAttr := ⟨[⟨List.replicate 32 0, List.replicate 32 0⟩]⟩

/-- The certificate `sample_key_pair` writes. -/
def sample_cert (y : Yasna) : List UInt8 :=
  sample_key_pair.create_cert_with_extension y 0 (fun _ => ⟨[], []⟩) "Teaclave".toList
    "Teaclave".toList (ra_payload [0x41] [0x42] [0x43])

theorem sample_cert_eq (y : Yasna) :
    sample_cert y = sample_key_pair.create_cert_with_extension y 0 (fun _ => ⟨[], []⟩) "Teaclave".toList
      "Teaclave".toList (ra_payload [0x41] [0x42] [0x43]) := rfl

/-- A certificate with the same payload and an empty key. -/
def empty_key_cert (y : Yasna) : List UInt8 :=
  (Cert.X509 y).dump (tbs_cert_of [] 0 0 [] [] (ra_payload [0x41] [0x42] [0x43]),
    ((ecdsa_with_sha256_oid, ()), ([], ())))

set_option maxRecDepth 4000 in
/-- A fresh report is accepted, and its quote is bound to the key. -/
theorem verify_cert_accepts_sample (y : Yasna) :
    (SgxQuoteVerifier.new zero_measures).verify_cert false false y (sample_env 0) (sample_cert y) =
        some true ∧
      ∃ quote : SgxQuote, quote.status ≠ .UnknownBadStatus ∧
        quote.body.report_body.report_data = create_report_data sample_key_pair.pub_k := by
  obtain ⟨x509, hparse, hkey, hpayload⟩ := create_cert_parses sample_key_pair y 0
    (fun _ => ⟨[], []⟩) "Teaclave".toList "Teaclave".toList (ra_payload [0x41] [0x42] [0x43])
  have haccept : (SgxQuoteVerifier.new zero_measures).verify_cert false false y (sample_env 0)
      (sample_cert y) = some true := by
    simp only [SgxQuoteVerifier.verify_cert_eq, extract_verified_quote_eq, verified_report_eq, sample_cert_eq,
      hparse, Option.elim, bind, Except.bind, hkey, hpayload]
    decide
  obtain ⟨x509', -, -, -, -, -, quote, hparse', -, -, -, -, -, -, -, hstatus, -, hkey', -⟩ :=
    verify_cert_accepts haccept
  -- the certificate parsed once, so both keys are the one written
  have hsame : x509' = x509 := Option.some.inj (hparse'.symm.trans hparse)
  rw [hsame, hkey, Secp256k1KeyPair.public_key_into_bytes] at hkey'
  refine ⟨haccept, quote, hstatus, ?_⟩
  simpa [create_report_data] using hkey'.symm

/-- The same certificate under the escaping codecs: accepted, with a quote
    of a good status. -/
theorem verify_cert_accepts_escaped :
    (SgxQuoteVerifier.new zero_measures).verify_cert false false Yasna.escaped (sample_env 0)
        (sample_cert Yasna.escaped) = some true ∧
      ∃ quote : SgxQuote, quote.status ≠ .UnknownBadStatus := by
  have haccept := (verify_cert_accepts_sample Yasna.escaped).1
  obtain ⟨-, -, -, -, -, -, quote, -, -, -, -, -, -, -, -, hstatus, -⟩ := verify_cert_accepts haccept
  exact ⟨haccept, quote, hstatus⟩

set_option maxRecDepth 4000 in
/-- **A stale report is accepted, and an empty key panics**: with every
    library check passing, a report stamped two days before now yields a
    quote of freshness `172800` seconds that `verify_cert` accepts; the
    same report under a certificate with an empty key makes
    `raw_pub_k[0]` panic. -/
theorem verify_cert_stale_report (y : Yasna) :
    (extract_verified_quote y (sample_env (2 * 86400)) (sample_cert y)).map
        (·.map SgxQuote.freshness) = some (.ok (2 * 86400)) ∧
      (SgxQuoteVerifier.new zero_measures).verify_cert false false y (sample_env (2 * 86400))
        (sample_cert y) = some true ∧
      (SgxQuoteVerifier.new zero_measures).verify_cert false false y (sample_env 0)
        (empty_key_cert y) = none := by
  obtain ⟨x509, hparse, hkey, hpayload⟩ := create_cert_parses sample_key_pair y 0
    (fun _ => ⟨[], []⟩) "Teaclave".toList "Teaclave".toList (ra_payload [0x41] [0x42] [0x43])
  have hempty := parse_der_dump (Cert.X509 y) (tbs_cert_of [] 0 0 [] []
    (ra_payload [0x41] [0x42] [0x43]), ((ecdsa_with_sha256_oid, ()), ([], ())))
  simp only [SgxQuoteVerifier.verify_cert_eq, extract_verified_quote_eq, verified_report_eq, sample_cert_eq,
    empty_key_cert, hparse, hempty, Option.elim, bind, Except.bind, hkey, hpayload]
  decide

end Teaclave.Attestation
