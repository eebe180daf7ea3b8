/-
  Teaclave.Rpc.TlsConfig
  ──────────────────────
  **THE RA CREDENTIAL AND THE TLS CONFIGURATION CACHES.**

  `mesatee_core/src/rpc/sgx/{ra,client,server}.rs`.  `RACACHE` holds the
  enclave's RA credential (a key pair, its certificate with the attestation
  report, the hash of the private key) and renews it once its validity has
  elapsed (`get_current_ra_credential`).  Each side of an RPC keeps a cache of
  `rustls` configurations per peer verifier, tagged with the hash of the key
  they were built with.  `get_tls_config` fetches the current credential,
  then

    • returns the cached configuration of the verifier, if `try_read` gets
      the lock and there is one (`cache_lookup`);
    • otherwise builds one from the credential and, if `try_write` gets the
      lock, caches it, first emptying the cache when its tag is not the
      credential's hash (`cache_insert`).

  The read path never compares the tag: after a renewal, a verifier cached
  before it gets the configuration of the old credential (§4), while the
  credential the same call fetched is the new one.  What does hold (§3):
  every cached configuration was built from a credential whose hash is the
  cache's tag, so a hit is the configuration the miss would build whenever
  the credential's hash is the tag and the hash tells credentials apart.

  The calls are taken one at a time; whether `try_read` and `try_write`
  get their lock, what `SystemTime::now()` reads, what a renewal's
  `generate_and_endorse` returns and whether `rustls` accepts the key are
  the call's inputs.  Times are nanoseconds since `UNIX_EPOCH`.
-/
import Teaclave.Core.Basic
import Teaclave.Lib.Interleaving

namespace Teaclave.Rpc

open Teaclave.Core Teaclave.Lib

/-! ## §1. The RA credential (`ra.rs`). -/

/-- `RACredential`: certificate and private key in DER, and the key's SHA-256. -/
structure RACredential where
  cert : List UInt8
  private_key : List UInt8
  private_key_sha256 : List UInt8
  deriving DecidableEq, Repr

/-- `RACredential::default()`; `sgx_sha256_hash_t` defaults to 32 zero bytes. -/
def RACredential.default : RACredential := ⟨[], [], List.replicate 32 0⟩

/-- `RACache`. -/
structure RACache where
  ra_credential : RACredential
  gen_time : Nat
  validity : Nat
  deriving DecidableEq, Repr

/-- Nanoseconds in a second (`Duration::from_secs`, `as_secs`). -/
def NANOS_PER_SEC : Nat := 1000000000

/-- The initial `RACACHE`: the default credential, generated at `UNIX_EPOCH`,
    valid for no time. -/
def RACache.initial : RACache := ⟨RACredential.default, 0, 0⟩

/-- `RACache::is_valid`: `duration_since` fails when the clock is before
    `gen_time`; otherwise the age must be below the validity. -/
def RACache.is_valid (c : RACache) (now : Nat) : Bool :=
  decide (c.gen_time ≤ now) && decide (now - c.gen_time < c.validity)

/-- `RACache::new(valid_secs)`: what `generate_and_endorse` returned (a fresh
    key pair and IAS report, or an error), stamped with the time. -/
def RACache.new (valid_secs now : Nat) (endorsed : Result RACredential) : Result RACache :=
  endorsed.map fun ra_credential => ⟨ra_credential, now, valid_secs * NANOS_PER_SEC⟩

/-- `init_ra_credential`, at enclave start. -/
def init_ra_credential (valid_secs now : Nat) (endorsed : Result RACredential) :
    Result RACache :=
  match RACache.new valid_secs now endorsed with
  | .ok new_entry => .ok new_entry
  | .error _ => .error .RAInternalError

/-- `prelude`: every enclave starts with a credential valid for a day. -/
def prelude (now : Nat) (endorsed : Result RACredential) : Result RACache :=
  init_ra_credential 86400 now endorsed

/-- `get_current_ra_credential`: the cached credential while it is valid;
    otherwise a renewal, or the old credential if the renewal fails.  Calls
    taken one at a time, the check under the write lock sees what the check
    under the read lock saw. -/
def get_current_ra_credential (c : RACache) (now : Nat) (endorsed : Result RACredential) :
    RACache × RACredential :=
  if c.is_valid now then (c, c.ra_credential)
  else
    match RACache.new (c.validity / NANOS_PER_SEC) now endorsed with
    | .error _ => (c, c.ra_credential)
    | .ok new_cache => (new_cache, new_cache.ra_credential)

/-! ## §2. The configuration caches (`client.rs`, `server.rs`). -/

/-- What a `rustls::ClientConfig` built by `client::get_tls_config` carries:
    the client certificate and key, and the verifier of the server. -/
structure ClientConfig (V : Type) where
  certs : List (List UInt8)
  privkey : List UInt8
  verifier : V
  deriving DecidableEq

/-- What a `rustls::ServerConfig` built by `server::get_tls_config` carries:
    the certificate and key, and the verifier of clients (`none`:
    `NoClientAuth`). -/
structure ServerConfig (V : Type) where
  certs : List (List UInt8)
  privkey : List UInt8
  client_verifier : Option V
  deriving DecidableEq

/-- `ClientConfigCache` and `ServerConfigCache`: a tag, the hash of the key
    the configurations were built with, and a configuration per verifier. -/
structure ConfigCache (V C : Type) where
  private_key_sha256 : List UInt8
  target_configs : Memdb V C

section Cache

variable {V C : Type} [DecidableEq V]

/-- `ConfigCache::default()`. -/
def ConfigCache.default : ConfigCache V C := ⟨List.replicate 32 0, Memdb.open⟩

/-- The read path: `try_read`, then the verifier's entry. -/
def cache_lookup (cache : ConfigCache V C) (verifier : V) (read_ok : Bool) : Option C :=
  if read_ok then cache.target_configs.get verifier else none

omit [DecidableEq V] in
/-- A hit is the verifier's entry. -/
theorem get_of_cache_lookup {cache : ConfigCache V C} {v : V} {read_ok : Bool} {cfg : C}
    (h : cache_lookup cache v read_ok = some cfg) : cache.target_configs.get v = some cfg := by
  unfold cache_lookup at h
  split_ifs at h
  exact h

/-- The write path: `try_write`; a cache tagged with another key is replaced
    by an empty one tagged with this one, then the configuration is inserted. -/
def cache_insert (cache : ConfigCache V C) (private_key_sha256 : List UInt8) (verifier : V)
    (cfg : C) (write_ok : Bool) : ConfigCache V C :=
  if write_ok then
    let cache :=
      if cache.private_key_sha256 ≠ private_key_sha256 then ⟨private_key_sha256, Memdb.open⟩
      else cache
    ⟨cache.private_key_sha256, cache.target_configs.set verifier cfg⟩
  else cache

end Cache

/-- What one `get_tls_config` call reads from outside: the clock, a renewal's
    credential, whether `try_read`, `try_write` and `set_single_cert` succeed. -/
structure TlsInput where
  now : Nat
  endorsed : Result RACredential
  read_ok : Bool
  write_ok : Bool
  key_ok : Bool

/-- The enclave's statics: `RACACHE` and the two configuration caches. -/
structure TlsState (V : Type) where
  racache : RACache
  client_cache : ConfigCache V (ClientConfig V)
  server_cache : ConfigCache V (ServerConfig V)

section Calls

variable {V : Type} [DecidableEq V]

/-- The configuration the miss branch of `client::get_tls_config` builds. -/
def new_client_config (cred : RACredential) (verifier : V) : ClientConfig V :=
  ⟨[cred.cert], cred.private_key, verifier⟩

/-- The configuration the miss branch of `server::get_tls_config` builds
    (`set_single_cert` may refuse the key). -/
def new_server_config (cred : RACredential) (client_verifier : Option V) (key_ok : Bool) :
    Result (ServerConfig V) :=
  if key_ok then .ok ⟨[cred.cert], cred.private_key, client_verifier⟩ else .error .TLSError

/-- `client::get_tls_config`: the state after the call, the credential
    `get_current_ra_credential` returned, and the configuration. -/
def client_get_tls_config (s : TlsState V) (server_verifier : V) (input : TlsInput) :
    TlsState V × RACredential × ClientConfig V :=
  let fetched := get_current_ra_credential s.racache input.now input.endorsed
  let ra_credential := fetched.2
  let s := { s with racache := fetched.1 }
  match cache_lookup s.client_cache server_verifier input.read_ok with
  | some cfg => (s, ra_credential, cfg)
  | none =>
      let cfg := new_client_config ra_credential server_verifier
      let client_cache := cache_insert s.client_cache ra_credential.private_key_sha256
        server_verifier cfg input.write_ok
      ({ s with client_cache := client_cache }, ra_credential, cfg)

/-- `server::get_tls_config`: without a client verifier, a configuration
    built afresh and never cached; with one, as the client side. -/
def server_get_tls_config (s : TlsState V) (client_verifier : Option V) (input : TlsInput) :
    TlsState V × RACredential × Result (ServerConfig V) :=
  let fetched := get_current_ra_credential s.racache input.now input.endorsed
  let ra_credential := fetched.2
  let s := { s with racache := fetched.1 }
  match client_verifier with
  | none => (s, ra_credential, new_server_config ra_credential none input.key_ok)
  | some verifier =>
      match cache_lookup s.server_cache verifier input.read_ok with
      | some cfg => (s, ra_credential, .ok cfg)
      | none =>
          match new_server_config ra_credential (some verifier) input.key_ok with
          | .error e => (s, ra_credential, .error e)
          | .ok cfg =>
              let server_cache := cache_insert s.server_cache ra_credential.private_key_sha256
                verifier cfg input.write_ok
              ({ s with server_cache := server_cache }, ra_credential, .ok cfg)

/-- One call to either side. -/
inductive TlsCall (V : Type) where
  | client (server_verifier : V) (input : TlsInput)
  | server (client_verifier : Option V) (input : TlsInput)

/-- The inputs of a call. -/
def TlsCall.input : TlsCall V → TlsInput
  | .client _ input | .server _ input => input

/-- What a call returns: the credential it fetched and the configuration. -/
inductive TlsOutcome (V : Type) where
  | client (ra_credential : RACredential) (cfg : ClientConfig V)
  | server (ra_credential : RACredential) (cfg : Result (ServerConfig V))

/-- One call, on the statics. -/
def tls_step (s : TlsState V) : TlsCall V → TlsState V × TlsOutcome V
  | .client verifier input =>
      let r := client_get_tls_config s verifier input
      (r.1, .client r.2.1 r.2.2)
  | .server verifier input =>
      let r := server_get_tls_config s verifier input
      (r.1, .server r.2.1 r.2.2)

/-- The statics after `init_ra_credential` succeeded: empty caches. -/
def tls_init (racache : RACache) : TlsState V :=
  ⟨racache, ConfigCache.default, ConfigCache.default⟩

/-- The calls in order, with what each returned. -/
def tls_run : TlsState V → List (TlsCall V) → TlsState V × List (TlsOutcome V)
  | s, [] => (s, [])
  | s, c :: cs =>
      let r := tls_step s c
      let rest := tls_run r.1 cs
      (rest.1, r.2 :: rest.2)

/-- **The claimed coherence**: the configuration carries the certificate and
    key of the credential the same call fetched. -/
def TlsOutcome.coherent : TlsOutcome V → Prop
  | .client cred cfg => cfg = new_client_config cred cfg.verifier
  | .server cred cfg => ∀ c, cfg = .ok c → c.certs = [cred.cert] ∧ c.privkey = cred.private_key

end Calls

/-! ## §3. What the caches do keep. -/

section Tagged

variable {V C : Type} [DecidableEq V]

/-- Every configuration in the cache was built by `build`, for its verifier,
    from a credential whose key hash is the cache's tag. -/
def ConfigCache.Tagged (build : RACredential → V → C) (cache : ConfigCache V C) : Prop :=
  ∀ v cfg, cache.target_configs.get v = some cfg →
    ∃ cred : RACredential, cred.private_key_sha256 = cache.private_key_sha256 ∧ cfg = build cred v

omit [DecidableEq V] in
theorem ConfigCache.tagged_default (build : RACredential → V → C) :
    (ConfigCache.default : ConfigCache V C).Tagged build := by
  intro v cfg h
  simp [ConfigCache.default] at h

/-- **The write path keeps the cache tagged**, whether it keeps the old
    entries (same key) or drops them (another key). -/
theorem ConfigCache.Tagged.insert {build : RACredential → V → C} {cache : ConfigCache V C}
    (h : cache.Tagged build) (cred : RACredential) (v : V) (write_ok : Bool) :
    (cache_insert cache cred.private_key_sha256 v (build cred v) write_ok).Tagged build := by
  unfold cache_insert
  split_ifs with hw hne
  · -- another key: the new entry is alone
    intro w c hg
    rw [Memdb.get_set] at hg
    split_ifs at hg with hwv
    · cases hg
      subst hwv
      exact ⟨cred, rfl, rfl⟩
    · simp at hg
  · -- the same key: the old entries keep their tag
    have htag : cache.private_key_sha256 = cred.private_key_sha256 := not_not.mp hne
    intro w c hg
    rw [Memdb.get_set] at hg
    split_ifs at hg with hwv
    · cases hg
      subst hwv
      exact ⟨cred, htag.symm, rfl⟩
    · exact h w c hg
  · exact h

end Tagged

section Coherence

variable {V : Type} [DecidableEq V]

/-- What a server configuration cached by `server::get_tls_config` is built
    as: the miss branch's configuration, once `rustls` accepted the key. -/
def cached_server_config (cred : RACredential) (v : V) : ServerConfig V :=
  ⟨[cred.cert], cred.private_key, some v⟩

/-- Both caches hold configurations of their tag's key. -/
structure CachesTagged (s : TlsState V) : Prop where
  client : s.client_cache.Tagged new_client_config
  server : s.server_cache.Tagged cached_server_config

omit [DecidableEq V] in
theorem cachesTagged_init (racache : RACache) : CachesTagged (tls_init racache : TlsState V) :=
  ⟨ConfigCache.tagged_default _, ConfigCache.tagged_default _⟩

/-- The credential a client call returns is the one it fetched. -/
theorem client_get_tls_config_cred (s : TlsState V) (v : V) (input : TlsInput) :
    (client_get_tls_config s v input).2.1 =
      (get_current_ra_credential s.racache input.now input.endorsed).2 := by
  unfold client_get_tls_config
  dsimp only
  split <;> rfl

/-- The statics after a client call: `RACACHE` as `get_current_ra_credential`
    left it, the server cache untouched. -/
theorem client_get_tls_config_state (s : TlsState V) (v : V) (input : TlsInput) :
    (client_get_tls_config s v input).1.racache =
        (get_current_ra_credential s.racache input.now input.endorsed).1 ∧
      (client_get_tls_config s v input).1.server_cache = s.server_cache := by
  unfold client_get_tls_config
  dsimp only
  split <;> exact ⟨rfl, rfl⟩

theorem CachesTagged.client_step {s : TlsState V} (h : CachesTagged s) (v : V)
    (input : TlsInput) : CachesTagged (client_get_tls_config s v input).1 := by
  unfold client_get_tls_config
  dsimp only
  split
  · exact ⟨h.client, h.server⟩
  · exact ⟨h.client.insert _ v input.write_ok, h.server⟩

theorem CachesTagged.server_step {s : TlsState V} (h : CachesTagged s) (v : Option V)
    (input : TlsInput) : CachesTagged (server_get_tls_config s v input).1 := by
  unfold server_get_tls_config
  dsimp only
  split
  · exact ⟨h.client, h.server⟩
  · split
    · exact ⟨h.client, h.server⟩
    · -- a miss: cached only when `rustls` accepted the key
      cases hk : input.key_ok
      · exact ⟨h.client, h.server⟩
      · exact ⟨h.client, h.server.insert _ _ input.write_ok⟩

theorem CachesTagged.step {s : TlsState V} (h : CachesTagged s) :
    ∀ c : TlsCall V, CachesTagged (tls_step s c).1
  | .client v input => h.client_step v input
  | .server v input => h.server_step v input

/-- **Every run keeps the caches tagged.** -/
theorem CachesTagged.run : ∀ (calls : List (TlsCall V)) {s : TlsState V}, CachesTagged s →
    CachesTagged (tls_run s calls).1
  | [], _, h => h
  | c :: calls, _, h => CachesTagged.run calls (h.step c)

/-- **A hit is right when the tag is.**  In a tagged state, a client call
    whose fetched credential has the cache's key hash returns a configuration
    built, for its verifier, from a credential with that same key hash. -/
theorem client_config_of_tag {s : TlsState V} (h : CachesTagged s) (v : V) (input : TlsInput)
    (htag : (get_current_ra_credential s.racache input.now input.endorsed).2.private_key_sha256 =
      s.client_cache.private_key_sha256) :
    ∃ cred : RACredential,
      cred.private_key_sha256 = (client_get_tls_config s v input).2.1.private_key_sha256 ∧
        (client_get_tls_config s v input).2.2 = new_client_config cred v := by
  rw [client_get_tls_config_cred]
  unfold client_get_tls_config
  dsimp only
  split
  · -- a hit: the entry was built from a credential with the tag
    rename_i cfg hhit
    have hg := get_of_cache_lookup hhit
    obtain ⟨cred, hcred, rfl⟩ := h.client v cfg hg
    exact ⟨cred, hcred.trans htag.symm, rfl⟩
  · exact ⟨_, rfl, rfl⟩

end Coherence

/-! ## §4. Without a renewal the claim holds; across one it fails. -/

section Renewal

variable {V : Type} [DecidableEq V]

/-- Every cached configuration was built from the credential `RACACHE` holds. -/
structure CachesCurrent (s : TlsState V) : Prop where
  client : ∀ v cfg, s.client_cache.target_configs.get v = some cfg →
    cfg = new_client_config s.racache.ra_credential v
  server : ∀ v cfg, s.server_cache.target_configs.get v = some cfg →
    cfg = cached_server_config s.racache.ra_credential v

/-- A call that does not renew: the credential is valid, or the renewal fails. -/
def TlsInput.keeps (input : TlsInput) (c : RACache) : Prop :=
  c.is_valid input.now = true ∨ ∃ e, input.endorsed = .error e

/-- A call that does not renew leaves `RACACHE` as it is. -/
theorem get_current_ra_credential_of_keeps {c : RACache} {input : TlsInput}
    (h : input.keeps c) :
    get_current_ra_credential c input.now input.endorsed = (c, c.ra_credential) := by
  unfold get_current_ra_credential
  rcases h with hv | ⟨e, he⟩
  · rw [if_pos hv]
  · split_ifs
    · rfl
    · simp [RACache.new, he, Except.map]

omit [DecidableEq V] in
theorem cachesCurrent_init (racache : RACache) : CachesCurrent (tls_init racache : TlsState V) where
  client _ _ h := by simp [tls_init, ConfigCache.default] at h
  server _ _ h := by simp [tls_init, ConfigCache.default] at h

/-- An entry written into a cache of current entries is current, whatever the tag. -/
theorem forall_current_insert {C : Type} {build : V → C} {cache : ConfigCache V C}
    (h : ∀ v cfg, cache.target_configs.get v = some cfg → cfg = build v)
    (sha : List UInt8) (v : V) (write_ok : Bool) :
    ∀ w cfg, (cache_insert cache sha v (build v) write_ok).target_configs.get w = some cfg →
      cfg = build w := by
  intro w cfg hg
  unfold cache_insert at hg
  split_ifs at hg with hw hne <;> first
    | exact h w cfg hg
    | (rw [Memdb.get_set] at hg
       split_ifs at hg with hwv
       · cases hg
         subst hwv
         rfl
       · first | simp at hg | exact h w cfg hg)

/-- **One call without a renewal** keeps every cached configuration current
    and returns the configuration the miss branch builds. -/
theorem CachesCurrent.step {s : TlsState V} (h : CachesCurrent s) :
    ∀ (c : TlsCall V), c.input.keeps s.racache →
      CachesCurrent (tls_step s c).1 ∧ (tls_step s c).1.racache = s.racache ∧
        (tls_step s c).2.coherent
  | .client v input, hk => by
      unfold tls_step client_get_tls_config
      dsimp only
      rw [get_current_ra_credential_of_keeps (show input.keeps s.racache from hk)]
      split
      · rename_i cfg hhit
        have hg := get_of_cache_lookup hhit
        refine ⟨⟨h.client, h.server⟩, rfl, ?_⟩
        rw [h.client v cfg hg]
        rfl
      · exact ⟨⟨forall_current_insert h.client _ v input.write_ok, h.server⟩, rfl, rfl⟩
  | .server none input, hk => by
      unfold tls_step server_get_tls_config
      dsimp only
      rw [get_current_ra_credential_of_keeps (show input.keeps s.racache from hk)]
      refine ⟨⟨h.client, h.server⟩, rfl, ?_⟩
      intro c hc
      unfold new_server_config at hc
      split_ifs at hc
      cases hc
      exact ⟨rfl, rfl⟩
  | .server (some v) input, hk => by
      unfold tls_step server_get_tls_config
      dsimp only
      rw [get_current_ra_credential_of_keeps (show input.keeps s.racache from hk)]
      split
      · rename_i cfg hhit
        have hg := get_of_cache_lookup hhit
        refine ⟨⟨h.client, h.server⟩, rfl, ?_⟩
        intro c hc
        cases hc
        rw [h.server v cfg hg]
        exact ⟨rfl, rfl⟩
      · cases input.key_ok
        · exact ⟨⟨h.client, h.server⟩, rfl, fun c hc => by cases hc⟩
        · refine ⟨⟨h.client, forall_current_insert h.server _ v input.write_ok⟩, rfl, ?_⟩
          intro c hc
          cases hc
          exact ⟨rfl, rfl⟩

/-- **Without a renewal the caches agree with the miss branch.**  From a
    state whose caches hold configurations of the current credential, a run
    in which no call renews `RACACHE` returns only coherent configurations. -/
theorem tls_run_coherent_of_keeps : ∀ (calls : List (TlsCall V)) {s : TlsState V},
    CachesCurrent s → (∀ c ∈ calls, c.input.keeps s.racache) →
      ∀ o ∈ (tls_run s calls).2, o.coherent
  | [], _, _, _ => by simp [tls_run]
  | c :: calls, s, h, hk => by
      obtain ⟨h', hrc, hco⟩ := h.step c (hk c List.mem_cons_self)
      -- the later calls see the same `RACACHE`
      have hk' : ∀ c' ∈ calls, c'.input.keeps (tls_step s c).1.racache := fun c' hc' =>
        hrc ▸ hk c' (List.mem_cons_of_mem _ hc')
      intro o ho
      rcases List.mem_cons.mp ho with rfl | ho
      · exact hco
      · exact tls_run_coherent_of_keeps calls h' hk' o ho

end Renewal

/-! ## §5. Across a renewal: the configuration of the old key. -/

/-- The credential endorsed at enclave start. -/
def credential_a : RACredential := ⟨[0xA1], [0xA2], [0xA3]⟩

/-- The credential of the renewal a day later. -/
def credential_b : RACredential := ⟨[0xB1], [0xB2], [0xB3]⟩

/-- A day, in nanoseconds. -/
def one_day : Nat := 86400 * NANOS_PER_SEC

/-- Two calls within the credential's day renew nothing, and return only
    coherent configurations. -/
theorem tls_run_coherent_same_day :
    (tls_run (tls_init ⟨credential_a, 0, one_day⟩ : TlsState String)
        [.client "server-verifier" ⟨0, .error .RAInternalError, true, true, true⟩,
         .client "server-verifier" ⟨1, .ok credential_b, true, true, true⟩]).2.Forall
      TlsOutcome.coherent :=
  List.forall_iff_forall_mem.mpr (tls_run_coherent_of_keeps _ (cachesCurrent_init _) (by
    intro c hc
    simp only [List.mem_cons, List.not_mem_nil, or_false] at hc
    rcases hc with rfl | rfl <;> exact .inl rfl))

/-- A client connects to the IAS-verified server at start, and again a day
    later, when the credential has expired and its renewal succeeds. -/
def renewal_calls : List (TlsCall String) :=
  [.client "server-verifier" ⟨0, .error .RAInternalError, true, true, true⟩,
   .client "server-verifier" ⟨one_day, .ok credential_b, true, true, true⟩]

/-- **The cache returns the old key's configuration after a renewal.**  The
    second call fetches `credential_b`, but the read path finds the entry the
    first call cached and returns the configuration of `credential_a`. -/
theorem client_config_stale_after_renewal :
    ∃ racache, prelude 0 (.ok credential_a) = .ok racache ∧
      (tls_run (tls_init racache) renewal_calls).2 =
        [.client credential_a (new_client_config credential_a "server-verifier"),
         .client credential_b (new_client_config credential_a "server-verifier")] ∧
      ¬ (TlsOutcome.client credential_b
          (new_client_config credential_a "server-verifier")).coherent := by
  refine ⟨⟨credential_a, 0, one_day⟩, rfl, rfl, ?_⟩
  intro h
  have hcert := congrArg ClientConfig.certs h
  simp [new_client_config, credential_a, credential_b] at hcert

end Teaclave.Rpc
