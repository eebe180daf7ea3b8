/-
  Teaclave.Kms.Service
  ────────────────────
  **THE KEY MANAGEMENT SERVICE, AND TDFS WITH IT.**

  `kms/sgx_trusted_lib/src/kms.rs` keeps every file key in `KEY_STORE`, a
  `Memdb` opened with two fake records.  `create_key` draws a config and a
  uuid and refuses a uuid that is taken; `del_key` removes a key; `get_key`
  reads one.

  TDFS reaches it through `KMSClient`: `KMSClient::new` connects, the
  request travels to the KMS, the KMS handles it, and the response travels
  back.  A failure before the KMS reads the request leaves `KEY_STORE` as it
  was; a failure on the way back comes after the KMS has written it.

  `Tdfs.Service` translates the TDFS handlers with the KMS's answer as an
  argument.  §3 closes the loop: the handlers with the KMS call they make,
  over the stores of both enclaves, so that what a request leaves behind in
  each can be compared.  The create handlers are `create_file` and
  `internal_create_file` fed the KMS's answer; the delete handler, which
  calls the KMS after it has changed its own stores, is translated whole and
  shown to be `delete_file` on the answer it got (`delete_file_with_kms_eq`).
-/
import Teaclave.Tdfs.Service

namespace Teaclave.Kms

open Teaclave.Core Teaclave.Tdfs

/-! ## §1. `KEY_STORE` and the handlers. -/

/-- The static of `kms.rs`. -/
structure KmsState where
  KEY_STORE : Memdb String KeyConfig

/-- The record `KEY_STORE` is opened with: 32, 12 and 5 bytes of `65`. -/
def fake_record : KeyConfig :=
  .Aead ⟨List.replicate 32 65, List.replicate 12 65, List.replicate 5 65⟩

/-- The KMS enclave at start. -/
def kms_init : KmsState :=
  ⟨(Memdb.open.set "fake_kms_record" fake_record).set "fake_kms_record_to_be_deleted" fake_record⟩

/-- `kms_proto::EncType`. -/
inductive EncType where
  | Aead
  | ProtectedFs
  deriving DecidableEq, Repr

/-- What `create_key` draws: the bytes `rng.fill_bytes` writes into a new
    AEAD or protected-FS config, and `Uuid::new_v4()`. -/
structure KeyDraw where
  aead : AeadConfig
  protected_fs : List UInt8
  key_id : String
  deriving DecidableEq, Repr

/-- `KeyConfig::new_aead_config` or `new_protected_fs_config`, by `enc_type`. -/
def new_config (draw : KeyDraw) : EncType → KeyConfig
  | .Aead => .Aead draw.aead
  | .ProtectedFs => .ProtectedFs draw.protected_fs

/-- `get_key`. -/
def get_key (s : KmsState) (key_id : String) : Result KeyConfig :=
  match s.KEY_STORE.get key_id with
  | none => .error .MissingValue
  | some key_config => .ok key_config

/-- `del_key`: the key leaves the store, and its config is returned
    (`MissingValue` when there was none). -/
def del_key (s : KmsState) (key_id : String) : KmsState × Result KeyConfig :=
  let (db, old) := s.KEY_STORE.del key_id
  match old with
  | none => (⟨db⟩, .error .MissingValue)
  | some key_config => (⟨db⟩, .ok key_config)

/-- `create_key`: a uuid already in the store is refused with `UUIDError`;
    otherwise the new config is stored under it. -/
def create_key (s : KmsState) (enc_type : EncType) (draw : KeyDraw) :
    KmsState × Result (String × KeyConfig) :=
  let config := new_config draw enc_type
  match s.KEY_STORE.get draw.key_id with
  | some _ => (s, .error .UUIDError)
  | none => (⟨s.KEY_STORE.set draw.key_id config⟩, .ok (draw.key_id, config))

/-- `del_key` always removes the key, found or not. -/
@[simp] theorem del_key_fst (s : KmsState) (key_id : String) :
    (del_key s key_id).1 = ⟨(s.KEY_STORE.del key_id).1⟩ := by
  unfold del_key
  cases s.KEY_STORE.del key_id with
  | mk db old => cases old <;> rfl

/-- A failed `del_key` had nothing to delete, and leaves the store as it was. -/
theorem del_key_error {s s' : KmsState} {key_id : String} {e : ErrorKind}
    (h : del_key s key_id = (s', .error e)) : s' = s := by
  unfold del_key at h
  cases hg : s.KEY_STORE.get key_id with
  | none =>
      simp only [Memdb.del_snd, hg, Prod.mk.injEq] at h
      rw [← h.1, Memdb.del_fst_of_get_none hg]
  | some c => simp [hg] at h

/-- A created key is in the store, with the config returned. -/
theorem create_key_ok {s s' : KmsState} {enc_type : EncType} {draw : KeyDraw}
    {key_id : String} {config : KeyConfig}
    (h : create_key s enc_type draw = (s', .ok (key_id, config))) :
    s'.KEY_STORE.get key_id = some config := by
  unfold create_key at h
  cases hg : s.KEY_STORE.get draw.key_id with
  | some _ => simp [hg] at h
  | none =>
      simp only [hg, Prod.mk.injEq, Except.ok.injEq] at h
      obtain ⟨rfl, rfl, rfl⟩ := h
      simp

/-- A refused `create_key` leaves the store as it was. -/
theorem create_key_error {s s' : KmsState} {enc_type : EncType} {draw : KeyDraw} {e : ErrorKind}
    (h : create_key s enc_type draw = (s', .error e)) : s' = s := by
  unfold create_key at h
  cases hg : s.KEY_STORE.get draw.key_id with
  | some _ =>
      simp only [hg, Prod.mk.injEq] at h
      exact h.1.symm
  | none => simp [hg] at h

/-! ## §2. A call of `KMSClient`. -/

/-- What the transport does during one call: `KMSClient::new`, the request
    on its way to the KMS, the response on its way back. -/
structure KmsLink where
  connect : Result Unit
  request : Result Unit
  response : Result Unit
  deriving DecidableEq, Repr

/-- A link on which nothing fails. -/
def KmsLink.up : KmsLink := ⟨.ok (), .ok (), .ok ()⟩

/-- One call, its handler `handle` run by the KMS once the request arrives. -/
def kms_call {α : Type} (s : KmsState) (link : KmsLink) (handle : KmsState → KmsState × Result α) :
    KmsState × Result α :=
  match link.connect, link.request with
  | .error e, _ => (s, .error e)
  | .ok (), .error e => (s, .error e)
  | .ok (), .ok () =>
      match link.response with
      | .error e => ((handle s).1, .error e)
      | .ok () => handle s

/-- **What a call does**: the KMS's store is the one the handler left, or the
    one before when the request never arrived; an `Ok` answer is the
    handler's, on the store it left. -/
theorem kms_call_cases {α : Type} (s : KmsState) (link : KmsLink)
    (handle : KmsState → KmsState × Result α) :
    (kms_call s link handle = (s, (kms_call s link handle).2) ∧
        ∃ e, (kms_call s link handle).2 = .error e) ∨
      ((kms_call s link handle).1 = (handle s).1 ∧
        ((kms_call s link handle).2 = (handle s).2 ∨ ∃ e, (kms_call s link handle).2 = .error e)) := by
  unfold kms_call
  rcases link with ⟨_ | ⟨⟨⟩⟩, _ | ⟨⟨⟩⟩, _ | ⟨⟨⟩⟩⟩ <;> simp

/-- An `Ok` answer is the handler's. -/
theorem kms_call_ok {α : Type} {s s' : KmsState} {link : KmsLink}
    {handle : KmsState → KmsState × Result α} {a : α} (h : kms_call s link handle = (s', .ok a)) :
    handle s = (s', .ok a) := by
  rcases kms_call_cases s link handle with ⟨-, e, he⟩ | ⟨h1, h2 | ⟨e, he⟩⟩
  · rw [h] at he
    cases he
  · rw [h] at h1 h2
    rw [Prod.ext_iff]
    exact ⟨h1.symm, h2.symm⟩
  · rw [h] at he
    cases he

/-! ## §3. The TDFS handlers with the KMS they call. -/

/-- The stores of the TDFS and KMS enclaves. -/
structure Stores where
  tdfs : TdfsState
  kms : KmsState

/-- Both enclaves at start. -/
def stores_init : Stores := ⟨tdfs_init, kms_init⟩

/-- `CreateFileRequest::handle_request` (external): once `verify_user` has
    passed, `create_key` for an AEAD key; the rest is `create_file` on the
    KMS's answer. -/
def create_file_with_kms (st : Stores) (req : CreateFileRequest) (link : KmsLink) (draw : KeyDraw)
    (uuid : String) : Stores × Option (Result DFSResponse) :=
  if verify_user req.user_id req.user_token = false then (st, some (.error .PermissionDenied))
  else
    let (kms, answer) := kms_call st.kms link (fun k => create_key k .Aead draw)
    let (tdfs, r) := create_file st.tdfs req answer uuid
    (⟨tdfs, kms⟩, r)

/-- `CreateFileRequest::handle_request` (internal): `create_key` first. -/
def internal_create_file_with_kms (st : Stores) (req : InternalCreateFileRequest) (link : KmsLink)
    (draw : KeyDraw) (uuid : String) : Stores × Option (Result InternalDFSResponse) :=
  let (kms, answer) := kms_call st.kms link (fun k => create_key k .Aead draw)
  let (tdfs, r) := internal_create_file st.tdfs req answer uuid
  (⟨tdfs, kms⟩, r)

/-- `DeleteFileRequest::handle_request`: the owner's checks, `del_file`, and
    then `del_key` for the file's key. -/
def delete_file_with_kms (st : Stores) (req : FileRequest) (link : KmsLink) :
    Stores × Option (Result DFSResponse) :=
  if verify_user req.user_id req.user_token = false then (st, some (.error .PermissionDenied))
  else
    match st.tdfs.FILE_STORE.get req.file_id with
    | none => (st, some (.error .MissingValue))
    | some file_meta =>
        if file_meta.user_id ≠ req.user_id then (st, some (.error .PermissionDenied))
        else
          let (tdfs, r) := del_file st.tdfs req.file_id
          match r with
          | .error e => (⟨tdfs, st.kms⟩, some (.error e))
          | .ok _ =>
              let (kms, answer) := kms_call st.kms link (fun k => del_key k file_meta.key_id)
              match answer with
              | .error e => (⟨tdfs, kms⟩, some (.error e))
              | .ok (.ProtectedFs _) => (⟨tdfs, kms⟩, none)
              | .ok (.Aead key_config) =>
                  (⟨tdfs, kms⟩, some (.ok (.Delete (file_info_of file_meta key_config))))

/-- **The delete handler is `delete_file` on the KMS's answer**: its TDFS
    stores and its result are those `Tdfs.Service` gives when the KMS
    answers as it did. -/
theorem delete_file_with_kms_eq (st : Stores) (req : FileRequest) (link : KmsLink) :
    ∃ answer, delete_file st.tdfs req answer =
      ((delete_file_with_kms st req link).1.tdfs, (delete_file_with_kms st req link).2) := by
  unfold delete_file_with_kms delete_file
  split_ifs with hv
  · exact ⟨.error .Unknown, rfl⟩
  · cases hg : st.tdfs.FILE_STORE.get req.file_id with
    | none => exact ⟨.error .Unknown, rfl⟩
    | some file_meta =>
        simp only
        split_ifs with ho
        · exact ⟨.error .Unknown, rfl⟩
        · cases hd : (del_file st.tdfs req.file_id).2 with
          | error e => exact ⟨.error .Unknown, rfl⟩
          | ok old =>
              refine ⟨(kms_call st.kms link fun k => del_key k file_meta.key_id).2, ?_⟩
              rcases (kms_call st.kms link fun k => del_key k file_meta.key_id).2 with
                e | ⟨c⟩ | ⟨c⟩ <;> rfl

/-! ## §4. What a request leaves in the two enclaves. -/

/-- `add_file` writes the metadata under the file id. -/
@[simp] theorem add_file_get_self (s : TdfsState) (file_id : String) (file_meta : FileMeta) :
    (add_file s file_id file_meta).FILE_STORE.get file_id = some file_meta := by
  simp [add_file]

/-- `del_file` removes the metadata, found or not. -/
@[simp] theorem del_file_get_self (s : TdfsState) (file_id : String) :
    (del_file s file_id).1.FILE_STORE.get file_id = none := by
  unfold del_file
  cases h : (s.FILE_STORE.del file_id).2 <;> simp_all

/-- `del_file` of stored metadata returns it. -/
theorem del_file_of_get {s : TdfsState} {file_id : String} {file_meta : FileMeta}
    (h : s.FILE_STORE.get file_id = some file_meta) :
    del_file s file_id = ((del_file s file_id).1, .ok file_meta) := by
  unfold del_file
  simp [h]

/-- **A created file and its key are both stored**: the metadata under the
    new file id, and under its key id the AEAD key the response carries. -/
theorem create_file_with_kms_ok {st st' : Stores} {req : CreateFileRequest} {link : KmsLink}
    {draw : KeyDraw} {uuid file_id access_path : String} {key_config : AeadConfig}
    (h : create_file_with_kms st req link draw uuid =
      (st', some (.ok (.Create file_id access_path key_config)))) :
    ∃ file_meta, st'.tdfs.FILE_STORE.get file_id = some file_meta ∧
      st'.kms.KEY_STORE.get file_meta.key_id = some (.Aead key_config) := by
  unfold create_file_with_kms at h
  split_ifs at h with hv
  · simp at h
  cases hk : kms_call st.kms link (fun k => create_key k .Aead draw) with
  | mk kms answer =>
      simp only [hk, create_file, hv] at h
      -- only an AEAD key from the KMS, and a free uuid, reach `Ok`
      rcases answer with e | ⟨key_id, c | c⟩
      · simp at h
      · simp only [store_new_file] at h
        cases hg : st.tdfs.FILE_STORE.get uuid with
        | some _ => simp [hg, Except.map] at h
        | none =>
            simp only [hg, Prod.mk.injEq, Except.map] at h
            obtain ⟨rfl, rfl, -, rfl⟩ := h
            exact ⟨_, add_file_get_self _ _ _, create_key_ok (kms_call_ok hk)⟩
      · simp at h

/-- **A deleted file and its key are both gone**: the metadata from
    `FILE_STORE`, and the file's key from `KEY_STORE`. -/
theorem delete_file_with_kms_ok {st st' : Stores} {req : FileRequest} {link : KmsLink}
    {file_info : FileInfo}
    (h : delete_file_with_kms st req link = (st', some (.ok (.Delete file_info)))) :
    ∃ file_meta, st.tdfs.FILE_STORE.get req.file_id = some file_meta ∧
      st'.tdfs.FILE_STORE.get req.file_id = none ∧ st'.kms.KEY_STORE.get file_meta.key_id = none := by
  unfold delete_file_with_kms at h
  split_ifs at h with hv
  · simp at h
  cases hg : st.tdfs.FILE_STORE.get req.file_id with
  | none => simp [hg] at h
  | some file_meta =>
      simp only [hg] at h
      split_ifs at h with ho
      · simp at h
      rw [del_file_of_get hg] at h
      cases hk : kms_call st.kms link (fun k => del_key k file_meta.key_id) with
      | mk kms answer =>
          simp only [hk] at h
          -- only an AEAD key deleted by the KMS reaches `Ok`
          rcases answer with e | ⟨c | c⟩
          · simp at h
          · simp only [Prod.mk.injEq] at h
            obtain ⟨rfl, -⟩ := h
            refine ⟨file_meta, rfl, del_file_get_self _ _, ?_⟩
            have hkms := congrArg Prod.fst (kms_call_ok hk)
            simp only at hkms ⊢
            rw [← hkms, del_key_fst]
            exact Memdb.get_del_self _ _
          · simp at h

/-- `create_file` changes the TDFS stores only when it answers `Ok`. -/
theorem create_file_fst_of_error {s : TdfsState} {req : CreateFileRequest}
    {kms : KmsAnswer (String × KeyConfig)} {uuid : String} {e : ErrorKind}
    (h : (create_file s req kms uuid).2 = some (.error e)) : (create_file s req kms uuid).1 = s := by
  unfold create_file at h ⊢
  split_ifs at h ⊢
  · rfl
  rcases kms with e' | ⟨key_id, c | c⟩
  · rfl
  · -- a taken uuid is the only error after the KMS's answer
    simp only [store_new_file] at h ⊢
    cases hg : s.FILE_STORE.get uuid with
    | some _ => rfl
    | none => simp [hg, Except.map] at h
  · rfl

/-- **What a failed create leaves behind**: the TDFS stores as they were,
    and in the KMS nothing, or the key `create_key` made. -/
theorem create_file_with_kms_error {st : Stores} {req : CreateFileRequest} {link : KmsLink}
    {draw : KeyDraw} {uuid : String} {e : ErrorKind}
    (h : (create_file_with_kms st req link draw uuid).2 = some (.error e)) :
    (create_file_with_kms st req link draw uuid).1.tdfs = st.tdfs ∧
      ((create_file_with_kms st req link draw uuid).1.kms = st.kms ∨
        (create_file_with_kms st req link draw uuid).1.kms = (create_key st.kms .Aead draw).1) := by
  unfold create_file_with_kms at h ⊢
  split_ifs at h ⊢
  · exact ⟨rfl, .inl rfl⟩
  have hcall := kms_call_cases st.kms link (fun k => create_key k .Aead draw)
  cases hk : kms_call st.kms link (fun k => create_key k .Aead draw) with
  | mk kms answer =>
      simp only [hk] at h hcall ⊢
      refine ⟨create_file_fst_of_error h, ?_⟩
      rcases hcall with ⟨hs, -⟩ | ⟨hs, -⟩
      · exact .inl (congrArg Prod.fst hs)
      · exact .inr hs

/-- **What a failed delete leaves behind**: both enclaves as they were, or,
    once the owner's checks passed, the metadata deleted and in the KMS
    nothing or the file's key deleted. -/
theorem delete_file_with_kms_error {st : Stores} {req : FileRequest} {link : KmsLink} {e : ErrorKind}
    (h : (delete_file_with_kms st req link).2 = some (.error e)) :
    (delete_file_with_kms st req link).1 = st ∨
      ∃ file_meta, st.tdfs.FILE_STORE.get req.file_id = some file_meta ∧
        (delete_file_with_kms st req link).1.tdfs = (del_file st.tdfs req.file_id).1 ∧
        ((delete_file_with_kms st req link).1.kms = st.kms ∨
          (delete_file_with_kms st req link).1.kms = (del_key st.kms file_meta.key_id).1) := by
  unfold delete_file_with_kms at h ⊢
  split_ifs at h ⊢
  · exact .inl rfl
  cases hg : st.tdfs.FILE_STORE.get req.file_id with
  | none => exact .inl (by simp)
  | some file_meta =>
      simp only [hg] at h ⊢
      split_ifs at h ⊢
      · exact .inl rfl
      rw [del_file_of_get hg] at h ⊢
      refine .inr ⟨file_meta, rfl, ?_⟩
      have hcall := kms_call_cases st.kms link (fun k => del_key k file_meta.key_id)
      cases hk : kms_call st.kms link (fun k => del_key k file_meta.key_id) with
      | mk kms answer =>
          simp only [hk] at h hcall ⊢
          have hkms : kms = st.kms ∨ kms = (del_key st.kms file_meta.key_id).1 := by
            rcases hcall with ⟨hs, -⟩ | ⟨hs, -⟩
            · exact .inl (congrArg Prod.fst hs)
            · exact .inr hs
          rcases answer with e' | ⟨c | c⟩ <;> exact ⟨rfl, hkms⟩

/-- A link whose connection is refused. -/
def refused_link : KmsLink := ⟨.error .ConnectionRefused, .ok (), .ok ()⟩

/-- A draw whose key id the KMS does not hold. -/
def fresh_draw : KeyDraw :=
  ⟨⟨List.replicate 32 1, List.replicate 12 2, List.replicate 5 3⟩, [], "new_key"⟩

/-- A create on the start state with the KMS up: the file and its key are
    stored. -/
theorem create_file_with_kms_ok_fresh :
    ∃ file_meta,
      (create_file_with_kms stores_init ⟨"f", "h", 1, "alice", "token"⟩ KmsLink.up fresh_draw
          "new_file").1.tdfs.FILE_STORE.get "new_file" = some file_meta ∧
        (create_file_with_kms stores_init ⟨"f", "h", 1, "alice", "token"⟩ KmsLink.up fresh_draw
          "new_file").1.kms.KEY_STORE.get file_meta.key_id =
          some (.Aead ⟨List.replicate 32 1, List.replicate 12 2, List.replicate 5 3⟩) :=
  @create_file_with_kms_ok stores_init _ ⟨"f", "h", 1, "alice", "token"⟩ KmsLink.up fresh_draw
    "new_file" "new_file" "new_file" _ (Prod.ext rfl (by decide))

/-- Its owner deletes `fake_file_to_be_deleted` with the KMS up: the
    metadata and the key are both gone. -/
theorem delete_file_with_kms_ok_owner :
    ∃ file_meta, stores_init.tdfs.FILE_STORE.get "fake_file_to_be_deleted" = some file_meta ∧
      (delete_file_with_kms stores_init ⟨"fake_file_to_be_deleted", "fake_file_owner", "token"⟩
          KmsLink.up).1.tdfs.FILE_STORE.get "fake_file_to_be_deleted" = none ∧
      (delete_file_with_kms stores_init ⟨"fake_file_to_be_deleted", "fake_file_owner", "token"⟩
          KmsLink.up).1.kms.KEY_STORE.get file_meta.key_id = none :=
  @delete_file_with_kms_ok stores_init _ ⟨"fake_file_to_be_deleted", "fake_file_owner", "token"⟩
    KmsLink.up ⟨"fake_file_owner", "fake_file", "aaa", 100, "fake_file", none, ["fake"],
      ⟨List.replicate 32 65, List.replicate 12 65, List.replicate 5 65⟩⟩
    (Prod.ext rfl (by decide))

/-- A create whose uuid is taken leaves TDFS as it was. -/
theorem create_file_with_kms_error_taken :
    (create_file_with_kms stores_init ⟨"f", "h", 1, "alice", "token"⟩ KmsLink.up fresh_draw
        "fake_file_record").1.tdfs = stores_init.tdfs :=
  (create_file_with_kms_error (e := .UUIDError) (by decide)).1

/-- A delete whose KMS connection is refused: the stores as they were, or
    the metadata deleted and the KMS as it was or without the file's key. -/
theorem delete_file_with_kms_error_refused :
    (delete_file_with_kms stores_init ⟨"fake_file_to_be_deleted", "fake_file_owner", "token"⟩
        refused_link).1 = stores_init ∨
      ∃ file_meta, stores_init.tdfs.FILE_STORE.get "fake_file_to_be_deleted" = some file_meta ∧
        (delete_file_with_kms stores_init ⟨"fake_file_to_be_deleted", "fake_file_owner", "token"⟩
            refused_link).1.tdfs = (del_file stores_init.tdfs "fake_file_to_be_deleted").1 ∧
        ((delete_file_with_kms stores_init ⟨"fake_file_to_be_deleted", "fake_file_owner", "token"⟩
            refused_link).1.kms = stores_init.kms ∨
          (delete_file_with_kms stores_init ⟨"fake_file_to_be_deleted", "fake_file_owner", "token"⟩
            refused_link).1.kms = (del_key stores_init.kms file_meta.key_id).1) :=
  delete_file_with_kms_error (e := .ConnectionRefused) (by decide)

/-- **TDFS requests are not atomic across the two enclaves.**  The owner of
    `fake_file_to_be_deleted` deletes it while the KMS refuses the
    connection: `Err`, yet the metadata is gone.  And a create whose uuid is
    taken by `fake_file_record`: `Err`, yet the KMS holds a new key. -/
theorem tdfs_kms_not_atomic :
    (delete_file_with_kms stores_init ⟨"fake_file_to_be_deleted", "fake_file_owner", "token"⟩
        refused_link).2 = some (.error .ConnectionRefused) ∧
      stores_init.tdfs.FILE_STORE.get "fake_file_to_be_deleted" ≠ none ∧
      (delete_file_with_kms stores_init ⟨"fake_file_to_be_deleted", "fake_file_owner", "token"⟩
        refused_link).1.tdfs.FILE_STORE.get "fake_file_to_be_deleted" = none ∧
      (create_file_with_kms stores_init ⟨"f", "h", 1, "alice", "token"⟩ KmsLink.up fresh_draw
        "fake_file_record").2 = some (.error .UUIDError) ∧
      stores_init.kms.KEY_STORE.get "new_key" = none ∧
      (create_file_with_kms stores_init ⟨"f", "h", 1, "alice", "token"⟩ KmsLink.up fresh_draw
        "fake_file_record").1.kms.KEY_STORE.get "new_key" ≠ none := by
  decide

end Teaclave.Kms
