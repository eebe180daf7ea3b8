/-
  Teaclave.Tdfs.Service
  ─────────────────────
  **THE TRUSTED DISTRIBUTED FILE SYSTEM: ITS STORES AND ITS HANDLERS.**

  `tdfs/sgx_trusted_lib/src/data_store.rs` keeps each file's metadata in
  `FILE_STORE` and, per user, the set of file ids the user may list in
  `USER_FILE_STORE`.  `add_file` stores the metadata, then files the id under
  the owner and, for `allow_policy == 1`, under every collaborator;
  `del_file` removes the metadata and takes the id out of the same sets.

  The handlers of `tdfs_external.rs` and `tdfs_internal.rs` are translated as
  the sequential code they are, one call at a time: what the KMS answers and
  what `Uuid::new_v4` draws are their arguments.  A handler that reaches
  `unimplemented!()` (a `ProtectedFs` key config) panics: its outcome is
  `none`, and the stores keep what it did before.
-/
import Teaclave.Core.Basic

namespace Teaclave.Tdfs

open Teaclave.Core

/-! ## §1. File metadata and the stores. -/

/-- `FileMeta`. -/
structure FileMeta where
  user_id : String
  file_name : String
  sha256 : String
  file_size : UInt32
  key_id : String
  storage_path : String
  task_id : Option String
  /-- 0: owner, 1: owner and collaborators, 2: everyone. -/
  allow_policy : UInt32
  collaborator_list : List String
  deriving DecidableEq, Repr

/-- The statics of `data_store.rs` (`UPDATELOCK` only orders concurrent
    handlers; one call at a time does not need it). -/
structure TdfsState where
  USER_FILE_STORE : Memdb String (Finset String)
  FILE_STORE : Memdb String FileMeta

/-- `FileMeta::get_access_path`. -/
def FileMeta.get_access_path (file_meta : FileMeta) : String := file_meta.storage_path

/-- `FileMeta::check_permission`. -/
def FileMeta.check_permission (file_meta : FileMeta) (user_id : String) : Bool :=
  if file_meta.user_id = user_id ∨ file_meta.allow_policy = 2 then true
  else if file_meta.allow_policy = 1 then file_meta.collaborator_list.any (fun c => user_id = c)
  else false

/-- `verify_user`: every token but `"error_token"` passes. -/
def verify_user (_user_id user_token : String) : Bool :=
  if user_token = "error_token" then false else true

/-! ## §2. `data_store.rs`. -/

/-- `add_file_to_user`: insert the id into the user's set, or start one. -/
def add_file_to_user (db : Memdb String (Finset String)) (file_id user_id : String) :
    Memdb String (Finset String) :=
  match db.get user_id with
  | some set => db.set user_id (insert file_id set)
  | none => db.set user_id {file_id}

/-- `del_file_for_user`: take the id out of the user's set, if the user has one. -/
def del_file_for_user (db : Memdb String (Finset String)) (file_id user_id : String) :
    Memdb String (Finset String) :=
  match db.get user_id with
  | some set => db.set user_id (set.erase file_id)
  | none => db

/-- The users `add_file` and `del_file` file a file under: the owner, and the
    collaborators when `allow_policy == 1`. -/
def file_users (file_meta : FileMeta) : List String :=
  if file_meta.allow_policy = 1 then file_meta.user_id :: file_meta.collaborator_list
  else [file_meta.user_id]

/-- `add_file`: the metadata, then one `add_file_to_user` per user. -/
def add_file (s : TdfsState) (file_id : String) (file_meta : FileMeta) : TdfsState :=
  ⟨(file_users file_meta).foldl (fun db u => add_file_to_user db file_id u) s.USER_FILE_STORE,
    s.FILE_STORE.set file_id file_meta⟩

/-- `del_file`: remove the metadata (`MissingValue` if there was none), then
    one `del_file_for_user` per user. -/
def del_file (s : TdfsState) (file_id : String) : TdfsState × Result FileMeta :=
  let (fs, old) := s.FILE_STORE.del file_id
  match old with
  | none => (⟨s.USER_FILE_STORE, fs⟩, .error .MissingValue)
  | some file_meta =>
      (⟨(file_users file_meta).foldl (fun db u => del_file_for_user db file_id u) s.USER_FILE_STORE,
        fs⟩, .ok file_meta)

/-- The metadata `add_test_infomation` files at enclave start. -/
def test_file (key_id : String) (allow_policy : UInt32) (collaborator_list : List String) :
    FileMeta :=
  ⟨"fake_file_owner", "fake_file", "aaa", 100, key_id, "fake_file", none, allow_policy,
    collaborator_list⟩

/-- `add_test_infomation`, called by `handle_init_enclave`. -/
def add_test_infomation (s : TdfsState) : TdfsState :=
  let s := add_file s "fake_file_record" (test_file "fake_kms_record" 0 [])
  let s := add_file s "fake_file_without_key" (test_file "kms_record_none" 0 [])
  let s := add_file s "fake_file_with_collaborator" (test_file "kms_record_none" 1 ["fake"])
  add_file s "fake_file_to_be_deleted" (test_file "fake_kms_record_to_be_deleted" 1 ["fake"])

/-- The TDFS enclave after `handle_init_enclave`. -/
def tdfs_init : TdfsState := add_test_infomation ⟨Memdb.open, Memdb.open⟩

/-! ## §3. Keys, requests, responses. -/

/-- `proto::AeadConfig`. -/
structure AeadConfig where
  key : List UInt8
  nonce : List UInt8
  ad : List UInt8
  deriving DecidableEq, Repr

/-- `kms_proto::KeyConfig`, as `get_key_config()` returns it. -/
inductive KeyConfig where
  | Aead (config : AeadConfig)
  | ProtectedFs (key : List UInt8)
  deriving DecidableEq, Repr

/-- What a KMS call answers: the connection, the request and
    `get_key_config()` together (a created key comes with its id). -/
abbrev KmsAnswer (α : Type) := Result α

/-- `tdfs_external_proto::CreateFileRequest`. -/
structure CreateFileRequest where
  file_name : String
  sha256 : String
  file_size : UInt32
  user_id : String
  user_token : String
  deriving DecidableEq, Repr

/-- `tdfs_external_proto::GetFileRequest`, and the same shape for `DeleteFileRequest`. -/
structure FileRequest where
  file_id : String
  user_id : String
  user_token : String
  deriving DecidableEq, Repr

/-- `tdfs_external_proto::ListFileRequest`. -/
structure ListFileRequest where
  user_id : String
  user_token : String
  deriving DecidableEq, Repr

/-- `tdfs_external_proto::FileInfo`. -/
structure FileInfo where
  user_id : String
  file_name : String
  sha256 : String
  file_size : UInt32
  access_path : String
  task_id : Option String
  collaborator_list : List String
  key_config : AeadConfig
  deriving DecidableEq, Repr

/-- `tdfs_external_proto::DFSResponse` (a listed `HashSet` is kept as the set). -/
inductive DFSResponse where
  | Create (file_id access_path : String) (key_config : AeadConfig)
  | Get (file_info : FileInfo)
  | List (list : Finset String)
  | Delete (file_info : FileInfo)
  deriving DecidableEq

/-- `tdfs_internal_proto::CreateFileRequest`. -/
structure InternalCreateFileRequest where
  sha256 : String
  file_size : UInt32
  user_id : String
  task_id : String
  collaborator_list : List String
  allow_policy : UInt32
  deriving DecidableEq, Repr

/-- `tdfs_internal_proto::FileInfo`: the metadata as FNS and TMS read it. -/
structure InternalFileInfo where
  user_id : String
  file_name : String
  sha256 : String
  file_size : UInt32
  access_path : String
  task_id : Option String
  collaborator_list : List String
  allow_policy : UInt32
  key_id : String
  deriving DecidableEq, Repr

/-- `tdfs_internal_proto::DFSResponse`. -/
inductive InternalDFSResponse where
  | Create (file_id access_path : String) (key_config : AeadConfig)
  | Get (file_info : InternalFileInfo)
  deriving DecidableEq

/-! ## §4. `tdfs_external.rs`. -/

/-- The end of both creates: refuse an id that is taken, else `add_file`. -/
def store_new_file (s : TdfsState) (file_id : String) (file_meta : FileMeta) :
    TdfsState × Result Unit :=
  -- `if FILE_STORE.get(&file_id)?.is_some() { return Err(UUIDError) }`
  match s.FILE_STORE.get file_id with
  | some _ => (s, .error .UUIDError)
  | none => (add_file s file_id file_meta, .ok ())

/-- `CreateFileRequest::handle_request` (external): a key from the KMS, an id
    from `Uuid::new_v4`, an owner-only file. -/
def create_file (s : TdfsState) (req : CreateFileRequest) (kms : KmsAnswer (String × KeyConfig))
    (uuid : String) : TdfsState × Option (Result DFSResponse) :=
  if verify_user req.user_id req.user_token = false then (s, some (.error .PermissionDenied))
  else
    match kms with
    | .error e => (s, some (.error e))
    | .ok (_, .ProtectedFs _) => (s, none)
    | .ok (key_id, .Aead key_config) =>
        let file_meta : FileMeta :=
          ⟨req.user_id, req.file_name, req.sha256, req.file_size, key_id, uuid, none, 0, []⟩
        let (s', r) := store_new_file s uuid file_meta
        (s', some (r.map fun () => .Create uuid file_meta.get_access_path key_config))

/-- The `FileInfo` the external handlers answer with. -/
def file_info_of (file_meta : FileMeta) (key_config : AeadConfig) : FileInfo :=
  ⟨file_meta.user_id, file_meta.file_name, file_meta.sha256, file_meta.file_size,
    file_meta.get_access_path, file_meta.task_id, file_meta.collaborator_list, key_config⟩

/-- `GetFileRequest::handle_request` (external): a permitted user's view, with
    the key from the KMS. -/
def get_file (s : TdfsState) (req : FileRequest) (kms : KmsAnswer KeyConfig) :
    Option (Result DFSResponse) :=
  if verify_user req.user_id req.user_token = false then some (.error .PermissionDenied)
  else
    match s.FILE_STORE.get req.file_id with
    | none => some (.error .MissingValue)
    | some file_meta =>
        if file_meta.check_permission req.user_id = false then some (.error .PermissionDenied)
        else
          match kms with
          | .error e => some (.error e)
          | .ok (.ProtectedFs _) => none
          | .ok (.Aead key_config) => some (.ok (.Get (file_info_of file_meta key_config)))

/-- `DeleteFileRequest::handle_request`: only the owner deletes; the stores
    change before the KMS deletes the key. -/
def delete_file (s : TdfsState) (req : FileRequest) (kms : KmsAnswer KeyConfig) :
    TdfsState × Option (Result DFSResponse) :=
  if verify_user req.user_id req.user_token = false then (s, some (.error .PermissionDenied))
  else
    match s.FILE_STORE.get req.file_id with
    | none => (s, some (.error .MissingValue))
    | some file_meta =>
        if file_meta.user_id ≠ req.user_id then (s, some (.error .PermissionDenied))
        else
          let (s', r) := del_file s req.file_id
          match r with
          | .error e => (s', some (.error e))
          | .ok _ =>
              match kms with
              | .error e => (s', some (.error e))
              | .ok (.ProtectedFs _) => (s', none)
              | .ok (.Aead key_config) =>
                  (s', some (.ok (.Delete (file_info_of file_meta key_config))))

/-- `ListFileRequest::handle_request`: the caller's set, read without the lock. -/
def list_file (s : TdfsState) (req : ListFileRequest) : Result DFSResponse :=
  if verify_user req.user_id req.user_token = false then .error .PermissionDenied
  else .ok (.List ((s.USER_FILE_STORE.get req.user_id).getD ∅))

/-! ## §5. `tdfs_internal.rs`. -/

/-- `CreateFileRequest::handle_request` (internal): a task's output file, with
    the policy and collaborators FNS asks for. -/
def internal_create_file (s : TdfsState) (req : InternalCreateFileRequest)
    (kms : KmsAnswer (String × KeyConfig)) (uuid : String) :
    TdfsState × Option (Result InternalDFSResponse) :=
  match kms with
  | .error e => (s, some (.error e))
  | .ok (_, .ProtectedFs _) => (s, none)
  | .ok (key_id, .Aead key_config) =>
      let file_meta : FileMeta :=
        ⟨req.user_id, req.task_id, req.sha256, req.file_size, key_id, uuid, some req.task_id,
          req.allow_policy, req.collaborator_list⟩
      let (s', r) := store_new_file s uuid file_meta
      (s', some (r.map fun () => .Create uuid file_meta.get_access_path key_config))

/-- `GetFileRequest::handle_request` (internal): the metadata, unchecked. -/
def internal_get_file (s : TdfsState) (file_id : String) : Result InternalDFSResponse :=
  match s.FILE_STORE.get file_id with
  | none => .error .MissingValue
  | some m =>
      .ok (.Get ⟨m.user_id, m.file_name, m.sha256, m.file_size, m.get_access_path, m.task_id,
        m.collaborator_list, m.allow_policy, m.key_id⟩)

/-! ## §6. The service, one call at a time. -/

/-- One call to either TDFS enclave service, with what the KMS and
    `Uuid::new_v4` answer during it. -/
inductive TdfsCall where
  | create (req : CreateFileRequest) (kms : KmsAnswer (String × KeyConfig)) (uuid : String)
  | get (req : FileRequest) (kms : KmsAnswer KeyConfig)
  | delete (req : FileRequest) (kms : KmsAnswer KeyConfig)
  | list (req : ListFileRequest)
  | internal_create (req : InternalCreateFileRequest) (kms : KmsAnswer (String × KeyConfig))
      (uuid : String)
  | internal_get (file_id : String)

/-- The stores after one call (a panic keeps what the handler did before it). -/
def tdfs_step (s : TdfsState) : TdfsCall → Option TdfsState
  | .create req kms uuid => some (create_file s req kms uuid).1
  | .delete req kms => some (delete_file s req kms).1
  | .internal_create req kms uuid => some (internal_create_file s req kms uuid).1
  | .get _ _ | .list _ | .internal_get _ => some s

/-! ## §7. The internal client (`tdfs_internal_client::TDFSClient`). -/

/-- `TDFSClient::check_permission`: the client's own copy of the policy, on
    the `FileInfo` the internal `GetFileRequest` returns. -/
def client_check_permission (file_info : InternalFileInfo) (user : String) : Bool :=
  if file_info.user_id = user ∨ file_info.allow_policy = 2 then true
  else if file_info.allow_policy = 1 then file_info.collaborator_list.any (fun c => user = c)
  else false

/-- `TDFSClient::check_access_permission`: the internal `GetFileRequest`, then
    the client's check. -/
def check_access_permission (s : TdfsState) (file_id user_id : String) : Result Bool :=
  match internal_get_file s file_id with
  | .error e => .error e
  | .ok (.Get file_info) => .ok (client_check_permission file_info user_id)
  | .ok _ => .error .RPCResponseError

/-- `TDFSClient::read_file`: the internal `GetFileRequest`, the check for
    `user_to_check` (`none`: no check), then what the KMS, the file system and
    decryption answer (`rest`; the contents are not modelled). -/
def client_read_file (s : TdfsState) (file_id : String) (user_to_check : Option String)
    (rest : Result Unit) : Result Unit :=
  match internal_get_file s file_id with
  | .error e => .error e
  | .ok (.Get file_info) =>
      let accessible :=
        match user_to_check with
        | some user_id => client_check_permission file_info user_id
        | none => true
      if accessible = false then .error .PermissionDenied else rest
  | .ok _ => .error .RPCResponseError

/-- **The two copies of the policy agree**: the client's check on the
    `FileInfo` the internal `GetFileRequest` returns is `FileMeta::check_permission`
    on the stored metadata, for every user. -/
theorem client_check_permission_agrees {s : TdfsState} {file_id : String}
    {file_info : InternalFileInfo} (h : internal_get_file s file_id = .ok (.Get file_info)) :
    ∃ file_meta, s.FILE_STORE.get file_id = some file_meta ∧
      ∀ user, client_check_permission file_info user = file_meta.check_permission user := by
  unfold internal_get_file at h
  cases hg : s.FILE_STORE.get file_id with
  | none => simp [hg] at h
  | some file_meta =>
      simp only [hg, Except.ok.injEq, InternalDFSResponse.Get.injEq] at h
      subst h
      exact ⟨file_meta, rfl, fun user => rfl⟩

/-- A read checked for `user_id` succeeds only on a stored file whose
    metadata lets the user read it. -/
theorem client_read_file_checked {s : TdfsState} {file_id user_id : String} {rest : Result Unit}
    (h : client_read_file s file_id (some user_id) rest = .ok ()) :
    ∃ file_meta, s.FILE_STORE.get file_id = some file_meta ∧
      file_meta.check_permission user_id = true := by
  unfold client_read_file at h
  split at h
  · cases h
  · rename_i file_info hget
    obtain ⟨file_meta, hg, hagree⟩ := client_check_permission_agrees hget
    refine ⟨file_meta, hg, ?_⟩
    rw [← hagree user_id]
    by_contra hne
    rw [Bool.not_eq_true] at hne
    rw [if_pos hne] at h
    cases h
  · cases h

/-- A check that says yes was made on a stored file whose metadata permits the user. -/
theorem check_access_permission_eq_true {s : TdfsState} {file_id user_id : String}
    (h : check_access_permission s file_id user_id = .ok true) :
    ∃ file_meta, s.FILE_STORE.get file_id = some file_meta ∧
      file_meta.check_permission user_id = true := by
  unfold check_access_permission at h
  split at h
  · cases h
  · rename_i file_info hget
    obtain ⟨file_meta, hg, hagree⟩ := client_check_permission_agrees hget
    simp only [Except.ok.injEq] at h
    exact ⟨file_meta, hg, (hagree user_id).symm.trans h⟩
  · cases h

end Teaclave.Tdfs
