/-
  Teaclave.Tdfs.Index
  ───────────────────
  **THE TDFS USER INDEX IS EXACT.**

  After any sequence of TDFS calls from enclave start, a user's set in
  `USER_FILE_STORE` holds exactly the stored files filed under the user:
  those the user owns, and, for `allow_policy == 1`, those listing the user
  as a collaborator.  So `ListFileRequest` only ever returns ids of stored
  files the caller is permitted to read.

  Proof shape: `IndexExact` is kept by `add_file` on a free id (the create
  handlers check the id first) and by `del_file` (§2); each handler either
  leaves the stores alone or is one of those (§3); `Reachable.invariant`
  carries it along every run (§4).
-/
import Teaclave.Lib.Interleaving
import Teaclave.Tdfs.Service

namespace Teaclave.Tdfs

open Teaclave.Core Teaclave.Lib

/-! ## §1. Sets after one write. -/

/-- A user's set of file ids (empty if absent). -/
def user_files (s : TdfsState) (u : String) : Finset String :=
  (s.USER_FILE_STORE.get u).getD ∅

/-- **The index is exact**: a user's set holds exactly the stored files filed
    under the user. -/
def IndexExact (s : TdfsState) : Prop :=
  ∀ u f, f ∈ user_files s u ↔
    ∃ file_meta, s.FILE_STORE.get f = some file_meta ∧ u ∈ file_users file_meta

theorem mem_file_users (file_meta : FileMeta) (u : String) :
    u ∈ file_users file_meta ↔
      file_meta.user_id = u ∨ (file_meta.allow_policy = 1 ∧ u ∈ file_meta.collaborator_list) := by
  unfold file_users
  split_ifs with hp
  · simp [hp, eq_comm]
  · simp [hp, eq_comm]

/-- Everyone a file is filed under may read it. -/
theorem check_permission_of_mem_file_users {file_meta : FileMeta} {u : String}
    (h : u ∈ file_users file_meta) : file_meta.check_permission u = true := by
  rcases (mem_file_users file_meta u).mp h with hown | ⟨hpol, hmem⟩
  · simp [FileMeta.check_permission, hown]
  · unfold FileMeta.check_permission
    by_cases hown : file_meta.user_id = u
    · simp [hown]
    · simp [hown, hpol, List.any_eq_true]
      exact hmem

theorem mem_add_file_to_user (db : Memdb String (Finset String)) (file_id u v f : String) :
    f ∈ ((add_file_to_user db file_id u).get v).getD ∅ ↔
      (v = u ∧ f = file_id) ∨ f ∈ (db.get v).getD ∅ := by
  unfold add_file_to_user
  by_cases hv : v = u
  · subst hv
    cases db.get v with
    | some set => simp
    | none => simp
  · cases db.get u with
    | some set => simp [hv]
    | none => simp [hv]

theorem mem_del_file_for_user (db : Memdb String (Finset String)) (file_id u v f : String) :
    f ∈ ((del_file_for_user db file_id u).get v).getD ∅ ↔
      f ∈ (db.get v).getD ∅ ∧ ¬(v = u ∧ f = file_id) := by
  unfold del_file_for_user
  by_cases hv : v = u
  · subst hv
    cases hg : db.get v with
    | some set => simp [and_comm]
    | none => simp [hg]
  · cases db.get u with
    | some set => simp [hv]
    | none => simp [hv]

/-- The loop of `add_file`: every user of the list gains the id. -/
theorem mem_foldl_add_file_to_user (file_id v f : String) :
    ∀ (us : List String) (db : Memdb String (Finset String)),
      f ∈ ((us.foldl (fun db u => add_file_to_user db file_id u) db).get v).getD ∅ ↔
        (v ∈ us ∧ f = file_id) ∨ f ∈ (db.get v).getD ∅
  | [], db => by simp
  | u :: us, db => by
      rw [List.foldl_cons, mem_foldl_add_file_to_user file_id v f us, mem_add_file_to_user]
      simp only [List.mem_cons]
      tauto

/-- The loop of `del_file`: every user of the list loses the id. -/
theorem mem_foldl_del_file_for_user (file_id v f : String) :
    ∀ (us : List String) (db : Memdb String (Finset String)),
      f ∈ ((us.foldl (fun db u => del_file_for_user db file_id u) db).get v).getD ∅ ↔
        f ∈ (db.get v).getD ∅ ∧ ¬(v ∈ us ∧ f = file_id)
  | [], db => by simp
  | u :: us, db => by
      rw [List.foldl_cons, mem_foldl_del_file_for_user file_id v f us, mem_del_file_for_user]
      simp only [List.mem_cons]
      tauto

/-! ## §2. `add_file` and `del_file` keep the index exact. -/

section Ops

variable {s : TdfsState}

/-- `add_file` on a free id files the id under exactly the file's users. -/
theorem IndexExact.add_file (h : IndexExact s) {file_id : String} {file_meta : FileMeta}
    (hfree : s.FILE_STORE.get file_id = none) : IndexExact (add_file s file_id file_meta) := by
  intro u f
  simp only [user_files, Tdfs.add_file]
  rw [mem_foldl_add_file_to_user, Memdb.get_set]
  change _ ∨ f ∈ user_files s u ↔ _
  rw [h u f]
  by_cases hf : f = file_id
  · -- the new file: nobody had it, since it was not stored
    subst hf
    simp [hfree]
  · simp [hf]

/-- `del_file` takes the id out of exactly the sets that held it. -/
theorem IndexExact.del_file (h : IndexExact s) (file_id : String) :
    IndexExact (del_file s file_id).1 := by
  unfold Tdfs.del_file
  cases hg : s.FILE_STORE.get file_id with
  | none =>
      intro u f
      simp only [Memdb.del_snd, hg]
      change f ∈ user_files s u ↔ _
      rw [h u f]
      by_cases hf : f = file_id
      · subst hf
        simp [hg]
      · simp [hf]
  | some file_meta =>
      intro u f
      simp only [Memdb.del_snd, hg, user_files]
      rw [mem_foldl_del_file_for_user]
      change f ∈ user_files s u ∧ _ ↔ _
      rw [h u f]
      by_cases hf : f = file_id
      · -- the deleted file: it was filed under exactly its users
        subst hf
        simp [hg]
      · simp [hf]

/-- The end of both creates keeps the index exact. -/
theorem IndexExact.store_new_file (h : IndexExact s) (file_id : String) (file_meta : FileMeta) :
    IndexExact (store_new_file s file_id file_meta).1 := by
  unfold Tdfs.store_new_file
  cases hg : s.FILE_STORE.get file_id with
  | some _ => exact h
  | none => exact h.add_file hg

end Ops

/-! ## §3. Every handler keeps the index exact. -/

section Handlers

variable {s : TdfsState}

theorem IndexExact.create_file (h : IndexExact s) (req : CreateFileRequest)
    (kms : KmsAnswer (String × KeyConfig)) (uuid : String) :
    IndexExact (create_file s req kms uuid).1 := by
  unfold Tdfs.create_file
  split_ifs
  · exact h
  · rcases kms with e | ⟨key_id, ⟨key_config⟩ | key⟩
    · exact h
    · exact h.store_new_file _ _
    · exact h

theorem IndexExact.internal_create_file (h : IndexExact s) (req : InternalCreateFileRequest)
    (kms : KmsAnswer (String × KeyConfig)) (uuid : String) :
    IndexExact (internal_create_file s req kms uuid).1 := by
  unfold Tdfs.internal_create_file
  rcases kms with e | ⟨key_id, ⟨key_config⟩ | key⟩
  · exact h
  · exact h.store_new_file _ _
  · exact h

theorem IndexExact.delete_file (h : IndexExact s) (req : FileRequest) (kms : KmsAnswer KeyConfig) :
    IndexExact (delete_file s req kms).1 := by
  unfold Tdfs.delete_file
  split_ifs
  · exact h
  · cases s.FILE_STORE.get req.file_id with
    | none => exact h
    | some file_meta =>
        -- past the owner check, the stores are those `del_file` left
        dsimp only
        split_ifs
        · exact h
        · have hd := h.del_file req.file_id
          rcases hr : (Tdfs.del_file s req.file_id).2 with e | _
          · simpa [hr] using hd
          · rcases kms with e | ⟨key_config⟩ | key <;> simpa [hr] using hd

/-- **One call keeps the index exact.** -/
theorem IndexExact.step (h : IndexExact s) {c : TdfsCall} {s' : TdfsState}
    (hs : tdfs_step s c = some s') : IndexExact s' := by
  cases c with
  | create req kms uuid =>
      cases hs
      exact h.create_file req kms uuid
  | delete req kms =>
      cases hs
      exact h.delete_file req kms
  | internal_create req kms uuid =>
      cases hs
      exact h.internal_create_file req kms uuid
  | get req kms => cases hs; exact h
  | list req => cases hs; exact h
  | internal_get file_id => cases hs; exact h

end Handlers

/-! ## §4. Every run. -/

/-- The empty stores are exact. -/
theorem indexExact_empty : IndexExact ⟨Memdb.open, Memdb.open⟩ := by
  intro u f
  simp [user_files]

/-- The test files `handle_init_enclave` adds keep the index exact: their four
    ids are distinct. -/
theorem indexExact_init : IndexExact tdfs_init := by
  unfold tdfs_init add_test_infomation
  refine (((indexExact_empty.add_file rfl).add_file ?_).add_file ?_).add_file ?_
  · simp [Tdfs.add_file]
  · simp [Tdfs.add_file]
  · simp [Tdfs.add_file]

/-- **The TDFS user index is exact.**  After any sequence of calls to the
    TDFS services from enclave start, every user's set holds exactly the
    stored files the user owns or, under `allow_policy == 1`, collaborates
    on; and every id `ListFileRequest` returns names a stored file the caller
    may read. -/
theorem tdfs_user_index_exact (calls : List TdfsCall) (s : TdfsState)
    (hrun : run tdfs_step tdfs_init calls = some s) :
    (∀ u f, f ∈ (s.USER_FILE_STORE.get u).getD ∅ ↔
      ∃ file_meta, s.FILE_STORE.get f = some file_meta ∧
        (file_meta.user_id = u ∨
          (file_meta.allow_policy = 1 ∧ u ∈ file_meta.collaborator_list))) ∧
    (∀ req ids, list_file s req = .ok (.List ids) →
      ∀ f ∈ ids, ∃ file_meta, s.FILE_STORE.get f = some file_meta ∧
        file_meta.check_permission req.user_id = true) := by
  have hexact : IndexExact s :=
    (Reachable.of_run hrun).invariant indexExact_init (fun _ _ _ _ hi hs => hi.step hs)
  refine ⟨fun u f => ?_, fun req ids hlist f hf => ?_⟩
  · simpa only [user_files, mem_file_users] using hexact u f
  · unfold list_file at hlist
    split_ifs at hlist
    simp only [Except.ok.injEq, DFSResponse.List.injEq] at hlist
    subst hlist
    obtain ⟨file_meta, hg, hu⟩ := (hexact req.user_id f).mp hf
    exact ⟨file_meta, hg, check_permission_of_mem_file_users hu⟩

/-- Alice stores one file: her listing names it, and she may read it. -/
theorem tdfs_user_index_exact_one_create :
    ∃ s, run tdfs_step tdfs_init
        [.create ⟨"data.txt", "sha", 4, "alice", "alice-token"⟩ (.ok ("key-1", .Aead ⟨[], [], []⟩))
          "file-1"] = some s ∧
      list_file s ⟨"alice", "alice-token"⟩ = .ok (.List {"file-1"}) ∧
      ∃ file_meta, s.FILE_STORE.get "file-1" = some file_meta ∧
        file_meta.check_permission "alice" = true := by
  refine ⟨_, rfl, by decide, ?_⟩
  exact (tdfs_user_index_exact
    [.create ⟨"data.txt", "sha", 4, "alice", "alice-token"⟩ (.ok ("key-1", .Aead ⟨[], [], []⟩))
      "file-1"] _ rfl).2 ⟨"alice", "alice-token"⟩ {"file-1"} (by decide) "file-1"
    (Finset.mem_singleton_self _)

end Teaclave.Tdfs
