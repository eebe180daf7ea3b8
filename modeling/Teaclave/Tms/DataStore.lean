/-
  Teaclave.Tms.DataStore
  ──────────────────────
  The Task Management Service's data: the task records of `tms_common_proto`,
  the shared state of the TMS enclave (`tms/sgx_trusted_lib/src/data_store.rs`:
  `TASK_STORE`, `USER_TASK_STORE` and `UPDATELOCK`), and the pure helpers the
  handlers call.

  Two helpers carry the arithmetic of the approval protocol:

    • `approve_first u cs` is the loop of `UpdateTaskRequest::handle_request`
      that approves the FIRST not-yet-approved entry of `u`;
    • `count_approved` counts approved entries, per user (`approved_by`).

  Their lemmas say once what one approval does to the counts, so the store
  invariant of `Tms.Invariant` never re-runs the loop.
-/
import Teaclave.Core.Basic

namespace Teaclave.Tms

open Teaclave.Core

/-! ## §1. Task records (`tms_common_proto`). -/

/-- `FunctionType`. -/
inductive FunctionType where
  | Single
  | Multiparty
  deriving DecidableEq, Repr

/-- `TaskStatus`. -/
inductive TaskStatus where
  | Created
  | Ready
  | Running
  | Finished
  | Failed
  deriving DecidableEq, Repr

/-- `TaskFile`: an input or output file of a task and the user it belongs to. -/
structure TaskFile where
  user_id : String
  file_id : String
  deriving DecidableEq, Repr

/-- `CollaboratorStatus`. -/
structure CollaboratorStatus where
  user_id : String
  approved : Bool
  deriving DecidableEq, Repr

/-- `TaskInfo` (`ip` and `port` are the FNS address from the configuration). -/
structure TaskInfo where
  user_id : String
  collaborator_list : List CollaboratorStatus
  approved_user_number : Nat
  function_name : String
  function_type : FunctionType
  status : TaskStatus
  ip : String
  port : Nat
  task_token : String
  input_files : List TaskFile
  output_files : List TaskFile
  task_result_file_id : Option String
  deriving DecidableEq, Repr

/-! ## §2. The TMS enclave's shared state. -/

/-- The statics of `data_store.rs`; `UPDATELOCK` records the thread holding it. -/
structure TmsState where
  USER_TASK_STORE : Memdb String (Finset String)
  TASK_STORE : Memdb String TaskInfo
  UPDATELOCK : Option Nat

/-- The state at enclave start: both stores empty, the lock free. -/
def TmsState.init : TmsState := ⟨Memdb.open, Memdb.open, none⟩

/-! ## §3. Helpers of `data_store.rs`. -/

/-- `verify_user`: every token but `"error_token"` passes. -/
def verify_user (_user_id user_token : String) : Bool :=
  if user_token = "error_token" then false else true

/-- `check_get_permission`: the creator and every collaborator may read a task. -/
def check_get_permission (task_info : TaskInfo) (user_id : String) : Bool :=
  task_info.user_id = user_id || task_info.collaborator_list.any (fun c => user_id = c.user_id)

/-- The write of `add_task_to_user`, given the set it read for `user_id`. -/
def add_task_to_user_write (db : Memdb String (Finset String)) (task_id user_id : String)
    (id_set : Option (Finset String)) : Memdb String (Finset String) :=
  match id_set with
  | some set => db.set user_id (insert task_id set)
  | none => db.set user_id {task_id}

/-- `add_task_to_user`: read a user's set, insert the task id, write it back.
    The read and the write are two accesses; `UPDATELOCK` keeps them together. -/
def add_task_to_user (db : Memdb String (Finset String)) (task_id user_id : String) :
    Memdb String (Finset String) :=
  add_task_to_user_write db task_id user_id (db.get user_id)

/-- The users `add_task` files a task under: the creator, then each collaborator. -/
def task_users (task_info : TaskInfo) : List String :=
  task_info.user_id :: task_info.collaborator_list.map (·.user_id)

/-- The function type `CreateTaskRequest::handle_request` assigns to a name. -/
def function_type_of (function_name : String) : FunctionType :=
  match function_name with
  | "psi" | "concat" | "swap_file" | "private_join_and_compute" => .Multiparty
  | _ => .Single

/-- Membership in a user's set after the write of `add_task_to_user` for `u`:
    `u` gains the id on top of the set that was read, everyone else keeps theirs. -/
theorem mem_add_task_to_user_write (db : Memdb String (Finset String))
    (task_id u v t : String) (id_set : Option (Finset String)) :
    t ∈ ((add_task_to_user_write db task_id u id_set).get v).getD ∅ ↔
      (v = u ∧ (t = task_id ∨ t ∈ id_set.getD ∅)) ∨ (v ≠ u ∧ t ∈ (db.get v).getD ∅) := by
  unfold add_task_to_user_write
  by_cases hv : v = u
  · subst hv
    cases id_set with
    | some set => simp
    | none => simp
  · cases id_set with
    | some set => simp [hv]
    | none => simp [hv]

/-- `add_task_to_user` as one access: `u` gains the id, every set keeps what it had. -/
theorem mem_add_task_to_user (db : Memdb String (Finset String)) (task_id u v t : String) :
    t ∈ ((add_task_to_user db task_id u).get v).getD ∅ ↔
      (v = u ∧ t = task_id) ∨ t ∈ (db.get v).getD ∅ := by
  unfold add_task_to_user
  rw [mem_add_task_to_user_write]
  by_cases hv : v = u
  · subst hv
    simp only [true_and, ne_eq, not_true_eq_false, false_and, or_false]
  · simp [hv]

/-! ## §4. The approval loop and its counts. -/

/-- The loop of `UpdateTaskRequest::handle_request`: approve the first entry of
    `user_id` that is not yet approved; `none` when there is none. -/
def approve_first (user_id : String) : List CollaboratorStatus → Option (List CollaboratorStatus)
  | [] => none
  | c :: cs =>
      if c.user_id = user_id ∧ c.approved = false then some ({ c with approved := true } :: cs)
      else (approve_first user_id cs).map (c :: ·)

theorem approve_first_nil (u : String) : approve_first u [] = none := rfl

theorem approve_first_cons (u : String) (c : CollaboratorStatus) (cs : List CollaboratorStatus) :
    approve_first u (c :: cs) =
      if c.user_id = u ∧ c.approved = false then some ({ c with approved := true } :: cs)
      else (approve_first u cs).map (c :: ·) := rfl

/-- The number of approved entries. -/
def count_approved (cs : List CollaboratorStatus) : Nat :=
  cs.countP (fun c => c.approved)

/-- The number of approved entries of one user. -/
def approved_by (v : String) (cs : List CollaboratorStatus) : Nat :=
  cs.countP (fun c => c.approved && c.user_id = v)

/-- The approval loop keeps the list's user ids (so its length). -/
theorem approve_first_user_ids {u : String} :
    ∀ {cs cs' : List CollaboratorStatus}, approve_first u cs = some cs' →
      cs'.map (·.user_id) = cs.map (·.user_id)
  | [], _, h => by simp [approve_first_nil] at h
  | c :: cs, cs', h => by
      rw [approve_first_cons] at h
      split at h
      · cases h; simp
      · obtain ⟨cs'', h', rfl⟩ := Option.map_eq_some_iff.mp h
        simp [approve_first_user_ids h']

theorem approve_first_length {u : String} {cs cs' : List CollaboratorStatus}
    (h : approve_first u cs = some cs') : cs'.length = cs.length := by
  simpa using congrArg List.length (approve_first_user_ids h)

/-- The loop approves only a user with an entry. -/
theorem mem_user_ids_of_approve_first {u : String} :
    ∀ {cs cs' : List CollaboratorStatus}, approve_first u cs = some cs' →
      u ∈ cs.map (·.user_id)
  | [], _, h => by simp [approve_first_nil] at h
  | c :: cs, cs', h => by
      rw [approve_first_cons] at h
      rw [List.map_cons]
      split at h
      · rename_i hc
        rw [hc.1]
        exact List.mem_cons_self
      · obtain ⟨cs'', h', rfl⟩ := Option.map_eq_some_iff.mp h
        exact List.mem_cons_of_mem _ (mem_user_ids_of_approve_first h')

/-- One approval adds exactly one approved entry. -/
theorem count_approved_approve_first {u : String} :
    ∀ {cs cs' : List CollaboratorStatus}, approve_first u cs = some cs' →
      count_approved cs' = count_approved cs + 1
  | [], _, h => by simp [approve_first_nil] at h
  | c :: cs, cs', h => by
      rw [approve_first_cons] at h
      split at h
      · rename_i hc
        cases h
        simp [count_approved, hc.2]
      · obtain ⟨cs'', h', rfl⟩ := Option.map_eq_some_iff.mp h
        have ih := count_approved_approve_first h'
        simp only [count_approved, List.countP_cons] at ih ⊢
        omega

/-- One approval by `u` adds one approved entry of `u` and none of anyone else. -/
theorem approved_by_approve_first {u : String} (v : String) :
    ∀ {cs cs' : List CollaboratorStatus}, approve_first u cs = some cs' →
      approved_by v cs' = approved_by v cs + if v = u then 1 else 0
  | [], _, h => by simp [approve_first_nil] at h
  | c :: cs, cs', h => by
      rw [approve_first_cons] at h
      split at h
      · rename_i hc
        obtain ⟨hcu, hca⟩ := hc
        cases h
        by_cases hv : v = u
        · subst hv; simp [approved_by, hcu, hca]
        · have : c.user_id ≠ v := fun e => hv (e ▸ hcu)
          simp [approved_by, hca, hv, this]
      · obtain ⟨cs'', h', rfl⟩ := Option.map_eq_some_iff.mp h
        have ih := approved_by_approve_first v h'
        simp only [approved_by, List.countP_cons] at ih ⊢
        omega

/-- The loop finds nothing exactly when every entry of `u` is already approved. -/
theorem approve_first_eq_none {u : String} :
    ∀ {cs : List CollaboratorStatus},
      approve_first u cs = none ↔ ∀ c ∈ cs, c.user_id = u → c.approved = true
  | [] => by simp [approve_first_nil]
  | c :: cs => by
      rw [approve_first_cons]
      split
      · rename_i hc
        simp only [reduceCtorEq, false_iff, not_forall]
        exact ⟨c, by simp, hc.1, by simp [hc.2]⟩
      · rename_i hc
        rw [Option.map_eq_none_iff, approve_first_eq_none]
        simp only [List.mem_cons, forall_eq_or_imp]
        constructor
        · intro h
          refine ⟨fun hcu => ?_, h⟩
          simpa [hcu] using hc
        · exact fun h => h.2

/-- `count_approved` never exceeds the length of the list. -/
theorem count_approved_le (cs : List CollaboratorStatus) : count_approved cs ≤ cs.length :=
  List.countP_le_length

end Teaclave.Tms
