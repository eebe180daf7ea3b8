/-
  Teaclave.Tms.Handlers
  ─────────────────────
  **THE TMS REQUEST HANDLERS AS THREADS.**

  Every request the TMS enclave serves runs on its own thread (the untrusted
  app hands each connection to a thread pool).  A handler is modelled as a
  small program: its program counter (`CreatePc`, `UpdatePc`, ...) and one
  atomic step per access to shared state, per lock operation and per call to
  another service.  What another service or a random source answers is the
  step's input (`TmsInput`), so every answer TDFS, `gen_token` or
  `Uuid::new_v4` could give is covered.

    • `tms_external.rs`: `CreateTaskRequest` (file checks, token, uuid check,
      `add_task` = `TASK_STORE.set`, then `UPDATELOCK` and for each user the
      read and the write of `add_task_to_user`), `UpdateTaskRequest` (an unlocked snapshot
      check, then under `UPDATELOCK`: re-read, approve, file checks, one
      `TASK_STORE.set`), and the read-only `GetTaskRequest`/`ListTaskRequest`.
    • `tms_internal.rs`: `GetTaskRequest` (one read) and `UpdateTaskRequest`
      (a read, then an unconditional write, with no lock).

  A step that returns `Err` while `_lock` is alive releases `UPDATELOCK`, as
  the guard's drop does.
-/
import Teaclave.Lib.Interleaving
import Teaclave.Tms.DataStore

namespace Teaclave.Tms

open Teaclave.Core Teaclave.Lib

/-! ## §1. Requests, responses, inputs. -/

/-- `tms_external_proto::CreateTaskRequest`. -/
structure CreateTaskRequest where
  function_name : String
  collaborator_list : List String
  files : List String
  user_id : String
  user_token : String
  deriving DecidableEq, Repr

/-- `tms_external_proto::UpdateTaskRequest`. -/
structure UpdateTaskRequest where
  task_id : String
  files : List String
  user_id : String
  user_token : String
  deriving DecidableEq, Repr

/-- `tms_external_proto::GetTaskRequest`. -/
structure GetTaskRequest where
  task_id : String
  user_id : String
  user_token : String
  deriving DecidableEq, Repr

/-- `tms_external_proto::ListTaskRequest`. -/
structure ListTaskRequest where
  user_id : String
  user_token : String
  deriving DecidableEq, Repr

/-- `tms_external_proto::TaskInfo`: a task as one of its users reads it. -/
structure ExternalTaskInfo where
  user_id : String
  function_name : String
  function_type : FunctionType
  status : TaskStatus
  ip : String
  port : Nat
  task_token : String
  collaborator_list : List CollaboratorStatus
  task_result_file_id : Option String
  user_private_result_file_id : List String
  deriving DecidableEq, Repr

/-- `tms_external_proto::TaskResponse` (a listed `HashSet` is kept as the set). -/
inductive TaskResponse where
  | Create (task_id task_token ip : String) (port : Nat)
  | Get (task_info : ExternalTaskInfo)
  | Update (success : Bool) (status : TaskStatus) (ip : String) (port : Nat) (task_token : String)
  | List (list : Finset String)

/-- `config::External::target_fns()`: the FNS address written into every task. -/
structure TmsConfig where
  fns_ip : String
  fns_port : Nat

/-- What a step reads from outside the enclave. -/
inductive TmsInput where
  /-- Nothing: a step on local and shared state only. -/
  | silent
  /-- `TDFSClient::new(..)?` and `check_access_permission(..)?` together. -/
  | tdfs (answer : Result Bool)
  /-- `TDFSClient::new(..)?` alone. -/
  | connect (answer : Result Unit)
  /-- `gen_token()?`, then `Uuid::new_v4()`. -/
  | fresh (token : Result String) (uuid : String)

/-! ## §2. `CreateTaskRequest::handle_request`. -/

/-- The checks before the file loop: `verify_user`, then for a multiparty
    function a non-empty collaborator list and a non-empty file list. -/
def create_precheck (req : CreateTaskRequest) : Option ErrorKind :=
  if verify_user req.user_id req.user_token = false then some .PermissionDenied
  else if function_type_of req.function_name = .Multiparty ∧ req.collaborator_list = [] then
    some .MissingValue
  else if function_type_of req.function_name = .Multiparty ∧ req.files = [] then
    some .MissingValue
  else none

/-- The record `CreateTaskRequest::handle_request` stores: nobody approved yet,
    every file owned by the creator, `Ready` at once for a single-party task. -/
def new_task_info (cfg : TmsConfig) (req : CreateTaskRequest) (token : String) : TaskInfo where
  user_id := req.user_id
  collaborator_list := req.collaborator_list.map (fun u => ⟨u, false⟩)
  approved_user_number := 0
  function_name := req.function_name
  function_type := function_type_of req.function_name
  status := match function_type_of req.function_name with
    | .Single => .Ready
    | _ => .Created
  ip := cfg.fns_ip
  port := cfg.fns_port
  task_token := token
  input_files := req.files.map (fun f => ⟨req.user_id, f⟩)
  output_files := []
  task_result_file_id := none

section NewTaskInfo

variable (cfg : TmsConfig) (req : CreateTaskRequest) (token : String)

theorem new_task_info_user_id : (new_task_info cfg req token).user_id = req.user_id := rfl

theorem new_task_info_collaborator_list :
    (new_task_info cfg req token).collaborator_list = req.collaborator_list.map (fun u => ⟨u, false⟩) :=
  rfl

theorem new_task_info_approved_user_number : (new_task_info cfg req token).approved_user_number = 0 :=
  rfl

theorem new_task_info_function_type :
    (new_task_info cfg req token).function_type = function_type_of req.function_name := rfl

theorem new_task_info_status :
    (new_task_info cfg req token).status =
      match function_type_of req.function_name with
      | .Single => .Ready
      | _ => .Created := rfl

end NewTaskInfo

/-- Where a `CreateTaskRequest` thread is. -/
inductive CreatePc where
  | start
  /-- Files still to be checked with TDFS. -/
  | checking (rest : List String)
  /-- The uuid was free; `add_task` is about to store the record. -/
  | storing (task_id : String) (task_info : TaskInfo)
  /-- Stored; waiting for `UPDATELOCK`. -/
  | locking (task_id : String) (task_info : TaskInfo)
  /-- Holding `UPDATELOCK`; users whose sets still lack the id. -/
  | indexing (task_id : String) (task_info : TaskInfo) (rest : List String)
  /-- Holding `UPDATELOCK`; `add_task_to_user` read `user_id`'s set and writes it next. -/
  | adding (task_id : String) (task_info : TaskInfo) (user_id : String)
      (id_set : Option (Finset String)) (rest : List String)
  | done (r : Result TaskResponse)

/-- One atomic step of a `CreateTaskRequest` thread `i`. -/
def create_step (cfg : TmsConfig) (i : Nat) (s : TmsState) (req : CreateTaskRequest) :
    CreatePc → TmsInput → Option (TmsState × CreatePc)
  | .start, .silent =>
      match create_precheck req with
      | some e => some (s, .done (.error e))
      | none => some (s, .checking req.files)
  | .checking (_ :: rest), .tdfs answer =>
      match answer with
      | .error e => some (s, .done (.error e))
      | .ok false => some (s, .done (.error .PermissionDenied))
      | .ok true => some (s, .checking rest)
  | .checking [], .fresh token uuid =>
      match token with
      | .error e => some (s, .done (.error e))
      | .ok token =>
          -- `if TASK_STORE.get(&task_id)?.is_some() { return Err(UUIDError) }`
          match s.TASK_STORE.get uuid with
          | some _ => some (s, .done (.error .UUIDError))
          | none => some (s, .storing uuid (new_task_info cfg req token))
  | .storing task_id info, .silent =>
      some ({ s with TASK_STORE := s.TASK_STORE.set task_id info }, .locking task_id info)
  | .locking task_id info, .silent =>
      match s.UPDATELOCK with
      | some _ => none
      | none => some ({ s with UPDATELOCK := some i }, .indexing task_id info (task_users info))
  | .indexing task_id info (u :: rest), .silent =>
      some (s, .adding task_id info u (s.USER_TASK_STORE.get u) rest)
  | .adding task_id info u id_set rest, .silent =>
      some ({ s with USER_TASK_STORE := add_task_to_user_write s.USER_TASK_STORE task_id u id_set },
        .indexing task_id info rest)
  | .indexing task_id info [], .silent =>
      some ({ s with UPDATELOCK := none },
        .done (.ok (.Create task_id info.task_token info.ip info.port)))
  | _, _ => none

/-! ## §3. `UpdateTaskRequest::handle_request`. -/

/-- The checks on the unlocked snapshot: a known, multiparty, `Created` task. -/
def update_precheck (req : UpdateTaskRequest) (snapshot : Option TaskInfo) : Option ErrorKind :=
  if verify_user req.user_id req.user_token = false then some .PermissionDenied
  else if req.files = [] then some .MissingValue
  else
    match snapshot with
    | none => some .PermissionDenied
    | some info =>
        if info.function_type ≠ .Multiparty then some .PermissionDenied
        else if info.status ≠ .Created then some .PermissionDenied
        else none

/-- The locked approval on the re-read record: approve the caller's first
    pending entry, count it, and mark the task `Ready` when the count reaches
    the length of the list; `none` when the caller has no pending entry. -/
def approve (user_id : String) (task_info : TaskInfo) : Option TaskInfo :=
  match approve_first user_id task_info.collaborator_list with
  | none => none
  | some cs =>
      some { task_info with
        collaborator_list := cs
        approved_user_number := task_info.approved_user_number + 1
        status := if task_info.approved_user_number + 1 = cs.length then .Ready
          else task_info.status }

/-- What an approval returns: the record with the caller's first pending
    entry approved, the counter bumped and the status recomputed. -/
theorem approve_eq_some {u : String} {info info' : TaskInfo} (h : approve u info = some info') :
    ∃ cs, approve_first u info.collaborator_list = some cs ∧
      info' = { info with
        collaborator_list := cs
        approved_user_number := info.approved_user_number + 1
        status := if info.approved_user_number + 1 = cs.length then .Ready else info.status } := by
  unfold approve at h
  cases ha : approve_first u info.collaborator_list with
  | none => simp [ha] at h
  | some cs =>
      simp only [ha, Option.some.injEq] at h
      exact ⟨cs, rfl, h.symm⟩

/-- The approval touches neither the user ids nor the function type. -/
theorem approve_users {u : String} {info info' : TaskInfo} (h : approve u info = some info') :
    task_users info' = task_users info ∧ info'.function_type = info.function_type := by
  obtain ⟨cs, ha, rfl⟩ := approve_eq_some h
  simp [task_users, approve_first_user_ids ha]

/-- The approval adds one approved entry of the caller, and bumps the counter. -/
theorem approve_counts {u : String} {info info' : TaskInfo} (h : approve u info = some info') :
    info'.approved_user_number = info.approved_user_number + 1 ∧
      count_approved info'.collaborator_list = count_approved info.collaborator_list + 1 ∧
      info'.collaborator_list.length = info.collaborator_list.length ∧
      (∀ v, approved_by v info'.collaborator_list =
        approved_by v info.collaborator_list + if v = u then 1 else 0) := by
  obtain ⟨cs, ha, rfl⟩ := approve_eq_some h
  exact ⟨rfl, count_approved_approve_first ha, approve_first_length ha,
    fun v => approved_by_approve_first v ha⟩

/-- The status after an approval: `Ready` once the counter reaches the length. -/
theorem approve_status {u : String} {info info' : TaskInfo} (h : approve u info = some info') :
    info'.status = if info.approved_user_number + 1 = info.collaborator_list.length then .Ready
      else info.status := by
  obtain ⟨cs, ha, rfl⟩ := approve_eq_some h
  simp [approve_first_length ha]

/-- The approval finds a pending entry only while some entry is unapproved. -/
theorem approve_count_lt {u : String} {info info' : TaskInfo} (h : approve u info = some info') :
    count_approved info.collaborator_list < info.collaborator_list.length := by
  obtain ⟨-, hc, hl, -⟩ := approve_counts h
  have := count_approved_le info'.collaborator_list
  omega

/-- The approval leaves the input files alone. -/
theorem approve_input_files {u : String} {info info' : TaskInfo} (h : approve u info = some info') :
    info'.input_files = info.input_files := by
  obtain ⟨cs, -, rfl⟩ := approve_eq_some h
  rfl

/-- Only a collaborator of the task can approve it. -/
theorem approve_mem_users {u : String} {info info' : TaskInfo} (h : approve u info = some info') :
    u ∈ task_users info' := by
  rw [(approve_users h).1]
  obtain ⟨cs, ha, -⟩ := approve_eq_some h
  exact List.mem_cons_of_mem _ (mem_user_ids_of_approve_first ha)

/-- Where an `UpdateTaskRequest` thread is. -/
inductive UpdatePc where
  | start
  /-- The snapshot passed; waiting for `UPDATELOCK`. -/
  | locking
  /-- Holding `UPDATELOCK`; the record is re-read next. -/
  | reading
  /-- Holding `UPDATELOCK`, approval applied to the local copy; `TDFSClient::new` next. -/
  | connecting (task_info : TaskInfo)
  /-- Holding `UPDATELOCK`; files still to be checked and appended. -/
  | checking (task_info : TaskInfo) (rest : List String)
  | done (r : Result TaskResponse)

/-- Release `UPDATELOCK`. -/
def TmsState.unlock (s : TmsState) : TmsState := { s with UPDATELOCK := none }

/-- One atomic step of an `UpdateTaskRequest` thread `i`. -/
def update_step (i : Nat) (s : TmsState) (req : UpdateTaskRequest) :
    UpdatePc → TmsInput → Option (TmsState × UpdatePc)
  | .start, .silent =>
      match update_precheck req (s.TASK_STORE.get req.task_id) with
      | some e => some (s, .done (.error e))
      | none => some (s, .locking)
  | .locking, .silent =>
      match s.UPDATELOCK with
      | some _ => none
      | none => some ({ s with UPDATELOCK := some i }, .reading)
  | .reading, .silent =>
      -- neither the type nor the status is checked again under the lock
      match s.TASK_STORE.get req.task_id with
      | none => some (s.unlock, .done (.error .PermissionDenied))
      | some info =>
          match approve req.user_id info with
          | none => some (s.unlock, .done (.error .PermissionDenied))
          | some info' => some (s, .connecting info')
  | .connecting info, .connect answer =>
      match answer with
      | .error e => some (s.unlock, .done (.error e))
      | .ok () => some (s, .checking info req.files)
  | .checking info (f :: rest), .tdfs answer =>
      match answer with
      | .error e => some (s.unlock, .done (.error e))
      | .ok false => some (s.unlock, .done (.error .PermissionDenied))
      | .ok true =>
          some (s, .checking { info with input_files := info.input_files ++ [⟨req.user_id, f⟩] } rest)
  | .checking info [], .silent =>
      some ({ s with TASK_STORE := s.TASK_STORE.set req.task_id info, UPDATELOCK := none },
        .done (.ok (.Update true info.status info.ip info.port info.task_token)))
  | _, _ => none

/-! ### A failed update writes nothing.

  The approval and the appended input files live in the thread's local copy
  (the `TaskInfo` its program counter carries) until the one `TASK_STORE.set`
  of the last step; every error exit comes before it. -/

/-- Where an update thread run alone from `s₀` has left the state: untouched
    before the lock and after an error, `UPDATELOCK` taken (from free) while
    it holds the lock, anything after a success. -/
def UpdateFrame (i : Nat) (s₀ : TmsState) : TmsState × UpdatePc → Prop
  | (s, .start) => s = s₀
  | (s, .locking) => s = s₀
  | (s, .reading) => s₀.UPDATELOCK = none ∧ s = { s₀ with UPDATELOCK := some i }
  | (s, .connecting _) => s₀.UPDATELOCK = none ∧ s = { s₀ with UPDATELOCK := some i }
  | (s, .checking _ _) => s₀.UPDATELOCK = none ∧ s = { s₀ with UPDATELOCK := some i }
  | (s, .done (.error _)) => s = s₀
  | (_, .done (.ok _)) => True

/-- Releasing a lock taken from free gives the state back. -/
@[simp] theorem unlock_of_free {s₀ : TmsState} (h : s₀.UPDATELOCK = none) (i : Nat) :
    TmsState.unlock { s₀ with UPDATELOCK := some i } = s₀ := by
  cases s₀
  cases h
  rfl

/-- A step of the thread from inside the lock either keeps the locked state,
    releases the lock with an error, or commits. -/
theorem update_step_locked {i : Nat} {s s' : TmsState} {req : UpdateTaskRequest}
    {pc pc' : UpdatePc} {inp : TmsInput} (hpc : pc ≠ .start ∧ pc ≠ .locking)
    (hs : update_step i s req pc inp = some (s', pc')) :
    (s' = s ∧ (pc' = .reading ∨ (∃ c, pc' = .connecting c) ∨ ∃ c fs, pc' = .checking c fs)) ∨
      (s' = s.unlock ∧ ∃ e, pc' = .done (.error e)) ∨ ∃ r, pc' = .done (.ok r) := by
  obtain ⟨h1, h2⟩ := hpc
  cases pc with
  | start => exact absurd rfl h1
  | locking => exact absurd rfl h2
  | reading =>
      cases inp <;> simp only [update_step, reduceCtorEq] at hs
      split at hs
      · cases hs; simp
      · split at hs <;> cases hs <;> simp
  | connecting info =>
      cases inp <;> simp only [update_step, reduceCtorEq] at hs
      split at hs <;> cases hs <;> simp
  | checking info rest =>
      cases rest <;> cases inp <;> simp only [update_step, reduceCtorEq] at hs
      · cases hs; simp
      · split at hs <;> cases hs <;> simp
  | done r => cases inp <;> simp [update_step] at hs

/-- **One step keeps the frame.** -/
theorem UpdateFrame.step {i : Nat} {s₀ s s' : TmsState} {req : UpdateTaskRequest}
    {pc pc' : UpdatePc} {inp : TmsInput} (hf : UpdateFrame i s₀ (s, pc))
    (hs : update_step i s req pc inp = some (s', pc')) : UpdateFrame i s₀ (s', pc') := by
  cases pc with
  | start =>
      -- the unlocked snapshot check: an error ends where it started
      cases inp <;> simp only [update_step, reduceCtorEq] at hs
      split at hs <;> cases hs <;> exact hf
  | locking =>
      -- the lock is taken only when free
      cases inp <;> simp only [update_step, reduceCtorEq] at hs
      split at hs
      · cases hs
      · cases hs
        subst hf
        exact ⟨‹_›, rfl⟩
  | done r => cases inp <;> simp [update_step] at hs
  | reading | connecting _ | checking _ _ =>
      obtain ⟨hfree, rfl⟩ := hf
      rcases update_step_locked (by simp) hs with
        ⟨rfl, rfl | ⟨c, rfl⟩ | ⟨c, fs, rfl⟩⟩ | ⟨rfl, e, rfl⟩ | ⟨r, rfl⟩
      all_goals first | exact ⟨hfree, rfl⟩ | exact unlock_of_free hfree i | trivial

/-- `UpdateTaskRequest::handle_request` on its own: the steps of one update
    thread `i`, with nothing else running between them. -/
def update_thread_step (i : Nat) (req : UpdateTaskRequest) (p : TmsState × UpdatePc)
    (inp : TmsInput) : Option (TmsState × UpdatePc) :=
  update_step i p.1 req p.2 inp

/-- Every point of a run of the handler keeps the frame. -/
theorem UpdateFrame.of_run {i : Nat} {s₀ : TmsState} {req : UpdateTaskRequest}
    {inputs : List TmsInput} {p : TmsState × UpdatePc}
    (h : run (update_thread_step i req) (s₀, .start) inputs = some p) : UpdateFrame i s₀ p := by
  refine Reachable.invariant ?_ ?_ (Reachable.of_run h)
  · rfl
  · rintro ⟨s, pc⟩ inp ⟨s', pc'⟩ - hf hs
    exact hf.step hs

/-- **A failed update changes nothing**: whatever the inputs (TDFS answers,
    connection failures), a run of the handler that ends in `Err` ends in the
    state it started from, both stores and the lock. -/
theorem update_task_error_unchanged {i : Nat} {s s' : TmsState} {req : UpdateTaskRequest}
    {inputs : List TmsInput} {e : ErrorKind}
    (h : run (update_thread_step i req) (s, .start) inputs = some (s', .done (.error e))) :
    s' = s :=
  UpdateFrame.of_run h

/-- A two-party task of `alice` that `bob` has still to approve. -/
def pending_task : TaskInfo where
  user_id := "alice"
  collaborator_list := [⟨"bob", false⟩]
  approved_user_number := 0
  function_name := "psi"
  function_type := .Multiparty
  status := .Created
  ip := "fns"
  port := 3444
  task_token := "task-token"
  input_files := []
  output_files := []
  task_result_file_id := none

/-- The TMS state holding only `pending_task`, as `task-1`. -/
def pending_state : TmsState := { TmsState.init with TASK_STORE := Memdb.open.set "task-1" pending_task }

/-- `bob` approves, then TDFS denies his file: the approval is dropped. -/
theorem update_task_error_unchanged_denied_file :
    ∃ s', run (update_thread_step 0 ⟨"task-1", ["bob-file"], "bob", "bob-token"⟩)
        (pending_state, .start) [.silent, .silent, .silent, .connect (.ok ()), .tdfs (.ok false)] =
      some (s', .done (.error .PermissionDenied)) ∧ s' = pending_state := by
  have h : run (update_thread_step 0 ⟨"task-1", ["bob-file"], "bob", "bob-token"⟩)
      (pending_state, .start) [.silent, .silent, .silent, .connect (.ok ()), .tdfs (.ok false)] =
      some ({ pending_state with UPDATELOCK := some 0 }.unlock, .done (.error .PermissionDenied)) :=
    rfl
  exact ⟨_, h, update_task_error_unchanged h⟩

/-! ## §4. The read-only external handlers. -/

/-- `GetTaskRequest::handle_request` (external): the caller's view of a task it
    takes part in, with only its own private output files. -/
def get_task (s : TmsState) (req : GetTaskRequest) : Result TaskResponse :=
  if verify_user req.user_id req.user_token = false then .error .PermissionDenied
  else
    match s.TASK_STORE.get req.task_id with
    | none => .error .MissingValue
    | some info =>
        if check_get_permission info req.user_id = false then .error .PermissionDenied
        else .ok (.Get
          { user_id := info.user_id
            function_name := info.function_name
            function_type := info.function_type
            status := info.status
            ip := info.ip
            port := info.port
            task_token := info.task_token
            collaborator_list := info.collaborator_list
            task_result_file_id := info.task_result_file_id
            user_private_result_file_id :=
              (info.output_files.filter (fun f => f.user_id = req.user_id)).map (·.file_id) })

/-- `ListTaskRequest::handle_request`: the caller's set of task ids. -/
def list_task (s : TmsState) (req : ListTaskRequest) : Result TaskResponse :=
  if verify_user req.user_id req.user_token = false then .error .PermissionDenied
  else .ok (.List ((s.USER_TASK_STORE.get req.user_id).getD ∅))

/-! ## §5. The external enclave: one thread per request. -/

/-- A request to the external TMS (`tms_external_proto::TaskRequest`). -/
inductive ExternalRequest where
  | Create (req : CreateTaskRequest)
  | Get (req : GetTaskRequest)
  | Update (req : UpdateTaskRequest)
  | List (req : ListTaskRequest)

/-- A thread serving one external request. -/
inductive ExternalThread where
  | create (req : CreateTaskRequest) (pc : CreatePc)
  | update (req : UpdateTaskRequest) (pc : UpdatePc)
  | get (req : GetTaskRequest) (resp : Option (Result TaskResponse))
  | list (req : ListTaskRequest) (resp : Option (Result TaskResponse))

/-- `TMSExternalEnclave::handle_invoke` starts the handler of the request. -/
def ExternalThread.start : ExternalRequest → ExternalThread
  | .Create req => .create req .start
  | .Get req => .get req none
  | .Update req => .update req .start
  | .List req => .list req none

/-- One atomic step of external thread `i`. -/
def external_step (cfg : TmsConfig) (i : Nat) (s : TmsState) :
    ExternalThread → TmsInput → Option (TmsState × ExternalThread)
  | .create req pc, a => (create_step cfg i s req pc a).map (fun r => (r.1, .create req r.2))
  | .update req pc, a => (update_step i s req pc a).map (fun r => (r.1, .update req r.2))
  | .get req none, .silent => some (s, .get req (some (get_task s req)))
  | .list req none, .silent => some (s, .list req (some (list_task s req)))
  | _, _ => none

/-- The external TMS enclave: every interleaving of its request threads. -/
def external_pool_step (cfg : TmsConfig) :
    Pool TmsState ExternalThread → PoolLabel ExternalRequest TmsInput →
      Option (Pool TmsState ExternalThread) :=
  Pool.step ExternalThread.start (external_step cfg)

/-- The external TMS enclave at start: empty stores, no thread. -/
def external_init : Pool TmsState ExternalThread := ⟨TmsState.init, []⟩

/-! ## §6. `tms_internal.rs`: the handlers FNS calls. -/

/-- `tms_internal_proto::UpdateTaskRequest`. -/
structure InternalUpdateTaskRequest where
  task_id : String
  task_result_file_id : Option String
  output_files : List TaskFile
  status : Option TaskStatus
  deriving DecidableEq, Repr

/-- `tms_internal_proto::TaskResponse`. -/
inductive InternalTaskResponse where
  | Get (task_info : TaskInfo)
  | Update (success : Bool)

/-- `GetTaskRequest::handle_request` (internal): one read of `TASK_STORE`. -/
def internal_get_task (s : TmsState) (task_id : String) : Result InternalTaskResponse :=
  match s.TASK_STORE.get task_id with
  | none => .error .MissingValue
  | some info => .ok (.Get info)

/-- The record the internal `UpdateTaskRequest::handle_request` writes back:
    the result file if one is given, the output files appended, the status
    overwritten if one is given, whatever the old status was. -/
def apply_internal_update (req : InternalUpdateTaskRequest) (old_info : TaskInfo) : TaskInfo :=
  { old_info with
    task_result_file_id :=
      if req.task_result_file_id.isSome then req.task_result_file_id else old_info.task_result_file_id
    output_files := old_info.output_files ++ req.output_files
    status := match req.status with
      | some status => status
      | none => old_info.status }

/-- Where an internal `UpdateTaskRequest` handler is: it reads, then writes. -/
inductive InternalUpdatePc where
  | start
  | writing (task_info : TaskInfo)
  | done (r : Result InternalTaskResponse)

/-- One atomic step of the internal update handler (no lock is taken). -/
def internal_update_step (s : TmsState) (req : InternalUpdateTaskRequest) :
    InternalUpdatePc → Option (TmsState × InternalUpdatePc)
  | .start =>
      match s.TASK_STORE.get req.task_id with
      | none => some (s, .done (.ok (.Update false)))
      | some old_info => some (s, .writing (apply_internal_update req old_info))
  | .writing info =>
      some ({ s with TASK_STORE := s.TASK_STORE.set req.task_id info }, .done (.ok (.Update true)))
  | .done _ => none

/-- `tms_internal_proto::TaskRequest`. -/
inductive InternalTaskRequest where
  | Get (task_id : String)
  | Update (req : InternalUpdateTaskRequest)

/-- The internal handler serving one request, where it is. -/
inductive InternalHandler where
  | get (task_id : String)
  | update (req : InternalUpdateTaskRequest) (pc : InternalUpdatePc)

/-- `TMSInternalEnclave::handle_invoke` starts the handler of the request. -/
def InternalTaskRequest.handler : InternalTaskRequest → InternalHandler
  | .Get task_id => .get task_id
  | .Update req => .update req .start

/-- One atomic step of an internal handler: its next state, or the result
    `handle_invoke` sends back. -/
def internal_handle (s : TmsState) :
    InternalHandler → Option (TmsState × (InternalHandler ⊕ Result InternalTaskResponse))
  | .get task_id => some (s, .inr (internal_get_task s task_id))
  | .update req pc =>
      match internal_update_step s req pc with
      | none => none
      | some (s', .done r) => some (s', .inr r)
      | some (s', pc') => some (s', .inl (.update req pc'))

end Teaclave.Tms
