/-
  Teaclave.Fns.Invoke
  ───────────────────
  **AN FNS INVOCATION AS A THREAD, AND ITS CALLS TO THE TMS.**

  `InvokeTaskRequest::handle_request` (`fns.rs`) takes a worker of the
  function, runs `invoke_worker` and gives the worker back.  `invoke_worker`
  runs `RunningTask::init`, the worker's `prepare_input` and `execute`, and
  `RunningTask::finish` (`running_task.rs`).  The FNS enclave's shared state is
  `RUNNING_TASK_QUEUE` and `WORKER_INFO_QUEUE`; the task's record lives in the
  TMS, which FNS reaches by synchronous calls (`Lib.Rpc`) served by the
  internal TMS handlers (`Tms.Handlers`, §6):

    • `init`: a `GetTaskRequest`, the checks on the answer (token, function
      name, status `Ready`), a context token, the insert into
      `RUNNING_TASK_QUEUE` unless the task is there, then an
      `UpdateTaskRequest` setting `Running` (undoing the insert if it fails);
    • `finish`: the remove from `RUNNING_TASK_QUEUE`, then an
      `UpdateTaskRequest` setting `Finished` (with the outputs) or `Failed`.

  Every access to shared state is one atomic step, and so is every step of a
  TMS handler.  What TLS connections, `Uuid::new_v4` and the worker answer
  is the step's input (`FnsInput`).
-/
import Teaclave.Lib.Rpc
import Teaclave.Fns.Worker
import Teaclave.Tms.Handlers
import Teaclave.Tdfs.Service

namespace Teaclave.Fns

open Teaclave.Core Teaclave.Lib Teaclave.Tms

/-! ## §1. Requests, running tasks, the FNS state. -/

/-- `fns_proto::InvokeTaskRequest`. -/
structure InvokeTaskRequest where
  task_id : String
  function_name : String
  task_token : String
  payload : Option String
  deriving DecidableEq, Repr

/-- `fns_proto::InvokeTaskResponse`. -/
structure InvokeTaskResponse where
  result : String
  deriving DecidableEq, Repr

/-- `TaskResult`: what the invocation has produced so far. -/
structure TaskResult where
  output : Option String
  output_files : List TaskFile
  task_result_file_id : Option String
  deriving DecidableEq, Repr

/-- `RunningTask` (its `task_result` is shared with the worker through the
    `Arc`; only this invocation and its worker reach it).  The `HashMap`
    `file_owner_map` is its lookup function. -/
structure RunningTask where
  task_info : TaskInfo
  task_id : String
  context_token : String
  task_result : TaskResult
  file_owner_map : String → Option String

/-- The FNS enclave's statics. -/
structure FnsState where
  RUNNING_TASK_QUEUE : Memdb String RunningTask
  WORKER_INFO_QUEUE : WorkerInfoQueue

/-- `RunningTask::get_file_list`: the ids of the task's input files. -/
def RunningTask.get_file_list (rt : RunningTask) : List String :=
  rt.task_info.input_files.map (·.file_id)

/-- `RunningTask::save_dynamic_output`. -/
def RunningTask.save_dynamic_output (rt : RunningTask) (output : String) : RunningTask :=
  { rt with task_result := { rt.task_result with output := some output } }

/-- `RunningTask::retrieve_running_task`: a worker's way back to its task,
    by context id and token. -/
def retrieve_running_task (s : FnsState) (context_id context_token : String) :
    Result RunningTask :=
  match s.RUNNING_TASK_QUEUE.get context_id with
  | none => .error .MissingValue
  | some task => if task.context_token ≠ context_token then .error .PermissionDenied else .ok task

/-- The checks `RunningTask::init` makes on the record TMS returned. -/
def init_check (req : InvokeTaskRequest) (task_info : TaskInfo) : Option ErrorKind :=
  if task_info.task_token ≠ req.task_token then some .PermissionDenied
  else if task_info.function_name ≠ req.function_name then some .PermissionDenied
  else if task_info.status ≠ .Ready then some .PermissionDenied
  else none

/-- The `file_owner_map` of `RunningTask::init`: each input file's owner (a
    later entry for the same file wins, as `HashMap::insert` does). -/
def file_owner_map_of (input_files : List TaskFile) : String → Option String :=
  input_files.foldl
    (fun m task_file => Function.update m task_file.file_id (some task_file.user_id)) (fun _ => none)

/-- The running task `RunningTask::init` builds: nothing produced yet. -/
def new_running_task (req : InvokeTaskRequest) (task_info : TaskInfo) (context_token : String) :
    RunningTask :=
  ⟨task_info, req.task_id, context_token, ⟨none, [], none⟩,
    file_owner_map_of task_info.input_files⟩

/-- `RunningTask::read_file`: a file of `file_owner_map` is read unchecked
    ("TMS already checked"), any other is checked for the task's creator;
    `connect` is `TDFSClient::new`, `rest` what follows the check. -/
def RunningTask.read_file (rt : RunningTask) (tdfs : Tdfs.TdfsState) (file_id : String)
    (connect rest : Result Unit) : Result Unit :=
  let check_user_id :=
    if (rt.file_owner_map file_id).isSome then none else some rt.task_info.user_id
  match connect with
  | .error e => .error e
  | .ok () => Tdfs.client_read_file tdfs file_id check_user_id rest

/-- Every file of `file_owner_map` is an input file, owned as the map says. -/
theorem mem_of_file_owner_map_of {file_id user_id : String} :
    ∀ (input_files : List TaskFile) (m : String → Option String),
      input_files.foldl (fun (m : String → Option String) (task_file : TaskFile) =>
          Function.update m task_file.file_id (some task_file.user_id)) m file_id = some user_id →
        ⟨user_id, file_id⟩ ∈ input_files ∨ m file_id = some user_id
  | [], m, h => .inr h
  | task_file :: rest, m, h => by
      rcases mem_of_file_owner_map_of rest _ h with hmem | hm
      · exact .inl (List.mem_cons_of_mem _ hmem)
      · dsimp only at hm
        by_cases hf : file_id = task_file.file_id
        · subst hf
          rw [Function.update_self, Option.some.injEq] at hm
          subst hm
          exact .inl List.mem_cons_self
        · rw [Function.update_of_ne hf] at hm
          exact .inr hm

/-- A worker gets back the running task the queue holds under its context id. -/
theorem retrieve_running_task_eq_ok {s : FnsState} {context_id context_token : String}
    {rt : RunningTask} (h : retrieve_running_task s context_id context_token = .ok rt) :
    s.RUNNING_TASK_QUEUE.get context_id = some rt := by
  unfold retrieve_running_task at h
  cases hg : s.RUNNING_TASK_QUEUE.get context_id with
  | none => simp [hg] at h
  | some task =>
      simp only [hg] at h
      split_ifs at h
      cases h
      rfl

/-- **What a successful `read_file` was checked against**: the file is in
    `file_owner_map`, or TDFS holds metadata letting the task's creator read it. -/
theorem RunningTask.read_file_eq_ok {rt : RunningTask} {tdfs : Tdfs.TdfsState}
    {file_id : String} {connect rest : Result Unit}
    (h : rt.read_file tdfs file_id connect rest = .ok ()) :
    (rt.file_owner_map file_id).isSome ∨
      ∃ file_meta, tdfs.FILE_STORE.get file_id = some file_meta ∧
        file_meta.check_permission rt.task_info.user_id = true := by
  unfold RunningTask.read_file at h
  cases connect with
  | error e => cases h
  | ok u =>
      by_cases hmap : (rt.file_owner_map file_id).isSome
      · exact .inl hmap
      · -- not in the map: checked for the creator
        simp only [hmap] at h
        exact .inr (Tdfs.client_read_file_checked h)

/-- The update `RunningTask::init` sends: status `Running`, nothing else. -/
def running_request (task_id : String) : InternalUpdateTaskRequest :=
  ⟨task_id, none, [], some .Running⟩

/-- The update `RunningTask::finish` sends: `Finished` with the outputs when
    there is an output, `Failed` otherwise. -/
def finish_request (rt : RunningTask) : InternalUpdateTaskRequest :=
  match rt.task_result.output with
  | some _ => ⟨rt.task_id, rt.task_result.task_result_file_id, rt.task_result.output_files,
      some .Finished⟩
  | none => ⟨rt.task_id, none, [], some .Failed⟩

/-! ## §2. Calls to the internal TMS. -/

/-- A call from FNS to the internal TMS, in flight. -/
abbrev TmsCall := Call InternalHandler (Result InternalTaskResponse)

/-- One step of a call carrying `request` (`channel.invoke`). -/
def tms_call_step (request : InternalTaskRequest) (s : TmsState) :
    TmsCall → Option (Result Unit) → Option (TmsState × (TmsCall ⊕ Result InternalTaskResponse)) :=
  Call.step request.handler internal_handle Except.error s

/-- `TMSClient::request_get_task`: the record, from a `Get` response. -/
def get_task_response : Result InternalTaskResponse → Result TaskInfo
  | .ok (.Get task_info) => .ok task_info
  | .ok _ => .error .RPCResponseError
  | .error e => .error e

/-- `TMSClient::request_update_task`: any `Update` response is `Ok`. -/
def update_task_response : Result InternalTaskResponse → Result Unit
  | .ok (.Update _) => .ok ()
  | .ok _ => .error .RPCResponseError
  | .error e => .error e

/-! ## §3. The invocation thread. -/

/-- What a step reads from outside the enclave. -/
inductive FnsInput where
  /-- A step on shared state only, or a step of a TMS handler. -/
  | silent
  /-- `TMSClient::new(target)?`. -/
  | connect (answer : Result Unit)
  /-- `send_vec` or `receive_vec` of a call in flight. -/
  | channel (answer : Result Unit)
  /-- `Uuid::new_v4()`, the context token. -/
  | uuid (context_token : String)
  /-- `worker.prepare_input(..)`. -/
  | prepare (answer : Result Unit)
  /-- `worker.execute(..)`, and what the worker's file saves left in the task
      result. -/
  | execute (answer : Result String) (output_files : List TaskFile)
      (task_result_file_id : Option String)

/-- The input of a step of a call in flight: the channel's answer, or
    nothing for a handler step. -/
def FnsInput.call_input : FnsInput → Option (Option (Result Unit))
  | .silent => some none
  | .channel answer => some (some answer)
  | _ => none

/-- Where `RunningTask::finish` is. -/
inductive FinishPc where
  | removing
  | connecting
  | reporting (call : TmsCall)

/-- Where an `InvokeTaskRequest` thread is. -/
inductive InvokePc where
  | start
  /-- Holding a worker; `TMSClient::new` next. -/
  | connecting (worker : Worker)
  /-- `request_get_task` in flight. -/
  | getting (worker : Worker) (call : TmsCall)
  /-- The checks passed; the context token next. -/
  | drawing (worker : Worker) (task_info : TaskInfo)
  /-- The insert into `RUNNING_TASK_QUEUE` next. -/
  | queueing (worker : Worker) (running_task : RunningTask)
  /-- `request_update_task(.., Running)` in flight. -/
  | starting (worker : Worker) (running_task : RunningTask) (call : TmsCall)
  /-- That update failed; the remove from `RUNNING_TASK_QUEUE` next. -/
  | unqueueing (worker : Worker) (task_id : String) (err : ErrorKind)
  | preparing (worker : Worker) (running_task : RunningTask)
  | executing (worker : Worker) (running_task : RunningTask)
  /-- In `finish`; `outcome` is what `invoke_worker` returns after it (an `Ok`
      output is replaced by `finish`'s error, if any). -/
  | finishing (worker : Worker) (running_task : RunningTask) (outcome : Result String)
      (fpc : FinishPc)
  /-- `release_worker` next. -/
  | releasing (worker : Worker) (response : Result InvokeTaskResponse)
  | done (response : Result InvokeTaskResponse)

/-- What `invoke_worker` returns once `finish` returned `r`. -/
def after_finish (outcome : Result String) (r : Result Unit) : Result InvokeTaskResponse :=
  match outcome, r with
  | .error e, _ => .error e
  | .ok _, .error e => .error e
  | .ok output, .ok () => .ok ⟨output⟩

/-- One atomic step of `RunningTask::finish` on behalf of `rt`: the next
    finish state, or `finish`'s result. -/
def finish_step (tms : TmsState) (fns : FnsState) (rt : RunningTask) :
    FinishPc → FnsInput → Option (TmsState × FnsState × (FinishPc ⊕ Result Unit))
  | .removing, .silent =>
      -- `let _ = Self::remove_from_queue(&self.task_id)`
      some (tms, { fns with RUNNING_TASK_QUEUE := (fns.RUNNING_TASK_QUEUE.del rt.task_id).1 },
        .inl .connecting)
  | .connecting, .connect answer =>
      match answer with
      | .error e => some (tms, fns, .inr (.error e))
      | .ok () => some (tms, fns, .inl (.reporting .sending))
  | .reporting call, a =>
      match a.call_input with
      | none => none
      | some ans =>
          match tms_call_step (.Update (finish_request rt)) tms call ans with
          | none => none
          | some (tms', .inl call') => some (tms', fns, .inl (.reporting call'))
          | some (tms', .inr r) => some (tms', fns, .inr (update_task_response r))
  | _, _ => none

/-- One atomic step of an `InvokeTaskRequest` thread. -/
def invoke_step (tms : TmsState) (fns : FnsState) (req : InvokeTaskRequest) :
    InvokePc → FnsInput → Option (TmsState × FnsState × InvokePc)
  | .start, .silent =>
      match fns.WORKER_INFO_QUEUE.aquire_worker req.function_name with
      | .error e => some (tms, fns, .done (.error e))
      | .ok (q, worker) => some (tms, { fns with WORKER_INFO_QUEUE := q }, .connecting worker)
  | .connecting worker, .connect answer =>
      match answer with
      | .error e => some (tms, fns, .releasing worker (.error e))
      | .ok () => some (tms, fns, .getting worker .sending)
  | .getting worker call, a =>
      match a.call_input with
      | none => none
      | some ans =>
          match tms_call_step (.Get req.task_id) tms call ans with
          | none => none
          | some (tms', .inl call') => some (tms', fns, .getting worker call')
          | some (tms', .inr r) =>
              match get_task_response r with
              | .error e => some (tms', fns, .releasing worker (.error e))
              | .ok task_info =>
                  match init_check req task_info with
                  | some e => some (tms', fns, .releasing worker (.error e))
                  | none => some (tms', fns, .drawing worker task_info)
  | .drawing worker task_info, .uuid context_token =>
      some (tms, fns, .queueing worker (new_running_task req task_info context_token))
  | .queueing worker rt, .silent =>
      -- `if queue.contains_key(&task_id) { return Err(PermissionDenied) }`
      match fns.RUNNING_TASK_QUEUE.get rt.task_id with
      | some _ => some (tms, fns, .releasing worker (.error .PermissionDenied))
      | none =>
          some (tms, { fns with RUNNING_TASK_QUEUE := fns.RUNNING_TASK_QUEUE.set rt.task_id rt },
            .starting worker rt .sending)
  | .starting worker rt call, a =>
      match a.call_input with
      | none => none
      | some ans =>
          match tms_call_step (.Update (running_request rt.task_id)) tms call ans with
          | none => none
          | some (tms', .inl call') => some (tms', fns, .starting worker rt call')
          | some (tms', .inr r) =>
              match update_task_response r with
              | .error e => some (tms', fns, .unqueueing worker rt.task_id e)
              | .ok () => some (tms', fns, .preparing worker rt)
  | .unqueueing worker task_id err, .silent =>
      some (tms, { fns with RUNNING_TASK_QUEUE := (fns.RUNNING_TASK_QUEUE.del task_id).1 },
        .releasing worker (.error err))
  | .preparing worker rt, .prepare answer =>
      match answer with
      | .error e => some (tms, fns, .finishing worker rt (.error e) .removing)
      | .ok () => some (tms, fns, .executing worker rt)
  | .executing worker rt, .execute answer output_files task_result_file_id =>
      -- the worker's file saves reach the task result through the `Arc`
      let rt := { rt with task_result := { rt.task_result with
        output_files := output_files, task_result_file_id := task_result_file_id } }
      match answer with
      | .error e => some (tms, fns, .finishing worker rt (.error e) .removing)
      | .ok output =>
          some (tms, fns, .finishing worker (rt.save_dynamic_output output) (.ok output) .removing)
  | .finishing worker rt outcome fpc, a =>
      match finish_step tms fns rt fpc a with
      | none => none
      | some (tms', fns', .inl fpc') => some (tms', fns', .finishing worker rt outcome fpc')
      | some (tms', fns', .inr r) => some (tms', fns', .releasing worker (after_finish outcome r))
  | .releasing worker response, .silent =>
      -- `let _ = WorkerInfoQueue::release_worker(worker)`
      some (tms, { fns with WORKER_INFO_QUEUE := (fns.WORKER_INFO_QUEUE.release_worker worker).1 },
        .done response)
  | _, _ => none

end Teaclave.Fns
