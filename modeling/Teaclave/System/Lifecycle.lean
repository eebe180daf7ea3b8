/-
  Teaclave.System.Lifecycle
  ─────────────────────────
  **A TASK'S LIFE ACROSS THE TMS AND FNS ENCLAVES.**

  `RunningTask::init` checks `status == Ready` on the record it fetched, and
  only after the insert into `RUNNING_TASK_QUEUE` asks the TMS to set
  `Running`; `finish` takes the task out of the queue before it reports; the
  internal update writes the status it is given, whatever the old one.  So an
  invocation that fetched the record while it was `Ready` can start the task
  again once an earlier run has finished (§2).
-/
import Teaclave.System.Basic

namespace Teaclave.System

open Teaclave.Core Teaclave.Lib Teaclave.Tms Teaclave.Fns

/-! ## §1. What the claim reads off a state. -/

/-- The status `TASK_STORE` holds for a task. -/
def task_status (s : SystemState) (task_id : String) : Option TaskStatus :=
  (s.tms.TASK_STORE.get task_id).map (·.status)

/-- The invocations of `task_id` that returned `Ok`: each of them had
    `RunningTask::init` return `Ok` (`invoke_worker` starts with `init(..)?`). -/
def succeeded_invocations (task_id : String) (threads : List SystemThread) : Nat :=
  threads.countP fun t =>
    match t with
    | .fns req (.done (.ok _)) => req.task_id = task_id
    | _ => false

/-! ## §2. A finished task started again. -/

/-- Thread `i`, holding the context token, from the queue insert to the
    `Running` update's reply. -/
def start_steps (i : Nat) (context_token : String) : List (PoolLabel SystemRequest SystemInput) :=
  [.exec i (.fns (.uuid context_token)), .exec i (.fns .silent)] ++ call_steps i 2

/-- Thread `i` from `prepare_input` to its response: the worker answers
    `hello`, `finish` reports `Finished`, the worker goes back. -/
def run_steps (i : Nat) : List (PoolLabel SystemRequest SystemInput) :=
  [.exec i (.fns (.prepare (.ok ()))), .exec i (.fns (.execute (.ok "hello") [] none)),
    .exec i (.fns .silent), .exec i (.fns (.connect (.ok ())))] ++ call_steps i 2 ++
    [.exec i (.fns .silent)]

/-- Alice creates the single-party task `task-1` (thread 0), two invocations
    of it arrive (threads 1 and 2) and both fetch the record while it is
    `Ready`; the first then runs to the end. -/
def first_run_trace : List (PoolLabel SystemRequest SystemInput) :=
  [.spawn (.tms (.Create ⟨"echo", [], [], "alice", "alice-token"⟩)), .exec 0 (.tms .silent),
    .exec 0 (.tms (.fresh (.ok "task-token") "task-1"))] ++
    List.replicate 5 (.exec 0 (.tms .silent)) ++
    [.spawn (.fns echo_invocation), .spawn (.fns echo_invocation),
      .exec 1 (.fns .silent), .exec 1 (.fns (.connect (.ok ())))] ++ call_steps 1 1 ++
    [.exec 2 (.fns .silent), .exec 2 (.fns (.connect (.ok ())))] ++ call_steps 2 1 ++
    start_steps 1 "context-a" ++ run_steps 1

/-- **`RunningTask::init` succeeds twice, and a `Finished` task goes back to
    `Running`.**  After the first run the task is `Finished`; the second
    invocation's `init` still passes (its check read `Ready`, the queue no
    longer holds the task) and its update sets `Running`; it then runs to the
    end too, so both invocations of `task-1` return `Ok`. -/
theorem finished_task_restarts :
    (run (system_pool_step ⟨"fns", 3444⟩) system_init first_run_trace).map
        (fun p => task_status p.shared "task-1") = some (some .Finished) ∧
      (run (system_pool_step ⟨"fns", 3444⟩) system_init
          (first_run_trace ++ start_steps 2 "context-b")).map
        (fun p => task_status p.shared "task-1") = some (some .Running) ∧
      (run (system_pool_step ⟨"fns", 3444⟩) system_init
          (first_run_trace ++ start_steps 2 "context-b" ++ run_steps 2)).map
        (fun p => succeeded_invocations "task-1" p.threads) = some 2 := by
  decide

end Teaclave.System
