/-
  Teaclave.System.Basic
  ─────────────────────
  **THE TMS, FNS AND TDFS ENCLAVES AS ONE SYSTEM.**

  The parties and their states: the TMS stores (`Tms.Handlers`), the FNS
  statics (`Fns.Invoke`) and the TDFS stores (`Tdfs.Service`).  The threads:
  the external TMS request handlers, the FNS invocations (whose calls to the
  internal TMS run their handlers on the TMS state), and the calls any client
  makes to TDFS, each of which runs as one step.  Every interleaving of the
  threads' atomic steps is a run of `system_pool_step`.

  A TMS file check asks TDFS (`TDFSClient::check_access_permission`, over the
  internal `GetFileRequest`), so its answer is not free: it is an error, or
  the check on the metadata TDFS holds at that step (`tms_input_ok`).
-/
import Teaclave.Fns.Invoke

namespace Teaclave.System

open Teaclave.Core Teaclave.Lib Teaclave.Tms Teaclave.Fns

/-! ## §1. The parties and their threads. -/

/-- The shared state of the three enclaves. -/
structure SystemState where
  tms : TmsState
  fns : FnsState
  tdfs : Tdfs.TdfsState

/-- A request to one of the enclaves. -/
inductive SystemRequest where
  | tms (req : ExternalRequest)
  | fns (req : InvokeTaskRequest)
  | tdfs (call : Tdfs.TdfsCall)

/-- A thread of one of the enclaves; a TDFS call is `served` once it has run. -/
inductive SystemThread where
  | tms (t : ExternalThread)
  | fns (req : InvokeTaskRequest) (pc : InvokePc)
  | tdfs (call : Tdfs.TdfsCall) (served : Bool)

/-- What a step reads from outside its enclave. -/
inductive SystemInput where
  | tms (a : TmsInput)
  | fns (a : FnsInput)
  | tdfs

/-- The handler a request starts. -/
def SystemThread.start : SystemRequest → SystemThread
  | .tms req => .tms (ExternalThread.start req)
  | .fns req => .fns req .start
  | .tdfs call => .tdfs call false

/-! ## §2. What TDFS can answer a TMS file check. -/

/-- The file and the user a TMS thread's next step asks TDFS about. -/
def tms_file_check : ExternalThread → Option (String × String)
  | .create req (.checking (file_id :: _)) => some (file_id, req.user_id)
  | .update req (.checking _ (file_id :: _)) => some (file_id, req.user_id)
  | _ => none

/-- What `TDFSClient::new` and `check_access_permission` can answer a TMS
    check: an error (the connection, or no such file), or the check on the
    file's metadata as TDFS holds it now. -/
def tdfs_can_answer (tdfs : Tdfs.TdfsState) (file_id user_id : String) : Result Bool → Bool
  | .error _ => true
  | .ok b =>
      match Tdfs.check_access_permission tdfs file_id user_id with
      | .ok b' => b' == b
      | .error _ => false

/-- A TMS step's input is one TDFS could give. -/
def tms_input_ok (tdfs : Tdfs.TdfsState) (t : ExternalThread) (a : TmsInput) : Bool :=
  match tms_file_check t, a with
  | some (file_id, user_id), .tdfs answer => tdfs_can_answer tdfs file_id user_id answer
  | _, _ => true

/-- A TDFS yes to a check is the check on metadata TDFS holds. -/
theorem tdfs_can_answer_ok_true {tdfs : Tdfs.TdfsState} {file_id user_id : String}
    (h : tdfs_can_answer tdfs file_id user_id (.ok true) = true) :
    ∃ file_meta, tdfs.FILE_STORE.get file_id = some file_meta ∧
      file_meta.check_permission user_id = true := by
  unfold tdfs_can_answer at h
  cases hc : Tdfs.check_access_permission tdfs file_id user_id with
  | error e => simp [hc] at h
  | ok b =>
      simp only [hc, beq_iff_eq] at h
      subst h
      exact Tdfs.check_access_permission_eq_true hc

/-! ## §3. The system's steps. -/

/-- One atomic step of thread `i`. -/
def system_step (cfg : TmsConfig) (i : Nat) (s : SystemState) :
    SystemThread → SystemInput → Option (SystemState × SystemThread)
  | .tms t, .tms a =>
      if tms_input_ok s.tdfs t a = false then none
      else
        match external_step cfg i s.tms t a with
        | none => none
        | some (tms', t') => some ({ s with tms := tms' }, .tms t')
  | .fns req pc, .fns a =>
      match invoke_step s.tms s.fns req pc a with
      | none => none
      | some (tms', fns', pc') => some ({ s with tms := tms', fns := fns' }, .fns req pc')
  | .tdfs call false, .tdfs =>
      match Tdfs.tdfs_step s.tdfs call with
      | none => none
      | some tdfs' => some ({ s with tdfs := tdfs' }, .tdfs call true)
  | _, _ => none

/-- **What one thread step can do**: a TMS step with an input TDFS could
    give, an FNS step, or a TDFS call served once. -/
theorem system_step_eq_some {cfg : TmsConfig} {i : Nat} {s s' : SystemState}
    {t t' : SystemThread} {a : SystemInput} (h : system_step cfg i s t a = some (s', t')) :
    (∃ t₀ a₀ t₀' tms', t = .tms t₀ ∧ a = .tms a₀ ∧ tms_input_ok s.tdfs t₀ a₀ = true ∧
        external_step cfg i s.tms t₀ a₀ = some (tms', t₀') ∧
        s' = { s with tms := tms' } ∧ t' = .tms t₀') ∨
      (∃ req pc a₀ pc' tms' fns', t = .fns req pc ∧ a = .fns a₀ ∧
        invoke_step s.tms s.fns req pc a₀ = some (tms', fns', pc') ∧
        s' = { s with tms := tms', fns := fns' } ∧ t' = .fns req pc') ∨
      (∃ call tdfs', t = .tdfs call false ∧ a = .tdfs ∧ Tdfs.tdfs_step s.tdfs call = some tdfs' ∧
        s' = { s with tdfs := tdfs' } ∧ t' = .tdfs call true) := by
  cases t with
  | tms t₀ =>
      cases a with
      | tms a₀ =>
          simp only [system_step] at h
          split_ifs at h with hok
          cases he : external_step cfg i s.tms t₀ a₀ with
          | none => simp [he] at h
          | some r =>
              obtain ⟨tms', t₀'⟩ := r
              simp only [he, Option.some.injEq, Prod.mk.injEq] at h
              obtain ⟨rfl, rfl⟩ := h
              exact .inl ⟨t₀, a₀, t₀', tms', rfl, rfl, by simpa using hok, he, rfl, rfl⟩
      | fns _ => simp [system_step] at h
      | tdfs => simp [system_step] at h
  | fns req pc =>
      cases a with
      | fns a₀ =>
          simp only [system_step] at h
          cases hi : invoke_step s.tms s.fns req pc a₀ with
          | none => simp [hi] at h
          | some r =>
              obtain ⟨tms', fns', pc'⟩ := r
              simp only [hi, Option.some.injEq, Prod.mk.injEq] at h
              obtain ⟨rfl, rfl⟩ := h
              exact .inr (.inl ⟨req, pc, a₀, pc', tms', fns', rfl, rfl, hi, rfl, rfl⟩)
      | tms _ => simp [system_step] at h
      | tdfs => simp [system_step] at h
  | tdfs call served =>
      cases served with
      | true => cases a <;> simp [system_step] at h
      | false =>
          cases a with
          | tdfs =>
              simp only [system_step] at h
              cases hd : Tdfs.tdfs_step s.tdfs call with
              | none => simp [hd] at h
              | some tdfs' =>
                  simp only [hd, Option.some.injEq, Prod.mk.injEq] at h
                  obtain ⟨rfl, rfl⟩ := h
                  exact .inr (.inr ⟨call, tdfs', rfl, rfl, hd, rfl, rfl⟩)
          | tms _ => simp [system_step] at h
          | fns _ => simp [system_step] at h

/-- Every interleaving of the enclaves' threads. -/
def system_pool_step (cfg : TmsConfig) :
    Pool SystemState SystemThread → PoolLabel SystemRequest SystemInput →
      Option (Pool SystemState SystemThread) :=
  Pool.step SystemThread.start (system_step cfg)

/-- The enclaves at start: empty TMS stores, no running task, the trusted
    workers registered (`register_trusted_worker_statically`), and the TDFS
    stores after `add_test_infomation`. -/
def system_init : Pool SystemState SystemThread :=
  ⟨⟨TmsState.init, ⟨Memdb.open, register_trusted_worker_statically WorkerInfoQueue.new⟩,
    Tdfs.tdfs_init⟩, []⟩

/-! ## §4. Schedules the examples of later modules use. -/

/-- An invocation of the `echo` task `task-1`. -/
def echo_invocation : InvokeTaskRequest := ⟨"task-1", "echo", "task-token", some "hello"⟩

/-- Thread `i` serves a call: the request goes out, the handler takes its
    steps, the reply comes back. -/
def call_steps (i handler_steps : Nat) : List (PoolLabel SystemRequest SystemInput) :=
  .exec i (.fns (.channel (.ok ()))) :: List.replicate handler_steps (.exec i (.fns .silent)) ++
    [.exec i (.fns (.channel (.ok ())))]

end Teaclave.System
