/-
  Teaclave.System.FileAuth
  ────────────────────────
  **A TASK READS ONLY FILES SOMEONE WAS ALLOWED TO GIVE IT.**

  `RunningTask::read_file` reads a file of `file_owner_map` unchecked ("TMS
  already checked") and checks any other file for the task's creator.  The
  unchecked half rests on what the other enclaves did earlier: a TMS request
  adds a file to a task's `input_files` only after TDFS said that its user
  may read it (the file loops of `CreateTaskRequest` and
  `UpdateTaskRequest`); the record keeps its input files through the TMS
  store, the internal handlers, FNS's checks and `RUNNING_TASK_QUEUE`; and
  `file_owner_map` is built from them.

  `SystemChecked ok` (§2) says that every record any party holds lists only
  input files `ok` for the user they are recorded under, a user of the task.
  A step keeps it as long as `ok` holds of the check the step makes, if any
  (§3 for TMS, §4 for FNS, §5 for the system).  With "checked earlier in
  the run" for `ok` (`CheckedEarlier`, §1) it holds in every reachable state
  (§6).
-/
import Teaclave.System.Basic

namespace Teaclave.System

open Teaclave.Core Teaclave.Lib Teaclave.Tms Teaclave.Fns

/-! ## §1. A check TDFS said yes to. -/

/-- Step `l` from `p` is a TMS thread's file check that TDFS answered
    `Ok(true)`, on metadata that lets the user read the file. -/
def CheckEvent (p : Pool SystemState SystemThread) (l : PoolLabel SystemRequest SystemInput)
    (file_id user_id : String) : Prop :=
  ∃ i t file_meta, l = .exec i (.tms (.tdfs (.ok true))) ∧ p.threads[i]? = some (.tms t) ∧
    tms_file_check t = some (file_id, user_id) ∧
    p.shared.tdfs.FILE_STORE.get file_id = some file_meta ∧
    file_meta.check_permission user_id = true

/-- Somewhere in the trace `es`, a TMS thread checked `file_id` for `user_id`
    and TDFS said yes, on metadata that lets the user read the file. -/
def CheckedEarlier (cfg : TmsConfig) (es : List (PoolLabel SystemRequest SystemInput))
    (file_id user_id : String) : Prop :=
  ∃ es₁ l es₂ p, es = es₁ ++ l :: es₂ ∧ run (system_pool_step cfg) system_init es₁ = some p ∧
    CheckEvent p l file_id user_id

/-- A TMS check step the guard lets through with TDFS's yes is a `CheckEvent`. -/
theorem checkEvent_of_step {p : Pool SystemState SystemThread} {i : Nat} {t : ExternalThread}
    {file_id user_id : String} (ht : p.threads[i]? = some (.tms t))
    (hfc : tms_file_check t = some (file_id, user_id))
    (hok : tms_input_ok p.shared.tdfs t (.tdfs (.ok true)) = true) :
    CheckEvent p (.exec i (.tms (.tdfs (.ok true)))) file_id user_id := by
  simp only [tms_input_ok, hfc] at hok
  obtain ⟨file_meta, hg, hperm⟩ := tdfs_can_answer_ok_true hok
  exact ⟨i, t, file_meta, rfl, ht, hfc, hg, hperm⟩

/-! ## §2. Records whose input files were checked. -/

section Checked

variable (ok : String → String → Prop)

/-- Every input file of the record is `ok` for the user it is recorded
    under, who is one of the task's users. -/
def InfoChecked (task_info : TaskInfo) : Prop :=
  ∀ task_file ∈ task_info.input_files,
    ok task_file.file_id task_file.user_id ∧ task_file.user_id ∈ task_users task_info

/-- A `CreateTaskRequest` thread: the files checked so far, then the record
    it stores. -/
def CreateChecked (req : CreateTaskRequest) : CreatePc → Prop
  | .checking rest => ∃ pre, req.files = pre ++ rest ∧ ∀ f ∈ pre, ok f req.user_id
  | .storing _ info | .locking _ info | .indexing _ info _ | .adding _ info _ _ _ =>
      InfoChecked ok info
  | .start | .done _ => True

/-- An `UpdateTaskRequest` thread under the lock: the approved record, of
    which the caller is a user. -/
def UpdateChecked (req : UpdateTaskRequest) : UpdatePc → Prop
  | .connecting info | .checking info _ => InfoChecked ok info ∧ req.user_id ∈ task_users info
  | .start | .locking | .reading | .done _ => True

def ExternalChecked : ExternalThread → Prop
  | .create req pc => CreateChecked ok req pc
  | .update req pc => UpdateChecked ok req pc
  | .get _ _ | .list _ _ => True

/-- Every record of `TASK_STORE`. -/
def StoreChecked (s : TmsState) : Prop :=
  ∀ task_id info, s.TASK_STORE.get task_id = some info → InfoChecked ok info

/-- A record the internal TMS sends back. -/
def ReplyChecked (r : Result InternalTaskResponse) : Prop :=
  ∀ info, r = .ok (.Get info) → InfoChecked ok info

def HandlerChecked : InternalHandler → Prop
  | .update _ (.writing info) => InfoChecked ok info
  | .update _ (.done r) => ReplyChecked ok r
  | .update _ .start | .get _ => True

/-- A call to the internal TMS, in flight. -/
def CallChecked : TmsCall → Prop := Call.Holds (HandlerChecked ok) (ReplyChecked ok)

/-- A running task: its record, and its map lists only input files. -/
def TaskChecked (rt : RunningTask) : Prop :=
  InfoChecked ok rt.task_info ∧
    ∀ file_id user_id, rt.file_owner_map file_id = some user_id →
      ⟨user_id, file_id⟩ ∈ rt.task_info.input_files

def FinishChecked : FinishPc → Prop
  | .reporting call => CallChecked ok call
  | .removing | .connecting => True

def InvokeChecked : InvokePc → Prop
  | .getting _ call => CallChecked ok call
  | .drawing _ info => InfoChecked ok info
  | .queueing _ rt | .preparing _ rt | .executing _ rt => TaskChecked ok rt
  | .starting _ rt call => TaskChecked ok rt ∧ CallChecked ok call
  | .finishing _ rt _ fpc => TaskChecked ok rt ∧ FinishChecked ok fpc
  | .start | .connecting _ | .unqueueing _ _ _ | .releasing _ _ | .done _ => True

/-- Every running task of `RUNNING_TASK_QUEUE`. -/
def QueueChecked (fns : FnsState) : Prop :=
  ∀ task_id rt, fns.RUNNING_TASK_QUEUE.get task_id = some rt → TaskChecked ok rt

def ThreadChecked : SystemThread → Prop
  | .tms t => ExternalChecked ok t
  | .fns _ pc => InvokeChecked ok pc
  | .tdfs _ _ => True

/-- **Every record any party holds has only `ok` input files.** -/
structure SystemChecked (p : Pool SystemState SystemThread) : Prop where
  store : StoreChecked ok p.shared.tms
  queue : QueueChecked ok p.shared.fns
  threads : ∀ (j : Nat) (t : SystemThread), p.threads[j]? = some t → ThreadChecked ok t

end Checked

/-! ## §3. TMS steps. -/

section TmsSteps

variable {ok : String → String → Prop}

theorem infoChecked_new_task_info {cfg : TmsConfig} {req : CreateTaskRequest} {token : String}
    (h : ∀ f ∈ req.files, ok f req.user_id) : InfoChecked ok (new_task_info cfg req token) := by
  intro task_file hmem
  obtain ⟨f, hf, rfl⟩ := List.mem_map.mp hmem
  exact ⟨h f hf, List.mem_cons_self⟩

theorem InfoChecked.approve {u : String} {info info' : TaskInfo} (h : InfoChecked ok info)
    (ha : approve u info = some info') : InfoChecked ok info' := by
  intro task_file hmem
  rw [approve_input_files ha] at hmem
  rw [(approve_users ha).1]
  exact h task_file hmem

/-- A file the caller was allowed to add joins the record. -/
theorem InfoChecked.append {info : TaskInfo} {f u : String} (h : InfoChecked ok info)
    (hf : ok f u) (hu : u ∈ task_users info) :
    InfoChecked ok { info with input_files := info.input_files ++ [⟨u, f⟩] } := by
  intro task_file hmem
  rcases List.mem_append.mp hmem with hold | hnew
  · exact h task_file hold
  · rw [List.mem_singleton] at hnew
    subst hnew
    exact ⟨hf, hu⟩

theorem StoreChecked.set {s s' : TmsState} {task_id : String} {info : TaskInfo}
    (h : StoreChecked ok s) (hi : InfoChecked ok info)
    (hs' : s'.TASK_STORE = s.TASK_STORE.set task_id info) : StoreChecked ok s' := by
  intro tid info' hg
  rw [hs'] at hg
  exact Memdb.forall_get_set h hi tid info' hg

theorem create_step_checked {cfg : TmsConfig} {i : Nat} {s s' : TmsState}
    {req : CreateTaskRequest} {pc pc' : CreatePc} {a : TmsInput} (hs : StoreChecked ok s)
    (hpc : CreateChecked ok req pc)
    (hcheck : ∀ f rest, pc = .checking (f :: rest) → a = .tdfs (.ok true) → ok f req.user_id)
    (h : create_step cfg i s req pc a = some (s', pc')) :
    StoreChecked ok s' ∧ CreateChecked ok req pc' := by
  cases pc with
  | start =>
      cases a with
      | silent =>
          cases hpre : create_precheck req <;>
            simp only [create_step, hpre, Option.some.injEq, Prod.mk.injEq] at h <;>
            obtain ⟨rfl, rfl⟩ := h
          · exact ⟨hs, [], rfl, fun _ hf => absurd hf List.not_mem_nil⟩
          · exact ⟨hs, trivial⟩
      | _ => simp [create_step] at h
  | checking rest =>
      obtain ⟨pre, hpre, hok⟩ := hpc
      cases rest with
      | cons f rest =>
          cases a with
          | tdfs answer =>
              rcases answer with err | _ | _ <;>
                simp only [create_step, Option.some.injEq, Prod.mk.injEq] at h <;>
                obtain ⟨rfl, rfl⟩ := h
              · exact ⟨hs, trivial⟩
              · exact ⟨hs, trivial⟩
              · -- TDFS said yes: the file joins the checked prefix
                refine ⟨hs, pre ++ [f], by simp [hpre], fun g hg => ?_⟩
                rcases List.mem_append.mp hg with hg | hg
                · exact hok g hg
                · rw [List.mem_singleton] at hg
                  subst hg
                  exact hcheck g rest rfl rfl
          | _ => simp [create_step] at h
      | nil =>
          cases a with
          | fresh token uuid =>
              rcases token with err | token
              · simp only [create_step, Option.some.injEq, Prod.mk.injEq] at h
                obtain ⟨rfl, rfl⟩ := h
                exact ⟨hs, trivial⟩
              · cases hget : s.TASK_STORE.get uuid <;>
                  simp only [create_step, hget, Option.some.injEq, Prod.mk.injEq] at h <;>
                  obtain ⟨rfl, rfl⟩ := h
                · -- every file was checked: the record holds them all
                  rw [List.append_nil] at hpre
                  exact ⟨hs, infoChecked_new_task_info (hpre ▸ hok)⟩
                · exact ⟨hs, trivial⟩
          | _ => simp [create_step] at h
  | storing tid info =>
      cases a with
      | silent =>
          simp only [create_step, Option.some.injEq, Prod.mk.injEq] at h
          obtain ⟨rfl, rfl⟩ := h
          exact ⟨hs.set hpc rfl, hpc⟩
      | _ => simp [create_step] at h
  | locking tid info =>
      cases a with
      | silent =>
          cases hlock : s.UPDATELOCK with
          | some holder => simp [create_step, hlock] at h
          | none =>
              simp only [create_step, hlock, Option.some.injEq, Prod.mk.injEq] at h
              obtain ⟨rfl, rfl⟩ := h
              exact ⟨hs, hpc⟩
      | _ => simp [create_step] at h
  | indexing tid info rest =>
      cases a with
      | silent =>
          cases rest <;> simp only [create_step, Option.some.injEq, Prod.mk.injEq] at h <;>
            obtain ⟨rfl, rfl⟩ := h
          · exact ⟨hs, trivial⟩
          · exact ⟨hs, hpc⟩
      | _ => simp [create_step] at h
  | adding tid info u id_set rest =>
      cases a with
      | silent =>
          simp only [create_step, Option.some.injEq, Prod.mk.injEq] at h
          obtain ⟨rfl, rfl⟩ := h
          exact ⟨hs, hpc⟩
      | _ => simp [create_step] at h
  | done r => cases a <;> simp [create_step] at h

theorem update_step_checked {i : Nat} {s s' : TmsState} {req : UpdateTaskRequest}
    {pc pc' : UpdatePc} {a : TmsInput} (hs : StoreChecked ok s) (hpc : UpdateChecked ok req pc)
    (hcheck : ∀ info f rest, pc = .checking info (f :: rest) → a = .tdfs (.ok true) →
      ok f req.user_id)
    (h : update_step i s req pc a = some (s', pc')) :
    StoreChecked ok s' ∧ UpdateChecked ok req pc' := by
  cases pc with
  | start =>
      cases a with
      | silent =>
          cases hpre : update_precheck req (s.TASK_STORE.get req.task_id) <;>
            simp only [update_step, hpre, Option.some.injEq, Prod.mk.injEq] at h <;>
            obtain ⟨rfl, rfl⟩ := h
          · exact ⟨hs, trivial⟩
          · exact ⟨hs, trivial⟩
      | _ => simp [update_step] at h
  | locking =>
      cases a with
      | silent =>
          cases hlock : s.UPDATELOCK with
          | some holder => simp [update_step, hlock] at h
          | none =>
              simp only [update_step, hlock, Option.some.injEq, Prod.mk.injEq] at h
              obtain ⟨rfl, rfl⟩ := h
              exact ⟨hs, trivial⟩
      | _ => simp [update_step] at h
  | reading =>
      cases a with
      | silent =>
          cases hget : s.TASK_STORE.get req.task_id with
          | none =>
              simp only [update_step, hget, Option.some.injEq, Prod.mk.injEq] at h
              obtain ⟨rfl, rfl⟩ := h
              exact ⟨hs, trivial⟩
          | some info =>
              -- the approval keeps the record's files and makes the caller a user
              cases happ : approve req.user_id info <;>
                simp only [update_step, hget, happ, Option.some.injEq, Prod.mk.injEq] at h <;>
                obtain ⟨rfl, rfl⟩ := h
              · exact ⟨hs, trivial⟩
              · exact ⟨hs, (hs _ _ hget).approve happ, approve_mem_users happ⟩
      | _ => simp [update_step] at h
  | connecting info =>
      cases a with
      | connect answer =>
          rcases answer with err | _ <;>
            simp only [update_step, Option.some.injEq, Prod.mk.injEq] at h <;>
            obtain ⟨rfl, rfl⟩ := h
          · exact ⟨hs, trivial⟩
          · exact ⟨hs, hpc⟩
      | _ => simp [update_step] at h
  | checking info rest =>
      cases rest with
      | cons f rest =>
          cases a with
          | tdfs answer =>
              rcases answer with err | _ | _ <;>
                simp only [update_step, Option.some.injEq, Prod.mk.injEq] at h <;>
                obtain ⟨rfl, rfl⟩ := h
              · exact ⟨hs, trivial⟩
              · exact ⟨hs, trivial⟩
              · -- TDFS said yes: the file joins the record under the caller
                exact ⟨hs, hpc.1.append (hcheck info f rest rfl rfl) hpc.2, hpc.2⟩
          | _ => simp [update_step] at h
      | nil =>
          cases a with
          | silent =>
              simp only [update_step, Option.some.injEq, Prod.mk.injEq] at h
              obtain ⟨rfl, rfl⟩ := h
              exact ⟨hs.set hpc.1 rfl, trivial⟩
          | _ => simp [update_step] at h
  | done r => cases a <;> simp [update_step] at h

/-- **One external TMS step keeps the store and its thread checked**, given
    the check it makes, if any. -/
theorem external_step_checked {cfg : TmsConfig} {i : Nat} {s s' : TmsState}
    {t t' : ExternalThread} {a : TmsInput} (hs : StoreChecked ok s) (ht : ExternalChecked ok t)
    (hcheck : ∀ f u, tms_file_check t = some (f, u) → a = .tdfs (.ok true) → ok f u)
    (h : external_step cfg i s t a = some (s', t')) :
    StoreChecked ok s' ∧ ExternalChecked ok t' := by
  cases t with
  | create req pc =>
      obtain ⟨⟨s₁, pc₁⟩, hc, he⟩ := Option.map_eq_some_iff.mp h
      simp only [Prod.mk.injEq] at he
      obtain ⟨rfl, rfl⟩ := he
      refine create_step_checked hs ht (fun f rest hpc ha => hcheck f req.user_id ?_ ha) hc
      subst hpc
      rfl
  | update req pc =>
      obtain ⟨⟨s₁, pc₁⟩, hc, he⟩ := Option.map_eq_some_iff.mp h
      simp only [Prod.mk.injEq] at he
      obtain ⟨rfl, rfl⟩ := he
      refine update_step_checked hs ht (fun info f rest hpc ha => hcheck f req.user_id ?_ ha) hc
      subst hpc
      rfl
  | get req resp =>
      rcases resp with _ | resp <;> cases a <;>
        simp only [external_step, Option.some.injEq, Prod.mk.injEq, reduceCtorEq] at h
      obtain ⟨rfl, rfl⟩ := h
      exact ⟨hs, trivial⟩
  | list req resp =>
      rcases resp with _ | resp <;> cases a <;>
        simp only [external_step, Option.some.injEq, Prod.mk.injEq, reduceCtorEq] at h
      obtain ⟨rfl, rfl⟩ := h
      exact ⟨hs, trivial⟩

end TmsSteps

/-! ## §4. FNS steps and their calls to the TMS. -/

section FnsSteps

variable {ok : String → String → Prop}

theorem replyChecked_error (e : ErrorKind) : ReplyChecked ok (.error e) := by
  intro info h
  cases h

theorem replyChecked_update (b : Bool) : ReplyChecked ok (.ok (.Update b)) := by
  intro info h
  cases h

/-- The internal update leaves the input files and the users alone. -/
theorem infoChecked_apply_internal_update {req : InternalUpdateTaskRequest} {info : TaskInfo} :
    InfoChecked ok (apply_internal_update req info) ↔ InfoChecked ok info :=
  Iff.rfl

theorem internal_handle_checked {s s' : TmsState} {hd : InternalHandler}
    {r : InternalHandler ⊕ Result InternalTaskResponse} (hs : StoreChecked ok s)
    (hh : HandlerChecked ok hd) (h : internal_handle s hd = some (s', r)) :
    StoreChecked ok s' ∧ Sum.elim (HandlerChecked ok) (ReplyChecked ok) r := by
  cases hd with
  | get task_id =>
      simp only [internal_handle, Option.some.injEq, Prod.mk.injEq] at h
      obtain ⟨rfl, rfl⟩ := h
      -- the internal `GetTaskRequest` sends the stored record
      refine ⟨hs, fun info hr => ?_⟩
      unfold internal_get_task at hr
      cases hg : s.TASK_STORE.get task_id with
      | none => simp [hg] at hr
      | some info₀ =>
          simp only [hg, Except.ok.injEq, InternalTaskResponse.Get.injEq] at hr
          subst hr
          exact hs _ _ hg
  | update req pc =>
      cases pc with
      | start =>
          cases hg : s.TASK_STORE.get req.task_id <;>
            simp only [internal_handle, internal_update_step, hg, Option.some.injEq,
              Prod.mk.injEq] at h <;>
            obtain ⟨rfl, rfl⟩ := h
          · exact ⟨hs, replyChecked_update false⟩
          · exact ⟨hs, infoChecked_apply_internal_update.mpr (hs _ _ hg)⟩
      | writing info =>
          simp only [internal_handle, internal_update_step, Option.some.injEq, Prod.mk.injEq] at h
          obtain ⟨rfl, rfl⟩ := h
          exact ⟨hs.set hh rfl, replyChecked_update true⟩
      | done r => simp [internal_handle, internal_update_step] at h

/-- A call to the internal TMS keeps the store checked and brings back a
    checked record, by `Call.step_holds`. -/
theorem tms_call_step_checked {request : InternalTaskRequest} {s s' : TmsState}
    {call : TmsCall} {ans : Option (Result Unit)} {r : TmsCall ⊕ Result InternalTaskResponse}
    (hs : StoreChecked ok s) (hc : CallChecked ok call)
    (h : tms_call_step request s call ans = some (s', r)) :
    StoreChecked ok s' ∧ Sum.elim (CallChecked ok) (ReplyChecked ok) r := by
  have hstart : HandlerChecked ok request.handler := by
    cases request <;> trivial
  exact Call.step_holds request.handler internal_handle Except.error hstart replyChecked_error
    (fun _ _ _ _ hs hh h => internal_handle_checked hs hh h) hs hc h

theorem get_task_response_eq_ok {r : Result InternalTaskResponse} {info : TaskInfo}
    (h : get_task_response r = .ok info) : r = .ok (.Get info) := by
  rcases r with e | (info₀ | b) <;> simp only [get_task_response, reduceCtorEq] at h
  simp only [Except.ok.injEq] at h
  subst h
  rfl

/-- The running task `init` builds from a checked record is checked. -/
theorem taskChecked_new_running_task {req : InvokeTaskRequest} {info : TaskInfo}
    {context_token : String} (h : InfoChecked ok info) :
    TaskChecked ok (new_running_task req info context_token) := by
  refine ⟨h, fun file_id user_id hm => ?_⟩
  rcases mem_of_file_owner_map_of info.input_files _ hm with hmem | hnone
  · exact hmem
  · cases hnone

theorem finish_step_checked {tms tms' : TmsState} {fns fns' : FnsState} {rt : RunningTask}
    {fpc : FinishPc} {a : FnsInput} {r : FinishPc ⊕ Result Unit} (hs : StoreChecked ok tms)
    (hq : QueueChecked ok fns) (hf : FinishChecked ok fpc)
    (h : finish_step tms fns rt fpc a = some (tms', fns', r)) :
    StoreChecked ok tms' ∧ QueueChecked ok fns' ∧ Sum.elim (FinishChecked ok) (fun _ => True) r := by
  cases fpc with
  | removing =>
      cases a with
      | silent =>
          simp only [finish_step, Option.some.injEq, Prod.mk.injEq] at h
          obtain ⟨rfl, rfl, rfl⟩ := h
          exact ⟨hs, Memdb.forall_get_del _ hq, trivial⟩
      | _ => simp [finish_step] at h
  | connecting =>
      cases a with
      | connect answer =>
          rcases answer with err | _ <;>
            simp only [finish_step, Option.some.injEq, Prod.mk.injEq] at h <;>
            obtain ⟨rfl, rfl, rfl⟩ := h
          · exact ⟨hs, hq, trivial⟩
          · exact ⟨hs, hq, trivial⟩
      | _ => simp [finish_step] at h
  | reporting call =>
      simp only [finish_step] at h
      cases hin : a.call_input with
      | none => simp [hin] at h
      | some ans =>
          cases hc : tms_call_step (.Update (finish_request rt)) tms call ans with
          | none => simp [hin, hc] at h
          | some res =>
              obtain ⟨tms₁, r₁⟩ := res
              obtain ⟨hs₁, hr₁⟩ := tms_call_step_checked hs hf hc
              cases r₁ <;> simp only [hin, hc, Option.some.injEq, Prod.mk.injEq] at h <;>
                obtain ⟨rfl, rfl, rfl⟩ := h
              · exact ⟨hs₁, hq, hr₁⟩
              · exact ⟨hs₁, hq, trivial⟩

/-- **One FNS step keeps the TMS store, the queue and its thread checked.** -/
theorem invoke_step_checked {tms tms' : TmsState} {fns fns' : FnsState} {req : InvokeTaskRequest}
    {pc pc' : InvokePc} {a : FnsInput} (hs : StoreChecked ok tms) (hq : QueueChecked ok fns)
    (hpc : InvokeChecked ok pc) (h : invoke_step tms fns req pc a = some (tms', fns', pc')) :
    StoreChecked ok tms' ∧ QueueChecked ok fns' ∧ InvokeChecked ok pc' := by
  cases pc with
  | start =>
      cases a with
      | silent =>
          rcases hw : fns.WORKER_INFO_QUEUE.aquire_worker req.function_name with e | ⟨q, w⟩ <;>
            simp only [invoke_step, hw, Option.some.injEq, Prod.mk.injEq] at h <;>
            obtain ⟨rfl, rfl, rfl⟩ := h
          · exact ⟨hs, hq, trivial⟩
          · exact ⟨hs, hq, trivial⟩
      | _ => simp [invoke_step] at h
  | connecting w =>
      cases a with
      | connect answer =>
          rcases answer with err | _ <;>
            simp only [invoke_step, Option.some.injEq, Prod.mk.injEq] at h <;>
            obtain ⟨rfl, rfl, rfl⟩ := h
          · exact ⟨hs, hq, trivial⟩
          · exact ⟨hs, hq, trivial⟩
      | _ => simp [invoke_step] at h
  | getting w call =>
      simp only [invoke_step] at h
      cases hin : a.call_input with
      | none => simp [hin] at h
      | some ans =>
          cases hc : tms_call_step (.Get req.task_id) tms call ans with
          | none => simp [hin, hc] at h
          | some res =>
              obtain ⟨tms₁, r₁⟩ := res
              obtain ⟨hs₁, hr₁⟩ := tms_call_step_checked hs hpc hc
              cases r₁ with
              | inl call' =>
                  simp only [hin, hc, Option.some.injEq, Prod.mk.injEq] at h
                  obtain ⟨rfl, rfl, rfl⟩ := h
                  exact ⟨hs₁, hq, hr₁⟩
              | inr r =>
                  -- the record TMS sent back, if `init`'s checks pass on it
                  rcases hg : get_task_response r with e | info
                  · simp only [hin, hc, hg, Option.some.injEq, Prod.mk.injEq] at h
                    obtain ⟨rfl, rfl, rfl⟩ := h
                    exact ⟨hs₁, hq, trivial⟩
                  · cases hi : init_check req info <;>
                      simp only [hin, hc, hg, hi, Option.some.injEq, Prod.mk.injEq] at h <;>
                      obtain ⟨rfl, rfl, rfl⟩ := h
                    · exact ⟨hs₁, hq, hr₁ info (get_task_response_eq_ok hg)⟩
                    · exact ⟨hs₁, hq, trivial⟩
  | drawing w info =>
      cases a with
      | uuid context_token =>
          simp only [invoke_step, Option.some.injEq, Prod.mk.injEq] at h
          obtain ⟨rfl, rfl, rfl⟩ := h
          exact ⟨hs, hq, taskChecked_new_running_task hpc⟩
      | _ => simp [invoke_step] at h
  | queueing w rt =>
      cases a with
      | silent =>
          cases hg : fns.RUNNING_TASK_QUEUE.get rt.task_id <;>
            simp only [invoke_step, hg, Option.some.injEq, Prod.mk.injEq] at h <;>
            obtain ⟨rfl, rfl, rfl⟩ := h
          · exact ⟨hs, Memdb.forall_get_set hq hpc, hpc, trivial⟩
          · exact ⟨hs, hq, trivial⟩
      | _ => simp [invoke_step] at h
  | starting w rt call =>
      simp only [invoke_step] at h
      cases hin : a.call_input with
      | none => simp [hin] at h
      | some ans =>
          cases hc : tms_call_step (.Update (running_request rt.task_id)) tms call ans with
          | none => simp [hin, hc] at h
          | some res =>
              obtain ⟨tms₁, r₁⟩ := res
              obtain ⟨hs₁, hr₁⟩ := tms_call_step_checked hs hpc.2 hc
              cases r₁ with
              | inl call' =>
                  simp only [hin, hc, Option.some.injEq, Prod.mk.injEq] at h
                  obtain ⟨rfl, rfl, rfl⟩ := h
                  exact ⟨hs₁, hq, hpc.1, hr₁⟩
              | inr r =>
                  rcases hu : update_task_response r with e | _ <;>
                    simp only [hin, hc, hu, Option.some.injEq, Prod.mk.injEq] at h <;>
                    obtain ⟨rfl, rfl, rfl⟩ := h
                  · exact ⟨hs₁, hq, trivial⟩
                  · exact ⟨hs₁, hq, hpc.1⟩
  | unqueueing w task_id err =>
      cases a with
      | silent =>
          simp only [invoke_step, Option.some.injEq, Prod.mk.injEq] at h
          obtain ⟨rfl, rfl, rfl⟩ := h
          exact ⟨hs, Memdb.forall_get_del _ hq, trivial⟩
      | _ => simp [invoke_step] at h
  | preparing w rt =>
      cases a with
      | prepare answer =>
          rcases answer with err | _ <;>
            simp only [invoke_step, Option.some.injEq, Prod.mk.injEq] at h <;>
            obtain ⟨rfl, rfl, rfl⟩ := h
          · exact ⟨hs, hq, hpc, trivial⟩
          · exact ⟨hs, hq, hpc⟩
      | _ => simp [invoke_step] at h
  | executing w rt =>
      cases a with
      | execute answer output_files task_result_file_id =>
          -- the worker's results touch neither the record nor the map
          rcases answer with err | output <;>
            simp only [invoke_step, Option.some.injEq, Prod.mk.injEq] at h <;>
            obtain ⟨rfl, rfl, rfl⟩ := h
          · exact ⟨hs, hq, hpc, trivial⟩
          · exact ⟨hs, hq, hpc, trivial⟩
      | _ => simp [invoke_step] at h
  | finishing w rt outcome fpc =>
      simp only [invoke_step] at h
      cases hf : finish_step tms fns rt fpc a with
      | none => simp [hf] at h
      | some res =>
          obtain ⟨tms₁, fns₁, r₁⟩ := res
          obtain ⟨hs₁, hq₁, hr₁⟩ := finish_step_checked hs hq hpc.2 hf
          cases r₁ <;> simp only [hf, Option.some.injEq, Prod.mk.injEq] at h <;>
            obtain ⟨rfl, rfl, rfl⟩ := h
          · exact ⟨hs₁, hq₁, hpc.1, hr₁⟩
          · exact ⟨hs₁, hq₁, trivial⟩
  | releasing w response =>
      cases a with
      | silent =>
          simp only [invoke_step, Option.some.injEq, Prod.mk.injEq] at h
          obtain ⟨rfl, rfl, rfl⟩ := h
          exact ⟨hs, hq, trivial⟩
      | _ => simp [invoke_step] at h
  | done response => cases a <;> simp [invoke_step] at h

end FnsSteps

/-! ## §5. System steps. -/

section SystemSteps

variable {ok : String → String → Prop}

theorem threadChecked_start (r : SystemRequest) : ThreadChecked ok (SystemThread.start r) := by
  rcases r with (req | req | req | req) | req | call <;> trivial

/-- **One system step keeps `SystemChecked ok`**, provided `ok` holds of the
    check the step makes, if it makes one. -/
theorem SystemChecked.step {cfg : TmsConfig} {p p' : Pool SystemState SystemThread}
    {l : PoolLabel SystemRequest SystemInput} (hinv : SystemChecked ok p)
    (hev : ∀ f u, CheckEvent p l f u → ok f u) (h : system_pool_step cfg p l = some p') :
    SystemChecked ok p' := by
  have hold : ∀ i j t, j ≠ i → p.threads[j]? = some t → ThreadChecked ok t :=
    fun _ j t _ hj => hinv.threads j t hj
  cases l with
  | spawn r =>
      rw [Pool.step_spawn h]
      exact ⟨hinv.store, hinv.queue, forall_append_of (threadChecked_start r) hinv.threads⟩
  | exec i a =>
      obtain ⟨t, s', t', ht, hs, rfl⟩ := Pool.step_exec h
      rcases system_step_eq_some hs with
        ⟨t₀, a₀, t₀', tms', rfl, rfl, hok, he, rfl, rfl⟩ |
        ⟨req, pc, a₀, pc', tms', fns', rfl, rfl, hi, rfl, rfl⟩ |
        ⟨call, tdfs', rfl, rfl, -, rfl, rfl⟩
      · -- a TMS step: the check it makes, if any, is a `CheckEvent`
        have hcheck : ∀ f u, tms_file_check t₀ = some (f, u) → a₀ = .tdfs (.ok true) → ok f u := by
          intro f u hfc ha
          subst ha
          exact hev f u (checkEvent_of_step ht hfc hok)
        obtain ⟨hs', ht'⟩ := external_step_checked hinv.store (hinv.threads i _ ht) hcheck he
        exact ⟨hs', hinv.queue, forall_set_of ht ht' (hold i)⟩
      · obtain ⟨hs', hq', hpc'⟩ :=
          invoke_step_checked hinv.store hinv.queue (hinv.threads i _ ht) hi
        exact ⟨hs', hq', forall_set_of ht hpc' (hold i)⟩
      · exact ⟨hinv.store, hinv.queue, forall_set_of ht trivial (hold i)⟩

theorem systemChecked_init : SystemChecked ok system_init where
  store _ _ h := by simp [system_init, TmsState.init] at h
  queue _ _ h := by simp [system_init] at h
  threads _ _ h := by simp [system_init] at h

end SystemSteps

/-! ## §6. Every run. -/

/-- In every reachable state, every record any party holds lists only input
    files checked in the run so far, whatever steps the run takes next. -/
theorem SystemChecked.of_run {cfg : TmsConfig} {es : List (PoolLabel SystemRequest SystemInput)}
    {p : Pool SystemState SystemThread} (h : run (system_pool_step cfg) system_init es = some p) :
    ∀ es₂, SystemChecked (CheckedEarlier cfg (es ++ es₂)) p := by
  refine run_invariant (P := fun es p => ∀ es₂, SystemChecked (CheckedEarlier cfg (es ++ es₂)) p)
    (fun _ => systemChecked_init) ?_ h
  intro es p l p' hrun ih hs es₂
  -- the checks the run makes later include the one this step makes
  rw [List.append_assoc, List.singleton_append]
  exact (ih (l :: es₂)).step (fun f u hev => ⟨es, l, es₂, p, rfl, hrun, hev⟩) hs

/-- **Task file authorization.**  The client's copy of the policy agrees with
    `FileMeta::check_permission` on the stored metadata, for every user.  And
    in every run, when a worker's `read_file` of a file succeeds on the
    running task it retrieved: either the file is one of the task's input
    files, recorded under a user of the task for whom a TMS file check earlier
    in the run got TDFS's yes on metadata permitting that user, or TDFS, when
    the read consulted it, held metadata letting the task's creator read the
    file. -/
theorem task_file_read_authorized (cfg : TmsConfig) :
    (∀ (s : Tdfs.TdfsState) file_id file_info,
      Tdfs.internal_get_file s file_id = .ok (.Get file_info) →
      ∃ file_meta, s.FILE_STORE.get file_id = some file_meta ∧
        ∀ user, Tdfs.client_check_permission file_info user = file_meta.check_permission user) ∧
    ∀ es p context_id context_token rt (tdfs : Tdfs.TdfsState) file_id connect rest,
      run (system_pool_step cfg) system_init es = some p →
      retrieve_running_task p.shared.fns context_id context_token = .ok rt →
      rt.read_file tdfs file_id connect rest = .ok () →
      (∃ user_id, ⟨user_id, file_id⟩ ∈ rt.task_info.input_files ∧
          user_id ∈ task_users rt.task_info ∧ CheckedEarlier cfg es file_id user_id) ∨
        ∃ file_meta, tdfs.FILE_STORE.get file_id = some file_meta ∧
          file_meta.check_permission rt.task_info.user_id = true := by
  refine ⟨fun s file_id file_info h => Tdfs.client_check_permission_agrees h, ?_⟩
  intro es p context_id context_token rt tdfs file_id connect rest hrun hret hread
  have hinv : SystemChecked (CheckedEarlier cfg es) p := by
    simpa using SystemChecked.of_run hrun []
  -- the task was in the queue, so its record and its map are checked
  have hrt : TaskChecked (CheckedEarlier cfg es) rt :=
    hinv.queue context_id rt (retrieve_running_task_eq_ok hret)
  rcases rt.read_file_eq_ok hread with hmap | hcreator
  · obtain ⟨user_id, hu⟩ := Option.isSome_iff_exists.mp hmap
    have hmem := hrt.2 file_id user_id hu
    obtain ⟨hck, husers⟩ := hrt.1 _ hmem
    exact .inl ⟨user_id, hmem, husers, hck⟩
  · exact .inr hcreator

/-- Alice stores `file-1` in TDFS, creates the `echo` task `task-1` over it
    (TDFS says yes to her check), and an invocation of the task gets as far
    as the worker, with context token `context-a`. -/
def alice_file_trace : List (PoolLabel SystemRequest SystemInput) :=
  [.spawn (.tdfs (.create ⟨"data.txt", "sha", 4, "alice", "alice-token"⟩
      (.ok ("key-1", .Aead ⟨[], [], []⟩)) "file-1")), .exec 0 .tdfs,
    .spawn (.tms (.Create ⟨"echo", [], ["file-1"], "alice", "alice-token"⟩)),
    .exec 1 (.tms .silent), .exec 1 (.tms (.tdfs (.ok true))),
    .exec 1 (.tms (.fresh (.ok "task-token") "task-1"))] ++
    List.replicate 5 (.exec 1 (.tms .silent)) ++
    [.spawn (.fns echo_invocation), .exec 2 (.fns .silent), .exec 2 (.fns (.connect (.ok ())))] ++
    call_steps 2 1 ++ [.exec 2 (.fns (.uuid "context-a")), .exec 2 (.fns .silent)] ++
    call_steps 2 2

/-- The worker reads `file-1` unchecked, and Alice's check earlier in the
    run is what allowed it. -/
theorem task_file_read_authorized_alice_file :
    ∃ p rt, run (system_pool_step ⟨"fns", 3444⟩) system_init alice_file_trace = some p ∧
      retrieve_running_task p.shared.fns "task-1" "context-a" = .ok rt ∧
      rt.read_file p.shared.tdfs "file-1" (.ok ()) (.ok ()) = .ok () ∧
      ((∃ user_id, ⟨user_id, "file-1"⟩ ∈ rt.task_info.input_files ∧
          user_id ∈ task_users rt.task_info ∧
          CheckedEarlier ⟨"fns", 3444⟩ alice_file_trace "file-1" user_id) ∨
        ∃ file_meta, p.shared.tdfs.FILE_STORE.get "file-1" = some file_meta ∧
          file_meta.check_permission rt.task_info.user_id = true) := by
  have hcomp : (run (system_pool_step ⟨"fns", 3444⟩) system_init alice_file_trace).bind
      (fun p => (retrieve_running_task p.shared.fns "task-1" "context-a").toOption.map
        (fun rt => rt.read_file p.shared.tdfs "file-1" (.ok ()) (.ok ()))) = some (.ok ()) := by
    decide
  obtain ⟨p, hp, hq⟩ := Option.bind_eq_some_iff.mp hcomp
  obtain ⟨rt, hrt, hr⟩ := Option.map_eq_some_iff.mp hq
  have hret : retrieve_running_task p.shared.fns "task-1" "context-a" = .ok rt := by
    cases he : retrieve_running_task p.shared.fns "task-1" "context-a" with
    | error e => simp [he, Except.toOption] at hrt
    | ok rt₀ =>
        simp only [he, Except.toOption, Option.some.injEq] at hrt
        rw [hrt]
  exact ⟨p, rt, hp, hret, hr, (task_file_read_authorized ⟨"fns", 3444⟩).2 alice_file_trace p
    "task-1" "context-a" rt p.shared.tdfs "file-1" (.ok ()) (.ok ()) hp hret hr⟩

end Teaclave.System
