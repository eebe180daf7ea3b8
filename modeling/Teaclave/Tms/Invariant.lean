/-
  Teaclave.Tms.Invariant
  ──────────────────────
  **THE TMS STORE INVARIANT, OVER EVERY INTERLEAVING.**

  The external TMS enclave serves `CreateTaskRequest` and `UpdateTaskRequest`
  on concurrent threads (`Tms.Handlers`).  Whatever the interleaving, and
  whatever TDFS and `gen_token` answer, every stored task keeps

    • its counter equal to the number of approved collaborator entries;
    • per user `u`, as many approved entries of `u` as there are update
      requests BY `u` ON THAT TASK that returned `Ok` (so no entry is approved
      on another user's behalf, and no approval is lost or counted twice);
    • a multiparty task `Created` exactly while the counter is below the
      length of the collaborator list, a single-party task `Ready`;

  and the per-user index is exact where the claim asks: a finished create has
  filed its task under the creator and every collaborator, and no user's set
  holds a task the user is not a party of.

  The one assumption is that `Uuid::new_v4` never repeats itself within a run:
  the uuid check in `CreateTaskRequest::handle_request` is not atomic with the
  store, so two concurrent creates drawing the same uuid would overwrite each
  other.

  Proof shape: `TmsInv` is the inductive strengthening — the claim's facts,
  plus what each thread knows at its program counter (`ThreadInv`), plus the
  lock discipline (`UPDATELOCK` is held by exactly the thread in a locked
  step) and the uuid bookkeeping.  One lemma per kind of atomic step
  (§4) shows it is kept; `TmsInv.step` dispatches.
-/
import Teaclave.Tms.Handlers

namespace Teaclave.Tms

open Teaclave.Core Teaclave.Lib

/-! ## §1. Threads, as the invariant sees them. -/

/-- A user's set of task ids in `USER_TASK_STORE` (empty if absent). -/
def user_tasks (s : TmsState) (u : String) : Finset String :=
  (s.USER_TASK_STORE.get u).getD ∅

/-- Threads at a step that runs under `UPDATELOCK`. -/
def holds_lock : ExternalThread → Bool
  | .create _ (.indexing ..) => true
  | .create _ (.adding ..) => true
  | .update _ .reading => true
  | .update _ (.connecting _) => true
  | .update _ (.checking _ _) => true
  | _ => false

/-- The task id a create thread has checked free and is about to store. -/
def storing_id : ExternalThread → Option String
  | .create _ (.storing task_id _) => some task_id
  | _ => none

/-- An update request on `task_id` by `u` that returned `Ok`. -/
def approved_update (task_id u : String) : ExternalThread → Bool
  | .update req (.done (.ok _)) => req.task_id = task_id && req.user_id = u
  | _ => false

/-- How many update requests on `task_id` by `u` returned `Ok`. -/
def approvals (threads : List ExternalThread) (task_id u : String) : Nat :=
  threads.countP (approved_update task_id u)

/-- The users a create that returned `Ok` for `task_id` asked to file it under. -/
def created_users (task_id : String) : ExternalThread → List String
  | .create req (.done (.ok (.Create tid _ _ _))) =>
      if tid = task_id then req.user_id :: req.collaborator_list else []
  | _ => []

/-- The uuids a trace draws: `Uuid::new_v4` runs once `gen_token` has succeeded. -/
def drawn_uuids : List (PoolLabel ExternalRequest TmsInput) → List String
  | [] => []
  | .exec _ (.fresh (.ok _) uuid) :: es => uuid :: drawn_uuids es
  | _ :: es => drawn_uuids es

theorem drawn_uuids_append (es es' : List (PoolLabel ExternalRequest TmsInput)) :
    drawn_uuids (es ++ es') = drawn_uuids es ++ drawn_uuids es' := by
  induction es with
  | nil => rfl
  | cons e es ih =>
      cases e with
      | spawn r => simp [drawn_uuids, ih]
      | exec i a =>
          cases a with
          | fresh token uuid =>
              cases token with
              | ok tok => simp [drawn_uuids, ih]
              | error err => simp [drawn_uuids, ih]
          | silent => simp [drawn_uuids, ih]
          | tdfs answer => simp [drawn_uuids, ih]
          | connect answer => simp [drawn_uuids, ih]

/-- Uuids a prefix drew stay drawn. -/
theorem drawn_uuids_snoc_sub (es : List (PoolLabel ExternalRequest TmsInput))
    (e : PoolLabel ExternalRequest TmsInput) (tid : String) (h : tid ∈ drawn_uuids es) :
    tid ∈ drawn_uuids (es ++ [e]) := by
  rw [drawn_uuids_append]
  exact List.mem_append_left _ h

/-! ## §2. What each stored record satisfies. -/

/-- The claim's facts about one stored task. -/
structure RecordOk (info : TaskInfo) : Prop where
  counter : info.approved_user_number = count_approved info.collaborator_list
  multiparty : info.function_type = .Multiparty →
    (info.status = .Created ↔ info.approved_user_number < info.collaborator_list.length)
  single : info.function_type = .Single → info.status = .Ready

/-- The users of a freshly created task: the creator, then the collaborators. -/
theorem task_users_new_task_info (cfg : TmsConfig) (req : CreateTaskRequest) (token : String) :
    task_users (new_task_info cfg req token) = req.user_id :: req.collaborator_list := by
  simp [task_users, new_task_info_user_id, new_task_info_collaborator_list, Function.comp_def]

/-- A fresh record has no approved entry. -/
theorem approved_by_new_task_info (cfg : TmsConfig) (req : CreateTaskRequest) (token u : String) :
    approved_by u (new_task_info cfg req token).collaborator_list = 0 := by
  simp [approved_by, new_task_info_collaborator_list, List.countP_eq_zero]

/-- The record a create stores satisfies the facts, once the prechecks passed:
    a multiparty task has at least one collaborator, so it starts below. -/
theorem recordOk_new_task_info (cfg : TmsConfig) (req : CreateTaskRequest) (token : String)
    (hpre : create_precheck req = none) : RecordOk (new_task_info cfg req token) := by
  have hmp : function_type_of req.function_name = .Multiparty → req.collaborator_list ≠ [] := by
    intro hm hnil
    unfold create_precheck at hpre
    split_ifs at hpre with h1 h2
    exact h2 ⟨hm, hnil⟩
  constructor
  · simp [new_task_info_approved_user_number, new_task_info_collaborator_list, count_approved,
      List.countP_map, Function.comp_def]
  · intro hm
    simp only [new_task_info_function_type, new_task_info_status,
      new_task_info_collaborator_list, new_task_info_approved_user_number] at hm ⊢
    rw [hm]
    have hne := hmp hm
    simp only [List.length_map, true_iff]
    exact List.length_pos_of_ne_nil hne
  · intro hs
    simp only [new_task_info_function_type, new_task_info_status] at hs ⊢
    rw [hs]

/-- The facts survive an approval: the counter and the count move together, and
    the status turns `Ready` exactly at the last pending entry. -/
theorem RecordOk.approve {u : String} {info info' : TaskInfo} (hok : RecordOk info)
    (h : approve u info = some info') : RecordOk info' := by
  obtain ⟨hn, hc, hl, -⟩ := approve_counts h
  have hst := approve_status h
  have hft := (approve_users h).2
  have hlt := approve_count_lt h
  constructor
  · rw [hn, hc, hok.counter]
  · intro hm
    have hcreated : info.status = .Created :=
      (hok.multiparty (hft ▸ hm)).mpr (by rw [hok.counter]; exact hlt)
    rw [hst, hl, hn]
    by_cases hlast : info.approved_user_number + 1 = info.collaborator_list.length
    · simp [hlast]
    · have : info.approved_user_number + 1 < info.collaborator_list.length := by
        rw [hok.counter] at hlast ⊢
        omega
      simp [hlast, hcreated, this]
  · intro hs
    have hready := hok.single (hft ▸ hs)
    rw [hst]
    split <;> simp [hready]

/-- The facts do not read the input files. -/
theorem RecordOk.with_inputs {info : TaskInfo} (hok : RecordOk info) (files : List TaskFile) :
    RecordOk { info with input_files := files } :=
  ⟨hok.counter, hok.multiparty, hok.single⟩

/-! ## §3. What each thread knows, and the inductive invariant. -/

/-- `task_id` holds a record filed under the same users as `info`. -/
def Stored (s : TmsState) (task_id : String) (info : TaskInfo) : Prop :=
  ∃ info', s.TASK_STORE.get task_id = some info' ∧ task_users info' = task_users info

/-- An update thread's local copy: the stored record approved by the caller,
    with the checked input files appended. -/
def Approved (s : TmsState) (req : UpdateTaskRequest) (copy : TaskInfo) : Prop :=
  ∃ info info' extra, s.TASK_STORE.get req.task_id = some info ∧
    approve req.user_id info = some info' ∧
    copy = { info' with input_files := info'.input_files ++ extra }

/-- Every user of the list already has `task_id` in its set. -/
def Filed (s : TmsState) (task_id : String) (users : List String) : Prop :=
  ∀ u ∈ users, task_id ∈ user_tasks s u

theorem filed_nil (s : TmsState) (task_id : String) : Filed s task_id [] := by
  simp [Filed]

/-- Filing survives a step that only grows the users' sets. -/
theorem Filed.mono {s s' : TmsState} (hgrow : ∀ u, user_tasks s u ⊆ user_tasks s' u)
    {task_id : String} {users : List String} (h : Filed s task_id users) : Filed s' task_id users :=
  fun u hu => hgrow u (h u hu)

theorem Filed.snoc {s : TmsState} {task_id u : String} {users : List String}
    (h : Filed s task_id users) (hu : task_id ∈ user_tasks s u) : Filed s task_id (users ++ [u]) := by
  intro v hv
  rcases List.mem_append.mp hv with hv | hv
  · exact h v hv
  · rw [List.mem_singleton] at hv
    subst hv
    exact hu

/-- What a create thread knows at each step. -/
def CreateInv (cfg : TmsConfig) (s : TmsState) (req : CreateTaskRequest) : CreatePc → Prop
  | .start => True
  | .checking _ => create_precheck req = none
  | .storing task_id info =>
      create_precheck req = none ∧ (∃ token, info = new_task_info cfg req token) ∧
        s.TASK_STORE.get task_id = none
  | .locking task_id info => (∃ token, info = new_task_info cfg req token) ∧ Stored s task_id info
  | .indexing task_id info rest =>
      (∃ token, info = new_task_info cfg req token) ∧ Stored s task_id info ∧
        ∃ pre, pre ++ rest = task_users info ∧ Filed s task_id pre
  | .adding task_id info u id_set rest =>
      (∃ token, info = new_task_info cfg req token) ∧ Stored s task_id info ∧
        (∃ pre, pre ++ u :: rest = task_users info ∧ Filed s task_id pre) ∧
        s.USER_TASK_STORE.get u = id_set
  | .done _ => True

/-- What an update thread knows at each step. -/
def UpdateInv (s : TmsState) (req : UpdateTaskRequest) : UpdatePc → Prop
  | .connecting copy => Approved s req copy
  | .checking copy _ => Approved s req copy
  | .done (.ok _) => s.TASK_STORE.get req.task_id ≠ none
  | _ => True

/-- What a thread knows about the shared state. -/
def ThreadInv (cfg : TmsConfig) (s : TmsState) : ExternalThread → Prop
  | .create req pc => CreateInv cfg s req pc
  | .update req pc => UpdateInv s req pc
  | _ => True

/-- **The inductive invariant** of the external TMS enclave after trace `es`. -/
structure TmsInv (cfg : TmsConfig) (es : List (PoolLabel ExternalRequest TmsInput))
    (p : Pool TmsState ExternalThread) : Prop where
  records : ∀ tid info, p.shared.TASK_STORE.get tid = some info → RecordOk info
  attribution : ∀ tid info u, p.shared.TASK_STORE.get tid = some info →
    approved_by u info.collaborator_list = approvals p.threads tid u
  index_sound : ∀ u tid, tid ∈ user_tasks p.shared u →
    ∃ info, p.shared.TASK_STORE.get tid = some info ∧ u ∈ task_users info
  index_complete : ∀ (j : Nat) t, p.threads[j]? = some t →
    ∀ tid, Filed p.shared tid (created_users tid t)
  lock_held : ∀ j, p.shared.UPDATELOCK = some j →
    ∃ t, p.threads[j]? = some t ∧ holds_lock t = true
  lock_holder : ∀ (j : Nat) t, p.threads[j]? = some t → holds_lock t = true →
    p.shared.UPDATELOCK = some j
  threads : ∀ (j : Nat) t, p.threads[j]? = some t → ThreadInv cfg p.shared t
  storing_unique : ∀ (j k : Nat) tj tk tid, p.threads[j]? = some tj → p.threads[k]? = some tk →
    storing_id tj = some tid → storing_id tk = some tid → j = k
  drawn : ∀ tid, (p.shared.TASK_STORE.get tid ≠ none ∨
    ∃ (j : Nat) (t : ExternalThread), p.threads[j]? = some t ∧ storing_id t = some tid) →
      tid ∈ drawn_uuids es

/-! ### Other threads, when the shared state moves. -/

/-- Thread knowledge does not mention `UPDATELOCK`. -/
theorem ThreadInv.set_lock {cfg : TmsConfig} {s : TmsState} {t : ExternalThread}
    (l : Option Nat) (h : ThreadInv cfg s t) : ThreadInv cfg { s with UPDATELOCK := l } t := by
  cases t with
  | create req pc => cases pc <;> exact h
  | update req pc => cases pc <;> exact h
  | get req resp => trivial
  | list req resp => trivial

/-- Storing a record under a free id leaves every other thread's knowledge true:
    what they know of `TASK_STORE` is about ids that hold a record, or about
    the ids they are themselves about to store. -/
theorem ThreadInv.store_fresh {cfg : TmsConfig} {s : TmsState} {t : ExternalThread}
    {tid : String} (info : TaskInfo) (hfree : s.TASK_STORE.get tid = none)
    (hother : storing_id t ≠ some tid) (h : ThreadInv cfg s t) :
    ThreadInv cfg { s with TASK_STORE := s.TASK_STORE.set tid info } t := by
  have hkeep : ∀ tid' info', s.TASK_STORE.get tid' = some info' →
      (s.TASK_STORE.set tid info).get tid' = some info' := by
    intro tid' info' h'
    have hne : tid' ≠ tid := by
      rintro rfl
      rw [hfree] at h'
      cases h'
    rw [Memdb.get_set_ne _ _ hne, h']
  have hstored : ∀ tid' info', Stored s tid' info' →
      Stored { s with TASK_STORE := s.TASK_STORE.set tid info } tid' info' := by
    rintro tid' info' ⟨info'', hg, hu⟩
    exact ⟨info'', hkeep _ _ hg, hu⟩
  cases t with
  | create req pc =>
      cases pc with
      | storing tid' info' =>
          obtain ⟨hpre, htok, hnone⟩ := h
          have hne : tid' ≠ tid := fun e => hother (by simp [storing_id, e])
          refine ⟨hpre, htok, ?_⟩
          show (s.TASK_STORE.set tid info).get tid' = none
          rw [Memdb.get_set_ne _ _ hne, hnone]
      | locking tid' info' => exact ⟨h.1, hstored _ _ h.2⟩
      | indexing tid' info' rest => exact ⟨h.1, hstored _ _ h.2.1, h.2.2⟩
      | adding tid' info' u id_set rest => exact ⟨h.1, hstored _ _ h.2.1, h.2.2⟩
      | start => trivial
      | checking rest => exact h
      | done r => trivial
  | update req pc =>
      cases pc with
      | connecting copy =>
          obtain ⟨info₀, info₁, extra, hg, ha, hc⟩ := h
          exact ⟨info₀, info₁, extra, hkeep _ _ hg, ha, hc⟩
      | checking copy rest =>
          obtain ⟨info₀, info₁, extra, hg, ha, hc⟩ := h
          exact ⟨info₀, info₁, extra, hkeep _ _ hg, ha, hc⟩
      | done r =>
          cases r with
          | ok resp =>
              show (s.TASK_STORE.set tid info).get req.task_id ≠ none
              obtain ⟨info₀, hg⟩ := Option.ne_none_iff_exists'.mp h
              rw [hkeep _ _ hg]
              simp
          | error e => trivial
      | start => trivial
      | locking => trivial
      | reading => trivial
  | get req resp => trivial
  | list req resp => trivial

/-- Threads that do not hold `UPDATELOCK` know nothing of `USER_TASK_STORE`. -/
theorem ThreadInv.set_index {cfg : TmsConfig} {s : TmsState} {t : ExternalThread}
    (db : Memdb String (Finset String)) (hfree : holds_lock t = false) (h : ThreadInv cfg s t) :
    ThreadInv cfg { s with USER_TASK_STORE := db } t := by
  cases t with
  | create req pc =>
      cases pc with
      | indexing tid info rest => simp [holds_lock] at hfree
      | adding tid info u id_set rest => simp [holds_lock] at hfree
      | start => trivial
      | checking rest => exact h
      | storing tid info => exact h
      | locking tid info => exact h
      | done r => trivial
  | update req pc => cases pc <;> exact h
  | get req resp => trivial
  | list req resp => trivial

/-- The commit of an update writes a record with the same users over one that
    is stored; what threads outside the lock know stays true. -/
theorem ThreadInv.commit {cfg : TmsConfig} {s : TmsState} {t : ExternalThread}
    {tid : String} {info copy : TaskInfo} (hget : s.TASK_STORE.get tid = some info)
    (husers : task_users copy = task_users info) (hfree : holds_lock t = false)
    (h : ThreadInv cfg s t) :
    ThreadInv cfg { s with TASK_STORE := s.TASK_STORE.set tid copy, UPDATELOCK := none } t := by
  have hstored : ∀ tid' info', Stored s tid' info' →
      Stored { s with TASK_STORE := s.TASK_STORE.set tid copy, UPDATELOCK := none } tid' info' := by
    rintro tid' info' ⟨info'', hg, hu⟩
    by_cases htid : tid' = tid
    · subst htid
      rw [hget] at hg
      cases hg
      exact ⟨copy, Memdb.get_set_self _ _ _, husers.trans hu⟩
    · exact ⟨info'', by rw [Memdb.get_set_ne _ _ htid, hg], hu⟩
  cases t with
  | create req pc =>
      cases pc with
      | storing tid' info' =>
          obtain ⟨hpre, htok, hnone⟩ := h
          have hne : tid' ≠ tid := by
            rintro rfl
            rw [hget] at hnone
            cases hnone
          refine ⟨hpre, htok, ?_⟩
          show (s.TASK_STORE.set tid copy).get tid' = none
          rw [Memdb.get_set_ne _ _ hne, hnone]
      | locking tid' info' => exact ⟨h.1, hstored _ _ h.2⟩
      | indexing tid' info' rest => simp [holds_lock] at hfree
      | adding tid' info' u id_set rest => simp [holds_lock] at hfree
      | start => trivial
      | checking rest => exact h
      | done r => trivial
  | update req pc =>
      cases pc with
      | done r =>
          cases r with
          | ok resp =>
              show (s.TASK_STORE.set tid copy).get req.task_id ≠ none
              by_cases htid : req.task_id = tid
              · rw [htid]
                simp
              · rw [Memdb.get_set_ne _ _ htid]
                exact h
          | error e => trivial
      | reading => simp [holds_lock] at hfree
      | connecting c => simp [holds_lock] at hfree
      | checking c rest => simp [holds_lock] at hfree
      | start => trivial
      | locking => trivial
  | get req resp => trivial
  | list req resp => trivial

/-! ## §4. Each kind of atomic step keeps the invariant. -/

section Steps

variable {cfg : TmsConfig} {es : List (PoolLabel ExternalRequest TmsInput)}
  {e : PoolLabel ExternalRequest TmsInput} {p : Pool TmsState ExternalThread}
  {i : Nat} {t t' : ExternalThread}

/-! ### What a step leaves of the old fields. -/

/-- A thread step that counts the same approvals leaves the counts alone. -/
theorem approvals_set_same (ht : p.threads[i]? = some t)
    (happ : ∀ tid u, approved_update tid u t' = approved_update tid u t) (tid u : String) :
    approvals (p.threads.set i t') tid u = approvals p.threads tid u := by
  have h := countP_set_of (approved_update tid u) t' ht
  rw [happ tid u] at h
  unfold approvals
  omega

/-- A create thread's step never changes the approvals. -/
theorem approvals_set_create {req : CreateTaskRequest} {pc : CreatePc}
    (ht : p.threads[i]? = some (.create req pc)) (pc' : CreatePc) (tid u : String) :
    approvals (p.threads.set i (.create req pc')) tid u = approvals p.threads tid u := by
  apply approvals_set_same ht
  intro tid u
  rfl

/-- The stored records still match the approvals when the step counts the same ones. -/
theorem TmsInv.attribution_set (hinv : TmsInv cfg es p) (ht : p.threads[i]? = some t)
    (happ : ∀ tid u, approved_update tid u t' = approved_update tid u t) :
    ∀ tid info u, p.shared.TASK_STORE.get tid = some info →
      approved_by u info.collaborator_list = approvals (p.threads.set i t') tid u := by
  intro tid info u hg
  rw [approvals_set_same ht happ]
  exact hinv.attribution tid info u hg

/-- Finished creates stay filed when the stepping thread's own are. -/
theorem TmsInv.index_complete_set (hinv : TmsInv cfg es p) (ht : p.threads[i]? = some t)
    (hidx : ∀ tid, Filed p.shared tid (created_users tid t')) :
    ∀ (j : Nat) t₀, (p.threads.set i t')[j]? = some t₀ →
      ∀ tid, Filed p.shared tid (created_users tid t₀) :=
  forall_set_of ht hidx (fun j t₀ _ hj => hinv.index_complete j t₀ hj)

/-- `UPDATELOCK` still has its holder when the step keeps the thread's lock status. -/
theorem TmsInv.lock_held_set (hinv : TmsInv cfg es p) (ht : p.threads[i]? = some t)
    (hlock : holds_lock t' = holds_lock t) :
    ∀ j, p.shared.UPDATELOCK = some j →
      ∃ t₀, (p.threads.set i t')[j]? = some t₀ ∧ holds_lock t₀ = true := by
  intro j hj
  obtain ⟨t₀, hj', hh⟩ := hinv.lock_held j hj
  rw [getElem?_set_of ht]
  by_cases hji : j = i
  · subst hji
    rw [ht, Option.some.injEq] at hj'
    subst hj'
    exact ⟨t', by simp, hlock.trans hh⟩
  · exact ⟨t₀, by simp [hji, hj'], hh⟩

/-- Every thread at a locked step still holds `UPDATELOCK`. -/
theorem TmsInv.lock_holder_set (hinv : TmsInv cfg es p) (ht : p.threads[i]? = some t)
    (hlock : holds_lock t' = holds_lock t) :
    ∀ (j : Nat) t₀, (p.threads.set i t')[j]? = some t₀ → holds_lock t₀ = true →
      p.shared.UPDATELOCK = some j :=
  forall_set_of ht (fun hh => hinv.lock_holder i t ht (hlock ▸ hh))
    (fun j t₀ _ hj => hinv.lock_holder j t₀ hj)

/-- The lock holder is the only thread at a locked step. -/
theorem TmsInv.holder_unique (hinv : TmsInv cfg es p) (ht : p.threads[i]? = some t)
    (hheld : holds_lock t = true) {j : Nat} {t₀ : ExternalThread} (hj : p.threads[j]? = some t₀)
    (hh : holds_lock t₀ = true) : j = i := by
  have h₁ := hinv.lock_holder i t ht hheld
  have h₂ := hinv.lock_holder j t₀ hj hh
  rw [h₁, Option.some.injEq] at h₂
  exact h₂.symm

/-- Beside the lock holder, no thread is at a locked step. -/
theorem TmsInv.others_free (hinv : TmsInv cfg es p) (ht : p.threads[i]? = some t)
    (hheld : holds_lock t = true) :
    ∀ (j : Nat) t₀, j ≠ i → p.threads[j]? = some t₀ → holds_lock t₀ = false := by
  intro j t₀ hji hj
  cases hh : holds_lock t₀ with
  | false => rfl
  | true => exact absurd (hinv.holder_unique ht hheld hj hh) hji

/-- Once the holder leaves its locked steps, no thread is at one. -/
theorem TmsInv.lock_free_set (hinv : TmsInv cfg es p) (ht : p.threads[i]? = some t)
    (hheld : holds_lock t = true) (hlock : holds_lock t' = false) :
    ∀ (j : Nat) t₀, (p.threads.set i t')[j]? = some t₀ → holds_lock t₀ = false :=
  forall_set_of ht hlock (hinv.others_free ht hheld)

/-- Whatever is drawn before a step stays drawn after it. -/
theorem TmsInv.drawn_keep (hinv : TmsInv cfg es p) (tid : String)
    (h : p.shared.TASK_STORE.get tid ≠ none ∨
      ∃ (j : Nat) (t₀ : ExternalThread), p.threads[j]? = some t₀ ∧ storing_id t₀ = some tid) :
    tid ∈ drawn_uuids (es ++ [e]) :=
  drawn_uuids_snoc_sub es e tid (hinv.drawn tid h)

/-- No two threads store the same id, when the stepping thread stores none. -/
theorem TmsInv.storing_unique_set (hinv : TmsInv cfg es p) (ht : p.threads[i]? = some t)
    (hst : storing_id t' = none) :
    ∀ (j k : Nat) tj tk tid, (p.threads.set i t')[j]? = some tj →
      (p.threads.set i t')[k]? = some tk → storing_id tj = some tid → storing_id tk = some tid →
      j = k := by
  intro j k tj tk tid hj hk hsj hsk
  rw [getElem?_set_of ht] at hj hk
  split_ifs at hj hk with hji hki
  · omega
  · cases hj; rw [hst] at hsj; cases hsj
  · cases hk; rw [hst] at hsk; cases hsk
  · exact hinv.storing_unique j k tj tk tid hj hk hsj hsk

/-- Every stored or reserved id was drawn, when the step stores nothing new and
    reserves nothing. -/
theorem TmsInv.drawn_set (hinv : TmsInv cfg es p) (ht : p.threads[i]? = some t)
    (hst : storing_id t' = none) {s' : TmsState}
    (hkeys : ∀ tid, s'.TASK_STORE.get tid ≠ none → p.shared.TASK_STORE.get tid ≠ none) :
    ∀ tid, (s'.TASK_STORE.get tid ≠ none ∨
      ∃ (j : Nat) (t₀ : ExternalThread), (p.threads.set i t')[j]? = some t₀ ∧
        storing_id t₀ = some tid) → tid ∈ drawn_uuids (es ++ [e]) := by
  rintro tid (hg | ⟨j, t₀, hj, hs⟩)
  · exact hinv.drawn_keep tid (.inl (hkeys tid hg))
  · rw [getElem?_set_of ht] at hj
    split_ifs at hj with hji
    · cases hj; rw [hst] at hs; cases hs
    · exact hinv.drawn_keep tid (.inr ⟨j, t₀, hj, hs⟩)

/-- No update on a free id has returned `Ok`: such a thread knows its task is stored. -/
theorem TmsInv.approvals_free (hinv : TmsInv cfg es p) {tid : String}
    (hfree : p.shared.TASK_STORE.get tid = none) (u : String) :
    approvals p.threads tid u = 0 := by
  unfold approvals
  rw [List.countP_eq_zero]
  intro t₀ hmem
  obtain ⟨j, hj⟩ := List.mem_iff_getElem?.mp hmem
  have hinv₀ := hinv.threads j t₀ hj
  cases t₀ with
  | update req pc =>
      cases pc with
      | done r =>
          cases r with
          | ok resp =>
              have hne : p.shared.TASK_STORE.get req.task_id ≠ none := hinv₀
              simp only [approved_update, Bool.and_eq_true, decide_eq_true_eq, not_and]
              intro htid
              rw [htid] at hne
              exact absurd hfree hne
          | error err => simp [approved_update]
      | start => simp [approved_update]
      | locking => simp [approved_update]
      | reading => simp [approved_update]
      | connecting c => simp [approved_update]
      | checking c rest => simp [approved_update]
  | create req pc => simp [approved_update]
  | get req resp => simp [approved_update]
  | list req resp => simp [approved_update]

/-! ### The steps. -/

/-- **A local step**: the shared state is untouched, the thread keeps its lock
    status, reserves no id, and changes neither the approvals nor the filing of
    finished creates. -/
theorem TmsInv.local_step (hinv : TmsInv cfg es p) (ht : p.threads[i]? = some t)
    (hlock : holds_lock t' = holds_lock t) (hst : storing_id t' = none)
    (happ : ∀ tid u, approved_update tid u t' = approved_update tid u t)
    (hidx : ∀ tid, Filed p.shared tid (created_users tid t'))
    (hth : ThreadInv cfg p.shared t') :
    TmsInv cfg (es ++ [e]) ⟨p.shared, p.threads.set i t'⟩ where
  records := hinv.records
  attribution := hinv.attribution_set ht happ
  index_sound := hinv.index_sound
  index_complete := hinv.index_complete_set ht hidx
  lock_held := hinv.lock_held_set ht hlock
  lock_holder := hinv.lock_holder_set ht hlock
  threads := forall_set_of ht hth (fun j t₀ _ hj => hinv.threads j t₀ hj)
  storing_unique := hinv.storing_unique_set ht hst
  drawn := hinv.drawn_set ht hst (fun _ h => h)

/-- **Taking `UPDATELOCK`**: the lock was free, and the thread now holds it. -/
theorem TmsInv.acquire_step (hinv : TmsInv cfg es p) (ht : p.threads[i]? = some t)
    (hfree : p.shared.UPDATELOCK = none) (hlock : holds_lock t' = true)
    (hst : storing_id t' = none)
    (happ : ∀ tid u, approved_update tid u t' = approved_update tid u t)
    (hidx : ∀ tid, Filed p.shared tid (created_users tid t'))
    (hth : ThreadInv cfg p.shared t') :
    TmsInv cfg (es ++ [e]) ⟨{ p.shared with UPDATELOCK := some i }, p.threads.set i t'⟩ where
  records := hinv.records
  attribution := hinv.attribution_set ht happ
  index_sound := hinv.index_sound
  index_complete := hinv.index_complete_set ht hidx
  lock_held := by
    intro j hj
    simp only [Option.some.injEq] at hj
    subst hj
    exact ⟨t', by simp [getElem?_set_of ht], hlock⟩
  lock_holder := by
    refine forall_set_of ht (fun _ => rfl) ?_
    intro j t₀ _ hj hh
    have := hinv.lock_holder j t₀ hj hh
    rw [hfree] at this
    cases this
  threads := forall_set_of ht (hth.set_lock _) (fun j t₀ _ hj => (hinv.threads j t₀ hj).set_lock _)
  storing_unique := hinv.storing_unique_set ht hst
  drawn := hinv.drawn_set ht hst (fun _ h => h)

/-- **Releasing `UPDATELOCK`**: an error return under the lock (the guard's
    drop), or the end of a create's filing loop. -/
theorem TmsInv.release_step (hinv : TmsInv cfg es p) (ht : p.threads[i]? = some t)
    (hheld : holds_lock t = true) (hlock : holds_lock t' = false) (hst : storing_id t' = none)
    (happ : ∀ tid u, approved_update tid u t' = approved_update tid u t)
    (hidx : ∀ tid, Filed p.shared tid (created_users tid t'))
    (hth : ThreadInv cfg p.shared t') :
    TmsInv cfg (es ++ [e]) ⟨p.shared.unlock, p.threads.set i t'⟩ where
  records := hinv.records
  attribution := hinv.attribution_set ht happ
  index_sound := hinv.index_sound
  index_complete := hinv.index_complete_set ht hidx
  lock_held := by
    intro j hj
    cases hj
  lock_holder := by
    intro j t₀ hj hh
    rw [hinv.lock_free_set ht hheld hlock j t₀ hj] at hh
    cases hh
  threads := forall_set_of ht (hth.set_lock _) (fun j t₀ _ hj => (hinv.threads j t₀ hj).set_lock _)
  storing_unique := hinv.storing_unique_set ht hst
  drawn := hinv.drawn_set ht hst (fun _ h => h)

/-- A uuid drawn by the last step of a run whose draws never repeat was not
    drawn before. -/
theorem drawn_uuids_fresh {token uuid : String}
    (hnd : (drawn_uuids (es ++ [.exec i (.fresh (.ok token) uuid)])).Nodup) :
    uuid ∉ drawn_uuids es := by
  rw [drawn_uuids_append] at hnd
  simp only [drawn_uuids, List.nodup_append, List.mem_singleton] at hnd
  exact fun h => hnd.2.2 uuid h uuid rfl rfl

/-- **Drawing a uuid**: `gen_token` succeeded, `Uuid::new_v4` gave an id that is
    not stored, and the create thread reserves it.  A uuid never drawn before is
    reserved by no other thread. -/
theorem TmsInv.draw_step (hinv : TmsInv cfg es p) {req : CreateTaskRequest} {token uuid : String}
    (ht : p.threads[i]? = some (.create req (.checking [])))
    (hnd : (drawn_uuids (es ++ [.exec i (.fresh (.ok token) uuid)])).Nodup)
    (hfree : p.shared.TASK_STORE.get uuid = none) :
    TmsInv cfg (es ++ [.exec i (.fresh (.ok token) uuid)])
      ⟨p.shared, p.threads.set i (.create req (.storing uuid (new_task_info cfg req token)))⟩ := by
  have hnew := drawn_uuids_fresh hnd
  have hpre : create_precheck req = none := hinv.threads i _ ht
  -- the fresh uuid is reserved by no other thread
  have hother : ∀ (j : Nat) t₀, j ≠ i → p.threads[j]? = some t₀ → storing_id t₀ ≠ some uuid :=
    fun j t₀ _ hj hs => hnew (hinv.drawn uuid (.inr ⟨j, t₀, hj, hs⟩))
  refine
    { records := hinv.records
      attribution := hinv.attribution_set ht (fun _ _ => rfl)
      index_sound := hinv.index_sound
      index_complete := hinv.index_complete_set ht (fun _ => filed_nil _ _)
      lock_held := hinv.lock_held_set ht rfl
      lock_holder := hinv.lock_holder_set ht rfl
      threads := forall_set_of ht ⟨hpre, ⟨token, rfl⟩, hfree⟩
        (fun j t₀ _ hj => hinv.threads j t₀ hj)
      storing_unique := ?_
      drawn := ?_ }
  · intro j k tj tk tid hj hk hsj hsk
    rw [getElem?_set_of ht] at hj hk
    split_ifs at hj hk with hji hki
    · omega
    · cases hj
      simp only [storing_id, Option.some.injEq] at hsj
      subst hsj
      exact absurd hsk (hother k tk hki hk)
    · cases hk
      simp only [storing_id, Option.some.injEq] at hsk
      subst hsk
      exact absurd hsj (hother j tj hji hj)
    · exact hinv.storing_unique j k tj tk tid hj hk hsj hsk
  · rintro tid (hg | ⟨j, t₀, hj, hs⟩)
    · exact hinv.drawn_keep tid (.inl hg)
    · rw [getElem?_set_of ht] at hj
      split_ifs at hj with hji
      · cases hj
        simp only [storing_id, Option.some.injEq] at hs
        subst hs
        rw [drawn_uuids_append]
        simp [drawn_uuids]
      · exact hinv.drawn_keep tid (.inr ⟨j, t₀, hj, hs⟩)

/-- **Storing the record** (`TASK_STORE.set` in `add_task`) under the reserved id. -/
theorem TmsInv.store_step (hinv : TmsInv cfg es p) {req : CreateTaskRequest} {tid : String}
    {info : TaskInfo} (ht : p.threads[i]? = some (.create req (.storing tid info))) :
    TmsInv cfg (es ++ [e])
      ⟨{ p.shared with TASK_STORE := p.shared.TASK_STORE.set tid info },
        p.threads.set i (.create req (.locking tid info))⟩ := by
  obtain ⟨hpre, ⟨token, rfl⟩, hfree⟩ :
      CreateInv cfg p.shared req (.storing tid info) := hinv.threads i _ ht
  -- the id is reserved by this thread alone
  have hother : ∀ (j : Nat) t₀, j ≠ i → p.threads[j]? = some t₀ → storing_id t₀ ≠ some tid :=
    fun j t₀ hji hj hs => hji (hinv.storing_unique j i t₀ _ tid hj ht hs rfl)
  -- every other id reads as before
  have hkeep : ∀ tid', tid' ≠ tid →
      (p.shared.TASK_STORE.set tid (new_task_info cfg req token)).get tid' =
        p.shared.TASK_STORE.get tid' := fun tid' hne => Memdb.get_set_ne _ _ hne
  refine
    { records := ?_
      attribution := ?_
      index_sound := ?_
      index_complete := hinv.index_complete_set ht (fun _ => filed_nil _ _)
      lock_held := hinv.lock_held_set ht rfl
      lock_holder := hinv.lock_holder_set ht rfl
      threads := ?_
      storing_unique := hinv.storing_unique_set ht rfl
      drawn := ?_ }
  · intro tid' info' hg
    by_cases htid : tid' = tid
    · subst htid
      simp only [Memdb.get_set_self, Option.some.injEq] at hg
      subst hg
      exact recordOk_new_task_info cfg req token hpre
    · rw [hkeep _ htid] at hg
      exact hinv.records tid' info' hg
  · intro tid' info' u hg
    rw [approvals_set_create ht]
    by_cases htid : tid' = tid
    · subst htid
      simp only [Memdb.get_set_self, Option.some.injEq] at hg
      subst hg
      rw [approved_by_new_task_info, hinv.approvals_free hfree]
    · rw [hkeep _ htid] at hg
      exact hinv.attribution tid' info' u hg
  · intro u tid' hmem
    obtain ⟨info', hg, hu⟩ := hinv.index_sound u tid' hmem
    have htid : tid' ≠ tid := by
      rintro rfl
      rw [hfree] at hg
      cases hg
    exact ⟨info', by rw [hkeep _ htid, hg], hu⟩
  · refine forall_set_of ht ⟨⟨token, rfl⟩, _, Memdb.get_set_self _ _ _, rfl⟩ ?_
    intro j t₀ hji hj
    exact (hinv.threads j t₀ hj).store_fresh _ hfree (hother j t₀ hji hj)
  · rintro tid' (hg | ⟨j, t₀, hj, hs⟩)
    · by_cases htid : tid' = tid
      · subst htid
        exact hinv.drawn_keep tid' (.inr ⟨i, _, ht, rfl⟩)
      · rw [hkeep _ htid] at hg
        exact hinv.drawn_keep tid' (.inl hg)
    · rw [getElem?_set_of ht] at hj
      split_ifs at hj with hji
      · cases hj
        cases hs
      · exact hinv.drawn_keep tid' (.inr ⟨j, t₀, hj, hs⟩)

/-- **Filing the task under one user** (the write of `add_task_to_user`, under
    `UPDATELOCK`): the set that was read is still the user's, so the write only
    adds the task id to it. -/
theorem TmsInv.add_step (hinv : TmsInv cfg es p) {req : CreateTaskRequest} {tid u : String}
    {info : TaskInfo} {id_set : Option (Finset String)} {rest : List String}
    (ht : p.threads[i]? = some (.create req (.adding tid info u id_set rest))) :
    TmsInv cfg (es ++ [e])
      ⟨{ p.shared with
          USER_TASK_STORE := add_task_to_user_write p.shared.USER_TASK_STORE tid u id_set },
        p.threads.set i (.create req (.indexing tid info rest))⟩ := by
  obtain ⟨htok, ⟨info₀, hg₀, hu₀⟩, ⟨pre, hpre, hfiled⟩, rfl⟩ :
      CreateInv cfg p.shared req (.adding tid info u id_set rest) := hinv.threads i _ ht
  -- the write is `add_task_to_user` on the current sets
  have hmem : ∀ v tid', tid' ∈ user_tasks { p.shared with
      USER_TASK_STORE := add_task_to_user p.shared.USER_TASK_STORE tid u } v ↔
        (v = u ∧ tid' = tid) ∨ tid' ∈ user_tasks p.shared v :=
    fun v tid' => mem_add_task_to_user _ _ _ _ _
  have hgrow : ∀ v, user_tasks p.shared v ⊆ user_tasks { p.shared with
      USER_TASK_STORE := add_task_to_user p.shared.USER_TASK_STORE tid u } v :=
    fun v tid' h => (hmem v tid').mpr (.inr h)
  have hother := hinv.others_free ht rfl
  refine
    { records := hinv.records
      attribution := hinv.attribution_set ht (fun _ _ => rfl)
      index_sound := ?_
      index_complete := ?_
      lock_held := hinv.lock_held_set ht rfl
      lock_holder := hinv.lock_holder_set ht rfl
      threads := ?_
      storing_unique := hinv.storing_unique_set ht rfl
      drawn := hinv.drawn_set ht rfl (fun _ h => h) }
  · intro v tid' hv
    rcases (hmem v tid').mp hv with ⟨rfl, rfl⟩ | hold
    · -- the new entry: `v` is the user the loop is at, a user of the stored record
      have hv : v ∈ task_users info := by
        rw [← hpre]
        simp
      exact ⟨info₀, hg₀, hu₀ ▸ hv⟩
    · exact hinv.index_sound v tid' hold
  · intro j t₀ hj tid'
    exact (hinv.index_complete_set ht (fun _ => filed_nil _ _) j t₀ hj tid').mono hgrow
  · refine forall_set_of ht ⟨htok, ⟨info₀, hg₀, hu₀⟩, pre ++ [u], by simp [← hpre], ?_⟩ ?_
    · exact (hfiled.mono hgrow).snoc ((hmem u tid).mpr (.inl ⟨rfl, rfl⟩))
    · intro j t₀ hji hj
      exact (hinv.threads j t₀ hj).set_index _ (hother j t₀ hji hj)

/-- **The end of a create** (`indexing []`): every user is filed; the guard is
    dropped and the handler returns `Ok`. -/
theorem TmsInv.finish_step (hinv : TmsInv cfg es p) {req : CreateTaskRequest} {tid : String}
    {info : TaskInfo} (ht : p.threads[i]? = some (.create req (.indexing tid info []))) :
    TmsInv cfg (es ++ [e])
      ⟨p.shared.unlock,
        p.threads.set i (.create req (.done (.ok (.Create tid info.task_token info.ip info.port))))⟩ := by
  obtain ⟨⟨token, rfl⟩, -, pre, hpre, hfiled⟩ :
      CreateInv cfg p.shared req (.indexing tid info []) := hinv.threads i _ ht
  rw [List.append_nil, task_users_new_task_info] at hpre
  subst hpre
  refine hinv.release_step ht rfl rfl rfl (fun _ _ => rfl) ?_ trivial
  intro tid'
  show Filed p.shared tid' (if tid = tid' then req.user_id :: req.collaborator_list else [])
  split_ifs with htid
  · subst htid
    exact hfiled
  · exact filed_nil _ _

/-- The approvals after an update returns `Ok`: one more for its caller, on its task. -/
theorem approvals_set_commit {req : UpdateTaskRequest} {copy : TaskInfo}
    (ht : p.threads[i]? = some (.update req (.checking copy []))) (resp : TaskResponse)
    (tid u : String) :
    approvals (p.threads.set i (.update req (.done (.ok resp)))) tid u =
      approvals p.threads tid u + if req.task_id = tid ∧ req.user_id = u then 1 else 0 := by
  have h := countP_set_of (approved_update tid u) (.update req (.done (.ok resp))) ht
  simp only [approved_update, Bool.false_eq_true, if_false, Nat.add_zero, Bool.and_eq_true,
    decide_eq_true_eq] at h
  exact h

/-- **Committing an approval** (`TASK_STORE.set` under `UPDATELOCK`, then the
    guard's drop): the stored record becomes the approved copy. -/
theorem TmsInv.commit_step (hinv : TmsInv cfg es p) {req : UpdateTaskRequest} {copy : TaskInfo}
    (ht : p.threads[i]? = some (.update req (.checking copy []))) :
    TmsInv cfg (es ++ [e])
      ⟨{ p.shared with TASK_STORE := p.shared.TASK_STORE.set req.task_id copy, UPDATELOCK := none },
        p.threads.set i
          (.update req (.done (.ok (.Update true copy.status copy.ip copy.port copy.task_token))))⟩ := by
  obtain ⟨info, info', extra, hg, ha, hcopy⟩ : Approved p.shared req copy := hinv.threads i _ ht
  have husers : task_users copy = task_users info := by
    rw [hcopy]
    exact (approve_users ha).1
  -- every other id reads as before
  have hkeep : ∀ tid', tid' ≠ req.task_id →
      (p.shared.TASK_STORE.set req.task_id copy).get tid' = p.shared.TASK_STORE.get tid' :=
    fun tid' hne => Memdb.get_set_ne _ _ hne
  refine
    { records := ?_
      attribution := ?_
      index_sound := ?_
      index_complete := hinv.index_complete_set ht (fun _ => filed_nil _ _)
      lock_held := ?_
      lock_holder := ?_
      threads := ?_
      storing_unique := hinv.storing_unique_set ht rfl
      drawn := hinv.drawn_set ht rfl ?_ }
  · intro tid' info₀ hg'
    by_cases htid : tid' = req.task_id
    · subst htid
      simp only [Memdb.get_set_self, Option.some.injEq] at hg'
      subst hg' hcopy
      exact ((hinv.records _ _ hg).approve ha).with_inputs _
    · rw [hkeep _ htid] at hg'
      exact hinv.records tid' info₀ hg'
  · intro tid' info₀ v hg'
    rw [approvals_set_commit ht]
    by_cases htid : tid' = req.task_id
    · -- the committed copy: one more approved entry of the caller
      subst htid
      simp only [Memdb.get_set_self, Option.some.injEq] at hg'
      subst hg' hcopy
      rw [(approve_counts ha).2.2.2 v, hinv.attribution _ _ v hg]
      by_cases hv : v = req.user_id
      · subst hv
        simp
      · simp [hv, Ne.symm hv]
    · rw [hkeep _ htid] at hg'
      simp [hinv.attribution tid' info₀ v hg', Ne.symm htid]
  · intro v tid' hv
    obtain ⟨info₀, hg₀, hu⟩ := hinv.index_sound v tid' hv
    by_cases htid : tid' = req.task_id
    · subst htid
      rw [hg, Option.some.injEq] at hg₀
      subst hg₀
      exact ⟨copy, Memdb.get_set_self _ _ _, husers ▸ hu⟩
    · exact ⟨info₀, by rw [hkeep _ htid, hg₀], hu⟩
  · intro j hj
    cases hj
  · intro j t₀ hj hh
    rw [hinv.lock_free_set ht rfl rfl j t₀ hj] at hh
    cases hh
  · refine forall_set_of ht (by simp [ThreadInv, UpdateInv]) ?_
    intro j t₀ hji hj
    exact (hinv.threads j t₀ hj).commit hg husers (hinv.others_free ht rfl j t₀ hji hj)
  · intro tid' hne
    by_cases htid : tid' = req.task_id
    · subst htid
      rw [hg]
      simp
    · rwa [hkeep _ htid] at hne

/-- A freshly spawned thread is at its start: no lock, no reserved id, no
    return, and nothing to know. -/
theorem ExternalThread.start_idle (cfg : TmsConfig) (s : TmsState) (r : ExternalRequest) :
    holds_lock (.start r) = false ∧ storing_id (.start r) = none ∧
      (∀ tid u, approved_update tid u (.start r) = false) ∧
      (∀ tid, created_users tid (.start r) = []) ∧ ThreadInv cfg s (.start r) := by
  cases r <;> exact ⟨rfl, rfl, fun _ _ => rfl, fun _ => rfl, trivial⟩

/-- **A new request** (`handle_invoke` on a fresh connection): one more idle thread. -/
theorem TmsInv.spawn_step (hinv : TmsInv cfg es p) (r : ExternalRequest) :
    TmsInv cfg (es ++ [e]) ⟨p.shared, p.threads ++ [ExternalThread.start r]⟩ := by
  obtain ⟨hlock, hst, happ, hcre, hth⟩ := ExternalThread.start_idle cfg p.shared r
  -- a thread of the new list that reserves an id sits where it sat before
  have hold : ∀ (j : Nat) t₀, (p.threads ++ [ExternalThread.start r])[j]? = some t₀ →
      ∀ tid, storing_id t₀ = some tid → p.threads[j]? = some t₀ :=
    forall_append_of (fun tid h => by rw [hst] at h; cases h) (fun j t₀ hj _ _ => hj)
  refine
    { records := hinv.records
      attribution := ?_
      index_sound := hinv.index_sound
      index_complete := forall_append_of (fun tid => by rw [hcre]; exact filed_nil _ _)
        hinv.index_complete
      lock_held := ?_
      lock_holder := forall_append_of (fun hh => by rw [hlock] at hh; cases hh) hinv.lock_holder
      threads := forall_append_of hth hinv.threads
      storing_unique := fun j k tj tk tid hj hk hsj hsk =>
        hinv.storing_unique j k tj tk tid (hold j tj hj tid hsj) (hold k tk hk tid hsk) hsj hsk
      drawn := ?_ }
  · intro tid info u hg
    rw [hinv.attribution tid info u hg]
    simp [approvals, List.countP_append, happ]
  · intro j hj
    obtain ⟨t₀, hj', hh⟩ := hinv.lock_held j hj
    refine ⟨t₀, ?_, hh⟩
    rw [List.getElem?_append_left (List.getElem?_eq_some_iff.mp hj').1]
    exact hj'
  · rintro tid (hg | ⟨j, t₀, hj, hs⟩)
    · exact hinv.drawn_keep tid (.inl hg)
    · exact hinv.drawn_keep tid (.inr ⟨j, t₀, hold j t₀ hj tid hs, hs⟩)

/-- Every step of a `CreateTaskRequest` thread keeps the invariant. -/
theorem TmsInv.create_exec (hinv : TmsInv cfg es p) {req : CreateTaskRequest}
    {pc pc' : CreatePc} {a : TmsInput} {s' : TmsState}
    (ht : p.threads[i]? = some (.create req pc)) (hnd : (drawn_uuids (es ++ [.exec i a])).Nodup)
    (h : create_step cfg i p.shared req pc a = some (s', pc')) :
    TmsInv cfg (es ++ [.exec i a]) ⟨s', p.threads.set i (.create req pc')⟩ := by
  have hcur : CreateInv cfg p.shared req pc := hinv.threads i _ ht
  cases pc with
  | start =>
      cases a with
      | silent =>
          -- `verify_user` and the multiparty checks
          cases hpre : create_precheck req with
          | some err =>
              simp only [create_step, hpre, Option.some.injEq, Prod.mk.injEq] at h
              obtain ⟨rfl, rfl⟩ := h
              exact hinv.local_step ht rfl rfl (fun _ _ => rfl) (fun _ => filed_nil _ _) trivial
          | none =>
              simp only [create_step, hpre, Option.some.injEq, Prod.mk.injEq] at h
              obtain ⟨rfl, rfl⟩ := h
              exact hinv.local_step ht rfl rfl (fun _ _ => rfl) (fun _ => filed_nil _ _) hpre
      | _ => simp [create_step] at h
  | checking rest =>
      cases rest with
      | cons f rest =>
          -- one `check_access_permission` of the file loop
          cases a with
          | tdfs answer =>
              rcases answer with err | _ | _ <;>
                simp only [create_step, Option.some.injEq, Prod.mk.injEq] at h <;>
                obtain ⟨rfl, rfl⟩ := h
              · exact hinv.local_step ht rfl rfl (fun _ _ => rfl) (fun _ => filed_nil _ _) trivial
              · exact hinv.local_step ht rfl rfl (fun _ _ => rfl) (fun _ => filed_nil _ _) trivial
              · exact hinv.local_step ht rfl rfl (fun _ _ => rfl) (fun _ => filed_nil _ _) hcur
          | _ => simp [create_step] at h
      | nil =>
          -- `gen_token`, `Uuid::new_v4` and the uuid check
          cases a with
          | fresh token uuid =>
              cases token with
              | error err =>
                  simp only [create_step, Option.some.injEq, Prod.mk.injEq] at h
                  obtain ⟨rfl, rfl⟩ := h
                  exact hinv.local_step ht rfl rfl (fun _ _ => rfl) (fun _ => filed_nil _ _) trivial
              | ok token =>
                  cases hget : p.shared.TASK_STORE.get uuid with
                  | some info =>
                      simp only [create_step, hget, Option.some.injEq, Prod.mk.injEq] at h
                      obtain ⟨rfl, rfl⟩ := h
                      exact hinv.local_step ht rfl rfl (fun _ _ => rfl) (fun _ => filed_nil _ _)
                        trivial
                  | none =>
                      simp only [create_step, hget, Option.some.injEq, Prod.mk.injEq] at h
                      obtain ⟨rfl, rfl⟩ := h
                      exact hinv.draw_step ht hnd hget
          | _ => simp [create_step] at h
  | storing tid info =>
      cases a with
      | silent =>
          simp only [create_step, Option.some.injEq, Prod.mk.injEq] at h
          obtain ⟨rfl, rfl⟩ := h
          exact hinv.store_step ht
      | _ => simp [create_step] at h
  | locking tid info =>
      cases a with
      | silent =>
          cases hlock : p.shared.UPDATELOCK with
          | some holder => simp [create_step, hlock] at h
          | none =>
              simp only [create_step, hlock, Option.some.injEq, Prod.mk.injEq] at h
              obtain ⟨rfl, rfl⟩ := h
              exact hinv.acquire_step ht hlock rfl rfl (fun _ _ => rfl) (fun _ => filed_nil _ _)
                ⟨hcur.1, hcur.2, [], rfl, filed_nil _ _⟩
      | _ => simp [create_step] at h
  | indexing tid info rest =>
      cases a with
      | silent =>
          cases rest with
          | nil =>
              simp only [create_step, Option.some.injEq, Prod.mk.injEq] at h
              obtain ⟨rfl, rfl⟩ := h
              exact hinv.finish_step ht
          | cons u rest =>
              -- the read of `add_task_to_user`
              simp only [create_step, Option.some.injEq, Prod.mk.injEq] at h
              obtain ⟨rfl, rfl⟩ := h
              exact hinv.local_step ht rfl rfl (fun _ _ => rfl) (fun _ => filed_nil _ _)
                ⟨hcur.1, hcur.2.1, hcur.2.2, rfl⟩
      | _ => simp [create_step] at h
  | adding tid info u id_set rest =>
      cases a with
      | silent =>
          simp only [create_step, Option.some.injEq, Prod.mk.injEq] at h
          obtain ⟨rfl, rfl⟩ := h
          exact hinv.add_step ht
      | _ => simp [create_step] at h
  | done r => cases a <;> simp [create_step] at h

/-- Every step of an `UpdateTaskRequest` thread keeps the invariant. -/
theorem TmsInv.update_exec (hinv : TmsInv cfg es p) {req : UpdateTaskRequest}
    {pc pc' : UpdatePc} {a : TmsInput} {s' : TmsState}
    (ht : p.threads[i]? = some (.update req pc))
    (h : update_step i p.shared req pc a = some (s', pc')) :
    TmsInv cfg (es ++ [.exec i a]) ⟨s', p.threads.set i (.update req pc')⟩ := by
  have hcur : UpdateInv p.shared req pc := hinv.threads i _ ht
  cases pc with
  | start =>
      cases a with
      | silent =>
          -- the checks on the unlocked snapshot
          cases hpre : update_precheck req (p.shared.TASK_STORE.get req.task_id) with
          | some err =>
              simp only [update_step, hpre, Option.some.injEq, Prod.mk.injEq] at h
              obtain ⟨rfl, rfl⟩ := h
              exact hinv.local_step ht rfl rfl (fun _ _ => rfl) (fun _ => filed_nil _ _) trivial
          | none =>
              simp only [update_step, hpre, Option.some.injEq, Prod.mk.injEq] at h
              obtain ⟨rfl, rfl⟩ := h
              exact hinv.local_step ht rfl rfl (fun _ _ => rfl) (fun _ => filed_nil _ _) trivial
      | _ => simp [update_step] at h
  | locking =>
      cases a with
      | silent =>
          cases hlock : p.shared.UPDATELOCK with
          | some holder => simp [update_step, hlock] at h
          | none =>
              simp only [update_step, hlock, Option.some.injEq, Prod.mk.injEq] at h
              obtain ⟨rfl, rfl⟩ := h
              exact hinv.acquire_step ht hlock rfl rfl (fun _ _ => rfl) (fun _ => filed_nil _ _)
                trivial
      | _ => simp [update_step] at h
  | reading =>
      cases a with
      | silent =>
          -- the re-read under the lock, and the approval on the local copy
          cases hg : p.shared.TASK_STORE.get req.task_id with
          | none =>
              simp only [update_step, hg, Option.some.injEq, Prod.mk.injEq] at h
              obtain ⟨rfl, rfl⟩ := h
              exact hinv.release_step ht rfl rfl rfl (fun _ _ => rfl) (fun _ => filed_nil _ _)
                trivial
          | some info =>
              cases ha : approve req.user_id info with
              | none =>
                  simp only [update_step, hg, ha, Option.some.injEq, Prod.mk.injEq] at h
                  obtain ⟨rfl, rfl⟩ := h
                  exact hinv.release_step ht rfl rfl rfl (fun _ _ => rfl) (fun _ => filed_nil _ _)
                    trivial
              | some info' =>
                  simp only [update_step, hg, ha, Option.some.injEq, Prod.mk.injEq] at h
                  obtain ⟨rfl, rfl⟩ := h
                  exact hinv.local_step ht rfl rfl (fun _ _ => rfl) (fun _ => filed_nil _ _)
                    ⟨info, info', [], hg, ha, by simp⟩
      | _ => simp [update_step] at h
  | connecting copy =>
      cases a with
      | connect answer =>
          rcases answer with err | ⟨⟩ <;>
            simp only [update_step, Option.some.injEq, Prod.mk.injEq] at h <;>
            obtain ⟨rfl, rfl⟩ := h
          · exact hinv.release_step ht rfl rfl rfl (fun _ _ => rfl) (fun _ => filed_nil _ _) trivial
          · exact hinv.local_step ht rfl rfl (fun _ _ => rfl) (fun _ => filed_nil _ _) hcur
      | _ => simp [update_step] at h
  | checking copy rest =>
      cases rest with
      | cons f rest =>
          cases a with
          | tdfs answer =>
              rcases answer with err | _ | _ <;>
                simp only [update_step, Option.some.injEq, Prod.mk.injEq] at h <;>
                obtain ⟨rfl, rfl⟩ := h
              · exact hinv.release_step ht rfl rfl rfl (fun _ _ => rfl) (fun _ => filed_nil _ _)
                  trivial
              · exact hinv.release_step ht rfl rfl rfl (fun _ _ => rfl) (fun _ => filed_nil _ _)
                  trivial
              · -- the checked file joins the copy's input files
                obtain ⟨info, info', extra, hg, ha, rfl⟩ := hcur
                exact hinv.local_step ht rfl rfl (fun _ _ => rfl) (fun _ => filed_nil _ _)
                  ⟨info, info', extra ++ [⟨req.user_id, f⟩], hg, ha, by simp⟩
          | _ => simp [update_step] at h
      | nil =>
          cases a with
          | silent =>
              simp only [update_step, Option.some.injEq, Prod.mk.injEq] at h
              obtain ⟨rfl, rfl⟩ := h
              exact hinv.commit_step ht
          | _ => simp [update_step] at h
  | done r => cases a <;> simp [update_step] at h

/-- **The invariant is inductive**: every step of the pool keeps it, provided
    the step's uuid (if it draws one) was not drawn before. -/
theorem TmsInv.step (hinv : TmsInv cfg es p) (hnd : (drawn_uuids (es ++ [e])).Nodup)
    {p' : Pool TmsState ExternalThread} (h : external_pool_step cfg p e = some p') :
    TmsInv cfg (es ++ [e]) p' := by
  cases e with
  | spawn r =>
      rw [Pool.step_spawn h]
      exact hinv.spawn_step r
  | exec i a =>
      obtain ⟨t, s', t', ht, hs, rfl⟩ := Pool.step_exec h
      cases t with
      | create req pc =>
          obtain ⟨⟨s'', pc'⟩, hc, he⟩ := Option.map_eq_some_iff.mp hs
          cases he
          exact hinv.create_exec ht hnd hc
      | update req pc =>
          obtain ⟨⟨s'', pc'⟩, hc, he⟩ := Option.map_eq_some_iff.mp hs
          cases he
          exact hinv.update_exec ht hc
      | get req resp =>
          -- the read-only handlers touch nothing shared
          rcases resp with _ | resp <;> cases a <;> simp only [external_step, reduceCtorEq,
            Option.some.injEq, Prod.mk.injEq] at hs
          obtain ⟨rfl, rfl⟩ := hs
          exact hinv.local_step ht rfl rfl (fun _ _ => rfl) (fun _ => filed_nil _ _) trivial
      | list req resp =>
          rcases resp with _ | resp <;> cases a <;> simp only [external_step, reduceCtorEq,
            Option.some.injEq, Prod.mk.injEq] at hs
          obtain ⟨rfl, rfl⟩ := hs
          exact hinv.local_step ht rfl rfl (fun _ _ => rfl) (fun _ => filed_nil _ _) trivial

end Steps

/-- The invariant holds at enclave start: no record, no set, no thread. -/
theorem TmsInv.init (cfg : TmsConfig) : TmsInv cfg [] external_init where
  records := fun tid info hg => by cases hg
  attribution := fun tid info u hg => by cases hg
  index_sound := fun u tid h => by simp [user_tasks, external_init, TmsState.init] at h
  index_complete := fun j t hj => by simp [external_init] at hj
  lock_held := fun j hj => by cases hj
  lock_holder := fun j t hj => by simp [external_init] at hj
  threads := fun j t hj => by simp [external_init] at hj
  storing_unique := fun j k tj tk tid hj => by simp [external_init] at hj
  drawn := by
    rintro tid (hg | ⟨j, t, hj, -⟩)
    · exact absurd rfl hg
    · simp [external_init] at hj

/-! ## §5. Every run. -/

/-- **The run lemma**: every run whose uuids never repeat ends in a state
    satisfying the invariant.  The induction is on the trace, from its end;
    `TmsInv.step` carries each step. -/
theorem TmsInv.of_run {cfg : TmsConfig} {es : List (PoolLabel ExternalRequest TmsInput)}
    {p : Pool TmsState ExternalThread} (hrun : run (external_pool_step cfg) external_init es = some p)
    (hfresh : (drawn_uuids es).Nodup) : TmsInv cfg es p := by
  refine run_invariant (P := fun es p => (drawn_uuids es).Nodup → TmsInv cfg es p)
    (fun _ => TmsInv.init cfg) ?_ hrun hfresh
  intro es p e p' _ ih hs hnd
  -- the draws of the prefix are a prefix of the draws of the run
  have hpre : (drawn_uuids es).Nodup := by
    rw [drawn_uuids_append] at hnd
    exact hnd.sublist (List.sublist_append_left _ _)
  exact (ih hpre).step hnd hs

/-- **The TMS store invariant.**  In every state the external TMS enclave
    reaches, under any interleaving of its request threads and whatever TDFS
    and `gen_token` answer, provided `Uuid::new_v4` never repeats itself:

    • every stored task's counter is its number of approved entries, so at
      most the length of its collaborator list;
    • per user, its approved entries are as many as its update requests on
      that task that returned `Ok`;
    • a multiparty task is `Created` exactly while the counter is below the
      length, a single-party task is `Ready`;
    • a create that returned `Ok` has filed its task id under the creator
      and every collaborator;
    • no user's set holds a task the user is neither creator nor
      collaborator of. -/
theorem external_tms_store_invariant (cfg : TmsConfig)
    (es : List (PoolLabel ExternalRequest TmsInput)) (p : Pool TmsState ExternalThread)
    (hrun : run (external_pool_step cfg) external_init es = some p)
    (hfresh : (drawn_uuids es).Nodup) :
    (∀ tid info, p.shared.TASK_STORE.get tid = some info →
      info.approved_user_number = count_approved info.collaborator_list ∧
      info.approved_user_number ≤ info.collaborator_list.length ∧
      (∀ u, approved_by u info.collaborator_list = approvals p.threads tid u) ∧
      (info.function_type = .Multiparty →
        (info.status = .Created ↔ info.approved_user_number < info.collaborator_list.length)) ∧
      (info.function_type = .Single → info.status = .Ready)) ∧
    (∀ (j : Nat) req tid token ip port,
      p.threads[j]? = some (.create req (.done (.ok (.Create tid token ip port)))) →
      ∀ u ∈ req.user_id :: req.collaborator_list, tid ∈ user_tasks p.shared u) ∧
    (∀ u tid, tid ∈ user_tasks p.shared u →
      ∃ info, p.shared.TASK_STORE.get tid = some info ∧ u ∈ task_users info) := by
  have hinv := TmsInv.of_run hrun hfresh
  refine ⟨fun tid info hg => ?_, fun j req tid token ip port hj => ?_, hinv.index_sound⟩
  · have hok := hinv.records tid info hg
    have hle : info.approved_user_number ≤ info.collaborator_list.length := by
      rw [hok.counter]
      exact count_approved_le _
    exact ⟨hok.counter, hle, fun u => hinv.attribution tid info u hg, hok.multiparty, hok.single⟩
  · have h : Filed p.shared tid (req.user_id :: req.collaborator_list) := by
      simpa [created_users] using hinv.index_complete j _ hj tid
    exact h

/-- One single-party create by `alice`, run to its end: the task is filed under her. -/
theorem external_tms_store_invariant_one_create :
    ∃ p, run (external_pool_step ⟨"fns", 3444⟩) external_init
      [.spawn (.Create ⟨"echo", [], [], "alice", "alice-token"⟩), .exec 0 .silent,
        .exec 0 (.fresh (.ok "task-token") "task-1"), .exec 0 .silent, .exec 0 .silent,
        .exec 0 .silent, .exec 0 .silent, .exec 0 .silent] = some p ∧
      "task-1" ∈ user_tasks p.shared "alice" := by
  refine ⟨_, rfl, ?_⟩
  exact (external_tms_store_invariant ⟨"fns", 3444⟩
    [.spawn (.Create ⟨"echo", [], [], "alice", "alice-token"⟩), .exec 0 .silent,
      .exec 0 (.fresh (.ok "task-token") "task-1"), .exec 0 .silent, .exec 0 .silent,
      .exec 0 .silent, .exec 0 .silent, .exec 0 .silent] _ rfl (by decide)).2.1
    0 _ _ _ _ _ rfl "alice" List.mem_cons_self

end Teaclave.Tms
