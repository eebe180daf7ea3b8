/-
  Teaclave.Fns.Worker
  ───────────────────
  **THE FNS WORKER POOL.**

  `fns/sgx_trusted_lib/src/worker.rs`: the enclave keeps, per function name, a
  stack of idle workers (`queue`) and the ids of the workers that are out
  (`running_worker`).  `register` gives a worker the next id of a `u32`
  counter and pushes it; `aquire_worker` pops the top worker of a function;
  `release_worker` takes its id out of `running_worker` and pushes it back.
  Each of the three holds the write lock of `WORKER_INFO_QUEUE` for its whole
  body, so each is one atomic step.

  A worker's computation (`prepare_input`, `execute`) is not the pool's
  business: `Fns.Invoke` takes what it returns as an answer from outside.

  `global.rs` registers, at enclave start, ten workers of each of the 26
  trusted functions (`register_trusted_worker_statically`).
-/
import Teaclave.Core.Basic
import Teaclave.Lib.Interleaving

namespace Teaclave.Fns

open Teaclave.Core Teaclave.Lib

/-! ## §1. Workers and the pool. -/

/-- A registered worker, by what the pool reads of it: `id()` and
    `function_name()`. -/
structure Worker where
  worker_id : UInt32
  func_name : String
  deriving DecidableEq, Repr

/-- `WorkerInfoQueue`; the `HashMap` of idle workers is its lookup function
    (`none` for a function never registered), a `Vec` is a list whose end is
    the top. -/
structure WorkerInfoQueue where
  running_worker : Finset UInt32
  worker_id_counter : UInt32
  queue : String → Option (List Worker)

namespace WorkerInfoQueue

/-- `WorkerInfoQueue::new`. -/
def new : WorkerInfoQueue := ⟨∅, 0, fun _ => none⟩

/-- `inc_id`: the counter's value, and the counter moved on (`u32` arithmetic). -/
def inc_id (q : WorkerInfoQueue) : WorkerInfoQueue × UInt32 :=
  ({ q with worker_id_counter := q.worker_id_counter + 1 }, q.worker_id_counter)

/-- `register`: the next id, then a push onto the function's stack (created
    empty first if the function is new). -/
def register (q : WorkerInfoQueue) (func_name : String) : WorkerInfoQueue :=
  let (q, worker_id) := q.inc_id
  let queue := (q.queue func_name).getD []
  { q with queue := Function.update q.queue func_name (some (queue ++ [⟨worker_id, func_name⟩])) }

/-- `aquire_worker`: pop the top idle worker of `func_name` and mark its id
    running.  Both errors leave the pool as it was. -/
def aquire_worker (q : WorkerInfoQueue) (func_name : String) : Result (WorkerInfoQueue × Worker) :=
  match q.queue func_name with
  | none => .error .FunctionNotSupportedError
  | some queue =>
      match queue.getLast? with
      | none => .error .NoValidWorkerError
      | some worker =>
          .ok ({ q with
                  running_worker := insert worker.worker_id q.running_worker
                  queue := Function.update q.queue func_name (some queue.dropLast) },
                worker)

/-- `release_worker`: the id leaves `running_worker`, then the worker is pushed
    back.  The removal stays even when the function is unknown (the `?` returns
    after it, and the worker is dropped). -/
def release_worker (q : WorkerInfoQueue) (worker : Worker) : WorkerInfoQueue × Result Unit :=
  let q := { q with running_worker := q.running_worker.erase worker.worker_id }
  match q.queue worker.func_name with
  | none => (q, .error .BadImplementation)
  | some queue =>
      ({ q with queue := Function.update q.queue worker.func_name (some (queue ++ [worker])) }, .ok ())

end WorkerInfoQueue

/-! ## §2. The workers registered at enclave start (`global.rs`). -/

/-- The function names `register_trusted_worker_statically` registers, in its order. -/
def trusted_worker_names : List String :=
  ["echo", "psi", "echo_file", "bytes_plus_one", "file_bytes_plus_one", "concat", "swap_file",
    "wasmi_from_buffer", "mesapy_from_buffer", "gbdt_predict", "gbdt_train",
    "private_join_and_compute", "image_resize", "decrypt", "rsa_sign", "kmeans_cluster",
    "lin_reg", "svm", "gen_linear_model", "gaussian_mixture_model", "gaussian_processes",
    "dbscan", "neural_net", "naive_bayes", "logisticreg_train", "logisticreg_predict"]

/-- `register_trusted_worker_statically`: ten rounds, one worker of each
    trusted function per round. -/
def register_trusted_worker_statically (q : WorkerInfoQueue) : WorkerInfoQueue :=
  (List.range 10).foldl (fun q _ => trusted_worker_names.foldl WorkerInfoQueue.register q) q

/-! ## §3. What one call does. -/

namespace WorkerInfoQueue

@[simp] theorem register_queue_self (q : WorkerInfoQueue) (f : String) :
    (q.register f).queue f = some ((q.queue f).getD [] ++ [⟨q.worker_id_counter, f⟩]) := by
  simp [register, inc_id]

@[simp] theorem register_queue_ne (q : WorkerInfoQueue) {f g : String} (h : g ≠ f) :
    (q.register f).queue g = q.queue g := by
  simp [register, inc_id, Function.update_of_ne h]

@[simp] theorem register_counter (q : WorkerInfoQueue) (f : String) :
    (q.register f).worker_id_counter = q.worker_id_counter + 1 := rfl

@[simp] theorem register_running (q : WorkerInfoQueue) (f : String) :
    (q.register f).running_worker = q.running_worker := rfl

/-- **`aquire_worker` succeeds exactly on a non-empty stack**, with its top
    worker, which leaves the stack and joins `running_worker`. -/
theorem aquire_worker_eq_ok {q q' : WorkerInfoQueue} {f : String} {w : Worker} :
    q.aquire_worker f = .ok (q', w) ↔
      ∃ queue, q.queue f = some (queue ++ [w]) ∧
        q' = { q with
          running_worker := insert w.worker_id q.running_worker
          queue := Function.update q.queue f (some queue) } := by
  unfold aquire_worker
  cases hq : q.queue f with
  | none => simp
  | some queue =>
      -- the stack is empty, or has a top
      rcases List.eq_nil_or_concat queue with rfl | ⟨pre, top, rfl⟩
      · simp
      · simp only [List.concat_eq_append] at hq ⊢
        simp only [List.getLast?_concat, List.dropLast_concat, Except.ok.injEq, Prod.mk.injEq,
          Option.some.injEq]
        constructor
        · rintro ⟨rfl, rfl⟩
          exact ⟨pre, rfl, rfl⟩
        · rintro ⟨queue, heq, rfl⟩
          obtain ⟨rfl, htop⟩ := List.append_inj' heq rfl
          rw [List.singleton_inj] at htop
          subst htop
          exact ⟨rfl, rfl⟩

end WorkerInfoQueue

/-! ## §4. Runs of the pool.

  A run is any sequence of `register`, `aquire_worker` and `release_worker`
  calls, each under the write lock, with the ghost record of what the pool
  was given and what it gave out: the workers registered so far and those
  the callers hold.  A worker is released only by the caller that acquired
  it, as `InvokeTaskRequest::handle_request` does.

  `PoolInv` says where every worker is.  `places` counts: a registered
  worker is idle on its function's stack or held, never both, and nothing
  else is in either place.  It is kept by each call (`PoolInv.register`,
  `.aquire`, `.release`), the ids staying distinct while the `u32` counter
  does not wrap. -/

/-- The calls the pool serves. -/
inductive PoolCall where
  | register (func_name : String)
  | aquire_worker (func_name : String)
  | release_worker (worker : Worker)
  deriving DecidableEq, Repr

/-- Whether a call registers a worker. -/
def PoolCall.is_register : PoolCall → Bool
  | .register _ => true
  | _ => false

/-- The pool, the workers registered so far in order, and the workers the
    callers hold. -/
structure PoolRun where
  pool : WorkerInfoQueue
  registered : List Worker
  held : List Worker

/-- The pool before any call. -/
def pool_new : PoolRun := ⟨WorkerInfoQueue.new, [], []⟩

/-- One call; releasing a worker nobody holds is not a call the enclave makes. -/
def pool_step (p : PoolRun) : PoolCall → Option PoolRun
  | .register f =>
      some ⟨p.pool.register f, p.registered ++ [⟨p.pool.worker_id_counter, f⟩], p.held⟩
  | .aquire_worker f =>
      match p.pool.aquire_worker f with
      | .ok (q, w) => some ⟨q, p.registered, w :: p.held⟩
      | .error _ => some p
  | .release_worker w =>
      if w ∈ p.held then some ⟨(p.pool.release_worker w).1, p.registered, p.held.erase w⟩
      else none

namespace WorkerInfoQueue

/-- The idle workers of `f` (none for a function never registered). -/
def idle (q : WorkerInfoQueue) (f : String) : List Worker := (q.queue f).getD []

@[simp] theorem idle_register_self (q : WorkerInfoQueue) (f : String) :
    (q.register f).idle f = q.idle f ++ [⟨q.worker_id_counter, f⟩] := by
  simp [idle]

@[simp] theorem idle_register_ne (q : WorkerInfoQueue) {f g : String} (h : g ≠ f) :
    (q.register f).idle g = q.idle g := by
  simp [idle, h]

/-- `release_worker` of a worker whose function is known pushes it back. -/
theorem release_worker_of_queue {q : WorkerInfoQueue} {w : Worker} {queue : List Worker}
    (hq : q.queue w.func_name = some queue) :
    q.release_worker w = ({ q with
      running_worker := q.running_worker.erase w.worker_id
      queue := Function.update q.queue w.func_name (some (queue ++ [w])) }, .ok ()) := by
  simp [release_worker, hq]

/-- `aquire_worker` fails for lack of an idle worker exactly on an empty stack. -/
theorem aquire_worker_eq_no_valid (q : WorkerInfoQueue) (f : String) :
    q.aquire_worker f = .error .NoValidWorkerError ↔ q.queue f = some [] := by
  unfold aquire_worker
  cases hq : q.queue f with
  | none => simp
  | some queue =>
      cases hl : queue.getLast? with
      | none => simp [List.getLast?_eq_none_iff.mp hl]
      | some w =>
          have : queue ≠ [] := by rintro rfl; simp at hl
          simp [hl, this]

/-- `aquire_worker` fails for an unknown function exactly when none was registered. -/
theorem aquire_worker_eq_not_supported (q : WorkerInfoQueue) (f : String) :
    q.aquire_worker f = .error .FunctionNotSupportedError ↔ q.queue f = none := by
  unfold aquire_worker
  cases hq : q.queue f with
  | none => simp
  | some queue =>
      cases hl : queue.getLast? <;> simp [hl]

end WorkerInfoQueue

open WorkerInfoQueue

/-- **Where every worker is.** -/
structure PoolInv (p : PoolRun) : Prop where
  counter : p.pool.worker_id_counter.toNat = p.registered.length
  ids : p.registered.map (fun w => w.worker_id.toNat) = List.range p.registered.length
  idle_name : ∀ f w, w ∈ p.pool.idle f → w.func_name = f
  places : ∀ w, p.registered.count w = (p.pool.idle w.func_name).count w + p.held.count w
  running : p.pool.running_worker = (p.held.map (·.worker_id)).toFinset
  known : ∀ f, p.pool.queue f = none ↔ ∀ w ∈ p.registered, w.func_name ≠ f

theorem poolInv_new : PoolInv pool_new where
  counter := rfl
  ids := rfl
  idle_name := by simp [pool_new, WorkerInfoQueue.new, idle]
  places := by simp [pool_new, WorkerInfoQueue.new, idle]
  running := rfl
  known := by simp [pool_new, WorkerInfoQueue.new]

namespace PoolInv

variable {p : PoolRun}

theorem ids_nodup (h : PoolInv p) : (p.registered.map (·.worker_id)).Nodup := by
  have hn : (p.registered.map fun w => w.worker_id.toNat).Nodup := by
    rw [h.ids]
    exact List.nodup_range
  exact List.Nodup.of_map UInt32.toNat (by rw [List.map_map]; exact hn)

theorem count_registered_le_one (h : PoolInv p) (w : Worker) : p.registered.count w ≤ 1 :=
  List.nodup_iff_count_le_one.mp (h.ids_nodup.of_map _) w

theorem mem_registered_of_idle (h : PoolInv p) {f : String} {w : Worker} (hw : w ∈ p.pool.idle f) :
    w ∈ p.registered := by
  have hf := h.idle_name f w hw
  subst hf
  have := h.places w
  rw [← List.count_pos_iff] at hw ⊢
  omega

theorem mem_registered_of_held (h : PoolInv p) {w : Worker} (hw : w ∈ p.held) : w ∈ p.registered := by
  have := h.places w
  rw [← List.count_pos_iff] at hw ⊢
  omega

/-- Registered workers with one id are one worker. -/
theorem eq_of_worker_id (h : PoolInv p) {v w : Worker} (hv : v ∈ p.registered) (hw : w ∈ p.registered)
    (hid : v.worker_id = w.worker_id) : v = w :=
  List.inj_on_of_nodup_map h.ids_nodup hv hw hid

/-- **`register` keeps the invariant** while the counter does not wrap. -/
theorem register (h : PoolInv p) (hlen : p.registered.length + 1 < 2 ^ 32) (f : String) :
    PoolInv ⟨p.pool.register f, p.registered ++ [⟨p.pool.worker_id_counter, f⟩], p.held⟩ where
  counter := by
    simp only [register_counter, UInt32.toNat_add, h.counter, List.length_append, List.length_singleton]
    rw [Nat.mod_eq_of_lt (by simpa using hlen)]
    rfl
  ids := by
    rw [List.map_append, h.ids, List.length_append, List.length_singleton, List.range_succ,
      List.map_singleton, h.counter]
  idle_name := by
    intro g w hw
    by_cases hg : g = f
    · subst hg
      rw [idle_register_self, List.mem_append, List.mem_singleton] at hw
      rcases hw with hw | rfl
      · exact h.idle_name g w hw
      · rfl
    · rw [idle_register_ne _ hg] at hw
      exact h.idle_name g w hw
  places := by
    intro w
    dsimp only
    have := h.places w
    by_cases hg : w.func_name = f
    · -- the new worker joins `f`'s stack and the registered list alike
      rw [hg, idle_register_self, List.count_append, List.count_append]
      rw [hg] at this
      omega
    · have hne : w ≠ ⟨p.pool.worker_id_counter, f⟩ := fun he => hg (by rw [he])
      rw [idle_register_ne _ hg, List.count_append, List.count_singleton]
      simp [hne.symm, this]
  running := h.running
  known := by
    intro g
    by_cases hg : g = f
    · subst hg
      simp [WorkerInfoQueue.register, inc_id]
    · rw [show (p.pool.register f).queue g = p.pool.queue g from register_queue_ne _ hg, h.known g]
      simp [or_imp, forall_and, Ne.symm hg]

/-- **`aquire_worker` keeps the invariant**: the top worker moves from its
    stack to the caller. -/
theorem aquire (h : PoolInv p) {f : String} {q : WorkerInfoQueue} {w : Worker}
    (ha : p.pool.aquire_worker f = .ok (q, w)) : PoolInv ⟨q, p.registered, w :: p.held⟩ := by
  obtain ⟨pre, hq, rfl⟩ := aquire_worker_eq_ok.mp ha
  have hw : w.func_name = f := h.idle_name f w (by simp [idle, hq])
  have hidle : ∀ g, idle { p.pool with
      running_worker := insert w.worker_id p.pool.running_worker
      queue := Function.update p.pool.queue f (some pre) } g =
        if g = f then pre else p.pool.idle g := by
    intro g
    by_cases hg : g = f
    · subst hg; simp [idle]
    · simp [idle, hg]
  refine ⟨h.counter, h.ids, ?_, ?_, ?_, ?_⟩
  · intro g v hv
    rw [hidle] at hv
    split_ifs at hv with hg
    · subst hg
      exact h.idle_name g v (by simp [idle, hq, hv])
    · exact h.idle_name g v hv
  · intro v
    dsimp only
    have := h.places v
    rw [hidle, List.count_cons]
    by_cases hg : v.func_name = f
    · -- `v`'s stack lost its top `w`
      rw [if_pos hg]
      rw [hg] at this
      simp only [idle, hq, Option.getD_some, List.count_append, List.count_singleton] at this
      omega
    · have hne : w ≠ v := fun he => hg (by rw [← he, hw])
      rw [if_neg hg]
      simp [hne, this]
  · simp [h.running]
  · intro g
    by_cases hg : g = f
    · subst hg
      simp only [Function.update_self, reduceCtorEq, false_iff, not_forall, not_not]
      exact ⟨w, h.mem_registered_of_idle (f := g) (by simp [idle, hq]), hw⟩
    · simp [hg, h.known g]

/-- **`release_worker` keeps the invariant**: a held worker goes back on top
    of its stack, and its id leaves `running_worker`. -/
theorem release (h : PoolInv p) {w : Worker} (hw : w ∈ p.held) :
    PoolInv ⟨(p.pool.release_worker w).1, p.registered, p.held.erase w⟩ := by
  have hreg := h.mem_registered_of_held hw
  -- its function was registered, so its stack exists
  obtain ⟨queue, hq⟩ := Option.ne_none_iff_exists'.mp
    (fun hn => (h.known w.func_name).mp hn w hreg rfl)
  rw [release_worker_of_queue hq]
  have hidle : ∀ g, idle { p.pool with
      running_worker := p.pool.running_worker.erase w.worker_id
      queue := Function.update p.pool.queue w.func_name (some (queue ++ [w])) } g =
        if g = w.func_name then p.pool.idle g ++ [w] else p.pool.idle g := by
    intro g
    by_cases hg : g = w.func_name
    · subst hg; simp [idle, hq]
    · simp [idle, hg]
  refine ⟨h.counter, h.ids, ?_, ?_, ?_, ?_⟩
  · intro g v hv
    rw [hidle] at hv
    split_ifs at hv with hg
    · rw [List.mem_append, List.mem_singleton] at hv
      rcases hv with hv | rfl
      · exact h.idle_name g v hv
      · exact hg.symm
    · exact h.idle_name g v hv
  · intro v
    dsimp only
    have := h.places v
    rw [hidle, List.count_erase]
    by_cases hg : v.func_name = w.func_name
    · rw [if_pos hg, List.count_append, List.count_singleton]
      by_cases hv : v = w
      · -- `w` itself: one fewer held, one more idle
        subst hv
        have := List.count_pos_iff.mpr hw
        simp
        omega
      · simp [Ne.symm hv, this]
    · have hv : w ≠ v := fun he => hg (by rw [he])
      rw [if_neg hg]
      simp [hv, this]
  · -- no other held worker has `w`'s id
    ext i
    simp only [h.running, Finset.mem_erase, List.mem_toFinset, List.mem_map]
    constructor
    · rintro ⟨hi, v, hv, rfl⟩
      have hvw : v ≠ w := fun he => hi (by rw [he])
      exact ⟨v, (List.mem_erase_of_ne hvw).mpr hv, rfl⟩
    · rintro ⟨v, hv, rfl⟩
      have hv' := List.mem_of_mem_erase hv
      refine ⟨fun hid => ?_, v, hv', rfl⟩
      have hvw := h.eq_of_worker_id (h.mem_registered_of_held hv') hreg hid
      subst hvw
      -- then `v` would be held twice
      have h2 := List.count_pos_iff.mpr hv
      rw [List.count_erase_self] at h2
      have := h.places v
      have := h.count_registered_le_one v
      omega
  · intro g
    by_cases hg : g = w.func_name
    · subst hg
      simp only [Function.update_self, reduceCtorEq, false_iff, not_forall, not_not]
      exact ⟨w, hreg, rfl⟩
    · simp [hg, h.known g]

/-- `aquire_worker` fails for lack of an idle worker exactly when the
    function has workers and the callers hold them all. -/
theorem no_valid_iff (h : PoolInv p) (f : String) :
    p.pool.aquire_worker f = .error .NoValidWorkerError ↔
      (∃ w ∈ p.registered, w.func_name = f) ∧ ∀ w ∈ p.registered, w.func_name = f → w ∈ p.held := by
  rw [aquire_worker_eq_no_valid]
  constructor
  · intro hq
    have hsome : ¬ ∀ w ∈ p.registered, w.func_name ≠ f := fun hn => by
      simp [(h.known f).mpr hn] at hq
    push Not at hsome
    refine ⟨hsome, fun w hw hf => ?_⟩
    -- not idle, so held
    have hplaces := h.places w
    have hidle : p.pool.idle w.func_name = [] := by simp [idle, hf, hq]
    rw [hidle, List.count_nil] at hplaces
    rw [← List.count_pos_iff] at hw ⊢
    omega
  · rintro ⟨⟨w, hw, hf⟩, hall⟩
    cases hq : p.pool.queue f with
    | none => exact absurd hf ((h.known f).mp hq w hw)
    | some queue =>
        rcases queue with _ | ⟨v, rest⟩
        · rfl
        · -- an idle worker would be idle and held at once
          exfalso
          have hv : v ∈ p.pool.idle f := by simp [idle, hq]
          have hvf := h.idle_name f v hv
          have hheld := List.count_pos_iff.mpr (hall v (h.mem_registered_of_idle hv) hvf)
          have hidle := List.count_pos_iff.mpr hv
          have hplaces := h.places v
          have hle := h.count_registered_le_one v
          rw [hvf] at hplaces
          omega

/-- `aquire_worker` fails for an unknown function exactly when no worker of
    it was registered. -/
theorem not_supported_iff (h : PoolInv p) (f : String) :
    p.pool.aquire_worker f = .error .FunctionNotSupportedError ↔
      ∀ w ∈ p.registered, w.func_name ≠ f := by
  rw [aquire_worker_eq_not_supported]
  exact h.known f

end PoolInv

/-- **The run invariant**: after a run with fewer than `2 ^ 32` registrations,
    every worker is where `PoolInv` says. -/
theorem PoolInv.of_run {calls : List PoolCall} {p : PoolRun}
    (hreg : calls.countP PoolCall.is_register < 2 ^ 32)
    (h : run pool_step pool_new calls = some p) : PoolInv p := by
  -- the registered list grows with the registrations seen so far
  have key := run_invariant
    (P := fun es p => p.registered.length = es.countP PoolCall.is_register ∧
      (es.countP PoolCall.is_register < 2 ^ 32 → PoolInv p))
    ⟨rfl, fun _ => poolInv_new⟩ ?_ h
  · exact key.2 hreg
  · rintro es p e p' - ⟨hlen, hinv⟩ hs
    cases e with
    | register f =>
        simp only [pool_step, Option.some.injEq] at hs
        subst hs
        have hc : (es ++ [PoolCall.register f]).countP PoolCall.is_register =
            es.countP PoolCall.is_register + 1 := by
          simp [PoolCall.is_register]
        rw [hc]
        exact ⟨by simp [hlen], fun hlt => (hinv (by omega)).register (by omega) f⟩
    | aquire_worker f =>
        simp only [pool_step] at hs
        simp only [List.countP_append, List.countP_singleton, PoolCall.is_register]
        split at hs
        · rename_i q w ha
          cases hs
          exact ⟨by simpa using hlen, fun hlt => (hinv (by simpa using hlt)).aquire ha⟩
        · cases hs
          exact ⟨by simpa using hlen, fun hlt => hinv (by simpa using hlt)⟩
    | release_worker w =>
        simp only [pool_step] at hs
        simp only [List.countP_append, List.countP_singleton, PoolCall.is_register]
        split_ifs at hs with hw
        cases hs
        exact ⟨by simpa using hlen, fun hlt => (hinv (by simpa using hlt)).release hw⟩

/-- **Worker pool conservation.**  After any run with fewer than `2 ^ 32`
    registrations: the ids are distinct; each registered worker is idle on
    its function's stack or held, exactly once; nothing else is idle or
    held; `running_worker` is the set of held ids; and `aquire_worker`
    fails for lack of a worker, or for an unknown function, exactly when it
    should. -/
theorem worker_pool_conservation {calls : List PoolCall} {p : PoolRun}
    (hreg : calls.countP PoolCall.is_register < 2 ^ 32)
    (h : run pool_step pool_new calls = some p) :
    (p.registered.map (·.worker_id)).Nodup ∧
      (∀ w ∈ p.registered, (p.pool.idle w.func_name).count w + p.held.count w = 1) ∧
      (∀ f w, w ∈ p.pool.idle f → w.func_name = f ∧ w ∈ p.registered) ∧
      (∀ w ∈ p.held, w ∈ p.registered) ∧
      p.pool.running_worker = (p.held.map (·.worker_id)).toFinset ∧
      ∀ f, (p.pool.aquire_worker f = .error .NoValidWorkerError ↔
          (∃ w ∈ p.registered, w.func_name = f) ∧ ∀ w ∈ p.registered, w.func_name = f → w ∈ p.held) ∧
        (p.pool.aquire_worker f = .error .FunctionNotSupportedError ↔
          ∀ w ∈ p.registered, w.func_name ≠ f) := by
  have hi := PoolInv.of_run hreg h
  refine ⟨hi.ids_nodup, fun w hw => ?_, fun f w hw => ⟨hi.idle_name f w hw, hi.mem_registered_of_idle hw⟩,
    fun w hw => hi.mem_registered_of_held hw, hi.running, fun f => ⟨hi.no_valid_iff f, hi.not_supported_iff f⟩⟩
  rw [← hi.places w]
  exact List.count_eq_one_of_mem (hi.ids_nodup.of_map _) hw

/-- One `echo` worker registered and acquired: `echo` has no idle worker left. -/
theorem worker_pool_conservation_echo :
    ∃ p, run pool_step pool_new [.register "echo", .aquire_worker "echo"] = some p ∧
      (p.pool.aquire_worker "echo" = .error .NoValidWorkerError ↔
        (∃ w ∈ p.registered, w.func_name = "echo") ∧
          ∀ w ∈ p.registered, w.func_name = "echo" → w ∈ p.held) := by
  have hp : run pool_step pool_new [.register "echo", .aquire_worker "echo"] = some _ := rfl
  exact ⟨_, hp, ((worker_pool_conservation (by decide) hp).2.2.2.2.2 "echo").1⟩

end Teaclave.Fns
