/-
  Teaclave.Core.Basic
  ───────────────────
  What every MesaTEE service shares (`mesatee_core`): the error kinds a handler
  fails with, the `Result` it returns, and `Memdb`, the in-memory key-value
  store (`mesatee_core/src/db.rs`) the services keep their state in.

  `Memdb` is a `HashMap` behind an `RwLock`; each `get`, `set` and `del` takes
  the lock for exactly one access, so one call is one atomic step of a thread.
  Its `Result` only fails on a poisoned lock, which needs a panic while the
  lock is held; no modelled path panics there, so the operations are total.
-/
import Mathlib

namespace Teaclave.Core

/-! ## §1. Errors. -/

/-- `mesatee_core::ErrorKind`. -/
inductive ErrorKind where
  | PermissionDenied
  | MissingValue
  | ConnectionRefused
  | RAInternalError
  | InvalidRA
  | InternalRPCError
  | RPCRequestError
  | RPCResponseError
  | BadImplementation
  | InvalidHTTPRequest
  | ParseError
  | FFICallerOutBufferTooSmall
  | ECallCommandNotRegistered
  | IoError
  | ECallError
  | OCallError
  | TCPError
  | TLSError
  | SystemTimeError
  | UUIDError
  | CryptoError
  | SyncPrimitiveError
  | SgxError
  | UntrustedAppError
  | FFIError
  | KeyNotFoundError
  | FunctionNotSupportedError
  | InvalidInputError
  | OutputGenerationError
  | IPCError
  | IASClientKeyCertError
  | NoValidWorkerError
  | MsgSizeLimitExceedError
  | MesaPyError
  | RpcProtocolError
  | Unknown
  deriving DecidableEq, Repr

/-- `mesatee_core::Result`. -/
abbrev Result (α : Type) := Except ErrorKind α

/-! ## §2. `Memdb`: the services' key-value store. -/

/-- `Memdb<K, V>`, by its lookup function. -/
structure Memdb (K V : Type) where
  hashmap : K → Option V

namespace Memdb

variable {K V : Type}

/-- `Memdb::open`: the empty store. -/
def «open» : Memdb K V := ⟨fun _ => none⟩

/-- `Memdb::get`. -/
def get (db : Memdb K V) (k : K) : Option V := db.hashmap k

@[simp] theorem get_open (k : K) : (Memdb.open : Memdb K V).get k = none := rfl

variable [DecidableEq K]

/-- `Memdb::set` (its returned old value is discarded by every caller). -/
def set (db : Memdb K V) (k : K) (v : V) : Memdb K V :=
  ⟨Function.update db.hashmap k (some v)⟩

/-- `Memdb::del`: the store without `k`, and the value it held. -/
def del (db : Memdb K V) (k : K) : Memdb K V × Option V :=
  (⟨Function.update db.hashmap k none⟩, db.hashmap k)

@[simp] theorem get_set_self (db : Memdb K V) (k : K) (v : V) : (db.set k v).get k = some v :=
  show Function.update db.hashmap k (some v) k = some v from Function.update_self _ _ _

@[simp] theorem get_set_ne (db : Memdb K V) {k k' : K} (v : V) (h : k' ≠ k) :
    (db.set k v).get k' = db.get k' :=
  show Function.update db.hashmap k (some v) k' = db.hashmap k' from Function.update_of_ne h _ _

theorem get_set (db : Memdb K V) (k k' : K) (v : V) :
    (db.set k v).get k' = if k' = k then some v else db.get k' := by
  by_cases h : k' = k
  · subst h; simp
  · simp [h]

@[simp] theorem get_del_self (db : Memdb K V) (k : K) : (db.del k).1.get k = none :=
  show Function.update db.hashmap k none k = none from Function.update_self _ _ _

@[simp] theorem get_del_ne (db : Memdb K V) {k k' : K} (h : k' ≠ k) :
    (db.del k).1.get k' = db.get k' :=
  show Function.update db.hashmap k none k' = db.hashmap k' from Function.update_of_ne h _ _

@[simp] theorem del_snd (db : Memdb K V) (k : K) : (db.del k).2 = db.get k := rfl

/-- Deleting a key the store does not hold changes nothing. -/
theorem del_fst_of_get_none {db : Memdb K V} {k : K} (h : db.get k = none) : (db.del k).1 = db := by
  cases db with
  | mk m =>
      show Memdb.mk (Function.update m k none) = Memdb.mk m
      rw [Memdb.mk.injEq]
      exact Function.update_eq_self_iff.mpr h.symm

/-- A property of every stored value survives writing a value that has it. -/
theorem forall_get_set {P : V → Prop} {db : Memdb K V} {k : K} {v : V}
    (h : ∀ k' v', db.get k' = some v' → P v') (hv : P v) :
    ∀ k' v', (db.set k v).get k' = some v' → P v' := by
  intro k' v' hk
  rw [get_set] at hk
  split_ifs at hk
  · cases hk
    exact hv
  · exact h k' v' hk

/-- A property of every stored value survives a delete. -/
theorem forall_get_del {P : V → Prop} {db : Memdb K V} (k : K)
    (h : ∀ k' v', db.get k' = some v' → P v') :
    ∀ k' v', (db.del k).1.get k' = some v' → P v' := by
  intro k' v' hk
  by_cases hkk : k' = k
  · subst hkk
    simp at hk
  · rw [get_del_ne _ hkk] at hk
    exact h k' v' hk

/-- Writing back the value a key already holds changes nothing. -/
theorem set_get_self (db : Memdb K V) (k : K) (v : V) (h : db.get k = some v) :
    db.set k v = db := by
  cases db with
  | mk m =>
      show Memdb.mk (Function.update m k (some v)) = Memdb.mk m
      rw [Memdb.mk.injEq]
      funext k'
      by_cases hk : k' = k
      · subst hk
        rw [Function.update_self]
        exact h.symm
      · rw [Function.update_of_ne hk]

end Memdb

end Teaclave.Core
