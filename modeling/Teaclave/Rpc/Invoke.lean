/-
  Teaclave.Rpc.Invoke
  ───────────────────
  **ONE RPC CONNECTION, RESPONSE AFTER REQUEST.**

  `mesatee_core/src/rpc/mod.rs`: the client's `invoke` serialises its
  request, sends it as one frame (`Rpc.SendRecv`) and reads one frame
  back, the serialised `Result<V>`.  The server's `serve` loops: it reads
  a frame, deserialises the request, calls the service's `handle_invoke`
  and sends the serialised result, until one of these steps fails.

  The connection is two byte streams, one each way.  Each side blocks on
  its read until the other has written, so one `invoke` is one round: the
  client sends, the server's loop makes one pass, the client reads.
  `serde_json` at one type is a `Codec`, two partial maps with the law
  that what is encoded decodes back.

    • `rpc_round_in_turn`: one `invoke` on an idle connection returns the
      service's answer and leaves both streams empty.
    • `rpc_run_in_turn`: a run of `invoke`s returns what the service
      answers to the requests in turn (`handle_all`), its state carried
      from one to the next.
    • `rpc_run_oversized`: a response over `rpc_max_message_size` ends
      the server's loop; that `invoke` fails with an I/O error, and so
      does every later one.
-/
import Teaclave.Rpc.SendRecv

namespace Teaclave.Rpc

open Teaclave.Core

/-! ## §1. Serialisation and the connection. -/

/-- `serde_json::to_vec` and `serde_json::from_slice` at one type: both may
    fail, and what is encoded decodes back. -/
structure Codec (α : Type) where
  to_vec : α → Option (List UInt8)
  from_slice : List UInt8 → Option α
  from_to : ∀ a bs, to_vec a = some bs → from_slice bs = some a

/-- A value `send_vec` takes: it serialises, within the bound. -/
def Sendable {α : Type} (c : Codec α) (a : α) : Prop :=
  ∃ bs, c.to_vec a = some bs ∧ bs.length ≤ rpc_max_message_size

/-- The connection: the bytes on their way to the server and to the client,
    not yet read. -/
structure Conn where
  to_server : List UInt8
  to_client : List UInt8
  deriving DecidableEq, Repr

/-- A connection with nothing in flight. -/
def Conn.idle : Conn := ⟨[], []⟩

/-! ## §2. `invoke` and one pass of `serve`. -/

section Invoke

variable {U V σ : Type} (client_policy server_policy : Nat → Nat → Nat)
  (cu : Codec U) (cv : Codec (Result V)) (handle_invoke : σ → U → σ × Result V)

/-- The first half of `invoke`: serialise the request and send it. -/
def client_send (input : U) (c : Conn) : Result Conn :=
  match cu.to_vec input with
  | none => .error .ParseError
  | some request_payload =>
      match send_vec request_payload with
      | .error e => .error e
      | .ok frame => .ok { c with to_server := c.to_server ++ frame }

/-- The second half of `invoke`: read the response frame and deserialise the
    service's `Result<V>` from it. -/
def client_receive (c : Conn) : Result V × Conn :=
  let recv := receive_vec client_policy c.to_client
  let c' := { c with to_client := recv.2 }
  match recv.1 with
  | .error e => (.error e, c')
  | .ok result_buf =>
      match cv.from_slice result_buf with
      | none => (.error .ParseError, c')
      | some resp => (resp, c')

/-- The `response` of `serve`: the serialised result, or that of
    `InternalRPCError` when the result does not serialise; `none` is the
    panic of `expect("infallable")`. -/
def server_response (result : Result V) : Option (List UInt8) :=
  match cv.to_vec result with
  | some resp => some resp
  | none => cv.to_vec (.error .InternalRPCError)

/-- One pass of `serve`'s loop on the service's state: the state after it,
    or the error that ends the loop, and the connection; `none` is a panic.
    The service's errors are already their kind (`into_simple_error`). -/
def serve_round (x : σ) (c : Conn) : Option (Result σ × Conn) :=
  let recv := receive_vec server_policy c.to_server
  let c₁ := { c with to_server := recv.2 }
  match recv.1 with
  | .error e => some (.error e, c₁)
  | .ok recv_buf =>
      match cu.from_slice recv_buf with
      | none => some (.error .ParseError, c₁)
      | some request =>
          let handled := handle_invoke x request
          match server_response cv handled.2 with
          | none => none
          | some response =>
              match send_vec response with
              | .error e => some (.error e, c₁)
              | .ok frame => some (.ok handled.1, { c₁ with to_client := c₁.to_client ++ frame })

/-- One `invoke`, with the server's loop running on the service's state
    (`some x`) or ended (`none`): the client sends, the loop makes one pass
    if it runs, and the client reads.  `none` is a panic of the server. -/
def rpc_round (srv : Option σ) (c : Conn) (input : U) : Option (Result V × Option σ × Conn) :=
  match client_send cu input c with
  -- nothing was written, and the server still waits for a frame
  | .error e => some (.error e, srv, c)
  | .ok c₁ =>
      let served : Option (Option σ × Conn) :=
        match srv with
        | none => some (none, c₁)
        | some x =>
            (serve_round server_policy cu cv handle_invoke x c₁).map fun p => (p.1.toOption, p.2)
      served.map fun p =>
        let r := client_receive client_policy cv p.2
        (r.1, p.1, r.2)

/-- `invoke` after `invoke` on one connection: the answers, the server's
    loop and the connection at the end. -/
def rpc_run : Option σ → Conn → List U → Option (List (Result V) × Option σ × Conn)
  | srv, c, [] => some ([], srv, c)
  | srv, c, input :: inputs =>
      (rpc_round client_policy server_policy cu cv handle_invoke srv c input).bind fun r =>
        (rpc_run r.2.1 r.2.2 inputs).map fun rest => (r.1 :: rest.1, rest.2)

/-- What the service answers to the requests in turn, from state `x`: its
    state after them all, and its answers. -/
def handle_all : σ → List U → σ × List (Result V)
  | x, [] => (x, [])
  | x, u :: us =>
      let rest := handle_all (handle_invoke x u).1 us
      (rest.1, (handle_invoke x u).2 :: rest.2)

end Invoke

/-! ## §3. Each half of a round. -/

section Halves

variable {U V σ : Type} {client_policy server_policy : Nat → Nat → Nat}
  {cu : Codec U} {cv : Codec (Result V)} {handle_invoke : σ → U → σ × Result V}

theorem client_send_ok {u : U} {bs : List UInt8} (hu : cu.to_vec u = some bs)
    (hb : bs.length ≤ rpc_max_message_size) (c : Conn) :
    client_send cu u c = .ok { c with to_server := c.to_server ++ get_send_vec bs } := by
  simp only [client_send, hu, send_vec_of_le hb]

/-- On an idle connection the request's frame is all the server has to read. -/
theorem client_send_idle {u : U} {bs : List UInt8} (hu : cu.to_vec u = some bs)
    (hb : bs.length ≤ rpc_max_message_size) :
    client_send cu u Conn.idle = .ok ⟨get_send_vec bs, []⟩ :=
  client_send_ok hu hb Conn.idle

/-- The server reads a request frame, and answers it with a frame. -/
theorem serve_round_answers (hp : ReadsSome server_policy) {x : σ} {u : U} {bs rs : List UInt8}
    (hu : cu.to_vec u = some bs) (hb : bs.length ≤ rpc_max_message_size)
    (hr : cv.to_vec (handle_invoke x u).2 = some rs) (hrs : rs.length ≤ rpc_max_message_size) :
    serve_round server_policy cu cv handle_invoke x ⟨get_send_vec bs, []⟩ =
      some (.ok (handle_invoke x u).1, ⟨[], get_send_vec rs⟩) := by
  simp only [serve_round, receive_vec_frame_only hp hb, cu.from_to u bs hu, server_response, hr,
    send_vec_of_le hrs]
  rfl

/-- The server reads a request frame, and its answer is too long to send:
    the loop ends, and nothing is written back. -/
theorem serve_round_oversized (hp : ReadsSome server_policy) {x : σ} {u : U} {bs rs : List UInt8}
    (hu : cu.to_vec u = some bs) (hb : bs.length ≤ rpc_max_message_size)
    (hr : cv.to_vec (handle_invoke x u).2 = some rs) (hrs : rpc_max_message_size < rs.length) :
    serve_round server_policy cu cv handle_invoke x ⟨get_send_vec bs, []⟩ =
      some (.error .MsgSizeLimitExceedError, Conn.idle) := by
  simp only [serve_round, receive_vec_frame_only hp hb, cu.from_to u bs hu, server_response, hr,
    send_vec_of_lt hrs]
  rfl

/-- The client reads the answer's frame back. -/
theorem client_receive_frame (hp : ReadsSome client_policy) {r : Result V} {rs : List UInt8}
    (hr : cv.to_vec r = some rs) (hrs : rs.length ≤ rpc_max_message_size) :
    client_receive client_policy cv ⟨[], get_send_vec rs⟩ = (r, Conn.idle) := by
  simp only [client_receive, receive_vec_frame_only hp hrs, cv.from_to r rs hr]
  rfl

/-- With nothing to read, the client's read fails with the `io::Error` of the
    stream's end. -/
theorem client_receive_nil (c : Conn) (hc : c.to_client = []) :
    client_receive client_policy cv c = (.error .IoError, c) := by
  cases c
  simp only at hc
  subst hc
  simp only [client_receive, receive_vec_nil]

end Halves

/-! ## §4. Rounds and runs. -/

section Rounds

variable {U V σ : Type} {client_policy server_policy : Nat → Nat → Nat}
  {cu : Codec U} {cv : Codec (Result V)} {handle_invoke : σ → U → σ × Result V}

@[simp] theorem rpc_run_nil (srv : Option σ) (c : Conn) :
    rpc_run client_policy server_policy cu cv handle_invoke srv c [] = some ([], srv, c) := rfl

theorem rpc_run_cons (srv : Option σ) (c : Conn) (u : U) (us : List U) :
    rpc_run client_policy server_policy cu cv handle_invoke srv c (u :: us) =
      (rpc_round client_policy server_policy cu cv handle_invoke srv c u).bind fun r =>
        (rpc_run client_policy server_policy cu cv handle_invoke r.2.1 r.2.2 us).map
          fun rest => (r.1 :: rest.1, rest.2) := rfl

@[simp] theorem handle_all_nil (x : σ) : handle_all handle_invoke x [] = (x, []) := rfl

@[simp] theorem handle_all_cons (x : σ) (u : U) (us : List U) :
    handle_all handle_invoke x (u :: us) =
      ((handle_all handle_invoke (handle_invoke x u).1 us).1,
        (handle_invoke x u).2 :: (handle_all handle_invoke (handle_invoke x u).1 us).2) := rfl

/-- **One round in turn**: on an idle connection, a request and its answer
    that both fit make one round that returns the service's answer, moves
    the service on, and leaves the connection idle. -/
theorem rpc_round_in_turn (hc : ReadsSome client_policy) (hs : ReadsSome server_policy)
    {x : σ} {u : U} (hu : Sendable cu u) (hv : Sendable cv (handle_invoke x u).2) :
    rpc_round client_policy server_policy cu cv handle_invoke (some x) Conn.idle u =
      some ((handle_invoke x u).2, some (handle_invoke x u).1, Conn.idle) := by
  obtain ⟨bs, hbs, hb⟩ := hu
  obtain ⟨rs, hrs, hr⟩ := hv
  simp only [rpc_round, client_send_idle hbs hb]
  rw [serve_round_answers hs hbs hb hrs hr]
  simp only [Option.map_some, Except.toOption]
  rw [client_receive_frame hc hrs hr]

/-- **A run in turn**: from an idle connection, requests that all fit, with
    answers that all fit, get the service's answers in turn, and the service
    ends in the state its last answer left. -/
theorem rpc_run_in_turn (hc : ReadsSome client_policy) (hs : ReadsSome server_policy)
    (inputs : List U) (hu : ∀ u ∈ inputs, Sendable cu u)
    (hv : ∀ x, ∀ u ∈ inputs, Sendable cv (handle_invoke x u).2) (x : σ) :
    rpc_run client_policy server_policy cu cv handle_invoke (some x) Conn.idle inputs =
      some ((handle_all handle_invoke x inputs).2, some (handle_all handle_invoke x inputs).1,
        Conn.idle) := by
  -- induction on the requests; the round leaves the connection idle again
  induction inputs generalizing x with
  | nil => rfl
  | cons u us ih =>
      have hround := rpc_round_in_turn hc hs (hu u (by simp)) (hv x u (by simp))
      have hrest := ih (fun u' hu' => hu u' (by simp [hu']))
        (fun x' u' hu' => hv x' u' (by simp [hu'])) (handle_invoke x u).1
      rw [rpc_run_cons, hround, Option.bind_some, hrest]
      rfl

/-- `()` as JSON, `null`. -/
def unit_codec : Codec Unit where
  to_vec _ := some [110, 117, 108, 108]
  from_slice bs := if bs = [110, 117, 108, 108] then some () else none
  from_to _ _ h := by
    simp only [Option.some.injEq] at h
    subst h
    rfl

/-- A service's `Ok(())` as `n` bytes; its errors do not serialise. -/
def ok_unit_codec (n : Nat) : Codec (Result Unit) where
  to_vec
    | .ok () => some (List.replicate n 0)
    | .error _ => none
  from_slice _ := some (.ok ())
  from_to
    | .ok (), _, _ => rfl
    | .error _, _, h => by cases h

/-- A service that counts its requests. -/
def count_invoke (x : Nat) (_ : Unit) : Nat × Result Unit := (x + 1, .ok ())

/-- Two requests to the counter, read one byte a `read`, are both answered,
    and the counter ends at two. -/
theorem rpc_run_in_turn_counter :
    rpc_run read_one read_one unit_codec (ok_unit_codec 1) count_invoke (some 0) Conn.idle
      [(), ()] = some ([.ok (), .ok ()], some 2, Conn.idle) :=
  (rpc_run_in_turn read_one_reads_some read_one_reads_some [(), ()]
    (fun _ _ => ⟨_, rfl, by decide⟩) (fun _ _ _ => ⟨_, rfl, by decide⟩) 0).trans rfl

/-- Once the server's loop has ended, a round fails and leaves the client's
    stream empty. -/
theorem rpc_round_ended (c : Conn) (hc : c.to_client = []) (u : U) :
    ∃ e c', rpc_round client_policy server_policy cu cv handle_invoke none c u =
      some (.error e, none, c') ∧ c'.to_client = [] := by
  unfold rpc_round
  cases hsend : client_send cu u c with
  | error e => exact ⟨e, c, rfl, hc⟩
  | ok c₁ =>
      -- a sent request leaves the client's stream as it was
      have hc₁ : c₁.to_client = [] := by
        unfold client_send at hsend
        split at hsend
        · cases hsend
        · split at hsend
          · cases hsend
          · cases hsend
            exact hc
      refine ⟨.IoError, c₁, ?_, hc₁⟩
      simp only [Option.map_some, client_receive_nil c₁ hc₁]

/-- Once the server's loop has ended, every later round fails. -/
theorem rpc_run_ended (inputs : List U) (c : Conn) (hc : c.to_client = []) :
    ∃ answers c', rpc_run client_policy server_policy cu cv handle_invoke none c inputs =
      some (answers, none, c') ∧ answers.Forall (fun r => r.toOption = none) := by
  -- induction on the requests; the client's stream stays empty
  induction inputs generalizing c with
  | nil => exact ⟨[], c, rfl, trivial⟩
  | cons u us ih =>
      obtain ⟨e, c₁, hround, hc₁⟩ := rpc_round_ended c hc u
      obtain ⟨answers, c', hrest, hfail⟩ := ih c₁ hc₁
      refine ⟨.error e :: answers, c', ?_, ?_⟩
      · rw [rpc_run_cons, hround, Option.bind_some, hrest]
        rfl
      · exact (List.forall_cons _ _ _).mpr ⟨rfl, hfail⟩

/-- A request whose answer is too long to send: the round fails with the
    `io::Error` of the client's empty stream, and the server's loop ends. -/
theorem rpc_round_oversized (hs : ReadsSome server_policy) {x : σ} {u : U} {rs : List UInt8}
    (hu : Sendable cu u) (hr : cv.to_vec (handle_invoke x u).2 = some rs)
    (hrs : rpc_max_message_size < rs.length) :
    rpc_round client_policy server_policy cu cv handle_invoke (some x) Conn.idle u =
      some (.error .IoError, none, Conn.idle) := by
  obtain ⟨bs, hbs, hb⟩ := hu
  simp only [rpc_round, client_send_idle hbs hb]
  rw [serve_round_oversized hs hbs hb hr hrs]
  simp only [Option.map_some, Except.toOption, client_receive_nil Conn.idle rfl]

/-- **An answer too long to send ends the connection**: the server's
    `send_vec` refuses it and `serve` returns, so that `invoke` fails with
    the `io::Error` of a closed stream instead of the size error, and every
    later `invoke` on the connection fails too. -/
theorem rpc_run_oversized (hs : ReadsSome server_policy) {x : σ} {u : U} {rs : List UInt8}
    (hu : Sendable cu u) (hr : cv.to_vec (handle_invoke x u).2 = some rs)
    (hrs : rpc_max_message_size < rs.length) (us : List U) :
    ∃ answers c', rpc_run client_policy server_policy cu cv handle_invoke (some x) Conn.idle
        (u :: us) = some (.error .IoError :: answers, none, c') ∧
      answers.Forall (fun r => r.toOption = none) := by
  obtain ⟨answers, c', hrest, hfail⟩ := rpc_run_ended us Conn.idle rfl
  refine ⟨answers, c', ?_, hfail⟩
  rw [rpc_run_cons, rpc_round_oversized hs hu hr hrs, Option.bind_some, hrest]
  rfl

/-- An answer of 409601 bytes to the counter's first request ends the
    connection. -/
theorem rpc_run_oversized_counter :
    ∃ answers c', rpc_run read_one read_one unit_codec (ok_unit_codec 409601) count_invoke
        (some 0) Conn.idle [(), ()] = some (.error .IoError :: answers, none, c') ∧
      answers.Forall (fun r => r.toOption = none) :=
  rpc_run_oversized read_one_reads_some ⟨_, rfl, by decide⟩
    (show (ok_unit_codec 409601).to_vec (.ok ()) = some (List.replicate 409601 0) from rfl)
    (by rw [List.length_replicate]; decide) [()]

end Rounds

end Teaclave.Rpc
