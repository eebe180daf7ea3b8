/-
  Teaclave.Rpc.SendRecv
  ─────────────────────
  **RPC MESSAGE FRAMING OVER A BYTE STREAM.**

  `mesatee_core/src/rpc/sendrecv.rs`: `send_vec` writes a frame, the
  payload's length as eight big-endian bytes and then the payload, and
  refuses a payload over `rpc_max_message_size`; `receive_vec` wraps the
  stream in a fresh `BufReader`, reads the header and the payload with
  `read_exact`, and refuses a header over the same bound.

  The stream is the list of bytes not yet read.  What the stream's `read`
  returns is a parameter, `policy want avail`: how many of the `avail`
  bytes left it hands out when asked for `want` (clamped to both).  A
  `BufReader` fills its 8 KiB buffer with one such `read`, so it may hold
  bytes of the next frame when `receive_vec` returns; the reader and its
  buffer are then dropped.

    • `receive_vec_frame`: one frame is read back whatever the stream does,
      if every `read` returns at least one byte.
    • `receive_vec_drops_next_frame`: a stream that hands out all it has
      loses the second of two frames.
-/
import Teaclave.Core.Basic

namespace Teaclave.Rpc

open Teaclave.Core

/-! ## §1. Big-endian lengths. -/

/-- The `k` bytes of `n`, most significant first (`u64::to_be` and `transmute`). -/
def be_bytes : Nat → Nat → List UInt8
  | 0, _ => []
  | k + 1, n => be_bytes k (n / 256) ++ [(n % 256).toUInt8]

theorem be_bytes_zero (n : Nat) : be_bytes 0 n = [] := rfl

theorem be_bytes_succ (k n : Nat) : be_bytes (k + 1) n = be_bytes k (n / 256) ++ [(n % 256).toUInt8] :=
  rfl

/-- The value of big-endian bytes (`transmute` and `u64::from_be`). -/
def be_value (bs : List UInt8) : Nat := bs.foldl (fun acc b => acc * 256 + b.toNat) 0

@[simp] theorem length_be_bytes (k n : Nat) : (be_bytes k n).length = k := by
  induction k generalizing n with
  | zero => rfl
  | succ k ih => simp [be_bytes_succ, ih]

/-- **The header reads back** the length, modulo `256 ^ k`. -/
theorem be_value_be_bytes (k n : Nat) : be_value (be_bytes k n) = n % 256 ^ k := by
  induction k generalizing n with
  | zero => simp [be_bytes_zero, be_value, Nat.mod_one]
  | succ k ih =>
      have hb : ((n % 256).toUInt8).toNat = n % 256 := by simp
      simp only [be_bytes_succ, be_value, List.foldl_append, List.foldl_cons, List.foldl_nil] at ih ⊢
      rw [ih, hb, Nat.pow_succ, Nat.mul_comm (256 ^ k) 256, Nat.mod_mul]
      rw [Nat.mul_comm, Nat.add_comm]

/-! ## §2. Sending. -/

/-- `BUILD_CONFIG.rpc_max_message_size` (`build.config.toml`). -/
def rpc_max_message_size : Nat := 409600

/-- A length within the bound fits the eight header bytes. -/
theorem be_value_header {m : List UInt8} (hm : m.length ≤ rpc_max_message_size) :
    be_value (be_bytes 8 m.length) = m.length := by
  rw [be_value_be_bytes]
  exact Nat.mod_eq_of_lt (by unfold rpc_max_message_size at hm; omega)

/-- `get_send_vec`: the header, then the payload. -/
def get_send_vec (to_send : List UInt8) : List UInt8 := be_bytes 8 to_send.length ++ to_send

/-- `send_vec`: the bytes `write_all` appends to the stream. -/
def send_vec (buff : List UInt8) : Result (List UInt8) :=
  if buff.length > rpc_max_message_size then .error .MsgSizeLimitExceedError
  else .ok (get_send_vec buff)

theorem send_vec_of_le {buff : List UInt8} (h : buff.length ≤ rpc_max_message_size) :
    send_vec buff = .ok (get_send_vec buff) := if_neg (by omega)

theorem send_vec_of_lt {buff : List UInt8} (h : rpc_max_message_size < buff.length) :
    send_vec buff = .error .MsgSizeLimitExceedError := if_pos h

/-! ## §3. Receiving through a `BufReader`. -/

/-- `DEFAULT_BUF_SIZE`, the capacity of `BufReader::new`. -/
def capacity : Nat := 8 * 1024

/-- A `BufReader`: the buffered bytes not yet consumed, and the stream's. -/
structure BufReader where
  buf : List UInt8
  inner : List UInt8
  deriving DecidableEq, Repr

section Read

variable (policy : Nat → Nat → Nat)

/-- The stream's `read` of up to `want` bytes. -/
def inner_read (inner : List UInt8) (want : Nat) : List UInt8 × List UInt8 :=
  let n := min (policy want inner.length) (min want inner.length)
  (inner.take n, inner.drop n)

theorem inner_read_eq (inner : List UInt8) (want : Nat) :
    inner_read policy inner want =
      (inner.take (min (policy want inner.length) (min want inner.length)),
        inner.drop (min (policy want inner.length) (min want inner.length))) := rfl

/-- `BufReader::fill_buf`: an empty buffer is refilled with one read of the
    stream. -/
def BufReader.fill_buf (r : BufReader) : BufReader :=
  if r.buf = [] then
    let got := inner_read policy r.inner capacity
    ⟨got.1, got.2⟩
  else r

theorem BufReader.fill_buf_eq (r : BufReader) :
    r.fill_buf policy =
      if r.buf = [] then ⟨(inner_read policy r.inner capacity).1, (inner_read policy r.inner capacity).2⟩
      else r := rfl

/-- `BufReader::read`: a read of at least a buffer's worth into an empty
    buffer bypasses it; otherwise what fits is copied out of the buffer
    (`fill_buf`, then `consume`). -/
def BufReader.read (r : BufReader) (len : Nat) : List UInt8 × BufReader :=
  if r.buf = [] ∧ capacity ≤ len then
    let got := inner_read policy r.inner len
    (got.1, ⟨[], got.2⟩)
  else
    let r := r.fill_buf policy
    (r.buf.take len, ⟨r.buf.drop len, r.inner⟩)

theorem BufReader.read_eq (r : BufReader) (len : Nat) :
    r.read policy len =
      if r.buf = [] ∧ capacity ≤ len then
        ((inner_read policy r.inner len).1, ⟨[], (inner_read policy r.inner len).2⟩)
      else
        ((r.fill_buf policy).buf.take len,
          ⟨(r.fill_buf policy).buf.drop len, (r.fill_buf policy).inner⟩) := rfl

/-- `read_exact` (`default_read_exact`): `read` until `len` bytes have come,
    `UnexpectedEof` when a `read` returns none; the reader as the reads
    left it either way.  Each round takes at least one byte, so `len`
    rounds are enough. -/
def BufReader.read_exact : Nat → BufReader → Nat → Result (List UInt8) × BufReader
  | _, r, 0 => (.ok [], r)
  | 0, r, _ + 1 => (.error .IoError, r)
  | fuel + 1, r, len + 1 =>
      let got := r.read policy (len + 1)
      if got.1 = [] then (.error .IoError, got.2)
      else
        let rest := BufReader.read_exact fuel got.2 (len + 1 - got.1.length)
        (rest.1.map (got.1 ++ ·), rest.2)

theorem BufReader.read_exact_zero (fuel : Nat) (r : BufReader) :
    r.read_exact policy fuel 0 = (.ok [], r) := by
  cases fuel <;> rfl

theorem BufReader.read_exact_no_fuel (r : BufReader) (len : Nat) :
    r.read_exact policy 0 (len + 1) = (.error .IoError, r) := rfl

theorem BufReader.read_exact_succ (fuel : Nat) (r : BufReader) (len : Nat) :
    r.read_exact policy (fuel + 1) (len + 1) =
      if (r.read policy (len + 1)).1 = [] then (.error .IoError, (r.read policy (len + 1)).2)
      else
        (((r.read policy (len + 1)).2.read_exact policy fuel
            (len + 1 - (r.read policy (len + 1)).1.length)).1.map ((r.read policy (len + 1)).1 ++ ·),
          ((r.read policy (len + 1)).2.read_exact policy fuel
            (len + 1 - (r.read policy (len + 1)).1.length)).2) := rfl

/-- `receive_vec`: the payload or the error, and the stream after the call
    (the `BufReader` is dropped with whatever it still buffers). -/
def receive_vec (sock : List UInt8) : Result (List UInt8) × List UInt8 :=
  let header := BufReader.read_exact policy 8 ⟨[], sock⟩ 8
  match header.1 with
  | .error e => (.error e, header.2.inner)
  | .ok lbuf =>
      let buf_len := be_value lbuf
      if buf_len > rpc_max_message_size then (.error .MsgSizeLimitExceedError, header.2.inner)
      else
        let payload := BufReader.read_exact policy buf_len header.2 buf_len
        (payload.1, payload.2.inner)

end Read

/-! ## §4. What the reads return. -/

/-- A stream whose `read` hands out at least one byte while it has any. -/
def ReadsSome (policy : Nat → Nat → Nat) : Prop :=
  ∀ want avail, 0 < want → 0 < avail → 0 < policy want avail

/-- The bytes a reader has yet to give: its buffer, then the stream. -/
def BufReader.pending (r : BufReader) : List UInt8 := r.buf ++ r.inner

theorem BufReader.pending_eq (r : BufReader) : r.pending = r.buf ++ r.inner := rfl

theorem pending_of_buf_nil {r : BufReader} (h : r.buf = []) : r.pending = r.inner := by
  simp [BufReader.pending_eq, h]

section Reads

variable {policy : Nat → Nat → Nat}

theorem inner_read_spec (inner : List UInt8) (want : Nat) :
    (inner_read policy inner want).1 ++ (inner_read policy inner want).2 = inner ∧
      (inner_read policy inner want).1.length ≤ want := by
  simp only [inner_read_eq, List.take_append_drop, List.length_take, true_and]
  omega

theorem inner_read_ne_nil (hp : ReadsSome policy) {inner : List UInt8} {want : Nat}
    (hw : 0 < want) (hi : inner ≠ []) : (inner_read policy inner want).1 ≠ [] := by
  have hpos := hp want inner.length hw (List.length_pos_of_ne_nil hi)
  have hlen := List.length_pos_of_ne_nil hi
  simp only [inner_read_eq, ne_eq, List.take_eq_nil_iff, not_or]
  constructor
  · omega
  · exact hi

@[simp] theorem fill_buf_pending (r : BufReader) :
    (r.fill_buf policy).pending = r.pending := by
  rw [BufReader.fill_buf_eq]
  split_ifs with h
  · simp [BufReader.pending_eq, h, (inner_read_spec r.inner capacity).1]
  · rfl

theorem fill_buf_ne_nil (hp : ReadsSome policy) {r : BufReader} (hr : r.pending ≠ []) :
    (r.fill_buf policy).buf ≠ [] := by
  rw [BufReader.fill_buf_eq]
  split_ifs with h
  · have hi : r.inner ≠ [] := by simpa [BufReader.pending_eq, h] using hr
    exact inner_read_ne_nil hp (by decide) hi
  · exact h

/-- **One `read` hands out a prefix** of what the reader has yet to give:
    at least one byte, at most `len`. -/
theorem read_spec (hp : ReadsSome policy) (r : BufReader) {len : Nat} (hlen : 0 < len)
    (hr : r.pending ≠ []) :
    (r.read policy len).1 ≠ [] ∧ (r.read policy len).1.length ≤ len ∧
      (r.read policy len).1 ++ (r.read policy len).2.pending = r.pending := by
  rw [BufReader.read_eq]
  split_ifs with hbypass
  · -- the bypass: straight from the stream
    have hi : r.inner ≠ [] := by simpa [BufReader.pending_eq, hbypass.1] using hr
    have ⟨happ, hle⟩ := @inner_read_spec policy r.inner len
    simp only [BufReader.pending_eq, List.nil_append, hbypass.1]
    exact ⟨inner_read_ne_nil hp hlen hi, hle, happ⟩
  · -- drawn from the (refilled) buffer
    have hne := fill_buf_ne_nil hp hr
    have hpend := @fill_buf_pending policy r
    simp only [BufReader.pending_eq] at hpend ⊢
    refine ⟨?_, by simp, ?_⟩
    · simp only [ne_eq, List.take_eq_nil_iff, not_or]
      exact ⟨by omega, hne⟩
    · rw [← List.append_assoc, List.take_append_drop, hpend]

/-- **`read_exact` returns the first `len` bytes** of what the reader has
    yet to give, when it has that many. -/
theorem read_exact_spec (hp : ReadsSome policy) :
    ∀ (fuel : Nat) (r : BufReader) (len : Nat), len ≤ fuel → len ≤ r.pending.length →
      (r.read_exact policy fuel len).1 = .ok (r.pending.take len) ∧
        (r.read_exact policy fuel len).2.pending = r.pending.drop len
  | _, r, 0, _, _ => by simp [BufReader.read_exact_zero]
  | 0, r, len + 1, hf, _ => by omega
  | fuel + 1, r, len + 1, hf, hr => by
      have hne : r.pending ≠ [] := by
        intro h
        rw [h] at hr
        simp at hr
      obtain ⟨hgot, hle, happ⟩ := read_spec hp r (by omega : 0 < len + 1) hne
      -- the rest comes from the reader the read left
      have hrest : len + 1 - (r.read policy (len + 1)).1.length ≤
          (r.read policy (len + 1)).2.pending.length := by
        have := congrArg List.length happ
        simp only [List.length_append] at this
        omega
      obtain ⟨ih1, ih2⟩ := read_exact_spec hp fuel (r.read policy (len + 1)).2 _
        (by have := List.length_pos_of_ne_nil hgot; omega) hrest
      simp only [BufReader.read_exact_succ, hgot, if_false, ih1, ih2, Except.map]
      -- both sides split the reader's bytes at `len + 1`
      rw [← happ, List.take_append, List.drop_append, List.take_of_length_le hle,
        List.drop_eq_nil_of_le hle, List.nil_append]
      exact ⟨rfl, rfl⟩

/-- `read_exact` fails only with the `io::Error` of a short stream. -/
theorem read_exact_error :
    ∀ (fuel : Nat) (r : BufReader) (len : Nat) {e : ErrorKind},
      (r.read_exact policy fuel len).1 = .error e → e = .IoError
  | _, r, 0, e, h => by simp [BufReader.read_exact_zero] at h
  | 0, r, len + 1, e, h => by
      simp only [BufReader.read_exact_no_fuel, Except.error.injEq] at h
      exact h.symm
  | fuel + 1, r, len + 1, e, h => by
      simp only [BufReader.read_exact_succ] at h
      split_ifs at h
      · simp only [Except.error.injEq] at h
        exact h.symm
      · -- the error of a later round is passed on
        generalize hrest : (BufReader.read_exact policy fuel _ _).1 = rest at h
        cases rest with
        | error e' =>
            simp only [Except.map, Except.error.injEq] at h
            exact h ▸ read_exact_error fuel _ _ hrest
        | ok bs => simp [Except.map] at h

/-- An empty stream fails `receive_vec` with the `io::Error` of its end. -/
theorem receive_vec_nil : receive_vec policy [] = (.error .IoError, []) := by
  simp [receive_vec, BufReader.read_exact_succ, BufReader.read_eq, BufReader.fill_buf_eq, inner_read_eq]

/-- **`receive_vec` after a whole header**: the header's value is checked
    against the bound, and the payload is read from the reader the header
    left, which has exactly the rest of the stream to give. -/
theorem receive_vec_header (hp : ReadsSome policy) {hdr : List UInt8} (hh : hdr.length = 8)
    (rest : List UInt8) :
    let r := (BufReader.read_exact policy 8 ⟨[], hdr ++ rest⟩ 8).2
    r.pending = rest ∧
      receive_vec policy (hdr ++ rest) =
        if be_value hdr > rpc_max_message_size then (.error .MsgSizeLimitExceedError, r.inner)
        else ((r.read_exact policy (be_value hdr) (be_value hdr)).1,
          (r.read_exact policy (be_value hdr) (be_value hdr)).2.inner) := by
  have hlen : 8 ≤ (BufReader.mk [] (hdr ++ rest)).pending.length := by
    simp [BufReader.pending_eq, hh]
  obtain ⟨h1, h2⟩ := read_exact_spec hp 8 ⟨[], hdr ++ rest⟩ 8 le_rfl hlen
  have htake : (BufReader.mk [] (hdr ++ rest)).pending.take 8 = hdr := by
    simp [BufReader.pending_eq, ← hh]
  have hdrop : (BufReader.mk [] (hdr ++ rest)).pending.drop 8 = rest := by
    simp [BufReader.pending_eq, ← hh]
  refine ⟨h2.trans hdrop, ?_⟩
  simp only [receive_vec, h1, htake]

/-- **A header over the bound is refused, and only such a header**, the
    bound `send_vec` keeps. -/
theorem receive_vec_size_limit (hp : ReadsSome policy) {hdr : List UInt8}
    (hh : hdr.length = 8) (rest : List UInt8) :
    (receive_vec policy (hdr ++ rest)).1 = .error .MsgSizeLimitExceedError ↔
      rpc_max_message_size < be_value hdr := by
  obtain ⟨-, hrecv⟩ := receive_vec_header hp hh rest
  rw [hrecv]
  split_ifs with hbig
  · exact ⟨fun _ => hbig, fun _ => rfl⟩
  · refine ⟨fun h => ?_, fun h => absurd h hbig⟩
    -- `read_exact` only fails with `IoError`
    have := read_exact_error _ _ _ h
    simp at this

/-- A header of `409601`, one over the bound, is refused, here by a reader
    that hands out one byte a `read`. -/
theorem receive_vec_size_limit_over :
    (receive_vec (fun _ _ => 1) (be_bytes 8 409601 ++ [])).1 = .error .MsgSizeLimitExceedError :=
  (receive_vec_size_limit (fun _ _ _ _ => Nat.one_pos) (by decide) []).mpr (by decide)

/-- On a frame `send_vec` wrote, `receive_vec` reads the payload from a
    reader that has the payload and then the rest of the stream to give. -/
theorem receive_vec_frame_reader (hp : ReadsSome policy) {m : List UInt8}
    (hm : m.length ≤ rpc_max_message_size) (rest : List UInt8) :
    ∃ r : BufReader, r.pending = m ++ rest ∧
      receive_vec policy (get_send_vec m ++ rest) =
        ((r.read_exact policy m.length m.length).1,
          (r.read_exact policy m.length m.length).2.inner) := by
  have ⟨hr, hrecv⟩ := receive_vec_header hp (length_be_bytes 8 m.length) (m ++ rest)
  rw [get_send_vec, List.append_assoc, hrecv, be_value_header hm, if_neg (by omega)]
  exact ⟨_, hr, rfl⟩

/-- **One frame is read back**: whatever the stream's reads return, as long
    as each hands out a byte while there are any, `receive_vec` on a frame
    that `send_vec` wrote returns its payload. -/
theorem receive_vec_frame (hp : ReadsSome policy) {m : List UInt8}
    (hm : m.length ≤ rpc_max_message_size) (rest : List UInt8) :
    (receive_vec policy (get_send_vec m ++ rest)).1 = .ok m := by
  obtain ⟨r, hr, hrecv⟩ := receive_vec_frame_reader hp hm rest
  have := (read_exact_spec hp m.length r m.length le_rfl (by simp [hr])).1
  rw [hrecv]
  simpa [hr] using this

/-- **What a frame's reading leaves of the stream**: a part of what
    followed the frame, the `BufReader` having dropped the rest with it. -/
theorem receive_vec_frame_rest (hp : ReadsSome policy) {m : List UInt8}
    (hm : m.length ≤ rpc_max_message_size) (rest : List UInt8) :
    (receive_vec policy (get_send_vec m ++ rest)).2 <:+ rest := by
  obtain ⟨r, hr, hrecv⟩ := receive_vec_frame_reader hp hm rest
  -- the payload's reading leaves exactly `rest` to give, the buffer first
  have hpend := (read_exact_spec hp m.length r m.length le_rfl (by simp [hr])).2
  rw [hr, List.drop_left] at hpend
  rw [hrecv]
  exact ⟨_, hpend⟩

/-- The frame of `[1, 2]` is read back one byte a `read`. -/
theorem receive_vec_frame_one_byte :
    (receive_vec (fun _ _ => 1) (get_send_vec [1, 2] ++ [])).1 = .ok [1, 2] :=
  receive_vec_frame (fun _ _ _ _ => Nat.one_pos) (by decide) []

/-- A frame alone on the stream is read back and leaves the stream empty. -/
theorem receive_vec_frame_only (hp : ReadsSome policy) {m : List UInt8}
    (hm : m.length ≤ rpc_max_message_size) :
    receive_vec policy (get_send_vec m) = (.ok m, []) := by
  have hpay := receive_vec_frame hp hm []
  have hrest := List.suffix_nil.mp (receive_vec_frame_rest hp hm [])
  rw [List.append_nil] at hpay hrest
  exact Prod.ext hpay hrest

end Reads

/-! ## §5. Successive calls on one stream. -/

section Successive

variable (policy : Nat → Nat → Nat)

/-- `k` successive `receive_vec` calls on one stream, as `serve`'s loop
    makes them: what each returns, in order. -/
def receive_vecs : Nat → List UInt8 → List (Result (List UInt8))
  | 0, _ => []
  | k + 1, sock =>
      let got := receive_vec policy sock
      got.1 :: receive_vecs k got.2

end Successive

/-- A stream that hands out all it has, up to what is asked. -/
def read_available (want avail : Nat) : Nat := min want avail

/-- **Frames are lost when the stream hands out all it has**: the first
    `receive_vec`'s reader buffers the second frame and is dropped with it,
    and the second call meets an empty stream. -/
theorem receive_vec_drops_next_frame :
    ReadsSome read_available ∧
      [[1], [2]].map send_vec = [.ok (get_send_vec [1]), .ok (get_send_vec [2])] ∧
      receive_vecs read_available 2 (get_send_vec [1] ++ get_send_vec [2]) =
        [.ok [1], .error .IoError] :=
  ⟨fun _ _ hw ha => lt_min hw ha, rfl, rfl⟩

/-! ### A stream that hands out one byte a `read`

Then the `BufReader` never holds a byte `read_exact` does not ask for,
and the frames all come back. -/

section ReadOne

/-- A stream that hands out one byte a `read`. -/
def read_one (_want _avail : Nat) : Nat := 1

theorem read_one_reads_some : ReadsSome read_one := fun _ _ _ _ => Nat.one_pos

/-- A one-byte `read` into an empty buffer leaves it empty. -/
theorem read_one_buf {r : BufReader} (hb : r.buf = []) {len : Nat} (hlen : 0 < len) :
    (r.read read_one len).2.buf = [] := by
  rw [BufReader.read_eq]
  split_ifs
  · rfl
  · simp only [BufReader.fill_buf_eq, hb, if_true, inner_read_eq, read_one, List.drop_eq_nil_iff,
      List.length_take]
    omega

theorem read_exact_one_buf :
    ∀ (fuel : Nat) (r : BufReader) (len : Nat), r.buf = [] →
      (r.read_exact read_one fuel len).2.buf = []
  | _, _, 0, hb => by simpa [BufReader.read_exact_zero] using hb
  | 0, _, _ + 1, hb => hb
  | fuel + 1, r, len + 1, hb => by
      simp only [BufReader.read_exact_succ]
      split_ifs
      · exact read_one_buf hb (Nat.succ_pos len)
      · exact read_exact_one_buf fuel _ _ (read_one_buf hb (Nat.succ_pos len))

/-- With one byte a `read`, `receive_vec` takes exactly one frame off the
    stream. -/
theorem receive_vec_one {m : List UInt8} (hm : m.length ≤ rpc_max_message_size)
    (rest : List UInt8) :
    receive_vec read_one (get_send_vec m ++ rest) = (.ok m, rest) := by
  have hb := read_exact_one_buf 8 ⟨[], get_send_vec m ++ rest⟩ 8 rfl
  have ⟨hr, hrecv⟩ :=
    receive_vec_header read_one_reads_some (length_be_bytes 8 m.length) (m ++ rest)
  rw [get_send_vec, List.append_assoc, hrecv, be_value_header hm, if_neg (by omega)]
  rw [get_send_vec, List.append_assoc] at hb
  generalize (BufReader.read_exact read_one 8 _ 8).2 = r at hr hb
  -- the payload's reader ends with an empty buffer, so its stream is the rest
  obtain ⟨h1, h2⟩ :=
    read_exact_spec read_one_reads_some m.length r m.length le_rfl (by simp [hr])
  have hb' := read_exact_one_buf m.length r m.length hb
  rw [← pending_of_buf_nil hb', h1, h2, hr]
  simp

/-- **With one byte a `read`, successive calls read back every frame**, in
    the order they were sent. -/
theorem receive_vecs_one :
    ∀ (ms : List (List UInt8)) (rest : List UInt8),
      (∀ m ∈ ms, m.length ≤ rpc_max_message_size) →
        receive_vecs read_one ms.length ((ms.map get_send_vec).flatten ++ rest) = ms.map .ok
  | [], _, _ => rfl
  | m :: ms, rest, h => by
      have hm := h m List.mem_cons_self
      have ih := receive_vecs_one ms rest (fun m' hm' => h m' (List.mem_cons_of_mem m hm'))
      simp only [List.length_cons, List.map_cons, List.flatten_cons, List.append_assoc,
        receive_vecs, receive_vec_one hm, ih]

/-- The frames of `[1]` and `[2]` are read back in turn. -/
theorem receive_vecs_one_two :
    receive_vecs read_one 2 (([[1], [2]].map get_send_vec).flatten ++ []) = [.ok [1], .ok [2]] :=
  receive_vecs_one [[1], [2]] [] (by decide)

end ReadOne

end Teaclave.Rpc
