import UsnetSockets.Net.Handshake

/-!
# Reading from a stream and writing to it

`read` and `write` of the singlethread API are loops around `recv` and `send` of smoltcp. These
hand the contiguous part of a ring buffer to a closure, which copies and counts; the counter is a
variable of the loop, and the loop ends when it is no longer zero. Otherwise `poll_wait` is called,
which waits for the network.

With a buffer that is not empty a call moves as much as the buffer and the contiguous part of the
ring buffer allow, and returns at once. With an empty buffer there is nothing to count: the call
waits, whatever there is to read or however much space there is.

The ring buffers belong to smoltcp. `Buffers` says what is in them, as far as the calls depend on
it.
-/

namespace UsnetSockets

/-- What is in the buffers of the sockets, with the documented behaviour of `recv`, `send` and a
poll of the interface. -/
structure Buffers (T : Smoltcp) where
  /-- The content of the receive buffer. -/
  rx : T.Tcp → List UInt8
  /-- The content of the transmit buffer. -/
  tx : T.Tcp → List UInt8
  /-- The contiguous received data that `recv` passes to its closure. -/
  received : T.Tcp → List UInt8
  /-- The contiguous free space that `send` passes to its closure, with what is left there. -/
  free : T.Tcp → List UInt8
  length_rx : ∀ t, (rx t).length = T.rxLen t
  received_prefix : ∀ t, received t <+: rx t
  rx_recv : ∀ t f, T.mayRecv t → f (received t) ≤ (received t).length →
    rx (T.recv t f) = (rx t).drop (f (received t))
  tx_recv : ∀ t f, tx (T.recv t f) = tx t
  tx_send : ∀ t f, T.maySend t → (f (free t).length).length ≤ (free t).length →
    tx (T.send t f) = tx t ++ f (free t).length
  rx_send : ∀ t f, rx (T.send t f) = rx t
  /-- New data is appended to what has been received, or the connection is forgotten. -/
  rx_process : ∀ e t, rx t <+: rx (T.process e t) ∨
    (rx (T.process e t) = [] ∧ T.state (T.process e t) = .closed)
  /-- What the peer has acknowledged is removed. -/
  tx_process : ∀ e t, tx (T.process e t) <:+ tx t
  /-- A closed socket receives nothing. -/
  closed_process : ∀ e t, T.state t = .closed → T.state (T.process e t) = .closed ∧
    (rx (T.process e t) = rx t ∨ rx (T.process e t) = [])

/-! ## Slices -/

/-- `xs[lo..hi]`, which panics when the bounds do not fit. -/
def slice (xs : List UInt8) (lo hi : ℕ) : Option (List UInt8) :=
  if lo ≤ hi ∧ hi ≤ xs.length then some ((xs.take hi).drop lo) else none

/-- `xs[lo..hi].copy_from_slice(src)`, which panics when the bounds do not fit or the lengths
differ. -/
def copyFromSlice (xs : List UInt8) (lo hi : ℕ) (src : List UInt8) : Option (List UInt8) :=
  if lo ≤ hi ∧ hi ≤ xs.length ∧ src.length = hi - lo then
    some (xs.take lo ++ src ++ xs.drop hi)
  else none

/-- The difference of two lengths, which panics when it is negative. -/
def checkedSub (m n : ℕ) : Option ℕ := if n ≤ m then some (m - n) else none

namespace Buffers

variable {T : Smoltcp} {σ : Type} (B : Buffers T)

/-- `recv` with a closure that has variables of its caller, and `none` for a panic of the closure.
It is an error when the receiving side of the connection is closed. -/
def recv (t : T.Tcp) (f : List UInt8 → σ → Option (ℕ × σ)) (v : σ) :
    Option (Except Unit Unit × T.Tcp × σ) :=
  if T.mayRecv t then (f (B.received t) v).map fun r ↦ (.ok (), T.recv t fun _ ↦ r.1, r.2)
  else some (.error (), t, v)

/-- `send` with a closure that has variables of its caller. The closure returns how much of the free
space it has filled, and the space. -/
def send (t : T.Tcp) (f : List UInt8 → σ → Option (ℕ × List UInt8 × σ)) (v : σ) :
    Option (Except Unit Unit × T.Tcp × σ) :=
  if T.maySend t then
    (f (B.free t) v).map fun r ↦ (.ok (), T.send t fun _ ↦ r.2.1.take r.1, r.2.2)
  else some (.error (), t, v)

end Buffers

/-! ## The calls -/

/-- The variables of `read` that its closure changes. -/
structure ReadVars where
  buf : List UInt8
  dataRead : ℕ

/-- The closure of `read`. -/
def readClosure (bufsize : ℕ) (buffer : List UInt8) (v : ReadVars) : Option (ℕ × ReadVars) := do
  let out ← checkedSub bufsize v.dataRead
  if buffer.length ≥ out then
    let data ← slice buffer 0 out
    let buf ← copyFromSlice v.buf v.dataRead v.buf.length data
    return (out, ⟨buf, bufsize⟩)
  else if buffer.length > 0 then
    let buf ← copyFromSlice v.buf v.dataRead (v.dataRead + buffer.length) buffer
    return (buffer.length, ⟨buf, v.dataRead + buffer.length⟩)
  else return (buffer.length, v)

/-- The closure of `write`, with its variable `data_written`. -/
def writeClosure (buf buffer : List UInt8) (dataWritten : ℕ) :
    Option (ℕ × List UInt8 × ℕ) := do
  let out ← checkedSub buf.length dataWritten
  if buffer.length ≥ out then
    let data ← slice buf dataWritten buf.length
    let buffer ← copyFromSlice buffer 0 out data
    return (out, buffer, buf.length)
  else if buffer.length > 0 then
    let data ← slice buf dataWritten (dataWritten + buffer.length)
    let filled ← copyFromSlice buffer 0 buffer.length data
    return (buffer.length, filled, dataWritten + buffer.length)
  else return (buffer.length, buffer, dataWritten)

/-- How one pass of a loop ends: the call returns, or `poll_wait` is called. -/
inductive Pass (T : Smoltcp) (σ : Type) where
  | returned (r : Except IoError ℕ) (t : T.Tcp) (v : σ)
  | again (t : T.Tcp) (v : σ)

/-- How a call ends. For a call that returns, `polls` has the socket before and after each call of
`poll_wait`. -/
inductive IoCall (T : Smoltcp) (σ : Type) where
  | returned (r : Except IoError ℕ) (t : T.Tcp) (v : σ) (polls : List (T.Tcp × T.Tcp))
  | panicked
  | waiting

namespace IoCall

variable {T : Smoltcp} {σ : Type}

/-- The call with one more poll before it. -/
def after (poll : T.Tcp × T.Tcp) : IoCall T σ → IoCall T σ
  | returned r t v polls => returned r t v (poll :: polls)
  | panicked => panicked
  | waiting => waiting

theorem after_eq_returned {c : IoCall T σ} {poll : T.Tcp × T.Tcp} {r : Except IoError ℕ}
    {t : T.Tcp} {v : σ} {polls : List (T.Tcp × T.Tcp)} :
    c.after poll = .returned r t v polls ↔
      ∃ rest, c = .returned r t v rest ∧ poll :: rest = polls := by
  rcases c with ⟨r', t', v', rest⟩ | _ | _ <;> simp [after, and_assoc]

theorem after_eq_panicked {c : IoCall T σ} {poll : T.Tcp × T.Tcp} :
    c.after poll = .panicked ↔ c = .panicked := by
  rcases c with ⟨r, t, v, rest⟩ | _ | _ <;> simp [after]

end IoCall

namespace SingleThread

variable {T : Smoltcp} {σ : Type}

/-- The loop of `read` and `write`. For each of its turns the polls are given that `poll_wait`
makes. -/
def ioLoop (waitingPoll : Bool) (pass : T.Tcp → σ → Option (Pass T σ)) :
    T.Tcp → σ → List (List (InterfacePoll T)) → IoCall T σ
  | t, v, [] =>
    match pass t v with
    | some (.returned r t v) => .returned r t v []
    | some (.again _ _) => .waiting
    | none => .panicked
  | t, v, ps :: turns =>
    match pass t v with
    | some (.returned r t v) => .returned r t v []
    | some (.again t v) =>
      match pollWait waitingPoll false t ps with
      | .returned t' => (ioLoop waitingPoll pass t' v turns).after (t, t')
      | .panicked => .panicked
      | .waiting => .waiting
    | none => .panicked

/-- One pass of the loop of `read`. -/
def readPass (B : Buffers T) (bufsize : ℕ) (t : T.Tcp) (v : ReadVars) :
    Option (Pass T ReadVars) := do
  if T.mayRecv t then
    let (rres, t, v) ← B.recv t (readClosure bufsize) v
    match rres with
    | .ok _ =>
      if v.dataRead = 0 then
        if !T.mayRecv t then return .returned (.ok 0) t v
        else return .again t v
      else return .returned (.ok v.dataRead) t v
    | .error _ => return .returned (.error (.other "tbd r")) t v
  else return .returned (.ok v.dataRead) t v

def read (B : Buffers T) (waitingPoll : Bool) (t : T.Tcp) (buf : List UInt8)
    (turns : List (List (InterfacePoll T))) : IoCall T ReadVars :=
  ioLoop waitingPoll (readPass B buf.length) t ⟨buf, 0⟩ turns

/-- One pass of the loop of `write`. -/
def writePass (B : Buffers T) (buf : List UInt8) (t : T.Tcp) (dataWritten : ℕ) :
    Option (Pass T ℕ) := do
  if T.maySend t then
    let (sres, t, dataWritten) ← B.send t (writeClosure buf) dataWritten
    match sres with
    | .ok _ =>
      if dataWritten > 0 then return .returned (.ok dataWritten) t dataWritten
      else return .again t dataWritten
    | .error _ => return .returned (.error (.other "tbd w1")) t dataWritten
  else return .returned (.error (.other "tbd w2")) t dataWritten

def write (B : Buffers T) (waitingPoll : Bool) (t : T.Tcp) (buf : List UInt8)
    (turns : List (List (InterfacePoll T))) : IoCall T ℕ :=
  ioLoop waitingPoll (writePass B buf) t 0 turns

end SingleThread

/-! ## One pass -/

section Pass

variable {T : Smoltcp} (B : Buffers T)

/-- The first call of the closure of `read` copies as much as there is room for. -/
theorem readClosure_zero (buf buffer : List UInt8) :
    readClosure buf.length buffer ⟨buf, 0⟩ =
      some (min buf.length buffer.length,
        ⟨buffer.take (min buf.length buffer.length) ++ buf.drop (min buf.length buffer.length),
          min buf.length buffer.length⟩) := by
  rcases Nat.le_total buf.length buffer.length with h | h
  · simp [readClosure, checkedSub, slice, copyFromSlice, h]
  · rcases Nat.eq_or_lt_of_le h with h | h
    · simp [readClosure, checkedSub, slice, copyFromSlice, h]
    · rcases Nat.eq_zero_or_pos buffer.length with h₀ | h₀
      · simp [readClosure, checkedSub, h₀, Nat.pos_iff_ne_zero.mp (h₀ ▸ h)]
      · simp [readClosure, checkedSub, copyFromSlice, Nat.not_le.mpr h, h₀, h.le]

/-- The first call of the closure of `write` copies as much as there is room for. -/
theorem writeClosure_zero (buf buffer : List UInt8) :
    writeClosure buf buffer 0 =
      some (min buf.length buffer.length,
        buf.take (min buf.length buffer.length) ++ buffer.drop (min buf.length buffer.length),
        min buf.length buffer.length) := by
  rcases Nat.le_total buf.length buffer.length with h | h
  · simp [writeClosure, checkedSub, slice, copyFromSlice, h]
  · rcases Nat.eq_or_lt_of_le h with h | h
    · simp [writeClosure, checkedSub, slice, copyFromSlice, h]
    · rcases Nat.eq_zero_or_pos buffer.length with h₀ | h₀
      · simp [writeClosure, checkedSub, h₀, Nat.pos_iff_ne_zero.mp (h₀ ▸ h)]
      · simp [writeClosure, checkedSub, slice, copyFromSlice, Nat.not_le.mpr h, h₀, h.le]

variable {B} {buf : List UInt8} {t : T.Tcp} {n : ℕ}

namespace Buffers

theorem length_received_le (B : Buffers T) (t : T.Tcp) : (B.received t).length ≤ (B.rx t).length :=
  (B.received_prefix t).length_le

/-- A part of the contiguous data is the next part of the stream. -/
theorem take_received (B : Buffers T) (t : T.Tcp) (hn : n ≤ (B.received t).length) :
    (B.received t).take n = (B.rx t).take n := by
  obtain ⟨rest, hrest⟩ := B.received_prefix t
  rw [← hrest, List.take_append_of_le_length hn]

/-- What has been received can be read, in whatever state the connection is. -/
theorem mayRecv_of_received (B : Buffers T) (h : B.received t ≠ []) : T.mayRecv t := by
  have hlen : 0 < T.rxLen t := by
    rw [← B.length_rx]
    exact (List.length_pos_iff.mpr h).trans_le (B.length_received_le t)
  simp [T.mayRecv_eq, hlen]

theorem rx_recv_const (B : Buffers T) (ht : T.mayRecv t) (hn : n ≤ (B.received t).length) :
    B.rx (T.recv t fun _ ↦ n) = (B.rx t).drop n :=
  B.rx_recv t (fun _ ↦ n) ht hn

theorem tx_send_const (B : Buffers T) (ht : T.maySend t) (hn : n ≤ (B.free t).length) :
    B.tx (T.send t fun _ ↦ buf.take n) = B.tx t ++ buf.take n :=
  B.tx_send t (fun _ ↦ buf.take n) ht ((List.length_take_le _ _).trans hn)

/-- A call of `recv` that takes nothing does not close the receiving side. -/
theorem mayRecv_recv_zero (B : Buffers T) (ht : T.mayRecv t) : T.mayRecv (T.recv t fun _ ↦ 0) := by
  have hrx := B.rx_recv_const ht (Nat.zero_le _)
  have hlen : T.rxLen (T.recv t fun _ ↦ 0) = T.rxLen t := by
    rw [← B.length_rx, hrx, List.drop_zero, B.length_rx]
  rwa [T.mayRecv_eq, T.state_recv, hlen, ← T.mayRecv_eq]

end Buffers

namespace SingleThread

theorem readPass_of_closed (ht : T.mayRecv t = false) :
    readPass B buf.length t ⟨buf, 0⟩ = some (.returned (.ok 0) t ⟨buf, 0⟩) := by
  simp [readPass, ht]

/-- When there is nothing to read or no room for it, the pass does nothing. -/
theorem readPass_of_zero (ht : T.mayRecv t) (hn : min buf.length (B.received t).length = 0) :
    readPass B buf.length t ⟨buf, 0⟩ = some (.again (T.recv t fun _ ↦ 0) ⟨buf, 0⟩) := by
  have hmay : T.mayRecv (T.recv t fun _ ↦ 0) := B.mayRecv_recv_zero ht
  simp [readPass, Buffers.recv, ht, readClosure_zero, hn, hmay]

theorem readPass_of_pos (ht : T.mayRecv t) (hn : n = min buf.length (B.received t).length)
    (hpos : 0 < n) :
    readPass B buf.length t ⟨buf, 0⟩ =
      some (.returned (.ok n) (T.recv t fun _ ↦ n) ⟨(B.rx t).take n ++ buf.drop n, n⟩) := by
  have hle : n ≤ (B.received t).length := by
    rw [hn]
    exact min_le_right _ _
  rw [← B.take_received t hle]
  simp [readPass, Buffers.recv, ht, readClosure_zero, ← hn, hpos.ne']

theorem writePass_of_closed (ht : T.maySend t = false) :
    writePass B buf t 0 = some (.returned (.error (.other "tbd w2")) t 0) := by
  simp [writePass, ht]

theorem writePass_of_zero (ht : T.maySend t) (hn : min buf.length (B.free t).length = 0) :
    writePass B buf t 0 = some (.again (T.send t fun _ ↦ []) 0) := by
  simp [writePass, Buffers.send, ht, writeClosure_zero, hn]

theorem writePass_of_pos (ht : T.maySend t) (hn : n = min buf.length (B.free t).length)
    (hpos : 0 < n) :
    writePass B buf t 0 = some (.returned (.ok n) (T.send t fun _ ↦ buf.take n) n) := by
  have hlen : (buf.take n).length = n := by
    rw [List.length_take, hn]
    omega
  have htake : (buf.take n ++ (B.free t).drop n).take n = buf.take n := List.take_left' hlen
  simp [writePass, Buffers.send, ht, writeClosure_zero, ← hn, hpos, htake]

/-- All that a pass of `read` can do. -/
theorem readPass_cases (B : Buffers T) (buf : List UInt8) (t : T.Tcp) :
    readPass B buf.length t ⟨buf, 0⟩ = some (.returned (.ok 0) t ⟨buf, 0⟩) ∨
    (T.mayRecv t ∧
      readPass B buf.length t ⟨buf, 0⟩ = some (.again (T.recv t fun _ ↦ 0) ⟨buf, 0⟩)) ∨
    ∃ n, T.mayRecv t ∧ n ≤ (B.received t).length ∧ readPass B buf.length t ⟨buf, 0⟩ =
      some (.returned (.ok n) (T.recv t fun _ ↦ n) ⟨(B.rx t).take n ++ buf.drop n, n⟩) := by
  by_cases ht : T.mayRecv t
  · rcases Nat.eq_zero_or_pos (min buf.length (B.received t).length) with hn | hn
    · exact .inr (.inl ⟨ht, readPass_of_zero ht hn⟩)
    · exact .inr (.inr ⟨_, ht, min_le_right _ _, readPass_of_pos ht rfl hn⟩)
  · exact .inl (readPass_of_closed (by simpa using ht))

/-- All that a pass of `write` can do. -/
theorem writePass_cases (B : Buffers T) (buf : List UInt8) (t : T.Tcp) :
    writePass B buf t 0 = some (.returned (.error (.other "tbd w2")) t 0) ∨
    (T.maySend t ∧ writePass B buf t 0 = some (.again (T.send t fun _ ↦ []) 0)) ∨
    ∃ n, T.maySend t ∧ n ≤ (B.free t).length ∧
      writePass B buf t 0 = some (.returned (.ok n) (T.send t fun _ ↦ buf.take n) n) := by
  by_cases ht : T.maySend t
  · rcases Nat.eq_zero_or_pos (min buf.length (B.free t).length) with hn | hn
    · exact .inr (.inl ⟨ht, writePass_of_zero ht hn⟩)
    · exact .inr (.inr ⟨_, ht, min_le_right _ _, writePass_of_pos ht rfl hn⟩)
  · exact .inl (writePass_of_closed (by simpa using ht))

end SingleThread

end Pass

/-! ## Returning at once -/

section AtOnce

variable {T : Smoltcp} {σ : Type}

namespace SingleThread

/-- The call of `read` returns without a call of `poll_wait`, and has moved the next bytes of the
stream, as many as the buffer and the contiguous data allow, from the receive buffer to the buffer
of the caller. -/
def ReadsAtOnce (B : Buffers T) (waitingPoll : Bool) (t : T.Tcp) (buf : List UInt8) : Prop :=
  ∀ turns, ∃ n t', n = min buf.length (B.received t).length ∧
    read B waitingPoll t buf turns =
      .returned (.ok n) t' ⟨(B.rx t).take n ++ buf.drop n, n⟩ [] ∧
    B.rx t' = (B.rx t).drop n ∧ B.tx t' = B.tx t

/-- The call of `write` returns without a call of `poll_wait`, and has appended the first bytes of
the buffer, as many as fit into the contiguous free space, to the transmit buffer. -/
def WritesAtOnce (B : Buffers T) (waitingPoll : Bool) (t : T.Tcp) (buf : List UInt8) : Prop :=
  ∀ turns, ∃ n t', n = min buf.length (B.free t).length ∧
    write B waitingPoll t buf turns = .returned (.ok n) t' n [] ∧
    B.tx t' = B.tx t ++ buf.take n ∧ B.rx t' = B.rx t

variable {B : Buffers T} {waitingPoll : Bool} {pass : T.Tcp → σ → Option (Pass T σ)}
  {t t' : T.Tcp} {v v' : σ} {r : Except IoError ℕ} {buf : List UInt8}

theorem ioLoop_of_returned (h : pass t v = some (.returned r t' v'))
    (turns : List (List (InterfacePoll T))) :
    ioLoop waitingPoll pass t v turns = .returned r t' v' [] := by
  rcases turns with _ | ⟨ps, turns⟩ <;> rw [ioLoop, h]

theorem ioLoop_nil_of_again (h : pass t v = some (.again t' v')) :
    ioLoop waitingPoll pass t v [] = .waiting := by
  rw [ioLoop, h]

/-- A call of `read` with an empty buffer waits, whatever there is to read. -/
theorem read_nil_eq_waiting (ht : T.mayRecv t) : read B waitingPoll t [] [] = .waiting := by
  apply ioLoop_nil_of_again
  exact readPass_of_zero ht (Nat.zero_min _)

/-- A call of `write` with an empty buffer waits, however much space there is. -/
theorem write_nil_eq_waiting (ht : T.maySend t) : write B waitingPoll t [] [] = .waiting := by
  apply ioLoop_nil_of_again
  exact writePass_of_zero ht (Nat.zero_min _)

theorem readsAtOnce_iff (hrx : B.received t ≠ []) :
    ReadsAtOnce B waitingPoll t buf ↔ buf ≠ [] := by
  have ht := B.mayRecv_of_received hrx
  constructor
  · rintro h rfl
    obtain ⟨n, t', -, hread, -⟩ := h []
    rw [read_nil_eq_waiting ht] at hread
    exact absurd hread (by simp)
  · intro hbuf turns
    have hpos : 0 < min buf.length (B.received t).length :=
      lt_min (List.length_pos_iff.mpr hbuf) (List.length_pos_iff.mpr hrx)
    refine ⟨_, _, rfl, ioLoop_of_returned (readPass_of_pos ht rfl hpos) turns, ?_, B.tx_recv _ _⟩
    exact B.rx_recv_const ht (min_le_right _ _)

theorem writesAtOnce_iff (ht : T.maySend t) (hfree : B.free t ≠ []) :
    WritesAtOnce B waitingPoll t buf ↔ buf ≠ [] := by
  constructor
  · rintro h rfl
    obtain ⟨n, t', -, hwrite, -⟩ := h []
    rw [write_nil_eq_waiting ht] at hwrite
    exact absurd hwrite (by simp)
  · intro hbuf turns
    have hpos : 0 < min buf.length (B.free t).length :=
      lt_min (List.length_pos_iff.mpr hbuf) (List.length_pos_iff.mpr hfree)
    refine ⟨_, _, rfl, ioLoop_of_returned (writePass_of_pos ht rfl hpos) turns, ?_, B.rx_send _ _⟩
    exact B.tx_send_const ht (min_le_right _ _)

end SingleThread

end AtOnce

end UsnetSockets
