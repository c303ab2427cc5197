import UsnetSockets.Net.Ring
import UsnetSockets.Transition.Flow
import UsnetSockets.Transition.Run

/-!
# Streams in order

A stream is read and written in pieces, by calls between and during which the interface is polled.
The network appends to the receive buffer and removes from the transmit buffer; the calls do it the
other way round. What has been delivered to the reader is therefore always the beginning of what has
arrived, and what the peer has acknowledged the beginning of what the calls of `write` have
accepted, with the content of the buffers between them. Only when the stack forgets a connection is
what has not been read dropped, and nothing comes after that. A pass of a loop that does not end the
call has left the buffers as they are, so that it does not matter how often a call has to wait.
-/

namespace UsnetSockets

/-! ## Sequences of calls -/

/-- The number of bytes that a call says it has moved. -/
def movedBytes : Except IoError ℕ → ℕ
  | .ok n => n
  | .error _ => 0

namespace Buffers

variable {T : Smoltcp} (B : Buffers T)

/-- What has been received between two moments in which nothing was read, unless the connection has
been forgotten. -/
def arrived (poll : T.Tcp × T.Tcp) : List UInt8 :=
  if B.rx poll.1 <+: B.rx poll.2 then (B.rx poll.2).drop (B.rx poll.1).length else []

/-- What has been dropped between two moments, because the connection has been forgotten. -/
def dropped (poll : T.Tcp × T.Tcp) : List UInt8 :=
  if B.rx poll.1 <+: B.rx poll.2 then [] else B.rx poll.1

/-- What has been acknowledged between two moments in which nothing was written. -/
def acked (poll : T.Tcp × T.Tcp) : List UInt8 :=
  (B.tx poll.1).take ((B.tx poll.1).length - (B.tx poll.2).length)

end Buffers

/-- A socket together with what has gone through it so far: what its receive buffer was given by the
network and its reader by the calls of `read`, what was dropped with the connection, and what the
calls of `write` have accepted and the peer has acknowledged. -/
structure StreamLog (T : Smoltcp) where
  socket : T.Tcp
  arrived : List UInt8
  delivered : List UInt8
  dropped : List UInt8
  accepted : List UInt8
  acked : List UInt8

/-- A call on a stream, or a poll of the interface by a call on something else. -/
inductive StreamOp (T : Smoltcp) where
  | read (buf : List UInt8) (turns : List (List (SingleThread.InterfacePoll T)))
  | write (buf : List UInt8) (turns : List (List (SingleThread.InterfacePoll T)))
  | poll (events : List T.Event)

namespace StreamLog

variable {T : Smoltcp} (B : Buffers T)

def start (t : T.Tcp) : StreamLog T := ⟨t, [], [], [], [], []⟩

/-- The log after some polls that have brought the socket to `t`. -/
def polled (s : StreamLog T) (polls : List (T.Tcp × T.Tcp)) (t : T.Tcp) : StreamLog T :=
  { s with
    socket := t
    arrived := s.arrived ++ polls.flatMap B.arrived
    dropped := s.dropped ++ polls.flatMap B.dropped
    acked := s.acked ++ polls.flatMap B.acked }

/-- One call, if it returns. -/
def step (waitingPoll : Bool) (s : StreamLog T) : StreamOp T → Option (StreamLog T)
  | .read buf turns =>
    match SingleThread.read B waitingPoll s.socket buf turns with
    | .returned r t v polls => some { s.polled B polls t with
        delivered := s.delivered ++ v.buf.take (movedBytes r) }
    | .panicked | .waiting => none
  | .write buf turns =>
    match SingleThread.write B waitingPoll s.socket buf turns with
    | .returned r t _ polls => some { s.polled B polls t with
        accepted := s.accepted ++ buf.take (movedBytes r) }
    | .panicked | .waiting => none
  | .poll events =>
    let t := T.processAll events s.socket
    some (s.polled B [(s.socket, t)] t)

end StreamLog

/-- The connection is over, and there is nothing left to read. -/
structure Buffers.Ended {T : Smoltcp} (B : Buffers T) (t : T.Tcp) : Prop where
  rx : B.rx t = []
  state : T.state t = .closed

/-- Since the log was begun with the socket `t₀`, the stream has been neither duplicated nor
reordered, in either direction, and nothing has been lost but what was dropped at its end. -/
structure StreamLog.InOrder {T : Smoltcp} (B : Buffers T) (t₀ : T.Tcp) (s : StreamLog T) :
    Prop where
  reading : Flow (B.rx t₀) s.arrived (s.delivered ++ s.dropped) (B.rx s.socket)
  writing : Flow (B.tx t₀) s.accepted s.acked (B.tx s.socket)
  ended : s.dropped ≠ [] → B.Ended s.socket

section Runs

variable {T : Smoltcp} {σ : Type} {B : Buffers T} {t t' : T.Tcp}

namespace Buffers

theorem Ended.process (h : B.Ended t) (e : T.Event) : B.Ended (T.process e t) := by
  obtain ⟨hstate, hrx⟩ := B.closed_process e t h.state
  exact ⟨hrx.elim (fun hsame ↦ hsame.trans h.rx) id, hstate⟩

theorem Ended.processAll (h : B.Ended t) (events : List T.Event) :
    B.Ended (T.processAll events t) := by
  induction events generalizing t with
  | nil => exact h
  | cons e events ih => exact ih (h.process e)

theorem rx_processAll (B : Buffers T) (events : List T.Event) (t : T.Tcp) :
    B.rx t <+: B.rx (T.processAll events t) ∨ B.Ended (T.processAll events t) := by
  induction events generalizing t with
  | nil => exact .inl List.prefix_rfl
  | cons e events ih =>
    rcases B.rx_process e t with hgrown | hended
    · exact (ih (T.process e t)).imp_left hgrown.trans
    · have hone : B.Ended (T.process e t) := ⟨hended.1, hended.2⟩
      exact .inr (hone.processAll events)

theorem tx_processAll (B : Buffers T) (events : List T.Event) (t : T.Tcp) :
    B.tx (T.processAll events t) <:+ B.tx t := by
  induction events generalizing t with
  | nil => exact List.suffix_rfl
  | cons e events ih => exact (ih _).trans (B.tx_process e t)

/-- What polls do to the buffers. -/
structure Advances (B : Buffers T) (t t' : T.Tcp) : Prop where
  rx : B.rx t <+: B.rx t' ∨ B.Ended t'
  tx : B.tx t' <:+ B.tx t
  stays : B.Ended t → B.Ended t'

theorem advances_processAll (B : Buffers T) (events : List T.Event) (t : T.Tcp) :
    B.Advances t (T.processAll events t) :=
  ⟨B.rx_processAll events t, B.tx_processAll events t, fun h ↦ h.processAll events⟩

theorem Advances.trans {t₁ : T.Tcp} (h : B.Advances t t₁) (h' : B.Advances t₁ t') :
    B.Advances t t' := by
  refine ⟨?_, h'.tx.trans h.tx, h'.stays ∘ h.stays⟩
  rcases h.rx with hgrown | hended
  · exact h'.rx.imp_left hgrown.trans
  · exact .inr (h'.stays hended)

theorem advances_pollWait (B : Buffers T) {waitingPoll once : Bool}
    {ps : List (SingleThread.InterfacePoll T)}
    (h : SingleThread.pollWait waitingPoll once t ps = .returned t') : B.Advances t t' := by
  induction ps generalizing t with
  | nil => exact absurd h (by simp [SingleThread.pollWait])
  | cons p ps ih =>
    have hfirst := B.advances_processAll p.events t
    rw [SingleThread.pollWait] at h
    split at h
    · rw [← SingleThread.PollWait.returned.inj h]
      exact hfirst
    · split at h
      · exact hfirst.trans (ih h)
      · exact absurd h (by simp)

/-- What goes through the receive buffer in one poll. -/
theorem Advances.flow (h : B.Advances t t') :
    Flow (B.rx t) (B.arrived (t, t')) (B.dropped (t, t')) (B.rx t') ∧
      (B.dropped (t, t') ≠ [] → B.Ended t') := by
  by_cases hgrown : B.rx t <+: B.rx t'
  · rw [arrived, dropped, if_pos hgrown, if_pos hgrown]
    exact ⟨Flow.of_prefix hgrown, fun hne ↦ absurd rfl hne⟩
  · have hended := h.rx.resolve_left hgrown
    rw [arrived, dropped, if_neg hgrown, if_neg hgrown, hended.rx]
    exact ⟨rfl, fun _ ↦ hended⟩

/-- The sockets have the same content, and are over together. -/
structure Alike (B : Buffers T) (t t' : T.Tcp) : Prop where
  rx : B.rx t' = B.rx t
  tx : B.tx t' = B.tx t
  state : T.state t' = T.state t

/-- What goes through the buffers in a number of polls, one after the other. -/
structure Polled (B : Buffers T) (t : T.Tcp) (polls : List (T.Tcp × T.Tcp)) (t' : T.Tcp) :
    Prop where
  rx : Flow (B.rx t) (polls.flatMap B.arrived) (polls.flatMap B.dropped) (B.rx t')
  tx : Flow (B.tx t) [] (polls.flatMap B.acked) (B.tx t')
  ended : polls.flatMap B.dropped ≠ [] → B.Ended t'
  stays : B.Ended t → B.Ended t'

namespace Polled

theorem refl (B : Buffers T) (t : T.Tcp) : B.Polled t [] t :=
  ⟨.refl _, .refl _, fun h ↦ absurd rfl h, id⟩

/-- One more poll before the others, from a socket with the same content. -/
theorem cons {t₁ t₂ : T.Tcp} {polls : List (T.Tcp × T.Tcp)} (hsame : B.Alike t t₁)
    (hpoll : B.Advances t₁ t₂) (h : B.Polled t₂ polls t') :
    B.Polled t ((t₁, t₂) :: polls) t' := by
  obtain ⟨hrx, hended⟩ := hpoll.flow
  have htx : Flow (B.tx t) [] (B.acked (t₁, t₂)) (B.tx t₂) := hsame.tx ▸ Flow.of_suffix hpoll.tx
  refine ⟨(hsame.rx ▸ hrx).trans h.rx, htx.trans h.tx, fun hne ↦ ?_, fun hover ↦ ?_⟩
  · rcases not_and_or.mp (mt List.append_eq_nil_iff.mpr hne) with hfirst | hrest
    · exact h.stays (hended hfirst)
    · exact h.ended hrest
  · exact h.stays (hpoll.stays ⟨hsame.rx.trans hover.rx, hsame.state.trans hover.state⟩)

end Polled

end Buffers

namespace SingleThread

variable {waitingPoll : Bool} {turns : List (List (InterfacePoll T))} {r : Except IoError ℕ}
  {buf : List UInt8} {polls : List (T.Tcp × T.Tcp)}

/-- A pass that is followed by a call of `poll_wait` has changed neither the variables of the loop
nor the content of the buffers. -/
def IdleAgain (B : Buffers T) (pass : T.Tcp → σ → Option (Pass T σ)) (v : σ) : Prop :=
  ∀ t t' v', pass t v = some (.again t' v') → v' = v ∧ B.Alike t t'

/-- A call that returns has made a number of polls, and then the pass in which it returns. -/
theorem exists_pass_of_ioLoop {pass : T.Tcp → σ → Option (Pass T σ)} {v v' : σ}
    (hidle : IdleAgain B pass v) (h : ioLoop waitingPoll pass t v turns = .returned r t' v' polls) :
    ∃ t₁, B.Polled t polls t₁ ∧ pass t₁ v = some (.returned r t' v') := by
  induction turns generalizing t polls with
  | nil =>
    rw [ioLoop] at h
    split at h
    · next hpass =>
      obtain ⟨rfl, rfl, rfl, rfl⟩ := IoCall.returned.inj h
      exact ⟨t, .refl B t, hpass⟩
    all_goals exact absurd h (by simp)
  | cons ps turns ih =>
    rw [ioLoop] at h
    split at h
    · next hpass =>
      obtain ⟨rfl, rfl, rfl, rfl⟩ := IoCall.returned.inj h
      exact ⟨t, .refl B t, hpass⟩
    · next t₁ v₁ hpass =>
      obtain ⟨rfl, hsame⟩ := hidle t t₁ v₁ hpass
      split at h
      · next t₂ hwait =>
        obtain ⟨polls, hrest, rfl⟩ := IoCall.after_eq_returned.mp h
        obtain ⟨t₃, hpolled, hret⟩ := ih hrest
        exact ⟨t₃, hpolled.cons hsame (B.advances_pollWait hwait), hret⟩
      all_goals exact absurd h (by simp)
    · exact absurd h (by simp)

theorem idleAgain_readPass (B : Buffers T) (buf : List UInt8) :
    IdleAgain B (readPass B buf.length) ⟨buf, 0⟩ := by
  intro t t' v h
  rcases readPass_cases B buf t with hp | ⟨ht, hp⟩ | ⟨n, ht, hn, hp⟩ <;>
    rw [h, Option.some_inj] at hp
  · exact absurd hp (by simp)
  · obtain ⟨rfl, rfl⟩ := Pass.again.inj hp
    exact ⟨rfl, B.rx_recv_const ht (Nat.zero_le _), B.tx_recv _ _, T.state_recv _ _⟩
  · exact absurd hp (by simp)

theorem idleAgain_writePass (B : Buffers T) (buf : List UInt8) :
    IdleAgain B (writePass B buf) 0 := by
  intro t t' v h
  rcases writePass_cases B buf t with hp | ⟨ht, hp⟩ | ⟨n, ht, hn, hp⟩ <;>
    rw [h, Option.some_inj] at hp
  · exact absurd hp (by simp)
  · obtain ⟨rfl, rfl⟩ := Pass.again.inj hp
    refine ⟨rfl, B.rx_send _ _, ?_, T.state_send _ _⟩
    exact (B.tx_send t _ ht (Nat.zero_le _)).trans (List.append_nil _)
  · exact absurd hp (by simp)

/-- What the reader is given in the pass in which the call returns has been taken from the receive
buffer. -/
theorem flow_readPass {v : ReadVars}
    (h : readPass B buf.length t ⟨buf, 0⟩ = some (.returned r t' v)) :
    Flow (B.rx t) [] (v.buf.take (movedBytes r)) (B.rx t') ∧ B.tx t' = B.tx t ∧
      T.state t' = T.state t := by
  rcases readPass_cases B buf t with hp | ⟨ht, hp⟩ | ⟨n, ht, hn, hp⟩ <;>
    rw [h, Option.some_inj] at hp
  · obtain ⟨rfl, rfl, rfl⟩ := Pass.returned.inj hp
    exact ⟨.refl _, rfl, rfl⟩
  · exact absurd hp (by simp)
  · obtain ⟨rfl, rfl, rfl⟩ := Pass.returned.inj hp
    have htake : ((B.rx t).take n ++ buf.drop n).take n = (B.rx t).take n :=
      List.take_left' (List.length_take_of_le (hn.trans (B.length_received_le t)))
    refine ⟨?_, B.tx_recv _ _, T.state_recv _ _⟩
    rw [movedBytes, htake, B.rx_recv_const ht hn]
    exact .take _ _

/-- What the call says it has accepted in the pass in which it returns has been put into the
transmit buffer. -/
theorem flow_writePass {v : ℕ} (h : writePass B buf t 0 = some (.returned r t' v)) :
    Flow (B.tx t) (buf.take (movedBytes r)) [] (B.tx t') ∧ B.rx t' = B.rx t ∧
      T.state t' = T.state t := by
  rcases writePass_cases B buf t with hp | ⟨ht, hp⟩ | ⟨n, ht, hn, hp⟩ <;>
    rw [h, Option.some_inj] at hp
  · obtain ⟨rfl, rfl, rfl⟩ := Pass.returned.inj hp
    exact ⟨.refl _, rfl, rfl⟩
  · exact absurd hp (by simp)
  · obtain ⟨rfl, rfl, rfl⟩ := Pass.returned.inj hp
    refine ⟨?_, B.rx_send _ _, T.state_send _ _⟩
    rw [movedBytes, B.tx_send_const ht hn]
    exact .put _ _

/-! The closures stay within their slices, so a call panics only in `poll_wait`. -/

theorem exists_of_pollWait_eq_panicked {once : Bool} {ps : List (InterfacePoll T)}
    (h : pollWait waitingPoll once t ps = .panicked) : ∃ p ∈ ps, p.waited = false := by
  induction ps generalizing t with
  | nil => exact absurd h (by simp [pollWait])
  | cons p ps ih =>
    rw [pollWait] at h
    split at h
    · exact absurd h (by simp)
    · by_cases hwaited : p.waited
      · rw [if_pos hwaited] at h
        obtain ⟨p', hp', hno⟩ := ih h
        exact ⟨p', List.mem_cons_of_mem _ hp', hno⟩
      · exact ⟨p, List.mem_cons_self, by simpa using hwaited⟩

theorem exists_of_ioLoop_eq_panicked {pass : T.Tcp → σ → Option (Pass T σ)} {v : σ}
    (hidle : IdleAgain B pass v) (hpass : ∀ t, pass t v ≠ none)
    (h : ioLoop waitingPoll pass t v turns = .panicked) :
    ∃ ps ∈ turns, ∃ p ∈ ps, p.waited = false := by
  induction turns generalizing t with
  | nil =>
    rw [ioLoop] at h
    split at h
    · exact absurd h (by simp)
    · exact absurd h (by simp)
    · next hnone => exact absurd hnone (hpass t)
  | cons ps turns ih =>
    rw [ioLoop] at h
    split at h
    · exact absurd h (by simp)
    · next t₁ v₁ hagain =>
      obtain ⟨rfl, -⟩ := hidle t t₁ v₁ hagain
      split at h
      · next t₂ hwait =>
        obtain ⟨ps', hps', hno⟩ := ih (IoCall.after_eq_panicked.mp h)
        exact ⟨ps', List.mem_cons_of_mem _ hps', hno⟩
      · next hwait => exact ⟨ps, List.mem_cons_self, exists_of_pollWait_eq_panicked hwait⟩
      · exact absurd h (by simp)
    · next hnone => exact absurd hnone (hpass t)

/-- A call of `read` panics only when a `poll(2)` fails. -/
theorem exists_of_read_eq_panicked (h : read B waitingPoll t buf turns = .panicked) :
    ∃ ps ∈ turns, ∃ p ∈ ps, p.waited = false := by
  refine exists_of_ioLoop_eq_panicked (idleAgain_readPass B buf) (fun t hnone ↦ ?_) h
  rcases readPass_cases B buf t with hp | ⟨-, hp⟩ | ⟨n, -, -, hp⟩ <;>
    exact absurd (hnone.symm.trans hp) (by simp)

/-- A call of `write` panics only when a `poll(2)` fails. -/
theorem exists_of_write_eq_panicked (h : write B waitingPoll t buf turns = .panicked) :
    ∃ ps ∈ turns, ∃ p ∈ ps, p.waited = false := by
  refine exists_of_ioLoop_eq_panicked (idleAgain_writePass B buf) (fun t hnone ↦ ?_) h
  rcases writePass_cases B buf t with hp | ⟨-, hp⟩ | ⟨n, -, -, hp⟩ <;>
    exact absurd (hnone.symm.trans hp) (by simp)

end SingleThread

namespace StreamLog

variable {waitingPoll : Bool} {t₀ : T.Tcp} {s s' : StreamLog T} {polls : List (T.Tcp × T.Tcp)}

theorem inOrder_start (B : Buffers T) (t : T.Tcp) : InOrder B t (start t) :=
  ⟨.refl _, .refl _, fun h ↦ absurd rfl h⟩

theorem InOrder.polled (hs : InOrder B t₀ s) (h : B.Polled s.socket polls t) :
    InOrder B t₀ (s.polled B polls t) := by
  refine ⟨?_, ?_, fun hne ↦ ?_⟩
  · simpa [StreamLog.polled] using hs.reading.trans h.rx
  · simpa [StreamLog.polled] using hs.writing.trans h.tx
  · rcases not_and_or.mp (mt List.append_eq_nil_iff.mpr hne) with hold | hnew
    · exact h.stays (hs.ended hold)
    · exact h.ended hnew

/-- Bytes are read before any are dropped. -/
theorem InOrder.reads (hs : InOrder B t₀ s) {bytes : List UInt8}
    (hrx : Flow (B.rx s.socket) [] bytes (B.rx t)) (htx : B.tx t = B.tx s.socket)
    (hstate : T.state t = T.state s.socket) :
    InOrder B t₀ { s with socket := t, delivered := s.delivered ++ bytes } := by
  by_cases hdropped : s.dropped = []
  · have hreading := hs.reading
    rw [hdropped, List.append_nil] at hreading
    refine ⟨?_, by simpa [htx] using hs.writing, fun hne ↦ absurd hdropped hne⟩
    simpa [hdropped] using hreading.trans hrx
  · -- nothing is left to read
    have hended := hs.ended hdropped
    rw [Flow, hended.rx] at hrx
    obtain ⟨rfl, hnil⟩ := List.append_eq_nil_iff.mp hrx.symm
    refine ⟨?_, by simpa [htx] using hs.writing, fun _ ↦ ⟨hnil, hstate.trans hended.state⟩⟩
    simpa [hnil, hended.rx] using hs.reading

theorem InOrder.writes (hs : InOrder B t₀ s) {bytes : List UInt8}
    (htx : Flow (B.tx s.socket) bytes [] (B.tx t)) (hrx : B.rx t = B.rx s.socket)
    (hstate : T.state t = T.state s.socket) :
    InOrder B t₀ { s with socket := t, accepted := s.accepted ++ bytes } := by
  refine ⟨by simpa [hrx] using hs.reading, by simpa using hs.writing.trans htx, fun hne ↦ ?_⟩
  have hended := hs.ended hne
  exact ⟨hrx.trans hended.rx, hstate.trans hended.state⟩

theorem InOrder.step {op : StreamOp T} (hs : InOrder B t₀ s)
    (h : s.step B waitingPoll op = some s') : InOrder B t₀ s' := by
  rcases op with ⟨buf, turns⟩ | ⟨buf, turns⟩ | events
  · rw [StreamLog.step] at h
    split at h
    · next r t v polls hread =>
      obtain rfl := Option.some.inj h
      obtain ⟨t₁, hpolled, hret⟩ := SingleThread.exists_pass_of_ioLoop
        (SingleThread.idleAgain_readPass B buf) hread
      obtain ⟨hrx, htx, hstate⟩ := SingleThread.flow_readPass hret
      exact (hs.polled hpolled).reads hrx htx hstate
    all_goals exact absurd h (by simp)
  · rw [StreamLog.step] at h
    split at h
    · next r t v polls hwrite =>
      obtain rfl := Option.some.inj h
      obtain ⟨t₁, hpolled, hret⟩ := SingleThread.exists_pass_of_ioLoop
        (SingleThread.idleAgain_writePass B buf) hwrite
      obtain ⟨htx, hrx, hstate⟩ := SingleThread.flow_writePass hret
      exact (hs.polled hpolled).writes htx hrx hstate
    all_goals exact absurd h (by simp)
  · rw [StreamLog.step, Option.some_inj] at h
    subst h
    exact hs.polled (.cons ⟨rfl, rfl, rfl⟩ (B.advances_processAll _ _) (.refl B _))

/-- What has been delivered is the beginning of what there was and has arrived. -/
theorem InOrder.delivered_prefix (hs : InOrder B t₀ s) : s.delivered <+: B.rx t₀ ++ s.arrived :=
  (List.prefix_append _ _).trans hs.reading.out_prefix

/-- What has been acknowledged is the beginning of what there was and has been accepted. -/
theorem InOrder.acked_prefix (hs : InOrder B t₀ s) : s.acked <+: B.tx t₀ ++ s.accepted :=
  hs.writing.out_prefix

/-- In a run the stream stays in order. -/
theorem inOrder_of_run {ops : List (StreamOp T)}
    (h : Transition.run (StreamLog.step B waitingPoll) (start t) ops = some s) :
    InOrder B t s :=
  Transition.invariant_of_run (fun _ _ _ hs hstep ↦ hs.step hstep) (inOrder_start B t) h

end StreamLog

end Runs

/-- **Reading and writing.** When there is something to read, or space to write to, a call returns
at once with as many bytes as the buffer and the contiguous part of the ring buffer allow if and
only if the buffer of the caller is not empty. Over any sequence of calls the stream is neither
lost, duplicated nor reordered. -/
theorem streamIo_iff {T : Smoltcp} (B : Buffers T) (waitingPoll : Bool) :
    (∀ t buf, T.maySend t → B.free t ≠ [] →
      (SingleThread.WritesAtOnce B waitingPoll t buf ↔ buf ≠ [])) ∧
    (∀ t buf, B.received t ≠ [] → (SingleThread.ReadsAtOnce B waitingPoll t buf ↔ buf ≠ [])) ∧
    ∀ t ops s, Transition.run (StreamLog.step B waitingPoll) (StreamLog.start t) ops = some s →
      StreamLog.InOrder B t s := by
  refine ⟨?_, ?_, ?_⟩
  · intro t buf ht hfree
    exact SingleThread.writesAtOnce_iff ht hfree
  · intro t buf hrx
    exact SingleThread.readsAtOnce_iff hrx
  · intro t ops s h
    exact StreamLog.inOrder_of_run h

/-- A connected socket of `Smoltcp.ring`. Of the three bytes that have been received one stands at
the end of the storage and two at its begin. -/
def RingTcp.wrapped : RingTcp where
  base := ⟨.established, 0, false, 1025, ⟨.v4 10 0 0 2, 80⟩⟩
  rx := ⟨4, 3, [10, 20, 30]⟩
  tx := ⟨4, 0, [7]⟩

/-- The reader is given one byte in the first call and the others, with one that has arrived in
between, in the second. -/
theorem streamIo_iff_wrapped :
    SingleThread.WritesAtOnce Buffers.ring true RingTcp.wrapped [1, 2] ∧
    SingleThread.ReadsAtOnce Buffers.ring true RingTcp.wrapped [0, 0] ∧
    ∃ s, Transition.run (StreamLog.step Buffers.ring true) (StreamLog.start RingTcp.wrapped)
        [.read [0, 0] [], .write [1, 2] [], .poll [.data [40]], .read [0, 0, 0] []] = some s ∧
      s.arrived = [40] ∧ s.delivered = [10, 20, 30, 40] ∧ s.dropped = [] ∧ s.accepted = [1, 2] ∧
      StreamLog.InOrder Buffers.ring RingTcp.wrapped s := by
  obtain ⟨hwrite, hread, hrun⟩ := streamIo_iff Buffers.ring true
  refine ⟨?_, ?_, ?_⟩
  · exact (hwrite RingTcp.wrapped [1, 2] rfl (by decide)).mpr (by decide)
  · exact (hread RingTcp.wrapped [0, 0] (by decide)).mpr (by decide)
  · refine ⟨_, rfl, rfl, rfl, rfl, rfl, ?_⟩
    exact hrun _ [.read [0, 0] [], .write [1, 2] [], .poll [.data [40]], .read [0, 0, 0] []] _ rfl

/-- There are bytes to read and there is space to write to, but with an empty buffer both calls wait
for the network. -/
theorem not_streamIo_empty :
    (Smoltcp.ring.maySend RingTcp.wrapped ∧ Buffers.ring.free RingTcp.wrapped ≠ [] ∧
      SingleThread.write Buffers.ring true RingTcp.wrapped [] [] = .waiting ∧
      ¬SingleThread.WritesAtOnce Buffers.ring true RingTcp.wrapped []) ∧
    Buffers.ring.received RingTcp.wrapped ≠ [] ∧
      SingleThread.read Buffers.ring true RingTcp.wrapped [] [] = .waiting ∧
      ¬SingleThread.ReadsAtOnce Buffers.ring true RingTcp.wrapped [] := by
  refine ⟨⟨rfl, by decide, rfl, ?_⟩, by decide, rfl, ?_⟩
  · intro h
    exact (SingleThread.writesAtOnce_iff rfl (by decide)).mp h rfl
  · intro h
    exact (SingleThread.readsAtOnce_iff (by decide)).mp h rfl

end UsnetSockets
