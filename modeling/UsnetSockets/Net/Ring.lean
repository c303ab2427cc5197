import UsnetSockets.Net.StreamIo

/-!
# A stack with ring buffers

`Smoltcp.ring` is the TCP state machine of `Smoltcp.reference` with ring buffers in its sockets, so
that there is data to be read and written. It shows that the documented behaviour of the buffers can
be had, and serves as the stack of concrete calls.
-/

namespace UsnetSockets

/-- A ring buffer: its content begins at the place `readAt` of a storage of the given capacity. -/
structure Ring where
  capacity : ℕ
  readAt : ℕ
  content : List UInt8

namespace Ring

def empty (capacity : ℕ) : Ring := ⟨capacity, 0, []⟩

/-- The content up to the end of the storage. -/
def contiguous (r : Ring) : List UInt8 := r.content.take (r.capacity - r.readAt)

def writeAt (r : Ring) : ℕ := (r.readAt + r.content.length) % r.capacity

/-- The size of the free space up to the end of the storage or the begin of the content. -/
def window (r : Ring) : ℕ := min (r.capacity - r.content.length) (r.capacity - r.writeAt)

def dequeue (r : Ring) (n : ℕ) : Ring :=
  { r with readAt := (r.readAt + n) % r.capacity, content := r.content.drop n }

def enqueue (r : Ring) (bytes : List UInt8) : Ring := { r with content := r.content ++ bytes }

end Ring

/-- A TCP socket of `Smoltcp.ring`. -/
structure RingTcp where
  base : ReferenceTcp
  rx : Ring
  tx : Ring

namespace RingTcp

/-- A segment with data. What does not fit into the window is dropped, to be sent again. -/
def receive (t : RingTcp) (bytes : List UInt8) : RingTcp :=
  if t.base.state = .established then
    { t with rx := t.rx.enqueue (bytes.take (t.rx.capacity - t.rx.content.length)) }
  else t

theorem base_receive (t : RingTcp) (bytes : List UInt8) : (t.receive bytes).base = t.base := by
  rw [receive]
  split <;> rfl

theorem tx_receive (t : RingTcp) (bytes : List UInt8) : (t.receive bytes).tx = t.tx := by
  rw [receive]
  split <;> rfl

theorem rx_receive (t : RingTcp) (bytes : List UInt8) :
    t.rx.content <+: (t.receive bytes).rx.content := by
  rw [receive]
  split
  · exact List.prefix_append _ _
  · exact List.prefix_rfl

end RingTcp

/-- A segment for a TCP socket of `Smoltcp.ring`: one that does no more than change the state, one
with data, or an acknowledgement of a number of bytes. -/
inductive RingEvent where
  | segment (e : ReferenceEvent)
  | data (bytes : List UInt8)
  | acked (n : ℕ)

/-- The state machine of `Smoltcp.reference` with ring buffers. -/
def Smoltcp.ring : Smoltcp where
  Tcp := RingTcp
  Udp := Unit
  Event := RingEvent
  newTcp n := ⟨reference.newTcp n, .empty n, .empty n⟩
  listen t port := (reference.listen t.base port).map fun base ↦ { t with base := base }
  connect t addr port := (reference.connect t.base addr port).map fun base ↦ { t with base := base }
  setHopLimit t ttl := if ttl = some 0 then none else some t
  close t := { t with base := reference.close t.base }
  abort t := { t with base := reference.abort t.base }
  sendSlice t buf := { t with
    base := reference.sendSlice t.base buf
    tx := t.tx.enqueue (buf.take (t.tx.capacity - t.tx.content.length)) }
  send t f := { t with
    base := reference.send t.base f
    tx := t.tx.enqueue (f t.tx.window) }
  recvSlice t n := { t with rx := t.rx.dequeue n }
  recv t f := { t with rx := t.rx.dequeue (f t.rx.contiguous) }
  state t := t.base.state
  rxLen t := t.rx.content.length
  segmentDue t := t.base.due
  remoteEndpoint t := t.base.remote
  isActive t := !decide (t.base.state ∈ [.closed, .listen, .timeWait])
  mayRecv t := decide (t.base.state ∈ [.established, .finWait1, .finWait2]) ||
    decide (0 < t.rx.content.length)
  maySend t := decide (t.base.state ∈ [.established, .closeWait])
  canRecv t := decide (0 < t.rx.content.length)
  canSend t := decide (t.base.state ∈ [.established, .closeWait]) &&
    decide (t.tx.content.length < t.tx.capacity)
  newUdp _ := ()
  bindUdp _ port := if port = 0 then none else some ()
  canSendUdp _ := true
  sendUdp _ _ _ := ()
  canRecvUdp _ := false
  recvUdp _ _ := ()
  process e t :=
    match e with
    | .segment e => { t with base := reference.process e t.base }
    | .data bytes => t.receive bytes
    | .acked n => { t with tx := t.tx.dequeue n }
  processUdp _ u := u
  isRst e := e matches .segment .rst
  isFin e := e matches .segment .fin
  pollDelay sockets _ :=
    if sockets.any fun socket ↦ socket.elim (fun t ↦ t.base.due) fun _ ↦ false then some 0
    else none
  isActive_eq _ := rfl
  maySend_eq _ := rfl
  mayRecv_eq _ := rfl
  state_newTcp _ := rfl
  listen_isSome t port ht hp := by
    obtain ⟨base, hbase⟩ := Option.isSome_iff_exists.mp (reference.listen_isSome t.base port ht hp)
    exact Option.isSome_iff_exists.mpr ⟨_, Option.map_eq_some_iff.mpr ⟨base, hbase, rfl⟩⟩
  state_listen t port t' h := by
    obtain ⟨base, hbase, rfl⟩ := Option.map_eq_some_iff.mp h
    exact reference.state_listen t.base port base hbase
  state_connect t addr port t' h := by
    obtain ⟨base, hbase, rfl⟩ := Option.map_eq_some_iff.mp h
    exact reference.state_connect t.base addr port base hbase
  state_setHopLimit t ttl t' h := by
    split at h
    · exact absurd h (by simp)
    · rw [← Option.some.inj h]
  rxLen_setHopLimit t ttl t' h := by
    split at h
    · exact absurd h (by simp)
    · rw [← Option.some.inj h]
  state_close t := reference.state_close t.base
  state_abort t := reference.state_abort t.base
  state_sendSlice _ _ := rfl
  rxLen_sendSlice _ _ := rfl
  state_send _ _ := rfl
  rxLen_send _ _ := rfl
  state_recvSlice _ _ := rfl
  rxLen_recvSlice t n := by simp [Ring.dequeue]
  state_recv _ _ := rfl
  rxLen_recv t f := by simp [Ring.dequeue]
  bindUdp_isSome _ port hp := by simp [hp]
  state_process e t ht := by
    have hsame : t.base.state ∈ t.base.state.passiveNext false false := by
      simp only [TcpState.passive, List.mem_cons, List.not_mem_nil, or_false] at ht
      rcases ht with h | h | h | h <;> simp [h, TcpState.passiveNext]
    rcases e with e | bytes | n
    · have h := reference.state_process e t.base ht
      rcases e with remote | _ | len | _ | _ | _ <;> exact h
    · rw [t.base_receive]
      exact hsame
    · exact hsame
  rxLen_process e t _ := by
    rcases e with e | bytes | n
    · exact le_rfl
    · exact (t.rx_receive bytes).length_le
    · exact le_rfl
  pollDelay_of_segmentDue sockets now h := by
    obtain ⟨t, ht, hdue⟩ := h
    rw [if_pos]
    exact List.any_eq_true.mpr ⟨.inl t, ht, hdue⟩

/-- The buffers of `Smoltcp.ring`. What is left in the free space is taken to be zeros. -/
def Buffers.ring : Buffers Smoltcp.ring where
  rx t := t.rx.content
  tx t := t.tx.content
  received t := t.rx.contiguous
  free t := List.replicate t.tx.window 0
  length_rx _ := rfl
  received_prefix _ := List.take_prefix _ _
  rx_recv _ _ _ _ := rfl
  tx_recv _ _ := rfl
  tx_send t f _ _ := by
    rw [List.length_replicate]
    rfl
  rx_send _ _ := rfl
  rx_process e t := by
    left
    rcases e with e | bytes | n
    · exact List.prefix_rfl
    · exact RingTcp.rx_receive t bytes
    · exact List.prefix_rfl
  tx_process e t := by
    rcases e with e | bytes | n
    · exact List.suffix_rfl
    · exact (congrArg Ring.content (RingTcp.tx_receive t bytes)).symm ▸ List.suffix_rfl
    · exact List.drop_suffix _ _
  closed_process e t h := by
    have hbase : t.base.state = .closed := h
    rcases e with e | bytes | n
    · refine ⟨?_, .inl rfl⟩
      rcases e with remote | _ | len | _ | _ | _ <;>
        simp [Smoltcp.ring, Smoltcp.reference, hbase]
    · simp [Smoltcp.ring, RingTcp.receive, hbase]
    · exact ⟨h, .inl rfl⟩

end UsnetSockets
