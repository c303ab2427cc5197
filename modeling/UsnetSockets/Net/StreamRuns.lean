import UsnetSockets.Net.Evolution
import UsnetSockets.Net.Ring
import UsnetSockets.Transition.Flow

/-!
# The data of the streams over whole runs

The bytes of a connection go through four places: the stack appends what arrives to the receive
buffer, `read` takes from it, `write` appends to the transmit buffer, and the stack takes from it
what the peer has acknowledged. A log next to the state of the system has what each of these
critical sections moved, under the number of the socket: for calls of the application the number
that its handle was made for, for the stack the number of the socket in the slot.

Slots are used again, handles are shared by clones, and the calls of all threads are interleaved.
Still, for each stream that the application holds, the log and the buffers balance in every state of
every run: what has arrived is what has been read followed by what is in the receive buffer, and
what has been written is what has left followed by what is in the transmit buffer. The only bytes
that are lost are those that the stack drops when it forgets a connection, and the socket is closed
from then on.
-/

namespace UsnetSockets

/-- What is in the buffers of the TCP sockets, with the documented behaviour of the calls and of a
poll of the interface. -/
structure Smoltcp.Streams (T : Smoltcp) where
  /-- The content of the receive buffer. -/
  rx : T.Tcp → List UInt8
  /-- The content of the transmit buffer. -/
  tx : T.Tcp → List UInt8
  /-- The contiguous received data that `recv` passes to its closure. -/
  received : T.Tcp → List UInt8
  /-- The size of the free space in the transmit buffer. -/
  room : T.Tcp → ℕ
  /-- The size of the contiguous free space that `send` passes to its closure. -/
  window : T.Tcp → ℕ
  received_prefix : ∀ t, received t <+: rx t
  empty_newTcp : ∀ n, rx (T.newTcp n) = [] ∧ tx (T.newTcp n) = []
  empty_listen : ∀ t port t', rx t = [] ∧ tx t = [] → T.listen t port = some t' →
    rx t' = [] ∧ tx t' = []
  empty_connect : ∀ t addr port t', rx t = [] ∧ tx t = [] → T.connect t addr port = some t' →
    rx t' = [] ∧ tx t' = []
  same_setHopLimit : ∀ t ttl t', T.setHopLimit t ttl = some t' → rx t' = rx t ∧ tx t' = tx t
  same_close : ∀ t, rx (T.close t) = rx t ∧ tx (T.close t) = tx t
  same_abort : ∀ t, rx (T.abort t) = rx t ∧ tx (T.abort t) = tx t
  rx_recvSlice : ∀ t n, T.mayRecv t → rx (T.recvSlice t n) = (rx t).drop n
  tx_recvSlice : ∀ t n, tx (T.recvSlice t n) = tx t
  rx_recv : ∀ t f, T.mayRecv t → f (received t) ≤ (received t).length →
    rx (T.recv t f) = (rx t).drop (f (received t))
  tx_recv : ∀ t f, tx (T.recv t f) = tx t
  tx_sendSlice : ∀ t buf, T.maySend t → tx (T.sendSlice t buf) = tx t ++ buf.take (room t)
  rx_sendSlice : ∀ t buf, rx (T.sendSlice t buf) = rx t
  tx_send : ∀ t f, T.maySend t → (f (window t)).length ≤ window t →
    tx (T.send t f) = tx t ++ f (window t)
  rx_send : ∀ t f, rx (T.send t f) = rx t
  /-- New data is appended to what has been received, or the connection is forgotten. -/
  rx_process : ∀ e t, rx t <+: rx (T.process e t) ∨
    (rx (T.process e t) = [] ∧ T.state (T.process e t) = .closed)
  /-- What the peer has acknowledged is removed. -/
  tx_process : ∀ e t, tx (T.process e t) <:+ tx t
  /-- A closed socket receives nothing. -/
  closed_process : ∀ e t, T.state t = .closed → T.state (T.process e t) = .closed ∧
    (rx (T.process e t) = rx t ∨ rx (T.process e t) = [])

/-- The streams of `Smoltcp.ring`. -/
def Smoltcp.ringStreams : Smoltcp.ring.Streams where
  rx t := t.rx.content
  tx t := t.tx.content
  received t := t.rx.contiguous
  room t := t.tx.capacity - t.tx.content.length
  window t := t.tx.window
  received_prefix := Buffers.ring.received_prefix
  empty_newTcp _ := ⟨rfl, rfl⟩
  empty_listen t port t' ht h := by
    obtain ⟨base, -, rfl⟩ := Option.map_eq_some_iff.mp h
    exact ht
  empty_connect t addr port t' ht h := by
    obtain ⟨base, -, rfl⟩ := Option.map_eq_some_iff.mp h
    exact ht
  same_setHopLimit t ttl t' h := by
    simp only [ring] at h
    split at h
    · exact absurd h (by simp)
    · rw [← Option.some.inj h]
      exact ⟨rfl, rfl⟩
  same_close _ := ⟨rfl, rfl⟩
  same_abort _ := ⟨rfl, rfl⟩
  rx_recvSlice _ _ _ := rfl
  tx_recvSlice _ _ := rfl
  rx_recv := Buffers.ring.rx_recv
  tx_recv := Buffers.ring.tx_recv
  tx_sendSlice _ _ _ := rfl
  rx_sendSlice _ _ := rfl
  tx_send _ _ _ _ := rfl
  rx_send := Buffers.ring.rx_send
  rx_process := Buffers.ring.rx_process
  tx_process := Buffers.ring.tx_process
  closed_process := Buffers.ring.closed_process

/-! ## The log -/

/-- What has happened to bytes of a connection. -/
inductive Passage where
  /-- They were appended to the receive buffer. -/
  | arrived
  /-- They were given to a caller of `read`. -/
  | read
  /-- They were in the receive buffer of a connection that the stack forgot. -/
  | dropped
  /-- They were taken from a caller of `write`. -/
  | written
  /-- They left the transmit buffer. -/
  | left
  deriving DecidableEq

structure StreamEvent where
  passage : Passage
  uid : ℕ
  bytes : List UInt8

/-- The bytes of one socket that have made a passage, in order. -/
def bytesOf (p : Passage) (u : ℕ) (log : List StreamEvent) : List UInt8 :=
  log.flatMap fun e ↦ if e.passage = p ∧ e.uid = u then e.bytes else []

section Log

variable {p : Passage} {u : ℕ} {log log' : List StreamEvent}

@[simp] theorem bytesOf_nil : bytesOf p u [] = [] := rfl

@[simp] theorem bytesOf_append : bytesOf p u (log ++ log') = bytesOf p u log ++ bytesOf p u log' :=
  List.flatMap_append

@[simp] theorem bytesOf_cons (e : StreamEvent) : bytesOf p u (e :: log) =
    (if e.passage = p ∧ e.uid = u then e.bytes else []) ++ bytesOf p u log := rfl

/-- What has happened to other sockets does not count. -/
theorem bytesOf_of_ne (h : ∀ e ∈ log, e.uid ≠ u) : bytesOf p u log = [] := by
  induction log with
  | nil => rfl
  | cons e log ih =>
    rw [List.forall_mem_cons] at h
    rw [bytesOf_cons, ih h.2, if_neg fun he ↦ h.1 he.2, List.append_nil]

end Log

namespace Smoltcp.Streams

variable {T : Smoltcp} (B : T.Streams)

/-- What one event of a poll does to the data of a socket. When the receive buffer has not grown,
the connection has been forgotten with what was in it. -/
def eventsOfProcess (u : ℕ) (e : T.Event) (t : T.Tcp) : List StreamEvent :=
  let rx := B.rx (T.process e t)
  [if B.rx t <+: rx then ⟨.arrived, u, rx.drop (B.rx t).length⟩ else ⟨.dropped, u, B.rx t⟩,
    ⟨.left, u, (B.tx t).take ((B.tx t).length - (B.tx (T.process e t)).length)⟩]

/-- What a poll does to the data of all sockets. -/
def eventsOfPoll : List (ℕ × T.Event) → SocketSet T → List StreamEvent
  | [], _ => []
  | e :: es, S =>
    (match S.slots e.1 with
      | some ⟨u, _, .inl t⟩ => B.eventsOfProcess u e.2 t
      | _ => []) ++ eventsOfPoll es (S.modify e.1 (SocketSet.processItem e.2))

/-- What a section of `read` or `write` moves, when it gets to its end. -/
def eventsOfCall (s : State T) (i : ℕ) (ready : T.Tcp → Bool) (p : Passage)
    (bytes : T.Tcp → List UInt8) : List StreamEvent :=
  match s.objects[i]? with
  | some (.stream h) =>
    match s.net.sockets.getTcp h with
    | some t => if ready t then [⟨p, h.uid, bytes t⟩] else []
    | none => []
  | _ => []

/-- What a critical section does to the data of the streams. The bytes of `read` are those that its
caller gets, and the bytes of `write` those whose number its caller is told. -/
def events (s : State T) (a : Action T) : List StreamEvent :=
  match a with
  | .read i len =>
    eventsOfCall s i (fun t ↦ T.mayRecv t && T.canRecv t) .read fun t ↦ (B.rx t).take len
  | .readNoCopy i f =>
    eventsOfCall s i (fun t ↦ T.mayRecv t && T.canRecv t) .read fun t ↦
      (B.received t).take (f (B.received t))
  | .write i buf =>
    eventsOfCall s i (fun t ↦ T.maySend t && T.canSend t) .written fun t ↦ buf.take (B.room t)
  | .writeNoCopy i f =>
    eventsOfCall s i (fun t ↦ T.maySend t && T.canSend t) .written fun t ↦ f (B.window t)
  | .bgSecond events => B.eventsOfPoll events s.net.sockets
  | _ => []

end Smoltcp.Streams

/-- The critical sections that move the data of streams. -/
def Action.MovesData {T : Smoltcp} : Action T → Prop
  | .write _ _ | .writeNoCopy _ _ | .read _ _ | .readNoCopy _ _ | .bgSecond _ => True
  | _ => False

/-- The closures of `read_no_copy` and `write_no_copy` stay within what they are given. Otherwise
smoltcp panics. -/
def Action.ClosuresFit {T : Smoltcp} : Action T → Prop
  | .readNoCopy _ f => ∀ data, f data ≤ data.length
  | .writeNoCopy _ f => ∀ n, (f n).length ≤ n
  | _ => True

/-! ## The balance -/

namespace Smoltcp.Streams

variable {T : Smoltcp} {B : T.Streams} {S S' : SocketSet T} {log evs : List StreamEvent} {u : ℕ}
  {t t' : T.Tcp}

/-- The log and the buffers of one socket balance. -/
structure Balanced (B : T.Streams) (log : List StreamEvent) (u : ℕ) (t : T.Tcp) : Prop where
  reading : bytesOf .arrived u log = bytesOf .read u log ++ bytesOf .dropped u log ++ B.rx t
  writing : bytesOf .written u log = bytesOf .left u log ++ B.tx t
  closed : bytesOf .dropped u log ≠ [] → B.rx t = [] ∧ T.state t = .closed

/-- The log is right for all sockets of the set, and for those that have been there. -/
structure Accounts (B : T.Streams) (S : SocketSet T) (log : List StreamEvent) : Prop where
  numbered : S.Numbered
  balanced : ∀ i item t, S.slots i = some item → item.socket = .inl t → B.Balanced log item.uid t
  uid_lt : ∀ e ∈ log, e.uid < S.added
  read_prefix : ∀ u, bytesOf .read u log ++ bytesOf .dropped u log <+: bytesOf .arrived u log
  left_prefix : ∀ u, bytesOf .left u log <+: bytesOf .written u log

/-- What the calls that move no data keep: the content, and that a socket is closed. -/
structure Leads (B : T.Streams) (t t' : T.Tcp) : Prop where
  rx_eq : B.rx t' = B.rx t
  tx_eq : B.tx t' = B.tx t
  closed : T.state t = .closed → T.state t' = .closed

theorem Leads.refl (t : T.Tcp) : B.Leads t t := ⟨rfl, rfl, id⟩

theorem Leads.trans {t'' : T.Tcp} (h : B.Leads t t') (h' : B.Leads t' t'') : B.Leads t t'' :=
  ⟨h'.rx_eq.trans h.rx_eq, h'.tx_eq.trans h.tx_eq, h'.closed ∘ h.closed⟩

theorem leads_of_does {a : Action T} (ha : ¬a.MovesData) (h : a.Does (.inl t) (.inl t')) :
    B.Leads t t' := by
  cases h with
  | close => exact ⟨(B.same_close t).1, (B.same_close t).2, fun hc ↦ by rw [T.state_close, hc]; rfl⟩
  | abort => exact ⟨(B.same_abort t).1, (B.same_abort t).2, fun _ ↦ T.state_abort t⟩
  | setHopLimit _ h =>
    exact ⟨(B.same_setHopLimit _ _ _ h).1, (B.same_setHopLimit _ _ _ h).2,
      fun hc ↦ (T.state_setHopLimit _ _ _ h).trans hc⟩
  | sendSlice he => exact absurd (he ▸ trivial) ha
  | send he => exact absurd (he ▸ trivial) ha
  | recvSlice he => exact absurd (he ▸ trivial) ha
  | recv he => exact absurd (he ▸ trivial) ha
  | process he => exact absurd (he ▸ trivial) ha

/-- New sockets have no data. -/
theorem empty_of_makes {cfg : Config} {s : State T} {a : Action T} (h : s.Makes cfg a (.inl t)) :
    B.rx t = [] ∧ B.tx t = [] := by
  cases h with
  | binds _ _ hlisten => exact B.empty_listen _ _ _ (B.empty_newTcp _) hlisten
  | accepts _ _ hlisten =>
    obtain ⟨t₀, hhop, hlisten⟩ := Option.bind_eq_some_iff.mp hlisten
    obtain ⟨hrx, htx⟩ := B.same_setHopLimit _ _ _ hhop
    exact B.empty_listen _ _ _ ⟨hrx.trans (B.empty_newTcp _).1, htx.trans (B.empty_newTcp _).2⟩
      hlisten
  | loses => exact B.empty_newTcp _
  | connects _ _ _ _ _ hconnect => exact B.empty_connect _ _ _ _ (B.empty_newTcp _) hconnect
  | refused => exact B.empty_newTcp _

theorem accounts_empty : B.Accounts .empty [] :=
  ⟨SocketSet.numbered_empty, fun i item t h ↦ absurd h (by simp [SocketSet.empty]), by simp,
    fun _ ↦ List.prefix_rfl, fun _ ↦ List.prefix_rfl⟩

/-- Where no data moves the log stays right. A new socket has a number that is not in it. -/
theorem Accounts.evolves {cfg : Config} {s : State T} {a : Action T} (h : B.Accounts S log)
    (ha : ¬a.MovesData) (hev : s.Grows cfg a S S') : B.Accounts S' log := by
  refine ⟨hev.numbered h.numbered, fun i item t hitem ht ↦ ?_,
    fun e he ↦ (h.uid_lt e he).trans_le hev.added_le, h.read_prefix, h.left_prefix⟩
  have hleads {x : T.Tcp ⊕ T.Udp} (hx : Relation.ReflTransGen a.Does x item.socket) :
      ∃ t₀, x = .inl t₀ ∧ B.Leads t₀ t :=
    Action.Does.of_reflTransGen .refl (fun _ _ _ ↦ .trans) (fun _ _ ↦ leads_of_does ha) hx ht
  obtain ⟨item₀, hitem₀, huid, hdoes⟩ | ⟨hnew, x, hx, hdoes⟩ := hev.comes i item hitem
  · obtain ⟨t₀, ht₀, hrx, htx, hclosed⟩ := hleads hdoes
    have hbal := h.balanced i item₀ t₀ hitem₀ ht₀
    rw [huid] at hbal
    exact ⟨hrx ▸ hbal.reading, htx ▸ hbal.writing, fun hd ↦
      ⟨hrx.trans (hbal.closed hd).1, hclosed (hbal.closed hd).2⟩⟩
  · obtain ⟨t₀, rfl, hrx, htx, -⟩ := hleads hdoes
    obtain ⟨hrx₀, htx₀⟩ := empty_of_makes (B := B) hx
    have hnone (p : Passage) : bytesOf p item.uid log = [] :=
      bytesOf_of_ne fun e he ↦ ((h.uid_lt e he).trans_le hnew).ne
    exact ⟨by simp [hnone, hrx, hrx₀], by simp [hnone, htx, htx₀], fun hd ↦ absurd (hnone _) hd⟩

/-- A change of a slot without a TCP socket. -/
theorem Accounts.modify_udp (h : B.Accounts S log) {i : ℕ} {f : Item T → Item T}
    (hf : ∀ item, S.slots i = some item → ∀ t, (f item).socket ≠ .inl t)
    (huid : ∀ item, (f item).uid = item.uid) : B.Accounts (S.modify i f) log := by
  refine ⟨h.numbered.of_slots le_rfl (SocketSet.uid_slots_modify huid), ?_, h.uid_lt,
    h.read_prefix, h.left_prefix⟩
  intro j item' t hitem' ht
  rw [SocketSet.slots_modify] at hitem'
  split at hitem'
  · next hj =>
    subst hj
    obtain ⟨item, hitem, rfl⟩ := Option.map_eq_some_iff.mp hitem'
    exact absurd ht (hf item hitem t)
  · exact h.balanced j item' t hitem' ht

/-- Data of one socket moves. -/
theorem Accounts.moves (h : B.Accounts S log) {i : ℕ} {item : Item T} (hi : S.slots i = some item)
    {f : Item T → Item T} (hf : f item = { item with socket := .inl t' })
    (hevs : ∀ e ∈ evs, e.uid = item.uid) (hbal : B.Balanced (log ++ evs) item.uid t')
    (huid : ∀ item, (f item).uid = item.uid) :
    B.Accounts (S.modify i f) (log ++ evs) := by
  have hother {u : ℕ} (hu : u ≠ item.uid) (p : Passage) :
      bytesOf p u (log ++ evs) = bytesOf p u log := by
    rw [bytesOf_append, bytesOf_of_ne fun e he ↦ (hevs e he).trans_ne hu.symm, List.append_nil]
  refine ⟨h.numbered.of_slots le_rfl (SocketSet.uid_slots_modify huid), ?_, ?_, ?_, ?_⟩
  · intro j item' t hitem' ht
    rw [SocketSet.slots_modify] at hitem'
    split at hitem'
    · next hj =>
      rw [hj, hi, Option.map_some, hf, Option.some_inj] at hitem'
      subst hitem'
      obtain rfl : t' = t := Sum.inl.inj ht
      exact hbal
    · next hj =>
      have hne : item'.uid ≠ item.uid := fun heq ↦ hj (h.numbered.inj j i item' item hitem' hi heq)
      have hold := h.balanced j item' t hitem' ht
      exact ⟨by simpa only [hother hne] using hold.reading,
        by simpa only [hother hne] using hold.writing,
        by simpa only [hother hne] using hold.closed⟩
  · intro e he
    rcases List.mem_append.mp he with he | he
    · exact h.uid_lt e he
    · exact hevs e he ▸ h.numbered.uid_lt i item hi
  · intro u
    by_cases hu : u = item.uid
    · exact ⟨_, hu ▸ hbal.reading.symm⟩
    · simpa only [hother hu] using h.read_prefix u
  · intro u
    by_cases hu : u = item.uid
    · exact ⟨_, hu ▸ hbal.writing.symm⟩
    · simpa only [hother hu] using h.left_prefix u

/-! ## One poll -/

/-- One event of a poll. -/
theorem Balanced.process (h : B.Balanced log u t) (e : T.Event) :
    B.Balanced (log ++ B.eventsOfProcess u e t) u (T.process e t) := by
  have htx : B.tx t = (B.tx t).take ((B.tx t).length - (B.tx (T.process e t)).length) ++
      B.tx (T.process e t) := by
    simpa [Flow] using Flow.of_suffix (B.tx_process e t)
  by_cases hgrown : B.rx t <+: B.rx (T.process e t)
  · have hrx : B.rx t ++ (B.rx (T.process e t)).drop (B.rx t).length = B.rx (T.process e t) := by
      simpa [Flow] using Flow.of_prefix hgrown
    constructor
    · simp only [eventsOfProcess, if_pos hgrown]
      simp [h.reading, hrx]
    · simp only [eventsOfProcess, if_pos hgrown]
      simp [h.writing, ← htx]
    · intro hd
      have hold : bytesOf .dropped u log ≠ [] := by
        simpa [eventsOfProcess, if_pos hgrown] using hd
      obtain ⟨hnil, hclosed⟩ := h.closed hold
      obtain ⟨hstill, hrx' | hrx'⟩ := B.closed_process e t hclosed
      · exact ⟨hrx'.trans hnil, hstill⟩
      · exact ⟨hrx', hstill⟩
  · obtain ⟨hnil, hclosed⟩ := (B.rx_process e t).resolve_left hgrown
    constructor
    · simp only [eventsOfProcess, if_neg hgrown]
      simp [h.reading, hnil]
    · simp only [eventsOfProcess, if_neg hgrown]
      simp [h.writing, ← htx]
    · exact fun _ ↦ ⟨hnil, hclosed⟩

/-- A whole poll. -/
theorem Accounts.poll (events : List (ℕ × T.Event)) (h : B.Accounts S log) :
    B.Accounts (S.process events) (log ++ B.eventsOfPoll events S) := by
  induction events generalizing S log with
  | nil => simpa [SocketSet.process, eventsOfPoll] using h
  | cons e events ih =>
    have hone : B.Accounts (S.modify e.1 (SocketSet.processItem e.2)) (log ++
        match S.slots e.1 with
        | some ⟨u, _, .inl t⟩ => B.eventsOfProcess u e.2 t
        | _ => []) := by
      split
      · next u refs t hitem =>
        refine h.moves hitem rfl (fun ev hev ↦ ?_) ((h.balanced e.1 _ t hitem rfl).process e.2)
          fun _ ↦ rfl
        rw [eventsOfProcess] at hev
        split at hev <;> simp only [List.mem_cons, List.not_mem_nil, or_false] at hev <;>
          obtain rfl | rfl := hev <;> rfl
      · next hno =>
        rw [List.append_nil]
        refine h.modify_udp (fun item hitem t ht ↦ ?_) fun _ ↦ rfl
        rcases hsocket : item.socket with t₀ | u₀
        · exact absurd (by rw [hitem, ← hsocket]) (hno item.uid item.refs t₀)
        · simp [SocketSet.processItem, hsocket] at ht
    have hrest := ih hone
    rwa [List.append_assoc] at hrest

/-! ## Reading and writing -/

/-- Bytes are read. -/
theorem Balanced.reads (h : B.Balanced log u t) {n : ℕ} (hrx : B.rx t' = (B.rx t).drop n)
    (htx : B.tx t' = B.tx t) (hstate : T.state t' = T.state t) :
    B.Balanced (log ++ [⟨.read, u, (B.rx t).take n⟩]) u t' := by
  by_cases hd : bytesOf .dropped u log = []
  · exact ⟨by simp [h.reading, hd, hrx], by simp [h.writing, htx], fun hd' ↦
      absurd hd (by simpa using hd')⟩
  · -- nothing is left to be read
    obtain ⟨hnil, hclosed⟩ := h.closed hd
    exact ⟨by simp [h.reading, hnil, hrx], by simp [h.writing, htx], fun _ ↦
      ⟨by simp [hrx, hnil], hstate.trans hclosed⟩⟩

/-- Bytes are written. -/
theorem Balanced.writes (h : B.Balanced log u t) {bytes : List UInt8}
    (htx : B.tx t' = B.tx t ++ bytes) (hrx : B.rx t' = B.rx t) (hstate : T.state t' = T.state t) :
    B.Balanced (log ++ [⟨.written, u, bytes⟩]) u t' :=
  ⟨by simp [h.reading, hrx], by simp [h.writing, htx], fun hd ↦ by
    simpa [hrx, hstate] using h.closed (by simpa using hd)⟩

end Smoltcp.Streams

namespace State

open Transition SocketSet

variable {T : Smoltcp} {cfg : Config} {B : T.Streams} {s s' : State T} {c : Change T} {a : Action T}
  {log : List StreamEvent} {P : Bool → TcpState → ℕ → Prop}

/-- The socket of a stream has the number that its handle was made for. -/
theorem exists_item_of_stream {i : ℕ} {x : SocketHandle} {t : T.Tcp}
    (hs : Kept P s.net.sockets s.objects) (hi : s.objects[i]? = some (.stream x))
    (ht : s.net.sockets.getTcp x = some t) : ∃ item, s.net.sockets.slots x.index = some item ∧
      item.socket = .inl t ∧ item.uid = x.uid := by
  obtain ⟨item, hitem, huid, -, -⟩ := hs.backs _ (mem_holdings hi List.mem_cons_self)
  obtain ⟨item', hitem', ht'⟩ := getTcp_eq_some ht
  obtain rfl := Option.some.inj (hitem.symm.trans hitem')
  exact ⟨item, hitem, ht', huid⟩

/-- A section of a call that moves data of its stream, or finds that it cannot. -/
private theorem accounts_call {i : ℕ} {ready : T.Tcp → Bool} {p : Passage} {x : SocketHandle}
    {bytes : T.Tcp → List UInt8} {f : T.Tcp → T.Tcp} {S : SocketSet T}
    (hs : Kept P s.net.sockets s.objects) (hlog : B.Accounts s.net.sockets log)
    (hi : s.objects[i]? = some (.stream x))
    (hmoves : ∀ t, ready t = true → B.Balanced log x.uid t →
      B.Balanced (log ++ [⟨p, x.uid, bytes t⟩]) x.uid (f t))
    (hc : (s.net.sockets.getTcp x = none ∧ S = s.net.sockets) ∨
      ∃ t, s.net.sockets.getTcp x = some t ∧
        ((ready t = true ∧ S = s.net.sockets.setSocket x (.inl (f t))) ∨
        (ready t = false ∧ S = s.net.sockets))) :
    B.Accounts S (log ++ Smoltcp.Streams.eventsOfCall s i ready p bytes) := by
  obtain ⟨hnone, rfl⟩ | ⟨t, ht, ⟨hready, rfl⟩ | ⟨hready, rfl⟩⟩ := hc
  · simpa [Smoltcp.Streams.eventsOfCall, hi, hnone] using hlog
  · obtain ⟨item, hitem, hsocket, huid⟩ := exists_item_of_stream hs hi ht
    have hbal := hlog.balanced _ item t hitem hsocket
    simp only [Smoltcp.Streams.eventsOfCall, hi, ht, hready, if_true]
    refine hlog.moves hitem rfl ?_ (huid ▸ hmoves t hready (huid ▸ hbal)) fun _ ↦ rfl
    intro e he
    rw [List.mem_singleton] at he
    rw [he, huid]
  · simpa [Smoltcp.Streams.eventsOfCall, hi, ht, hready] using hlog

private theorem accounts_readWith {i : ℕ} {recv : T.Tcp → T.Tcp} {bytes : T.Tcp → List UInt8}
    {n : T.Tcp → ℕ} (hs : Kept P s.net.sockets s.objects) (hlog : B.Accounts s.net.sockets log)
    (hrx : ∀ t, T.mayRecv t → B.rx (recv t) = (B.rx t).drop (n t))
    (htx : ∀ t, B.tx (recv t) = B.tx t) (hstate : ∀ t, T.state (recv t) = T.state t)
    (hbytes : ∀ t, bytes t = (B.rx t).take (n t)) (h : s.readWith i recv = some c) :
    B.Accounts c.sockets (log ++
      Smoltcp.Streams.eventsOfCall s i (fun t ↦ T.mayRecv t && T.canRecv t) .read bytes) := by
  obtain ⟨x, hi, hc⟩ := readWith_cases h
  refine accounts_call (f := recv) hs hlog hi (fun t hready hbal ↦ ?_) ?_
  · rw [Bool.and_eq_true] at hready
    rw [hbytes]
    exact hbal.reads (hrx t hready.1) (htx t) (hstate t)
  · obtain ⟨hnone, rfl⟩ | ⟨t, ht, ⟨hready, rfl⟩ | ⟨hready, rfl⟩⟩ := hc
    · exact .inl ⟨hnone, rfl⟩
    · exact .inr ⟨t, ht, .inl ⟨hready, rfl⟩⟩
    · exact .inr ⟨t, ht, .inr ⟨hready, rfl⟩⟩

private theorem accounts_writeWith {i : ℕ} {send : T.Tcp → T.Tcp} {bytes : T.Tcp → List UInt8}
    (hs : Kept P s.net.sockets s.objects) (hlog : B.Accounts s.net.sockets log)
    (htx : ∀ t, T.maySend t → B.tx (send t) = B.tx t ++ bytes t)
    (hrx : ∀ t, B.rx (send t) = B.rx t) (hstate : ∀ t, T.state (send t) = T.state t)
    (h : s.writeWith i send = some c) :
    B.Accounts c.sockets (log ++
      Smoltcp.Streams.eventsOfCall s i (fun t ↦ T.maySend t && T.canSend t) .written bytes) := by
  obtain ⟨x, hi, hc⟩ := writeWith_cases h
  refine accounts_call (f := send) hs hlog hi (fun t hready hbal ↦ ?_) ?_
  · rw [Bool.and_eq_true] at hready
    exact hbal.writes (htx t hready.1) (hrx t) (hstate t)
  · obtain ⟨hnone, rfl⟩ | ⟨t, ht, ⟨hready, rfl⟩ | ⟨hready, rfl⟩⟩ := hc
    · exact .inl ⟨hnone, rfl⟩
    · exact .inr ⟨t, ht, .inl ⟨hready, rfl⟩⟩
    · exact .inr ⟨t, ht, .inr ⟨hready, rfl⟩⟩

/-- Every critical section of the application keeps the log right. -/
theorem accounts_of_change (hs : Kept P s.net.sockets s.objects)
    (hlog : B.Accounts s.net.sockets log) (ha : a.ClosuresFit) (h : s.change cfg a = some c) :
    B.Accounts c.sockets (log ++ B.events s a) := by
  by_cases hmoves : a.MovesData
  · cases a with
    | read i len =>
      exact accounts_readWith hs hlog (fun t ht ↦ B.rx_recvSlice t len ht)
        (fun t ↦ B.tx_recvSlice t len) (fun t ↦ T.state_recvSlice t len) (fun _ ↦ rfl) h
    | readNoCopy i f =>
      refine accounts_readWith hs hlog (fun t ht ↦ B.rx_recv t f ht (ha _))
        (fun t ↦ B.tx_recv t f) (fun t ↦ T.state_recv t f) (fun t ↦ ?_) h
      obtain ⟨rest, hrest⟩ := B.received_prefix t
      rw [← hrest, List.take_append_of_le_length (ha _)]
    | write i buf =>
      exact accounts_writeWith hs hlog (fun t ht ↦ B.tx_sendSlice t buf ht)
        (fun t ↦ B.rx_sendSlice t buf) (fun t ↦ T.state_sendSlice t buf) h
    | writeNoCopy i f =>
      exact accounts_writeWith hs hlog (fun t ht ↦ B.tx_send t f ht (ha _))
        (fun t ↦ B.rx_send t f) (fun t ↦ T.state_send t f) h
    | bgSecond events => exact absurd h (by simp [change])
    | _ => exact absurd hmoves id
  · have hevents : B.events s a = [] := by
      cases a with
      | bgSecond events => exact absurd h (by simp [change])
      | read i len => exact absurd trivial hmoves
      | readNoCopy i f => exact absurd trivial hmoves
      | write i buf => exact absurd trivial hmoves
      | writeNoCopy i f => exact absurd trivial hmoves
      | _ => rfl
    rw [hevents, List.append_nil]
    exact hlog.evolves hmoves (evolves_of_change h)

/-- **Every step keeps the log right.** -/
theorem accounts_of_step (hs : Kept P s.net.sockets s.objects)
    (hlog : B.Accounts s.net.sockets log) (ha : a.ClosuresFit) (h : s.step cfg a = some s') :
    B.Accounts s'.net.sockets (log ++ B.events s a) := by
  rcases step_cases h with ⟨now, rfl, h⟩ | ⟨ok, rfl, h⟩ | ⟨events, rfl, h⟩ | ⟨c, hc, rfl⟩
  · obtain ⟨-, ⟨-, rfl⟩ | ⟨fdsExtra, -, rfl⟩⟩ := bgFirst_cases h
    · simpa [Smoltcp.Streams.events] using hlog
    · simpa [Smoltcp.Streams.events] using hlog
  · obtain ⟨-, rfl⟩ := bgPoll_cases h
    simpa [Smoltcp.Streams.events] using hlog
  · obtain ⟨-, rfl⟩ := bgSecond_cases h
    exact hlog.poll events
  · rw [sockets_apply]
    exact accounts_of_change hs hlog ha hc

/-- A state with the log of its streams. -/
def stepLogged (cfg : Config) (B : T.Streams) :
    State T × List StreamEvent → Action T → Option (State T × List StreamEvent) :=
  logged (step cfg) B.events

theorem accounts_of_run {as : List (Action T)} (ha : ∀ a ∈ as, a.ClosuresFit)
    (hrun : run (stepLogged cfg B) (initial, []) as = some (s, log)) :
    Kept (fun _ _ _ ↦ True) s.net.sockets s.objects ∧ B.Accounts s.net.sockets log := by
  refine invariant_of_along
    (I := fun x : State T × List StreamEvent ↦
      Kept (fun _ _ _ ↦ True) x.1.net.sockets x.1.objects ∧ B.Accounts x.1.net.sockets x.2)
    (C := fun _ a ↦ a.ClosuresFit) ?_ ⟨kept_initial, Smoltcp.Streams.accounts_empty⟩
    (along_of_forall ha _) hrun
  rintro ⟨s, log⟩ a y ⟨hkept, hlog⟩ hfit hstep
  obtain ⟨s', hs', rfl⟩ := logged_eq_some.mp hstep
  exact ⟨hkept.counted hs', accounts_of_step hkept hlog hfit hs'⟩

/-- **The data of all streams over all runs.** However the calls of all threads and the polls of the
stack are interleaved: of each socket there ever was, what has been read is the beginning of what
has arrived, and what has left is the beginning of what has been written; and for each stream that
the application holds, what has arrived is what its clones have read, then what the stack dropped
when it forgot the connection, then what is in the receive buffer, and what has been written is what
has left and then what is in the transmit buffer. -/
theorem streams_balanced {as : List (Action T)} (ha : ∀ a ∈ as, a.ClosuresFit)
    (hrun : run (stepLogged cfg B) (initial, []) as = some (s, log)) :
    (∀ u, bytesOf .read u log <+: bytesOf .arrived u log ∧
      bytesOf .left u log <+: bytesOf .written u log) ∧
    ∀ (i : ℕ) (h : SocketHandle), s.objects[i]? = some (.stream h) →
      ∃ t, s.net.sockets.getTcp h = some t ∧
      bytesOf .arrived h.uid log =
        bytesOf .read h.uid log ++ bytesOf .dropped h.uid log ++ B.rx t ∧
      bytesOf .written h.uid log = bytesOf .left h.uid log ++ B.tx t ∧
      (bytesOf .dropped h.uid log ≠ [] → B.rx t = [] ∧ T.state t = .closed) := by
  obtain ⟨hkept, hlog⟩ := accounts_of_run ha hrun
  refine ⟨fun u ↦ ⟨(List.prefix_append _ _).trans (hlog.read_prefix u), hlog.left_prefix u⟩, ?_⟩
  intro i h hi
  obtain ⟨t, ht⟩ := Owned.getTcp_isSome hkept (mem_holdings hi List.mem_cons_self) rfl
  obtain ⟨item, hitem, hsocket, huid⟩ := exists_item_of_stream hkept hi ht
  have hbal := hlog.balanced _ item t hitem hsocket
  rw [huid] at hbal
  exact ⟨t, ht, hbal.reading, hbal.writing, hbal.closed⟩

/-- The first connection is accepted and its stream cloned. What has arrived is read through one of
the two and then through the other, while data arrives for a second connection in another slot. -/
def readThroughClones : List (Action .ring) :=
  [.bind [.granted ⟨.v4 10 0 0 2, 8080⟩ 7] [0], .bgFirst 0, .bgPoll true,
    .bgSecond [(0, .segment (.syn ⟨.v4 10 0 0 9, 4000⟩)), (0, .segment .ack), (0, .data [1, 2, 3])],
    .setNonblocking 0 true, .accept 0, .acceptCheck 0 false, .acceptReplace 0 1, .tryClone 1,
    .read 1 2, .bgFirst 0, .bgPoll true,
    .bgSecond [(1, .segment (.syn ⟨.v4 10 0 0 8, 4000⟩)), (1, .segment .ack), (1, .data [9]),
      (0, .data [4, 5])],
    .read 2 2, .write 2 [6, 7], .dropStream 1]

theorem streams_balanced_readThroughClones : ∃ s log,
    run (stepLogged .reference Smoltcp.ringStreams) (initial, []) readThroughClones =
      some (s, log) ∧
    bytesOf .read 0 log = [1, 2, 3, 4] ∧ bytesOf .arrived 0 log = [1, 2, 3, 4, 5] ∧
    bytesOf .written 0 log = [6, 7] ∧ bytesOf .arrived 1 log = [9] ∧
    ∃ t, s.net.sockets.getTcp ⟨0, 0⟩ = some t ∧ t.rx.content = [5] ∧ t.tx.content = [6, 7] := by
  obtain ⟨⟨s, log⟩, hrun, hlog⟩ := Option.map_eq_some_iff.mp (show
    (run (stepLogged .reference Smoltcp.ringStreams) (initial, []) readThroughClones).map
      (fun x ↦ ((bytesOf .read 0 x.2, bytesOf .arrived 0 x.2, bytesOf .dropped 0 x.2),
        (bytesOf .written 0 x.2, bytesOf .left 0 x.2, bytesOf .arrived 1 x.2), x.1.objects[2]?)) =
      some (([1, 2, 3, 4], [1, 2, 3, 4, 5], []), ([6, 7], [], [9]), some (.stream ⟨0, 0⟩)) from rfl)
  simp only [Prod.mk.injEq] at hlog
  obtain ⟨⟨hread, harrived, hdropped⟩, ⟨hwritten, hleft, hother⟩, hi⟩ := hlog
  have hfit : ∀ a ∈ readThroughClones, a.ClosuresFit := by
    simp [readThroughClones, Action.ClosuresFit]
  obtain ⟨t, ht, hreading, hwriting, -⟩ := (streams_balanced hfit hrun).2 2 ⟨0, 0⟩ hi
  rw [harrived, hread, hdropped] at hreading
  rw [hwritten, hleft] at hwriting
  have hrest : [1, 2, 3, 4] ++ [5] = [1, 2, 3, 4] ++ t.rx.content := hreading
  exact ⟨s, log, hrun, hread, harrived, hwritten, hother, t, ht,
    (List.append_cancel_left hrest).symm, hwriting.symm⟩

end State

end UsnetSockets
