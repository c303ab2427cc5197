import UsnetSockets.Net.Bind
import UsnetSockets.Net.Ownership
import UsnetSockets.Net.StreamIo

/-!
# The singlethread API as a state machine

The singlethread API has no background thread and no locks: the interface is polled by the call that
waits, and nothing happens in the stack while no call waits. A state is a thread between two polls
of the interface: the `SocketSet`, the listeners and streams that the program holds, and the call
that is under way. A step starts a call, or it is one pass of the loop of `poll_wait`, together with
what the call does when `poll_wait` returns.

The socket set is never pruned. A stream that is dropped is closed and released, and its socket
stays; a listener has no destructor, and the socket that listens for it goes on listening.
-/

namespace UsnetSockets

namespace SingleThread

variable {T : Smoltcp}

/-- The settings of `StcpNet`. -/
structure Setup where
  waitingPoll : Bool
  socketBufferSize : ℕ

/-! ## `poll_wait` -/

/-- One pass of the loop of `poll_wait`. -/
structure WaitPass (T : Smoltcp) where
  /-- What the interface does to the sockets, with the result of its `poll` -/
  events : List (ℕ × T.Event)
  result : Except Unit Bool
  /-- Whether one of the other descriptors is readable, after a `poll(2)` -/
  others : Bool
  /-- Whether the `poll(2)` that may follow succeeds -/
  waited : Bool

/-- How a pass ends. -/
inductive PassEnd where
  | leaves
  | again
  | panics
  deriving DecidableEq

/-- `asked` says that there has been a `poll(2)` with other descriptors. -/
def WaitPass.passEnd (p : WaitPass T) (waitingPoll once asked : Bool) : PassEnd :=
  let ready := match p.result with
    | .error _ => true
    | .ok r => r || (asked && p.others)
  if ready || once || !waitingPoll then .leaves
  else if p.waited then .again
  else .panics

/-! ## The calls -/

/-- What happens in a call of `connect`. -/
structure ConnectCall where
  /-- The first address of the list -/
  addr : SocketAddr
  /-- The address of the interface -/
  ip : IpAddr
  /-- The answers of usnetd, if the interface is one of usnetd's -/
  control : Option UsnetdAnswers
  /-- The ports that are drawn with usnetd, and the one that is drawn without -/
  draws : List UInt16
  drawn : RandomPort
  /-- The result of the kernel, for an address that is left to it -/
  system : Except IoError Unit

/-- The local port. `none` if the search is not over after the given draws. -/
def ConnectCall.localPort (k : ConnectCall) : Option UInt16 :=
  match k.control with
  | some control => findFreeConnectingOrListeningPortFor true control k.ip 0 k.draws
  | none => some k.drawn.val

/-- A call on a stream, with the variables of its loop. -/
inductive StreamCall where
  | read (bufsize : ℕ) (v : ReadVars)
  | write (buf : List UInt8) (dataWritten : ℕ)
  | readNoCopy (f : List UInt8 → ℕ) (first : Bool)
  | writeNoCopy (f : ℕ → List UInt8) (first : Bool)

namespace StreamCall

/-- The argument of `poll_wait`. -/
def once : StreamCall → Bool
  | read _ _ | write _ _ => false
  | readNoCopy _ first | writeNoCopy _ first => first

/-- The variables after a call of `poll_wait`. -/
def polled : StreamCall → StreamCall
  | readNoCopy f _ => readNoCopy f false
  | writeNoCopy f _ => writeNoCopy f false
  | c => c

/-- One pass of the loop up to the call of `poll_wait`, or to the end of the call. `none` is a
panic. -/
def pass (B : Buffers T) (t : T.Tcp) : StreamCall → Option (T.Tcp × Option StreamCall)
  | read bufsize v =>
    match readPass B bufsize t v with
    | some (.returned _ t _) => some (t, none)
    | some (.again t v) => some (t, some (read bufsize v))
    | none => none
  | write buf dataWritten =>
    match writePass B buf t dataWritten with
    | some (.returned _ t _) => some (t, none)
    | some (.again t dataWritten) => some (t, some (write buf dataWritten))
    | none => none
  | readNoCopy f first =>
    if T.mayRecv t && !T.canRecv t then some (t, some (readNoCopy f first))
    else some (if T.mayRecv t then T.recv t f else t, none)
  | writeNoCopy f first =>
    if T.maySend t && !T.canSend t then some (t, some (writeNoCopy f first))
    else some (if T.maySend t then T.send t f else t, none)

end StreamCall

/-! ## The state machine -/

/-- What the program holds. -/
inductive Object where
  | listener (l : StcpListener)
  | stream (h : SocketHandle)
  /-- `TcpStream::System` -/
  | system
  /-- What has been dropped -/
  | gone

/-- The call under way, which waits in `poll_wait`. -/
inductive Phase where
  | idle
  | connecting (h : SocketHandle)
  | accepting (i : ℕ) (first asked : Bool)
  | streaming (i : ℕ) (c : StreamCall)
  /-- The thread has panicked. -/
  | panicked

structure State (T : Smoltcp) where
  sockets : SocketSet T
  objects : List Object
  phase : Phase
  /-- A call on the `SocketSet` has panicked. -/
  fault : Bool

inductive Action (T : Smoltcp) where
  | bind (b : BindCall) (slot : ℕ)
  | connect (k : ConnectCall) (slot : ℕ)
  /-- `lo` is the result of the kernel for a listener on the loopback interface. -/
  | accept (i : ℕ) (lo : Except IoError Unit)
  | read (i : ℕ) (buf : List UInt8)
  | write (i : ℕ) (buf : List UInt8)
  | readNoCopy (i : ℕ) (f : List UInt8 → ℕ)
  | writeNoCopy (i : ℕ) (f : ℕ → List UInt8)
  | drop (i : ℕ)
  /-- For `accept`: `lo` is whether the kernel has a connection, and then whether it can be made
  blocking, and `slot` is where the replacement goes. -/
  | poll (p : WaitPass T) (lo : Option Bool) (slot : ℕ)

namespace State

def initial : State T := ⟨.empty, [], .idle, false⟩

variable (cfg : Setup) (B : Buffers T) (s : State T)

def panics : State T := { s with phase := .panicked }

/-- A panic of the `SocketSet`. -/
def faults : State T := { s.panics with fault := true }

def bind (b : BindCall) (slot : ℕ) : Option (State T) :=
  match SingleThread.bind cfg.socketBufferSize b slot s.sockets with
  | none => none
  | some (.error _, sockets) => some { s with sockets := sockets }
  | some (.ok l, sockets) => some { s with
      sockets := sockets
      objects := s.objects ++ [.listener l] }

/-- `connect` up to its loop. -/
def connect (k : ConnectCall) (slot : ℕ) : Option (State T) :=
  if k.addr.ip.isLoopback || k.addr.ip == k.ip then
    match k.system with
    | .error _ => some s
    | .ok _ => some { s with objects := s.objects ++ [.system] }
  else
    match k.localPort with
    | none => none
    | some port =>
      let socket := T.newTcp cfg.socketBufferSize
      match s.sockets.add slot (.inl socket) with
      | none => none
      | some (h, sockets) =>
        match T.connect socket k.addr port with
        | none => some { s.panics with sockets := sockets }
        | some t => some { s with
            sockets := sockets.setSocket h (.inl t)
            phase := .connecting h }

/-- The look of `connect` after `poll_wait`. -/
def connectCheck (h : SocketHandle) : State T :=
  match s.sockets.getTcp h with
  | none => s.faults
  | some t =>
    match connectLook t with
    | none => { s with phase := .connecting h }
    | some _ => { s with
        objects := s.objects ++ [.stream h]
        phase := .idle }

/-- `accept` up to its loop. -/
def accept (i : ℕ) (lo : Except IoError Unit) : Option (State T) :=
  match s.objects[i]? with
  | some (.listener l) =>
    match l.listenHandles with
    | none =>
      match lo with
      | .error _ => some s
      | .ok _ => some { s with objects := s.objects ++ [.system] }
    | some _ => some { s with phase := .accepting i true false }
  | _ => none

/-- A new listening socket takes the place of the one with a connection. -/
def acceptReplace (i : ℕ) (l : StcpListener) (hs : List SocketHandle) (k : ℕ) (h : SocketHandle)
    (slot : ℕ) : Option (State T) :=
  match T.listen (T.newTcp cfg.socketBufferSize) l.port with
  | none => some s.panics
  | some socket =>
    match s.sockets.add slot (.inl socket) with
    | none => none
    | some (h', sockets) => some { s with
        sockets := sockets
        objects := s.objects.set i (.listener { l with
          listenHandles := some (hs.eraseIdx k ++ [h']) }) ++ [.stream h]
        phase := .idle }

/-- What `accept` does after `poll_wait`: it asks the kernel, and then looks at its sockets. -/
def acceptCheck (i : ℕ) (lo : Option Bool) (slot : ℕ) : Option (State T) :=
  match s.objects[i]? with
  | some (.listener l) =>
    match lo with
    | some true => some { s with
        objects := s.objects ++ [.system]
        phase := .idle }
    | some false => some s.panics
    | none =>
      let hs := l.listenHandles.getD []
      match UsnetSockets.State.scanHandles s.sockets hs with
      | none => some s.faults
      | some none => some { s with phase := .accepting i false false }
      | some (some (k, h, _)) => s.acceptReplace cfg i l hs k h slot
  | _ => none

/-- A call on a stream up to the next call of `poll_wait`. The streams of the kernel are up to
it. -/
def streamPass (i : ℕ) (c : StreamCall) : Option (State T) :=
  match s.objects[i]? with
  | some (.stream h) =>
    match s.sockets.getTcp h with
    | none => some s.faults
    | some t =>
      match c.pass B t with
      | none => some s.panics
      | some (t, next) => some { s with
          sockets := s.sockets.setSocket h (.inl t)
          phase := match next with
            | some c => .streaming i c
            | none => .idle }
  | some .system => some s
  | _ => none

/-- The destructors. -/
def drop (i : ℕ) : Option (State T) :=
  match s.objects[i]? with
  | some (.stream h) =>
    match s.sockets.getTcp h with
    | none => some s.faults
    | some t =>
      match (s.sockets.setSocket h (.inl (T.close t))).release h with
      | none => some s.faults
      | some sockets => some { s with
          sockets := sockets
          objects := s.objects.set i .gone }
  | some (.listener _) | some .system => some { s with objects := s.objects.set i .gone }
  | _ => none

/-- One pass of the loop of `poll_wait`, in the call under way. -/
def poll (p : WaitPass T) (lo : Option Bool) (slot : ℕ) : Option (State T) :=
  let s' := { s with sockets := s.sockets.process p.events }
  match s.phase with
  | .connecting h =>
    match p.passEnd cfg.waitingPoll false false with
    | .leaves => some (s'.connectCheck h)
    | .again => some s'
    | .panics => some s'.panics
  | .accepting i first asked =>
    match p.passEnd cfg.waitingPoll first asked with
    | .leaves => s'.acceptCheck cfg i lo slot
    | .again => some { s' with phase := .accepting i first true }
    | .panics => some s'.panics
  | .streaming i c =>
    match p.passEnd cfg.waitingPoll c.once false with
    | .leaves => s'.streamPass B i c.polled
    | .again => some s'
    | .panics => some s'.panics
  | .idle | .panicked => none

/-- A call, when none is under way. -/
def call (a : Action T) : Option (State T) :=
  match a with
  | .bind b slot => s.bind cfg b slot
  | .connect k slot => s.connect cfg k slot
  | .accept i lo => s.accept i lo
  | .read i buf => s.streamPass B i (.read buf.length ⟨buf, 0⟩)
  | .write i buf => s.streamPass B i (.write buf 0)
  | .readNoCopy i f => s.streamPass B i (.readNoCopy f true)
  | .writeNoCopy i f => s.streamPass B i (.writeNoCopy f true)
  | .drop i => s.drop i
  | .poll _ _ _ => none

def step (a : Action T) : Option (State T) :=
  match a, s.phase with
  | .poll p lo slot, _ => s.poll cfg B p lo slot
  | a, .idle => s.call cfg B a
  | _, _ => none

end State

/-! ## Who holds the sockets -/

def Object.holdings : Object → List Holding
  | .listener l => (l.listenHandles.getD []).map (·, .backlog false)
  | .stream h => [(h, .tcp)]
  | .system | .gone => []

def Phase.holdings : Phase → List Holding
  | .connecting h => [(h, .tcp)]
  | _ => []

/-- The handles that are held, by the call under way and by what the program holds. -/
def State.holdings (s : State T) : List Holding :=
  s.phase.holdings ++ s.objects.flatMap Object.holdings

/-- What a step does to the sockets and their holders, apart from what comes from the network. -/
inductive Moves : SocketSet T → List Holding → SocketSet T → List Holding → Prop
  | keeps {S : SocketSet T} {os os' : List Holding} (hp : os'.Perm os) : Moves S os S os'
  /-- A listener is dropped. -/
  | forgets {S : SocketSet T} {os os' : List Holding} (gone : List Holding)
      (hp : os.Perm (gone ++ os')) : Moves S os S os'
  | adds {S S' : SocketSet T} {os os' : List Holding} {slot : ℕ} {t : T.Tcp} {h : SocketHandle}
      {r : Role} (hr : r.kind = .tcp) (hadd : S.add slot (.inl t) = some (h, S'))
      (hp : os'.Perm ((h, r) :: os)) : Moves S os S' os'
  /-- A call has made a socket, and returns with an error or panics. -/
  | leaves {S S' : SocketSet T} {os os' : List Holding} {slot : ℕ} {t : T.Tcp} {h : SocketHandle}
      (hadd : S.add slot (.inl t) = some (h, S')) (hp : os'.Perm os) : Moves S os S' os'
  | sets {S : SocketSet T} {os os' : List Holding} {h : SocketHandle} {t t' : T.Tcp}
      (hmem : (h, .tcp) ∈ os) (ht : S.getTcp h = some t) (hp : os'.Perm os) :
      Moves S os (S.setSocket h (.inl t')) os'
  /-- A stream is dropped. -/
  | releases {S S' : SocketSet T} {os os' : List Holding} {h : SocketHandle} {t t' : T.Tcp}
      (hp : os.Perm ((h, .tcp) :: os')) (ht : S.getTcp h = some t)
      (hrel : (S.setSocket h (.inl t')).release h = some S') : Moves S os S' os'
  /-- A connection is accepted. -/
  | takes {S S' : SocketSet T} {os os' rest : List Holding} {slot : ℕ} {t : T.Tcp}
      {h h' : SocketHandle} (hp : os.Perm ((h, .backlog false) :: rest))
      (hadd : S.add slot (.inl t) = some (h', S'))
      (hp' : os'.Perm ((h', .backlog false) :: (h, .tcp) :: rest)) : Moves S os S' os'

/-- What a step does to the objects. `S` are the sockets that it finds. -/
inductive Rearranges (S : SocketSet T) (objects : List Object) : List Object → Prop
  | same : Rearranges S objects objects
  | adds (o : Object) (ho : ∀ l, o = .listener l → l.listenHandles = none ∨
      ∃ h, l.listenHandles = some [h]) : Rearranges S objects (objects ++ [o])
  | drops (i : ℕ) : Rearranges S objects (objects.set i .gone)
  /-- A connection is accepted. -/
  | takes {i k : ℕ} {l : StcpListener} {hs : List SocketHandle} {h h' : SocketHandle} {t : T.Tcp}
      (hi : objects[i]? = some (.listener l)) (hl : l.listenHandles = some hs)
      (hk : hs[k]? = some h) (ht : S.getTcp h = some t) (hacc : T.acceptable t) :
      Rearranges S objects (objects.set i (.listener { l with
        listenHandles := some (hs.eraseIdx k ++ [h']) }) ++ [.stream h])

/-- The counts are right for the holders. -/
abbrev Counted (S : SocketSet T) (os : List Holding) : Prop := S.Owned (fun _ _ _ ↦ True) os

/-- What is added and then changed might have been added as it is. -/
theorem add_setSocket {S S' : SocketSet T} {slot : ℕ} {x : T.Tcp ⊕ T.Udp} {h : SocketHandle}
    (hadd : S.add slot x = some (h, S')) (y : T.Tcp ⊕ T.Udp) :
    S.add slot y = some (h, S'.setSocket h y) := by
  rw [SocketSet.add] at hadd ⊢
  rcases hslot : S.slots slot with _ | item
  · simp only [hslot, Option.some.injEq, Prod.mk.injEq] at hadd
    obtain ⟨rfl, rfl⟩ := hadd
    simp only [SocketSet.setSocket, SocketSet.modify, Option.some.injEq, Prod.mk.injEq, true_and,
      SocketSet.mk.injEq, and_true]
    funext i
    by_cases hi : i = slot
    · simp [hi]
    · simp [hi]
  · rw [hslot] at hadd
    exact absurd hadd (by simp)

/-- One of the objects holds its part, and the others hold the rest. -/
theorem flatMap_perm {α β : Type} (f : α → List β) {l : List α} {i : ℕ} {a : α}
    (hi : l[i]? = some a) : (l.flatMap f).Perm (f a ++ (l.eraseIdx i).flatMap f) := by
  obtain ⟨hlt, rfl⟩ := List.getElem?_eq_some_iff.mp hi
  have hperm := (List.getElem_cons_eraseIdx_perm hlt).symm.flatMap_right f
  rwa [List.flatMap_cons] at hperm

theorem flatMap_set_perm {α β : Type} (f : α → List β) {l : List α} {i : ℕ} {a : α}
    (hi : l[i]? = some a) (b : α) :
    ((l.set i b).flatMap f).Perm (f b ++ (l.eraseIdx i).flatMap f) := by
  have hlt := (List.getElem?_eq_some_iff.mp hi).1
  have hperm := flatMap_perm f (l := l.set i b) (List.getElem?_set_self hlt)
  rwa [List.eraseIdx_set_eq] at hperm

/-! ## What a step can do -/

section Steps

variable {cfg : Setup} {B : Buffers T} {s s' : State T} {a : Action T}

/-- The handles that the objects hold. -/
def State.held (s : State T) : List Holding := s.objects.flatMap Object.holdings

theorem State.holdings_of_idle (hidle : s.phase = .idle) : s.holdings = s.held := by
  rw [holdings, hidle]
  rfl

theorem held_append (objects : List Object) (o : Object) :
    ((objects ++ [o]).flatMap Object.holdings).Perm
      (o.holdings ++ objects.flatMap Object.holdings) := by
  simpa using List.perm_append_comm

/-- `bind` changes nothing, or it makes a socket that listens. -/
theorem bind_cases {socketBufferSize slot : ℕ} {b : BindCall} {S S' : SocketSet T}
    {res : Except IoError StcpListener}
    (h : SingleThread.bind socketBufferSize b slot S = some (res, S')) :
    (S' = S ∧ ((∃ e, res = .error e) ∨ ∃ port lo, res = .ok ⟨port, lo, none⟩)) ∨
    ∃ port lo t x, port ≠ 0 ∧ T.listen (T.newTcp socketBufferSize) port = some t ∧
      S.add slot (.inl t) = some (x, S') ∧
      ((∃ e, res = .error e) ∨ res = .ok ⟨port, lo, some [x]⟩) := by
  rw [SingleThread.bind] at h
  split at h
  · exact absurd h (by simp)
  · simp only [Option.some.injEq, Prod.mk.injEq] at h
    exact .inl ⟨h.2.symm, .inl ⟨_, h.1.symm⟩⟩
  · next port hport =>
    rw [bindPort] at h
    split at h
    · simp only [Option.some.injEq, Prod.mk.injEq] at h
      exact .inl ⟨h.2.symm, .inl ⟨_, h.1.symm⟩⟩
    · next lo hlo =>
      split at h
      · simp only [Option.some.injEq, Prod.mk.injEq] at h
        exact .inl ⟨h.2.symm, .inr ⟨port, lo, h.1.symm⟩⟩
      · split at h
        · simp only [Option.some.injEq, Prod.mk.injEq] at h
          exact .inl ⟨h.2.symm, .inl ⟨_, h.1.symm⟩⟩
        · split at h
          · exact absurd h (by simp)
          · next t ht =>
            split at h
            · exact absurd h (by simp)
            · next x S₁ hadd =>
              have hport := BindCall.choosePort_ne_zero hport
              split at h <;> simp only [Option.some.injEq, Prod.mk.injEq] at h <;>
                obtain ⟨rfl, rfl⟩ := h
              · exact .inr ⟨port, lo, t, x, hport, ht, hadd, .inl ⟨_, rfl⟩⟩
              · exact .inr ⟨port, lo, t, x, hport, ht, hadd, .inr rfl⟩

/-- The state after a step. `os` are the holders before it. -/
structure Fits (s : State T) (os : List Holding) (s' : State T) : Prop where
  fault : s'.fault = s.fault
  moves : Moves s.sockets os s'.sockets s'.holdings
  objects : Rearranges s.sockets s.objects s'.objects

theorem fits_bind {b : BindCall} {slot : ℕ} (hidle : s.phase = .idle)
    (h : s.bind cfg b slot = some s') : Fits s s.held s' := by
  rw [State.bind] at h
  split at h
  · exact absurd h (by simp)
  · next e S hb =>
    obtain rfl := Option.some.inj h
    refine ⟨rfl, ?_, .same⟩
    rw [State.holdings, hidle]
    obtain ⟨rfl, -⟩ | ⟨port, lo, t, x, -, -, hadd, -⟩ := bind_cases hb
    · exact .keeps (.refl _)
    · exact .leaves hadd (.refl _)
  · next l S hb =>
    obtain rfl := Option.some.inj h
    obtain ⟨rfl, he | ⟨port, lo, hl⟩⟩ | ⟨port, lo, t, x, -, -, hadd, he | hl⟩ := bind_cases hb
    · exact absurd he (by simp)
    · obtain rfl := Except.ok.inj hl
      refine ⟨rfl, ?_, .adds _ fun l hl ↦ .inl (by rw [← Object.listener.inj hl])⟩
      rw [State.holdings, hidle]
      exact .keeps (held_append _ _)
    · exact absurd he (by simp)
    · obtain rfl := Except.ok.inj hl
      refine ⟨rfl, ?_, .adds _ fun l hl ↦ .inr ⟨x, by rw [← Object.listener.inj hl]⟩⟩
      rw [State.holdings, hidle]
      exact .adds (r := .backlog false) rfl hadd (held_append _ _)

/-- Nothing is asked of an object that is no listener. -/
theorem rearranges_append {S : SocketSet T} {objects : List Object} {o : Object}
    (ho : ∀ l, o ≠ .listener l) : Rearranges S objects (objects ++ [o]) :=
  .adds o fun l hl ↦ absurd hl (ho l)

theorem fits_connect {k : ConnectCall} {slot : ℕ} (hidle : s.phase = .idle)
    (h : s.connect cfg k slot = some s') : Fits s s.held s' := by
  rw [State.connect] at h
  split at h
  · split at h
    · obtain rfl := Option.some.inj h
      exact ⟨rfl, .keeps (by rw [State.holdings_of_idle hidle]), .same⟩
    · obtain rfl := Option.some.inj h
      refine ⟨rfl, .keeps ?_, rearranges_append (by simp)⟩
      rw [State.holdings, hidle]
      exact held_append _ _
  · split at h
    · exact absurd h (by simp)
    · dsimp only at h
      split at h
      · exact absurd h (by simp)
      · next x S hadd =>
        split at h
        · obtain rfl := Option.some.inj h
          exact ⟨rfl, .leaves hadd (.refl _), .same⟩
        · next t ht =>
          obtain rfl := Option.some.inj h
          exact ⟨rfl, .adds (r := .tcp) rfl (add_setSocket hadd (.inl t)) (.refl _), .same⟩

theorem fits_connectCheck {x : SocketHandle} (hs : Counted s.sockets ((x, .tcp) :: s.held))
    (h : s.connectCheck x = s') : Fits s ((x, .tcp) :: s.held) s' := by
  obtain ⟨t, ht⟩ := hs.getTcp_isSome List.mem_cons_self rfl
  subst h
  rw [State.connectCheck, ht]
  dsimp only
  split
  · exact ⟨rfl, .keeps (.refl _), .same⟩
  · exact ⟨rfl, .keeps (held_append _ _), rearranges_append (by simp)⟩

theorem fits_accept {i : ℕ} {lo : Except IoError Unit} (hidle : s.phase = .idle)
    (h : s.accept i lo = some s') : Fits s s.held s' := by
  unfold State.accept at h
  split at h
  · split at h
    · split at h
      · obtain rfl := Option.some.inj h
        exact ⟨rfl, .keeps (by rw [State.holdings_of_idle hidle]), .same⟩
      · obtain rfl := Option.some.inj h
        refine ⟨rfl, .keeps ?_, rearranges_append (by simp)⟩
        rw [State.holdings, hidle]
        exact held_append _ _
    · obtain rfl := Option.some.inj h
      exact ⟨rfl, .keeps (.refl _), .same⟩
  · exact absurd h (by simp)

theorem holdings_of_getElem {objects : List Object} {i : ℕ} {o : Object}
    (hi : objects[i]? = some o) {x : Holding} (hx : x ∈ o.holdings) :
    x ∈ objects.flatMap Object.holdings :=
  List.mem_flatMap.mpr ⟨o, List.mem_of_getElem? hi, hx⟩

/-- One of the handles of a list comes first, and the others behind it. -/
theorem cons_eraseIdx_perm {hs : List SocketHandle} {k : ℕ} {x : SocketHandle}
    (hk : hs[k]? = some x) : hs.Perm (x :: hs.eraseIdx k) := by
  obtain ⟨hlt, rfl⟩ := List.getElem?_eq_some_iff.mp hk
  exact (List.getElem_cons_eraseIdx_perm hlt).symm

theorem fits_acceptReplace {i k slot : ℕ} {l : StcpListener} {hs : List SocketHandle}
    {x : SocketHandle} {t : T.Tcp} (hi : s.objects[i]? = some (.listener l))
    (hl : l.listenHandles = some hs) (hk : hs[k]? = some x) (ht : s.sockets.getTcp x = some t)
    (hacc : T.acceptable t) (h : s.acceptReplace cfg i l hs k x slot = some s') :
    Fits s s.held s' := by
  rw [State.acceptReplace] at h
  split at h
  · obtain rfl := Option.some.inj h
    exact ⟨rfl, .keeps (.refl _), .same⟩
  · split at h
    · exact absurd h (by simp)
    · next x' S hadd =>
      obtain rfl := Option.some.inj h
      refine ⟨rfl, ?_, .takes hi hl hk ht hacc⟩
      let others := (s.objects.eraseIdx i).flatMap Object.holdings
      let l' : StcpListener := { l with listenHandles := some (hs.eraseIdx k ++ [x']) }
      have hbefore : s.held.Perm (hs.map (·, .backlog false) ++ others) := by
        have hperm := flatMap_perm Object.holdings hi
        rwa [Object.holdings, hl] at hperm
      have hafter : ((s.objects.set i (.listener l')).flatMap Object.holdings).Perm
          ((hs.eraseIdx k ++ [x']).map (·, .backlog false) ++ others) :=
        flatMap_set_perm Object.holdings hi (.listener l')
      have htaken := (cons_eraseIdx_perm hk).map fun y ↦ (y, Role.backlog false)
      refine .takes (hbefore.trans (htaken.append_right others)) hadd ?_
      refine (held_append _ _).trans ?_
      refine ((hafter.trans ?_).cons (x, .tcp)).trans (.swap _ _ _)
      rw [List.map_append, List.append_assoc]
      exact List.perm_middle

theorem fits_acceptCheck {i slot : ℕ} {lo : Option Bool} (hs : Counted s.sockets s.held)
    (h : s.acceptCheck cfg i lo slot = some s') : Fits s s.held s' := by
  rw [State.acceptCheck] at h
  split at h
  · next l hi =>
    split at h
    · obtain rfl := Option.some.inj h
      exact ⟨rfl, .keeps (held_append _ _), rearranges_append (by simp)⟩
    · obtain rfl := Option.some.inj h
      exact ⟨rfl, .keeps (.refl _), .same⟩
    · have hmem (k : SocketHandle) (hk : k ∈ l.listenHandles.getD []) :
          ∃ t, s.sockets.getTcp k = some t :=
        hs.getTcp_isSome (holdings_of_getElem hi (List.mem_map_of_mem hk)) rfl
      obtain ⟨res, hscan⟩ := UsnetSockets.State.scanHandles_isSome hmem
      dsimp only at h
      rw [hscan] at h
      rcases res with _ | ⟨k, x, t⟩
      · obtain rfl := Option.some.inj h
        exact ⟨rfl, .keeps (.refl _), .same⟩
      · obtain ⟨hk, ht, hacc⟩ := UsnetSockets.State.scanHandles_eq_found hscan
        rcases hl : l.listenHandles with _ | hs'
        · rw [hl] at hk
          exact absurd hk (by simp)
        · rw [hl] at hk h
          exact fits_acceptReplace hi hl hk ht hacc h
  · exact absurd h (by simp)

theorem fits_streamPass {i : ℕ} {c : StreamCall} (hs : Counted s.sockets s.held)
    (hphase : s.phase.holdings = []) (h : s.streamPass B i c = some s') : Fits s s.held s' := by
  rw [State.streamPass] at h
  split at h
  · next x hi =>
    have hmem : (x, .tcp) ∈ s.held := holdings_of_getElem hi List.mem_cons_self
    obtain ⟨t, ht⟩ := hs.getTcp_isSome hmem rfl
    rw [ht] at h
    dsimp only at h
    split at h
    · obtain rfl := Option.some.inj h
      exact ⟨rfl, .keeps (.refl _), .same⟩
    · next t' next hpass =>
      obtain rfl := Option.some.inj h
      refine ⟨rfl, .sets hmem ht ?_, .same⟩
      rcases next with _ | c' <;> exact .refl _
  · obtain rfl := Option.some.inj h
    refine ⟨rfl, .keeps ?_, .same⟩
    rw [State.holdings, hphase]
    exact .refl _
  · exact absurd h (by simp)

theorem fits_drop {i : ℕ} (hidle : s.phase = .idle) (hs : Counted s.sockets s.held)
    (h : s.drop i = some s') : Fits s s.held s' := by
  have hgone {o : Object} (hi : s.objects[i]? = some o) :
      s.held.Perm (o.holdings ++ (s.objects.set i .gone).flatMap Object.holdings) :=
    (flatMap_perm Object.holdings hi).trans
      ((flatMap_set_perm Object.holdings hi .gone).symm.append_left _)
  unfold State.drop at h
  split at h
  · next x hi =>
    have hmem : (x, .tcp) ∈ s.held := holdings_of_getElem hi List.mem_cons_self
    obtain ⟨t, ht⟩ := hs.getTcp_isSome hmem rfl
    have hclosed : Counted (s.sockets.setSocket x (.inl (T.close t))) s.held :=
      hs.setTcp_of_mem hmem ht
    obtain ⟨S, hrel, -⟩ := SocketSet.Owned.release (hclosed.perm (hgone hi))
    rw [ht] at h
    dsimp only at h
    rw [hrel] at h
    obtain rfl := Option.some.inj h
    refine ⟨rfl, .releases ?_ ht hrel, .drops i⟩
    rw [State.holdings, hidle]
    exact hgone hi
  · next l hi =>
    obtain rfl := Option.some.inj h
    refine ⟨rfl, .forgets (Object.listener l).holdings ?_, .drops i⟩
    rw [State.holdings, hidle]
    exact hgone hi
  · next hi =>
    obtain rfl := Option.some.inj h
    refine ⟨rfl, .forgets Object.system.holdings ?_, .drops i⟩
    rw [State.holdings, hidle]
    exact hgone hi
  · exact absurd h (by simp)

/-- What comes from the network in a step. -/
def Action.events : Action T → List (ℕ × T.Event)
  | .poll p _ _ => p.events
  | _ => []

/-- The state after the events. -/
def State.processed (s : State T) (events : List (ℕ × T.Event)) : State T :=
  { s with sockets := s.sockets.process events }

theorem fits_poll {p : WaitPass T} {lo : Option Bool} {slot : ℕ}
    (hs : Counted (s.sockets.process p.events) s.holdings)
    (h : s.poll cfg B p lo slot = some s') : Fits (s.processed p.events) s.holdings s' := by
  have hheld (hphase : s.phase.holdings = []) : s.holdings = s.held := by
    rw [State.holdings, hphase]
    rfl
  rw [State.poll] at h
  dsimp only at h
  split at h
  · next x hphase =>
    have hold : s.holdings = (x, .tcp) :: s.held := by
      rw [State.holdings, hphase]
      rfl
    split at h <;> obtain rfl := Option.some.inj h
    · rw [hold] at hs ⊢
      exact fits_connectCheck hs rfl
    · exact ⟨rfl, .keeps (.refl _), .same⟩
    · rw [hold]
      exact ⟨rfl, .forgets [(x, .tcp)] (.refl _), .same⟩
  · next i first asked hphase =>
    rw [hheld (by rw [hphase]; rfl)] at hs ⊢
    split at h
    · exact fits_acceptCheck hs h
    all_goals
      obtain rfl := Option.some.inj h
      exact ⟨rfl, .keeps (.refl _), .same⟩
  · next i c hphase =>
    have hnone : s.phase.holdings = [] := by
      rw [hphase]
      rfl
    rw [hheld hnone] at hs ⊢
    split at h
    · exact fits_streamPass hs hnone h
    · obtain rfl := Option.some.inj h
      exact ⟨rfl, .keeps (by rw [State.holdings, hnone]; exact .refl _), .same⟩
    · obtain rfl := Option.some.inj h
      exact ⟨rfl, .keeps (.refl _), .same⟩
  · exact absurd h (by simp)
  · exact absurd h (by simp)

theorem fits_call (hidle : s.phase = .idle) (hs : Counted s.sockets s.held)
    (h : s.call cfg B a = some s') : Fits s s.held s' := by
  have hphase : s.phase.holdings = [] := by
    rw [hidle]
    rfl
  cases a with
  | bind b slot => exact fits_bind hidle h
  | connect k slot => exact fits_connect hidle h
  | accept i lo => exact fits_accept hidle h
  | read i buf => exact fits_streamPass hs hphase h
  | write i buf => exact fits_streamPass hs hphase h
  | readNoCopy i f => exact fits_streamPass hs hphase h
  | writeNoCopy i f => exact fits_streamPass hs hphase h
  | drop i => exact fits_drop hidle hs h
  | poll p lo slot => exact absurd h (by simp [State.call])

theorem step_cases (h : s.step cfg B a = some s') :
    (∃ p lo slot, a = .poll p lo slot ∧ s.poll cfg B p lo slot = some s') ∨
    s.phase = .idle ∧ a.events = [] ∧ s.call cfg B a = some s' := by
  cases a with
  | poll p lo slot => exact .inl ⟨p, lo, slot, rfl, h⟩
  | _ =>
    rcases hphase : s.phase with _ | x | ⟨i, first, asked⟩ | ⟨i, c⟩ | _
    · simp only [State.step, hphase] at h
      exact .inr ⟨rfl, rfl, h⟩
    all_goals simp [State.step, hphase] at h

theorem Counted.process {S : SocketSet T} {os : List Holding} (h : Counted S os)
    (events : List (ℕ × T.Event)) : Counted (S.process events) os :=
  SocketSet.Owned.process h (.of_forall (fun _ _ _ _ _ ↦ trivial) _ _)

/-- **What a step can do**: what comes from the network, and then one of a few changes. No call on
the `SocketSet` panics. -/
theorem fits_of_step (hs : Counted s.sockets s.holdings) (h : s.step cfg B a = some s') :
    Fits (s.processed a.events) s.holdings s' := by
  obtain ⟨p, lo, slot, rfl, h⟩ | ⟨hidle, hevents, h⟩ := step_cases h
  · exact fits_poll (hs.process p.events) h
  · rw [hevents]
    rw [State.holdings_of_idle hidle] at hs ⊢
    exact fits_call hidle hs h

end Steps

end SingleThread

end UsnetSockets
