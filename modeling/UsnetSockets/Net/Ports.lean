import UsnetSockets.Net.Device
import UsnetSockets.Net.Evolution

/-!
# The ports of outgoing connections

`connect` draws local ports at random until `add_port_match` accepts one. Nothing in the program
looks at the ports of its other connections, so whether two of them to the same peer have different
local ports is up to `add_port_match`: with usnetd, which refuses what it has granted before, they
have, as long as each request gets its own answer. A backend without a control socket accepts
everything.

The system here is the one of `System.lean` together with the control socket. The answers that
`connect` gets are those of `add_port_match`; the requests of the other operations are left open, so
that its runs include those of the program. The ports of a connection are those that smoltcp reports
of its socket (`Endpoints`), and a log has the numbers of the sockets that `connect` has added,
which tells the outgoing connections from those that were accepted.
-/

namespace UsnetSockets

open Transition

/-- usnetd, where a registration lasts as long as its client, answers a request with `OK` only if
it registers it, and does not do so twice. -/
structure Usnetd.Lawful (U : Usnetd) (registered : U.State → WantMsg → Prop) : Prop where
  grants : ∀ σ e w n, Answer.verdict ⟨n, (U.addMatch σ e w).2⟩ = .ok () →
    registered (U.addMatch σ e w).1 w
  keeps : ∀ σ e w w', registered σ w → registered (U.addMatch σ e w').1 w
  rejects : ∀ σ e w n, registered σ w → Answer.verdict ⟨n, (U.addMatch σ e w).2⟩ ≠ .ok ()

/-- What the reference service has granted. -/
def Usnetd.granted (σ : Usnetd.reference.State) (w : WantMsg) : Prop :=
  w ∈ (show List WantMsg from σ)

theorem Usnetd.addMatch_of_granted {σ : Usnetd.reference.State} {w : WantMsg} (h : granted σ w)
    (e : Usnetd.reference.Event) : Usnetd.reference.addMatch σ e w = (σ, [0x4e, 0x4f]) :=
  if_pos h

theorem Usnetd.addMatch_of_not_granted {σ : Usnetd.reference.State} {w : WantMsg}
    (h : ¬granted σ w) (e : Usnetd.reference.Event) :
    Usnetd.reference.addMatch σ e w = (w :: (show List WantMsg from σ), [0x4f, 0x4b]) :=
  if_neg h

theorem Usnetd.lawful_reference : Usnetd.reference.Lawful granted where
  grants σ e w n h := by
    by_cases hw : granted σ w
    · rwa [addMatch_of_granted hw]
    · rw [addMatch_of_not_granted hw]
      exact List.mem_cons_self
  keeps σ e w w' h := by
    by_cases hw : granted σ w'
    · rwa [addMatch_of_granted hw]
    · rw [addMatch_of_not_granted hw]
      exact List.mem_cons_of_mem _ h
  rejects σ e w n h := by
    have hno : Answer.verdict ⟨n, [0x4e, 0x4f]⟩ = .err (.other "port not free") := rfl
    rw [addMatch_of_granted h, hno]
    simp

/-! ## The loop of `connect` -/

/-- One pass of the loop of `connect_timeout_opt`: the port drawn, and what a call of
`add_port_match` would meet. -/
structure PortTry (U : Usnetd) where
  port : RandomPort
  event : U.Event
  send : Bool
  recv : Option IoError

namespace PortTry

variable {U : Usnetd} (cfg : Config) (addr : SocketAddr) (t : PortTry U)

/-- The call that asks for the port. -/
def call : PortCall U where
  arg := ⟨cfg.ip, some t.port.val, some addr.ip, some addr.port, .tcp⟩
  event := t.event
  send := t.send
  recv := t.recv

/-- The port is one of those that the kernel uses, and the loop does not ask for it. -/
def OfKernel : Prop :=
  cfg.kernelLocalPortRange.1 ≤ t.port.val ∧ t.port.val ≤ cfg.kernelLocalPortRange.2

instance : Decidable (t.OfKernel cfg) :=
  inferInstanceAs (Decidable (_ ∧ _))

/-- The call, if it is made, sends its request and fails to receive an answer. -/
def ReceiveFails : Prop := t.send = true ∧ t.recv ≠ none

instance : Decidable t.ReceiveFails :=
  inferInstanceAs (Decidable (_ ∧ _))

end PortTry

variable {T : Smoltcp} {U : Usnetd}

/-- The draws of the loop, with the answers of `add_port_match`, and the control socket after
them. A panic ends the loop without a port. -/
def drawPorts (cfg : Config) (b : Backend) (addr : SocketAddr) :
    List (PortTry U) → Control U → List PortDraw × Control U
  | [], c => ([], c)
  | t :: ts, c =>
    if t.OfKernel cfg then
      let (draws, c) := drawPorts cfg b addr ts c
      (⟨t.port, .ok ()⟩ :: draws, c)
    else
      match c.addPortMatch b cfg.ip (t.call cfg addr) with
      | (.ok _, c) => ([⟨t.port, .ok ()⟩], c)
      | (.err e, c) =>
        let (draws, c) := drawPorts cfg b addr ts c
        (⟨t.port, .error e⟩ :: draws, c)
      | (_, c) => ([], c)

/-- The draws for which the loop asks. On a backend without a control socket the first of them ends
it. -/
def askedTries (cfg : Config) (b : Backend) (tries : List (PortTry U)) : List (PortTry U) :=
  let tries := tries.filter fun t ↦ !decide (t.OfKernel cfg)
  if b.hasControl then tries else tries.take 1

section Loop

variable {cfg : Config} {b : Backend} {addr : SocketAddr} {tries : List (PortTry U)} {c : Control U}
  {port : UInt16}

/-- The port that the loop ends with. -/
def chosenPort (cfg : Config) (b : Backend) (addr : SocketAddr) (tries : List (PortTry U))
    (c : Control U) : Option UInt16 :=
  choosePort cfg.kernelLocalPortRange (drawPorts cfg b addr tries c).1

/-- **What a pass of the loop can do**: draw a port of the kernel, end with the port, go on after a
refusal, or panic. -/
theorem drawPorts_cons_cases (cfg : Config) (b : Backend) (addr : SocketAddr) (t : PortTry U)
    (tries : List (PortTry U)) (c : Control U) :
    (t.OfKernel cfg ∧ chosenPort cfg b addr (t :: tries) c = chosenPort cfg b addr tries c ∧
      (drawPorts cfg b addr (t :: tries) c).2 = (drawPorts cfg b addr tries c).2) ∨
    ¬t.OfKernel cfg ∧ ∃ answer c', c.addPortMatch b cfg.ip (t.call cfg addr) = (answer, c') ∧
      ((answer = .ok () ∧ chosenPort cfg b addr (t :: tries) c = some t.port.val ∧
        (drawPorts cfg b addr (t :: tries) c).2 = c') ∨
      ((∃ e, answer = .err e) ∧
        chosenPort cfg b addr (t :: tries) c = chosenPort cfg b addr tries c' ∧
        (drawPorts cfg b addr (t :: tries) c).2 = (drawPorts cfg b addr tries c').2) ∨
      (chosenPort cfg b addr (t :: tries) c = none ∧
        (drawPorts cfg b addr (t :: tries) c).2 = c')) := by
  by_cases hk : t.OfKernel cfg
  · refine Or.inl ⟨hk, ?_, by rw [drawPorts, if_pos hk]⟩
    rw [chosenPort, drawPorts, if_pos hk, choosePort]
    exact if_pos hk
  · have hchoose (usnet : Except IoError Unit) (draws : List PortDraw) :
        choosePort cfg.kernelLocalPortRange (⟨t.port, usnet⟩ :: draws) =
          if isErr usnet then choosePort cfg.kernelLocalPortRange draws else some t.port.val :=
      if_neg hk
    refine Or.inr ⟨hk, ?_⟩
    rcases hcall : c.addPortMatch b cfg.ip (t.call cfg addr) with ⟨_ | e | _ | _, c'⟩
    · refine ⟨_, c', rfl, Or.inl ⟨rfl, ?_, ?_⟩⟩
      · rw [chosenPort, drawPorts, if_neg hk, hcall]
        exact hchoose _ _
      · rw [drawPorts, if_neg hk, hcall]
    · refine ⟨_, c', rfl, Or.inr (Or.inl ⟨⟨e, rfl⟩, ?_, ?_⟩)⟩
      · rw [chosenPort, drawPorts, if_neg hk, hcall]
        exact hchoose _ _
      · rw [drawPorts, if_neg hk, hcall]
    all_goals
      refine ⟨_, c', rfl, Or.inr (Or.inr ⟨?_, ?_⟩)⟩
      · rw [chosenPort, drawPorts, if_neg hk, hcall]
        rfl
      · rw [drawPorts, if_neg hk, hcall]

/-- What every call of the loop keeps is kept by the loop. -/
theorem drawPorts_invariant {P : Control U → Prop} (hc : P c)
    (hcall : ∀ c, ∀ t ∈ tries, P c → P (c.addPortMatch b cfg.ip (t.call cfg addr)).2) :
    P (drawPorts cfg b addr tries c).2 := by
  induction tries generalizing c with
  | nil => exact hc
  | cons t tries ih =>
    have hrest : ∀ c, ∀ t ∈ tries, P c → P (c.addPortMatch b cfg.ip (t.call cfg addr)).2 :=
      fun c t' ht' ↦ hcall c t' (List.mem_cons_of_mem t ht')
    obtain ⟨-, -, he⟩ | ⟨-, answer, c', heq, hcases⟩ := drawPorts_cons_cases cfg b addr t tries c
    · rw [he]
      exact ih hc hrest
    · have hfirst := hcall c t List.mem_cons_self hc
      rw [heq] at hfirst
      obtain ⟨-, -, he⟩ | ⟨-, -, he⟩ | ⟨-, he⟩ := hcases
      · rwa [he]
      · rw [he]
        exact ih hfirst hrest
      · rwa [he]

/-- The port has been asked for. -/
theorem exists_mem_askedTries (h : chosenPort cfg b addr tries c = some port) :
    ∃ t ∈ askedTries cfg b tries, t.port.val = port := by
  induction tries generalizing c with
  | nil => exact absurd h (by simp [chosenPort, drawPorts, choosePort])
  | cons t tries ih =>
    have hskip (hk : t.OfKernel cfg) : askedTries cfg b (t :: tries) = askedTries cfg b tries := by
      simp [askedTries, hk]
    have hfirst (hk : ¬t.OfKernel cfg) : t ∈ askedTries cfg b (t :: tries) := by
      cases hb : b.hasControl <;> simp [askedTries, hk, hb]
    obtain ⟨hk, hport, -⟩ | ⟨hk, answer, c', hcall, hcases⟩ :=
      drawPorts_cons_cases cfg b addr t tries c
    · rw [hskip hk]
      exact ih (hport ▸ h)
    · obtain ⟨-, hport, -⟩ | ⟨⟨e, rfl⟩, hport, -⟩ | ⟨hport, -⟩ := hcases
      · exact ⟨t, hfirst hk, Option.some.inj (hport.symm.trans h)⟩
      · have hb : b.hasControl := by
          by_contra hb
          rw [Control.addPortMatch, if_neg hb] at hcall
          exact absurd (congrArg Prod.fst hcall) (by simp)
        obtain ⟨t', ht', hval⟩ := ih (hport ▸ h)
        refine ⟨t', ?_, hval⟩
        rw [askedTries, if_pos hb, List.mem_filter] at ht' ⊢
        exact ⟨List.mem_cons_of_mem t ht'.1, ht'.2⟩
      · exact absurd (hport.symm.trans h) (by simp)

end Loop

/-! ## What requests do -/

section Requests

variable {cfg : Config} {b : Backend} {ip : IpAddr} {c c' c'' : Control U} {call : PortCall U}
  {registered : U.State → WantMsg → Prop}

/-- Between the two states of the control socket, no registration and no unread answer is lost. -/
structure Leads (registered : U.State → WantMsg → Prop) (c c' : Control U) : Prop where
  answers_le : c.answers.length ≤ c'.answers.length
  keeps : ∀ w, registered c.usnetd w → registered c'.usnetd w

theorem Leads.refl (c : Control U) : Leads registered c c := ⟨le_rfl, fun _ h ↦ h⟩

theorem Leads.trans (h : Leads registered c c') (h' : Leads registered c' c'') :
    Leads registered c c'' :=
  ⟨h.answers_le.trans h'.answers_le, fun w hw ↦ h'.keeps w (h.keeps w hw)⟩

theorem Leads.answers_eq_nil (h : Leads registered c c') (hnil : c'.answers = []) :
    c.answers = [] := by
  have hle := h.answers_le
  rw [hnil, List.length_nil] at hle
  exact List.length_eq_zero_iff.mp (Nat.le_zero.mp hle)

theorem leads_addPortMatch (hU : U.Lawful registered) :
    Leads registered c (c.addPortMatch b ip call).2 := by
  cases hb : b.hasControl with
  | false =>
    simp only [Control.addPortMatch, hb, Bool.false_eq_true, if_false]
    exact .refl c
  | true =>
    have hlen : (c.addPortMatch b ip call).2.answers.length = _ := Control.answers_step hb rfl
    refine ⟨by omega, fun w hw ↦ ?_⟩
    have hsent := hU.keeps c.usnetd call.event w (call.arg.want ip) hw
    obtain ⟨-, hrecv, he⟩ | ⟨-, -, he⟩ | ⟨-, he⟩ := Control.addPortMatch_cases ip c call hb
    · rw [he]
      obtain ⟨-, hr⟩ | ⟨ans, rest, -, hr⟩ := hrecv <;> rw [hr] <;> exact hsent
    · rw [he]
      exact hsent
    · rwa [he]

/-- A request that is granted by its own answer registers what was not registered before. -/
theorem registers_of_ok (hU : U.Lawful registered) (hb : b.hasControl)
    (hok : (c.addPortMatch b ip call).1 = .ok ())
    (hnil : (c.addPortMatch b ip call).2.answers = []) :
    ¬registered c.usnetd (call.arg.want ip) ∧
      registered (c.addPortMatch b ip call).2.usnetd (call.arg.want ip) := by
  obtain ⟨hr, hrecv, he⟩ | ⟨-, -, he⟩ | ⟨hsend, -⟩ := Control.addPortMatch_cases ip c call hb
  · obtain ⟨-, hown⟩ | ⟨ans, rest, -, hother⟩ := hrecv
    · have hverdict : (c.answer ip call).verdict = .ok () := by
        simpa [Control.addPortMatch, hb, hr.1, hown] using hok
      rw [he, hown]
      exact ⟨fun hreg ↦ hU.rejects _ call.event _ _ hreg hverdict, hU.grants _ _ _ _ hverdict⟩
    · rw [he, hother] at hnil
      exact absurd hnil (by simp)
  · rw [he, Control.sent] at hnil
    exact absurd hnil (by simp)
  · exact absurd hok (by simp [Control.addPortMatch, hb, hsend])

theorem leads_drawPorts (hU : U.Lawful registered) (addr : SocketAddr) (tries : List (PortTry U))
    (c : Control U) : Leads registered c (drawPorts cfg b addr tries c).2 := by
  refine drawPorts_invariant (.refl c) fun c' t _ hleads ↦ ?_
  exact hleads.trans (leads_addPortMatch hU)

/-- Unless its receive fails, a call leaves no answer unread if there was none. -/
theorem answers_addPortMatch (hb : b.hasControl) (hnil : c.answers = [])
    (hno : ¬call.ReceiveFails) : (c.addPortMatch b ip call).2.answers = [] := by
  have hlen : (c.addPortMatch b ip call).2.answers.length = _ := Control.answers_step hb rfl
  rw [hnil, if_neg hno] at hlen
  exact List.length_eq_zero_iff.mp hlen

theorem answers_drawPorts (hb : b.hasControl) {addr : SocketAddr} {tries : List (PortTry U)}
    {c : Control U} (hnil : c.answers = []) (hno : ∀ t ∈ tries, ¬t.ReceiveFails) :
    (drawPorts cfg b addr tries c).2.answers = [] := by
  refine drawPorts_invariant (P := fun c ↦ c.answers = []) hnil fun c' t ht hnil' ↦ ?_
  exact answers_addPortMatch hb hnil' (hno t ht)

/-- The request of `connect` for a port. -/
def connectWant (cfg : Config) (port : UInt16) (addr : SocketAddr) : WantMsg :=
  PortMatch.want ⟨cfg.ip, some port, some addr.ip, some addr.port, .tcp⟩ cfg.ip

/-- If no answer is left unread, the port that the loop ends with has not been registered for the
address before, and now it is. -/
theorem registers_drawPorts (hU : U.Lawful registered) (hb : b.hasControl) {addr : SocketAddr}
    {tries : List (PortTry U)} {c : Control U} {port : UInt16}
    (hport : chosenPort cfg b addr tries c = some port)
    (hnil : (drawPorts cfg b addr tries c).2.answers = []) :
    ¬registered c.usnetd (connectWant cfg port addr) ∧
      registered (drawPorts cfg b addr tries c).2.usnetd (connectWant cfg port addr) := by
  induction tries generalizing c with
  | nil => exact absurd hport (by simp [chosenPort, drawPorts, choosePort])
  | cons t tries ih =>
    have hcall : Leads registered c (c.addPortMatch b cfg.ip (t.call cfg addr)).2 :=
      leads_addPortMatch hU
    obtain ⟨-, hp, he⟩ | ⟨-, answer, c', heq, hcases⟩ := drawPorts_cons_cases cfg b addr t tries c
    · rw [he] at hnil ⊢
      exact ih (hp ▸ hport) hnil
    · obtain ⟨rfl, hp, he⟩ | ⟨-, hp, he⟩ | ⟨hp, -⟩ := hcases
      · obtain rfl := Option.some.inj (hp.symm.trans hport)
        rw [he] at hnil ⊢
        have hok : (c.addPortMatch b cfg.ip (t.call cfg addr)).1 = .ok () := by rw [heq]
        have hregisters := registers_of_ok hU hb hok (by rwa [heq])
        rwa [heq] at hregisters
      · rw [he] at hnil ⊢
        rw [heq] at hcall
        obtain ⟨hnot, hreg⟩ := ih (hp ▸ hport) hnil
        exact ⟨fun h ↦ hnot (hcall.keeps _ h), hreg⟩
      · exact absurd (hp.symm.trans hport) (by simp)

end Requests

/-! ## The system -/

/-- The state of the API, with the control socket of its backend. -/
structure Linked (T : Smoltcp) (U : Usnetd) where
  state : State T
  control : Control U

inductive LinkedAction (T : Smoltcp) (U : Usnetd) where
  /-- A critical section other than the next address of `connect`, with its requests. -/
  | acts (a : Action T) (calls : List (PortCall U))
  /-- The next address of a call of `connect`. -/
  | connectNext (i : ℕ) (tries : List (PortTry U)) (slot : ℕ) (system : Except IoError Unit)
  /-- An operation that panics in `add_port_match` and leaves nothing but its requests. -/
  | panics (calls : List (PortCall U))

namespace Linked

variable (cfg : Config) (b : Backend)

def initial : Linked T U := ⟨.initial, .init⟩

/-- The address for which a call of `connect` needs a local port next. -/
def stackAddr (s : State T) (i : ℕ) : Option SocketAddr :=
  match s.objects[i]? with
  | some (.connecting k) => k.addrs.head?.filter fun addr ↦
      !State.viaSystem cfg addr && !addr.ip.isIpv6
  | _ => none

/-- The control socket after the requests. -/
def ask (calls : List (PortCall U)) (c : Control U) : Control U :=
  calls.foldl (fun c call ↦ (c.addPortMatch b cfg.ip call).2) c

/-- The draws of a call of `connect`, and the control socket after them. -/
def draws (x : Linked T U) (i : ℕ) (tries : List (PortTry U)) : List PortDraw × Control U :=
  match stackAddr cfg x.state i with
  | some addr => drawPorts cfg b addr tries x.control
  | none => ([], x.control)

def step (x : Linked T U) (a : LinkedAction T U) : Option (Linked T U) :=
  match a with
  | .acts (.connectNext ..) _ => none
  | .acts a calls => (x.state.step cfg a).map (⟨·, ask cfg b calls x.control⟩)
  | .connectNext i tries slot system =>
    let (draws, control) := x.draws cfg b i tries
    (x.state.step cfg (.connectNext i draws slot system)).map (⟨·, control⟩)
  | .panics calls => some { x with control := ask cfg b calls x.control }

/-- The numbers of the sockets that `connect` adds. -/
def dials (x : Linked T U) (a : LinkedAction T U) : List ℕ :=
  match a, x.step cfg b a with
  | .connectNext .., some x' =>
    List.range' x.state.net.sockets.added
      (x'.state.net.sockets.added - x.state.net.sockets.added)
  | _, _ => []

variable {cfg : Config} {b : Backend} {x x' : Linked T U} {a : LinkedAction T U}

theorem step_cases (h : x.step cfg b a = some x') :
    (∃ act calls, a = .acts act calls ∧ (∀ i draws slot system,
        act ≠ .connectNext i draws slot system) ∧ x.state.step cfg act = some x'.state ∧
      x'.control = ask cfg b calls x.control) ∨
    (∃ i tries slot system, a = .connectNext i tries slot system ∧
      x.state.step cfg (.connectNext i (x.draws cfg b i tries).1 slot system) = some x'.state ∧
      x'.control = (x.draws cfg b i tries).2) ∨
    ∃ calls, a = .panics calls ∧ x'.state = x.state ∧ x'.control = ask cfg b calls x.control := by
  cases a with
  | acts act calls =>
    left
    by_cases hact : ∃ i draws slot system, act = .connectNext i draws slot system
    · obtain ⟨i, draws, slot, system, rfl⟩ := hact
      exact absurd h (by simp [step])
    · simp only [not_exists] at hact
      rw [step] at h
      · obtain ⟨s', hs', rfl⟩ := Option.map_eq_some_iff.mp h
        exact ⟨act, calls, rfl, hact, hs', rfl⟩
      · exact hact
  | connectNext i tries slot system =>
    obtain ⟨s', hs', rfl⟩ := Option.map_eq_some_iff.mp h
    exact Or.inr (Or.inl ⟨i, tries, slot, system, rfl, hs', rfl⟩)
  | panics calls =>
    obtain rfl := Option.some.inj h
    exact Or.inr (Or.inr ⟨calls, rfl, rfl, rfl⟩)

theorem leads_ask {registered : U.State → WantMsg → Prop} (hU : U.Lawful registered)
    (calls : List (PortCall U)) (c : Control U) : Leads registered c (ask cfg b calls c) := by
  induction calls generalizing c with
  | nil => exact .refl c
  | cons call calls ih => exact (leads_addPortMatch hU).trans (ih _)

theorem answers_ask (hb : b.hasControl) {calls : List (PortCall U)} {c : Control U}
    (hnil : c.answers = []) (hno : ∀ call ∈ calls, ¬call.ReceiveFails) :
    (ask cfg b calls c).answers = [] := by
  induction calls generalizing c with
  | nil => exact hnil
  | cons call calls ih =>
    rw [List.forall_mem_cons] at hno
    exact ih (answers_addPortMatch hb hnil hno.1) hno.2

/-- `connect` makes sockets with the port that its loop ends with. -/
theorem chosenPort_of_makes {i : ℕ} {tries : List (PortTry U)} {k : Connecting} {addr : SocketAddr}
    {port : UInt16}
    (hi : x.state.objects[i]? = some (.connecting k)) (hhead : k.addrs.head? = some addr)
    (hstack : (State.viaSystem cfg addr || addr.ip.isIpv6) = false)
    (hport : choosePort cfg.kernelLocalPortRange (x.draws cfg b i tries).1 = some port) :
    stackAddr cfg x.state i = some addr ∧
      x.draws cfg b i tries = drawPorts cfg b addr tries x.control ∧
      chosenPort cfg b addr tries x.control = some port := by
  have haddr : stackAddr cfg x.state i = some addr := by
    rw [Bool.or_eq_false_iff] at hstack
    simp [stackAddr, hi, hhead, hstack]
  have hdraws : x.draws cfg b i tries = drawPorts cfg b addr tries x.control := by
    rw [draws, haddr]
  rw [hdraws] at hport
  exact ⟨haddr, hdraws, hport⟩

end Linked

/-! ## The ports of a socket -/

/-- What smoltcp reports of the two ends of a connection, with what is documented of the sockets
that have been told to connect: they keep both until the connection is over, and never listen. -/
structure Smoltcp.Endpoints (T : Smoltcp) where
  /-- The local port and the address of the peer, if there is one. -/
  ends : T.Tcp → Option (UInt16 × SocketAddr)
  ends_newTcp : ∀ n, ends (T.newTcp n) = none
  ends_connect : ∀ t addr port t', T.connect t addr port = some t' → ends t' = some (port, addr)
  ends_setHopLimit : ∀ t ttl t', T.setHopLimit t ttl = some t' → ends t' = ends t
  ends_close : ∀ t, ends (T.close t) = ends t
  ends_abort : ∀ t, ends (T.abort t) = ends t
  ends_sendSlice : ∀ t buf, ends (T.sendSlice t buf) = ends t
  ends_send : ∀ t f, ends (T.send t f) = ends t
  ends_recvSlice : ∀ t n, ends (T.recvSlice t n) = ends t
  ends_recv : ∀ t f, ends (T.recv t f) = ends t
  ends_process : ∀ e t, T.state t ∉ [.listen, .synReceived] →
    ends (T.process e t) = ends t ∨ ends (T.process e t) = none
  state_process : ∀ e t, T.state t ∉ [.listen, .synReceived] →
    T.state (T.process e t) ∉ [.listen, .synReceived]

/-- The ends of the connections of `Smoltcp.reference`. -/
def Smoltcp.referenceEnds : Smoltcp.reference.Endpoints where
  ends t := if t.localPort = 0 ∨ t.remote.port = 0 then none else some (t.localPort, t.remote)
  ends_newTcp _ := rfl
  ends_connect t addr port t' h := by
    simp only [reference] at h
    split at h
    · next hopen => simp [← Option.some.inj h, hopen]
    · exact absurd h (by simp)
  ends_setHopLimit t ttl t' h := by
    simp only [reference] at h
    split at h
    · exact absurd h (by simp)
    · rw [← Option.some.inj h]
  ends_close _ := rfl
  ends_abort _ := rfl
  ends_sendSlice _ _ := rfl
  ends_send _ _ := rfl
  ends_recvSlice _ _ := rfl
  ends_recv _ _ := rfl
  ends_process e t ht := by
    left
    obtain ⟨st, rx, due, port, remote⟩ := t
    -- a `SYN` has an effect only where the socket listens
    rcases e with remote | _ | len | _ | _ | _ <;> cases st <;>
      first | rfl | exact absurd ht (by simp [reference])
  state_process e t ht := by
    obtain ⟨st, rx, due, port, remote⟩ := t
    rcases e with remote | _ | len | _ | _ | _ <;> cases st <;> simp_all [reference]

namespace Smoltcp.Endpoints

variable (E : T.Endpoints)

/-- What has become of a socket that `connect` has made. -/
structure Dialled (t t' : T.Tcp) : Prop where
  state : T.state t ∉ [.listen, .synReceived] → T.state t' ∉ [.listen, .synReceived]
  ends : T.state t ∉ [.listen, .synReceived] → E.ends t' = E.ends t ∨ E.ends t' = none

variable {E} {t t' t'' : T.Tcp}

theorem Dialled.refl (t : T.Tcp) : E.Dialled t t := ⟨id, fun _ ↦ Or.inl rfl⟩

theorem Dialled.trans (h : E.Dialled t t') (h' : E.Dialled t' t'') : E.Dialled t t'' := by
  refine ⟨h'.state ∘ h.state, fun ht ↦ ?_⟩
  rcases h'.ends (h.state ht) with he | hnone
  · rw [he]
    exact h.ends ht
  · exact Or.inr hnone

theorem Dialled.of_eq (hstate : T.state t' = T.state t) (hends : E.ends t' = E.ends t) :
    E.Dialled t t' :=
  ⟨fun ht ↦ hstate ▸ ht, fun _ ↦ Or.inl hends⟩

theorem dialled_of_does {a : Action T} (h : a.Does (.inl t) (.inl t')) : E.Dialled t t' := by
  cases h with
  | close =>
    refine ⟨fun ht ↦ ?_, fun _ ↦ Or.inl (E.ends_close t)⟩
    rw [T.state_close]
    revert ht
    cases T.state t <;> simp [TcpState.close]
  | abort => exact ⟨fun _ ↦ by simp [T.state_abort], fun _ ↦ Or.inl (E.ends_abort t)⟩
  | setHopLimit _ h => exact .of_eq (T.state_setHopLimit _ _ _ h) (E.ends_setHopLimit _ _ _ h)
  | sendSlice => exact .of_eq (T.state_sendSlice _ _) (E.ends_sendSlice _ _)
  | send => exact .of_eq (T.state_send _ _) (E.ends_send _ _)
  | recvSlice => exact .of_eq (T.state_recvSlice _ _) (E.ends_recvSlice _ _)
  | recv => exact .of_eq (T.state_recv _ _) (E.ends_recv _ _)
  | process _ e => exact ⟨E.state_process e t, E.ends_process e t⟩

/-- The socket of the handle has the local port and the peer. -/
def At (E : T.Endpoints) (S : SocketSet T) (h : SocketHandle) (port : UInt16) (addr : SocketAddr) :
    Prop :=
  ∃ t, S.getTcp h = some t ∧ E.ends t = some (port, addr)

end Smoltcp.Endpoints

namespace Linked

variable {cfg : Config} {b : Backend} {x x' : Linked T U} {a : LinkedAction T U} {E : T.Endpoints}

/-! ## No two connections with the same ports -/

/-- No value of the application has a socket that `connect` has made and that has the local port and
the peer. -/
def Unused (E : T.Endpoints) (x : Linked T U × List ℕ) (port : UInt16) (addr : SocketAddr) : Prop :=
  ∀ h r, (h, r) ∈ x.1.state.objects.flatMap State.holdings → h.uid ∈ x.2 →
    ¬E.At x.1.state.net.sockets h port addr

/-- Where a call of `connect` draws ports: usnetd is asked, and no receive on the control socket has
failed or fails now; or no port that it asks for is in use. -/
def SafeDraws (cfg : Config) (b : Backend) (E : T.Endpoints) (x : Linked T U × List ℕ)
    (a : LinkedAction T U) : Prop :=
  ∀ i tries slot system addr, a = .connectNext i tries slot system →
    stackAddr cfg x.1.state i = some addr →
    (b.hasControl = true ∧ x.1.control.answers = [] ∧ ∀ t ∈ tries, ¬t.ReceiveFails) ∨
    ∀ t ∈ askedTries cfg b tries, Unused E x t.port.val addr

/-- Two streams that `connect` has made have different local ports, or different peers, or are
clones of one another. -/
def NoTwins (E : T.Endpoints) (x : Linked T U × List ℕ) : Prop :=
  ∀ h h' port addr, .stream h ∈ x.1.state.objects → .stream h' ∈ x.1.state.objects →
    h.uid ∈ x.2 → h'.uid ∈ x.2 → E.At x.1.state.net.sockets h port addr →
    E.At x.1.state.net.sockets h' port addr → h.uid = h'.uid

/-- The invariant. Sockets that still wait for their connection count as well, and what is held is
registered as long as each request got its own answer. -/
structure Apart (cfg : Config) (b : Backend) (E : T.Endpoints)
    (registered : U.State → WantMsg → Prop) (x : Linked T U × List ℕ) : Prop where
  kept : State.Kept (fun _ _ _ ↦ True) x.1.state.net.sockets x.1.state.objects
  uid_lt : ∀ u ∈ x.2, u < x.1.state.net.sockets.added
  dialled : ∀ h r t, (h, r) ∈ x.1.state.objects.flatMap State.holdings → h.uid ∈ x.2 →
    x.1.state.net.sockets.getTcp h = some t → T.state t ∉ [.listen, .synReceived]
  apart : ∀ h r h' r' port addr, (h, r) ∈ x.1.state.objects.flatMap State.holdings →
    (h', r') ∈ x.1.state.objects.flatMap State.holdings → h.uid ∈ x.2 → h'.uid ∈ x.2 →
    E.At x.1.state.net.sockets h port addr → E.At x.1.state.net.sockets h' port addr →
    h.uid = h'.uid
  registered : b.hasControl = true → x.1.control.answers = [] → ∀ h r port addr,
    (h, r) ∈ x.1.state.objects.flatMap State.holdings → h.uid ∈ x.2 →
    E.At x.1.state.net.sockets h port addr →
    registered x.1.control.usnetd (connectWant cfg port addr)

variable {registered : U.State → WantMsg → Prop} {log es : List ℕ}

/-- A socket of `connect` that is held after a step was held before, or has been made by it. -/
theorem Apart.traces (h : Apart cfg b E registered (x, log)) {act : Action T}
    (hstep : x.state.step cfg act = some x'.state)
    (hes : ∀ u ∈ es, x.state.net.sockets.added ≤ u) {k : SocketHandle} {r : Role} {t' : T.Tcp}
    (hk : (k, r) ∈ x'.state.objects.flatMap State.holdings) (hlog : k.uid ∈ log ++ es)
    (ht' : x'.state.net.sockets.getTcp k = some t') :
    (k.uid ∈ log ∧ ∃ r t, (k, r) ∈ x.state.objects.flatMap State.holdings ∧
      x.state.net.sockets.getTcp k = some t ∧ E.Dialled t t') ∨
    (k.uid ∈ es ∧ ∃ t, x.state.Makes cfg act (.inl t) ∧ E.Dialled t t') := by
  have hdialled {y z : T.Tcp} (hdoes : Relation.ReflTransGen act.Does (.inl y) (.inl z)) :
      E.Dialled y z := by
    obtain ⟨y', hy', hd⟩ := Action.Does.of_reflTransGen (Q := E.Dialled) .refl
      (fun _ _ _ ↦ .trans) (fun _ _ ↦ Smoltcp.Endpoints.dialled_of_does) hdoes rfl
    exact Sum.inl.inj hy' ▸ hd
  have hkept' := h.kept.counted hstep
  rcases List.mem_append.mp hlog with hlog | hlog
  · rcases (State.rearranges_of_step hstep).held hk with ⟨r₀, hk₀⟩ | hnew
    · obtain ⟨t, ht, hdoes⟩ := State.does_of_step h.kept hkept' hstep hk₀ hk ht'
      exact Or.inl ⟨hlog, r₀, t, hk₀, ht, hdialled hdoes⟩
    · exact absurd (h.uid_lt _ hlog) (Nat.not_lt.mpr hnew)
  · obtain ⟨t, hmade, hdoes⟩ :=
      State.makes_of_step h.kept hkept' hstep hk ht' (hes _ hlog)
    exact Or.inr ⟨hlog, t, hmade, hdialled hdoes⟩

/-- A step keeps the invariant if the ends of what it connects are not in use, and registered. -/
theorem Apart.grows (h : Apart cfg b E registered (x, log)) {act : Action T}
    (hstep : x.state.step cfg act = some x'.state)
    (hes : ∀ u ∈ es, x.state.net.sockets.added ≤ u ∧ u < x'.state.net.sockets.added)
    (hone : ∀ u ∈ es, ∀ u' ∈ es, u = u') (hleads : Leads registered x.control x'.control)
    (hmakes : ∀ u ∈ es, ∀ t, x.state.Makes cfg act (.inl t) →
      T.state t ∉ [.listen, .synReceived] ∧ ∀ port addr, E.ends t = some (port, addr) →
        Unused E (x, log) port addr ∧ (b.hasControl = true → x'.control.answers = [] →
          registered x'.control.usnetd (connectWant cfg port addr))) :
    Apart cfg b E registered (x', log ++ es) := by
  have hadded := (State.rearranges_of_step hstep).added_le
  -- where a socket has its ends from
  have hends {k : SocketHandle} {r : Role} {port : UInt16} {addr : SocketAddr}
      (hk : (k, r) ∈ x'.state.objects.flatMap State.holdings) (hlog : k.uid ∈ log ++ es)
      (hat : E.At x'.state.net.sockets k port addr) :
      (k.uid ∈ log ∧ ∃ r, (k, r) ∈ x.state.objects.flatMap State.holdings ∧
        E.At x.state.net.sockets k port addr) ∨
      (k.uid ∈ es ∧ ∃ t, x.state.Makes cfg act (.inl t) ∧ E.ends t = some (port, addr)) := by
    obtain ⟨t', ht', he'⟩ := hat
    obtain ⟨hu, r₀, t, hk₀, ht, hd⟩ | ⟨hu, t, hmade, hd⟩ :=
      h.traces hstep (fun u hu ↦ (hes u hu).1) hk hlog ht'
    · rcases hd.ends (h.dialled k r₀ t hk₀ hu ht) with he | hnone
      · exact Or.inl ⟨hu, r₀, hk₀, t, ht, he.symm.trans he'⟩
      · exact absurd (hnone.symm.trans he') (by simp)
    · rcases hd.ends (hmakes _ hu t hmade).1 with he | hnone
      · exact Or.inr ⟨hu, t, hmade, he.symm.trans he'⟩
      · exact absurd (hnone.symm.trans he') (by simp)
  refine ⟨h.kept.counted hstep, ?_, ?_, ?_, ?_⟩
  · intro u hu
    rcases List.mem_append.mp hu with hu | hu
    · exact (h.uid_lt u hu).trans_le hadded
    · exact (hes u hu).2
  · intro k r t' hk hlog ht'
    obtain ⟨hu, r₀, t, hk₀, ht, hd⟩ | ⟨hu, t, hmade, hd⟩ :=
      h.traces hstep (fun u hu ↦ (hes u hu).1) hk hlog ht'
    · exact hd.state (h.dialled k r₀ t hk₀ hu ht)
    · exact hd.state (hmakes _ hu t hmade).1
  · intro k₁ r₁ k₂ r₂ port addr hk₁ hk₂ hu₁ hu₂ hat₁ hat₂
    obtain ⟨hu₁, r₁', hk₁', hat₁'⟩ | ⟨hu₁, t₁, hmade₁, he₁⟩ := hends hk₁ hu₁ hat₁
    · obtain ⟨hu₂, r₂', hk₂', hat₂'⟩ | ⟨hu₂, t₂, hmade₂, he₂⟩ := hends hk₂ hu₂ hat₂
      · exact h.apart _ _ _ _ _ _ hk₁' hk₂' hu₁ hu₂ hat₁' hat₂'
      · exact absurd hat₁' (((hmakes _ hu₂ t₂ hmade₂).2 port addr he₂).1 _ _ hk₁' hu₁)
    · obtain ⟨hu₂, r₂', hk₂', hat₂'⟩ | ⟨hu₂, -⟩ := hends hk₂ hu₂ hat₂
      · exact absurd hat₂' (((hmakes _ hu₁ t₁ hmade₁).2 port addr he₁).1 _ _ hk₂' hu₂)
      · exact hone _ hu₁ _ hu₂
  · intro hb hnil k r port addr hk hu hat
    obtain ⟨hu, r₀, hk₀, hat₀⟩ | ⟨hu, t, hmade, he⟩ := hends hk hu hat
    · exact hleads.keeps _
        (h.registered hb (hleads.answers_eq_nil hnil) _ _ _ _ hk₀ hu hat₀)
    · exact ((hmakes _ hu t hmade).2 port addr he).2 hb hnil

theorem added_connectNext {s s' : State T} {i slot : ℕ} {draws : List PortDraw}
    {system : Except IoError Unit}
    (h : s.step cfg (.connectNext i draws slot system) = some s') :
    s'.net.sockets.added ≤ s.net.sockets.added + 1 := by
  have hr := State.rearranges_of_step h
  generalize s'.objects = objects at hr
  generalize s'.net.sockets.added = added at hr ⊢
  cases hr <;> omega

theorem Apart.step (hU : U.Lawful registered) (h : Apart cfg b E registered (x, log))
    (hsafe : SafeDraws cfg b E (x, log) a) (hstep : x.step cfg b a = some x') :
    Apart cfg b E registered (x', log ++ x.dials cfg b a) := by
  obtain ⟨act, calls, rfl, hact, hs, hc⟩ | ⟨i, tries, slot, system, rfl, hs, hc⟩ |
    ⟨calls, rfl, hs, hc⟩ := step_cases hstep
  · exact h.grows hs (by simp [dials]) (by simp [dials]) (hc ▸ leads_ask hU calls _)
      (by simp [dials])
  · have hdials : x.dials cfg b (.connectNext i tries slot system) =
        List.range' x.state.net.sockets.added
          (x'.state.net.sockets.added - x.state.net.sockets.added) := by
      simp only [dials, hstep]
    have hle := (State.rearranges_of_step hs).added_le
    have hsucc := added_connectNext hs
    have hleads : Leads registered x.control x'.control := by
      rw [hc, draws]
      split
      · exact leads_drawPorts hU _ tries _
      · exact .refl _
    have hnew : ∀ u ∈ x.dials cfg b (.connectNext i tries slot system),
        x.state.net.sockets.added ≤ u ∧ u < x'.state.net.sockets.added := by
      intro u hu
      rw [hdials, List.mem_range'_1] at hu
      omega
    refine h.grows hs hnew ?_ hleads ?_
    · intro u hu u' hu'
      have hu := hnew u hu
      have hu' := hnew u' hu'
      omega
    · intro u hu t hmade
      rcases hmade with ⟨ha, _, _⟩ | ⟨ha, _⟩ | ⟨ha, _, _⟩ | ⟨ha, _, _⟩ |
        ⟨ha, hi, hhead, hstack, hport, hconnect⟩ | ⟨ha⟩
      · exact absurd ha (by simp)
      · exact absurd ha (by simp)
      · exact absurd ha (by simp)
      · obtain ⟨rfl, rfl, rfl, rfl⟩ := Action.connectNext.inj ha
        refine ⟨by simp [T.state_connect _ _ _ _ hconnect], fun port addr he ↦ ?_⟩
        rw [E.ends_connect _ _ _ _ hconnect, Option.some_inj, Prod.mk.injEq] at he
        obtain ⟨rfl, rfl⟩ := he
        obtain ⟨haddr, hdraws, hport⟩ := chosenPort_of_makes hi hhead hstack hport
        refine ⟨?_, fun hb hnil ↦ ?_⟩
        · rcases hsafe _ tries _ _ _ rfl haddr with ⟨hb, hnil, hno⟩ | hunused
          · intro k r hk hlog hat
            have hregisters := registers_drawPorts hU hb hport (answers_drawPorts hb hnil hno)
            exact hregisters.1 (h.registered hb hnil _ _ _ _ hk hlog hat)
          · obtain ⟨t, ht, rfl⟩ := exists_mem_askedTries hport
            exact hunused t ht
        · rw [hc, hdraws] at hnil ⊢
          exact (registers_drawPorts hU hb hport hnil).2
      · exact ⟨by simp [T.state_newTcp], fun port addr he ↦ absurd he (by simp [E.ends_newTcp])⟩
  · have hdials : x.dials cfg b (.panics calls) = [] := by simp [dials]
    rw [hdials, List.append_nil]
    have hleads : Leads registered x.control x'.control := hc ▸ leads_ask hU calls _
    refine ⟨hs ▸ h.kept, hs ▸ h.uid_lt, hs ▸ h.dialled, hs ▸ h.apart, fun hb hnil ↦ ?_⟩
    intro k r port addr hk hlog hat
    rw [hs] at hk hat
    exact hleads.keeps _ (h.registered hb (hleads.answers_eq_nil hnil) _ _ _ _ hk hlog hat)

theorem Apart.noTwins {x : Linked T U × List ℕ} (h : Apart cfg b E registered x) :
    NoTwins E x := by
  intro k₁ k₂ port addr hs₁ hs₂ hu₁ hu₂ hat₁ hat₂
  have hheld {k : SocketHandle} (hs : .stream k ∈ x.1.state.objects) :
      ∃ r, (k, r) ∈ x.1.state.objects.flatMap State.holdings :=
    ⟨_, List.mem_flatMap.mpr ⟨_, hs, List.mem_cons_self⟩⟩
  obtain ⟨r₁, hk₁⟩ := hheld hs₁
  obtain ⟨r₂, hk₂⟩ := hheld hs₂
  exact h.apart _ _ _ _ _ _ hk₁ hk₂ hu₁ hu₂ hat₁ hat₂

/-- **Local ports.** In every state of a run in which all calls of `connect` draw ports safely, no
two streams have the same local port and the same peer. -/
theorem noTwins_of_run (hU : U.Lawful registered) {as : List (LinkedAction T U)}
    {y : Linked T U × List ℕ}
    (hsafe : Along (logged (step cfg b) (dials cfg b)) (SafeDraws cfg b E) (initial, []) as)
    (hrun : run (logged (step cfg b) (dials cfg b)) (initial, []) as = some y) : NoTwins E y := by
  have hinitial : Apart cfg b E registered ((initial, []) : Linked T U × List ℕ) :=
    ⟨State.kept_initial, by simp, by simp, by simp, by simp⟩
  refine (invariant_of_along (I := Apart cfg b E registered) ?_ hinitial hsafe hrun).noTwins
  rintro ⟨x, log⟩ a z h hC hstep
  obtain ⟨x', hx', rfl⟩ := logged_eq_some.mp hstep
  exact h.step hU hC hx'

/-- No request of the action fails to receive its answer. -/
def Received : LinkedAction T U → Prop
  | .acts _ calls | .panics calls => ∀ call ∈ calls, ¬call.ReceiveFails
  | .connectNext _ tries _ _ => ∀ t ∈ tries, ¬t.ReceiveFails

theorem answers_step (hb : b.hasControl) (hnil : x.control.answers = []) (ha : Received a)
    (h : x.step cfg b a = some x') : x'.control.answers = [] := by
  obtain ⟨act, calls, rfl, -, -, hc⟩ | ⟨i, tries, slot, system, rfl, -, hc⟩ |
    ⟨calls, rfl, -, hc⟩ := step_cases h
  · rw [hc]
    exact answers_ask hb hnil ha
  · rw [hc, draws]
    split
    · exact answers_drawPorts hb hnil ha
    · exact hnil
  · rw [hc]
    exact answers_ask hb hnil ha

/-- With usnetd, ports are drawn safely as long as no receive on the control socket fails. -/
theorem along_safeDraws (hb : b.hasControl) {as : List (LinkedAction T U)}
    (has : ∀ a ∈ as, Received a) :
    Along (logged (step cfg b) (dials cfg b)) (SafeDraws cfg b E) (initial, []) as := by
  let I (x : Linked T U × List ℕ) : Prop := x.1.control.answers = []
  refine along_of_invariant (I := I) rfl ?_ ?_
  · rintro ⟨x, log⟩ _ ha hnil i tries slot system addr rfl -
    exact Or.inl ⟨hb, hnil, has _ ha⟩
  · rintro ⟨x, log⟩ a y ha hnil hstep
    obtain ⟨x', hx', rfl⟩ := logged_eq_some.mp hstep
    exact answers_step hb hnil (has a ha) hx'

/-- A connection to `10.0.0.9:80`, from the call of `connect` to its return. It is the value at
place `i`, and its socket gets the given slot. -/
def connectTo (i slot : ℕ) (ports : List RandomPort) : List (LinkedAction .reference .reference) :=
  [.acts (.connect [⟨.v4 10 0 0 9, 80⟩] false) [], .acts (.bgFirst 0) [],
    .connectNext i (ports.map (⟨·, (), true, none⟩)) slot (.ok ()), .acts (.bgPoll true) [],
    .acts (.bgSecond [(slot, .ack)]) [], .acts (.connectWake i) []]

/-- The ends of the connection of a handle. -/
def endsOf (x : Linked .reference .reference) (h : SocketHandle) :
    Option (TcpState × Option (UInt16 × SocketAddr)) :=
  (x.state.net.sockets.getTcp h).map fun t ↦
    (Smoltcp.reference.state t, Smoltcp.referenceEnds.ends t)

/-- usnetd refuses the port that is drawn again, and the second connection gets another one. -/
theorem noTwins_of_run_sameDraw : ∃ y : Linked .reference .reference × List ℕ,
    run (logged (step .reference .usnetUds) (dials .reference .usnetUds)) (initial, [])
      (connectTo 0 0 [⟨3000, by decide⟩] ++ connectTo 1 1 [⟨3000, by decide⟩, ⟨3001, by decide⟩]) =
      some y ∧
    (y.2, y.1.state.objects, endsOf y.1 ⟨0, 0⟩, endsOf y.1 ⟨1, 1⟩) =
      ([0, 1], [.stream ⟨0, 0⟩, .stream ⟨1, 1⟩],
        some (.established, some (3000, ⟨.v4 10 0 0 9, 80⟩)),
        some (.established, some (3001, ⟨.v4 10 0 0 9, 80⟩))) ∧
    NoTwins Smoltcp.referenceEnds y := by
  have hreceived : ∀ a ∈ connectTo 0 0 [⟨3000, by decide⟩] ++
      connectTo 1 1 [⟨3000, by decide⟩, ⟨3001, by decide⟩], Received a := by
    simp [connectTo, Received, PortTry.ReceiveFails]
  obtain ⟨y, hrun, hy⟩ := Option.map_eq_some_iff.mp (show (run (logged (step .reference .usnetUds)
    (dials .reference .usnetUds)) (initial, []) (connectTo 0 0 [⟨3000, by decide⟩] ++
      connectTo 1 1 [⟨3000, by decide⟩, ⟨3001, by decide⟩])).map
        (fun y ↦ (y.2, y.1.state.objects, endsOf y.1 ⟨0, 0⟩, endsOf y.1 ⟨1, 1⟩)) = some
      ([0, 1], [.stream ⟨0, 0⟩, .stream ⟨1, 1⟩],
        some (.established, some (3000, ⟨.v4 10 0 0 9, 80⟩)),
        some (.established, some (3001, ⟨.v4 10 0 0 9, 80⟩))) from rfl)
  exact ⟨y, hrun, hy,
    noTwins_of_run Usnetd.lawful_reference (along_safeDraws rfl hreceived) hrun⟩

/-- A TAP device has nobody to ask, and the port that is drawn again is taken again. The first
connection is in the higher slot, since a UDP socket was bound before it and dropped after it, so
the `SYN` of the second is the one that smoltcp finds the answer of the peer for. -/
theorem not_noTwins : ∃ y : Linked .reference .reference × List ℕ,
    run (logged (step .reference .tap) (dials .reference .tap)) (initial, [])
      (.acts (.bindUdp [.granted ⟨.v4 10 0 0 2, 53⟩ 8] 0) [] ::
        connectTo 1 1 [⟨3000, by decide⟩] ++
        .acts (.dropUdp 0) [] :: connectTo 2 0 [⟨3000, by decide⟩]) = some y ∧
    (y.2, y.1.state.objects, endsOf y.1 ⟨1, 1⟩, endsOf y.1 ⟨0, 2⟩) =
      ([1, 2], [.gone, .stream ⟨1, 1⟩, .stream ⟨0, 2⟩],
        some (.established, some (3000, ⟨.v4 10 0 0 9, 80⟩)),
        some (.established, some (3000, ⟨.v4 10 0 0 9, 80⟩))) ∧
    ¬NoTwins Smoltcp.referenceEnds y := by
  obtain ⟨y, hrun, hy⟩ := Option.map_eq_some_iff.mp (show (run (logged (step .reference .tap)
    (dials .reference .tap)) (initial, []) (.acts (.bindUdp [.granted ⟨.v4 10 0 0 2, 53⟩ 8] 0) [] ::
        connectTo 1 1 [⟨3000, by decide⟩] ++
        .acts (.dropUdp 0) [] :: connectTo 2 0 [⟨3000, by decide⟩])).map
        (fun y ↦ (y.2, y.1.state.objects, endsOf y.1 ⟨1, 1⟩, endsOf y.1 ⟨0, 2⟩)) = some
      ([1, 2], [.gone, .stream ⟨1, 1⟩, .stream ⟨0, 2⟩],
        some (.established, some (3000, ⟨.v4 10 0 0 9, 80⟩)),
        some (.established, some (3000, ⟨.v4 10 0 0 9, 80⟩))) from rfl)
  refine ⟨y, hrun, hy, fun h ↦ ?_⟩
  simp only [Prod.mk.injEq] at hy
  obtain ⟨hlog, hobjects, hfirst, hsecond⟩ := hy
  obtain ⟨t, ht, he⟩ := Option.map_eq_some_iff.mp hfirst
  obtain ⟨t', ht', he'⟩ := Option.map_eq_some_iff.mp hsecond
  have hsame := h ⟨1, 1⟩ ⟨0, 2⟩ 3000 ⟨.v4 10 0 0 9, 80⟩ (by simp [hobjects]) (by simp [hobjects])
    (by simp [hlog]) (by simp [hlog]) ⟨t, ht, congrArg Prod.snd he⟩ ⟨t', ht', congrArg Prod.snd he'⟩
  exact absurd hsame (by decide)

end Linked

end UsnetSockets
