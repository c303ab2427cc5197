import Mathlib.Data.List.Induction
import UsnetSockets.Net.StcpNet
import UsnetSockets.Program.Outcome
import UsnetSockets.Transition.Run

/-!
# Asking usnetd for a port

`add_port_match` of `device.rs`. A backend that works with the service usnetd has a control socket:
the request goes out as a datagram, and usnetd answers with another. Neither carries a number, so
the answer that a call receives is the oldest one that has not been received yet.

usnetd is not part of this repository and is a parameter here. It gets the requests in the order in
which they are sent and answers each of them once; how it answers is up to it. The model numbers
requests and answers in order to say which belong together. No function decides anything by these
numbers.
-/

namespace UsnetSockets

/-- `StcpBackendInterface`. -/
inductive Backend where
  | raw
  | tap
  | macVtap
  | netmap
  | usnetUds
  | usnetNetmap
  deriving DecidableEq

/-- Whether `control()` returns a socket. -/
def Backend.hasControl : Backend → Bool
  | .usnetUds | .usnetNetmap => true
  | _ => false

inductive IpProtocol where
  | tcp
  | udp
  deriving DecidableEq

def IpProtocol.toU8 : IpProtocol → UInt8
  | tcp => 6
  | udp => 17

/-- The arguments of `add_port_match`. -/
structure PortMatch where
  ipa : IpAddr
  port : Option UInt16
  remoteAddr : Option IpAddr
  remotePort : Option UInt16
  protocol : IpProtocol
  deriving DecidableEq

/-- The request. The addresses go out as text. -/
structure WantMsg where
  dstAddr : IpAddr
  dstPort : Option UInt16
  srcAddr : Option IpAddr
  srcPort : Option UInt16
  protocol : UInt8
  deriving DecidableEq

/-- The request of a call, where `ip` is the address of the interface. -/
def PortMatch.want (m : PortMatch) (ip : IpAddr) : WantMsg where
  dstAddr := if m.ipa.isUnspecified then ip else m.ipa
  dstPort := m.port
  srcAddr := m.remoteAddr
  srcPort := m.remotePort
  protocol := m.protocol.toU8

/-- The service usnetd, as one of its clients sees it. -/
structure Usnetd where
  State : Type
  init : State
  /-- What else happens at usnetd before a request gets there. -/
  Event : Type
  /-- What `AddMatch` does, with the answer. -/
  addMatch : State → Event → WantMsg → State × List UInt8
  length_answer : ∀ σ e w, (addMatch σ e w).2.length = 2

/-- A service with one client, which remembers what it has granted. -/
def Usnetd.reference : Usnetd where
  State := List WantMsg
  init := []
  Event := Unit
  addMatch σ _ w := if w ∈ σ then (σ, [0x4e, 0x4f]) else (w :: σ, [0x4f, 0x4b])
  length_answer σ e w := by split <;> rfl

/-- An answer of usnetd, with the number of the request that it is for. -/
structure Answer where
  request : ℕ
  bytes : List UInt8

/-- The control socket, with usnetd behind it. -/
structure Control (U : Usnetd) where
  usnetd : U.State
  /-- The number of requests so far. -/
  requests : ℕ
  /-- The answers that have not been received, oldest first. -/
  answers : List Answer

/-- One call of `add_port_match`: its arguments, what happens at usnetd, and what the kernel makes
of the two calls on the control socket. -/
structure PortCall (U : Usnetd) where
  arg : PortMatch
  event : U.Event
  /-- Whether `send_to` succeeds. -/
  send : Bool
  /-- The error of `recv_from`. -/
  recv : Option IoError

namespace Answer

/-- What a call makes of the answer that it receives. The buffer holds two bytes, and a shorter
answer is not expected. -/
def verdict (ans : Answer) : Outcome IoError Unit :=
  if ans.bytes.length < 2 then .panic
  else if ans.bytes.take 2 = "OK".toList.map (UInt8.ofNat ·.toNat) then .ok ()
  else .err (.other "port not free")

end Answer

namespace Control

variable {U : Usnetd} (b : Backend) (ip : IpAddr) (c : Control U) (call : PortCall U)

def init : Control U := ⟨U.init, 0, []⟩

/-- usnetd's answer to the request of the call. -/
def answer : Answer :=
  ⟨c.requests, (U.addMatch c.usnetd call.event (call.arg.want ip)).2⟩

/-- The control socket after the request has been sent and answered. -/
def sent : Control U where
  usnetd := (U.addMatch c.usnetd call.event (call.arg.want ip)).1
  requests := c.requests + 1
  answers := c.answers ++ [c.answer ip call]

/-- `recv_from`, after the request has been sent: the oldest answer, or an error that leaves all of
them there. -/
def recv : Except IoError Answer × Control U :=
  match call.recv with
  | some e => (.error e, c.sent ip call)
  | none =>
    match c.answers with
    | [] => (.ok (c.answer ip call), { c.sent ip call with answers := [] })
    | ans :: rest => (.ok ans, { c.sent ip call with answers := rest ++ [c.answer ip call] })

/-- `add_port_match`. -/
def addPortMatch : Outcome IoError Unit × Control U :=
  if b.hasControl then
    if call.send then
      match c.recv ip call with
      -- an error leaves through `?`, and the answer stays where it is
      | (.error e, c) => (.err e, c)
      | (.ok ans, c) => (ans.verdict, c)
    else (.panic, c)
  else (.ok (), c)

/-- One call after the other on the control socket. -/
def step (c : Control U) (call : PortCall U) : Option (Control U) :=
  some (c.addPortMatch b ip call).2

/-- If the call receives an answer, that is usnetd's answer to its own request, and `add_port_match`
returns what this answer says. -/
def OwnVerdict : Prop :=
  call.send = true → ∀ ans c', c.recv ip call = (.ok ans, c') →
    ans = c.answer ip call ∧ (c.addPortMatch b ip call).1 = (c.answer ip call).verdict

end Control

namespace PortCall

variable {U : Usnetd}

/-- The call gets an answer from the control socket. -/
def Receives (call : PortCall U) : Prop := call.send = true ∧ call.recv = none

/-- The call has sent its request and fails to receive an answer. -/
def ReceiveFails (call : PortCall U) : Prop := call.send = true ∧ call.recv ≠ none

instance (call : PortCall U) : Decidable call.ReceiveFails :=
  inferInstanceAs (Decidable (call.send = true ∧ call.recv ≠ none))

end PortCall

namespace Control

open Transition

variable {U : Usnetd} {b : Backend} {ip : IpAddr} {c c' : Control U} {call : PortCall U}

/-- **What a call does to the answers.** It receives the oldest and leaves its own behind the rest,
or it leaves its own behind all of them, or it does not get to send its request. -/
theorem addPortMatch_cases (ip : IpAddr) (c : Control U) (call : PortCall U) (hb : b.hasControl) :
    (call.Receives ∧
      ((c.answers = [] ∧ c.recv ip call = (.ok (c.answer ip call),
        { c.sent ip call with answers := [] })) ∨
      ∃ ans rest, c.answers = ans :: rest ∧ c.recv ip call = (.ok ans,
        { c.sent ip call with answers := rest ++ [c.answer ip call] })) ∧
      (c.addPortMatch b ip call).2 = (c.recv ip call).2) ∨
    (call.ReceiveFails ∧ (∃ e, c.recv ip call = (.error e, c.sent ip call)) ∧
      (c.addPortMatch b ip call).2 = c.sent ip call) ∨
    (call.send = false ∧ (c.addPortMatch b ip call).2 = c) := by
  cases hsend : call.send with
  | false => exact Or.inr (Or.inr ⟨rfl, by simp [addPortMatch, hb, hsend]⟩)
  | true =>
    cases hrecv : call.recv with
    | some e =>
      have he : c.recv ip call = (.error e, c.sent ip call) := by rw [recv, hrecv]
      exact Or.inr (Or.inl
        ⟨⟨hsend, by simp [hrecv]⟩, ⟨e, he⟩, by simp [addPortMatch, hb, hsend, he]⟩)
    | none =>
      left
      cases hans : c.answers with
      | nil =>
        have he : c.recv ip call =
            (.ok (c.answer ip call), { c.sent ip call with answers := [] }) := by
          rw [recv, hrecv, hans]
        exact ⟨⟨hsend, hrecv⟩, Or.inl ⟨rfl, he⟩, by simp [addPortMatch, hb, hsend, he]⟩
      | cons ans rest =>
        have he : c.recv ip call =
            (.ok ans, { c.sent ip call with answers := rest ++ [c.answer ip call] }) := by
          rw [recv, hrecv, hans]
        exact ⟨⟨hsend, hrecv⟩, Or.inr ⟨ans, rest, rfl, he⟩, by simp [addPortMatch, hb, hsend, he]⟩

/-- The answers that wait are those to the last requests, in their order. -/
def Numbered (c : Control U) : Prop :=
  ∀ k ans, c.answers[k]? = some ans → ans.request + c.answers.length = c.requests + k

theorem Numbered.sent (h : c.Numbered) (ip : IpAddr) (call : PortCall U) :
    (c.sent ip call).Numbered := by
  intro k ans hk
  simp only [Control.sent, List.length_append, List.length_singleton] at hk ⊢
  rcases lt_or_ge k c.answers.length with hlt | hge
  · rw [List.getElem?_append_left hlt] at hk
    have hbefore := h k ans hk
    omega
  · rw [List.getElem?_append_right hge, List.getElem?_singleton] at hk
    split at hk
    · rw [← Option.some.inj hk]
      simp only [answer]
      omega
    · exact absurd hk (by simp)

/-- The oldest answer goes, and the next one is the oldest. -/
theorem Numbered.tail {ans : Answer} {rest : List Answer} (h : c.Numbered)
    (hans : c.answers = ans :: rest) : ({ c with answers := rest } : Control U).Numbered := by
  intro k ans' hk
  have hnext := h (k + 1) ans' (by rw [hans]; exact hk)
  rw [hans, List.length_cons] at hnext
  dsimp only
  omega

theorem Numbered.step (hb : b.hasControl) (h : c.Numbered) (hstep : c.step b ip call = some c') :
    c'.Numbered := by
  rw [Control.step, Option.some_inj] at hstep
  subst hstep
  obtain ⟨-, hrecv, he⟩ | ⟨-, -, he⟩ | ⟨-, he⟩ := addPortMatch_cases ip c call hb
  · rw [he]
    obtain ⟨hnil, hr⟩ | ⟨ans, rest, hans, hr⟩ := hrecv
    · rw [hr]
      exact fun k ans hk ↦ absurd hk (by simp)
    · rw [hr]
      exact (h.sent ip call).tail (by rw [Control.sent, hans]; rfl)
  · rw [he]
    exact h.sent ip call
  · rwa [he]

/-- What is returned is what the received answer says. -/
theorem addPortMatch_of_recv {ans : Answer} (hb : b.hasControl) (hsend : call.send = true)
    (hrecv : c.recv ip call = (.ok ans, c')) : (c.addPortMatch b ip call).1 = ans.verdict := by
  rw [addPortMatch, if_pos hb, if_pos hsend, hrecv]

/-- The answer that a call receives is its own exactly when no other is there. -/
theorem ownVerdict_iff (hb : b.hasControl) (h : c.Numbered) (hr : call.Receives) :
    c.OwnVerdict b ip call ↔ c.answers = [] := by
  obtain ⟨hsend, hrecv⟩ := hr
  rcases hans : c.answers with _ | ⟨ans, rest⟩
  · have he : c.recv ip call =
        (.ok (c.answer ip call), { c.sent ip call with answers := [] }) := by
      rw [recv, hrecv, hans]
    refine iff_of_true (fun _ ans c' hr ↦ ?_) rfl
    obtain rfl : c.answer ip call = ans := Except.ok.inj (congrArg Prod.fst (he.symm.trans hr))
    exact ⟨rfl, addPortMatch_of_recv hb hsend he⟩
  · have he : c.recv ip call =
        (.ok ans, { c.sent ip call with answers := rest ++ [c.answer ip call] }) := by
      rw [recv, hrecv, hans]
    refine iff_of_false (fun hown ↦ ?_) (List.cons_ne_nil _ _)
    have hold := h 0 ans (by rw [hans]; rfl)
    rw [(hown hsend ans _ he).1, hans] at hold
    simp only [answer, List.length_cons] at hold
    omega

theorem answers_step (hb : b.hasControl) (h : c.step b ip call = some c') :
    c'.answers.length = c.answers.length + if call.ReceiveFails then 1 else 0 := by
  rw [step, Option.some_inj] at h
  subst h
  obtain ⟨hr, hrecv, he⟩ | ⟨hf, -, he⟩ | ⟨hno, he⟩ := addPortMatch_cases ip c call hb
  · rw [he, if_neg fun hf ↦ hf.2 hr.2]
    obtain ⟨hnil, hr'⟩ | ⟨ans, rest, hans, hr'⟩ := hrecv
    · rw [hr', hnil]
      rfl
    · rw [hr', hans]
      simp
  · rw [he, if_pos hf, Control.sent]
    simp
  · rw [he, if_neg fun hf ↦ absurd hf.1 (by simp [hno])]
    rfl

/-- As many answers wait as receives have failed. -/
theorem answers_of_run (hb : b.hasControl) {calls : List (PortCall U)}
    (hrun : run (step b ip) init calls = some c) :
    c.Numbered ∧ c.answers.length = calls.countP fun call ↦ call.ReceiveFails := by
  induction calls using List.reverseRecOn generalizing c with
  | nil =>
    rw [run_nil, Option.some_inj] at hrun
    rw [← hrun]
    exact ⟨fun k ans hk ↦ absurd hk (by simp [init]), rfl⟩
  | append_singleton calls call ih =>
    obtain ⟨t, ht, hstep⟩ := run_snoc_eq_some.mp hrun
    obtain ⟨hnum, hlen⟩ := ih ht
    refine ⟨hnum.step hb hstep, ?_⟩
    rw [answers_step hb hstep, hlen, List.countP_append, List.countP_singleton]
    simp

/-- **Requests and answers.** In a sequence of calls on a backend with a control socket, whatever a
call returns from an answer is usnetd's answer to its own request, if and only if no call receives
an answer after the receive of an earlier call has failed. -/
theorem own_verdicts_iff (hb : b.hasControl) (calls : List (PortCall U)) :
    Along (step b ip) (OwnVerdict b ip) init calls ↔
    ∀ before call after, calls = before ++ call :: after → call.Receives →
      ∀ earlier ∈ before, ¬earlier.ReceiveFails := by
  have htotal (before : List (PortCall U)) :
      ∃ c : Control U, run (step b ip) init before = some c := by
    induction before using List.reverseRecOn with
    | nil => exact ⟨_, rfl⟩
    | append_singleton before call ih =>
      obtain ⟨c, hc⟩ := ih
      exact ⟨_, run_snoc_eq_some.mpr ⟨c, hc, rfl⟩⟩
  have hempty {before : List (PortCall U)} {c : Control U}
      (hc : run (step b ip) init before = some c) :
      c.answers = [] ↔ ∀ earlier ∈ before, ¬earlier.ReceiveFails := by
    rw [← List.length_eq_zero_iff, (answers_of_run hb hc).2, List.countP_eq_zero]
    simp
  rw [along_iff_forall]
  constructor
  · intro h before call after he hr
    obtain ⟨c, hc⟩ := htotal before
    exact (hempty hc).mp ((ownVerdict_iff hb (answers_of_run hb hc).1 hr).mp
      (h before call after c he hc))
  · intro h before call after c he hc hsend ans c' hrecv
    have hr : call.Receives := by
      refine ⟨hsend, ?_⟩
      by_contra hno
      obtain ⟨e, he⟩ := Option.ne_none_iff_exists'.mp hno
      simp [recv, he] at hrecv
    exact (ownVerdict_iff hb (answers_of_run hb hc).1 hr).mpr
      ((hempty hc).mpr (h before call after he hr)) hsend ans c' hrecv

/-- A call for a local port of a connection to `10.0.0.9:80`. -/
def askPort (port : UInt16) (recv : Option IoError) : PortCall .reference where
  arg := ⟨.v4 10 0 0 2, some port, some (.v4 10 0 0 9), some 80, .tcp⟩
  event := ()
  send := true
  recv := recv

theorem own_verdicts_twoPorts :
    Along (step .usnetUds (.v4 10 0 0 2)) (OwnVerdict .usnetUds (.v4 10 0 0 2))
      (init : Control .reference) [askPort 3000 none, askPort 3000 none] := by
  refine (own_verdicts_iff rfl _).mpr fun before call after he _ earlier hmem ↦ ?_
  have hcall : earlier ∈ [askPort 3000 none, askPort 3000 none] := by
    rw [he]
    exact List.mem_append_left _ hmem
  obtain rfl : earlier = askPort 3000 none := by simpa using hcall
  decide

/-- The second receive is interrupted, and the third call takes its answer for a port that usnetd
has refused. -/
theorem not_own_verdicts : ∃ c, run (step .usnetUds (.v4 10 0 0 2)) (init : Control .reference)
      [askPort 3000 none, askPort 2000 (some (.os 4))] = some c ∧
    (c.addPortMatch .usnetUds (.v4 10 0 0 2) (askPort 3000 none)).1 = .ok () ∧
    (c.answer (.v4 10 0 0 2) (askPort 3000 none)).verdict = .err (.other "port not free") ∧
    ¬c.OwnVerdict .usnetUds (.v4 10 0 0 2) (askPort 3000 none) := by
  refine ⟨_, rfl, rfl, rfl, fun h ↦ ?_⟩
  obtain ⟨hsame, -⟩ := h rfl _ _ rfl
  exact absurd (congrArg Answer.request hsame) (by decide)

end Control

end UsnetSockets
