import Mathlib.Algebra.Order.BigOperators.Group.Finset
import UsnetSockets.Resolve.Resolver
import UsnetSockets.Resolve.RoundTrip

/-!
# The time of an attempt

An attempt of `DnsResolver::send_message` has the configured timeout as its budget. The timeout that
is set before a receive is meant to be what is left of it: what irrelevant messages have taken is
subtracted, and once nothing is left the attempt is over.

Two things are missing for that. A message of the name server that is no reply is ignored without
being charged, and a timeout of zero is refused by the standard library, with an error that is not a
timeout. The loop therefore keeps to its budget exactly when neither comes into play.
-/

namespace UsnetSockets

open Outcome

/-- The datagram is from the name server. -/
def Reception.isFrom (nsAddr : SocketAddr) (reception : Reception) : Bool :=
  match reception.packet with
  | .ok p => socketAddressEqual p.sender nsAddr
  | .error _ => false

/-- What the loop subtracts for a datagram that it ignores. -/
def Reception.charged (nsAddr : SocketAddr) (reception : Reception) : ℕ :=
  if reception.isFrom nsAddr then 0 else reception.passed

/-- The time that the first receives of an attempt take. -/
def spent (receptions : ℕ → Reception) (n : ℕ) : ℕ := ∑ j ∈ Finset.range n, (receptions j).passed

/-- What the loop subtracts for them. -/
def chargedFor (nsAddr : SocketAddr) (receptions : ℕ → Reception) (n : ℕ) : ℕ :=
  ∑ j ∈ Finset.range n, (receptions j).charged nsAddr

theorem spent_succ (receptions : ℕ → Reception) (n : ℕ) :
    spent receptions (n + 1) = spent receptions n + (receptions n).passed :=
  Finset.sum_range_succ _ n

theorem chargedFor_succ (nsAddr : SocketAddr) (receptions : ℕ → Reception) (n : ℕ) :
    chargedFor nsAddr receptions (n + 1) =
      chargedFor nsAddr receptions n + (receptions n).charged nsAddr :=
  Finset.sum_range_succ _ n

namespace DnsResolver

variable (X : IdnaCrate)

/-- A pass of the inner loop, as a function of the fuel. -/
def pass (call : DnsCall) (receptions : ℕ → Reception) (nsAddr : SocketAddr) (n : ℕ)
    (s : Listening) : Outcome DnsSocketError (Listening ⊕ AttemptEnd) :=
  receiveBody X { call with fuel := n } receptions nsAddr s

/-- The attempt ends as a timeout, and the request goes on with the next one, if one is left. -/
def TimesOut (call : DnsCall) (left retries : ℕ) (last : Option DnsSocketError)
    (r : DnsResolver) : Prop :=
  ∃ nsAddr r' e, r.chooseNameserver retries = some (nsAddr, r') ∧ e.isTimeout = true ∧
    ∃ m, ∀ n ≥ m,
      attempt X r'.config.timeout { call with fuel := n } (call.world retries) nsAddr =
        .ok (.retry e) ∧
      retry X { call with fuel := n } (left + 1) retries last r =
        retry X { call with fuel := n } left (retries + 1) (some e) r'

/-- An attempt keeps to its budget. Each timeout is at most what the receives before have left of
it, and when it is used up, be it by these or by the wait for the next datagram, then the attempt
ends as a timeout. -/
structure KeepsBudget (call : DnsCall) (left retries : ℕ) (last : Option DnsSocketError)
    (r : DnsResolver) (nsAddr : SocketAddr) : Prop where
  timeout_le : ∀ s, Reaches (pass X call (call.world retries).receptions nsAddr)
    ⟨r.config.timeout, 0⟩ s →
      s.timeout ≤ r.config.timeout - spent (call.world retries).receptions s.next
  ends : ∀ s, Reaches (pass X call (call.world retries).receptions nsAddr)
    ⟨r.config.timeout, 0⟩ s →
      (r.config.timeout ≤ spent (call.world retries).receptions s.next ∨
        ((call.world retries).receptions s.next).setTimeout = .ok () ∧
        ∃ e, ((call.world retries).receptions s.next).packet = .error e ∧
          (DnsSocketError.ioError e).isTimeout = true) →
      TimesOut X call left retries last r

/-- The first receives have all been told a timeout and been ignored. -/
def IgnoredUpTo (call : DnsCall) (receptions : ℕ → Reception) (nsAddr : SocketAddr) (n : ℕ) :
    Prop :=
  ∀ j < n, Ignored X call nsAddr (receptions j) ∧ (receptions j).setTimeout = .ok ()

/-- Datagrams that are ignored from the start of the attempt on take less than the budget together,
and those of them that are from the name server take no time. -/
def IgnoredInTime (call : DnsCall) (receptions : ℕ → Reception) (nsAddr : SocketAddr)
    (timeout : ℕ) : Prop :=
  ∀ n, IgnoredUpTo X call receptions nsAddr n →
    spent receptions n < timeout ∧
      ∀ j < n, (receptions j).isFrom nsAddr = true → (receptions j).passed = 0

/-! ## One pass -/

variable {X}

section Pass

variable {call : DnsCall} {receptions : ℕ → Reception} {nsAddr : SocketAddr}

theorem recvMessage_of_ne {p : Packet} (h : socketAddressEqual p.sender nsAddr = false)
    (n len : ℕ) : DnsSocket.recvMessage X n nsAddr len (.ok p) = .ok none := by
  simp [DnsSocket.recvMessage, ofIo, Datagram.read, h]

theorem recvMessage_of_eq {p : Packet} (h : socketAddressEqual p.sender nsAddr = true)
    (n len : ℕ) : DnsSocket.recvMessage X n nsAddr len (.ok p) =
      (Message.decode X n (p.data.take len)).mapErr .decodeError >>= fun msg ↦ .ok (some msg) := by
  simp [DnsSocket.recvMessage, ofIo, Datagram.read, h]

theorem stable_recvMessage (len : ℕ) (packet : Except IoError Packet) :
    Stable fun n ↦ DnsSocket.recvMessage X n nsAddr len packet := by
  rcases packet with e | p
  · exact stable_const _
  · rcases h : socketAddressEqual p.sender nsAddr with _ | _
    · simp only [recvMessage_of_ne h]
      exact stable_const _
    · simp only [recvMessage_of_eq h]
      exact ((stable_decode X _).comp rfl).bind fun _ ↦ stable_const _

theorem stable_pass (s : Listening) : Stable fun n ↦ pass X call receptions nsAddr n s := by
  intro n m hnm h
  simp only [pass, receiveBody] at h ⊢
  rcases hset : DnsSocket.setReadTimeout s.timeout (receptions s.next).setTimeout with e | u
  · rfl
  · simp only [hset, ofIo, ok_bind] at h ⊢
    have hrecv : DnsSocket.recvMessage X n nsAddr call.len (receptions s.next).packet ≠
        outOfFuel := by
      intro h0
      simp only [h0] at h
      exact h rfl
    simp only [stable_recvMessage call.len _ hnm hrecv]

/-- With a timeout of zero the pass leaves the request. -/
theorem pass_of_timeout_eq_zero {s : Listening} (hs : s.timeout = 0) (n : ℕ) :
    pass X call receptions nsAddr n s =
      .err (.ioError (.invalidInput "cannot set a 0 duration timeout")) := by
  simp [pass, receiveBody, DnsSocket.setReadTimeout, hs, ofIo]

section Set

variable {s : Listening} (h0 : s.timeout ≠ 0) (hset : (receptions s.next).setTimeout = .ok ())
include h0 hset

theorem pass_of_error {e : IoError} (hp : (receptions s.next).packet = .error e) (n : ℕ) :
    pass X call receptions nsAddr n s =
      if (DnsSocketError.ioError e).isTimeout then .ok (.inr (.retry (.ioError e)))
      else .err (.ioError e) := by
  simp [pass, receiveBody, DnsSocket.setReadTimeout_eq_ok_iff.mpr ⟨h0, hset⟩, hp,
    DnsSocket.recvMessage, ofIo]

theorem pass_of_ne {p : Packet} (hp : (receptions s.next).packet = .ok p)
    (hne : socketAddressEqual p.sender nsAddr = false) (n : ℕ) :
    pass X call receptions nsAddr n s =
      .ok (.inl ⟨s.timeout - (receptions s.next).passed, s.next + 1⟩) := by
  have hsub : (if s.timeout < (receptions s.next).passed then 0
      else s.timeout - (receptions s.next).passed) = s.timeout - (receptions s.next).passed := by
    split
    · omega
    · rfl
  simp [pass, receiveBody, DnsSocket.setReadTimeout_eq_ok_iff.mpr ⟨h0, hset⟩, hp,
    recvMessage_of_ne hne, ofIo, hsub]

theorem pass_of_decode {p : Packet} (hp : (receptions s.next).packet = .ok p)
    (heq : socketAddressEqual p.sender nsAddr = true) {n : ℕ} {msg : Message}
    (hmsg : Message.decode X n (p.data.take call.len) = .ok msg)
    (hreply : isReply call.outMsg msg = false) :
    pass X call receptions nsAddr n s = .ok (.inl ⟨s.timeout, s.next + 1⟩) := by
  simp [pass, receiveBody, DnsSocket.setReadTimeout_eq_ok_iff.mpr ⟨h0, hset⟩, hp,
    recvMessage_of_eq heq, ofIo, hmsg, Outcome.mapErr, hreply]

end Set

theorem returns_pass_of_ignored {s : Listening} (h0 : s.timeout ≠ 0)
    (hset : (receptions s.next).setTimeout = .ok ())
    (hignored : Ignored X call nsAddr (receptions s.next)) :
    Returns (fun n ↦ pass X call receptions nsAddr n s)
      (.inl ⟨s.timeout - (receptions s.next).charged nsAddr, s.next + 1⟩) := by
  obtain ⟨p, hp, hother | ⟨msg, hcarries, hno⟩⟩ := hignored
  · rw [← socketAddressEqual_iff, Bool.not_eq_true] at hother
    have hcharged : (receptions s.next).charged nsAddr = (receptions s.next).passed := by
      simp [Reception.charged, Reception.isFrom, hp, hother]
    rw [hcharged]
    exact ⟨0, pass_of_ne h0 hset hp hother 0⟩
  · have heq := (socketAddressEqual_iff p.sender nsAddr).mpr ⟨hcarries.port, hcarries.ip⟩
    have hcharged : (receptions s.next).charged nsAddr = 0 := by
      simp [Reception.charged, Reception.isFrom, hp, heq]
    rw [hcharged]
    rw [← isReply_iff, Bool.not_eq_true] at hno
    obtain ⟨n, hn⟩ := hcarries.decoded
    exact ⟨n, pass_of_decode h0 hset hp heq hn hno⟩

/-- A pass goes on exactly when it has set a timeout and ignored a datagram. -/
theorem returns_pass_inl_iff {s s' : Listening} :
    Returns (fun n ↦ pass X call receptions nsAddr n s) (.inl s') ↔
      s.timeout ≠ 0 ∧ (receptions s.next).setTimeout = .ok () ∧
        Ignored X call nsAddr (receptions s.next) ∧
        s' = ⟨s.timeout - (receptions s.next).charged nsAddr, s.next + 1⟩ := by
  constructor
  · rintro ⟨n, hn⟩
    have hset : DnsSocket.setReadTimeout s.timeout (receptions s.next).setTimeout = .ok () := by
      rcases hset : DnsSocket.setReadTimeout s.timeout (receptions s.next).setTimeout with e | u
      · exact absurd hn (by simp [pass, receiveBody, hset, ofIo])
      · rfl
    obtain ⟨h0, hset⟩ := DnsSocket.setReadTimeout_eq_ok_iff.mp hset
    obtain ⟨timeout, -, hignored⟩ | ⟨_, _, hx, -⟩ | ⟨_, hx⟩ := receiveBody_eq_ok hn
    · have hs' := (stable_pass s).returns_unique ⟨n, hn⟩ (returns_pass_of_ignored h0 hset hignored)
      exact ⟨h0, hset, hignored, Sum.inl.inj hs'⟩
    · exact absurd hx (by simp)
    · exact absurd hx (by simp)
  · rintro ⟨h0, hset, hignored, rfl⟩
    exact returns_pass_of_ignored h0 hset hignored

/-! ## The timeouts -/

/-- The states of the inner loop: the timeout is what the charges have left. -/
theorem reaches_iff {timeout : ℕ} {s : Listening} :
    Reaches (pass X call receptions nsAddr) ⟨timeout, 0⟩ s ↔
      IgnoredUpTo X call receptions nsAddr s.next ∧
        (∀ j < s.next, chargedFor nsAddr receptions j < timeout) ∧
        s.timeout = timeout - chargedFor nsAddr receptions s.next := by
  constructor
  · intro h
    induction h with
    | start => exact ⟨by simp [IgnoredUpTo], by simp, by simp [chargedFor]⟩
    | again h hpass ih =>
      obtain ⟨h0, hset, hignored, rfl⟩ := returns_pass_inl_iff.mp hpass
      obtain ⟨hall, hleft, htimeout⟩ := ih
      refine ⟨?_, ?_, ?_⟩
      · intro j hj
        rcases Nat.lt_succ_iff_lt_or_eq.mp hj with hj | rfl
        · exact hall j hj
        · exact ⟨hignored, hset⟩
      · intro j hj
        rcases Nat.lt_succ_iff_lt_or_eq.mp hj with hj | rfl
        · exact hleft j hj
        · omega
      · rw [chargedFor_succ, Nat.sub_add_eq, htimeout]
  · obtain ⟨t, n⟩ := s
    dsimp only
    rintro ⟨hall, hleft, rfl⟩
    induction n with
    | zero => exact .start
    | succ n ih =>
      obtain ⟨hignored, hset⟩ := hall n (Nat.lt_succ_self n)
      have hn := hleft n (Nat.lt_succ_self n)
      have hreach := ih (fun j hj ↦ hall j (by omega)) (fun j hj ↦ hleft j (by omega))
      refine hreach.again (returns_pass_inl_iff.mpr ⟨?_, hset, hignored, ?_⟩)
      · dsimp only
        omega
      · rw [chargedFor_succ, Nat.sub_add_eq]

theorem chargedFor_eq_spent {n : ℕ}
    (h : ∀ j < n, (receptions j).isFrom nsAddr = true → (receptions j).passed = 0) :
    chargedFor nsAddr receptions n = spent receptions n := by
  refine Finset.sum_congr rfl ?_
  intro j hj
  rw [Reception.charged]
  split
  · next hfrom => exact (h j (Finset.mem_range.mp hj) hfrom).symm
  · rfl

theorem spent_mono {j n : ℕ} (h : j ≤ n) : spent receptions j ≤ spent receptions n :=
  Finset.sum_le_sum_of_subset (Finset.range_subset_range.mpr h)

end Pass

/-! ## The attempt -/

theorem config_of_chooseNameserver {r r' : DnsResolver} {retries : ℕ} {nsAddr : SocketAddr}
    (h : r.chooseNameserver retries = some (nsAddr, r')) : r'.config = r.config := by
  simp only [chooseNameserver, Option.map_eq_some_iff, Prod.mk.injEq] at h
  obtain ⟨⟨addr, r''⟩, hchoice, rfl, rfl⟩ := h
  by_cases hrotate : r.config.rotate = true
  · simp only [if_pos hrotate, nextNameserver, Option.map_eq_some_iff, Prod.mk.injEq] at hchoice
    obtain ⟨_, -, rfl, rfl⟩ := hchoice
    rfl
  · simp only [if_neg hrotate, Option.map_eq_some_iff, Prod.mk.injEq] at hchoice
    obtain ⟨_, -, rfl, rfl⟩ := hchoice
    rfl

section Attempt

variable {call : DnsCall} {left retries : ℕ} {last : Option DnsSocketError} {r r' : DnsResolver}
  {nsAddr : SocketAddr}

/-- Once the message is sent, the attempt is its inner loop. -/
theorem attempt_of_sent {timeout : ℕ} {world : AttemptWorld}
    (hsent : DnsSocket.sendMessage X call.outMsg nsAddr world.sendTo = .ok ()) (n : ℕ) :
    attempt X timeout { call with fuel := n } world nsAddr =
      loop (pass X call world.receptions nsAddr n) n ⟨timeout, 0⟩ := by
  rw [attempt, hsent]
  rfl

/-- The wait for the next datagram ends as a timeout. -/
theorem timesOut_of_error (hchoose : r.chooseNameserver retries = some (nsAddr, r'))
    (hsent : DnsSocket.sendMessage X call.outMsg nsAddr (call.world retries).sendTo = .ok ())
    {s : Listening} (hs : Reaches (pass X call (call.world retries).receptions nsAddr)
      ⟨r.config.timeout, 0⟩ s) (h0 : s.timeout ≠ 0)
    (hset : ((call.world retries).receptions s.next).setTimeout = .ok ()) {e : IoError}
    (hp : ((call.world retries).receptions s.next).packet = .error e)
    (he : (DnsSocketError.ioError e).isTimeout = true) : TimesOut X call left retries last r := by
  have hpass : pass X call (call.world retries).receptions nsAddr 0 s = _ :=
    pass_of_error h0 hset hp 0
  rw [if_pos he] at hpass
  obtain ⟨m, hm⟩ := hs.exists_loop_eq_of_ne stable_pass 0 (by simp [hpass]) (by simp [hpass])
  refine ⟨nsAddr, r', .ioError e, hchoose, he, m, ?_⟩
  intro n hn
  have hattempt : attempt X r'.config.timeout { call with fuel := n } (call.world retries) nsAddr =
      .ok (.retry (.ioError e)) := by
    rw [attempt_of_sent hsent, config_of_chooseNameserver hchoose, hm n hn, loop, hpass]
    rfl
  refine ⟨hattempt, ?_⟩
  rw [retry, hchoose]
  simp only [hattempt]

/-- With nothing left of the budget the attempt does not end as a timeout. -/
theorem not_timesOut_of_timeout_eq_zero (hchoose : r.chooseNameserver retries = some (nsAddr, r'))
    (hsent : DnsSocket.sendMessage X call.outMsg nsAddr (call.world retries).sendTo = .ok ())
    {s : Listening} (hs : Reaches (pass X call (call.world retries).receptions nsAddr)
      ⟨r.config.timeout, 0⟩ s) (h0 : s.timeout = 0) : ¬TimesOut X call left retries last r := by
  rintro ⟨nsAddr', r'', e, hchoose', -, m, hm⟩
  obtain ⟨rfl, rfl⟩ : nsAddr = nsAddr' ∧ r' = r'' := by simpa [hchoose] using hchoose'
  have hpass : pass X call (call.world retries).receptions nsAddr 0 s = _ :=
    pass_of_timeout_eq_zero h0 0
  obtain ⟨m', hm'⟩ := hs.exists_loop_eq_of_ne stable_pass 0 (by simp [hpass]) (by simp [hpass])
  have hattempt := (hm (max m m') (le_max_left m m')).1
  rw [attempt_of_sent hsent, config_of_chooseNameserver hchoose, hm' _ (le_max_right m m'), loop,
    hpass] at hattempt
  exact absurd hattempt (by simp)

/-- An attempt that keeps to its budget has charged for all that it ignored. -/
theorem ignoredInTime_of_keepsBudget (hchoose : r.chooseNameserver retries = some (nsAddr, r'))
    (htimeout : 0 < r.config.timeout)
    (hsent : DnsSocket.sendMessage X call.outMsg nsAddr (call.world retries).sendTo = .ok ())
    (hkeeps : KeepsBudget X call left retries last r nsAddr) :
    IgnoredInTime X call (call.world retries).receptions nsAddr r.config.timeout := by
  intro n
  induction n with
  | zero => exact fun _ ↦ ⟨by simpa [spent] using htimeout, by simp⟩
  | succ n ih =>
    intro hall
    obtain ⟨hspent, hfree⟩ := ih fun j hj ↦ hall j (by omega)
    -- the charges were right so far, so the loop gets to the next receive
    have hcharged {j : ℕ} (hj : j ≤ n) :=
      chargedFor_eq_spent fun i (hi : i < j) ↦ hfree i (hi.trans_le hj)
    have hleft (j : ℕ) (hj : j < n + 1) :
        chargedFor nsAddr (call.world retries).receptions j < r.config.timeout := by
      rw [hcharged (Nat.lt_succ_iff.mp hj)]
      exact (spent_mono (Nat.lt_succ_iff.mp hj)).trans_lt hspent
    have hreach : Reaches (pass X call (call.world retries).receptions nsAddr) _
        ⟨r.config.timeout - chargedFor nsAddr (call.world retries).receptions (n + 1), n + 1⟩ :=
      reaches_iff.mpr ⟨hall, hleft, rfl⟩
    have hle := hkeeps.timeout_le _ hreach
    have hfree' : ∀ j < n + 1, ((call.world retries).receptions j).isFrom nsAddr = true →
        ((call.world retries).receptions j).passed = 0 := by
      intro j hj hfrom
      rcases Nat.lt_succ_iff_lt_or_eq.mp hj with hj | rfl
      · exact hfree j hj hfrom
      · dsimp only at hle
        rw [chargedFor_succ, spent_succ, hcharged le_rfl, Reception.charged, if_pos hfrom] at hle
        omega
    refine ⟨?_, hfree'⟩
    by_contra hused
    have hends := hkeeps.ends _ hreach (.inl (Nat.le_of_not_lt hused))
    refine not_timesOut_of_timeout_eq_zero hchoose hsent hreach ?_ hends
    dsimp only
    rw [chargedFor_eq_spent hfree']
    omega

/-- When nothing is charged too little, something is left at each receive. -/
theorem keepsBudget_of_ignoredInTime (hchoose : r.chooseNameserver retries = some (nsAddr, r'))
    (hsent : DnsSocket.sendMessage X call.outMsg nsAddr (call.world retries).sendTo = .ok ())
    (htime : IgnoredInTime X call (call.world retries).receptions nsAddr r.config.timeout) :
    KeepsBudget X call left retries last r nsAddr := by
  have hleft {s : Listening} (hs : Reaches (pass X call (call.world retries).receptions nsAddr)
      ⟨r.config.timeout, 0⟩ s) : spent (call.world retries).receptions s.next < r.config.timeout ∧
      s.timeout = r.config.timeout - spent (call.world retries).receptions s.next := by
    obtain ⟨hall, -, htimeout⟩ := reaches_iff.mp hs
    obtain ⟨hspent, hfree⟩ := htime s.next hall
    exact ⟨hspent, by rw [htimeout, chargedFor_eq_spent hfree]⟩
  refine ⟨fun s hs ↦ (hleft hs).2.le, ?_⟩
  rintro s hs (hused | ⟨hset, e, hp, he⟩)
  · exact absurd (hleft hs).1 (Nat.not_lt_of_le hused)
  · obtain ⟨hspent, htimeout⟩ := hleft hs
    exact timesOut_of_error hchoose hsent hs (by omega) hset hp he

/-- **When an attempt keeps to its budget.** It does if and only if the datagrams that it ignores
leave some of it, and none of those that the name server has sent takes any time. -/
theorem keepsBudget_iff (hchoose : r.chooseNameserver retries = some (nsAddr, r'))
    (htimeout : 0 < r.config.timeout)
    (hsent : DnsSocket.sendMessage X call.outMsg nsAddr (call.world retries).sendTo = .ok ())
    (left : ℕ) (last : Option DnsSocketError) :
    KeepsBudget X call left retries last r nsAddr ↔
      IgnoredInTime X call (call.world retries).receptions nsAddr r.config.timeout := by
  constructor
  · intro hkeeps
    exact ignoredInTime_of_keepsBudget hchoose htimeout hsent hkeeps
  · intro htime
    exact keepsBudget_of_ignoredInTime hchoose hsent htime

end Attempt

/-- A datagram of somebody else. -/
def otherAfter (passed : ℕ) : Reception where
  setTimeout := .ok ()
  packet := .ok ⟨⟨⟨.v4 10 0 0 9, 53⟩, []⟩, by simp⟩
  passed := passed

/-- A response of the name server to the query before. -/
def staleAfter (passed : ℕ) : Reception where
  setTimeout := .ok ()
  packet := .ok ⟨⟨nameServer 1, [0, 6, 129, 0, 0, 0, 0, 0, 0, 0, 0, 0]⟩, by simp [messageLimit]⟩
  passed := passed

theorem decode_staleAfter (X : IdnaCrate) : Message.decode X 0
    (List.take messageLimit [0, 6, 129, 0, 0, 0, 0, 0, 0, 0, 0, 0]) =
      .ok { bareMessage .response with header.id := 6 } := rfl

/-- A request whose attempts receive one datagram each. -/
def callWith (first : Reception) : DnsCall where
  outMsg := bareMessage .query
  len := messageLimit
  world _ := ⟨fun _ _ ↦ .ok (), fun i ↦ if i = 0 then first else ⟨.ok (), .error (.os 11), 0⟩⟩
  fuel := 2

theorem sendMessage_callWith (X : IdnaCrate) (first : Reception) (k : ℕ) (a : SocketAddr) :
    DnsSocket.sendMessage X (callWith first).outMsg a ((callWith first).world k).sendTo =
      .ok () := by
  obtain ⟨bytes, hbytes⟩ := encode_bareCall X (.ok ())
  rw [DnsSocket.sendMessage, show (callWith first).outMsg = (bareCall (.ok ())).outMsg from rfl,
    hbytes]
  rfl

theorem chooseNameserver_twoServers :
    (new twoServers).chooseNameserver 0 = some (nameServer 1, afterFirst) := rfl

/-- The datagram of somebody else comes after a microsecond, and then none. -/
theorem keepsBudget_otherAfter :
    KeepsBudget ⟨some, some⟩ (callWith (otherAfter 1000)) 2 0 none (new twoServers)
      (nameServer 1) := by
  refine (keepsBudget_iff chooseNameserver_twoServers (by decide) (sendMessage_callWith _ _ 0 _) 2
    none).mpr ?_
  intro n hall
  rcases n with _ | _ | n
  · exact ⟨by decide, by simp⟩
  · refine ⟨by decide, ?_⟩
    intro j hj hfrom
    obtain rfl : j = 0 := by omega
    exact absurd hfrom (by decide)
  · obtain ⟨p, hp, -⟩ := (hall 1 (by omega)).1
    exact absurd hp (by simp [callWith])

theorem reaches_otherAfter : Reaches (pass ⟨some, some⟩ (callWith (otherAfter 5000000000))
    ((callWith (otherAfter 5000000000)).world 0).receptions (nameServer 1))
    ⟨(new twoServers).config.timeout, 0⟩ ⟨0, 1⟩ := by
  refine reaches_iff.mpr ⟨?_, ?_, rfl⟩
  · intro j hj
    obtain rfl : j = 0 := Nat.lt_one_iff.mp hj
    refine ⟨⟨_, rfl, .inl ?_⟩, rfl⟩
    rw [← socketAddressEqual_iff]
    decide
  · intro j hj
    obtain rfl : j = 0 := Nat.lt_one_iff.mp hj
    decide

theorem reaches_staleAfter : Reaches (pass ⟨some, some⟩ (callWith (staleAfter 3000000000))
    ((callWith (staleAfter 3000000000)).world 0).receptions (nameServer 1))
    ⟨(new twoServers).config.timeout, 0⟩ ⟨5000000000, 1⟩ := by
  refine reaches_iff.mpr ⟨?_, ?_, rfl⟩
  · intro j hj
    obtain rfl : j = 0 := Nat.lt_one_iff.mp hj
    refine ⟨⟨_, rfl, .inr ⟨_, ⟨rfl, .inl rfl, 0, decode_staleAfter _⟩, ?_⟩⟩, rfl⟩
    rintro ⟨hid, -⟩
    exact absurd hid (by decide)
  · intro j hj
    obtain rfl : j = 0 := Nat.lt_one_iff.mp hj
    decide

/-- The datagram of somebody else uses up the whole budget, and the request fails although two
attempts are left. A response of the name server to another query is not charged, and the attempt
may take another five seconds. -/
theorem not_keepsBudget :
    ¬KeepsBudget ⟨some, some⟩ (callWith (otherAfter 5000000000)) 2 0 none (new twoServers)
      (nameServer 1) ∧
    ¬KeepsBudget ⟨some, some⟩ (callWith (staleAfter 3000000000)) 2 0 none (new twoServers)
      (nameServer 1) := by
  refine ⟨?_, ?_⟩
  · intro hkeeps
    have hends := hkeeps.ends _ reaches_otherAfter (.inl (by decide))
    exact not_timesOut_of_timeout_eq_zero chooseNameserver_twoServers (sendMessage_callWith _ _ 0 _)
      reaches_otherAfter rfl hends
  · intro hkeeps
    exact absurd (hkeeps.timeout_le _ reaches_staleAfter) (by decide)

end DnsResolver

end UsnetSockets
