import Mathlib.Data.List.Basic
import UsnetSockets.Net.Changes
import UsnetSockets.Net.Wakeup

/-!
# The descriptors that the background thread polls

A listener or UDP socket that is bound to an address of the stack in user space also has a socket of
the kernel, for clients on the same machine. Its descriptor is queued in `fds_add`, and in
`fds_remove` when the value is dropped; the background thread merges both queues into its own list,
`fds_extra`, in its first critical section.

The account that has to balance is, for each descriptor, counting how often it occurs,

  `fds_extra + fds_add + unregistered = registered + fds_remove`,

where `registered` are the descriptors of the values that were queued and not yet dropped, and
`unregistered` those of the values that were dropped without having been queued. Every change keeps
the balance. So the first critical section finds what it has to remove, and ends up with the
registered descriptors, exactly as long as nothing unregistered has been dropped.
-/

namespace UsnetSockets

/-! ## Counting in flattened lists -/

/-- Replacing one element replaces its part of a flattened list. -/
theorem count_flatMap_set {α β : Type*} [BEq β] (f : α → List β) {l : List α} {i : ℕ} {x : α}
    (h : l[i]? = some x) (y : α) (b : β) :
    ((l.set i y).flatMap f).count b + (f x).count b = (l.flatMap f).count b + (f y).count b := by
  induction l generalizing i with
  | nil => exact absurd h (by simp)
  | cons z l ih =>
    cases i with
    | zero =>
      obtain rfl : z = x := by simpa using h
      simp only [List.set_cons_zero, List.flatMap_cons, List.count_append]
      omega
    | succ i =>
      have hi := ih (i := i) (by simpa using h)
      simp only [List.set_cons_succ, List.flatMap_cons, List.count_append]
      omega

/-- An element with the same part may take the place of another. -/
theorem flatMap_set_of_eq {α β : Type*} {f : α → List β} {l : List α} {i : ℕ} {x y : α}
    (h : l[i]? = some x) (hxy : f y = f x) : (l.set i y).flatMap f = l.flatMap f := by
  induction l generalizing i with
  | nil => rfl
  | cons z l ih =>
    cases i with
    | zero =>
      obtain rfl : z = x := by simpa using h
      rw [List.set_cons_zero, List.flatMap_cons, List.flatMap_cons, hxy]
    | succ i =>
      rw [List.set_cons_succ, List.flatMap_cons, List.flatMap_cons, ih (by simpa using h)]

namespace State

open Transition

variable {T : Smoltcp} {cfg : Config} {s s' : State T} {c : Change T} {a : Action T}

/-! ## The loop over `fds_remove` -/

/-- What the loop removes, it removes once for each time it is asked to. -/
theorem count_removeFds {rem l l' : List Fd} (h : removeFds rem l = some l') (fd : Fd) :
    l'.count fd + rem.count fd = l.count fd := by
  induction rem generalizing l with
  | nil =>
    rw [removeFds, Option.some_inj] at h
    simp [h]
  | cons x rem ih =>
    rw [removeFds] at h
    split at h
    · rename_i hx
      have hrest := ih h
      rw [List.count_erase] at hrest
      have hpos : 0 < l.count x := List.count_pos_iff.mpr hx
      by_cases hxf : x = fd
      · subst hxf
        simp only [beq_self_eq_true, if_true, List.count_cons_self] at hrest ⊢
        omega
      · have hxf' : (x == fd) = false := by simpa using hxf
        simp only [Bool.false_eq_true, if_false, List.count_cons, hxf'] at hrest ⊢
        omega
    · exact absurd h (by simp)

/-- The loop does not panic if everything is there. -/
theorem exists_removeFds {rem l : List Fd} (h : ∀ fd, rem.count fd ≤ l.count fd) :
    ∃ l', removeFds rem l = some l' := by
  induction rem generalizing l with
  | nil => exact ⟨l, rfl⟩
  | cons x rem ih =>
    have hx : x ∈ l := by
      have hx := h x
      rw [List.count_cons_self] at hx
      exact List.count_pos_iff.mp (by omega)
    rw [removeFds, if_pos hx]
    refine ih fun fd ↦ ?_
    have hfd := h fd
    rw [List.count_cons] at hfd
    rw [List.count_erase]
    by_cases hxf : x = fd
    · subst hxf
      simp only [beq_self_eq_true, if_true] at hfd ⊢
      omega
    · have hxf' : (x == fd) = false := by simpa using hxf
      simp only [hxf', Bool.false_eq_true, if_false] at hfd ⊢
      omega

/-! ## What a change queues -/

/-- The descriptor that is queued for the value, if there is one. -/
def registeredFds : Object → List Fd
  | .listener l => if l.listenHandles.isSome then [l.lo] else []
  | .udp u => if u.registered then [u.lo] else []
  | _ => []

/-- The descriptors of the values that were queued in `fds_add` and not yet dropped. -/
def registered (s : State T) : List Fd := s.objects.flatMap registeredFds

/-- The change queues nothing. -/
def Quiet (c : Change T) : Prop := c.fdsAdd = [] ∧ c.fdsRemove = [] ∧ c.unregistered = []

/-- The change has nothing to do with descriptors. -/
def Neutral (s : State T) (c : Change T) : Prop :=
  Quiet c ∧ c.objects.flatMap registeredFds = s.objects.flatMap registeredFds

theorem Quiet.neutral (hq : Quiet c) (ho : c.objects = s.objects) : Neutral s c :=
  ⟨hq, by rw [ho]⟩

theorem Quiet.neutral_set {i : ℕ} {o o' : Object} (hq : Quiet c) (hi : s.objects[i]? = some o)
    (ho : c.objects = s.objects.set i o') (hfds : registeredFds o' = registeredFds o) :
    Neutral s c :=
  ⟨hq, by rw [ho, flatMap_set_of_eq hi hfds]⟩

theorem Quiet.neutral_append {o : Object} (hq : Quiet c) (ho : c.objects = s.objects ++ [o])
    (hfds : registeredFds o = []) : Neutral s c :=
  ⟨hq, by simp [ho, hfds]⟩

/-- The descriptor that the action queues in `fds_add`. -/
def Registers (a : Action T) (fd : Fd) : Prop :=
  ∃ addrs port, bindAddrs addrs emptyAddrs = some (.registered port fd) ∧
    ((∃ slots, a = .bind addrs slots) ∨ ∃ slot, a = .bindUdp addrs slot)

/-- The action drops the value at `i`, which is a listener or a UDP socket. -/
def DropsAt (a : Action T) (i : ℕ) : Prop := a = .dropListener i ∨ a = .dropUdp i

/-- What a change has to do with descriptors: nothing, or a new value is queued to be added, or a
value is dropped and queued to be removed. -/
inductive Queues (s : State T) (a : Action T) (c : Change T) : Prop
  | neutral (hc : Neutral s c) (ha : ∀ i, ¬DropsAt a i)
  | register {fd : Fd} (ha : Registers a fd) (hadd : c.fdsAdd = [fd]) (hrem : c.fdsRemove = [])
      (hun : c.unregistered = [])
      (ho : c.objects.flatMap registeredFds = s.objects.flatMap registeredFds ++ [fd])
  | drop {i : ℕ} {o : Object} {fd : Fd} (ha : DropsAt a i) (hi : s.objects[i]? = some o)
      (ho : c.objects = s.objects.set i .gone) (hadd : c.fdsAdd = []) (hrem : c.fdsRemove = [fd])
      (hfd : registeredFds o = [] ∧ c.unregistered = [fd] ∨
        registeredFds o = [fd] ∧ c.unregistered = [])

private theorem bind_queues {addrs : List BindAddr} {slots : List ℕ}
    (h : s.bind cfg addrs slots = some c) : Queues s (.bind addrs slots) c := by
  have ha (i : ℕ) : ¬DropsAt (.bind addrs slots : Action T) i := by simp [DropsAt]
  obtain ⟨-, -, rfl⟩ | ⟨port, lo, -, -, rfl⟩ | ⟨port, lo, _, _, _, hbind, -, -, -, -, rfl⟩ :=
    bind_cases h
  · exact .neutral (Quiet.neutral ⟨rfl, rfl, rfl⟩ rfl) ha
  · exact .neutral (Quiet.neutral_append ⟨rfl, rfl, rfl⟩ rfl rfl) ha
  · exact .register ⟨addrs, port, hbind, Or.inl ⟨slots, rfl⟩⟩ rfl rfl rfl (by simp [registeredFds])

private theorem bindUdp_queues {addrs : List BindAddr} {slot : ℕ}
    (h : s.bindUdp cfg addrs slot = some c) : Queues s (.bindUdp addrs slot) c := by
  have ha (i : ℕ) : ¬DropsAt (.bindUdp addrs slot : Action T) i := by simp [DropsAt]
  obtain rfl | ⟨port, lo, -, -, rfl⟩ | ⟨port, lo, _, _, _, hbind, -, -, -, rfl⟩ := bindUdp_cases h
  · exact .neutral (Quiet.neutral ⟨rfl, rfl, rfl⟩ rfl) ha
  · exact .neutral (Quiet.neutral_append ⟨rfl, rfl, rfl⟩ rfl rfl) ha
  · exact .register ⟨addrs, port, hbind, Or.inr ⟨slot, rfl⟩⟩ rfl rfl rfl (by simp [registeredFds])

private theorem dropListener_queues {i : ℕ} (h : s.dropListener i = some c) :
    Queues s (.dropListener i) c := by
  obtain ⟨l, hi, -, ⟨hnone, rfl⟩ | ⟨hs, hsome, hrel⟩⟩ := dropListener_cases h
  · exact .drop (Or.inl rfl) hi rfl rfl rfl (Or.inl ⟨by simp [registeredFds, hnone], rfl⟩)
  · have hfds : registeredFds (.listener l) = [l.lo] := by simp [registeredFds, hsome]
    obtain ⟨-, rfl⟩ | ⟨_, -, rfl⟩ := hrel
    · exact .drop (Or.inl rfl) hi rfl rfl rfl (Or.inr ⟨hfds, rfl⟩)
    · exact .drop (Or.inl rfl) hi rfl rfl rfl (Or.inr ⟨hfds, rfl⟩)

private theorem dropUdp_queues {i : ℕ} (h : s.dropUdp i = some c) :
    Queues s (.dropUdp i) c := by
  obtain ⟨u, hi, hrel⟩ := dropUdp_cases h
  have hfds : registeredFds (.udp u) = [] ∧ (if u.registered then [] else [u.lo]) = [u.lo] ∨
      registeredFds (.udp u) = [u.lo] ∧ (if u.registered then [] else [u.lo]) = [] := by
    cases hr : u.registered <;> simp [registeredFds, hr]
  obtain ⟨-, rfl⟩ | ⟨_, -, rfl⟩ := hrel
  · exact .drop (Or.inr rfl) hi rfl rfl rfl hfds
  · exact .drop (Or.inr rfl) hi rfl rfl rfl hfds

private theorem neutral_setTtl {i : ℕ} {ttl : UInt32} (h : s.setTtl i ttl = some c) :
    Neutral s c := by
  obtain ⟨l, _, _, hi, -, -, rfl⟩ := setTtl_cases h
  exact Quiet.neutral_set ⟨rfl, rfl, rfl⟩ hi rfl rfl

private theorem neutral_setNonblocking {i : ℕ} {nonblocking : Bool}
    (h : s.setNonblocking i nonblocking = some c) : Neutral s c := by
  obtain ⟨l, hi, -, rfl⟩ := setNonblocking_cases h
  exact Quiet.neutral_set ⟨rfl, rfl, rfl⟩ hi rfl rfl

private theorem neutral_accept {i : ℕ} (h : s.accept i = some c) : Neutral s c := by
  obtain ⟨l, hi, -, ⟨-, rfl⟩ | ⟨_, -, rfl⟩⟩ := accept_cases h
  · exact Quiet.neutral ⟨rfl, rfl, rfl⟩ rfl
  · exact Quiet.neutral_set ⟨rfl, rfl, rfl⟩ hi rfl rfl

private theorem neutral_acceptWait {i : ℕ} (h : s.acceptWait i = some c) : Neutral s c := by
  obtain ⟨l, hi, -, -, rfl⟩ := acceptWait_cases h
  exact Quiet.neutral_set ⟨rfl, rfl, rfl⟩ hi rfl rfl

private theorem neutral_acceptCheck {i : ℕ} {lo : Bool} (h : s.acceptCheck i lo = some c) :
    Neutral s c := by
  obtain ⟨l, hs, hi, hsome, -, ⟨-, rfl⟩ | ⟨-, -, rfl⟩ | ⟨-, -, rfl⟩ | ⟨k, x, t, -, -, rfl⟩⟩ :=
    acceptCheck_cases h
  · exact Quiet.neutral_set ⟨rfl, rfl, rfl⟩ hi rfl rfl
  · exact Quiet.neutral ⟨rfl, rfl, rfl⟩ rfl
  · exact Quiet.neutral_set ⟨rfl, rfl, rfl⟩ hi rfl rfl
  · exact Quiet.neutral_set ⟨rfl, rfl, rfl⟩ hi rfl (by simp [registeredFds, hsome])

private theorem neutral_acceptReplace {i slot : ℕ} (h : s.acceptReplace cfg i slot = some c) :
    Neutral s c := by
  obtain ⟨l, x, peer, hs, hi, -, hsome, ⟨t, x', _, -, -, rfl⟩ | ⟨x', _, -, -, hrel⟩⟩ :=
    acceptReplace_cases h
  · refine ⟨⟨rfl, rfl, rfl⟩, ?_⟩
    rw [List.flatMap_append, flatMap_set_of_eq hi (by simp [registeredFds, hsome])]
    exact List.append_nil _
  · obtain ⟨-, rfl⟩ | ⟨_, -, rfl⟩ := hrel
    · exact Quiet.neutral ⟨rfl, rfl, rfl⟩ rfl
    · exact Quiet.neutral_set ⟨rfl, rfl, rfl⟩ hi rfl rfl

private theorem neutral_connectFailed {S : SocketSet T} {i : ℕ} {k k' : Connecting}
    {x : SocketHandle} (hi : s.objects[i]? = some (.connecting k))
    (h : s.connectFailed S i k' x = c) : Neutral s c := by
  obtain ⟨-, rfl⟩ | ⟨_, -, rfl⟩ := connectFailed_cases h
  · exact Quiet.neutral ⟨rfl, rfl, rfl⟩ rfl
  · exact Quiet.neutral_set ⟨rfl, rfl, rfl⟩ hi rfl rfl

private theorem neutral_connectCheck {S : SocketSet T} {i : ℕ} {k k' : Connecting}
    {x : SocketHandle} (hi : s.objects[i]? = some (.connecting k))
    (h : s.connectCheck S i k' x = c) : Neutral s c := by
  obtain ⟨-, rfl⟩ | ⟨t, -, -, h⟩ | ⟨t, -, -, -, rfl⟩ | ⟨t, -, -, -, rfl⟩ := connectCheck_cases h
  · exact Quiet.neutral ⟨rfl, rfl, rfl⟩ rfl
  · exact neutral_connectFailed hi h
  · exact Quiet.neutral_set ⟨rfl, rfl, rfl⟩ hi rfl rfl
  · exact Quiet.neutral_set ⟨rfl, rfl, rfl⟩ hi rfl rfl

private theorem neutral_connectNext {i slot : ℕ} {draws : List PortDraw}
    {system : Except IoError Unit} (h : s.connectNext cfg i draws slot system = some c) :
    Neutral s c := by
  obtain ⟨k, hi, -, ⟨-, rfl⟩ | ⟨addr, addrs, -, h⟩⟩ := connectNext_cases h
  · exact Quiet.neutral_set ⟨rfl, rfl, rfl⟩ hi rfl rfl
  obtain ⟨-, -, rfl⟩ | ⟨-, e, -, rfl⟩ | ⟨-, -, rfl⟩ | ⟨-, -, _, _, _, -, -, -, rfl⟩ |
    ⟨-, -, _, _, x, sockets, -, -, -, h⟩ := h
  · exact Quiet.neutral_set ⟨rfl, rfl, rfl⟩ hi rfl rfl
  · exact Quiet.neutral_set ⟨rfl, rfl, rfl⟩ hi rfl rfl
  · exact Quiet.neutral_set ⟨rfl, rfl, rfl⟩ hi rfl rfl
  · exact Quiet.neutral_set ⟨rfl, rfl, rfl⟩ hi rfl rfl
  · obtain ⟨-, rfl⟩ | ⟨-, rfl⟩ := h
    · exact Quiet.neutral_set ⟨rfl, rfl, rfl⟩ hi rfl rfl
    · have hcheck : Neutral s (s.connectCheck sockets i { k with addrs := addrs } x) :=
        neutral_connectCheck hi rfl
      exact hcheck

private theorem neutral_connectWake {i : ℕ} (h : s.connectWake i = some c) : Neutral s c := by
  obtain ⟨k, x, hi, -, h⟩ := connectWake_cases h
  exact neutral_connectCheck hi h

private theorem neutral_connectTimeout {i : ℕ} (h : s.connectTimeout i = some c) :
    Neutral s c := by
  obtain ⟨k, x, hi, -, -, ⟨-, rfl⟩ | ⟨t, -, h⟩⟩ := connectTimeout_cases h
  · exact Quiet.neutral ⟨rfl, rfl, rfl⟩ rfl
  · exact neutral_connectFailed hi h

private theorem neutral_writeWith {i : ℕ} {send : T.Tcp → T.Tcp}
    (h : s.writeWith i send = some c) : Neutral s c := by
  obtain ⟨x, -, ⟨-, rfl⟩ | ⟨t, -, ⟨-, rfl⟩ | ⟨-, rfl⟩⟩⟩ := writeWith_cases h <;>
    exact Quiet.neutral ⟨rfl, rfl, rfl⟩ rfl

private theorem neutral_readWith {i : ℕ} {recv : T.Tcp → T.Tcp}
    (h : s.readWith i recv = some c) : Neutral s c := by
  obtain ⟨x, -, ⟨-, rfl⟩ | ⟨t, -, ⟨-, rfl⟩ | ⟨-, rfl⟩⟩⟩ := readWith_cases h <;>
    exact Quiet.neutral ⟨rfl, rfl, rfl⟩ rfl

private theorem neutral_shutdown {i : ℕ} {how : Shutdown} (h : s.shutdown i how = some c) :
    Neutral s c := by
  obtain ⟨x, -, ⟨-, rfl⟩ | ⟨t, -, ⟨-, rfl⟩ | ⟨-, rfl⟩ | ⟨-, rfl⟩⟩⟩ := shutdown_cases h <;>
    exact Quiet.neutral ⟨rfl, rfl, rfl⟩ rfl

private theorem neutral_tryClone {i : ℕ} (h : s.tryClone i = some c) : Neutral s c := by
  obtain ⟨x, -, ⟨-, rfl⟩ | ⟨_, -, rfl⟩⟩ := tryClone_cases h
  · exact Quiet.neutral ⟨rfl, rfl, rfl⟩ rfl
  · exact Quiet.neutral_append ⟨rfl, rfl, rfl⟩ rfl rfl

private theorem neutral_dropStream {i : ℕ} (h : s.dropStream i = some c) : Neutral s c := by
  obtain ⟨x, hi, ⟨-, rfl⟩ | ⟨_, -, rfl⟩⟩ := dropStream_cases h
  · exact Quiet.neutral ⟨rfl, rfl, rfl⟩ rfl
  · exact Quiet.neutral_set ⟨rfl, rfl, rfl⟩ hi rfl rfl

private theorem neutral_tryCloneUdp {i : ℕ} {dup : Except IoError Fd}
    (h : s.tryCloneUdp cfg i dup = some c) : Neutral s c := by
  obtain ⟨u, -, ⟨-, rfl⟩ | ⟨_, -, ⟨e, -, rfl⟩ | ⟨lo, -, -, rfl⟩⟩⟩ := tryCloneUdp_cases h
  · exact Quiet.neutral ⟨rfl, rfl, rfl⟩ rfl
  · exact Quiet.neutral ⟨rfl, rfl, rfl⟩ rfl
  · exact Quiet.neutral_append ⟨rfl, rfl, rfl⟩ rfl rfl

private theorem neutral_sendTo {i : ℕ} {buf : List UInt8} {addr : SocketAddr}
    (h : s.sendTo i buf addr = some c) : Neutral s c := by
  obtain ⟨u, -, ⟨-, rfl⟩ | ⟨x, -, -, ⟨-, rfl⟩ | ⟨t, -, ⟨-, rfl⟩ | ⟨-, rfl⟩⟩⟩⟩ := sendTo_cases h <;>
    exact Quiet.neutral ⟨rfl, rfl, rfl⟩ rfl

private theorem neutral_recvFrom {i len : ℕ} (h : s.recvFrom i len = some c) : Neutral s c := by
  obtain ⟨u, -, ⟨-, rfl⟩ | ⟨x, -, ⟨-, rfl⟩ | ⟨t, -, ⟨-, rfl⟩ | ⟨-, rfl⟩⟩⟩⟩ := recvFrom_cases h <;>
    exact Quiet.neutral ⟨rfl, rfl, rfl⟩ rfl

/-- **What a change has to do with descriptors.** -/
theorem queues_of_change (h : s.change cfg a = some c) : Queues s a c := by
  cases a with
  | bgFirst now => exact absurd h (by simp [change])
  | bgPoll ok => exact absurd h (by simp [change])
  | bgSecond events => exact absurd h (by simp [change])
  | bind addrs slots => exact bind_queues h
  | bindUdp addrs slot => exact bindUdp_queues h
  | dropListener i => exact dropListener_queues h
  | dropUdp i => exact dropUdp_queues h
  | dropStream i => exact .neutral (neutral_dropStream h) (by simp [DropsAt])
  | setTtl i ttl => exact .neutral (neutral_setTtl h) (by simp [DropsAt])
  | setNonblocking i nonblocking => exact .neutral (neutral_setNonblocking h) (by simp [DropsAt])
  | accept i => exact .neutral (neutral_accept h) (by simp [DropsAt])
  | acceptWait i => exact .neutral (neutral_acceptWait h) (by simp [DropsAt])
  | acceptCheck i lo => exact .neutral (neutral_acceptCheck h) (by simp [DropsAt])
  | acceptReplace i slot => exact .neutral (neutral_acceptReplace h) (by simp [DropsAt])
  | connect addrs hasTimeout =>
    cases h
    exact .neutral (Quiet.neutral_append ⟨rfl, rfl, rfl⟩ rfl rfl) (by simp [DropsAt])
  | connectNext i draws slot system => exact .neutral (neutral_connectNext h) (by simp [DropsAt])
  | connectWake i => exact .neutral (neutral_connectWake h) (by simp [DropsAt])
  | connectTimeout i => exact .neutral (neutral_connectTimeout h) (by simp [DropsAt])
  | write i buf => exact .neutral (neutral_writeWith h) (by simp [DropsAt])
  | writeNoCopy i f => exact .neutral (neutral_writeWith h) (by simp [DropsAt])
  | read i len => exact .neutral (neutral_readWith h) (by simp [DropsAt])
  | readNoCopy i f => exact .neutral (neutral_readWith h) (by simp [DropsAt])
  | shutdown i how => exact .neutral (neutral_shutdown h) (by simp [DropsAt])
  | tryClone i => exact .neutral (neutral_tryClone h) (by simp [DropsAt])
  | tryCloneUdp i dup => exact .neutral (neutral_tryCloneUdp h) (by simp [DropsAt])
  | sendTo i buf addr => exact .neutral (neutral_sendTo h) (by simp [DropsAt])
  | recvFrom i len => exact .neutral (neutral_recvFrom h) (by simp [DropsAt])

/-- **Every change keeps the balance.** What is queued comes in, and what is dropped goes out. -/
theorem Queues.balanced (h : Queues s a c) (fd : Fd) :
    (s.objects.flatMap registeredFds).count fd + c.fdsAdd.count fd + c.unregistered.count fd =
      (c.objects.flatMap registeredFds).count fd + c.fdsRemove.count fd := by
  cases h with
  | neutral hc ha =>
    obtain ⟨⟨hadd, hrem, hun⟩, ho⟩ := hc
    simp [hadd, hrem, hun, ho]
  | register ha hadd hrem hun ho => simp [hadd, hrem, hun, ho]
  | drop ha hi ho hadd hrem hfd =>
    have hset := count_flatMap_set registeredFds hi .gone fd
    rw [show registeredFds .gone = [] from rfl] at hset
    rw [ho, hadd, hrem]
    rcases hfd with ⟨hr, hu⟩ | ⟨hr, hu⟩
    · rw [hr] at hset
      rw [hu]
      simp only [List.count_nil] at hset ⊢
      omega
    · rw [hr] at hset
      rw [hu]
      simp only [List.count_nil] at hset ⊢
      omega

/-! ## The account over whole runs -/

/-- The account, as long as the background thread is alive. -/
def Account (s : State T) : Prop := s.bg.pc ≠ .panicked → ∀ fd,
  s.bg.fdsExtra.count fd + s.net.fdsAdd.count fd + s.unregistered.count fd =
    s.registered.count fd + s.net.fdsRemove.count fd

/-- Waking threads up does not touch the descriptors. -/
theorem registeredFds_wakeAccept (o : Object) : registeredFds (wakeAccept o) = registeredFds o := by
  cases o with
  | listener l =>
    simp only [wakeAccept]
    split <;> rfl
  | _ => rfl

theorem Account.step (hs : Account s) (h : s.step cfg a = some s') : Account s' := by
  rcases step_cases h with ⟨now, -, h⟩ | ⟨ok, -, h⟩ | ⟨events, -, h⟩ | ⟨c, hc, rfl⟩
  · obtain ⟨hpc, ⟨-, rfl⟩ | ⟨fdsExtra, hextra, rfl⟩⟩ := bgFirst_cases h
    · exact fun hp ↦ absurd rfl hp
    · -- both queues move into `fds_extra`
      intro _ fd
      have hbefore := hs (by simp [hpc]) fd
      have hremoved := count_removeFds hextra fd
      simp only [registered, List.count_append, List.count_nil] at hbefore hremoved ⊢
      omega
  · obtain ⟨hpc, rfl⟩ := bgPoll_cases h
    exact fun _ ↦ hs (by simp [hpc])
  · obtain ⟨hpc, rfl⟩ := bgSecond_cases h
    intro _ fd
    have hbefore := hs (by simp [hpc]) fd
    simp only [registered, List.flatMap_map, registeredFds_wakeAccept] at hbefore ⊢
    exact hbefore
  · intro hp fd
    have hbefore := hs hp fd
    have hchange := (queues_of_change hc).balanced fd
    rw [fdsAdd_apply, fdsRemove_apply]
    simp only [registered, apply, List.count_append] at hbefore hchange ⊢
    omega

theorem account_of_run {as : List (Action T)} (h : run (step cfg) initial as = some s) :
    Account s :=
  invariant_of_run (I := Account) (fun _ _ _ hs hstep ↦ hs.step hstep)
    (fun _ fd ↦ by simp [initial, registered, StcpNet.new]) h

/-! ## Dropping what is not registered -/

/-- The action drops a value whose descriptor was never queued: a listener or UDP socket bound to a
loopback address, or a UDP socket made by `try_clone`. -/
def DropsUnregistered (s : State T) (a : Action T) : Prop :=
  ∃ i o, DropsAt a i ∧ s.objects[i]? = some o ∧ registeredFds o = []

theorem unregistered_eq_nil_iff (h : s.step cfg a = some s') :
    s'.unregistered = [] ↔ s.unregistered = [] ∧ ¬DropsUnregistered s a := by
  have hbg (ha : ∀ i, ¬DropsAt a i) : ¬DropsUnregistered s a := fun ⟨i, _, hi, _⟩ ↦ ha i hi
  rcases step_cases h with ⟨now, rfl, h⟩ | ⟨ok, rfl, h⟩ | ⟨events, rfl, h⟩ | ⟨c, hc, rfl⟩
  · have hno := hbg (by simp [DropsAt])
    obtain ⟨-, ⟨-, rfl⟩ | ⟨fdsExtra, -, rfl⟩⟩ := bgFirst_cases h <;> simp [hno]
  · obtain ⟨-, rfl⟩ := bgPoll_cases h
    simp [hbg (by simp [DropsAt])]
  · obtain ⟨-, rfl⟩ := bgSecond_cases h
    simp [hbg (by simp [DropsAt])]
  · simp only [apply, List.append_eq_nil_iff]
    refine and_congr_right fun _ ↦ ?_
    cases queues_of_change hc with
    | neutral hc ha => simp [hc.1.2.2, hbg ha]
    | register ha hadd hrem hun ho =>
      refine iff_of_true hun (hbg fun i hi ↦ ?_)
      obtain ⟨addrs, port, -, ⟨slots, rfl⟩ | ⟨slot, rfl⟩⟩ := ha <;> simp [DropsAt] at hi
    | @drop i o fd ha hi ho hadd hrem hfd =>
      rcases hfd with ⟨hr, hu⟩ | ⟨hr, hu⟩
      · exact iff_of_false (by simp [hu]) (not_not.mpr ⟨i, o, ha, hi, hr⟩)
      · refine iff_of_true hu ?_
        rintro ⟨j, o', hj, ho', hr'⟩
        obtain rfl : i = j := by
          rcases ha with rfl | rfl <;> simpa [DropsAt] using hj
        rw [hi, Option.some_inj] at ho'
        rw [← ho', hr] at hr'
        exact absurd hr' (by simp)

theorem exists_bgFirst (cfg : Config) (now : ℕ) (hpc : s.bg.pc = .first) :
    ∃ s', s.step cfg (.bgFirst now) = some s' := by
  simp only [step, bgFirst, if_pos hpc]
  split <;> exact ⟨_, rfl⟩

/-- **The descriptors that the background thread removes.** Its first critical section finds all of
them and leaves exactly the registered ones, in every run in which no unregistered value has been
dropped, and in no other. -/
theorem bgFirst_removes_iff {as : List (Action T)} (hrun : run (step cfg) initial as = some s)
    (hpc : s.bg.pc = .first) :
    (∀ now s', s.step cfg (.bgFirst now) = some s' →
      s'.bg.pc ≠ .panicked ∧ s'.bg.fdsExtra.Perm s'.registered) ↔
    Along (step cfg) (fun s a ↦ ¬DropsUnregistered s a) initial as := by
  have hacc := account_of_run hrun (by simp [hpc])
  have hcond := iff_along_of_run (P := fun s ↦ s.unregistered = [])
    (C := fun s a ↦ ¬DropsUnregistered s a) (fun _ _ _ h ↦ unregistered_eq_nil_iff h) hrun
  simp only [initial, true_and] at hcond
  refine Iff.trans ⟨?_, ?_⟩ hcond
  · intro h
    obtain ⟨s', hs'⟩ := exists_bgFirst cfg 0 hpc
    obtain ⟨hno, hperm⟩ := h 0 s' hs'
    -- the section balances the account without what was unregistered, so there was nothing
    obtain ⟨-, ⟨-, rfl⟩ | ⟨fdsExtra, hextra, rfl⟩⟩ := bgFirst_cases hs'
    · exact absurd rfl hno
    · refine List.eq_nil_iff_forall_not_mem.mpr fun fd hmem ↦ ?_
      have hfd := hacc fd
      have hremoved := count_removeFds hextra fd
      have hsame := hperm.count_eq fd
      have hpos := List.count_pos_iff.mpr hmem
      rw [List.count_append] at hremoved
      simp only [registered] at hsame hfd
      omega
  · intro hun now s' hstep
    -- the account says that everything to be removed is there
    simp only [hun, List.count_nil, Nat.add_zero] at hacc
    have hle (fd : Fd) : s.net.fdsRemove.count fd ≤ (s.bg.fdsExtra ++ s.net.fdsAdd).count fd := by
      rw [List.count_append, hacc fd]
      exact Nat.le_add_left _ _
    obtain ⟨extra, hsome⟩ := exists_removeFds hle
    obtain ⟨-, ⟨hnone, -⟩ | ⟨fdsExtra, hextra, rfl⟩⟩ := bgFirst_cases hstep
    · rw [hnone] at hsome
      exact absurd hsome (by simp)
    · refine ⟨?_, List.perm_iff_count.mpr ?_⟩
      · dsimp only
        split <;> simp
      · intro fd
        have hfd := hacc fd
        have hremoved := count_removeFds hextra fd
        rw [List.count_append] at hremoved
        simp only [registered] at hfd ⊢
        omega

/-- A listener on the address of the interface. -/
def bindListener : Action .reference := .bind [.granted ⟨.v4 10 0 0 2, 8080⟩ 7] [0]

/-- Two listeners are bound, and the background thread comes to know their descriptors; then the
first of them is dropped. -/
def dropFirstListener : List (Action .reference) :=
  [bindListener, .bind [.granted ⟨.v4 10 0 0 2, 8081⟩ 8] [1], .bgFirst 0, .bgPoll true,
    .bgSecond [], .dropListener 0]

theorem bgFirst_removes_dropFirstListener : ∃ s,
    run (step .reference) initial dropFirstListener = some s ∧ s.bg.pc = .first ∧
    s.net.fdsRemove = [7] ∧ s.registered = [8] ∧
    ∀ now s', s.step .reference (.bgFirst now) = some s' →
      s'.bg.pc ≠ .panicked ∧ s'.bg.fdsExtra.Perm s'.registered := by
  have hother {s : State .reference} {a : Action .reference} (ha : ∀ i, ¬DropsAt a i) :
      ¬DropsUnregistered s a := fun ⟨i, _, hi, _⟩ ↦ ha i hi
  have hdrops : Along (step .reference) (fun s a ↦ ¬DropsUnregistered s a) initial
      dropFirstListener := by
    refine (along_cons_of_step rfl).mpr ⟨hother (by simp [DropsAt, bindListener]), ?_⟩
    refine (along_cons_of_step rfl).mpr ⟨hother (by simp [DropsAt]), ?_⟩
    refine (along_cons_of_step rfl).mpr ⟨hother (by simp [DropsAt]), ?_⟩
    refine (along_cons_of_step rfl).mpr ⟨hother (by simp [DropsAt]), ?_⟩
    refine (along_cons_of_step rfl).mpr ⟨hother (by simp [DropsAt]), ?_⟩
    refine (along_cons_of_step rfl).mpr ⟨?_, trivial⟩
    -- the listener that is dropped is registered
    rintro ⟨i, o, hi, ho, hfds⟩
    obtain rfl : i = 0 := by simpa [DropsAt, eq_comm] using hi
    obtain rfl := Option.some.inj ho
    exact absurd hfds (by decide)
  exact ⟨_, rfl, rfl, rfl, rfl, (bgFirst_removes_iff rfl rfl).mpr hdrops⟩

/-- A listener on a loopback address is bound and dropped. -/
def dropLoopbackListener : List (Action .reference) :=
  [.bind [.granted ⟨.v4 127 0 0 1, 8080⟩ 7] [], .dropListener 0]

theorem bgFirst_panics_of_dropLoopbackListener : ∃ s s',
    run (step .reference) initial dropLoopbackListener = some s ∧ s.bg.pc = .first ∧
    s.step .reference (.bgFirst 0) = some s' ∧ s'.bg.pc = .panicked :=
  ⟨_, _, rfl, rfl, rfl, rfl⟩

/-! ## The descriptors of values that are bound while the background thread waits -/

/-- The background thread is in `poll(2)`, or about to call it, and no notification ends the
call. -/
def Waiting (s : State T) : Prop := s.bg.pc = .polling ∧ s.net.notifications = 0

/-- The action does not lead to a descriptor that is not polled: it drops nothing unregistered, and
queues no descriptor while the background thread waits. -/
def SeenByBg (s : State T) (a : Action T) : Prop :=
  ¬DropsUnregistered s a ∧ ∀ fd, Registers a fd → ¬Waiting s

theorem notifications_le_apply : s.net.notifications ≤ (s.apply cfg c).net.notifications := by
  have h : (s.apply cfg c).wake.notifications = _ := congrArg Wake.notifications (wake_apply c)
  exact (Wake.notifications_le_wake c.wake).trans_eq h.symm

/-- While the background thread waits, nothing is queued. -/
def AddsSeen (s : State T) : Prop := Waiting s → s.net.fdsAdd = []

theorem AddsSeen.step (hs : AddsSeen s) (ha : SeenByBg s a) (h : s.step cfg a = some s') :
    AddsSeen s' := by
  rcases step_cases h with ⟨now, -, h⟩ | ⟨ok, -, h⟩ | ⟨events, -, h⟩ | ⟨c, hc, rfl⟩
  · obtain ⟨-, ⟨-, rfl⟩ | ⟨fdsExtra, -, rfl⟩⟩ := bgFirst_cases h <;> exact fun _ ↦ rfl
  · obtain ⟨hpc, rfl⟩ := bgPoll_cases h
    rintro ⟨hp, -⟩
    simp only at hp
    split at hp <;> exact absurd hp (by simp)
  · obtain ⟨hpc, rfl⟩ := bgSecond_cases h
    rintro ⟨hp, -⟩
    exact absurd hp (by simp)
  · rintro ⟨hp, hn⟩
    have hw : Waiting s := ⟨hp, Nat.le_zero.mp (hn ▸ notifications_le_apply)⟩
    rw [fdsAdd_apply, hs hw]
    cases queues_of_change hc with
    | neutral hc _ => simp [hc.1.1]
    | register hr _ _ _ _ => exact absurd hw (ha.2 _ hr)
    | drop _ _ _ hadd _ _ => simp [hadd]

/-- **Bound sockets are polled.** In every run that drops nothing unregistered and binds nothing
while the background thread waits, the background thread polls the descriptor of every value bound
to an address of the stack in user space whenever it waits. -/
theorem registered_polled {as : List (Action T)} (hrun : run (step cfg) initial as = some s)
    (hseen : Along (step cfg) SeenByBg initial as) (hw : Waiting s) :
    ∀ fd ∈ s.registered, fd ∈ s.bg.fds := by
  have hadds : AddsSeen s := invariant_of_along (fun _ _ _ hs ha h ↦ AddsSeen.step hs ha h)
    (fun _ ↦ rfl) hseen hrun
  have hun : s.unregistered = [] := invariant_of_along (I := fun s ↦ s.unregistered = [])
    (fun _ _ _ hs ha h ↦ (unregistered_eq_nil_iff h).mpr ⟨hs, ha.1⟩) rfl hseen hrun
  intro fd hfd
  have hfds := (polls_of_run hrun).between (Or.inl hw.1)
  have hacc := account_of_run hrun (by simp [hw.1]) fd
  have hpos := List.count_pos_iff.mpr hfd
  rw [hadds hw, hun, List.count_nil] at hacc
  rw [hfds]
  refine List.mem_append_right _ (List.count_pos_iff.mp ?_)
  omega

theorem registered_polled_bindListener : ∃ s,
    run (step .reference) initial [bindListener, .bgFirst 0] = some s ∧ Waiting s ∧
    s.registered = [7] ∧ ∀ fd ∈ s.registered, fd ∈ s.bg.fds := by
  have hseen : Along (step .reference) SeenByBg initial [bindListener, .bgFirst 0] := by
    refine ⟨⟨by simp [DropsUnregistered, DropsAt, bindListener], ?_⟩, fun s _ ↦
      ⟨⟨by simp [DropsUnregistered, DropsAt], ?_⟩, fun _ _ ↦ trivial⟩⟩
    · rintro fd - ⟨hpc, -⟩
      exact absurd hpc (by simp [initial])
    · rintro fd ⟨addrs, port, -, ⟨slots, h⟩ | ⟨slot, h⟩⟩ <;> exact absurd h (by simp)
  exact ⟨_, rfl, ⟨rfl, rfl⟩, rfl, registered_polled rfl hseen ⟨rfl, rfl⟩⟩

theorem not_registered_polled : ∃ s,
    run (step .reference) initial [.bgFirst 0, bindListener] = some s ∧ Waiting s ∧
    7 ∈ s.registered ∧ 7 ∉ s.bg.fds :=
  ⟨_, rfl, ⟨rfl, rfl⟩, by decide, by decide⟩

end State

end UsnetSockets
