import UsnetSockets.Locks.Threads

/-!
# The locks of the socket operations

The operations on TCP streams and UDP sockets as sequences of lock operations. The sockets share the
mutex of `StcpNet`, and clones of one socket share its `read_timeout`, `write_timeout` and, for UDP,
`connected`. A guard that is made in the scrutinee of a `match` lives until the `match` ends: so the
loops wait on the condition variable with a timeout locked for reading, and `send` calls `send_to`
with `connected` locked. A guard in the condition of an `if` does not live so long.

How often a loop turns and which branch is taken depends on the sockets and the network, and is a
parameter of the call. Calls that return before they take a lock are left out.

There are two ways into a deadlock. `connect` has the mutex and waits to write `connected`, which a
`send` has locked for reading while it waits for the mutex. And a thread that sets a timeout waits
for one that sleeps with it, holding up a third which has the mutex and wants to read the timeout,
so that the mutex cannot be handed back. There are no others.
-/

namespace UsnetSockets

namespace Locks

/-- A socket with all its clones. -/
inductive Socket where
  | tcp (n : ℕ)
  | udp (n : ℕ)
  deriving DecidableEq

inductive LockId where
  | stcpNet
  | connected (n : ℕ)
  | readTimeout (s : Socket)
  | writeTimeout (s : Socket)
  deriving DecidableEq

abbrev Path := List (Instr LockId)

/-- Something is done while the guard lives. -/
def guarded (x : LockId × Mode) (p : Path) : Path := .acquire x :: p ++ [.release x]

/-- The loops of `read` and its relatives: they wait for the socket, with the timeout locked. -/
def waitTurns (timeout : LockId) : ℕ → Path
  | 0 => []
  | n + 1 => guarded (timeout, .read) (wait .stcpNet) ++ waitTurns timeout n

/-- A blocking operation of a stream. -/
def waitWith (timeout : LockId) (turns : ℕ) : Path :=
  guarded (.stcpNet, .write) (waitTurns timeout turns)

/-- One turn of the loop of `recv_from`: a datagram of a peer that is not the connected one is
dropped, or there is none and the call waits. The turn in which the call returns is like the
first. -/
inductive RecvTurn where
  | drop
  | wait

def RecvTurn.path (n : ℕ) : RecvTurn → Path
  | .drop => guarded (.connected n, .read) []
  | .wait => guarded (.connected n, .read) [] ++
      guarded (.readTimeout (.udp n), .read) (Locks.wait .stcpNet)

/-- How a datagram is received: from the kernel, where `connected` is looked at only if there is a
socket in user space, or from the stack in user space. -/
inductive RecvWay where
  | system (handle : Bool)
  | stack (turns : List RecvTurn)

/-- How a datagram is sent: through the kernel, after which `set_nonblocking` may be called, or
through the stack in user space. -/
inductive SendWay where
  | system (restore : Bool)
  | stack (turns : ℕ)

/-- An operation and what it will meet on its way. -/
inductive Call where
  | read (n turns : ℕ)
  | peek (n turns : ℕ)
  | readNoCopy (n turns : ℕ)
  | write (n turns : ℕ)
  | writeNoCopy (n turns : ℕ)
  | setReadTimeout (s : Socket)
  | setWriteTimeout (s : Socket)
  | setNonblocking (s : Socket)
  | connect (n : ℕ)
  | sendTo (n : ℕ) (way : SendWay)
  /-- Without a way if the socket is not connected. -/
  | send (n : ℕ) (way : Option SendWay)
  | recvFrom (n : ℕ) (way : RecvWay)
  | recv (n : ℕ) (way : Option RecvWay)
  /-- One turn of the loop of the background thread. -/
  | bg

/-! ## The operations -/

namespace StcpStream

def read (n turns : ℕ) : Path := waitWith (.readTimeout (.tcp n)) turns

def peek (n turns : ℕ) : Path := waitWith (.readTimeout (.tcp n)) turns

def readNoCopy (n turns : ℕ) : Path := waitWith (.readTimeout (.tcp n)) turns

def write (n turns : ℕ) : Path := waitWith (.writeTimeout (.tcp n)) turns

def writeNoCopy (n turns : ℕ) : Path := waitWith (.writeTimeout (.tcp n)) turns

def setReadTimeout (n : ℕ) : Path := guarded (.readTimeout (.tcp n), .write) []

def setWriteTimeout (n : ℕ) : Path := guarded (.writeTimeout (.tcp n), .write) []

/-- An atomic variable is written. -/
def setNonblocking : Path := []

end StcpStream

namespace UdpSocket

/-- The timeout is read again to be given to the kernel. -/
def setReadTimeout (n : ℕ) : Path :=
  guarded (.readTimeout (.udp n), .write) [] ++ guarded (.readTimeout (.udp n), .read) []

def setWriteTimeout (n : ℕ) : Path :=
  guarded (.writeTimeout (.udp n), .write) [] ++ guarded (.writeTimeout (.udp n), .read) []

def setNonblocking (n : ℕ) : Path := guarded (.connected n, .read) []

def connect (n : ℕ) : Path := guarded (.stcpNet, .write) (guarded (.connected n, .write) [])

/-- It is the `read_timeout` that `send_to` waits with. -/
def sendTo (n : ℕ) : SendWay → Path
  | .system restore => if restore then setNonblocking n else []
  | .stack turns => waitWith (.readTimeout (.udp n)) turns

def send (n : ℕ) : Option SendWay → Path
  | none => guarded (.connected n, .read) []
  | some way => guarded (.connected n, .read) (sendTo n way)

def recvFrom (n : ℕ) : RecvWay → Path
  | .system handle => if handle then guarded (.connected n, .read) [] else []
  | .stack turns => guarded (.connected n, .read) [] ++
      guarded (.stcpNet, .write) (turns.flatMap (RecvTurn.path n))

def recv (n : ℕ) : Option RecvWay → Path
  | none => guarded (.connected n, .read) []
  | some way => guarded (.connected n, .read) [] ++ recvFrom n way

end UdpSocket

/-- The two critical sections of the background thread. -/
def bg : Path := guarded (.stcpNet, .write) [] ++ guarded (.stcpNet, .write) [.notifyAll]

/-- What a call does with locks. -/
def Call.path : Call → Path
  | .read n turns => StcpStream.read n turns
  | .peek n turns => StcpStream.peek n turns
  | .readNoCopy n turns => StcpStream.readNoCopy n turns
  | .write n turns => StcpStream.write n turns
  | .writeNoCopy n turns => StcpStream.writeNoCopy n turns
  | .setReadTimeout (.tcp n) => StcpStream.setReadTimeout n
  | .setReadTimeout (.udp n) => UdpSocket.setReadTimeout n
  | .setWriteTimeout (.tcp n) => StcpStream.setWriteTimeout n
  | .setWriteTimeout (.udp n) => UdpSocket.setWriteTimeout n
  | .setNonblocking (.tcp _) => StcpStream.setNonblocking
  | .setNonblocking (.udp n) => UdpSocket.setNonblocking n
  | .connect n => UdpSocket.connect n
  | .sendTo n way => UdpSocket.sendTo n way
  | .send n way => UdpSocket.send n way
  | .recvFrom n way => UdpSocket.recvFrom n way
  | .recv n way => UdpSocket.recv n way
  | .bg => Locks.bg

/-! ## What the calls hold when they acquire a lock -/

namespace Call

/-- The timeout with which the call may sleep. -/
def sleepsWith : Call → Option LockId
  | .read n _ | .peek n _ | .readNoCopy n _ => some (.readTimeout (.tcp n))
  | .write n _ | .writeNoCopy n _ => some (.writeTimeout (.tcp n))
  | .sendTo n (.stack _) | .send n (some (.stack _)) => some (.readTimeout (.udp n))
  | .recvFrom n (.stack _) | .recv n (some (.stack _)) => some (.readTimeout (.udp n))
  | _ => none

/-- The timeout that the call sets. -/
def sets : Call → Option LockId
  | .setReadTimeout s => some (.readTimeout s)
  | .setWriteTimeout s => some (.writeTimeout s)
  | _ => none

/-- The socket that the call connects. -/
def connects : Call → Option ℕ
  | .connect n => some n
  | _ => none

/-- The socket whose `connected` the call has locked while it asks for another lock. -/
def keepsConnected : Call → Option ℕ
  | .send n (some (.stack _)) | .send n (some (.system true)) => some n
  | _ => none

end Call

def LockId.isTimeout : LockId → Bool
  | .readTimeout _ | .writeTimeout _ => true
  | _ => false

/-- What a call may hold when it acquires a lock. -/
structure Allowed (k : Call) (held : List (LockId × Mode)) (x : LockId × Mode) : Prop where
  stcpNet : ∀ m, (.stcpNet, m) ∈ held →
    x.1 ≠ .stcpNet ∧ (x.1.isTimeout → x.2 = .read ∧ k.sleepsWith = some x.1)
  timeout : ∀ l m, (l, m) ∈ held → l.isTimeout →
    m = .read ∧ x.1 = .stcpNet ∧ k.sleepsWith = some l
  connected : ∀ n m, (.connected n, m) ∈ held → m = .read ∧ k.keepsConnected = some n
  write : x.2 = .write →
    (∀ n, x.1 = .connected n → k.connects = some n) ∧ (x.1.isTimeout → k.sets = some x.1)
  mutex : x.1 = .stcpNet → x.2 = .write

section Paths

variable {ok : List (LockId × Mode) → LockId × Mode → Prop} {held : List (LockId × Mode)}
  {rest : Path}

theorem disciplined_guarded {x : LockId × Mode} {p : Path} (hok : ok held x)
    (hp : Disciplined ok (x :: held) (p ++ .release x :: rest)) :
    Disciplined ok held (guarded x p ++ rest) := by
  simp only [guarded, List.cons_append, List.append_assoc]
  exact ⟨hok, hp⟩

theorem disciplined_release {x : LockId × Mode} (h : Disciplined ok held rest) :
    Disciplined ok (x :: held) (.release x :: rest) := by
  rwa [Disciplined, List.erase_cons_head]

theorem disciplined_nil : Disciplined ok [] [] := rfl

/-- A guard that is dropped at once. -/
theorem disciplined_guarded_nil {x : LockId × Mode} (hok : ok held x)
    (hrest : Disciplined ok held rest) : Disciplined ok held (guarded x [] ++ rest) :=
  disciplined_guarded hok (disciplined_release hrest)

/-- A wait with a timeout locked comes back to what was held before. -/
theorem disciplined_wait {l : LockId} (hread : ok ((.stcpNet, .write) :: held) (l, .read))
    (hback : ok ((l, .read) :: held) (.stcpNet, .write))
    (hrest : Disciplined ok ((.stcpNet, .write) :: held) rest) :
    Disciplined ok ((.stcpNet, .write) :: held) (guarded (l, .read) (wait .stcpNet) ++ rest) := by
  refine disciplined_guarded hread ?_
  rw [wait, List.cons_append, Disciplined, List.erase_cons_tail (by simp), List.erase_cons_head]
  refine ⟨hback, ?_⟩
  change Disciplined ok (((.stcpNet, .write) :: (l, .read) :: held).erase (l, .read)) rest
  rwa [List.erase_cons_tail (by simp), List.erase_cons_head]

theorem disciplined_waitTurns {l : LockId} (hread : ok ((.stcpNet, .write) :: held) (l, .read))
    (hback : ok ((l, .read) :: held) (.stcpNet, .write))
    (hrest : Disciplined ok ((.stcpNet, .write) :: held) rest) (turns : ℕ) :
    Disciplined ok ((.stcpNet, .write) :: held) (waitTurns l turns ++ rest) := by
  induction turns with
  | zero => exact hrest
  | succ turns ih =>
    rw [waitTurns, List.append_assoc]
    exact disciplined_wait hread hback ih

theorem disciplined_waitWith {l : LockId} (hnet : ok held (.stcpNet, .write))
    (hread : ok ((.stcpNet, .write) :: held) (l, .read))
    (hback : ok ((l, .read) :: held) (.stcpNet, .write))
    (hrest : Disciplined ok held rest) (turns : ℕ) :
    Disciplined ok held (waitWith l turns ++ rest) :=
  disciplined_guarded hnet (disciplined_waitTurns hread hback (disciplined_release hrest) turns)

end Paths

theorem disciplined_turns {n : ℕ} {k : Call} {rest : Path}
    (hk : k.sleepsWith = some (.readTimeout (.udp n)))
    (hrest : Disciplined (Allowed k) [(.stcpNet, .write)] rest) (turns : List RecvTurn) :
    Disciplined (Allowed k) [(.stcpNet, .write)] (turns.flatMap (RecvTurn.path n) ++ rest) := by
  have hconn : Allowed k [(.stcpNet, .write)] (.connected n, .read) := by
    constructor <;> simp [LockId.isTimeout]
  induction turns with
  | nil => exact hrest
  | cons turn turns ih =>
    rw [List.flatMap_cons, List.append_assoc]
    cases turn with
    | drop => exact disciplined_guarded_nil hconn ih
    | wait =>
      rw [RecvTurn.path, List.append_assoc]
      refine disciplined_guarded_nil hconn (disciplined_wait ?_ ?_ ih)
      · constructor <;> simp [LockId.isTimeout, hk]
      · constructor <;> simp [LockId.isTimeout, hk]

/-- A call that takes the mutex and waits with a timeout. All that it may hold besides is a
`connected`. -/
theorem disciplined_sleeper {k : Call} {l : LockId} {held : List (LockId × Mode)} {rest : Path}
    (hheld : ∀ y ∈ held, ∃ n, y = (.connected n, .read) ∧ k.keepsConnected = some n)
    (hl : l.isTimeout) (hk : k.sleepsWith = some l) (hrest : Disciplined (Allowed k) held rest)
    (turns : ℕ) : Disciplined (Allowed k) held (waitWith l turns ++ rest) := by
  have hnet (m : Mode) : (.stcpNet, m) ∉ held := fun h ↦ by
    obtain ⟨n, he, -⟩ := hheld _ h
    simp at he
  have htimeout (l' : LockId) (m : Mode) (h : (l', m) ∈ held) : ¬l'.isTimeout := by
    obtain ⟨n, he, -⟩ := hheld _ h
    obtain ⟨rfl, -⟩ := Prod.mk.inj he
    simp [LockId.isTimeout]
  have hconn (n : ℕ) (m : Mode) (h : (.connected n, m) ∈ held) :
      m = .read ∧ k.keepsConnected = some n := by
    obtain ⟨n', he, hn⟩ := hheld _ h
    obtain ⟨hn', rfl⟩ := Prod.mk.inj he
    exact ⟨rfl, by rw [hn, LockId.connected.inj hn']⟩
  have hne : l ≠ .stcpNet := by
    rintro rfl
    simp [LockId.isTimeout] at hl
  -- the three points of the loop: the mutex, the timeout under it, and the mutex handed back
  refine disciplined_waitWith ?_ ?_ ?_ hrest turns
  · exact ⟨fun m h ↦ absurd h (hnet m), fun l' m h ht ↦ absurd ht (htimeout l' m h), hconn,
      by simp [LockId.isTimeout], by simp⟩
  · refine ⟨fun m _ ↦ ⟨hne, fun _ ↦ ⟨rfl, hk⟩⟩, fun l' m h ht ↦ ?_, fun n m h ↦ ?_, by simp,
      fun h ↦ absurd h hne⟩
    · rcases List.mem_cons.mp h with he | h
      · rw [(Prod.mk.inj he).1] at ht
        exact absurd ht (by simp [LockId.isTimeout])
      · exact absurd ht (htimeout l' m h)
    · exact hconn n m (List.mem_of_ne_of_mem (by simp) h)
  · refine ⟨fun m h ↦ ?_, fun l' m h ht ↦ ?_, fun n m h ↦ ?_, by simp [LockId.isTimeout],
      by simp⟩
    · exact absurd (List.mem_of_ne_of_mem (by simp [hne.symm]) h) (hnet m)
    · rcases List.mem_cons.mp h with he | h
      · obtain ⟨rfl, rfl⟩ := Prod.mk.inj he
        exact ⟨rfl, rfl, hk⟩
      · exact absurd ht (htimeout l' m h)
    · refine hconn n m (List.mem_of_ne_of_mem (fun he ↦ ?_) h)
      rw [← (Prod.mk.inj he).1] at hl
      exact absurd hl (by simp [LockId.isTimeout])

theorem allowed_nil_read (k : Call) {l : LockId} (hl : l ≠ .stcpNet) :
    Allowed k [] (l, .read) := by
  constructor <;> simp [hl]

theorem allowed_nil_stcpNet (k : Call) : Allowed k [] (.stcpNet, .write) := by
  constructor <;> simp [LockId.isTimeout]

theorem allowed_nil_sets {k : Call} {l : LockId} (hk : k.sets = some l) (hl : l.isTimeout) :
    Allowed k [] (l, .write) := by
  refine ⟨by simp, by simp, by simp, fun _ ↦ ⟨fun n he ↦ ?_, fun _ ↦ hk⟩, fun _ ↦ rfl⟩
  obtain rfl : l = .connected n := he
  simp [LockId.isTimeout] at hl

theorem disciplined_sendTo {k : Call} {n : ℕ} {way : SendWay} {held : List (LockId × Mode)}
    {rest : Path} (hheld : ∀ y ∈ held, y = (.connected n, .read))
    (hstack : ∀ turns, way = .stack turns → k.sleepsWith = some (.readTimeout (.udp n)))
    (hkeeps : way ≠ .system false → held ≠ [] → k.keepsConnected = some n)
    (hrest : Disciplined (Allowed k) held rest) :
    Disciplined (Allowed k) held (UdpSocket.sendTo n way ++ rest) := by
  cases way with
  | stack turns =>
    refine disciplined_sleeper (fun y hy ↦ ?_) rfl (hstack turns rfl) hrest turns
    exact ⟨n, hheld y hy, hkeeps (by simp) (List.ne_nil_of_mem hy)⟩
  | system restore =>
    cases restore with
    | false => exact hrest
    | true =>
      refine disciplined_guarded_nil
        ⟨fun m h ↦ ?_, fun l m h hl ↦ ?_, fun n' m h ↦ ?_, by simp, by simp⟩ hrest
      · exact absurd (hheld _ h) (by simp)
      · rw [(Prod.mk.inj (hheld _ h)).1] at hl
        exact absurd hl (by simp [LockId.isTimeout])
      · obtain ⟨hn, rfl⟩ := Prod.mk.inj (hheld _ h)
        obtain rfl := LockId.connected.inj hn
        exact ⟨rfl, hkeeps (by simp) (List.ne_nil_of_mem h)⟩

theorem disciplined_recvFrom {k : Call} {n : ℕ} {way : RecvWay}
    (hstack : ∀ turns, way = .stack turns → k.sleepsWith = some (.readTimeout (.udp n))) :
    Disciplined (Allowed k) [] (UdpSocket.recvFrom n way) := by
  have hconn : Disciplined (Allowed k) [] (guarded (.connected n, .read) []) :=
    disciplined_guarded_nil (allowed_nil_read k (by simp)) disciplined_nil
  cases way with
  | system handle =>
    cases handle with
    | false => rfl
    | true => exact hconn
  | stack turns =>
    refine disciplined_guarded_nil (allowed_nil_read k (by simp)) ?_
    rw [← List.append_nil (guarded _ _)]
    exact disciplined_guarded (allowed_nil_stcpNet k)
      (disciplined_turns (hstack turns rfl) (disciplined_release disciplined_nil) turns)

/-- **All calls are disciplined.** -/
theorem disciplined_path (k : Call) : Disciplined (Allowed k) [] k.path := by
  have hsleeps {l : LockId} (hl : l.isTimeout) (hk : k.sleepsWith = some l) (turns : ℕ) :
      Disciplined (Allowed k) [] (waitWith l turns) := by
    rw [← List.append_nil (waitWith l turns)]
    exact disciplined_sleeper (by simp) hl hk disciplined_nil turns
  have hsets {l : LockId} (hl : l.isTimeout) (hk : k.sets = some l) {rest : Path}
      (hrest : Disciplined (Allowed k) [] rest) :
      Disciplined (Allowed k) [] (guarded (l, .write) [] ++ rest) :=
    disciplined_guarded_nil (allowed_nil_sets hk hl) hrest
  have hread {l : LockId} (hl : l ≠ .stcpNet) :
      Disciplined (Allowed k) [] (guarded (l, .read) []) :=
    disciplined_guarded_nil (allowed_nil_read k hl) disciplined_nil
  cases k with
  | read n turns => exact hsleeps rfl rfl turns
  | peek n turns => exact hsleeps rfl rfl turns
  | readNoCopy n turns => exact hsleeps rfl rfl turns
  | write n turns => exact hsleeps rfl rfl turns
  | writeNoCopy n turns => exact hsleeps rfl rfl turns
  | setReadTimeout s =>
    cases s with
    | tcp n => exact hsets rfl rfl disciplined_nil
    | udp n => exact hsets rfl rfl (hread (by simp))
  | setWriteTimeout s =>
    cases s with
    | tcp n => exact hsets rfl rfl disciplined_nil
    | udp n => exact hsets rfl rfl (hread (by simp))
  | setNonblocking s =>
    cases s with
    | tcp n => rfl
    | udp n => exact hread (by simp)
  | connect n =>
    refine ⟨allowed_nil_stcpNet _, ?_, disciplined_release (disciplined_release disciplined_nil)⟩
    constructor <;> simp [LockId.isTimeout, Call.connects]
  | sendTo n way =>
    rw [Call.path, ← List.append_nil (UdpSocket.sendTo n way)]
    exact disciplined_sendTo (by simp) (by rintro turns rfl; rfl) (by simp) disciplined_nil
  | send n way =>
    cases way with
    | none => exact hread (by simp)
    | some way =>
      refine ⟨allowed_nil_read _ (by simp), ?_⟩
      refine disciplined_sendTo (by simp) (by rintro turns rfl; rfl) (fun hway _ ↦ ?_)
        (disciplined_release disciplined_nil)
      -- only a `send` through the kernel that restores nothing takes no second lock
      rcases way with (_ | _) | turns
      · exact absurd rfl hway
      · rfl
      · rfl
  | recvFrom n way => exact disciplined_recvFrom (by rintro turns rfl; rfl)
  | recv n way =>
    cases way with
    | none => exact hread (by simp)
    | some way =>
      exact disciplined_guarded_nil (allowed_nil_read _ (by simp))
        (disciplined_recvFrom (by rintro turns rfl; rfl))
  | bg =>
    exact disciplined_guarded_nil (allowed_nil_stcpNet _) 
      ⟨allowed_nil_stcpNet _, disciplined_release disciplined_nil⟩

end Locks

end UsnetSockets
