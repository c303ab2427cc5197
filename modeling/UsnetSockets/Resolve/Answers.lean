import UsnetSockets.Resolve.Budget
import UsnetSockets.Resolve.LookupRuns
import UsnetSockets.Resolve.Rdata

/-!
# Requests that are answered

The message of a request can be written for every acceptable name, and the name server reads it as
it was meant. When the name server answers, the request ends with the message of the answer, or with
the error that its response code stands for. It does so whatever else arrives before, as long as
that leaves some of the time, and however many attempts have gone unanswered, as long as there is
one left.
-/

namespace UsnetSockets

open Outcome MsgWriter

variable {X : IdnaCrate}

/-! ## The query -/

theorem encodedLength_le {name : Str} (hplain : PlainName name) (h : AcceptableName name) :
    encodedLength name ≤ 255 := by
  rw [encodedLength]
  by_cases hroot : name = ['.']
  · rw [if_pos hroot]
    decide
  obtain ⟨labels, hne, hname, -, hlen⟩ := h.resolve_left hroot
  have hdotted := length_dotted_le hne hname
  rw [length_dotsOf] at hdotted
  have hle : (labels.map fun l ↦ 1 + l.length).sum ≤
      (labels.map fun l ↦ 1 + (utf8 l).length).sum :=
    List.sum_le_sum fun l _ ↦ Nat.add_le_add_left (length_le_length_utf8 l) 1
  rw [if_neg hroot, length_utf8_of_isAscii (isAscii_dotted hplain.ascii)]
  omega

/-- A name takes the number of bytes that it is said to take. -/
theorem append_of_writeName {name : Str} {w w' : MsgWriter} (hplain : PlainName name)
    (h : writeName X name w = (.ok (), w')) :
    ∃ bytes, bytes.length = encodedLength name ∧ w' = w.append bytes := by
  rw [encodedLength]
  by_cases hroot : name = ['.']
  · subst hroot
    exact ⟨[0], rfl, (writeName_root_eq_ok_iff.mp h).2⟩
  have hascii (l : Str) (hl : l ∈ name.splitOn '.') := isAscii_of_mem_splitOn hplain.ascii hl
  obtain ⟨-, labels, hlabels, -, -, rfl⟩ := (writeName_eq_ok_iff hroot).mp h
  obtain ⟨rfl, -⟩ := (givesLabels_iff hascii).mp hlabels
  refine ⟨_, ?_, rfl⟩
  rw [if_neg hroot, length_wireBytes, length_utf8_of_isAscii (isAscii_dotted hplain.ascii)]

theorem canonical_queryMessage (id : UInt16) {name : Str} (hplain : PlainName name)
    (k : RecordKind) : (queryMessage id name k).Canonical where
  op := ⟨0, rfl⟩
  rcode := ⟨0, rfl⟩
  question q hq := by
    obtain rfl : q = ⟨name, .known k, .internet⟩ := by simpa [queryMessage] using hq
    refine ⟨hplain, ⟨k.code, ?_⟩, ⟨1, rfl⟩⟩
    cases k <;> rfl
  answer res h := absurd h (by simp [queryMessage])
  authority res h := absurd h (by simp [queryMessage])
  additional res h := absurd h (by simp [queryMessage])

/-- The header of a query. -/
def queryHeader (id : UInt16) : FullHeader :=
  { Header.withId id with
    recursionDesired := true
    qdCount := 1
    anCount := 0
    nsCount := 0
    arCount := 0 }

theorem fullHeader_queryMessage (id : UInt16) (name : Str) (k : RecordKind) :
    (queryMessage id name k).fullHeader = .ok (queryHeader id) := rfl

theorem exists_encode_of_length {name : Str} (hplain : PlainName name) (h : AcceptableName name)
    (id : UInt16) (k : RecordKind) {buf : List UInt8} (hbuf : buf.length = messageLimit) :
    ∃ bytes, (queryMessage id name k).encode X buf = .ok bytes := by
  have hle := encodedLength_le hplain h
  have hroom : (MsgWriter.new buf).HasRoom (12 + (encodedLength name + 4)) := by
    simp only [HasRoom, MsgWriter.new, written, List.length_nil, hbuf, messageLimit]
    omega
  have hheader : (MsgWriter.new buf).HasRoom (headerData (queryHeader id)).length :=
    hroom.mono (Nat.le_add_right 12 _)
  have hrest : ((MsgWriter.new buf).append (headerData (queryHeader id))).HasRoom
      (encodedLength name + 4) := (hasRoom_append hheader).mpr hroom
  have hfirst := hrest.mono (Nat.le_add_right (encodedLength name) 4)
  obtain ⟨w₁, hw₁⟩ := exists_writeName_of_acceptableName (X := X) hplain hfirst h
  obtain ⟨bytes, hlen, rfl⟩ := append_of_writeName hplain hw₁
  obtain ⟨w, hlast⟩ : ∃ w, (((MsgWriter.new buf).append (headerData (queryHeader id))).append
      bytes).write (be16Bytes k.code ++ be16Bytes 1) = (.ok (), w) :=
    ⟨_, write_of_hasRoom ((hasRoom_append (hlen ▸ hfirst)).mpr (hlen ▸ hrest))⟩
  have hquestion : writeItems (writeQuestion X) (queryMessage id name k).question
      ((MsgWriter.new buf).append (headerData (queryHeader id))) = (.ok (), w) :=
    Encoded.andThen_eq_ok.mpr ⟨(), w, Encoded.andThen_eq_ok.mpr ⟨(), _, hw₁, hlast⟩, rfl⟩
  have hw : (queryMessage id name k).writeMessage X (queryHeader id) (.new buf) = (.ok (), w) :=
    Encoded.andThen_eq_ok.mpr ⟨(), _, write_of_hasRoom hheader,
      Encoded.andThen_eq_ok.mpr ⟨(), w, hquestion, rfl⟩⟩
  refine ⟨w.intoBytes, ?_⟩
  simp only [Message.encode, fullHeader_queryMessage, ok_bind, hw, pure_eq]

/-- A query for an acceptable name is written. -/
theorem exists_encode_queryMessage {name : Str} (hplain : PlainName name) (h : AcceptableName name)
    (id : UInt16) (k : RecordKind) :
    ∃ bytes, (queryMessage id name k).encode X (List.replicate messageLimit 0) = .ok bytes :=
  exists_encode_of_length hplain h id k List.length_replicate

/-- The name server reads the query as it was meant. -/
theorem returns_decode_queryMessage {id : UInt16} {name : Str} {k : RecordKind}
    (hplain : PlainName name) {buf bytes : List UInt8}
    (h : (queryMessage id name k).encode X buf = .ok bytes) :
    Returns (fun n ↦ Message.decode X n bytes) (queryMessage id (dotted name) k) := by
  have hcanonical := canonical_queryMessage id hplain k
  have hQ : ∀ q ∈ (queryMessage id name k).question,
      RoundTrips (writeQuestion X q) (fun n r ↦ r.readQuestion X n) fun q' ↦
        q' = ⟨dotted name, .known k, .internet⟩ := by
    intro q hq
    have hcodes := hcanonical.question q hq
    obtain rfl : q = ⟨name, .known k, .internet⟩ := by simpa [queryMessage] using hq
    refine (roundTrips_question_of (roundTrips_name hplain)).imp ?_
    rintro ⟨name', t, c⟩ ⟨rfl, ht, hc⟩
    rw [Question.mk.injEq]
    exact ⟨rfl, ht.trans hcodes.qType.fromU16_toU16, hc.trans hcodes.qClass.fromU16_toU16⟩
  have hR : ∀ s, ∀ res ∈ (queryMessage id name k).records s,
      RoundTrips (writeResource X res) (fun n r ↦ r.readResource X n) fun _ ↦ True := by
    rintro (_ | _ | _) res hres <;> exact absurd hres (by simp [queryMessage, Message.records])
  have hround (header : FullHeader) (hheader : (queryMessage id name k).fullHeader = .ok header) :
      RoundTrips ((queryMessage id name k).writeMessage X header) (readMessage X)
        (· = queryMessage id (dotted name) k) := by
    obtain rfl : queryHeader id = header := ok.inj hheader
    refine (roundTrips_message_of hheader hQ hR).imp ?_
    rintro ⟨header, question, answer, authority, additional⟩ ⟨hhdr, hquestion, hrecords⟩
    rw [headerOf_headerData ⟨0, rfl⟩ ⟨0, rfl⟩] at hhdr
    obtain ⟨q, _, rfl, hrest, rfl⟩ := List.forall₂_cons_left_iff.mp hquestion
    obtain rfl := List.forall₂_nil_left_iff.mp hrest
    obtain rfl : answer = [] := List.forall₂_nil_left_iff.mp (hrecords .answer)
    obtain rfl : authority = [] := List.forall₂_nil_left_iff.mp (hrecords .authority)
    obtain rfl : additional = [] := List.forall₂_nil_left_iff.mp (hrecords .additional)
    rw [queryMessage, Message.mk.injEq]
    exact ⟨hhdr, rfl, rfl, rfl, rfl⟩
  obtain ⟨m, hret, rfl⟩ := returns_decode_of_roundTrips hround h
  exact hret

/-! ## The attempts -/

namespace DnsResolver

variable (X)

/-- The attempt gets to the receive: what came before has been ignored and has left some of the
time. -/
structure Awaits (call : DnsCall) (receptions : ℕ → Reception) (nsAddr : SocketAddr)
    (timeout i : ℕ) : Prop where
  ignored : IgnoredUpTo X call receptions nsAddr i
  left : chargedFor nsAddr receptions i < timeout
  setTimeout : (receptions i).setTimeout = .ok ()

/-- `send_to` takes the query for the name server. -/
def Takes (call : DnsCall) (world : AttemptWorld) (nsAddr : SocketAddr) : Prop :=
  ∀ data, call.outMsg.encode X (List.replicate messageLimit 0) = .ok data →
    world.sendTo data nsAddr = .ok ()

/-- The query is sent, and the wait for the answer ends as a timeout. -/
def Unanswered (call : DnsCall) (timeout : ℕ) (world : AttemptWorld) (nsAddr : SocketAddr) : Prop :=
  Takes X call world nsAddr ∧ ∃ i, Awaits X call world.receptions nsAddr timeout i ∧
    ∃ e, (world.receptions i).packet = .error e ∧ (DnsSocketError.ioError e).isTimeout = true

/-- The query is sent, and the packet comes back from the name server. -/
def Answered (call : DnsCall) (timeout : ℕ) (world : AttemptWorld) (nsAddr : SocketAddr)
    (p : Packet) : Prop :=
  Takes X call world nsAddr ∧ (p.sender.port = nsAddr.port ∧ p.sender.ip.Same nsAddr.ip) ∧
    ∃ i, Awaits X call world.receptions nsAddr timeout i ∧ (world.receptions i).packet = .ok p

/-- Of the attempts of a request the first `k` go unanswered, and the next one is answered with the
packet. -/
structure AnsweredAfter (config : DnsConfig) (before : ℕ) (call : DnsCall) (k : ℕ) (p : Packet) :
    Prop where
  lt : k < config.attempts
  unanswered : ∀ j < k, ∀ a, config.server before j = some a →
    Unanswered X call config.timeout (call.world j) a
  answered : ∃ a, config.server before k = some a ∧
    Answered X call config.timeout (call.world k) a p

variable {X} {call : DnsCall} {receptions : ℕ → Reception} {nsAddr : SocketAddr} {timeout i : ℕ}
  {r r' : DnsResolver} {before retries : ℕ}

theorem chargedFor_mono {i j : ℕ} (h : i ≤ j) :
    chargedFor nsAddr receptions i ≤ chargedFor nsAddr receptions j :=
  Finset.sum_le_sum_of_subset (Finset.range_subset_range.mpr h)

theorem Awaits.reaches (h : Awaits X call receptions nsAddr timeout i) :
    Reaches (pass X call receptions nsAddr) ⟨timeout, 0⟩
      ⟨timeout - chargedFor nsAddr receptions i, i⟩ :=
  reaches_iff.mpr ⟨h.ignored, fun _ hj ↦ (chargedFor_mono hj.le).trans_lt h.left, rfl⟩

/-- What a request returns for the reply. -/
def resultOf (msg : Message) : Outcome DnsSocketError Message :=
  match msg.getError with
  | none => .ok msg
  | some rcode => .err (.dnsError rcode)

theorem resultOf_cases (msg : Message) : resultOf msg = .ok msg ∧ msg.header.rcode = .noError ∨
    resultOf msg = .err (.dnsError msg.header.rcode) ∧ msg.header.rcode ≠ .noError := by
  by_cases h : msg.header.rcode = .noError
  · exact .inl ⟨by simp [resultOf, Message.getError, h], h⟩
  · exact .inr ⟨by simp [resultOf, Message.getError, h], h⟩

/-- The pass that receives the reply. -/
theorem pass_of_reply {s : Listening} (h0 : s.timeout ≠ 0)
    (hset : (receptions s.next).setTimeout = .ok ()) {p : Packet}
    (hp : (receptions s.next).packet = .ok p) {n : ℕ} {msg : Message}
    (hfrom : p.sender.port = nsAddr.port ∧ p.sender.ip.Same nsAddr.ip)
    (hmsg : Message.decode X n (p.data.take call.len) = .ok msg)
    (hanswers : Answers call.outMsg msg) : pass X call receptions nsAddr n s =
      (resultOf msg >>= fun msg ↦ .ok (.reply msg)) >>= fun b ↦ .ok (.inr b) := by
  have hreply := (isReply_iff _ _).mpr hanswers
  have hfrom := (socketAddressEqual_iff _ _).mpr hfrom
  rcases hrcode : msg.getError with _ | rcode <;>
    simp [pass, receiveBody, DnsSocket.setReadTimeout_eq_ok_iff.mpr ⟨h0, hset⟩, hp,
      recvMessage_of_eq hfrom, ofIo, hmsg, Outcome.mapErr, hreply, resultOf, hrcode]

/-- The attempt ends as the pass that it gets to. -/
theorem exists_attempt_of_pass {world : AttemptWorld}
    (h : Awaits X call world.receptions nsAddr timeout i) {bytes : List UInt8}
    (hencode : call.outMsg.encode X (List.replicate messageLimit 0) = .ok bytes)
    (hsend : Takes X call world nsAddr) {n₀ : ℕ} {x : Outcome DnsSocketError AttemptEnd}
    (hx : x ≠ .outOfFuel) (hpass : pass X call world.receptions nsAddr n₀
      ⟨timeout - chargedFor nsAddr world.receptions i, i⟩ = x >>= fun b ↦ .ok (.inr b)) :
    ∃ m, ∀ n ≥ m, attempt X timeout { call with fuel := n } world nsAddr = x := by
  obtain ⟨m, hm⟩ := h.reaches.exists_loop_eq_of_ne stable_pass n₀
    (by rw [hpass]; exact bind_ne_outOfFuel hx fun _ _ ↦ by simp)
    (by rcases x with b | e | _ | _ <;> simp [hpass])
  refine ⟨m, fun n hn ↦ ?_⟩
  have hsent : DnsSocket.sendMessage X call.outMsg nsAddr world.sendTo = .ok () := by
    rw [DnsSocket.sendMessage, hencode]
    exact congrArg ofIo (hsend bytes hencode)
  rw [attempt_of_sent hsent, hm n hn, loop, hpass]
  rcases x with b | e | _ | _ <;> rfl

/-- An attempt that is answered ends with the reply. -/
theorem exists_attempt_of_answered {world : AttemptWorld} {p : Packet}
    (h : Answered X call timeout world nsAddr p) {bytes : List UInt8}
    (hencode : call.outMsg.encode X (List.replicate messageLimit 0) = .ok bytes) {msg : Message}
    (hmsg : Returns (fun n ↦ Message.decode X n (p.data.take call.len)) msg)
    (hanswers : Answers call.outMsg msg) :
    ∃ m, ∀ n ≥ m, attempt X timeout { call with fuel := n } world nsAddr =
      resultOf msg >>= fun msg ↦ .ok (.reply msg) := by
  obtain ⟨hsend, hfrom, i, hawaits, hp⟩ := h
  obtain ⟨n₀, hn₀⟩ := hmsg
  have hleft := hawaits.left
  refine exists_attempt_of_pass hawaits hencode hsend ?_
    (pass_of_reply (by dsimp only; omega) hawaits.setTimeout hp hfrom hn₀ hanswers)
  rcases resultOf_cases msg with ⟨h, -⟩ | ⟨h, -⟩ <;> simp [h]

/-- An attempt that is not answered ends as a timeout. -/
theorem exists_attempt_of_unanswered {world : AttemptWorld}
    (h : Unanswered X call timeout world nsAddr) {bytes : List UInt8}
    (hencode : call.outMsg.encode X (List.replicate messageLimit 0) = .ok bytes) :
    ∃ e m, ∀ n ≥ m,
      attempt X timeout { call with fuel := n } world nsAddr = .ok (.retry e) := by
  obtain ⟨hsend, i, hawaits, e, hp, he⟩ := h
  have hleft := hawaits.left
  have hpass : pass X call world.receptions nsAddr 0
      ⟨timeout - chargedFor nsAddr world.receptions i, i⟩ = _ :=
    pass_of_error (by dsimp only; omega) hawaits.setTimeout hp 0
  rw [if_pos he] at hpass
  exact ⟨_, exists_attempt_of_pass hawaits hencode hsend (by simp) hpass⟩

/-! ## The request -/

theorem exists_chooseNameserver (hr : r.InTurn) (hbefore : r.tried.length = before + retries)
    (hserver : r.config.server before retries = some nsAddr) :
    ∃ r', r.chooseNameserver retries = some (nsAddr, r') := by
  by_cases hrotate : r.config.rotate = true
  · rw [DnsConfig.server, if_pos hrotate, ← hbefore, ← hr hrotate] at hserver
    simp [chooseNameserver, hrotate, nextNameserver, hserver]
  · rw [DnsConfig.server, if_neg hrotate] at hserver
    simp [chooseNameserver, hrotate, hserver]

theorem exists_server {config : DnsConfig} {k : ℕ} {a : SocketAddr}
    (h : config.server before k = some a) (j : ℕ) : ∃ b, config.server before j = some b := by
  have hpos : 0 < config.nameServers.length := by
    refine List.length_pos_iff.mpr ?_
    rintro hnil
    simp [DnsConfig.server, hnil] at h
  exact ⟨_, List.getElem?_eq_getElem (Nat.mod_lt _ hpos)⟩

theorem retry_of_retry {left : ℕ} {last : Option DnsSocketError} {e : DnsSocketError}
    (hchoose : r.chooseNameserver retries = some (nsAddr, r'))
    (hattempt : attempt X r'.config.timeout call (call.world retries) nsAddr = .ok (.retry e)) :
    retry X call (left + 1) retries last r = retry X call left (retries + 1) (some e) r' := by
  rw [retry, hchoose]
  simp only [hattempt]

/-- The outer loop, from some attempt on, with `k` attempts before the one that is answered. How
much fuel is enough does not depend on the resolver. -/
theorem exists_retry_of_answered {config : DnsConfig} {k left : ℕ} (hleft : k < left)
    (hsent : ∃ bytes, call.outMsg.encode X (List.replicate messageLimit 0) = .ok bytes)
    (hunanswered : ∀ j < k, ∀ a, config.server before (retries + j) = some a →
      Unanswered X call config.timeout (call.world (retries + j)) a)
    {p : Packet} (hserver : config.server before (retries + k) = some nsAddr)
    (hanswered : Answered X call config.timeout (call.world (retries + k)) nsAddr p)
    {msg : Message} (hmsg : Returns (fun n ↦ Message.decode X n (p.data.take call.len)) msg)
    (hanswers : Answers call.outMsg msg) : ∃ m, ∀ n ≥ m,
      ∀ (r : DnsResolver) (last : Option DnsSocketError), r.config = config →
      r.InTurn → r.tried.length = before + retries →
      (retry X { call with fuel := n } left retries last r).1 = resultOf msg ∧
      (retry X { call with fuel := n } left retries last r).2.tried.length =
        r.tried.length + k + 1 := by
  obtain ⟨bytes, hencode⟩ := hsent
  induction k generalizing left retries with
  | zero =>
    obtain ⟨left, rfl⟩ : ∃ l, left = l + 1 := ⟨left - 1, by omega⟩
    obtain ⟨m, hm⟩ := exists_attempt_of_answered hanswered hencode hmsg hanswers
    refine ⟨m, fun n hn r last hconfig hr hbefore ↦ ?_⟩
    obtain ⟨r', hchoose⟩ := exists_chooseNameserver hr hbefore (hconfig ▸ hserver)
    obtain ⟨-, hconfig', htried, -⟩ := chooseNameserver_eq_some hr hbefore hchoose
    have hattempt := hm n hn
    rw [← hconfig, ← hconfig'] at hattempt
    have hretry : retry X { call with fuel := n } (left + 1) retries last r =
        (resultOf msg, r') := by
      rcases resultOf_cases msg with ⟨h, -⟩ | ⟨h, -⟩ <;> rw [h] at hattempt ⊢
      · exact retry_of_reply hchoose hattempt
      · exact retry_of_err hchoose hattempt
    rw [hretry, htried, List.length_append]
    exact ⟨rfl, rfl⟩
  | succ k ih =>
    obtain ⟨left, rfl⟩ : ∃ l, left = l + 1 := ⟨left - 1, by omega⟩
    obtain ⟨a, ha⟩ := exists_server hserver retries
    obtain ⟨e, m, hm⟩ :=
      exists_attempt_of_unanswered (hunanswered 0 (Nat.succ_pos k) a ha) hencode
    have hshift (j : ℕ) : retries + (j + 1) = retries + 1 + j := by omega
    rw [hshift] at hserver hanswered
    obtain ⟨m', hm'⟩ := ih (show k < left by omega)
      (fun j hj a ha ↦ hshift j ▸ hunanswered (j + 1) (by omega) a (hshift j ▸ ha)) hserver
      hanswered
    refine ⟨max m m', fun n hn r last hconfig hr hbefore ↦ ?_⟩
    obtain ⟨r', hchoose⟩ := exists_chooseNameserver hr hbefore (hconfig ▸ ha)
    obtain ⟨-, hconfig', htried, hr'⟩ := chooseNameserver_eq_some hr hbefore hchoose
    have hlen : r'.tried.length = r.tried.length + 1 := by
      rw [htried, List.length_append, List.length_singleton]
    have hattempt := hm n (le_of_max_le_left hn)
    rw [← hconfig, ← hconfig'] at hattempt
    obtain ⟨hres, hlast⟩ := hm' n (le_of_max_le_right hn) r' (some e) (hconfig'.trans hconfig) hr'
      (by omega)
    rw [retry_of_retry hchoose hattempt, hres, hlast, hlen]
    exact ⟨rfl, by omega⟩

/-- **A request that is answered** ends with the message in the packet. -/
theorem exists_sendMessage_of_answered {config : DnsConfig} {k : ℕ} {p : Packet}
    (h : AnsweredAfter X config before call k p)
    (hsent : ∃ bytes, call.outMsg.encode X (List.replicate messageLimit 0) = .ok bytes)
    {msg : Message} (hmsg : Returns (fun n ↦ Message.decode X n (p.data.take call.len)) msg)
    (hanswers : Answers call.outMsg msg) : ∃ m, ∀ n ≥ m,
      ∀ r : DnsResolver, r.config = config → r.InTurn → r.tried.length = before →
      (r.sendMessage X { call with fuel := n }).1 = resultOf msg ∧
      (r.sendMessage X { call with fuel := n }).2.tried.length = before + k + 1 := by
  obtain ⟨a, hserver, hanswered⟩ := h.answered
  rw [← Nat.zero_add k] at hserver hanswered
  have hunanswered (j : ℕ) (hj : j < k) (b : SocketAddr)
      (hb : config.server before (0 + j) = some b) :
      Unanswered X call config.timeout (call.world (0 + j)) b := by
    rw [Nat.zero_add] at hb ⊢
    exact h.unanswered j hj b hb
  obtain ⟨m, hm⟩ := exists_retry_of_answered h.lt hsent hunanswered hserver hanswered hmsg hanswers
  refine ⟨m, fun n hn r hconfig hr hbefore ↦ ?_⟩
  subst hconfig hbefore
  exact hm n hn r none rfl hr rfl

end DnsResolver

/-! ## The query for an address -/

/-- **The name server knows which address is meant.** Whatever the address is, the query for its
name is written and is read as it was meant, and two addresses do not have the same query. -/
theorem addressQuery_read (X : IdnaCrate) (id : UInt16) :
    ∃ query : IpAddr → List UInt8, Function.Injective query ∧ ∀ addr,
      (queryMessage id (addressName addr) .ptr).encode X (List.replicate messageLimit 0) =
        .ok (query addr) ∧
      Returns (fun n ↦ Message.decode X n (query addr))
        (queryMessage id (addressName addr ++ ['.']) .ptr) := by
  have hexists (addr : IpAddr) := exists_encode_queryMessage (X := X) (plainName_addressName addr)
    (acceptableName_addressName addr) id .ptr
  choose query hquery using hexists
  have hread (addr : IpAddr) : Returns (fun n ↦ Message.decode X n (query addr))
      (queryMessage id (addressName addr ++ ['.']) .ptr) := by
    rw [← dotted_addressName]
    exact returns_decode_queryMessage (plainName_addressName addr) (hquery addr)
  refine ⟨query, fun x y h ↦ ?_, fun addr ↦ ⟨hquery addr, hread addr⟩⟩
  have hsame := (stable_decode X (query y)).returns_unique (h ▸ hread x) (hread y)
  simp only [queryMessage, Message.mk.injEq, List.cons.injEq, Question.mk.injEq] at hsame
  exact addressName_injective (List.append_cancel_right hsame.2.1.1.1)

end UsnetSockets
