import UsnetSockets.Resolve.Answers

/-!
# What lookups return

The operations of `DnsResolver` from end to end. A name server that puts records into its replies
with `write_rdata` and `Message::encode`, and a client that reads them, agree: `resolve_record`
returns the records, `resolve_addr` the host name in the first `PTR` record, and `resolve_host` the
addresses of the first name that has some. A reply with a response code is no answer, and says so.
-/

namespace UsnetSockets

open Outcome

variable {X : IdnaCrate}

/-! ## Records in a reply -/

/-- The resource has been made of the record by `write_rdata`. -/
structure Resource.MadeOf (X : IdnaCrate) (res : Resource) (rec : Record) : Prop where
  wellTyped : rec.WellTyped
  names : ∀ name ∈ rec.names, PlainName name
  written : ∃ res₀ : Resource, res₀.writeRdata X rec = .ok res

/-- The resources of the type are made of the records, in their order. -/
inductive RecordsIn (X : IdnaCrate) (k : RecordKind) : List Resource → List Record → Prop
  | nil : RecordsIn X k [] []
  | record {res : Resource} {rec : Record} {ress : List Resource} {recs : List Record}
      (h : res.rType = .known k) (hk : rec.recordType = k) (hmade : res.MadeOf X rec)
      (hrest : RecordsIn X k ress recs) : RecordsIn X k (res :: ress) (rec :: recs)
  | other {res : Resource} {ress : List Resource} {recs : List Record} (h : res.rType ≠ .known k)
      (hrest : RecordsIn X k ress recs) : RecordsIn X k (res :: ress) recs

/-- The record is read from what becomes of the resource in a message. -/
theorem Resource.MadeOf.readsAs {res res' : Resource} {rec : Record} (h : res.MadeOf X rec)
    (hsame : res.Same res') : res'.ReadsAs X rec.recordType rec.withDots := by
  obtain ⟨res₀, hwritten⟩ := h.written
  obtain ⟨w', hencode, rfl⟩ := Resource.writeRdata_eq_ok_iff.mp hwritten
  obtain ⟨bytes, hbytes, hread⟩ := roundTrips_record h.wellTyped h.names _ _ hencode
  obtain rfl : w'.bytes = bytes := hbytes
  exact Resource.readsAs_of_getRdata (hsame.rdata.trans rfl) hread

namespace DnsClient

variable {W : DnsWorld} {kind : RecordKind}

/-- The loop over the answers reads the records. -/
theorem exists_readAnswers {ress ress' : List Resource} {recs : List Record}
    (h : RecordsIn X kind ress recs) (hsame : List.Forall₂ Resource.Same ress ress') :
    ∃ N, ∀ n ≥ N,
      readAnswers X { W with fuel := n } kind ress' = .ok (recs.map Record.withDots, none) := by
  induction h generalizing ress' with
  | nil =>
    obtain rfl := List.forall₂_nil_left_iff.mp hsame
    exact ⟨0, fun n _ ↦ rfl⟩
  | @record res rec ress recs h hk hmade _ ih =>
    obtain ⟨res', rest, hres, hrest, rfl⟩ := List.forall₂_cons_left_iff.mp hsame
    obtain ⟨N, hN⟩ := ih hrest
    obtain ⟨N', hN'⟩ := hmade.readsAs hres
    rw [hk] at hN'
    refine ⟨max N N', fun n hn ↦ ?_⟩
    rw [readAnswers, if_pos (hres.rType.trans h), (hN' n (le_of_max_le_right hn)).1]
    simp only [hN n (le_of_max_le_left hn)]
    rfl
  | other h _ ih =>
    obtain ⟨res', rest, hres, hrest, rfl⟩ := List.forall₂_cons_left_iff.mp hsame
    obtain ⟨N, hN⟩ := ih hrest
    refine ⟨N, fun n hn ↦ ?_⟩
    rw [readAnswers, if_neg (hres.rType ▸ h), hN n hn]

/-- The host name in the first of the records. -/
def firstHost : List Record → Outcome DnsSocketError Str
  | [] => .err (.ioError (.other "failed to resolve address: name not found"))
  | rec :: _ => .ok (hostOf rec)

/-- A final dot of a host name makes no difference. -/
theorem hostOf_withDots (rec : Record) : hostOf rec.withDots = hostOf rec := by
  rcases rec with _ | _ | _ | _ | _ | name | _ | _ | _
  case ptr =>
    rw [Record.withDots, hostOf, hostOf, dotted]
    by_cases hlast : name.getLast? = some '.'
    · rw [if_pos hlast]
    · rw [if_neg hlast, if_pos (by simp), if_neg hlast, List.dropLast_concat]
  all_goals rfl

/-- The loop of `resolve_addr` reads the first record. -/
theorem exists_firstPtr {ress ress' : List Resource} {recs : List Record}
    (h : RecordsIn X .ptr ress recs) (hsame : List.Forall₂ Resource.Same ress ress') :
    ∃ N, ∀ n ≥ N, firstPtr X { W with fuel := n } ress' = firstHost recs := by
  induction h generalizing ress' with
  | nil =>
    obtain rfl := List.forall₂_nil_left_iff.mp hsame
    exact ⟨0, fun n _ ↦ rfl⟩
  | @record res rec ress recs h hk hmade _ ih =>
    obtain ⟨res', rest, hres, -, rfl⟩ := List.forall₂_cons_left_iff.mp hsame
    obtain ⟨N, hN⟩ := hmade.readsAs hres
    rw [hk] at hN
    refine ⟨N, fun n hn ↦ ?_⟩
    rw [firstPtr, if_pos (hres.rType.trans h), (hN n hn).1, firstHost, ← hostOf_withDots]
    rfl
  | other h _ ih =>
    obtain ⟨res', rest, hres, hrest, rfl⟩ := List.forall₂_cons_left_iff.mp hsame
    obtain ⟨N, hN⟩ := ih hrest
    refine ⟨N, fun n hn ↦ ?_⟩
    rw [firstPtr, if_neg (hres.rType ▸ h), hN n hn]

/-! ## One request -/

/-- What the next request of a thread depends on: the number of attempts and of requests so far, and
the next id. -/
structure Turn where
  tried : ℕ
  id : UInt16
  number : ℕ

def turn (c : DnsClient) : Turn := ⟨c.resolver.tried.length, c.id, c.exchanges.length⟩

/-- The turn after a request with `k` attempts that go unanswered. -/
def Turn.next (t : Turn) (k : ℕ) : Turn := ⟨t.tried + k + 1, t.id + 1, t.number + 1⟩

/-- The reply to a query: it is written with `Message::encode`, and either it has a response code
or the records. -/
structure ReplyTo (X : IdnaCrate) (query : Message) (kind : RecordKind) (rcode : RCode)
    (recs : List Record) (p : Packet) (m : Message) : Prop where
  canonical : m.Canonical
  encoded : ∃ buf, m.encode X buf = .ok p.data
  answers : DnsResolver.Answers query m
  code : m.header.rcode = rcode
  records : if rcode = .noError then RecordsIn X kind m.answer recs else recs = []

/-- The request of the turn is answered, after `k` attempts that are not. -/
structure Replied (X : IdnaCrate) (W : DnsWorld) (config : DnsConfig) (t : Turn) (name : Str)
    (kind : RecordKind) (k : ℕ) (rcode : RCode) (recs : List Record) : Prop where
  plain : PlainName name
  acceptable : AcceptableName name
  reply : ∃ p m, DnsResolver.AnsweredAfter X config t.tried
      ⟨queryMessage t.id name kind, messageLimit, W.attempts t.number, 0⟩ k p ∧
    ReplyTo X (queryMessage t.id name kind) kind rcode recs p m

/-- The error that the response code stands for. -/
def errorOf (rcode : RCode) : Option DnsSocketError :=
  if rcode = .noError then none else some (.dnsError rcode)

variable {config : ResolvConf.FullConfig} {t : Turn} {name : Str} {k : ℕ} {rcode : RCode}
  {recs : List Record}

/-- The request returns a message that says the same as the reply. -/
theorem exists_request (h : Replied X W config.toDnsConfig t name kind k rcode recs) :
    ∃ m m' : Message, m.SameItems m' ∧
      (if rcode = .noError then RecordsIn X kind m.answer recs else recs = []) ∧
      ∃ N, ∀ n ≥ N, ∀ c : DnsClient, c.config = config → c.Sound → c.turn = t →
        (c.request X { W with fuel := n } name kind).1 =
          (if rcode = .noError then .ok m' else .err (.dnsError rcode)) ∧
        (c.request X { W with fuel := n } name kind).2.turn = t.next k ∧
        (c.request X { W with fuel := n } name kind).2.config = config ∧
        (c.request X { W with fuel := n } name kind).2.Sound := by
  obtain ⟨p, m, hanswered, hreply⟩ := h.reply
  obtain ⟨buf, hencoded⟩ := hreply.encoded
  obtain ⟨m', hret, hitems, hheader⟩ := returns_decode_of_encode hreply.canonical hencoded
  have hwhole : p.data.take messageLimit = p.data := List.take_of_length_le p.length_le
  obtain ⟨N, hN⟩ := DnsResolver.exists_sendMessage_of_answered hanswered
    (exists_encode_queryMessage h.plain h.acceptable t.id kind)
    (by rw [hwhole]; exact hret)
    ⟨by rw [hheader]; exact hreply.answers.id, by rw [hheader]; exact hreply.answers.qr⟩
  refine ⟨m, m', hitems, hreply.records, N, fun n hn c hconfig hc hturn ↦ ?_⟩
  obtain ⟨hsent, htried⟩ := hN n hn c.resolver (hc.config.trans (congrArg _ hconfig)) hc.inTurn
    (congrArg Turn.tried hturn)
  subst hconfig hturn
  have hgrows := request_eq (W := { W with fuel := n }) hc
    (show c.request X { W with fuel := n } name kind = _ from Prod.mk.eta.symm)
  have hrcode : m'.header.rcode = rcode := by
    rw [hheader]
    exact hreply.code
  refine ⟨?_, ?_, hgrows.config, hgrows.sound⟩
  · refine hsent.trans ?_
    rcases DnsResolver.resultOf_cases m' with ⟨hres, hno⟩ | ⟨hres, hno⟩
    · rw [hres, if_pos (hrcode ▸ hno)]
    · rw [hres, hrcode, if_neg (hrcode ▸ hno)]
  · rw [turn, hgrows.exchanges, hgrows.id, List.length_append, Turn.next, Turn.mk.injEq]
    exact ⟨htried, rfl, rfl⟩

/-- A request for records returns those of the reply. -/
theorem exists_requestRecords (h : Replied X W config.toDnsConfig t name kind k rcode recs) :
    ∃ N, ∀ n ≥ N, ∀ c : DnsClient, c.config = config → c.Sound → c.turn = t →
      (c.requestRecords X { W with fuel := n } kind name).1 =
        .ok (recs.map Record.withDots, errorOf rcode) ∧
      (c.requestRecords X { W with fuel := n } kind name).2.turn = t.next k ∧
      (c.requestRecords X { W with fuel := n } kind name).2.config = config ∧
      (c.requestRecords X { W with fuel := n } kind name).2.Sound := by
  obtain ⟨m, m', hitems, hrecs, N, hN⟩ := exists_request h
  by_cases hrcode : rcode = .noError
  · rw [if_pos hrcode] at hrecs
    obtain ⟨N', hN'⟩ := exists_readAnswers (W := W) hrecs hitems.answer
    refine ⟨max N N', fun n hn c hconfig hc hturn ↦ ?_⟩
    obtain ⟨hres, hafter⟩ := hN n (le_of_max_le_left hn) c hconfig hc hturn
    rw [if_pos hrcode] at hres
    refine ⟨?_, hafter⟩
    rw [requestRecords, hres, recordsOf, hN' n (le_of_max_le_right hn), errorOf, if_pos hrcode]
  · rw [if_neg hrcode] at hrecs
    refine ⟨N, fun n hn c hconfig hc hturn ↦ ?_⟩
    obtain ⟨hres, hafter⟩ := hN n hn c hconfig hc hturn
    rw [if_neg hrcode] at hres
    refine ⟨?_, hafter⟩
    rw [requestRecords, hres, recordsOf, hrecs, errorOf, if_neg hrcode]
    rfl

/-- The error that an operation returns for a response code. -/
def refusal (desc : String) (rcode : RCode) : IoError :=
  .other (desc ++ ": server responded with error: " ++ rcode.text)

/-! Two name servers that are used in turn. The first attempt of each request goes unanswered. In
the second one somebody else sends a datagram first, and then the second name server the reply. -/

def rotatingConfig : ResolvConf.FullConfig :=
  { DnsResolver.twoServers with search := [], nDots := 1, useInet6 := false }

def answering (replies : ℕ → Packet) : DnsWorld where
  attempts n j := ⟨fun _ _ ↦ .ok (), fun i ↦
    if j = 0 then ⟨.ok (), .error (.os 11), 1⟩
    else if i = 0 then DnsResolver.otherAfter 1000 else ⟨.ok (), .ok (replies n), 1⟩⟩
  fuel := 0

theorem answeredAfter_answering {replies : ℕ → Packet} {t : Turn} (htried : t.tried % 2 = 0)
    (hsender : (replies t.number).sender = DnsResolver.nameServer 2) (query : Message) :
    DnsResolver.AnsweredAfter X rotatingConfig.toDnsConfig t.tried
      ⟨query, messageLimit, (answering replies).attempts t.number, 0⟩ 1 (replies t.number) := by
  have hother : (DnsResolver.otherAfter 1000).charged (DnsResolver.nameServer 2) = 1000 := by decide
  have hcharged : chargedFor (DnsResolver.nameServer 2)
      ((answering replies).attempts t.number 1).receptions 1 = 0 + 1000 :=
    (chargedFor_succ _ _ 0).trans (congrArg (0 + ·) hother)
  refine ⟨by decide, ?_, DnsResolver.nameServer 2, ?_, fun _ _ ↦ rfl, ?_, 1,
    ⟨?_, hcharged.trans_lt (by decide), rfl⟩, rfl⟩
  · intro j hj a _
    obtain rfl : j = 0 := Nat.lt_one_iff.mp hj
    refine ⟨fun _ _ ↦ rfl, 0, ⟨fun j hj ↦ absurd hj (Nat.not_lt_zero j), ?_, rfl⟩, .os 11, rfl, rfl⟩
    exact (show rotatingConfig.timeout > 0 by decide)
  · have hturn : (t.tried + 1) % 2 = 1 := by omega
    have hrotate : rotatingConfig.rotate = true := rfl
    rw [DnsConfig.server, if_pos hrotate, show rotatingConfig.nameServers.length = 2 from rfl,
      hturn]
    rfl
  · rw [hsender]
    exact ⟨rfl, .inl rfl⟩
  · intro j hj
    obtain rfl : j = 0 := Nat.lt_one_iff.mp hj
    refine ⟨⟨_, rfl, .inl ?_⟩, rfl⟩
    rw [← socketAddressEqual_iff]
    decide

/-- A reply without questions. -/
def replyMessage (id : UInt16) (rcode : RCode) (answer : List Resource) : Message where
  header := { Header.withId id with
    qr := .response
    rcode := rcode }
  question := []
  answer := answer
  authority := []
  additional := []

/-- A record of the root. -/
def rootResource (k : RecordKind) (data : List UInt8) : Resource :=
  ⟨['.'], .known k, .internet, 60, data, 0⟩

theorem canonical_replyMessage (id : UInt16) (rcode : Fin 16) {answer : List Resource}
    (h : ∀ res ∈ answer, ∃ k data, res = rootResource k data) :
    (replyMessage id (.fromU8 (.ofNat rcode)) answer).Canonical where
  op := ⟨0, rfl⟩
  rcode := ⟨rcode, rfl⟩
  question q h := absurd h (by simp [replyMessage])
  answer res hres := by
    obtain ⟨k, data, rfl⟩ := h res hres
    have hroot : PlainName ['.'] := ⟨by decide, by decide⟩
    refine ⟨hroot, ⟨k.code, ?_⟩, ⟨1, rfl⟩⟩
    cases k <;> rfl
  authority res h := absurd h (by simp [replyMessage])
  additional res h := absurd h (by simp [replyMessage])

theorem madeOf_address {a b c d : UInt8} :
    (rootResource .a [a, b, c, d]).MadeOf X (.a [a, b, c, d]) := by
  refine ⟨rfl, by simp [Record.names], rootResource .a [], Resource.writeRdata_eq_ok_iff.mpr ?_⟩
  have hlen : [a, b, c, d].length ≤ messageLimit := show 4 ≤ messageLimit by decide
  refine ⟨_, MsgWriter.write_of_hasRoom ⟨?_, ?_⟩, rfl⟩
  · rw [MsgWriter.new, List.length_replicate]
    exact hlen
  · rw [MsgWriter.new, MsgWriter.written, List.length_nil, Nat.zero_add]
    exact hlen

/-- The name server knows an address of the host, and nothing in IPv6. -/
def hostReplies (n : ℕ) : Packet where
  sender := DnsResolver.nameServer 2
  data :=
    if n = 0 then
      [0, 7, 128, 0, 0, 0, 0, 1, 0, 0, 0, 0, 0, 0, 1, 0, 1, 0, 0, 0, 60, 0, 4, 192, 0, 2, 7]
    else [0, 8, 128, 3, 0, 0, 0, 0, 0, 0, 0, 0]
  length_le := by split <;> simp [messageLimit]

theorem replyTo_hostReplies_a {p : Packet} (h : p.data = (hostReplies 0).data) :
    ReplyTo ⟨some, some⟩ (queryMessage 7 ['a', '.', 'b'] .a) .a .noError [.a [192, 0, 2, 7]] p
      (replyMessage 7 .noError [rootResource .a [192, 0, 2, 7]]) where
  canonical := canonical_replyMessage 7 0 fun res hres ↦ ⟨_, _, List.mem_singleton.mp hres⟩
  encoded := ⟨List.replicate 27 0, by rw [h]; decide⟩
  answers := ⟨rfl, rfl⟩
  code := rfl
  records := .record rfl rfl madeOf_address .nil

theorem replyTo_hostReplies_aaaa {p : Packet} (h : p.data = (hostReplies 1).data) :
    ReplyTo ⟨some, some⟩ (queryMessage 8 ['a', '.', 'b'] .aaaa) .aaaa .nameError [] p
      (replyMessage 8 .nameError []) where
  canonical := canonical_replyMessage 8 3 (by simp)
  encoded := ⟨List.replicate 12 0, by rw [h]; decide⟩
  answers := ⟨rfl, rfl⟩
  code := rfl
  records := rfl

theorem acceptableName_a_b : AcceptableName ['a', '.', 'b'] :=
  .inr ⟨[['a'], ['b']], by decide, .inl (by decide), by decide, by decide⟩

theorem replied_hostReplies_a : Replied ⟨some, some⟩ (answering hostReplies)
    rotatingConfig.toDnsConfig (new rotatingConfig 7).turn ['a', '.', 'b'] .a 1 .noError
    [.a [192, 0, 2, 7]] where
  plain := ⟨by decide, by decide⟩
  acceptable := acceptableName_a_b
  reply := ⟨_, _, answeredAfter_answering rfl rfl _, replyTo_hostReplies_a rfl⟩

theorem replied_hostReplies_aaaa : Replied ⟨some, some⟩ (answering hostReplies)
    rotatingConfig.toDnsConfig ((new rotatingConfig 7).turn.next 1) ['a', '.', 'b'] .aaaa 1
    .nameError [] where
  plain := ⟨by decide, by decide⟩
  acceptable := acceptableName_a_b
  reply := ⟨_, _, answeredAfter_answering rfl rfl _, replyTo_hostReplies_aaaa rfl⟩

/-- **What `resolve_record` returns.** After any lookups, when one of the attempts of its request is
answered, it returns the records that the name server has put into the reply, in their order, or the
response code of the reply. -/
theorem resolveRecord_of_replied {id : UInt16} {before : List Lookup} {c : DnsClient}
    (hrun : Transition.run (step X W) (new config id) before = some c)
    (h : Replied X W config.toDnsConfig c.turn name kind k rcode recs) :
    ∃ N, ∀ n ≥ N, (c.resolveRecord X { W with fuel := n } kind name).1 =
      if rcode = .noError then .ok (recs.map Record.withDots)
      else .err (refusal "failed to resolve record" rcode) := by
  have hgrows := grows_of_run hrun
  obtain ⟨N, hN⟩ := exists_requestRecords h
  refine ⟨N, fun n hn ↦ ?_⟩
  obtain ⟨hres, -⟩ := hN n hn c hgrows.config hgrows.sound rfl
  rw [resolveRecord, Looked.andThen_of_ok hres, errorOf]
  by_cases hrcode : rcode = .noError
  · rw [if_pos hrcode, if_pos hrcode]
    rfl
  · rw [if_neg hrcode, if_neg hrcode]
    rfl

theorem resolveRecord_of_replied_a : ∃ N, ∀ n ≥ N, ((new rotatingConfig 7).resolveRecord
    ⟨some, some⟩ { answering hostReplies with fuel := n } .a ['a', '.', 'b']).1 =
      .ok [.a [192, 0, 2, 7]] :=
  resolveRecord_of_replied (show Transition.run (step ⟨some, some⟩ (answering hostReplies))
    (new rotatingConfig 7) [] = some _ from rfl) replied_hostReplies_a

/-- **What `resolve_addr` returns.** After any lookups, when one of the attempts of its request is
answered, it returns the host name in the first `PTR` record of the reply, without a final dot. -/
theorem resolveAddr_of_replied {id : UInt16} {before : List Lookup} {c : DnsClient}
    (hrun : Transition.run (step X W) (new config id) before = some c) {addr : IpAddr}
    (h : Replied X W config.toDnsConfig c.turn (addressName addr) .ptr k rcode recs) :
    ∃ N, ∀ n ≥ N, (c.resolveAddr X { W with fuel := n } addr).1 =
      if rcode = .noError then convertError "failed to resolve address" (firstHost recs)
      else .err (refusal "failed to resolve address" rcode) := by
  have hgrows := grows_of_run hrun
  obtain ⟨m, m', hitems, hrecs, N, hN⟩ := exists_request h
  by_cases hrcode : rcode = .noError
  · rw [if_pos hrcode] at hrecs
    obtain ⟨N', hN'⟩ := exists_firstPtr (W := W) hrecs hitems.answer
    refine ⟨max N N', fun n hn ↦ ?_⟩
    obtain ⟨hres, -⟩ := hN n (le_of_max_le_left hn) c hgrows.config hgrows.sound rfl
    rw [if_pos hrcode] at hres
    rw [resolveAddr, Looked.andThen_of_ok hres, hN' n (le_of_max_le_right hn), if_pos hrcode]
  · refine ⟨N, fun n hn ↦ ?_⟩
    obtain ⟨hres, -⟩ := hN n hn c hgrows.config hgrows.sound rfl
    rw [if_neg hrcode] at hres
    rw [resolveAddr, Looked.andThen_of_err hres, if_neg hrcode]
    rfl

/-- The name server knows the host of an address. -/
def addressReply : Packet where
  sender := DnsResolver.nameServer 2
  data := [0, 7, 128, 0, 0, 0, 0, 1, 0, 0, 0, 0, 0, 0, 12, 0, 1, 0, 0, 0, 60, 0, 3, 1, 97, 0]
  length_le := by simp [messageLimit]

theorem madeOf_host : (rootResource .ptr [1, 97, 0]).MadeOf ⟨some, some⟩ (.ptr ['a']) where
  wellTyped := trivial
  names name hname := by
    obtain rfl : name = ['a'] := by simpa [Record.names] using hname
    exact ⟨by decide, by decide⟩
  written := by
    refine ⟨rootResource .ptr [], Resource.writeRdata_eq_ok_iff.mpr ⟨_, writeName_alias ?_, rfl⟩⟩
    rw [List.length_replicate]
    decide

theorem replied_addressReply (addr : IpAddr) : Replied ⟨some, some⟩ (answering fun _ ↦ addressReply)
    rotatingConfig.toDnsConfig (new rotatingConfig 7).turn (addressName addr) .ptr 1 .noError
    [.ptr ['a']] where
  plain := plainName_addressName addr
  acceptable := acceptableName_addressName addr
  reply := by
    refine ⟨_, replyMessage 7 .noError [rootResource .ptr [1, 97, 0]],
      answeredAfter_answering rfl rfl _, canonical_replyMessage 7 0 ?_,
      ⟨List.replicate 26 0, by decide⟩, ⟨rfl, rfl⟩, rfl, ?_⟩
    · exact fun res hres ↦ ⟨_, _, List.mem_singleton.mp hres⟩
    · exact .record rfl rfl madeOf_host .nil

theorem resolveAddr_of_replied_v4 : ∃ N, ∀ n ≥ N, ((new rotatingConfig 7).resolveAddr
    ⟨some, some⟩ { answering (fun _ ↦ addressReply) with fuel := n } (.v4 192 0 2 7)).1 =
      .ok ['a'] :=
  resolveAddr_of_replied (show Transition.run (step ⟨some, some⟩ (answering fun _ ↦ addressReply))
    (new rotatingConfig 7) [] = some _ from rfl) (replied_addressReply _)

/-! ## The addresses of a host -/

@[simp] theorem addressOf_withDots (rec : Record) : addressOf rec.withDots = addressOf rec := by
  cases rec <;> rfl

theorem filterMap_withDots (recs : List Record) :
    (recs.map Record.withDots).filterMap addressOf = recs.filterMap addressOf := by
  rw [List.filterMap_map]
  exact List.filterMap_congr fun rec _ ↦ addressOf_withDots rec

/-- The requests for one name are answered: the addresses that they give, and the turn after them.
With `use_inet6` the addresses in IPv4 are asked for only if there are none in IPv6. -/
inductive NameReplied (X : IdnaCrate) (W : DnsWorld) (config : ResolvConf.FullConfig) (t : Turn)
    (name : Str) : List IpAddr → Turn → Prop
  | v4 {k4 k6 : ℕ} {rcode4 rcode6 : RCode} {recs4 recs6 : List Record}
      (h : config.useInet6 = false) (h4 : Replied X W config.toDnsConfig t name .a k4 rcode4 recs4)
      (h6 : Replied X W config.toDnsConfig (t.next k4) name .aaaa k6 rcode6 recs6) :
      NameReplied X W config t name (recs4.filterMap addressOf ++ recs6.filterMap addressOf)
        ((t.next k4).next k6)
  | v6 {k6 : ℕ} {rcode6 : RCode} {recs6 : List Record} (h : config.useInet6 = true)
      (h6 : Replied X W config.toDnsConfig t name .aaaa k6 rcode6 recs6)
      (hne : recs6.filterMap addressOf ≠ []) :
      NameReplied X W config t name (recs6.filterMap addressOf) (t.next k6)
  | mapped {k6 k4 : ℕ} {rcode6 rcode4 : RCode} {recs6 recs4 : List Record}
      (h : config.useInet6 = true)
      (h6 : Replied X W config.toDnsConfig t name .aaaa k6 rcode6 recs6)
      (hnil : recs6.filterMap addressOf = [])
      (h4 : Replied X W config.toDnsConfig (t.next k6) name .a k4 rcode4 recs4) :
      NameReplied X W config t name ((recs4.filterMap addressOf).map DnsClient.mapped)
        ((t.next k6).next k4)

/-- The names are asked for until one of them has an address. -/
inductive NamesReplied (X : IdnaCrate) (W : DnsWorld) (config : ResolvConf.FullConfig) :
    Turn → List Str → List IpAddr → Turn → Prop
  | found {t t' : Turn} {name : Str} {names : List Str} {addrs : List IpAddr}
      (h : NameReplied X W config t name addrs t') (hne : addrs ≠ []) :
      NamesReplied X W config t (name :: names) addrs t'
  | next {t t' t'' : Turn} {name : Str} {names : List Str} {addrs : List IpAddr}
      (h : NameReplied X W config t name [] t')
      (hrest : NamesReplied X W config t' names addrs t'') :
      NamesReplied X W config t (name :: names) addrs t''

/-- The thread is at the turn, between two requests. -/
structure At (config : ResolvConf.FullConfig) (t : Turn) (c : DnsClient) : Prop where
  config : c.config = config
  sound : c.Sound
  turn : c.turn = t

/-- A request for addresses. `resolve_host_v4` and `resolve_host_v6` are such requests. -/
theorem exists_addressRequest (h : Replied X W config.toDnsConfig t name kind k rcode recs) :
    ∃ N, ∀ n ≥ N, ∀ c : DnsClient, At config t c →
      ∃ c', At config (t.next k) c' ∧ (c.requestRecords X { W with fuel := n } kind name).andThen
        (fun found c ↦ (.ok (addressesOf found), c)) =
          (.ok (recs.filterMap addressOf, errorOf rcode), c') := by
  obtain ⟨N, hN⟩ := exists_requestRecords h
  refine ⟨N, fun n hn c hc ↦ ?_⟩
  obtain ⟨hres, hturn, hconfig, hsound⟩ := hN n hn c hc.config hc.sound hc.turn
  refine ⟨_, ⟨hconfig, hsound, hturn⟩, ?_⟩
  rw [Looked.andThen_of_ok hres, addressesOf, filterMap_withDots]

theorem finishLookup_eq_ok {addrs : List IpAddr} (h : addrs ≠ []) (err : Option DnsSocketError) :
    finishLookup addrs err = .ok addrs := by
  rcases finishLookup_cases addrs err with ⟨h, -⟩ | ⟨-, -, hnil⟩
  · exact h
  · exact absurd hnil h

/-- The closure of `resolve_host` returns the addresses, and an error when there are none. -/
theorem exists_lookupName {addrs : List IpAddr} {t' : Turn}
    (h : NameReplied X W config t name addrs t') :
    ∃ N, ∀ n ≥ N, ∀ c : DnsClient, At config t c → ∃ c' err, At config t' c' ∧
      lookupName X { W with fuel := n } name c = (finishLookup addrs err, c') := by
  rcases h with @⟨_, _, rcode4, rcode6, _, _, hinet6, h4, h6⟩ | @⟨_, rcode6, _, hinet6, h6, hne⟩ |
    @⟨_, _, rcode6, rcode4, _, _, hinet6, h6, hnil, h4⟩
  · obtain ⟨N, hN⟩ := exists_addressRequest h4
    obtain ⟨N', hN'⟩ := exists_addressRequest h6
    refine ⟨max N N', fun n hn c hc ↦ ?_⟩
    obtain ⟨c₁, hc₁, hv4⟩ := hN n (le_of_max_le_left hn) c hc
    obtain ⟨c₂, hc₂, hv6⟩ := hN' n (le_of_max_le_right hn) c₁ hc₁
    refine ⟨c₂, (errorOf rcode4).or (errorOf rcode6), hc₂, ?_⟩
    rw [← resolveHostV4] at hv4
    rw [← resolveHostV6] at hv6
    simp [lookupName, hc.config, hinet6, hv4, hv6, Looked.andThen]
  · obtain ⟨N, hN⟩ := exists_addressRequest h6
    refine ⟨N, fun n hn c hc ↦ ?_⟩
    obtain ⟨c₁, hc₁, hv6⟩ := hN n hn c hc
    refine ⟨c₁, errorOf rcode6, hc₁, ?_⟩
    rw [← resolveHostV6] at hv6
    simp [lookupName, hc.config, hinet6, hv6, Looked.andThen, hne]
  · obtain ⟨N, hN⟩ := exists_addressRequest h6
    obtain ⟨N', hN'⟩ := exists_addressRequest h4
    refine ⟨max N N', fun n hn c hc ↦ ?_⟩
    obtain ⟨c₁, hc₁, hv6⟩ := hN n (le_of_max_le_left hn) c hc
    obtain ⟨c₂, hc₂, hv4⟩ := hN' n (le_of_max_le_right hn) c₁ hc₁
    refine ⟨c₂, (errorOf rcode6).or (errorOf rcode4), hc₂, ?_⟩
    rw [← resolveHostV4] at hv4
    rw [← resolveHostV6] at hv6
    simp [lookupName, hc.config, hinet6, hv4, hv6, Looked.andThen, hnil]

/-- The loop of `query_names` returns the addresses of the first name that has some. -/
theorem exists_queryLoop {names : List Str} {addrs : List IpAddr} {t' : Turn}
    (h : NamesReplied X W config t names addrs t') :
    ∃ N, ∀ n ≥ N, ∀ (c : DnsClient) (err : Option DnsSocketError), At config t c →
      ∃ c', At config t' c' ∧
        queryLoop (tryName X { W with fuel := n }) names err c = (.ok (.ok addrs), c') := by
  induction h with
  | found h hne =>
    obtain ⟨N, hN⟩ := exists_lookupName h
    refine ⟨N, fun n hn c err hc ↦ ?_⟩
    obtain ⟨c', err', hc', hlookup⟩ := hN n hn c hc
    refine ⟨c', hc', ?_⟩
    rw [queryLoop, tryName, hlookup, finishLookup_eq_ok hne]
  | next h _ ih =>
    obtain ⟨N, hN⟩ := exists_lookupName h
    obtain ⟨N', hN'⟩ := ih
    refine ⟨max N N', fun n hn c err hc ↦ ?_⟩
    obtain ⟨c', err', hc', hlookup⟩ := hN n (le_of_max_le_left hn) c hc
    obtain ⟨e, hnone⟩ : ∃ e, finishLookup [] err' = .err e := by
      rcases finishLookup_cases [] err' with ⟨-, hno⟩ | ⟨e, he, -⟩
      · exact absurd rfl hno
      · exact ⟨e, he⟩
    rw [queryLoop, tryName, hlookup, hnone]
    exact hN' n (le_of_max_le_right hn) c' _ hc'

/-- Without a search the only name is tried as the loop would try it. -/
theorem queryNames_eq_of_queryLoop {host : Str} {c c' : DnsClient} {W : DnsWorld}
    {addrs : List IpAddr}
    (h : queryLoop (tryName X W) (triedNames host config) none c = (.ok (.ok addrs), c')) :
    queryNames host config (tryName X W) c = (.ok (.ok addrs), c') := by
  rw [queryNames]
  rw [triedNames] at h
  by_cases huse : useSearch host config = true
  · rwa [if_pos huse] at h ⊢
  · rw [if_neg huse] at h ⊢
    rw [queryLoop] at h
    rcases htry : tryName X W host c with ⟨e | r, c'⟩
    · rw [htry] at h
      exact absurd h (by simp [queryLoop])
    · rw [htry] at h
      exact h

theorem exists_resolveHost {host : Str} {addrs : List IpAddr} {t' : Turn}
    (h : NamesReplied X W config t (triedNames host config) addrs t') :
    ∃ N, ∀ n ≥ N, ∀ c : DnsClient, At config t c → ∃ c', At config t' c' ∧
      c.resolveHost X { W with fuel := n } host = (.ok addrs, c') := by
  obtain ⟨N, hN⟩ := exists_queryLoop h
  refine ⟨N, fun n hn c hc ↦ ?_⟩
  obtain ⟨c', hc', hloop⟩ := hN n hn c none hc
  refine ⟨c', hc', ?_⟩
  rw [resolveHost, hc.config, queryNames_eq_of_queryLoop hloop]
  rfl

/-- **What `resolve_host` returns.** After any lookups, when the requests for its names are answered
until one of them has an address, it returns the addresses of that name: those in IPv4 before those
in IPv6, or with `use_inet6` those in IPv6, and mapped ones if there are none. -/
theorem resolveHost_of_replied {id : UInt16} {before : List Lookup} {c : DnsClient}
    (hrun : Transition.run (step X W) (new config id) before = some c) {host : Str}
    {addrs : List IpAddr} {t' : Turn}
    (h : NamesReplied X W config c.turn (triedNames host config) addrs t') :
    ∃ N, ∀ n ≥ N, (c.resolveHost X { W with fuel := n } host).1 = .ok addrs := by
  have hgrows := grows_of_run hrun
  obtain ⟨N, hN⟩ := exists_resolveHost h
  refine ⟨N, fun n hn ↦ ?_⟩
  obtain ⟨c', -, hres⟩ := hN n hn c ⟨hgrows.config, hgrows.sound, rfl⟩
  rw [hres]

theorem namesReplied_hostReplies : NamesReplied ⟨some, some⟩ (answering hostReplies) rotatingConfig
    (new rotatingConfig 7).turn (triedNames ['a', '.', 'b'] rotatingConfig) [.v4 192 0 2 7]
    ⟨4, 9, 2⟩ :=
  .found (.v4 rfl replied_hostReplies_a replied_hostReplies_aaaa) (List.cons_ne_nil _ _)

theorem resolveHost_of_replied_v4 : ∃ N, ∀ n ≥ N, ((new rotatingConfig 7).resolveHost
    ⟨some, some⟩ { answering hostReplies with fuel := n } ['a', '.', 'b']).1 =
      .ok [.v4 192 0 2 7] :=
  resolveHost_of_replied (show Transition.run (step ⟨some, some⟩ (answering hostReplies))
    (new rotatingConfig 7) [] = some _ from rfl) namesReplied_hostReplies

/-! ## What holds over all lookups -/

/-- **What `resolve_host` tells.** After any lookups, an operation that ends has asked for the names
of `query_names` in their order, each with one or two requests, and every reply was sent by a name
server in answer to its request. The result has the addresses of the first name with an address; an
error means that none of the names has one. -/
theorem resolveHost_asks {config : ResolvConf.FullConfig} {id : UInt16} {before : List Lookup}
    (hrun : Transition.run (step X W) (new config id) before = some c) {host : Str}
    {r : Outcome IoError (List IpAddr)} (h : c.resolveHost X W host = (r, c')) (hr : Finished r) :
    ∃ ls o, c'.exchanges = c.exchanges ++ ls.flatMap NameLookup.exchanges ∧
      (∀ l ∈ ls, LooksUp X W config l.name l.exchanges l.addrs) ∧
      (∀ x ∈ c'.exchanges, x.Genuine X config.nameServers) ∧
      Ends (triedNames host config) ls o ∧ r = convertError "failed to resolve host" o := by
  have hgrows := grows_of_run hrun
  have hconfig : c.config = config := hgrows.config
  obtain ⟨ls, o, hls, hends, hres⟩ := exists_lookups_resolveHost hgrows.sound h hr
  refine ⟨ls, o, hls.grows.exchanges, fun l hl ↦ hconfig ▸ hls.looksUp l hl, fun x hx ↦ ?_,
    hconfig ▸ hends, hres⟩
  rw [hls.grows.exchanges] at hx
  rcases List.mem_append.mp hx with hx | hx
  · exact hgrows.genuine x hx
  · exact hconfig ▸ hls.grows.genuine x hx

/-- A run of one lookup, with a request in IPv4 and one in IPv6. -/
theorem exists_run_hostReplies : ∃ W c, At rotatingConfig ⟨4, 9, 2⟩ c ∧
    (new rotatingConfig 7).resolveHost ⟨some, some⟩ W ['a', '.', 'b'] =
      (.ok [.v4 192 0 2 7], c) ∧
    Transition.run (step ⟨some, some⟩ W) (new rotatingConfig 7) [.host ['a', '.', 'b']] =
      some c := by
  obtain ⟨N, hN⟩ := exists_resolveHost namesReplied_hostReplies
  obtain ⟨c, hc, hres⟩ := hN N le_rfl _ ⟨rfl, sound_new _ _, rfl⟩
  refine ⟨_, c, hc, hres, ?_⟩
  rw [Transition.run, step, perform, hres]
  rfl

theorem resolveHost_asks_v4 : ∃ W c ls o,
    (new rotatingConfig 7).resolveHost ⟨some, some⟩ W ['a', '.', 'b'] =
      (.ok [.v4 192 0 2 7], c) ∧
    c.exchanges = [] ++ ls.flatMap NameLookup.exchanges ∧
    Ends (triedNames ['a', '.', 'b'] rotatingConfig) ls o := by
  obtain ⟨W, c, -, hres, -⟩ := exists_run_hostReplies
  obtain ⟨ls, o, hls, -, -, hends, -⟩ := resolveHost_asks (show Transition.run
    (step ⟨some, some⟩ W) (new rotatingConfig 7) [] = some _ from rfl) hres (by simp [Finished])
  exact ⟨W, c, ls, o, hres, hls, hends⟩

/-- **Replies are not mixed up.** Over any lookups of a thread, what a request returned answers it,
and there is a message that answers two of the requests if and only if the number of requests from
one to the other is a multiple of 65536. -/
theorem replies_not_mixed {config : ResolvConf.FullConfig} {id : UInt16} {ls : List Lookup}
    (hrun : Transition.run (step X W) (new config id) ls = some c) :
    (∀ x ∈ c.exchanges, ∀ msg, x.result = .ok msg → DnsResolver.Answers x.call.outMsg msg) ∧
    ∀ (i j : ℕ) (x y : DnsExchange), c.exchanges[i]? = some x → c.exchanges[j]? = some y →
      ((∃ msg, DnsResolver.Answers x.call.outMsg msg ∧ DnsResolver.Answers y.call.outMsg msg) ↔
        i % 65536 = j % 65536) := by
  have hgrows := grows_of_run hrun
  refine ⟨fun x hx msg hmsg ↦ ?_, fun i j x y hi hj ↦ ?_⟩
  · obtain ⟨k, nsAddr, n, p, -, hfirst⟩ := hgrows.genuine x hx msg hmsg
    exact hfirst.answers
  have hx := hgrows.ids i x hi
  have hy := hgrows.ids j y hj
  have hids : x.call.outMsg.header.id = y.call.outMsg.header.id ↔ i % 65536 = j % 65536 := by
    rw [hx, hy, UInt16.add_right_inj, ← UInt16.toNat_inj, UInt16.toNat_ofNat', UInt16.toNat_ofNat']
  rw [← hids]
  constructor
  · rintro ⟨msg, hmsgx, hmsgy⟩
    exact hmsgx.id.symm.trans hmsgy.id
  · intro heq
    let reply : Message := ⟨{ x.call.outMsg.header with qr := .response }, [], [], [], []⟩
    exact ⟨reply, ⟨rfl, rfl⟩, ⟨heq, rfl⟩⟩

theorem replies_not_mixed_two : ∃ W c x y,
    Transition.run (step ⟨some, some⟩ W) (new rotatingConfig 7) [.host ['a', '.', 'b']] = some c ∧
    c.exchanges = [x, y] ∧ ¬∃ msg, DnsResolver.Answers x.call.outMsg msg ∧
      DnsResolver.Answers y.call.outMsg msg := by
  obtain ⟨W, c, hc, -, hrun⟩ := exists_run_hostReplies
  have hlen : c.exchanges.length = 2 := congrArg Turn.number hc.turn
  obtain ⟨x, y, hxy⟩ := List.length_eq_two.mp hlen
  have hids := (replies_not_mixed hrun).2 0 1 x y (by rw [hxy]; rfl) (by rw [hxy]; rfl)
  exact ⟨W, c, x, y, hrun, hxy, fun hmsg ↦ absurd (hids.mp hmsg) (by decide)⟩

/-- **Rotation is fair.** Over any lookups with rotation, as many attempts in a row as there are
name servers go to all of them, one after the other. -/
theorem rotation_fair {config : ResolvConf.FullConfig} {id : UInt16} {ls : List Lookup}
    (hrun : Transition.run (step X W) (new config id) ls = some c) (hrotate : config.rotate = true)
    {j : ℕ} (hj : j + config.nameServers.length ≤ c.resolver.tried.length) :
    (c.resolver.tried.drop j).take config.nameServers.length = config.nameServers.rotate j := by
  have hgrows := grows_of_run hrun
  have hconfig : c.resolver.config = config.toDnsConfig :=
    hgrows.sound.config.trans (congrArg _ hgrows.config)
  have hserver := hgrows.sound.rotates (by rwa [hconfig])
  rw [hconfig] at hserver
  refine List.ext_getElem? fun k ↦ ?_
  by_cases hk : k < config.nameServers.length
  · have hlt : j + k < c.resolver.tried.length := by omega
    have hget := hserver (j + k) _ (List.getElem?_eq_getElem hlt)
    rw [List.getElem?_take_of_lt hk, List.getElem?_drop, List.getElem?_eq_getElem hlt,
      List.getElem?_rotate hk, Nat.add_comm k j, ← hget]
  · have hk := Nat.le_of_not_lt hk
    rw [List.getElem?_eq_none (by simp; omega), List.getElem?_eq_none (by simpa using hk)]

theorem rotation_fair_two : ∃ W c,
    Transition.run (step ⟨some, some⟩ W) (new rotatingConfig 7) [.host ['a', '.', 'b']] = some c ∧
    (c.resolver.tried.drop 1).take 2 = [DnsResolver.nameServer 2, DnsResolver.nameServer 1] := by
  obtain ⟨W, c, hc, -, hrun⟩ := exists_run_hostReplies
  have hlen : c.resolver.tried.length = 4 := congrArg Turn.tried hc.turn
  exact ⟨W, c, hrun, rotation_fair hrun rfl (show 1 + 2 ≤ c.resolver.tried.length by omega)⟩

end DnsClient

end UsnetSockets
