import UsnetSockets.Resolve.AddressName
import UsnetSockets.Resolve.Search

/-!
# Looking up names and addresses

The operations of `DnsResolver` that the rest of the program calls: `resolve_host`,
`resolve_record` and `resolve_addr`. Each makes requests with one question each, under an id that
`generate_id` counts up, and reads the records of the reply that are of the type it asked for.

`DnsClient` is the state of a thread that looks things up: a resolver and the counter behind
`generate_id`. A list next to them has all requests so far with what they returned. The world
outside is a sequence of what the attempts of each request meet.
-/

namespace UsnetSockets

/-! ## Errors -/

/-- `RCode::get_error`. -/
def RCode.text : RCode → String
  | noError => "no error"
  | formatError => "format error"
  | serverFailure => "server failure"
  | nameError => "no such name"
  | notImplemented => "not implemented"
  | refused => "refused"
  | other _ => "unknown response code"

/-- `Display` of a `DecodeError`. -/
def DecodeError.text : DecodeError → String
  | extraneousData => "extraneous data"
  | shortMessage => "short message"
  | invalidMessage => "invalid message"
  | invalidName => "invalid name"

/-- `Display` of an `EncodeError`. -/
def EncodeError.text : EncodeError → String
  | invalidName => "invalid name value"
  | tooLong => "message too long"

/-- The error as the operations return it. An error of the network stays as it is. -/
def convertError {α : Type} (desc : String) : Outcome DnsSocketError α → Outcome IoError α
  | .ok a => .ok a
  | .err (.ioError e) => .err e
  | .err (.decodeError e) => .err (.other (desc ++ ": error decoding message: " ++ e.text))
  | .err (.encodeError e) => .err (.other (desc ++ ": error encoding message: " ++ e.text))
  | .err (.dnsError rcode) =>
    .err (.other (desc ++ ": server responded with error: " ++ rcode.text))
  | .panic => .panic
  | .outOfFuel => .outOfFuel

/-! ## Requests -/

/-- `Header::default` with an id. -/
def Header.withId (id : UInt16) : Header where
  id := id
  qr := .query
  op := .query
  authoritative := false
  truncated := false
  recursionDesired := false
  recursionAvailable := false
  rcode := .noError

/-- `Message::with_id`. -/
def Message.withId (id : UInt16) : Message := ⟨.withId id, [], [], [], []⟩

/-- A request, with what it returned. -/
structure DnsExchange where
  call : DnsCall
  result : Outcome DnsSocketError Message

structure DnsClient where
  config : ResolvConf.FullConfig
  resolver : DnsResolver
  /-- The thread-local variable of `generate_id`. -/
  id : UInt16
  /-- All requests so far. This is not a field of the source. -/
  exchanges : List DnsExchange

/-- What the attempts of each request meet, and fuel for the loops. -/
structure DnsWorld where
  attempts : ℕ → ℕ → AttemptWorld
  fuel : ℕ

/-- The result of an operation, with the thread after it. -/
abbrev Looked (α : Type) := Outcome DnsSocketError α × DnsClient

namespace Looked

variable {α β : Type}

/-- Go on with the value and the thread, and leave on everything else. -/
def andThen (x : Looked α) (f : α → DnsClient → Looked β) : Looked β :=
  match x with
  | (.ok a, c) => f a c
  | (.err e, c) => (.err e, c)
  | (.panic, c) => (.panic, c)
  | (.outOfFuel, c) => (.outOfFuel, c)

end Looked

namespace DnsClient

/-- `DnsResolver::new`, on a thread whose variable of `generate_id` has the given value. -/
def new (config : ResolvConf.FullConfig) (id : UInt16) : DnsClient :=
  ⟨config, .new config.toDnsConfig, id, []⟩

/-- Returns a sequential id. -/
def generateId (c : DnsClient) : UInt16 × DnsClient := (c.id, { c with id := c.id + 1 })

/-- A message with a new id that asks for recursion. -/
def basicMessage (c : DnsClient) : Message × DnsClient :=
  let (id, c) := c.generateId
  let msg := Message.withId id
  ({ msg with header := { msg.header with recursionDesired := true } }, c)

variable (X : IdnaCrate) (W : DnsWorld)

/-- What all operations begin with: the basic message with one question is sent, and the reply is
read into a buffer of `MESSAGE_LIMIT` bytes. -/
def request (name : Str) (k : RecordKind) (c : DnsClient) : Looked Message :=
  let (outMsg, c) := c.basicMessage
  let outMsg := { outMsg with question := outMsg.question ++ [⟨name, .known k, .internet⟩] }
  let call : DnsCall := ⟨outMsg, messageLimit, W.attempts c.exchanges.length, W.fuel⟩
  let sent := c.resolver.sendMessage X call
  (sent.1, { c with resolver := sent.2, exchanges := c.exchanges ++ [⟨call, sent.1⟩] })

/-- The loop over the answers of a reply: the records of the type that are read until one cannot be
read, with the error of that one. -/
def readAnswers (k : RecordKind) :
    List Resource → Outcome DnsSocketError (List Record × Option DnsSocketError)
  | [] => .ok ([], none)
  | rr :: answers =>
    if rr.rType = .known k then
      match rr.readRdata X W.fuel k with
      | .ok rec => do
        let (recs, err) ← readAnswers k answers
        return (rec :: recs, err)
      | .err e => .ok ([], some (.decodeError e))
      | .panic => .panic
      | .outOfFuel => .outOfFuel
    else readAnswers k answers

/-- What a request for records of the type gets: records, and the error that ends it. -/
def recordsOf (k : RecordKind) :
    Outcome DnsSocketError Message → Outcome DnsSocketError (List Record × Option DnsSocketError)
  | .ok msg => readAnswers X W k msg.answer
  | .err e => .ok ([], some e)
  | .panic => .panic
  | .outOfFuel => .outOfFuel

/-- A request, and the loop over the answers. -/
def requestRecords (k : RecordKind) (name : Str) (c : DnsClient) :
    Looked (List Record × Option DnsSocketError) :=
  let sent := c.request X W name k
  (recordsOf X W k sent.1, sent.2)

/-! ## The operations -/

/-- Requests a type of record from the DNS server and returns the results. -/
def resolveRecord (k : RecordKind) (name : Str) (c : DnsClient) :
    Outcome IoError (List Record) × DnsClient :=
  let found : Looked (List Record) := (c.requestRecords X W k name).andThen fun found c ↦
    match found with
    | (recs, none) => (.ok recs, c)
    | (_, some e) => (.err e, c)
  (convertError "failed to resolve record" found.1, found.2)

/-- The address of an `A` or an `AAAA` record. -/
def addressOf : Record → Option IpAddr
  | .a [a, b, c, d] => some (.v4 a b c d)
  | .aaaa [a, b, c, d, e, f, g, h] => some (.v6 a b c d e f g h)
  | _ => none

/-- `to_ipv6_mapped` of an address in IPv4. -/
def mapped : IpAddr → IpAddr
  | .v4 a b c d => .ipv6Mapped a b c d
  | ip => ip

/-- The addresses that the closure is given, and the error. -/
def addressesOf (found : List Record × Option DnsSocketError) :
    List IpAddr × Option DnsSocketError :=
  (found.1.filterMap addressOf, found.2)

def resolveHostV4 (host : Str) (c : DnsClient) : Looked (List IpAddr × Option DnsSocketError) :=
  (c.requestRecords X W .a host).andThen fun found c ↦ (.ok (addressesOf found), c)

def resolveHostV6 (host : Str) (c : DnsClient) : Looked (List IpAddr × Option DnsSocketError) :=
  (c.requestRecords X W .aaaa host).andThen fun found c ↦ (.ok (addressesOf found), c)

/-- The end of the closure of `resolve_host`. -/
def finishLookup (res : List IpAddr) : Option DnsSocketError → Outcome DnsSocketError (List IpAddr)
  | some e => if !res.isEmpty then .ok res else .err e
  | none =>
    if !res.isEmpty then .ok res
    else .err (.ioError (.other "failed to resolve host: name not found"))

/-- The closure of `resolve_host`. The second request is made whether the first has failed or
not. -/
def lookupName (name : Str) (c : DnsClient) : Looked (List IpAddr) :=
  if c.config.useInet6 then
    (c.resolveHostV6 X W name).andThen fun found6 c ↦
      if found6.1.isEmpty then
        (c.resolveHostV4 X W name).andThen fun found4 c ↦
          (finishLookup (found4.1.map mapped) (found6.2.or found4.2), c)
      else (finishLookup found6.1 found6.2, c)
  else
    (c.resolveHostV4 X W name).andThen fun found4 c ↦
      (c.resolveHostV6 X W name).andThen fun found6 c ↦
        (finishLookup (found4.1 ++ found6.1) (found4.2.or found6.2), c)

/-- A lookup as `query_names` calls it. One that panics ends the whole operation. -/
def tryName (name : Str) (c : DnsClient) :
    Except DnsSocketError (Outcome DnsSocketError (List IpAddr)) × DnsClient :=
  match lookupName X W name c with
  | (.err e, c) => (.error e, c)
  | (result, c) => (.ok result, c)

/-- Resolves a hostname to a series of IPv4 or IPv6 addresses. -/
def resolveHost (host : Str) (c : DnsClient) : Outcome IoError (List IpAddr) × DnsClient :=
  match queryNames host c.config (tryName X W) c with
  | (.ok result, c) => (convertError "failed to resolve host" result, c)
  | (.error e, c) => (convertError "failed to resolve host" (.err e), c)

/-- The name in a `PTR` record, without a final dot. -/
def hostOf : Record → Str
  | .ptr name => if name.getLast? = some '.' then name.dropLast else name
  | _ => []

/-- The loop over the answers in `resolve_addr`. -/
def firstPtr : List Resource → Outcome DnsSocketError Str
  | [] => .err (.ioError (.other "failed to resolve address: name not found"))
  | rr :: answers =>
    if rr.rType = .known .ptr then
      (rr.readRdata X W.fuel .ptr).mapErr .decodeError >>= fun rec ↦ .ok (hostOf rec)
    else firstPtr answers

/-- Resolves an IPv4 or IPv6 address to a hostname. -/
def resolveAddr (addr : IpAddr) (c : DnsClient) : Outcome IoError Str × DnsClient :=
  let found : Looked Str := (c.request X W (addressName addr) .ptr).andThen fun msg c ↦
    (firstPtr X W msg.answer, c)
  (convertError "failed to resolve address" found.1, found.2)

end DnsClient

end UsnetSockets
