import UsnetSockets.Resolve.Record

/-!
# DNS messages

The header, the questions and the resource records of a message, and `Message::decode`. A resource
that was decoded keeps the message up to the end of its rdata and the offset at which the rdata
begins, since names inside the rdata may point into the message before it.
-/

namespace UsnetSockets

/-- Whether a message is a query or a response. -/
inductive Qr where
  | query
  | response
  deriving DecidableEq

/-- The kind of message query. -/
inductive OpCode where
  | query
  | status
  | notify
  | update
  | other (n : UInt8)
  deriving DecidableEq

namespace OpCode

def fromU8 (u : UInt8) : OpCode :=
  if u = 0 then query else if u = 2 then status else if u = 4 then notify
  else if u = 5 then update else other u

def toU8 : OpCode → UInt8
  | query => 0
  | status => 2
  | notify => 4
  | update => 5
  | other n => n

end OpCode

/-- The response code of a message. -/
inductive RCode where
  | noError
  | formatError
  | serverFailure
  | nameError
  | notImplemented
  | refused
  | other (n : UInt8)
  deriving DecidableEq

namespace RCode

def fromU8 (u : UInt8) : RCode :=
  if u = 0 then noError else if u = 1 then formatError else if u = 2 then serverFailure
  else if u = 3 then nameError else if u = 4 then notImplemented else if u = 5 then refused
  else other u

def toU8 : RCode → UInt8
  | noError => 0
  | formatError => 1
  | serverFailure => 2
  | nameError => 3
  | notImplemented => 4
  | refused => 5
  | other n => n

end RCode

/-- A message header. -/
structure Header where
  id : UInt16
  qr : Qr
  op : OpCode
  authoritative : Bool
  truncated : Bool
  recursionDesired : Bool
  recursionAvailable : Bool
  rcode : RCode
  deriving DecidableEq

/-- All header data decoded from a message. -/
structure FullHeader extends Header where
  qdCount : UInt16
  anCount : UInt16
  nsCount : UInt16
  arCount : UInt16
  deriving DecidableEq

/-- A question item. -/
structure Question where
  name : Str
  qType : RecordType
  qClass : Class
  deriving DecidableEq

/-- A resource record item. -/
structure Resource where
  name : Str
  rType : RecordType
  rClass : Class
  ttl : UInt32
  /-- Message data, up to and including resource record data. -/
  data : List UInt8
  /-- Beginning of rdata within `data`. -/
  offset : ℕ
  deriving DecidableEq

/-- A DNS message. -/
structure Message where
  header : Header
  question : List Question
  answer : List Resource
  authority : List Resource
  additional : List Resource
  deriving DecidableEq

namespace MsgReader

/-- Reads a message header. -/
def readHeader (r : MsgReader) : Decoded (FullHeader × MsgReader) := do
  let (buf, r) ← r.read 12
  let flags0 := buf.getD 2 0
  let flags1 := buf.getD 3 0
  return ({
    id := be16 buf 0
    qr := if flags0 &&& 0b10000000 = 0 then .query else .response
    op := .fromU8 (flags0 &&& 0b01111000)
    authoritative := flags0 &&& 0b00000100 != 0
    truncated := flags0 &&& 0b00000010 != 0
    recursionDesired := flags0 &&& 0b00000001 != 0
    recursionAvailable := flags1 &&& 0b10000000 != 0
    rcode := .fromU8 (flags1 &&& 0b00001111)
    qdCount := be16 buf 4
    anCount := be16 buf 6
    nsCount := be16 buf 8
    arCount := be16 buf 10 }, r)

variable (X : IdnaCrate) (fuel : ℕ)

/-- Reads a question item. -/
def readQuestion (r : MsgReader) : Decoded (Question × MsgReader) := do
  let (name, r) ← r.readName X fuel
  let (buf, r) ← r.read 4
  return (⟨name, .fromU16 (be16 buf 0), .fromU16 (be16 buf 2)⟩, r)

/-- Reads a resource record item. The slice `data[..offset + length]` panics when it reaches past
the end of the message. -/
def readResource (r : MsgReader) : Decoded (Resource × MsgReader) := do
  let (name, r) ← r.readName X fuel
  let (buf, r) ← r.read 10
  let length := (be16 buf 8).toNat
  if r.pos + length ≤ r.data.length then
    return ({
      name := name
      rType := .fromU16 (be16 buf 0)
      rClass := .fromU16 (be16 buf 2)
      ttl := be32 buf 4
      data := r.data.take (r.pos + length)
      offset := r.pos }, r.consume length)
  else .panic

/-- Read `n` items, one after the other. -/
def readItems {α : Type} (item : MsgReader → Decoded (α × MsgReader)) :
    ℕ → MsgReader → Decoded (List α × MsgReader)
  | 0, r => return ([], r)
  | n + 1, r => do
    let (x, r) ← item r
    let (xs, r) ← readItems item n r
    return (x :: xs, r)

end MsgReader

namespace Message

variable (X : IdnaCrate) (fuel : ℕ)

/-- Decodes a message from a series of bytes. -/
def decode (data : List UInt8) : Decoded Message := do
  let (header, r) ← (MsgReader.new data).readHeader
  let (question, r) ← MsgReader.readItems (MsgReader.readQuestion X fuel) header.qdCount.toNat r
  let (answer, r) ← MsgReader.readItems (MsgReader.readResource X fuel) header.anCount.toNat r
  let (authority, r) ← MsgReader.readItems (MsgReader.readResource X fuel) header.nsCount.toNat r
  let (additional, r) ← MsgReader.readItems (MsgReader.readResource X fuel) header.arCount.toNat r
  r.finish
  return ⟨header.toHeader, question, answer, authority, additional⟩

end Message

namespace Resource

/-- Returns resource data. The slice `data[offset..]` panics when the offset is behind the end. -/
def getRdata (res : Resource) : Decoded (List UInt8) :=
  if res.offset ≤ res.data.length then .ok (res.data.drop res.offset) else .panic

/-- Decodes resource data into the given `Record` type. -/
def readRdata (X : IdnaCrate) (fuel : ℕ) (k : RecordKind) (res : Resource) : Decoded Record := do
  let (rec, r) ← Record.decode X fuel k (MsgReader.withOffset res.data res.offset)
  r.finish
  return rec

end Resource

end UsnetSockets
