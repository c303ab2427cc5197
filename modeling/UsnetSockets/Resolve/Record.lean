import UsnetSockets.Resolve.Reader

/-!
# DNS resource record types

The codes of classes and record types, and the nine record types of `record.rs` with their
decoders. The source has one Rust type for each record type, tied together by the trait `Record`;
here they are the constructors of one type, and `RecordKind` says which of them a decoder is for.
-/

namespace UsnetSockets

/-- The class of data in a message. -/
inductive Class where
  | internet
  | any
  | other (n : UInt16)
  deriving DecidableEq

namespace Class

def fromU16 (u : UInt16) : Class :=
  if u = 1 then internet else if u = 255 then any else other u

def toU16 : Class → UInt16
  | internet => 1
  | any => 255
  | other n => n

end Class

/-- The record types with a decoder of their own. -/
inductive RecordKind where
  | a
  | aaaa
  | cname
  | mx
  | ns
  | ptr
  | soa
  | srv
  | txt
  deriving DecidableEq

/-- The type of data in a message. -/
inductive RecordType where
  | known (k : RecordKind)
  | other (n : UInt16)
  deriving DecidableEq

namespace RecordKind

/-- The table `record_types!`. -/
def code : RecordKind → UInt16
  | a => 1
  | aaaa => 28
  | cname => 5
  | mx => 15
  | ns => 2
  | ptr => 12
  | soa => 6
  | srv => 33
  | txt => 16

/-- The entries of the table, in its order. -/
def all : List RecordKind := [a, aaaa, cname, mx, ns, ptr, soa, srv, txt]

end RecordKind

namespace RecordType

def fromU16 (u : UInt16) : RecordType :=
  match RecordKind.all.find? fun k ↦ k.code == u with
  | some k => known k
  | none => other u

def toU16 : RecordType → UInt16
  | known k => k.code
  | other n => n

end RecordType

/-- Resource record data. Addresses are lists of their bytes (`A`) or segments (`AAAA`). -/
inductive Record where
  | a (address : List UInt8)
  | aaaa (address : List UInt16)
  | cname (name : Str)
  | mx (preference : UInt16) (exchange : Str)
  | ns (name : Str)
  | ptr (name : Str)
  | soa (mname rname : Str) (serial refresh retry expire minimum : UInt32)
  | srv (priority weight port : UInt16) (target : Str)
  | txt (data : List UInt8)
  deriving DecidableEq

namespace Record

variable (X : IdnaCrate) (fuel : ℕ)

/-- `Record::decode` of the given type. -/
def decode (k : RecordKind) (r : MsgReader) : Decoded (Record × MsgReader) :=
  match k with
  | .a => do
    let (buf, r) ← r.read 4
    return (.a [buf.getD 0 0, buf.getD 1 0, buf.getD 2 0, buf.getD 3 0], r)
  | .aaaa => do
    let (buf, r) ← r.read 16
    return (.aaaa ((List.range 8).map fun i ↦ MsgReader.be16 buf (2 * i)), r)
  | .cname => do
    let (name, r) ← r.readName X fuel
    return (.cname name, r)
  | .mx => do
    let (preference, r) ← r.readU16
    let (exchange, r) ← r.readName X fuel
    return (.mx preference exchange, r)
  | .ns => do
    let (name, r) ← r.readName X fuel
    return (.ns name, r)
  | .ptr => do
    let (name, r) ← r.readName X fuel
    return (.ptr name, r)
  | .soa => do
    let (mname, r) ← r.readName X fuel
    let (rname, r) ← r.readName X fuel
    let (serial, r) ← r.readU32
    let (refresh, r) ← r.readU32
    let (retry, r) ← r.readU32
    let (expire, r) ← r.readU32
    let (minimum, r) ← r.readU32
    return (.soa mname rname serial refresh retry expire minimum, r)
  | .srv => do
    let (priority, r) ← r.readU16
    let (weight, r) ← r.readU16
    let (port, r) ← r.readU16
    let (target, r) ← r.readName X fuel
    return (.srv priority weight port target, r)
  | .txt => do
    let (data, r) ← r.readCharacterString
    return (.txt data, r)

end Record

end UsnetSockets
