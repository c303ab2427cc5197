import Mathlib.Data.List.Infix
import UsnetSockets.Resolve.Message

/-!
# Writing a DNS message

`MsgWriter` of `message.rs`: a cursor over a buffer of fixed length, and `Message::encode`. The
writer is the part of the buffer that has been written and the part that has not, so that the cursor
cannot leave the buffer. A function that fails leaves behind what it has written until then, so the
writer is returned with an error too.
-/

namespace UsnetSockets

/-- Maximum size of a DNS message, in bytes. -/
def messageLimit : ℕ := 0xffff

/-- Maximum length of a name segment. -/
def labelLimit : ℕ := 63

/-- Represents an error in encoding a DNS message. -/
inductive EncodeError where
  /-- A name or label was too long or contained invalid characters -/
  | invalidName
  /-- Message exceeded given buffer or `MESSAGE_LIMIT` bytes -/
  | tooLong
  deriving DecidableEq

/-- Writes a single DNS message as a series of bytes. -/
structure MsgWriter where
  /-- The bytes written so far. -/
  bytes : List UInt8
  /-- The rest of the buffer. -/
  free : List UInt8

/-- The result of encoding code, with the writer after it. -/
abbrev Encoded (α : Type) := Outcome EncodeError α × MsgWriter

namespace Encoded

variable {α β : Type}

/-- Go on with the value and the writer, and leave on everything else. -/
def andThen (x : Encoded α) (f : α → MsgWriter → Encoded β) : Encoded β :=
  match x with
  | (.ok a, w) => f a w
  | (.err e, w) => (.err e, w)
  | (.panic, w) => (.panic, w)
  | (.outOfFuel, w) => (.outOfFuel, w)

theorem andThen_eq_ok {x : Encoded α} {f : α → MsgWriter → Encoded β} {b : β} {w' : MsgWriter} :
    x.andThen f = (.ok b, w') ↔ ∃ a w, x = (.ok a, w) ∧ f a w = (.ok b, w') := by
  obtain ⟨o, w⟩ := x
  cases o <;> simp [andThen]

end Encoded

/-- The bytes of a string in UTF-8. -/
def utf8 (s : Str) : List UInt8 := s.flatMap String.utf8EncodeChar

/-- Whether the string appears to be a valid hostname. Only its structure is looked at. -/
def isValidName (name : Str) : Bool :=
  (utf8 name).length != 0 && ((utf8 name).length == 1 || !(name.head? == some '.'))
    && !decide (['.', '.'] <:+: name)

/-- A number of two bytes in big-endian format. -/
def be16Bytes (u : UInt16) : List UInt8 := [.ofNat (u.toNat / 256), .ofNat u.toNat]

/-- A number of four bytes in big-endian format. -/
def be32Bytes (u : UInt32) : List UInt8 :=
  be16Bytes (.ofNat (u.toNat / 65536)) ++ be16Bytes (.ofNat u.toNat)

/-- A length that fits in two bytes. -/
def toU16 (n : ℕ) : Outcome EncodeError UInt16 :=
  if n > 65535 then .err .tooLong else .ok (.ofNat n)

def Qr.toU8 : Qr → UInt8
  | query => 0
  | response => 1

namespace MsgWriter

/-- A writer that writes into the given buffer. -/
def new (buf : List UInt8) : MsgWriter := ⟨[], buf⟩

/-- The number of bytes written so far. -/
def written (w : MsgWriter) : ℕ := w.bytes.length

/-- The part of the buffer that contains the bytes written. -/
def intoBytes (w : MsgWriter) : List UInt8 := w.bytes

/-- Writes a series of bytes. Where they do not fit in the buffer, `write_all` writes as many as fit
before it fails. -/
def write (w : MsgWriter) (data : List UInt8) : Encoded Unit :=
  if w.written + data.length > messageLimit then (.err .tooLong, w)
  else
    (if data.length ≤ w.free.length then .ok () else .err .tooLong,
      ⟨w.bytes ++ data.take w.free.length, w.free.drop data.length⟩)

def writeByte (w : MsgWriter) (data : UInt8) : Encoded Unit := w.write [data]

variable (X : IdnaCrate)

/-- The loop of `write_name`, which returns `total_len`. -/
def writeSegments : List Str → ℕ → MsgWriter → Encoded ℕ
  | [], totalLen, w => (.ok totalLen, w)
  | seg :: segs, totalLen, w =>
    match X.toAscii seg with
    | none => (.err .invalidName, w)
    | some seg =>
      if !isValidSegment seg then (.err .invalidName, w)
      else if (utf8 seg).length > labelLimit then (.err .invalidName, w)
      -- the size octet and the segment
      else if totalLen + (1 + (utf8 seg).length) > nameLimit then (.err .invalidName, w)
      else
        (w.writeByte (.ofNat (utf8 seg).length)).andThen fun _ w ↦
          (w.write (utf8 seg)).andThen fun _ w ↦
            writeSegments segs (totalLen + (1 + (utf8 seg).length)) w

/-- Writes a name. A name that ends with a dot has an empty last segment, whose size octet is the
end of the name. -/
def writeName (name : Str) (w : MsgWriter) : Encoded Unit :=
  if !isValidName name then (.err .invalidName, w)
  else if name = ['.'] then w.writeByte 0
  else
    (writeSegments X (name.splitOn '.') 0 w).andThen fun totalLen w ↦
      if name.getLast? ≠ some '.' then
        if totalLen + 1 > nameLimit then (.err .invalidName, w) else w.writeByte 0
      else (.ok (), w)

/-- The first byte of flags. -/
def flags0 (header : Header) : UInt8 :=
  (header.qr.toU8 &&& 1) <<< 7 ||| (header.op.toU8 &&& 0b1111) <<< 3 |||
    header.authoritative.toUInt8 <<< 2 ||| header.truncated.toUInt8 <<< 1 |||
    header.recursionDesired.toUInt8

/-- The second byte of flags. -/
def flags1 (header : Header) : UInt8 :=
  header.recursionAvailable.toUInt8 <<< 7 ||| header.rcode.toU8 &&& 0b1111

/-- Writes a message header. -/
def writeHeader (header : FullHeader) (w : MsgWriter) : Encoded Unit :=
  w.write (be16Bytes header.id ++ [flags0 header.toHeader, flags1 header.toHeader] ++
    be16Bytes header.qdCount ++ be16Bytes header.anCount ++ be16Bytes header.nsCount ++
    be16Bytes header.arCount)

/-- Writes a question item. -/
def writeQuestion (question : Question) (w : MsgWriter) : Encoded Unit :=
  (writeName X question.name w).andThen fun _ w ↦
    w.write (be16Bytes question.qType.toU16 ++ be16Bytes question.qClass.toU16)

/-- Writes a resource record item. -/
def writeResource (resource : Resource) (w : MsgWriter) : Encoded Unit :=
  (writeName X resource.name w).andThen fun _ w ↦
    match resource.getRdata with
    | .ok rdata =>
      match toU16 rdata.length with
      | .ok length =>
        (w.write (be16Bytes resource.rType.toU16 ++ be16Bytes resource.rClass.toU16 ++
          be32Bytes resource.ttl ++ be16Bytes length)).andThen fun _ w ↦ w.write rdata
      | _ => (.err .tooLong, w)
    | _ => (.panic, w)

/-- Write the items, one after the other. -/
def writeItems {α : Type} (item : α → MsgWriter → Encoded Unit) : List α → MsgWriter → Encoded Unit
  | [], w => (.ok (), w)
  | x :: xs, w => (item x w).andThen fun _ w ↦ writeItems item xs w

end MsgWriter

namespace Message

open MsgWriter

/-- The header with the numbers of items. -/
def fullHeader (m : Message) : Outcome EncodeError FullHeader := do
  let qdCount ← toU16 m.question.length
  let anCount ← toU16 m.answer.length
  let nsCount ← toU16 m.authority.length
  let arCount ← toU16 m.additional.length
  return { m.header with
    qdCount := qdCount
    anCount := anCount
    nsCount := nsCount
    arCount := arCount }

/-- The writer after all parts of the message have been written. -/
def writeMessage (X : IdnaCrate) (m : Message) (header : FullHeader) (w : MsgWriter) :
    Encoded Unit :=
  (writeHeader header w).andThen fun _ w ↦
    (writeItems (writeQuestion X) m.question w).andThen fun _ w ↦
      (writeItems (writeResource X) m.answer w).andThen fun _ w ↦
        (writeItems (writeResource X) m.authority w).andThen fun _ w ↦
          writeItems (writeResource X) m.additional w

/-- Encodes a message to a series of bytes, which are the written part of the given buffer. -/
def encode (X : IdnaCrate) (m : Message) (buf : List UInt8) : Outcome EncodeError (List UInt8) := do
  let header ← m.fullHeader
  let (res, w) := writeMessage X m header (MsgWriter.new buf)
  res
  return w.intoBytes

/-- The error that the response code stands for. -/
def getError (m : Message) : Option RCode :=
  if m.header.rcode = .noError then none else some m.header.rcode

end Message

end UsnetSockets
