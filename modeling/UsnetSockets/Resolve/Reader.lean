import UsnetSockets.Program.Outcome
import UsnetSockets.Resolve.Idna

/-!
# Reading a DNS message

`MsgReader` of `message.rs`: a cursor over the bytes of one message. Every function takes the
reader and returns its value together with the reader after it. Where the source returns an error
the reader is dropped, as every caller does.

Slices that are out of range and subtractions that underflow are modelled as `Outcome.panic`. The
loop of `read_name` runs on fuel.
-/

namespace UsnetSockets

/-- Maximum total length of a name, in encoded format. -/
def nameLimit : ℕ := 255

/-- Represents an error in decoding a DNS message. -/
inductive DecodeError where
  /-- Extraneous data encountered at the end of message -/
  | extraneousData
  /-- Message end was encountered before expected -/
  | shortMessage
  /-- Unable to decode invalid data -/
  | invalidMessage
  /-- An invalid name was encountered -/
  | invalidName
  deriving DecidableEq

/-- The result of decoding code. -/
abbrev Decoded := Outcome DecodeError

/-- Reads a single DNS message from a series of bytes. -/
structure MsgReader where
  data : List UInt8
  pos : ℕ
  deriving DecidableEq

namespace MsgReader

/-- A reader at the start of the message. -/
def new (data : List UInt8) : MsgReader := ⟨data, 0⟩

/-- A reader of `data` that begins at `offset`. -/
def withOffset (data : List UInt8) (offset : ℕ) : MsgReader := ⟨data, offset⟩

def setPosition (r : MsgReader) (pos : ℕ) : MsgReader := { r with pos := pos }

/-- The number of bytes remaining in the message. The subtraction panics if the cursor is behind
the end. -/
def remaining (r : MsgReader) : Decoded ℕ :=
  if r.pos ≤ r.data.length then .ok (r.data.length - r.pos) else .panic

/-- Fill a buffer of `n` bytes. -/
def read (r : MsgReader) (n : ℕ) : Decoded (List UInt8 × MsgReader) :=
  if ((r.data.drop r.pos).take n).length = n then
    .ok ((r.data.drop r.pos).take n, r.setPosition (r.pos + n))
  else .err .shortMessage

def readByte (r : MsgReader) : Decoded (UInt8 × MsgReader) := do
  let (buf, r) ← r.read 1
  return (buf.getD 0 0, r)

/-- A character-string: a length octet and that number of bytes. -/
def readCharacterString (r : MsgReader) : Decoded (List UInt8 × MsgReader) := do
  let (lengthOctet, r) ← r.readByte
  r.read lengthOctet.toNat

theorem read_of_le {r : MsgReader} {n : ℕ} (h : r.pos + n ≤ r.data.length) :
    r.read n = .ok ((r.data.drop r.pos).take n, r.setPosition (r.pos + n)) := by
  rw [read, if_pos]
  rw [List.length_take, List.length_drop]
  omega

theorem read_of_lt {r : MsgReader} {n : ℕ} (hn : 0 < n) (h : r.data.length < r.pos + n) :
    r.read n = .err .shortMessage := by
  rw [read, if_neg]
  rw [List.length_take, List.length_drop]
  omega

/-- Reading a byte is looking it up at the cursor. -/
theorem readByte_of_getElem? {r : MsgReader} {b : UInt8} (h : r.data[r.pos]? = some b) :
    r.readByte = .ok (b, r.setPosition (r.pos + 1)) := by
  obtain ⟨hlt, rfl⟩ := List.getElem?_eq_some_iff.mp h
  rw [readByte, read_of_le (by omega), List.drop_eq_getElem_cons hlt]
  rfl

theorem readByte_of_getElem?_none {r : MsgReader} (h : r.data[r.pos]? = none) :
    r.readByte = .err .shortMessage := by
  rw [List.getElem?_eq_none_iff] at h
  rw [readByte, read_of_lt (by omega) (by omega)]
  rfl

/-- The big-endian number in the two bytes from index `i` of a buffer. -/
def be16 (buf : List UInt8) (i : ℕ) : UInt16 :=
  .ofNat ((buf.getD i 0).toNat * 256 + (buf.getD (i + 1) 0).toNat)

/-- The big-endian number in the four bytes from index `i` of a buffer. -/
def be32 (buf : List UInt8) (i : ℕ) : UInt32 :=
  .ofNat ((be16 buf i).toNat * 65536 + (be16 buf (i + 2)).toNat)

def readU16 (r : MsgReader) : Decoded (UInt16 × MsgReader) := do
  let (buf, r) ← r.read 2
  return (be16 buf 0, r)

def readU32 (r : MsgReader) : Decoded (UInt32 × MsgReader) := do
  let (buf, r) ← r.read 4
  return (be32 buf 0, r)

/-- Skip `n` bytes. -/
def consume (r : MsgReader) (n : ℕ) : MsgReader := r.setPosition (r.pos + n)

/-- Called at the end of message parsing. -/
def finish (r : MsgReader) : Decoded Unit := do
  let n ← r.remaining
  if n = 0 then return () else .err .extraneousData

variable (X : IdnaCrate)

/-- Read a label of `len` bytes and append it, with a dot, to the name so far. The source reads it
into an array of 64 bytes, whose slice `bytes[..len]` panics when `len` is larger. -/
def readSegment (r : MsgReader) (buf : Str) (len : ℕ) : Decoded (Str × MsgReader) :=
  if 64 < len then .panic
  else do
    let (seg, r) ← r.read len
    if !isAsciiBytes seg then .err .invalidName
    else if !isValidSegment (strOfBytes seg) then .err .invalidName
    else match X.toUnicode (strOfBytes seg) with
      | some label => return (buf ++ label ++ ['.'], r)
      | none => .err .invalidName

/-- The variables of the loop of `read_name`. -/
structure NameState where
  reader : MsgReader
  /-- Offset to return to if we've finished parsing a pointer reference. -/
  restore : Option ℕ
  res : Str
  totalRead : ℕ

/-- One pass of the loop of `read_name`: `inl` goes round again, `inr` breaks. -/
def readNameBody (startPos : ℕ) (s : NameState) : Decoded (NameState ⊕ NameState) := do
  let (len, r) ← s.reader.readByte
  if len = 0 then
    if s.totalRead + 1 > nameLimit then .err .invalidName
    else return .inr { s with reader := r }
  else if len >>> 6 = 0b11 then
    let (lo, r) ← r.readByte
    let offset := (len &&& 0b00111111).toNat <<< 8 ||| lo.toNat
    -- the pointer has to point before the start of this name
    if offset ≥ startPos then .err .invalidName
    else return .inl { s with
      reader := r.setPosition offset
      restore := if s.restore.isNone then some r.pos else s.restore }
  else if len >>> 6 = 0b00 then
    if s.totalRead + 1 + len.toNat > nameLimit then .err .invalidName
    else do
      let (res, r) ← r.readSegment X s.res len.toNat
      return .inl { s with reader := r, res := res, totalRead := s.totalRead + (1 + len.toNat) }
  else .err .invalidMessage

/-- Reads a name from the message. -/
def readName (fuel : ℕ) (r : MsgReader) : Decoded (Str × MsgReader) := do
  let s ← Outcome.loop (readNameBody X r.pos) fuel ⟨r, none, [], 0⟩
  let res := if s.res.isEmpty then ['.'] else s.res
  match s.restore with
  | some pos => return (res, s.reader.setPosition pos)
  | none => return (res, s.reader)

end MsgReader

end UsnetSockets
