import UsnetSockets.Resolve.DecodeOutcome
import UsnetSockets.Resolve.NameFormat

/-!
# From a message to its bytes and back

What `Message::encode` writes, part by part, and what `Message::decode` makes of it. Each part of
the format is treated once: whatever the writer appends is read back, wherever it stands in the
message.

The two sides do not agree on the operation code: the writer shifts it to its place in the byte of
flags, and the reader masks it there but does not shift it back.
-/

namespace UsnetSockets

open MsgReader MsgWriter Outcome

/-! ## Canonical messages -/

/-- The operation code is the one of a number that fits in its four bits. -/
def OpCode.Canonical (op : OpCode) : Prop := ∃ u : Fin 16, op = .fromU8 (.ofNat u)

def RCode.Canonical (rcode : RCode) : Prop := ∃ u : Fin 16, rcode = .fromU8 (.ofNat u)

def RecordType.Canonical (t : RecordType) : Prop := ∃ u, t = .fromU16 u

def Class.Canonical (c : Class) : Prop := ∃ u, c = .fromU16 u

structure Question.Canonical (q : Question) : Prop where
  name : PlainName q.name
  qType : q.qType.Canonical
  qClass : q.qClass.Canonical

structure Resource.Canonical (res : Resource) : Prop where
  name : PlainName res.name
  rType : res.rType.Canonical
  rClass : res.rClass.Canonical

/-- All codes are those of numbers, and all names are in ASCII without internationalized labels. -/
structure Message.Canonical (m : Message) : Prop where
  op : m.header.op.Canonical
  rcode : m.header.rcode.Canonical
  question : ∀ q ∈ m.question, q.Canonical
  answer : ∀ res ∈ m.answer, res.Canonical
  authority : ∀ res ∈ m.authority, res.Canonical
  additional : ∀ res ∈ m.additional, res.Canonical

/-! ## Messages that say the same -/

/-- Names that are equal up to one final dot. -/
def SameName (a b : Str) : Prop := dotted a = dotted b

structure Question.Same (q q' : Question) : Prop where
  name : SameName q.name q'.name
  qType : q'.qType = q.qType
  qClass : q'.qClass = q.qClass

structure Resource.Same (res res' : Resource) : Prop where
  name : SameName res.name res'.name
  rType : res'.rType = res.rType
  rClass : res'.rClass = res.rClass
  ttl : res'.ttl = res.ttl
  rdata : res'.getRdata = res.getRdata

/-- The same items in the same order. -/
structure Message.SameItems (m m' : Message) : Prop where
  question : List.Forall₂ Question.Same m.question m'.question
  answer : List.Forall₂ Resource.Same m.answer m'.answer
  authority : List.Forall₂ Resource.Same m.authority m'.authority
  additional : List.Forall₂ Resource.Same m.additional m'.additional

/-- The same header and the same items. -/
structure Message.Same (m m' : Message) : Prop extends m.SameItems m' where
  header : m'.header = m.header

theorem sameName_dotted (name : Str) : SameName name (dotted name) := by
  have hlast : (dotted name).getLast? = some '.' := by
    rw [dotted]
    split
    · assumption
    · simp
  rw [SameName]
  conv_rhs => rw [dotted, if_pos hlast]

/-! ## Numbers and codes -/

theorem be16_be16Bytes (u : UInt16) (pre post : List UInt8) :
    be16 (pre ++ (be16Bytes u ++ post)) pre.length = u := by
  have hhigh : (pre ++ (be16Bytes u ++ post)).getD pre.length 0 = .ofNat (u.toNat / 256) := by
    simp [be16Bytes]
  have hlow : (pre ++ (be16Bytes u ++ post)).getD (pre.length + 1) 0 = .ofNat u.toNat := by
    simp [be16Bytes]
  have hlt := u.toNat_lt
  rw [be16, hhigh, hlow, UInt8.toNat_ofNat', UInt8.toNat_ofNat', ← UInt16.toNat_inj,
    UInt16.toNat_ofNat']
  omega

theorem be32_be32Bytes (u : UInt32) (pre post : List UInt8) :
    be32 (pre ++ (be32Bytes u ++ post)) pre.length = u := by
  have hhigh := be16_be16Bytes (.ofNat (u.toNat / 65536)) pre (be16Bytes (.ofNat u.toNat) ++ post)
  have hlow := be16_be16Bytes (.ofNat u.toNat) (pre ++ be16Bytes (.ofNat (u.toNat / 65536))) post
  have hlt : u.toNat < 4294967296 := u.toNat_lt
  rw [List.length_append, List.append_assoc, show (be16Bytes _).length = 2 from rfl] at hlow
  rw [be32, be32Bytes, List.append_assoc, hhigh, hlow, UInt16.toNat_ofNat', UInt16.toNat_ofNat',
    ← UInt32.toNat_inj, UInt32.toNat_ofNat']
  omega

theorem RecordType.toU16_fromU16 (u : UInt16) : (fromU16 u).toU16 = u := by
  rw [fromU16]
  split
  · rename_i k hk
    have hcode := List.find?_some hk
    exact beq_iff_eq.mp hcode
  · rfl

theorem Class.toU16_fromU16 (u : UInt16) : (fromU16 u).toU16 = u := by
  rw [fromU16]
  split
  · rename_i h
    exact h.symm
  · split
    · rename_i h
      exact h.symm
    · rfl

theorem RecordType.Canonical.fromU16_toU16 {t : RecordType} (h : t.Canonical) :
    fromU16 t.toU16 = t := by
  obtain ⟨u, rfl⟩ := h
  rw [toU16_fromU16]

theorem Class.Canonical.fromU16_toU16 {c : Class} (h : c.Canonical) : fromU16 c.toU16 = c := by
  obtain ⟨u, rfl⟩ := h
  rw [toU16_fromU16]

/-! ## Reading back what has been written -/

/-- Whatever the first function writes, the second reads back. -/
def RoundTrips {α : Type} (write : MsgWriter → Encoded Unit)
    (f : ℕ → MsgReader → Decoded (α × MsgReader)) (P : α → Prop) : Prop :=
  ∀ w w', write w = (.ok (), w') → ∃ bytes, w'.bytes = w.bytes ++ bytes ∧ ReadsBack f bytes P

theorem RoundTrips.imp {α : Type} {write : MsgWriter → Encoded Unit}
    {f : ℕ → MsgReader → Decoded (α × MsgReader)} {P Q : α → Prop} (h : RoundTrips write f P)
    (hPQ : ∀ a, P a → Q a) : RoundTrips write f Q := by
  intro w w' hw
  obtain ⟨bytes, hbytes, hread⟩ := h w w' hw
  exact ⟨bytes, hbytes, hread.imp hPQ⟩

variable {X : IdnaCrate}

theorem roundTrips_name {name : Str} (hplain : PlainName name) :
    RoundTrips (writeName X name) (fun n r ↦ r.readName X n) (· = dotted name) := by
  intro w w' h
  obtain ⟨ls, hbytes, hls, hlen, hname⟩ := bytes_of_writeName hplain h
  refine ⟨wireName ls, hbytes, ?_⟩
  rw [← hname]
  exact readsBack_readName hls hlen

/-- A question is read back when its name is. -/
theorem roundTrips_question_of {q : Question} {P : Str → Prop}
    (hname : RoundTrips (writeName X q.name) (fun n r ↦ r.readName X n) P) :
    RoundTrips (writeQuestion X q) (fun n r ↦ r.readQuestion X n) fun q' ↦
      P q'.name ∧ q'.qType = .fromU16 q.qType.toU16 ∧ q'.qClass = .fromU16 q.qClass.toU16 := by
  intro w w' h
  obtain ⟨_, w₁, hfirst, h⟩ := Encoded.andThen_eq_ok.mp h
  obtain ⟨bytes, hbytes, hread⟩ := hname w w₁ hfirst
  refine ⟨bytes ++ (be16Bytes q.qType.toU16 ++ be16Bytes q.qClass.toU16), ?_, ?_⟩
  · rw [bytes_of_write h, hbytes, List.append_assoc]
  · unfold readQuestion
    refine hread.bind fun name hP ↦ ?_
    have hfour : ReadsBack (fun _ r ↦ r.read 4) (be16Bytes q.qType.toU16 ++
        be16Bytes q.qClass.toU16) (· = be16Bytes q.qType.toU16 ++ be16Bytes q.qClass.toU16) :=
      readsBack_read _
    have htype := be16_be16Bytes q.qType.toU16 [] (be16Bytes q.qClass.toU16)
    have hclass := be16_be16Bytes q.qClass.toU16 (be16Bytes q.qType.toU16) []
    rw [List.append_nil] at hclass
    refine hfour.map (fun buf ↦ Question.mk name (.fromU16 (be16 buf 0)) (.fromU16 (be16 buf 2)))
      fun buf hbuf ↦ ?_
    subst hbuf
    exact ⟨hP, congrArg RecordType.fromU16 htype, congrArg Class.fromU16 hclass⟩

theorem roundTrips_question {q : Question} (hq : q.Canonical) :
    RoundTrips (writeQuestion X q) (fun n r ↦ r.readQuestion X n) q.Same := by
  refine (roundTrips_question_of (roundTrips_name hq.name)).imp ?_
  rintro q' ⟨hname, htype, hclass⟩
  refine ⟨hname ▸ sameName_dotted _, ?_, ?_⟩
  · exact htype.trans hq.qType.fromU16_toU16
  · exact hclass.trans hq.qClass.fromU16_toU16

/-- The rdata is the last part of a resource record, and is not copied but pointed at. -/
theorem readsBack_rdata (rdata : List UInt8) (name : Str) (t : RecordType) (c : Class)
    (ttl : UInt32) : ReadsBack (fun _ r ↦
      (if r.pos + rdata.length ≤ r.data.length then
        pure (Resource.mk name t c ttl (r.data.take (r.pos + rdata.length)) r.pos,
          r.consume rdata.length)
      else .panic : Decoded (Resource × MsgReader))) rdata
    fun res ↦ res.name = name ∧ res.rType = t ∧ res.rClass = c ∧ res.ttl = ttl ∧
      res.getRdata = .ok rdata := by
  intro pre post
  refine ⟨_, ⟨rfl, rfl, rfl, rfl, ?_⟩, 0, fun n _ ↦ if_pos (by simp)⟩
  have htake : (pre ++ (rdata ++ post)).take (pre.length + rdata.length) = pre ++ rdata := by
    rw [List.take_length_add_append, List.take_left]
  rw [Resource.getRdata, htake, if_pos (by simp), List.drop_left]

theorem toU16_eq_ok {n : ℕ} {u : UInt16} (h : toU16 n = .ok u) : u.toNat = n := by
  rw [toU16] at h
  split at h
  · exact absurd h (by simp)
  · rename_i hle
    rw [← ok.inj h, UInt16.toNat_ofNat']
    omega

/-- The ten bytes between the name and the rdata of a resource record. -/
def resourceData (res : Resource) (length : UInt16) : List UInt8 :=
  be16Bytes res.rType.toU16 ++ be16Bytes res.rClass.toU16 ++ be32Bytes res.ttl ++ be16Bytes length

theorem be_resourceData (res : Resource) (length : UInt16) :
    be16 (resourceData res length) 0 = res.rType.toU16 ∧
    be16 (resourceData res length) 2 = res.rClass.toU16 ∧
    be32 (resourceData res length) 4 = res.ttl ∧ be16 (resourceData res length) 8 = length := by
  have htype := be16_be16Bytes res.rType.toU16 []
    (be16Bytes res.rClass.toU16 ++ be32Bytes res.ttl ++ be16Bytes length)
  have hclass := be16_be16Bytes res.rClass.toU16 (be16Bytes res.rType.toU16)
    (be32Bytes res.ttl ++ be16Bytes length)
  have httl := be32_be32Bytes res.ttl (be16Bytes res.rType.toU16 ++ be16Bytes res.rClass.toU16)
    (be16Bytes length)
  have hlength := be16_be16Bytes length
    (be16Bytes res.rType.toU16 ++ be16Bytes res.rClass.toU16 ++ be32Bytes res.ttl) []
  exact ⟨htype, hclass, httl, hlength⟩

/-- A resource is read back when its name is. -/
theorem roundTrips_resource_of {res : Resource} {P : Str → Prop}
    (hname : RoundTrips (writeName X res.name) (fun n r ↦ r.readName X n) P) :
    RoundTrips (writeResource X res) (fun n r ↦ r.readResource X n) fun res' ↦
      P res'.name ∧ res'.rType = .fromU16 res.rType.toU16 ∧
      res'.rClass = .fromU16 res.rClass.toU16 ∧ res'.ttl = res.ttl ∧
      res'.getRdata = res.getRdata := by
  intro w w' h
  obtain ⟨_, w₁, hfirst, h⟩ := Encoded.andThen_eq_ok.mp h
  obtain ⟨bytes, hbytes, hread⟩ := hname w w₁ hfirst
  split at h
  · rename_i rdata hrdata
    split at h
    · rename_i length hlength
      obtain ⟨_, w₂, hten, h⟩ := Encoded.andThen_eq_ok.mp h
      refine ⟨bytes ++ (resourceData res length ++ rdata), ?_, ?_⟩
      · rw [bytes_of_write h, bytes_of_write hten, hbytes, resourceData]
        simp only [List.append_assoc]
      · unfold readResource
        refine hread.bind fun name hP ↦ ?_
        have hdata : ReadsBack (fun _ r ↦ r.read 10) (resourceData res length)
            (· = resourceData res length) := readsBack_read _
        refine hdata.bind fun buf hbuf ↦ ?_
        subst hbuf
        obtain ⟨htype, hclass, httl, hlen⟩ := be_resourceData res length
        simp only [htype, hclass, httl, hlen, toU16_eq_ok hlength]
        refine (readsBack_rdata rdata name _ _ _).imp ?_
        rintro res' ⟨rfl, htype', hclass', httl', hrdata'⟩
        exact ⟨hP, htype', hclass', httl', hrdata'.trans hrdata.symm⟩
    · exact absurd h (by simp)
  · exact absurd h (by simp)

theorem roundTrips_resource {res : Resource} (hres : res.Canonical) :
    RoundTrips (writeResource X res) (fun n r ↦ r.readResource X n) res.Same := by
  refine (roundTrips_resource_of (roundTrips_name hres.name)).imp ?_
  rintro res' ⟨hname, htype, hclass, httl, hrdata⟩
  refine ⟨hname ▸ sameName_dotted _, ?_, ?_, httl, hrdata⟩
  · exact htype.trans hres.rType.fromU16_toU16
  · exact hclass.trans hres.rClass.fromU16_toU16

/-- Items that are read back one by one are read back in their order. -/
theorem roundTrips_items {α β : Type} {item : α → MsgWriter → Encoded Unit}
    {f : ℕ → MsgReader → Decoded (β × MsgReader)} {R : α → β → Prop} {xs : List α}
    (hxs : ∀ x ∈ xs, RoundTrips (item x) f (R x)) :
    RoundTrips (writeItems item xs) (fun n r ↦ readItems (f n) xs.length r)
      (List.Forall₂ R xs) := by
  induction xs with
  | nil =>
    intro w w' h
    rw [writeItems, Prod.mk.injEq] at h
    obtain ⟨-, rfl⟩ := h
    exact ⟨[], by simp, fun pre post ↦ ⟨[], .nil, 0, fun n _ ↦ rfl⟩⟩
  | cons x xs ih =>
    intro w w' h
    rw [List.forall_mem_cons] at hxs
    obtain ⟨_, w₁, hfirst, h⟩ := Encoded.andThen_eq_ok.mp h
    obtain ⟨b₁, hb₁, hread₁⟩ := hxs.1 w w₁ hfirst
    obtain ⟨b₂, hb₂, hread₂⟩ := ih hxs.2 w₁ w' h
    refine ⟨b₁ ++ b₂, by rw [hb₂, hb₁, List.append_assoc], ?_⟩
    refine hread₁.bind fun y hy ↦ ?_
    exact hread₂.map (y :: ·) fun ys hys ↦ .cons hy hys

/-! ## The header -/

private theorem flags0_bits (qr : Qr) (u : Fin 16) (a t r : Bool) :
    let f : UInt8 :=
      (qr.toU8 &&& 1) <<< 7 ||| ((OpCode.fromU8 (.ofNat u)).toU8 &&& 0b1111) <<< 3 |||
        a.toUInt8 <<< 2 ||| t.toUInt8 <<< 1 ||| r.toUInt8
    (if f &&& 0b10000000 = 0 then Qr.query else .response) = qr ∧
    f &&& (0b01111000 : UInt8) = (OpCode.fromU8 (.ofNat u)).toU8 <<< (3 : UInt8) ∧
    (f &&& 0b00000100 != 0) = a ∧ (f &&& 0b00000010 != 0) = t ∧
    (f &&& 0b00000001 != 0) = r := by
  revert u
  cases qr <;> cases a <;> cases t <;> cases r <;> decide

private theorem flags1_bits (u : Fin 16) (a : Bool) :
    let f : UInt8 := a.toUInt8 <<< 7 ||| (RCode.fromU8 (.ofNat u)).toU8 &&& 0b1111
    (f &&& 0b10000000 != 0) = a ∧ RCode.fromU8 (f &&& 0b00001111) = RCode.fromU8 (.ofNat u) := by
  revert u
  cases a <;> decide

/-- The operation code comes back as another one, unless it is zero. -/
private theorem fromU8_shift_iff (u : Fin 16) :
    OpCode.fromU8 ((OpCode.fromU8 (.ofNat u)).toU8 <<< 3) = OpCode.fromU8 (.ofNat u) ↔
      OpCode.fromU8 (.ofNat u) = .query := by
  revert u
  decide

/-- The header that twelve bytes stand for. -/
def headerOf (buf : List UInt8) : FullHeader where
  id := be16 buf 0
  qr := if buf.getD 2 0 &&& 0b10000000 = 0 then .query else .response
  op := .fromU8 (buf.getD 2 0 &&& 0b01111000)
  authoritative := buf.getD 2 0 &&& 0b00000100 != 0
  truncated := buf.getD 2 0 &&& 0b00000010 != 0
  recursionDesired := buf.getD 2 0 &&& 0b00000001 != 0
  recursionAvailable := buf.getD 3 0 &&& 0b10000000 != 0
  rcode := .fromU8 (buf.getD 3 0 &&& 0b00001111)
  qdCount := be16 buf 4
  anCount := be16 buf 6
  nsCount := be16 buf 8
  arCount := be16 buf 10

/-- The bytes of a header. -/
def headerData (header : FullHeader) : List UInt8 :=
  be16Bytes header.id ++ [flags0 header.toHeader, flags1 header.toHeader] ++
    be16Bytes header.qdCount ++ be16Bytes header.anCount ++ be16Bytes header.nsCount ++
    be16Bytes header.arCount

theorem be_headerData (header : FullHeader) :
    be16 (headerData header) 0 = header.id ∧ be16 (headerData header) 4 = header.qdCount ∧
    be16 (headerData header) 6 = header.anCount ∧ be16 (headerData header) 8 = header.nsCount ∧
    be16 (headerData header) 10 = header.arCount := by
  obtain ⟨hdr, qd, an, ns, ar⟩ := header
  have hid := be16_be16Bytes hdr.id [] ([flags0 hdr, flags1 hdr] ++ be16Bytes qd ++
    be16Bytes an ++ be16Bytes ns ++ be16Bytes ar)
  have hqd := be16_be16Bytes qd (be16Bytes hdr.id ++ [flags0 hdr, flags1 hdr])
    (be16Bytes an ++ be16Bytes ns ++ be16Bytes ar)
  have han := be16_be16Bytes an (be16Bytes hdr.id ++ [flags0 hdr, flags1 hdr] ++ be16Bytes qd)
    (be16Bytes ns ++ be16Bytes ar)
  have hns := be16_be16Bytes ns
    (be16Bytes hdr.id ++ [flags0 hdr, flags1 hdr] ++ be16Bytes qd ++ be16Bytes an) (be16Bytes ar)
  have har := be16_be16Bytes ar (be16Bytes hdr.id ++ [flags0 hdr, flags1 hdr] ++ be16Bytes qd ++
    be16Bytes an ++ be16Bytes ns) []
  exact ⟨hid, hqd, han, hns, har⟩

theorem readsBack_header (header : FullHeader) :
    ReadsBack (fun _ r ↦ r.readHeader) (headerData header) (· = headerOf (headerData header)) := by
  have hdata : ReadsBack (fun _ r ↦ r.read 12) (headerData header) (· = headerData header) :=
    readsBack_read _
  exact hdata.map headerOf fun buf hbuf ↦ congrArg headerOf hbuf

theorem headerOf_headerData {header : FullHeader} (hop : header.op.Canonical)
    (hrcode : header.rcode.Canonical) :
    headerOf (headerData header) = { header with op := .fromU8 (header.op.toU8 <<< 3) } := by
  obtain ⟨hid, hqd, han, hns, har⟩ := be_headerData header
  have hf0 : (headerData header).getD 2 0 = flags0 header.toHeader := rfl
  have hf1 : (headerData header).getD 3 0 = flags1 header.toHeader := rfl
  rw [headerOf, hid, hqd, han, hns, har, hf0, hf1]
  clear hid hqd han hns har hf0 hf1
  obtain ⟨⟨id, qr, op, aa, tc, rd, ra, rcode⟩, qd, an, ns, ar⟩ := header
  obtain ⟨u, rfl⟩ := hop
  obtain ⟨v, rfl⟩ := hrcode
  obtain ⟨hqr, hop, haa, htc, hrd⟩ := flags0_bits qr u aa tc rd
  obtain ⟨hra, hrcode⟩ := flags1_bits v ra
  rw [FullHeader.mk.injEq, Header.mk.injEq]
  exact ⟨⟨rfl, hqr, congrArg OpCode.fromU8 hop, haa, htc, hrd, hra, hrcode⟩, rfl, rfl, rfl, rfl⟩

/-! ## The message -/

/-- Decoding without the check at the end. -/
def readMessage (X : IdnaCrate) (n : ℕ) (r : MsgReader) : Decoded (Message × MsgReader) := do
  let (header, r) ← r.readHeader
  let (question, r) ← readItems (readQuestion X n) header.qdCount.toNat r
  let (answer, r) ← readItems (readResource X n) header.anCount.toNat r
  let (authority, r) ← readItems (readResource X n) header.nsCount.toNat r
  let (additional, r) ← readItems (readResource X n) header.arCount.toNat r
  return (⟨header.toHeader, question, answer, authority, additional⟩, r)

theorem decode_eq_readMessage (X : IdnaCrate) (n : ℕ) (data : List UInt8) :
    Message.decode X n data =
      readMessage X n (.new data) >>= fun x ↦ x.2.finish >>= fun _ ↦ pure x.1 := by
  simp only [Message.decode, readMessage, bind_bind, pure_eq, ok_bind]

theorem steady_readMessage (X : IdnaCrate) : Steady (readMessage X) := by
  have hQ := (reads_readQuestion X).toSteady
  have hR := steady_readResource X
  have hheader : Steady fun _ r ↦ r.readHeader :=
    ((reads_read 12).bind fun buf ↦ reads_pure (headerOf buf)).toSteady
  exact hheader.bind fun header ↦ (steady_readItems hQ header.qdCount.toNat).bind fun qs ↦
    (steady_readItems hR header.anCount.toNat).bind fun as ↦
    (steady_readItems hR header.nsCount.toNat).bind fun ns ↦
    (steady_readItems hR header.arCount.toNat).bind fun ar ↦
      (reads_pure (Message.mk header.toHeader qs as ns ar)).toSteady

theorem fullHeader_eq_ok {m : Message} {header : FullHeader} (h : m.fullHeader = .ok header) :
    header.toHeader = m.header ∧ header.qdCount.toNat = m.question.length ∧
    header.anCount.toNat = m.answer.length ∧ header.nsCount.toNat = m.authority.length ∧
    header.arCount.toNat = m.additional.length := by
  simp only [Message.fullHeader, bind_eq_ok, pure_eq, ok.injEq] at h
  obtain ⟨qd, hqd, an, han, ns, hns, ar, har, rfl⟩ := h
  exact ⟨rfl, toU16_eq_ok hqd, toU16_eq_ok han, toU16_eq_ok hns, toU16_eq_ok har⟩

/-- The parts of a message that hold resource records. -/
inductive Section where
  | answer
  | authority
  | additional

/-- The resource records of a part. -/
def Message.records (m : Message) : Section → List Resource
  | .answer => m.answer
  | .authority => m.authority
  | .additional => m.additional

/-- A message is read back when its items are. -/
theorem roundTrips_message_of {m : Message} {header : FullHeader}
    (hheader : m.fullHeader = .ok header) {Q : Question → Question → Prop}
    {R : Resource → Resource → Prop}
    (hQ : ∀ q ∈ m.question, RoundTrips (writeQuestion X q) (fun n r ↦ r.readQuestion X n) (Q q))
    (hR : ∀ s, ∀ res ∈ m.records s,
      RoundTrips (writeResource X res) (fun n r ↦ r.readResource X n) (R res)) :
    RoundTrips (m.writeMessage X header) (readMessage X) fun m' ↦
      m'.header = (headerOf (headerData header)).toHeader ∧
      List.Forall₂ Q m.question m'.question ∧
      ∀ s, List.Forall₂ R (m.records s) (m'.records s) := by
  obtain ⟨-, hqd, han, hns, har⟩ := fullHeader_eq_ok hheader
  obtain ⟨-, hqd', han', hns', har'⟩ := be_headerData header
  intro w w' h
  obtain ⟨_, w₁, h₁, h⟩ := Encoded.andThen_eq_ok.mp h
  obtain ⟨_, w₂, h₂, h⟩ := Encoded.andThen_eq_ok.mp h
  obtain ⟨_, w₃, h₃, h⟩ := Encoded.andThen_eq_ok.mp h
  obtain ⟨_, w₄, h₄, h₅⟩ := Encoded.andThen_eq_ok.mp h
  have hb₁ : w₁.bytes = w.bytes ++ headerData header := bytes_of_write h₁
  obtain ⟨b₂, hb₂, hread₂⟩ := roundTrips_items hQ w₁ w₂ h₂
  obtain ⟨b₃, hb₃, hread₃⟩ := roundTrips_items (hR .answer) w₂ w₃ h₃
  obtain ⟨b₄, hb₄, hread₄⟩ := roundTrips_items (hR .authority) w₃ w₄ h₄
  obtain ⟨b₅, hb₅, hread₅⟩ := roundTrips_items (hR .additional) w₄ w' h₅
  refine ⟨headerData header ++ (b₂ ++ (b₃ ++ (b₄ ++ b₅))), ?_, ?_⟩
  · rw [hb₅, hb₄, hb₃, hb₂, hb₁]
    simp only [List.append_assoc]
  unfold readMessage
  refine (readsBack_header header).bind fun header' hheader' ↦ ?_
  subst hheader'
  simp only [headerOf, hqd', han', hns', har', hqd, han, hns, har]
  refine hread₂.bind fun question hquestion ↦ ?_
  dsimp only
  refine hread₃.bind fun answer hanswer ↦ ?_
  dsimp only
  refine hread₄.bind fun authority hauthority ↦ ?_
  dsimp only
  refine hread₅.map (fun additional ↦ Message.mk _ question answer authority additional)
    fun additional hadditional ↦ ?_
  refine ⟨rfl, hquestion, ?_⟩
  rintro (_ | _ | _)
  · exact hanswer
  · exact hauthority
  · exact hadditional

theorem Message.Canonical.records {m : Message} (hm : m.Canonical) (s : Section) :
    ∀ res ∈ m.records s, res.Canonical := by
  rcases s with _ | _ | _
  · exact hm.answer
  · exact hm.authority
  · exact hm.additional

theorem roundTrips_message {m : Message} (hm : m.Canonical) {header : FullHeader}
    (hheader : m.fullHeader = .ok header) :
    RoundTrips (m.writeMessage X header) (readMessage X) fun m' ↦
      m'.header = { m.header with op := .fromU8 (m.header.op.toU8 <<< 3) } ∧ m.SameItems m' := by
  refine (roundTrips_message_of hheader (fun q hq ↦ roundTrips_question (hm.question q hq))
    fun s res hres ↦ roundTrips_resource (hm.records s res hres)).imp ?_
  rintro m' ⟨hheader', hquestion, hrecords⟩
  refine ⟨?_, hquestion, hrecords .answer, hrecords .authority, hrecords .additional⟩
  have heq := (fullHeader_eq_ok hheader).1
  have hop : header.op.Canonical := heq ▸ hm.op
  have hrcode : header.rcode.Canonical := heq ▸ hm.rcode
  rw [hheader', headerOf_headerData hop hrcode, ← heq]

/-- What has been encoded is decoded, when all of it is read back. -/
theorem returns_decode_of_roundTrips {m : Message} {P : Message → Prop}
    (hround : ∀ header, m.fullHeader = .ok header →
      RoundTrips (m.writeMessage X header) (readMessage X) P)
    {buf bytes : List UInt8} (h : m.encode X buf = .ok bytes) :
    ∃ m', Returns (fun n ↦ Message.decode X n bytes) m' ∧ P m' := by
  simp only [Message.encode, bind_eq_ok, pure_eq, ok.injEq] at h
  obtain ⟨header, hheader, ⟨⟩, hwrite, rfl⟩ := h
  obtain ⟨bytes, hbytes, hread⟩ := hround header hheader _ _ (Prod.ext hwrite rfl)
  obtain ⟨m', hm', N, hN⟩ := hread [] []
  refine ⟨m', ⟨N, ?_⟩, hm'⟩
  simp only [List.nil_append, List.append_nil, List.length_nil, Nat.zero_add] at hN
  dsimp only
  rw [decode_eq_readMessage, intoBytes, hbytes]
  have hfinish : (MsgReader.mk bytes bytes.length).finish = .ok () := by
    simp [finish, remaining]
  simp only [MsgReader.new, MsgWriter.new, List.nil_append, hN N le_rfl, ok_bind, hfinish, pure_eq]

/-- The items come back, and the header with the operation code in the wrong place. -/
theorem returns_decode_of_encode {m : Message} (hm : m.Canonical) {buf bytes : List UInt8}
    (h : m.encode X buf = .ok bytes) :
    ∃ m', Returns (fun n ↦ Message.decode X n bytes) m' ∧ m.SameItems m' ∧
      m'.header = { m.header with op := .fromU8 (m.header.op.toU8 <<< 3) } := by
  obtain ⟨m', hret, hheader, hitems⟩ :=
    returns_decode_of_roundTrips (fun header ↦ roundTrips_message hm) h
  exact ⟨m', hret, hitems, hheader⟩

theorem OpCode.Canonical.fromU8_shift_eq_iff {op : OpCode} (h : op.Canonical) :
    fromU8 (op.toU8 <<< 3) = op ↔ op = .query := by
  obtain ⟨u, rfl⟩ := h
  exact fromU8_shift_iff u

theorem stable_decode (X : IdnaCrate) (data : List UInt8) :
    Stable fun n ↦ Message.decode X n data := by
  simp only [decode_eq_readMessage]
  exact ((steady_readMessage X).stable _).bind fun _ ↦ stable_const _

/-- Any message that comes back has the operation code in the wrong place. -/
theorem op_of_returns {m m' : Message} (hm : m.Canonical) {buf bytes : List UInt8}
    (h : m.encode X buf = .ok bytes) (hret : Returns (fun n ↦ Message.decode X n bytes) m') :
    m'.header.op = .fromU8 (m.header.op.toU8 <<< 3) := by
  obtain ⟨m'', hret', -, hheader⟩ := returns_decode_of_encode hm h
  obtain rfl := (stable_decode X bytes).returns_unique hret hret'
  rw [hheader]

/-- Decoding what `encode` has returned gives a message that says the same as the encoded one if
and only if that one is a standard query or its response. -/
theorem Message.returns_same_iff {m : Message} (hm : m.Canonical) {buf bytes : List UInt8}
    (h : m.encode X buf = .ok bytes) :
    (∃ m', Returns (fun n ↦ decode X n bytes) m' ∧ m.Same m') ↔ m.header.op = .query := by
  rw [← hm.op.fromU8_shift_eq_iff]
  constructor
  · rintro ⟨m', hret, hsame⟩
    rw [← op_of_returns hm h hret, hsame.header]
  · intro hop
    obtain ⟨m', hret, hitems, hheader⟩ := returns_decode_of_encode hm h
    refine ⟨m', hret, hitems, ?_⟩
    rw [hheader, hop]

/-- A query for the mail servers of a name. -/
def mxQuery (op : OpCode) : Message where
  header := { id := 7, qr := .query, op := op, authoritative := false, truncated := false,
              recursionDesired := true, recursionAvailable := false, rcode := .noError }
  question := [⟨['a', '.', 'b'], .known .mx, .internet⟩]
  answer := []
  authority := []
  additional := []

theorem canonical_mxQuery (u : Fin 16) : (mxQuery (.fromU8 (.ofNat u))).Canonical where
  op := ⟨u, rfl⟩
  rcode := ⟨0, rfl⟩
  question q hq := by
    obtain rfl : q = ⟨['a', '.', 'b'], .known .mx, .internet⟩ := by simpa [mxQuery] using hq
    exact ⟨⟨by decide, by decide⟩, ⟨15, by decide⟩, ⟨1, by decide⟩⟩
  answer res h := absurd h (by simp [mxQuery])
  authority res h := absurd h (by simp [mxQuery])
  additional res h := absurd h (by simp [mxQuery])

/-- The bytes of the query, with the first byte of flags given. -/
def mxQueryBytes (flags : UInt8) : List UInt8 :=
  [0, 7, flags, 0, 0, 1, 0, 0, 0, 0, 0, 0, 1, 97, 1, 98, 0, 0, 15, 0, 1]

theorem encode_mxQuery (u : Fin 16) :
    (mxQuery (.fromU8 (.ofNat u))).encode ⟨some, some⟩ (List.replicate 21 0) =
      .ok (mxQueryBytes ((OpCode.fromU8 (.ofNat u)).toU8 <<< 3 + 1)) := by
  revert u
  decide

theorem Message.returns_same_mxQuery :
    (mxQuery .query).Canonical ∧
    ∃ m', Returns (fun n ↦ decode ⟨some, some⟩ n (mxQueryBytes 1)) m' ∧ (mxQuery .query).Same m' :=
  ⟨canonical_mxQuery 0, (returns_same_iff (canonical_mxQuery 0) (encode_mxQuery 0)).mpr rfl⟩

/-- A status request comes back with the operation code 16. -/
theorem Message.not_returns_same :
    ¬∀ (X : IdnaCrate) (m : Message) (buf bytes : List UInt8), m.Canonical →
      m.encode X buf = .ok bytes →
        ∃ m', Returns (fun n ↦ decode X n bytes) m' ∧ m.Same m' := by
  intro h
  obtain ⟨m', hret, hsame⟩ := h _ _ _ _ (canonical_mxQuery 2) (encode_mxQuery 2)
  have hop := op_of_returns (canonical_mxQuery 2) (encode_mxQuery 2) hret
  rw [hsame.header] at hop
  exact absurd hop (by decide)

end UsnetSockets
