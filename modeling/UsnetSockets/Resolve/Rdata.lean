import UsnetSockets.Resolve.RoundTrip

/-!
# Record data

The encoders of the nine record types of `record.rs` and `Resource::write_rdata`. Each record type
has an encoder and a decoder of its own, and each field has a way to be written and a way to be read
back; a record is read back because its fields are, in the order in which they were written.

Rdata is written into a buffer of its own. A resource that has been decoded reads it in place,
inside of the message, where other bytes stand before it. Since a field is read back wherever it
stands, that makes no difference.
-/

namespace UsnetSockets

open MsgReader MsgWriter Outcome

/-! ## Encoding -/

namespace MsgWriter

/-- Writes an unsigned 16 bit integer in big-endian format. -/
def writeU16 (w : MsgWriter) (data : UInt16) : Encoded Unit := w.write (be16Bytes data)

/-- Writes an unsigned 32 bit integer in big-endian format. -/
def writeU32 (w : MsgWriter) (data : UInt32) : Encoded Unit := w.write (be32Bytes data)

/-- Write a character string: a length octet and that number of bytes. -/
def writeCharacterString (w : MsgWriter) (data : List UInt8) : Encoded Unit :=
  if data.length > 255 then (.err .tooLong, w)
  else (w.writeByte (.ofNat data.length)).andThen fun _ w ↦ w.write data

end MsgWriter

namespace Record

/-- `Record::record_type`. -/
def recordType : Record → RecordKind
  | a .. => .a
  | aaaa .. => .aaaa
  | cname .. => .cname
  | mx .. => .mx
  | ns .. => .ns
  | ptr .. => .ptr
  | soa .. => .soa
  | srv .. => .srv
  | txt .. => .txt

/-- Encodes the record to resource rdata. -/
def encode (X : IdnaCrate) : Record → MsgWriter → Encoded Unit
  | a address, w => w.write address
  | aaaa address, w => w.write (address.flatMap be16Bytes)
  | cname name, w => writeName X name w
  | mx preference exchange, w =>
    (w.writeU16 preference).andThen fun _ w ↦ writeName X exchange w
  | ns name, w => writeName X name w
  | ptr name, w => writeName X name w
  | soa mname rname serial refresh retry expire minimum, w =>
    (writeName X mname w).andThen fun _ w ↦ (writeName X rname w).andThen fun _ w ↦
      (w.writeU32 serial).andThen fun _ w ↦ (w.writeU32 refresh).andThen fun _ w ↦
        (w.writeU32 retry).andThen fun _ w ↦ (w.writeU32 expire).andThen fun _ w ↦
          w.writeU32 minimum
  | srv priority weight port target, w =>
    (w.writeU16 priority).andThen fun _ w ↦ (w.writeU16 weight).andThen fun _ w ↦
      (w.writeU16 port).andThen fun _ w ↦ writeName X target w
  | txt data, w => w.writeCharacterString data

/-- An IPv4 address has four bytes and an IPv6 address eight segments. -/
def WellTyped : Record → Prop
  | a address => address.length = 4
  | aaaa address => address.length = 8
  | _ => True

/-- The names in a record. -/
def names : Record → List Str
  | cname name | ns name | ptr name => [name]
  | mx _ exchange => [exchange]
  | soa mname rname .. => [mname, rname]
  | srv _ _ _ target => [target]
  | _ => []

/-- The record with one final dot behind each of its names. -/
def withDots : Record → Record
  | cname name => cname (dotted name)
  | mx preference exchange => mx preference (dotted exchange)
  | ns name => ns (dotted name)
  | ptr name => ptr (dotted name)
  | soa mname rname serial refresh retry expire minimum =>
    soa (dotted mname) (dotted rname) serial refresh retry expire minimum
  | srv priority weight port target => srv priority weight port (dotted target)
  | rec => rec

end Record

namespace Resource

/-- Encodes resource data from the given record. -/
def writeRdata (X : IdnaCrate) (rec : Record) (res : Resource) : Outcome EncodeError Resource := do
  let (r, w) := rec.encode X (MsgWriter.new (List.replicate messageLimit 0))
  r
  return { res with data := w.intoBytes, offset := 0 }

/-- The rdata is read as the record, up to its end. -/
def ReadsAs (X : IdnaCrate) (k : RecordKind) (rec : Record) (res : Resource) : Prop :=
  ∃ N, ∀ n ≥ N, res.readRdata X n k = .ok rec ∧
    Record.decode X n k (.withOffset res.data res.offset) =
      .ok (rec, ⟨res.data, res.data.length⟩)

end Resource

/-! ## Fields -/

section Fields

variable {α β : Type} {write write₁ write₂ : MsgWriter → Encoded Unit}
  {f : ℕ → MsgReader → Decoded (α × MsgReader)} {a : α}

/-- One field after the other. -/
theorem RoundTrips.andThen {g : ℕ → α × MsgReader → Decoded (β × MsgReader)} {Q : β → Prop}
    (h₁ : RoundTrips write₁ f (· = a)) (h₂ : RoundTrips write₂ (fun n r ↦ g n (a, r)) Q) :
    RoundTrips (fun w ↦ (write₁ w).andThen fun _ w ↦ write₂ w) (fun n r ↦ f n r >>= g n) Q := by
  intro w w' h
  obtain ⟨_, w₁, hfirst, h⟩ := Encoded.andThen_eq_ok.mp h
  obtain ⟨b₁, hb₁, hread₁⟩ := h₁ w w₁ hfirst
  obtain ⟨b₂, hb₂, hread₂⟩ := h₂ w₁ w' h
  refine ⟨b₁ ++ b₂, by rw [hb₂, hb₁, List.append_assoc], ?_⟩
  exact hread₁.bind fun a' ha' ↦ ha' ▸ hread₂

/-- The last field, from which the value is made. -/
theorem RoundTrips.map (h : RoundTrips write f (· = a)) (make : α → β) :
    RoundTrips write (fun n r ↦ f n r >>= fun x ↦ pure (make x.1, x.2)) (· = make a) := by
  intro w w' hw
  obtain ⟨bytes, hbytes, hread⟩ := h w w' hw
  exact ⟨bytes, hbytes, hread.map make fun a' ha' ↦ congrArg make ha'⟩

theorem roundTrips_write (data : List UInt8) :
    RoundTrips (fun w ↦ w.write data) (fun _ r ↦ r.read data.length) (· = data) := by
  intro w w' h
  exact ⟨data, bytes_of_write h, readsBack_read data⟩

theorem roundTrips_byte (b : UInt8) :
    RoundTrips (fun w ↦ w.writeByte b) (fun _ r ↦ r.readByte) (· = b) :=
  (roundTrips_write [b]).map fun buf ↦ buf.getD 0 0

theorem roundTrips_u16 (u : UInt16) :
    RoundTrips (fun w ↦ w.writeU16 u) (fun _ r ↦ r.readU16) (· = u) := by
  have h := (roundTrips_write (be16Bytes u)).map fun buf ↦ be16 buf 0
  have hu := be16_be16Bytes u [] []
  rw [List.nil_append, List.append_nil, List.length_nil] at hu
  rwa [hu] at h

theorem roundTrips_u32 (u : UInt32) :
    RoundTrips (fun w ↦ w.writeU32 u) (fun _ r ↦ r.readU32) (· = u) := by
  have h := (roundTrips_write (be32Bytes u)).map fun buf ↦ be32 buf 0
  have hu := be32_be32Bytes u [] []
  rw [List.nil_append, List.append_nil, List.length_nil] at hu
  rwa [hu] at h

theorem roundTrips_characterString (data : List UInt8) :
    RoundTrips (fun w ↦ w.writeCharacterString data) (fun _ r ↦ r.readCharacterString)
      (· = data) := by
  intro w w' h
  dsimp only at h
  by_cases hlen : data.length > 255
  · rw [writeCharacterString, if_pos hlen] at h
    exact absurd h (by simp)
  rw [writeCharacterString, if_neg hlen] at h
  have hnat : (UInt8.ofNat data.length).toNat = data.length :=
    UInt8.toNat_ofNat_of_lt' (Nat.lt_of_not_le hlen)
  have hdata : RoundTrips (fun w ↦ w.write data)
      (fun _ r ↦ r.read (UInt8.ofNat data.length).toNat) (· = data) := by
    rw [hnat]
    exact roundTrips_write data
  exact (roundTrips_byte (.ofNat data.length)).andThen hdata w w' h

end Fields

/-- The segments of an IPv6 address are read back. -/
theorem be16_flatMap (segs : List UInt16) :
    ((List.range segs.length).map fun i ↦ be16 (segs.flatMap be16Bytes) (2 * i)) = segs := by
  refine List.ext_getElem (by simp) fun i hi _ ↦ ?_
  rw [List.length_map, List.length_range] at hi
  have hpre : ((segs.take i).flatMap be16Bytes).length = 2 * i := by
    have hlen : ∀ l : List UInt16, (l.flatMap be16Bytes).length = 2 * l.length := by
      intro l
      simp [List.length_flatMap, be16Bytes, Nat.mul_comm]
    rw [hlen, List.length_take, Nat.min_eq_left hi.le]
  have hbytes : segs.flatMap be16Bytes = (segs.take i).flatMap be16Bytes ++
      (be16Bytes segs[i] ++ (segs.drop (i + 1)).flatMap be16Bytes) := by
    rw [← List.flatMap_cons, ← List.drop_eq_getElem_cons hi, ← List.flatMap_append,
      List.take_append_drop]
  rw [List.getElem_map, List.getElem_range, hbytes, ← hpre, be16_be16Bytes]

/-! ## Records -/

variable {X : IdnaCrate}

/-- **Records are read back.** What the encoder of a record type writes is read back by its decoder,
wherever it stands. -/
theorem roundTrips_record {rec : Record} (htyped : rec.WellTyped)
    (hnames : ∀ name ∈ rec.names, PlainName name) :
    RoundTrips (rec.encode X) (fun n r ↦ Record.decode X n rec.recordType r)
      (· = rec.withDots) := by
  unfold Record.decode
  rcases rec with address | address | name | ⟨preference, exchange⟩ | name | name |
    ⟨mname, rname, serial, refresh, retry, expire, minimum⟩ | ⟨priority, weight, port, target⟩ |
    data
  · obtain ⟨b₀, b₁, b₂, b₃, rfl⟩ : ∃ b₀ b₁ b₂ b₃, address = [b₀, b₁, b₂, b₃] := by
      rcases address with _ | ⟨b₀, _ | ⟨b₁, _ | ⟨b₂, _ | ⟨b₃, _ | ⟨b₄, rest⟩⟩⟩⟩⟩
      all_goals simp [Record.WellTyped] at htyped ⊢
    exact (roundTrips_write [b₀, b₁, b₂, b₃]).map fun buf ↦
      Record.a [buf.getD 0 0, buf.getD 1 0, buf.getD 2 0, buf.getD 3 0]
  · have hlen : (address.flatMap be16Bytes).length = 16 := by
      rw [List.length_flatMap]
      simp [be16Bytes, show address.length = 8 from htyped]
    have h := (roundTrips_write (address.flatMap be16Bytes)).map fun buf ↦
      Record.aaaa ((List.range 8).map fun i ↦ be16 buf (2 * i))
    have hsegs := be16_flatMap address
    rw [show address.length = 8 from htyped] at hsegs
    rw [hsegs, hlen] at h
    exact h
  · exact (roundTrips_name (hnames name (by simp [Record.names]))).map Record.cname
  · exact (roundTrips_u16 preference).andThen
      ((roundTrips_name (hnames exchange (by simp [Record.names]))).map (Record.mx preference))
  · exact (roundTrips_name (hnames name (by simp [Record.names]))).map Record.ns
  · exact (roundTrips_name (hnames name (by simp [Record.names]))).map Record.ptr
  · exact (roundTrips_name (hnames mname (by simp [Record.names]))).andThen
      ((roundTrips_name (hnames rname (by simp [Record.names]))).andThen
        ((roundTrips_u32 serial).andThen ((roundTrips_u32 refresh).andThen
          ((roundTrips_u32 retry).andThen ((roundTrips_u32 expire).andThen
            ((roundTrips_u32 minimum).map
              (Record.soa (dotted mname) (dotted rname) serial refresh retry expire)))))))
  · exact (roundTrips_u16 priority).andThen ((roundTrips_u16 weight).andThen
      ((roundTrips_u16 port).andThen
        ((roundTrips_name (hnames target (by simp [Record.names]))).map
          (Record.srv priority weight port))))
  · exact (roundTrips_characterString data).map Record.txt

/-! ## Resources -/

/-- Rdata that is read back wherever it stands is read back from a resource. -/
theorem Resource.readsAs_of_getRdata {k : RecordKind} {rec : Record} {res : Resource}
    {rdata : List UInt8} (hrdata : res.getRdata = .ok rdata)
    (hread : ReadsBack (fun n r ↦ Record.decode X n k r) rdata (· = rec)) :
    res.ReadsAs X k rec := by
  rw [getRdata] at hrdata
  by_cases hle : res.offset ≤ res.data.length
  swap
  · rw [if_neg hle] at hrdata
    exact absurd hrdata (by simp)
  rw [if_pos hle, ok.injEq] at hrdata
  have hdata : res.data.take res.offset ++ (rdata ++ []) = res.data := by
    rw [List.append_nil, ← hrdata, List.take_append_drop]
  have hoffset : (res.data.take res.offset).length = res.offset := by
    rw [List.length_take, Nat.min_eq_left hle]
  have hend : res.offset + rdata.length = res.data.length := by
    rw [← hrdata, List.length_drop]
    omega
  obtain ⟨rec', rfl, N, hN⟩ := hread (res.data.take res.offset) []
  rw [hdata, hoffset, hend] at hN
  dsimp only at hN
  refine ⟨N, fun n hn ↦ ⟨?_, hN n hn⟩⟩
  rw [readRdata, withOffset, hN n hn, ok_bind]
  simp [finish, remaining]

theorem Resource.writeRdata_eq_ok_iff {rec : Record} {res res' : Resource} :
    res.writeRdata X rec = .ok res' ↔
      ∃ w', rec.encode X (.new (List.replicate messageLimit 0)) = (.ok (), w') ∧
        res' = { res with data := w'.bytes, offset := 0 } := by
  rw [writeRdata]
  generalize rec.encode X (.new (List.replicate messageLimit 0)) = x
  obtain ⟨r, w⟩ := x
  simp only [bind_eq_ok, pure_eq, ok.injEq, Prod.mk.injEq]
  constructor
  · rintro ⟨⟨⟩, hr, rfl⟩
    exact ⟨w, ⟨hr, rfl⟩, rfl⟩
  · rintro ⟨w', ⟨hr, rfl⟩, rfl⟩
    exact ⟨(), hr, rfl⟩

/-! ## Messages -/

/-- Wherever the name is written, the reader gets to its end. -/
def NameDecodes (X : IdnaCrate) (name : Str) : Prop :=
  RoundTrips (writeName X name) (fun n r ↦ r.readName X n) fun _ ↦ True

/-- The questions and the other resources of the message decode: wherever one of them is written,
the reader gets to its end. -/
structure Message.OthersDecode (X : IdnaCrate) (m : Message) (res : Resource) : Prop where
  question : ∀ q ∈ m.question,
    RoundTrips (writeQuestion X q) (fun n r ↦ r.readQuestion X n) fun _ ↦ True
  resource : ∀ s, ∀ other ∈ m.records s, other ≠ res →
    RoundTrips (writeResource X other) (fun n r ↦ r.readResource X n) fun _ ↦ True

theorem exists_getElem?_of_forall₂ {α β : Type} {R : α → β → Prop} {xs : List α} {ys : List β}
    (h : List.Forall₂ R xs ys) {i : ℕ} {x : α} (hx : xs[i]? = some x) :
    ∃ y, ys[i]? = some y ∧ R x y := by
  induction h generalizing i with
  | nil => exact absurd hx (by simp)
  | @cons x' y' xs ys hxy _ ih =>
    rcases i with _ | i
    · obtain rfl : x' = x := by simpa using hx
      exact ⟨y', rfl, hxy⟩
    · exact ih (by simpa using hx)

/-- The rdata of a resource is the same in the message that is decoded. -/
theorem Message.exists_getRdata {m : Message} {res : Resource} {s : Section} {i : ℕ}
    (hres : (m.records s)[i]? = some res) (hname : NameDecodes X res.name)
    (hothers : m.OthersDecode X res) {buf bytes : List UInt8} (h : m.encode X buf = .ok bytes) :
    ∃ m' res', Returns (fun n ↦ decode X n bytes) m' ∧ (m'.records s)[i]? = some res' ∧
      res'.getRdata = res.getRdata := by
  have hR (s : Section) (other : Resource) (hother : other ∈ m.records s) :
      RoundTrips (writeResource X other) (fun n r ↦ r.readResource X n) fun res' ↦
        other = res → res'.getRdata = res.getRdata := by
    by_cases heq : other = res
    · subst heq
      exact (roundTrips_resource_of hname).imp fun res' h _ ↦ h.2.2.2.2
    · exact (hothers.resource s other hother heq).imp fun _ _ hno ↦ absurd hno heq
  obtain ⟨m', hret, hrecords⟩ := returns_decode_of_roundTrips
    (fun header hheader ↦ (roundTrips_message_of hheader hothers.question hR).imp
      fun m' hm' ↦ hm'.2.2) h
  obtain ⟨res', hres', hsame⟩ := exists_getElem?_of_forall₂ (hrecords s) hres
  exact ⟨m', res', hret, hres', hsame rfl⟩

/-- **Record data is read back.** The rdata that `write_rdata` has written is read back as the same
record, with one final dot behind each name, and up to its end: from the resource itself, and from
what becomes of it in a message that is encoded and decoded. -/
theorem Resource.writeRdata_readRdata {rec : Record} (htyped : rec.WellTyped)
    (hnames : ∀ name ∈ rec.names, PlainName name) {res₀ res : Resource}
    (h : res₀.writeRdata X rec = .ok res) :
    res.ReadsAs X rec.recordType rec.withDots ∧
    ∀ (m : Message) (s : Section) (i : ℕ), (m.records s)[i]? = some res → NameDecodes X res.name →
      m.OthersDecode X res → ∀ buf bytes, m.encode X buf = .ok bytes →
        ∃ m' res', Returns (fun n ↦ Message.decode X n bytes) m' ∧ (m'.records s)[i]? = some res' ∧
          res'.ReadsAs X rec.recordType rec.withDots := by
  obtain ⟨w', hencode, rfl⟩ := writeRdata_eq_ok_iff.mp h
  obtain ⟨bytes, hbytes, hread⟩ := roundTrips_record htyped hnames _ _ hencode
  obtain rfl : w'.bytes = bytes := hbytes
  have hrdata : getRdata { res₀ with data := w'.bytes, offset := 0 } = .ok w'.bytes := rfl
  refine ⟨readsAs_of_getRdata hrdata hread, ?_⟩
  intro m s i hres hname hothers buf bytes hencoded
  obtain ⟨m', res', hret, hres', hsame⟩ := Message.exists_getRdata hres hname hothers hencoded
  exact ⟨m', res', hret, hres', readsAs_of_getRdata (hsame.trans hrdata) hread⟩

/-- An alias of the root. -/
def aliasResource (data : List UInt8) : Resource where
  name := ['.']
  rType := .known .cname
  rClass := .internet
  ttl := 60
  data := data
  offset := 0

/-- A response with the alias. -/
def aliasResponse : Message where
  header := { id := 7, qr := .response, op := .query, authoritative := false, truncated := false,
              recursionDesired := true, recursionAvailable := true, rcode := .noError }
  question := [⟨['.'], .known .cname, .internet⟩]
  answer := [aliasResource [1, 97, 0]]
  authority := []
  additional := []

theorem writeName_alias {buf : List UInt8} (h : 3 ≤ buf.length) :
    writeName ⟨some, some⟩ ['a'] (.new buf) = (.ok (), MsgWriter.append (.new buf) [1, 97, 0]) :=
  (writeName_eq_ok_iff (by decide)).mpr
    ⟨by decide, [[97]], .cons rfl .nil, by decide, ⟨h, (by decide : 0 + 3 ≤ messageLimit)⟩, rfl⟩

theorem writeRdata_alias :
    (aliasResource []).writeRdata ⟨some, some⟩ (.cname ['a']) = .ok (aliasResource [1, 97, 0]) := by
  have hbuf : 3 ≤ (List.replicate messageLimit (0 : UInt8)).length := by
    rw [List.length_replicate]
    decide
  exact Resource.writeRdata_eq_ok_iff.mpr ⟨_, writeName_alias hbuf, rfl⟩

theorem Resource.writeRdata_readRdata_alias :
    (aliasResource [1, 97, 0]).ReadsAs ⟨some, some⟩ .cname (.cname ['a', '.']) ∧
    ∃ bytes m' res', aliasResponse.encode ⟨some, some⟩ (List.replicate 31 0) = .ok bytes ∧
      Returns (fun n ↦ Message.decode ⟨some, some⟩ n bytes) m' ∧ m'.answer[0]? = some res' ∧
      res'.ReadsAs ⟨some, some⟩ .cname (.cname ['a', '.']) := by
  have hroot : PlainName ['.'] := ⟨by decide, by decide⟩
  have htyped : (Record.cname ['a']).WellTyped := trivial
  have hnames : ∀ name ∈ (Record.cname ['a']).names, PlainName name := by
    intro name hname
    obtain rfl : name = ['a'] := by simpa [Record.names] using hname
    exact ⟨by decide, by decide⟩
  have hname : NameDecodes ⟨some, some⟩ ['.'] := (roundTrips_name hroot).imp fun _ _ ↦ trivial
  have hothers : aliasResponse.OthersDecode ⟨some, some⟩ (aliasResource [1, 97, 0]) := by
    refine ⟨fun q hq ↦ ?_, ?_⟩
    · obtain rfl : q = ⟨['.'], .known .cname, .internet⟩ := by simpa [aliasResponse] using hq
      exact (roundTrips_question_of (q := ⟨['.'], _, _⟩) hname).imp fun _ _ ↦ trivial
    · rintro (_ | _ | _) other hother hne
      · exact absurd (by simpa [Message.records, aliasResponse] using hother) hne
      · exact absurd hother (by simp [Message.records, aliasResponse])
      · exact absurd hother (by simp [Message.records, aliasResponse])
  have hencode : aliasResponse.encode ⟨some, some⟩ (List.replicate 31 0) =
      .ok [0, 7, 0x81, 0x80, 0, 1, 0, 1, 0, 0, 0, 0, 0, 0, 5, 0, 1,
        0, 0, 5, 0, 1, 0, 0, 0, 60, 0, 3, 1, 97, 0] := by decide
  obtain ⟨hself, hmessage⟩ := writeRdata_readRdata htyped hnames writeRdata_alias
  obtain ⟨m', res', hret, hres', hreads⟩ :=
    hmessage aliasResponse .answer 0 rfl hname hothers _ _ hencode
  exact ⟨hself, _, m', res', hencode, hret, hres', hreads⟩

end UsnetSockets
