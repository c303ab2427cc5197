import UsnetSockets.Resolve.RoundTrip

/-!
# Which names can be written

For names in ASCII without internationalized labels `write_name` accepts exactly the root and the
sequences of labels, with or without a final dot, whose encoding is at most 255 bytes long, and
`read_name` gets them back with a final dot.

The writer counts the length differently for the two spellings of a name: a final dot makes an empty
last part, which stands for the zero byte at the end, and otherwise the zero byte is added.
-/

namespace UsnetSockets

open MsgReader MsgWriter

/-- The root, or labels of 1 to 63 bytes with single dots between them and possibly one at the end,
whose encoding is at most 255 bytes long. -/
def AcceptableName (name : Str) : Prop :=
  name = ['.'] ∨ ∃ labels : List Str, labels ≠ [] ∧
    (name = ['.'].intercalate labels ∨ name = ['.'].intercalate labels ++ ['.']) ∧
    (∀ l ∈ labels, 1 ≤ (utf8 l).length ∧ (utf8 l).length ≤ 63 ∧ isValidSegment l = true) ∧
    (labels.map fun l ↦ 1 + (utf8 l).length).sum + 1 ≤ 255

/-- The number of bytes that the name takes in a message. -/
def encodedLength (name : Str) : ℕ := if name = ['.'] then 1 else (utf8 (dotted name)).length + 1

/-! ## Names and their labels -/

theorem isValidName_of_parts {name : Str} (hne : name ≠ [])
    (hparts : ∀ a b, name.splitOn '.' = a ++ [] :: b → b = []) : isValidName name = true := by
  have hfirst (rest : Str) : ('.' :: rest).splitOn '.' = [] :: rest.splitOn '.' :=
    List.splitOn_append_cons_self [] rest
  have hhead : name.head? ≠ some '.' := by
    intro hhead
    obtain ⟨rest, rfl⟩ := List.head?_eq_some_iff.mp hhead
    exact List.splitOn_ne_nil '.' rest (hparts [] _ (hfirst rest))
  have hdots : ¬['.', '.'] <:+: name := by
    rintro ⟨a, b, rfl⟩
    have hsplit : (a ++ ['.', '.'] ++ b).splitOn '.' = a.splitOn '.' ++ [] :: b.splitOn '.' := by
      rw [← hfirst b, ← List.splitOn_append_cons_self]
      simp
    exact List.splitOn_ne_nil '.' b (hparts _ _ hsplit)
  simp [isValidName, hhead, hdots, utf8_eq_nil_iff, hne]

theorem eq_nil_of_append_eq {ls a b tail : List Str} (hls : [] ∉ ls)
    (htail : tail = [] ∨ tail = [[]]) (h : ls ++ tail = a ++ [] :: b) : b = [] := by
  by_contra hb
  obtain ⟨b', l, rfl⟩ := (List.eq_nil_or_concat' b).resolve_left hb
  rcases htail with rfl | rfl
  · rw [List.append_nil] at h
    exact hls (by rw [h]; simp)
  · rw [← List.cons_append, ← List.append_assoc] at h
    exact hls (by rw [(List.append_inj' h rfl).1]; simp)

theorem length_dotsOf (ls : List Str) :
    (dotsOf ls).length = (ls.map fun l ↦ 1 + l.length).sum := by
  simp [dotsOf, List.length_flatMap, Nat.add_comm]

/-- The final dot of a name counts for the zero byte at the end. -/
theorem length_wireBytes (name : Str) :
    (wireBytes name ((name.splitOn '.').map fun l ↦ l.map fun c ↦ .ofNat c.toNat)).length =
      (dotted name).length + 1 := by
  have hsplit := congrArg List.length (dotsOf_splitOn name)
  rw [length_dotsOf, List.length_append, List.length_singleton] at hsplit
  rw [wireBytes, wireLabels_map, List.length_append, List.length_flatMap]
  simp only [length_wireLabel, hsplit, dotted]
  split <;> simp

variable {X : IdnaCrate}

theorem isAscii_dotted {name : Str} (h : isAscii name = true) : isAscii (dotted name) = true := by
  rw [dotted]
  split
  · exact h
  · rw [isAscii, List.all_append, Bool.and_eq_true]
    exact ⟨h, by decide⟩

theorem acceptableName_of_writeName {name : Str} {w w' : MsgWriter} (hplain : PlainName name)
    (h : writeName X name w = (.ok (), w')) : AcceptableName name := by
  by_cases hroot : name = ['.']
  · exact Or.inl hroot
  obtain ⟨hvalid, -⟩ := (writeName_eq_ok_iff hroot).mp h
  obtain ⟨hne, -⟩ := head_ne_dot hvalid hroot
  obtain ⟨ls, -, hls, hlen, hname⟩ := bytes_of_writeName hplain h
  have hlsne : ls ≠ [] := by
    rintro rfl
    rw [dotted] at hname
    split at hname
    · exact hroot hname.symm
    · have hnil : name ++ ['.'] = [] ++ ['.'] := hname.symm
      exact hne (List.append_cancel_right hnil)
  rw [nameOf, if_neg (by simpa using hlsne), dotsOf_eq_intercalate hlsne, dotted] at hname
  have hbytes (l : Str) (hl : l ∈ ls) : (utf8 l).length = l.length :=
    length_utf8_of_isAscii (hls l hl).ascii
  refine Or.inr ⟨ls, hlsne, ?_, fun l hl ↦ ?_, ?_⟩
  · split at hname
    · exact Or.inr hname.symm
    · exact Or.inl (List.append_cancel_right hname).symm
  · rw [hbytes l hl]
    exact ⟨List.length_pos_iff.mpr (hls l hl).ne_nil, (hls l hl).length_le, (hls l hl).valid⟩
  · rw [List.map_congr_left fun l hl ↦ by rw [hbytes l hl]]
    rw [wireName, List.length_append, List.length_flatMap, nameLimit] at hlen
    simpa using hlen

theorem splitOn_of_labels {name : Str} {labels : List Str} (hne : labels ≠ [])
    (hlabels : ∀ l ∈ labels, '.' ∉ l)
    (hname : name = ['.'].intercalate labels ∨ name = ['.'].intercalate labels ++ ['.']) :
    ∃ tail, (tail = [] ∨ tail = [[]]) ∧ name.splitOn '.' = labels ++ tail := by
  have hsplit := List.splitOn_intercalate '.' hlabels hne
  rcases hname with rfl | rfl
  · exact ⟨[], Or.inl rfl, by rw [hsplit, List.append_nil]⟩
  · refine ⟨[[]], Or.inr rfl, ?_⟩
    rw [List.splitOn_append_cons_self, hsplit]
    rfl

section Labels

variable {name : Str} {labels tail : List Str}

theorem mem_labels_or_eq_nil (htail : tail = [] ∨ tail = [[]])
    (hsplit : name.splitOn '.' = labels ++ tail) {part : Str} (h : part ∈ name.splitOn '.') :
    part ∈ labels ∨ part = [] := by
  rw [hsplit, List.mem_append] at h
  refine h.imp_right fun h ↦ ?_
  rcases htail with rfl | rfl
  · exact absurd h List.not_mem_nil
  · exact List.mem_singleton.mp h

theorem isValidName_of_labels (hne : labels ≠ []) (hnil : [] ∉ labels)
    (htail : tail = [] ∨ tail = [[]]) (hsplit : name.splitOn '.' = labels ++ tail) :
    isValidName name = true := by
  refine isValidName_of_parts ?_ fun a b hab ↦ eq_nil_of_append_eq hnil htail (hsplit ▸ hab)
  rintro rfl
  obtain ⟨l, hl⟩ := List.exists_mem_of_ne_nil labels hne
  have hmem : l ∈ ([] : Str).splitOn '.' := by
    rw [hsplit]
    exact List.mem_append_left _ hl
  obtain rfl : l = [] := by simpa using hmem
  exact hnil hl

theorem length_dotted_le (hne : labels ≠ [])
    (hname : name = ['.'].intercalate labels ∨ name = ['.'].intercalate labels ++ ['.']) :
    (dotted name).length ≤ (dotsOf labels).length := by
  rw [dotsOf_eq_intercalate hne, dotted]
  rcases hname with rfl | rfl
  · split <;> simp
  · simp

end Labels

theorem exists_writeName_of_acceptableName {name : Str} {w : MsgWriter} (hplain : PlainName name)
    (hroom : w.HasRoom (encodedLength name)) (h : AcceptableName name) :
    ∃ w', writeName X name w = (.ok (), w') := by
  by_cases hroot : name = ['.']
  · subst hroot
    exact ⟨_, writeName_root_eq_ok_iff.mpr ⟨hroom, rfl⟩⟩
  obtain ⟨labels, hne, hname, hlabels, hlen⟩ := h.resolve_left hroot
  obtain ⟨tail, htail, hsplit⟩ := splitOn_of_labels hne
    (fun l hl ↦ not_mem_of_isValidSegment (hlabels l hl).2.2) hname
  have hnil : [] ∉ labels := fun hno ↦ absurd (hlabels [] hno).1 (by decide)
  have hvalid := isValidName_of_labels hne hnil htail hsplit
  have hascii (l : Str) (hl : l ∈ name.splitOn '.') := isAscii_of_mem_splitOn hplain.ascii hl
  have hparts (l : Str) (hl : l ∈ name.splitOn '.') :
      isValidSegment l = true ∧ l.length ≤ labelLimit := by
    rcases mem_labels_or_eq_nil htail hsplit hl with hmem | rfl
    · rw [← length_utf8_of_isAscii (hascii l hl)]
      exact ⟨(hlabels l hmem).2.2, (hlabels l hmem).2.1⟩
    · decide
  have hgives := (givesLabels_iff (X := X) hascii).mpr ⟨rfl, hparts⟩
  have hlength := length_wireBytes name
  rw [encodedLength, if_neg hroot, length_utf8_of_isAscii (isAscii_dotted hplain.ascii),
    ← hlength] at hroom
  refine ⟨_, (writeName_eq_ok_iff hroot).mpr ⟨hvalid, _, hgives, ?_, hroom, rfl⟩⟩
  have hsum : (labels.map fun l ↦ 1 + l.length).sum + 1 ≤ 255 := by
    have hbytes (l : Str) (hl : l ∈ labels) : 1 + l.length = 1 + (utf8 l).length := by
      have hmem : l ∈ name.splitOn '.' := by
        rw [hsplit]
        exact List.mem_append_left _ hl
      rw [length_utf8_of_isAscii (hascii l hmem)]
    rwa [List.map_congr_left hbytes]
  have hdotted := length_dotted_le hne hname
  rw [length_dotsOf] at hdotted
  rw [hlength, nameLimit]
  omega

/-! ## The two directions -/

/-- **Names that can be written, and read back.** A name that has been written is read back with one
final dot, up to where the writer has stopped; with enough room, the names that can be written are
the acceptable ones. -/
theorem writeName_readName {name : Str} (hplain : PlainName name) (w : MsgWriter) :
    (∀ w', writeName X name w = (.ok (), w') → ∀ rest, ∃ N, ∀ n ≥ N,
      readName X n ⟨w'.bytes ++ rest, w.written⟩ =
        .ok (dotted name, ⟨w'.bytes ++ rest, w'.written⟩)) ∧
    (w.HasRoom (encodedLength name) →
      ((∃ w', writeName X name w = (.ok (), w')) ↔ AcceptableName name)) := by
  refine ⟨fun w' h rest ↦ ?_, fun hroom ↦ ⟨?_, exists_writeName_of_acceptableName hplain hroom⟩⟩
  · obtain ⟨bytes, hbytes, hread⟩ := roundTrips_name hplain w w' h
    obtain ⟨name', rfl, N, hN⟩ := hread w.bytes rest
    refine ⟨N, fun n hn ↦ ?_⟩
    rw [written, written, hbytes, List.append_assoc, List.length_append]
    exact hN n hn
  · rintro ⟨w', h⟩
    exact acceptableName_of_writeName hplain h

theorem writeName_readName_two :
    PlainName ['a', '.', 'b'] ∧
    ∃ w', writeName ⟨some, some⟩ ['a', '.', 'b'] ⟨[7], [0, 0, 0, 0, 0]⟩ = (.ok (), w') ∧
      ∃ N, ∀ n ≥ N, readName ⟨some, some⟩ n ⟨w'.bytes ++ [9], 1⟩ =
        .ok (['a', '.', 'b', '.'], ⟨w'.bytes ++ [9], w'.written⟩) := by
  have hplain : PlainName ['a', '.', 'b'] := ⟨by decide, by decide⟩
  have hroom : (MsgWriter.mk [7] [0, 0, 0, 0, 0]).HasRoom (encodedLength ['a', '.', 'b']) := by
    unfold HasRoom
    decide
  obtain ⟨hread, hiff⟩ :=
    writeName_readName (X := ⟨some, some⟩) hplain (MsgWriter.mk [7] [0, 0, 0, 0, 0])
  obtain ⟨w', hw'⟩ := (hiff hroom).mpr
    (Or.inr ⟨[['a'], ['b']], by decide, Or.inl (by decide), by decide, by decide⟩)
  exact ⟨hplain, w', hw', hread w' hw' [9]⟩

end UsnetSockets
