import UsnetSockets.Net.Addr
import UsnetSockets.Resolve.NameAccept

/-!
# The names of addresses

`address_name` of `address.rs`: the domain name under which the host name of an address is looked
up. The bytes of an IPv4 address are written in decimal, and the half bytes of an IPv6 address in
hexadecimal, the last one first.

Two addresses never have the same name, and the names are such that a question for one can always be
written, and is read back as it was.
-/

namespace UsnetSockets

/-- A byte as `{}` writes it. -/
def decimal (n : UInt8) : Str := Nat.toDigits 10 n.toNat

/-- Half a byte as `{:x}` writes it. -/
def hexDigit (n : UInt16) : Str := Nat.toDigits 16 n.toNat

/-- The half bytes of a segment, the last one first. -/
def nibbles (s : UInt16) : List UInt16 :=
  [s &&& 0xf, (s &&& 0x00f0) >>> 4, (s &&& 0x0f00) >>> 8, (s &&& 0xf000) >>> 12]

/-- The labels of the name of an address. -/
def addressLabels : IpAddr → List Str
  | .v4 a b c d => [d, c, b, a].map decimal ++ ["in-addr".toList, "arpa".toList]
  | .v6 a b c d e f g h =>
    ([h, g, f, e, d, c, b, a].flatMap nibbles).map hexDigit ++ ["ip6".toList, "arpa".toList]

/-- Returns an IP address formatted as a domain name. -/
def addressName (addr : IpAddr) : Str := ['.'].intercalate (addressLabels addr)

example : addressName (.v4 192 0 2 5) = "5.2.0.192.in-addr.arpa".toList := by decide

example : addressName (.v6 0x2001 0xdb8 0 0 0 0 0x567 0x89ab) =
    "b.a.9.8.7.6.5.0.0.0.0.0.0.0.0.0.0.0.0.0.0.0.0.0.8.b.d.0.1.0.0.2.ip6.arpa".toList := by decide

/-! ## The labels -/

/-- Characters from the digits on, which are none of those that a label must not have. -/
theorem plainLabel_of_le {l : Str} (hne : l ≠ []) (hlen : l.length ≤ labelLimit)
    (h : ∀ c ∈ l, 48 ≤ c.toNat ∧ c.toNat < 127) : PlainLabel l := by
  have hdash : '-' ∉ l := fun hmem ↦ absurd (h _ hmem).1 (by decide)
  refine ⟨hne, hlen, ?_, ?_, ?_⟩
  · rw [isValidSegment, Bool.and_eq_true]
    constructor
    · have hhead : l.head? ≠ some '-' := fun hh ↦ hdash (List.mem_of_mem_head? hh)
      have hlast : l.getLast? ≠ some '-' := fun hh ↦ hdash (List.mem_of_mem_getLast? hh)
      simp [hhead, hlast]
    · rw [List.all_eq_true]
      intro c hc
      obtain ⟨hlow, hhigh⟩ := h c hc
      have hdot : c ≠ '.' := fun hh ↦ absurd (hh ▸ hlow) (by decide)
      simp only [isWhitespace, isControl, Bool.not_eq_true', Bool.or_eq_false_iff,
        Bool.and_eq_false_iff, decide_eq_false_iff_not, beq_eq_false_iff_ne]
      refine ⟨⟨by simpa using hdot, ?_⟩, ?_⟩ <;> omega
  · rw [isAscii, List.all_eq_true]
    intro c hc
    have := (h c hc).2
    simp only [decide_eq_true_eq]
    omega
  · intro hpre
    exact hdash (hpre.subset (by decide))

theorem mem_decimal {n : UInt8} {c : Char} (hc : c ∈ decimal n) :
    48 ≤ c.toNat ∧ c.toNat < 127 := by
  have hdigit := Nat.isDigit_of_mem_toDigits (by decide) (by decide) hc
  rw [Char.isDigit_iff_toNat] at hdigit
  exact ⟨hdigit.1, hdigit.2.trans_lt (by decide)⟩

theorem length_decimal_le (n : UInt8) : (decimal n).length ≤ 3 :=
  (Nat.length_toDigits_le_iff (by decide) (by decide)).mpr (n.toNat_lt.trans (by decide))

theorem decimal_injective : Function.Injective decimal := by
  intro m n h
  have hvalue := congrArg (Nat.ofDigitChars 10 · 0) h
  simp only [decimal, Nat.ofDigitChars_ten_toDigits] at hvalue
  exact UInt8.toNat_inj.mp hvalue

@[simp] theorem length_nibbles (s : UInt16) : (nibbles s).length = 4 := rfl

/-- The half bytes are the digits to the base 16. -/
theorem toNat_nibbles (s : UInt16) : (nibbles s).map UInt16.toNat =
    [s.toNat % 16, s.toNat / 16 % 16, s.toNat / 256 % 16, s.toNat / 4096 % 16] := by
  have h (k : ℕ) : (s.toNat &&& (15 <<< k)) >>> k = s.toNat / 2 ^ k % 16 := by
    rw [Nat.shiftRight_and_distrib, Nat.shiftLeft_shiftRight, Nat.shiftRight_eq_div_pow]
    exact Nat.and_two_pow_sub_one_eq_mod _ 4
  have hzero : (s &&& 0xf).toNat = s.toNat % 16 := Nat.and_two_pow_sub_one_eq_mod s.toNat 4
  have hfour : ((s &&& 0x00f0) >>> 4).toNat = s.toNat / 16 % 16 := h 4
  have height : ((s &&& 0x0f00) >>> 8).toNat = s.toNat / 256 % 16 := h 8
  have htwelve : ((s &&& 0xf000) >>> 12).toNat = s.toNat / 4096 % 16 := h 12
  simp only [nibbles, List.map_cons, List.map_nil, hzero, hfour, height, htwelve]

theorem lt_of_mem_nibbles {s n : UInt16} (h : n ∈ nibbles s) : n.toNat < 16 := by
  have hmem : n.toNat ∈ (nibbles s).map UInt16.toNat := List.mem_map_of_mem h
  rw [toNat_nibbles] at hmem
  simp only [List.mem_cons, List.not_mem_nil, or_false] at hmem
  omega

/-- A segment is given by its half bytes. -/
theorem nibbles_injective : Function.Injective nibbles := by
  intro s t h
  have hdigits := congrArg (List.map UInt16.toNat) h
  rw [toNat_nibbles, toNat_nibbles] at hdigits
  simp only [List.cons.injEq, and_true] at hdigits
  have hs := s.toNat_lt
  have ht := t.toNat_lt
  rw [← UInt16.toNat_inj]
  omega

private theorem digitChar_bounds (m : Fin 16) :
    48 ≤ (Nat.digitChar m).toNat ∧ (Nat.digitChar m).toNat < 127 := by
  revert m
  decide

private theorem digitChar_injective : Function.Injective fun m : Fin 16 ↦ Nat.digitChar m := by
  unfold Function.Injective
  decide

/-- What is written for half a byte, which is one character. -/
theorem hexDigit_spec {m : UInt16} (hm : m.toNat < 16) : (hexDigit m).length = 1 ∧
    (∀ c ∈ hexDigit m, 48 ≤ c.toNat ∧ c.toNat < 127) ∧
    ∀ n : UInt16, n.toNat < 16 → hexDigit m = hexDigit n → m = n := by
  rw [hexDigit, Nat.toDigits_of_lt_base hm]
  refine ⟨rfl, fun c hc ↦ ?_, fun n hn h ↦ ?_⟩
  · rw [List.mem_singleton.mp hc]
    exact digitChar_bounds ⟨m.toNat, hm⟩
  · rw [hexDigit, Nat.toDigits_of_lt_base hn, List.cons.injEq] at h
    have hfin := @digitChar_injective ⟨m.toNat, hm⟩ ⟨n.toNat, hn⟩ h.1
    exact UInt16.toNat_inj.mp (Fin.mk.inj hfin)

/-- The half bytes of all segments of an address. -/
theorem mem_flatMap_nibbles {segs : List UInt16} {n : UInt16} (h : n ∈ segs.flatMap nibbles) :
    n.toNat < 16 := by
  obtain ⟨s, -, hs⟩ := List.mem_flatMap.mp h
  exact lt_of_mem_nibbles hs

theorem flatMap_nibbles_injective :
    Function.Injective fun segs : List UInt16 ↦ segs.flatMap nibbles := by
  intro ss ts h
  induction ss generalizing ts with
  | nil =>
    rcases ts with _ | ⟨t, ts⟩
    · rfl
    · exact absurd h (by simp [nibbles])
  | cons s ss ih =>
    rcases ts with _ | ⟨t, ts⟩
    · exact absurd h (by simp [nibbles])
    · obtain ⟨hs, hss⟩ := List.append_inj (show nibbles s ++ ss.flatMap nibbles =
        nibbles t ++ ts.flatMap nibbles from h) rfl
      rw [nibbles_injective hs, ih hss]

theorem map_hexDigit_inj {ms ns : List UInt16} (hm : ∀ m ∈ ms, m.toNat < 16)
    (hn : ∀ n ∈ ns, n.toNat < 16) (h : ms.map hexDigit = ns.map hexDigit) : ms = ns := by
  induction ms generalizing ns with
  | nil => exact (List.map_eq_nil_iff.mp h.symm).symm
  | cons m ms ih =>
    rcases ns with _ | ⟨n, ns⟩
    · exact absurd h (by simp)
    · rw [List.forall_mem_cons] at hm hn
      rw [List.map_cons, List.map_cons, List.cons.injEq] at h
      rw [(hexDigit_spec hm.1).2.2 n hn.1 h.1, ih hm.2 hn.2 h.2]

theorem addressLabels_injective : Function.Injective addressLabels := by
  intro x y h
  cases x with
  | v4 a b c d =>
    cases y with
    | v4 a' b' c' d' =>
      obtain ⟨hnum, -⟩ := List.append_inj' h rfl
      have hbytes := List.map_injective_iff.mpr decimal_injective hnum
      simp only [List.cons.injEq, and_true] at hbytes
      obtain ⟨rfl, rfl, rfl, rfl⟩ := hbytes
      rfl
    | v6 a' b' c' d' e' f' g' h' =>
      exact absurd (congrArg List.length h) (by simp [addressLabels])
  | v6 a b c d e f g k =>
    cases y with
    | v4 a' b' c' d' =>
      exact absurd (congrArg List.length h) (by simp [addressLabels])
    | v6 a' b' c' d' e' f' g' k' =>
      obtain ⟨hnum, -⟩ := List.append_inj' h rfl
      have hsegs := flatMap_nibbles_injective (map_hexDigit_inj (fun _ ↦ mem_flatMap_nibbles)
        (fun _ ↦ mem_flatMap_nibbles) hnum)
      simp only [List.cons.injEq, and_true] at hsegs
      obtain ⟨rfl, rfl, rfl, rfl, rfl, rfl, rfl, rfl⟩ := hsegs
      rfl

theorem addressLabels_ne_nil (addr : IpAddr) : addressLabels addr ≠ [] := by
  cases addr <;> simp [addressLabels]

theorem plainLabel_of_mem {addr : IpAddr} {l : Str} (h : l ∈ addressLabels addr) :
    PlainLabel l := by
  have hfixed : ∀ l ∈ ["in-addr".toList, "ip6".toList, "arpa".toList], PlainLabel l := by
    simp only [List.forall_mem_cons]
    refine ⟨?_, ?_, ?_, by simp⟩ <;> constructor <;> decide
  cases addr with
  | v4 a b c d =>
    rcases List.mem_append.mp h with h | h
    · obtain ⟨n, -, rfl⟩ := List.mem_map.mp h
      exact plainLabel_of_le Nat.toDigits_ne_nil ((length_decimal_le n).trans (by decide))
        fun c hc ↦ mem_decimal hc
    · exact hfixed l (by grind)
  | v6 a b c d e f g k =>
    rcases List.mem_append.mp h with h | h
    · obtain ⟨n, hn, rfl⟩ := List.mem_map.mp h
      obtain ⟨hlen, hchars, -⟩ := hexDigit_spec (mem_flatMap_nibbles hn)
      exact plainLabel_of_le Nat.toDigits_ne_nil (hlen.trans_le (by decide)) hchars
    · exact hfixed l (by grind)

/-- The lengths of the labels, with the byte in front of each. -/
theorem sum_addressLabels_le (addr : IpAddr) :
    ((addressLabels addr).map fun l ↦ 1 + l.length).sum ≤ 73 := by
  cases addr with
  | v4 a b c d =>
    have ha := length_decimal_le a
    have hb := length_decimal_le b
    have hc := length_decimal_le c
    have hd := length_decimal_le d
    simp [addressLabels]
    omega
  | v6 a b c d e f g k =>
    have hone : ∀ n ∈ [k, g, f, e, d, c, b, a].flatMap nibbles,
        ((fun l : Str ↦ 1 + l.length) ∘ hexDigit) n = (fun _ ↦ 2) n := by
      intro n hn
      exact congrArg (1 + ·) (hexDigit_spec (mem_flatMap_nibbles hn)).1
    rw [addressLabels, List.map_append, List.map_map, List.sum_append, List.map_congr_left hone]
    simp

/-! ## The names -/

theorem not_mem_addressLabel {addr : IpAddr} {l : Str} (h : l ∈ addressLabels addr) : '.' ∉ l :=
  not_mem_of_isValidSegment (plainLabel_of_mem h).valid

theorem splitOn_addressName (addr : IpAddr) : (addressName addr).splitOn '.' = addressLabels addr :=
  List.splitOn_intercalate '.' (fun _ hl ↦ not_mem_addressLabel hl) (addressLabels_ne_nil addr)

/-- Two addresses do not have the same name. -/
theorem addressName_injective : Function.Injective addressName := by
  intro x y h
  refine addressLabels_injective ?_
  rw [← splitOn_addressName, h, splitOn_addressName]

theorem plainName_addressName (addr : IpAddr) : PlainName (addressName addr) := by
  refine ⟨?_, fun l hl ↦ ?_⟩
  · have hdots : isAscii (dotsOf (addressLabels addr)) = true := by
      rw [isAscii, List.all_eq_true]
      intro c hc
      obtain ⟨l, hl, hc⟩ := List.mem_flatMap.mp hc
      rcases List.mem_append.mp hc with hc | hc
      · exact List.all_eq_true.mp (plainLabel_of_mem hl).ascii c hc
      · rw [List.mem_singleton.mp hc]
        decide
    rw [dotsOf_eq_intercalate (addressLabels_ne_nil addr), isAscii, List.all_append] at hdots
    exact (Bool.and_eq_true_iff.mp hdots).1
  · rw [splitOn_addressName] at hl
    exact (plainLabel_of_mem hl).not_idna

/-- Without a final dot. -/
theorem dotted_addressName (addr : IpAddr) :
    dotted (addressName addr) = addressName addr ++ ['.'] := by
  refine if_neg fun hlast ↦ ?_
  -- otherwise the last label would be empty
  obtain ⟨init, hinit⟩ := List.getLast?_eq_some_iff.mp hlast
  have hmem : [] ∈ addressLabels addr := by
    rw [← splitOn_addressName, hinit, List.splitOn_append_cons_self]
    simp
  exact (plainLabel_of_mem hmem).ne_nil rfl

theorem acceptableName_addressName (addr : IpAddr) : AcceptableName (addressName addr) := by
  have hbytes (l : Str) (hl : l ∈ addressLabels addr) : (utf8 l).length = l.length :=
    length_utf8_of_isAscii (plainLabel_of_mem hl).ascii
  refine .inr ⟨addressLabels addr, addressLabels_ne_nil addr, .inl rfl, fun l hl ↦ ?_, ?_⟩
  · have hplain := plainLabel_of_mem hl
    rw [hbytes l hl]
    exact ⟨List.length_pos_iff.mpr hplain.ne_nil, hplain.length_le, hplain.valid⟩
  · rw [List.map_congr_left fun l hl ↦ congrArg (1 + ·) (hbytes l hl)]
    have := sum_addressLabels_le addr
    omega

end UsnetSockets
