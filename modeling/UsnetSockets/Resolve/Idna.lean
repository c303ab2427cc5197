import Mathlib.Data.List.Basic

/-!
# Labels and their two spellings

Names are kept as lists of characters. This file has the character tests of the name code and
`idna.rs`, which converts a label between Unicode and ASCII.

The conversion itself is the external `idna` crate, which is not part of the repository: it is the
parameter `IdnaCrate`, two arbitrary partial functions on strings.
-/

namespace UsnetSockets

/-- A Rust string, as its characters. -/
abbrev Str := List Char

/-! ## Character classes -/

/-- `char::is_control`: the code points of the general category `Cc`. -/
def isControl (c : Char) : Bool :=
  decide (c.toNat ≤ 0x1f) || (decide (0x7f ≤ c.toNat) && decide (c.toNat ≤ 0x9f))

/-- `char::is_whitespace`: the code points with the property `White_Space`. -/
def isWhitespace (c : Char) : Bool :=
  (decide (0x9 ≤ c.toNat) && decide (c.toNat ≤ 0xd)) || c.toNat == 0x20 || c.toNat == 0x85
    || c.toNat == 0xa0 || c.toNat == 0x1680
    || (decide (0x2000 ≤ c.toNat) && decide (c.toNat ≤ 0x200a))
    || c.toNat == 0x2028 || c.toNat == 0x2029 || c.toNat == 0x202f || c.toNat == 0x205f
    || c.toNat == 0x3000

/-- `str::is_ascii`. -/
def isAscii (s : Str) : Bool := s.all fun c ↦ decide (c.toNat < 128)

/-- `<[u8]>::is_ascii`. -/
def isAsciiBytes (bytes : List UInt8) : Bool := bytes.all fun b ↦ decide (b.toNat < 128)

/-- The string with the given ASCII bytes, as `from_utf8_unchecked` makes it. -/
def strOfBytes (bytes : List UInt8) : Str := bytes.map fun b ↦ Char.ofNat b.toNat

/-- Whether the string constitutes a valid name segment. -/
def isValidSegment (s : Str) : Bool :=
  !(s.head? == some '-' || s.getLast? == some '-')
    && s.all fun c ↦ !(c == '.' || isWhitespace c || isControl c)

/-! ## `idna.rs` -/

/-- The two functions of the external `idna` crate that the repository calls; `none` stands for
their errors. -/
structure IdnaCrate where
  domainToAscii : Str → Option Str
  domainToUnicode : Str → Option Str

namespace IdnaCrate

variable (X : IdnaCrate)

/-- The ASCII format of a label. A label that is ASCII already is returned unmodified. -/
def toAscii (s : Str) : Option Str := if isAscii s then some s else X.domainToAscii s

/-- The Unicode format of a label. A label that is not an internationalized one is returned
unmodified. -/
def toUnicode (s : Str) : Option Str :=
  if (s.splitOn '.').any fun l ↦ "xn--".toList.isPrefixOf l then X.domainToUnicode s else some s

end IdnaCrate

end UsnetSockets
