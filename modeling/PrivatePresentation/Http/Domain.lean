import PrivatePresentation.Http.DomainTable
import PrivatePresentation.Http.Punycode
import PrivatePresentation.Text.Bytes
import PrivatePresentation.Text.Printable

/-!
International domain names. A name is brought to its normal form character by character, split at
its dots, and checked label by label. A label that starts with `xn--` holds the written form of
characters beyond ASCII and is checked as what it stands for.
-/

namespace PrivatePresentation.Http.Domain

/-- The ASCII characters that no domain name may hold. -/
def isRefusedAscii (c : Char) : Bool :=
  c.toNat ≤ 0x20 || c.toNat == 0x7F || "%#/:<>?@[\\]^|".toList.contains c

/-- The full stops of other scripts. -/
def isFullStop (c : Char) : Bool := c.toNat == 0x3002 || c.toNat == 0xFF0E || c.toNat == 0xFF61

/-- ASCII characters in their double width. -/
def isWide (c : Char) : Bool := 0xFF01 ≤ c.toNat && c.toNat ≤ 0xFF5E

/-- What a character becomes: itself in lower case, another character, or nothing; none if no name
may hold it. -/
def normalChar? (c : Char) : Option (List Char) :=
  if c.toNat < 0x80 then if isRefusedAscii c then none else some [c.toLower]
  else if Text.inTable refusedRanges c.toNat then none
  else if Text.inTable ignoredRanges c.toNat then some []
  else if isFullStop c then some ['.']
  else if isWide c then some [(Char.ofNat (c.toNat - 0xFEE0)).toLower]
  else some [c]

/-- What the characters of a name become. -/
def normalChars? (name : List Char) : Option (List Char) := (name.mapM normalChar?).map List.flatten

/-- The two characters that join or separate their neighbours. -/
def isJoiner (c : Char) : Bool := c.toNat == 0x200C || c.toNat == 0x200D

/-- A character that extends the one before it. -/
def isExtender (c : Char) : Bool := 0x80 ≤ c.toNat && !isJoiner c && !Text.isPrintable c

/-- Joiners stand only after a character that extends the one before it. -/
def joinersStand : Bool → List Char → Bool
  | _, [] => true
  | extended, c :: rest => (!isJoiner c || extended) && joinersStand (isExtender c) rest

/-- A letter of a script that is written from right to left. -/
def isRightToLeft (c : Char) : Bool :=
  let n := c.toNat
  (0x5BE ≤ n && n ≤ 0x8FF || 0xFB1D ≤ n && n ≤ 0xFDFF || 0xFE70 ≤ n && n ≤ 0xFEFC ||
    0x10800 ≤ n && n ≤ 0x10FFF || 0x1E800 ≤ n && n ≤ 0x1EFFF) && !isExtender c &&
    !(0x660 ≤ n && n ≤ 0x669) && !(0x6F0 ≤ n && n ≤ 0x6F9)

/-- An ASCII letter. -/
def isLetter (c : Char) : Bool := c.isAlpha

/-- The direction of a label in a name that holds letters written from right to left: such a label
starts with one of them and holds no others; any other label starts with no digit. -/
def directionStands (label : List Char) : Bool :=
  match label with
  | [] => true
  | first :: _ =>
    if label.any isRightToLeft then isRightToLeft first && !label.any isLetter
    else !first.isDigit

/-- The text of a label that is shown to people: what it stands for. -/
def shown? (label : List Char) : Option (List Char) :=
  match label with
  | 'x' :: 'n' :: '-' :: '-' :: written =>
    match Punycode.decode? written with
    | some text =>
      if text.any (0x80 ≤ ·.toNat) && text.all (fun c => normalChar? c == some [c]) then some text
      else none
    | none => none
  | label => some label

/-- A label whose characters stand where they may. -/
def labelStands (label : List Char) : Bool :=
  (match label with
    | first :: _ => !isExtender first
    | [] => true) && joinersStand false label

/-- The normal form of a name given as bytes; none if it is no name. -/
def normal? (name : Bytes) : Option (List Char) := do
  let text ← Text.ofUtf8? name
  let normal ← normalChars? text.toList
  let labels ← (normal.splitOn '.').mapM shown?
  let directed := labels.any (·.any isRightToLeft)
  if labels.all labelStands && (!directed || labels.all directionStands) then some normal else none

end PrivatePresentation.Http.Domain
