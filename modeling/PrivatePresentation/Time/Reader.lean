import PrivatePresentation.Text.Blank
import PrivatePresentation.Time.Timestamp

/-!
Reading instants. The strict form is RFC 3339: fixed digits, `T`, `t` or a space between date and
time, and an offset. The lenient form, used for stored documents, also takes signed years, fewer
digits, and white space between the parts. A date alone is the start of that day.
-/

namespace PrivatePresentation.Timestamp

-- Powers of numbers are the core ones.
attribute [local instance (high)] instPowNat

/-- Why the lenient form is refused. -/
inductive Refusal where
  | invalid
  | tooShort
  | outOfRange
  | trailing
  | impossible
deriving DecidableEq, Repr

/-- The text of a refusal. -/
def Refusal.message : Refusal → String
  | .invalid => "input contains invalid characters"
  | .tooShort => "premature end of input"
  | .outOfRange => "input is out of range"
  | .trailing => "trailing input"
  | .impossible => "no possible date and time matching input"

/-- A step of reading: a value and the characters after it. -/
abbrev Scan (α : Type) := List Char → Except Refusal (α × List Char)

/-- An ASCII digit. -/
def isDigit (c : Char) : Bool := '0' ≤ c && c ≤ '9'

/-- The value of a run of digits. -/
def digitsValue (digits : List Char) : Nat :=
  digits.foldl (fun n c => 10 * n + (c.toNat - 48)) 0

/-- From `least` to `most` digits. -/
def number (least most : Nat) : Scan Nat := fun s =>
  let digits := (s.take most).takeWhile isDigit
  if (String.ofList s).utf8ByteSize < least then .error .tooShort
  else if digits.length < least then .error .invalid
  else .ok (digitsValue digits, s.drop digits.length)

/-- A number within bounds. -/
def bounded (least most low high : Nat) : Scan Nat := fun s => do
  let (n, rest) ← number least most s
  if low ≤ n ∧ n ≤ high then .ok (n, rest) else .error .outOfRange

/-- One fixed character. -/
def literal (c : Char) : Scan Unit
  | [] => .error .tooShort
  | d :: rest => if d = c then .ok ((), rest) else .error .invalid

/-- Digits of a part of a second: nine of them count, more are dropped. -/
def nanoseconds : Scan Nat := fun s => do
  let (_, rest) ← number 1 9 s
  let digits := s.take (s.length - rest.length)
  return (digitsValue digits * 10 ^ (9 - digits.length), rest.dropWhile isDigit)

/-- A part of a second after a point, if there is one. -/
def fraction : Scan Nat
  | '.' :: rest => nanoseconds rest
  | rest => .ok (0, rest)

/-- The hours and minutes of an offset, in seconds; what stands between them is taken by
`separator`. -/
def offset (separator : Scan Unit) : Scan Int
  | 'Z' :: rest => .ok (0, rest)
  | 'z' :: rest => .ok (0, rest)
  | [] => .error .tooShort
  | sign :: rest => do
    let negative ←
      if sign = '+' then .ok false
      else if sign = '-' ∨ sign = '\u2212' then .ok true
      else .error .invalid
    let (hours, rest) ← twoDigits 9 rest
    let (_, rest) ← separator rest
    let (minutes, rest) ← twoDigits 5 rest
    let seconds : Int := hours * 3600 + minutes * 60
    return (if negative then -seconds else seconds, rest)
where
  /-- Two digits, the first of them bounded. -/
  twoDigits (most : Nat) : Scan Nat
    | a :: b :: rest =>
      if isDigit a ∧ isDigit b then
        if a.toNat - 48 ≤ most then .ok (digitsValue [a, b], rest) else .error .outOfRange
      else .error .invalid
    | [c] => if 2 ≤ c.utf8Size then .error .invalid else .error .tooShort
    | [] => .error .tooShort

/-- The instant of a date, a time and an offset; second sixty is a leap second. -/
def assemble (date : CalendarDate) (hour minute second nanos : Nat) (offset : Int) :
    Except Refusal Timestamp :=
  if !date.isValid then .error .outOfRange
  else if offset ≤ -86400 ∨ 86400 ≤ offset then .error .outOfRange
  else
    let leap := second = 60
    let clock : Int := hour * 3600 + minute * 60 + (if leap then 59 else second)
    let seconds := date.toDays * secondsPerDay + clock - offset
    if seconds < minSeconds ∨ maxSeconds < seconds then .error .impossible
    else .ok ⟨seconds, nanos + (if leap then nanosPerSecond else 0)⟩

/-- The separator between date and time. -/
def dateTimeSeparator : Scan Unit
  | 'T' :: rest => .ok ((), rest)
  | 't' :: rest => .ok ((), rest)
  | ' ' :: rest => .ok ((), rest)
  | [] => .error .tooShort
  | _ => .error .invalid

/-- The greatest offset of the strict form: 23 hours and 59 minutes. -/
def maxOffset : Int := 86340

/-- The strict form, with its part of a second. -/
def scanStrict (s : List Char) : Except Refusal Timestamp := do
  let (year, s) ← number 4 4 s
  let (_, s) ← literal '-' s
  let (month, s) ← bounded 2 2 1 12 s
  let (_, s) ← literal '-' s
  let (day, s) ← bounded 2 2 1 31 s
  let (_, s) ← dateTimeSeparator s
  let (hour, s) ← bounded 2 2 0 23 s
  let (_, s) ← literal ':' s
  let (minute, s) ← bounded 2 2 0 59 s
  let (_, s) ← literal ':' s
  let (second, s) ← bounded 2 2 0 60 s
  let (nanos, s) ← fraction s
  let (offset, s) ← offset (literal ':') s
  if offset < -maxOffset ∨ maxOffset < offset then .error .outOfRange
  else if !s.isEmpty then .error .trailing
  else assemble ⟨year, month, day⟩ hour minute second nanos offset

/-- A year after white space: signed with any number of digits, or up to four digits. -/
def leniently : Scan Int := fun s =>
  match Text.trimStartChars s with
  | '-' :: rest => do
    let (n, rest) ← number 1 (rest.length + 1) rest
    return (-(n : Int), rest)
  | '+' :: rest => do
    let (n, rest) ← number 1 (rest.length + 1) rest
    return ((n : Int), rest)
  | rest => do
    let (n, rest) ← number 1 4 rest
    return ((n : Int), rest)

/-- A year that a machine word of 32 bits holds. -/
def lenientYear : Scan Int := fun s => do
  let (year, rest) ← leniently s
  if -2147483648 ≤ year ∧ year ≤ 2147483647 then .ok (year, rest) else .error .outOfRange

/-- One or two digits within bounds, after white space. -/
def lenientPart (low high : Nat) : Scan Nat := fun s =>
  bounded 1 2 low high (Text.trimStartChars s)

/-- The lenient form. -/
def scanLenient (s : List Char) : Except Refusal Timestamp := do
  let (year, s) ← lenientYear s
  let (_, s) ← literal '-' (Text.trimStartChars s)
  let (month, s) ← lenientPart 1 12 s
  let (_, s) ← literal '-' (Text.trimStartChars s)
  let (day, s) ← lenientPart 1 31 s
  let (_, s) ← dateTimeSeparator s
  let (hour, s) ← lenientPart 0 23 s
  let (_, s) ← literal ':' (Text.trimStartChars s)
  let (minute, s) ← lenientPart 0 59 s
  let (_, s) ← literal ':' (Text.trimStartChars s)
  let (second, s) ← lenientPart 0 60 s
  let (nanos, s) ← fraction s
  let s := Text.trimStartChars s
  let (offset, s) ←
    if (s.take 3).map Char.toUpper = ['U', 'T', 'C'] then .ok (0, s.drop 3)
    else offset (fun s => .ok ((), s.dropWhile fun c => c = ':' || Text.isBlank c)) s
  if !(Text.trimStartChars s).isEmpty then .error .trailing
  else assemble ⟨year, month, day⟩ hour minute second nanos offset

/-- The instant of an RFC 3339 text, without its part of a second. -/
def parse (s : String) : Except TemporalError Timestamp :=
  match scanStrict s.toList with
  | .ok t => .ok t.truncated
  | .error _ => .error (.invalidFormat s)

/-- The lenient form of a date alone. -/
def scanDate (s : List Char) : Except Refusal CalendarDate := do
  let (year, s) ← lenientYear s
  let (_, s) ← literal '-' s
  let (month, s) ← lenientPart 1 12 s
  let (_, s) ← literal '-' s
  let (day, s) ← lenientPart 1 31 s
  if !s.isEmpty then .error .trailing
  else if CalendarDate.isValid ⟨year, month, day⟩ then .ok ⟨year, month, day⟩
  else .error .outOfRange

/-- An RFC 3339 text or a date alone, with white space around it. -/
def parseDate (s : String) : Except TemporalError Timestamp :=
  let s := Text.trim s
  match parse s with
  | .ok t => .ok t
  | .error _ =>
    match scanDate s.toList with
    | .ok d => .ok (ofDate d)
    | .error _ => .error (.invalidFormat s)

/-- An instant as stored in documents, with its part of a second. -/
def parseStored (s : String) : Except Refusal Timestamp := scanLenient s.toList

end PrivatePresentation.Timestamp
