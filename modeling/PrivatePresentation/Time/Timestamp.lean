import PrivatePresentation.Text.Quoted
import PrivatePresentation.Time.Calendar

/-!
Instants in UTC: seconds since the start of 1970 with a part in nanoseconds. A part of a whole second
or more stands for a leap second.
-/

namespace PrivatePresentation

/-- An instant in UTC. -/
structure Timestamp where
  seconds : Int
  nanos : Nat := 0
deriving DecidableEq, Repr, Inhabited

/-- Why there is no such instant. -/
inductive TemporalError where
  | invalidFormat (text : String)
  | outOfRange (seconds : Int)
deriving Repr

/-- The text of the error. -/
def TemporalError.message : TemporalError → String
  | .invalidFormat s => "invalid RFC 3339 timestamp " ++ Text.quoted s
  | .outOfRange n => "timestamp out of range: " ++ toString n

instance : ToString TemporalError := ⟨TemporalError.message⟩

namespace Timestamp

/-- The first second of the calendar. -/
def minSeconds : Int := -8334601228800

/-- The last second of the calendar. -/
def maxSeconds : Int := 8210266876799

/-- Nanoseconds of a second. -/
def nanosPerSecond : Nat := 1000000000

/-- The last instant of the calendar. -/
def latest : Timestamp := ⟨maxSeconds, nanosPerSecond - 1⟩

/-- Order of instants. -/
def isAfter (a b : Timestamp) : Bool :=
  b.seconds < a.seconds || (a.seconds == b.seconds && b.nanos < a.nanos)

/-- The instant some seconds after the start of 1970. -/
def ofSeconds (seconds : Int) : Except TemporalError Timestamp :=
  if minSeconds ≤ seconds ∧ seconds ≤ maxSeconds then .ok ⟨seconds, 0⟩
  else .error (.outOfRange seconds)

/-- The instant without its part of a second. -/
def truncated (t : Timestamp) : Timestamp := ⟨t.seconds, 0⟩

/-- The instant some seconds later, or the last one of the calendar. Leaving a leap second turns its
part into an ordinary one. -/
def plusSeconds (t : Timestamp) (n : Nat) : Timestamp :=
  if n = 0 then t
  else if maxSeconds < t.seconds + n then latest
  else ⟨t.seconds + n, t.nanos % nanosPerSecond⟩

/-- Whole seconds from an earlier instant. -/
def secondsSince (t earlier : Timestamp) : Int := t.seconds - earlier.seconds

/-- Seconds of a day. -/
def secondsPerDay : Int := 86400

/-- The date of the instant. -/
def date (t : Timestamp) : CalendarDate := .ofDays (t.seconds.fdiv secondsPerDay)

/-- The start of a date. -/
def ofDate (d : CalendarDate) : Timestamp := ⟨d.toDays * secondsPerDay, 0⟩

/-- At least some digits, zeros in front. -/
def padded (width n : Nat) : String :=
  let s := toString n
  String.ofList (List.replicate (width - s.length) '0') ++ s

/-- Four digits at least; a sign outside the years 0 to 9999. -/
def yearText (year : Int) : String :=
  if 0 ≤ year ∧ year ≤ 9999 then padded 4 year.natAbs
  else (if year < 0 then "-" else "+") ++ padded 4 year.natAbs

/-- Date and time up to the second; a leap second is second sixty. -/
def secondText (t : Timestamp) : String :=
  let d := t.date
  let s := (t.seconds - t.seconds.fdiv secondsPerDay * secondsPerDay).toNat
  yearText d.year ++ "-" ++ padded 2 d.month ++ "-" ++ padded 2 d.day ++ "T" ++
    padded 2 (s / 3600) ++ ":" ++ padded 2 (s / 60 % 60) ++ ":" ++
    padded 2 (s % 60 + t.nanos / nanosPerSecond)

/-- The text of an instant in whole seconds. -/
def isoText (t : Timestamp) : String := t.secondText ++ "Z"

/-- The part of a second in three, six or nine digits, whichever are enough. -/
def fractionText (nanos : Nat) : String :=
  if nanos = 0 then ""
  else if nanos % 1000000 = 0 then "." ++ padded 3 (nanos / 1000000)
  else if nanos % 1000 = 0 then "." ++ padded 6 (nanos / 1000)
  else "." ++ padded 9 nanos

/-- The text of an instant with its part of a second. -/
def exactText (t : Timestamp) : String :=
  t.secondText ++ fractionText (t.nanos % nanosPerSecond) ++ "Z"

end Timestamp
end PrivatePresentation
