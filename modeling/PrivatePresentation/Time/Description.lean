import PrivatePresentation.Json.Basic
import PrivatePresentation.Time.Timestamp

/-!
Instants as JSON values, for tools that show them.
-/

namespace PrivatePresentation

/-- The members that describe an instant. -/
def Timestamp.details (t : Timestamp) : List (String × Json) :=
  [("epoch", .int t.seconds), ("iso", .string t.isoText), ("year", .int t.date.year),
   ("month", .nat t.date.month), ("day", .nat t.date.day), ("json", .string t.exactText)]

end PrivatePresentation
