import PrivatePresentation.Service.Store

/-!
Counters of what has happened, with the text in which they are published.
-/

namespace PrivatePresentation

/-- What is counted. -/
inductive Event where
  | requestCreated
  | verification (outcome reason : String)
  | setup
  | webhook (outcome : String)
  | httpRequest (method : String) (status : Nat)
  | httpError (method : String) (status : Nat)
deriving DecidableEq, Repr

/-- The name of a counter with its labels. -/
def Event.sample : Event → String
  | .requestCreated => "zkattest_requests_created_total"
  | .verification outcome reason =>
    "zkattest_verifications_total\x7boutcome=\"" ++ outcome ++ "\",reason=\"" ++ reason ++ "\"\x7d"
  | .setup => "zkattest_setup_total"
  | .webhook outcome => "zkattest_webhook_deliveries_total\x7boutcome=\"" ++ outcome ++ "\"\x7d"
  | .httpRequest method status =>
    "zkattest_http_requests_total\x7bmethod=\"" ++ method ++ "\",status=\"" ++ toString status ++
      "\"\x7d"
  | .httpError method status =>
    "zkattest_http_errors_total\x7bmethod=\"" ++ method ++ "\",status=\"" ++ toString status ++
      "\"\x7d"

/-- The name of a counter without its labels. -/
def Event.family (e : Event) : String :=
  String.ofList (e.sample.toList.takeWhile (· != '\x7b'))

/-- How often each event has happened. -/
abbrev Counters := Store Event Nat

namespace Counters

/-- How often an event has happened. -/
def count (c : Counters) (e : Event) : Nat := (c.get? e).getD 0

/-- Counts an event. -/
def increment (c : Counters) (e : Event) : Counters := c.insert e (c.count e + 1)

/-- A line for each counter. -/
def lines (c : Counters) : List String :=
  c.entries.map fun (e, n) => e.sample ++ " " ++ toString n

/-- The names of counters without their labels, each once. -/
def families (c : Counters) : List String := (c.entries.map (·.1.family)).eraseDups

/-- The published page: each family with its type, followed by an empty line. -/
def page (c : Counters) : String :=
  "".intercalate (c.families.map fun family =>
    let own := c.keep fun e => e.1.family == family
    "# TYPE " ++ family ++ " counter\n" ++
      "".intercalate ((lines own).map (· ++ "\n")) ++ "\n")

end Counters
end PrivatePresentation
