import PrivatePresentation.Json.Record

/-!
Submissions: what a holder sends in answer to a request.
-/

namespace PrivatePresentation

/-- A proof in text form, with the inputs that it repeats. -/
structure Submission where
  requestId : String := ""
  blob : String := ""
  publicInputs : Json.Members := []
  challenge : Option String := none
deriving Repr, Inhabited

namespace Submission

/-- The written form; an absent challenge is left out. -/
def toJson (s : Submission) : Json :=
  .ofMembers ([
    ("request_id", .string s.requestId),
    ("zkp_blob_b64", .string s.blob),
    ("public_inputs", .object s.publicInputs)] ++
    (match s.challenge with
      | some c => [("challenge", .string c)]
      | none => []))

/-- The fields of the written form. -/
def record (name : String) : Json.Record where
  name := name
  fields := [
    ⟨"request_id", .text, false, none⟩,
    ⟨"zkp_blob_b64", .text, false, none⟩,
    ⟨"public_inputs", .map, false, some (.object [])⟩,
    ⟨"challenge", .text, true, some .null⟩]

/-- The submission with given fields. -/
def ofValues? : List Json → Option Submission
  | [.string id, .string blob, .object inputs, challenge] =>
    some ⟨id, blob, inputs, challenge.text?⟩
  | _ => none

/-- Reads the written form of a record of a given name. -/
def parseAs (name : String) (document : Bytes) : Except Json.Fault Submission := do
  match ofValues? (← (record name).parse document) with
  | some s => return s
  | none => throw ⟨.expectedValue, 0, []⟩

/-- Reads the written form. -/
def parse (document : Bytes) : Except Json.Fault Submission := parseAs "Submission" document

end Submission
end PrivatePresentation
