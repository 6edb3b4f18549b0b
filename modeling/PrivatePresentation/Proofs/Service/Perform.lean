import PrivatePresentation.Proofs.Schema.Canonical
import PrivatePresentation.Proofs.Service.Progress

/-!
Operations with nothing in between.  Making a request and taking in a submission are a few steps each:
what they answer and what they leave of the service.
-/

namespace PrivatePresentation

namespace Task

variable {ps : ProofSystem} {s : Service}

theorem run_done (fuel : Nat) (answer : Answer) :
    run ps fuel (.done answer) s = (.done answer, s) := by
  cases fuel with
  | zero => rfl
  | succ fuel => rfl

theorem run_succ (fuel : Nat) (t : Task) :
    run ps (fuel + 1) t s = run ps fuel (t.step ps s).1 (t.step ps s).2 := by
  by_cases hdone : ∃ answer, t = .done answer
  · obtain ⟨answer, rfl⟩ := hdone
    rw [step, run_done, run_done]
  · rw [run]
    exact fun answer h => hdone ⟨answer, h⟩

end Task

namespace Service

/-- What is left of a service when a request has been taken out and checked, and its verdict has been
recorded, told and handed over. -/
def settled (s : Service) (id : RequestId) (r : PresentationRequest) (now : Timestamp)
    (outcome : Except VerificationError Unit) : Service :=
  let s := { s with requests := s.requests.erase id }
  let s := if outcome matches .error .layoutDivergence then s.evict r.schemaHash else s
  let v := verdictOf r now outcome
  (((s.record v).notify v).deliver r v).counted (eventOf v)

variable {ps : ProofSystem} {s s' : Service} {order : PresentationOrder} {fresh : Fresh}
variable {r : PresentationRequest} {sub : Submission} {now : Timestamp} {id : RequestId}

/-- A request that has been prepared is kept, and nothing else is answered for it. -/
theorem perform_create (hr : s.prepareWithKeys ps order now fresh = (.ok r, s')) :
    s.perform ps (.create order now fresh) =
      (.done (.created r), (s'.save r).counted .requestCreated) := by
  have hstep : (Task.create order now fresh).step ps s = (.save r, s') := by
    rw [Task.step, hr]
  rw [perform, Task.bound, Task.run_succ, hstep, Task.run_succ]
  exact Task.run_done _ _

theorem perform_create_refused {e : ProtocolError}
    (he : s.prepareWithKeys ps order now fresh = (.error e, s')) :
    s.perform ps (.create order now fresh) = (.done (.refused e), s') := by
  have hstep : (Task.create order now fresh).step ps s = (.done (.refused e), s') := by
    rw [Task.step, he]
  rw [perform, Task.bound, Task.run_succ, hstep, Task.run_done]

/-- A request that is answered has been prepared. -/
theorem prepareWithKeys_of_created
    (h : s.perform ps (.create order now fresh) = (.done (.created r), s')) :
    (s.prepareWithKeys ps order now fresh).1 = .ok r := by
  rcases hprepare : s.prepareWithKeys ps order now fresh with ⟨e | r', s''⟩
  · rw [perform_create_refused hprepare] at h
    exact nomatch h
  · rw [perform_create hprepare] at h
    exact congrArg Except.ok (Answer.created.inj (Task.done.inj (congrArg Prod.fst h)))

/-- What is prepared is prepared with the settings of the service, for the schema of the order. -/
theorem prepare_of_prepareWithKeys (hr : (s.prepareWithKeys ps order now fresh).1 = .ok r) :
    ∃ schema keys, orderedSchema order = .ok schema ∧
      prepare s.config schema keys order now fresh = .ok r := by
  have hprepares := s.prepareWithKeys_prepares ps order now fresh
  rw [hr] at hprepares
  cases hprepares with
  | prepared hschema hkeys hprepare =>
      rw [hkeys.same.config] at hprepare
      exact ⟨_, _, hschema, hprepare⟩

theorem makeKeys_spec {schema : Schema} {t : Groth16.Trapdoor} {keys : SchemaKeys}
    (h : makeKeys ps schema t = .ok keys) :
    keys.schema = schema ∧ Circuit.compile schema = .ok keys.circuit ∧
      ps.setupCircuit keys.circuit t = .ok keys.keys := by
  obtain ⟨circuit, hcircuit, h⟩ := Outcome.of_bind h
  obtain ⟨constraints, -, h⟩ := Outcome.of_bind h
  obtain ⟨pk, hpk, h⟩ := Outcome.of_bind h
  obtain rfl := Except.ok.inj h
  exact ⟨rfl, Outcome.of_mapError hcircuit, Outcome.of_mapError hpk⟩

/-- A request for a schema without keys is prepared with keys that are made for it. -/
theorem prepareWithKeys_first {schema : Schema} {keys : SchemaKeys}
    (hschema : orderedSchema order = .ok schema) (hnone : s.keys.get? schema.hash = none)
    (hkeys : makeKeys ps schema fresh.trapdoor = .ok keys)
    (hr : prepare s.config schema keys order now fresh = .ok r) :
    s.prepareWithKeys ps order now fresh =
      (.ok r, { s with keys := s.keys.insert schema.hash keys }.counted .setup) := by
  unfold prepareWithKeys ensureKeys
  simp only [hschema, hnone, hkeys]
  exact congrArg (·, _) hr

theorem exists_parse_of_orderedSchema {schema : Schema} (h : orderedSchema order = .ok schema) :
    ∃ text, Schema.parse text = .ok schema := by
  unfold orderedSchema at h
  split at h
  · exact ⟨_, Outcome.of_mapError h⟩
  · exact ⟨_, Outcome.of_mapError h⟩

/-- The text of a request is read back as the schema that its keys were made for, and comes to the
circuit that they were made for. -/
theorem recompile?_of_prepare {schema : Schema} {keys : SchemaKeys} {config : ProtocolConfig}
    {t : Groth16.Trapdoor} (hschema : orderedSchema order = .ok schema)
    (hkeys : makeKeys ps schema t = .ok keys)
    (hr : prepare config schema keys order now fresh = .ok r) :
    r.id = fresh.id ∧ r.schemaHash = schema.hash ∧ Schema.parse r.schemaText = .ok schema ∧
      recompile? r keys = some keys.circuit := by
  obtain ⟨_, hread⟩ := exists_parse_of_orderedSchema hschema
  obtain ⟨hsame, hcompile, -⟩ := makeKeys_spec hkeys
  obtain ⟨-, -, hr⟩ := Outcome.of_bind hr
  obtain rfl := Except.ok.inj hr
  have hparse := Schema.parse_canonical hread
  exact ⟨rfl, congrArg Schema.hash hsame, hparse,
    recompile?_eq_some_iff.2 ⟨schema, hparse, hcompile, rfl⟩⟩

/-- An envelope that is read is not blank, and neither is the text of an identifier. -/
theorem malformed?_eq_none {blob : ProofResult}
    (hid : RequestId.parseTrimmed sub.requestId = .ok id)
    (hblob : Artifact.decodeText sub.blob = .ok blob) : malformed? sub = none := by
  have hid' : (Text.trim sub.requestId).isEmpty = false := by
    by_contra hblank
    rw [Bool.not_eq_false, String.isEmpty_iff] at hblank
    rw [RequestId.parseTrimmed, hblank] at hid
    cases hid
  have hblob' : (Text.trim sub.blob).isEmpty = false := by
    by_contra hblank
    rw [Bool.not_eq_false, String.isEmpty_iff] at hblank
    rw [Artifact.decodeText, hblank] at hblob
    cases hblob
  rw [malformed?, hid', hblob']
  rfl

/-- A submission of the wrong form is answered at once. -/
theorem perform_submit_malformed {e : VerificationError} (he : malformed? sub = some e) :
    s.perform ps (.submit sub now) = (.done (.rejected e), s) := by
  rw [perform, Task.bound, Task.run_succ, Task.step_submit_malformed he, Task.run_done]

/-- A submission to a pending request is answered by the check, and the request is settled. -/
theorem perform_submit (hwell : malformed? sub = none)
    (hid : RequestId.parseTrimmed sub.requestId = .ok id) (hr : s.requests.get? id = some r) :
    s.perform ps (.submit sub now) =
      (.done (.ofCheck r (check ps (s.keys.get? r.schemaHash) r sub now)),
        s.settled id r now (check ps (s.keys.get? r.schemaHash) r sub now)) := by
  rw [perform, Task.bound, Task.run_succ, Task.step_submit_taken hwell hid hr, Task.run_succ,
    Task.run_succ, Task.run_succ, Task.run_succ]
  simp only [Task.step]
  cases check ps (s.keys.get? r.schemaHash) r sub now with
  | ok _ => exact Task.run_done _ _
  | error e => exact Task.run_done _ _

/-- A submission to a pending request is accepted exactly if the check accepts it. -/
theorem exists_accepted_iff (hwell : malformed? sub = none)
    (hid : RequestId.parseTrimmed sub.requestId = .ok id) (hr : s.requests.get? id = some r) :
    (∃ s', s.perform ps (.submit sub now) = (.done (.accepted r), s')) ↔
      check ps (s.keys.get? r.schemaHash) r sub now = .ok () := by
  rw [perform_submit hwell hid hr]
  cases check ps (s.keys.get? r.schemaHash) r sub now with
  | ok _ => exact ⟨fun _ => rfl, fun _ => ⟨_, rfl⟩⟩
  | error e =>
      constructor
      · rintro ⟨s', h⟩
        cases h
      · intro h
        cases h

end Service
end PrivatePresentation
