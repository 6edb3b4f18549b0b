import PrivatePresentation.Proofs.Json.Members
import PrivatePresentation.Proofs.Outcome
import PrivatePresentation.Service.Check

/-!
What the check of a submission has established when it accepts, and what it can answer when it does
not.
-/

namespace PrivatePresentation

/-- The errors that settle a request; the others leave every request as it is. -/
def VerificationError.IsDecisive (e : VerificationError) : Prop :=
  e ≠ .notFound ∧ ∀ detail, e ≠ .malformedSubmission detail

namespace Service

/-- What is known of an accepted submission: the keys kept for the schema, the circuit of the schema
and the decoded blob have answered each question of the check. -/
structure Accepts (ps : ProofSystem) (keys : SchemaKeys) (circuit : Circuit) (blob : ProofResult)
    (r : PresentationRequest) (sub : Submission) (now : Timestamp) : Prop where
  inTime : ¬r.isExpired now
  audience : repeats sub Pinned.audience r.audience = true
  nonce : repeats sub Pinned.nonce r.nonce = true
  challenge : answersChallenge r sub = true
  decoded : Artifact.decodeText sub.blob = .ok blob
  recompiled : recompile? r keys = some circuit
  inputs : circuit.publicInputsFrom (overlaid r sub) = .ok blob.publicWitness
  verified : ps.verify keys.keys.verifying blob.proof blob.publicWitness = .ok true

variable {ps : ProofSystem} {keys? : Option SchemaKeys} {r : PresentationRequest}
variable {sub : Submission} {now : Timestamp}

section Asked

variable {keys : SchemaKeys} {circuit : Circuit}

theorem recompile?_eq_some_iff :
    recompile? r keys = some circuit ↔
      ∃ schema, Schema.parse r.schemaText = .ok schema ∧ Circuit.compile schema = .ok circuit ∧
        circuit.fingerprint = keys.fingerprint := by
  unfold recompile?
  constructor
  · intro h
    obtain ⟨schema, hschema, h⟩ := Option.bind_eq_some_iff.1 h
    obtain ⟨c, hc, h⟩ := Option.bind_eq_some_iff.1 h
    split at h
    · rename_i hsame
      obtain rfl := Option.some.inj h
      exact ⟨schema, Outcome.of_toOption hschema, Outcome.of_toOption hc, hsame⟩
    · exact nomatch h
  · rintro ⟨schema, hschema, hc, hsame⟩
    simp [hschema, hc, hsame, Except.toOption]

/-- The value of a public field is the pinned one, and if nothing is pinned the submitted one. -/
theorem publicInput_overlaid (hr : r.publicInputs.Ascending) (f : FieldDecl) (x : Scalar) :
    Circuit.publicInput (overlaid r sub) f = .ok x ↔
      match Json.Members.get? f.name r.publicInputs with
      | some v => normalize f v = .ok x
      | none => Circuit.publicInput sub.publicInputs f = .ok x := by
  rw [Circuit.publicInput, overlaid, Json.Members.get?_insertAll hr]
  cases Json.Members.get? f.name r.publicInputs with
  | none => rfl
  | some v =>
      constructor
      · exact Outcome.of_mapError
      · intro hx
        simp only [Option.some_or, hx]
        rfl

end Asked

/-- A check that accepts has found an answer to each of its questions. -/
theorem check_ok_spec (hcheck : check ps keys? r sub now = .ok ()) :
    ∃ keys circuit blob, keys? = some keys ∧ Accepts ps keys circuit blob r sub now := by
  obtain ⟨htime, hcheck⟩ := Outcome.of_guard hcheck
  obtain ⟨haudience, hcheck⟩ := Outcome.of_guard hcheck
  obtain ⟨hnonce, hcheck⟩ := Outcome.of_guard hcheck
  obtain ⟨hchallenge, hcheck⟩ := Outcome.of_guard hcheck
  obtain ⟨blob, hblob, hcheck⟩ := Outcome.of_bind hcheck
  rw [Bool.not_eq_true', Bool.not_eq_false] at haudience hnonce hchallenge
  cases keys? with
  | none => exact nomatch hcheck
  | some keys =>
      cases hcircuit : recompile? r keys with
      | none =>
          simp only [hcircuit] at hcheck
          exact nomatch hcheck
      | some circuit =>
          simp only [hcircuit] at hcheck
          obtain ⟨expected, hinputs, hcheck⟩ := Outcome.of_bind hcheck
          obtain ⟨hwitness, hcheck⟩ := Outcome.of_guard hcheck
          obtain rfl := Decidable.not_not.1 hwitness
          refine ⟨keys, circuit, blob, rfl, htime, haudience, hnonce, hchallenge,
            Outcome.of_mapError hblob, hcircuit, Outcome.of_mapError hinputs, ?_⟩
          split at hcheck
          · assumption
          · exact nomatch hcheck

/-- A check that has found an answer to each of its questions accepts. -/
theorem check_of_accepts {keys : SchemaKeys} {circuit : Circuit} {blob : ProofResult}
    (h : Accepts ps keys circuit blob r sub now) : check ps (some keys) r sub now = .ok () := by
  have htime : r.isExpired now = false := Bool.eq_false_iff.2 h.inTime
  have hblob : (Artifact.decodeText sub.blob).mapError (fun e => .badBlob e.message) =
      .ok (ε := VerificationError) blob := by
    rw [h.decoded]
    rfl
  have hinputs : (circuit.publicInputsFrom (overlaid r sub)).mapError
      (fun e => .publicInputsInvalid e.message) =
      .ok (ε := VerificationError) blob.publicWitness := by
    rw [h.inputs]
    rfl
  simp [check, htime, h.audience, h.nonce, h.challenge, hblob, h.recompiled, hinputs, h.verified,
    bind, Except.bind]
  rfl

/-- What is known of a submission that is turned down, by the error that it is turned down for. -/
inductive Refuses (keys? : Option SchemaKeys) (r : PresentationRequest) (sub : Submission)
    (now : Timestamp) : VerificationError → Prop where
  | expired (hlate : r.isExpired now = true) : Refuses keys? r sub now .expired
  | audience : Refuses keys? r sub now .audienceMismatch
  | nonce : Refuses keys? r sub now .nonceMismatch
  | challenge : Refuses keys? r sub now .challengeMismatch
  | blob (detail : String) : Refuses keys? r sub now (.badBlob detail)
  | keys (hnone : keys? = none) : Refuses keys? r sub now .keyUnavailable
  | layout {keys : SchemaKeys} (hkeys : keys? = some keys) (hnone : recompile? r keys = none) :
      Refuses keys? r sub now .layoutDivergence
  | inputs {keys : SchemaKeys} {circuit : Circuit} {e : AssignmentError} (hkeys : keys? = some keys)
      (hcircuit : recompile? r keys = some circuit)
      (hinputs : circuit.publicInputsFrom (overlaid r sub) = .error e) :
      Refuses keys? r sub now (.publicInputsInvalid e.message)
  | witness : Refuses keys? r sub now .publicWitnessMismatch
  | proof : Refuses keys? r sub now .verifyFailed

theorem check_error_spec {e : VerificationError} (hcheck : check ps keys? r sub now = .error e) :
    Refuses keys? r sub now e := by
  rcases Outcome.error_of_guard hcheck with ⟨hlate, rfl⟩ | ⟨-, hcheck⟩
  · exact .expired hlate
  rcases Outcome.error_of_guard hcheck with ⟨-, rfl⟩ | ⟨-, hcheck⟩
  · exact .audience
  rcases Outcome.error_of_guard hcheck with ⟨-, rfl⟩ | ⟨-, hcheck⟩
  · exact .nonce
  rcases Outcome.error_of_guard hcheck with ⟨-, rfl⟩ | ⟨-, hcheck⟩
  · exact .challenge
  rcases Outcome.error_of_bind hcheck with hblob | ⟨blob, -, hcheck⟩
  · obtain ⟨fault, -, rfl⟩ := Outcome.error_of_mapError hblob
    exact .blob _
  cases keys? with
  | none =>
      obtain rfl := Except.error.inj hcheck
      exact .keys rfl
  | some keys =>
      cases hcircuit : recompile? r keys with
      | none =>
          simp only [hcircuit] at hcheck
          obtain rfl := Except.error.inj hcheck
          exact .layout rfl hcircuit
      | some circuit =>
          simp only [hcircuit] at hcheck
          rcases Outcome.error_of_bind hcheck with hinputs | ⟨expected, -, hcheck⟩
          · obtain ⟨fault, hfault, rfl⟩ := Outcome.error_of_mapError hinputs
            exact .inputs rfl hcircuit hfault
          rcases Outcome.error_of_guard hcheck with ⟨-, rfl⟩ | ⟨-, hcheck⟩
          · exact .witness
          split at hcheck
          · exact nomatch hcheck
          · obtain rfl := Except.error.inj hcheck
            exact .proof

/-- A check that turns a submission down settles its request. -/
theorem check_error_decisive {e : VerificationError} (hcheck : check ps keys? r sub now = .error e) :
    e.IsDecisive := by
  cases check_error_spec hcheck <;> exact ⟨nofun, nofun⟩

/-- A check finds a request too late exactly when it is. -/
theorem check_expired_iff : check ps keys? r sub now = .error .expired ↔ r.isExpired now = true := by
  constructor
  · intro hcheck
    cases check_error_spec hcheck with
    | expired hlate => exact hlate
  · intro hlate
    exact if_pos hlate

/-- A submission of the wrong form settles nothing. -/
theorem malformed?_not_decisive {e : VerificationError} (he : malformed? sub = some e) :
    ¬e.IsDecisive := by
  unfold malformed? at he
  split at he
  · obtain rfl := Option.some.inj he
    exact fun hdecisive => hdecisive.2 _ rfl
  · split at he
    · obtain rfl := Option.some.inj he
      exact fun hdecisive => hdecisive.2 _ rfl
    · exact nomatch he

end Service
end PrivatePresentation
