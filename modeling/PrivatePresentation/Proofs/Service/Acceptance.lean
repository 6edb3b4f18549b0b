import PrivatePresentation.Proofs.Circuit.PublicInputs
import PrivatePresentation.Proofs.Groth16.Envelope
import PrivatePresentation.Proofs.Identity
import PrivatePresentation.Proofs.Service.Perform

/-!
Acceptance.  A submission is accepted only for a proof about the pinned values, under the key that the
verifier keeps itself.  Two submissions that differ in nothing but copies of what the verifier has
anyway come to the same answer and leave the same service behind.
-/

namespace PrivatePresentation

namespace Artifact

/-- Two texts are envelopes that differ in nothing but a well-formed verifying key. -/
def DifferInKey (s s' : String) : Prop :=
  ∃ bytes bytes' proof witness key key' vk vk',
    Base64.decode (Text.trim s) = .ok bytes ∧ openEnvelope bytes = .ok (proof, key, witness) ∧
    Base64.decode (Text.trim s') = .ok bytes' ∧ openEnvelope bytes' = .ok (proof, key', witness) ∧
    decodeVerifyingKey key = .ok vk ∧ decodeVerifyingKey key' = .ok vk'

variable {s s' : String}

theorem DifferInKey.symm (h : DifferInKey s s') : DifferInKey s' s := by
  obtain ⟨bytes, bytes', proof, witness, key, key', vk, vk', hs, hopen, hs', hopen', hkey, hkey'⟩ := h
  exact ⟨bytes', bytes, proof, witness, key', key, vk', vk, hs', hopen', hs, hopen, hkey', hkey⟩

/-- There is no envelope in white space. -/
theorem DifferInKey.not_blank (h : DifferInKey s s') : (Text.trim s).isEmpty = false := by
  obtain ⟨bytes, -, proof, witness, key, -, -, -, hbytes, hopen, -⟩ := h
  by_contra hblank
  rw [Bool.not_eq_false, String.isEmpty_iff] at hblank
  rw [hblank] at hbytes
  have hempty : Base64.decode "" = .ok [] := rfl
  obtain rfl := Except.ok.inj (hempty.symm.trans hbytes)
  exact nomatch hopen

/-- What is read of the proof and of the public inputs does not depend on the key between them. -/
theorem DifferInKey.decodeText_eq (h : DifferInKey s s') :
    (decodeText s).map (fun r => (r.proof, r.publicWitness)) =
      (decodeText s').map fun r => (r.proof, r.publicWitness) := by
  obtain ⟨bytes, bytes', proof, witness, key, key', vk, vk', hs, hopen, hs', hopen', hkey, hkey'⟩ := h
  rw [decodeVerifyingKey] at hkey hkey'
  rw [decodeText, decodeText, hs, hs']
  simp only [Except.mapError, bind, Except.bind, decode, hopen, hopen', hkey, hkey']
  cases decodeAll .proof Proof.decode proof with
  | error e => rfl
  | ok p =>
      cases decodeAll .publicWitness decodeWitness witness with
      | error e => rfl
      | ok xs => rfl

end Artifact

/-- The key names a public field of the schema of the request. -/
def PresentationRequest.Discloses (r : PresentationRequest) (key : String) : Prop :=
  ∃ schema, Schema.parse r.schemaText = .ok schema ∧ ∃ f ∈ schema.publicFields, f.name = key

/-- Two submissions to a request differ in nothing but a well-formed verifying key in the envelope,
values that the request pins, and values that are no public inputs; both repeat the same audience and
the same nonce. -/
structure Submission.DiffersHarmlessly (r : PresentationRequest) (sub sub' : Submission) : Prop where
  requestId : sub'.requestId = sub.requestId
  challenge : sub'.challenge = sub.challenge
  blob : sub'.blob = sub.blob ∨ Artifact.DifferInKey sub.blob sub'.blob
  inputs : ∀ key, key = Pinned.audience ∨ key = Pinned.nonce ∨
      r.publicInputs.contains key = false ∧ r.Discloses key →
    Json.Members.get? key sub'.publicInputs = Json.Members.get? key sub.publicInputs

namespace Service

/-- What acceptance says: everything that is asked for has been repeated in time, and a proof of the
pinned values has been verified under the key that the service keeps for the schema. -/
structure Proven (ps : ProofSystem) (s : Service) (r : PresentationRequest) (sub : Submission)
    (now : Timestamp) : Prop where
  inTime : now.seconds < r.expiresAt.seconds ∨
    now.seconds = r.expiresAt.seconds ∧ now.nanos ≤ r.expiresAt.nanos
  audience : ∃ t v, Json.Members.get? Pinned.audience r.publicInputs = some (.string t) ∧
    Json.Members.get? Pinned.audience sub.publicInputs = some v ∧ v.plainText = t
  nonce : ∃ t v, Json.Members.get? Pinned.nonce r.publicInputs = some (.string t) ∧
    Json.Members.get? Pinned.nonce sub.publicInputs = some v ∧ v.plainText = t
  challenge : ∀ v, Json.Members.get? Pinned.challenge r.publicInputs = some v → v ≠ .null →
    sub.challenge.map Text.trim = some v.plainText
  proof : ∃ (keys : SchemaKeys) (schema : Schema) (circuit : Circuit) (blob : ProofResult),
    s.keys.get? r.schemaHash = some keys ∧ Schema.parse r.schemaText = .ok schema ∧
    Circuit.compile schema = .ok circuit ∧ circuit.fingerprint = keys.fingerprint ∧ Artifact.decodeText sub.blob = .ok blob ∧
    ps.verify keys.keys.verifying blob.proof blob.publicWitness = .ok true ∧
    blob.publicWitness.length = schema.publicFields.length ∧
    ∀ (i : Nat) f, schema.publicFields[i]? = some f → ∃ x, blob.publicWitness[i]? = some x ∧
      match Json.Members.get? f.name r.publicInputs with
      | some v => normalize f v = .ok x
      | none => Circuit.publicInput sub.publicInputs f = .ok x

section Check

variable {ps : ProofSystem} {s : Service} {keys? : Option SchemaKeys} {keys : SchemaKeys}
variable {circuit : Circuit} {blob : ProofResult} {r : PresentationRequest}
variable {sub sub' : Submission} {now : Timestamp}

/-- What is repeated is pinned as a text, and is that text. -/
theorem repeats_iff {key : String} :
    repeats sub key ((Json.Members.get? key r.publicInputs).bind Json.text?) = true ↔
      ∃ t v, Json.Members.get? key r.publicInputs = some (.string t) ∧
        Json.Members.get? key sub.publicInputs = some v ∧ v.plainText = t := by
  constructor
  · intro h
    unfold repeats at h
    split at h
    · rename_i t v ht hv
      obtain ⟨w, hw, htext⟩ := Option.bind_eq_some_iff.1 ht
      refine ⟨t, v, ?_, hv, (beq_iff_eq.1 h).symm⟩
      rw [hw]
      cases w with
      | string u =>
          obtain rfl := Option.some.inj htext
          rfl
      | _ => exact nomatch htext
    · exact nomatch h
  · rintro ⟨t, v, ht, hv, rfl⟩
    unfold repeats
    rw [ht, hv]
    exact beq_self_eq_true _

/-- A challenge is asked for exactly if something other than null is pinned for it. -/
theorem answersChallenge_iff :
    answersChallenge r sub = true ↔
      ∀ v, Json.Members.get? Pinned.challenge r.publicInputs = some v → v ≠ .null →
        sub.challenge.map Text.trim = some v.plainText := by
  rw [answersChallenge, PresentationRequest.challenge]
  cases Json.Members.get? Pinned.challenge r.publicInputs with
  | none => simp
  | some v => cases v <;> simp

/-- What a check establishes when it accepts is what acceptance says. -/
theorem check_eq_ok_iff (hr : r.publicInputs.Ascending) :
    check ps (s.keys.get? r.schemaHash) r sub now = .ok () ↔ Proven ps s r sub now := by
  constructor
  · intro hcheck
    obtain ⟨keys, circuit, blob, hkeys, h⟩ := check_ok_spec hcheck
    obtain ⟨schema, hschema, hcircuit, hsame⟩ := recompile?_eq_some_iff.1 h.recompiled
    have hpublic : circuit.layout.publicFields = schema.publicFields := by
      rw [(Circuit.compile_spec hcircuit).1]
      rfl
    have hinputs := h.inputs
    rw [Circuit.publicInputsFrom, hpublic] at hinputs
    refine ⟨Timestamp.isAfter_eq_false_iff.1 (Bool.eq_false_iff.2 h.inTime),
      repeats_iff.1 h.audience, repeats_iff.1 h.nonce, answersChallenge_iff.1 h.challenge, keys,
      schema, circuit, blob, hkeys, hschema, hcircuit, hsame, h.decoded, h.verified,
      Outcome.length_of_mapM hinputs, ?_⟩
    intro i f hf
    obtain ⟨x, hx, hinput⟩ := Outcome.getElem?_of_mapM hinputs hf
    exact ⟨x, hx, (publicInput_overlaid hr f x).1 hinput⟩
  · rintro ⟨htime, haudience, hnonce, hchallenge, keys, schema, circuit, blob, hkeys, hschema,
      hcircuit, hsame, hblob, hverify, hlength, hwitness⟩
    have hpublic : circuit.layout.publicFields = schema.publicFields := by
      rw [(Circuit.compile_spec hcircuit).1]
      rfl
    rw [hkeys]
    refine check_of_accepts ⟨Bool.eq_false_iff.1 (Timestamp.isAfter_eq_false_iff.2 htime),
      repeats_iff.2 haudience, repeats_iff.2 hnonce, answersChallenge_iff.2 hchallenge, hblob,
      recompile?_eq_some_iff.2 ⟨schema, hschema, hcircuit, hsame⟩, ?_, hverify⟩
    rw [Circuit.publicInputsFrom, hpublic]
    apply Outcome.mapM_of_getElem? hlength
    intro i f hf
    obtain ⟨x, hx, hvalue⟩ := hwitness i f hf
    exact ⟨x, hx, (publicInput_overlaid hr f x).2 hvalue⟩

/-- A check looks at nothing in which two submissions differ harmlessly. -/
theorem check_congr (h : sub.DiffersHarmlessly r sub') :
    check ps keys? r sub' now = check ps keys? r sub now := by
  have haudience : repeats sub' Pinned.audience r.audience = repeats sub Pinned.audience r.audience := by
    unfold repeats
    rw [h.inputs _ (.inl rfl)]
  have hnonce : repeats sub' Pinned.nonce r.nonce = repeats sub Pinned.nonce r.nonce := by
    unfold repeats
    rw [h.inputs _ (.inr (.inl rfl))]
  have hchallenge : answersChallenge r sub' = answersChallenge r sub := by
    rw [answersChallenge, answersChallenge, h.challenge]
  have hinputs : ∀ keys circuit, recompile? r keys = some circuit →
      circuit.publicInputsFrom (overlaid r sub') = circuit.publicInputsFrom (overlaid r sub) := by
    intro keys circuit hcircuit
    obtain ⟨schema, hschema, hcompiled, -⟩ := recompile?_eq_some_iff.1 hcircuit
    apply Circuit.publicInputsFrom_congr
    intro f hf
    rw [(Circuit.compile_spec hcompiled).1] at hf
    apply Eq.symm
    apply Wallet.get?_mergeInputs_eq
    intro hfree
    exact h.inputs _ (.inr (.inr ⟨hfree, schema, hschema, f, hf, rfl⟩))
  have hblob : (Artifact.decodeText sub'.blob).map (fun r => (r.proof, r.publicWitness)) =
      (Artifact.decodeText sub.blob).map fun r => (r.proof, r.publicWitness) := by
    rcases h.blob with hsame | hdiffer
    · rw [hsame]
    · exact hdiffer.decodeText_eq.symm
  unfold check
  rw [haudience, hnonce, hchallenge]
  cases hd' : Artifact.decodeText sub'.blob with
  | error e' =>
      cases hd : Artifact.decodeText sub.blob with
      | error e =>
          rw [hd, hd'] at hblob
          obtain rfl := Except.error.inj hblob
          rfl
      | ok b =>
          rw [hd, hd'] at hblob
          exact nomatch hblob
  | ok b' =>
      cases hd : Artifact.decodeText sub.blob with
      | error e =>
          rw [hd, hd'] at hblob
          exact nomatch hblob
      | ok b =>
          rw [hd, hd'] at hblob
          obtain ⟨hproof, hwitness⟩ := Prod.mk.inj (Except.ok.inj hblob)
          cases keys? with
          | none => rfl
          | some keys =>
              cases hcircuit : recompile? r keys with
              | none => simp only [hcircuit]; rfl
              | some circuit =>
                  simp only [hcircuit, hinputs keys circuit hcircuit, Except.mapError, bind,
                    Except.bind, hproof, hwitness]

end Check
end Service

namespace Service

variable {ps : ProofSystem} {s : Service} {r : PresentationRequest} {sub sub' : Submission}
variable {now : Timestamp} {id : RequestId}

/-- Whether a submission has the right form does not depend on what two submissions differ in
harmlessly. -/
theorem malformed?_congr (h : sub.DiffersHarmlessly r sub') : malformed? sub' = malformed? sub := by
  have hblob : (Text.trim sub'.blob).isEmpty = (Text.trim sub.blob).isEmpty := by
    rcases h.blob with hsame | hdiffer
    · rw [hsame]
    · rw [hdiffer.not_blank, hdiffer.symm.not_blank]
  rw [malformed?, malformed?, h.requestId, hblob]

/-- What is proven is of the right form. -/
theorem Proven.malformed? (h : Proven ps s r sub now)
    (hid : RequestId.parseTrimmed sub.requestId = .ok id) : malformed? sub = none := by
  obtain ⟨keys, schema, circuit, blob, -, -, -, -, hblob, -⟩ := h.proof
  exact malformed?_eq_none hid hblob

/-- A submission is accepted exactly for what is proven, and two submissions that differ harmlessly
come to the same. -/
theorem accepts_iff_proven (hordered : r.publicInputs.Ascending)
    (hid : RequestId.parseTrimmed sub.requestId = .ok id) (hr : s.requests.get? id = some r) :
    (∀ r' s', s.perform ps (.submit sub now) = (.done (.accepted r'), s') →
      r' = r ∧ Proven ps s r sub now) ∧
    (Proven ps s r sub now → ∃ s', s.perform ps (.submit sub now) = (.done (.accepted r), s')) ∧
    ∀ sub', sub.DiffersHarmlessly r sub' →
      s.perform ps (.submit sub' now) = s.perform ps (.submit sub now) := by
  refine ⟨?_, ?_, ?_⟩
  · intro r' s' haccepted
    cases hmalformed : malformed? sub with
    | some e =>
        rw [perform_submit_malformed hmalformed] at haccepted
        exact nomatch haccepted
    | none =>
        rw [perform_submit hmalformed hid hr] at haccepted
        cases hcheck : check ps (s.keys.get? r.schemaHash) r sub now with
        | error e =>
            rw [hcheck] at haccepted
            exact nomatch haccepted
        | ok _ =>
            rw [hcheck] at haccepted
            refine ⟨?_, (check_eq_ok_iff hordered).1 hcheck⟩
            exact (Answer.accepted.inj (Task.done.inj (congrArg Prod.fst haccepted))).symm
  · intro hproven
    rw [perform_submit (hproven.malformed? hid) hid hr, (check_eq_ok_iff hordered).2 hproven]
    exact ⟨_, rfl⟩
  · intro sub' hdiffers
    have hform := malformed?_congr hdiffers
    cases hmalformed : malformed? sub with
    | some e =>
        rw [perform_submit_malformed hmalformed,
          perform_submit_malformed (hform.trans hmalformed)]
    | none =>
        rw [perform_submit hmalformed hid hr, perform_submit (hform.trans hmalformed)
          (hdiffers.requestId ▸ hid) hr, check_congr hdiffers]

end Service

/-- A system with one key and one proof, which is accepted under that key and under no other. -/
def ProofSystem.ofOneKey : ProofSystem where
  setup _ _ := .ok default
  prove _ _ _ _ := .ok default
  verify key _ _ := .ok (decide (key = default))

namespace Service

/-- The text of a schema with a limit that is pinned and an optional public field. -/
def limitText : String :=
  "\x7b\"fields\":[\x7b\"name\":\"limit\",\"type\":\"integer\",\"public\":true\x7d," ++
  "\x7b\"name\":\"bonus\",\"type\":\"integer\",\"public\":true\x7d]\x7d"

/-- The identifier of the request with a pinned limit. -/
def limitId : RequestId := ⟨List.replicate 16 1⟩

/-- The order for the request with a pinned limit. -/
def limitOrder : PresentationOrder :=
  { schemaText := some limitText, publicInputs := [("limit", .int 700)] }

/-- What is drawn for it. -/
def limitFresh : Fresh := ⟨limitId, ⟨limitId.text⟩, default⟩

/-- A service with one request, which pins a limit. -/
def limitService : Service :=
  (perform .ofOneKey {} (.create
    { schemaText := some limitText, publicInputs := [("limit", .int 700)] }
    ⟨0, 0⟩ ⟨limitId, ⟨limitId.text⟩, default⟩)).2

/-- A key that is not the one of the service. -/
def foreignKey : VerifyingKey := { (default : VerifyingKey) with inputs := [.infinity] }

/-- An envelope with the public inputs that the request with a pinned limit asks for. -/
def limitResult (key : VerifyingKey) : ProofResult := ⟨default, key, [700, 5], none⟩

/-- A submission with some key in the envelope, and some values beside the repeated ones. -/
def limitSubmission (key : VerifyingKey) (further : Json.Members) : Submission where
  requestId := limitId.text
  blob := Artifact.encodeText (limitResult key)
  publicInputs := Json.Members.insertAll
    [("aud", .string ProtocolConfig.standard.audience), ("bonus", .int 5),
      ("nonce", .string limitId.text)] further

/-- What is submitted in the place of the first submission: another key, a lower limit, and a
value of no field. -/
def steeredSubmission : Submission :=
  limitSubmission foreignKey [("score", .int 1000), ("limit", .int 500)]

theorem readsBack_limit {key : VerifyingKey} (hkey : key ∈ [default, foreignKey]) :
    Decoder.ReadsBack VerifyingKey.decode VerifyingKey.encode key := by
  have hone := G1.readsBack_infinity
  have htwo := G2.readsBack_infinity
  rcases List.mem_pair.1 hkey with rfl | rfl
  · exact VerifyingKey.readsBack hone htwo htwo htwo (fun p hp => absurd hp List.not_mem_nil)
      (by decide)
  · exact VerifyingKey.readsBack hone htwo htwo htwo
      (fun p hp => List.mem_singleton.1 hp ▸ hone) (by decide)

theorem fits_limit {key : VerifyingKey} (hkey : key ∈ [default, foreignKey]) :
    Artifact.Fits (limitResult key) := by
  rw [Artifact.Fits, VerifyingKey.length_encode, Artifact.length_encodeWitness]
  rcases List.mem_pair.1 hkey with rfl | rfl
  · exact ⟨by decide, by decide⟩
  · exact ⟨by decide, by decide⟩

/-- What is asked of the submission about a pinned limit, but for its envelope, where the schema, the keys
and the request are made one after the other. -/
theorem limit_facts :
    (orderedSchema limitOrder).toOption.any (fun schema =>
      (makeKeys .ofOneKey schema default).toOption.any fun keys =>
        (prepare .standard schema keys limitOrder ⟨0, 0⟩ limitFresh).toOption.any fun r =>
          decide (keys.keys.verifying = default) &&
          decide (r.publicInputs.map Prod.fst =
            ["aud", "current_day", "current_month", "current_year", "limit", "nonce"]) &&
          !r.isExpired ⟨0, 0⟩ &&
          repeats (limitSubmission default []) Pinned.audience r.audience &&
          repeats (limitSubmission default []) Pinned.nonce r.nonce &&
          answersChallenge r (limitSubmission default []) &&
          decide (keys.circuit.layout.publicFields.map (·.name) = ["limit", "bonus"]) &&
          decide (keys.circuit.publicInputsFrom (overlaid r (limitSubmission default [])) =
            .ok [700, 5])) = true := by
  decide +kernel

/-- The request is kept with its keys, and its text comes to their circuit. -/
theorem limitService_spec {schema : Schema} {keys : SchemaKeys} {r : PresentationRequest}
    (hschema : orderedSchema limitOrder = .ok schema)
    (hkeys : makeKeys .ofOneKey schema default = .ok keys)
    (hr : prepare .standard schema keys limitOrder ⟨0, 0⟩ limitFresh = .ok r) :
    limitService.requests.get? limitId = some r ∧
      limitService.keys.get? r.schemaHash = some keys ∧ recompile? r keys = some keys.circuit := by
  obtain ⟨hid, hhash, -, hrecompiled⟩ := recompile?_of_prepare hschema hkeys hr
  have hid : limitId = r.id := hid.symm
  have hprepared := @prepareWithKeys_first .ofOneKey {} limitOrder limitFresh r ⟨0, 0⟩ schema keys
    hschema rfl hkeys hr
  have hservice := congrArg Prod.snd (perform_create hprepared)
  change limitService = _ at hservice
  rw [hservice]
  refine ⟨?_, ?_, hrecompiled⟩
  · change (Store.insert ∅ r.id r).get? limitId = some r
    rw [Store.get?_insert, if_pos hid]
  · change (Store.insert ∅ schema.hash keys).get? r.schemaHash = some keys
    rw [Store.get?_insert, if_pos hhash]

theorem openEnvelope_limit {key : VerifyingKey} (hkey : key ∈ [default, foreignKey]) :
    Base64.decode (Text.trim (Artifact.encodeText (limitResult key))) =
        .ok (Artifact.encode (limitResult key)) ∧
      Artifact.openEnvelope (Artifact.encode (limitResult key)) =
        .ok ((default : Proof).encode, key.encode, Artifact.encodeWitness [700, 5]) ∧
      Artifact.decodeVerifyingKey key.encode = .ok key :=
  ⟨Base64.decode_trim_encode _, Artifact.openEnvelope_encode (fits_limit hkey),
    Artifact.decodeAll_of_readsBack (readsBack_limit hkey)⟩

theorem decodeText_limit :
    Artifact.decodeText (limitSubmission default []).blob = .ok (limitResult default) := by
  have hkey : (default : VerifyingKey) ∈ [default, foreignKey] := List.mem_cons_self
  have hone := G1.readsBack_infinity
  exact Artifact.decodeText_encodeText (fits_limit hkey)
    (Proof.readsBack hone G2.readsBack_infinity hone) (readsBack_limit hkey)

theorem steered_differsHarmlessly {r : PresentationRequest}
    (hpinned : r.publicInputs.contains "limit" = true)
    (hpublic : ∀ key, r.Discloses key → key ∈ ["limit", "bonus"]) :
    (limitSubmission default []).DiffersHarmlessly r steeredSubmission where
  requestId := rfl
  challenge := rfl
  blob := by
    have hkey : (default : VerifyingKey) ∈ [default, foreignKey] := List.mem_cons_self
    have hkey' : foreignKey ∈ [default, foreignKey] := List.mem_cons_of_mem _ List.mem_cons_self
    obtain ⟨hbytes, hopen, hdecode⟩ := openEnvelope_limit hkey
    obtain ⟨hbytes', hopen', hdecode'⟩ := openEnvelope_limit hkey'
    exact .inr ⟨_, _, _, _, _, _, _, _, hbytes, hopen, hbytes', hopen', hdecode, hdecode'⟩
  inputs := by
    intro key hkey
    apply Json.Members.get?_insertAll_of_not_contains
    have hne : key ≠ "score" ∧ key ≠ "limit" := by
      rcases hkey with rfl | rfl | ⟨hfree, hdisclosed⟩
      · decide
      · decide
      · constructor
        · rintro rfl
          exact absurd (hpublic _ hdisclosed) (by decide)
        · rintro rfl
          rw [hpinned] at hfree
          exact nomatch hfree
    simp [Json.Members.contains, hne.1.symm, hne.2.symm]

/-- A submission that is accepted is accepted as well with another key in its envelope, a lower
limit, and a value of no public field. -/
theorem accepts_iff_proven_limit : ∃ r s',
    limitService.requests.get? limitId = some r ∧
      Proven .ofOneKey limitService r (limitSubmission default []) ⟨0, 0⟩ ∧
      (limitSubmission default []).DiffersHarmlessly r steeredSubmission ∧
      limitService.perform .ofOneKey (.submit (limitSubmission default []) ⟨0, 0⟩) =
        (.done (.accepted r), s') ∧
      limitService.perform .ofOneKey (.submit steeredSubmission ⟨0, 0⟩) =
        (.done (.accepted r), s') := by
  have hfacts := limit_facts
  simp only [Option.any_eq_true, Bool.and_eq_true, decide_eq_true_eq, Bool.not_eq_true'] at hfacts
  obtain ⟨schema, hschema, keys, hkeys, r, hr, ⟨⟨⟨⟨⟨⟨hkey, hpinned⟩, htime⟩, haudience⟩, hnonce⟩,
    hchallenge⟩, hfields⟩, hinputs⟩ := hfacts
  obtain ⟨hr, hkeys, hcircuit⟩ := limitService_spec (Outcome.of_toOption hschema)
    (Outcome.of_toOption hkeys) (Outcome.of_toOption hr)
  have hordered : r.publicInputs.Ascending := by
    have hsorted : (r.publicInputs.map Prod.fst).Pairwise (· < ·) := by
      rw [hpinned]
      decide
    exact List.pairwise_map.1 hsorted
  have haccepts : Accepts .ofOneKey keys keys.circuit (limitResult default) r
      (limitSubmission default []) ⟨0, 0⟩ := by
    refine ⟨?_, haudience, hnonce, hchallenge, decodeText_limit, hcircuit, hinputs, ?_⟩
    · rw [htime]
      exact Bool.false_ne_true
    · exact congrArg Except.ok (decide_eq_true hkey)
  have hproven : Proven .ofOneKey limitService r (limitSubmission default []) ⟨0, 0⟩ := by
    apply (check_eq_ok_iff hordered).1
    rw [hkeys]
    exact check_of_accepts haccepts
  have hpublic : ∀ key, r.Discloses key → key ∈ ["limit", "bonus"] := by
    rintro key ⟨schema, hschema, f, hf, rfl⟩
    obtain ⟨schema', hschema', hcompiled, -⟩ := recompile?_eq_some_iff.1 hcircuit
    obtain rfl := Except.ok.inj (hschema'.symm.trans hschema)
    rw [← hfields, (Circuit.compile_spec hcompiled).1]
    exact List.mem_map_of_mem hf
  have hlimit : r.publicInputs.contains "limit" = true := by
    have hmem : "limit" ∈ r.publicInputs.map Prod.fst := by
      rw [hpinned]
      decide
    obtain ⟨e, he, hname⟩ := List.mem_map.1 hmem
    exact List.any_eq_true.2 ⟨e, he, beq_iff_eq.2 hname⟩
  have hdiffers := steered_differsHarmlessly hlimit hpublic
  have hid : RequestId.parseTrimmed (limitSubmission default []).requestId = .ok limitId :=
    RequestId.parseTrimmed_text rfl
  obtain ⟨-, haccepted, hsame⟩ :=
    @accepts_iff_proven .ofOneKey limitService r _ ⟨0, 0⟩ limitId hordered hid hr
  obtain ⟨s', hs'⟩ := haccepted hproven
  exact ⟨r, s', hr, hproven, hdiffers, hs', (hsame _ hdiffers).trans hs'⟩

end Service
end PrivatePresentation
