import PrivatePresentation.Proofs.Circuit.PublicInputs
import PrivatePresentation.Proofs.Groth16.Envelope
import PrivatePresentation.Proofs.Json.PlainText
import PrivatePresentation.Proofs.Service.Acceptance
import PrivatePresentation.Proofs.Service.Perform
import PrivatePresentation.Proofs.Service.Provision
import PrivatePresentation.Proofs.Service.Replay

/-!
What a wallet builds.  A submission repeats what is pinned and nothing else, so it is accepted unless
the holder has supplied something that the verifier cannot know of, or what is pinned cannot be
repeated: an audience or a nonce that is no text, or a challenge of nothing but white space.
-/

namespace PrivatePresentation

/-- What is taken for granted of keys and proofs for a circuit: they are read back from their bytes, and
a proof for values that satisfy the circuit verifies under the key that was made with it. -/
structure ProofSystem.CompleteFor (ps : ProofSystem) (c : Circuit) (t : Groth16.Trapdoor) :
    Prop where
  keyReadsBack : ∀ pk, ps.setupCircuit c t = .ok pk →
    Decoder.ReadsBack VerifyingKey.decode VerifyingKey.encode pk.verifying
  proofReadsBack : ∀ pk i b proof, ps.setupCircuit c t = .ok pk →
    ps.proveInstance pk i b = .ok proof → Decoder.ReadsBack Proof.decode Proof.encode proof
  verifies : ∀ pk values a b proof, ps.setupCircuit c t = .ok pk → c.assign values = .ok a →
    ps.proveInstance pk ⟨c, some a⟩ b = .ok proof →
    ps.verify pk.verifying proof a.inputs = .ok true

/-- All of this is taken for granted of the schemas and the secrets that are used. -/
def ProofSystem.CompleteOn (ps : ProofSystem) (u : Usage) : Prop :=
  ∀ s c t, u.schemas s → Circuit.compile s = .ok c → u.secrets t → ps.CompleteFor c t

namespace Wallet

variable {ps : ProofSystem} {d : PresentationDescriptor} {s : Schema} {pk : ProvingKey}
variable {holder : Json.Members} {b : Groth16.Blinding} {sub : Submission}

/-- A submission holds a proof for the pinned values over those of the holder, and repeats the pinned
ones. -/
theorem of_buildSubmission (h : buildSubmission ps d s pk holder b = .ok sub) : ∃ c a proof,
    Circuit.compile s = .ok c ∧
      c.assign (declaredInputs s (mergeInputs d.publicInputs holder)) = .ok a ∧
      ps.proveInstance pk ⟨c, some a⟩ b = .ok proof ∧
      Artifact.Fits ⟨proof, pk.verifying, a.inputs, none⟩ ∧
      sub = ⟨d.requestId.text, Artifact.encodeText ⟨proof, pk.verifying, a.inputs, none⟩,
        d.publicInputs, if d.challenge.isEmpty then none else some d.challenge⟩ := by
  obtain ⟨blob, hblob, h⟩ := Outcome.of_bind h
  obtain rfl := Except.ok.inj h
  obtain ⟨compiled, hcompiled, hblob⟩ := Outcome.of_bind hblob
  obtain ⟨witnessed, hwitnessed, hblob⟩ := Outcome.of_bind hblob
  obtain ⟨result, hresult, hblob⟩ := Outcome.of_bind hblob
  obtain ⟨bytes, hbytes, hblob⟩ := Outcome.of_bind (Outcome.of_mapError hblob)
  obtain ⟨hfits, hbytes⟩ := Outcome.of_guard_else hbytes
  obtain rfl := Except.ok.inj hbytes
  obtain rfl := Except.ok.inj hblob
  obtain ⟨c, hc, hcompiled⟩ := Outcome.of_bind (Outcome.of_mapError hcompiled)
  obtain ⟨count, -, hcompiled⟩ := Outcome.of_bind hcompiled
  obtain rfl := Except.ok.inj hcompiled
  obtain ⟨a, ha, hwitnessed⟩ := Outcome.of_bind (Outcome.of_mapError hwitnessed)
  obtain rfl := Except.ok.inj hwitnessed
  obtain ⟨proof, hproof, hresult⟩ := Outcome.of_bind (Outcome.of_mapError hresult)
  obtain rfl := Except.ok.inj hresult
  exact ⟨c, a, proof, Outcome.of_mapError hc, Outcome.of_mapError ha, Outcome.of_mapError hproof,
    hfits, rfl⟩

end Wallet

/-- A request that has been made has an identifier of sixteen bytes, its inputs in order, a nonce
without white space around it, and the text and the hash of a schema that is used. -/
theorem PresentationRequest.Made.spec {ps : ProofSystem} {u : Usage} {r : PresentationRequest}
    (hr : r.Made ps u) :
    r.id.bytes.length = 16 ∧ r.publicInputs.Ascending ∧
      (∀ t, r.nonce = some t → Text.trim t = t) ∧
      ∃ schema, u.schemas schema ∧ r.schemaText = schema.canonical.text ∧
        r.schemaHash = schema.hash := by
  obtain ⟨order, now, fresh, config, schema, keys, horder, hschema, hkeys, hhash, hprepare⟩ := hr
  have hprepared : PreparedFor order now fresh r := ⟨config, schema, keys, hschema, hprepare⟩
  have hordered := hprepared.ascending horder.inputs
  have hnonce (t : String) (ht : r.nonce = some t) : Text.trim t = t := by
    obtain ⟨id, -, htext⟩ := horder.nonce
    rw [hprepared.nonce ht, htext, RequestId.trim_text]
  obtain ⟨-, -, hprepare⟩ := Outcome.of_bind hprepare
  obtain rfl := Except.ok.inj hprepare
  exact ⟨horder.id, hordered, hnonce, schema, horder.schema schema hschema, rfl, hhash⟩

namespace Service

section Repeating

variable {r : PresentationRequest} {sub : Submission}

/-- What is pinned as a text without white space around it is repeated by repeating what is pinned. -/
theorem repeats_pinned {key : String} (hsub : sub.publicInputs = r.publicInputs)
    (htrim : ∀ t, (Json.Members.get? key r.publicInputs).bind Json.text? = some t →
      Text.trim t = t) :
    repeats sub key ((Json.Members.get? key r.publicInputs).bind Json.text?) = true ↔
      ((Json.Members.get? key r.publicInputs).bind Json.text?).isSome = true := by
  unfold repeats
  rw [hsub]
  cases hv : Json.Members.get? key r.publicInputs with
  | none => simp
  | some v =>
      cases v with
      | string t =>
          have ht : Text.trim t = t := htrim t (by rw [hv]; rfl)
          simp [Json.text?, Json.plainText, ht]
      | _ => simp [Json.text?]

theorem trim_challenge {t : String} (ht : r.challenge = some t) : Text.trim t = t := by
  unfold PresentationRequest.challenge at ht
  split at ht
  · cases ht
  · cases ht
  · obtain rfl := Option.some.inj ht
    exact Json.trim_plainText _

/-- A challenge is answered by sending it back, unless it is empty and therefore left out. -/
theorem answersChallenge_built
    (hsub : sub.challenge =
      if (r.challenge.getD "").isEmpty then none else some (r.challenge.getD "")) :
    answersChallenge r sub = true ↔ r.challenge ≠ some "" := by
  rw [answersChallenge, hsub]
  cases ht : r.challenge with
  | none => simp
  | some t =>
      have htrim := trim_challenge ht
      by_cases hempty : t = ""
      · simp [hempty]
      · simp [hempty, htrim]

/-- With a proof that verifies, a submission in time is accepted exactly if it repeats what it has to
and the proof is about the public inputs that the request asks for. -/
theorem check_proven_iff {ps : ProofSystem} {keys : SchemaKeys} {circuit : Circuit}
    {blob : ProofResult} {now : Timestamp} (htime : r.isExpired now = false)
    (hblob : Artifact.decodeText sub.blob = .ok blob) (hcircuit : recompile? r keys = some circuit)
    (hverify : ps.verify keys.keys.verifying blob.proof blob.publicWitness = .ok true) :
    check ps (some keys) r sub now = .ok () ↔
      repeats sub Pinned.audience r.audience = true ∧ repeats sub Pinned.nonce r.nonce = true ∧
        answersChallenge r sub = true ∧
          circuit.publicInputsFrom (overlaid r sub) = .ok blob.publicWitness := by
  constructor
  · intro hcheck
    obtain ⟨keys', circuit', blob', hkeys, h⟩ := check_ok_spec hcheck
    obtain rfl := Option.some.inj hkeys
    obtain rfl := Except.ok.inj (hblob.symm.trans h.decoded)
    obtain rfl := Option.some.inj (hcircuit.symm.trans h.recompiled)
    exact ⟨h.audience, h.nonce, h.challenge, h.inputs⟩
  · rintro ⟨haudience, hnonce, hchallenge, hinputs⟩
    exact check_of_accepts ⟨Bool.eq_false_iff.1 htime, haudience, hnonce, hchallenge, hblob,
      hcircuit, hinputs, hverify⟩

end Repeating

section Supplying

variable {r : PresentationRequest} {sub : Submission} {holder : Json.Members} {f : FieldDecl}

/-- A field that is not pinned is left out of the submission.  The verifier takes it for zero, if it is
not required; so nothing but zero can have been proven of it. -/
theorem publicInput_repeated_iff (hordered : r.publicInputs.Ascending)
    (hsub : sub.publicInputs = r.publicInputs) {x : Scalar}
    (hx : Circuit.publicInput (Wallet.mergeInputs r.publicInputs holder) f = .ok x) :
    Circuit.publicInput (overlaid r sub) f = .ok x ↔
      (Json.Members.get? f.name r.publicInputs = none →
        f.required = false ∧
          ∀ v ∈ Json.Members.get? f.name holder, normalize f v = .ok 0) := by
  rw [Circuit.publicInput, Wallet.mergeInputs, Json.Members.get?_insertAll hordered] at hx
  rw [Circuit.publicInput, overlaid, hsub, Json.Members.get?_insertAll hordered]
  cases hpinned : Json.Members.get? f.name r.publicInputs with
  | some v =>
      rw [hpinned] at hx
      refine ⟨fun _ hnone => ?_, fun _ => hx⟩
      cases hnone
  | none =>
      rw [hpinned, Option.none_or] at hx
      rw [Option.none_or]
      by_cases hrequired : f.required = true
      · simp [hrequired]
      · rw [Bool.not_eq_true] at hrequired
        cases hv : Json.Members.get? f.name holder with
        | none =>
            rw [hv] at hx
            simpa [hrequired] using hx
        | some v =>
            rw [hv] at hx
            have hx := Outcome.of_mapError hx
            simp [hrequired, hx, eq_comm]

/-- The verifier gets the public inputs that have been proven exactly if it takes for zero only what is
zero. -/
theorem publicInputs_repeated_iff {schema : Schema} {circuit : Circuit} {a : Assignment}
    (hnodup : (schema.fields.map (·.name)).Nodup) (hcircuit : Circuit.compile schema = .ok circuit)
    (hordered : r.publicInputs.Ascending) (hsub : sub.publicInputs = r.publicInputs)
    (ha : circuit.assign
      (Wallet.declaredInputs schema (Wallet.mergeInputs r.publicInputs holder)) = .ok a) :
    circuit.publicInputsFrom (overlaid r sub) = .ok a.inputs ↔
      ∀ f ∈ schema.publicFields, Json.Members.get? f.name r.publicInputs = none →
        f.required = false ∧
          ∀ v ∈ Json.Members.get? f.name holder, normalize f v = .ok 0 := by
  have hlayout := (Circuit.compile_spec hcircuit).1
  have hpublic : circuit.layout.publicFields = schema.publicFields := by
    rw [hlayout]
    rfl
  have hproven : circuit.publicInputsFrom (Wallet.mergeInputs r.publicInputs holder) =
      .ok a.inputs := by
    rw [← Circuit.publicInputsFrom_of_assign (hlayout ▸ hnodup) ha]
    apply Circuit.publicInputsFrom_congr
    intro f hf
    rw [hpublic] at hf
    exact (Wallet.get?_declaredInputs hnodup (List.mem_filter.1 hf).1 _).symm
  rw [Circuit.publicInputsFrom, hpublic] at hproven ⊢
  constructor
  · intro hinputs f hf
    obtain ⟨x, hx, hx'⟩ := Outcome.mapM_inj hproven hinputs f hf
    exact (publicInput_repeated_iff hordered hsub hx).1 hx'
  · intro hsupplied
    rw [← hproven]
    apply Outcome.mapM_congr
    intro f hf
    obtain ⟨x, hx, -⟩ := Outcome.mapM_inj hproven hproven f hf
    rw [hx]
    exact (publicInput_repeated_iff hordered hsub hx).2 (hsupplied f hf)

end Supplying

end Service

/-- A request can be answered by repeating what it pins: the audience and the nonce are texts, the
challenge is not blank, and a public field that is not pinned is not required, and zero if the holder
supplies it. -/
structure PresentationRequest.Repeatable (r : PresentationRequest) (s : Schema)
    (holder : Json.Members) : Prop where
  audience : r.audience.isSome = true
  nonce : r.nonce.isSome = true
  challenge : r.challenge ≠ some ""
  supplied : ∀ f ∈ s.publicFields, Json.Members.get? f.name r.publicInputs = none →
    f.required = false ∧ ∀ v ∈ Json.Members.get? f.name holder, normalize f v = .ok 0

instance (r : PresentationRequest) (s : Schema) (holder : Json.Members) :
    Decidable (r.Repeatable s holder) :=
  decidable_of_iff
    (r.audience.isSome = true ∧ r.nonce.isSome = true ∧ r.challenge ≠ some "" ∧
      ∀ f ∈ s.publicFields, Json.Members.get? f.name r.publicInputs = none →
        f.required = false ∧ ∀ v ∈ Json.Members.get? f.name holder, normalize f v = .ok 0)
    ⟨fun ⟨haudience, hnonce, hchallenge, hsupplied⟩ => ⟨haudience, hnonce, hchallenge, hsupplied⟩,
      fun ⟨haudience, hnonce, hchallenge, hsupplied⟩ => ⟨haudience, hnonce, hchallenge, hsupplied⟩⟩

namespace World

variable {ps : ProofSystem} {u : Usage} {w : World} {r : PresentationRequest} {keys : SchemaKeys}

/-- The keys that are kept for a request have been made for its own schema. -/
theorem Served.keys_spec (hw : w.Served ps u) (hu : u.Sound)
    (hr : w.service.requests.get? r.id = some r)
    (hkeys : w.service.keys.get? r.schemaHash = some keys) :
    r.Made ps u ∧ Schema.parse r.schemaText = .ok keys.schema ∧ u.schemas keys.schema ∧
      Circuit.compile keys.schema = .ok keys.circuit ∧
      ∃ t, u.secrets t ∧ ps.setupCircuit keys.circuit t = .ok keys.keys := by
  obtain ⟨hservice, -⟩ := hw.provided
  have hmade := hservice.requests _ (Store.get?_eq_some_iff.1 hr)
  obtain ⟨hhash, hkept⟩ := hservice.keys _ (Store.get?_eq_some_iff.1 hkeys)
  obtain ⟨-, -, -, schema, hschema, htext, hhash'⟩ := hmade.spec
  obtain ⟨t, ht, hmake⟩ := hkept.made
  obtain ⟨-, hcompile, hsetup⟩ := Service.makeKeys_spec hmake
  obtain ⟨document, hread⟩ := hu.read keys.schema hkept.used
  have hsame : schema = keys.schema :=
    hu.eq_of_hash hschema hkept.used (hhash'.symm.trans hhash.symm)
  refine ⟨hmade, ?_, hkept.used, hcompile, t, ht, hsetup⟩
  rw [htext, hsame, Schema.parse_canonical hread]

/-- What a wallet builds for a pending request, with the keys that the verifier keeps, is accepted in
time exactly if the request can be answered by repeating what it pins. -/
theorem Served.accepts_built_iff {schema : Schema} {holder : Json.Members} {b : Groth16.Blinding}
    {sub : Submission} {now : Timestamp} (hu : u.Sound) (hps : ps.CompleteOn u)
    (hw : w.Served ps u)
    (hr : w.service.requests.get? r.id = some r)
    (hkeys : w.service.keys.get? r.schemaHash = some keys)
    (hschema : Schema.parse r.schemaText = .ok schema)
    (haudience : ∀ t, r.audience = some t → Text.trim t = t)
    (hsub : Wallet.buildSubmission ps (.ofRequest r w.service.config) schema keys.keys holder b =
      .ok sub)
    (htime : r.isExpired now = false) :
    (∃ s', w.service.perform ps (.submit sub now) = (.done (.accepted r), s')) ↔
      r.Repeatable schema holder := by
  obtain ⟨hmade, hparse, hused, hcompile, t, ht, hsetup⟩ := hw.keys_spec hu hr hkeys
  obtain ⟨hid, hordered, hnonce, -⟩ := hmade.spec
  obtain rfl := Except.ok.inj (hschema.symm.trans hparse)
  obtain ⟨circuit, a, proof, hcircuit, ha, hproof, hfits, hsub⟩ := Wallet.of_buildSubmission hsub
  obtain rfl := Except.ok.inj (hcompile.symm.trans hcircuit)
  have hpinned : sub.publicInputs = r.publicInputs := congrArg Submission.publicInputs hsub
  have hchallenge : sub.challenge =
      if (r.challenge.getD "").isEmpty then none else some (r.challenge.getD "") :=
    congrArg Submission.challenge hsub
  have hparseId : RequestId.parseTrimmed sub.requestId = .ok r.id := by
    rw [congrArg Submission.requestId hsub]
    exact RequestId.parseTrimmed_text hid
  have hcomplete := hps keys.schema keys.circuit t hused hcompile ht
  have hblob : Artifact.decodeText sub.blob =
      .ok ⟨proof, keys.keys.verifying, a.inputs, none⟩ := by
    rw [congrArg Submission.blob hsub]
    exact Artifact.decodeText_encodeText hfits (hcomplete.proofReadsBack _ _ _ _ hsetup hproof)
      (hcomplete.keyReadsBack _ hsetup)
  have hrecompile : Service.recompile? r keys = some keys.circuit :=
    Service.recompile?_eq_some_iff.2 ⟨keys.schema, hparse, hcompile, rfl⟩
  have hverify := hcomplete.verifies _ _ _ _ _ hsetup ha hproof
  have hnodup := (Schema.parseBytes_wellFormed hparse).nodup
  rw [Service.exists_accepted_iff (Service.malformed?_eq_none hparseId hblob) hparseId hr, hkeys,
    Service.check_proven_iff htime hblob hrecompile hverify,
    Service.publicInputs_repeated_iff hnodup hcompile hordered hpinned ha,
    Service.answersChallenge_built hchallenge]
  have hrepeatsAudience := Service.repeats_pinned hpinned haudience
  have hrepeatsNonce := Service.repeats_pinned hpinned hnonce
  constructor
  · rintro ⟨haud, hnon, hchallenged, hsupplied⟩
    exact ⟨hrepeatsAudience.1 haud, hrepeatsNonce.1 hnon, hchallenged, hsupplied⟩
  · rintro ⟨haud, hnon, hchallenged, hsupplied⟩
    exact ⟨hrepeatsAudience.2 haud, hrepeatsNonce.2 hnon, hchallenged, hsupplied⟩

/-- An order for a presentation about a threshold. -/
def thresholdCall : Call :=
  .create
    { schemaText := some CircuitInstance.thresholdText, publicInputs := [("threshold", .int 700)] }
    ⟨0, 0⟩ ⟨Service.limitId, ⟨Service.limitId.text⟩, default⟩

/-- A service of which a presentation about a threshold has been ordered. -/
def thresholdWorld : World := (World.mk {} []).perform .ofOneKey 2 thresholdCall

/-- What the wallet builds with some values for the ordered presentation. -/
def thresholdBuilt? (r : PresentationRequest) (keys : SchemaKeys) (schema : Schema)
    (holder : Json.Members) : Option Submission :=
  (Wallet.buildSubmission .ofOneKey (.ofRequest r thresholdWorld.service.config) schema keys.keys
    holder default).toOption

theorem threshold_facts :
    (thresholdWorld.service.requests.get? Service.limitId).any (fun r =>
      r.id == Service.limitId && !r.isExpired ⟨0, 0⟩ &&
        r.audience.all (fun t => Text.trim t == t) &&
        (thresholdWorld.service.keys.get? r.schemaHash).any fun keys =>
          (Schema.parse r.schemaText).toOption.any fun schema =>
            (thresholdBuilt? r keys schema [("score", .int 720)]).isSome &&
            (thresholdBuilt? r keys schema [("bonus", .int 5), ("score", .int 720)]).isSome &&
            decide (r.Repeatable schema [("score", .int 720)]) &&
            !decide (r.Repeatable schema [("bonus", .int 5), ("score", .int 720)])) = true := by
  decide +kernel

/-- Presentations about a threshold and nothing else. -/
def thresholdUsage : Usage where
  schemas s := Schema.parse CircuitInstance.thresholdText = .ok s
  secrets _ := True

theorem sound_thresholdUsage : thresholdUsage.Sound := Usage.sound_of_text fun _ hs => hs

theorem served_thresholdWorld : thresholdWorld.Served .ofOneKey thresholdUsage := by
  have hnone : ∀ id ∈ thresholdCall.drawn, id ∉ (World.mk {} []).drawn := fun _ _ =>
    List.not_mem_nil
  have hcalls : thresholdWorld.operations.map (·.call) = [thresholdCall] := rfl
  apply served_of_steps (steps_perform 2 hnone)
  intro o ho order now fresh hcall
  have hmem : o.call ∈ [thresholdCall] := hcalls ▸ List.mem_map_of_mem ho
  rw [hcall, List.mem_singleton] at hmem
  obtain ⟨rfl, rfl, rfl⟩ := Call.create.inj hmem
  constructor
  · intro s hs
    rw [Service.orderedSchema] at hs
    exact Outcome.of_mapError hs
  · exact List.pairwise_singleton _ _
  · rfl
  · exact ⟨Service.limitId, rfl, rfl⟩
  · trivial

theorem completeFor_ofOneKey (c : Circuit) (t : Groth16.Trapdoor) :
    ProofSystem.ofOneKey.CompleteFor c t := by
  have hkey : ∀ pk, ProofSystem.ofOneKey.setupCircuit c t = .ok pk → pk = default := by
    intro pk hpk
    obtain ⟨s, -, hpk⟩ := Outcome.of_bind hpk
    exact (Except.ok.inj hpk).symm
  constructor
  · intro pk hpk
    obtain rfl := hkey pk hpk
    exact Service.readsBack_limit List.mem_cons_self
  · intro pk i b proof hpk hproof
    unfold ProofSystem.proveInstance at hproof
    split at hproof
    · cases hproof
    · obtain ⟨satisfied, -, hproof⟩ := Outcome.of_bind hproof
      cases satisfied with
      | false =>
          obtain ⟨label, -, hproof⟩ := Outcome.of_bind hproof
          obtain ⟨-, hproof, -⟩ := Outcome.of_bind hproof
          cases hproof
      | true =>
          obtain ⟨f, -, hproof⟩ := Outcome.of_bind hproof
          obtain rfl := Except.ok.inj hproof
          have hone := G1.readsBack_infinity
          exact Proof.readsBack hone G2.readsBack_infinity hone
  · intro pk values a b proof hpk ha hproof
    obtain rfl := hkey pk hpk
    rfl

/-- What a wallet builds about a threshold is accepted, but not if the holder supplies a bonus as well,
which the request does not pin. -/
theorem accepts_built_iff_threshold : ∃ r keys schema sub sub' s',
    thresholdWorld.service.requests.get? r.id = some r ∧
      thresholdWorld.service.keys.get? r.schemaHash = some keys ∧
      thresholdBuilt? r keys schema [("score", .int 720)] = some sub ∧
      thresholdBuilt? r keys schema [("bonus", .int 5), ("score", .int 720)] = some sub' ∧
      thresholdWorld.service.perform .ofOneKey (.submit sub ⟨0, 0⟩) = (.done (.accepted r), s') ∧
      ¬∃ s', thresholdWorld.service.perform .ofOneKey (.submit sub' ⟨0, 0⟩) =
        (.done (.accepted r), s') := by
  obtain ⟨r, hr, hfacts⟩ := (Option.any_eq_true _ _).1 threshold_facts
  simp only [Bool.and_eq_true, Option.any_eq_true, Option.isSome_iff_exists, decide_eq_true_eq,
    Bool.not_eq_true', decide_eq_false_iff_not, beq_iff_eq, Option.all_eq_true] at hfacts
  obtain ⟨⟨⟨hid, htime⟩, haudience⟩, keys, hkeys, schema, hschema,
    ⟨⟨⟨sub, hsub⟩, sub', hsub'⟩, hrepeatable⟩, hbonus⟩ := hfacts
  rw [← hid] at hr
  have hschema := Outcome.of_toOption hschema
  have hcomplete : ProofSystem.ofOneKey.CompleteOn thresholdUsage := fun _ c t _ _ _ =>
    completeFor_ofOneKey c t
  have haccepted := (Served.accepts_built_iff sound_thresholdUsage hcomplete served_thresholdWorld hr
    hkeys hschema haudience (Outcome.of_toOption hsub) htime).2 hrepeatable
  have hrefused := mt (Served.accepts_built_iff sound_thresholdUsage hcomplete served_thresholdWorld
    hr hkeys hschema haudience (Outcome.of_toOption hsub') htime).1 hbonus
  obtain ⟨s', hs'⟩ := haccepted
  exact ⟨r, keys, schema, sub, sub', s', hr, hkeys, hsub, hsub', hs', hrefused⟩

end World
end PrivatePresentation
