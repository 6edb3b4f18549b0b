import PrivatePresentation.Proofs.Circuit.Plan
import PrivatePresentation.Proofs.Service.Provision
import PrivatePresentation.Proofs.Service.Registrations
import PrivatePresentation.Proofs.Service.SettledOnce

/-!
Requests stay verifiable.  The keys for a request are there before the request is, and nothing takes them
away: they would be given up only if the schema of a request, read again from its text, came to another
circuit than the one that they were made for.  The text is canonical and is read back as the schema, so
this never happens, and whoever is turned down has his own inputs to blame.
-/

namespace PrivatePresentation

/-- A value that is supplied for the request is wrong or missing: that of a public field which the request
does not pin. -/
def Submission.Lacks (sub : Submission) (r : PresentationRequest) (detail : String) : Prop :=
  ∃ schema f cause, Schema.parse r.schemaText = .ok schema ∧ f ∈ schema.publicFields ∧
    Json.Members.get? f.name r.publicInputs = none ∧
    Circuit.publicInput sub.publicInputs f = .error cause ∧ detail = cause.message

/-- The error is no fault of the verifier's, whatever requests the submission has taken. -/
structure VerificationError.IsFaultOf (e : VerificationError) (sub : Submission)
    (taken : List PresentationRequest) : Prop where
  keys : e ≠ .keyUnavailable
  layout : e ≠ .layoutDivergence
  inputs : ∀ detail, e = .publicInputsInvalid detail → ∃ r ∈ taken, sub.IsFor r ∧ sub.Lacks r detail

theorem VerificationError.IsFaultOf.mono {e : VerificationError} {sub : Submission}
    {taken taken' : List PresentationRequest} (h : e.IsFaultOf sub taken)
    (htaken : taken ⊆ taken') : e.IsFaultOf sub taken' where
  keys := h.keys
  layout := h.layout
  inputs detail he := by
    obtain ⟨r, hr, hlacks⟩ := h.inputs detail he
    exact ⟨r, htaken hr, hlacks⟩

theorem VerificationError.IsFaultOf.of_not_decisive {e : VerificationError} (he : ¬e.IsDecisive)
    (sub : Submission) (taken : List PresentationRequest) : e.IsFaultOf sub taken := by
  cases e with
  | notFound => exact ⟨nofun, nofun, nofun⟩
  | malformedSubmission detail => exact ⟨nofun, nofun, nofun⟩
  | _ => exact absurd ⟨nofun, nofun⟩ he

/-- A request that has been made pins values of the fields that are public in its own schema. -/
theorem PresentationRequest.Made.pins {ps : ProofSystem} {u : Usage} {r : PresentationRequest}
    (hr : r.Made ps u) : r.publicInputs.Ascending ∧ ∃ (schema : Schema) (keys : SchemaKeys), u.schemas schema ∧
      r.schemaText = schema.canonical.text ∧ r.schemaHash = schema.hash ∧
      keys.Made ps u ∧ keys.schema.hash = schema.hash ∧
      Service.checkPinned r.publicInputs keys.circuit.layout.publicFields = .ok () := by
  obtain ⟨order, now, fresh, config, schema, keys, horder, hschema, hkeys, hhash, hprepare⟩ := hr
  have hprepared : PreparedFor order now fresh r := ⟨config, schema, keys, hschema, hprepare⟩
  have hordered := hprepared.ascending horder.inputs
  obtain ⟨_, hpinned, hprepare⟩ := Outcome.of_bind hprepare
  obtain rfl := Except.ok.inj hprepare
  exact ⟨hordered, schema, keys, horder.schema schema hschema, rfl, hhash, hkeys, hhash, hpinned⟩

namespace Service

/-- All that a check needs for a request besides a submission: the keys for its schema, which its text is
read as and comes to the same circuit for; and the values that it pins are instances of their fields. -/
structure Verifies (s : Service) (r : PresentationRequest) (keys : SchemaKeys) : Prop where
  kept : s.keys.get? r.schemaHash = some keys
  text : keys.schema.canonical.text = r.schemaText
  parsed : Schema.parse r.schemaText = .ok keys.schema
  compiled : Circuit.compile keys.schema = .ok keys.circuit
  recompiled : recompile? r keys = some keys.circuit
  pinned : ∀ f ∈ keys.schema.publicFields, ∀ v, Json.Members.get? f.name r.publicInputs = some v →
    ∃ x, normalize f v = .ok x

variable {ps : ProofSystem} {u : Usage} {s : Service} {r : PresentationRequest} {keys : SchemaKeys}

theorem normalize_of_checkPinned {inputs : Json.Members} {fields : List FieldDecl}
    (h : checkPinned inputs fields = .ok ()) :
    ∀ f ∈ fields, ∀ v, Json.Members.get? f.name inputs = some v → ∃ x, normalize f v = .ok x := by
  induction fields with
  | nil => exact fun _ hf => absurd hf List.not_mem_nil
  | cons f rest ih =>
      rw [checkPinned] at h
      rw [List.forall_mem_cons]
      split at h
      · rename_i hnone
        refine ⟨fun v hv => ?_, ih h⟩
        exact nomatch hnone.symm.trans hv
      · rename_i v hv
        split at h
        · rename_i x hx
          refine ⟨fun v' hv' => ?_, ih h⟩
          obtain rfl := Option.some.inj (hv.symm.trans hv')
          exact ⟨x, hx⟩
        · exact nomatch h

/-- Keys that are kept for a request are for its own schema. -/
theorem Provided.verifies (hs : s.Provided ps u) (hu : u.Sound) (hr : r.Made ps u)
    (hkeys : s.keys.get? r.schemaHash = some keys) : s.Verifies r keys := by
  obtain ⟨hhash, hkept⟩ := hs.keys _ (Store.get?_eq_some_iff.1 hkeys)
  obtain ⟨-, schema, keys', hschema, htext, hhash', hmade', hsame, hpinned⟩ := hr.pins
  obtain rfl : schema = keys.schema :=
    hu.eq_of_hash hschema hkept.used (hhash'.symm.trans hhash.symm)
  obtain ⟨_, -, hmake⟩ := hkept.made
  obtain ⟨-, hcompile, -⟩ := makeKeys_spec hmake
  -- The keys that the pinned values were checked with were made for the same schema.
  obtain ⟨_, -, hmake'⟩ := hmade'.made
  obtain ⟨-, hcompile', -⟩ := makeKeys_spec hmake'
  have hlayout : keys'.circuit.layout = ⟨keys.schema.fields⟩ := by
    rw [(Circuit.compile_spec hcompile').1, hu.eq_of_hash hmade'.used hkept.used hsame]
  obtain ⟨document, hread⟩ := hu.read keys.schema hkept.used
  have hparse : Schema.parse r.schemaText = .ok keys.schema := by
    rw [htext]
    exact Schema.parse_canonical hread
  refine ⟨hkeys, htext.symm, hparse, hcompile,
    recompile?_eq_some_iff.2 ⟨keys.schema, hparse, hcompile, rfl⟩, ?_⟩
  rw [hlayout] at hpinned
  exact normalize_of_checkPinned hpinned

/-- A submission to a request that the service is ready for is turned down for its own faults. -/
theorem Verifies.isFaultOf (h : s.Verifies r keys) (hordered : r.publicInputs.Ascending)
    {sub : Submission} (hsub : sub.IsFor r) {now : Timestamp} {e : VerificationError}
    (hcheck : check ps (s.keys.get? r.schemaHash) r sub now = .error e) : e.IsFaultOf sub [r] := by
  rw [h.kept] at hcheck
  cases check_error_spec hcheck with
  | keys hnone => cases hnone
  | layout hkeys hnone =>
      obtain rfl := Option.some.inj hkeys
      cases hnone.symm.trans h.recompiled
  | @inputs _ circuit fault hkeys hcircuit hinputs =>
      obtain rfl := Option.some.inj hkeys
      obtain rfl := Option.some.inj (hcircuit.symm.trans h.recompiled)
      obtain ⟨f, hf, hfault⟩ := Outcome.error_of_mapM hinputs
      have hf : f ∈ keys.schema.publicFields := by
        rw [(Circuit.compile_spec h.compiled).1] at hf
        exact hf
      have hunpinned : Json.Members.get? f.name r.publicInputs = none := by
        rw [Option.eq_none_iff_forall_ne_some]
        intro v hv
        obtain ⟨x, hx⟩ := h.pinned f hf v hv
        have hvalue := (@publicInput_overlaid r sub hordered f x).2 (by rw [hv]; exact hx)
        cases hfault.symm.trans hvalue
      have hlacks : sub.Lacks r fault.message := by
        refine ⟨keys.schema, f, fault, h.parsed, hf, hunpinned, ?_, rfl⟩
        rw [← hfault, Circuit.publicInput, Circuit.publicInput, overlaid,
          Json.Members.get?_insertAll hordered, hunpinned, Option.none_or]
      refine ⟨fun he => ?_, fun he => ?_, fun detail he => ⟨r, List.mem_cons_self, hsub, ?_⟩⟩
      · cases he
      · cases he
      · obtain rfl := VerificationError.publicInputsInvalid.inj he
        exact hlacks
  | _ =>
      refine ⟨fun he => ?_, fun he => ?_, fun _ he => ?_⟩
      · cases he
      · cases he
      · cases he

end Service

section Step

variable {ps : ProofSystem} {s s' : Service} {t' : Task} {effect : Effect}

/-- A step takes no keys away, unless it is a check that finds another circuit than theirs. -/
theorem Task.Moves.get?_keys {t : Task} (h : t.Moves ps s effect t' s') {hash : ContentDigest}
    {keys : SchemaKeys} (hget : s.keys.get? hash = some keys)
    (hcheck : ∀ r sub now, t = .check r sub now →
      Service.check ps (s.keys.get? r.schemaHash) r sub now ≠ .error .layoutDivergence) :
    s'.keys.get? hash = some keys := by
  cases h with
  | prepares hprepares => exact hprepares.get?_kept hget
  | refuses hprepares => exact hprepares.get?_kept hget
  | evicts hdiverges => exact absurd hdiverges (hcheck _ _ _ rfl)
  | _ => exact hget

/-- A submission that is turned down after a step was so before, or it has settled nothing, or its request
has just been checked. -/
theorem Submitting.rejected_before {sub : Submission} {now : Timestamp} {t : Task}
    {taken : List PresentationRequest} {recorded : List Delivery}
    (ht : Submitting ps sub now t taken recorded) (h : t.Moves ps s effect t' s')
    {e : VerificationError} (he : t'.last = .done (.rejected e)) :
    t.last = .done (.rejected e) ∨ ¬e.IsDecisive ∨ ∃ r, t = .check r sub now ∧ taken = [r] ∧
      sub.IsFor r ∧ Service.check ps (s.keys.get? r.schemaHash) r sub now = .error e := by
  cases ht with
  | called =>
      refine .inr (.inl ?_)
      cases h with
      | malformed hmalformed =>
          obtain rfl := Answer.rejected.inj (Task.done.inj he)
          exact Service.malformed?_not_decisive hmalformed
      | notFound hwell hnone =>
          obtain rfl := Answer.rejected.inj (Task.done.inj he)
          exact fun hdecisive => hdecisive.1 rfl
      | takes hwell hid hget => cases he
  | checking hr =>
      cases h with
      | checks hkept =>
          exact .inr (.inr ⟨_, rfl, rfl, hr, Answer.of_ofCheck_rejected (Task.done.inj he)⟩)
      | evicts hcheck =>
          exact .inr (.inr ⟨_, rfl, rfl, hr, Answer.of_ofCheck_rejected (Task.done.inj he)⟩)
  | telling hr keys? hstage =>
      cases h with
      | records => exact absurd rfl hstage
      | notifies => exact .inl he
      | delivers => exact .inl he
  | recording hr keys? =>
      cases h with
      | records => exact .inl he
  | refused hrefused =>
      cases h with
      | rests => exact .inl he
  | settled hr keys? =>
      cases h with
      | rests => exact .inl he

/-- A request that is about to be kept or has been made after a step was so before, or it has just been
prepared. -/
theorem Operation.Sound.made_before {o : Operation} (ho : o.Sound ps) (hown : s.RequestsOwn)
    (h : o.rest.Moves ps s effect t' s') {r : PresentationRequest}
    (hr : t' = .save r ∨ t' = .done (.created r)) :
    (o.rest = .save r ∨ o.rest = .done (.created r)) ∨ ∃ order now fresh,
      o.rest = .create order now fresh ∧ s.Prepares ps order now fresh (.ok r) s' := by
  obtain ⟨c, t, taken, recorded⟩ := o
  cases c with
  | create order now fresh =>
      have ht : Creating order now fresh t := ho
      cases ht with
      | called =>
          cases h with
          | prepares hprepares =>
              obtain rfl := Task.save.inj (hr.resolve_right fun h => by cases h)
              exact .inr ⟨_, _, _, rfl, hprepares⟩
          | refuses hprepares =>
              rcases hr with hr | hr
              · cases hr
              · cases hr
      | prepared hprepared =>
          cases h with
          | saves =>
              obtain rfl := Answer.created.inj (Task.done.inj (hr.resolve_left fun h => by cases h))
              exact .inl (.inl rfl)
      | kept hprepared =>
          cases h with
          | rests => exact .inl hr
      | refused e =>
          cases h with
          | rests => exact .inl hr
  | submit sub now =>
      have hafter := Submitting.step hown ho h
      rcases hr with rfl | rfl
      · cases hafter
      · cases hafter.created
  | _ =>
      obtain ⟨hunborn, hcreated⟩ := Operation.none_created h.advances ho
      rcases hr with rfl | rfl
      · cases hunborn
      · cases hcreated

end Step

namespace World

variable {ps : ProofSystem} {u : Usage} {w w' : World} {r : PresentationRequest}

theorem Move.turn (h : Move ps u w w') : Turn ps w w' := by
  cases h with
  | step hstep hcalls => exact .step hstep
  | @provide s operations schema t hschema ht => exact .provide schema t
  | purge now => exact .purge now

theorem Served.runs (hw : w.Served ps u) : w.Runs ps := by
  induction hw using Served.induct with
  | start config => exact ⟨{ config := config }, rfl, rfl, rfl, rfl, .refl⟩
  | move w w' hw hmove ih => exact ih.trans (.single hmove.turn)

/-- Wherever turns lead, every operation has come to something that follows from its call. -/
theorem Runs.sound (hw : w.Runs ps) : ∀ o ∈ w.operations, o.Sound ps := by
  induction hw using Runs.induct with
  | start s hrequests hverdicts houtbox hwaiters => exact fun o ho => absurd ho List.not_mem_nil
  | turn w w' hw hturn ih =>
      refine hturn.forall_operations ih Operation.sound_start ?_ ?_
      · exact fun o ho => Operation.sound_advance hw.retained.own (ih o ho)
      · exact fun o ho => Operation.sound_timeOut (ih o ho)

/-- There are keys for every request that has been made or is about to be kept, and whoever has been turned
down has himself to blame. -/
structure Equipped (w : World) : Prop where
  keys : ∀ o ∈ w.operations, ∀ r, o.rest = .save r ∨ o.rest = .done (.created r) →
    ∃ keys, w.service.keys.get? r.schemaHash = some keys
  faults : ∀ o ∈ w.operations, ∀ sub now, o.call = .submit sub now →
    ∀ e, o.rest.last = .done (.rejected e) → e.IsFaultOf sub o.taken

namespace Equipped

theorem verifies (h : w.Equipped) (hw : w.Served ps u) (hu : u.Sound) (hr : r ∈ w.created)
    (hmade : r.Made ps u) : ∃ keys, w.service.Verifies r keys := by
  obtain ⟨o, ho, hcreated⟩ := List.mem_flatMap.1 hr
  obtain ⟨-, -, -, -, hrest, -⟩ := (hw.runs.sound o ho).of_created hcreated
  obtain ⟨keys, hkeys⟩ := h.keys o ho r (.inr hrest)
  exact ⟨keys, hw.provided.1.verifies hu hmade hkeys⟩

/-- A check is about a request that the service is ready for. -/
theorem checked (h : w.Equipped) (hw : w.Served ps u) (hu : u.Sound) {o : Operation}
    (ho : o ∈ w.operations) {sub : Submission} {now : Timestamp} (hrest : o.rest = .check r sub now) :
    r.publicInputs.Ascending ∧ ∃ keys, w.service.Verifies r keys := by
  have hheld : r ∈ w.held := by
    refine List.mem_flatMap.2 ⟨o, ho, ?_⟩
    rw [hrest]
    exact List.mem_cons_self
  have hmade := hw.provided.2 o ho
  rw [hrest] at hmade
  exact ⟨hmade.pins.1, h.verifies hw hu (hw.runs.retained.created_iff.2 (.inr (.inl hheld))) hmade⟩

/-- No keys are taken away. -/
theorem get?_of_move (h : w.Equipped) (hw : w.Served ps u) (hu : u.Sound) (hmove : Move ps u w w')
    {hash : ContentDigest} {keys : SchemaKeys} (hget : w.service.keys.get? hash = some keys) :
    w'.service.keys.get? hash = some keys := by
  cases hmove with
  | provide hschema ht => exact (Service.ensureKeys_provides ps _ _ _).get?_kept hget
  | purge now => exact hget
  | step hstep hcalls =>
      cases hstep with
      | call c hfresh => exact hget
      | timeOut o => exact hget
      | @advance s before after o =>
          refine (o.rest.step_moves ps s).get?_keys hget fun r sub now hrest hcheck => ?_
          obtain ⟨hordered, keys, hverifies⟩ :=
            h.checked hw hu (List.mem_append_right _ List.mem_cons_self) hrest
          rw [hverifies.kept] at hcheck
          cases Service.check_error_spec hcheck with
          | layout hkeys hnone =>
              obtain rfl := Option.some.inj hkeys
              cases hnone.symm.trans hverifies.recompiled

theorem move (h : w.Equipped) (hw : w.Served ps u) (hu : u.Sound) (hmove : Move ps u w w') :
    w'.Equipped := by
  have hkept {r : PresentationRequest} (hkeys : ∃ keys, w.service.keys.get? r.schemaHash = some keys) :
      ∃ keys, w'.service.keys.get? r.schemaHash = some keys := by
    obtain ⟨keys, hget⟩ := hkeys
    exact ⟨keys, h.get?_of_move hw hu hmove hget⟩
  constructor
  · intro o' ho' r hr
    rcases hmove.turn.mem_operations ho' with ho | ⟨c, rfl⟩ | ⟨o, ho, hproceeds⟩
    · exact hkept (h.keys o' ho r hr)
    · cases c <;> rcases hr with hr | hr <;> cases hr
    · generalize w'.service = s' at hproceeds hkept ⊢
      cases hproceeds with
      | timeOut =>
          refine hkept (h.keys o ho r ?_)
          have hr : o.rest.timeOut = .save r ∨ o.rest.timeOut = .done (.created r) := hr
          generalize o.rest = t at hr ⊢
          cases t with
          | parked id token => rcases hr with hr | hr <;> cases hr
          | _ => exact hr
      | advance =>
          have hown := hw.runs.retained.own
          have hmoves := o.rest.step_moves ps w.service
          rcases (hw.runs.sound o ho).made_before hown hmoves hr with
            hold | ⟨order, now, fresh, hrest, hprepares⟩
          · exact hkept (h.keys o ho r hold)
          · have hwithin := hw.provided.2 o ho
            rw [hrest] at hwithin
            exact (hprepares.made_request hw.provided.1 hwithin).2
  · refine hmove.turn.forall_operations h.faults ?_ ?_ ?_
    · rintro c sub now rfl e he
      cases he
    · intro o ho sub now hcall e he
      have hcall : o.call = .submit sub now := hcall
      have hsubmitting := hw.runs.sound o ho
      rw [Operation.Sound, hcall] at hsubmitting
      rcases hsubmitting.rejected_before (o.rest.step_moves ps w.service) he with
        hold | hnot | ⟨r, hrest, htaken, hfor, hcheck⟩
      · exact (h.faults o ho sub now hcall e hold).mono (List.subset_append_left _ _)
      · exact .of_not_decisive hnot sub _
      · obtain ⟨hordered, keys, hverifies⟩ := h.checked hw hu ho hrest
        refine (hverifies.isFaultOf hordered hfor hcheck).mono ?_
        rw [← htaken]
        exact List.subset_append_left _ _
    · intro o ho sub now hcall e he
      refine h.faults o ho sub now hcall e ?_
      have he : o.rest.timeOut.last = .done (.rejected e) := he
      generalize o.rest = t at he ⊢
      cases t with
      | parked id token => cases he
      | _ => exact he

end Equipped

theorem Served.equipped (hw : w.Served ps u) (hu : u.Sound) : w.Equipped := by
  induction hw using Served.induct with
  | start config =>
      exact ⟨fun o ho => absurd ho List.not_mem_nil, fun o ho => absurd ho List.not_mem_nil⟩
  | move w w' hw hmove ih => exact ih.move hw hu hmove

/-- The service can verify whatever is pending, and it neither loses its keys nor turns anybody down for
the lack of them. -/
structure StaysVerifiable (ps : ProofSystem) (u : Usage) (w : World) : Prop where
  /-- For every pending request there is all that it takes to verify it. -/
  pending : ∀ r ∈ w.pending, ∃ keys, w.service.Verifies r keys
  /-- Keys that are there stay there, the same, wherever moves lead. -/
  kept : ∀ w', Relation.ReflTransGen (Move ps u) w w' → ∀ hash keys,
    w.service.keys.get? hash = some keys → w'.service.keys.get? hash = some keys
  /-- No submission is turned down for missing keys or for another circuit, and for its inputs only if it
  has taken a request which does not pin a public field that the submission lacks. -/
  faults : ∀ o ∈ w.operations, ∀ sub now, o.call = .submit sub now →
    ∀ e, o.rest = .done (.rejected e) → e.IsFaultOf sub o.taken

/-- Requests stay verifiable, wherever moves lead, if no two schemas that are used have the same hash. -/
theorem Served.staysVerifiable (hw : w.Served ps u) (hu : u.Sound) : w.StaysVerifiable ps u where
  pending r hr := by
    obtain ⟨⟨id, r⟩, hentry, rfl⟩ := List.mem_map.1 hr
    exact (hw.equipped hu).verifies hw hu (hw.runs.retained.created_iff.2 (.inl hr))
      (hw.provided.1.requests _ hentry)
  kept w' hmoves hash keys hget := by
    induction hmoves with
    | refl => exact hget
    | tail hbefore hmove ih =>
        obtain ⟨config, hstart⟩ := hw
        have hw₁ : World.Served ps u _ := ⟨config, hstart.trans hbefore⟩
        exact (hw₁.equipped hu).get?_of_move hw₁ hu hmove ih
  faults o ho sub now hcall e he := by
    refine (hw.equipped hu).faults o ho sub now hcall e ?_
    rw [he]
    rfl

/-- Requests about one secret and nothing else. -/
def bareUsage : Usage where
  schemas s := Schema.parse bareText = .ok s
  secrets _ := True

theorem sound_bareUsage : bareUsage.Sound := Usage.sound_of_text fun _ hs => hs

theorem served_oneMade : oneMade.Served .tellingNothing bareUsage := by
  have hcalls : oneMade.operations.map (·.call) = [bareCall 1] := rfl
  apply served_of_steps (steps_perform 2 fun _ _ => List.not_mem_nil)
  intro o ho order now fresh hcall
  have hmem : o.call ∈ [bareCall 1] := hcalls ▸ List.mem_map_of_mem ho
  rw [hcall, List.mem_singleton] at hmem
  obtain ⟨rfl, rfl, rfl⟩ := Call.create.inj hmem
  constructor
  · intro s hs
    rw [Service.orderedSchema] at hs
    exact Outcome.of_mapError hs
  · exact List.Pairwise.nil
  · rfl
  · exact ⟨⟨List.replicate 16 1⟩, rfl, rfl⟩
  · trivial

/-- The request that has been made can be verified. -/
theorem staysVerifiable_oneMade : oneMade.StaysVerifiable .tellingNothing bareUsage ∧
    ∃ r keys, r ∈ oneMade.pending ∧ oneMade.service.Verifies r keys := by
  have hverifiable := served_oneMade.staysVerifiable sound_bareUsage
  obtain ⟨r, hr⟩ := Option.isSome_iff_exists.1 isSome_oneMade
  have hpending := (served_oneMade.runs.retained.get?_requests_iff.1 hr).1
  obtain ⟨keys, hkeys⟩ := hverifiable.pending r hpending
  exact ⟨hverifiable, r, keys, hpending, hkeys⟩

end World
end PrivatePresentation
