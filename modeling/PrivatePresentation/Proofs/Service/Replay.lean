import PrivatePresentation.Proofs.Identity
import PrivatePresentation.Proofs.Json.Members
import PrivatePresentation.Proofs.Service.SettledOnce
import PrivatePresentation.Proofs.Text.Bytes

/-!
Replay.  The nonce that is repeated beside a proof is compared, but whoever submits may write it
there.  What cannot be changed are the public inputs of the proof: a proof that has been accepted for
one request is accepted for another that asks the same exactly when the nonce is not among them.
-/

namespace PrivatePresentation

/-- The nonce is among the public inputs. -/
def Circuit.DeclaresNonce (c : Circuit) : Prop :=
  ∃ f ∈ c.layout.publicFields, f.name = Pinned.nonce

/-- Under one key a proof is accepted for one list of public inputs at most. -/
def ProofSystem.BindsInputs (ps : ProofSystem) : Prop :=
  ∀ key proof xs ys, ps.verify key proof xs = .ok true → ps.verify key proof ys = .ok true → xs = ys

/-- A request asks the same as another, with a nonce of its own. -/
structure PresentationRequest.AsksLike (r' r : PresentationRequest) : Prop where
  schema : r'.schemaText = r.schemaText
  pinned : ∀ key, key ≠ Pinned.nonce →
    Json.Members.get? key r'.publicInputs = Json.Members.get? key r.publicInputs
  nonce : r'.nonce.isSome

namespace Service

section Pinned

variable {nonce : String} {inputs : Json.Members}

/-- If there is a nonce among the inputs, it is a given one. -/
def NonceWithin (nonce : String) (inputs : Json.Members) : Prop :=
  ∀ t, (Json.Members.get? Pinned.nonce inputs).bind Json.text? = some t → t = nonce

theorem NonceWithin.insert {key : String} {value : Json} (hvalue : value.text? = none)
    (hinputs : NonceWithin nonce inputs) :
    NonceWithin nonce (Json.Members.insert key value inputs) := by
  intro t ht
  rw [Json.Members.get?_insert] at ht
  split at ht
  · rw [Option.bind_some, hvalue] at ht
    exact nomatch ht
  · exact hinputs t ht

theorem NonceWithin.pinDate (names : DateFields) (date : CalendarDate)
    (hinputs : NonceWithin nonce inputs) : NonceWithin nonce (pinDate names date inputs) :=
  ((hinputs.insert rfl).insert rfl).insert rfl

theorem NonceWithin.pinConstraints (date : CalendarDate) (constraints : List Constraint)
    (hinputs : NonceWithin nonce inputs) :
    NonceWithin nonce (constraints.foldl (pinConstraint date) inputs) := by
  induction constraints generalizing inputs with
  | nil => exact hinputs
  | cons c rest ih =>
      rw [List.foldl_cons]
      refine ih ?_
      unfold pinConstraint
      split
      · exact hinputs.pinDate _ date
      · exact hinputs

theorem nonceWithin_pinnedInputs (config : ProtocolConfig) (schema : Schema)
    (ordered : Json.Members) (nonce : Nonce) (today : CalendarDate) :
    NonceWithin nonce.text (pinnedInputs config schema ordered nonce today) := by
  refine NonceWithin.pinConstraints today _ (NonceWithin.pinDate _ today fun t ht => ?_)
  have hget : Json.Members.get? Pinned.nonce (Json.Members.insertAll ordered
      [(Pinned.audience, .string config.audience), (Pinned.nonce, .string nonce.text)]) =
        some (.string nonce.text) := Json.Members.get?_insert_self
  rw [hget] at ht
  exact (Option.some.inj ht).symm

end Pinned

end Service

namespace PreparedFor

variable {order : PresentationOrder} {now : Timestamp} {fresh : Fresh} {r : PresentationRequest}

/-- The nonce of a request is the one that has been drawn for it. -/
theorem nonce (hr : PreparedFor order now fresh r) {t : String} (ht : r.nonce = some t) :
    t = fresh.nonce.text := by
  obtain ⟨config, schema, hinputs⟩ := hr.publicInputs
  rw [PresentationRequest.nonce, hinputs] at ht
  exact Service.nonceWithin_pinnedInputs config schema _ _ _ t ht

end PreparedFor

/-- A submission sent to another request, whose nonce it repeats. -/
def Submission.redirected (sub : Submission) (r : PresentationRequest) (nonce : String) :
    Submission :=
  { sub with
    requestId := r.id.text
    publicInputs := Json.Members.insert Pinned.nonce (.string nonce) sub.publicInputs }

namespace Service

variable {ps : ProofSystem} {keys keys₁ keys₂ : SchemaKeys} {circuit : Circuit}
variable {blob blob₁ blob₂ : ProofResult} {r r' r₁ r₂ : PresentationRequest}
variable {sub sub₁ sub₂ : Submission} {now now' now₁ now₂ : Timestamp} {t : String}

theorem exists_of_repeats {key : String} {expected : Option String}
    (h : repeats sub key expected = true) : ∃ t, expected = some t := by
  unfold repeats at h
  split at h
  · exact ⟨_, rfl⟩
  · exact nomatch h

theorem get?_nonce (ht : r.nonce = some t) :
    Json.Members.get? Pinned.nonce r.publicInputs = some (.string t) := by
  obtain ⟨v, hv, ht⟩ := Option.bind_eq_some_iff.1 ht
  rw [hv]
  cases v with
  | string s => exact congrArg (fun s => some (Json.string s)) (Option.some.inj ht)
  | _ => exact nomatch ht

/-- A public input that is the nonce is computed from the pinned one, whatever is submitted. -/
theorem publicInput_nonce (hr : r.publicInputs.Ascending) (ht : r.nonce = some t) {f : FieldDecl}
    (hf : f.name = Pinned.nonce) (sub : Submission) :
    Circuit.publicInput (overlaid r sub) f = (normalize f (.string t)).mapError .conversion := by
  rw [Circuit.publicInput, hf, overlaid, Json.Members.get?_insertAll hr, get?_nonce ht]
  rfl

/-- If the nonce is among the public inputs, two requests for which one proof has been accepted under
one key have nonces with the same hash. -/
theorem Accepts.nonces_eq (hverify : ps.BindsInputs)
    (h₁ : Accepts ps keys₁ circuit blob₁ r₁ sub₁ now₁)
    (h₂ : Accepts ps keys₂ circuit blob₂ r₂ sub₂ now₂)
    (hkey : keys₁.keys.verifying = keys₂.keys.verifying) (hproof : blob₁.proof = blob₂.proof)
    (hdeclares : circuit.DeclaresNonce) (hr₁ : r₁.publicInputs.Ascending)
    (hr₂ : r₂.publicInputs.Ascending) {id₁ id₂ : RequestId} (hid₁ : id₁.bytes.length = 16)
    (ht₁ : r₁.nonce = some id₁.text) (ht₂ : r₂.nonce = some id₂.text) :
    Normalize.hashText id₁.text = Normalize.hashText id₂.text := by
  obtain ⟨f, hf, hname⟩ := hdeclares
  have hsame : blob₁.publicWitness = blob₂.publicWitness := by
    refine hverify _ _ _ _ h₁.verified ?_
    rw [hkey, hproof]
    exact h₂.verified
  obtain ⟨x, hx₁, hx₂⟩ := Outcome.mapM_inj (hsame ▸ h₁.inputs) h₂.inputs f hf
  rw [publicInput_nonce hr₁ ht₁ hname] at hx₁
  rw [publicInput_nonce hr₂ ht₂ hname] at hx₂
  have hx₁ := Outcome.of_mapError hx₁
  have hx₂ := Outcome.of_mapError hx₂
  have htype : f.type = .string := RequestId.normalize_text hid₁ hx₁
  unfold normalize at hx₁ hx₂
  rw [htype] at hx₁ hx₂
  exact (Except.ok.inj hx₁).trans (Except.ok.inj hx₂).symm

/-- If the nonce is not among the public inputs, what has been accepted for a request is accepted for
another that asks the same. -/
theorem Accepts.redirected (h : Accepts ps keys circuit blob r sub now) (hlike : r'.AsksLike r)
    (hr : r.publicInputs.Ascending) (hr' : r'.publicInputs.Ascending) (ht : r'.nonce = some t)
    (htrim : Text.trim t = t) (htime : ¬r'.isExpired now') (hfree : ¬circuit.DeclaresNonce) :
    Accepts ps keys circuit blob r' (sub.redirected r' t) now' where
  inTime := htime
  audience := by
    have haudience : r'.audience = r.audience := by
      rw [PresentationRequest.audience, PresentationRequest.audience,
        hlike.pinned Pinned.audience (by decide)]
    have hsubmitted : Json.Members.get? Pinned.audience (sub.redirected r' t).publicInputs =
        Json.Members.get? Pinned.audience sub.publicInputs :=
      Json.Members.get?_insert_of_ne (by decide)
    have hold := h.audience
    unfold repeats at hold ⊢
    rwa [haudience, hsubmitted]
  nonce := by
    have hsubmitted : Json.Members.get? Pinned.nonce (sub.redirected r' t).publicInputs =
        some (.string t) := Json.Members.get?_insert_self
    unfold repeats
    rw [ht, hsubmitted]
    simp [Json.plainText, htrim]
  challenge := by
    have hchallenge : r'.challenge = r.challenge := by
      rw [PresentationRequest.challenge, PresentationRequest.challenge,
        hlike.pinned Pinned.challenge (by decide)]
    have hold := h.challenge
    unfold answersChallenge at hold ⊢
    rwa [hchallenge]
  decoded := h.decoded
  recompiled := by
    have hold := h.recompiled
    unfold recompile? at hold ⊢
    rwa [hlike.schema]
  inputs := by
    have hsame : ∀ f ∈ circuit.layout.publicFields,
        Circuit.publicInput (overlaid r' (sub.redirected r' t)) f =
          Circuit.publicInput (overlaid r sub) f := fun f hf => by
      have hname : f.name ≠ Pinned.nonce := fun hname => hfree ⟨f, hf, hname⟩
      rw [Circuit.publicInput, Circuit.publicInput, overlaid, overlaid,
        Json.Members.get?_insertAll hr, Json.Members.get?_insertAll hr', hlike.pinned _ hname,
        Submission.redirected, Json.Members.get?_insert_of_ne hname.symm]
    rw [Circuit.publicInputsFrom, Outcome.mapM_congr hsame]
    exact h.inputs
  verified := h.verified

end Service

/-- The nonces that are drawn for a call. -/
def Call.nonces : Call → List Nonce
  | .create _ _ fresh => [fresh.nonce]
  | _ => []

/-- An operation was a submission, and was accepted after a check with some keys. -/
structure Operation.Accepted (ps : ProofSystem) (o : Operation) (keys : SchemaKeys)
    (circuit : Circuit) (blob : ProofResult) (r : PresentationRequest) (sub : Submission)
    (now : Timestamp) : Prop where
  call : o.call = .submit sub now
  rest : o.rest = .done (.accepted r)
  accepts : Service.Accepts ps keys circuit blob r sub now

namespace World

/-- The nonces drawn so far. -/
def nonces (w : World) : List Nonce := w.operations.flatMap (·.call.nonces)

/-- What is taken for granted of the nonces of a run, and of the inputs that are ordered in it. -/
structure Orderly (w : World) : Prop where
  /-- No nonce is drawn twice. -/
  distinct : w.nonces.Nodup
  /-- No two nonces have the same hash. -/
  hashed : ∀ n ∈ w.nonces, ∀ n' ∈ w.nonces,
    Normalize.hashText n.text = Normalize.hashText n'.text → n = n'
  /-- Nonces are written as identifiers are. -/
  written : ∀ n ∈ w.nonces, ∃ id : RequestId, id.bytes.length = 16 ∧ n.text = id.text
  /-- Ordered inputs have their keys in order. -/
  ordered : ∀ o ∈ w.operations, ∀ order now fresh, o.call = .create order now fresh →
    order.publicInputs.Ascending

/-- How far the proofs of a run are bound to its requests. -/
structure BindsProofs (ps : ProofSystem) (w : World) : Prop where
  /-- Whatever has been accepted has been checked with some keys. -/
  checked : ∀ o ∈ w.operations, ∀ sub now r, o.call = .submit sub now →
    o.rest = .done (.accepted r) →
      ∃ keys circuit blob, o.Accepted ps keys circuit blob r sub now
  /-- If the nonce is among the public inputs, a proof is accepted under a key for one request. -/
  bound : ∀ o₁ ∈ w.operations, ∀ o₂ ∈ w.operations,
    ∀ keys₁ keys₂ circuit blob₁ blob₂ r₁ r₂ sub₁ sub₂ now₁ now₂,
      o₁.Accepted ps keys₁ circuit blob₁ r₁ sub₁ now₁ →
      o₂.Accepted ps keys₂ circuit blob₂ r₂ sub₂ now₂ →
      keys₁.keys.verifying = keys₂.keys.verifying → blob₁.proof = blob₂.proof →
      circuit.DeclaresNonce → r₁ = r₂
  /-- A proof that has been accepted for a request is accepted in time for another one that asks the
  same, exactly if the nonce is not among the public inputs. -/
  replayed : ∀ o ∈ w.operations, ∀ keys circuit blob r sub now,
    o.Accepted ps keys circuit blob r sub now →
    ∀ r' ∈ w.created, r' ≠ r → r'.AsksLike r → ∀ now', ¬r'.isExpired now' →
      ((∃ sub' blob', Artifact.decodeText sub'.blob = .ok blob' ∧ blob'.proof = blob.proof ∧
          Service.check ps (some keys) r' sub' now' = .ok ()) ↔
        ¬circuit.DeclaresNonce)

variable {ps : ProofSystem} {w : World} {r r₁ r₂ : PresentationRequest}

/-- Whatever an operation has taken has been made. -/
theorem Invariant.created_of_taken (hw : w.Invariant) {o : Operation} (ho : o ∈ w.operations)
    (hr : r ∈ o.taken) : r ∈ w.created := by
  refine hw.conserved.subset ?_
  rcases List.mem_append.1 ((hw.taken o ho).subset hr) with hrecorded | hheld
  · obtain ⟨d, hd, rfl⟩ := List.mem_map.1 hrecorded
    exact List.mem_append_right _ (List.mem_map_of_mem (List.mem_flatMap.2 ⟨o, ho, hd⟩))
  · exact List.mem_append_left _ (List.mem_append_right _ (List.mem_flatMap.2 ⟨o, ho, hheld⟩))

/-- A request that has been made has its keys in order. -/
theorem Reachable.ascending (hw : w.Reachable ps) (horderly : w.Orderly) (hr : r ∈ w.created) :
    r.publicInputs.Ascending := by
  obtain ⟨o, ho, hr⟩ := List.mem_flatMap.1 hr
  obtain ⟨order, now, fresh, hcall, -, hprepared⟩ := (hw.sound o ho).of_created hr
  exact hprepared.ascending (horderly.ordered o ho order now fresh hcall)

/-- The nonce of a request that has been made is one that has been drawn. -/
theorem Reachable.nonce_drawn (hw : w.Reachable ps) (hr : r ∈ w.created) {t : String}
    (ht : r.nonce = some t) : ∃ (i : Nat) (o : Operation) (n : Nonce),
      w.operations[i]? = some o ∧ o.rest = .done (.created r) ∧ n ∈ o.call.nonces ∧
      n ∈ w.nonces ∧ t = n.text := by
  obtain ⟨o, ho, hr⟩ := List.mem_flatMap.1 hr
  obtain ⟨order, now, fresh, hcall, hrest, hprepared⟩ := (hw.sound o ho).of_created hr
  obtain ⟨i, hi⟩ := List.mem_iff_getElem?.1 ho
  have hmem : fresh.nonce ∈ o.call.nonces := by
    rw [hcall]
    exact List.mem_cons_self
  exact ⟨i, o, fresh.nonce, hi, hrest, hmem, List.mem_flatMap.2 ⟨o, ho, hmem⟩, hprepared.nonce ht⟩

/-- Two requests whose nonces have the same hash are one. -/
theorem Reachable.eq_of_hash_eq (hw : w.Reachable ps) (horderly : w.Orderly) (hr₁ : r₁ ∈ w.created)
    (hr₂ : r₂ ∈ w.created) {t₁ t₂ : String} (ht₁ : r₁.nonce = some t₁) (ht₂ : r₂.nonce = some t₂)
    (hhash : Normalize.hashText t₁ = Normalize.hashText t₂) : r₁ = r₂ := by
  obtain ⟨i, o₁, n₁, hi, hrest₁, hmem₁, hn₁, rfl⟩ := hw.nonce_drawn hr₁ ht₁
  obtain ⟨j, o₂, n₂, hj, hrest₂, hmem₂, hn₂, rfl⟩ := hw.nonce_drawn hr₂ ht₂
  obtain rfl := horderly.hashed n₁ hn₁ n₂ hn₂ hhash
  obtain rfl : i = j := index_unique horderly.distinct hi hj hmem₁ hmem₂
  obtain rfl := Option.some.inj (hi.symm.trans hj)
  exact Answer.created.inj (Task.done.inj (hrest₁.symm.trans hrest₂))

/-- A submission that has been accepted has taken the request, and a check has accepted it. -/
theorem Reachable.of_accepted (hw : w.Reachable ps) {o : Operation} (ho : o ∈ w.operations)
    {sub : Submission} {now : Timestamp} (hcall : o.call = .submit sub now)
    (hrest : o.rest = .done (.accepted r)) : r ∈ w.created ∧
      ∃ keys circuit blob, Service.Accepts ps keys circuit blob r sub now := by
  have hsound := hw.sound o ho
  rw [Operation.Sound, hcall] at hsound
  simp only [hrest] at hsound
  obtain ⟨r', keys?, -, hanswer, htaken, -⟩ := hsound.of_decisive trivial
  cases hcheck : Service.check ps keys? r' sub now with
  | error e =>
      rw [hcheck] at hanswer
      cases hanswer
  | ok _ =>
      rw [hcheck] at hanswer
      obtain rfl := Answer.accepted.inj hanswer
      obtain ⟨keys, circuit, blob, -, haccepts⟩ := Service.check_ok_spec hcheck
      refine ⟨hw.invariant.created_of_taken ho ?_, keys, circuit, blob, haccepts⟩
      rw [htaken]
      exact List.mem_cons_self

/-- Two requests that have been made are one if a proof is accepted for both under one key and the
nonce is among the public inputs. -/
theorem Reachable.eq_of_accepts (hw : w.Reachable ps) (horderly : w.Orderly)
    (hverify : ps.BindsInputs) (hr₁ : r₁ ∈ w.created) (hr₂ : r₂ ∈ w.created)
    {keys₁ keys₂ : SchemaKeys} {circuit : Circuit} {blob₁ blob₂ : ProofResult}
    {sub₁ sub₂ : Submission} {now₁ now₂ : Timestamp}
    (h₁ : Service.Accepts ps keys₁ circuit blob₁ r₁ sub₁ now₁)
    (h₂ : Service.Accepts ps keys₂ circuit blob₂ r₂ sub₂ now₂)
    (hkey : keys₁.keys.verifying = keys₂.keys.verifying) (hproof : blob₁.proof = blob₂.proof)
    (hdeclares : circuit.DeclaresNonce) : r₁ = r₂ := by
  obtain ⟨t₁, ht₁⟩ := Service.exists_of_repeats h₁.nonce
  obtain ⟨t₂, ht₂⟩ := Service.exists_of_repeats h₂.nonce
  obtain ⟨-, -, n₁, -, -, -, hn₁, rfl⟩ := hw.nonce_drawn hr₁ ht₁
  obtain ⟨-, -, n₂, -, -, -, hn₂, rfl⟩ := hw.nonce_drawn hr₂ ht₂
  obtain ⟨id₁, hid₁, htext₁⟩ := horderly.written n₁ hn₁
  obtain ⟨id₂, -, htext₂⟩ := horderly.written n₂ hn₂
  refine hw.eq_of_hash_eq horderly hr₁ hr₂ ht₁ ht₂ ?_
  rw [htext₁] at ht₁ ⊢
  rw [htext₂] at ht₂ ⊢
  exact Service.Accepts.nonces_eq hverify h₁ h₂ hkey hproof hdeclares (hw.ascending horderly hr₁)
    (hw.ascending horderly hr₂) hid₁ ht₁ ht₂

/-- Wherever steps lead, proofs are bound to requests if the nonce is among the public inputs, and
only then. -/
theorem Reachable.bindsProofs (hw : w.Reachable ps) (horderly : w.Orderly)
    (hverify : ps.BindsInputs) : w.BindsProofs ps where
  checked o ho sub now r hcall hrest := by
    obtain ⟨-, keys, circuit, blob, haccepts⟩ := hw.of_accepted ho hcall hrest
    exact ⟨keys, circuit, blob, hcall, hrest, haccepts⟩
  bound o₁ ho₁ o₂ ho₂ _ _ _ _ _ r₁ r₂ _ _ _ _ h₁ h₂ hkey hproof hdeclares := by
    have hr₁ := (hw.of_accepted ho₁ h₁.call h₁.rest).1
    have hr₂ := (hw.of_accepted ho₂ h₂.call h₂.rest).1
    exact hw.eq_of_accepts horderly hverify hr₁ hr₂ h₁.accepts h₂.accepts hkey hproof hdeclares
  replayed o ho keys circuit blob r sub now h r' hr' hne hlike now' htime := by
    have hr := (hw.of_accepted ho h.call h.rest).1
    constructor
    · rintro ⟨sub', blob', hblob', hproof, hcheck⟩ hdeclares
      obtain ⟨keys', circuit', blob'', hkeys, h'⟩ := Service.check_ok_spec hcheck
      obtain rfl := Option.some.inj hkeys
      obtain rfl := Except.ok.inj (hblob'.symm.trans h'.decoded)
      have hcircuit : circuit' = circuit := by
        have hold := h.accepts.recompiled
        have hnew := h'.recompiled
        unfold Service.recompile? at hold hnew
        rw [hlike.schema, hold] at hnew
        exact (Option.some.inj hnew).symm
      subst hcircuit
      exact hne (hw.eq_of_accepts horderly hverify hr' hr h' h.accepts rfl hproof hdeclares)
    · intro hfree
      obtain ⟨t, ht⟩ := Option.isSome_iff_exists.1 hlike.nonce
      obtain ⟨-, -, n, -, -, -, hn, rfl⟩ := hw.nonce_drawn hr' ht
      obtain ⟨id, -, htext⟩ := horderly.written n hn
      have htrim : Text.trim n.text = n.text := by
        rw [htext]
        exact RequestId.trim_text id
      have haccepts := h.accepts.redirected hlike (hw.ascending horderly hr)
        (hw.ascending horderly hr') ht htrim htime hfree
      exact ⟨_, blob, haccepts.decoded, rfl, Service.check_of_accepts haccepts⟩

/-- The operation that was called last makes its next step. -/
theorem Reachable.advance {s s' : Service} {o : Operation} {operations : List Operation} {t : Task}
    (hw : Reachable ps ⟨s, o :: operations⟩) (hstep : o.rest.step ps s = (t, s')) :
    ∃ o', o'.call = o.call ∧ o'.rest = t ∧ Reachable ps ⟨s', o' :: operations⟩ := by
  have hnext := hw.trans (.single (@Step.advance ps s [] operations o))
  rw [hstep] at hnext
  exact ⟨o.advance ps s, rfl, congrArg Prod.fst hstep, hnext⟩

/-- What a check accepts is accepted, if the request is there and nothing comes in between. -/
theorem Reachable.submit (hw : w.Reachable ps) {sub : Submission} {now : Timestamp}
    {keys : SchemaKeys} {circuit : Circuit} {blob : ProofResult} {id : RequestId}
    (hwell : Service.malformed? sub = none) (hid : RequestId.parseTrimmed sub.requestId = .ok id)
    (hr : w.service.requests.get? id = some r) (hkeys : w.service.keys.get? r.schemaHash = some keys)
    (haccepts : Service.Accepts ps keys circuit blob r sub now) :
    ∃ s o, Reachable ps ⟨s, o :: w.operations⟩ ∧ o.Accepted ps keys circuit blob r sub now ∧
      s.keys = w.service.keys ∧ s.requests = w.service.requests.erase id := by
  have hcalled := hw.trans (.single (.call (.submit sub now) fun _ h => absurd h List.not_mem_nil))
  obtain ⟨o₁, hcall₁, hrest₁, hw₁⟩ := hcalled.advance (Task.step_submit_taken hwell hid hr)
  have hcheck : o₁.rest.step ps { w.service with requests := w.service.requests.erase id } =
      (.settle .record r (Service.verdictOf r now (.ok ())) (.done (.accepted r)),
        { w.service with requests := w.service.requests.erase id }) := by
    rw [hrest₁, Task.step]
    simp only [hkeys, Service.check_of_accepts haccepts]
    rfl
  obtain ⟨o₂, hcall₂, hrest₂, hw₂⟩ := hw₁.advance hcheck
  obtain ⟨o₃, hcall₃, hrest₃, hw₃⟩ := hw₂.advance (congrArg (Task.step ps _) hrest₂)
  obtain ⟨o₄, hcall₄, hrest₄, hw₄⟩ := hw₃.advance (congrArg (Task.step ps _) hrest₃)
  obtain ⟨o₅, hcall₅, hrest₅, hw₅⟩ := hw₄.advance (congrArg (Task.step ps _) hrest₄)
  have hcall : o₅.call = .submit sub now := by
    rw [hcall₅, hcall₄, hcall₃, hcall₂, hcall₁]
    rfl
  exact ⟨_, o₅, hw₅, ⟨hcall, hrest₅, haccepts⟩, rfl, rfl⟩

/-- What a check accepts for each of two requests is accepted, one after the other. -/
theorem Reachable.submit_both (hw : w.Reachable ps) {sub₁ sub₂ : Submission} {now : Timestamp}
    {keys₁ keys₂ : SchemaKeys} {circuit₁ circuit₂ : Circuit} {blob₁ blob₂ : ProofResult}
    {id₁ id₂ : RequestId} (hne : id₁ ≠ id₂)
    (hwell₁ : Service.malformed? sub₁ = none) (hwell₂ : Service.malformed? sub₂ = none)
    (hid₁ : RequestId.parseTrimmed sub₁.requestId = .ok id₁)
    (hid₂ : RequestId.parseTrimmed sub₂.requestId = .ok id₂)
    (hr₁ : w.service.requests.get? id₁ = some r₁) (hr₂ : w.service.requests.get? id₂ = some r₂)
    (hkeys₁ : w.service.keys.get? r₁.schemaHash = some keys₁)
    (hkeys₂ : w.service.keys.get? r₂.schemaHash = some keys₂)
    (h₁ : Service.Accepts ps keys₁ circuit₁ blob₁ r₁ sub₁ now)
    (h₂ : Service.Accepts ps keys₂ circuit₂ blob₂ r₂ sub₂ now) :
    ∃ s o₁ o₂, Reachable ps ⟨s, o₂ :: o₁ :: w.operations⟩ ∧
      o₁.Accepted ps keys₁ circuit₁ blob₁ r₁ sub₁ now ∧
      o₂.Accepted ps keys₂ circuit₂ blob₂ r₂ sub₂ now := by
  obtain ⟨s, o₁, hw₁, ho₁, hkeys, hrequests⟩ := hw.submit hwell₁ hid₁ hr₁ hkeys₁ h₁
  have hr₂ : s.requests.get? id₂ = some r₂ := by
    rw [hrequests, Store.get?_erase_of_ne hne.symm, hr₂]
  have hkeys₂ : s.keys.get? r₂.schemaHash = some keys₂ := by
    rw [hkeys, hkeys₂]
  obtain ⟨s', o₂, hw₂, ho₂, -⟩ := hw₁.submit hwell₂ hid₂ hr₂ hkeys₂ h₂
  exact ⟨s', o₁, o₂, hw₂, ho₁, ho₂⟩

end World

/-- A proof that tells nothing, with no public inputs. -/
def bareResult : ProofResult := ⟨default, default, [], none⟩

/-- The characters of a proof as text. -/
def Artifact.characters (r : ProofResult) : List Char :=
  (Base64.encodeBytes (encode r)).map fun b => Char.ofNat b.toNat

theorem Artifact.decodeText_of_decode {s : String} {bytes : Bytes} {r : ProofResult}
    (hbytes : Base64.decode (Text.trim s) = .ok bytes) (hr : decode bytes = .ok r) :
    decodeText s = .ok r := by
  rw [decodeText, hbytes]
  exact hr

theorem Artifact.encodeText_eq (r : ProofResult) :
    encodeText r = String.ofList (characters r) := rfl

namespace World

/-- An identifier of one repeated byte. -/
def bareId (n : UInt8) : RequestId := ⟨List.replicate 16 n⟩

/-- The submission of the bare proof to a request about one secret. -/
def bareSubmission (n : UInt8) : Submission where
  requestId := (bareId n).text
  blob := Artifact.encodeText bareResult
  publicInputs :=
    [(Pinned.audience, .string ProtocolConfig.standard.audience),
      (Pinned.nonce, .string (bareId n).text)]

theorem decodeText_bare (n : UInt8) :
    Artifact.decodeText (bareSubmission n).blob = .ok bareResult := by
  have hbytes : Base64.decodeBytes ((Text.trimChars (Artifact.characters bareResult)).flatMap
      String.utf8EncodeChar) = .ok (Artifact.encode bareResult) := by
    refine Outcome.of_toOption ?_
    decide +kernel
  have hresult : Artifact.decode (Artifact.encode bareResult) = .ok bareResult := by
    refine Outcome.of_toOption ?_
    decide +kernel
  refine Artifact.decodeText_of_decode ?_ hresult
  rw [bareSubmission, Artifact.encodeText_eq, Text.trim_ofList, Base64.decode, Text.utf8_ofList,
    hbytes]

/-- What the check of the submission of the bare proof asks, but for the proof itself. -/
theorem bare_facts : ∀ n ∈ [1, 2],
    (RequestId.parseTrimmed (bareSubmission n).requestId).toOption = some (bareId n) ∧
    (twoMade.service.requests.get? (bareId n)).any (fun r =>
      r.id == bareId n && !r.isExpired ⟨0, 0⟩ &&
        Service.repeats (bareSubmission n) Pinned.audience r.audience &&
        Service.repeats (bareSubmission n) Pinned.nonce r.nonce &&
        Service.answersChallenge r (bareSubmission n) &&
        (twoMade.service.keys.get? r.schemaHash).any fun keys =>
          keys.keys.verifying == default &&
            (Service.recompile? r keys).any fun c => c.layout.publicFields.isEmpty) = true := by
  decide +kernel

theorem malformed?_bare : ∀ n ∈ [1, 2], Service.malformed? (bareSubmission n) = none := by
  have hid : ∀ n ∈ [1, 2], (Text.trim (bareSubmission n).requestId).isEmpty = false := by
    decide +kernel
  have hblob : Text.trimChars (Artifact.characters bareResult) ≠ [] := by
    decide +kernel
  have hfull (n : UInt8) : (Text.trim (bareSubmission n).blob).isEmpty = false := by
    rw [bareSubmission, Artifact.encodeText_eq, Text.trim_ofList, String.isEmpty_eq_false_iff, ne_eq,
      String.ofList_eq_empty_iff]
    exact hblob
  intro n hn
  rw [Service.malformed?, hid n hn, hfull n]
  rfl

/-- The bare proof is accepted for the requests about one secret. -/
theorem accepts_bare {n : UInt8} (hn : n ∈ [1, 2]) : ∃ r keys circuit,
    twoMade.service.requests.get? (bareId n) = some r ∧ r.id = bareId n ∧
      twoMade.service.keys.get? r.schemaHash = some keys ∧ keys.keys.verifying = default ∧
        Service.Accepts .tellingNothing keys circuit bareResult r (bareSubmission n) ⟨0, 0⟩ := by
  obtain ⟨-, hany⟩ := bare_facts n hn
  obtain ⟨r, hr, hfacts⟩ := (Option.any_eq_true _ _).1 hany
  simp only [Bool.and_eq_true, Option.any_eq_true, beq_iff_eq, Bool.not_eq_true', List.isEmpty_iff]
    at hfacts
  obtain ⟨⟨⟨⟨⟨hid, htime⟩, haudience⟩, hnonce⟩, hchallenge⟩, keys, hkeys, hkey, circuit, hcircuit,
    hfields⟩ := hfacts
  refine ⟨r, keys, circuit, hr, hid, hkeys, hkey, ?_, haudience, hnonce, hchallenge,
    decodeText_bare n, hcircuit, ?_, rfl⟩
  · rw [htime]
    exact Bool.false_ne_true
  · rw [Circuit.publicInputsFrom, hfields]
    rfl

theorem calls_twoMade : twoMade.operations.map (·.call) = [bareCall 2, bareCall 1] := rfl

theorem bindsInputs_tellingNothing : ProofSystem.tellingNothing.BindsInputs := by
  intro key proof xs ys hxs hys
  have hnil {l : List Scalar}
      (hl : ProofSystem.tellingNothing.verify key proof l = .ok true) : l = [] :=
    List.isEmpty_iff.1 (Except.ok.inj hl)
  rw [hnil hxs, hnil hys]

/-- A run in which two requests have been made and only submissions have followed. -/
theorem orderly_bare {w : World} {calls : List Call}
    (hcalls : w.operations.map (·.call) = calls ++ [bareCall 2, bareCall 1])
    (hsubmit : ∀ c ∈ calls, ∃ sub now, c = .submit sub now) : w.Orderly := by
  have hnone : calls.flatMap Call.nonces = [] := by
    rw [List.flatMap_eq_nil_iff]
    intro c hc
    obtain ⟨sub, now, rfl⟩ := hsubmit c hc
    rfl
  have hnonces : w.nonces = [⟨(bareId 2).text⟩, ⟨(bareId 1).text⟩] := by
    rw [nonces, ← List.flatMap_map, hcalls, List.flatMap_append, hnone]
    rfl
  refine ⟨?_, ?_, ?_, fun o ho order now fresh hcall => ?_⟩
  · rw [hnonces]
    decide +kernel
  · rw [hnonces]
    decide +kernel
  · rw [hnonces]
    intro n hn
    rcases List.mem_cons.1 hn with rfl | hn
    · exact ⟨bareId 2, rfl, rfl⟩
    · obtain rfl := List.mem_singleton.1 hn
      exact ⟨bareId 1, rfl, rfl⟩
  · have hmem : o.call ∈ calls ++ [bareCall 2, bareCall 1] := hcalls ▸ List.mem_map_of_mem ho
    rw [hcall, List.mem_append, List.mem_cons, List.mem_singleton] at hmem
    rcases hmem with hc | hc | hc
    · obtain ⟨sub, now', hc⟩ := hsubmit _ hc
      exact nomatch hc
    · obtain ⟨rfl, -⟩ := Call.create.inj hc
      exact List.Pairwise.nil
    · obtain ⟨rfl, -⟩ := Call.create.inj hc
      exact List.Pairwise.nil

/-- The run in which the bare proof is accepted for two requests, whose circuit has no public inputs. -/
theorem bindsProofs_bare : ∃ w : World, w.Reachable .tellingNothing ∧ w.Orderly ∧
    ProofSystem.tellingNothing.BindsInputs ∧ w.BindsProofs .tellingNothing ∧
    ∃ o₁ ∈ w.operations, ∃ o₂ ∈ w.operations, ∃ keys₁ keys₂ circuit₁ circuit₂ r₁ r₂ now,
      o₁.Accepted .tellingNothing keys₁ circuit₁ bareResult r₁ (bareSubmission 1) now ∧
      o₂.Accepted .tellingNothing keys₂ circuit₂ bareResult r₂ (bareSubmission 2) now ∧
      keys₁.keys.verifying = keys₂.keys.verifying ∧ r₁ ≠ r₂ := by
  have h₁ : (1 : UInt8) ∈ [1, 2] := by decide
  have h₂ : (2 : UInt8) ∈ [1, 2] := by decide
  obtain ⟨r₁, keys₁, circuit₁, hr₁, hid₁, hkeys₁, hkey₁, haccepts₁⟩ := accepts_bare h₁
  obtain ⟨r₂, keys₂, circuit₂, hr₂, hid₂, hkeys₂, hkey₂, haccepts₂⟩ := accepts_bare h₂
  have hne : bareId 1 ≠ bareId 2 := by decide
  obtain ⟨s, o₁, o₂, hw, ho₁, ho₂⟩ := reachable_twoMade.submit_both hne (malformed?_bare 1 h₁)
    (malformed?_bare 2 h₂) (Outcome.of_toOption (bare_facts 1 h₁).1)
    (Outcome.of_toOption (bare_facts 2 h₂).1) hr₁ hr₂ hkeys₁ hkeys₂ haccepts₁ haccepts₂
  have horderly : (World.mk s (o₂ :: o₁ :: twoMade.operations)).Orderly := by
    have hcalls : (o₂ :: o₁ :: twoMade.operations).map (·.call) =
        [.submit (bareSubmission 2) ⟨0, 0⟩, .submit (bareSubmission 1) ⟨0, 0⟩] ++
          [bareCall 2, bareCall 1] := by
      rw [List.map_cons, List.map_cons, ho₁.call, ho₂.call, calls_twoMade]
      rfl
    exact orderly_bare hcalls (by simp)
  have hverify := bindsInputs_tellingNothing
  refine ⟨_, hw, horderly, hverify, hw.bindsProofs horderly hverify, o₁, ?_, o₂, ?_, keys₁, keys₂,
    circuit₁, circuit₂, r₁, r₂, ⟨0, 0⟩, ho₁, ho₂, hkey₁.trans hkey₂.symm, ?_⟩
  · exact List.mem_cons_of_mem _ List.mem_cons_self
  · exact List.mem_cons_self
  · rintro rfl
    exact hne (hid₁.symm.trans hid₂)

end World
end PrivatePresentation
