import PrivatePresentation.Proofs.Json.Members
import PrivatePresentation.Proofs.Service.Perform
import PrivatePresentation.Proofs.Service.SettledOnce

/-!
What the verifier pins.  Whatever is ordered, the audience, the nonce and the dates of the age
constraints are pinned over it.  They are pinned one after the other, under names that a schema may use
more than once, so a later one may cover an earlier one: all of them are found only if those with the
same name agree.
-/

namespace PrivatePresentation

/-- The members that pin a date under three names. -/
def DateFields.pins (names : DateFields) (date : CalendarDate) : List (String × Json) :=
  [(names.year, .int date.year), (names.month, .nat date.month), (names.day, .nat date.day)]

/-- The members that pin today's date for a constraint, if it reads it. -/
def Constraint.pins (today : CalendarDate) (c : Constraint) : List (String × Json) :=
  match c.demand with
  | .age _ current _ _ => current.pins today
  | _ => []

namespace Service

/-- What a request has to pin for whoever asks: the audience, the nonce, and today's date for each age
constraint. -/
def mandates (config : ProtocolConfig) (schema : Schema) (nonce : Nonce) (today : CalendarDate) :
    List (String × Json) :=
  (Pinned.audience, .string config.audience) :: (Pinned.nonce, .string nonce.text) ::
    schema.constraints.flatMap (Constraint.pins today)

section Lookup

variable {config : ProtocolConfig} {schema : Schema} {ordered inputs : Json.Members} {nonce : Nonce}
variable {today : CalendarDate} {key : String}

theorem pinConstraints_eq_insertAll (constraints : List Constraint) :
    constraints.foldl (pinConstraint today) inputs =
      inputs.insertAll (constraints.flatMap (Constraint.pins today)) := by
  induction constraints generalizing inputs with
  | nil => rfl
  | cons c rest ih =>
      have hone : pinConstraint today inputs c = inputs.insertAll (c.pins today) := by
        obtain ⟨demand, message⟩ := c
        cases demand with
        | range field min max => rfl
        | comparison left comparator right => rfl
        | age birth current minAge upgraded => rfl
      rw [List.foldl_cons, ih, hone, List.flatMap_cons, Json.Members.insertAll,
        Json.Members.insertAll, Json.Members.insertAll, List.foldl_append]

/-- What has to be pinned is found as if nothing else had been ordered or pinned. -/
theorem get?_pinnedInputs (hkey : Json.Members.contains key (mandates config schema nonce today) = true) :
    Json.Members.get? key (pinnedInputs config schema ordered nonce today) =
      Json.Members.get? key (Json.Members.ofList (mandates config schema nonce today)) := by
  have hmandates : Json.Members.ofList (mandates config schema nonce today) =
      (Json.Members.ofList [(Pinned.audience, .string config.audience),
        (Pinned.nonce, .string nonce.text)]).insertAll
          (schema.constraints.flatMap (Constraint.pins today)) := rfl
  rw [pinnedInputs, pinConstraints_eq_insertAll, hmandates]
  by_cases hdate : Json.Members.contains key
      (schema.constraints.flatMap (Constraint.pins today)) = true
  · exact Json.Members.get?_insertAll_of_contains hdate _ _
  · rw [Bool.not_eq_true] at hdate
    have hown : key = Pinned.audience ∨ key = Pinned.nonce := by
      simp only [mandates, Json.Members.contains, List.any_cons, Bool.or_eq_true, beq_iff_eq] at hkey
      rcases hkey with hkey | hkey | hkey
      · exact .inl hkey.symm
      · exact .inr hkey.symm
      · rw [Json.Members.contains, hkey] at hdate
        cases hdate
    have htoday : Json.Members.contains key (Pinned.today.pins today) = false := by
      rcases hown with rfl | rfl
      · rfl
      · rfl
    have hfirst : Json.Members.contains key [(Pinned.audience, .string config.audience),
        (Pinned.nonce, .string nonce.text)] = true := by
      rcases hown with rfl | rfl
      · rfl
      · rfl
    rw [Json.Members.get?_insertAll_of_not_contains hdate,
      Json.Members.get?_insertAll_of_not_contains hdate, pinDate]
    exact (Json.Members.get?_insertAll_of_not_contains htoday).trans
      (Json.Members.get?_insertAll_of_contains hfirst _ _)

/-- All that has to be pinned is found exactly if what has to be pinned under one name agrees. -/
theorem all_pinned_iff :
    (∀ m ∈ mandates config schema nonce today,
      Json.Members.get? m.1 (pinnedInputs config schema ordered nonce today) = some m.2) ↔
      ∀ m ∈ mandates config schema nonce today, ∀ m' ∈ mandates config schema nonce today,
        m.1 = m'.1 → m.2 = m'.2 := by
  constructor
  · intro hall m hm m' hm' hname
    have hvalue := hall m hm
    rw [hname, hall m' hm'] at hvalue
    exact (Option.some.inj hvalue).symm
  · intro hagree m hm
    have hkey : Json.Members.contains m.1 (mandates config schema nonce today) = true :=
      List.any_eq_true.2 ⟨m, hm, beq_self_eq_true _⟩
    rw [get?_pinnedInputs hkey]
    obtain ⟨v, hv, hget⟩ := Json.Members.exists_mem_get?_insertAll hkey []
    rw [Json.Members.ofList, hget, hagree m hm _ hv rfl]

end Lookup

/-- A request that has been made pins whatever it has to as if nothing else had been ordered, and it
pins all of it exactly if what has to be pinned under one name agrees. -/
theorem created_pins {ps : ProofSystem} {s s' : Service} {order : PresentationOrder} {now : Timestamp}
    {fresh : Fresh} {r : PresentationRequest}
    (h : s.perform ps (.create order now fresh) = (.done (.created r), s')) :
    ∃ schema, orderedSchema order = .ok schema ∧
      (∀ key, Json.Members.contains key (mandates s.config schema fresh.nonce now.date) = true →
        Json.Members.get? key r.publicInputs =
          Json.Members.get? key (Json.Members.ofList
            (mandates s.config schema fresh.nonce now.date))) ∧
      ((∀ m ∈ mandates s.config schema fresh.nonce now.date,
          Json.Members.get? m.1 r.publicInputs = some m.2) ↔
        ∀ m ∈ mandates s.config schema fresh.nonce now.date,
          ∀ m' ∈ mandates s.config schema fresh.nonce now.date, m.1 = m'.1 → m.2 = m'.2) := by
  obtain ⟨schema, keys, hschema, hr⟩ := prepare_of_prepareWithKeys (prepareWithKeys_of_created h)
  obtain ⟨-, -, hr⟩ := Outcome.of_bind hr
  obtain rfl := Except.ok.inj hr
  exact ⟨schema, hschema, fun key => get?_pinnedInputs, all_pinned_iff⟩

/-- The text of a schema with an age constraint that reads the current year from the audience. -/
def yearAsAudienceText : String :=
  "\x7b\"fields\":[\x7b\"name\":\"by\",\"type\":\"integer\"\x7d," ++
  "\x7b\"name\":\"bm\",\"type\":\"integer\"\x7d,\x7b\"name\":\"bd\",\"type\":\"integer\"\x7d," ++
  "\x7b\"name\":\"aud\",\"type\":\"integer\",\"public\":true\x7d," ++
  "\x7b\"name\":\"cm\",\"type\":\"integer\",\"public\":true\x7d," ++
  "\x7b\"name\":\"cd\",\"type\":\"integer\",\"public\":true\x7d]," ++
  "\"constraints\":[\x7b\"type\":\"age_verification\"," ++
  "\"fields\":[\"by\",\"bm\",\"bd\",\"aud\",\"cm\",\"cd\"],\"value\":18\x7d]\x7d"

/-- An order that would have the audience be another one. -/
def yearAsAudienceOrder : PresentationOrder :=
  { schemaText := some yearAsAudienceText, publicInputs := [("aud", .string "elsewhere")] }

/-- What is drawn for it. -/
def yearAsAudienceFresh : Fresh := ⟨⟨List.replicate 16 1⟩, ⟨"once"⟩, default⟩

/-- The current year covers the audience, which is then neither what was ordered nor that of the
service: the two of them have to be pinned under one name. -/
theorem created_pins_yearAsAudience : ∃ r s',
    perform .tellingNothing {} (.create yearAsAudienceOrder ⟨1721044800, 0⟩ yearAsAudienceFresh) =
      (.done (.created r), s') ∧
    (Json.Members.get? Pinned.audience r.publicInputs).bind Json.signed? = some 2024 ∧
    ∃ schema, orderedSchema yearAsAudienceOrder = .ok schema ∧
      ∃ m ∈ mandates .standard schema yearAsAudienceFresh.nonce (Timestamp.date ⟨1721044800, 0⟩),
      ∃ m' ∈ mandates .standard schema yearAsAudienceFresh.nonce (Timestamp.date ⟨1721044800, 0⟩),
        m.1 = m'.1 ∧ m.2 ≠ m'.2 := by
  have hrun : (perform .tellingNothing {}
      (.create yearAsAudienceOrder ⟨1721044800, 0⟩ yearAsAudienceFresh)).1.created.map
        (fun r => (Json.Members.get? Pinned.audience r.publicInputs).bind Json.signed?) =
          [some 2024] := by
    decide +kernel
  rcases hprepare : prepareWithKeys .tellingNothing {} yearAsAudienceOrder ⟨1721044800, 0⟩
    yearAsAudienceFresh with ⟨e | r, s'⟩
  · rw [perform_create_refused hprepare] at hrun
    cases hrun
  · have hperform := perform_create hprepare
    rw [hperform] at hrun
    have haudience : (Json.Members.get? Pinned.audience r.publicInputs).bind Json.signed? =
        some 2024 := List.head_eq_of_cons_eq hrun
    obtain ⟨schema, hschema, -, hall⟩ := created_pins hperform
    refine ⟨r, _, hperform, haudience, schema, hschema, ?_⟩
    by_contra hagree
    push Not at hagree
    have hown : Json.Members.get? Pinned.audience r.publicInputs =
        some (.string ProtocolConfig.standard.audience) := hall.2 hagree _ List.mem_cons_self
    rw [hown] at haudience
    cases haudience

end Service
end PrivatePresentation
