import PrivatePresentation.Proofs.Service.Perform

/-!
Every request is settled exactly once, whatever the order of the steps of any number of operations.
It is either in the store, or with the one operation that has taken it, or it has its verdict; and
the verdict says what the one submission that settled it, if there was one, was answered.
-/

namespace PrivatePresentation

/-- Where a request may be: in the store, with one of the operations, or among the verdicts. -/
inductive Whereabouts where
  | pending
  | held (operation : Nat)
  | recorded

/-- A verdict says what a submission was answered at an instant. -/
def Verdict.Tells (v : Verdict) (now : Timestamp) : Answer → Prop
  | .accepted _ =>
    v.state = .verified ∧ v.ok = true ∧ v.verifiedAt = some now ∧ v.reason = none
  | .rejected e =>
    v.state = (if e = .expired then .expired else .failed) ∧ v.ok = false ∧ v.verifiedAt = none ∧
      v.reason = some e.reason
  | _ => False

/-- An operation was a submission for a request, and its answer settled the request. -/
def Operation.Decides (o : Operation) (id : RequestId) (now : Timestamp) (answer : Answer) : Prop :=
  ∃ sub, o.call = .submit sub now ∧ RequestId.parseTrimmed sub.requestId = .ok id ∧
    o.rest = .done answer ∧ answer.IsDecisive

namespace World

/-- A request is at a place. -/
def IsAt (w : World) (id : RequestId) : Whereabouts → Prop
  | .pending => id ∈ w.service.requests.keys
  | .held i => ∃ o, w.operations[i]? = some o ∧ o.Holds id
  | .recorded => id ∈ w.service.verdicts.keys

/-- An operation has answered that it has made a request. -/
def IsCreated (w : World) (id : RequestId) : Prop :=
  ∃ o ∈ w.operations, ∃ r, o.rest = .done (.created r) ∧ r.id = id

/-- How often verdicts on a request have been handed over. -/
def deliveries (w : World) (id : RequestId) : Nat :=
  (w.service.outbox.map (·.request.id)).count id

/-- What it is to settle every request exactly once. -/
structure SettlesOnce (ps : ProofSystem) (w : World) : Prop where
  /-- Whatever has been made is at one place. -/
  place : ∀ id, w.IsCreated id → ∃! place, w.IsAt id place
  /-- Nothing is anywhere that has not been made. -/
  created : ∀ id place, w.IsAt id place → w.IsCreated id
  /-- No verdict is recorded twice on one request. -/
  recordedOnce : (w.recordings.map (·.request.id)).Nodup
  /-- The verdicts that are kept are those that have been recorded. -/
  recorded : ∀ id v, w.service.verdicts.get? id = some v ↔
    ∃ d ∈ w.recordings, d.request.id = id ∧ d.verdict = v
  /-- A verdict stays as it is. -/
  lasting : ∀ w', Relation.ReflTransGen (Step ps) w w' → ∀ id v,
    w.service.verdicts.get? id = some v → w'.service.verdicts.get? id = some v
  /-- No verdict is handed over twice. -/
  deliveredOnce : ∀ id, w.deliveries id ≤ 1
  /-- What is handed over is the verdict that is kept. -/
  delivered : ∀ d ∈ w.service.outbox, w.service.verdicts.get? d.request.id = some d.verdict
  /-- Once an operation has ended, whatever it has taken has its verdict, handed over once. -/
  ended : ∀ o ∈ w.operations, ∀ answer, o.rest = .done answer → ∀ r ∈ o.taken,
    r.id ∈ w.service.verdicts.keys ∧ w.deliveries r.id = 1
  /-- No two submissions settle one request. -/
  decidedOnce : ∀ (i j : Nat) (o o' : Operation), w.operations[i]? = some o → w.operations[j]? = some o' →
    ∀ id now now' answer answer', o.Decides id now answer → o'.Decides id now' answer' → i = j
  /-- The verdict says what the submission that settled its request was answered. -/
  decided : ∀ o ∈ w.operations, ∀ id now answer, o.Decides id now answer →
    ∃ v, w.service.verdicts.get? id = some v ∧ v.Tells now answer
  /-- A submission that settles nothing takes nothing and records nothing. -/
  undecided : ∀ o ∈ w.operations, ∀ sub now answer, o.call = .submit sub now →
    o.rest = .done answer → ¬answer.IsDecisive → o.taken = [] ∧ o.recorded = []
  /-- A submission that is turned down at once leaves the stores as they are, and one of the wrong
  form leaves everything as it is. -/
  refused : ∀ (s : Service) sub now e,
    ((Task.submit sub now).step ps s).1 = .done (.rejected e) →
      s.SameStores ((Task.submit sub now).step ps s).2 ∧
      (e ≠ .notFound → ((Task.submit sub now).step ps s).2 = s)

end World

/-- The verdict on a checked request says what its submission is answered. -/
theorem Service.verdictOf_tells (r : PresentationRequest) (now : Timestamp)
    (outcome : Except VerificationError Unit) :
    (verdictOf r now outcome).Tells now (.ofCheck r outcome) := by
  cases outcome with
  | ok _ => exact ⟨rfl, rfl, rfl, rfl⟩
  | error e =>
      by_cases he : e = .expired
      · rw [verdictOf, if_pos he]
        exact ⟨(if_pos he).symm, rfl, rfl, rfl⟩
      · rw [verdictOf, if_neg he]
        exact ⟨(if_neg he).symm, rfl, rfl, rfl⟩

/-- What is in the lists of two members of a list of lists without repetition is in one and the
same of them. -/
theorem index_unique {α β : Type} {l : List α} {f : α → List β} (hnodup : (l.flatMap f).Nodup)
    {i j : Nat} {a b : α} {x : β} (hi : l[i]? = some a) (hj : l[j]? = some b) (ha : x ∈ f a)
    (hb : x ∈ f b) : i = j := by
  obtain ⟨hi', rfl⟩ := List.getElem?_eq_some_iff.1 hi
  obtain ⟨hj', rfl⟩ := List.getElem?_eq_some_iff.1 hj
  have hdisjoint := List.pairwise_iff_getElem.1 (List.nodup_flatMap.1 hnodup).2
  rcases Nat.lt_trichotomy i j with h | h | h
  · exact absurd hb (hdisjoint i j hi' hj' h ha)
  · exact h
  · exact absurd ha (hdisjoint j i hj' hi' h hb)

namespace World.Invariant

variable {w : World} {id : RequestId}

theorem mem_requests_iff (hw : w.Invariant) :
    id ∈ w.service.requests.keys ↔ id ∈ w.pending.map (·.id) := by
  rw [pending, Store.values, Store.keys, List.map_map]
  have hown : w.service.requests.entries.map Prod.fst =
      w.service.requests.entries.map ((·.id) ∘ Prod.snd) :=
    List.map_congr_left fun e he => (hw.own e he).symm
  rw [hown]

theorem mem_verdicts_iff (hw : w.Invariant) :
    id ∈ w.service.verdicts.keys ↔ id ∈ (w.recordings.map (·.request)).map (·.id) := by
  rw [Store.keys, (hw.verdicts.map Prod.fst).mem_iff, List.map_map, List.map_map]
  have hmatching : w.recordings.map (Prod.fst ∘ fun d => (d.verdict.requestId, d.verdict)) =
      w.recordings.map ((·.id) ∘ (·.request)) :=
    List.map_congr_left fun d hd => hw.matching d hd
  rw [hmatching]

/-- A request is recorded as what the store of verdicts has of it. -/
theorem get?_verdicts_iff (hw : w.Invariant) {v : Verdict} :
    w.service.verdicts.get? id = some v ↔
      ∃ d ∈ w.recordings, d.request.id = id ∧ d.verdict = v := by
  rw [Store.get?_eq_some_iff, hw.verdicts.mem_iff, List.mem_map]
  constructor
  · rintro ⟨d, hd, heq⟩
    obtain ⟨hid, hv⟩ := Prod.mk.inj heq
    exact ⟨d, hd, (hw.matching d hd).symm.trans hid, hv⟩
  · rintro ⟨d, hd, rfl, rfl⟩
    exact ⟨d, hd, by rw [hw.matching d hd]⟩

/-- The three sorts of places have no request in common. -/
theorem apart (hw : w.Invariant) :
    (∀ id ∈ w.pending.map (·.id), id ∉ w.held.map (·.id)) ∧
    (∀ id ∈ w.pending.map (·.id), id ∉ (w.recordings.map (·.request)).map (·.id)) ∧
    ∀ id ∈ w.held.map (·.id), id ∉ (w.recordings.map (·.request)).map (·.id) := by
  have hnodup := hw.nodup
  rw [List.map_append, List.map_append, List.nodup_append, List.nodup_append] at hnodup
  obtain ⟨⟨-, -, hheld⟩, -, hrecorded⟩ := hnodup
  refine ⟨fun id hp hh => hheld id hp id hh rfl, fun id hp hr => ?_, fun id hh hr => ?_⟩
  · exact hrecorded id (List.mem_append_left _ hp) id hr rfl
  · exact hrecorded id (List.mem_append_right _ hh) id hr rfl

/-- An operation holds what it has to record a verdict on. -/
theorem holds_iff (hw : w.Invariant) {o : Operation} (ho : o ∈ w.operations) :
    o.Holds id ↔ id ∈ o.rest.held.map (·.id) := by
  have htaken := ((hw.taken o ho).map (·.id)).mem_iff (a := id)
  rw [List.map_append, List.mem_append, List.map_map] at htaken
  constructor
  · rintro ⟨hmem, hnew⟩
    exact (htaken.1 hmem).resolve_left hnew
  · intro hheld
    refine ⟨htaken.2 (Or.inr hheld), fun hrecorded => ?_⟩
    obtain ⟨r, hr, rfl⟩ := List.mem_map.1 hheld
    obtain ⟨d, hd, hid⟩ := List.mem_map.1 hrecorded
    refine hw.apart.2.2 r.id (List.mem_map_of_mem (List.mem_flatMap.2 ⟨o, ho, hr⟩)) ?_
    rw [List.map_map, List.mem_map]
    exact ⟨d, List.mem_flatMap.2 ⟨o, ho, hd⟩, hid⟩

/-- No request is taken twice, by one operation or by two. -/
theorem nodup_taken (hw : w.Invariant) :
    (w.operations.flatMap fun o => o.taken.map (·.id)).Nodup := by
  have hperm : (w.operations.flatMap (·.taken)).Perm (w.recordings.map (·.request) ++ w.held) := by
    rw [recordings, held, List.map_flatMap]
    refine (List.Perm.flatMap_left _ hw.taken).trans ?_
    exact (List.flatMap_append_perm _ _ _).symm
  have hnodup := hw.nodup
  rw [List.append_assoc, List.map_append, List.nodup_append] at hnodup
  rw [← List.map_flatMap, ((hperm.trans List.perm_append_comm).map (·.id)).nodup_iff]
  exact hnodup.2.1

theorem held_iff (hw : w.Invariant) :
    id ∈ w.held.map (·.id) ↔ ∃ i, w.IsAt id (.held i) := by
  rw [held, List.map_flatMap, List.mem_flatMap]
  constructor
  · rintro ⟨o, ho, hid⟩
    obtain ⟨i, hi⟩ := List.mem_iff_getElem?.1 ho
    exact ⟨i, o, hi, (hw.holds_iff ho).2 hid⟩
  · rintro ⟨i, o, hi, hholds⟩
    have ho := List.mem_of_getElem? hi
    exact ⟨o, ho, (hw.holds_iff ho).1 hholds⟩

/-- A request that has been made is at a place, and one that has not is at none. -/
theorem created_iff (hw : w.Invariant) :
    id ∈ w.created.map (·.id) ↔ ∃ place, w.IsAt id place := by
  rw [← (hw.conserved.map (·.id)).mem_iff, List.map_append, List.map_append, List.mem_append,
    List.mem_append, ← hw.mem_requests_iff, ← hw.mem_verdicts_iff, hw.held_iff]
  constructor
  · rintro ((h | ⟨i, h⟩) | h)
    · exact ⟨.pending, h⟩
    · exact ⟨.held i, h⟩
    · exact ⟨.recorded, h⟩
  · rintro ⟨_ | i | _, h⟩
    · exact Or.inl (Or.inl h)
    · exact Or.inl (Or.inr ⟨i, h⟩)
    · exact Or.inr h

/-- A request is not at two places. -/
theorem place_unique (hw : w.Invariant) {p q : Whereabouts} (hp : w.IsAt id p) (hq : w.IsAt id q) :
    p = q := by
  obtain ⟨hpendingHeld, hpendingRecorded, hheldRecorded⟩ := hw.apart
  have hrequests (h : w.IsAt id .pending) := hw.mem_requests_iff.1 h
  have hheld {i : Nat} (h : w.IsAt id (.held i)) := hw.held_iff.2 ⟨i, h⟩
  have hverdicts (h : w.IsAt id .recorded) := hw.mem_verdicts_iff.1 h
  cases p with
  | pending =>
      cases q with
      | pending => rfl
      | held j => exact absurd (hheld hq) (hpendingHeld id (hrequests hp))
      | recorded => exact absurd (hverdicts hq) (hpendingRecorded id (hrequests hp))
  | held i =>
      cases q with
      | pending => exact absurd (hheld hp) (hpendingHeld id (hrequests hq))
      | held j =>
          obtain ⟨o, hi, ho⟩ := hp
          obtain ⟨o', hj, ho'⟩ := hq
          exact congrArg Whereabouts.held (index_unique hw.nodup_taken hi hj ho.1 ho'.1)
      | recorded => exact absurd (hverdicts hq) (hheldRecorded id (hheld hp))
  | recorded =>
      cases q with
      | pending => exact absurd (hverdicts hp) (hpendingRecorded id (hrequests hq))
      | held j => exact absurd (hverdicts hp) (hheldRecorded id (hheld hq))
      | recorded => rfl

theorem nodup_recordings (hw : w.Invariant) : (w.recordings.map (·.request.id)).Nodup := by
  have hnodup := hw.nodup
  rw [List.map_append, List.map_map, List.nodup_append] at hnodup
  exact hnodup.2.1

/-- What has been handed over and what is still to be handed over are different. -/
theorem nodup_deliveries (hw : w.Invariant) :
    ((w.service.outbox ++ w.owed).map (·.request.id)).Nodup :=
  (hw.outbox.map (·.request.id)).nodup_iff.2 hw.nodup_recordings

/-- An operation that owes nothing has handed over all that it has recorded. -/
theorem delivered_of_recorded (hw : w.Invariant) {i : Nat} {o : Operation}
    (hi : w.operations[i]? = some o) (howed : o.rest.owed = []) {d : Delivery}
    (hd : d ∈ o.recorded) : d ∈ w.service.outbox := by
  have ho := List.mem_of_getElem? hi
  have hrecorded : d ∈ w.recordings := List.mem_flatMap.2 ⟨o, ho, hd⟩
  rcases List.mem_append.1 (hw.outbox.mem_iff.2 hrecorded) with hout | hnot
  · exact hout
  · obtain ⟨o', ho', hd'⟩ := List.mem_flatMap.1 hnot
    obtain ⟨j, hj⟩ := List.mem_iff_getElem?.1 ho'
    have hij : i = j := index_unique (List.Nodup.of_map _ hw.nodup_recordings) hi hj hd
      (hw.owes o' ho' hd')
    rw [hij, hj] at hi
    obtain rfl := Option.some.inj hi
    rw [howed] at hd'
    exact absurd hd' List.not_mem_nil

end World.Invariant

namespace World

variable {ps : ProofSystem} {w w' : World}

/-- A step keeps every verdict as it is. -/
theorem Step.verdicts_subset (hstep : Step ps w w') (hw : w.Invariant) :
    w.service.verdicts.entries ⊆ w'.service.verdicts.entries := by
  cases hstep with
  | call c hfresh => exact List.Subset.refl _
  | @advance s before after o =>
      have ho : o ∈ before ++ o :: after := List.mem_append_right _ List.mem_cons_self
      have hadvances := (o.rest.step_moves ps s).advances
      obtain ⟨-, hmatching⟩ := hadvances.coherent (hw.coherent o ho)
      rw [hadvances.verdicts (hw.recorded_new ho hmatching)]
      exact List.subset_append_right _ _
  | timeOut o => exact List.Subset.refl _

/-- Any number of steps keeps every verdict as it is. -/
theorem Reachable.verdicts_subset (hw : w.Reachable ps)
    (hsteps : Relation.ReflTransGen (Step ps) w w') :
    w.service.verdicts.entries ⊆ w'.service.verdicts.entries := by
  induction hsteps with
  | refl => exact List.Subset.refl _
  | tail hbefore hstep ih =>
      exact List.Subset.trans ih (hstep.verdicts_subset (hw.trans hbefore).invariant)

theorem Reachable.isCreated_iff (hw : w.Reachable ps) {id : RequestId} :
    w.IsCreated id ↔ id ∈ w.created.map (·.id) := by
  constructor
  · rintro ⟨o, ho, r, hrest, rfl⟩
    refine List.mem_map_of_mem (List.mem_flatMap.2 ⟨o, ho, ?_⟩)
    rw [hrest]
    exact List.mem_cons_self
  · intro hid
    obtain ⟨r, hr, rfl⟩ := List.mem_map.1 hid
    obtain ⟨o, ho, hr⟩ := List.mem_flatMap.1 hr
    obtain ⟨-, -, -, -, hrest, -⟩ := (hw.sound o ho).of_created hr
    exact ⟨o, ho, r, hrest, rfl⟩

/-- An operation that settles a request has taken it and has recorded what it answers. -/
theorem Reachable.of_decides (hw : w.Reachable ps) {o : Operation} (ho : o ∈ w.operations)
    {id : RequestId} {now : Timestamp} {answer : Answer} (hdecides : o.Decides id now answer) :
    id ∈ o.taken.map (·.id) ∧
      ∃ d ∈ o.recorded, d.request.id = id ∧ d.verdict.Tells now answer := by
  obtain ⟨sub, hcall, hid, hrest, hanswer⟩ := hdecides
  have hsound := hw.sound o ho
  rw [Operation.Sound, hcall] at hsound
  simp only [hrest] at hsound
  obtain ⟨r, keys?, hr, hcheck, htaken, hrecorded⟩ := hsound.of_decisive hanswer
  obtain rfl : r.id = id := Except.ok.inj (hr.symm.trans hid)
  rw [htaken, hrecorded]
  refine ⟨List.mem_cons_self, _, List.mem_cons_self, rfl, ?_⟩
  rw [hcheck]
  exact Service.verdictOf_tells r now _

/-- To turn a submission down at once is to do nothing, but for a count of what is not there. -/
theorem refused_same {s : Service} {sub : Submission} {now : Timestamp} {e : VerificationError}
    (he : ((Task.submit sub now).step ps s).1 = .done (.rejected e)) :
    s.SameStores ((Task.submit sub now).step ps s).2 ∧
      (e ≠ .notFound → ((Task.submit sub now).step ps s).2 = s) := by
  have hmoves := (Task.submit sub now).step_moves ps s
  rw [he] at hmoves
  generalize ((Task.submit sub now).step ps s).2 = s' at hmoves ⊢
  generalize (Task.submit sub now).effect s = effect at hmoves
  cases hmoves with
  | malformed he => exact ⟨.refl s, fun _ => rfl⟩
  | notFound hwell hnone => exact ⟨⟨rfl, rfl, rfl⟩, fun hne => absurd rfl hne⟩

/-- Every request is settled exactly once, wherever steps lead. -/
theorem Reachable.settlesOnce (hw : w.Reachable ps) : w.SettlesOnce ps where
  place id hid := by
    obtain ⟨place, hplace⟩ := hw.invariant.created_iff.1 (hw.isCreated_iff.1 hid)
    exact ⟨place, hplace, fun _ hother => hw.invariant.place_unique hother hplace⟩
  created id place hplace := hw.isCreated_iff.2 (hw.invariant.created_iff.2 ⟨place, hplace⟩)
  recordedOnce := hw.invariant.nodup_recordings
  recorded id v := hw.invariant.get?_verdicts_iff
  lasting w' hsteps id v hv := by
    rw [Store.get?_eq_some_iff] at hv ⊢
    exact hw.verdicts_subset hsteps hv
  deliveredOnce id := by
    have hnodup := hw.invariant.nodup_deliveries
    rw [List.map_append, List.nodup_append] at hnodup
    exact List.nodup_iff_count_le_one.1 hnodup.1 id
  delivered d hd := by
    have hrecorded := hw.invariant.outbox.subset (List.mem_append_left _ hd)
    exact hw.invariant.get?_verdicts_iff.2 ⟨d, hrecorded, rfl, rfl⟩
  ended o ho answer hrest r hr := by
    have hheld : o.rest.held = [] := by
      rw [hrest]
      rfl
    have howed : o.rest.owed = [] := by
      rw [hrest]
      rfl
    have htaken := hw.invariant.taken o ho
    rw [hheld, List.append_nil] at htaken
    obtain ⟨d, hd, rfl⟩ := List.mem_map.1 (htaken.subset hr)
    obtain ⟨i, hi⟩ := List.mem_iff_getElem?.1 ho
    have hout := hw.invariant.delivered_of_recorded hi howed hd
    have hnodup := hw.invariant.nodup_deliveries
    rw [List.map_append, List.nodup_append] at hnodup
    refine ⟨?_, List.count_eq_one_of_mem hnodup.1 (List.mem_map_of_mem hout)⟩
    rw [hw.invariant.mem_verdicts_iff]
    exact List.mem_map_of_mem (List.mem_map_of_mem (List.mem_flatMap.2 ⟨o, ho, hd⟩))
  decidedOnce i j o o' hi hj id now now' answer answer' hdecides hdecides' := by
    have htaken := (hw.of_decides (List.mem_of_getElem? hi) hdecides).1
    have htaken' := (hw.of_decides (List.mem_of_getElem? hj) hdecides').1
    exact index_unique hw.invariant.nodup_taken hi hj htaken htaken'
  decided o ho id now answer hdecides := by
    obtain ⟨-, d, hd, hid, htells⟩ := hw.of_decides ho hdecides
    refine ⟨d.verdict, hw.invariant.get?_verdicts_iff.2 ⟨d, ?_, hid, rfl⟩, htells⟩
    exact List.mem_flatMap.2 ⟨o, ho, hd⟩
  undecided o ho sub now answer hcall hrest hanswer := by
    have hsound := hw.sound o ho
    rw [Operation.Sound, hcall] at hsound
    simp only [hrest] at hsound
    exact hsound.of_not_decisive hanswer
  refused _ _ _ _ he := refused_same he

end World

/-- A system in which all keys are the same, and a proof is accepted where nothing is told by it. -/
def ProofSystem.tellingNothing : ProofSystem where
  setup _ _ := .ok default
  prove _ _ _ _ := .ok default
  verify _ _ inputs := .ok inputs.isEmpty

/-- The text of a schema with one secret field. -/
def bareText : String := "\x7b\"fields\":[\x7b\"name\":\"x\"\x7d]\x7d"

namespace World

/-- The making of a request about one secret, with an identifier and a nonce of one repeated byte. -/
def bareCall (n : UInt8) : Call :=
  .create { schemaText := some bareText } ⟨0, 0⟩
    ⟨⟨List.replicate 16 n⟩, ⟨RequestId.text ⟨List.replicate 16 n⟩⟩, default⟩

/-- One request has been made. -/
def oneMade : World := (World.mk {} []).perform .tellingNothing 2 (bareCall 1)

theorem isSome_oneMade :
    (oneMade.service.requests.get? ⟨List.replicate 16 1⟩).isSome = true := by
  decide +kernel

/-- Two requests have been made. -/
def twoMade : World :=
  ((World.mk {} []).perform .tellingNothing 2 (bareCall 1)).perform .tellingNothing 2 (bareCall 2)

theorem reachable_twoMade : twoMade.Reachable .tellingNothing := by
  have hnone : (World.mk {} []).Reachable .tellingNothing := ⟨{}, rfl, rfl, rfl, .refl⟩
  refine (hnone.perform 2 fun _ _ => List.not_mem_nil).perform 2 fun id hid => ?_
  obtain rfl := List.mem_singleton.1 hid
  decide +kernel

/-- Both of the two requests are at one place. -/
theorem settlesOnce_twoMade : twoMade.SettlesOnce .tellingNothing ∧
    ∀ n ∈ [1, 2], ∃! place, twoMade.IsAt ⟨List.replicate 16 n⟩ place := by
  have hsettles := Reachable.settlesOnce reachable_twoMade
  refine ⟨hsettles, fun n hn => hsettles.place _ ?_⟩
  have hmade : twoMade.operations.map (·.rest.created.map (·.id)) =
      [[⟨List.replicate 16 2⟩], [⟨List.replicate 16 1⟩]] := by
    decide +kernel
  rw [Reachable.isCreated_iff reachable_twoMade, created, List.map_flatMap, List.flatMap_def, hmade]
  simpa [or_comm] using hn

end World
end PrivatePresentation
