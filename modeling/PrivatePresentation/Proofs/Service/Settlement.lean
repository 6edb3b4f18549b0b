import PrivatePresentation.Proofs.Service.Steps

/-!
Every request is settled exactly once.  A step moves a request from one place to the next and never
loses or doubles one: from the store to the operation that takes it, from there to the verdicts, and
the verdict to the outbox.
-/

namespace PrivatePresentation

/-- What a step with some effect does to the stores and to the task that makes it. -/
structure Advances (e : Effect) (s s' : Service) (t t' : Task) : Prop where
  requests : s.RequestsOwn → (∀ r ∈ e.saved, r.id ∉ s.requests.keys) →
    s'.RequestsOwn ∧ (e.taken ++ s'.requests.values).Perm (e.saved ++ s.requests.values)
  verdicts : (∀ d ∈ e.recorded, d.verdict.requestId ∉ s.verdicts.keys) →
    s'.verdicts.entries =
      e.recorded.map (fun d => (d.verdict.requestId, d.verdict)) ++ s.verdicts.entries
  outbox : s'.outbox = s.outbox ++ e.delivered
  held : e.recorded.map (·.request) ++ t'.held = e.taken ++ t.held
  owed : e.delivered ++ t'.owed = e.recorded ++ t.owed
  created : t'.created = e.saved ++ t.created
  unborn : (e.saved.map (·.id) ++ t'.unborn).Sublist t.unborn
  coherent : t.Coherent → t'.Coherent ∧
    ∀ d ∈ e.recorded, d.request ∈ t.held ∧ d.verdict.requestId = d.request.id

namespace Advances

variable {s s' : Service} {t t' : Task}

/-- A step that touches none of the stores. -/
theorem of_same (hsame : s.SameStores s') (hheld : t'.held = t.held) (howed : t'.owed = t.owed)
    (hcreated : t'.created = t.created) (hunborn : t'.unborn.Sublist t.unborn)
    (hcoherent : t.Coherent → t'.Coherent) : Advances {} s s' t t' where
  requests hown _ := by
    rw [Service.RequestsOwn, hsame.requests]
    exact ⟨hown, List.Perm.refl _⟩
  verdicts _ := by rw [hsame.verdicts]; rfl
  outbox := by rw [hsame.outbox, List.append_nil]
  held := hheld
  owed := howed
  created := hcreated
  unborn := hunborn
  coherent ht := ⟨hcoherent ht, fun _ hd => absurd hd List.not_mem_nil⟩

/-- A step after which only an answer is left. -/
theorem of_answer (hsame : s.SameStores s') {answer : Answer} (hheld : t.held = [])
    (howed : t.owed = []) (hcreated : t.created = (Task.done answer).created) :
    Advances {} s s' t (.done answer) :=
  of_same hsame hheld.symm howed.symm hcreated.symm (List.nil_sublist _) fun _ => trivial

/-- A step that takes requests out of the store and leaves the rest of the service as it is. -/
theorem of_taken {taken : List PresentationRequest} {requests : Store RequestId PresentationRequest}
    (hsub : requests.entries.Sublist s.requests.entries)
    (hperm : (taken ++ requests.values).Perm s.requests.values) (hheld : t'.held = taken ++ t.held)
    (howed : t'.owed = t.owed) (hcreated : t'.created = t.created)
    (hunborn : t'.unborn = t.unborn) (hcoherent : t.Coherent → t'.Coherent) :
    Advances { taken := taken } s { s with requests := requests } t t' where
  requests hown _ := ⟨fun e he => hown e (hsub.subset he), hperm⟩
  verdicts _ := rfl
  outbox := (List.append_nil _).symm
  held := hheld
  owed := howed
  created := hcreated
  unborn := by rw [hunborn]; exact List.Sublist.refl _
  coherent ht := ⟨hcoherent ht, fun _ hd => absurd hd List.not_mem_nil⟩

end Advances

/-- A verdict on a request stands under its identifier. -/
theorem Service.verdictOf_requestId (r : PresentationRequest) (now : Timestamp)
    (outcome : Except VerificationError Unit) : (verdictOf r now outcome).requestId = r.id := by
  cases outcome <;> rfl

namespace Task

theorem created_ofCheck (r : PresentationRequest) (outcome : Except VerificationError Unit) :
    (done (.ofCheck r outcome)).created = [] := by
  cases outcome <;> rfl

section SettleExpired

variable (now : Timestamp) (taken : List PresentationRequest) (next : Task)

theorem held_settleExpired : (settleExpired now taken next).held = taken ++ next.held := by
  induction taken with
  | nil => rfl
  | cons r rest ih => exact congrArg (r :: ·) ih

theorem owed_settleExpired : (settleExpired now taken next).owed = next.owed := by
  induction taken with
  | nil => rfl
  | cons r rest ih => exact ih

theorem created_settleExpired : (settleExpired now taken next).created = next.created := by
  induction taken with
  | nil => rfl
  | cons r rest ih => exact ih

theorem unborn_settleExpired : (settleExpired now taken next).unborn = next.unborn := by
  induction taken with
  | nil => rfl
  | cons r rest ih => exact ih

theorem coherent_settleExpired (hnext : next.Coherent) :
    (settleExpired now taken next).Coherent := by
  induction taken with
  | nil => exact hnext
  | cons r rest ih => exact ⟨rfl, ih⟩

end SettleExpired

/-- No step loses anything. -/
theorem Moves.advances {ps : ProofSystem} {s s' : Service} {t t' : Task} {e : Effect}
    (h : t.Moves ps s e t' s') : Advances e s s' t t' := by
  cases h with
  | prepares hprepares =>
      have hid := hprepares.id
      exact .of_same hprepares.same.toSameStores rfl rfl rfl (by simp [unborn, hid]) fun _ => trivial
  | refuses hprepares => exact .of_answer hprepares.same.toSameStores rfl rfl rfl
  | @saves r =>
      refine ⟨fun hown hnew => ?_, fun _ => rfl, (List.append_nil _).symm, rfl, rfl, rfl,
        List.Sublist.refl _, fun _ => ⟨trivial, fun _ hd => absurd hd List.not_mem_nil⟩⟩
      have hentries : (s.requests.insert r.id r).entries = (r.id, r) :: s.requests.entries :=
        Store.entries_insert (hnew r List.mem_cons_self)
      constructor
      · intro e he
        rcases List.mem_cons.1 (hentries ▸ he) with rfl | he
        · rfl
        · exact hown e he
      · exact List.Perm.of_eq (congrArg (List.map Prod.snd) hentries)
  | takes hwell hid hget =>
      exact .of_taken List.filter_sublist (Store.perm_erase hget) rfl rfl rfl rfl fun _ => trivial
  | checks hkept =>
      exact .of_same (.refl s) rfl rfl (created_ofCheck _ _) (List.Sublist.refl _)
        fun _ => ⟨Service.verdictOf_requestId _ _ _, trivial⟩
  | evicts hcheck =>
      refine .of_same ?_ rfl rfl (created_ofCheck _ _) (List.Sublist.refl _)
        fun _ => ⟨Service.verdictOf_requestId _ _ _, trivial⟩
      exact ⟨rfl, rfl, rfl⟩
  | @records r v next =>
      refine ⟨fun hown _ => ⟨hown, List.Perm.refl _⟩, fun hnew => ?_, (List.append_nil _).symm, rfl,
        rfl, rfl, List.Sublist.refl _, fun ht => ⟨ht, fun d hd => ?_⟩⟩
      · exact Store.entries_insert (hnew ⟨r, v⟩ List.mem_cons_self)
      · rw [List.mem_singleton.1 hd]
        exact ⟨List.mem_cons_self, ht.1⟩
  | notifies => exact .of_same ⟨rfl, rfl, rfl⟩ rfl rfl rfl (List.Sublist.refl _) id
  | delivers =>
      exact ⟨fun hown _ => ⟨hown, List.Perm.refl _⟩, fun _ => rfl, rfl, rfl, rfl, rfl,
        List.Sublist.refl _, fun ht => ⟨ht.2, fun _ hd => absurd hd List.not_mem_nil⟩⟩
  | @misses id now forResult hnone => cases forResult <;> exact .of_answer (.refl s) rfl rfl rfl
  | @late id now forResult r hget hlate =>
      cases forResult <;>
        exact .of_same (.refl s) rfl rfl rfl (List.Sublist.refl _) fun _ => trivial
  | @pends id now forResult r hget htime =>
      cases forResult <;> exact .of_answer (.refl s) rfl rfl rfl
  | @expires id now next r hget =>
      exact .of_taken List.filter_sublist (Store.perm_erase hget)
        (held_settleExpired now [r] next) (owed_settleExpired now [r] next)
        (created_settleExpired now [r] next) (unborn_settleExpired now [r] next)
        (coherent_settleExpired now [r] next)
  | overtaken hnone => exact .of_same (.refl s) rfl rfl rfl (List.Sublist.refl _) fun h => h
  | @sweeps now =>
      exact .of_taken List.filter_sublist (Store.perm_drain s.requests _)
        (held_settleExpired now _ _) (owed_settleExpired now _ _) (created_settleExpired now _ _)
        (unborn_settleExpired now _ _)
        fun _ => coherent_settleExpired now _ _ trivial
  | registers => exact .of_same ⟨rfl, rfl, rfl⟩ rfl rfl rfl (List.Sublist.refl _) fun h => h
  | notFound hwell hnone =>
      refine .of_answer ?_ rfl rfl rfl
      exact ⟨rfl, rfl, rfl⟩
  | receives hv =>
      refine .of_answer ?_ rfl rfl rfl
      exact ⟨rfl, rfl, rfl⟩
  | cancels =>
      refine .of_answer ?_ rfl rfl rfl
      exact ⟨rfl, rfl, rfl⟩
  | _ => exact .of_same (.refl s) rfl rfl rfl (List.nil_sublist _) fun _ => trivial

/-- To give up waiting is to do nothing to the stores. -/
theorem timeOut_advances (s : Service) (t : Task) : Advances {} s s t t.timeOut := by
  cases t <;> exact .of_same (.refl s) rfl rfl rfl (List.Sublist.refl _) fun h => h

end Task

theorem mem_operations_iff {before after : List Operation} {o o' : Operation} :
    o' ∈ before ++ o :: after ↔ o' = o ∨ o' ∈ before ++ after := by
  rw [List.mem_append, List.mem_cons, List.mem_append, or_left_comm]

/-- Something holds of all operations when it holds of one and of those before and after it. -/
theorem forall_mem_operations {P : Operation → Prop} {before after : List Operation}
    {o : Operation} : (∀ o' ∈ before ++ o :: after, P o') ↔
      (∀ o' ∈ before, P o') ∧ P o ∧ ∀ o' ∈ after, P o' := by
  rw [List.forall_mem_append, List.forall_mem_cons]

/-- What all operations have made, taken together, once one of them has gone on. -/
theorem mem_flatMap_operations {α : Type} {f : Operation → List α} {added : List α}
    {before after : List Operation} {o o' : Operation}
    (hf : ∀ x, x ∈ f o' ↔ x ∈ added ∨ x ∈ f o) (x : α) :
    x ∈ (before ++ o' :: after).flatMap f ↔
      x ∈ added ∨ x ∈ (before ++ o :: after).flatMap f := by
  simp only [List.flatMap_append, List.flatMap_cons, List.mem_append, hf]
  tauto

namespace World

/-- The requests in the store. -/
def pending (w : World) : List PresentationRequest := w.service.requests.values

/-- The requests on which some operation has to record a verdict. -/
def held (w : World) : List PresentationRequest := w.operations.flatMap (·.rest.held)

/-- What some operation has to hand over. -/
def owed (w : World) : List Delivery := w.operations.flatMap (·.rest.owed)

/-- The requests that have been made. -/
def created (w : World) : List PresentationRequest := w.operations.flatMap (·.rest.created)

/-- The identifiers of requests that are still to be made. -/
def unborn (w : World) : List RequestId := w.operations.flatMap (·.rest.unborn)

/-- No request is lost and none is doubled. -/
structure Invariant (w : World) : Prop where
  own : w.service.RequestsOwn
  coherent : ∀ o ∈ w.operations, o.rest.Coherent
  taken : ∀ o ∈ w.operations, o.taken.Perm (o.recorded.map (·.request) ++ o.rest.held)
  owes : ∀ o ∈ w.operations, o.rest.owed ⊆ o.recorded
  conserved : (w.pending ++ w.held ++ w.recordings.map (·.request)).Perm w.created
  fresh : ∀ id, (w.created.map (·.id)).count id + w.unborn.count id ≤ w.drawn.count id
  drawn : w.drawn.Nodup
  matching : ∀ d ∈ w.recordings, d.verdict.requestId = d.request.id
  verdicts : w.service.verdicts.entries.Perm
    (w.recordings.map fun d => (d.verdict.requestId, d.verdict))
  outbox : (w.service.outbox ++ w.owed).Perm w.recordings

namespace Invariant

variable {w : World}

/-- The identifiers of all requests, wherever they are, are different. -/
theorem nodup (hw : w.Invariant) :
    ((w.pending ++ w.held ++ w.recordings.map (·.request)).map (·.id)).Nodup := by
  rw [(hw.conserved.map (·.id)).nodup_iff, List.nodup_iff_count_le_one]
  intro id
  have hfresh := hw.fresh id
  have hdrawn := List.nodup_iff_count_le_one.1 hw.drawn id
  omega

theorem of_start {s : Service} (hrequests : s.requests = ∅) (hverdicts : s.verdicts = ∅)
    (houtbox : s.outbox = []) : Invariant ⟨s, []⟩ where
  own e he := by
    rw [hrequests] at he
    exact absurd he List.not_mem_nil
  coherent _ ho := absurd ho List.not_mem_nil
  taken _ ho := absurd ho List.not_mem_nil
  owes _ ho := absurd ho List.not_mem_nil
  conserved := by
    rw [pending, hrequests]
    exact List.Perm.refl _
  fresh id := Nat.le_refl _
  drawn := List.nodup_nil
  matching _ hd := absurd hd List.not_mem_nil
  verdicts := by
    rw [hverdicts]
    exact List.Perm.refl _
  outbox := by
    rw [houtbox]
    exact List.Perm.refl _

/-- A new operation has done nothing yet. -/
theorem call {s : Service} {operations : List Operation} (hw : Invariant ⟨s, operations⟩) (c : Call)
    (hfresh : ∀ id ∈ c.drawn, id ∉ (World.mk s operations).drawn) :
    Invariant ⟨s, .start c :: operations⟩ := by
  have hheld : c.task.held = [] := by cases c <;> rfl
  have howed : c.task.owed = [] := by cases c <;> rfl
  have hcreated : c.task.created = [] := by cases c <;> rfl
  have hunborn : c.task.unborn = c.drawn := by cases c <;> rfl
  have hdrawn : c.drawn.Nodup := by
    cases c <;> simp [Call.drawn]
  have hworld : (World.mk s (.start c :: operations)).held = (World.mk s operations).held ∧
      (World.mk s (.start c :: operations)).owed = (World.mk s operations).owed ∧
      (World.mk s (.start c :: operations)).created = (World.mk s operations).created := by
    simp [World.held, World.owed, World.created, Operation.start, hheld, howed, hcreated]
  have hrecordings : (World.mk s (.start c :: operations)).recordings =
      (World.mk s operations).recordings := rfl
  exact {
    own := hw.own
    coherent := List.forall_mem_cons.2 ⟨by cases c <;> trivial, hw.coherent⟩
    taken := by
      refine List.forall_mem_cons.2 ⟨?_, hw.taken⟩
      simp [Operation.start, hheld]
    owes := by
      refine List.forall_mem_cons.2 ⟨?_, hw.owes⟩
      simp [Operation.start, howed]
    conserved := by
      rw [hworld.1, hworld.2.2, hrecordings]
      exact hw.conserved
    fresh := fun id => by
      have hold := hw.fresh id
      rw [hworld.2.2]
      simp only [World.unborn, World.drawn, Operation.start, List.flatMap_cons, List.count_append,
        hunborn] at hold ⊢
      omega
    drawn := by
      refine List.nodup_append.2 ⟨hdrawn, hw.drawn, fun id hid id' hid' heq => ?_⟩
      exact hfresh id hid (heq ▸ hid')
    matching := hw.matching
    verdicts := hw.verdicts
    outbox := by
      rw [hworld.2.1, hrecordings]
      exact hw.outbox }

/-- An identifier under which a request may still be made is that of no request. -/
theorem unborn_new (hw : w.Invariant) {id : RequestId} (hid : id ∈ w.unborn) :
    id ∉ w.created.map (·.id) := by
  intro hcreated
  have hcount := List.count_pos_iff.2 hcreated
  have hcount' := List.count_pos_iff.2 hid
  have hfresh := hw.fresh id
  have hdrawn := List.nodup_iff_count_le_one.1 hw.drawn id
  omega

/-- A request that is to be kept is not there already: its identifier has been drawn for it alone. -/
theorem saved_new (hw : w.Invariant) {o : Operation} (ho : o ∈ w.operations) {e : Effect}
    {s s' : Service} {t' : Task} (hadvances : Advances e s s' o.rest t') :
    ∀ r ∈ e.saved, r.id ∉ w.created.map (·.id) ∧ r.id ∉ w.service.requests.keys := by
  intro r hr
  have hunborn : r.id ∈ o.rest.unborn :=
    hadvances.unborn.subset (List.mem_append_left _ (List.mem_map_of_mem hr))
  have hnew := hw.unborn_new (List.mem_flatMap.2 ⟨o, ho, hunborn⟩)
  refine ⟨hnew, fun hkey => hnew ?_⟩
  obtain ⟨r', hr'⟩ := Store.exists_of_mem_keys hkey
  have hid : r'.id = r.id := hw.own _ hr'
  have hpending : r' ∈ w.pending := List.mem_map.2 ⟨_, hr', rfl⟩
  have hcreated : r' ∈ w.created := hw.conserved.subset
    (List.mem_append_left _ (List.mem_append_left _ hpending))
  exact List.mem_map.2 ⟨r', hcreated, hid⟩

/-- A verdict that is to be recorded is the first on its request: the request is still held. -/
theorem recorded_new (hw : w.Invariant) {o : Operation} (ho : o ∈ w.operations) {e : Effect}
    (hmatching : ∀ d ∈ e.recorded, d.request ∈ o.rest.held ∧ d.verdict.requestId = d.request.id) :
    ∀ d ∈ e.recorded, d.verdict.requestId ∉ w.service.verdicts.keys := by
  intro d hd hkey
  obtain ⟨hheld, hid⟩ := hmatching d hd
  obtain ⟨v, hv⟩ := Store.exists_of_mem_keys hkey
  obtain ⟨d', hd', heq⟩ := List.mem_map.1 (hw.verdicts.subset hv)
  have hid' : d'.request.id = d.request.id := by
    rw [← hw.matching d' hd', ← hid]
    exact congrArg Prod.fst heq
  have hnodup := hw.nodup
  rw [List.map_append, List.nodup_append] at hnodup
  refine hnodup.2.2 d.request.id (List.mem_map_of_mem ?_) d'.request.id
    (List.mem_map_of_mem (List.mem_map_of_mem hd')) hid'.symm
  exact List.mem_append_right _ (List.mem_flatMap.2 ⟨o, ho, hheld⟩)

/-- One operation of many goes on. -/
theorem update {s s' : Service} {before after : List Operation} {o o' : Operation} {e : Effect}
    (hw : Invariant ⟨s, before ++ o :: after⟩) (hadvances : Advances e s s' o.rest o'.rest)
    (hcall : o'.call = o.call) (htaken : o'.taken = o.taken ++ e.taken)
    (hrecorded : o'.recorded = o.recorded ++ e.recorded) :
    Invariant ⟨s', before ++ o' :: after⟩ := by
  have ho : o ∈ before ++ o :: after := List.mem_append_right _ List.mem_cons_self
  obtain ⟨hcoherent, hmatching⟩ := hadvances.coherent (hw.coherent o ho)
  obtain ⟨hown, hrequests⟩ := hadvances.requests hw.own fun r hr =>
    (hw.saved_new ho hadvances r hr).2
  have hverdicts := hadvances.verdicts (hw.recorded_new ho hmatching)
  obtain ⟨hcoherentBefore, -, hcoherentAfter⟩ := forall_mem_operations.1 hw.coherent
  obtain ⟨htakenBefore, htakenOld, htakenAfter⟩ := forall_mem_operations.1 hw.taken
  obtain ⟨howesBefore, howesOld, howesAfter⟩ := forall_mem_operations.1 hw.owes
  classical
  exact {
    own := hown
    coherent := forall_mem_operations.2 ⟨hcoherentBefore, hcoherent, hcoherentAfter⟩
    taken := by
      refine forall_mem_operations.2 ⟨htakenBefore, ?_, htakenAfter⟩
      rw [List.perm_iff_count]
      intro r
      have hold := htakenOld.count_eq r
      have hheld := congrArg (List.count r) hadvances.held
      simp only [htaken, hrecorded, List.map_append, List.count_append] at *
      omega
    owes := by
      refine forall_mem_operations.2 ⟨howesBefore, fun d hd => ?_, howesAfter⟩
      rw [hrecorded]
      have hd : d ∈ e.recorded ++ o.rest.owed := hadvances.owed ▸ List.mem_append_right _ hd
      rcases List.mem_append.1 hd with hnew | hold
      · exact List.mem_append_right _ hnew
      · exact List.mem_append_left _ (howesOld hold)
    conserved := by
      rw [List.perm_iff_count]
      intro r
      have hold := hw.conserved.count_eq r
      have hstore := hrequests.count_eq r
      have hheld := congrArg (List.count r) hadvances.held
      have hcreated := congrArg (List.count r) hadvances.created
      simp only [World.pending, World.held, World.recordings, World.created, List.flatMap_append,
        List.flatMap_cons, List.map_append, List.count_append, hrecorded] at *
      omega
    fresh := fun id => by
      have hold := hw.fresh id
      have hunborn := hadvances.unborn.count_le id
      have hcreated := congrArg (fun rs => (rs.map (·.id)).count id) hadvances.created
      simp only [World.created, World.unborn, World.drawn, List.flatMap_append, List.flatMap_cons,
        List.map_append, List.count_append, hcall] at *
      omega
    drawn := by
      have hold := hw.drawn
      simp only [World.drawn, List.flatMap_append, List.flatMap_cons, hcall] at hold ⊢
      exact hold
    matching := fun d hd => by
      have hadded (d : Delivery) : d ∈ o'.recorded ↔ d ∈ e.recorded ∨ d ∈ o.recorded := by
        rw [hrecorded, List.mem_append, or_comm]
      rcases (mem_flatMap_operations hadded d).1 hd with hnew | hold
      · exact (hmatching d hnew).2
      · exact hw.matching d hold
    verdicts := by
      rw [List.perm_iff_count]
      intro entry
      have hold := hw.verdicts.count_eq entry
      simp only [World.recordings, List.flatMap_append, List.flatMap_cons, List.map_append,
        List.count_append, hrecorded, hverdicts] at *
      omega
    outbox := by
      rw [List.perm_iff_count]
      intro d
      have hold := hw.outbox.count_eq d
      have howed := congrArg (List.count d) hadvances.owed
      simp only [World.owed, World.recordings, List.flatMap_append, List.flatMap_cons,
        List.count_append, hrecorded, hadvances.outbox] at *
      omega }

end Invariant

/-- The invariant holds wherever steps lead. -/
theorem Reachable.invariant {ps : ProofSystem} {w : World} (hw : w.Reachable ps) : w.Invariant := by
  induction hw using Reachable.induct with
  | start s hrequests hverdicts houtbox => exact .of_start hrequests hverdicts houtbox
  | step w w' hw hstep ih =>
      cases hstep with
      | call c hfresh => exact ih.call c hfresh
      | advance o => exact ih.update (o.rest.step_moves ps _).advances rfl rfl rfl
      | timeOut o =>
          exact ih.update (o.rest.timeOut_advances _) rfl (List.append_nil _).symm
            (List.append_nil _).symm

end World
end PrivatePresentation
