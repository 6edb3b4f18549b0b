import PrivatePresentation.Proofs.Service.Settlement

/-!
Runs in which verdicts are forgotten.  Beside the steps of operations, keys may be provided ahead of any
request, and verdicts that are old enough may be purged.  What has been recorded stays on record with
the operations, and the store of verdicts is a part of it; so no request is lost or doubled in such runs
either.
-/

namespace PrivatePresentation

namespace World

/-- One step of the whole, or one that is for no request. -/
inductive Turn (ps : ProofSystem) : World → World → Prop where
  | step {w w' : World} (h : Step ps w w') : Turn ps w w'
  /-- Keys are provided ahead of any request. -/
  | provide {s : Service} {operations : List Operation} (schema : Schema) (t : Groth16.Trapdoor) :
      Turn ps ⟨s, operations⟩ ⟨(Service.ensureKeys ps s schema t).2, operations⟩
  /-- Verdicts that are old enough are forgotten. -/
  | purge {s : Service} {operations : List Operation} (now : Timestamp) :
      Turn ps ⟨s, operations⟩ ⟨(s.purge now).2, operations⟩

/-- What turns lead to from a service on which nothing has been asked for. -/
def Runs (ps : ProofSystem) (w : World) : Prop :=
  ∃ s : Service, s.requests = ∅ ∧ s.verdicts = ∅ ∧ s.outbox = [] ∧ s.waiters = {} ∧
    Relation.ReflTransGen (Turn ps) ⟨s, []⟩ w

/-- Whatever has been recorded on a request is still there. -/
def Keeps (w : World) (id : RequestId) : Prop :=
  ∀ d ∈ w.recordings, d.request.id = id → w.service.verdicts.get? id = some d.verdict

/-- No request is lost and none is doubled, if one counts the verdicts that have been forgotten. -/
def Retained (w : World) : Prop :=
  ∃ full : Store RequestId Verdict,
    Invariant ⟨{ w.service with verdicts := full }, w.operations⟩ ∧
    w.service.verdicts.entries ⊆ full.entries

variable {ps : ProofSystem} {w w' : World}

/-- What a step of one operation does, be it its next step or to give up. -/
structure Changes (w w' : World) (before after : List Operation) (o o' : Operation) (e : Effect) :
    Prop where
  source : w.operations = before ++ o :: after
  target : w'.operations = before ++ o' :: after
  advances : Advances e w.service w'.service o.rest o'.rest
  call : o'.call = o.call
  taken : o'.taken = o.taken ++ e.taken
  recorded : o'.recorded = o.recorded ++ e.recorded
  single : e.recorded = [] ∨ ∃ d, e.recorded = [d]

end World

/-- A step records one verdict at most. -/
theorem Task.Moves.single {ps : ProofSystem} {s s' : Service} {t t' : Task} {e : Effect}
    (h : t.Moves ps s e t' s') : e.recorded = [] ∨ ∃ d, e.recorded = [d] := by
  cases h with
  | records => exact .inr ⟨_, rfl⟩
  | _ => exact .inl rfl

namespace World

variable {ps : ProofSystem} {w w' : World}

/-- A step is a call or the step of one operation. -/
theorem Step.call_or_changes (h : Step ps w w') :
    (∃ c : Call, (∀ id ∈ c.drawn, id ∉ w.drawn) ∧ w' = ⟨w.service, .start c :: w.operations⟩) ∨
    ∃ before after o o' e, Changes w w' before after o o' e := by
  cases h with
  | call c hfresh => exact .inl ⟨c, hfresh, rfl⟩
  | @advance s before after o =>
      have hmoves := o.rest.step_moves ps s
      exact .inr ⟨before, after, o, o.advance ps s, o.rest.effect s, rfl, rfl, hmoves.advances, rfl,
        rfl, rfl, hmoves.single⟩
  | @timeOut s before after o =>
      exact .inr ⟨before, after, o, { o with rest := o.rest.timeOut }, {}, rfl, rfl,
        o.rest.timeOut_advances s, rfl, (List.append_nil _).symm, (List.append_nil _).symm, .inl rfl⟩

/-- The invariant is about the stores and the operations. -/
theorem Invariant.of_same {s s' : Service} {operations : List Operation}
    (hw : Invariant ⟨s, operations⟩) (hsame : s.SameStores s') : Invariant ⟨s', operations⟩ := by
  refine ⟨?_, hw.coherent, hw.taken, hw.owes, ?_, hw.fresh, hw.drawn, hw.matching, ?_, ?_⟩
  · rw [Service.RequestsOwn, hsame.requests]
    exact hw.own
  · rw [pending, hsame.requests]
    exact hw.conserved
  · rw [hsame.verdicts]
    exact hw.verdicts
  · rw [hsame.outbox]
    exact hw.outbox

section Changes

variable {before after : List Operation} {o o' : Operation} {e : Effect}

theorem Changes.mem (h : Changes w w' before after o o' e) : o ∈ w.operations := by
  rw [h.source]
  exact List.mem_append_right _ List.mem_cons_self

theorem Changes.mem_created (h : Changes w w' before after o o' e) (r : PresentationRequest) :
    r ∈ w'.created ↔ r ∈ e.saved ∨ r ∈ w.created := by
  rw [created, created, h.source, h.target]
  exact mem_flatMap_operations (fun x => by rw [h.advances.created, List.mem_append]) r

theorem Changes.mem_recordings (h : Changes w w' before after o o' e) (d : Delivery) :
    d ∈ w'.recordings ↔ d ∈ e.recorded ∨ d ∈ w.recordings := by
  rw [recordings, recordings, h.source, h.target]
  exact mem_flatMap_operations (fun x => by rw [h.recorded, List.mem_append, or_comm]) d

end Changes

namespace Retained

/-- What a step records is on requests that its operation holds, and it is added to what is kept. -/
theorem of_changes (hw : w.Retained) {before after : List Operation} {o o' : Operation} {e : Effect}
    (h : Changes w w' before after o o' e) :
    (∀ d ∈ e.recorded, d.request ∈ o.rest.held ∧ d.verdict.requestId = d.request.id) ∧
    w'.service.verdicts.entries =
      e.recorded.map (fun d => (d.verdict.requestId, d.verdict)) ++ w.service.verdicts.entries := by
  obtain ⟨full, hinvariant, hkept⟩ := hw
  obtain ⟨-, hmatching⟩ := h.advances.coherent (hinvariant.coherent o h.mem)
  refine ⟨hmatching, h.advances.verdicts fun d hd hkey => ?_⟩
  obtain ⟨v, hv⟩ := Store.exists_of_mem_keys hkey
  exact hinvariant.recorded_new h.mem hmatching d hd (Store.mem_keys_of_mem (hkept hv))

theorem of_invariant (hw : w.Invariant) : w.Retained :=
  ⟨w.service.verdicts, hw, List.Subset.refl _⟩

theorem step (hw : w.Retained) (h : Step ps w w') : w'.Retained := by
  rcases h.call_or_changes with ⟨c, hfresh, rfl⟩ | ⟨before, after, o, o', e, h⟩
  · obtain ⟨full, hinvariant, hkept⟩ := hw
    exact ⟨full, hinvariant.call c hfresh, hkept⟩
  obtain ⟨hmatching, hverdicts⟩ := hw.of_changes h
  obtain ⟨full, hinvariant, hkept⟩ := hw
  have hnew := hinvariant.recorded_new h.mem hmatching
  -- Whatever is recorded now is added to all that has ever been recorded.
  obtain ⟨full', hfull'⟩ : ∃ full' : Store RequestId Verdict, full'.entries =
      e.recorded.map (fun d => (d.verdict.requestId, d.verdict)) ++ full.entries := by
    rcases h.single with hnone | ⟨d, hd⟩
    · rw [hnone]
      exact ⟨full, rfl⟩
    · rw [hd] at hnew ⊢
      exact ⟨full.insert d.verdict.requestId d.verdict,
        Store.entries_insert (hnew d List.mem_cons_self)⟩
  obtain ⟨s, operations⟩ := w
  obtain ⟨s', operations'⟩ := w'
  obtain ⟨rfl, rfl, hadvances, hcall, htaken, hrecorded, -⟩ := h
  refine ⟨full', hinvariant.update ⟨hadvances.requests, fun _ => hfull', hadvances.outbox,
    hadvances.held, hadvances.owed, hadvances.created, hadvances.unborn, hadvances.coherent⟩ hcall
    htaken hrecorded, ?_⟩
  rw [hverdicts, hfull']
  intro entry hentry
  rcases List.mem_append.1 hentry with hnow | hbefore
  · exact List.mem_append_left _ hnow
  · exact List.mem_append_right _ (hkept hbefore)

theorem provide {s : Service} {operations : List Operation} (hw : Retained ⟨s, operations⟩)
    (schema : Schema) (t : Groth16.Trapdoor) :
    Retained ⟨(Service.ensureKeys ps s schema t).2, operations⟩ := by
  obtain ⟨full, hinvariant, hkept⟩ := hw
  have hsame := (Service.ensureKeys_provides ps s schema t).same
  refine ⟨full, hinvariant.of_same ⟨hsame.requests, rfl, hsame.outbox⟩, ?_⟩
  rw [hsame.verdicts]
  exact hkept

theorem purge {s : Service} {operations : List Operation} (hw : Retained ⟨s, operations⟩)
    (now : Timestamp) : Retained ⟨(s.purge now).2, operations⟩ := by
  obtain ⟨full, hinvariant, hkept⟩ := hw
  exact ⟨full, hinvariant, List.Subset.trans List.filter_sublist.subset hkept⟩

theorem turn (hw : w.Retained) (h : Turn ps w w') : w'.Retained := by
  cases h with
  | step h => exact hw.step h
  | provide schema t => exact hw.provide schema t
  | purge now => exact hw.purge now

theorem turns (hw : w.Retained) (h : Relation.ReflTransGen (Turn ps) w w') : w'.Retained := by
  induction h with
  | refl => exact hw
  | tail _ hturn ih => exact ih.turn hturn

theorem own (hw : w.Retained) : w.service.RequestsOwn := by
  obtain ⟨full, hinvariant, -⟩ := hw
  exact hinvariant.own

theorem matching (hw : w.Retained) : ∀ d ∈ w.recordings, d.verdict.requestId = d.request.id := by
  obtain ⟨full, hinvariant, -⟩ := hw
  exact hinvariant.matching

theorem conserved (hw : w.Retained) :
    (w.pending ++ w.held ++ w.recordings.map (·.request)).Perm w.created := by
  obtain ⟨full, hinvariant, -⟩ := hw
  exact hinvariant.conserved

theorem nodup (hw : w.Retained) :
    ((w.pending ++ w.held ++ w.recordings.map (·.request)).map (·.id)).Nodup := by
  obtain ⟨full, hinvariant, -⟩ := hw
  exact hinvariant.nodup

/-- What an operation has still to hand over has been recorded. -/
theorem owed (hw : w.Retained) {o : Operation} (ho : o ∈ w.operations) {d : Delivery}
    (hd : d ∈ o.rest.owed) : d ∈ w.recordings := by
  obtain ⟨full, hinvariant, -⟩ := hw
  exact List.mem_flatMap.2 ⟨o, ho, hinvariant.owes o ho hd⟩

/-- Whatever is kept as a verdict has been recorded. -/
theorem recorded (hw : w.Retained) {id : RequestId} {v : Verdict}
    (hv : w.service.verdicts.get? id = some v) :
    ∃ d ∈ w.recordings, d.request.id = id ∧ d.verdict = v := by
  obtain ⟨full, hinvariant, hkept⟩ := hw
  have hmem := hinvariant.verdicts.subset (hkept (Store.get?_eq_some_iff.1 hv))
  obtain ⟨d, hd, heq⟩ := List.mem_map.1 hmem
  obtain ⟨hid, hv⟩ := Prod.mk.inj heq
  exact ⟨d, hd, (hinvariant.matching d hd).symm.trans hid, hv⟩

end Retained

/-- A request is known by its identifier. -/
theorem Retained.eq_of_id (hw : w.Retained) {r r' : PresentationRequest} (hr : r ∈ w.created)
    (hr' : r' ∈ w.created) (hid : r.id = r'.id) : r = r' := by
  have hnodup := (hw.conserved.map (·.id)).nodup_iff.1 hw.nodup
  exact List.inj_on_of_nodup_map hnodup hr hr' hid

/-- No two verdicts have been recorded on one request. -/
theorem Retained.delivery_unique (hw : w.Retained) {d d' : Delivery} (hd : d ∈ w.recordings)
    (hd' : d' ∈ w.recordings) (hid : d.request.id = d'.request.id) : d = d' := by
  have hnodup := hw.nodup
  rw [List.map_append, List.nodup_append, List.map_map] at hnodup
  exact List.inj_on_of_nodup_map hnodup.2.1 hd hd' hid

/-- A request that has been made is pending, or an operation holds it, or it has its verdict. -/
theorem Retained.created_iff (hw : w.Retained) {r : PresentationRequest} :
    r ∈ w.created ↔ r ∈ w.pending ∨ r ∈ w.held ∨ ∃ v, ⟨r, v⟩ ∈ w.recordings := by
  rw [← hw.conserved.mem_iff, List.mem_append, List.mem_append, or_assoc, List.mem_map]
  constructor
  · rintro (h | h | ⟨d, hd, rfl⟩)
    · exact .inl h
    · exact .inr (.inl h)
    · exact .inr (.inr ⟨d.verdict, hd⟩)
  · rintro (h | h | ⟨v, hd⟩)
    · exact .inl h
    · exact .inr (.inl h)
    · exact .inr (.inr ⟨⟨r, v⟩, hd, rfl⟩)

/-- A request that an operation holds is not pending and has no verdict. -/
theorem Retained.held_apart (hw : w.Retained) {r : PresentationRequest} (hr : r ∈ w.held) :
    r ∉ w.pending ∧ ∀ d ∈ w.recordings, d.request.id ≠ r.id := by
  have hnodup := hw.nodup
  rw [List.map_append, List.map_append, List.nodup_append, List.nodup_append] at hnodup
  obtain ⟨⟨-, -, hpending⟩, -, hrecorded⟩ := hnodup
  have hid := List.mem_map_of_mem (f := fun r : PresentationRequest => r.id) hr
  refine ⟨fun hp => hpending _ (List.mem_map_of_mem hp) _ hid rfl, fun d hd heq => ?_⟩
  exact hrecorded _ (List.mem_append_right _ hid) _
    (List.mem_map_of_mem (List.mem_map_of_mem hd)) heq.symm

theorem Step.created_subset (h : Step ps w w') : w.created ⊆ w'.created := by
  rcases h.call_or_changes with ⟨c, -, rfl⟩ | ⟨before, after, o, o', e, h⟩
  · exact List.subset_append_right _ _
  · exact fun r hr => (h.mem_created r).2 (.inr hr)

theorem Step.recordings_subset (h : Step ps w w') : w.recordings ⊆ w'.recordings := by
  rcases h.call_or_changes with ⟨c, -, rfl⟩ | ⟨before, after, o, o', e, h⟩
  · exact List.subset_append_right _ _
  · exact fun d hd => (h.mem_recordings d).2 (.inr hd)

/-- A request that is pending after a step was so before, if it had been made. -/
theorem Retained.pending_of_step (hw : w.Retained) (h : Step ps w w') {r : PresentationRequest}
    (hr : r ∈ w.created) (hpending : r ∈ w'.pending) : r ∈ w.pending := by
  obtain ⟨full, hinvariant, -⟩ := hw
  rcases h.call_or_changes with ⟨c, -, rfl⟩ | ⟨before, after, o, o', e, h⟩
  · exact hpending
  · have hnew := hinvariant.saved_new h.mem h.advances
    obtain ⟨-, hperm⟩ := h.advances.requests hinvariant.own fun r hr => (hnew r hr).2
    rcases List.mem_append.1 (hperm.subset (List.mem_append_right _ hpending)) with hsaved | hold
    · exact absurd (List.mem_map_of_mem hr) (hnew r hsaved).1
    · exact hold

/-- A verdict that is kept after a step was so before, if it had been recorded. -/
theorem Retained.verdict_of_step (hw : w.Retained) (h : Step ps w w') {d : Delivery}
    (hd : d ∈ w.recordings) (hkept : w'.service.verdicts.get? d.request.id = some d.verdict) :
    w.service.verdicts.get? d.request.id = some d.verdict := by
  rcases h.call_or_changes with ⟨c, -, rfl⟩ | ⟨before, after, o, o', e, h⟩
  · exact hkept
  obtain ⟨hmatching, hverdicts⟩ := hw.of_changes h
  rw [Store.get?_eq_some_iff, hverdicts] at hkept
  rw [Store.get?_eq_some_iff]
  refine (List.mem_append.1 hkept).resolve_left fun hnow => ?_
  obtain ⟨d', hd', heq⟩ := List.mem_map.1 hnow
  obtain ⟨hheld, hid⟩ := hmatching d' hd'
  refine (hw.held_apart (List.mem_flatMap.2 ⟨o, h.mem, hheld⟩)).2 d hd ?_
  rw [← hid]
  exact (congrArg Prod.fst heq).symm

section Turn

variable {r : PresentationRequest} {id : RequestId}

theorem Turn.created_subset (h : Turn ps w w') : w.created ⊆ w'.created := by
  cases h with
  | step h => exact h.created_subset
  | provide schema t => exact List.Subset.refl _
  | purge now => exact List.Subset.refl _

theorem Turn.recordings_subset (h : Turn ps w w') : w.recordings ⊆ w'.recordings := by
  cases h with
  | step h => exact h.recordings_subset
  | provide schema t => exact List.Subset.refl _
  | purge now => exact List.Subset.refl _

/-- No request becomes pending a second time. -/
theorem Retained.pending_of_turn (hw : w.Retained) (h : Turn ps w w') (hr : r ∈ w.created)
    (hpending : r ∈ w'.pending) : r ∈ w.pending := by
  cases h with
  | step h => exact hw.pending_of_step h hr hpending
  | @provide s operations schema t =>
      rw [pending, (Service.ensureKeys_provides ps s schema t).same.requests] at hpending
      exact hpending
  | purge now => exact hpending

/-- What is still kept was kept before. -/
theorem Retained.keeps_of_turn (hw : w.Retained) (h : Turn ps w w') (hkeeps : w'.Keeps id) :
    w.Keeps id := by
  intro d hd hid
  have hkept := hkeeps d (h.recordings_subset hd) hid
  subst hid
  cases h with
  | step h => exact hw.verdict_of_step h hd hkept
  | @provide s operations schema t =>
      rw [(Service.ensureKeys_provides ps s schema t).same.verdicts] at hkept
      exact hkept
  | purge now =>
      rw [Store.get?_eq_some_iff] at hkept ⊢
      exact List.filter_sublist.subset hkept

theorem turns_of_steps (h : Relation.ReflTransGen (Step ps) w w') :
    Relation.ReflTransGen (Turn ps) w w' := by
  induction h with
  | refl => exact .refl
  | tail _ hstep ih => exact ih.tail (.step hstep)

theorem created_of_turns (h : Relation.ReflTransGen (Turn ps) w w') : w.created ⊆ w'.created := by
  induction h with
  | refl => exact List.Subset.refl _
  | tail _ hturn ih => exact List.Subset.trans ih hturn.created_subset

theorem recordings_of_turns (h : Relation.ReflTransGen (Turn ps) w w') :
    w.recordings ⊆ w'.recordings := by
  induction h with
  | refl => exact List.Subset.refl _
  | tail _ hturn ih => exact List.Subset.trans ih hturn.recordings_subset

theorem Retained.pending_of_turns (hw : w.Retained) (h : Relation.ReflTransGen (Turn ps) w w')
    (hr : r ∈ w.created) (hpending : r ∈ w'.pending) : r ∈ w.pending := by
  induction h with
  | refl => exact hpending
  | tail hbefore hturn ih =>
      exact ih ((hw.turns hbefore).pending_of_turn hturn (created_of_turns hbefore hr) hpending)

theorem Retained.keeps_of_turns (hw : w.Retained) (h : Relation.ReflTransGen (Turn ps) w w')
    (hkeeps : w'.Keeps id) : w.Keeps id := by
  induction h with
  | refl => exact hkeeps
  | tail hbefore hturn ih => exact ih ((hw.turns hbefore).keeps_of_turn hturn hkeeps)

end Turn

section Places

/-- The operation that was called when there were so many others. -/
def nth (w : World) (n : Nat) : Option Operation := w.operations.reverse[n]?

variable {n : Nat} {o : Operation}

theorem nth_call (s s' : Service) (operations : List Operation) (o : Operation) :
    (World.mk s (o :: operations)).nth n =
      if n = operations.length then some o else (World.mk s' operations).nth n := by
  rw [nth, nth, List.reverse_cons, List.getElem?_append, List.length_reverse]
  split
  · rename_i hlt
    rw [if_neg (Nat.ne_of_lt hlt)]
  · rename_i hge
    split
    · rename_i heq
      rw [heq, Nat.sub_self, List.getElem?_cons_zero]
    · rename_i hne
      rw [List.getElem?_eq_none_iff.2 (by simp only [List.length_singleton]; omega),
        List.getElem?_eq_none_iff.2 (by simp only [List.length_reverse]; omega)]

theorem nth_replace (s s' : Service) (before after : List Operation) (o o' : Operation) :
    (World.mk s' (before ++ o' :: after)).nth n =
      if n = after.length then some o' else (World.mk s (before ++ o :: after)).nth n := by
  have hreverse (o : Operation) : (before ++ o :: after).reverse =
      after.reverse ++ o :: before.reverse := by
    rw [List.reverse_append, List.reverse_cons, List.append_assoc, List.singleton_append]
  rw [nth, nth, hreverse, hreverse, List.getElem?_append, List.getElem?_append,
    List.length_reverse]
  split
  · rename_i hlt
    rw [if_neg (Nat.ne_of_lt hlt)]
  · rename_i hge
    split
    · rename_i heq
      rw [heq, Nat.sub_self, List.getElem?_cons_zero]
    · obtain ⟨k, hk⟩ : ∃ k, n - after.length = k + 1 := ⟨n - after.length - 1, by omega⟩
      rw [hk, List.getElem?_cons_succ, List.getElem?_cons_succ]

/-- After one operation has been replaced, there is the same one at a place, or its replacement. -/
theorem nth_of_replaced {s s' : Service} {before after : List Operation} {a a' : Operation}
    (ho : (World.mk s (before ++ a :: after)).nth n = some o) :
    (World.mk s' (before ++ a' :: after)).nth n = some o ∨
      a = o ∧ (World.mk s' (before ++ a' :: after)).nth n = some a' := by
  rw [nth_replace s s' before after a a']
  by_cases hn : n = after.length
  · rw [nth_replace s s before after a a, if_pos hn] at ho
    exact .inr ⟨Option.some.inj ho, if_pos hn⟩
  · exact .inl ((if_neg hn).trans ho)

theorem mem_of_nth (h : w.nth n = some o) : o ∈ w.operations :=
  List.mem_reverse.1 (List.mem_of_getElem? h)

/-- How an operation and the service go on together: the operation makes its next step, or it gives
up waiting. -/
inductive Proceeds (ps : ProofSystem) (s : Service) (o : Operation) : Service → Operation → Prop where
  | advance : Proceeds ps s o (o.rest.step ps s).2 (o.advance ps s)
  | timeOut : Proceeds ps s o s { o with rest := o.rest.timeOut }

theorem Proceeds.call {s s' : Service} {o' : Operation} (h : Proceeds ps s o s' o') :
    o'.call = o.call := by
  cases h <;> rfl

/-- After a turn there are the operations of before, a new one, or one that has gone on. -/
theorem Turn.mem_operations (h : Turn ps w w') {o' : Operation} (ho' : o' ∈ w'.operations) :
    o' ∈ w.operations ∨ (∃ c, o' = .start c) ∨
      ∃ o ∈ w.operations, Proceeds ps w.service o w'.service o' := by
  cases h with
  | provide schema t => exact .inl ho'
  | purge now => exact .inl ho'
  | step h =>
      cases h with
      | call c hfresh =>
          rcases List.mem_cons.1 ho' with rfl | ho'
          · exact .inr (.inl ⟨c, rfl⟩)
          · exact .inl ho'
      | @advance s before after a =>
          rcases mem_operations_iff.1 ho' with rfl | hother
          · exact .inr (.inr ⟨a, mem_operations_iff.2 (.inl rfl), .advance⟩)
          · exact .inl (mem_operations_iff.2 (.inr hother))
      | @timeOut s before after a =>
          rcases mem_operations_iff.1 ho' with rfl | hother
          · exact .inr (.inr ⟨a, mem_operations_iff.2 (.inl rfl), .timeOut⟩)
          · exact .inl (mem_operations_iff.2 (.inr hother))

/-- What holds of every operation after a turn: of those that stay as they are, of one that has just been
called, and of one that has gone on. -/
theorem Turn.forall_operations {P : Operation → Prop} (h : Turn ps w w')
    (others : ∀ o ∈ w.operations, P o) (start : ∀ c, P (.start c))
    (advance : ∀ o ∈ w.operations, P (o.advance ps w.service))
    (timeOut : ∀ o ∈ w.operations, P { o with rest := o.rest.timeOut }) :
    ∀ o ∈ w'.operations, P o := by
  intro o' ho'
  rcases h.mem_operations ho' with hold | ⟨c, rfl⟩ | ⟨o, ho, hproceeds⟩
  · exact others o' hold
  · exact start c
  · generalize w'.service = s' at hproceeds
    cases hproceeds with
    | advance => exact advance o ho
    | timeOut => exact timeOut o ho

/-- An operation stays as it is on a turn, or the turn is its own. -/
theorem Turn.nth (h : Turn ps w w') (ho : w.nth n = some o) :
    w'.nth n = some o ∨ ∃ o', w'.nth n = some o' ∧ Proceeds ps w.service o w'.service o' := by
  cases h with
  | provide schema t => exact .inl ho
  | purge now => exact .inl ho
  | step h =>
      cases h with
      | @call s operations c hfresh =>
          refine .inl ?_
          have hlt : n < operations.reverse.length := (List.getElem?_eq_some_iff.1 ho).1
          rw [List.length_reverse] at hlt
          rw [nth_call s s, if_neg (Nat.ne_of_lt hlt)]
          exact ho
      | @advance s before after a =>
          rcases nth_of_replaced ho with hsame | ⟨rfl, hnext⟩
          · exact .inl hsame
          · exact .inr ⟨_, hnext, .advance⟩
      | @timeOut s before after a =>
          rcases nth_of_replaced ho with hsame | ⟨rfl, hnext⟩
          · exact .inl hsame
          · exact .inr ⟨_, hnext, .timeOut⟩

end Places

section Looking

variable {r : PresentationRequest} {id : RequestId} {v : Verdict}

/-- A request is found under its own identifier while it is pending. -/
theorem Retained.get?_requests_iff (hw : w.Retained) :
    w.service.requests.get? id = some r ↔ r ∈ w.pending ∧ r.id = id := by
  rw [Store.get?_eq_some_iff]
  constructor
  · intro hmem
    exact ⟨List.mem_map.2 ⟨_, hmem, rfl⟩, hw.own _ hmem⟩
  · rintro ⟨hpending, rfl⟩
    obtain ⟨⟨key, r⟩, hmem, rfl⟩ := List.mem_map.1 hpending
    obtain rfl : r.id = key := hw.own _ hmem
    exact hmem

/-- What is found under the identifier of a request is the request itself. -/
theorem Retained.eq_of_get? (hw : w.Retained) (hr : r ∈ w.created) {r' : PresentationRequest}
    (hget : w.service.requests.get? r.id = some r') : r' = r ∧ r ∈ w.pending := by
  obtain ⟨hpending, hid⟩ := hw.get?_requests_iff.1 hget
  obtain rfl := hw.eq_of_id (hw.created_iff.2 (.inl hpending)) hr hid
  exact ⟨rfl, hpending⟩

theorem Retained.gone_of_get? (hw : w.Retained) (hget : w.service.requests.get? r.id = none) :
    r ∉ w.pending := by
  intro hpending
  rw [hw.get?_requests_iff.2 ⟨hpending, rfl⟩] at hget
  exact nomatch hget

/-- A verdict that is found has been recorded on the request. -/
theorem Retained.recorded_of_get? (hw : w.Retained) (hr : r ∈ w.created) {v : Verdict}
    (hget : w.service.verdicts.get? r.id = some v) : ⟨r, v⟩ ∈ w.recordings := by
  obtain ⟨d, hd, hid, rfl⟩ := hw.recorded hget
  have hsame := hw.eq_of_id (hw.created_iff.2 (.inr (.inr ⟨d.verdict, hd⟩))) hr hid
  rw [← hsame]
  exact hd

/-- A request that has been made and is not pending has been taken by some operation. -/
theorem Retained.taken_of_gone (hw : w.Retained) (hr : r ∈ w.created) (hgone : r ∉ w.pending) :
    ∃ o ∈ w.operations, r ∈ o.taken := by
  have hplace := (hw.created_iff.1 hr).resolve_left hgone
  obtain ⟨full, hinvariant, -⟩ := hw
  rcases hplace with hheld | ⟨v, hd⟩
  · obtain ⟨o, ho, hheld⟩ := List.mem_flatMap.1 hheld
    exact ⟨o, ho, (hinvariant.taken o ho).mem_iff.2 (List.mem_append_right _ hheld)⟩
  · obtain ⟨o, ho, hd⟩ := List.mem_flatMap.1 hd
    exact ⟨o, ho, (hinvariant.taken o ho).mem_iff.2
      (List.mem_append_left _ (List.mem_map_of_mem hd))⟩

/-- While nothing is forgotten, no verdict is found only where none has been recorded. -/
theorem Keeps.unrecorded_of_get? (hkeeps : w.Keeps r.id)
    (hget : w.service.verdicts.get? r.id = none) (v : Verdict) : ⟨r, v⟩ ∉ w.recordings := by
  intro hd
  rw [hkeeps _ hd rfl] at hget
  exact nomatch hget

/-- A request with a verdict is not pending. -/
theorem Retained.gone_of_recorded (hw : w.Retained) (hd : ⟨r, v⟩ ∈ w.recordings) : r ∉ w.pending := by
  have hnodup := hw.nodup
  rw [List.map_append, List.map_append, List.nodup_append, List.nodup_append] at hnodup
  intro hpending
  exact hnodup.2.2 _ (List.mem_append_left _ (List.mem_map_of_mem hpending)) _
    (List.mem_map_of_mem (List.mem_map_of_mem hd)) rfl

theorem Retained.verdict_unique (hw : w.Retained) {v' : Verdict} (hd : ⟨r, v⟩ ∈ w.recordings)
    (hd' : ⟨r, v'⟩ ∈ w.recordings) : v = v' :=
  congrArg Delivery.verdict (hw.delivery_unique hd hd' rfl)

end Looking

theorem Runs.trans (hw : w.Runs ps) (hturns : Relation.ReflTransGen (Turn ps) w w') : w'.Runs ps := by
  obtain ⟨s, hrequests, hverdicts, houtbox, hwaiters, hbefore⟩ := hw
  exact ⟨s, hrequests, hverdicts, houtbox, hwaiters, hbefore.trans hturns⟩

/-- What holds where nothing has been asked for, and stays so with every turn, holds wherever turns
lead. -/
theorem Runs.induct {motive : (w : World) → w.Runs ps → Prop}
    (start : ∀ (s : Service) (hrequests : s.requests = ∅) (hverdicts : s.verdicts = ∅)
      (houtbox : s.outbox = []) (hwaiters : s.waiters = {}),
      motive ⟨s, []⟩ ⟨s, hrequests, hverdicts, houtbox, hwaiters, .refl⟩)
    (turn : ∀ w w' (hw : w.Runs ps) (hturn : Turn ps w w'), motive w hw →
      motive w' (hw.trans (.single hturn))) (hw : w.Runs ps) : motive w hw := by
  obtain ⟨s, hrequests, hverdicts, houtbox, hwaiters, hturns⟩ := hw
  induction hturns with
  | refl => exact start s hrequests hverdicts houtbox hwaiters
  | tail hbefore hturn ih =>
      exact turn _ _ ⟨s, hrequests, hverdicts, houtbox, hwaiters, hbefore⟩ hturn ih

/-- Wherever turns lead, no request is lost and none is doubled. -/
theorem Runs.retained (hw : w.Runs ps) : w.Retained := by
  induction hw using Runs.induct with
  | start s hrequests hverdicts houtbox hwaiters =>
      exact .of_invariant (.of_start hrequests hverdicts houtbox)
  | turn w w' hw hturn ih => exact ih.turn hturn

theorem Runs.perform (hw : w.Runs ps) (steps : Nat) {c : Call}
    (hfresh : ∀ id ∈ c.drawn, id ∉ w.drawn) : (w.perform ps steps c).Runs ps :=
  hw.trans (turns_of_steps (steps_perform steps hfresh))

end World
end PrivatePresentation
