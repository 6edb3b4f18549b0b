import PrivatePresentation.Proofs.Service.Retention
import PrivatePresentation.Proofs.Service.Waiters

/-!
Registrations.  Every registration is that of one wait in progress, and its receiving end either listens
or has got the verdict.  A wait is parked only while there is no verdict; when there is one, somebody is
about to tell it to all who are registered.
-/

namespace PrivatePresentation

namespace Task

/-- What a task does after the settlements that it begins with. -/
def last : Task → Task
  | .settle _ _ _ next => next.last
  | .expire _ _ next => next.last
  | t => t

/-- The request whose verdict a task waits for, or will wait for. -/
def awaiting (t : Task) : List RequestId :=
  match t.last with
  | .wait id => [id]
  | .register id => [id]
  | .recheck id _ => [id]
  | .parked id _ => [id]
  | .cancel id _ _ => [id]
  | _ => []

/-- The registration that a task has still to end. -/
def registrations (t : Task) : List (RequestId × WaiterToken) :=
  match t.last with
  | .recheck id token => [(id, token)]
  | .parked id token => [(id, token)]
  | .cancel id token _ => [(id, token)]
  | _ => []

/-- The registration with which a task waits, and does not look for the verdict itself. -/
def parking (t : Task) : List (RequestId × WaiterToken) :=
  match t.last with
  | .parked id token => [(id, token)]
  | _ => []

/-- The requests whose waiters a task has still to tell what it has recorded. -/
def notifying : Task → List RequestId
  | .settle .notify _ v next => v.requestId :: next.notifying
  | .settle _ _ _ next => next.notifying
  | .expire _ _ next => next.notifying
  | _ => []

section SettleExpired

variable (now : Timestamp) (taken : List PresentationRequest) (next : Task)

theorem last_settleExpired : (settleExpired now taken next).last = next.last := by
  induction taken with
  | nil => rfl
  | cons r rest ih => exact ih

theorem notifying_settleExpired : (settleExpired now taken next).notifying = next.notifying := by
  induction taken with
  | nil => rfl
  | cons r rest ih => exact ih

end SettleExpired

theorem awaiting_of_registrations {t : Task} {id : RequestId} {token : WaiterToken}
    (h : (id, token) ∈ t.registrations) : id ∈ t.awaiting := by
  unfold registrations at h
  unfold awaiting
  generalize t.last = last at h ⊢
  cases last <;> first | exact absurd h List.not_mem_nil | simp_all

theorem parking_subset (t : Task) : t.parking ⊆ t.registrations := by
  unfold parking registrations
  generalize t.last = last
  cases last <;> first | exact List.nil_subset _ | exact List.Subset.refl _

/-- What a task does next about waits: nothing, or it has a verdict to tell, or it tells it, or it begins a
wait, parks it or ends it. -/
inductive Attends (s : Service) : Task → Task → Service → Prop where
  | apart {t t' : Task} {s' : Service} (hwaiters : s'.waiters = s.waiters)
      (hawaiting : t'.awaiting ⊆ t.awaiting) (hregistrations : t'.registrations = t.registrations)
      (hparking : t'.parking = t.parking) (hnotifying : t'.notifying = t.notifying) :
      Attends s t t' s'
  | records {r : PresentationRequest} {v : Verdict} {next : Task} :
      Attends s (.settle .record r v next) (.settle .notify r v next) (s.record v)
  | notifies {r : PresentationRequest} {v : Verdict} {next : Task} :
      Attends s (.settle .notify r v next) (.settle .deliver r v next) (s.notify v)
  | registers {id : RequestId} : Attends s (.register id) (.recheck id ⟨s.waiters.next⟩)
      { s with waiters := (s.waiters.register id).2 }
  | finds {id : RequestId} {token : WaiterToken} {v : Verdict} (hv : s.verdicts.get? id = some v) :
      Attends s (.recheck id token) (.cancel id token (.completed v)) s
  | parks {id : RequestId} {token : WaiterToken} (hnone : s.verdicts.get? id = none) :
      Attends s (.recheck id token) (.parked id token) s
  | receives {id : RequestId} {token : WaiterToken} {v : Verdict}
      (hv : s.waiters.receivers.get? token = some (.delivered v)) :
      Attends s (.parked id token) (.done (.waited (.completed v))) { s with
        waiters := { s.waiters with receivers := s.waiters.receivers.insert token .closed } }
  | closes {id : RequestId} {token : WaiterToken} {outcome : WaitOutcome}
      (hempty : ∀ v, s.waiters.receivers.get? token ≠ some (.delivered v))
      (hdeaf : s.waiters.receivers.get? token ≠ some .listening) :
      Attends s (.parked id token) (.done (.waited outcome)) s
  | givesUp {id : RequestId} {token : WaiterToken} :
      Attends s (.parked id token) (.cancel id token .timedOut) s
  | cancels {id : RequestId} {token : WaiterToken} {outcome : WaitOutcome} :
      Attends s (.cancel id token outcome) (.done (.waited outcome))
        { s with waiters := s.waiters.cancel id token }

/-- Nothing is done about waits by a step between tasks that wait for nothing. -/
theorem Attends.of_last {s s' : Service} {t t' : Task} (hwaiters : s'.waiters = s.waiters)
    (hlast : t'.last = t.last) (hnotifying : t'.notifying = t.notifying) : Attends s t t' s' := by
  refine .apart hwaiters ?_ ?_ ?_ hnotifying
  · rw [awaiting, awaiting, hlast]
    exact List.Subset.refl _
  · rw [registrations, registrations, hlast]
  · rw [parking, parking, hlast]

/-- All that a step can do about waits. -/
theorem Moves.attends {ps : ProofSystem} {s s' : Service} {t t' : Task} {e : Effect}
    (h : t.Moves ps s e t' s') : Attends s t t' s' := by
  cases h with
  | prepares hprepares => exact .apart hprepares.same.waiters (List.Subset.refl _) rfl rfl rfl
  | refuses hprepares => exact .apart hprepares.same.waiters (List.Subset.refl _) rfl rfl rfl
  | records => exact .records
  | notifies => exact .notifies
  | delivers => exact .of_last rfl rfl rfl
  | @late id now forResult r hget hlate =>
      cases forResult <;> exact .apart rfl (List.Subset.refl _) rfl rfl rfl
  | expires hget => exact .of_last rfl (last_settleExpired _ _ _) (notifying_settleExpired _ _ _)
  | overtaken hnone => exact .of_last rfl rfl rfl
  | sweeps =>
      refine .apart rfl ?_ ?_ ?_ (notifying_settleExpired _ _ _)
      · rw [awaiting, last_settleExpired]
        exact List.Subset.refl _
      · rw [registrations, last_settleExpired]
        rfl
      · rw [parking, last_settleExpired]
        rfl
  | knows hv => exact .apart rfl (List.nil_subset _) rfl rfl rfl
  | registers => exact .registers
  | finds hv => exact .finds hv
  | parks hnone => exact .parks hnone
  | receives hv => exact .receives hv
  | listens hlistening => exact .of_last rfl rfl rfl
  | closes hempty hdeaf => exact .closes hempty hdeaf
  | cancels => exact .cancels
  | rests => exact .of_last rfl rfl rfl
  | _ => exact .apart rfl (List.Subset.refl _) rfl rfl rfl

/-- What is recorded now is to be told next. -/
theorem Moves.notifying_of_recorded {ps : ProofSystem} {s s' : Service} {t t' : Task} {e : Effect}
    (h : t.Moves ps s e t' s') {d : Delivery} (hd : d ∈ e.recorded) :
    d.verdict.requestId ∈ t'.notifying := by
  cases h with
  | records =>
      rw [List.mem_singleton.1 hd]
      exact List.mem_cons_self
  | _ => exact absurd hd List.not_mem_nil

theorem timeOut_attends (s : Service) (t : Task) : Attends s t t.timeOut s := by
  cases t with
  | parked id token => exact .givesUp
  | _ => exact .of_last rfl rfl rfl

section Attends

variable {s s' : Service} {t t' : Task} {others : List (RequestId × WaiterToken)}
variable {told : RequestId → Verdict → Prop} {id : RequestId} {token : WaiterToken}

theorem Attends.awaiting_subset (h : Attends s t t' s') : t'.awaiting ⊆ t.awaiting := by
  cases h with
  | apart hwaiters hawaiting hregistrations hparking hnotifying => exact hawaiting
  | receives hv => exact List.nil_subset _
  | closes hempty hdeaf => exact List.nil_subset _
  | cancels => exact List.nil_subset _
  | _ => exact List.Subset.refl _

/-- The registrations are accounted for after a step, whatever those of others are. -/
theorem Attends.accounts (h : Attends s t t' s')
    (hs : s.waiters.Accounts (t.registrations ++ others) told)
    (htold : ∀ d ∈ t.owed, told d.verdict.requestId d.verdict) :
    s'.waiters.Accounts (t'.registrations ++ others) told := by
  cases h with
  | apart hwaiters hawaiting hregistrations hparking hnotifying =>
      rw [hwaiters, hregistrations]
      exact hs
  | @notifies r v next => exact hs.notify (htold ⟨r, v⟩ List.mem_cons_self)
  | @registers id => exact hs.register id
  | receives hv => exact Waiters.Accounts.receive hs hv
  | closes hempty hdeaf => exact absurd (hs.not_closed List.mem_cons_self hempty) hdeaf
  | cancels => exact Waiters.Accounts.cancel hs
  | _ => exact hs

/-- Whoever is parked after a step was so before, or is parked now that no verdict was found. -/
theorem Attends.parking_before (h : Attends s t t' s') (hparked : (id, token) ∈ t'.parking) :
    (id, token) ∈ t.parking ∨ s.verdicts.get? id = none ∧ s' = s := by
  cases h with
  | apart hwaiters hawaiting hregistrations hparking hnotifying =>
      rw [hparking] at hparked
      exact .inl hparked
  | records => exact .inl hparked
  | notifies => exact .inl hparked
  | parks hnone =>
      obtain ⟨rfl, rfl⟩ := Prod.mk.inj (List.mem_singleton.1 hparked)
      exact .inr ⟨hnone, rfl⟩
  | _ => exact absurd hparked List.not_mem_nil

/-- A registration that is listed after a step was so before, if there was such a registration. -/
theorem Attends.listed_before (h : Attends s t t' s')
    (hs : s.waiters.Accounts (t.registrations ++ others) told)
    (hmem : (id, token) ∈ t.registrations ++ others) (hlisted : token ∈ s'.waiters.tokens id) :
    token ∈ s.waiters.tokens id := by
  cases h with
  | apart hwaiters hawaiting hregistrations hparking hnotifying =>
      rw [hwaiters] at hlisted
      exact hlisted
  | notifies =>
      rw [Service.notify, Waiters.tokens_notify] at hlisted
      split at hlisted
      · exact absurd hlisted List.not_mem_nil
      · exact hlisted
  | registers =>
      have hlt := hs.fresh _ hmem
      rw [Waiters.tokens_register] at hlisted
      split at hlisted
      · rename_i hid
        subst hid
        refine (List.mem_append.1 hlisted).resolve_right fun hnew => ?_
        rw [List.mem_singleton.1 hnew] at hlt
        exact Nat.lt_irrefl _ hlt
      · exact hlisted
  | cancels =>
      rw [Waiters.Accounts.tokens_of_cancel hs, List.mem_filter] at hlisted
      exact hlisted.1
  | _ => exact hlisted

/-- Whoever ends a registration takes it alone off the lists. -/
theorem Attends.leaving (h : Attends s t t' s')
    (hs : s.waiters.Accounts (t.registrations ++ others) told) (hmem : (id, token) ∈ t.registrations)
    (hended : t'.registrations = []) :
    (∀ id', s'.waiters.tokens id' = (s.waiters.tokens id').filter (· != token)) ∧
      ∀ token', token' ≠ token →
        s'.waiters.receivers.get? token' = s.waiters.receivers.get? token' := by
  cases h with
  | apart hwaiters hawaiting hregistrations hparking hnotifying =>
      rw [← hregistrations, hended] at hmem
      exact absurd hmem List.not_mem_nil
  | @records r v next =>
      have hnone : next.registrations = [] := hended
      have hmem : (id, token) ∈ next.registrations := hmem
      rw [hnone] at hmem
      exact absurd hmem List.not_mem_nil
  | @notifies r v next =>
      have hnone : next.registrations = [] := hended
      have hmem : (id, token) ∈ next.registrations := hmem
      rw [hnone] at hmem
      exact absurd hmem List.not_mem_nil
  | registers => exact absurd hmem List.not_mem_nil
  | finds hv => exact absurd hended (List.cons_ne_nil _ _)
  | parks hnone => exact absurd hended (List.cons_ne_nil _ _)
  | givesUp => exact absurd hended (List.cons_ne_nil _ _)
  | closes hempty hdeaf => exact absurd (hs.not_closed List.mem_cons_self hempty) hdeaf
  | receives hv =>
      obtain ⟨rfl, rfl⟩ := Prod.mk.inj (List.mem_singleton.1 hmem)
      refine ⟨fun id' => (List.filter_eq_self.2 fun token' htoken' => ?_).symm, fun token' hne => ?_⟩
      · rw [bne_iff_ne]
        rintro rfl
        exact (hs.of_delivered List.mem_cons_self hv).2 id' htoken'
      · rw [Store.get?_insert, if_neg hne]
  | cancels =>
      obtain ⟨rfl, rfl⟩ := Prod.mk.inj (List.mem_singleton.1 hmem)
      exact ⟨Waiters.Accounts.tokens_of_cancel hs, fun token' hne => Waiters.receivers_cancel_of_ne hne⟩

/-- Whoever has still to be told after a step is somebody else, or he has just been. -/
theorem Attends.notifying_after (h : Attends s t t' s') (hid : id ∈ t.notifying) :
    id ∈ t'.notifying ∨ s'.waiters.tokens id = [] := by
  cases h with
  | apart hwaiters hawaiting hregistrations hparking hnotifying =>
      rw [hnotifying]
      exact .inl hid
  | @records r v next => exact .inl (List.mem_cons_of_mem _ hid)
  | @notifies r v next =>
      rcases List.mem_cons.1 hid with rfl | hnext
      · refine .inr ?_
        rw [Service.notify, Waiters.tokens_notify, if_pos rfl]
      · exact .inl hnext
  | _ => exact absurd hid List.not_mem_nil

/-- There is somebody new to be told only if a verdict has just been recorded. -/
theorem Attends.notifying_before (h : Attends s t t' s') (hid : id ∈ t'.notifying) :
    id ∈ t.notifying ∨ ∃ r v next, t = .settle .record r v next ∧ v.requestId = id := by
  cases h with
  | apart hwaiters hawaiting hregistrations hparking hnotifying =>
      rw [hnotifying] at hid
      exact .inl hid
  | @records r v next =>
      rcases List.mem_cons.1 hid with rfl | hnext
      · exact .inr ⟨r, v, next, rfl, rfl⟩
      · exact .inl hnext
  | notifies => exact .inl (List.mem_cons_of_mem _ hid)
  | _ => exact absurd hid List.not_mem_nil

end Attends
end Task

namespace World

/-- The registrations that operations have still to end. -/
def registrations (w : World) : List (RequestId × WaiterToken) :=
  w.operations.flatMap (·.rest.registrations)

/-- The requests whose waiters some operation has still to tell. -/
def notifying (w : World) : List RequestId := w.operations.flatMap (·.rest.notifying)

/-- A verdict has been recorded on a request. -/
def Recorded (w : World) (id : RequestId) (v : Verdict) : Prop :=
  ∃ d ∈ w.recordings, d.request.id = id ∧ d.verdict = v

/-- Every registration is accounted for, and no wait is left parked without anybody to wake it. -/
structure Attended (w : World) : Prop where
  accounts : w.service.waiters.Accounts w.registrations w.Recorded
  called : ∀ o ∈ w.operations, ∀ id ∈ o.rest.awaiting, o.call = .wait id
  due : ∀ o ∈ w.operations, ∀ id token, (id, token) ∈ o.rest.parking →
    token ∈ w.service.waiters.tokens id → ∀ v, w.Recorded id v → w.Keeps id → id ∈ w.notifying

namespace Attended

variable {ps : ProofSystem}

theorem call {s : Service} {operations : List Operation} (hw : Attended ⟨s, operations⟩) (c : Call) :
    Attended ⟨s, .start c :: operations⟩ := by
  have hregistrations : c.task.registrations = [] := by cases c <;> rfl
  have hparking : c.task.parking = [] := by cases c <;> rfl
  have hnotifying : c.task.notifying = [] := by cases c <;> rfl
  refine ⟨?_, ?_, ?_⟩
  · change s.waiters.Accounts (c.task.registrations ++ World.registrations ⟨s, operations⟩)
      (World.mk s operations).Recorded
    rw [hregistrations]
    exact hw.accounts
  · rw [List.forall_mem_cons]
    refine ⟨fun id hid => ?_, hw.called⟩
    cases c with
    | wait id' => rw [List.mem_singleton.1 hid, Operation.start]
    | _ => exact absurd hid List.not_mem_nil
  · rw [List.forall_mem_cons]
    refine ⟨fun id token hmem => ?_, fun o ho id token hmem hlisted v hv hkeeps => ?_⟩
    · rw [Operation.start, hparking] at hmem
      exact absurd hmem List.not_mem_nil
    · exact List.mem_append_right _ (hw.due o ho id token hmem hlisted v hv hkeeps)

/-- Somebody has still to tell of a verdict after one operation of many has gone on, unless nobody waits
for it any more. -/
theorem notifying_update {s s' : Service} {before after : List Operation} {o o' : Operation}
    {id : RequestId} (hattends : o.rest.Attends s o'.rest s')
    (hid : id ∈ (World.mk s (before ++ o :: after)).notifying) (hwaiting : s'.waiters.tokens id ≠ []) :
    id ∈ (World.mk s' (before ++ o' :: after)).notifying := by
  obtain ⟨o₁, ho₁, htells⟩ := List.mem_flatMap.1 hid
  refine List.mem_flatMap.2 ?_
  rcases mem_operations_iff.1 ho₁ with rfl | hother
  · have htells' := (hattends.notifying_after htells).resolve_right hwaiting
    exact ⟨o', mem_operations_iff.2 (.inl rfl), htells'⟩
  · exact ⟨o₁, mem_operations_iff.2 (.inr hother), htells⟩

/-- One operation of many goes on, and records what it has to tell of next. -/
theorem update {s s' : Service} {before after : List Operation} {o o' : Operation}
    {added : List Delivery} (hw : Attended ⟨s, before ++ o :: after⟩)
    (hattends : o.rest.Attends s o'.rest s') (hcall : o'.call = o.call)
    (hrecorded : o'.recorded = o.recorded ++ added)
    (hadded : ∀ d ∈ added, d.request.id ∈ o'.rest.notifying)
    (howed : ∀ d ∈ o.rest.owed, (World.mk s (before ++ o :: after)).Recorded d.verdict.requestId d.verdict)
    (hkeeps : ∀ id, Keeps ⟨s', before ++ o' :: after⟩ id → Keeps ⟨s, before ++ o :: after⟩ id) :
    Attended ⟨s', before ++ o' :: after⟩ := by
  have hrecordings (d : Delivery) : d ∈ (World.mk s' (before ++ o' :: after)).recordings ↔
      d ∈ (World.mk s (before ++ o :: after)).recordings ∨ d ∈ added := by
    simp only [recordings, List.flatMap_append, List.flatMap_cons, List.mem_append, hrecorded]
    tauto
  have hmono (id : RequestId) (v : Verdict)
      (hv : (World.mk s (before ++ o :: after)).Recorded id v) :
      (World.mk s' (before ++ o' :: after)).Recorded id v := by
    obtain ⟨d, hd, hsame⟩ := hv
    exact ⟨d, (hrecordings d).2 (.inl hd), hsame⟩
  -- The registrations of the others stay as they are.
  let others := (before ++ after).flatMap (·.rest.registrations)
  have hperm (s : Service) (o : Operation) :
      (World.mk s (before ++ o :: after)).registrations.Perm (o.rest.registrations ++ others) := by
    rw [registrations, List.flatMap_append, List.flatMap_cons]
    dsimp only [others]
    rw [List.flatMap_append]
    exact List.perm_append_comm_assoc _ _ _
  have hbefore := hw.accounts.perm (hperm s o)
  obtain ⟨hcalledBefore, hcalledOld, hcalledAfter⟩ := forall_mem_operations.1 hw.called
  refine ⟨?_, ?_, fun o₁ ho₁ id token hmem hlisted v hv hkept => ?_⟩
  · exact ((hattends.accounts hbefore howed).mono hmono).perm (hperm s' o').symm
  · refine forall_mem_operations.2 ⟨hcalledBefore, fun id hid => ?_, hcalledAfter⟩
    rw [hcall]
    exact hcalledOld id (hattends.awaiting_subset hid)
  · obtain ⟨d, hd, rfl, rfl⟩ := hv
    rcases (hrecordings d).1 hd with hold | hnew
    · have hkeptBefore := hkeeps _ hkept
      -- Whoever is parked was so before, and then there was somebody to tell of the verdict.
      obtain ⟨o₀, ho₀, hmem, hregistered⟩ : ∃ o₀ ∈ before ++ o :: after,
          (d.request.id, token) ∈ o₀.rest.parking ∧
            (d.request.id, token) ∈ o.rest.registrations ++ others := by
        rcases mem_operations_iff.1 ho₁ with rfl | hother
        · have hparked : (d.request.id, token) ∈ o.rest.parking := by
            refine (hattends.parking_before hmem).resolve_right fun hnone => ?_
            cases hnone.1.symm.trans (hkeptBefore d hold rfl)
          exact ⟨o, mem_operations_iff.2 (.inl rfl), hparked,
            List.mem_append_left _ (Task.parking_subset _ hparked)⟩
        · exact ⟨o₁, mem_operations_iff.2 (.inr hother), hmem, List.mem_append_right _
            (List.mem_flatMap.2 ⟨o₁, hother, Task.parking_subset _ hmem⟩)⟩
      have hlisted' := hattends.listed_before hbefore hregistered hlisted
      have hdue := hw.due o₀ ho₀ _ token hmem hlisted' _ ⟨d, hold, rfl, rfl⟩ hkeptBefore
      exact notifying_update hattends hdue (List.ne_nil_of_mem hlisted)
    · exact List.mem_flatMap.2 ⟨o', mem_operations_iff.2 (.inl rfl), hadded d hnew⟩

theorem of_start {s : Service} (hwaiters : s.waiters = {}) : Attended ⟨s, []⟩ := by
  refine ⟨⟨List.nodup_nil, fun _ he => absurd he List.not_mem_nil, fun id token htoken => ?_,
    fun _ he => absurd he List.not_mem_nil⟩, fun _ ho => absurd ho List.not_mem_nil,
    fun _ ho => absurd ho List.not_mem_nil⟩
  rw [hwaiters] at htoken
  exact absurd htoken List.not_mem_nil

/-- The service may change in anything but waits and what is found. -/
theorem of_same {s s' : Service} {operations : List Operation} (hw : Attended ⟨s, operations⟩)
    (hwaiters : s'.waiters = s.waiters)
    (hkeeps : ∀ id, Keeps ⟨s', operations⟩ id → Keeps ⟨s, operations⟩ id) :
    Attended ⟨s', operations⟩ := by
  refine ⟨?_, hw.called, fun o ho id token hmem hlisted v hv hkept => ?_⟩
  · rw [hwaiters]
    exact hw.accounts
  · rw [hwaiters] at hlisted
    exact hw.due o ho id token hmem hlisted v hv (hkeeps id hkept)

theorem turn {w w' : World} (hw : w.Attended) (hretained : w.Retained) (h : Turn ps w w') :
    w'.Attended := by
  have hkeeps (id : RequestId) : w'.Keeps id → w.Keeps id := hretained.keeps_of_turn h
  have howed {o : Operation} (ho : o ∈ w.operations) (d : Delivery) (hd : d ∈ o.rest.owed) :
      w.Recorded d.verdict.requestId d.verdict := by
    have hrecorded := hretained.owed ho hd
    exact ⟨d, hrecorded, (hretained.matching d hrecorded).symm, rfl⟩
  have hretained' := hretained.turn h
  cases h with
  | @provide s operations schema t =>
      exact hw.of_same (Service.ensureKeys_provides ps s schema t).same.waiters hkeeps
  | purge now => exact hw.of_same rfl hkeeps
  | step h =>
      cases h with
      | call c hfresh => exact hw.call c
      | @advance s before after o =>
          have ho : o ∈ before ++ o :: after := List.mem_append_right _ List.mem_cons_self
          refine hw.update (o.rest.step_moves ps s).attends rfl rfl (fun d hd => ?_) (howed ho) hkeeps
          have hmem : d ∈ (World.mk (o.rest.step ps s).2 (before ++ o.advance ps s :: after)).recordings :=
            List.mem_flatMap.2 ⟨o.advance ps s, List.mem_append_right _ List.mem_cons_self,
              List.mem_append_right _ hd⟩
          rw [← hretained'.matching d hmem]
          exact (o.rest.step_moves ps s).notifying_of_recorded hd
      | @timeOut s before after o =>
          have ho : o ∈ before ++ o :: after := List.mem_append_right _ List.mem_cons_self
          exact hw.update (o.rest.timeOut_attends s) rfl (List.append_nil _).symm
            (fun d hd => absurd hd List.not_mem_nil) (howed ho) hkeeps

end Attended

variable {ps : ProofSystem} {w w' : World} {id : RequestId}

/-- Registrations are accounted for wherever turns lead. -/
theorem Runs.attended (hw : w.Runs ps) : w.Attended := by
  induction hw using Runs.induct with
  | start s hrequests hverdicts houtbox hwaiters => exact .of_start hwaiters
  | turn w w' hw hturn ih => exact ih.turn hw.retained hturn

/-- Once the waiters have been told of a verdict, there is nobody to tell of it any more. -/
theorem Retained.told_of_turn (hw : w.Retained) (h : Turn ps w w') {d : Delivery}
    (hd : d ∈ w.recordings) (htold : d.request.id ∉ w.notifying) : d.request.id ∉ w'.notifying := by
  intro hid
  obtain ⟨o', ho', hid⟩ := List.mem_flatMap.1 hid
  -- A second verdict on the request is never recorded.
  have hbefore {o : Operation} {s' : Service} (ho : o ∈ w.operations)
      (hattends : o.rest.Attends w.service o'.rest s') : False := by
    rcases hattends.notifying_before hid with hold | ⟨r, v, next, ht, hv⟩
    · exact htold (List.mem_flatMap.2 ⟨o, ho, hold⟩)
    · have hheld : r ∈ o.rest.held := by
        rw [ht]
        exact List.mem_cons_self
      obtain ⟨full, hinvariant, -⟩ := id hw
      have hcoherent := hinvariant.coherent o ho
      rw [ht] at hcoherent
      refine (hw.held_apart (List.mem_flatMap.2 ⟨o, ho, hheld⟩)).2 d hd ?_
      rw [← hv, hcoherent.1]
  rcases h.mem_operations ho' with hold | ⟨c, rfl⟩ | ⟨o, ho, hproceeds⟩
  · exact htold (List.mem_flatMap.2 ⟨o', hold, hid⟩)
  · cases c <;> exact absurd hid List.not_mem_nil
  · generalize w'.service = s' at hproceeds
    cases hproceeds with
    | advance => exact hbefore ho (o.rest.step_moves ps w.service).attends
    | timeOut => exact hbefore ho (o.rest.timeOut_attends w.service)

end World
end PrivatePresentation
