import PrivatePresentation.Proofs.Service.Check
import PrivatePresentation.Proofs.Service.Retention

/-!
Too late.  Every operation has a time of its own.  A verdict is that its request was too late exactly
if the request was so at the time of the operation that recorded the verdict, and nobody is told that a
request is too late who has not asked too late.
-/

namespace PrivatePresentation

/-- A verdict is that a request was too late exactly if it was so at the instant of the verdict. -/
def Delivery.IsTimely (d : Delivery) : Prop :=
  d.verdict.state = .expired ↔ d.request.isExpired d.verdict.recordedAt = true

namespace World

/-- Some request that has been made is too late. -/
def IsLate (w : World) (id : RequestId) (now : Timestamp) : Prop :=
  ∃ r ∈ w.created, r.id = id ∧ r.isExpired now = true

end World

namespace Task

/-- A task records a verdict that a request was too late only if it was, and it takes a request for too
late only if it is. -/
def Timely (w : World) : Task → Prop
  | .settle _ r v next => (Delivery.mk r v).IsTimely ∧ next.Timely w
  | .expire id now next => w.IsLate id now ∧ next.Timely w
  | _ => True

/-- A task tells the status of a request, and that it is too late only if it is. -/
def TellsStatus (w : World) (id : RequestId) (now : Timestamp) : Task → Prop
  | .status id' now' forResult => id' = id ∧ now' = now ∧ forResult = false
  | .expire _ _ next => next.TellsStatus w id now
  | .settle _ _ _ next => next.TellsStatus w id now
  | .done answer => answer = .status .expired → w.IsLate id now
  | _ => False

variable {ps : ProofSystem} {w w' : World} {id : RequestId} {now : Timestamp}

theorem Timely.mono (hcreated : w.created ⊆ w'.created) {t : Task} (ht : t.Timely w) : t.Timely w' := by
  induction t with
  | settle stage r v next ih => exact ⟨ht.1, ih ht.2⟩
  | expire id now next ih =>
      obtain ⟨⟨r, hr, hlate⟩, hnext⟩ := ht
      exact ⟨⟨r, hcreated hr, hlate⟩, ih hnext⟩
  | _ => exact trivial

theorem TellsStatus.mono (hcreated : w.created ⊆ w'.created) {t : Task}
    (ht : t.TellsStatus w id now) : t.TellsStatus w' id now := by
  induction t with
  | settle stage r v next ih => exact ih ht
  | expire id now next ih => exact ih ht
  | status id now forResult => exact ht
  | done answer =>
      intro hanswer
      obtain ⟨r, hr, hlate⟩ := ht hanswer
      exact ⟨r, hcreated hr, hlate⟩
  | _ => exact ht

section Step

variable {t : Task}

theorem timely_verdictOf (r : PresentationRequest) (now : Timestamp)
    {outcome : Except VerificationError Unit}
    (houtcome : outcome = .error .expired ↔ r.isExpired now = true) :
    (Delivery.mk r (Service.verdictOf r now outcome)).IsTimely := by
  rw [Delivery.IsTimely]
  cases outcome with
  | ok _ =>
      refine iff_of_false nofun fun hlate => ?_
      exact nomatch houtcome.2 hlate
  | error e =>
      by_cases he : e = .expired
      · rw [Service.verdictOf, if_pos he]
        exact iff_of_true rfl (houtcome.1 (congrArg Except.error he))
      · rw [Service.verdictOf, if_neg he]
        exact iff_of_false nofun fun hlate => he (Except.error.inj (houtcome.2 hlate))

theorem timely_settleExpired {taken : List PresentationRequest} {next : Task}
    (htaken : ∀ r ∈ taken, r.isExpired now = true) (hnext : next.Timely w) :
    (settleExpired now taken next).Timely w := by
  induction taken with
  | nil => exact hnext
  | cons r rest ih =>
      obtain ⟨hr, hrest⟩ := List.forall_mem_cons.1 htaken
      exact ⟨timely_verdictOf r now (iff_of_true rfl hr), ih hrest⟩

theorem tellsStatus_settleExpired {now' : Timestamp} (taken : List PresentationRequest) {next : Task}
    (hnext : next.TellsStatus w id now) : (settleExpired now' taken next).TellsStatus w id now := by
  induction taken with
  | nil => exact hnext
  | cons r rest ih => exact ih

theorem isLate_of_get? {r : PresentationRequest} (hw : w.Retained)
    (hget : w.service.requests.get? id = some r) (hlate : r.isExpired now = true) :
    w.IsLate id now := by
  obtain ⟨hpending, hid⟩ := hw.get?_requests_iff.1 hget
  exact ⟨r, hw.created_iff.2 (.inl hpending), hid, hlate⟩

/-- What a task records now is timely. -/
theorem Timely.recorded {s s' : Service} {t' : Task} {e : Effect} (ht : t.Timely w)
    (h : t.Moves ps s e t' s') : ∀ d ∈ e.recorded, d.IsTimely := by
  cases h with
  | records =>
      intro d hd
      rw [List.mem_singleton.1 hd]
      exact ht.1
  | _ => exact fun _ hd => absurd hd List.not_mem_nil

theorem Timely.step {s' : Service} {t' : Task} {e : Effect} (ht : t.Timely w) (hw : w.Retained)
    (h : t.Moves ps w.service e t' s') : t'.Timely w := by
  cases h with
  | checks hkept => exact ⟨timely_verdictOf _ _ Service.check_expired_iff, trivial⟩
  | evicts hcheck => exact ⟨timely_verdictOf _ _ Service.check_expired_iff, trivial⟩
  | records => exact ht
  | notifies => exact ht
  | delivers => exact ht.2
  | @late id now forResult r hget hlate =>
      refine ⟨isLate_of_get? hw hget hlate, ?_⟩
      cases forResult <;> exact trivial
  | expires hget =>
      obtain ⟨⟨r, hr, rfl, hlate⟩, hnext⟩ := ht
      obtain ⟨rfl, -⟩ := hw.eq_of_get? hr hget
      exact timely_settleExpired (fun _ hr => List.mem_singleton.1 hr ▸ hlate) hnext
  | overtaken hnone => exact ht.2
  | sweeps =>
      refine timely_settleExpired (fun r hr => ?_) trivial
      obtain ⟨e, he, rfl⟩ := List.mem_map.1 hr
      exact (List.mem_filter.1 he).2
  | _ => exact trivial

theorem TellsStatus.step {s' : Service} {t' : Task} {e : Effect} (ht : t.TellsStatus w id now)
    (hw : w.Retained) (h : t.Moves ps w.service e t' s') : t'.TellsStatus w id now := by
  cases h with
  | misses hnone =>
      obtain ⟨rfl, rfl, rfl⟩ := ht
      intro htold
      cases htold
  | late hget hlate =>
      obtain ⟨rfl, rfl, rfl⟩ := ht
      exact fun _ => isLate_of_get? hw hget hlate
  | pends hget htime =>
      obtain ⟨rfl, rfl, rfl⟩ := ht
      intro htold
      cases htold
  | expires hget => exact tellsStatus_settleExpired _ ht
  | overtaken hnone => exact ht
  | records => exact ht
  | notifies => exact ht
  | delivers => exact ht
  | rests => exact ht
  | _ => exact ht.elim

theorem timely_timeOut (ht : t.Timely w) : t.timeOut.Timely w := by
  cases t with
  | parked id token => exact trivial
  | _ => exact ht

theorem tellsStatus_timeOut (ht : t.TellsStatus w id now) : t.timeOut.TellsStatus w id now := by
  cases t with
  | parked id token => exact ht.elim
  | _ => exact ht

end Step

end Task

namespace World

variable {ps : ProofSystem} {w w' : World} {r : PresentationRequest}

/-- Whoever finds a request too late finds it so by its own clock. -/
structure Timely (w : World) : Prop where
  recorded : ∀ d ∈ w.recordings, d.IsTimely
  tasks : ∀ o ∈ w.operations, o.rest.Timely w
  status : ∀ o ∈ w.operations, ∀ id now, o.call = .status id now → o.rest.TellsStatus w id now

theorem Timely.turn (h : w.Timely) (hw : w.Retained) (hturn : Turn ps w w') : w'.Timely := by
  have hcreated := hturn.created_subset
  have hrecorded : ∀ o ∈ w.operations, ∀ d ∈ o.recorded, d.IsTimely :=
    List.forall_mem_flatMap.1 h.recorded
  constructor
  · rw [recordings, List.forall_mem_flatMap]
    refine hturn.forall_operations ?_ ?_ ?_ ?_
    · exact hrecorded
    · exact fun c d hd => absurd hd List.not_mem_nil
    · intro o ho
      rw [Operation.advance, List.forall_mem_append]
      exact ⟨hrecorded o ho, (h.tasks o ho).recorded (o.rest.step_moves ps w.service)⟩
    · exact hrecorded
  · refine hturn.forall_operations ?_ ?_ ?_ ?_
    · exact fun o ho => (h.tasks o ho).mono hcreated
    · intro c
      cases c <;> exact trivial
    · exact fun o ho => ((h.tasks o ho).step hw (o.rest.step_moves ps _)).mono hcreated
    · exact fun o ho => (Task.timely_timeOut (h.tasks o ho)).mono hcreated
  · refine hturn.forall_operations ?_ ?_ ?_ ?_
    · exact fun o ho id now hcall => (h.status o ho id now hcall).mono hcreated
    · rintro c id now rfl
      exact ⟨rfl, rfl, rfl⟩
    · exact fun o ho id now hcall =>
        ((h.status o ho id now hcall).step hw (o.rest.step_moves ps _)).mono hcreated
    · exact fun o ho id now hcall =>
        (Task.tellsStatus_timeOut (h.status o ho id now hcall)).mono hcreated

theorem Runs.timely (hw : w.Runs ps) : w.Timely := by
  induction hw using Runs.induct with
  | start s hrequests hverdicts houtbox hwaiters =>
      refine ⟨fun d hd => ?_, fun o ho => ?_, fun o ho => ?_⟩
      · exact absurd hd List.not_mem_nil
      · exact absurd ho List.not_mem_nil
      · exact absurd ho List.not_mem_nil
  | turn w w' hw hturn ih => exact ih.turn hw.retained hturn

end World
end PrivatePresentation
