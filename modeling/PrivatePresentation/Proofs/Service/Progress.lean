import PrivatePresentation.Proofs.Service.Check
import PrivatePresentation.Proofs.Service.Settlement

/-!
What an operation in progress has come to.  Between two of its own steps there may be any steps of
others; still, what it has yet to do and what it has done to the stores are among a few shapes that
follow from its call.
-/

namespace PrivatePresentation

/-- An answer that settles: an acceptance, or an error that settles the request. -/
def Answer.IsDecisive : Answer → Prop
  | .accepted _ => True
  | .rejected e => e.IsDecisive
  | _ => False

theorem Answer.of_ofCheck_rejected {r : PresentationRequest}
    {outcome : Except VerificationError Unit} {e : VerificationError}
    (h : ofCheck r outcome = .rejected e) : outcome = .error e := by
  cases outcome with
  | ok _ => cases h
  | error e' => rw [Answer.rejected.inj h]

/-- The request is one that the order leads to, with what was drawn for it. -/
def PreparedFor (order : PresentationOrder) (now : Timestamp) (fresh : Fresh)
    (r : PresentationRequest) : Prop :=
  ∃ config schema keys, Service.orderedSchema order = .ok schema ∧
    Service.prepare config schema keys order now fresh = .ok r

theorem Service.ascending_pinConstraints {inputs : Json.Members} (date : CalendarDate)
    (constraints : List Constraint) (hinputs : inputs.Ascending) :
    (constraints.foldl (pinConstraint date) inputs).Ascending := by
  induction constraints generalizing inputs with
  | nil => exact hinputs
  | cons c rest ih =>
      rw [List.foldl_cons]
      refine ih ?_
      unfold pinConstraint
      split
      · exact Json.Members.Ascending.insertAll hinputs
      · exact hinputs

namespace PreparedFor

variable {order : PresentationOrder} {now : Timestamp} {fresh : Fresh} {r : PresentationRequest}

theorem publicInputs (hr : PreparedFor order now fresh r) : ∃ config schema,
    r.publicInputs = Service.pinnedInputs config schema order.publicInputs fresh.nonce now.date := by
  obtain ⟨config, schema, keys, -, hr⟩ := hr
  unfold Service.prepare at hr
  obtain ⟨-, -, hr⟩ := Outcome.of_bind hr
  obtain rfl := Except.ok.inj hr
  exact ⟨config, schema, rfl⟩

theorem ascending (hr : PreparedFor order now fresh r) (horder : order.publicInputs.Ascending) :
    r.publicInputs.Ascending := by
  obtain ⟨config, schema, hinputs⟩ := hr.publicInputs
  rw [hinputs]
  exact Service.ascending_pinConstraints _ _ horder.insertAll.insertAll

end PreparedFor

/-- The submission is for the request. -/
def Submission.IsFor (sub : Submission) (r : PresentationRequest) : Prop :=
  RequestId.parseTrimmed sub.requestId = .ok r.id

/-- How far the making of a request has come. -/
inductive Creating (order : PresentationOrder) (now : Timestamp) (fresh : Fresh) : Task → Prop where
  | called : Creating order now fresh (.create order now fresh)
  | prepared {r : PresentationRequest} (hr : PreparedFor order now fresh r) :
      Creating order now fresh (.save r)
  | kept {r : PresentationRequest} (hr : PreparedFor order now fresh r) :
      Creating order now fresh (.done (.created r))
  | refused (e : ProtocolError) : Creating order now fresh (.done (.refused e))

/-- How far a submission has come: what is left to do, which requests it has taken, and what it has
recorded.  The keys are those of the moment of the check. -/
inductive Submitting (ps : ProofSystem) (sub : Submission) (now : Timestamp) :
    Task → List PresentationRequest → List Delivery → Prop where
  | called : Submitting ps sub now (.submit sub now) [] []
  | refused {e : VerificationError} (he : ¬e.IsDecisive) :
      Submitting ps sub now (.done (.rejected e)) [] []
  | checking {r : PresentationRequest} (hr : sub.IsFor r) :
      Submitting ps sub now (.check r sub now) [r] []
  | recording {r : PresentationRequest} (hr : sub.IsFor r) (keys? : Option SchemaKeys) :
      Submitting ps sub now
        (.settle .record r (Service.verdictOf r now (Service.check ps keys? r sub now))
          (.done (.ofCheck r (Service.check ps keys? r sub now)))) [r] []
  | telling {r : PresentationRequest} (hr : sub.IsFor r) (keys? : Option SchemaKeys)
      {stage : Settling} (hstage : stage ≠ .record) :
      Submitting ps sub now
        (.settle stage r (Service.verdictOf r now (Service.check ps keys? r sub now))
          (.done (.ofCheck r (Service.check ps keys? r sub now)))) [r]
        [⟨r, Service.verdictOf r now (Service.check ps keys? r sub now)⟩]
  | settled {r : PresentationRequest} (hr : sub.IsFor r) (keys? : Option SchemaKeys) :
      Submitting ps sub now (.done (.ofCheck r (Service.check ps keys? r sub now))) [r]
        [⟨r, Service.verdictOf r now (Service.check ps keys? r sub now)⟩]

theorem Service.Prepares.preparedFor {ps : ProofSystem} {s s' : Service} {order : PresentationOrder}
    {now : Timestamp} {fresh : Fresh} {r : PresentationRequest}
    (h : s.Prepares ps order now fresh (.ok r) s') : PreparedFor order now fresh r := by
  cases h with
  | prepared hschema hkeys hprepare => exact ⟨_, _, _, hschema, hprepare⟩

namespace Creating

variable {order : PresentationOrder} {now : Timestamp} {fresh : Fresh} {t : Task}

theorem step {ps : ProofSystem} {s s' : Service} {e : Effect} {t' : Task}
    (ht : Creating order now fresh t) (h : t.Moves ps s e t' s') : Creating order now fresh t' := by
  cases ht with
  | called =>
      cases h with
      | prepares hprepares => exact .prepared hprepares.preparedFor
      | refuses hprepares => exact .refused _
  | prepared hr =>
      cases h with
      | saves => exact .kept hr
  | kept hr =>
      cases h with
      | rests => exact .kept hr
  | refused e =>
      cases h with
      | rests => exact .refused e

theorem timeOut (ht : Creating order now fresh t) : Creating order now fresh t.timeOut := by
  cases ht with
  | called => exact .called
  | prepared hr => exact .prepared hr
  | kept hr => exact .kept hr
  | refused e => exact .refused e

/-- A request that has been made has been prepared for the order, and making it is done. -/
theorem of_created (ht : Creating order now fresh t) {r : PresentationRequest}
    (hr : r ∈ t.created) : t = .done (.created r) ∧ PreparedFor order now fresh r := by
  cases ht with
  | kept hprepared =>
      obtain rfl := List.mem_singleton.1 hr
      exact ⟨rfl, hprepared⟩
  | _ => exact absurd hr List.not_mem_nil

end Creating

namespace Submitting

variable {ps : ProofSystem} {sub : Submission} {now : Timestamp} {t : Task}
variable {taken : List PresentationRequest} {recorded : List Delivery}

theorem step {s s' : Service} {e : Effect} {t' : Task} (hown : s.RequestsOwn)
    (ht : Submitting ps sub now t taken recorded) (h : t.Moves ps s e t' s') :
    Submitting ps sub now t' (taken ++ e.taken) (recorded ++ e.recorded) := by
  cases ht with
  | called =>
      cases h with
      | malformed he => exact .refused (Service.malformed?_not_decisive he)
      | notFound hwell hnone => exact .refused fun he => he.1 rfl
      | @takes sub now id r hwell hid hget =>
          obtain rfl : r.id = id := hown _ (Store.get?_eq_some_iff.1 hget)
          exact .checking hid
  | refused he =>
      cases h with
      | rests => exact .refused he
  | checking hr =>
      cases h with
      | checks hkept => exact .recording hr _
      | evicts hcheck => exact .recording hr _
  | recording hr keys? =>
      cases h with
      | records => exact .telling hr keys? (by simp)
  | telling hr keys? hstage =>
      cases h with
      | records => exact absurd rfl hstage
      | notifies => exact .telling hr keys? (by simp)
      | delivers => exact .settled hr keys?
  | settled hr keys? =>
      cases h with
      | rests => exact .settled hr keys?

theorem timeOut (ht : Submitting ps sub now t taken recorded) :
    Submitting ps sub now t.timeOut taken recorded := by
  cases ht with
  | called => exact .called
  | refused he => exact .refused he
  | checking hr => exact .checking hr
  | recording hr keys? => exact .recording hr keys?
  | telling hr keys? hstage => exact .telling hr keys? hstage
  | settled hr keys? => exact .settled hr keys?

/-- A submission makes no requests. -/
theorem created (ht : Submitting ps sub now t taken recorded) : t.created = [] := by
  cases ht with
  | settled hr keys? => exact Task.created_ofCheck _ _
  | recording hr keys? => exact Task.created_ofCheck _ _
  | telling hr keys? hstage => exact Task.created_ofCheck _ _
  | _ => rfl

/-- An answer that settles is the answer to a check, on which a verdict has been recorded. -/
theorem of_decisive {answer : Answer} (ht : Submitting ps sub now (.done answer) taken recorded)
    (hanswer : answer.IsDecisive) :
    ∃ r keys?, sub.IsFor r ∧ answer = .ofCheck r (Service.check ps keys? r sub now) ∧
      taken = [r] ∧ recorded = [⟨r, Service.verdictOf r now (Service.check ps keys? r sub now)⟩] := by
  cases ht with
  | refused he => exact absurd hanswer he
  | @settled r hr keys? => exact ⟨r, keys?, hr, rfl, rfl, rfl⟩

/-- An answer that does not settle comes from a submission that has done nothing to the stores. -/
theorem of_not_decisive {answer : Answer} (ht : Submitting ps sub now (.done answer) taken recorded)
    (hanswer : ¬answer.IsDecisive) : taken = [] ∧ recorded = [] := by
  cases ht with
  | refused he => exact ⟨rfl, rfl⟩
  | @settled r hr keys? =>
      cases hcheck : Service.check ps keys? r sub now with
      | ok _ =>
          rw [hcheck] at hanswer
          exact absurd trivial hanswer
      | error e =>
          rw [hcheck] at hanswer
          exact absurd (Service.check_error_decisive hcheck) hanswer

end Submitting

namespace Operation

/-- An operation has come to something that follows from its call. -/
def Sound (ps : ProofSystem) (o : Operation) : Prop :=
  match o.call with
  | .create order now fresh => Creating order now fresh o.rest
  | .submit sub now => Submitting ps sub now o.rest o.taken o.recorded
  | _ => o.rest.unborn = [] ∧ o.rest.created = []

variable {ps : ProofSystem} {o : Operation}

theorem sound_start (c : Call) : (start c).Sound ps := by
  cases c with
  | create order now fresh => exact .called
  | submit sub now => exact .called
  | _ => exact ⟨rfl, rfl⟩

/-- Whatever neither makes a request nor may make one does not come to make one. -/
theorem none_created {e : Effect} {s s' : Service} {t t' : Task} (hadvances : Advances e s s' t t')
    (ht : t.unborn = [] ∧ t.created = []) : t'.unborn = [] ∧ t'.created = [] := by
  have hunborn := hadvances.unborn
  rw [ht.1, List.sublist_nil, List.append_eq_nil_iff, List.map_eq_nil_iff] at hunborn
  refine ⟨hunborn.2, ?_⟩
  rw [hadvances.created, hunborn.1, ht.2, List.append_nil]

theorem sound_advance {s : Service} (hown : s.RequestsOwn) (ho : o.Sound ps) :
    (o.advance ps s).Sound ps := by
  obtain ⟨c, t, taken, recorded⟩ := o
  cases c with
  | create order now fresh => exact Creating.step ho (t.step_moves ps s)
  | submit sub now => exact Submitting.step hown ho (t.step_moves ps s)
  | _ => exact none_created (t.step_moves ps s).advances ho

theorem sound_timeOut (ho : o.Sound ps) : Sound ps { o with rest := o.rest.timeOut } := by
  obtain ⟨c, t, taken, recorded⟩ := o
  cases c with
  | create order now fresh => exact Creating.timeOut ho
  | submit sub now => exact Submitting.timeOut ho
  | _ => exact none_created (t.timeOut_advances default) ho

/-- A request has been made by an operation that was called to make it and has answered. -/
theorem Sound.of_created (ho : o.Sound ps) {r : PresentationRequest} (hr : r ∈ o.rest.created) :
    ∃ order now fresh, o.call = .create order now fresh ∧ o.rest = .done (.created r) ∧
      PreparedFor order now fresh r := by
  obtain ⟨c, t, taken, recorded⟩ := o
  cases c with
  | create order now fresh =>
      obtain ⟨ht, hprepared⟩ := Creating.of_created ho hr
      exact ⟨order, now, fresh, rfl, ht, hprepared⟩
  | submit sub now =>
      have hnone : t.created = [] := Submitting.created ho
      rw [hnone] at hr
      exact absurd hr List.not_mem_nil
  | _ =>
      have hnone : t.created = [] := ho.2
      rw [hnone] at hr
      exact absurd hr List.not_mem_nil

end Operation

/-- Wherever steps lead, every operation has come to something that follows from its call. -/
theorem World.Reachable.sound {ps : ProofSystem} {w : World} (hw : w.Reachable ps) :
    ∀ o ∈ w.operations, o.Sound ps := by
  induction hw using Reachable.induct with
  | start s hrequests hverdicts houtbox => exact fun _ ho => absurd ho List.not_mem_nil
  | step w w' hw hstep ih =>
      cases hstep with
      | call c hfresh => exact List.forall_mem_cons.2 ⟨Operation.sound_start c, ih⟩
      | advance o =>
          rw [forall_mem_operations] at ih ⊢
          exact ⟨ih.1, Operation.sound_advance hw.invariant.own ih.2.1, ih.2.2⟩
      | timeOut o =>
          rw [forall_mem_operations] at ih ⊢
          exact ⟨ih.1, Operation.sound_timeOut ih.2.1, ih.2.2⟩

end PrivatePresentation
