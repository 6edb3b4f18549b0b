import PrivatePresentation.Proofs.Service.Polling
import PrivatePresentation.Proofs.Service.Readdressing

/-!
Callbacks stay with the verifier.  Two runs of a service that differ in the callbacks that are ordered,
and in nothing else, look alike to everybody but the one to whom verdicts are handed over: the answers,
the descriptors, the requests as they are written and all that is kept are the same, at each moment.  What
is handed over has the callback that was ordered with the request.
-/

namespace PrivatePresentation

/-- A turn in a run of the service.  An operation is told by how many have been called after it. -/
inductive Act where
  /-- An operation is called. -/
  | call (c : Call)
  /-- An operation makes its next step. -/
  | advance (place : Nat)
  /-- An operation that waits gives up. -/
  | timeOut (place : Nat)
  /-- The receiving end of a registration is let go. -/
  | abandon (token : WaiterToken)
  /-- Keys are provided ahead of any request. -/
  | provide (schema : Schema) (trapdoor : Groth16.Trapdoor)
  /-- Verdicts that are old enough are forgotten. -/
  | purge (now : Timestamp)

namespace Act

/-- Two turns are the same, but for the callback of an order. -/
inductive SameButCallback : Act → Act → Prop where
  | create (order : PresentationOrder) (callback : Option Callback) (now : Timestamp) (fresh : Fresh) :
      SameButCallback (.call (.create order now fresh))
        (.call (.create { order with callback := callback } now fresh))
  | same (a : Act) : SameButCallback a a

/-- The turn with the callback of its order changed. -/
def readdressed (f : Readdressing) : Act → Act
  | .call c => .call (c.readdressed f)
  | a => a

end Act

/-- Two requests are the same, but for their callbacks. -/
def PresentationRequest.SameButCallback (r r' : PresentationRequest) : Prop :=
  r' = { r with callback := r'.callback }

/-- Two answers are the same, with their requests as they are written. -/
inductive Answer.SameAsWritten : Answer → Answer → Prop where
  | created {r r' : PresentationRequest} (h : r.toJson = r'.toJson) :
      SameAsWritten (.created r) (.created r')
  | accepted {r r' : PresentationRequest} (h : r.toJson = r'.toJson) :
      SameAsWritten (.accepted r) (.accepted r')
  | same (answer : Answer) : SameAsWritten answer answer

theorem forall₂_of_map_eq {α β : Type} {g : α → β} {l l' : List α} (h : l.map g = l'.map g) :
    List.Forall₂ (fun a b => g a = g b) l l' := by
  rw [← List.forall₂_map_left_iff (R := fun a b => a = g b), ← List.forall₂_map_right_iff, h]
  exact List.forall₂_refl _

/-- The written form of a request does not tell its callback. -/
theorem PresentationRequest.toJson_readdressed (f : Readdressing) (r : PresentationRequest) :
    (r.readdressed f).toJson = r.toJson :=
  rfl

section Erasure

variable {f : Readdressing}

theorem PresentationRequest.sameButCallback_of_readdressed {r r' : PresentationRequest}
    (h : r.readdressed f = r'.readdressed f) : r.SameButCallback r' := by
  cases r
  cases r'
  simp only [readdressed, PresentationRequest.mk.injEq] at h
  simp only [SameButCallback, PresentationRequest.mk.injEq]
  obtain ⟨h1, h2, h3, h4, h5, h6, -⟩ := h
  exact ⟨h1.symm, h2.symm, h3.symm, h4.symm, h5.symm, h6.symm, trivial⟩

theorem PresentationRequest.toJson_of_readdressed {r r' : PresentationRequest}
    (h : r.readdressed f = r'.readdressed f) : r.toJson = r'.toJson := by
  rw [← toJson_readdressed f, h, toJson_readdressed]

theorem Answer.sameAsWritten_of_readdressed {a a' : Answer}
    (h : a.readdressed f = a'.readdressed f) : a.SameAsWritten a' := by
  cases a with
  | created r =>
      cases a' with
      | created r' => exact .created (PresentationRequest.toJson_of_readdressed (Answer.created.inj h))
      | _ => cases h
  | accepted r =>
      cases a' with
      | accepted r' => exact .accepted (PresentationRequest.toJson_of_readdressed (Answer.accepted.inj h))
      | _ => cases h
  | _ =>
      cases a' <;> cases h
      exact .same _

theorem Operation.answers_sameAsWritten {o o' : Operation} (h : o.readdressed f = o'.readdressed f) :
    Option.Rel Answer.SameAsWritten o.rest.answer? o'.rest.answer? := by
  have hanswers : o.rest.answer?.map (·.readdressed f) = o'.rest.answer?.map (·.readdressed f) := by
    rw [← Task.answer?_readdressed, ← Task.answer?_readdressed]
    exact congrArg (fun o => o.rest.answer?) h
  generalize o.rest.answer? = a at hanswers
  generalize o'.rest.answer? = a' at hanswers
  cases a with
  | none =>
      cases a' with
      | none => exact .none
      | some a' => cases hanswers
  | some a =>
      cases a' with
      | none => cases hanswers
      | some a' => exact .some (Answer.sameAsWritten_of_readdressed (Option.some.inj hanswers))

end Erasure

namespace Service

/-- All that is told of a state is its settings and how much it holds. -/
theorem summary_congr {s s' : Service} (hconfig : s.config = s'.config)
    (hkeys : s.keys.size = s'.keys.size) (hrequests : s.requests.size = s'.requests.size)
    (hverdicts : s.verdicts.size = s'.verdicts.size) : s.summary = s'.summary := by
  unfold summary
  rw [hconfig, hkeys, hrequests, hverdicts]

variable (f : Readdressing) (s : Service) (id : RequestId) (now : Timestamp)

theorem pending_toJson :
    ((s.readdressed f).pending id now).map (·.toJson) = (s.pending id now).map (·.toJson) := by
  rw [pending_readdressed]
  cases s.pending id now <;> rfl

theorem descriptor_readdressed : (s.readdressed f).descriptor id now = s.descriptor id now := by
  rw [descriptor, descriptor, pending_readdressed]
  cases s.pending id now <;> rfl

theorem requests_toJson :
    (s.readdressed f).requests.map (·.toJson) = s.requests.map (·.toJson) := by
  change (s.requests.map (·.readdressed f)).map (·.toJson) = _
  rw [Store.map_map]
  exact congrArg s.requests.map (funext (PresentationRequest.toJson_readdressed f))

theorem summary_readdressed : (s.readdressed f).summary = s.summary :=
  summary_congr rfl rfl (Store.size_map _ _) rfl

end Service

namespace World

/-- The world after a turn. -/
def act (ps : ProofSystem) (w : World) : Act → World
  | .call c => ⟨w.service, .start c :: w.operations⟩
  | .advance place =>
    match w.operations[place]? with
    | some o => ⟨(o.rest.step ps w.service).2, w.operations.set place (o.advance ps w.service)⟩
    | none => w
  | .timeOut place =>
    match w.operations[place]? with
    | some o => ⟨w.service, w.operations.set place { o with rest := o.rest.timeOut }⟩
    | none => w
  | .abandon token =>
    ⟨{ w.service with waiters := (w.service.waiters.drop token).2 }, w.operations⟩
  | .provide schema trapdoor => ⟨(Service.ensureKeys ps w.service schema trapdoor).2, w.operations⟩
  | .purge now => ⟨(w.service.purge now).2, w.operations⟩

/-- The world after some turns. -/
def follow (ps : ProofSystem) (w : World) (acts : List Act) : World := acts.foldl (act ps) w

/-- What two worlds have in common if nobody but whom verdicts are handed over to can tell them
apart. -/
structure LooksLike (w w' : World) : Prop where
  /-- What the operations have answered is the same. -/
  answers : List.Forall₂ (Option.Rel Answer.SameAsWritten) (w.operations.map (·.rest.answer?))
    (w'.operations.map (·.rest.answer?))
  /-- Whoever asks for a request, under any name and at any time, is shown the same. -/
  pending : ∀ id now, (w.service.pending id now).map (·.toJson) =
    (w'.service.pending id now).map (·.toJson)
  descriptor : ∀ id now, w.service.descriptor id now = w'.service.descriptor id now
  /-- What is kept is the same. -/
  keys : w.service.keys = w'.service.keys
  requests : w.service.requests.map (·.toJson) = w'.service.requests.map (·.toJson)
  verdicts : w.service.verdicts = w'.service.verdicts
  waiters : w.service.waiters = w'.service.waiters
  counters : w.service.counters = w'.service.counters
  summary : w.service.summary = w'.service.summary
  /-- What is handed over differs in the callbacks at most. -/
  outbox : List.Forall₂ (fun d d' => d.verdict = d'.verdict ∧ d.request.SameButCallback d'.request)
    w.service.outbox w'.service.outbox

variable {ps : ProofSystem}

/-- Whatever steps of operations, provision of keys and purges lead to is led to by some turns. -/
theorem exists_acts {w w' : World} (h : Relation.ReflTransGen (Turn ps) w w') :
    ∃ acts, w.follow ps acts = w' := by
  induction h with
  | refl => exact ⟨[], rfl⟩
  | @tail _ w' _ hturn ih =>
      obtain ⟨acts, rfl⟩ := ih
      suffices h : ∃ a, (w.follow ps acts).act ps a = w' by
        obtain ⟨a, ha⟩ := h
        refine ⟨acts ++ [a], ?_⟩
        rw [follow, List.foldl_append]
        exact ha
      generalize w.follow ps acts = w at hturn
      cases hturn with
      | provide schema t => exact ⟨.provide schema t, rfl⟩
      | purge now => exact ⟨.purge now, rfl⟩
      | step hstep =>
          cases hstep with
          | call c hfresh => exact ⟨.call c, rfl⟩
          | @advance s before after o =>
              refine ⟨.advance before.length, ?_⟩
              simp [act]
          | @timeOut s before after o =>
              refine ⟨.timeOut before.length, ?_⟩
              simp [act]

/-- The world with all callbacks changed. -/
def readdressed (f : Readdressing) (w : World) : World :=
  ⟨w.service.readdressed f, w.operations.map (·.readdressed f)⟩

theorem act_readdressed (f : Readdressing) (w : World) (a : Act) :
    (w.readdressed f).act ps (a.readdressed f) = (w.act ps a).readdressed f := by
  cases a with
  | call c =>
      change World.mk _ (.start (c.readdressed f) :: _) = _
      rw [Operation.start_readdressed]
      rfl
  | advance place =>
      change act ps (w.readdressed f) (.advance place) = _
      rw [act, act, readdressed, List.getElem?_map]
      cases w.operations[place]? with
      | none => rfl
      | some o =>
          dsimp only [Option.map_some]
          rw [readdressed, List.map_set, Operation.advance_readdressed]
          rw [show (o.readdressed f).rest = o.rest.readdressed f from rfl, Task.step_readdressed]
  | timeOut place =>
      change act ps (w.readdressed f) (.timeOut place) = _
      rw [act, act, readdressed, List.getElem?_map]
      cases w.operations[place]? with
      | none => rfl
      | some o =>
          dsimp only [Option.map_some]
          rw [readdressed, List.map_set, ← Operation.timeOut_readdressed]
  | abandon token => rfl
  | provide schema trapdoor =>
      change World.mk (Service.ensureKeys ps (w.service.readdressed f) schema trapdoor).2 _ = _
      rw [Service.ensureKeys_readdressed]
      rfl
  | purge now => rfl

/-- A run does with changed callbacks what it does with the others. -/
theorem follow_readdressed (f : Readdressing) (w : World) (acts : List Act) :
    (w.readdressed f).follow ps (acts.map (·.readdressed f)) = (w.follow ps acts).readdressed f := by
  induction acts generalizing w with
  | nil => rfl
  | cons a rest ih =>
      rw [List.map_cons, follow, List.foldl_cons, act_readdressed]
      exact ih (w.act ps a)

variable {f : Readdressing} {w w' : World}

/-- What differs in callbacks at most looks alike. -/
theorem looksLike_of_readdressed (h : w.readdressed f = w'.readdressed f) : w.LooksLike w' := by
  have hs : w.service.readdressed f = w'.service.readdressed f := congrArg service h
  have hoperations : w.operations.map (·.readdressed f) = w'.operations.map (·.readdressed f) :=
    congrArg operations h
  have houtbox : w.service.outbox.map (·.readdressed f) = w'.service.outbox.map (·.readdressed f) :=
    congrArg Service.outbox hs
  exact {
    answers := by
      rw [List.forall₂_map_left_iff, List.forall₂_map_right_iff]
      exact (forall₂_of_map_eq hoperations).imp fun o o' ho =>
        Operation.answers_sameAsWritten ho
    pending := fun id now => by
      rw [← Service.pending_toJson f, hs, Service.pending_toJson]
    descriptor := fun id now => by
      rw [← Service.descriptor_readdressed f, hs, Service.descriptor_readdressed]
    keys := (congrArg Service.keys hs :)
    requests := by
      rw [← Service.requests_toJson f, hs, Service.requests_toJson]
    verdicts := (congrArg Service.verdicts hs :)
    waiters := (congrArg Service.waiters hs :)
    counters := (congrArg Service.counters hs :)
    summary := by
      rw [← Service.summary_readdressed f, hs, Service.summary_readdressed]
    outbox := (forall₂_of_map_eq houtbox).imp fun d d' hd =>
      ⟨(congrArg Delivery.verdict hd :),
        PresentationRequest.sameButCallback_of_readdressed (congrArg Delivery.request hd)⟩ }

/-- Runs from one service that differ in the callbacks of orders look alike, whatever the operations are
and however their steps are mixed. -/
theorem looksLike_follow (ps : ProofSystem) (s : Service) {acts acts' : List Act}
    (h : List.Forall₂ Act.SameButCallback acts acts') :
    (follow ps ⟨s, []⟩ acts).LooksLike (follow ps ⟨s, []⟩ acts') := by
  let f : Readdressing := fun _ _ => none
  have hacts : acts.map (·.readdressed f) = acts'.map (·.readdressed f) := by
    induction h with
    | nil => rfl
    | cons hfirst _ ih =>
        rw [List.map_cons, List.map_cons, ih]
        cases hfirst with
        | create order callback now fresh => rfl
        | same a => rfl
  apply looksLike_of_readdressed (f := f)
  rw [← follow_readdressed, ← follow_readdressed, hacts]

/-- A run about one request: it is made with a callback, and a submission settles it. -/
def hookedRun (callback : Option Callback) : List Act :=
  [.call (.create { schemaText := some bareText, callback := callback } ⟨0, 0⟩
      ⟨⟨List.replicate 16 1⟩, ⟨"once"⟩, default⟩), .advance 0, .advance 0,
    .call (.submit emptySubmission ⟨0, 0⟩), .advance 0, .advance 0, .advance 0, .advance 0, .advance 0]

/-- Only what is handed over tells a run with a callback from the one without. -/
theorem looksLike_hookedRun :
    (follow .tellingNothing ⟨{}, []⟩ (hookedRun (some ⟨"https://asker/", some "key"⟩))).LooksLike
        (follow .tellingNothing ⟨{}, []⟩ (hookedRun none)) ∧
      (follow .tellingNothing ⟨{}, []⟩
          (hookedRun (some ⟨"https://asker/", some "key"⟩))).service.outbox.map (·.request.callback) =
        [some ⟨"https://asker/", some "key"⟩] ∧
      (follow .tellingNothing ⟨{}, []⟩ (hookedRun none)).service.outbox.map (·.request.callback) =
        [none] := by
  refine ⟨looksLike_follow _ _ ?_, by decide +kernel, by decide +kernel⟩
  refine .cons (.create { schemaText := some bareText, callback := some _ } none _ _) ?_
  exact List.forall₂_same.2 fun a _ => .same a

/-- What is handed over has the callback that was ordered with the identifier of its request. -/
theorem callback_delivered {s : Service} (hrequests : s.requests = ∅) (houtbox : s.outbox = [])
    {acts : List Act} {ordered : RequestId → Option Callback}
    (hacts : ∀ order now fresh, .call (.create order now fresh) ∈ acts →
      order.callback = ordered fresh.id) :
    ∀ d ∈ (follow ps ⟨s, []⟩ acts).service.outbox, d.request.callback = ordered d.request.id := by
  -- A run does not change if all its callbacks are changed to those that have been ordered.
  let f : Readdressing := fun id _ => ordered id
  have hsame : ∀ a ∈ acts, a.readdressed f = a := by
    intro a ha
    cases a with
    | call c =>
        cases c with
        | create order now fresh =>
            have hcallback := hacts order now fresh ha
            simp only [Act.readdressed, Call.readdressed, PresentationOrder.readdressed, f,
              ← hcallback]
        | _ => rfl
    | _ => rfl
  have hmap : acts.map (·.readdressed f) = acts := by
    rw [List.map_congr_left hsame, List.map_id']
  have hstart : (World.mk s []).readdressed f = ⟨s, []⟩ := by
    rw [readdressed, Service.readdressed, hrequests, houtbox]
    obtain ⟨config, keys, requests, verdicts, waiters, outbox, counters⟩ := s
    subst hrequests houtbox
    rfl
  have hrun := @follow_readdressed ps f ⟨s, []⟩ acts
  rw [hmap, hstart] at hrun
  intro d hd
  have hkept := congrArg (fun w : World => w.service.outbox) hrun.symm
  have hd := List.map_inj_left.1 (hkept.trans (List.map_id _).symm) d hd
  exact (congrArg (fun d : Delivery => d.request.callback) hd).symm

end World
end PrivatePresentation
