import PrivatePresentation.Proofs.Outcome
import PrivatePresentation.Proofs.Service.Store
import PrivatePresentation.Service.Task

/-!
Operations side by side.  Any number of operations share one service; each step of the whole is one
atomic step of one of them, or the start of another.  What an operation has taken out of the store of
requests and what it has recorded is kept beside it, so that one can tell what it still holds.
-/

namespace PrivatePresentation

/-- A call of an operation, with its own time. -/
inductive Call where
  | create (order : PresentationOrder) (now : Timestamp) (fresh : Fresh)
  | submit (submission : Submission) (now : Timestamp)
  | status (id : RequestId) (now : Timestamp)
  | result (id : RequestId) (now : Timestamp)
  | sweep (now : Timestamp)
  | wait (id : RequestId)

namespace Call

/-- What is to be done for a call. -/
def task : Call → Task
  | .create order now fresh => .create order now fresh
  | .submit submission now => .submit submission now
  | .status id now => .status id now false
  | .result id now => .result id now
  | .sweep now => .sweep now
  | .wait id => .wait id

/-- The identifiers that are drawn for a call. -/
def drawn : Call → List RequestId
  | .create _ _ fresh => [fresh.id]
  | _ => []

end Call

/-- What a step does to the stores. -/
structure Effect where
  saved : List PresentationRequest := []
  taken : List PresentationRequest := []
  recorded : List Delivery := []
  delivered : List Delivery := []

namespace Task

/-- What the first step of a task does to the stores. -/
def effect (s : Service) : Task → Effect
  | .save r => { saved := [r] }
  | .submit sub _ =>
    match Service.malformed? sub with
    | some _ => {}
    | none =>
      { taken := ((RequestId.parseTrimmed sub.requestId).toOption.bind s.requests.get?).toList }
  | .expire id _ _ => { taken := (s.requests.get? id).toList }
  | .sweep now => { taken := (s.requests.drain (·.isExpired now)).1 }
  | .settle .record r v _ => { recorded := [⟨r, v⟩] }
  | .settle .deliver r v _ => { delivered := [⟨r, v⟩] }
  | _ => {}

end Task

/-- An operation in progress: its call, what it has still to do, and what it has done to the stores. -/
structure Operation where
  call : Call
  rest : Task
  taken : List PresentationRequest := []
  recorded : List Delivery := []

namespace Operation

/-- An operation that has just been called. -/
def start (c : Call) : Operation := { call := c, rest := c.task }

/-- The operation after its next step. -/
def advance (ps : ProofSystem) (s : Service) (o : Operation) : Operation where
  call := o.call
  rest := (o.rest.step ps s).1
  taken := o.taken ++ (o.rest.effect s).taken
  recorded := o.recorded ++ (o.rest.effect s).recorded

/-- The operation after some steps with nothing in between, and what it leaves of the service. -/
def run (ps : ProofSystem) : Nat → Service → Operation → Service × Operation
  | 0, s, o => (s, o)
  | n + 1, s, o => run ps n (o.rest.step ps s).2 (o.advance ps s)

/-- The operation has removed a request from the store and has not recorded a verdict on it. -/
def Holds (o : Operation) (id : RequestId) : Prop :=
  id ∈ o.taken.map (·.id) ∧ id ∉ o.recorded.map (·.request.id)

end Operation

/-- A service with the operations in progress on it, those that have ended included. -/
structure World where
  service : Service
  operations : List Operation

namespace World

/-- The identifiers drawn so far. -/
def drawn (w : World) : List RequestId := w.operations.flatMap (·.call.drawn)

/-- What has been recorded so far, once for each time. -/
def recordings (w : World) : List Delivery := w.operations.flatMap (·.recorded)

/-- One step of the whole. -/
inductive Step (ps : ProofSystem) : World → World → Prop where
  /-- An operation is called; an identifier that is drawn for it is new. -/
  | call {s : Service} {operations : List Operation} (c : Call)
      (fresh : ∀ id ∈ c.drawn, id ∉ (World.mk s operations).drawn) :
      Step ps ⟨s, operations⟩ ⟨s, .start c :: operations⟩
  /-- An operation makes its next step. -/
  | advance {s : Service} {before after : List Operation} (o : Operation) :
      Step ps ⟨s, before ++ o :: after⟩ ⟨(o.rest.step ps s).2, before ++ o.advance ps s :: after⟩
  /-- An operation that waits gives up. -/
  | timeOut {s : Service} {before after : List Operation} (o : Operation) :
      Step ps ⟨s, before ++ o :: after⟩ ⟨s, before ++ { o with rest := o.rest.timeOut } :: after⟩

/-- What steps lead to from a service on which nothing has been asked for. -/
def Reachable (ps : ProofSystem) (w : World) : Prop :=
  ∃ s : Service, s.requests = ∅ ∧ s.verdicts = ∅ ∧ s.outbox = [] ∧
    Relation.ReflTransGen (Step ps) ⟨s, []⟩ w

/-- An operation is called and makes some steps with nothing in between. -/
def perform (ps : ProofSystem) (steps : Nat) (w : World) (c : Call) : World :=
  let (s, o) := Operation.run ps steps w.service (.start c)
  ⟨s, o :: w.operations⟩

variable {ps : ProofSystem} {w w' : World}

theorem Reachable.trans (hw : w.Reachable ps) (hsteps : Relation.ReflTransGen (Step ps) w w') :
    w'.Reachable ps := by
  obtain ⟨s, hrequests, hverdicts, houtbox, hbefore⟩ := hw
  exact ⟨s, hrequests, hverdicts, houtbox, hbefore.trans hsteps⟩

/-- What holds where nothing has been asked for, and stays so with every step, holds wherever steps
lead. -/
theorem Reachable.induct {motive : (w : World) → w.Reachable ps → Prop}
    (start : ∀ (s : Service) (hrequests : s.requests = ∅) (hverdicts : s.verdicts = ∅)
      (houtbox : s.outbox = []), motive ⟨s, []⟩ ⟨s, hrequests, hverdicts, houtbox, .refl⟩)
    (step : ∀ w w' (hw : w.Reachable ps) (hstep : Step ps w w'), motive w hw →
      motive w' (hw.trans (.single hstep))) (hw : w.Reachable ps) : motive w hw := by
  obtain ⟨s, hrequests, hverdicts, houtbox, hsteps⟩ := hw
  induction hsteps with
  | refl => exact start s hrequests hverdicts houtbox
  | tail hbefore hstep ih =>
      exact step _ _ ⟨s, hrequests, hverdicts, houtbox, hbefore⟩ hstep ih

/-- Steps of one operation with nothing in between are steps of the whole. -/
theorem steps_run (steps : Nat) (s : Service) (o : Operation) (operations : List Operation) :
    Relation.ReflTransGen (Step ps) ⟨s, o :: operations⟩
      ⟨(o.run ps steps s).1, (o.run ps steps s).2 :: operations⟩ := by
  induction steps generalizing s o with
  | zero => exact .refl
  | succ steps ih => exact .head (@Step.advance ps s [] operations o) (ih _ _)

theorem steps_perform (steps : Nat) {c : Call} (hfresh : ∀ id ∈ c.drawn, id ∉ w.drawn) :
    Relation.ReflTransGen (Step ps) w (w.perform ps steps c) :=
  .head (.call c hfresh) (steps_run steps w.service _ _)

theorem Reachable.perform (hw : w.Reachable ps) (steps : Nat) {c : Call}
    (hfresh : ∀ id ∈ c.drawn, id ∉ w.drawn) : (w.perform ps steps c).Reachable ps :=
  hw.trans (steps_perform steps hfresh)

end World

namespace Task

/-- The requests that a task has to record a verdict on. -/
def held : Task → List PresentationRequest
  | .check r _ _ => [r]
  | .settle .record r _ next => r :: next.held
  | .settle _ _ _ next => next.held
  | .expire _ _ next => next.held
  | _ => []

/-- What a task has recorded and has to hand over. -/
def owed : Task → List Delivery
  | .settle .record _ _ next => next.owed
  | .settle _ r v next => ⟨r, v⟩ :: next.owed
  | .expire _ _ next => next.owed
  | _ => []

/-- The requests that a task has kept and tells of. -/
def created : Task → List PresentationRequest
  | .settle _ _ _ next => next.created
  | .expire _ _ next => next.created
  | .done (.created r) => [r]
  | _ => []

/-- The identifiers of requests that a task may still keep. -/
def unborn : Task → List RequestId
  | .create _ _ fresh => [fresh.id]
  | .save r => [r.id]
  | .settle _ _ _ next => next.unborn
  | .expire _ _ next => next.unborn
  | _ => []

/-- Every verdict in a task is on the request that it settles. -/
def Coherent : Task → Prop
  | .settle _ r v next => v.requestId = r.id ∧ next.Coherent
  | .expire _ _ next => next.Coherent
  | _ => True

end Task

namespace Service

/-- Every request stands under its own identifier. -/
def RequestsOwn (s : Service) : Prop := ∀ e ∈ s.requests.entries, e.2.id = e.1

end Service
end PrivatePresentation
