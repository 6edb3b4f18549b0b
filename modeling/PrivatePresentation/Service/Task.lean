import PrivatePresentation.Service.Check

/-!
Operations in progress. An operation touches the state of the verifier in several steps, each of them
atomic; between two steps of one operation there may be steps of others. A task is what an operation
has still to do. Whoever runs a task to its end with nothing in between performs the operation.
-/

namespace PrivatePresentation

/-- The answer of an operation. -/
inductive Answer where
  | created (request : PresentationRequest)
  | refused (error : ProtocolError)
  | accepted (request : PresentationRequest)
  | rejected (error : VerificationError)
  | status (status : RequestStatus)
  | result (view : ResultView)
  | swept (count : Nat)
  | waited (outcome : WaitOutcome)
deriving Inhabited

/-- How far the settlement of a request has come. -/
inductive Settling where
  | record
  | notify
  | deliver
deriving DecidableEq, Repr, Inhabited

/-- What an operation has still to do. -/
inductive Task where
  /-- Make the keys and the request of an order. -/
  | create (order : PresentationOrder) (now : Timestamp) (fresh : Fresh)
  /-- Keep a request. -/
  | save (request : PresentationRequest)
  /-- Take the request of a submission out of the store. -/
  | submit (submission : Submission) (now : Timestamp)
  /-- Check a submission against its request, which has been taken. -/
  | check (held : PresentationRequest) (submission : Submission) (now : Timestamp)
  /-- Settle a request, which has been taken, then go on. -/
  | settle (stage : Settling) (held : PresentationRequest) (verdict : Verdict) (next : Task)
  /-- Look for a request, and tell how it is or go on. -/
  | status (id : RequestId) (now : Timestamp) (forResult : Bool)
  /-- Take a request that is too late. -/
  | expire (id : RequestId) (now : Timestamp) (next : Task)
  /-- Look for a verdict, else for the request. -/
  | result (id : RequestId) (now : Timestamp)
  /-- Look for the verdict on a request that is too late. -/
  | resultOfExpired (id : RequestId)
  /-- Take all requests that are too late. -/
  | sweep (now : Timestamp)
  /-- Look for a verdict, else wait for it. -/
  | wait (id : RequestId)
  /-- Register a waiter. -/
  | register (id : RequestId)
  /-- Look again for a verdict that may have come before the registration. -/
  | recheck (id : RequestId) (token : WaiterToken)
  /-- Wait until a verdict comes or the time is over. -/
  | parked (id : RequestId) (token : WaiterToken)
  /-- End a registration. -/
  | cancel (id : RequestId) (token : WaiterToken) (outcome : WaitOutcome)
  /-- Nothing. -/
  | done (answer : Answer)
deriving Inhabited

namespace Task

/-- The settlement of requests that are too late, one after the other. -/
def settleExpired (now : Timestamp) (held : List PresentationRequest) (next : Task) : Task :=
  held.foldr
    (fun r next =>
      .settle .record r (Service.verdictOf r now (.error .expired)) next) next

/-- The first step of a task. -/
def step (ps : ProofSystem) (s : Service) : Task → Task × Service
  | .create order now fresh =>
    match s.prepareWithKeys ps order now fresh with
    | (.ok r, s) => (.save r, s)
    | (.error e, s) => (.done (.refused e), s)
  | .save r => (.done (.created r), (s.save r).counted .requestCreated)
  | .submit sub now =>
    match Service.malformed? sub with
    | some e => (.done (.rejected e), s)
    | none =>
      match (RequestId.parseTrimmed sub.requestId).toOption.map s.requests.take with
      | some (some r, requests) => (.check r sub now, { s with requests := requests })
      | _ =>
        (.done (.rejected .notFound),
          s.counted (.verification VerdictState.failed.name VerificationError.notFound.reason))
  | .check r sub now =>
    let outcome := Service.check ps (s.keys.get? r.schemaHash) r sub now
    let answer := match outcome with
      | .ok () => Answer.accepted r
      | .error e => .rejected e
    let s := if outcome matches .error .layoutDivergence then s.evict r.schemaHash else s
    (.settle .record r (Service.verdictOf r now outcome) (.done answer), s)
  | .settle .record r v next => (.settle .notify r v next, s.record v)
  | .settle .notify r v next => (.settle .deliver r v next, s.notify v)
  | .settle .deliver r v next => (next, (s.deliver r v).counted (Service.eventOf v))
  | .status id now forResult =>
    match s.requests.get? id with
    | none =>
      (.done (if forResult then .result ⟨.unknown, none, none, none⟩
        else .status .unknownOrConsumed), s)
    | some r =>
      if r.isExpired now then
        (.expire id now (if forResult then .resultOfExpired id else .done (.status .expired)), s)
      else
        (.done (if forResult then .result ⟨.pending, none, none, none⟩ else .status .pending), s)
  | .expire id now next =>
    match s.requests.take id with
    | (some r, requests) => (settleExpired now [r] next, { s with requests := requests })
    | (none, _) => (next, s)
  | .result id now =>
    match s.verdicts.get? id with
    | some v => (.done (.result (.ofVerdict v)), s)
    | none => (.status id now true, s)
  | .resultOfExpired id =>
    match s.verdicts.get? id with
    | some v => (.done (.result (.ofVerdict v)), s)
    | none => (.done (.result ⟨.settled .expired, none, none, none⟩), s)
  | .sweep now =>
    let (late, requests) := s.requests.drain (·.isExpired now)
    (settleExpired now late (.done (.swept late.length)), { s with requests := requests })
  | .wait id =>
    match s.verdicts.get? id with
    | some v => (.done (.waited (.completed v)), s)
    | none => (.register id, s)
  | .register id =>
    let (token, waiters) := s.waiters.register id
    (.recheck id token, { s with waiters := waiters })
  | .recheck id token =>
    match s.verdicts.get? id with
    | some v => (.cancel id token (.completed v), s)
    | none => (.parked id token, s)
  | .parked id token =>
    match s.waiters.receive token with
    | (.delivered v, waiters) => (.done (.waited (.completed v)), { s with waiters := waiters })
    | (.listening, _) => (.parked id token, s)
    | (.closed, _) =>
      match s.verdicts.get? id with
      | some v => (.done (.waited (.completed v)), s)
      | none => (.done (.waited .timedOut), s)
  | .cancel id token outcome =>
    (.done (.waited outcome), { s with waiters := s.waiters.cancel id token })
  | .done answer => (.done answer, s)

/-- The task once its time is over: whoever is still waiting gives up. -/
def timeOut : Task → Task
  | .parked id token => .cancel id token .timedOut
  | t => t

/-- Some steps of a task, with nothing in between. -/
def run (ps : ProofSystem) : Nat → Task → Service → Task × Service
  | 0, t, s => (t, s)
  | fuel + 1, t, s =>
    match t with
    | .done answer => (.done answer, s)
    | t =>
      let (t, s) := t.step ps s
      run ps fuel t s

/-- As many steps as any task takes: three for each request that may be settled, and a few more. -/
def bound (s : Service) : Nat := 3 * s.requests.size + 8

/-- The answer, if there is nothing more to do. -/
def answer? : Task → Option Answer
  | .done answer => some answer
  | _ => none

end Task

namespace Service

/-- Performs an operation with nothing in between. A wait comes to where it is parked. -/
def perform (ps : ProofSystem) (s : Service) (t : Task) : Task × Service :=
  t.run ps (Task.bound s) s

/-- Settles the requests that are too late and forgets the verdicts that are too old, and tells how
many of each. -/
def sweep (ps : ProofSystem) (s : Service) (now : Timestamp) : (Nat × Nat) × Service :=
  let late := (s.requests.entries.filter (·.2.isExpired now)).length
  let (_, s) := s.perform ps (.sweep now)
  let (old, s) := s.purge now
  ((late, old), s)

end Service
end PrivatePresentation
