import PrivatePresentation.Proofs.Service.Interleaving
import PrivatePresentation.Proofs.Service.Preparation
import PrivatePresentation.Proofs.Service.Waiters

/-!
All that a step of an operation can be.  Which of them it is follows from what the operation has still to do
and from what it finds in the state; whatever else holds of every step is told case by case of these.
-/

namespace PrivatePresentation

/-- The answer to a checked submission. -/
def Answer.ofCheck (r : PresentationRequest) : Except VerificationError Unit → Answer
  | .ok () => .accepted r
  | .error e => .rejected e

namespace Task

/-- The request that a submission names, if it is pending. -/
def named? (s : Service) (sub : Submission) : Option PresentationRequest :=
  (RequestId.parseTrimmed sub.requestId).toOption.bind s.requests.get?

/-- All that a step can be: what it does to the stores, what is left to do after it, and the state that it
leaves. -/
inductive Moves (ps : ProofSystem) (s : Service) : Task → Effect → Task → Service → Prop where
  | prepares {order : PresentationOrder} {now : Timestamp} {fresh : Fresh} {r : PresentationRequest}
      {s' : Service} (hprepares : s.Prepares ps order now fresh (.ok r) s') :
      Moves ps s (.create order now fresh) {} (.save r) s'
  | refuses {order : PresentationOrder} {now : Timestamp} {fresh : Fresh} {e : ProtocolError}
      {s' : Service} (hprepares : s.Prepares ps order now fresh (.error e) s') :
      Moves ps s (.create order now fresh) {} (.done (.refused e)) s'
  | saves {r : PresentationRequest} :
      Moves ps s (.save r) { saved := [r] } (.done (.created r)) ((s.save r).counted .requestCreated)
  | malformed {sub : Submission} {now : Timestamp} {e : VerificationError}
      (he : Service.malformed? sub = some e) :
      Moves ps s (.submit sub now) {} (.done (.rejected e)) s
  | notFound {sub : Submission} {now : Timestamp} (hwell : Service.malformed? sub = none)
      (hnone : named? s sub = none) :
      Moves ps s (.submit sub now) {} (.done (.rejected .notFound))
        (s.counted (.verification VerdictState.failed.name VerificationError.notFound.reason))
  | takes {sub : Submission} {now : Timestamp} {id : RequestId} {r : PresentationRequest}
      (hwell : Service.malformed? sub = none) (hid : RequestId.parseTrimmed sub.requestId = .ok id)
      (hget : s.requests.get? id = some r) :
      Moves ps s (.submit sub now) { taken := [r] } (.check r sub now)
        { s with requests := s.requests.erase id }
  | checks {r : PresentationRequest} {sub : Submission} {now : Timestamp}
      (hkept : Service.check ps (s.keys.get? r.schemaHash) r sub now ≠ .error .layoutDivergence) :
      Moves ps s (.check r sub now) {}
        (.settle .record r
          (Service.verdictOf r now (Service.check ps (s.keys.get? r.schemaHash) r sub now))
          (.done (.ofCheck r (Service.check ps (s.keys.get? r.schemaHash) r sub now)))) s
  | evicts {r : PresentationRequest} {sub : Submission} {now : Timestamp}
      (hcheck : Service.check ps (s.keys.get? r.schemaHash) r sub now = .error .layoutDivergence) :
      Moves ps s (.check r sub now) {}
        (.settle .record r
          (Service.verdictOf r now (Service.check ps (s.keys.get? r.schemaHash) r sub now))
          (.done (.ofCheck r (Service.check ps (s.keys.get? r.schemaHash) r sub now))))
        (s.evict r.schemaHash)
  | records {r : PresentationRequest} {v : Verdict} {next : Task} :
      Moves ps s (.settle .record r v next) { recorded := [⟨r, v⟩] } (.settle .notify r v next)
        (s.record v)
  | notifies {r : PresentationRequest} {v : Verdict} {next : Task} :
      Moves ps s (.settle .notify r v next) {} (.settle .deliver r v next) (s.notify v)
  | delivers {r : PresentationRequest} {v : Verdict} {next : Task} :
      Moves ps s (.settle .deliver r v next) { delivered := [⟨r, v⟩] } next
        ((s.deliver r v).counted (Service.eventOf v))
  | misses {id : RequestId} {now : Timestamp} {forResult : Bool}
      (hnone : s.requests.get? id = none) :
      Moves ps s (.status id now forResult) {}
        (.done (if forResult then .result ⟨.unknown, none, none, none⟩
          else .status .unknownOrConsumed)) s
  | late {id : RequestId} {now : Timestamp} {forResult : Bool} {r : PresentationRequest}
      (hget : s.requests.get? id = some r) (hlate : r.isExpired now = true) :
      Moves ps s (.status id now forResult) {}
        (.expire id now (if forResult then .resultOfExpired id else .done (.status .expired))) s
  | pends {id : RequestId} {now : Timestamp} {forResult : Bool} {r : PresentationRequest}
      (hget : s.requests.get? id = some r) (htime : r.isExpired now = false) :
      Moves ps s (.status id now forResult) {}
        (.done (if forResult then .result ⟨.pending, none, none, none⟩ else .status .pending)) s
  | expires {id : RequestId} {now : Timestamp} {next : Task} {r : PresentationRequest}
      (hget : s.requests.get? id = some r) :
      Moves ps s (.expire id now next) { taken := [r] } (settleExpired now [r] next)
        { s with requests := s.requests.erase id }
  | overtaken {id : RequestId} {now : Timestamp} {next : Task} (hnone : s.requests.get? id = none) :
      Moves ps s (.expire id now next) {} next s
  | tells {id : RequestId} {now : Timestamp} {v : Verdict} (hv : s.verdicts.get? id = some v) :
      Moves ps s (.result id now) {} (.done (.result (.ofVerdict v))) s
  | asks {id : RequestId} {now : Timestamp} (hnone : s.verdicts.get? id = none) :
      Moves ps s (.result id now) {} (.status id now true) s
  | tellsExpired {id : RequestId} {v : Verdict} (hv : s.verdicts.get? id = some v) :
      Moves ps s (.resultOfExpired id) {} (.done (.result (.ofVerdict v))) s
  | guesses {id : RequestId} (hnone : s.verdicts.get? id = none) :
      Moves ps s (.resultOfExpired id) {} (.done (.result ⟨.settled .expired, none, none, none⟩)) s
  | sweeps {now : Timestamp} :
      Moves ps s (.sweep now) { taken := (s.requests.drain (·.isExpired now)).1 }
        (settleExpired now (s.requests.drain (·.isExpired now)).1
          (.done (.swept (s.requests.drain (·.isExpired now)).1.length)))
        { s with requests := (s.requests.drain (·.isExpired now)).2 }
  | knows {id : RequestId} {v : Verdict} (hv : s.verdicts.get? id = some v) :
      Moves ps s (.wait id) {} (.done (.waited (.completed v))) s
  | waits {id : RequestId} (hnone : s.verdicts.get? id = none) : Moves ps s (.wait id) {} (.register id) s
  | registers {id : RequestId} :
      Moves ps s (.register id) {} (.recheck id ⟨s.waiters.next⟩)
        { s with waiters := (s.waiters.register id).2 }
  | finds {id : RequestId} {token : WaiterToken} {v : Verdict} (hv : s.verdicts.get? id = some v) :
      Moves ps s (.recheck id token) {} (.cancel id token (.completed v)) s
  | parks {id : RequestId} {token : WaiterToken} (hnone : s.verdicts.get? id = none) :
      Moves ps s (.recheck id token) {} (.parked id token) s
  | receives {id : RequestId} {token : WaiterToken} {v : Verdict}
      (hv : s.waiters.receivers.get? token = some (.delivered v)) :
      Moves ps s (.parked id token) {} (.done (.waited (.completed v))) { s with
        waiters := { s.waiters with receivers := s.waiters.receivers.insert token .closed } }
  | listens {id : RequestId} {token : WaiterToken}
      (hlistening : s.waiters.receivers.get? token = some .listening) :
      Moves ps s (.parked id token) {} (.parked id token) s
  | closes {id : RequestId} {token : WaiterToken}
      (hempty : ∀ v, s.waiters.receivers.get? token ≠ some (.delivered v))
      (hdeaf : s.waiters.receivers.get? token ≠ some .listening) :
      Moves ps s (.parked id token) {}
        (.done (.waited ((s.verdicts.get? id).elim .timedOut .completed))) s
  | cancels {id : RequestId} {token : WaiterToken} {outcome : WaitOutcome} :
      Moves ps s (.cancel id token outcome) {} (.done (.waited outcome))
        { s with waiters := s.waiters.cancel id token }
  | rests {answer : Answer} : Moves ps s (.done answer) {} (.done answer) s

section Submit

variable {ps : ProofSystem} {s : Service} {sub : Submission} {now : Timestamp}

theorem step_submit_malformed {e : VerificationError} (he : Service.malformed? sub = some e) :
    (submit sub now).step ps s = (.done (.rejected e), s) := by
  rw [step, he]

theorem step_submit_notFound (hwell : Service.malformed? sub = none) (hnone : named? s sub = none) :
    (submit sub now).step ps s = (.done (.rejected .notFound),
      s.counted (.verification VerdictState.failed.name VerificationError.notFound.reason)) := by
  rw [step, hwell]
  unfold named? at hnone
  cases hid : (RequestId.parseTrimmed sub.requestId).toOption with
  | none => rfl
  | some id =>
      rw [hid, Option.bind_some] at hnone
      simp only [Option.map_some, Store.take, hnone]

theorem step_submit_taken {id : RequestId} {r : PresentationRequest}
    (hwell : Service.malformed? sub = none) (hid : RequestId.parseTrimmed sub.requestId = .ok id)
    (hget : s.requests.get? id = some r) : (submit sub now).step ps s =
      (.check r sub now, { s with requests := s.requests.erase id }) := by
  rw [step, hwell]
  simp only [hid, Except.toOption, Option.map_some, Store.take, hget]

/-- What a submission takes is the request that it names. -/
theorem moves_submit : (submit sub now).Moves ps s ((submit sub now).effect s)
    ((submit sub now).step ps s).1 ((submit sub now).step ps s).2 := by
  cases hmalformed : Service.malformed? sub with
  | some e =>
      rw [step_submit_malformed hmalformed, effect, hmalformed]
      exact .malformed hmalformed
  | none =>
      have heffect : (submit sub now).effect s = { taken := (named? s sub).toList } := by
        rw [effect, hmalformed]
        rfl
      rw [heffect]
      cases hnamed : named? s sub with
      | none =>
          rw [step_submit_notFound hmalformed hnamed]
          exact .notFound hmalformed hnamed
      | some r =>
          obtain ⟨id, hid, hget⟩ := Option.bind_eq_some_iff.1 hnamed
          have hid := Outcome.of_toOption hid
          rw [step_submit_taken hmalformed hid hget]
          exact .takes hmalformed hid hget

end Submit

section Check

variable {ps : ProofSystem} {s : Service} {r : PresentationRequest} {sub : Submission}
variable {now : Timestamp}

/-- A check gives the keys up only if it has found another circuit than theirs. -/
theorem moves_check : (check r sub now).Moves ps s {} ((check r sub now).step ps s).1
    ((check r sub now).step ps s).2 := by
  have hkept := @Moves.checks ps s r sub now
  have hevicted := @Moves.evicts ps s r sub now
  rw [step]
  generalize Service.check ps (s.keys.get? r.schemaHash) r sub now = outcome at hkept hevicted ⊢
  cases outcome with
  | ok _ => exact hkept nofun
  | error e =>
      cases e with
      | layoutDivergence => exact hevicted rfl
      | _ => exact hkept nofun

end Check

section Parked

variable {ps : ProofSystem} {s : Service} {id : RequestId} {token : WaiterToken}

theorem moves_parked : (parked id token).Moves ps s {} ((parked id token).step ps s).1
    ((parked id token).step ps s).2 := by
  rw [step]
  by_cases hdelivered : ∃ v, s.waiters.receivers.get? token = some (.delivered v)
  · obtain ⟨v, hv⟩ := hdelivered
    rw [Waiters.receive_delivered hv]
    exact .receives hv
  · have hempty := not_exists.1 hdelivered
    by_cases hlistening : s.waiters.receivers.get? token = some .listening
    · rw [Waiters.receive_listening hlistening]
      exact .listens hlistening
    · have hcloses := @Moves.closes ps s id token hempty hlistening
      rw [Waiters.receive_closed hempty hlistening]
      dsimp only
      cases hget : s.verdicts.get? id with
      | none =>
          rw [hget] at hcloses
          exact hcloses
      | some v =>
          rw [hget] at hcloses
          exact hcloses

end Parked

/-- Every step is one of those. -/
theorem step_moves (ps : ProofSystem) (s : Service) (t : Task) :
    t.Moves ps s (t.effect s) (t.step ps s).1 (t.step ps s).2 := by
  cases t with
  | create order now fresh =>
      have hprepares := s.prepareWithKeys_prepares ps order now fresh
      rw [step]
      generalize s.prepareWithKeys ps order now fresh = prepared at hprepares ⊢
      obtain ⟨outcome, s'⟩ := prepared
      cases outcome with
      | ok r => exact .prepares hprepares
      | error e => exact .refuses hprepares
  | save r => exact .saves
  | submit sub now => exact moves_submit
  | check r sub now => exact moves_check
  | settle stage r v next =>
      cases stage with
      | record => exact .records
      | notify => exact .notifies
      | deliver => exact .delivers
  | status id now forResult =>
      rw [step]
      cases hget : s.requests.get? id with
      | none => exact .misses hget
      | some r =>
          dsimp only
          split
          · rename_i hlate
            exact .late hget hlate
          · rename_i htime
            exact .pends hget (Bool.eq_false_iff.2 htime)
  | expire id now next =>
      rw [step, effect]
      cases hget : s.requests.get? id with
      | none =>
          simp only [Store.take, hget]
          exact .overtaken hget
      | some r =>
          simp only [Store.take, hget]
          exact .expires hget
  | result id now =>
      rw [step]
      cases hget : s.verdicts.get? id with
      | none => exact .asks hget
      | some v => exact .tells hget
  | resultOfExpired id =>
      rw [step]
      cases hget : s.verdicts.get? id with
      | none => exact .guesses hget
      | some v => exact .tellsExpired hget
  | sweep now => exact .sweeps
  | wait id =>
      rw [step]
      cases hget : s.verdicts.get? id with
      | none => exact .waits hget
      | some v => exact .knows hget
  | register id => exact .registers
  | recheck id token =>
      rw [step]
      cases hget : s.verdicts.get? id with
      | none => exact .parks hget
      | some v => exact .finds hget
  | parked id token => exact moves_parked
  | cancel id token outcome => exact .cancels
  | done answer => exact .rests

end Task
end PrivatePresentation
