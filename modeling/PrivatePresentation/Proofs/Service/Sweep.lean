import PrivatePresentation.Proofs.Service.Perform
import PrivatePresentation.Proofs.Service.Waiters
import PrivatePresentation.Proofs.Time.Calendar

/-!
Sweeps.  A sweep takes all requests that are too late out of the store, settles them one after the
other, and then forgets the verdicts that are too old.  What settling one request does is a definition
here; by induction that gives what a list of them does, and a sweep is that and a purge.
-/

namespace PrivatePresentation

/-- The verdict on a request that is too late. -/
def Verdict.expiring (r : PresentationRequest) (now : Timestamp) : Verdict :=
  .settling r .expired (some VerificationError.expired.reason) now

/-- The count of a request that is too late. -/
def Event.expiry : Event := .verification VerdictState.expired.name VerificationError.expired.reason

namespace Service

/-- A pending request is too late. -/
def IsLate (s : Service) (now : Timestamp) (r : PresentationRequest) : Prop :=
  ∃ id, s.requests.get? id = some r ∧ r.isExpired now = true

/-- A verdict is older than verdicts are kept. -/
def IsOld (s : Service) (now : Timestamp) (v : Verdict) : Prop :=
  s.config.verdictRetention < now.secondsSince v.recordedAt

instance (s : Service) (now : Timestamp) (v : Verdict) : Decidable (s.IsOld now v) :=
  inferInstanceAs (Decidable (_ < _))

/-- What is left of a service when a request that is too late, which has been taken out, is settled. -/
def expire (now : Timestamp) (s : Service) (r : PresentationRequest) : Service :=
  let v := Verdict.expiring r now
  (((s.record v).notify v).deliver r v).counted .expiry

end Service

namespace Task

variable {ps : ProofSystem} {now : Timestamp} {next : Task}

/-- Requests that have been taken are settled in three steps each, one after the other. -/
theorem run_settleExpired (late : List PresentationRequest) (n : Nat) (s : Service) :
    run ps (3 * late.length + n) (settleExpired now late next) s =
      run ps n next (late.foldl (Service.expire now) s) := by
  induction late generalizing s with
  | nil => rw [List.length_nil, Nat.mul_zero, Nat.zero_add]; rfl
  | cons r rest ih =>
      have hsteps : 3 * (r :: rest).length + n = 3 * rest.length + n + 1 + 1 + 1 := by
        rw [List.length_cons]
        omega
      rw [hsteps, run_succ, run_succ, run_succ, List.foldl_cons, ← ih]
      rfl

end Task

namespace Waiters

variable {now : Timestamp}

/-- The waiters of each request on a list are told that it is too late. -/
def notifyLate (now : Timestamp) (w : Waiters) (late : List PresentationRequest) : Waiters :=
  late.foldl (fun w r => (w.notify r.id (.expiring r now)).2) w

theorem tokens_notifyLate (w : Waiters) (late : List PresentationRequest) (id : RequestId) :
    (w.notifyLate now late).tokens id = if id ∈ late.map (·.id) then [] else w.tokens id := by
  induction late generalizing w with
  | nil => rfl
  | cons r rest ih =>
      have hrest := ih (w.notify r.id (.expiring r now)).2
      rw [tokens_notify] at hrest
      refine hrest.trans ?_
      simp only [List.map_cons, List.mem_cons]
      by_cases hid : id = r.id
      · simp only [hid, true_or, if_true, ite_self]
      · simp only [hid, false_or, if_false]

theorem next_notifyLate (w : Waiters) (late : List PresentationRequest) :
    (w.notifyLate now late).next = w.next := by
  induction late generalizing w with
  | nil => rfl
  | cons r rest ih => exact (ih _).trans next_notify

/-- A receiving end that is not listening, or is registered for no request on the list, stays. -/
theorem receivers_notifyLate_of_not {w : Waiters} {late : List PresentationRequest}
    {token : WaiterToken}
    (hnot : ¬(w.receivers.get? token = some .listening ∧ ∃ r ∈ late, token ∈ w.tokens r.id)) :
    (w.notifyLate now late).receivers.get? token = w.receivers.get? token := by
  induction late generalizing w with
  | nil => rfl
  | cons r rest ih =>
      have hsame :
          (w.notify r.id (.expiring r now)).2.receivers.get? token = w.receivers.get? token := by
        rw [receivers_notify, if_neg fun h => hnot ⟨h.2, r, List.mem_cons_self, h.1⟩]
      refine (ih fun h => hnot ?_).trans hsame
      obtain ⟨hlistening, r', hr', htoken⟩ := h
      rw [tokens_notify] at htoken
      split at htoken
      · exact absurd htoken List.not_mem_nil
      · exact ⟨hsame ▸ hlistening, r', List.mem_cons_of_mem _ hr', htoken⟩

/-- A receiving end that is listening for requests on the list is told of one of them. -/
theorem receivers_notifyLate {w : Waiters} {late : List PresentationRequest} {token : WaiterToken}
    (hlistening : w.receivers.get? token = some .listening)
    (hregistered : ∃ r ∈ late, token ∈ w.tokens r.id) : ∃ r ∈ late, token ∈ w.tokens r.id ∧
      (w.notifyLate now late).receivers.get? token = some (.delivered (.expiring r now)) := by
  induction late generalizing w with
  | nil =>
      obtain ⟨r, hr, -⟩ := hregistered
      exact absurd hr List.not_mem_nil
  | cons r rest ih =>
      have hreceiver := receivers_notify w r.id (.expiring r now) token
      by_cases htoken : token ∈ w.tokens r.id
      · rw [if_pos ⟨htoken, hlistening⟩] at hreceiver
        have hstays : ((w.notify r.id (.expiring r now)).2.notifyLate now rest).receivers.get? token =
            (w.notify r.id (.expiring r now)).2.receivers.get? token := by
          refine receivers_notifyLate_of_not fun h => ?_
          rw [hreceiver] at h
          exact nomatch h.1
        exact ⟨r, List.mem_cons_self, htoken, hstays.trans hreceiver⟩
      · rw [if_neg fun h => htoken h.1, hlistening] at hreceiver
        -- The token is registered for other requests alone, whose tokens stay.
        have htokens (r' : PresentationRequest) (h : r'.id ≠ r.id) :
            (w.notify r.id (.expiring r now)).2.tokens r'.id = w.tokens r'.id := by
          rw [tokens_notify, if_neg h]
        obtain ⟨r', hr', htoken'⟩ := hregistered
        have hr' : r' ∈ rest := (List.mem_cons.1 hr').resolve_left fun h => htoken (h ▸ htoken')
        have hne : r'.id ≠ r.id := fun h => htoken (h ▸ htoken')
        obtain ⟨r'', hr'', htoken'', htold⟩ := ih hreceiver ⟨r', hr', htokens r' hne ▸ htoken'⟩
        have hne'' : r''.id ≠ r.id := by
          intro h
          rw [tokens_notify, if_pos h] at htoken''
          exact absurd htoken'' List.not_mem_nil
        exact ⟨r'', List.mem_cons_of_mem _ hr'', htokens r'' hne'' ▸ htoken'', htold⟩

end Waiters

theorem Counters.count_increment (c : Counters) (e e' : Event) :
    (c.increment e).count e' = c.count e' + if e' = e then 1 else 0 := by
  rw [increment, count, Store.get?_insert]
  split
  · rename_i heq
    rw [heq, Option.getD_some]
  · rfl

namespace Service

variable {ps : ProofSystem} {s : Service} {now : Timestamp} {taken : List PresentationRequest}
  {r : PresentationRequest} {id : RequestId} {v : Verdict}

/-- What is left of a service when some requests that are too late are settled. -/
def expireAll (now : Timestamp) (s : Service) (taken : List PresentationRequest) : Service :=
  taken.foldl (expire now) s

/-- The verdicts on some requests that are too late, recorded one after the other. -/
def recordLate (now : Timestamp) (verdicts : Store RequestId Verdict)
    (taken : List PresentationRequest) : Store RequestId Verdict :=
  taken.foldl (fun verdicts r => verdicts.insert r.id (.expiring r now)) verdicts

/-- Requests that are too late are counted, one after the other. -/
def countLate (counters : Counters) (taken : List PresentationRequest) : Counters :=
  taken.foldl (fun counters _ => counters.increment .expiry) counters

/-- To settle requests that are too late is to record their verdicts, tell their waiters and hand each
of them over, and to count them. -/
theorem expireAll_eq : s.expireAll now taken =
    { s with
      verdicts := recordLate now s.verdicts taken
      waiters := s.waiters.notifyLate now taken
      outbox := s.outbox ++ taken.map fun r => ⟨r, .expiring r now⟩
      counters := countLate s.counters taken } := by
  induction taken generalizing s with
  | nil => rw [List.map_nil, List.append_nil]; rfl
  | cons r rest ih =>
      have houtbox : (s.expire now r).outbox ++ rest.map (fun r => Delivery.mk r (.expiring r now)) =
          s.outbox ++ (r :: rest).map fun r => Delivery.mk r (.expiring r now) :=
        List.append_assoc _ _ _
      refine (@ih (s.expire now r)).trans ?_
      rw [houtbox]
      rfl

theorem count_countLate (counters : Counters) (e : Event) :
    (countLate counters taken).count e = counters.count e + if e = .expiry then taken.length else 0 := by
  induction taken generalizing counters with
  | nil => rw [List.length_nil, ite_self]; rfl
  | cons r rest ih =>
      refine (ih _).trans ?_
      rw [Counters.count_increment, List.length_cons]
      split
      · omega
      · rfl

theorem get?_recordLate_of_not {verdicts : Store RequestId Verdict} (hid : id ∉ taken.map (·.id)) :
    (recordLate now verdicts taken).get? id = verdicts.get? id := by
  induction taken generalizing verdicts with
  | nil => rfl
  | cons r rest ih =>
      rw [List.map_cons, List.mem_cons, not_or] at hid
      refine (ih hid.2).trans ?_
      rw [Store.get?_insert, if_neg hid.1]

/-- Under the identifier of a request on the list there is the verdict on a request of it. -/
theorem get?_recordLate {verdicts : Store RequestId Verdict} (hr : r ∈ taken) : ∃ r' ∈ taken,
    r'.id = r.id ∧ (recordLate now verdicts taken).get? r.id = some (.expiring r' now) := by
  induction taken generalizing verdicts r with
  | nil => exact absurd hr List.not_mem_nil
  | cons r₀ rest ih =>
      have hrecorded : recordLate now verdicts (r₀ :: rest) =
          recordLate now (verdicts.insert r₀.id (.expiring r₀ now)) rest := rfl
      rw [hrecorded]
      by_cases hid : r.id ∈ rest.map (·.id)
      · obtain ⟨r₁, hr₁, heq⟩ := List.mem_map.1 hid
        obtain ⟨r', hr', hid', hget⟩ := ih hr₁
        exact ⟨r', List.mem_cons_of_mem _ hr', hid'.trans heq, heq ▸ hget⟩
      · have hhead : r = r₀ := (List.mem_cons.1 hr).resolve_right fun h => hid (List.mem_map_of_mem h)
        refine ⟨r₀, List.mem_cons_self, hhead ▸ rfl, (get?_recordLate_of_not hid).trans ?_⟩
        rw [Store.get?_insert, if_pos (hhead ▸ rfl)]

/-- The requests that are too late, in the order of the store. -/
def lateRequests (s : Service) (now : Timestamp) : List PresentationRequest :=
  (s.requests.drain (·.isExpired now)).1

/-- What is left of a service when the requests that are too late have been taken out and settled. -/
def expired (s : Service) (now : Timestamp) : Service :=
  expireAll now { s with requests := (s.requests.drain (·.isExpired now)).2 } (s.lateRequests now)

theorem perform_sweep :
    s.perform ps (.sweep now) = (.done (.swept (s.lateRequests now).length), s.expired now) := by
  have hlength : (s.lateRequests now).length ≤ s.requests.size := by
    rw [lateRequests, Store.drain, List.length_map]
    exact List.length_filter_le _ _
  obtain ⟨n, hn⟩ := Nat.exists_eq_add_of_le hlength
  have hbound : Task.bound s = 3 * (s.lateRequests now).length + (3 * n + 7) + 1 := by
    rw [Task.bound, hn]
    omega
  rw [perform, hbound, Task.run_succ]
  exact (Task.run_settleExpired _ _ _).trans (Task.run_done _ _)

/-- A sweep takes out all requests that are too late, settles them and forgets the old verdicts. -/
theorem sweep_eq : s.sweep ps now =
    (((s.lateRequests now).length, ((s.expired now).purge now).1), ((s.expired now).purge now).2) := by
  rw [sweep, perform_sweep, lateRequests, Store.drain, List.length_map]

theorem mem_lateRequests : r ∈ s.lateRequests now ↔ s.IsLate now r :=
  s.requests.mem_drain (·.isExpired now)

theorem mem_map_lateRequests :
    id ∈ (s.lateRequests now).map (·.id) ↔ ∃ r, s.IsLate now r ∧ r.id = id := by
  rw [List.mem_map]
  exact exists_congr fun r => and_congr_left' mem_lateRequests

theorem get?_purge : (s.purge now).2.verdicts.get? id = some v ↔
    s.verdicts.get? id = some v ∧ ¬s.IsOld now v := by
  refine (s.verdicts.get?_drain fun v => s.IsOld now v).trans (and_congr_right' ?_)
  exact decide_eq_false_iff_not

/-- As many verdicts are forgotten as there are identifiers under which an old one stands. -/
theorem exists_purged : ∃ old : List RequestId, old.Nodup ∧
    (∀ id, id ∈ old ↔ ∃ v, s.verdicts.get? id = some v ∧ s.IsOld now v) ∧
    (s.purge now).1 = old.length := by
  obtain ⟨old, hnodup, hmem, hlength⟩ := s.verdicts.exists_drained fun v => s.IsOld now v
  refine ⟨old, hnodup, fun id => (hmem id).trans (exists_congr fun v => ?_), hlength⟩
  rw [decide_eq_true_iff]

/-- Where no verdict is old, none is forgotten. -/
theorem purge_eq_self (hnone : ∀ id v, s.verdicts.get? id = some v → ¬s.IsOld now v) :
    s.purge now = (0, s) := by
  have hdrain : s.verdicts.drain (fun v => s.IsOld now v) = ([], s.verdicts) :=
    Store.drain_eq_self fun id v hv => decide_eq_false (hnone id v hv)
  have hpurge : purgeVerdicts s.verdicts now s.config.verdictRetention =
      (([] : List Verdict).length, s.verdicts) :=
    congrArg (fun parts => (parts.1.length, parts.2)) hdrain
  rw [purge, hpurge]
  rfl

/-- Where no request is too late and no verdict is old, a sweep finds nothing to do. -/
theorem sweep_eq_self (htimely : ∀ r, ¬s.IsLate now r)
    (hnone : ∀ id v, s.verdicts.get? id = some v → ¬s.IsOld now v) : s.sweep ps now = ((0, 0), s) := by
  have hdrain : s.requests.drain (·.isExpired now) = ([], s.requests) := by
    refine Store.drain_eq_self fun id r hr => ?_
    exact Bool.eq_false_iff.2 fun hlate => htimely r ⟨id, hr, hlate⟩
  have hlate : s.lateRequests now = [] := congrArg Prod.fst hdrain
  have hexpired : s.expired now = s := by
    rw [expired, hlate, hdrain]
    rfl
  rw [sweep_eq, hexpired, purge_eq_self hnone, hlate]
  rfl

theorem expired_eq : s.expired now =
    { s with
      requests := (s.requests.drain (·.isExpired now)).2
      verdicts := recordLate now s.verdicts (s.lateRequests now)
      waiters := s.waiters.notifyLate now (s.lateRequests now)
      outbox := s.outbox ++ (s.lateRequests now).map fun r => ⟨r, .expiring r now⟩
      counters := countLate s.counters (s.lateRequests now) } :=
  expireAll_eq

theorem get?_requests_expired : (s.expired now).requests.get? id = some r ↔
    s.requests.get? id = some r ∧ r.isExpired now = false := by
  rw [expired_eq]
  exact s.requests.get?_drain (·.isExpired now)

theorem isOld_expired : (s.expired now).IsOld now v ↔ s.IsOld now v := by
  rw [IsOld, expired_eq]
  rfl

/-- A verdict that is recorded now is not old. -/
theorem not_isOld_expiring : ¬s.IsOld now (.expiring r now) := by
  rw [IsOld, Timestamp.secondsSince]
  change ¬(s.config.verdictRetention : Int) < now.seconds - now.seconds
  omega

/-- No time of the calendar is as long as the greatest signed integer in seconds. -/
theorem not_isOld_of_calendar (hretention : Json.maxSigned < s.config.verdictRetention)
    (hnow : now.InCalendar) (hv : v.recordedAt.InCalendar) : ¬s.IsOld now v := by
  obtain ⟨-, hnow⟩ := hnow
  obtain ⟨hv, -⟩ := hv
  simp only [Timestamp.minSeconds, Timestamp.maxSeconds, Json.maxSigned] at hretention hnow hv
  rw [IsOld, Timestamp.secondsSince]
  omega

theorem get?_verdicts_of_late (hr : s.IsLate now r) : ∃ r', s.IsLate now r' ∧ r'.id = r.id ∧
    (s.expired now).verdicts.get? r.id = some (.expiring r' now) := by
  rw [expired_eq]
  obtain ⟨r', hr', hid, hget⟩ := get?_recordLate (mem_lateRequests.2 hr)
  exact ⟨r', mem_lateRequests.1 hr', hid, hget⟩

theorem get?_verdicts_of_not (hid : ∀ r, s.IsLate now r → r.id ≠ id) :
    (s.expired now).verdicts.get? id = s.verdicts.get? id := by
  rw [expired_eq]
  refine get?_recordLate_of_not fun hmem => ?_
  obtain ⟨r, hr, heq⟩ := mem_map_lateRequests.1 hmem
  exact hid r hr heq

/-- What is old once the late requests are settled was old before, and is on none of them. -/
theorem exists_old_iff : (∃ v, (s.expired now).verdicts.get? id = some v ∧ (s.expired now).IsOld now v) ↔
    (∀ r, s.IsLate now r → r.id ≠ id) ∧ ∃ v, s.verdicts.get? id = some v ∧ s.IsOld now v := by
  constructor
  · rintro ⟨v, hv, hold⟩
    have hid : ∀ r, s.IsLate now r → r.id ≠ id := by
      rintro r hr rfl
      obtain ⟨r', -, -, hget⟩ := get?_verdicts_of_late hr
      obtain rfl := Option.some.inj (hv.symm.trans hget)
      exact not_isOld_expiring hold
    exact ⟨hid, v, get?_verdicts_of_not hid ▸ hv, isOld_expired.1 hold⟩
  · rintro ⟨hid, v, hv, hold⟩
    exact ⟨v, (get?_verdicts_of_not hid).trans hv, isOld_expired.2 hold⟩

/-- Where requests stand under their own identifiers, no two of them have one identifier. -/
theorem IsLate.eq_of_id {r' : PresentationRequest} (hown : s.RequestsOwn) (hr : s.IsLate now r)
    (hr' : s.IsLate now r') (hid : r'.id = r.id) : r' = r := by
  obtain ⟨key, hget, -⟩ := hr
  obtain ⟨key', hget', -⟩ := hr'
  have hkey : r.id = key := hown _ (Store.get?_eq_some_iff.1 hget)
  have hkey' : r'.id = key' := hown _ (Store.get?_eq_some_iff.1 hget')
  rw [← hkey', hid, hkey] at hget'
  exact Option.some.inj (hget'.symm.trans hget)

theorem waiters_expired : (s.expired now).waiters = s.waiters.notifyLate now (s.lateRequests now) := by
  rw [expired_eq]

/-- What a sweep at some instant makes of a service, and the two counts that it tells.  A request is
named by the identifier under which it is pending, and a verdict by that of its request. -/
structure Sweeps (ps : ProofSystem) (s : Service) (now : Timestamp) (counts : Nat × Nat)
    (s' : Service) : Prop where
  /-- The requests that are too late are pending no more, and every other one is as it was. -/
  pending : ∀ id r, s'.requests.get? id = some r ↔
    s.requests.get? id = some r ∧ r.isExpired now = false
  /-- Each request that is too late is counted and handed over once, with its verdict. -/
  delivered : ∃ taken : List (RequestId × PresentationRequest), (taken.map Prod.fst).Nodup ∧
    (∀ id r, (id, r) ∈ taken ↔ s.requests.get? id = some r ∧ r.isExpired now = true) ∧
    s'.outbox = s.outbox ++ taken.map (fun e => ⟨e.2, .expiring e.2 now⟩) ∧
    counts.1 = taken.length ∧
    ∀ e, s'.counters.count e = s.counters.count e + if e = .expiry then taken.length else 0
  /-- Its verdict is recorded, or that on a late request of the same identifier. -/
  recorded : ∀ r, s.IsLate now r →
    ∃ r', s.IsLate now r' ∧ r'.id = r.id ∧ s'.verdicts.get? r.id = some (.expiring r' now)
  /-- Where requests are pending under their own identifiers, it is the verdict on that very request. -/
  recordedOwn : s.RequestsOwn → s'.RequestsOwn ∧
    ∀ r, s.IsLate now r → s'.verdicts.get? r.id = some (.expiring r now)
  /-- Of the other verdicts, those that are not old are kept as they are. -/
  kept : ∀ id, (∀ r, s.IsLate now r → r.id ≠ id) → ∀ v,
    s'.verdicts.get? id = some v ↔ s.verdicts.get? id = some v ∧ ¬s.IsOld now v
  /-- The old ones are counted; none of them is on a request that was too late. -/
  forgotten : ∃ old : List RequestId, old.Nodup ∧
    (∀ id, id ∈ old ↔
      (∀ r, s.IsLate now r → r.id ≠ id) ∧ ∃ v, s.verdicts.get? id = some v ∧ s.IsOld now v) ∧
    counts.2 = old.length
  /-- If verdicts are kept for more seconds than a signed integer holds, none is ever old. -/
  unbounded : Json.maxSigned < s.config.verdictRetention → now.InCalendar →
    (∀ id v, s.verdicts.get? id = some v → v.recordedAt.InCalendar) →
      counts.2 = 0 ∧ ∀ id v, s.verdicts.get? id = some v → ¬s.IsOld now v
  /-- Nobody waits any more for a request that was too late, and whoever waits for another still does. -/
  registrations : ∀ id, ((∃ r, s.IsLate now r ∧ r.id = id) → s'.waiters.tokens id = []) ∧
    ((∀ r, s.IsLate now r → r.id ≠ id) → s'.waiters.tokens id = s.waiters.tokens id)
  /-- A waiter for a request that is too late is told of its verdict. -/
  told : ∀ token, s.waiters.receivers.get? token = some .listening →
    (∃ r, s.IsLate now r ∧ token ∈ s.waiters.tokens r.id) →
      ∃ r, s.IsLate now r ∧ token ∈ s.waiters.tokens r.id ∧
        s'.waiters.receivers.get? token = some (.delivered (.expiring r now))
  /-- Nobody else is told of anything. -/
  untold : ∀ token, ¬(s.waiters.receivers.get? token = some .listening ∧
    ∃ r, s.IsLate now r ∧ token ∈ s.waiters.tokens r.id) →
      s'.waiters.receivers.get? token = s.waiters.receivers.get? token
  next : s'.waiters.next = s.waiters.next
  keys : s'.keys = s.keys
  config : s'.config = s.config
  /-- A second sweep at the same instant finds nothing to do. -/
  again : s'.sweep ps now = ((0, 0), s')

/-- A sweep does what it is for, whatever the state of the service and whatever the time. -/
theorem sweep_sweeps (ps : ProofSystem) (s : Service) (now : Timestamp) :
    s.Sweeps ps now (s.sweep ps now).1 (s.sweep ps now).2 := by
  rw [sweep_eq]
  have hpending : ∀ id r, ((s.expired now).purge now).2.requests.get? id = some r ↔
      s.requests.get? id = some r ∧ r.isExpired now = false := fun _ _ => get?_requests_expired
  have hrecorded : ∀ r, s.IsLate now r → ∃ r', s.IsLate now r' ∧ r'.id = r.id ∧
      ((s.expired now).purge now).2.verdicts.get? r.id = some (.expiring r' now) := by
    intro r hr
    obtain ⟨r', hr', hid, hget⟩ := get?_verdicts_of_late hr
    exact ⟨r', hr', hid, get?_purge.2 ⟨hget, not_isOld_expiring⟩⟩
  have hforgotten := @exists_purged (s.expired now) now
  exact {
    pending := hpending
    delivered := by
      refine ⟨s.requests.entries.filter (·.2.isExpired now), Store.nodup_filter _ s.requests.nodup,
        fun id r => s.requests.mem_filter_entries (·.isExpired now), ?_, ?_, fun e => ?_⟩
      · change (s.expired now).outbox = _
        rw [expired_eq, lateRequests, Store.drain, List.map_map]
        rfl
      · exact List.length_map _
      · change (s.expired now).counters.count e = _
        rw [expired_eq, count_countLate, lateRequests, Store.drain, List.length_map]
    recorded := hrecorded
    recordedOwn := fun hown => by
      refine ⟨fun e he => ?_, fun r hr => ?_⟩
      · obtain ⟨hget, -⟩ := (hpending e.1 e.2).1 (Store.get?_eq_some_iff.2 he)
        exact hown e (Store.get?_eq_some_iff.1 hget)
      · obtain ⟨r', hr', hid, hget⟩ := hrecorded r hr
        rwa [hr.eq_of_id hown hr' hid] at hget
    kept := fun id hid v => by
      rw [get?_purge, get?_verdicts_of_not hid, isOld_expired]
    forgotten := by
      obtain ⟨old, hnodup, hmem, hcount⟩ := hforgotten
      exact ⟨old, hnodup, fun id => (hmem id).trans exists_old_iff, hcount⟩
    unbounded := fun hretention hnow hverdicts => by
      have hnone : ∀ id v, s.verdicts.get? id = some v → ¬s.IsOld now v :=
        fun id v hv => not_isOld_of_calendar hretention hnow (hverdicts id v hv)
      obtain ⟨old, -, hmem, hcount⟩ := hforgotten
      have hempty : old = [] := List.eq_nil_iff_forall_not_mem.2 fun id hid => by
        obtain ⟨-, v, hv, hold⟩ := exists_old_iff.1 ((hmem id).1 hid)
        exact hnone id v hv hold
      rw [hempty] at hcount
      exact ⟨hcount, hnone⟩
    registrations := fun id => by
      change (_ → (s.expired now).waiters.tokens id = []) ∧ (_ → (s.expired now).waiters.tokens id = _)
      rw [waiters_expired, Waiters.tokens_notifyLate]
      refine ⟨fun hlate => if_pos (mem_map_lateRequests.2 hlate), fun hother => if_neg fun hmem => ?_⟩
      obtain ⟨r, hr, hid⟩ := mem_map_lateRequests.1 hmem
      exact hother r hr hid
    told := fun token hlistening hregistered => by
      change ∃ r, _ ∧ _ ∧ (s.expired now).waiters.receivers.get? token = _
      rw [waiters_expired]
      simp only [← mem_lateRequests] at hregistered ⊢
      exact Waiters.receivers_notifyLate hlistening hregistered
    untold := fun token hnot => by
      change (s.expired now).waiters.receivers.get? token = _
      rw [waiters_expired]
      simp only [← mem_lateRequests] at hnot
      exact Waiters.receivers_notifyLate_of_not hnot
    next := by
      change (s.expired now).waiters.next = _
      rw [waiters_expired, Waiters.next_notifyLate]
    keys := by
      change (s.expired now).keys = _
      rw [expired_eq]
    config := by
      change (s.expired now).config = _
      rw [expired_eq]
    again := by
      refine sweep_eq_self (fun r hr => ?_) fun id v hv => ?_
      · obtain ⟨id, hget, hlate⟩ := hr
        rw [((hpending id r).1 hget).2] at hlate
        cases hlate
      · exact (get?_purge.1 hv).2 }

/-- A request that may be answered up to some second. -/
def openUntil (n : UInt8) (seconds : Int) : PresentationRequest :=
  { (default : PresentationRequest) with id := ⟨[n]⟩, expiresAt := ⟨seconds, 0⟩ }

-- A request that is a second too late, one that is just in time, and a verdict of two days ago.
example (ps : ProofSystem) :
    let s : Service := {
      requests := ((∅ : Store _ _).insert ⟨[1]⟩ (openUntil 1 99)).insert ⟨[2]⟩ (openUntil 2 100)
      verdicts := (∅ : Store _ _).insert ⟨[3]⟩ (.expiring (openUntil 3 0) ⟨-172800, 0⟩) }
    (s.sweep ps ⟨100, 0⟩).1 = (1, 1) := by
  intro s
  rw [sweep_eq]
  decide

end Service
end PrivatePresentation
