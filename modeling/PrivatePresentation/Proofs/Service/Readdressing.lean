import PrivatePresentation.Proofs.Service.Interleaving

/-!
Callbacks changed throughout.  No step of an operation looks at a callback, so it makes no difference
whether callbacks are changed in what is ordered or in what has come of it.  The change may depend on the
identifier of the request that the callback belongs to.
-/

namespace PrivatePresentation

/-- A change of callbacks, for the request of each identifier. -/
abbrev Readdressing := RequestId → Option Callback → Option Callback

namespace Store

variable {K V W : Type}

/-- A store with all its values changed. -/
def map (g : V → W) (s : Store K V) : Store K W where
  entries := s.entries.map fun e => (e.1, g e.2)
  nodup := by
    rw [List.map_map]
    exact s.nodup

theorem ext {s s' : Store K V} (h : s.entries = s'.entries) : s = s' := by
  cases s
  cases s'
  exact (Store.mk.injEq _ _ _ _).mpr h

variable (g : V → W) (s : Store K V)

theorem keep_map (p : K × W → Bool) :
    (s.map g).keep p = (s.keep fun e => p (e.1, g e.2)).map g :=
  ext List.filter_map

theorem drain_map (p : W → Bool) :
    (s.map g).drain p =
      ((s.drain fun v => p (g v)).1.map g, (s.drain fun v => p (g v)).2.map g) := by
  refine Prod.ext ?_ (keep_map g s _)
  simp only [drain, map, List.filter_map, List.map_map]
  rfl

theorem map_map {X : Type} (h : W → X) : (s.map g).map h = s.map fun v => h (g v) :=
  ext List.map_map

theorem size_map : (s.map g).size = s.size := List.length_map _

variable [DecidableEq K] (key : K)

theorem get?_map : (s.map g).get? key = (s.get? key).map g := by
  simp only [get?, map, List.find?_map, Option.map_map]
  rfl

theorem erase_map : (s.map g).erase key = (s.erase key).map g := keep_map g s _

theorem insert_map (value : V) : (s.map g).insert key (g value) = (s.insert key value).map g :=
  ext (congrArg ((key, g value) :: ·) (congrArg entries (erase_map g s key)))

end Store

/-- The request with its callback changed. -/
def PresentationRequest.readdressed (f : Readdressing) (r : PresentationRequest) :
    PresentationRequest :=
  { r with callback := f r.id r.callback }

/-- What is handed over, with the callback of its request changed. -/
def Delivery.readdressed (f : Readdressing) (d : Delivery) : Delivery :=
  ⟨d.request.readdressed f, d.verdict⟩

/-- The order of a request with an identifier, with its callback changed. -/
def PresentationOrder.readdressed (f : Readdressing) (id : RequestId) (order : PresentationOrder) :
    PresentationOrder :=
  { order with callback := f id order.callback }

/-- The answer with the callback of its request changed. -/
def Answer.readdressed (f : Readdressing) : Answer → Answer
  | .created r => .created (r.readdressed f)
  | .accepted r => .accepted (r.readdressed f)
  | answer => answer

/-- The task with the callbacks of its order and of its requests changed. -/
def Task.readdressed (f : Readdressing) : Task → Task
  | .create order now fresh => .create (order.readdressed f fresh.id) now fresh
  | .save r => .save (r.readdressed f)
  | .check r sub now => .check (r.readdressed f) sub now
  | .settle stage r v next => .settle stage (r.readdressed f) v (next.readdressed f)
  | .expire id now next => .expire id now (next.readdressed f)
  | .done answer => .done (answer.readdressed f)
  | t => t

/-- The call with the callback of its order changed. -/
def Call.readdressed (f : Readdressing) : Call → Call
  | .create order now fresh => .create (order.readdressed f fresh.id) now fresh
  | c => c

/-- The operation with all callbacks changed. -/
def Operation.readdressed (f : Readdressing) (o : Operation) : Operation where
  call := o.call.readdressed f
  rest := o.rest.readdressed f
  taken := o.taken.map (·.readdressed f)
  recorded := o.recorded.map (·.readdressed f)

namespace Service

variable (f : Readdressing)

/-- The service with the callbacks of its requests and of its deliveries changed. -/
def readdressed (s : Service) : Service :=
  { s with
    requests := s.requests.map (·.readdressed f)
    outbox := s.outbox.map (·.readdressed f) }

theorem ensureKeys_readdressed (ps : ProofSystem) (s : Service) (schema : Schema)
    (t : Groth16.Trapdoor) :
    ensureKeys ps (s.readdressed f) schema t =
      ((ensureKeys ps s schema t).1, (ensureKeys ps s schema t).2.readdressed f) := by
  have hkeys : (s.readdressed f).keys = s.keys := rfl
  rw [ensureKeys, ensureKeys, hkeys]
  cases s.keys.get? schema.hash with
  | some keys => rfl
  | none => cases makeKeys ps schema t <;> rfl

theorem prepare_readdressed (config : ProtocolConfig) (schema : Schema) (keys : SchemaKeys)
    (order : PresentationOrder) (now : Timestamp) (fresh : Fresh) :
    prepare config schema keys (order.readdressed f fresh.id) now fresh =
      (prepare config schema keys order now fresh).map (·.readdressed f) := by
  unfold prepare PresentationOrder.readdressed
  dsimp only
  cases checkPinned (pinnedInputs config schema order.publicInputs fresh.nonce now.date)
    keys.circuit.layout.publicFields <;> rfl

theorem prepareWithKeys_readdressed (ps : ProofSystem) (s : Service) (order : PresentationOrder)
    (now : Timestamp) (fresh : Fresh) :
    prepareWithKeys ps (s.readdressed f) (order.readdressed f fresh.id) now fresh =
      ((prepareWithKeys ps s order now fresh).1.map (·.readdressed f),
        (prepareWithKeys ps s order now fresh).2.readdressed f) := by
  have hschema : orderedSchema (order.readdressed f fresh.id) = orderedSchema order := rfl
  rw [prepareWithKeys, prepareWithKeys, hschema]
  cases orderedSchema order with
  | error e => rfl
  | ok schema =>
      dsimp only
      rw [ensureKeys_readdressed]
      rcases ensureKeys ps s schema fresh.trapdoor with ⟨_ | keys, s'⟩
      · rfl
      · dsimp only
        rw [← prepare_readdressed]
        rfl

theorem check_readdressed (ps : ProofSystem) (keys? : Option SchemaKeys) (r : PresentationRequest)
    (sub : Submission) (now : Timestamp) :
    check ps keys? (r.readdressed f) sub now = check ps keys? r sub now :=
  rfl

theorem verdictOf_readdressed (r : PresentationRequest) (now : Timestamp)
    (outcome : Except VerificationError Unit) :
    verdictOf (r.readdressed f) now outcome = verdictOf r now outcome := by
  cases outcome <;> rfl

theorem pending_readdressed (s : Service) (id : RequestId) (now : Timestamp) :
    (s.readdressed f).pending id now = (s.pending id now).map (·.readdressed f) := by
  unfold pending
  rw [readdressed, Store.get?_map]
  cases s.requests.get? id with
  | none => rfl
  | some r =>
      change (if r.isExpired now then _ else _) = _
      dsimp only
      split <;> rfl

end Service

namespace Task

variable (f : Readdressing)

theorem settleExpired_readdressed (now : Timestamp) (held : List PresentationRequest) (next : Task) :
    (settleExpired now held next).readdressed f =
      settleExpired now (held.map (·.readdressed f)) (next.readdressed f) := by
  induction held with
  | nil => rfl
  | cons r rest ih => exact congrArg (Task.settle .record (r.readdressed f) _) ih

theorem timeOut_readdressed (t : Task) : (t.readdressed f).timeOut = t.timeOut.readdressed f := by
  cases t <;> rfl

section Step

variable (ps : ProofSystem) (s : Service) (now : Timestamp)

theorem step_submit_readdressed (sub : Submission) :
    (submit sub now).step ps (s.readdressed f) = (((submit sub now).step ps s).1.readdressed f,
      ((submit sub now).step ps s).2.readdressed f) := by
  rw [step, step]
  cases Service.malformed? sub with
  | some e => rfl
  | none =>
      cases (RequestId.parseTrimmed sub.requestId).toOption with
      | none => rfl
      | some id =>
          simp only [Option.map_some, Store.take, Service.readdressed, Store.get?_map,
            Store.erase_map]
          cases s.requests.get? id <;> rfl

theorem step_check_readdressed (r : PresentationRequest) (sub : Submission) :
    (check (r.readdressed f) sub now).step ps (s.readdressed f) =
      (((check r sub now).step ps s).1.readdressed f,
        ((check r sub now).step ps s).2.readdressed f) := by
  have hkeys : (s.readdressed f).keys.get? (r.readdressed f).schemaHash =
      s.keys.get? r.schemaHash := rfl
  rw [step, step, hkeys, Service.check_readdressed]
  generalize Service.check ps (s.keys.get? r.schemaHash) r sub now = outcome
  dsimp only
  rw [Service.verdictOf_readdressed]
  cases outcome with
  | ok _ => rfl
  | error e => cases e <;> rfl

theorem step_status_readdressed (id : RequestId) (forResult : Bool) :
    (status id now forResult).step ps (s.readdressed f) =
      (((status id now forResult).step ps s).1.readdressed f,
        ((status id now forResult).step ps s).2.readdressed f) := by
  rw [step, step, Service.readdressed, Store.get?_map]
  cases s.requests.get? id with
  | none => cases forResult <;> rfl
  | some r =>
      change (if r.isExpired now then _ else _) = _
      dsimp only
      split <;> cases forResult <;> rfl

theorem step_sweep_readdressed :
    (sweep now).step ps (s.readdressed f) =
      (((sweep now).step ps s).1.readdressed f, ((sweep now).step ps s).2.readdressed f) := by
  rw [step, step]
  refine Prod.ext ?_ ?_
  · simp only [Service.readdressed, Store.drain_map, settleExpired_readdressed, List.length_map]
    rfl
  · simp only [Service.readdressed, Store.drain_map]
    rfl

end Step

/-- A step does with changed callbacks what it does with the others. -/
theorem step_readdressed (ps : ProofSystem) (s : Service) (t : Task) :
    (t.readdressed f).step ps (s.readdressed f) =
      ((t.step ps s).1.readdressed f, (t.step ps s).2.readdressed f) := by
  have hverdicts : (s.readdressed f).verdicts = s.verdicts := rfl
  cases t with
  | create order now fresh =>
      rw [readdressed, step, Service.prepareWithKeys_readdressed, step]
      rcases Service.prepareWithKeys ps s order now fresh with ⟨_ | r, s'⟩ <;> rfl
  | save r =>
      refine Prod.ext rfl ?_
      simp only [readdressed, step, Service.save, Service.counted, Service.readdressed,
        PresentationRequest.readdressed, ← Store.insert_map]
  | submit sub now => exact step_submit_readdressed f ps s now sub
  | check r sub now => exact step_check_readdressed f ps s now r sub
  | settle stage r v next =>
      cases stage with
      | record => rfl
      | notify => rfl
      | deliver =>
          refine Prod.ext rfl ?_
          simp only [readdressed, step, Service.deliver, Service.counted, Service.readdressed,
            List.map_append, List.map_cons, List.map_nil, Delivery.readdressed]
  | status id now forResult => exact step_status_readdressed f ps s now id forResult
  | expire id now next =>
      rw [readdressed, step, step]
      simp only [Store.take, Service.readdressed, Store.get?_map, Store.erase_map]
      cases s.requests.get? id <;> rfl
  | sweep now => exact step_sweep_readdressed f ps s now
  | result id now =>
      change (result id now).step ps (s.readdressed f) = _
      rw [step, step, hverdicts]
      cases s.verdicts.get? id <;> rfl
  | resultOfExpired id =>
      change (resultOfExpired id).step ps (s.readdressed f) = _
      rw [step, step, hverdicts]
      cases s.verdicts.get? id <;> rfl
  | wait id =>
      change (wait id).step ps (s.readdressed f) = _
      rw [step, step, hverdicts]
      cases s.verdicts.get? id <;> rfl
  | register id => rfl
  | recheck id token =>
      change (recheck id token).step ps (s.readdressed f) = _
      rw [step, step, hverdicts]
      cases s.verdicts.get? id <;> rfl
  | parked id token =>
      have hwaiters : (s.readdressed f).waiters = s.waiters := rfl
      change (parked id token).step ps (s.readdressed f) = _
      rw [step, step, hverdicts, hwaiters]
      rcases s.waiters.receive token with ⟨_ | v | _, waiters⟩
      · rfl
      · rfl
      · cases s.verdicts.get? id <;> rfl
  | cancel id token outcome => rfl
  | done answer => rfl

theorem answer?_readdressed (t : Task) :
    (t.readdressed f).answer? = t.answer?.map (·.readdressed f) := by
  cases t <;> rfl

end Task

/-- What a step does to the stores, with all callbacks changed. -/
def Effect.readdressed (f : Readdressing) (e : Effect) : Effect where
  saved := e.saved.map (·.readdressed f)
  taken := e.taken.map (·.readdressed f)
  recorded := e.recorded.map (·.readdressed f)
  delivered := e.delivered.map (·.readdressed f)

theorem Task.effect_readdressed (f : Readdressing) (s : Service) (t : Task) :
    (t.readdressed f).effect (s.readdressed f) = (t.effect s).readdressed f := by
  cases t with
  | submit sub now =>
      change (submit sub now).effect (s.readdressed f) = _
      rw [effect, effect]
      cases Service.malformed? sub with
      | some e => rfl
      | none =>
          cases (RequestId.parseTrimmed sub.requestId).toOption with
          | none => rfl
          | some id =>
              dsimp only [Option.bind_some]
              rw [Service.readdressed, Store.get?_map]
              cases s.requests.get? id <;> rfl
  | expire id now next =>
      rw [readdressed, effect, effect, Service.readdressed, Store.get?_map]
      cases s.requests.get? id <;> rfl
  | sweep now =>
      change (sweep now).effect (s.readdressed f) = _
      simp only [effect, Service.readdressed, Store.drain_map]
      rfl
  | settle stage r v next => cases stage <;> rfl
  | _ => rfl

namespace Operation

variable (f : Readdressing)

theorem start_readdressed (c : Call) : start (c.readdressed f) = (start c).readdressed f := by
  cases c <;> rfl

theorem advance_readdressed (ps : ProofSystem) (s : Service) (o : Operation) :
    (o.readdressed f).advance ps (s.readdressed f) = (o.advance ps s).readdressed f := by
  obtain ⟨c, t, taken, recorded⟩ := o
  rw [advance, advance, readdressed, readdressed, Task.step_readdressed, Task.effect_readdressed,
    List.map_append, List.map_append]
  rfl

theorem timeOut_readdressed (o : Operation) :
    { o.readdressed f with rest := (o.readdressed f).rest.timeOut } =
      readdressed f { o with rest := o.rest.timeOut } := by
  rw [readdressed, readdressed, Task.timeOut_readdressed]

end Operation
end PrivatePresentation
