import PrivatePresentation.Proofs.Service.Perform

/-!
Where keys and requests come from.  A service begins with nothing, and whatever it keeps later has been
made for a schema that was used: the keys by one setup for that schema, a request with keys for it.  What
is ordered and what is drawn is the same for the whole of a run, and all that is taken for granted of it
is said once.
-/

namespace PrivatePresentation

/-- What a service is used for: the schemas, and the secrets that are drawn for setups. -/
structure Usage where
  schemas : Schema → Prop
  secrets : Groth16.Trapdoor → Prop

namespace Usage

/-- The schemas have been read from documents, and no two of them have the same hash. -/
structure Sound (u : Usage) : Prop where
  read : ∀ s, u.schemas s → ∃ document, Schema.parseBytes document = .ok s
  hashed : ∀ s s', u.schemas s → u.schemas s' → s.hash = s'.hash → s.canonical = s'.canonical

/-- The order is for a schema that is used and has its inputs in order; the identifier and the nonce
that are drawn for it are of sixteen bytes and written as such, and so is the secret as usual. -/
structure Orders (u : Usage) (order : PresentationOrder) (fresh : Fresh) : Prop where
  schema : ∀ s, Service.orderedSchema order = .ok s → u.schemas s
  inputs : order.publicInputs.Ascending
  id : fresh.id.bytes.length = 16
  nonce : ∃ id : RequestId, id.bytes.length = 16 ∧ fresh.nonce.text = id.text
  secret : u.secrets fresh.trapdoor

/-- The call is within the usage. -/
def Allows (u : Usage) (c : Call) : Prop :=
  ∀ order now fresh, c = .create order now fresh → u.Orders order fresh

variable {u : Usage} {s s' : Schema}

/-- Nothing is taken for granted if all schemas have been read from one text. -/
theorem sound_of_text {text : String} (h : ∀ s, u.schemas s → Schema.parse text = .ok s) :
    u.Sound where
  read s hs := ⟨_, h s hs⟩
  hashed s s' hs hs' _ := by
    obtain rfl := Except.ok.inj ((h s hs).symm.trans (h s' hs'))
    rfl

/-- Schemas that are used are the same if their hashes are. -/
theorem Sound.eq_of_hash (hu : u.Sound) (hs : u.schemas s) (hs' : u.schemas s')
    (hhash : s.hash = s'.hash) : s = s' := by
  obtain ⟨document, hread⟩ := hu.read s hs
  obtain ⟨document', hread'⟩ := hu.read s' hs'
  have hparse := Schema.parse_canonical hread
  rw [hu.hashed s s' hs hs' hhash, Schema.parse_canonical hread'] at hparse
  exact (Except.ok.inj hparse).symm

end Usage

/-- Keys that have been made for a schema that is used. -/
structure SchemaKeys.Made (ps : ProofSystem) (u : Usage) (keys : SchemaKeys) : Prop where
  used : u.schemas keys.schema
  made : ∃ t, u.secrets t ∧ Service.makeKeys ps keys.schema t = .ok keys

theorem SchemaKeys.Made.of_makeKeys {ps : ProofSystem} {u : Usage} {schema : Schema}
    {keys : SchemaKeys} {t : Groth16.Trapdoor} (hschema : u.schemas schema) (ht : u.secrets t)
    (hmake : Service.makeKeys ps schema t = .ok keys) : keys.Made ps u := by
  obtain rfl := (Service.makeKeys_spec hmake).1
  exact ⟨hschema, t, ht, hmake⟩

/-- A request that has been prepared for a schema that is used, with keys that have been made for a
schema of the same hash. -/
def PresentationRequest.Made (ps : ProofSystem) (u : Usage) (r : PresentationRequest) : Prop :=
  ∃ order now fresh config schema keys, u.Orders order fresh ∧
    Service.orderedSchema order = .ok schema ∧ keys.Made ps u ∧ keys.schema.hash = schema.hash ∧
    Service.prepare config schema keys order now fresh = .ok r

/-- Whatever a task may still order is within the usage, and the request it is about to keep or to check
has been made. -/
def Task.Within (ps : ProofSystem) (u : Usage) : Task → Prop
  | .create order _ fresh => u.Orders order fresh
  | .save r => r.Made ps u
  | .check r _ _ => r.Made ps u
  | .settle _ _ _ next => next.Within ps u
  | .expire _ _ next => next.Within ps u
  | _ => True

namespace Service

/-- All keys stand under the hash of the schema that they were made for, and all requests have been made. -/
structure Provided (ps : ProofSystem) (u : Usage) (s : Service) : Prop where
  keys : ∀ e ∈ s.keys.entries, e.2.schema.hash = e.1 ∧ e.2.Made ps u
  requests : ∀ e ∈ s.requests.entries, e.2.Made ps u

variable {ps : ProofSystem} {u : Usage} {s s' : Service}

section Prepares

variable {schema : Schema} {t : Groth16.Trapdoor} {order : PresentationOrder} {now : Timestamp}
variable {fresh : Fresh}

theorem Provides.provided {outcome : Except ProtocolError SchemaKeys}
    (h : s.Provides ps schema t outcome s') (hs : s.Provided ps u) (hschema : u.schemas schema)
    (ht : u.secrets t) : s'.Provided ps u := by
  cases h with
  | kept hget => exact hs
  | failed hnone hmake => exact hs
  | made hnone hmake =>
      refine ⟨fun e he => ?_, hs.requests⟩
      rcases List.mem_cons.1 he with rfl | he
      · exact ⟨congrArg Schema.hash (makeKeys_spec hmake).1, .of_makeKeys hschema ht hmake⟩
      · exact hs.keys e (List.filter_sublist.subset he)

/-- Keys that are provided have been made, now or before, for a schema of the same hash. -/
theorem Provides.made_keys {keys : SchemaKeys} (h : s.Provides ps schema t (.ok keys) s')
    (hs : s.Provided ps u) (hschema : u.schemas schema) (ht : u.secrets t) :
    keys.schema.hash = schema.hash ∧ keys.Made ps u := by
  cases h with
  | kept hget => exact hs.keys _ (Store.get?_eq_some_iff.1 hget)
  | made hnone hmake =>
      exact ⟨congrArg Schema.hash (makeKeys_spec hmake).1, .of_makeKeys hschema ht hmake⟩

theorem Prepares.provided {outcome : Except ProtocolError PresentationRequest}
    (h : s.Prepares ps order now fresh outcome s') (hs : s.Provided ps u)
    (horder : u.Orders order fresh) : s'.Provided ps u := by
  cases h with
  | unread hschema => exact hs
  | unprovided hschema hkeys => exact hkeys.provided hs (horder.schema _ hschema) horder.secret
  | prepared hschema hkeys hprepare =>
      exact hkeys.provided hs (horder.schema _ hschema) horder.secret

/-- A request that is prepared has been made, and the keys that it was made with are there. -/
theorem Prepares.made_request {r : PresentationRequest}
    (h : s.Prepares ps order now fresh (.ok r) s') (hs : s.Provided ps u)
    (horder : u.Orders order fresh) :
    r.Made ps u ∧ ∃ keys, s'.keys.get? r.schemaHash = some keys := by
  cases h with
  | @prepared schema keys s' _ hschema hkeys hprepare =>
      obtain ⟨hhash, hmade⟩ := hkeys.made_keys hs (horder.schema _ hschema) horder.secret
      refine ⟨⟨order, now, fresh, s'.config, schema, keys, horder, hschema, hmade, hhash, hprepare⟩,
        keys, ?_⟩
      obtain ⟨-, -, hprepare⟩ := Outcome.of_bind hprepare
      obtain rfl := Except.ok.inj hprepare
      change s'.keys.get? keys.schema.hash = some keys
      rw [hhash]
      exact hkeys.get?_keys

end Prepares

end Service

namespace Task

variable {ps : ProofSystem} {u : Usage} {s : Service}

theorem within_settleExpired (now : Timestamp) (taken : List PresentationRequest) {next : Task}
    (hnext : next.Within ps u) : (settleExpired now taken next).Within ps u := by
  induction taken with
  | nil => exact hnext
  | cons r rest ih => exact ih

theorem within_timeOut {t : Task} (ht : t.Within ps u) : t.timeOut.Within ps u := by
  cases t with
  | parked id token => exact trivial
  | _ => exact ht

/-- A step keeps nothing that has not been made. -/
theorem Moves.provided {s' : Service} {t t' : Task} {e : Effect} (h : t.Moves ps s e t' s')
    (hs : s.Provided ps u) (ht : t.Within ps u) : s'.Provided ps u ∧ t'.Within ps u := by
  cases h with
  | prepares hprepares => exact ⟨hprepares.provided hs ht, (hprepares.made_request hs ht).1⟩
  | refuses hprepares => exact ⟨hprepares.provided hs ht, trivial⟩
  | saves =>
      refine ⟨⟨hs.keys, fun e he => ?_⟩, trivial⟩
      rcases List.mem_cons.1 he with rfl | he
      · exact ht
      · exact hs.requests e (List.filter_sublist.subset he)
  | takes hwell hid hget =>
      refine ⟨⟨hs.keys, fun e he => hs.requests e (List.filter_sublist.subset he)⟩, ?_⟩
      exact hs.requests _ (Store.get?_eq_some_iff.1 hget)
  | evicts hcheck =>
      exact ⟨⟨fun e he => hs.keys e (List.filter_sublist.subset he), hs.requests⟩, trivial⟩
  | @late id now forResult r hget hlate => cases forResult <;> exact ⟨hs, trivial⟩
  | expires hget =>
      exact ⟨⟨hs.keys, fun e he => hs.requests e (List.filter_sublist.subset he)⟩,
        within_settleExpired _ _ ht⟩
  | overtaken hnone => exact ⟨hs, ht⟩
  | sweeps =>
      exact ⟨⟨hs.keys, fun e he => hs.requests e (List.filter_sublist.subset he)⟩,
        within_settleExpired _ _ trivial⟩
  | records => exact ⟨⟨hs.keys, hs.requests⟩, ht⟩
  | notifies => exact ⟨⟨hs.keys, hs.requests⟩, ht⟩
  | delivers => exact ⟨⟨hs.keys, hs.requests⟩, ht⟩
  | _ => exact ⟨⟨hs.keys, hs.requests⟩, trivial⟩

end Task

namespace World

/-- One step of the whole, or one that is not for a request: keys are provided ahead of any request, or
verdicts that are old enough are forgotten. -/
inductive Move (ps : ProofSystem) (u : Usage) : World → World → Prop where
  | step {w w' : World} (hstep : Step ps w w') (hcalls : ∀ o ∈ w'.operations, u.Allows o.call) :
      Move ps u w w'
  | provide {s : Service} {operations : List Operation} {schema : Schema} {t : Groth16.Trapdoor}
      (hschema : u.schemas schema) (ht : u.secrets t) :
      Move ps u ⟨s, operations⟩ ⟨(Service.ensureKeys ps s schema t).2, operations⟩
  | purge {s : Service} {operations : List Operation} (now : Timestamp) :
      Move ps u ⟨s, operations⟩ ⟨(s.purge now).2, operations⟩

/-- What moves lead to from a service with nothing in it. -/
def Served (ps : ProofSystem) (u : Usage) (w : World) : Prop :=
  ∃ config, Relation.ReflTransGen (Move ps u) ⟨{ config := config }, []⟩ w

variable {ps : ProofSystem} {u : Usage} {w w' : World}

theorem Served.move (hw : w.Served ps u) (hmove : Move ps u w w') : w'.Served ps u := by
  obtain ⟨config, hmoves⟩ := hw
  exact ⟨config, hmoves.tail hmove⟩

/-- What holds of a service with nothing in it, and stays so with every move, holds wherever moves lead. -/
theorem Served.induct {motive : (w : World) → w.Served ps u → Prop}
    (start : ∀ config : ProtocolConfig, motive ⟨{ config := config }, []⟩ ⟨config, .refl⟩)
    (move : ∀ w w' (hw : w.Served ps u) (hmove : Move ps u w w'), motive w hw →
      motive w' (hw.move hmove)) (hw : w.Served ps u) : motive w hw := by
  obtain ⟨config, hmoves⟩ := hw
  induction hmoves with
  | refl => exact start config
  | tail hbefore hmove ih => exact move _ _ ⟨config, hbefore⟩ hmove ih

/-- A step leaves the calls of the operations that are there. -/
theorem Step.forall_calls (hstep : Step ps w w') {p : Call → Prop}
    (h : ∀ o ∈ w'.operations, p o.call) : ∀ o ∈ w.operations, p o.call := by
  cases hstep with
  | call c hfresh => exact (List.forall_mem_cons.1 h).2
  | advance o =>
      obtain ⟨hbefore, ho, hafter⟩ := forall_mem_operations.1 h
      exact forall_mem_operations.2 ⟨hbefore, ho, hafter⟩
  | timeOut o =>
      obtain ⟨hbefore, ho, hafter⟩ := forall_mem_operations.1 h
      exact forall_mem_operations.2 ⟨hbefore, ho, hafter⟩

/-- Steps from a service with nothing in it are moves, if all their calls are within the usage. -/
theorem served_of_steps {config : ProtocolConfig}
    (hsteps : Relation.ReflTransGen (Step ps) ⟨{ config := config }, []⟩ w)
    (hcalls : ∀ o ∈ w.operations, u.Allows o.call) : w.Served ps u := by
  refine ⟨config, ?_⟩
  induction hsteps with
  | refl => exact .refl
  | tail _ hstep ih => exact .tail (ih (hstep.forall_calls hcalls)) (.step hstep hcalls)

/-- Whatever is kept has been made, and nothing else is on its way. -/
theorem Served.provided (hw : w.Served ps u) :
    w.service.Provided ps u ∧ ∀ o ∈ w.operations, o.rest.Within ps u := by
  induction hw using Served.induct with
  | start config =>
      refine ⟨⟨fun e he => ?_, fun e he => ?_⟩, fun o ho => absurd ho List.not_mem_nil⟩
      · exact absurd he List.not_mem_nil
      · exact absurd he List.not_mem_nil
  | move w w' hw hmove ih =>
      obtain ⟨hservice, hwithin⟩ := ih
      cases hmove with
      | provide hschema ht =>
          exact ⟨(Service.ensureKeys_provides ps _ _ _).provided hservice hschema ht, hwithin⟩
      | purge now => exact ⟨⟨hservice.keys, hservice.requests⟩, hwithin⟩
      | step hstep hcalls =>
          cases hstep with
          | call c hfresh =>
              refine ⟨hservice, List.forall_mem_cons.2 ⟨?_, hwithin⟩⟩
              have hallowed := hcalls _ List.mem_cons_self
              cases c with
              | create order now fresh => exact hallowed order now fresh rfl
              | _ => exact trivial
          | advance o =>
              obtain ⟨hbefore, ho, hafter⟩ := forall_mem_operations.1 hwithin
              obtain ⟨hservice', ho'⟩ := (o.rest.step_moves ps _).provided hservice ho
              exact ⟨hservice', forall_mem_operations.2 ⟨hbefore, ho', hafter⟩⟩
          | timeOut o =>
              obtain ⟨hbefore, ho, hafter⟩ := forall_mem_operations.1 hwithin
              exact ⟨hservice, forall_mem_operations.2 ⟨hbefore, Task.within_timeOut ho, hafter⟩⟩

end World
end PrivatePresentation
