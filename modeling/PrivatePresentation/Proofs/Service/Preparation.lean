import PrivatePresentation.Proofs.Outcome
import PrivatePresentation.Proofs.Service.Store
import PrivatePresentation.Service.State

/-!
How a request is prepared.  The keys for its schema are there or are made for it.  Whatever comes of that,
nothing of the service is touched but the keys and the counters, and no keys are taken away.
-/

namespace PrivatePresentation.Service

/-- The stores of requests and of verdicts, and the outbox, are the same. -/
structure SameStores (s s' : Service) : Prop where
  requests : s'.requests = s.requests
  verdicts : s'.verdicts = s.verdicts
  outbox : s'.outbox = s.outbox

theorem SameStores.refl (s : Service) : s.SameStores s := ⟨rfl, rfl, rfl⟩

/-- Everything but the keys and the counters is the same. -/
structure SameButKeys (s s' : Service) : Prop extends SameStores s s' where
  config : s'.config = s.config
  waiters : s'.waiters = s.waiters

theorem SameButKeys.refl (s : Service) : s.SameButKeys s := ⟨.refl s, rfl, rfl⟩

/-- How the keys of a schema are provided: they are there, or they are made now. -/
inductive Provides (ps : ProofSystem) (s : Service) (schema : Schema) (t : Groth16.Trapdoor) :
    Except ProtocolError SchemaKeys → Service → Prop where
  | kept {keys : SchemaKeys} (hget : s.keys.get? schema.hash = some keys) :
      Provides ps s schema t (.ok keys) s
  | made {keys : SchemaKeys} (hnone : s.keys.get? schema.hash = none)
      (hmake : makeKeys ps schema t = .ok keys) :
      Provides ps s schema t (.ok keys)
        ({ s with keys := s.keys.insert schema.hash keys }.counted .setup)
  | failed {e : ProtocolError} (hnone : s.keys.get? schema.hash = none)
      (hmake : makeKeys ps schema t = .error e) : Provides ps s schema t (.error e) s

/-- How a request is prepared: with the keys of its schema, unless there is no such schema or there are no
keys for it. -/
inductive Prepares (ps : ProofSystem) (s : Service) (order : PresentationOrder) (now : Timestamp)
    (fresh : Fresh) : Except ProtocolError PresentationRequest → Service → Prop where
  | unread {e : ProtocolError} (hschema : orderedSchema order = .error e) :
      Prepares ps s order now fresh (.error e) s
  | unprovided {schema : Schema} {e : ProtocolError} {s' : Service}
      (hschema : orderedSchema order = .ok schema)
      (hkeys : Provides ps s schema fresh.trapdoor (.error e) s') :
      Prepares ps s order now fresh (.error e) s'
  | prepared {schema : Schema} {keys : SchemaKeys} {s' : Service}
      {outcome : Except ProtocolError PresentationRequest}
      (hschema : orderedSchema order = .ok schema)
      (hkeys : Provides ps s schema fresh.trapdoor (.ok keys) s')
      (hprepare : prepare s'.config schema keys order now fresh = outcome) :
      Prepares ps s order now fresh outcome s'

variable {ps : ProofSystem} {s s' : Service} {schema : Schema} {t : Groth16.Trapdoor}
variable {order : PresentationOrder} {now : Timestamp} {fresh : Fresh} {r : PresentationRequest}

theorem ensureKeys_provides (ps : ProofSystem) (s : Service) (schema : Schema)
    (t : Groth16.Trapdoor) :
    s.Provides ps schema t (ensureKeys ps s schema t).1 (ensureKeys ps s schema t).2 := by
  unfold ensureKeys
  cases hget : s.keys.get? schema.hash with
  | some keys => exact .kept hget
  | none =>
      cases hmake : makeKeys ps schema t with
      | ok keys => exact .made hget hmake
      | error e => exact .failed hget hmake

theorem prepareWithKeys_prepares (ps : ProofSystem) (s : Service) (order : PresentationOrder)
    (now : Timestamp) (fresh : Fresh) :
    s.Prepares ps order now fresh (s.prepareWithKeys ps order now fresh).1
      (s.prepareWithKeys ps order now fresh).2 := by
  unfold prepareWithKeys
  cases hschema : orderedSchema order with
  | error e => exact .unread hschema
  | ok schema =>
      have hkeys := ensureKeys_provides ps s schema fresh.trapdoor
      dsimp only
      generalize ensureKeys ps s schema fresh.trapdoor = provided at hkeys ⊢
      obtain ⟨outcome, s'⟩ := provided
      cases outcome with
      | error e => exact .unprovided hschema hkeys
      | ok keys => exact .prepared hschema hkeys rfl

section Provides

variable {outcome : Except ProtocolError SchemaKeys} {hash : ContentDigest} {keys : SchemaKeys}

theorem Provides.same (h : s.Provides ps schema t outcome s') : s.SameButKeys s' := by
  cases h with
  | kept hget => exact .refl s
  | made hnone hmake => exact ⟨⟨rfl, rfl, rfl⟩, rfl, rfl⟩
  | failed hnone hmake => exact .refl s

/-- Keys that are there stay there, the same. -/
theorem Provides.get?_kept (h : s.Provides ps schema t outcome s')
    (hget : s.keys.get? hash = some keys) : s'.keys.get? hash = some keys := by
  cases h with
  | kept _ => exact hget
  | failed _ _ => exact hget
  | @made keys' hnone hmake =>
      change (s.keys.insert schema.hash keys').get? hash = some keys
      rw [Store.get?_insert, if_neg, hget]
      rintro rfl
      cases hnone.symm.trans hget

/-- Keys that are provided are there. -/
theorem Provides.get?_keys (h : s.Provides ps schema t (.ok keys) s') :
    s'.keys.get? schema.hash = some keys := by
  cases h with
  | kept hget => exact hget
  | made hnone hmake =>
      change (s.keys.insert schema.hash keys).get? schema.hash = some keys
      rw [Store.get?_insert, if_pos rfl]

end Provides

section Prepares

variable {outcome : Except ProtocolError PresentationRequest} {hash : ContentDigest}
variable {keys : SchemaKeys}

theorem Prepares.same (h : s.Prepares ps order now fresh outcome s') : s.SameButKeys s' := by
  cases h with
  | unread hschema => exact .refl s
  | unprovided hschema hkeys => exact hkeys.same
  | prepared hschema hkeys hprepare => exact hkeys.same

theorem Prepares.get?_kept (h : s.Prepares ps order now fresh outcome s')
    (hget : s.keys.get? hash = some keys) : s'.keys.get? hash = some keys := by
  cases h with
  | unread hschema => exact hget
  | unprovided hschema hkeys => exact hkeys.get?_kept hget
  | prepared hschema hkeys hprepare => exact hkeys.get?_kept hget

/-- A request has the identifier that was drawn for it. -/
theorem Prepares.id (h : s.Prepares ps order now fresh (.ok r) s') : r.id = fresh.id := by
  cases h with
  | prepared hschema hkeys hprepare =>
      obtain ⟨-, -, hprepare⟩ := Outcome.of_bind hprepare
      obtain rfl := Except.ok.inj hprepare
      rfl

end Prepares

end PrivatePresentation.Service
