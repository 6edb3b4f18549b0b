import PrivatePresentation.Proofs.Service.Provision
import PrivatePresentation.Service.KeyTask

/-!
One setup for each hash.  Any number of callers need keys at once; each of them looks twice, the second
time under the guard, and keeps what it has made before it lets go of the guard.  Whatever the order of
their steps, nobody makes keys that are there already, and nobody gets keys that were not kept.
-/

namespace PrivatePresentation

/-- A caller who needs the keys of a schema, with the secret that it would make them of. -/
structure KeyCaller where
  schema : Schema
  trapdoor : Groth16.Trapdoor
  rest : KeyTask

/-- What may happen next: somebody else needs keys, or one of the callers makes its next step. -/
inductive KeyTurn where
  | call (schema : Schema) (trapdoor : Groth16.Trapdoor)
  | advance (caller : Nat)

/-- What is shared, with all callers there have been, those that have ended included. -/
structure KeyWorld where
  room : KeyRoom := {}
  callers : List KeyCaller := []

namespace KeyTask

/-- The caller holds the guard. -/
def isInside : KeyTask → Bool
  | .lookAgain _ _ | .make _ _ | .leave _ => true
  | _ => false

/-- What a caller knows of the keys that are kept: nothing before it has looked; that those it is about
to make are not there; where those that it has got are, or why it could make none. -/
def Knows (ps : ProofSystem) (keys : Store ContentDigest SchemaKeys) (schema : Schema)
    (trapdoor : Groth16.Trapdoor) : KeyTask → Prop
  | .look s t | .enter s t | .lookAgain s t => s = schema ∧ t = trapdoor
  | .make s t => s = schema ∧ t = trapdoor ∧ keys.get? schema.hash = none
  | .leave outcome | .done outcome =>
    match outcome with
    | .ok k => keys.get? schema.hash = some k
    | .error e => Service.makeKeys ps schema trapdoor = .error e

end KeyTask

namespace KeyWorld

/-- The world after one more turn; nothing happens on the turn of a caller who cannot go on. -/
def turn (ps : ProofSystem) (w : KeyWorld) : KeyTurn → KeyWorld
  | .call schema trapdoor =>
    { w with callers := w.callers ++ [⟨schema, trapdoor, .look schema trapdoor⟩] }
  | .advance i =>
    match w.callers[i]? with
    | none => w
    | some c =>
      match c.rest.step? ps w.room with
      | none => w
      | some (rest, room) => ⟨room, w.callers.set i { c with rest := rest }⟩

/-- The world after some more turns. -/
def follow (ps : ProofSystem) (w : KeyWorld) (turns : List KeyTurn) : KeyWorld :=
  turns.foldl (turn ps) w

/-- What turns lead to from where there are neither keys nor callers. -/
def run (ps : ProofSystem) (turns : List KeyTurn) : KeyWorld := follow ps {} turns

/-- A newcomer needs keys and makes all its steps with nothing in between. -/
def alone (w : KeyWorld) (schema : Schema) (trapdoor : Groth16.Trapdoor) : List KeyTurn :=
  .call schema trapdoor :: List.replicate 5 (.advance w.callers.length)

/-- A caller has ended with an outcome; then some keys are kept, and the guard is free. -/
structure HasEnded (w : KeyWorld) (i : Nat) (schema : Schema) (trapdoor : Groth16.Trapdoor)
    (outcome : Except ProtocolError SchemaKeys) (keys : Store ContentDigest SchemaKeys) : Prop where
  caller : w.callers[i]? = some ⟨schema, trapdoor, .done outcome⟩
  keys : w.room.keys = keys
  free : w.room.isGuarded = false

/-- What it is to set up each hash once. -/
structure SetsUpOnce (ps : ProofSystem) (w : KeyWorld) : Prop where
  /-- No two setups have been for one hash. -/
  madeOnce : (w.room.made.map SchemaKeys.hash).Nodup
  /-- Whatever has been made has been inserted once, under its hash, and nothing else has. -/
  inserted : w.room.keys.entries = w.room.made.map fun k => (k.hash, k)
  /-- Whatever happens next, nothing that has been inserted is replaced. -/
  lasting : ∀ turns hash k, w.room.keys.get? hash = some k →
    (w.follow ps turns).room.keys.get? hash = some k
  /-- Whoever gets keys gets those that have been made for the hash of its schema. -/
  answered : ∀ c ∈ w.callers, ∀ k, c.rest = .done (.ok k) →
    k ∈ w.room.made ∧ k.hash = c.schema.hash
  /-- All who get keys for one hash get the same. -/
  agreed : ∀ c ∈ w.callers, ∀ d ∈ w.callers, c.schema.hash = d.schema.hash →
    ∀ k l, c.rest = .done (.ok k) → d.rest = .done (.ok l) → k = l
  /-- Whoever gets no keys has failed to make them. -/
  refused : ∀ c ∈ w.callers, ∀ e, c.rest = .done (.error e) →
    Service.makeKeys ps c.schema c.trapdoor = .error e
  /-- A setup that fails keeps nothing, and its caller lets go of the guard with its next step. -/
  failed : ∀ i c schema t e, w.callers[i]? = some c → c.rest = .make schema t →
    Service.makeKeys ps schema t = .error e →
      (w.follow ps [.advance i]).room = w.room ∧
      (w.follow ps [.advance i, .advance i]).HasEnded i c.schema c.trapdoor (.error e)
        w.room.keys
  /-- Whoever holds the guard is free to let go of it. -/
  released : w.room.isGuarded = true →
    ∃ i, (w.follow ps (List.replicate 3 (.advance i))).room.isGuarded = false
  /-- While the guard is free, a newcomer may try as if nobody else had ever come. -/
  retried : w.room.isGuarded = false → ∀ schema t,
    (w.follow ps (w.alone schema t)).HasEnded w.callers.length schema t
      (Service.ensureKeys ps { keys := w.room.keys } schema t).1
      (Service.ensureKeys ps { keys := w.room.keys } schema t).2.keys

end KeyWorld

namespace KeyTask

variable {ps : ProofSystem} {room room' : KeyRoom} {t t' : KeyTask}
variable {schema : Schema} {trapdoor : Groth16.Trapdoor}

/-- All that a step can be. -/
inductive Moves (ps : ProofSystem) (room : KeyRoom) : KeyTask → KeyTask → KeyRoom → Prop where
  | found {s : Schema} {t : Groth16.Trapdoor} {k : SchemaKeys} (hget : room.keys.get? s.hash = some k) :
      Moves ps room (.look s t) (.done (.ok k)) room
  | missed {s : Schema} {t : Groth16.Trapdoor} : Moves ps room (.look s t) (.enter s t) room
  | entered {s : Schema} {t : Groth16.Trapdoor} (hfree : room.isGuarded = false) :
      Moves ps room (.enter s t) (.lookAgain s t) { room with isGuarded := true }
  | foundInside {s : Schema} {t : Groth16.Trapdoor} {k : SchemaKeys}
      (hget : room.keys.get? s.hash = some k) : Moves ps room (.lookAgain s t) (.leave (.ok k)) room
  | missedInside {s : Schema} {t : Groth16.Trapdoor} (hget : room.keys.get? s.hash = none) :
      Moves ps room (.lookAgain s t) (.make s t) room
  | made {s : Schema} {t : Groth16.Trapdoor} {k : SchemaKeys} (hmake : Service.makeKeys ps s t = .ok k) :
      Moves ps room (.make s t) (.leave (.ok k))
        { room with keys := room.keys.insert s.hash k, made := k :: room.made }
  | failed {s : Schema} {t : Groth16.Trapdoor} {e : ProtocolError}
      (hmake : Service.makeKeys ps s t = .error e) : Moves ps room (.make s t) (.leave (.error e)) room
  | left {outcome : Except ProtocolError SchemaKeys} :
      Moves ps room (.leave outcome) (.done outcome) { room with isGuarded := false }

theorem moves_of_step? (h : t.step? ps room = some (t', room')) : t.Moves ps room t' room' := by
  cases t with
  | look s t =>
      rw [step?] at h
      split at h
      · rename_i k hget
        obtain ⟨rfl, rfl⟩ := Prod.mk.inj (Option.some.inj h)
        exact .found hget
      · obtain ⟨rfl, rfl⟩ := Prod.mk.inj (Option.some.inj h)
        exact .missed
  | enter s t =>
      rw [step?] at h
      split at h
      · exact nomatch h
      · rename_i hfree
        obtain ⟨rfl, rfl⟩ := Prod.mk.inj (Option.some.inj h)
        exact .entered (Bool.eq_false_iff.2 hfree)
  | lookAgain s t =>
      rw [step?] at h
      split at h
      · rename_i k hget
        obtain ⟨rfl, rfl⟩ := Prod.mk.inj (Option.some.inj h)
        exact .foundInside hget
      · rename_i hget
        obtain ⟨rfl, rfl⟩ := Prod.mk.inj (Option.some.inj h)
        exact .missedInside hget
  | make s t =>
      rw [step?] at h
      split at h
      · rename_i e hmake
        obtain ⟨rfl, rfl⟩ := Prod.mk.inj (Option.some.inj h)
        exact .failed hmake
      · rename_i k hmake
        obtain ⟨rfl, rfl⟩ := Prod.mk.inj (Option.some.inj h)
        exact .made hmake
  | leave outcome =>
      obtain ⟨rfl, rfl⟩ := Prod.mk.inj (Option.some.inj h)
      exact .left
  | done outcome => exact nomatch h

namespace Moves

/-- A step enters or leaves, or it does not touch the guard. -/
theorem guard (h : t.Moves ps room t' room') :
    (t'.isInside = t.isInside ∧ room'.isGuarded = room.isGuarded) ∨
    (t.isInside = false ∧ t'.isInside = true ∧ room.isGuarded = false ∧ room'.isGuarded = true) ∨
    (t.isInside = true ∧ t'.isInside = false ∧ room'.isGuarded = false) := by
  cases h with
  | entered hfree => exact .inr (.inl ⟨rfl, rfl, hfree, rfl⟩)
  | left => exact .inr (.inr ⟨rfl, rfl, rfl⟩)
  | _ => exact .inl ⟨rfl, rfl⟩

/-- A step makes keys and keeps them, or it leaves all keys alone. -/
theorem keys (h : t.Moves ps room t' room') :
    (room'.keys = room.keys ∧ room'.made = room.made) ∨
    ∃ s trapdoor k, t = .make s trapdoor ∧ Service.makeKeys ps s trapdoor = .ok k ∧
      room'.keys = room.keys.insert s.hash k ∧ room'.made = k :: room.made := by
  cases h with
  | made hmake => exact .inr ⟨_, _, _, rfl, hmake, rfl, rfl⟩
  | _ => exact .inl ⟨rfl, rfl⟩

/-- What a caller knows after its own step. -/
theorem knows (h : t.Moves ps room t' room') (ht : t.Knows ps room.keys schema trapdoor) :
    t'.Knows ps room'.keys schema trapdoor := by
  cases h with
  | found hget =>
      obtain ⟨rfl, rfl⟩ := ht
      exact hget
  | foundInside hget =>
      obtain ⟨rfl, rfl⟩ := ht
      exact hget
  | missedInside hget =>
      obtain ⟨rfl, rfl⟩ := ht
      exact ⟨rfl, rfl, hget⟩
  | made hmake =>
      obtain ⟨rfl, rfl, -⟩ := ht
      exact Store.get?_eq_some_iff.2 List.mem_cons_self
  | failed hmake =>
      obtain ⟨rfl, rfl, -⟩ := ht
      exact hmake
  | _ => exact ht

end Moves

/-- What a caller knows stays true while keys are added, but none while it makes some. -/
theorem Knows.mono {keys keys' : Store ContentDigest SchemaKeys}
    (ht : t.Knows ps keys schema trapdoor)
    (hkept : ∀ hash k, keys.get? hash = some k → keys'.get? hash = some k)
    (hinside : t.isInside = true → keys' = keys) : t.Knows ps keys' schema trapdoor := by
  cases t with
  | make s t =>
      rw [hinside rfl]
      exact ht
  | leave outcome =>
      cases outcome with
      | ok k => exact hkept _ k ht
      | error e => exact ht
  | done outcome =>
      cases outcome with
      | ok k => exact hkept _ k ht
      | error e => exact ht
  | _ => exact ht

end KeyTask

namespace KeyWorld

variable {ps : ProofSystem} {w : KeyWorld}

/-- What holds between the callers and what they share. -/
structure Coherent (ps : ProofSystem) (w : KeyWorld) : Prop where
  knows : ∀ c ∈ w.callers, c.rest.Knows ps w.room.keys c.schema c.trapdoor
  exclusive : ∀ (i j : Nat) c d, w.callers[i]? = some c → w.callers[j]? = some d →
    c.rest.isInside = true → d.rest.isInside = true → i = j
  guarded : w.room.isGuarded = true ↔
    ∃ (i : Nat) (c : KeyCaller), w.callers[i]? = some c ∧ c.rest.isInside = true
  inserted : w.room.keys.entries = w.room.made.map fun k => (k.hash, k)

theorem turn_advance {i : Nat} {c : KeyCaller} {rest : KeyTask} {room : KeyRoom}
    (hc : w.callers[i]? = some c) (hstep : c.rest.step? ps w.room = some (rest, room)) :
    w.turn ps (.advance i) = ⟨room, w.callers.set i { c with rest := rest }⟩ := by
  simp only [turn, hc, hstep]

/-- After a change of one caller there are the others and the changed one. -/
theorem getElem?_set_cases {callers : List KeyCaller} {i j : Nat} {c d : KeyCaller}
    (hd : (callers.set i c)[j]? = some d) : (j = i ∧ d = c) ∨ (j ≠ i ∧ callers[j]? = some d) := by
  by_cases hji : j = i
  · subst hji
    have hlt : j < (callers.set j c).length := (List.getElem?_eq_some_iff.1 hd).1
    rw [List.length_set] at hlt
    rw [List.getElem?_set_self hlt] at hd
    exact .inl ⟨rfl, (Option.some.inj hd).symm⟩
  · rw [List.getElem?_set_ne (Ne.symm hji)] at hd
    exact .inr ⟨hji, hd⟩

namespace Coherent

theorem empty : Coherent ps {} where
  knows _ hc := absurd hc List.not_mem_nil
  exclusive _ _ _ _ hc := nomatch hc
  guarded := by simp
  inserted := rfl

/-- Only a caller inside makes keys, and those that it makes are not there. -/
theorem absent (hw : w.Coherent ps) {c : KeyCaller} (hc : c ∈ w.callers) {s : Schema}
    {t : Groth16.Trapdoor} (hrest : c.rest = .make s t) :
    c.schema = s ∧ c.trapdoor = t ∧ w.room.keys.get? s.hash = none := by
  have hknows := hw.knows c hc
  rw [hrest] at hknows
  obtain ⟨rfl, rfl, hget⟩ := hknows
  exact ⟨rfl, rfl, hget⟩

theorem call (hw : w.Coherent ps) (schema : Schema) (trapdoor : Groth16.Trapdoor) :
    (w.turn ps (.call schema trapdoor)).Coherent ps := by
  have hold {i : Nat} {c : KeyCaller}
      (hc : (w.callers ++ [⟨schema, trapdoor, .look schema trapdoor⟩])[i]? = some c)
      (hinside : c.rest.isInside = true) : w.callers[i]? = some c := by
    rw [List.getElem?_append] at hc
    split at hc
    · exact hc
    · obtain rfl := List.mem_singleton.1 (List.mem_of_getElem? hc)
      exact nomatch hinside
  refine ⟨?_, fun i j c d hc hd hi hj => ?_, ?_, hw.inserted⟩
  · intro c hc
    rcases List.mem_append.1 hc with hc | hc
    · exact hw.knows c hc
    · obtain rfl := List.mem_singleton.1 hc
      exact ⟨rfl, rfl⟩
  · exact hw.exclusive i j c d (hold hc hi) (hold hd hj) hi hj
  · refine hw.guarded.trans ⟨?_, ?_⟩
    · rintro ⟨i, c, hc, hinside⟩
      refine ⟨i, c, ?_, hinside⟩
      exact List.getElem?_append_left (List.getElem?_eq_some_iff.1 hc).1 ▸ hc
    · rintro ⟨i, c, hc, hinside⟩
      exact ⟨i, c, hold hc hinside, hinside⟩

/-- A caller's step replaces no keys. -/
theorem get?_kept (hw : w.Coherent ps) {c : KeyCaller} (hc : c ∈ w.callers) {rest : KeyTask}
    {room : KeyRoom} (hmoves : c.rest.Moves ps w.room rest room) (hash : ContentDigest)
    (k : SchemaKeys) (hget : w.room.keys.get? hash = some k) : room.keys.get? hash = some k := by
  rcases hmoves.keys with ⟨hkeys, -⟩ | ⟨s, t, l, hrest, -, hkeys, -⟩
  · rw [hkeys]
    exact hget
  · obtain ⟨-, -, hnone⟩ := hw.absent hc hrest
    rw [Store.get?_eq_some_iff] at hget ⊢
    rw [hkeys, Store.entries_insert (Store.get?_eq_none_iff.1 hnone)]
    exact List.mem_cons_of_mem _ hget

/-- Whoever else is inside keeps a caller from entering and from making keys. -/
theorem kept_out (hw : w.Coherent ps) {i j : Nat} {c d : KeyCaller} (hc : w.callers[i]? = some c)
    (hd : w.callers[j]? = some d) (hne : j ≠ i) (hinside : d.rest.isInside = true) {rest : KeyTask}
    {room : KeyRoom} (hmoves : c.rest.Moves ps w.room rest room) :
    rest.isInside = false ∧ room.isGuarded = true ∧ room.keys = w.room.keys := by
  have hguarded : w.room.isGuarded = true := hw.guarded.2 ⟨j, d, hd, hinside⟩
  have houtside : c.rest.isInside = false := by
    rw [← Bool.not_eq_true]
    exact fun hinside' => hne (hw.exclusive j i d c hd hc hinside hinside')
  have hkeys : room.keys = w.room.keys := by
    rcases hmoves.keys with ⟨hkeys, -⟩ | ⟨s, t, k, hrest, -⟩
    · exact hkeys
    · rw [hrest] at houtside
      cases houtside
  rcases hmoves.guard with ⟨hsame, hguard⟩ | ⟨-, -, hfree, -⟩ | ⟨hleft, -⟩
  · exact ⟨hsame.trans houtside, hguard.trans hguarded, hkeys⟩
  · rw [hfree] at hguarded
    cases hguarded
  · rw [houtside] at hleft
    cases hleft

theorem advance (hw : w.Coherent ps) {i : Nat} {c : KeyCaller} (hc : w.callers[i]? = some c)
    {rest : KeyTask} {room : KeyRoom} (hmoves : c.rest.Moves ps w.room rest room) :
    Coherent ps ⟨room, w.callers.set i { c with rest := rest }⟩ := by
  have hmem : c ∈ w.callers := List.mem_of_getElem? hc
  have hlt : i < w.callers.length := (List.getElem?_eq_some_iff.1 hc).1
  have hself : (w.callers.set i { c with rest := rest })[i]? = some { c with rest := rest } :=
    List.getElem?_set_self hlt
  exact {
    knows := fun d hd => by
      obtain ⟨j, hd⟩ := List.mem_iff_getElem?.1 hd
      rcases getElem?_set_cases hd with ⟨rfl, rfl⟩ | ⟨hne, hd⟩
      · exact hmoves.knows (hw.knows c hmem)
      · exact (hw.knows d (List.mem_of_getElem? hd)).mono (hw.get?_kept hmem hmoves)
          fun hinside => (hw.kept_out hc hd hne hinside hmoves).2.2
    exclusive := fun j l d e hd he hinside hinside' => by
      rcases getElem?_set_cases hd with ⟨rfl, rfl⟩ | ⟨hj, hd'⟩
      · rcases getElem?_set_cases he with ⟨rfl, -⟩ | ⟨hl, he'⟩
        · rfl
        · exact absurd hinside (Bool.eq_false_iff.1 (hw.kept_out hc he' hl hinside' hmoves).1)
      · rcases getElem?_set_cases he with ⟨rfl, rfl⟩ | ⟨hl, he'⟩
        · exact absurd hinside' (Bool.eq_false_iff.1 (hw.kept_out hc hd' hj hinside hmoves).1)
        · exact hw.exclusive j l d e hd' he' hinside hinside'
    guarded := by
      constructor
      · intro hguarded
        rcases hmoves.guard with ⟨hsame, hguard⟩ | ⟨-, hinside, -⟩ | ⟨-, -, hfree⟩
        · obtain ⟨j, d, hd, hinside⟩ := hw.guarded.1 (hguard.symm.trans hguarded)
          by_cases hji : j = i
          · obtain rfl : c = d := Option.some.inj (hc.symm.trans (hji ▸ hd))
            exact ⟨i, _, hself, hsame.trans hinside⟩
          · exact ⟨j, d, (List.getElem?_set_ne (Ne.symm hji)).trans hd, hinside⟩
        · exact ⟨i, _, hself, hinside⟩
        · exact absurd hguarded (Bool.eq_false_iff.1 hfree)
      · rintro ⟨j, d, hd, hinside⟩
        rcases getElem?_set_cases hd with ⟨rfl, rfl⟩ | ⟨hne, hd⟩
        · rcases hmoves.guard with ⟨hsame, hguard⟩ | ⟨-, -, -, hguard⟩ | ⟨-, houtside, -⟩
          · exact hguard.trans (hw.guarded.2 ⟨j, c, hc, hsame.symm.trans hinside⟩)
          · exact hguard
          · exact absurd hinside (Bool.eq_false_iff.1 houtside)
        · exact (hw.kept_out hc hd hne hinside hmoves).2.1
    inserted := by
      rcases hmoves.keys with ⟨hkeys, hmade⟩ | ⟨s, t, k, hrest, hmake, hkeys, hmade⟩
      · rw [hkeys, hmade]
        exact hw.inserted
      · obtain ⟨-, -, hnone⟩ := hw.absent hmem hrest
        rw [hkeys, hmade, Store.entries_insert (Store.get?_eq_none_iff.1 hnone), hw.inserted,
          List.map_cons, SchemaKeys.hash, (Service.makeKeys_spec hmake).1] }

theorem turn (hw : w.Coherent ps) (turn : KeyTurn) : (w.turn ps turn).Coherent ps := by
  cases turn with
  | call schema trapdoor => exact hw.call schema trapdoor
  | advance i =>
      rw [KeyWorld.turn]
      split
      · exact hw
      · rename_i c hc
        split
        · exact hw
        · rename_i rest room hstep
          exact hw.advance hc (KeyTask.moves_of_step? hstep)

theorem follow (hw : w.Coherent ps) (turns : List KeyTurn) : (w.follow ps turns).Coherent ps := by
  induction turns generalizing w with
  | nil => exact hw
  | cons turn rest ih => exact ih (hw.turn turn)

end Coherent

theorem coherent_run (turns : List KeyTurn) : (run ps turns).Coherent ps :=
  Coherent.empty.follow turns

/-- Nothing that has been inserted is replaced on one turn, or on any number of them. -/
theorem Coherent.get?_turn (hw : w.Coherent ps) (turn : KeyTurn) {hash : ContentDigest}
    {k : SchemaKeys} (hget : w.room.keys.get? hash = some k) :
    (w.turn ps turn).room.keys.get? hash = some k := by
  cases turn with
  | call schema trapdoor => exact hget
  | advance i =>
      rw [KeyWorld.turn]
      split
      · exact hget
      · rename_i c hc
        split
        · exact hget
        · rename_i rest room hstep
          exact hw.get?_kept (List.mem_of_getElem? hc) (KeyTask.moves_of_step? hstep) hash k hget

theorem Coherent.get?_follow (hw : w.Coherent ps) (turns : List KeyTurn) {hash : ContentDigest}
    {k : SchemaKeys} (hget : w.room.keys.get? hash = some k) :
    (w.follow ps turns).room.keys.get? hash = some k := by
  induction turns generalizing w with
  | nil => exact hget
  | cons turn rest ih => exact ih (hw.turn turn) (hw.get?_turn turn hget)

section Alone

variable {i : Nat} {c : KeyCaller} {rest : KeyTask} {room : KeyRoom} {turns : List KeyTurn}

theorem follow_cons (turn : KeyTurn) (turns : List KeyTurn) :
    w.follow ps (turn :: turns) = (w.turn ps turn).follow ps turns :=
  rfl

/-- A caller makes its next step before anything else happens. -/
theorem follow_advance (hc : w.callers[i]? = some c)
    (hstep : c.rest.step? ps w.room = some (rest, room)) :
    w.follow ps (.advance i :: turns) =
      follow ps ⟨room, w.callers.set i { c with rest := rest }⟩ turns := by
  rw [follow_cons, turn_advance hc hstep]

/-- The turns of a caller who cannot go on change nothing. -/
theorem follow_replicate (hc : w.callers[i]? = some c) (hstep : c.rest.step? ps w.room = none)
    (n : Nat) : w.follow ps (List.replicate n (.advance i)) = w := by
  have hturn : w.turn ps (.advance i) = w := by
    simp only [turn, hc, hstep]
  induction n with
  | zero => rfl
  | succ n ih =>
      rw [List.replicate_succ, follow_cons, hturn, ih]

theorem callers_set (hc : w.callers[i]? = some c) (room : KeyRoom) (d : KeyCaller) :
    (KeyWorld.mk room (w.callers.set i d)).callers[i]? = some d :=
  List.getElem?_set_self (List.getElem?_eq_some_iff.1 hc).1

theorem follow_leave {outcome : Except ProtocolError SchemaKeys} (hc : w.callers[i]? = some c)
    (hrest : c.rest = .leave outcome) (n : Nat) :
    (w.follow ps (List.replicate (n + 1) (.advance i))).HasEnded i c.schema c.trapdoor outcome
      w.room.keys := by
  have hstep : c.rest.step? ps w.room = some (.done outcome, { w.room with isGuarded := false }) := by
    rw [hrest, KeyTask.step?]
  rw [List.replicate_succ, follow_advance hc hstep, follow_replicate (callers_set hc _ _) rfl]
  exact ⟨callers_set hc _ _, rfl, rfl⟩

theorem follow_make_error {schema : Schema} {t : Groth16.Trapdoor} {e : ProtocolError}
    (hc : w.callers[i]? = some c) (hrest : c.rest = .make schema t)
    (hmake : Service.makeKeys ps schema t = .error e) (n : Nat) :
    (w.follow ps (List.replicate (n + 2) (.advance i))).HasEnded i c.schema c.trapdoor
      (.error e) w.room.keys := by
  have hstep : c.rest.step? ps w.room = some (.leave (.error e), w.room) := by
    rw [hrest, KeyTask.step?, hmake]
  rw [List.replicate_succ, follow_advance hc hstep]
  exact follow_leave (callers_set hc _ _) rfl n

theorem follow_make_ok {schema : Schema} {t : Groth16.Trapdoor} {k : SchemaKeys}
    (hc : w.callers[i]? = some c) (hrest : c.rest = .make schema t)
    (hmake : Service.makeKeys ps schema t = .ok k) (n : Nat) :
    (w.follow ps (List.replicate (n + 2) (.advance i))).HasEnded i c.schema c.trapdoor (.ok k)
      (w.room.keys.insert schema.hash k) := by
  have hstep : c.rest.step? ps w.room = some (.leave (.ok k), { w.room with
      keys := w.room.keys.insert schema.hash k, made := k :: w.room.made }) := by
    rw [hrest, KeyTask.step?, hmake]
  rw [List.replicate_succ, follow_advance hc hstep]
  exact follow_leave (callers_set hc _ _) rfl n

/-- Under the guard, a caller ends as if it had got or made its keys at once. -/
theorem follow_lookAgain {schema : Schema} {t : Groth16.Trapdoor} (hc : w.callers[i]? = some c)
    (hrest : c.rest = .lookAgain schema t) (n : Nat) :
    (w.follow ps (List.replicate (n + 3) (.advance i))).HasEnded i c.schema c.trapdoor
      (Service.ensureKeys ps { keys := w.room.keys } schema t).1
      (Service.ensureKeys ps { keys := w.room.keys } schema t).2.keys := by
  cases hget : w.room.keys.get? schema.hash with
  | some k =>
      have hstep : c.rest.step? ps w.room = some (.leave (.ok k), w.room) := by
        simp only [hrest, KeyTask.step?, hget]
      rw [List.replicate_succ, follow_advance hc hstep]
      simp only [Service.ensureKeys, hget]
      exact follow_leave (callers_set hc _ _) rfl (n + 1)
  | none =>
      have hstep : c.rest.step? ps w.room = some (.make schema t, w.room) := by
        simp only [hrest, KeyTask.step?, hget]
      rw [List.replicate_succ, follow_advance hc hstep]
      cases hmake : Service.makeKeys ps schema t with
      | error e =>
          simp only [Service.ensureKeys, hget, hmake]
          exact follow_make_error (callers_set hc _ _) rfl hmake n
      | ok k =>
          simp only [Service.ensureKeys, hget, hmake]
          exact follow_make_ok (callers_set hc _ _) rfl hmake n

/-- A newcomer who finds the guard free ends as if it had got or made its keys at once. -/
theorem follow_alone (hfree : w.room.isGuarded = false) (schema : Schema) (t : Groth16.Trapdoor) :
    (w.follow ps (w.alone schema t)).HasEnded w.callers.length schema t
      (Service.ensureKeys ps { keys := w.room.keys } schema t).1
      (Service.ensureKeys ps { keys := w.room.keys } schema t).2.keys := by
  have hnew (room : KeyRoom) (rest : KeyTask) :
      (KeyWorld.mk room (w.callers ++ [⟨schema, t, rest⟩])).callers[w.callers.length]? =
        some ⟨schema, t, rest⟩ := by
    rw [List.getElem?_append_right (Nat.le_refl _), Nat.sub_self, List.getElem?_cons_zero]
  have hset (rest rest' : KeyTask) : (w.callers ++ [KeyCaller.mk schema t rest]).set
      w.callers.length ⟨schema, t, rest'⟩ = w.callers ++ [⟨schema, t, rest'⟩] := by
    rw [List.set_append_right _ _ (Nat.le_refl _), Nat.sub_self, List.set_cons_zero]
  rw [alone, follow_cons, turn, List.replicate_succ]
  cases hget : w.room.keys.get? schema.hash with
  | some k =>
      have hstep : (KeyTask.look schema t).step? ps w.room = some (.done (.ok k), w.room) := by
        simp only [KeyTask.step?, hget]
      rw [follow_advance (hnew _ _) hstep, hset, follow_replicate (hnew _ _) rfl]
      simp only [Service.ensureKeys, hget]
      exact ⟨hnew _ _, rfl, hfree⟩
  | none =>
      have hstep : (KeyTask.look schema t).step? ps w.room = some (.enter schema t, w.room) := by
        simp only [KeyTask.step?, hget]
      have henter : (KeyTask.enter schema t).step? ps w.room =
          some (.lookAgain schema t, { w.room with isGuarded := true }) := by
        rw [KeyTask.step?, hfree, if_neg Bool.false_ne_true]
      rw [follow_advance (hnew _ _) hstep, hset, List.replicate_succ,
        follow_advance (hnew _ _) henter, hset]
      exact follow_lookAgain (hnew _ _) rfl 0

end Alone

/-- Each hash is set up once, whatever the order of the steps of any number of callers. -/
theorem setsUpOnce_run (ps : ProofSystem) (turns : List KeyTurn) : (run ps turns).SetsUpOnce ps := by
  have hw : (run ps turns).Coherent ps := coherent_run turns
  generalize run ps turns = w at hw
  -- Whoever has ended knows where its keys are.
  have hgot {c : KeyCaller} (hc : c ∈ w.callers) {k : SchemaKeys} (hrest : c.rest = .done (.ok k)) :
      w.room.keys.get? c.schema.hash = some k := by
    have hknows := hw.knows c hc
    rw [hrest] at hknows
    exact hknows
  refine ⟨?_, hw.inserted, ?_, ?_, ?_, ?_, ?_, ?_, ?_⟩
  · have hnodup := w.room.keys.nodup
    rw [hw.inserted, List.map_map] at hnodup
    exact hnodup
  · intro turns hash k hget
    exact hw.get?_follow turns hget
  · intro c hc k hrest
    have hmem := Store.get?_eq_some_iff.1 (hgot hc hrest)
    rw [hw.inserted] at hmem
    obtain ⟨l, hl, heq⟩ := List.mem_map.1 hmem
    obtain ⟨hhash, rfl⟩ := Prod.mk.inj heq
    exact ⟨hl, hhash⟩
  · intro c hc d hd hhash k l hk hl
    have hgot' := hgot hd hl
    rw [← hhash, hgot hc hk] at hgot'
    exact Option.some.inj hgot'
  · intro c hc e hrest
    have hknows := hw.knows c hc
    rw [hrest] at hknows
    exact hknows
  · intro i c schema t e hc hrest hmake
    have hstep : c.rest.step? ps w.room = some (.leave (.error e), w.room) := by
      rw [hrest, KeyTask.step?, hmake]
    refine ⟨?_, follow_make_error hc hrest hmake 0⟩
    rw [follow_advance hc hstep]
    rfl
  · intro hguarded
    obtain ⟨i, c, hc, hinside⟩ := hw.guarded.1 hguarded
    refine ⟨i, ?_⟩
    cases hrest : c.rest with
    | lookAgain schema t => exact (follow_lookAgain hc hrest 0).free
    | make schema t =>
        cases hmake : Service.makeKeys ps schema t with
        | error e => exact (follow_make_error hc hrest hmake 1).free
        | ok k => exact (follow_make_ok hc hrest hmake 1).free
    | leave outcome => exact (follow_leave hc hrest 2).free
    | _ =>
        rw [hrest] at hinside
        exact nomatch hinside
  · intro hfree schema t
    exact follow_alone hfree schema t

end KeyWorld
end PrivatePresentation
