import PrivatePresentation.Proofs.Service.Perform
import PrivatePresentation.Proofs.Service.Polling
import PrivatePresentation.Proofs.Service.Registrations

/-!
Waiting.  A wait looks for the verdict, registers, looks again and parks; a settlement records the verdict
and then wakes all who are registered.  Whichever of these steps come first, no wait is left asleep: what
it missed by looking too early it is told, and what it missed by registering too late it finds.
-/

namespace PrivatePresentation

namespace Task

/-- What a wait for a request has still to do, if certain verdicts may be told. -/
inductive Awaits (id : RequestId) (told : RequestId → Verdict → Prop) : Task → Prop where
  | called : Awaits id told (.wait id)
  | registers : Awaits id told (.register id)
  | looks (token : WaiterToken) : Awaits id told (.recheck id token)
  | parked (token : WaiterToken) : Awaits id told (.parked id token)
  | found (token : WaiterToken) {v : Verdict} (hv : told id v) :
      Awaits id told (.cancel id token (.completed v))
  | givesUp (token : WaiterToken) : Awaits id told (.cancel id token .timedOut)
  | completed {v : Verdict} (hv : told id v) : Awaits id told (.done (.waited (.completed v)))
  | timedOut : Awaits id told (.done (.waited .timedOut))

/-- The time of a wait is over, and it has given up. -/
def TimedOut (t : Task) : Prop :=
  (∃ id token, t = .cancel id token .timedOut) ∨ t = .done (.waited .timedOut)

variable {ps : ProofSystem} {s : Service} {t : Task} {id : RequestId} {token : WaiterToken}
variable {registrations : List (RequestId × WaiterToken)} {told told' : RequestId → Verdict → Prop}

theorem Awaits.mono (h : t.Awaits id told) (htold : ∀ id v, told id v → told' id v) :
    t.Awaits id told' := by
  cases h with
  | called => exact .called
  | registers => exact .registers
  | looks token => exact .looks token
  | parked token => exact .parked token
  | found token hv => exact .found token (htold _ _ hv)
  | givesUp token => exact .givesUp token
  | completed hv => exact .completed (htold _ _ hv)
  | timedOut => exact .timedOut

theorem Awaits.timeOut (h : t.Awaits id told) : t.timeOut.Awaits id told := by
  cases h with
  | called => exact .called
  | registers => exact .registers
  | looks token => exact .looks token
  | parked token => exact .givesUp token
  | found token hv => exact .found token hv
  | givesUp token => exact .givesUp token
  | completed hv => exact .completed hv
  | timedOut => exact .timedOut

/-- What a wait comes to with its next step; its time is not over by that. -/
theorem Awaits.step {s' : Service} {t' : Task} {e : Effect} (h : t.Awaits id told)
    (hmoves : t.Moves ps s e t' s') (hs : s.waiters.Accounts registrations told)
    (hmem : t.registrations ⊆ registrations) (hfound : ∀ v, s.verdicts.get? id = some v → told id v) :
    t'.Awaits id told ∧ (t'.TimedOut → t.TimedOut) := by
  cases h with
  | called =>
      cases hmoves with
      | knows hv => exact ⟨.completed (hfound _ hv), by simp [TimedOut]⟩
      | waits hnone => exact ⟨.registers, by simp [TimedOut]⟩
  | registers =>
      cases hmoves with
      | registers => exact ⟨.looks _, by simp [TimedOut]⟩
  | looks token =>
      cases hmoves with
      | finds hv => exact ⟨.found token (hfound _ hv), by simp [TimedOut]⟩
      | parks hnone => exact ⟨.parked token, by simp [TimedOut]⟩
  | parked token =>
      have hregistered := hmem List.mem_cons_self
      cases hmoves with
      | receives hv => exact ⟨.completed (hs.of_delivered hregistered hv).1, by simp [TimedOut]⟩
      | listens hlistening => exact ⟨.parked token, fun h => h⟩
      | closes hempty hdeaf => exact absurd (hs.not_closed hregistered hempty) hdeaf
  | found token hv =>
      cases hmoves with
      | cancels => exact ⟨.completed hv, by simp [TimedOut]⟩
  | givesUp token =>
      cases hmoves with
      | cancels => exact ⟨.timedOut, fun _ => .inl ⟨id, token, rfl⟩⟩
  | completed hv =>
      cases hmoves with
      | rests => exact ⟨.completed hv, fun h => h⟩
  | timedOut =>
      cases hmoves with
      | rests => exact ⟨.timedOut, fun h => h⟩

end Task

namespace World

variable {ps : ProofSystem} {w w' : World} {n : Nat} {o o' : Operation} {id : RequestId}

/-- A turn on which nobody gives up for whom something has come: a timer that goes off looks at what has
come first. -/
structure PatientTurn (ps : ProofSystem) (w w' : World) : Prop where
  turn : Turn ps w w'
  patient : ∀ n o o' id token, w.nth n = some o → w'.nth n = some o' → o.rest = .parked id token →
    o'.rest = .cancel id token .timedOut → w.service.waiters.receivers.get? token = some .listening

/-- A verdict has been recorded on a request and is kept, and its waiters have been told. -/
structure Told (w : World) (d : Delivery) : Prop where
  recorded : d ∈ w.recordings
  kept : w.Keeps d.request.id
  told : d.request.id ∉ w.notifying

/-- No wake-up is lost. -/
structure WakesAll (ps : ProofSystem) (w : World) : Prop where
  /-- Once the waiters have been told of a verdict, it has come for everybody who is parked for it. -/
  told : ∀ d, w.Told d → ∀ o ∈ w.operations, ∀ token, o.rest = .parked d.request.id token →
    w.service.waiters.receivers.get? token = some (.delivered d.verdict)
  /-- From then on every wait returns that verdict in three steps of its own at most, whatever others do
  before and while the verdict is kept, unless its time is over. -/
  returns : ∀ d, w.Told d → ∀ w', Relation.ReflTransGen (Turn ps) w w' → w'.Keeps d.request.id →
    ∀ o ∈ w'.operations, o.call = .wait d.request.id →
      o.rest.TimedOut ∨ (o.rest.run ps 3 w'.service).1 = .done (.waited (.completed d.verdict))
  /-- And its time is over only if it was so already, as timers look at what has come first. -/
  already : ∀ d, w.Told d → ∀ w', Relation.ReflTransGen (PatientTurn ps) w w' →
    w'.Keeps d.request.id → ∀ n o o', w.nth n = some o → w'.nth n = some o' →
      o.call = .wait d.request.id → o'.rest.TimedOut → o.rest.TimedOut
  /-- The time of a wait is over by its own timer alone, and while it is parked. -/
  timer : ∀ w', Turn ps w w' → ∀ n o o' id, w.nth n = some o → w'.nth n = some o' →
    o.call = .wait id → o'.rest.TimedOut → o.rest.TimedOut ∨
      ∃ token, o.rest = .parked id token ∧ o'.rest = .cancel id token .timedOut ∧
        w'.service = w.service
  /-- A wait that begins when a verdict is there returns it at once, and leaves everything as it is. -/
  atOnce : ∀ d ∈ w.recordings, w.Keeps d.request.id → ∀ o ∈ w.operations,
    o.rest = .wait d.request.id →
      o.rest.step ps w.service = (.done (.waited (.completed d.verdict)), w.service)
  /-- Whatever is registered is so for one wait, which is in progress. -/
  registered : ∀ id, ∀ token ∈ w.service.waiters.tokens id,
    ∃! n, ∃ o, w.nth n = some o ∧ o.call = .wait id ∧ (id, token) ∈ o.rest.registrations
  /-- When a wait that has been registered returns, its registration ends and no other is touched. -/
  leaving : ∀ w', Turn ps w w' → ∀ n o o' id token answer, w.nth n = some o → w'.nth n = some o' →
    (id, token) ∈ o.rest.registrations → o'.rest = .done answer →
      (∀ id', w'.service.waiters.tokens id' =
        (w.service.waiters.tokens id').filter (· != token)) ∧
      ∀ token', token' ≠ token →
        w'.service.waiters.receivers.get? token' = w.service.waiters.receivers.get? token'

section Waits

theorem Turn.recorded (h : Turn ps w w') (id : RequestId) (v : Verdict) (hv : w.Recorded id v) :
    w'.Recorded id v := by
  obtain ⟨d, hd, hsame⟩ := hv
  exact ⟨d, h.recordings_subset hd, hsame⟩

/-- What each wait has come to, wherever turns lead. -/
theorem Runs.awaits (hw : w.Runs ps) :
    ∀ o ∈ w.operations, ∀ id, o.call = .wait id → o.rest.Awaits id w.Recorded := by
  induction hw using Runs.induct with
  | start s hrequests hverdicts houtbox hwaiters => exact fun o ho => absurd ho List.not_mem_nil
  | turn w w' hw hturn ih =>
      refine hturn.forall_operations ?_ ?_ ?_ ?_
      · exact fun o ho id hcall => (ih o ho id hcall).mono hturn.recorded
      · rintro c id rfl
        exact .called
      · intro o ho id hcall
        have hstep := (ih o ho id hcall).step (o.rest.step_moves ps w.service) hw.attended.accounts
          (fun e he => List.mem_flatMap.2 ⟨o, ho, he⟩) fun v hv => hw.retained.recorded hv
        exact hstep.1.mono hturn.recorded
      · exact fun o ho id hcall => (ih o ho id hcall).timeOut.mono hturn.recorded

end Waits

section Told

variable {d : Delivery} {token : WaiterToken}

/-- Whoever is parked for a verdict that the waiters have been told of has got it. -/
theorem Told.delivered (hd : w.Told d) (hw : w.Runs ps) (ho : o ∈ w.operations)
    (hrest : o.rest = .parked d.request.id token) :
    w.service.waiters.receivers.get? token = some (.delivered d.verdict) := by
  have hmem : (d.request.id, token) ∈ o.rest.parking := by
    rw [hrest]
    exact List.mem_cons_self
  have hregistered : (d.request.id, token) ∈ w.registrations :=
    List.mem_flatMap.2 ⟨o, ho, Task.parking_subset _ hmem⟩
  rcases hw.attended.accounts.heard _ hregistered with ⟨hlisted, -⟩ | ⟨-, v, ⟨d', hd', hid, rfl⟩, hv⟩
  · have hdue := hw.attended.due o ho _ token hmem hlisted _ ⟨d, hd.recorded, rfl, rfl⟩ hd.kept
    exact absurd hdue hd.told
  · rw [hv, hw.retained.delivery_unique hd' hd.recorded hid]

theorem Told.turns (hd : w.Told d) (hw : w.Runs ps) (h : Relation.ReflTransGen (Turn ps) w w')
    (hkept : w'.Keeps d.request.id) : w'.Told d := by
  refine ⟨recordings_of_turns h hd.recorded, hkept, ?_⟩
  clear hkept
  induction h with
  | refl => exact hd.told
  | tail hbefore hturn ih =>
      exact (hw.trans hbefore).retained.told_of_turn hturn (recordings_of_turns hbefore hd.recorded) ih

/-- Whoever waits for such a verdict returns it, unless his time is over. -/
theorem Told.returns (hd : w.Told d) (hw : w.Runs ps) (ho : o ∈ w.operations)
    (hcall : o.call = .wait d.request.id) :
    o.rest.TimedOut ∨ (o.rest.run ps 3 w.service).1 = .done (.waited (.completed d.verdict)) := by
  have hget : w.service.verdicts.get? d.request.id = some d.verdict := hd.kept d hd.recorded rfl
  have hunique {v : Verdict} (hv : w.Recorded d.request.id v) : v = d.verdict := by
    obtain ⟨d', hd', hid, rfl⟩ := hv
    rw [hw.retained.delivery_unique hd' hd.recorded hid]
  have hparked {token : WaiterToken} := @Told.delivered ps w o d token hd hw ho
  have hawaits := hw.awaits o ho _ hcall
  generalize o.rest = rest at hawaits hparked
  cases hawaits with
  | called =>
      refine .inr ?_
      simp only [Task.run_succ, Task.step, hget, Task.run_done]
  | registers =>
      refine .inr ?_
      simp only [Task.run, Task.step, hget]
  | looks token =>
      refine .inr ?_
      simp only [Task.run_succ, Task.step, hget, Task.run_done]
  | parked token =>
      refine .inr ?_
      simp only [Task.run_succ, Task.step, Waiters.receive_delivered (hparked rfl), Task.run_done]
  | found token hv =>
      refine .inr ?_
      simp only [Task.run_succ, Task.step, Task.run_done, hunique hv]
  | givesUp token => exact .inl (.inl ⟨_, token, rfl⟩)
  | completed hv =>
      refine .inr ?_
      rw [Task.run_done, hunique hv]
  | timedOut => exact .inl (.inr rfl)

end Told

section Timer

/-- The time of a wait is over by its own timer alone. -/
theorem Runs.timer (hw : w.Runs ps) (h : Turn ps w w') (ho : w.nth n = some o)
    (ho' : w'.nth n = some o') (hcall : o.call = .wait id) (hover : o'.rest.TimedOut) :
    o.rest.TimedOut ∨ ∃ token, o.rest = .parked id token ∧ o'.rest = .cancel id token .timedOut ∧
      w'.service = w.service := by
  have hmem := mem_of_nth ho
  have hawaits := hw.awaits o hmem id hcall
  rcases h.nth ho with hsame | ⟨o'', ho'', hproceeds⟩
  · obtain rfl := Option.some.inj (ho'.symm.trans hsame)
    exact .inl hover
  obtain rfl := Option.some.inj (ho'.symm.trans ho'')
  generalize w'.service = s' at hproceeds ⊢
  cases hproceeds with
  | advance =>
      have hstep := hawaits.step (o.rest.step_moves ps w.service) hw.attended.accounts
        (fun e he => List.mem_flatMap.2 ⟨o, hmem, he⟩) fun v hv => hw.retained.recorded hv
      exact .inl (hstep.2 hover)
  | timeOut =>
      have hover : o.rest.timeOut.TimedOut := hover
      change _ ∨ ∃ token, o.rest = .parked id token ∧ o.rest.timeOut = .cancel id token .timedOut ∧ _
      generalize o.rest = rest at hawaits hover ⊢
      cases hawaits with
      | parked token => exact .inr ⟨token, rfl, rfl, rfl⟩
      | _ => exact .inl hover

theorem exists_nth_of_turn (h : Turn ps w w') (ho : w.nth n = some o) :
    ∃ o', w'.nth n = some o' ∧ o'.call = o.call := by
  rcases h.nth ho with hsame | ⟨o', ho', hproceeds⟩
  · exact ⟨o, hsame, rfl⟩
  · exact ⟨o', ho', hproceeds.call⟩

theorem turns_of_patient (h : Relation.ReflTransGen (PatientTurn ps) w w') :
    Relation.ReflTransGen (Turn ps) w w' := by
  induction h with
  | refl => exact .refl
  | tail _ hturn ih => exact ih.tail hturn.turn

/-- Whoever has been told of a verdict does not give up any more. -/
theorem Told.already {d : Delivery} (hd : w.Told d) (hw : w.Runs ps)
    (h : Relation.ReflTransGen (PatientTurn ps) w w') (hkept : w'.Keeps d.request.id)
    (ho : w.nth n = some o) (hcall : o.call = .wait d.request.id) :
    ∃ o', w'.nth n = some o' ∧ o'.call = o.call ∧ (o'.rest.TimedOut → o.rest.TimedOut) := by
  induction h with
  | refl => exact ⟨o, ho, rfl, fun h => h⟩
  | @tail w₁ w₂ hbefore hturn ih =>
      have hturns := turns_of_patient hbefore
      have hw₁ := hw.trans hturns
      have hkept₁ := hw₁.retained.keeps_of_turn hturn.turn hkept
      obtain ⟨o₁, ho₁, hcall₁, hold⟩ := ih hkept₁
      obtain ⟨o₂, ho₂, hcall₂⟩ := exists_nth_of_turn hturn.turn ho₁
      refine ⟨o₂, ho₂, hcall₂.trans hcall₁, fun hover => hold ?_⟩
      refine (hw₁.timer hturn.turn ho₁ ho₂ (hcall₁.trans hcall) hover).resolve_right ?_
      rintro ⟨token, hparked, hcancel, -⟩
      have hlistening := hturn.patient n o₁ o₂ _ token ho₁ ho₂ hparked hcancel
      have hdelivered := (hd.turns hw hturns hkept₁).delivered hw₁ (mem_of_nth ho₁) hparked
      exact nomatch hdelivered.symm.trans hlistening

end Timer

section Registered

variable {token : WaiterToken}

/-- A registration is that of one operation. -/
theorem Attended.nth_unique (hw : w.Attended) {m : Nat} (ho : w.nth n = some o)
    (ho' : w.nth m = some o') (hid : (id, token) ∈ o.rest.registrations)
    (hid' : (id, token) ∈ o'.rest.registrations) : n = m := by
  have hnodup : (w.operations.reverse.flatMap (·.rest.registrations)).Nodup := by
    refine List.Nodup.of_map (·.2) (((List.Perm.flatMap_right _ ?_).map _).nodup_iff.1
      hw.accounts.distinct)
    exact (List.reverse_perm _).symm
  have hpairwise := (List.nodup_flatMap.1 hnodup).2
  rw [List.pairwise_iff_getElem] at hpairwise
  obtain ⟨hn, rfl⟩ := List.getElem?_eq_some_iff.1 ho
  obtain ⟨hm, rfl⟩ := List.getElem?_eq_some_iff.1 ho'
  rcases Nat.lt_trichotomy n m with hlt | heq | hgt
  · exact (hpairwise n m hn hm hlt hid hid').elim
  · exact heq
  · exact (hpairwise m n hm hn hgt hid' hid).elim

theorem Attended.registered (hw : w.Attended) (htoken : token ∈ w.service.waiters.tokens id) :
    ∃! n, ∃ o, w.nth n = some o ∧ o.call = .wait id ∧ (id, token) ∈ o.rest.registrations := by
  obtain ⟨o, ho, hmem⟩ := List.mem_flatMap.1 (hw.accounts.listed id token htoken)
  obtain ⟨n, hn⟩ := List.mem_iff_getElem?.1 (List.mem_reverse.2 ho)
  refine ⟨n, ⟨o, hn, hw.called o ho id (Task.awaiting_of_registrations hmem), hmem⟩, ?_⟩
  rintro m ⟨o', hm, -, hmem'⟩
  exact hw.nth_unique hm hn hmem' hmem

/-- When a wait returns, its registration alone is ended. -/
theorem Attended.leaving (hw : w.Attended) (h : Turn ps w w') (ho : w.nth n = some o)
    (ho' : w'.nth n = some o') (hmem : (id, token) ∈ o.rest.registrations)
    (hended : o'.rest.registrations = []) :
    (∀ id', w'.service.waiters.tokens id' =
      (w.service.waiters.tokens id').filter (· != token)) ∧
    ∀ token', token' ≠ token →
      w'.service.waiters.receivers.get? token' = w.service.waiters.receivers.get? token' := by
  rcases h.nth ho with hsame | ⟨o'', ho'', hproceeds⟩
  · obtain rfl := Option.some.inj (ho'.symm.trans hsame)
    rw [hended] at hmem
    exact absurd hmem List.not_mem_nil
  obtain rfl := Option.some.inj (ho'.symm.trans ho'')
  obtain ⟨before, after, hsplit⟩ := List.append_of_mem (mem_of_nth ho)
  have hperm : w.registrations.Perm (o.rest.registrations ++
      (before.flatMap (·.rest.registrations) ++ after.flatMap (·.rest.registrations))) := by
    rw [registrations, hsplit, List.flatMap_append, List.flatMap_cons]
    exact List.perm_append_comm_assoc _ _ _
  have haccounts := hw.accounts.perm hperm
  generalize w'.service = s' at hproceeds ⊢
  cases hproceeds with
  | advance => exact (o.rest.step_moves ps w.service).attends.leaving haccounts hmem hended
  | timeOut => exact (o.rest.timeOut_attends w.service).leaving haccounts hmem hended

end Registered

/-- No wake-up is lost, wherever turns lead. -/
theorem Runs.wakesAll (hw : w.Runs ps) : w.WakesAll ps where
  told d hd o ho token hrest := hd.delivered hw ho hrest
  returns d hd w' h hkept o ho hcall := (hd.turns hw h hkept).returns (hw.trans h) ho hcall
  already d hd w' h hkept n o o' ho ho' hcall hover := by
    obtain ⟨o'', ho'', -, hold⟩ := hd.already hw h hkept ho hcall
    obtain rfl := Option.some.inj (ho'.symm.trans ho'')
    exact hold hover
  timer w' h n o o' id ho ho' hcall hover := hw.timer h ho ho' hcall hover
  atOnce d hd hkept o _ hrest := by
    rw [hrest, Task.step, hkept d hd rfl]
  registered id token htoken := hw.attended.registered htoken
  leaving w' h n o o' id token answer ho ho' hmem hrest := by
    refine hw.attended.leaving h ho ho' hmem ?_
    rw [hrest]
    rfl

/-- Somebody waits for the request that has been made, and somebody else finds it too late and settles it;
the verdict has not been handed over yet. -/
def oneAwaited : World :=
  (oneMade.perform .tellingNothing 3 (.wait ⟨List.replicate 16 1⟩)).perform .tellingNothing 4
    (.status ⟨List.replicate 16 1⟩ ⟨4000000000, 0⟩)

theorem runs_oneAwaited : oneAwaited.Runs .tellingNothing :=
  (runs_oneMade.perform 3 fun _ hid => absurd hid List.not_mem_nil).perform 4
    fun _ hid => absurd hid List.not_mem_nil

theorem oneAwaited_facts :
    (oneAwaited.nth 1).map (·.rest.parking) = some [(⟨List.replicate 16 1⟩, ⟨0⟩)] ∧
      oneAwaited.recordings.map (·.request.id) = [⟨List.replicate 16 1⟩] ∧
      oneAwaited.notifying = [] ∧
      (oneAwaited.service.verdicts.get? ⟨List.replicate 16 1⟩).isSome := by
  decide +kernel

/-- Whoever waits there has been told the verdict and is about to return it. -/
theorem wakesAll_oneAwaited : oneAwaited.WakesAll .tellingNothing ∧
    ∃ d o token, oneAwaited.Told d ∧ oneAwaited.nth 1 = some o ∧
      o.rest = .parked d.request.id token ∧
      oneAwaited.service.waiters.receivers.get? token = some (.delivered d.verdict) ∧
      (o.rest.run .tellingNothing 3 oneAwaited.service).1 =
        .done (.waited (.completed d.verdict)) := by
  have hw := runs_oneAwaited
  have hwakes := hw.wakesAll
  obtain ⟨hparking, hrecordings, hnotifying, hkept⟩ := oneAwaited_facts
  generalize (⟨List.replicate 16 1⟩ : RequestId) = id at hparking hrecordings hkept
  obtain ⟨v, hv⟩ := Option.isSome_iff_exists.1 hkept
  obtain ⟨d, hd, rfl, rfl⟩ := hw.retained.recorded hv
  have htold : oneAwaited.Told d := by
    refine ⟨hd, fun d' hd' hid => ?_, ?_⟩
    · rw [hw.retained.delivery_unique hd' hd hid]
      exact hv
    · rw [hnotifying]
      exact List.not_mem_nil
  obtain ⟨o, ho, hparking⟩ := Option.map_eq_some_iff.1 hparking
  have hmem : (d.request.id, ⟨0⟩) ∈ o.rest.parking := by
    rw [hparking]
    exact List.mem_cons_self
  have hcall := hw.attended.called o (mem_of_nth ho) d.request.id
    (Task.awaiting_of_registrations (Task.parking_subset _ hmem))
  have hrest : o.rest = .parked d.request.id ⟨0⟩ := by
    have hawaits := hw.awaits o (mem_of_nth ho) _ hcall
    generalize o.rest = rest at hawaits hmem
    cases hawaits with
    | parked token =>
        obtain rfl := congrArg Prod.snd (List.mem_singleton.1 hmem)
        rfl
    | _ => exact absurd hmem List.not_mem_nil
  refine ⟨hwakes, d, o, ⟨0⟩, htold, ho, hrest, hwakes.told d htold o (mem_of_nth ho) _ hrest, ?_⟩
  refine (hwakes.returns d htold _ .refl htold.kept o (mem_of_nth ho) hcall).resolve_left ?_
  rw [hrest]
  simp [Task.TimedOut]

end World
end PrivatePresentation
