import PrivatePresentation.Proofs.Service.SettledOnce
import PrivatePresentation.Proofs.Service.Timeliness

/-!
Polling.  A poll looks for the verdict, then for the request, and takes a request that is too late; in
between others may take the request and record its verdict.  So a poll may find neither, or tell that a
request is too late and leave it to somebody else to settle it in another way; but it is never told the
wrong verdict, and no verdict is told of a request that is pending again later.
-/

namespace PrivatePresentation

/-- What is told of a request without a verdict. -/
def ResultView.bare (state : ResultState) : ResultView := ⟨state, none, none, none⟩

namespace World

/-- A call for a result with its answer, and how it has found the world and left it. -/
structure Poll where
  now : Timestamp
  view : ResultView
  called : World
  answered : World

namespace Poll

/-- The poll is for a request, and it has answered. -/
structure IsFor (ps : ProofSystem) (id : RequestId) (p : Poll) : Prop where
  runs : Relation.ReflTransGen (Turn ps)
    ⟨p.called.service, .start (.result id p.now) :: p.called.operations⟩ p.answered
  answers : ∃ o, p.answered.nth p.called.operations.length = some o ∧ o.rest = .done (.result p.view)

/-- Another operation has taken the request before the poll has answered. -/
def IsOvertaken (p : Poll) (r : PresentationRequest) : Prop :=
  ∃ n o, n ≠ p.called.operations.length ∧ p.answered.nth n = some o ∧ r ∈ o.taken

end Poll

/-- Polls for a request, each called when the one before has answered, with any turns in between. -/
inductive Polls (ps : ProofSystem) (id : RequestId) (w : World) : List Poll → World → Prop where
  | none : Polls ps id w [] w
  | turn {polls : List Poll} {w' w'' : World} (h : Polls ps id w polls w') (hturn : Turn ps w' w'') :
      Polls ps id w polls w''
  | poll {polls : List Poll} {p : Poll} (h : Polls ps id w polls p.called) (hp : p.IsFor ps id) :
      Polls ps id w (polls ++ [p]) p.answered

/-- What successive polls for a request are told. -/
structure PollsInOrder (w : World) (r : PresentationRequest) (polls : List Poll) : Prop where
  /-- First that the request is pending; then once, perhaps, that it is too late, and perhaps that it is
  not known; and from then on its one verdict. -/
  order : ∃ (pending late unknown settled : Nat) (v : Verdict),
    polls.map (·.view) = List.replicate pending (ResultView.bare .pending) ++
      List.replicate late (ResultView.bare (.settled .expired)) ++
      List.replicate unknown (ResultView.bare .unknown) ++
      List.replicate settled (ResultView.ofVerdict v) ∧
    late ≤ 1 ∧ (settled ≠ 0 → ⟨r, v⟩ ∈ w.recordings)
  /-- Whoever is told that it is pending has called while it was so, and in time. -/
  pending : ∀ p ∈ polls, p.view = .bare .pending → r ∈ p.called.pending ∧ r.isExpired p.now = false
  /-- Whoever calls after the verdict has been recorded is told the verdict. -/
  settled : ∀ p ∈ polls, ∀ v, ⟨r, v⟩ ∈ p.called.recordings → p.view = .ofVerdict v
  /-- Whoever is told that it is too late, and no verdict, has called while it was pending; but before
  the poll could take it, another operation has. -/
  late : ∀ p ∈ polls, p.view = .bare (.settled .expired) →
    r ∈ p.called.pending ∧ r.isExpired p.now = true ∧ p.IsOvertaken r
  /-- Whoever is told that it is not known has called before there was a verdict, and another operation
  has taken the request. -/
  unknown : ∀ p ∈ polls, p.view = .bare .unknown →
    (∀ v, ⟨r, v⟩ ∉ p.called.recordings) ∧ p.IsOvertaken r
  /-- Whoever asks for the status alone and is told that it is too late has asked too late. -/
  status : ∀ o ∈ w.operations, ∀ now, o.call = .status r.id now →
    o.rest = .done (.status .expired) → r.isExpired now = true
  /-- The verdict is that it was too late exactly if it was so at the instant of the verdict. -/
  timely : ∀ v, ⟨r, v⟩ ∈ w.recordings → (Delivery.mk r v).IsTimely

variable {ps : ProofSystem} {w w' : World} {r : PresentationRequest} {id : RequestId}

/-- What a poll tells, when it was called in one world and answers in another, if it has taken some
requests itself. -/
inductive Sees (w w' : World) (r : PresentationRequest) (now : Timestamp) :
    List PresentationRequest → ResultView → Prop where
  | pending (hr : r ∈ w.pending) (htime : r.isExpired now = false) : Sees w w' r now [] (.bare .pending)
  | settled {taken : List PresentationRequest} {v : Verdict} (hd : ⟨r, v⟩ ∈ w'.recordings) :
      Sees w w' r now taken (.ofVerdict v)
  | late (hr : r ∈ w.pending) (hlate : r.isExpired now = true) (hgone : r ∉ w'.pending) :
      Sees w w' r now [] (.bare (.settled .expired))
  | unknown (hnone : ∀ v, ⟨r, v⟩ ∉ w.recordings) (hgone : r ∉ w'.pending) :
      Sees w w' r now [] (.bare .unknown)

/-- How far a poll has come: what is left to do, and what it has taken. -/
inductive Polling (w w' : World) (r : PresentationRequest) (now : Timestamp) :
    Task → List PresentationRequest → Prop where
  | called : Polling w w' r now (.result r.id now) []
  | unsettled (hnone : ∀ v, ⟨r, v⟩ ∉ w.recordings) : Polling w w' r now (.status r.id now true) []
  | late (hr : r ∈ w.pending) (hlate : r.isExpired now = true) :
      Polling w w' r now (.expire r.id now (.resultOfExpired r.id)) []
  | recording (v : Verdict) :
      Polling w w' r now (.settle .record r v (.resultOfExpired r.id)) [r]
  | telling {stage : Settling} {v : Verdict} (hstage : stage ≠ .record) (hd : ⟨r, v⟩ ∈ w'.recordings) :
      Polling w w' r now (.settle stage r v (.resultOfExpired r.id)) [r]
  | recorded {v : Verdict} (hd : ⟨r, v⟩ ∈ w'.recordings) :
      Polling w w' r now (.resultOfExpired r.id) [r]
  | lost (hr : r ∈ w.pending) (hlate : r.isExpired now = true) (hgone : r ∉ w'.pending) :
      Polling w w' r now (.resultOfExpired r.id) []
  | answered {taken : List PresentationRequest} {view : ResultView}
      (h : Sees w w' r now taken view) : Polling w w' r now (.done (.result view)) taken

section Polling

variable {w₀ : World} {now : Timestamp} {taken : List PresentationRequest}

theorem Sees.mono {view : ResultView} (h : Sees w₀ w r now taken view)
    (hrecordings : w.recordings ⊆ w'.recordings) (hgone : r ∉ w.pending → r ∉ w'.pending) :
    Sees w₀ w' r now taken view := by
  cases h with
  | pending hr htime => exact .pending hr htime
  | settled hd => exact .settled (hrecordings hd)
  | late hr hlate hgone' => exact .late hr hlate (hgone hgone')
  | unknown hnone hgone' => exact .unknown hnone (hgone hgone')

/-- What a poll has come to stays true whatever others do. -/
theorem Polling.mono {t : Task} (h : Polling w₀ w r now t taken)
    (hrecordings : w.recordings ⊆ w'.recordings) (hgone : r ∉ w.pending → r ∉ w'.pending) :
    Polling w₀ w' r now t taken := by
  cases h with
  | called => exact .called
  | unsettled hnone => exact .unsettled hnone
  | late hr hlate => exact .late hr hlate
  | recording v => exact .recording v
  | telling hstage hd => exact .telling hstage (hrecordings hd)
  | recorded hd => exact .recorded (hrecordings hd)
  | lost hr hlate hgone' => exact .lost hr hlate (hgone hgone')
  | answered h => exact .answered (h.mono hrecordings hgone)

theorem Polling.timeOut {t : Task} (h : Polling w₀ w r now t taken) :
    Polling w₀ w r now t.timeOut taken := by
  cases h with
  | called => exact .called
  | unsettled hnone => exact .unsettled hnone
  | late hr hlate => exact .late hr hlate
  | recording v => exact .recording v
  | telling hstage hd => exact .telling hstage hd
  | recorded hd => exact .recorded hd
  | lost hr hlate hgone => exact .lost hr hlate hgone
  | answered h => exact .answered h

/-- What a poll comes to with its next step. -/
theorem Polling.step {t t' : Task} {s' : Service} {e : Effect} (h : Polling w₀ w r now t taken)
    (hmoves : t.Moves ps w.service e t' s') (hw : w.Retained)
    (hturns : Relation.ReflTransGen (Turn ps) w₀ w) (hr : r ∈ w₀.created) (hw₀ : w₀.Retained)
    (hkeeps : w.Keeps r.id) (hrecordings : w.recordings ++ e.recorded ⊆ w'.recordings)
    (hgone : r ∉ w.pending → r ∉ w'.pending) : Polling w₀ w' r now t' (taken ++ e.taken) := by
  have hcreated : r ∈ w.created := created_of_turns hturns hr
  have hold : w.recordings ⊆ w'.recordings :=
    List.Subset.trans (List.subset_append_left _ _) hrecordings
  cases h with
  | called =>
      cases hmoves with
      | tells hget => exact .answered (.settled (hold (hw.recorded_of_get? hcreated hget)))
      | asks hget =>
          exact .unsettled fun v hd =>
            hkeeps.unrecorded_of_get? hget v (recordings_of_turns hturns hd)
  | unsettled hunsettled =>
      cases hmoves with
      | misses hget => exact .answered (.unknown hunsettled (hgone (hw.gone_of_get? hget)))
      | late hget hlate =>
          obtain ⟨rfl, hpending⟩ := hw.eq_of_get? hcreated hget
          exact .late (hw₀.pending_of_turns hturns hr hpending) hlate
      | pends hget htime =>
          obtain ⟨rfl, hpending⟩ := hw.eq_of_get? hcreated hget
          exact .answered (.pending (hw₀.pending_of_turns hturns hr hpending) htime)
  | late hpending hlate =>
      cases hmoves with
      | overtaken hget => exact .lost hpending hlate (hgone (hw.gone_of_get? hget))
      | expires hget =>
          obtain ⟨rfl, -⟩ := hw.eq_of_get? hcreated hget
          exact .recording _
  | recording v =>
      cases hmoves with
      | records =>
          exact .telling (by simp) (hrecordings (List.mem_append_right _ List.mem_cons_self))
  | telling hstage hd =>
      cases hmoves with
      | records => exact absurd rfl hstage
      | notifies => exact .telling (by simp) (hold hd)
      | delivers => exact .recorded (hold hd)
  | recorded hd =>
      cases hmoves with
      | tellsExpired hget => exact .answered (.settled (hold (hw.recorded_of_get? hcreated hget)))
      | guesses hget => exact absurd hd (hkeeps.unrecorded_of_get? hget _)
  | lost hpending hlate hgone' =>
      cases hmoves with
      | tellsExpired hget => exact .answered (.settled (hold (hw.recorded_of_get? hcreated hget)))
      | guesses hget => exact .answered (.late hpending hlate (hgone hgone'))
  | answered h =>
      cases hmoves with
      | rests =>
          rw [List.append_nil]
          exact .answered (h.mono hold hgone)

/-- What an operation that polls has come to, after any turns. -/
theorem polling_of_turns {w₁ : World} {n : Nat} (hw₀ : w₀.Retained) (hr : r ∈ w₀.created)
    (hcall : Turn ps w₀ w₁) (hstart : w₁.nth n = some (.start (.result r.id now)))
    (hturns : Relation.ReflTransGen (Turn ps) w₁ w) (hkeeps : w.Keeps r.id) :
    ∃ o, w.nth n = some o ∧ Polling w₀ w r now o.rest o.taken := by
  induction hturns with
  | refl => exact ⟨_, hstart, .called⟩
  | @tail w w' hbefore hturn ih =>
      have hturns := Relation.ReflTransGen.head hcall hbefore
      have hw := hw₀.turns hturns
      have hcreated := created_of_turns hturns hr
      have hgone : r ∉ w.pending → r ∉ w'.pending :=
        mt (hw.pending_of_turn hturn hcreated)
      have hkept := hw.keeps_of_turn hturn hkeeps
      obtain ⟨o, ho, hpolling⟩ := ih hkept
      rcases hturn.nth ho with ho' | ⟨o', ho', hproceeds⟩
      · exact ⟨o, ho', hpolling.mono hturn.recordings_subset hgone⟩
      · refine ⟨o', ho', ?_⟩
        generalize w'.service = s' at hproceeds
        cases hproceeds with
        | timeOut => exact (hpolling.mono hturn.recordings_subset hgone).timeOut
        | advance =>
            refine hpolling.step (o.rest.step_moves ps w.service) hw hturns hr hw₀ hkept
              (fun d hd => ?_) hgone
            rcases List.mem_append.1 hd with hold | hnow
            · exact hturn.recordings_subset hold
            · exact List.mem_flatMap.2 ⟨_, mem_of_nth ho', List.mem_append_right _ hnow⟩

end Polling

section Order

variable {p : Poll} {polls : List Poll} {v : Verdict}

theorem turn_start (w : World) (now : Timestamp) :
    Turn ps w ⟨w.service, .start (.result id now) :: w.operations⟩ :=
  .step (.call (.result id now) fun _ hid => absurd hid List.not_mem_nil)

theorem Poll.IsFor.turns (hp : p.IsFor ps id) : Relation.ReflTransGen (Turn ps) p.called p.answered :=
  .head (turn_start p.called p.now) hp.runs

/-- What a poll that has answered has seen. -/
theorem Poll.IsFor.sees (hp : p.IsFor ps r.id) (hw : p.called.Retained) (hr : r ∈ p.called.created)
    (hkeeps : p.answered.Keeps r.id) :
    ∃ o, p.answered.nth p.called.operations.length = some o ∧
      Sees p.called p.answered r p.now o.taken p.view := by
  have hstart := (nth_call p.called.service p.called.service p.called.operations
    (.start (.result r.id p.now))).trans (if_pos rfl)
  obtain ⟨o, ho, hpolling⟩ := polling_of_turns hw hr (turn_start p.called p.now) hstart hp.runs hkeeps
  obtain ⟨o', ho', hrest⟩ := hp.answers
  obtain rfl := Option.some.inj (ho.symm.trans ho')
  rw [hrest] at hpolling
  cases hpolling with
  | answered h => exact ⟨o, ho, h⟩

/-- A poll that has not taken the request, which is not pending any more, has been overtaken. -/
theorem Poll.IsFor.isOvertaken (hp : p.IsFor ps r.id) (hw : p.called.Retained)
    (hr : r ∈ p.called.created) {o : Operation}
    (ho : p.answered.nth p.called.operations.length = some o) (htaken : r ∉ o.taken)
    (hgone : r ∉ p.answered.pending) : p.IsOvertaken r := by
  obtain ⟨o', ho', htaken'⟩ :=
    (hw.turns hp.turns).taken_of_gone (created_of_turns hp.turns hr) hgone
  obtain ⟨n, hn⟩ := List.mem_iff_getElem?.1 (List.mem_reverse.2 ho')
  refine ⟨n, o', ?_, hn, htaken'⟩
  rintro rfl
  obtain rfl := Option.some.inj (ho.symm.trans hn)
  exact htaken htaken'

theorem Polls.turns (h : Polls ps id w polls w') : Relation.ReflTransGen (Turn ps) w w' := by
  induction h with
  | none => exact .refl
  | turn _ hturn ih => exact ih.tail hturn
  | poll _ hp ih => exact ih.trans hp.turns

/-- Each of successive polls was called and has answered in between. -/
theorem Polls.mem (h : Polls ps id w polls w') (hp : p ∈ polls) :
    p.IsFor ps id ∧ Relation.ReflTransGen (Turn ps) w p.called ∧
      Relation.ReflTransGen (Turn ps) p.answered w' := by
  induction h with
  | none => exact absurd hp List.not_mem_nil
  | turn _ hturn ih =>
      obtain ⟨hfor, hbefore, hafter⟩ := ih hp
      exact ⟨hfor, hbefore, hafter.tail hturn⟩
  | poll h hq ih =>
      rcases List.mem_append.1 hp with hp | hp
      · obtain ⟨hfor, hbefore, hafter⟩ := ih hp
        exact ⟨hfor, hbefore, hafter.trans hq.turns⟩
      · obtain rfl := List.mem_singleton.1 hp
        exact ⟨hq, h.turns, .refl⟩

/-- The order of the answers, with what they say of the request. -/
theorem Polls.order (h : Polls ps r.id w polls w') (hw : w.Retained) (hr : r ∈ w.created)
    (hkeeps : w'.Keeps r.id) :
    ∃ (pending late unknown settled : Nat) (v : Verdict),
      polls.map (·.view) = List.replicate pending (ResultView.bare .pending) ++
        List.replicate late (ResultView.bare (.settled .expired)) ++
        List.replicate unknown (ResultView.bare .unknown) ++
        List.replicate settled (ResultView.ofVerdict v) ∧
      late ≤ 1 ∧ (settled ≠ 0 → ⟨r, v⟩ ∈ w'.recordings) ∧
      (late + unknown + settled ≠ 0 → r ∉ w'.pending) := by
  induction h with
  | none => exact ⟨0, 0, 0, 0, default, rfl, by omega, by omega, by omega⟩
  | turn h hturn ih =>
      have hw' := hw.turns h.turns
      obtain ⟨a, b, c, d, v, hviews, hb, hd, hgone⟩ := ih (hw'.keeps_of_turn hturn hkeeps)
      refine ⟨a, b, c, d, v, hviews, hb, fun hne => hturn.recordings_subset (hd hne), fun hne => ?_⟩
      exact mt (hw'.pending_of_turn hturn (created_of_turns h.turns hr)) (hgone hne)
  | @poll polls p h hp ih =>
      have hw' := hw.turns h.turns
      have hr' := created_of_turns h.turns hr
      obtain ⟨a, b, c, d, v, hviews, hb, hd, hgone⟩ := ih (hw'.keeps_of_turns hp.turns hkeeps)
      obtain ⟨o, -, hsees⟩ := hp.sees hw' hr' hkeeps
      rw [List.map_append, hviews, List.map_singleton]
      generalize p.view = view at hsees ⊢
      generalize o.taken = taken at hsees
      cases hsees with
      | pending hpending htime =>
          obtain ⟨rfl, rfl, rfl⟩ : b = 0 ∧ c = 0 ∧ d = 0 := by
            by_contra hne
            exact hgone (by omega) hpending
          refine ⟨a + 1, 0, 0, 0, v, ?_, by omega, by omega, by omega⟩
          simp [List.replicate_succ']
      | @settled _ v' hd' =>
          refine ⟨a, b, c, d + 1, v', ?_, hb, fun _ => hd', fun _ => ?_⟩
          · by_cases hzero : d = 0
            · simp [hzero]
            · have hold := recordings_of_turns hp.turns (hd hzero)
              rw [(hw'.turns hp.turns).verdict_unique hold hd', List.replicate_succ',
                List.append_assoc]
          · exact (hw'.turns hp.turns).gone_of_recorded hd'
      | late hpending hlate hgone' =>
          obtain ⟨rfl, rfl, rfl⟩ : b = 0 ∧ c = 0 ∧ d = 0 := by
            by_contra hne
            exact hgone (by omega) hpending
          refine ⟨a, 1, 0, 0, v, ?_, by omega, by omega, fun _ => hgone'⟩
          simp
      | unknown hnone hgone' =>
          obtain rfl : d = 0 := by
            by_contra hne
            exact hnone v (hd hne)
          refine ⟨a, b, c + 1, 0, v, ?_, hb, by omega, fun _ => hgone'⟩
          simp [List.replicate_succ']

end Order

/-- What successive polls for a request are told, as long as its verdict is not forgotten. -/
theorem Runs.pollsInOrder {polls : List Poll} (hw : w.Runs ps) (hr : r ∈ w.created)
    (hpolls : Polls ps r.id w polls w') (hkeeps : w'.Keeps r.id) : w'.PollsInOrder r polls := by
  have hw' := hw.trans hpolls.turns
  have hretained := hw.retained
  -- What each of the polls has seen.
  have hsees {p : Poll} (hp : p ∈ polls) : p.IsFor ps r.id ∧ p.called.Retained ∧
      r ∈ p.called.created ∧ ∃ o, p.answered.nth p.called.operations.length = some o ∧
        Sees p.called p.answered r p.now o.taken p.view := by
    obtain ⟨hfor, hbefore, hafter⟩ := hpolls.mem hp
    have hcalled := hretained.turns hbefore
    have hcreated := created_of_turns hbefore hr
    exact ⟨hfor, hcalled, hcreated, hfor.sees hcalled hcreated
      ((hcalled.turns hfor.turns).keeps_of_turns hafter hkeeps)⟩
  refine ⟨?_, fun p hp hview => ?_, fun p hp v hd => ?_, fun p hp hview => ?_, fun p hp hview => ?_,
    fun o ho now hcall hrest => ?_, fun v hd => ?_⟩
  · obtain ⟨a, b, c, d, v, hviews, hb, hd, -⟩ := hpolls.order hretained hr hkeeps
    exact ⟨a, b, c, d, v, hviews, hb, hd⟩
  · obtain ⟨-, -, -, o, -, hsees⟩ := hsees hp
    rw [hview] at hsees
    generalize o.taken = taken at hsees
    cases hsees with
    | pending hpending htime => exact ⟨hpending, htime⟩
  · obtain ⟨hfor, hcalled, -, o, -, hsees⟩ := hsees hp
    have hgone := hcalled.gone_of_recorded hd
    generalize p.view = view at hsees
    generalize o.taken = taken at hsees
    cases hsees with
    | pending hpending htime => exact absurd hpending hgone
    | late hpending hlate hgone' => exact absurd hpending hgone
    | unknown hnone hgone' => exact absurd hd (hnone v)
    | settled hd' =>
        have hold := recordings_of_turns hfor.turns hd
        rw [(hcalled.turns hfor.turns).verdict_unique hold hd']
  · obtain ⟨hfor, hcalled, hcreated, o, ho, hsees⟩ := hsees hp
    generalize p.view = view at hview hsees
    generalize htaken : o.taken = taken at hsees
    cases hsees with
    | pending hpending htime => exact nomatch congrArg ResultView.state hview
    | settled hd => exact nomatch congrArg ResultView.ok hview
    | unknown hnone hgone => exact nomatch congrArg ResultView.state hview
    | late hpending hlate hgone =>
        refine ⟨hpending, hlate, hfor.isOvertaken hcalled hcreated ho ?_ hgone⟩
        rw [htaken]
        exact List.not_mem_nil
  · obtain ⟨hfor, hcalled, hcreated, o, ho, hsees⟩ := hsees hp
    rw [hview] at hsees
    generalize htaken : o.taken = taken at hsees
    cases hsees with
    | unknown hnone hgone =>
        refine ⟨hnone, hfor.isOvertaken hcalled hcreated ho ?_ hgone⟩
        rw [htaken]
        exact List.not_mem_nil
  · have htells := hw'.timely.status o ho r.id now hcall
    rw [hrest] at htells
    obtain ⟨r', hr', hid, hlate⟩ := htells rfl
    rw [hw'.retained.eq_of_id (created_of_turns hpolls.turns hr) hr' hid.symm]
    exact hlate
  · exact hw'.timely.recorded _ hd

section Race

/-- An operation makes its next step. -/
theorem exists_advance {s s' : Service} {t' : Task} (before after : List Operation) {o : Operation}
    (h : o.rest.step ps s = (t', s')) : ∃ o', o'.rest = t' ∧
      Turn ps ⟨s, before ++ o :: after⟩ ⟨s', before ++ o' :: after⟩ := by
  have hturn := Turn.step (@Step.advance ps s before after o)
  rw [h] at hturn
  exact ⟨o.advance ps s, congrArg Prod.fst h, hturn⟩

variable {s : Service} {operations : List Operation} {id : RequestId}

/-- A poll with nothing in between is told the verdict, if there is one. -/
theorem exists_poll_settled {v : Verdict} (now : Timestamp) (hv : s.verdicts.get? id = some v) :
    ∃ o, Poll.IsFor ps id ⟨now, .ofVerdict v, ⟨s, operations⟩, ⟨s, o :: operations⟩⟩ := by
  have hlook : (Operation.start (.result id now)).rest.step ps s =
      (.done (.result (.ofVerdict v)), s) := by
    simp only [Operation.start, Call.task, Task.step, hv]
  obtain ⟨o, ho, hturn⟩ := exists_advance [] operations hlook
  exact ⟨o, .single hturn, o, (nth_call s s operations o).trans (if_pos rfl), ho⟩

/-- A poll with nothing in between is told that nothing is known, if neither a verdict nor the request is
there. -/
theorem exists_poll_unknown (now : Timestamp) (hnone : s.verdicts.get? id = none)
    (hgone : s.requests.get? id = none) :
    ∃ o, Poll.IsFor ps id ⟨now, .bare .unknown, ⟨s, operations⟩, ⟨s, o :: operations⟩⟩ := by
  have hlook : (Operation.start (.result id now)).rest.step ps s = (.status id now true, s) := by
    simp only [Operation.start, Call.task, Task.step, hnone]
  obtain ⟨o, ho, hturn⟩ := exists_advance [] operations hlook
  have hmiss : o.rest.step ps s = (.done (.result (.bare .unknown)), s) := by
    simp only [ho, Task.step, hgone, if_true, ResultView.bare]
  obtain ⟨o', ho', hturn'⟩ := exists_advance [] operations hmiss
  exact ⟨o', .head hturn (.single hturn'), o', (nth_call s s operations o').trans (if_pos rfl), ho'⟩

/-- A submission that comes in time takes the request from a poll that has found it too late. -/
theorem exists_poll_late {sub : Submission} {early late : Timestamp}
    (hget : s.requests.get? r.id = some r) (hnone : s.verdicts.get? r.id = none)
    (hwell : Service.malformed? sub = none) (hid : RequestId.parseTrimmed sub.requestId = .ok r.id)
    (hlate : r.isExpired late = true) :
    ∃ a b, b.rest = .check r sub early ∧ Poll.IsFor ps r.id ⟨late, .bare (.settled .expired),
      ⟨s, operations⟩, ⟨{ s with requests := s.requests.erase r.id }, b :: a :: operations⟩⟩ := by
  have hlook : (Operation.start (.result r.id late)).rest.step ps s = (.status r.id late true, s) := by
    simp only [Operation.start, Call.task, Task.step, hnone]
  obtain ⟨a₁, ha₁, hturn₁⟩ := exists_advance [] operations hlook
  have hfind : a₁.rest.step ps s = (.expire r.id late (.resultOfExpired r.id), s) := by
    simp only [ha₁, Task.step, hget, hlate, if_true]
  obtain ⟨a₂, ha₂, hturn₂⟩ := exists_advance [] operations hfind
  -- Here the submission comes in.
  have hcall : Turn ps ⟨s, a₂ :: operations⟩ ⟨s, .start (.submit sub early) :: a₂ :: operations⟩ :=
    .step (.call _ fun _ hid => absurd hid List.not_mem_nil)
  have htake : (Operation.start (.submit sub early)).rest.step ps s =
      (.check r sub early, { s with requests := s.requests.erase r.id }) :=
    Task.step_submit_taken hwell hid hget
  obtain ⟨b, hb, hturn₃⟩ := exists_advance [] (a₂ :: operations) htake
  have hgone : (s.requests.erase r.id).get? r.id = none :=
    Store.get?_eq_none_iff.2 (s.requests.not_mem_erase r.id)
  generalize hs' : { s with requests := s.requests.erase r.id } = s' at htake hturn₃ ⊢
  have hmissing : s'.requests.get? r.id = none := by
    rw [← hs']
    exact hgone
  have hnone' : s'.verdicts.get? r.id = none := by
    rw [← hs']
    exact hnone
  -- The poll has nothing to take any more, and the submission has recorded no verdict yet.
  have hlose : a₂.rest.step ps s' = (.resultOfExpired r.id, s') := by
    simp only [ha₂, Task.step, Store.take, hmissing]
  obtain ⟨a₃, ha₃, hturn₄⟩ := exists_advance [b] operations hlose
  have htell : a₃.rest.step ps s' = (.done (.result (.bare (.settled .expired))), s') := by
    simp only [ha₃, Task.step, hnone', ResultView.bare]
  obtain ⟨a₄, ha₄, hturn₅⟩ := exists_advance [b] operations htell
  refine ⟨a₄, b, hb, ?_, a₄, ?_, ha₄⟩
  · exact .head hturn₁ (.head hturn₂ (.head hcall (.head hturn₃ (.head hturn₄ (.single hturn₅)))))
  · have hne : operations.length ≠ (a₄ :: operations).length := Nat.ne_of_lt (Nat.lt_succ_self _)
    rw [nth_call s' s', if_neg hne, nth_call s' s', if_pos rfl]

/-- Whoever polls a pending request in the wrong moments is told that it is too late, and then that it
is not known, and after that another verdict than that it was too late. -/
theorem Runs.exists_polls (hw : w.Runs ps) (hr : r ∈ w.pending) {sub : Submission}
    {early late : Timestamp} (hwell : Service.malformed? sub = none)
    (hid : RequestId.parseTrimmed sub.requestId = .ok r.id) (hearly : r.isExpired early = false)
    (hlate : r.isExpired late = true) :
    ∃ polls w' v, Polls ps r.id w polls w' ∧ w'.Keeps r.id ∧ ⟨r, v⟩ ∈ w'.recordings ∧
      v.state ≠ .expired ∧
      polls.map (·.view) = [.bare (.settled .expired), .bare .unknown, .ofVerdict v] := by
  obtain ⟨s, operations⟩ := w
  have hretained := hw.retained
  have hget : s.requests.get? r.id = some r := hretained.get?_requests_iff.2 ⟨hr, rfl⟩
  have hcreated := hretained.created_iff.2 (.inl hr)
  have hnone : s.verdicts.get? r.id = none := by
    rw [Option.eq_none_iff_forall_ne_some]
    intro v hv
    exact hretained.gone_of_recorded (hretained.recorded_of_get? hcreated hv) hr
  obtain ⟨a, b, hb, hfirst⟩ :=
    @exists_poll_late ps r s operations sub early late hget hnone hwell hid hlate
  have hgone : (s.requests.erase r.id).get? r.id = none :=
    Store.get?_eq_none_iff.2 (s.requests.not_mem_erase r.id)
  obtain ⟨c, hsecond⟩ := @exists_poll_unknown ps { s with requests := s.requests.erase r.id }
    (b :: a :: operations) r.id early hnone hgone
  generalize { s with requests := s.requests.erase r.id } = s' at hfirst hsecond
  -- After two polls the verdict of the submission is recorded.
  generalize houtcome : Service.check ps (s'.keys.get? r.schemaHash) r sub early = outcome
  obtain ⟨v, hv⟩ : ∃ v, v = Service.verdictOf r early outcome := ⟨_, rfl⟩
  obtain ⟨howner, hat⟩ : v.requestId = r.id ∧ v.recordedAt = early := by
    rw [hv]
    cases outcome <;> exact ⟨rfl, rfl⟩
  obtain ⟨answer, s'', hcheck⟩ : ∃ answer s'', b.rest.step ps s' =
      (.settle .record r v (.done answer), s'') := by
    rw [hb, Task.step, houtcome, hv]
    exact ⟨_, _, rfl⟩
  obtain ⟨b', hb', hturn⟩ := exists_advance [c] (a :: operations) hcheck
  have hrecord : b'.rest.step ps s'' = (.settle .notify r v (.done answer), s''.record v) := by
    rw [hb', Task.step]
  obtain ⟨b'', -, hturn'⟩ := exists_advance [c] (a :: operations) hrecord
  have hfound : (s''.record v).verdicts.get? r.id = some v := by
    rw [Store.get?_eq_some_iff, ← howner]
    exact List.mem_cons_self
  obtain ⟨d, hthird⟩ := @exists_poll_settled ps (s''.record v) (c :: b'' :: a :: operations) r.id v
    early hfound
  have hpolls := ((((Polls.none.poll hfirst).poll hsecond).turn hturn).turn hturn').poll hthird
  have hw' := hw.trans hpolls.turns
  have hrecorded := hw'.retained.recorded_of_get? (created_of_turns hpolls.turns hcreated) hfound
  refine ⟨_, _, v, hpolls, fun d hd hid => ?_, hrecorded, fun hexpired => ?_, rfl⟩
  · rw [hw'.retained.delivery_unique hd hrecorded hid]
    exact hfound
  · have hlate' := (hw'.timely.recorded _ hrecorded).1 hexpired
    rw [hat, hearly] at hlate'
    cases hlate'

end Race

theorem runs_oneMade : oneMade.Runs .tellingNothing := by
  have hnone : (World.mk {} []).Runs .tellingNothing := ⟨{}, rfl, rfl, rfl, rfl, .refl⟩
  exact hnone.perform 2 fun _ _ => List.not_mem_nil

/-- A submission of nothing for the request. -/
def emptySubmission : Submission where
  requestId := RequestId.text ⟨List.replicate 16 1⟩
  blob := "0"
  publicInputs := []

theorem emptySubmission_facts : Service.malformed? emptySubmission = none ∧
    (RequestId.parseTrimmed emptySubmission.requestId).toOption = some ⟨List.replicate 16 1⟩ := by
  decide +kernel

/-- Polls for one request are told that it is too late, that it is not known, and another verdict. -/
theorem pollsInOrder_oneMade : ∃ r polls w' v, r ∈ oneMade.created ∧
    Polls .tellingNothing r.id oneMade polls w' ∧ w'.Keeps r.id ∧ w'.PollsInOrder r polls ∧
      polls.map (·.view) = [.bare (.settled .expired), .bare .unknown, .ofVerdict v] ∧
      ⟨r, v⟩ ∈ w'.recordings ∧ v.state ≠ .expired := by
  have hw := runs_oneMade
  obtain ⟨r, hr⟩ := Option.isSome_iff_exists.1 isSome_oneMade
  obtain ⟨hpending, hid⟩ := hw.retained.get?_requests_iff.1 hr
  obtain ⟨hwell, hparse⟩ := emptySubmission_facts
  have hparse : RequestId.parseTrimmed emptySubmission.requestId = .ok r.id := by
    rw [hid]
    exact Outcome.of_toOption hparse
  have hearly : r.isExpired r.expiresAt = false := by
    simp [PresentationRequest.isExpired, Timestamp.isAfter]
  have hlate : r.isExpired ⟨r.expiresAt.seconds + 1, 0⟩ = true := by
    simp [PresentationRequest.isExpired, Timestamp.isAfter]
  obtain ⟨polls, w', v, hpolls, hkeeps, hrecorded, hstate, hviews⟩ :=
    hw.exists_polls hpending hwell hparse hearly hlate
  have hcreated := hw.retained.created_iff.2 (.inl hpending)
  exact ⟨r, polls, w', v, hcreated, hpolls, hkeeps, hw.pollsInOrder hcreated hpolls hkeeps, hviews,
    hrecorded, hstate⟩

end World
end PrivatePresentation
