import PrivatePresentation.Proofs.Service.WaiterCalls
import PrivatePresentation.Proofs.Service.Waiters

/-!
Histories of waiters.  What any calls leave of the waiters is told by the calls alone: one more call does
to the waiters what it adds to the history of every registration, and the rest is induction on the calls.
-/

namespace PrivatePresentation

namespace Waiters

/-- What a call leaves of the waiters. -/
def perform (w : Waiters) : WaiterCall → Waiters
  | .register id => (w.register id).2
  | .cancel id token => w.cancel id token
  | .notify id v => (w.notify id v).2
  | .receive token => (w.receive token).2
  | .drop token => (w.drop token).2

/-- The waiters after some calls, of which there were none before. -/
def after (calls : List WaiterCall) : Waiters := calls.foldl perform {}

theorem after_concat (calls : List WaiterCall) (call : WaiterCall) :
    after (calls ++ [call]) = (after calls).perform call := by
  rw [after, List.foldl_concat, after]

variable {w : Waiters} {calls : List WaiterCall}

/-- A call takes the tokens that it ends from the list of its request. -/
theorem tokens_perform (w : Waiters) (call : WaiterCall) (id : RequestId) :
    (w.perform call).tokens id = (w.tokens id).filter (fun t => !call.ends id t) ++
      if call = .register id then [⟨w.next⟩] else [] := by
  cases call with
  | register id' =>
      rw [perform, tokens_register]
      by_cases hid : id = id'
      · simp [hid, WaiterCall.ends]
      · simp [hid, Ne.symm hid, WaiterCall.ends]
  | cancel id' token =>
      rw [perform, tokens_cancel]
      by_cases hid : id = id'
      · have hne : ∀ t, (t != token) = !decide (token = t) := fun t => by
          rw [Bool.eq_iff_iff]
          simp [@eq_comm _ token]
        simp [hid, WaiterCall.ends, hne]
      · simp [hid, Ne.symm hid, WaiterCall.ends]
  | notify id' v =>
      rw [perform, tokens_notify]
      by_cases hid : id = id'
      · simp [hid, WaiterCall.ends]
      · simp [hid, Ne.symm hid, WaiterCall.ends]
  | receive token =>
      rw [perform, tokens_receive]
      simp [WaiterCall.ends]
  | drop token =>
      rw [perform, tokens_drop]
      simp [WaiterCall.ends]

section Receivers

variable {call : WaiterCall} {id : RequestId} {token : WaiterToken}

/-- A call that ends a registration that is listed sends something to its receiving end. -/
theorem receivers_perform_of_ends (hends : call.ends id token = true) (hlisted : token ∈ w.tokens id) :
    (w.perform call).receivers.get? token =
      (w.receivers.get? token).map (Receiver.taking call.sends) := by
  rw [Receiver.map_taking]
  cases call with
  | cancel id' token' =>
      obtain ⟨rfl, rfl⟩ := of_decide_eq_true hends
      rw [perform, cancel, if_pos (List.contains_iff_mem.2 hlisted), receivers_send]
      exact if_congr (and_iff_right rfl) rfl rfl
  | notify id' v =>
      obtain rfl := of_decide_eq_true hends
      rw [perform, receivers_notify]
      exact if_congr (and_iff_right hlisted) rfl rfl
  | _ => exact absurd hends Bool.false_ne_true

/-- A call that is neither made on a receiving end nor ends its registration leaves it as it is. -/
theorem receivers_perform_of_not (hlive : call ≠ .receive token ∧ call ≠ .drop token)
    (hends : ∀ id, token ∈ w.tokens id → call.ends id token = false)
    (hold : ∀ id, call = .register id → token ≠ ⟨w.next⟩) :
    (w.perform call).receivers.get? token = w.receivers.get? token := by
  cases call with
  | register id => rw [perform, receivers_register, if_neg (hold id rfl)]
  | cancel id token' =>
      by_cases htoken : token = token'
      · subst htoken
        by_cases hlisted : token ∈ w.tokens id
        · simpa [WaiterCall.ends] using hends id hlisted
        · rw [perform, cancel, if_neg (by simpa using hlisted)]
      · exact receivers_cancel_of_ne htoken
  | notify id v =>
      have hnot : token ∉ w.tokens id := fun hlisted => by
        simpa [WaiterCall.ends] using hends id hlisted
      rw [perform, receivers_notify, if_neg fun h => hnot h.1]
  | receive token' =>
      have hne : token ≠ token' := fun h => hlive.1 (h ▸ rfl)
      exact receivers_receive_of_ne hne
  | drop token' =>
      have hne : token ≠ token' := fun h => hlive.2 (h ▸ rfl)
      rw [perform, drop, Store.get?_erase, if_neg hne]

theorem receivers_perform_receive : (w.perform (.receive token)).receivers.get? token =
    (w.receivers.get? token).map Receiver.asked := by
  rw [perform, receive]
  split
  · rename_i v hv
    rw [Store.get?_insert, if_pos rfl, hv]
    rfl
  · rename_i state hne hstate
    rw [hstate]
    cases state with
    | delivered v => exact absurd rfl (hne v)
    | _ => rfl
  · rename_i hnone
    rw [hnone]
    rfl

theorem receivers_perform_drop : (w.perform (.drop token)).receivers.get? token = none := by
  rw [perform, drop, Store.get?_erase, if_pos rfl]

end Receivers

theorem next_perform (w : Waiters) (call : WaiterCall) :
    (w.perform call).next = w.next + (call.registration? w.next).toList.length := by
  cases call with
  | register id => rfl
  | cancel id token => exact next_cancel
  | notify id v => exact next_notify
  | receive token =>
      rw [perform, receive]
      split <;> rfl
  | drop token => rfl

theorem isTidy_perform (htidy : w.IsTidy) (call : WaiterCall) : (w.perform call).IsTidy := by
  cases call with
  | register id => exact isTidy_setTokens htidy id _
  | cancel id token =>
      rw [perform, cancel]
      split
      · rw [IsTidy, parked_send]
        exact isTidy_setTokens htidy id _
      · exact htidy
  | notify id v =>
      rw [perform, notify, IsTidy, parked_sendAll]
      exact isTidy_setTokens htidy id _
  | receive token =>
      rw [perform, receive]
      split <;> exact htidy
  | drop token => exact htidy

/-- The waiters are those that some calls leave, as far as the registrations tell. -/
structure Tracks (w : Waiters) (calls : List WaiterCall) : Prop where
  next : w.next = (registrations calls).length
  listed : ∀ id, w.tokens id = openTokens calls id
  tidy : w.IsTidy
  receivers : ∀ r ∈ registrations calls, w.receivers.get? r.token = r.receiver?
  unissued : ∀ token, w.next ≤ token.number → w.receivers.get? token = none

namespace Tracks

variable {r : Registration} {call : WaiterCall}

theorem mem_tokens (h : w.Tracks calls) (hr : r ∈ registrations calls) {id : RequestId} :
    r.token ∈ w.tokens id ↔ r.id = id ∧ r.isOpen = true := by
  rw [h.listed]
  exact mem_openTokens hr

theorem number_lt (h : w.Tracks calls) (hr : r ∈ registrations calls) : r.token.number < w.next := by
  have hmem := List.mem_map_of_mem (f := (·.token)) hr
  rw [map_token_registrations, ← h.next] at hmem
  obtain ⟨n, hn, htoken⟩ := List.mem_map.1 hmem
  rw [← htoken]
  exact List.mem_range.1 hn

/-- What a call does to a receiving end is what it adds to the history of its registration. -/
theorem receivers_perform (h : w.Tracks calls) (hr : r ∈ registrations calls) (call : WaiterCall) :
    (w.perform call).receivers.get? r.token = (r.followedBy call).receiver? := by
  have hold : ∀ id, call = .register id → r.token ≠ ⟨w.next⟩ := fun _ _ heq => by
    have hlt := h.number_lt hr
    rw [heq] at hlt
    exact Nat.lt_irrefl _ hlt
  -- The receiving end is asked, or let go of, or its registration is ended, or nothing is about it.
  by_cases hreceive : call = .receive r.token
  · rw [hreceive, receivers_perform_receive, h.receivers r hr, Registration.receiver?_receive]
  by_cases hdrop : call = .drop r.token
  · rw [hdrop, receivers_perform_drop, Registration.receiver?_drop]
  by_cases hended : r.isEndedBy call = true
  · rw [Registration.receiver?_of_ended hended, ← h.receivers r hr]
    by_cases hopen : r.isOpen = true
    · exact receivers_perform_of_ends hended ((h.mem_tokens hr).2 ⟨rfl, hopen⟩)
    · -- It has been ended before, so it is not listed, and its receiving end does not listen.
      rw [Receiver.map_taking, if_neg]
      · refine receivers_perform_of_not ⟨hreceive, hdrop⟩ (fun id hid => ?_) hold
        exact absurd ((h.mem_tokens hr).1 hid).2 hopen
      · rw [h.receivers r hr]
        exact fun hlistening => hopen (Registration.isOpen_of_listening hlistening)
  · rw [Registration.receiver?_of_not_meant, ← h.receivers r hr]
    · refine receivers_perform_of_not ⟨hreceive, hdrop⟩ (fun id hid => ?_) hold
      obtain ⟨rfl, -⟩ := (h.mem_tokens hr).1 hid
      exact Bool.eq_false_iff.2 hended
    · simp [Registration.isMeantBy, hended, hreceive, hdrop]

theorem perform (h : w.Tracks calls) (call : WaiterCall) : (w.perform call).Tracks (calls ++ [call]) where
  next := by
    rw [next_perform, registrations_concat, List.length_append, List.length_map, h.next]
  listed id := by
    rw [tokens_perform, openTokens_concat, h.listed, h.next]
  tidy := isTidy_perform h.tidy call
  receivers r hr := by
    rw [registrations_concat, List.mem_append, List.mem_map] at hr
    rcases hr with ⟨r, hr, rfl⟩ | hnew
    · exact h.receivers_perform hr call
    · cases call with
      | register id =>
          obtain rfl := List.mem_singleton.1 hnew
          rw [Waiters.perform, receivers_register, if_pos (congrArg _ h.next.symm)]
          rfl
      | _ => exact absurd hnew List.not_mem_nil
  unissued token htoken := by
    have hnone := h.unissued token (Nat.le_trans (next_perform w call ▸ Nat.le_add_right _ _) htoken)
    by_cases hreceive : call = .receive token
    · rw [hreceive, receivers_perform_receive, hnone]
      rfl
    by_cases hdrop : call = .drop token
    · rw [hdrop, receivers_perform_drop]
    rw [receivers_perform_of_not ⟨hreceive, hdrop⟩, hnone]
    · intro id hlisted
      rw [h.listed, openTokens] at hlisted
      obtain ⟨r, hr, rfl⟩ := List.mem_map.1 hlisted
      have hlt := h.number_lt (List.mem_of_mem_filter hr)
      rw [next_perform] at htoken
      omega
    · rintro id rfl rfl
      exact Nat.not_succ_le_self _ htoken

end Tracks

theorem tracks_after (calls : List WaiterCall) : (after calls).Tracks calls := by
  induction calls using List.reverseRecOn with
  | nil =>
      exact ⟨rfl, fun _ => rfl, fun _ => nofun, fun _ hr => absurd hr List.not_mem_nil, fun _ _ => rfl⟩
  | append_singleton calls call ih =>
      rw [after_concat]
      exact ih.perform call

/-- The verdicts that a call fetches from the receiving end of a token. -/
def fetching (w : Waiters) (token : WaiterToken) : WaiterCall → List Verdict
  | .receive token' => if token' = token then (w.receive token').1.verdict?.toList else []
  | _ => []

/-- The verdicts that some calls fetch from the receiving end of a token, one after the other. -/
def fetchedFrom (token : WaiterToken) : Waiters → List WaiterCall → List Verdict
  | _, [] => []
  | w, call :: later => w.fetching token call ++ fetchedFrom token (w.perform call) later

/-- The verdicts that some calls fetch from the receiving end of a token, of which the first is made where
nobody has been registered. -/
def fetched (calls : List WaiterCall) (token : WaiterToken) : List Verdict := fetchedFrom token {} calls

theorem fetchedFrom_concat (token : WaiterToken) (w : Waiters) (calls : List WaiterCall)
    (call : WaiterCall) : fetchedFrom token w (calls ++ [call]) =
      fetchedFrom token w calls ++ (calls.foldl perform w).fetching token call := by
  induction calls generalizing w with
  | nil => simp [fetchedFrom]
  | cons c rest ih =>
      rw [List.cons_append, fetchedFrom, ih, fetchedFrom, List.append_assoc, List.foldl_cons]

theorem fetching_eq (w : Waiters) (token : WaiterToken) (call : WaiterCall) : w.fetching token call =
    if call = .receive token then ((w.receivers.get? token).bind (·.verdict?)).toList else [] := by
  cases call with
  | receive token' =>
      by_cases htoken : token' = token
      · subst htoken
        simp only [fetching, if_true, receive]
        split
        · rename_i v hv
          rw [hv]
          rfl
        · rename_i hstate
          rw [hstate]
          rfl
        · rename_i hnone
          rw [hnone]
          rfl
      · simp [fetching, htoken]
  | _ => simp [fetching]

/-- What is fetched from a receiving end is what the history of its registration tells. -/
theorem fetched_eq (calls : List WaiterCall) :
    (∀ r ∈ registrations calls, fetched calls r.token = r.fetched) ∧
      ∀ token : WaiterToken, (registrations calls).length ≤ token.number → fetched calls token = [] := by
  induction calls using List.reverseRecOn with
  | nil => exact ⟨fun _ hr => absurd hr List.not_mem_nil, fun _ _ => rfl⟩
  | append_singleton calls call ih =>
      obtain ⟨hregistered, hunissued⟩ := ih
      have htracks := tracks_after calls
      have hconcat (token : WaiterToken) : fetched (calls ++ [call]) token =
          fetched calls token ++ (after calls).fetching token call :=
        fetchedFrom_concat token {} calls call
      have hnone (token : WaiterToken) (htoken : (registrations calls).length ≤ token.number) :
          fetched (calls ++ [call]) token = [] := by
        rw [hconcat, hunissued token htoken, fetching_eq,
          htracks.unissued token (htracks.next ▸ htoken)]
        simp
      -- The second part is there for a token that the call itself hands out.
      constructor
      · intro r hr
        rw [registrations_concat, List.mem_append, List.mem_map] at hr
        rcases hr with ⟨r, hr, rfl⟩ | hnew
        · rw [Registration.token_followedBy, hconcat, hregistered r hr, fetching_eq,
            htracks.receivers r hr, Registration.fetched_followedBy]
        · cases call with
          | register id =>
              obtain rfl := List.mem_singleton.1 hnew
              exact hnone _ (Nat.le_refl _)
          | _ => exact absurd hnew List.not_mem_nil
      · intro token htoken
        apply hnone
        rw [registrations_concat, List.length_append, List.length_map] at htoken
        exact Nat.le_of_add_right_le htoken

/-- From no receiving end more than one verdict is fetched. -/
theorem length_fetched (calls : List WaiterCall) (token : WaiterToken) :
    (fetched calls token).length ≤ 1 := by
  obtain ⟨hregistered, hunissued⟩ := fetched_eq calls
  by_cases hissued : token.number < (registrations calls).length
  · have hmem : token ∈ (registrations calls).map (·.token) := by
      rw [map_token_registrations]
      exact List.mem_map.2 ⟨token.number, List.mem_range.2 hissued, rfl⟩
    obtain ⟨r, hr, rfl⟩ := List.mem_map.1 hmem
    rw [hregistered r hr]
    exact r.length_fetched
  · rw [hunissued token (Nat.not_lt.1 hissued)]
    exact Nat.zero_le 1

namespace Tracks

variable {r : Registration} {call : WaiterCall}

/-- A call that does not end a registration leaves it among those of its request. -/
theorem mem_tokens_perform (h : w.Tracks calls) (hr : r ∈ registrations calls)
    (hended : r.isEndedBy call = false) (id : RequestId) :
    r.token ∈ (w.perform call).tokens id ↔ r.token ∈ w.tokens id := by
  have hlater : r.followedBy call ∈ registrations (calls ++ [call]) := by
    rw [registrations_concat]
    exact List.mem_append_left _ (List.mem_map_of_mem hr)
  have hperformed : r.token ∈ (w.perform call).tokens id ↔
      r.id = id ∧ (r.followedBy call).isOpen = true := (h.perform call).mem_tokens hlater
  rw [Registration.isOpen_followedBy, hended, Bool.not_false, Bool.and_true] at hperformed
  exact hperformed.trans (h.mem_tokens hr).symm

theorem isListening_eq (h : w.Tracks calls) (hr : r ∈ registrations calls) (hopen : r.isOpen = true) :
    w.isListening r.token = r.isHeld := by
  rw [isListening, h.receivers r hr, Registration.receiver?_of_open hopen]
  cases r.isHeld with
  | true => simp
  | false => simp

/-- A verdict is counted for each receiving end that is held for an open registration. -/
theorem notify_eq (h : w.Tracks calls) (id : RequestId) (v : Verdict) : (w.notify id v).1 =
    (registrations calls).countP fun r => decide (r.id = id) && r.isOpen && r.isHeld := by
  rw [notify, h.listed, openTokens, List.filter_map, List.length_map, List.filter_filter,
    List.countP_eq_length_filter]
  apply congrArg List.length
  apply List.filter_congr
  intro r hr
  by_cases hopen : r.isOpen = true
  · simp [h.isListening_eq hr hopen, hopen, Bool.and_comm]
  · simp [hopen]

theorem receivers_notify (h : w.Tracks calls) (hr : r ∈ registrations calls) (hopen : r.isOpen = true)
    (hheld : r.isHeld = true) (v : Verdict) :
    (w.notify r.id v).2.receivers.get? r.token = some (.delivered v) := by
  have hended : r.isEndedBy (.notify r.id v) = true := decide_eq_true rfl
  have hperformed := h.receivers_perform hr (.notify r.id v)
  rw [Registration.receiver?_of_ended hended, Registration.receiver?_of_open hopen,
    if_pos hheld] at hperformed
  exact hperformed

end Tracks

/-- Waiters as some calls tell them. -/
structure Reflects (w : Waiters) (calls : List WaiterCall) : Prop where
  /-- Tokens are handed out in the order of the natural numbers, from zero on. -/
  tokens : (registrations calls).map (·.token) =
    (List.range (registrations calls).length).map WaiterToken.mk
  distinct : ((registrations calls).map (·.token)).Nodup
  issued : ∀ id, (w.register id).1 = ⟨(registrations calls).length⟩
  /-- Those who wait for a request are those whose registrations for it are open. -/
  waiting : ∀ id, w.waiting id =
    (registrations calls).countP fun r => decide (r.id = id) && r.isOpen
  /-- Their tokens stand under the request, and where nobody waits there is no entry. -/
  entries : ∀ id, w.parked.get? id =
    if openTokens calls id = [] then none else some (openTokens calls id)
  /-- What a receiving end has come to is told by the first call that has ended its registration. -/
  receivers : ∀ r ∈ registrations calls, w.receivers.get? r.token = r.receiver?
  /-- It gets one verdict at most, the one that its registration was ended with. -/
  fetched : ∀ r ∈ registrations calls, fetched calls r.token = r.fetched
  once : ∀ token, (Waiters.fetched calls token).length ≤ 1
  /-- A call that is not about a registration changes nothing about it. -/
  undisturbed : ∀ r ∈ registrations calls, ∀ call, r.isMeantBy call = false →
    (∀ id, r.token ∈ (w.perform call).tokens id ↔ r.token ∈ w.tokens id) ∧
      (w.perform call).receivers.get? r.token = w.receivers.get? r.token
  /-- A verdict on a request comes to those receiving ends of its open registrations that are held, and
  they are counted. -/
  notified : ∀ id v, (w.notify id v).1 = (registrations calls).countP fun r =>
    decide (r.id = id) && r.isOpen && r.isHeld
  reached : ∀ id v, ∀ r ∈ registrations calls, r.id = id → r.isOpen = true → r.isHeld = true →
    (w.notify id v).2.receivers.get? r.token = some (.delivered v)

/-- Whatever calls are made on the waiters, no registration is lost and none is made twice. -/
theorem reflects_after (calls : List WaiterCall) : (after calls).Reflects calls := by
  have htracks := tracks_after calls
  exact {
    tokens := map_token_registrations calls
    distinct := nodup_tokens calls
    issued := fun id => congrArg _ htracks.next
    waiting := fun id => by
      rw [waiting, htracks.listed, openTokens, List.length_map, List.countP_eq_length_filter]
    entries := fun id => by rw [parked_eq htracks.tidy, htracks.listed]
    receivers := htracks.receivers
    fetched := (fetched_eq calls).1
    once := length_fetched calls
    undisturbed := fun r hr call hnot => by
      have hended : r.isEndedBy call = false := by
        simp only [Registration.isMeantBy, Bool.or_eq_false_iff] at hnot
        exact hnot.1.1
      constructor
      · exact htracks.mem_tokens_perform hr hended
      · rw [htracks.receivers_perform hr, Registration.receiver?_of_not_meant hnot,
          htracks.receivers r hr]
    notified := htracks.notify_eq
    reached := fun id v r hr hid hopen hheld => by
      subst hid
      exact htracks.receivers_notify hr hopen hheld v }

end Waiters
end PrivatePresentation
