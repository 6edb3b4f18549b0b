import PrivatePresentation.Proofs.Service.Store
import PrivatePresentation.Service.Waiters

/-!
Laws of waiters.  What each operation on the registrations does to the tokens of every request and to
the receiving end of every token.
-/

namespace PrivatePresentation.Waiters

variable {w : Waiters} {id id' : RequestId} {token token' : WaiterToken}

theorem tokens_setTokens (w : Waiters) (id id' : RequestId) (tokens : List WaiterToken) :
    (w.setTokens id tokens).tokens id' = if id' = id then tokens else w.tokens id' := by
  unfold setTokens
  split
  · rename_i hempty
    obtain rfl := List.isEmpty_iff.1 hempty
    rw [Waiters.tokens, Store.get?_erase]
    split
    · rfl
    · rfl
  · rw [Waiters.tokens, Store.get?_insert]
    split
    · rfl
    · rfl

theorem tokens_send (w : Waiters) (token : WaiterToken) (state : Receiver) (id : RequestId) :
    (w.send token state).tokens id = w.tokens id := by
  unfold send
  split <;> rfl

theorem next_send (w : Waiters) (token : WaiterToken) (state : Receiver) :
    (w.send token state).next = w.next := by
  unfold send
  split <;> rfl

/-- A receiving end takes one thing, and only its own. -/
theorem receivers_send (w : Waiters) (token token' : WaiterToken) (state : Receiver) :
    (w.send token state).receivers.get? token' =
      if token' = token ∧ w.receivers.get? token = some .listening then some state
      else w.receivers.get? token' := by
  unfold send
  split
  · rename_i hlistening
    rw [Store.get?_insert]
    simp [hlistening]
  · rename_i hnot
    rw [if_neg fun h => hnot h.2]

section Register

theorem tokens_register (w : Waiters) (id id' : RequestId) :
    (w.register id).2.tokens id' =
      if id' = id then w.tokens id ++ [⟨w.next⟩] else w.tokens id' :=
  tokens_setTokens w id id' _

theorem receivers_register (w : Waiters) (id : RequestId) (token : WaiterToken) :
    (w.register id).2.receivers.get? token =
      if token = ⟨w.next⟩ then some .listening else w.receivers.get? token := by
  rw [register, Store.get?_insert]
  rfl

end Register

section Cancel

theorem tokens_cancel (w : Waiters) (id : RequestId) (token : WaiterToken) (id' : RequestId) :
    (w.cancel id token).tokens id' =
      if id' = id then (w.tokens id).filter (· != token) else w.tokens id' := by
  unfold cancel
  split
  · rw [tokens_send, tokens_setTokens]
  · rename_i hnot
    split
    · rename_i heq
      rw [heq, List.filter_eq_self.2]
      intro t ht
      rw [bne_iff_ne]
      rintro rfl
      exact hnot (List.contains_iff_mem.2 ht)
    · rfl

theorem receivers_cancel_of_ne (hne : token' ≠ token) :
    (w.cancel id token).receivers.get? token' = w.receivers.get? token' := by
  unfold cancel
  split
  · rw [receivers_send, if_neg fun h => hne h.1]
    rfl
  · rfl

theorem next_cancel : (w.cancel id token).next = w.next := by
  unfold cancel
  split
  · rw [next_send]
    rfl
  · rfl

end Cancel

section Notify

variable {v : Verdict}

theorem tokens_sendAll (tokens : List WaiterToken) (state : Receiver) (w : Waiters) (id : RequestId) :
    (tokens.foldl (fun w token => w.send token state) w).tokens id = w.tokens id := by
  induction tokens generalizing w with
  | nil => rfl
  | cons token rest ih => rw [List.foldl_cons, ih, tokens_send]

theorem next_sendAll (tokens : List WaiterToken) (state : Receiver) (w : Waiters) :
    (tokens.foldl (fun w token => w.send token state) w).next = w.next := by
  induction tokens generalizing w with
  | nil => rfl
  | cons token rest ih => rw [List.foldl_cons, ih, next_send]

/-- What is sent to several receiving ends comes to those that are listening. -/
theorem receivers_sendAll (tokens : List WaiterToken) {state : Receiver}
    (hstate : state ≠ .listening) (w : Waiters) (token : WaiterToken) :
    (tokens.foldl (fun w token => w.send token state) w).receivers.get? token =
      if token ∈ tokens ∧ w.receivers.get? token = some .listening then some state
      else w.receivers.get? token := by
  induction tokens generalizing w with
  | nil => simp
  | cons t rest ih =>
      rw [List.foldl_cons, ih, receivers_send]
      by_cases htoken : token = t
      · subst htoken
        by_cases hlistening : w.receivers.get? token = some .listening
        · simp [hlistening, hstate]
        · simp [hlistening]
      · simp [htoken]

theorem tokens_notify (w : Waiters) (id : RequestId) (v : Verdict) (id' : RequestId) :
    (w.notify id v).2.tokens id' = if id' = id then [] else w.tokens id' := by
  rw [notify, tokens_sendAll, tokens_setTokens]

theorem receivers_notify (w : Waiters) (id : RequestId) (v : Verdict) (token : WaiterToken) :
    (w.notify id v).2.receivers.get? token =
      if token ∈ w.tokens id ∧ w.receivers.get? token = some .listening then some (.delivered v)
      else w.receivers.get? token := by
  rw [notify, receivers_sendAll _ (by simp)]
  rfl

theorem next_notify : (w.notify id v).2.next = w.next := by
  rw [notify, next_sendAll]
  rfl

end Notify

section Receive

theorem tokens_receive (w : Waiters) (token : WaiterToken) (id : RequestId) :
    (w.receive token).2.tokens id = w.tokens id := by
  unfold receive
  split <;> rfl

theorem receivers_receive_of_ne (hne : token' ≠ token) :
    (w.receive token).2.receivers.get? token' = w.receivers.get? token' := by
  unfold receive
  split
  · rw [Store.get?_insert, if_neg hne]
  · rfl
  · rfl

theorem receive_delivered {v : Verdict} (hv : w.receivers.get? token = some (.delivered v)) :
    w.receive token = (.delivered v,
      { w with receivers := w.receivers.insert token .closed }) := by
  rw [receive, hv]

theorem receive_listening (hlistening : w.receivers.get? token = some .listening) :
    w.receive token = (.listening, w) := by
  rw [receive, hlistening]

theorem receive_closed (hempty : ∀ v, w.receivers.get? token ≠ some (.delivered v))
    (hdeaf : w.receivers.get? token ≠ some .listening) : w.receive token = (.closed, w) := by
  rw [receive]
  split
  · rename_i v hv
    exact absurd hv (hempty v)
  · rename_i state hne hstate
    cases state with
    | listening => exact absurd hstate hdeaf
    | delivered v => exact absurd rfl (hne v)
    | closed => rfl
  · rfl

end Receive

theorem tokens_drop (w : Waiters) (token : WaiterToken) (id : RequestId) :
    (w.drop token).2.tokens id = w.tokens id := rfl

section Entries

/-- Every request with an entry has registrations. -/
def IsTidy (w : Waiters) : Prop := ∀ id, w.parked.get? id ≠ some []

theorem parked_eq (htidy : w.IsTidy) (id : RequestId) :
    w.parked.get? id = if w.tokens id = [] then none else some (w.tokens id) := by
  rw [tokens]
  cases hentry : w.parked.get? id with
  | none => rfl
  | some tokens =>
      have hne : tokens ≠ [] := fun hempty => htidy id (hempty ▸ hentry)
      rw [Option.getD_some, if_neg hne]

theorem isTidy_setTokens (htidy : w.IsTidy) (id : RequestId) (tokens : List WaiterToken) :
    (w.setTokens id tokens).IsTidy := by
  intro id'
  unfold setTokens
  by_cases hempty : tokens.isEmpty = true
  · rw [if_pos hempty, Store.get?_erase]
    split
    · simp
    · exact htidy id'
  · rw [if_neg hempty, Store.get?_insert]
    split
    · simpa using hempty
    · exact htidy id'

theorem parked_send (w : Waiters) (token : WaiterToken) (state : Receiver) :
    (w.send token state).parked = w.parked := by
  unfold send
  split <;> rfl

theorem parked_sendAll (tokens : List WaiterToken) (state : Receiver) (w : Waiters) :
    (tokens.foldl (fun w token => w.send token state) w).parked = w.parked := by
  induction tokens generalizing w with
  | nil => rfl
  | cons token rest ih => rw [List.foldl_cons, ih, parked_send]

end Entries

section Accounts

/-- Of some registrations, each is listed and listens, or it is not listed and has got what may be told; and
no other is listed. -/
structure Accounts (w : Waiters) (registrations : List (RequestId × WaiterToken))
    (told : RequestId → Verdict → Prop) : Prop where
  distinct : (registrations.map (·.2)).Nodup
  fresh : ∀ e ∈ registrations, e.2.number < w.next
  listed : ∀ id token, token ∈ w.tokens id → (id, token) ∈ registrations
  heard : ∀ e ∈ registrations,
    e.2 ∈ w.tokens e.1 ∧ w.receivers.get? e.2 = some .listening ∨
      e.2 ∉ w.tokens e.1 ∧ ∃ v, told e.1 v ∧ w.receivers.get? e.2 = some (.delivered v)

namespace Accounts

variable {registrations registrations' : List (RequestId × WaiterToken)}
variable {told told' : RequestId → Verdict → Prop} {v : Verdict}

theorem perm (h : w.Accounts registrations told) (hperm : registrations.Perm registrations') :
    w.Accounts registrations' told where
  distinct := (hperm.map _).nodup_iff.1 h.distinct
  fresh e he := h.fresh e (hperm.mem_iff.2 he)
  listed id token htoken := hperm.mem_iff.1 (h.listed id token htoken)
  heard e he := h.heard e (hperm.mem_iff.2 he)

theorem mono (h : w.Accounts registrations told) (htold : ∀ id v, told id v → told' id v) :
    w.Accounts registrations told' where
  distinct := h.distinct
  fresh := h.fresh
  listed := h.listed
  heard e he := (h.heard e he).imp_right fun ⟨hnot, v, hv, hreceiver⟩ =>
    ⟨hnot, v, htold _ v hv, hreceiver⟩

/-- A token is that of one registration. -/
theorem eq_of_token (h : w.Accounts registrations told) (hid : (id, token) ∈ registrations)
    (hid' : (id', token) ∈ registrations) : id = id' :=
  congrArg Prod.fst (List.inj_on_of_nodup_map h.distinct hid hid' rfl)

/-- A verdict that has come for a registration may be told, and the registration is not listed. -/
theorem of_delivered (h : w.Accounts registrations told) (hid : (id, token) ∈ registrations)
    (hv : w.receivers.get? token = some (.delivered v)) : told id v ∧ ∀ id', token ∉ w.tokens id' := by
  rcases h.heard _ hid with ⟨-, hlistening⟩ | ⟨hnot, v', htold, hv'⟩
  · exact nomatch hv.symm.trans hlistening
  · obtain rfl := Receiver.delivered.inj (Option.some.inj (hv.symm.trans hv'))
    refine ⟨htold, fun id' htoken => hnot ?_⟩
    rw [h.eq_of_token hid (h.listed id' token htoken)]
    exact htoken

/-- No receiving end of a registration is closed. -/
theorem not_closed (h : w.Accounts registrations told) (hid : (id, token) ∈ registrations)
    (hempty : ∀ v, w.receivers.get? token ≠ some (.delivered v)) :
    w.receivers.get? token = some .listening := by
  rcases h.heard _ hid with ⟨-, hlistening⟩ | ⟨-, v, -, hv⟩
  · exact hlistening
  · exact absurd hv (hempty v)

theorem register (h : w.Accounts registrations told) (id : RequestId) :
    (w.register id).2.Accounts ((id, ⟨w.next⟩) :: registrations) told := by
  have hne {e : RequestId × WaiterToken} (he : e ∈ registrations) : e.2 ≠ ⟨w.next⟩ := by
    intro heq
    have hlt := h.fresh e he
    rw [heq] at hlt
    exact Nat.lt_irrefl _ hlt
  refine ⟨?_, ?_, fun id' token htoken => ?_, ?_⟩
  · rw [List.map_cons, List.nodup_cons]
    refine ⟨fun hmem => ?_, h.distinct⟩
    obtain ⟨e, he, heq⟩ := List.mem_map.1 hmem
    exact hne he heq
  · rw [List.forall_mem_cons]
    exact ⟨Nat.lt_succ_self _, fun e he => Nat.lt_succ_of_lt (h.fresh e he)⟩
  · rw [tokens_register] at htoken
    split at htoken
    · rename_i hid
      subst hid
      rcases List.mem_append.1 htoken with hold | hnew
      · exact List.mem_cons_of_mem _ (h.listed _ token hold)
      · rw [List.mem_singleton.1 hnew]
        exact List.mem_cons_self
    · exact List.mem_cons_of_mem _ (h.listed id' token htoken)
  · rw [List.forall_mem_cons]
    refine ⟨.inl ⟨?_, ?_⟩, fun e he => ?_⟩
    · rw [tokens_register, if_pos rfl]
      exact List.mem_append_right _ List.mem_cons_self
    · rw [receivers_register, if_pos rfl]
    · rw [receivers_register, if_neg (hne he), tokens_register]
      refine (h.heard e he).imp (And.imp_left fun hold => ?_) (And.imp_left fun hnot => ?_)
      · split
        · rename_i hid
          rw [← hid]
          exact List.mem_append_left _ hold
        · exact hold
      · split
        · rename_i hid
          rw [← hid, List.mem_append, List.mem_singleton, not_or]
          exact ⟨hnot, hne he⟩
        · exact hnot

/-- What is left of some registrations after one of them has been ended. -/
theorem of_ended {w' : Waiters} (h : w.Accounts ((id, token) :: registrations) told)
    (hnext : w'.next = w.next) (hgone : ∀ id', token ∉ w'.tokens id')
    (htokens : ∀ id' token', token' ≠ token → (token' ∈ w'.tokens id' ↔ token' ∈ w.tokens id'))
    (hreceivers : ∀ token', token' ≠ token → w'.receivers.get? token' = w.receivers.get? token') :
    w'.Accounts registrations told := by
  obtain ⟨hnotin, hdistinct⟩ := List.nodup_cons.1 h.distinct
  have hne {e : RequestId × WaiterToken} (he : e ∈ registrations) : e.2 ≠ token := by
    intro heq
    exact hnotin (List.mem_map.2 ⟨e, he, heq⟩)
  refine ⟨hdistinct, fun e he => ?_, fun id' token' htoken' => ?_, fun e he => ?_⟩
  · rw [hnext]
    exact h.fresh e (List.mem_cons_of_mem _ he)
  · have htoken : token' ≠ token := by
      rintro rfl
      exact hgone id' htoken'
    have hmem := h.listed id' token' ((htokens id' token' htoken).1 htoken')
    refine (List.mem_cons.1 hmem).resolve_left fun heq => ?_
    exact htoken (congrArg Prod.snd heq)
  · rw [htokens e.1 e.2 (hne he), hreceivers e.2 (hne he)]
    exact h.heard e (List.mem_cons_of_mem _ he)

/-- After a registration has been cancelled it is not listed, and the others are as before. -/
theorem tokens_of_cancel (h : w.Accounts ((id, token) :: registrations) told) (id' : RequestId) :
    (w.cancel id token).tokens id' = (w.tokens id').filter (· != token) := by
  rw [tokens_cancel]
  split
  · rename_i hid
    rw [hid]
  · rename_i hid
    symm
    rw [List.filter_eq_self]
    intro token' htoken'
    rw [bne_iff_ne]
    rintro rfl
    exact hid (h.eq_of_token (h.listed id' _ htoken') List.mem_cons_self)

theorem cancel (h : w.Accounts ((id, token) :: registrations) told) :
    (w.cancel id token).Accounts registrations told := by
  refine h.of_ended next_cancel (fun id' htoken => ?_) (fun id' token' hne => ?_) fun token' hne =>
    receivers_cancel_of_ne hne
  · rw [h.tokens_of_cancel, List.mem_filter] at htoken
    simp at htoken
  · rw [h.tokens_of_cancel, List.mem_filter, bne_iff_ne]
    exact and_iff_left hne

theorem receive (h : w.Accounts ((id, token) :: registrations) told)
    (hv : w.receivers.get? token = some (.delivered v)) :
    Accounts { w with receivers := w.receivers.insert token .closed } registrations told := by
  refine h.of_ended rfl (h.of_delivered List.mem_cons_self hv).2 (fun _ _ _ => Iff.rfl)
    fun token' hne => ?_
  rw [Store.get?_insert, if_neg hne]

theorem notify (h : w.Accounts registrations told) (hv : told id v) :
    (w.notify id v).2.Accounts registrations told := by
  refine ⟨h.distinct, fun e he => ?_, fun id' token htoken => ?_, fun e he => ?_⟩
  · rw [next_notify]
    exact h.fresh e he
  · rw [tokens_notify] at htoken
    split at htoken
    · exact absurd htoken List.not_mem_nil
    · exact h.listed id' token htoken
  · rw [tokens_notify, receivers_notify]
    by_cases hid : e.1 = id
    · rw [if_pos hid]
      refine .inr ⟨List.not_mem_nil, ?_⟩
      rcases h.heard e he with ⟨hold, hlistening⟩ | ⟨-, v', htold, hv'⟩
      · rw [← hid, if_pos ⟨hold, hlistening⟩]
        exact ⟨v, hid ▸ hv, rfl⟩
      · rw [hv', if_neg (by simp)]
        exact ⟨v', htold, rfl⟩
    · have hother : e.2 ∉ w.tokens id := fun htoken =>
        hid (h.eq_of_token he (h.listed id _ htoken))
      rw [if_neg hid, if_neg fun hboth => hother hboth.1]
      exact h.heard e he

end Accounts
end Accounts

end PrivatePresentation.Waiters
