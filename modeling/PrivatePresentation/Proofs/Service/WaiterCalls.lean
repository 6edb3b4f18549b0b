import Mathlib.Data.List.Nodup
import Mathlib.Data.List.Range
import Mathlib.Data.List.TakeWhile
import PrivatePresentation.Service.Waiters

/-!
Calls on waiters and what they tell.  A registration is followed through the calls after it: the first
that ends it decides what its receiving end gets, and a call on the receiving end fetches that once.  What
one more call adds to this history is a lemma for each part of it.
-/

namespace PrivatePresentation

/-- A call on the waiters. -/
inductive WaiterCall where
  | register (id : RequestId)
  | cancel (id : RequestId) (token : WaiterToken)
  | notify (id : RequestId) (verdict : Verdict)
  | receive (token : WaiterToken)
  | drop (token : WaiterToken)
deriving DecidableEq

namespace Receiver

/-- The verdict that has come and has not been fetched. -/
def verdict? : Receiver → Option Verdict
  | .delivered v => some v
  | _ => none

/-- A receiving end after something has come for it; it takes one thing. -/
def taking (state : Receiver) : Receiver → Receiver
  | .listening => state
  | taken => taken

theorem taking_of_ne {state taken : Receiver} (hne : taken ≠ .listening) :
    Receiver.taking state taken = taken := by
  cases taken with
  | listening => exact absurd rfl hne
  | _ => rfl

theorem map_taking (state : Receiver) (o : Option Receiver) :
    o.map (taking state) = if o = some .listening then some state else o := by
  cases o with
  | none => rfl
  | some taken => cases taken <;> rfl

/-- A receiving end after it has been asked; a verdict is fetched once. -/
def asked : Receiver → Receiver
  | .delivered _ => .closed
  | state => state

end Receiver

namespace WaiterCall

/-- A call ends the registration of a token for a request: it cancels that very one, or tells all of the
request. -/
def ends (id : RequestId) (token : WaiterToken) : WaiterCall → Bool
  | .cancel id' token' => decide (id' = id ∧ token' = token)
  | .notify id' _ => decide (id' = id)
  | _ => false

/-- What a call that ends a registration sends to its receiving end. -/
def sends : WaiterCall → Receiver
  | .notify _ v => .delivered v
  | _ => .closed

theorem sends_of_ends {id : RequestId} {token : WaiterToken} {call : WaiterCall}
    (hends : call.ends id token = true) : call.sends ≠ .listening := by
  cases call <;> simp [ends, sends] at hends ⊢

end WaiterCall

/-- Of a list with one more element, the part from the first that is not `q` on and before the first that
is not `p`. -/
theorem mem_reached_append {α : Type} {p q : α → Bool} {l : List α} {a x : α} (hp : p x = true)
    (hq : q x = true) : x ∈ ((l ++ [a]).takeWhile p).dropWhile q ↔
      x ∈ (l.takeWhile p).dropWhile q ∨ (∀ b ∈ l, p b = true) ∧ (∃ b ∈ l, q b = false) ∧ a = x := by
  by_cases hall : ∀ b ∈ l, p b = true
  · rw [List.takeWhile_append_of_pos hall, List.takeWhile_eq_self_iff.2 hall, List.dropWhile_append]
    by_cases hended : l.dropWhile q = []
    · have hnone : ¬∃ b ∈ l, q b = false := by simpa using hended
      have hlast : x ∉ ([a].takeWhile p).dropWhile q := by
        intro hx
        have hmem : x ∈ [a] := ((List.dropWhile_sublist q).trans (List.takeWhile_sublist p)).mem hx
        obtain rfl := List.mem_singleton.1 hmem
        simp [hp, hq] at hx
      simp [hended, hnone, hlast]
    · have hsome : ∃ b ∈ l, q b = false := by simpa using hended
      have hlast : x ∈ [a].takeWhile p ↔ a = x := by
        by_cases hx : a = x
        · subst hx
          simp [hp]
        · simp only [hx, iff_false]
          exact fun hmem => hx (List.mem_singleton.1 ((List.takeWhile_sublist p).mem hmem)).symm
      rw [if_neg (by simpa using hended), List.mem_append, hlast, and_iff_right hall,
        and_iff_right hsome]
  · have hshort : (l.takeWhile p).length ≠ l.length := fun hlength =>
      hall (List.takeWhile_eq_self_iff.1 ((List.takeWhile_sublist p).eq_of_length hlength))
    rw [List.takeWhile_append, if_neg hshort]
    simp [hall]

/-- A registration with the calls after it. -/
structure Registration where
  id : RequestId
  token : WaiterToken
  later : List WaiterCall := []

namespace Registration

/-- A call ends the registration. -/
def isEndedBy (r : Registration) (call : WaiterCall) : Bool := call.ends r.id r.token

/-- The first call that has ended the registration. -/
def ending? (r : Registration) : Option WaiterCall := r.later.find? r.isEndedBy

/-- No call has ended the registration. -/
def isOpen (r : Registration) : Bool := r.ending?.isNone

/-- The verdict that the registration was ended with, unless it was cancelled first. -/
def told? (r : Registration) : Option Verdict := r.ending?.bind (·.sends.verdict?)

/-- The receiving end has not been let go of. -/
def isHeld (r : Registration) : Bool := !r.later.contains (.drop r.token)

/-- The receiving end has been asked, while it was held, after the registration was ended. -/
def isFetched (r : Registration) : Bool :=
  ((r.later.takeWhile (· != .drop r.token)).dropWhile (!r.isEndedBy ·)).contains (.receive r.token)

/-- What the receiving end has come to. -/
def receiver? (r : Registration) : Option Receiver :=
  if r.isHeld then
    some (match r.ending? with
      | none => .listening
      | some call => if r.isFetched then .closed else call.sends)
  else none

/-- What has been fetched from the receiving end. -/
def fetched (r : Registration) : List Verdict := if r.isFetched then r.told?.toList else []

/-- A call is about a registration if it ends it, or is made on its receiving end. -/
def isMeantBy (r : Registration) (call : WaiterCall) : Bool :=
  r.isEndedBy call || call == .receive r.token || call == .drop r.token

/-- The registration, one call later. -/
def followedBy (r : Registration) (call : WaiterCall) : Registration :=
  { r with later := r.later ++ [call] }

variable (r : Registration) (call : WaiterCall)

@[simp]
theorem id_followedBy : (r.followedBy call).id = r.id := rfl

@[simp]
theorem token_followedBy : (r.followedBy call).token = r.token := rfl

@[simp]
theorem later_followedBy : (r.followedBy call).later = r.later ++ [call] := rfl

@[simp]
theorem isEndedBy_followedBy (call' : WaiterCall) :
    (r.followedBy call).isEndedBy call' = r.isEndedBy call' := rfl

theorem ending?_followedBy : (r.followedBy call).ending? =
    r.ending?.or (if r.isEndedBy call then some call else none) := by
  rw [ending?, followedBy, List.find?_append, List.find?_singleton]
  rfl

@[simp]
theorem isOpen_followedBy : (r.followedBy call).isOpen = (r.isOpen && !r.isEndedBy call) := by
  rw [isOpen, ending?_followedBy, isOpen]
  cases r.ending? with
  | some c => simp
  | none => cases r.isEndedBy call <;> simp

@[simp]
theorem isHeld_followedBy :
    (r.followedBy call).isHeld = (r.isHeld && call != .drop r.token) := by
  rw [Bool.eq_iff_iff]
  simp [isHeld, followedBy, @eq_comm _ call]

theorem isHeld_iff : r.isHeld = true ↔ ∀ c ∈ r.later, (c != .drop r.token) = true := by
  simp only [isHeld, List.contains_eq_mem, Bool.not_eq_true', decide_eq_false_iff_not, bne_iff_ne]
  exact List.forall_mem_ne'.symm

theorem isOpen_iff : r.isOpen = true ↔ ∀ c ∈ r.later, r.isEndedBy c = false := by
  simp [isOpen, ending?]

/-- While the receiving end is held, it is asked by a call on it after the registration was ended. -/
theorem isFetched_followedBy : (r.followedBy call).isFetched =
    (r.isFetched || (r.isHeld && !r.isOpen && call == .receive r.token)) := by
  have hended : r.isOpen = false ↔ ∃ c ∈ r.later, (!r.isEndedBy c) = false := by
    rw [← Bool.not_eq_true, isOpen_iff]
    simp
  rw [Bool.eq_iff_iff]
  simp only [isFetched, later_followedBy, token_followedBy, isEndedBy_followedBy,
    List.contains_eq_mem, decide_eq_true_eq, Bool.or_eq_true, Bool.and_eq_true, Bool.not_eq_true',
    beq_iff_eq]
  rw [mem_reached_append (by simp) rfl, ← isHeld_iff, ← hended, and_assoc]

theorem isFetched_of_open (hopen : r.isOpen = true) : r.isFetched = false := by
  have hnone : (r.later.takeWhile (· != .drop r.token)).dropWhile (!r.isEndedBy ·) = [] := by
    rw [List.dropWhile_eq_nil_iff]
    intro c hc
    rw [r.isOpen_iff.1 hopen c ((List.takeWhile_sublist _).mem hc)]
    rfl
  rw [isFetched, hnone]
  rfl

theorem length_fetched : r.fetched.length ≤ 1 := by
  rw [fetched]
  split
  · cases r.told? <;> simp
  · exact Nat.zero_le 1

section Receiver

variable {r call}

theorem receiver?_of_open (hopen : r.isOpen = true) :
    r.receiver? = if r.isHeld then some .listening else none := by
  rw [isOpen, Option.isNone_iff_eq_none] at hopen
  rw [receiver?, hopen]

theorem receiver?_of_not_meant (hnot : r.isMeantBy call = false) :
    (r.followedBy call).receiver? = r.receiver? := by
  simp only [isMeantBy, Bool.or_eq_false_iff, beq_eq_false_iff_ne] at hnot
  obtain ⟨⟨hended, hreceive⟩, hdrop⟩ := hnot
  simp [receiver?, ending?_followedBy, isFetched_followedBy, hended, hreceive, hdrop]

theorem receiver?_drop : (r.followedBy (.drop r.token)).receiver? = none := by
  simp [receiver?]

theorem isOpen_of_listening (hlistening : r.receiver? = some .listening) : r.isOpen = true := by
  cases hending : r.ending? with
  | none =>
      rw [isOpen, hending]
      rfl
  | some c =>
      have hsends : c.sends ≠ .listening := WaiterCall.sends_of_ends (List.find?_some hending)
      by_cases hheld : r.isHeld = true
      · by_cases hfetched : r.isFetched = true
        · simp [receiver?, hheld, hending, hfetched] at hlistening
        · simp [receiver?, hheld, hending, hfetched, hsends] at hlistening
      · simp [receiver?, hheld] at hlistening

theorem receiver?_receive :
    (r.followedBy (.receive r.token)).receiver? = r.receiver?.map Receiver.asked := by
  have hended : r.isEndedBy (.receive r.token) = false := rfl
  by_cases hheld : r.isHeld = true
  · cases hending : r.ending? with
    | none => simp [receiver?, ending?_followedBy, hended, hheld, hending, Receiver.asked]
    | some c =>
        have hopen : r.isOpen = false := by rw [isOpen, hending]; rfl
        have hfetched : (r.followedBy (.receive r.token)).isFetched = true := by
          simp [isFetched_followedBy, hheld, hopen]
        have hclosed : Receiver.asked (if r.isFetched then .closed else c.sends) = .closed := by
          cases c <;> by_cases hbefore : r.isFetched = true <;>
            simp [hbefore, WaiterCall.sends, Receiver.asked]
        simp [receiver?, ending?_followedBy, hended, hheld, hending, hfetched, hclosed]
  · simp [receiver?, hheld]

/-- A call that ends a registration reaches a receiving end that is listening, and no other. -/
theorem receiver?_of_ended (hended : r.isEndedBy call = true) :
    (r.followedBy call).receiver? = r.receiver?.map (Receiver.taking call.sends) := by
  have hlive : call ≠ .receive r.token ∧ call ≠ .drop r.token := by
    constructor <;> (rintro rfl; exact Bool.false_ne_true hended)
  by_cases hheld : r.isHeld = true
  · cases hending : r.ending? with
    | none =>
        have hopen : r.isOpen = true := by rw [isOpen, hending]; rfl
        simp [receiver?, ending?_followedBy, isFetched_followedBy, hended, hheld, hending, hlive,
          r.isFetched_of_open hopen, Receiver.taking]
    | some c =>
        have hsends : c.sends ≠ .listening := WaiterCall.sends_of_ends (List.find?_some hending)
        have hstays : Receiver.taking call.sends (if r.isFetched then .closed else c.sends) =
            if r.isFetched then .closed else c.sends := by
          by_cases hfetched : r.isFetched = true
          · simp [hfetched, Receiver.taking]
          · simp [hfetched, Receiver.taking_of_ne hsends]
        simp [receiver?, ending?_followedBy, isFetched_followedBy, hheld, hending, hlive, hstays]
  · simp [receiver?, hheld]

theorem verdict?_receiver? : r.receiver?.bind (·.verdict?) =
    if r.isHeld = true ∧ r.isFetched = false then r.told? else none := by
  by_cases hheld : r.isHeld = true
  · cases hending : r.ending? with
    | none => simp [receiver?, told?, hheld, hending, Receiver.verdict?]
    | some c =>
        by_cases hfetched : r.isFetched = true
        · simp [receiver?, hheld, hending, hfetched, Receiver.verdict?]
        · simp [receiver?, told?, hheld, hending, hfetched]
  · simp [receiver?, hheld]

theorem told?_of_open (hopen : r.isOpen = true) : r.told? = none := by
  rw [isOpen, Option.isNone_iff_eq_none] at hopen
  rw [told?, hopen]
  rfl

theorem told?_followedBy (hkept : r.isOpen = false ∨ r.isEndedBy call = false) :
    (r.followedBy call).told? = r.told? := by
  rw [told?, ending?_followedBy, told?]
  cases hending : r.ending? with
  | some c => rfl
  | none =>
      have hopen : r.isOpen = true := by rw [isOpen, hending]; rfl
      have hnot : r.isEndedBy call = false := hkept.resolve_left (by simp [hopen])
      simp [hnot]

/-- A call on the receiving end fetches what has come, and no other call fetches anything. -/
theorem fetched_followedBy : (r.followedBy call).fetched = r.fetched ++
    if call = .receive r.token then (r.receiver?.bind (·.verdict?)).toList else [] := by
  by_cases hreceive : call = .receive r.token
  · have htold : (r.followedBy call).told? = r.told? :=
      told?_followedBy (.inr (by rw [hreceive]; rfl))
    rw [if_pos hreceive, verdict?_receiver?, fetched, fetched, htold, isFetched_followedBy, hreceive]
    by_cases hfetched : r.isFetched = true
    · simp [hfetched]
    by_cases hheld : r.isHeld = true
    · by_cases hopen : r.isOpen = true
      · simp [hfetched, hheld, hopen, told?_of_open hopen]
      · simp [hfetched, hheld, hopen]
    · simp [hfetched, hheld]
  · rw [if_neg hreceive, List.append_nil, fetched, fetched, isFetched_followedBy,
      beq_eq_false_iff_ne.2 hreceive, Bool.and_false, Bool.or_false]
    by_cases hfetched : r.isFetched = true
    · have hopen : r.isOpen = false := by
        by_contra hopen
        rw [r.isFetched_of_open (Bool.not_eq_false _ ▸ hopen)] at hfetched
        exact Bool.false_ne_true hfetched
      rw [told?_followedBy (.inl hopen)]
    · simp [hfetched]

end Receiver

end Registration

/-- The registrations among some calls, of which the first has the given token. -/
def registrationsFrom (n : Nat) : List WaiterCall → List Registration
  | [] => []
  | .register id :: later => ⟨id, ⟨n⟩, later⟩ :: registrationsFrom (n + 1) later
  | _ :: later => registrationsFrom n later

/-- The registrations among some calls, which are numbered in their order. -/
def registrations (calls : List WaiterCall) : List Registration := registrationsFrom 0 calls

/-- The registration that a call makes. -/
def WaiterCall.registration? (n : Nat) : WaiterCall → Option Registration
  | .register id => some { id, token := ⟨n⟩ }
  | _ => none

theorem registrationsFrom_concat (n : Nat) (calls : List WaiterCall) (call : WaiterCall) :
    registrationsFrom n (calls ++ [call]) =
      (registrationsFrom n calls).map (·.followedBy call) ++
        (call.registration? (n + (registrationsFrom n calls).length)).toList := by
  induction calls generalizing n with
  | nil => cases call <;> rfl
  | cons c rest ih =>
      cases c with
      | register id =>
          simp only [List.cons_append, registrationsFrom, ih, List.map_cons, List.length_cons,
            Nat.add_assoc, Nat.add_comm 1]
          rfl
      | _ => exact ih n

theorem registrations_concat (calls : List WaiterCall) (call : WaiterCall) :
    registrations (calls ++ [call]) = (registrations calls).map (·.followedBy call) ++
      (call.registration? (registrations calls).length).toList := by
  rw [registrations, registrationsFrom_concat, Nat.zero_add]
  rfl

theorem map_token_registrationsFrom (n : Nat) (calls : List WaiterCall) :
    (registrationsFrom n calls).map (·.token) =
      (List.range' n (registrationsFrom n calls).length).map WaiterToken.mk := by
  induction calls generalizing n with
  | nil => rfl
  | cons c rest ih =>
      cases c with
      | register id => simp [registrationsFrom, ih, List.range'_succ]
      | _ => exact ih n

/-- Tokens are handed out in the order of the natural numbers. -/
theorem map_token_registrations (calls : List WaiterCall) : (registrations calls).map (·.token) =
    (List.range (registrations calls).length).map WaiterToken.mk := by
  rw [List.range_eq_range']
  exact map_token_registrationsFrom 0 calls

theorem nodup_tokens (calls : List WaiterCall) : ((registrations calls).map (·.token)).Nodup := by
  rw [map_token_registrations]
  exact List.nodup_range.map fun _ _ h => congrArg WaiterToken.number h

/-- The tokens of the open registrations for a request, in the order of registration. -/
def openTokens (calls : List WaiterCall) (id : RequestId) : List WaiterToken :=
  ((registrations calls).filter fun r => decide (r.id = id) && r.isOpen).map (·.token)

theorem mem_openTokens {calls : List WaiterCall} {r : Registration} (hr : r ∈ registrations calls)
    {id : RequestId} : r.token ∈ openTokens calls id ↔ r.id = id ∧ r.isOpen = true := by
  have hinj := List.inj_on_of_nodup_map (nodup_tokens calls)
  simp only [openTokens, List.mem_map, List.mem_filter, Bool.and_eq_true, decide_eq_true_eq]
  constructor
  · rintro ⟨r', ⟨hr', hopen⟩, htoken⟩
    rwa [← hinj hr' hr htoken]
  · intro hopen
    exact ⟨r, ⟨hr, hopen⟩, rfl⟩

theorem openTokens_concat (calls : List WaiterCall) (call : WaiterCall) (id : RequestId) :
    openTokens (calls ++ [call]) id = (openTokens calls id).filter (fun t => !call.ends id t) ++
      if call = .register id then [⟨(registrations calls).length⟩] else [] := by
  have hold : (fun r : Registration => decide (r.id = id) && r.isOpen) ∘ (·.followedBy call) =
      fun r : Registration => (decide (r.id = id) && r.isOpen) && !call.ends id r.token := by
    funext r
    by_cases hid : r.id = id
    · simp [hid, Registration.isEndedBy]
    · simp [hid]
  rw [openTokens, registrations_concat, List.filter_append, List.map_append, List.filter_map, hold,
    openTokens, List.filter_map, List.filter_filter, List.map_map]
  congr 1
  · simp only [Bool.and_comm]
    rfl
  · cases call with
    | register id' =>
        by_cases hid : id' = id
        · simp [WaiterCall.registration?, hid, Registration.isOpen, Registration.ending?]
        · simp [WaiterCall.registration?, hid]
    | _ => simp [WaiterCall.registration?]

end PrivatePresentation
