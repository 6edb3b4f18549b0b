import PrivatePresentation.Presentation.Verdict
import PrivatePresentation.Service.Store

/-!
Waiters. Whoever waits for the verdict on a request is registered under a token of its own. A verdict
goes to every waiter of its request at once and ends their registrations; a waiter that gives up ends
only its own.
-/

namespace PrivatePresentation

/-- The name of a registration. -/
structure WaiterToken where
  number : Nat
deriving DecidableEq, Repr, Inhabited

/-- The receiving end of a registration. -/
inductive Receiver where
  /-- Nothing has come yet. -/
  | listening
  /-- A verdict has come and has not been fetched. -/
  | delivered (verdict : Verdict)
  /-- Nothing will come any more. -/
  | closed
deriving DecidableEq, Repr, Inhabited

/-- All registrations: the tokens of each request, and the receiving end of each token that somebody
still holds. -/
structure Waiters where
  parked : Store RequestId (List WaiterToken) := ∅
  receivers : Store WaiterToken Receiver := ∅
  next : Nat := 0
deriving Inhabited

namespace Waiters

/-- The tokens registered for a request. -/
def tokens (w : Waiters) (id : RequestId) : List WaiterToken := (w.parked.get? id).getD []

/-- The number of registrations for a request. -/
def waiting (w : Waiters) (id : RequestId) : Nat := (w.tokens id).length

/-- Sets the tokens of a request; without any there is no entry. -/
def setTokens (w : Waiters) (id : RequestId) (tokens : List WaiterToken) : Waiters :=
  { w with parked := if tokens.isEmpty then w.parked.erase id else w.parked.insert id tokens }

/-- Sets what has come for a token, if its receiving end is still held and has got nothing. -/
def send (w : Waiters) (token : WaiterToken) (state : Receiver) : Waiters :=
  match w.receivers.get? token with
  | some .listening => { w with receivers := w.receivers.insert token state }
  | _ => w

/-- Registers a waiter for a request. -/
def register (w : Waiters) (id : RequestId) : WaiterToken × Waiters :=
  let token : WaiterToken := ⟨w.next⟩
  let registered := w.setTokens id (w.tokens id ++ [token])
  (token, { registered with
    receivers := registered.receivers.insert token .listening, next := w.next + 1 })

/-- Ends one registration, if there is such a token for the request. -/
def cancel (w : Waiters) (id : RequestId) (token : WaiterToken) : Waiters :=
  if (w.tokens id).contains token then
    (w.setTokens id ((w.tokens id).filter (· != token))).send token .closed
  else w

/-- A token whose receiving end would take a verdict. -/
def isListening (w : Waiters) (token : WaiterToken) : Bool :=
  w.receivers.get? token == some .listening

/-- Gives a verdict to every waiter of a request, and tells how many took it. -/
def notify (w : Waiters) (id : RequestId) (verdict : Verdict) : Nat × Waiters :=
  let tokens := w.tokens id
  ((tokens.filter w.isListening).length,
    tokens.foldl (fun w token => w.send token (.delivered verdict)) (w.setTokens id []))

/-- What has come for a token; a verdict is fetched once. -/
def receive (w : Waiters) (token : WaiterToken) : Receiver × Waiters :=
  match w.receivers.get? token with
  | some (.delivered v) =>
    (.delivered v, { w with receivers := w.receivers.insert token .closed })
  | some state => (state, w)
  | none => (.closed, w)

/-- Lets go of the receiving end of a token; its registration stays. -/
def drop (w : Waiters) (token : WaiterToken) : Bool × Waiters :=
  ((w.receivers.get? token).isSome, { w with receivers := w.receivers.erase token })

end Waiters
end PrivatePresentation
