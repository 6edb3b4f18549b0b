import PrivatePresentation.Proofs.Schema.WellFormed
import PrivatePresentation.Proofs.Service.Perform
import PrivatePresentation.Proofs.Service.SettledOnce

/-!
Expiry.  Seconds that are added to an instant pass three limits, those of a machine word, of a length of
time and of the calendar, and the last of them alone tells in the end.  So a request expires after its
lifetime and not before, and never if that is beyond the calendar.
-/

namespace PrivatePresentation

namespace Timestamp

/-- Seconds as a machine word with a sign holds them. -/
def wordSeconds (n : Nat) : Nat := if (n : Int) ≤ Json.maxSigned then n else Json.maxSigned.toNat

/-- The longest time in whole seconds, of as many milliseconds as a machine word holds. -/
def maxDuration : Nat := Json.maxSigned.toNat / 1000

/-- Seconds as a length of time, if it is not too long. -/
def duration? (n : Nat) : Option Nat := if n ≤ maxDuration then some n else none

/-- The instant some time later, if it lies in the calendar. -/
def after? (t : Timestamp) (n : Nat) : Option Timestamp :=
  if t.seconds + n ≤ maxSeconds then
    some ⟨t.seconds + n, if n = 0 then t.nanos else t.nanos % nanosPerSecond⟩
  else none

variable {t now : Timestamp} {n : Nat}

/-- Whichever limit is passed, the calendar ends before. -/
theorem plusSeconds_eq_limits (ht : t.InCalendar) (n : Nat) :
    t.plusSeconds n = ((duration? (wordSeconds n)).bind t.after?).getD latest := by
  have hfirst : -8334601228800 ≤ t.seconds := ht.1
  have hlast : t.seconds ≤ 8210266876799 := ht.2
  have hcalendar : maxSeconds = 8210266876799 := rfl
  have hword : Json.maxSigned = 9223372036854775807 := rfl
  have hduration : maxDuration = 9223372036854775 := rfl
  -- From any instant of the calendar, what passes one of the other limits passes the calendar's end.
  unfold wordSeconds
  by_cases hfits : (n : Int) ≤ Json.maxSigned
  · rw [if_pos hfits, duration?]
    by_cases hshort : n ≤ maxDuration
    · rw [if_pos hshort, Option.bind_some, after?, plusSeconds]
      by_cases hn : n = 0
      · subst hn
        simp [ht.2]
      · by_cases hover : maxSeconds < t.seconds + n
        · have hnot := Int.not_le.2 hover
          simp [hn, hover, hnot]
        · simp [hn, hover, Int.not_lt.1 hover]
    · have hover : maxSeconds < t.seconds + n := by omega
      have hn : n ≠ 0 := by omega
      rw [if_neg hshort, plusSeconds, if_neg hn, if_pos hover]
      rfl
  · have hover : maxSeconds < t.seconds + n := by omega
    have hn : n ≠ 0 := by omega
    rw [if_neg hfits, plusSeconds, if_neg hn, if_pos hover]
    rfl

/-- Of whole seconds, the sum is a whole second or the last instant. -/
theorem plusSeconds_cases (ht : t.InCalendar) (hwhole : t.nanos = 0) (n : Nat) :
    t.seconds + n ≤ maxSeconds ∧ t.plusSeconds n = ⟨t.seconds + n, 0⟩ ∨
      maxSeconds < t.seconds + n ∧ t.plusSeconds n = latest := by
  have hlast := ht.2
  by_cases hover : maxSeconds < t.seconds + n
  · right
    have hn : n ≠ 0 := by
      rintro rfl
      omega
    exact ⟨hover, by rw [plusSeconds, if_neg hn, if_pos hover]⟩
  · left
    refine ⟨Int.not_lt.1 hover, ?_⟩
    by_cases hn : n = 0
    · subst hn
      cases t
      simp_all [plusSeconds]
    · simp [plusSeconds, hn, hover, hwhole]

theorem plusSeconds_mono {u : Timestamp} {m : Nat} (ht : t.InCalendar) (hwhole : t.nanos = 0)
    (hu : u.InCalendar) (hwhole' : u.nanos = 0) (hle : t.isAfter u = false) (hmn : m ≤ n) :
    (t.plusSeconds m).isAfter (u.plusSeconds n) = false := by
  rw [isAfter_eq_false_iff] at hle ⊢
  have hseconds : t.seconds ≤ u.seconds := by omega
  rcases plusSeconds_cases ht hwhole m with ⟨hm, hsum⟩ | ⟨hm, hsum⟩
  · rcases plusSeconds_cases hu hwhole' n with ⟨hn, hsum'⟩ | ⟨hn, hsum'⟩
    · rw [hsum, hsum']
      dsimp only
      omega
    · rw [hsum, hsum']
      dsimp only [latest]
      omega
  · rcases plusSeconds_cases hu hwhole' n with ⟨hn, hsum'⟩ | ⟨hn, hsum'⟩
    · omega
    · rw [hsum, hsum']
      exact .inr ⟨rfl, Nat.le_refl _⟩

/-- An instant in whole seconds is after a sum exactly if more seconds have passed than were added. -/
theorem isAfter_plusSeconds {u : Timestamp} (ht : t.InCalendar) (hwhole : t.nanos = 0)
    (hu : u.InCalendar) (hwhole' : u.nanos = 0) (n : Nat) :
    u.isAfter (t.plusSeconds n) = true ↔ (n : Int) < u.secondsSince t := by
  have hlast := hu.2
  rw [← not_iff_not, Bool.not_eq_true, isAfter_eq_false_iff, secondsSince, hwhole']
  rcases plusSeconds_cases ht hwhole n with ⟨hn, hsum⟩ | ⟨hn, hsum⟩
  · rw [hsum]
    dsimp only
    omega
  · rw [hsum]
    dsimp only [latest]
    omega

/-- Instants of the calendar are not further apart than a machine word tells. -/
theorem secondsSince_fitsSigned {u : Timestamp} (ht : t.InCalendar) (hu : u.InCalendar) :
    Json.FitsSigned (u.secondsSince t) := by
  simp only [InCalendar, minSeconds, maxSeconds] at ht hu
  simp only [Json.FitsSigned, Json.minSigned, Json.maxSigned, secondsSince]
  omega

end Timestamp

namespace Service

variable {ps : ProofSystem} {s s' : Service} {order : PresentationOrder} {now : Timestamp} {fresh : Fresh}
variable {r : PresentationRequest}

/-- A request that has been made expires when its lifetime is over. -/
theorem expiresAt_of_created
    (h : s.perform ps (.create order now fresh) = (.done (.created r), s')) :
    r.expiresAt = now.plusSeconds (order.lifetime.getD s.config.requestLifetime) := by
  obtain ⟨schema, keys, -, hr⟩ := prepare_of_prepareWithKeys (prepareWithKeys_of_created h)
  obtain ⟨-, -, hr⟩ := Outcome.of_bind hr
  rw [← Except.ok.inj hr]

end Service

/-- Sums and expiry from an instant on. -/
structure Timestamp.ExpiresExactly (now : Timestamp) : Prop where
  limits : ∀ n, now.plusSeconds n = ((duration? (wordSeconds n)).bind now.after?).getD latest
  inCalendar : ∀ n, (now.plusSeconds n).InCalendar
  seconds : ∀ n : Nat, (now.plusSeconds n).seconds = min (now.seconds + n) maxSeconds
  monotone : ∀ later : Timestamp, later.InCalendar → later.nanos = 0 → now.isAfter later = false →
    ∀ m n, m ≤ n → (now.plusSeconds m).isAfter (later.plusSeconds n) = false
  difference : ∀ now' : Timestamp, now'.InCalendar → Json.FitsSigned (now'.secondsSince now)
  /-- A request that is made now expires after its lifetime, in whole seconds, and not before. -/
  expired : ∀ (ps : ProofSystem) (s s' : Service) (order : PresentationOrder) (fresh : Fresh)
    (r : PresentationRequest),
    s.perform ps (.create order now fresh) = (.done (.created r), s') →
    ∀ now' : Timestamp, now'.InCalendar → now'.nanos = 0 →
      (r.isExpired now' = true ↔
        ((order.lifetime.getD s.config.requestLifetime : Nat) : Int) < now'.secondsSince now)
  unexpired : ∀ (ps : ProofSystem) (s s' : Service) (order : PresentationOrder) (fresh : Fresh)
    (r : PresentationRequest),
    s.perform ps (.create order now fresh) = (.done (.created r), s') → r.isExpired now = false

/-- From a whole second on, sums and expiry are exact as far as the calendar goes. -/
theorem Timestamp.expiresExactly {now : Timestamp} (hnow : now.InCalendar) (hwhole : now.nanos = 0) :
    now.ExpiresExactly where
  limits := plusSeconds_eq_limits hnow
  inCalendar := plusSeconds_inCalendar hnow
  seconds := seconds_plusSeconds hnow
  monotone later hlater hwhole' hle m n hmn := plusSeconds_mono hnow hwhole hlater hwhole' hle hmn
  difference now' hnow' := secondsSince_fitsSigned hnow hnow'
  expired ps s s' order fresh r h now' hnow' hwhole' := by
    rw [PresentationRequest.isExpired, Service.expiresAt_of_created h]
    exact isAfter_plusSeconds hnow hwhole hnow' hwhole' _
  unexpired ps s s' order fresh r h := by
    rw [PresentationRequest.isExpired, Service.expiresAt_of_created h, ← Bool.not_eq_true,
      isAfter_plusSeconds hnow hwhole hnow hwhole, secondsSince]
    omega

/-- A request is made with the longest lifetime that can be asked for, and is in time to the last second of
the calendar. -/
theorem Timestamp.expiresExactly_longest : (Timestamp.mk 0 0).ExpiresExactly ∧ ∃ r s',
    Service.perform .tellingNothing {} (.create
      { schemaText := some bareText, lifetime := some 18446744073709551615 } ⟨0, 0⟩
      ⟨⟨List.replicate 16 1⟩, ⟨"once"⟩, default⟩) = (.done (.created r), s') ∧
    r.isExpired ⟨maxSeconds, 0⟩ = false := by
  have hexact : (Timestamp.mk 0 0).ExpiresExactly := expiresExactly ⟨by decide, by decide⟩ rfl
  refine ⟨hexact, ?_⟩
  rcases hprepare : Service.prepareWithKeys .tellingNothing {}
    { schemaText := some bareText, lifetime := some 18446744073709551615 } ⟨0, 0⟩
    ⟨⟨List.replicate 16 1⟩, ⟨"once"⟩, default⟩ with ⟨e | r, s'⟩
  · have hmade : (Service.prepareWithKeys .tellingNothing {}
        { schemaText := some bareText, lifetime := some 18446744073709551615 } ⟨0, 0⟩
        ⟨⟨List.replicate 16 1⟩, ⟨"once"⟩, default⟩).1.isOk = true := by
      decide +kernel
    rw [hprepare] at hmade
    exact absurd hmade Bool.false_ne_true
  · have hperform := Service.perform_create hprepare
    refine ⟨r, _, hperform, ?_⟩
    rw [← Bool.not_eq_true, hexact.expired _ _ _ _ _ _ hperform _ ⟨by decide, by decide⟩ rfl]
    decide

end PrivatePresentation
