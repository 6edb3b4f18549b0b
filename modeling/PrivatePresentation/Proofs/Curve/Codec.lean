import PrivatePresentation.Proofs.Field.SquareRoot
import PrivatePresentation.Proofs.Groth16.Envelope

/-!
Points are read back.  A point is written as its first coordinate and which of the two second
coordinates it has; those two are the roots that are found, the one that was written among them.
-/

namespace PrivatePresentation

open scoped Fin.CommRing

/-- Of a root and its opposite, put in order, the one that the flag of `y` tells is `y`. -/
theorem ordered_roots {F : Type} [Neg F] {le : F → F → Prop} [DecidableRel le]
    (htotal : ∀ a b, ¬le a b → le b a) (hantisymm : ∀ a b, le a b → le b a → a = b)
    (hneg : ∀ a : F, - -a = a) {r y : F} (hroot : r = y ∨ r = -y) :
    (le y (-y) → (if le r (-r) then (r, -r) else (-r, r)).1 = y) ∧
      (¬le y (-y) → (if le r (-r) then (r, -r) else (-r, r)).2 = y) := by
  rcases hroot with rfl | rfl
  · exact ⟨fun hle => by rw [if_pos hle], fun hle => by rw [if_neg hle]⟩
  · rw [hneg]
    constructor
    · intro hle
      by_cases hge : le (-y) y
      · rw [if_pos hge]
        exact hantisymm _ _ hge hle
      · rw [if_neg hge]
    · intro hle
      rw [if_pos (htotal _ _ hle)]

namespace G1

/-- A point of the first group, which is the whole curve. -/
def Valid (p : G1) : Prop := p.isOnCurve coefficient = true

theorem ordinates?_spec {x y : Base} (h : y * y = x * x * x + coefficient) :
    ∃ low high, ordinates? x = some (low, high) ∧
      (y.val ≤ (-y).val → low = y) ∧ (¬y.val ≤ (-y).val → high = y) := by
  obtain ⟨r, hr⟩ := Base.exists_sqrt? y
  have hroot := mul_self_eq_mul_self_iff.1 (Base.mul_self_of_sqrt? hr)
  have hordered := @ordered_roots Base _ (fun a b => a.val ≤ b.val) _ (fun a b => Nat.le_of_not_le)
    (fun a b hab hba => Fin.ext (Nat.le_antisymm hab hba)) neg_neg r y hroot
  rw [ordinates?, ← h, hr]
  exact ⟨_, _, rfl, hordered⟩

theorem readsBack {p : G1} (hp : p.Valid) : Decoder.ReadsBack decode encode p := by
  cases p with
  | infinity => exact readsBack_infinity
  | affine x y =>
      intro rest
      have hcurve : y * y = x * x * x + coefficient := beq_iff_eq.1 hp
      obtain ⟨low, high, hordinates, hlow, hhigh⟩ := ordinates?_spec hcurve
      rw [decode, encode]
      simp only [Base.decodeFlagged_encodeFlagged, bind, Except.bind]
      by_cases hle : y.val ≤ (-y).val
      · rw [if_pos hle, hordinates, ← hlow hle]
        rfl
      · rw [if_neg hle, hordinates, ← hhigh hle]
        rfl

end G1

namespace Quadratic

variable {a b : Quadratic}

theorem le_iff : a.le b = true ↔ a.c1.val < b.c1.val ∨ a.c1 = b.c1 ∧ a.c0.val ≤ b.c0.val := by
  simp only [le, Bool.or_eq_true, decide_eq_true_eq, Bool.and_eq_true, beq_iff_eq]

theorem le_of_not_le (h : ¬a.le b = true) : b.le a = true := by
  rw [le_iff] at h ⊢
  rcases Nat.lt_trichotomy b.c1.val a.c1.val with hlt | heq | hgt
  · exact .inl hlt
  · have heq := Fin.ext heq
    exact .inr ⟨heq, Nat.le_of_not_le fun hle => h (.inr ⟨heq.symm, hle⟩)⟩
  · exact absurd (.inl hgt) h

theorem eq_of_le_of_le (hab : a.le b = true) (hba : b.le a = true) : a = b := by
  rw [le_iff] at hab hba
  rcases hab with hab | ⟨h1, hab⟩
  · rcases hba with hba | ⟨h1, -⟩
    · exact absurd hba (Nat.lt_asymm hab)
    · exact absurd (h1 ▸ hab) (Nat.lt_irrefl _)
  · rcases hba with hba | ⟨-, hba⟩
    · exact absurd (h1 ▸ hba) (Nat.lt_irrefl _)
    · exact ext (Fin.ext (Nat.le_antisymm hab hba)) h1

end Quadratic

namespace G2

/-- A point of the second group. -/
structure Valid (p : G2) : Prop where
  onCurve : p.isOnCurve coefficient = true
  inGroup : p.isInGroup = true

theorem ordinates?_spec {x y : Quadratic} (h : y * y = x * x * x + coefficient) :
    ∃ low high, ordinates? x = some (low, high) ∧
      (y.le (-y) = true → low = y) ∧ (¬y.le (-y) = true → high = y) := by
  obtain ⟨r, hr, hsquare⟩ := Quadratic.exists_sqrt? y
  have hroot := Quadratic.eq_or_eq_neg_of_mul_self hsquare
  have hordered := @ordered_roots Quadratic _ (fun a b => a.le b = true) _
    (fun a b => Quadratic.le_of_not_le) (fun a b => Quadratic.eq_of_le_of_le)
    Quadratic.neg_involutive r y hroot
  rw [ordinates?, ← h, hr]
  exact ⟨_, _, rfl, hordered⟩

/-- A point of the curve is read back, whether it is of the group or not. -/
theorem readsBack_unchecked {p : G2} (hp : p.isOnCurve coefficient = true) :
    Decoder.ReadsBack decodeUnchecked encode p := by
  cases p with
  | infinity => exact readsBack_unchecked_infinity
  | affine x y =>
      intro rest
      have hcurve : y * y = x * x * x + coefficient := beq_iff_eq.1 hp
      obtain ⟨low, high, hordinates, hlow, hhigh⟩ := ordinates?_spec hcurve
      obtain ⟨c0, c1⟩ := x
      have hfirst := fun flag => @decodeBelow_readsBack baseOrder (by decide) c0
        (Base.encodeFlagged flag c1 ++ rest)
      rw [decodeUnchecked, encode, List.append_assoc]
      simp only [Base.encode, hfirst, Base.decodeFlagged_encodeFlagged, bind, Except.bind]
      by_cases hle : y.le (-y) = true
      · rw [if_pos hle, hordinates, ← hlow hle]
        rfl
      · rw [if_neg hle, hordinates, ← hhigh hle]
        rfl

theorem readsBack {p : G2} (hp : p.Valid) : Decoder.ReadsBack decode encode p :=
  readsBack_of_unchecked (readsBack_unchecked hp.onCurve) hp.inGroup

end G2
end PrivatePresentation
