import PrivatePresentation.Presentation.Request
import PrivatePresentation.Proofs.Json.Scalars

/-!
The plain text of a value has no white space at its ends: a string is trimmed, and what else is
written begins and ends with a bracket, a letter or a digit.
-/

namespace PrivatePresentation

namespace Text

/-- There is no white space among the characters. -/
def Solid (s : List Char) : Prop := ∀ c ∈ s, isBlank c = false

variable {s t : List Char}

theorem Solid.append (hs : Solid s) (ht : Solid t) : Solid (s ++ t) := by
  intro c hc
  rcases List.mem_append.1 hc with hc | hc
  · exact hs c hc
  · exact ht c hc

theorem solid_of_all (hs : s.all (!isBlank ·) = true) : Solid s := by
  intro c hc
  simpa using List.all_eq_true.1 hs c hc

theorem Solid.take (hs : Solid s) (n : Nat) : Solid (s.take n) :=
  fun c hc => hs c (List.mem_of_mem_take hc)

theorem Solid.drop (hs : Solid s) (n : Nat) : Solid (s.drop n) :=
  fun c hc => hs c (List.mem_of_mem_drop hc)

theorem solid_toDigits (n : Nat) : Solid (Nat.toDigits 10 n) := by
  intro c hc
  have hcode := Decimal.isDigit_iff.1 (Decimal.isDigit_of_mem_toDigits hc)
  simp [isBlank]
  omega

theorem solid_replicate (n : Nat) : Solid (List.replicate n '0') := by
  intro c hc
  rw [List.eq_of_mem_replicate hc]
  rfl

/-- Nothing is trimmed between two characters that are not white space. -/
theorem trimChars_enclosed {a b : Char} (ha : isBlank a = false) (hb : isBlank b = false) :
    trimChars (a :: s ++ [b]) = a :: s ++ [b] := by
  refine trimChars_eq_self (fun c hc => ?_) fun c hc => ?_
  · obtain rfl := Option.some.inj hc
    exact ha
  · rw [List.getLast?_concat] at hc
    obtain rfl := Option.some.inj hc
    exact hb

end Text

namespace Binary64

open Text (Solid)

theorem Decimal.solid_text (c : Decimal) : Solid c.text.toList := by
  rw [text, Nat.toString_eq_repr, Nat.toList_repr]
  exact Text.solid_toDigits _

theorem Decimal.solid_positional (c : Decimal) : Solid c.positional.toList := by
  have htext := c.solid_text
  have hzero : Solid "0.".toList := Text.solid_of_all rfl
  have hpoint : Solid ".".toList := Text.solid_of_all rfl
  unfold positional
  dsimp only
  split
  · rw [String.toList_append, String.toList_ofList]
    exact htext.append (Text.solid_replicate _)
  · split
    · simp only [String.toList_append, String.toList_ofList]
      exact ((htext.take _).append hpoint).append (htext.drop _)
    · simp only [String.toList_append, String.toList_ofList]
      exact (hzero.append (Text.solid_replicate _)).append htext

theorem solid_documentText (x : Binary64) : Solid x.documentText.toList := by
  have htext := x.shortest.solid_text
  have hsign : Solid (if x.negative then "-" else "").toList := by
    split <;> exact Text.solid_of_all rfl
  unfold documentText
  dsimp only
  split
  · rw [String.toList_append]
    exact hsign.append (Text.solid_of_all rfl)
  · split
    · rw [String.toList_append, String.toList_append]
      refine (hsign.append x.shortest.solid_positional).append ?_
      split <;> exact Text.solid_of_all rfl
    · simp only [String.toList_append, String.toList_ofList]
      refine Solid.append (Solid.append (Solid.append (Solid.append ?front ?fraction) ?letter)
        ?sign) ?power
      case front => exact hsign.append (htext.take 1)
      case fraction =>
        split
        · exact Text.solid_of_all rfl
        · have hpoint : Solid ".".toList := Text.solid_of_all rfl
          simp only [String.toList_append, String.toList_ofList]
          exact hpoint.append (htext.drop 1)
      case letter => exact Text.solid_of_all rfl
      case sign => split <;> exact Text.solid_of_all rfl
      case power =>
        rw [Nat.toString_eq_repr, Nat.toList_repr]
        exact Text.solid_toDigits _

end Binary64

namespace Json

theorem solid_writeNumber (n : Number) : Text.Solid (writeNumber n) := by
  cases n with
  | integer n fits =>
      rw [writeNumber, Int.toString_eq_repr, Int.repr_eq_if]
      split
      · rw [Nat.toList_repr]
        exact Text.solid_toDigits _
      · have hminus : Text.Solid "-".toList := Text.solid_of_all rfl
        rw [String.toList_append, Nat.toList_repr]
        exact hminus.append (Text.solid_toDigits _)
  | float x => exact x.solid_documentText

/-- Compact text has no white space at its ends. -/
theorem trim_compact (v : Json) : Text.trim v.compact = v.compact := by
  rw [compact, Text.trim_ofList]
  refine congrArg String.ofList ?_
  cases v with
  | null => rfl
  | bool b => cases b <;> rfl
  | number n => exact Text.trimChars_of_not_isBlank (solid_writeNumber n)
  | string s => exact Text.trimChars_enclosed (by decide) (by decide)
  | array items => exact Text.trimChars_enclosed (by decide) (by decide)
  | object members => exact Text.trimChars_enclosed (by decide) (by decide)

theorem trim_plainText (v : Json) : Text.trim v.plainText = v.plainText := by
  cases v with
  | string s => exact Text.trim_trim s
  | _ => exact trim_compact _

end Json
end PrivatePresentation
