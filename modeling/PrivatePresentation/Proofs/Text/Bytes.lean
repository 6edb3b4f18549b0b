import Mathlib
import PrivatePresentation.Text.Blank
import PrivatePresentation.Text.Bytes

/-!
Texts by their characters: the bytes of a text, the runs that it is read by, and what trimming leaves of
it.
-/

namespace PrivatePresentation.Text

section Runs

variable {α : Type} {p : α → Bool} {run rest : List α}

theorem head?_dropWhile (s : List α) : ∀ a ∈ (s.dropWhile p).head?, p a = false := by
  intro a ha
  have hnot := List.head?_dropWhile_not p s
  rw [Option.mem_def.1 ha] at hnot
  exact hnot

/-- A run ends where something stands that is not of it. -/
theorem takeWhile_run (hrun : ∀ a ∈ run, p a = true) (hrest : ∀ a ∈ rest.head?, p a = false) :
    (run ++ rest).takeWhile p = run := by
  rw [List.takeWhile_append_of_pos hrun]
  cases rest with
  | nil => simp
  | cons a rest => simp [hrest a rfl]

theorem dropWhile_run (hrun : ∀ a ∈ run, p a = true) (hrest : ∀ a ∈ rest.head?, p a = false) :
    (run ++ rest).dropWhile p = rest := by
  rw [List.dropWhile_append_of_pos hrun]
  cases rest with
  | nil => rfl
  | cons a rest => simp [hrest a rfl]

end Runs

theorem utf8_ofList (s : List Char) : utf8 (String.ofList s) = s.flatMap String.utf8EncodeChar := by
  rw [utf8]
  simp [List.utf8Encode]

/-- A text comes out of its bytes. -/
theorem ofUtf8?_utf8 (s : String) : ofUtf8? (utf8 s) = some s := by
  have hbytes : (⟨(utf8 s).toArray⟩ : ByteArray) = s.toByteArray := by
    rw [utf8, Array.toArray_toList]
    rfl
  rw [ofUtf8?, hbytes, String.fromUTF8?, dif_pos s.isValidUTF8]
  rfl

/-- The bytes of some characters. -/
def utf8Chars (s : List Char) : Bytes := s.flatMap String.utf8EncodeChar

@[simp]
theorem utf8Chars_nil : utf8Chars [] = [] := rfl

@[simp]
theorem utf8Chars_cons (c : Char) (s : List Char) :
    utf8Chars (c :: s) = String.utf8EncodeChar c ++ utf8Chars s :=
  List.flatMap_cons

@[simp]
theorem utf8Chars_append (s t : List Char) : utf8Chars (s ++ t) = utf8Chars s ++ utf8Chars t :=
  List.flatMap_append

theorem utf8_eq_utf8Chars (s : String) : utf8 s = utf8Chars s.toList := by
  rw [utf8Chars, ← utf8_ofList, String.ofList_toList]

/-- A character is either one byte, which is its code, or bytes that are no ASCII. -/
theorem utf8EncodeChar_cases (c : Char) :
    (c.toNat < 128 ∧ String.utf8EncodeChar c = [UInt8.ofNat c.toNat]) ∨
      128 ≤ c.toNat ∧ ∀ b ∈ String.utf8EncodeChar c, 128 ≤ b.toNat := by
  by_cases h : c.toNat < 128
  · have hone : c.val.toNat ≤ 127 := Nat.le_of_lt_succ h
    exact .inl ⟨h, if_pos hone⟩
  · right
    constructor
    · exact Nat.not_lt.1 h
    · intro b hb
      have hmore : ¬c.val.toNat ≤ 127 := fun hone => h (Nat.lt_succ_of_le hone)
      have hbyte : ∀ n, 128 ≤ n % 256 → 128 ≤ (UInt8.ofNat n).toNat := fun n hn => by
        rwa [UInt8.toNat_ofNat']
      rw [String.utf8EncodeChar] at hb
      simp only [if_neg hmore] at hb
      split at hb
      · simp only [List.mem_cons, List.not_mem_nil, or_false] at hb
        rcases hb with rfl | rfl <;> exact hbyte _ (by omega)
      · split at hb
        · simp only [List.mem_cons, List.not_mem_nil, or_false] at hb
          rcases hb with rfl | rfl | rfl <;> exact hbyte _ (by omega)
        · simp only [List.mem_cons, List.not_mem_nil, or_false] at hb
          rcases hb with rfl | rfl | rfl | rfl <;> exact hbyte _ (by omega)

theorem trim_ofList (s : List Char) : trim (String.ofList s) = String.ofList (trimChars s) := by
  rw [trim, String.toList_ofList]

theorem dropWhile_isBlank_eq_self {s : List Char} (hs : ∀ c ∈ s.head?, isBlank c = false) :
    s.dropWhile isBlank = s :=
  @dropWhile_run _ isBlank [] s (List.forall_mem_nil _) hs

/-- Trimming leaves a text that has no white space at its ends. -/
theorem trimChars_eq_self {s : List Char} (hfirst : ∀ c ∈ s.head?, isBlank c = false)
    (hlast : ∀ c ∈ s.getLast?, isBlank c = false) : trimChars s = s := by
  rw [trimChars, dropWhile_isBlank_eq_self hfirst,
    dropWhile_isBlank_eq_self (List.head?_reverse ▸ hlast), List.reverse_reverse]

theorem trimChars_of_not_isBlank {s : List Char} (hs : ∀ c ∈ s, isBlank c = false) :
    trimChars s = s :=
  trimChars_eq_self (fun c hc => hs c (List.mem_of_head? hc))
    fun c hc => hs c (List.mem_of_getLast? hc)

/-- White space around a text that has none at its own ends is trimmed away. -/
theorem trimChars_surrounded {before s after : List Char} (hbefore : ∀ c ∈ before, isBlank c = true)
    (hafter : ∀ c ∈ after, isBlank c = true) (hs : ∀ c ∈ s, isBlank c = false) :
    trimChars (before ++ s ++ after) = s := by
  have hfront : (before ++ s ++ after).dropWhile isBlank = (s ++ after).dropWhile isBlank := by
    rw [List.append_assoc, List.dropWhile_append_of_pos hbefore]
  rw [trimChars, hfront]
  cases s with
  | nil =>
      rw [List.nil_append, List.dropWhile_eq_nil_iff.2 hafter]
      rfl
  | cons c rest =>
      have hfirst : ∀ d ∈ (c :: rest ++ after).head?, isBlank d = false := by
        intro d hd
        obtain rfl := Option.some.inj hd
        exact hs c List.mem_cons_self
      rw [dropWhile_isBlank_eq_self hfirst, List.reverse_append,
        List.dropWhile_append_of_pos fun d hd => hafter d (List.mem_reverse.1 hd),
        dropWhile_isBlank_eq_self, List.reverse_reverse]
      exact fun d hd => hs d (List.mem_reverse.1 (List.mem_of_head? hd))

/-- Nothing is left of a text exactly if it is white space only. -/
theorem trim_eq_empty {s : String} : trim s = "" ↔ isBlankText s = true := by
  rw [trim, String.ofList_eq_empty_iff, trimChars, List.reverse_eq_nil_iff, List.dropWhile_eq_nil_iff,
    isBlankText, List.all_eq_true]
  simp only [List.mem_reverse]
  rw [← List.dropWhile_eq_nil_iff, List.dropWhile_idempotent, List.dropWhile_eq_nil_iff]

/-- What trimming leaves is not trimmed any further. -/
theorem trim_trim (s : String) : trim (trim s) = trim s := by
  obtain ⟨dropped, hprefix⟩ : trimChars s.toList <+: s.toList.dropWhile isBlank :=
    List.reverse_suffix.1 (by rw [trimChars, List.reverse_reverse]; exact List.dropWhile_suffix _)
  have hfirst : ∀ c ∈ (trimChars s.toList).head?, isBlank c = false := by
    intro c hc
    apply head?_dropWhile s.toList
    rw [← hprefix, List.head?_append, Option.mem_def.1 hc]
    rfl
  have hlast : ∀ c ∈ (trimChars s.toList).getLast?, isBlank c = false := by
    rw [trimChars, List.getLast?_reverse]
    exact head?_dropWhile _
  have htrim : trim s = String.ofList (trimChars s.toList) := rfl
  rw [htrim, trim_ofList, trimChars_eq_self hfirst hlast]

end PrivatePresentation.Text
