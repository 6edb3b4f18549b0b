import PrivatePresentation.Proofs.Json.NormalForm

/-!
The order of members.  Canonical texts are in interchange form, with the members of each object in the order
of their keys as they are written.  RFC 8785 has them in the order of the UTF-16 code units of the keys; a
canonical text is in its form exactly if the two orders agree on the keys of each object.
-/

namespace PrivatePresentation

namespace Json

open Canonical (writtenBefore)

/-- The UTF-16 code units of a character. -/
def codeUnits (c : Char) : List Nat :=
  if c.toNat < 0x10000 then [c.toNat]
  else [0xD800 + (c.toNat - 0x10000) / 0x400, 0xDC00 + (c.toNat - 0x10000) % 0x400]

/-- The order of two keys by their UTF-16 code units. -/
def utf16Before (a b : String) : Prop := a.toList.flatMap codeUnits < b.toList.flatMap codeUnits

instance (a b : String) : Decidable (writtenBefore a b) :=
  inferInstanceAs (Decidable (writeString a < writeString b))

instance (a b : String) : Decidable (utf16Before a b) :=
  inferInstanceAs (Decidable (a.toList.flatMap codeUnits < b.toList.flatMap codeUnits))

theorem writtenBefore_asymm (a b : String) (h : writtenBefore a b) : ¬writtenBefore b a := lt_asymm h

theorem utf16Before_asymm (a b : String) (h : utf16Before a b) : ¬utf16Before b a := lt_asymm h

section SimpleKeys

/-- The characters of a key stand for themselves in a string and are one code unit each, and none comes
before the quote. -/
def IsSimple (key : String) : Prop := ∀ c ∈ key.toList, '"' < c ∧ c ≠ '\\' ∧ c.toNat < 0x10000

/-- All keys of a value have a property. -/
inductive EachKey (p : String → Prop) : Json → Prop where
  | null : EachKey p .null
  | bool (b : Bool) : EachKey p (.bool b)
  | number (n : Number) : EachKey p (.number n)
  | string (s : String) : EachKey p (.string s)
  | array {items : List Json} (hitems : ∀ v ∈ items, EachKey p v) : EachKey p (.array items)
  | object {members : Members} (hkeys : ∀ e ∈ members, p e.1) (hvalues : ∀ e ∈ members, EachKey p e.2) :
      EachKey p (.object members)

theorem EachKey.agree {p : String → Prop} {before before' : String → String → Prop} {u : Json}
    (hu : EachKey p u) (hp : ∀ a b, p a → p b → (before a b ↔ before' a b)) : Agree before before' u := by
  induction hu with
  | null => exact .null
  | bool b => exact .bool b
  | number n => exact .number n
  | string s => exact .string s
  | array hitems ih => exact .array ih
  | object hkeys hvalues ih => exact .object (fun a ha b hb => hp a.1 b.1 (hkeys a ha) (hkeys b hb)) ih

variable {a b : String}

theorem writeString_of_isSimple (ha : IsSimple a) : writeString a = '"' :: (a.toList ++ ['"']) := by
  have hself : ∀ c ∈ a.toList, escapeChar c = [c] := by
    intro c hc
    obtain ⟨hquote, hslash, -⟩ := ha c hc
    have hcode : 0x22 < c.toNat := hquote
    have hshort : ∀ e, (c, e) ∉ shortEscapes := by
      intro e he
      simp only [shortEscapes, List.mem_cons, Prod.mk.injEq, List.not_mem_nil, or_false] at he
      rcases he with ⟨rfl, -⟩ | ⟨rfl, -⟩ | ⟨rfl, -⟩ | ⟨rfl, -⟩ | ⟨rfl, -⟩ | ⟨rfl, -⟩ | ⟨rfl, -⟩
      · exact absurd hcode (by decide)
      · exact hslash rfl
      · exact absurd hcode (by decide)
      · exact absurd hcode (by decide)
      · exact absurd hcode (by decide)
      · exact absurd hcode (by decide)
      · exact absurd hcode (by decide)
    rw [escapeChar_eq hshort, if_neg (by omega)]
  rw [writeString, List.flatMap_congr hself, List.flatMap_singleton']
  rfl

/-- A mark after two lists of what is greater does not change their order. -/
theorem append_singleton_lt {α : Type} [LinearOrder α] {mark : α} {l l' : List α} (hl : ∀ x ∈ l, mark < x)
    (hl' : ∀ x ∈ l', mark < x) : l ++ [mark] < l' ++ [mark] ↔ l < l' := by
  induction l generalizing l' with
  | nil =>
      cases l' with
      | nil => simp
      | cons x l' => simp [List.cons_lt_cons_iff, hl' x List.mem_cons_self]
  | cons x l ih =>
      obtain ⟨hx, hl⟩ := List.forall_mem_cons.1 hl
      cases l' with
      | nil => simp [List.cons_lt_cons_iff, hx.not_gt, hx.ne']
      | cons y l' =>
          obtain ⟨-, hl'⟩ := List.forall_mem_cons.1 hl'
          simp [List.cons_lt_cons_iff, ih hl hl']

theorem map_toNat_lt {s s' : List Char} : s.map Char.toNat < s'.map Char.toNat ↔ s < s' := by
  induction s generalizing s' with
  | nil => cases s' <;> simp
  | cons c s ih =>
      cases s' with
      | nil => simp
      | cons c' s' =>
          have hchar : c.toNat < c'.toNat ↔ c < c' := Iff.rfl
          simp [List.cons_lt_cons_iff, ih, hchar, Char.toNat_inj]

/-- The orders agree on simple keys. -/
theorem writtenBefore_iff_utf16Before (ha : IsSimple a) (hb : IsSimple b) :
    writtenBefore a b ↔ utf16Before a b := by
  have hunits {s : String} (hs : IsSimple s) : s.toList.flatMap codeUnits = s.toList.map Char.toNat := by
    rw [List.map_eq_flatMap]
    apply List.flatMap_congr
    intro c hc
    exact if_pos (hs c hc).2.2
  rw [writtenBefore, writeString_of_isSimple ha, writeString_of_isSimple hb, utf16Before, hunits ha, hunits hb,
    map_toNat_lt, List.cons_lt_cons_iff, append_singleton_lt (fun c hc => (ha c hc).1) fun c hc => (hb c hc).1]
  simp

end SimpleKeys

end Json

namespace CanonicalText

open Json
open Canonical (writtenBefore)

variable {v : Json} {t : CanonicalText}

/-- A canonical text with simple keys is in the form of RFC 8785. -/
theorem interchange_of_isSimple {u : Json} (hv : v.Ordered fun _ => True) (hu : Canonical.coerce v = .ok u)
    (hkeys : EachKey IsSimple u) : Interchange utf16Before u (Canonical.write u) := by
  have htext := Canonical.interchange_write (Canonical.coerce_ordered hv hu)
  apply htext.reorder
  exact hkeys.agree fun a b => writtenBefore_iff_utf16Before

/-- A canonical text is in interchange form, with members in the order of the written keys; so it is in the
form of RFC 8785 exactly if that order agrees with the one of UTF-16 code units on the keys of each object. -/
theorem orderedAsWritten (hv : v.Ordered fun _ => True) (ht : ofJson v = .ok t) :
    ∃ u, Canonical.coerce v = .ok u ∧ Interchange writtenBefore u t.text.toList ∧
      (Interchange utf16Before u t.text.toList ↔ Agree writtenBefore utf16Before u) := by
  obtain ⟨u, hu, rfl⟩ := of_ofJson ht
  have hordered := Canonical.coerce_ordered hv hu
  have htext := Canonical.interchange_write hordered
  rw [String.toList_ofList]
  refine ⟨u, hu, htext, ?_, htext.reorder⟩
  intro hunits
  exact htext.agree writtenBefore_asymm utf16Before_asymm hunits hordered

/-- An object with a key that is another one with a blank after it. -/
def spaced : Json :=
  .object [("a", .number (.integer 1 (by decide))), ("a b", .number (.integer 0 (by decide)))]

theorem orderedAsWritten_spaced : (spaced.Ordered fun _ => True) ∧
    ofJson spaced = .ok ⟨"\x7b\"a b\":0,\"a\":1\x7d"⟩ ∧
      ¬Interchange utf16Before spaced "\x7b\"a b\":0,\"a\":1\x7d".toList := by
  have hordered : spaced.Ordered fun _ => True := by
    apply Ordered.object (by decide)
    intro e he
    rcases List.mem_pair.1 he with rfl | rfl <;> exact .number trivial
  have htext : ofJson spaced = .ok ⟨"\x7b\"a b\":0,\"a\":1\x7d"⟩ := rfl
  refine ⟨hordered, htext, fun hunits => ?_⟩
  obtain ⟨u, hu, -, hagree⟩ := orderedAsWritten hordered htext
  obtain rfl : spaced = u := Except.ok.inj hu
  cases hagree.1 hunits with
  | object hkeys hvalues =>
      have hsame := hkeys ("a b", _) (List.mem_cons_of_mem _ List.mem_cons_self) ("a", _) List.mem_cons_self
      exact absurd (hsame.1 (by decide)) (by decide)

end CanonicalText
end PrivatePresentation
