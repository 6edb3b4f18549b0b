import PrivatePresentation.Json.Access
import PrivatePresentation.Proofs.Decimal.Rounding
import PrivatePresentation.Proofs.Json.Canonical

/-!
Canonical texts are normal forms.  A value differs from its canonical form in nothing but the way its
whole numbers are written, and two values have one canonical text exactly if they have one canonical
form.
-/

namespace PrivatePresentation

namespace Canonical

open Json

variable {p : Json.Number → Prop} {u v w : Json}

/-- A value and its form: doubles that are integers become those integers, and everything else, the
keys of objects included, stays as it is and where it is. -/
inductive FormOf : Json → Json → Prop where
  | null : FormOf .null .null
  | bool (b : Bool) : FormOf (.bool b) (.bool b)
  | string (s : String) : FormOf (.string s) (.string s)
  | integer (n : Int) (fits : minSigned ≤ n ∧ n ≤ maxUnsigned) :
      FormOf (.number (.integer n fits)) (.number (.integer n fits))
  | whole {x : Binary64} {n : Int} (fits : minSigned ≤ n ∧ n ≤ maxUnsigned) (hx : x.toRat = n) :
      FormOf (.number (.float x)) (.number (.integer n fits))
  | array {items us : List Json} (hitems : List.Forall₂ FormOf items us) :
      FormOf (.array items) (.array us)
  | object {members us : Members} (hkeys : us.map Prod.fst = members.map Prod.fst)
      (hvalues : List.Forall₂ FormOf (members.map Prod.snd) (us.map Prod.snd)) :
      FormOf (.object members) (.object us)

theorem coerceNumber_formOf {n m : Json.Number} (h : coerceNumber n = .ok m) :
    FormOf (.number n) (.number m) := by
  cases n with
  | integer n fits =>
      obtain rfl := Except.ok.inj h
      exact .integer n fits
  | float x =>
      rw [coerceNumber] at h
      split at h
      · rename_i hx
        obtain rfl := Except.ok.inj h
        exact .whole _ (Binary64.toRat_eq_truncate hx.1)
      · cases h

theorem coerceItems_of_coerceMembers {members us : Members} (h : coerceMembers members = .ok us) :
    coerceItems (members.map Prod.snd) = .ok (us.map Prod.snd) := by
  rw [coerceItems_eq_mapM, Outcome.mapM_eq_ok_iff, List.forall₂_map_left_iff,
    List.forall₂_map_right_iff]
  exact (coerceMembers_eq_ok_iff.1 h).imp fun e e' he => he.2

theorem get?_coerceMembers {members us : Members} (h : coerceMembers members = .ok us) (key : String) :
    Option.Rel (fun v u => coerce v = .ok u) (Members.get? key members) (Members.get? key us) := by
  have hmembers := coerceMembers_eq_ok_iff.1 h
  clear h
  induction hmembers with
  | nil => exact .none
  | cons he hrest ih =>
      rw [Members.get?, Members.get?, he.1]
      split
      · exact .some he.2
      · exact ih

theorem forall₂_formOf {items us : List Json} (h : coerceItems items = .ok us)
    (hform : ∀ v ∈ items, ∀ u, coerce v = .ok u → FormOf v u) : List.Forall₂ FormOf items us := by
  have hpairs := (List.forall₂_and_left _ _).2 ⟨hform, forall₂_of_coerceItems h⟩
  exact hpairs.imp fun v u h => h.1 u h.2

/-- What a value is coerced to has its form. -/
theorem coerce_formOf (hv : Ordered p v) (hu : coerce v = .ok u) : FormOf v u := by
  induction hv generalizing u with
  | null =>
      cases coerced_of_coerce hu
      exact .null
  | bool b =>
      cases coerced_of_coerce hu
      exact .bool b
  | number hn =>
      cases coerced_of_coerce hu with
      | number hm => exact coerceNumber_formOf hm
  | string s =>
      cases coerced_of_coerce hu
      exact .string s
  | array hitems ih =>
      cases coerced_of_coerce hu with
      | array hus => exact .array (forall₂_formOf hus fun v hv u hu => ih v hv hu)
  | object hkeys hvalues ih =>
      cases coerced_of_coerce hu with
      | object hus =>
          refine .object (coerceMembers_spec hus).1 (forall₂_formOf (coerceItems_of_coerceMembers hus) ?_)
          intro v hv u hu
          obtain ⟨e, he, rfl⟩ := List.mem_map.1 hv
          exact ih e he hu

end Canonical

namespace Json

variable {document : Bytes} {u v : Json}

/-- A value as documents have them: the members of objects are in order, and nothing is nested deeper
than a document may be. -/
structure IsDocument (v : Json) : Prop where
  ordered : v.Ordered fun _ => True
  shallow : v.Shallow maxDepth

theorem of_readEnd {α : Type} {a b : α} {rest : Bytes} (h : readEnd a rest = .ok b) : a = b := by
  unfold readEnd at h
  split at h
  · exact Except.ok.inj h
  · cases h

theorem isDocument_of_parseBytes (h : parseBytes document = .ok v) : v.IsDocument := by
  obtain ⟨⟨w, rest⟩, hread, hend⟩ := Outcome.of_bind h
  obtain rfl := of_readEnd hend
  obtain ⟨hordered, hshallow⟩ := readValue_ordered hread
  exact ⟨hordered, hshallow⟩

/-- The canonical form of a document is read off its text. -/
theorem IsDocument.parseBytes_writtenBytes (hv : v.IsDocument) (hu : Canonical.coerce v = .ok u) :
    parseBytes (Canonical.writtenBytes u) = .ok u := by
  have hnone : Delimited [] := fun b hb => absurd hb (Option.not_mem_none b)
  have hread := Canonical.readsBack_writtenBytes (Canonical.coerce_ordered hv.ordered hu)
    (Canonical.coerce_shallow hv.shallow hu) [] hnone
  rw [List.append_nil] at hread
  rw [parseBytes, hread]
  rfl

/-- A canonical form is its own canonical form. -/
theorem IsDocument.coerce_coerce (hv : v.IsDocument) (hu : Canonical.coerce v = .ok u) :
    Canonical.coerce u = .ok u :=
  Canonical.coerce_eq_self (Canonical.coerce_ordered hv.ordered hu)

end Json

namespace CanonicalText

variable {t t' : CanonicalText} {u v v' : Json}

theorem ofJson_eq (hu : Canonical.coerce v = .ok u) :
    ofJson v = .ok ⟨String.ofList (Canonical.write u)⟩ := by
  rw [ofJson, hu]
  rfl

theorem of_ofJson (h : ofJson v = .ok t) :
    ∃ u, Canonical.coerce v = .ok u ∧ t = ⟨String.ofList (Canonical.write u)⟩ := by
  obtain ⟨u, hu, h⟩ := Outcome.of_bind h
  exact ⟨u, hu, (Except.ok.inj h).symm⟩

theorem utf8_write (u : Json) :
    Text.utf8 (String.ofList (Canonical.write u)) = Canonical.writtenBytes u :=
  Text.utf8_ofList _

/-- A text that is read as a value, of which it is the text. -/
structure Holds (t : CanonicalText) (u : Json) : Prop where
  parse : Json.parse t.text = .ok u
  ofJson : CanonicalText.ofJson u = .ok t

/-- The text of a document holds the canonical form of the document. -/
theorem exists_holds (hv : v.IsDocument) (ht : ofJson v = .ok t) :
    ∃ u, Canonical.coerce v = .ok u ∧ Canonical.FormOf v u ∧ t.Holds u := by
  obtain ⟨u, hu, rfl⟩ := of_ofJson ht
  refine ⟨u, hu, Canonical.coerce_formOf hv.ordered hu, ?_, ofJson_eq (hv.coerce_coerce hu)⟩
  rw [Json.parse, utf8_write, hv.parseBytes_writtenBytes hu]

/-- Documents have one text exactly if they have one canonical form. -/
theorem eq_iff_coerce_eq (hv : v.IsDocument) (hv' : v'.IsDocument) (ht : ofJson v = .ok t)
    (ht' : ofJson v' = .ok t') : t = t' ↔ Canonical.coerce v = Canonical.coerce v' := by
  obtain ⟨u, hu, -, hholds⟩ := exists_holds hv ht
  obtain ⟨u', hu', -, hholds'⟩ := exists_holds hv' ht'
  rw [hu, hu', Except.ok.injEq]
  constructor
  · rintro rfl
    exact Except.ok.inj (hholds.parse.symm.trans hholds'.parse)
  · rintro rfl
    exact Except.ok.inj (hholds.ofJson.symm.trans hholds'.ofJson)

end CanonicalText
end PrivatePresentation
