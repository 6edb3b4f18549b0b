import PrivatePresentation.Canonical
import PrivatePresentation.Proofs.Json.Interchange

/-!
Canonical documents are read back.  A canonical value has no doubles, and its members are in order; it
is its own canonical form, and it is read off its text if it is not nested too deep.
-/

namespace PrivatePresentation.Canonical

open Json

variable {p : Json.Number → Prop} {u v : Json}

theorem coerceNumber_isInteger {n m : Json.Number} (h : coerceNumber n = .ok m) : m.IsInteger := by
  unfold coerceNumber at h
  split at h
  · obtain rfl := Except.ok.inj h
    trivial
  · split at h
    · obtain rfl := Except.ok.inj h
      trivial
    · cases h

theorem coerceItems_eq_mapM (items : List Json) : coerceItems items = items.mapM coerce := by
  induction items with
  | nil =>
      rw [coerceItems]
      rfl
  | cons v rest ih => rw [coerceItems, List.mapM_cons, ih]

/-- The canonical forms of items are in their order. -/
theorem forall₂_of_coerceItems {items us : List Json} (h : coerceItems items = .ok us) :
    List.Forall₂ (fun v u => coerce v = .ok u) items us := by
  rw [coerceItems_eq_mapM] at h
  exact Outcome.mapM_eq_ok_iff.1 h

theorem exists_of_mem_coerceItems {items us : List Json} (h : coerceItems items = .ok us) :
    ∀ u ∈ us, ∃ v ∈ items, coerce v = .ok u :=
  Outcome.exists_of_mem_forall₂ (forall₂_of_coerceItems h)

/-- The canonical forms of members are in their order, under the same keys. -/
theorem coerceMembers_eq_ok_iff {members us : Json.Members} : coerceMembers members = .ok us ↔
    List.Forall₂ (fun e e' => e.1 = e'.1 ∧ coerce e.2 = .ok e'.2) members us := by
  induction members generalizing us with
  | nil =>
      rw [coerceMembers, List.forall₂_nil_left_iff]
      exact ⟨fun h => (Except.ok.inj h).symm, fun h => h ▸ rfl⟩
  | cons e rest ih =>
      rw [coerceMembers]
      constructor
      · intro h
        obtain ⟨u, hu, h⟩ := Outcome.of_bind h
        obtain ⟨others, hothers, h⟩ := Outcome.of_bind h
        obtain rfl := Except.ok.inj h
        exact .cons ⟨rfl, hu⟩ (ih.1 hothers)
      · intro h
        cases h with
        | cons he hothers =>
            rw [he.2, ih.2 hothers, he.1]
            rfl

/-- The keys of an object stay as they are. -/
theorem coerceMembers_spec {members us : Json.Members} (h : coerceMembers members = .ok us) :
    us.map Prod.fst = members.map Prod.fst ∧
      ∀ e ∈ us, ∃ e' ∈ members, coerce e'.2 = .ok e.2 := by
  have hmembers := coerceMembers_eq_ok_iff.1 h
  constructor
  · rw [← List.forall₂_eq_eq_eq, List.forall₂_map_left_iff, List.forall₂_map_right_iff]
    exact (hmembers.imp fun e e' he => he.1.symm).flip
  · exact Outcome.exists_of_mem_forall₂ (hmembers.imp fun e e' he => he.2)

/-- A value and its canonical form, by what the value is. -/
inductive Coerced : Json → Json → Prop where
  | null : Coerced .null .null
  | bool (b : Bool) : Coerced (.bool b) (.bool b)
  | string (s : String) : Coerced (.string s) (.string s)
  | number {n m : Json.Number} (h : coerceNumber n = .ok m) : Coerced (.number n) (.number m)
  | array {items us : List Json} (h : coerceItems items = .ok us) : Coerced (.array items) (.array us)
  | object {members us : Members} (h : coerceMembers members = .ok us) :
      Coerced (.object members) (.object us)

theorem coerced_of_coerce (hu : coerce v = .ok u) : Coerced v u := by
  cases v with
  | null =>
      rw [coerce] at hu
      obtain rfl := Except.ok.inj hu
      exact .null
  | bool b =>
      rw [coerce] at hu
      obtain rfl := Except.ok.inj hu
      exact .bool b
  | string s =>
      rw [coerce] at hu
      obtain rfl := Except.ok.inj hu
      exact .string s
  | number n =>
      rw [coerce] at hu
      obtain ⟨m, hm, hu⟩ := Outcome.of_bind hu
      obtain rfl := Except.ok.inj hu
      exact .number hm
  | array items =>
      rw [coerce] at hu
      obtain ⟨us, hus, hu⟩ := Outcome.of_bind hu
      obtain rfl := Except.ok.inj hu
      exact .array hus
  | object members =>
      rw [coerce] at hu
      obtain ⟨us, hus, hu⟩ := Outcome.of_bind hu
      obtain rfl := Except.ok.inj hu
      exact .object hus

/-- A canonical form has no doubles, and its members are in the order of those of the value. -/
theorem coerce_ordered (hv : Ordered p v) (hu : coerce v = .ok u) :
    Ordered Number.IsInteger u := by
  induction hv generalizing u with
  | null =>
      cases coerced_of_coerce hu
      exact .null
  | bool b =>
      cases coerced_of_coerce hu
      exact .bool b
  | number hn =>
      cases coerced_of_coerce hu with
      | number hm => exact .number (coerceNumber_isInteger hm)
  | string s =>
      cases coerced_of_coerce hu
      exact .string s
  | array hitems ih =>
      cases coerced_of_coerce hu with
      | array hus =>
          refine .array fun w hw => ?_
          obtain ⟨v, hv, hcoerce⟩ := exists_of_mem_coerceItems hus w hw
          exact ih v hv hcoerce
  | object hkeys hvalues ih =>
      cases coerced_of_coerce hu with
      | object hus =>
          obtain ⟨hsame, hcoerced⟩ := coerceMembers_spec hus
          refine .object ?_ fun e he => ?_
          · exact List.pairwise_map.1 (hsame ▸ List.pairwise_map.2 hkeys)
          · obtain ⟨e', he', hcoerce⟩ := hcoerced e he
            exact ih e' he' hcoerce

/-- A canonical form is nested as deep as the value. -/
theorem coerce_shallow {d : Nat} (hv : Shallow d v) (hu : coerce v = .ok u) : Shallow d u := by
  induction hv generalizing u with
  | null d =>
      cases coerced_of_coerce hu
      exact .null d
  | bool d b =>
      cases coerced_of_coerce hu
      exact .bool d b
  | number d n =>
      cases coerced_of_coerce hu
      exact .number d _
  | string d s =>
      cases coerced_of_coerce hu
      exact .string d s
  | array hitems ih =>
      cases coerced_of_coerce hu with
      | array hus =>
          refine .array fun w hw => ?_
          obtain ⟨v, hv, hcoerce⟩ := exists_of_mem_coerceItems hus w hw
          exact ih v hv hcoerce
  | object hvalues ih =>
      cases coerced_of_coerce hu with
      | object hus =>
          refine .object fun e he => ?_
          obtain ⟨e', he', hcoerce⟩ := (coerceMembers_spec hus).2 e he
          exact ih e' he' hcoerce

theorem coerceItems_eq_self {items : List Json} (h : ∀ v ∈ items, coerce v = .ok v) :
    coerceItems items = .ok items := by
  rw [coerceItems_eq_mapM, Outcome.mapM_eq_ok_iff]
  exact List.forall₂_same.2 h

theorem coerceMembers_eq_self {members : Json.Members} (h : ∀ e ∈ members, coerce e.2 = .ok e.2) :
    coerceMembers members = .ok members :=
  coerceMembers_eq_ok_iff.2 (List.forall₂_same.2 fun e he => ⟨rfl, h e he⟩)

/-- A canonical value is its own canonical form. -/
theorem coerce_eq_self (hu : Ordered Number.IsInteger u) : coerce u = .ok u := by
  induction hu with
  | null => rw [coerce]
  | bool b => rw [coerce]
  | @number n hn =>
      cases n with
      | integer n fits => rw [coerce, coerceNumber]; rfl
      | float x => exact absurd hn id
  | string s => rw [coerce]
  | array hitems ih =>
      rw [coerce, coerceItems_eq_self ih]
      rfl
  | object hkeys hvalues ih =>
      rw [coerce, coerceMembers_eq_self ih]
      rfl

/-- The order of two keys as they are written. -/
def writtenBefore (a b : String) : Prop := Json.writeString a < Json.writeString b

section Writing

theorem writeString_injective {a b : String} (h : Json.writeString a = Json.writeString b) : a = b := by
  have hread := readString_escaped a []
  have hbytes := utf8Chars_writeString a
  rw [h, utf8Chars_writeString, List.cons.injEq] at hbytes
  rw [← hbytes.2, readString_escaped, Except.ok.injEq, Prod.mk.injEq] at hread
  exact hread.1.symm

theorem joinItems_eq (items : List Json) :
    joinItems (writeItems items) = [','].intercalate (items.map write) := by
  induction items with
  | nil => rfl
  | cons v rest ih =>
      cases rest with
      | nil => simp [writeItems, joinItems, List.intercalate]
      | cons w rest =>
          simp [writeItems, joinItems, List.intercalate] at ih ⊢
          exact ih

theorem joinMembers_eq (ms : Members) : joinMembers (writeMembers ms) =
    [','].intercalate (ms.map fun m => Json.writeString m.1 ++ ':' :: write m.2) := by
  induction ms with
  | nil => rfl
  | cons m rest ih =>
      cases rest with
      | nil => simp [writeMembers, joinMembers, List.intercalate]
      | cons m' rest =>
          simp [writeMembers, joinMembers, List.intercalate] at ih ⊢
          exact ih

theorem place_eq (m : List Char × List Char) (written : List (List Char × List Char)) :
    place m written = written.orderedInsert (fun a b => a.1 ≤ b.1) m := by
  induction written with
  | nil => rfl
  | cons other rest ih =>
      rw [place, List.orderedInsert_cons, ih]
      by_cases h : other.1 < m.1
      · rw [if_pos (List.lex_eq_true_iff_lt.2 h), if_neg (not_le.2 h)]
      · rw [if_neg (mt List.lex_eq_true_iff_lt.1 h), if_pos (not_lt.1 h)]

theorem arrange_eq (written : List (List Char × List Char)) :
    arrange written = written.insertionSort fun a b => a.1 ≤ b.1 := by
  induction written with
  | nil => rfl
  | cons m rest ih => rw [arrange, List.foldr_cons, ← arrange, ih, place_eq, List.insertionSort_cons]

/-- The members in the order in which they are written. -/
def arranged (members : Members) : Members :=
  members.insertionSort fun a b => Json.writeString a.1 ≤ Json.writeString b.1

theorem arrange_writeMembers (members : Members) :
    arrange (writeMembers members) = writeMembers (arranged members) := by
  have hmap (ms : Members) : writeMembers ms = ms.map fun m => (Json.writeString m.1, write m.2) := by
    induction ms with
    | nil => rfl
    | cons m rest ih => rw [writeMembers, ih, List.map_cons]
  rw [arrange_eq, hmap, hmap, arranged]
  symm
  apply List.map_insertionSort
  intro a _ b _
  rfl

theorem arranged_perm (members : Members) : (arranged members).Perm members :=
  List.perm_insertionSort _ members

/-- Members with different keys are written in strict order. -/
theorem arranged_pairwise {members : Members} (hmembers : members.Ascending) :
    (arranged members).Pairwise fun a b => writtenBefore a.1 b.1 := by
  let r : String × Json → String × Json → Prop := fun a b => Json.writeString a.1 ≤ Json.writeString b.1
  have htotal : Std.Total r := ⟨fun a b => le_total _ _⟩
  have htrans : IsTrans _ r := ⟨fun a b c => le_trans⟩
  have hsorted : (arranged members).Pairwise r := List.pairwise_insertionSort r members
  have hnodup : ((arranged members).map Prod.fst).Nodup := by
    rw [((arranged_perm members).map Prod.fst).nodup_iff]
    exact (List.pairwise_map.2 hmembers).imp fun h => h.ne
  apply (hsorted.and (List.pairwise_map.1 hnodup)).imp
  rintro a b ⟨hle, hne⟩
  exact lt_of_le_of_ne hle fun h => hne (writeString_injective h)

/-- A member as it is written. -/
def writtenMember (m : String × Json) : Member := ⟨m.1, m.2, Json.writeString m.1, write m.2⟩

/-- The text of a canonical value is in interchange form, with members in the order of their keys as they are
written. -/
theorem interchange_write (hu : Ordered Number.IsInteger u) : Interchange writtenBefore u (write u) := by
  induction hu with
  | null => exact .null
  | bool b =>
      cases b with
      | true => exact .trueWord
      | false => exact .falseWord
  | @number n hn =>
      cases n with
      | integer n fits => exact .integer n fits
      | float x => exact absurd hn id
  | string s => exact .string (quoted_iff.2 rfl)
  | @array items hitems ih =>
      have hparts : ∀ p ∈ items.map fun v => (v, write v), Interchange writtenBefore p.1 p.2 := by
        rw [List.forall_mem_map]
        exact ih
      have htext := Interchange.array hparts
      rw [List.map_map, List.map_map] at htext
      rw [write, joinItems_eq]
      simpa [Function.comp_def] using htext
  | @object members hkeys hvalues ih =>
      have hperm : (((arranged members).map writtenMember).map fun p => (p.key, p.value)).Perm members := by
        rw [List.map_map]
        simpa [Function.comp_def, writtenMember] using arranged_perm members
      have hsorted : ((arranged members).map writtenMember).Pairwise fun p q => writtenBefore p.key q.key := by
        rw [List.pairwise_map]
        exact arranged_pairwise hkeys
      have hquoted : ∀ p ∈ (arranged members).map writtenMember, Quoted p.key p.keyText := by
        rw [List.forall_mem_map]
        exact fun m _ => quoted_iff.2 rfl
      have hparts : ∀ p ∈ (arranged members).map writtenMember,
          Interchange writtenBefore p.value p.text := by
        rw [List.forall_mem_map]
        exact fun m hm => ih m ((arranged_perm members).subset hm)
      have htext := Interchange.object hperm hsorted hquoted hparts
      rw [List.map_map] at htext
      rw [write, arrange_writeMembers, joinMembers_eq]
      exact htext

end Writing

/-- The bytes of the text of a value. -/
def writtenBytes (v : Json) : Bytes := Text.utf8Chars (write v)

theorem writtenBytes_integer (n : Int) (fits : Json.minSigned ≤ n ∧ n ≤ Json.maxUnsigned) :
    writtenBytes (.number (.integer n fits)) =
      if n < 0 then 0x2D :: digitBytes n.natAbs else digitBytes n.natAbs :=
  utf8Chars_toString n

/-- A canonical value is read off its text by a reader that goes deep enough. -/
theorem readsBack_writtenBytes {depth : Nat} (hu : Ordered Number.IsInteger u) (hdepth : Shallow depth u) :
    ReadsBack (readValue depth) (writtenBytes u) u :=
  (interchange_write hu).readsBack hu hdepth

end PrivatePresentation.Canonical
