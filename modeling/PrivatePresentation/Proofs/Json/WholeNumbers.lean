import PrivatePresentation.Proofs.Json.Grammar

/-!
Whole numbers in canonical texts.  The canonical text of a document has each of its whole numbers in plain
decimal, whatever way it was written in, except for the one just above `2 ^ 53`: written with a point or
with a power of ten it is rounded to `2 ^ 53` while it is read, which is still taken for an exact double.
-/

namespace PrivatePresentation

namespace Decimal.Spelling

variable {s : Spelling} {n m : Int}

instance : Decidable s.IsPlain :=
  decidable_of_iff (s.fraction? = none ∧ s.power?.isNone) <| by
    rw [Option.isNone_iff_eq_none]
    exact ⟨fun h => ⟨h.1, h.2⟩, fun h => ⟨h.1, h.2⟩⟩

/-- An integer in plain decimal. -/
def ofInt (n : Int) : Spelling where
  sign := if n < 0 then .minus else .none
  whole := Nat.toDigits 10 n.natAbs
  fraction? := none
  power? := none
  isDigit_of_mem := by
    rw [Option.getD_none, List.append_nil]
    exact fun _ => isDigit_of_mem_toDigits
  ne_nil := by
    rw [Option.getD_none, List.append_nil]
    exact Nat.toDigits_ne_nil

theorem text_ofInt (n : Int) : (ofInt n).text = (toString n).toList := by
  have htail : (ofInt n).tail = [] := rfl
  rw [text, htail, List.append_nil, Int.toString_eq_repr, Int.repr_eq_if]
  by_cases hn : n < 0
  · have habs : (-n).toNat = n.natAbs := by omega
    have hsign : (ofInt n).sign = .minus := if_pos hn
    rw [if_neg (Int.not_le.2 hn), String.toList_append, Nat.toList_repr, hsign, habs]
    rfl
  · have habs : n.toNat = n.natAbs := by omega
    have hsign : (ofInt n).sign = .none := if_neg hn
    rw [if_pos (Int.not_lt.1 hn), Nat.toList_repr, hsign, habs]
    rfl

theorem toInt_ofInt (n : Int) : (ofInt n).toInt = n := by
  have hvalue : digitsValue (ofInt n).whole = n.natAbs := digitsValue_toDigits n.natAbs
  rw [toInt, hvalue]
  by_cases hn : n < 0
  · have hsign : (ofInt n).sign = .minus := if_pos hn
    rw [hsign, Sign.isMinus, if_pos rfl]
    omega
  · have hsign : (ofInt n).sign = .none := if_neg hn
    rw [hsign, if_neg (by decide)]
    omega

theorem isJson_ofInt (n : Int) : (ofInt n).IsJson where
  sign := by
    rw [ofInt]
    split <;> exact Sign.noConfusion
  whole := Nat.toDigits_ne_nil
  zero := toDigits_eq_zero n.natAbs
  fraction := fun h => nomatch h

/-- What a whole number becomes: itself, unless it is the one just above the greatest that is exact and is
not written as an integer. -/
inductive Becomes (s : Spelling) (n : Int) : Int → Prop where
  | same (h : s.IsPlain ∨ n.natAbs ≠ 2 ^ 53 + 1) : Becomes s n n
  | limit (hs : ¬s.IsPlain) (hn : n.natAbs = 2 ^ 53 + 1) : Becomes s n (n.sign * 2 ^ 53)

end Decimal.Spelling

namespace Json

open Decimal (Spelling)
open Canonical (coerce coerceNumber)

section Coercion

variable {s : Spelling} {n m : Number} {k : Int} {x : Binary64}

/-- A number above `2 ^ 53` is rounded to no less, and to more unless it is the very next one. -/
theorem limit_of_rounds {j : Int} (hx : Binary64.Rounds k x) (hvalue : x.toRat = j) (hj : j ≤ 2 ^ 53)
    (hk : 2 ^ 53 < k) : k = 2 ^ 53 + 1 ∧ j = 2 ^ 53 := by
  have hlimit : Binary64.Representable ((2 ^ 53 : Int) : ℚ) := Binary64.representable_intCast (by decide)
  have hnext : Binary64.Representable ((2 ^ 53 + 2 : Int) : ℚ) := by
    have hdouble := @Binary64.representable_mul_two_pow (2 ^ 52 + 1) 1 (by norm_num) (by norm_num)
    convert hdouble using 1
    norm_num
  have hlow : 2 ^ 53 ≤ j := by
    have h := hx.le_of_ge hlimit (by exact_mod_cast hk.le)
    rw [hvalue] at h
    exact_mod_cast h
  have hhigh : ¬2 ^ 53 + 2 ≤ k := by
    intro hfar
    have h := hx.le_of_ge hnext (by exact_mod_cast hfar)
    rw [hvalue] at h
    have habove : 2 ^ 53 + 2 ≤ j := by exact_mod_cast h
    omega
  omega

/-- Whole doubles that count as exact are the integers nearest to which they are, but for those at the
limit. -/
theorem becomes_of_rounds {j : Int} (hx : Binary64.Rounds k x) (hvalue : x.toRat = j)
    (hj : j.natAbs ≤ 2 ^ 53) (hs : k.natAbs = 2 ^ 53 + 1 → ¬s.IsPlain) : s.Becomes k j := by
  by_cases hk : k.natAbs ≤ 2 ^ 53
  · have hsame := hx.toRat_eq (Binary64.representable_intCast hk)
    rw [hvalue, Rat.intCast_inj] at hsame
    rw [hsame]
    exact .same (.inr (by omega))
  · rcases Int.lt_or_gt_of_ne (show k ≠ 0 by omega) with hneg | hpos
    · have hmirror : Binary64.Rounds ((-k : Int) : ℚ) x.neg := by
        rw [Int.cast_neg]
        exact hx.neg
      have hvalue' : x.neg.toRat = ((-j : Int) : ℚ) := by
        rw [x.toRat_neg, hvalue, Int.cast_neg]
      obtain ⟨hnext, hlimit⟩ := limit_of_rounds hmirror hvalue' (by omega) (by omega)
      have hbecomes := Spelling.Becomes.limit (hs (by omega)) (show k.natAbs = 2 ^ 53 + 1 by omega)
      rw [Int.sign_eq_neg_one_of_neg hneg] at hbecomes
      rwa [show j = -1 * 2 ^ 53 by omega]
    · obtain ⟨hnext, hlimit⟩ := limit_of_rounds hx hvalue (by omega) (by omega)
      have hbecomes := Spelling.Becomes.limit (hs (by omega)) (show k.natAbs = 2 ^ 53 + 1 by omega)
      rw [Int.sign_eq_one_of_pos hpos] at hbecomes
      rwa [show j = 1 * 2 ^ 53 by omega]

/-- A whole number that has a canonical form becomes an integer. -/
theorem coerceNumber_of_denotes (hn : Denotes s n) (hs : s.toRat = k) (hm : coerceNumber n = .ok m) :
    ∃ j fits, m = .integer j fits ∧ s.Becomes k j := by
  cases hn with
  | integer hplain fits =>
      obtain rfl := Except.ok.inj hm
      rw [Spelling.toRat_of_isPlain hplain, Rat.intCast_inj] at hs
      exact ⟨_, fits, rfl, hs ▸ .same (.inl hplain)⟩
  | @float x hx hwide =>
      rw [coerceNumber] at hm
      split at hm
      · rename_i hexact
        obtain rfl := Except.ok.inj hm
        refine ⟨_, _, rfl, becomes_of_rounds (hs ▸ hx) (Binary64.toRat_eq_truncate hexact.1) ?_ ?_⟩
        · have hsmall := hexact.2
          rw [Canonical.maxExact] at hsmall
          rw [Binary64.truncate]
          split <;> omega
        · intro hk hplain
          rw [Spelling.toRat_of_isPlain hplain, Rat.intCast_inj] at hs
          have hzero := hwide hplain (by rw [minSigned]; omega) (by rw [maxUnsigned]; omega)
          omega
      · cases hm

end Coercion

section Texts

variable {u : Json}

/-- All numbers of a text are integers in plain decimal. -/
def Written.InPlain (w : Written) : Prop := ∀ path s, w.at? path = some (.number s) → ∃ n, s = .ofInt n

theorem inPlain_of_leaf {w : Written} (harray : ∀ items, w ≠ .array items)
    (hobject : ∀ members, w ≠ .object members) (hw : ∀ s, w = .number s → ∃ n, s = .ofInt n) :
    w.InPlain := by
  intro path s hs
  cases path with
  | nil => exact hw s (Option.some.inj hs)
  | cons step path =>
      cases w with
      | array items => exact absurd rfl (harray items)
      | object members => exact absurd rfl (hobject members)
      | _ => cases step <;> cases hs

theorem inPlain_array {items : List Written} (h : ∀ w ∈ items, w.InPlain) : (Written.array items).InPlain := by
  intro path s hs
  cases path with
  | nil => cases hs
  | cons step path =>
      cases step with
      | index i =>
          obtain ⟨w, hw, hs⟩ := Option.bind_eq_some_iff.1 hs
          exact h w (List.mem_of_getElem? hw) path s hs
      | key k => cases hs
      | unread => cases hs

theorem inPlain_object {members : List (String × Written)} (h : ∀ e ∈ members, e.2.InPlain) :
    (Written.object members).InPlain := by
  intro path s hs
  cases path with
  | nil => cases hs
  | cons step path =>
      cases step with
      | index i => cases hs
      | key k =>
          obtain ⟨w, hw, hs⟩ := Option.bind_eq_some_iff.1 hs
          exact h (k, w) (Members.mem_of_lastValue? hw) path s hs
      | unread => cases hs

/-- A text in interchange form has a tree, with its numbers in plain decimal. -/
theorem Interchange.exists_spells {before : String → String → Prop} {text : List Char}
    (h : Interchange before u text) : ∃ w, Spells (Text.utf8Chars text) w ∧ w.InPlain := by
  have hquoted {s : String} : Unescapes (Text.utf8Chars (s.toList.flatMap escapeChar)) (Text.utf8 s) := by
    rw [Text.utf8_eq_utf8Chars]
    exact Unescapes.escaped s.toList
  induction h with
  | null => exact ⟨.null, .null, inPlain_of_leaf (by simp) (by simp) (by simp)⟩
  | trueWord => exact ⟨.bool true, .trueWord, inPlain_of_leaf (by simp) (by simp) (by simp)⟩
  | falseWord => exact ⟨.bool false, .falseWord, inPlain_of_leaf (by simp) (by simp) (by simp)⟩
  | integer n fits =>
      refine ⟨.number (.ofInt n), ?_, inPlain_of_leaf (by simp) (by simp) ?_⟩
      · rw [← Spelling.text_ofInt]
        exact .number (Spelling.isJson_ofInt n)
      · rintro s ⟨⟩
        exact ⟨n, rfl⟩
  | @string s text h =>
      refine ⟨.string s, ?_, inPlain_of_leaf (by simp) (by simp) (by simp)⟩
      rw [quoted_iff.1 h, utf8Chars_writeString]
      exact .string hquoted
  | @array parts hparts ih =>
      have hitem : ∀ p ∈ parts, ∃ q : Bytes × Written,
          Text.utf8Chars p.2 = q.1 ∧ Spells q.1 q.2 ∧ q.2.InPlain := by
        intro p hp
        obtain ⟨w, hw, hplain⟩ := ih p hp
        exact ⟨(Text.utf8Chars p.2, w), rfl, hw, hplain⟩
      obtain ⟨items, hitems⟩ := Outcome.exists_forall₂.2 hitem
      have hbytes := utf8Chars_array parts []
      rw [List.append_nil, series_congr (hitems.imp fun p q hq => hq.1)] at hbytes
      have hitem' : ∀ q ∈ items, Spells q.1 q.2 ∧ q.2.InPlain := by
        intro q hq
        obtain ⟨p, -, -, hp⟩ := Outcome.exists_of_mem_forall₂ hitems q hq
        exact hp
      refine ⟨.array (items.map Prod.snd), ?_, inPlain_array ?_⟩
      · rw [hbytes]
        exact .array fun q hq => (hitem' q hq).1
      · rw [List.forall_mem_map]
        exact fun q hq => (hitem' q hq).2
  | @object members parts hperm hsorted hkeys hparts ih =>
      have hmember : ∀ p ∈ parts, ∃ q : Part,
          memberBytes Member.key (fun p => Text.utf8Chars p.text) p = q.bytes ∧
            SpellsKey q.keyText q.key ∧ Spells q.text q.value ∧ q.value.InPlain := by
        intro p hp
        obtain ⟨w, hw, hplain⟩ := ih p hp
        refine ⟨⟨Text.utf8Chars (writeString p.key), Text.utf8Chars p.text, p.key, w⟩, rfl, ?_, hw, hplain⟩
        rw [utf8Chars_writeString]
        exact @SpellsKey.mk [] _ [] _ (by simp [IsBlank]) hquoted (by simp [IsBlank])
      obtain ⟨pieces, hpieces⟩ := Outcome.exists_forall₂.2 hmember
      have hbytes := utf8Chars_object hkeys []
      rw [List.append_nil, series_congr (hpieces.imp fun p q hq => hq.1)] at hbytes
      have hpiece : ∀ q ∈ pieces, SpellsKey q.keyText q.key ∧ Spells q.text q.value ∧ q.value.InPlain := by
        intro q hq
        obtain ⟨p, -, -, hp⟩ := Outcome.exists_of_mem_forall₂ hpieces q hq
        exact hp
      refine ⟨.object (pieces.map fun q => (q.key, q.value)), ?_, inPlain_object ?_⟩
      · rw [hbytes]
        exact .object (fun q hq => (hpiece q hq).1) fun q hq => (hpiece q hq).2.1
      · rw [List.forall_mem_map]
        exact fun q hq => (hpiece q hq).2.2

end Texts

section Places

variable {u v : Json} {w : Written} {s : Spelling} {k : Int}

/-- What stands at a place of a value is coerced, and stays there. -/
theorem at?_coerce (hu : coerce v = .ok u) (path : List Step) :
    Option.Rel (fun v u => coerce v = .ok u) (v.at? path) (u.at? path) := by
  induction path generalizing u v with
  | nil => exact .some hu
  | cons step path ih =>
      have hbind {under under' : Option Json}
          (hstep : Option.Rel (fun v u => coerce v = .ok u) under under') :
          Option.Rel (fun v u => coerce v = .ok u) (under.bind (at? path)) (under'.bind (at? path)) := by
        cases hstep with
        | none => exact .none
        | some hstep => exact ih hstep
      cases Canonical.coerced_of_coerce hu with
      | array hitems =>
          cases step with
          | index i => exact hbind (Outcome.rel_getElem? (Canonical.forall₂_of_coerceItems hitems) i)
          | key k => exact .none
          | unread => exact .none
      | object hmembers =>
          cases step with
          | index i => exact .none
          | key k => exact hbind (Canonical.get?_coerceMembers hmembers k)
          | unread => exact .none
      | _ => cases step <;> exact .none

/-- Numbers stand in a canonical form where they stand in the text that it comes from. -/
theorem number_at?_iff (hw : w.Reads v) (hu : coerce v = .ok u) (path : List Step) :
    (∃ s, w.at? path = some (.number s)) ↔ ∃ m, u.at? path = some (.number m) := by
  have hread := hw.at? path
  have hcoerced := at?_coerce hu path
  generalize w.at? path = w', v.at? path = v', u.at? path = u' at hread hcoerced ⊢
  cases hread with
  | none =>
      cases hcoerced
      simp
  | some hread =>
      cases hcoerced with
      | some hcoerced =>
          cases hread with
          | number hn =>
              cases Canonical.coerced_of_coerce hcoerced
              simp
          | object hkeys hvalues =>
              rw [ofMembers] at hcoerced
              cases Canonical.coerced_of_coerce hcoerced
              simp
          | _ =>
              cases Canonical.coerced_of_coerce hcoerced
              simp

/-- A whole number of a text becomes an integer of the canonical form. -/
theorem integer_at? (hw : w.Reads v) (hu : coerce v = .ok u) {path : List Step}
    (hs : w.at? path = some (.number s)) (hk : s.toRat = k) :
    ∃ j fits, u.at? path = some (.number (.integer j fits)) ∧ s.Becomes k j := by
  have hread := hw.at? path
  have hcoerced := at?_coerce hu path
  rw [hs] at hread
  generalize v.at? path = v', u.at? path = u' at hread hcoerced ⊢
  cases hread with
  | some hread =>
      cases hread with
      | number hn =>
          cases hcoerced with
          | some hcoerced =>
              cases Canonical.coerced_of_coerce hcoerced with
              | number hm =>
                  obtain ⟨j, fits, rfl, hj⟩ := coerceNumber_of_denotes hn hk hm
                  exact ⟨j, fits, rfl, hj⟩

/-- The trees of a canonical text that are in plain decimal have its integers at their places. -/
theorem Written.InPlain.at?_eq (hplain : w.InPlain) (hw : w.Reads u) {path : List Step} {j : Int}
    {fits : minSigned ≤ j ∧ j ≤ maxUnsigned} (hj : u.at? path = some (.number (.integer j fits))) :
    w.at? path = some (.number (.ofInt j)) := by
  have hread := hw.at? path
  rw [hj] at hread
  generalize hplace : w.at? path = w' at hread ⊢
  cases hread with
  | some hread =>
      cases hread with
      | number hn =>
          obtain ⟨n, rfl⟩ := hplain path _ hplace
          cases hn with
          | integer hs fits => rw [Spelling.toInt_ofInt]

end Places

end Json

namespace CanonicalText

open Json
open Decimal (Spelling)

variable {document : String} {v : Json} {w : Written} {t : CanonicalText}

theorem text_of_coerce {u : Json} (hu : Canonical.coerce v = .ok u) (ht : ofJson v = .ok t) :
    t.text = String.ofList (Canonical.write u) := by
  rw [ofJson_eq hu] at ht
  rw [← Except.ok.inj ht]

/-- Different whole numbers have one text only if one of them is next to the limit and is rounded to the
other. -/
theorem eq_or_limit {s s' : Spelling} {k k' j j' : Int} (h : s.Becomes k j) (h' : s'.Becomes k' j')
    (hj : j = j') : k = k' ∨ (¬s.IsPlain ∧ k.natAbs = 2 ^ 53 + 1 ∧ k' = k.sign * 2 ^ 53) ∨
      (¬s'.IsPlain ∧ k'.natAbs = 2 ^ 53 + 1 ∧ k = k'.sign * 2 ^ 53) := by
  cases h with
  | same h =>
      cases h' with
      | same h' => exact .inl hj
      | limit hs' hk' => exact .inr (.inr ⟨hs', hk', hj⟩)
  | limit hs hk =>
      cases h' with
      | same h' => exact .inr (.inl ⟨hs, hk, hj.symm⟩)
      | limit hs' hk' =>
          have hsign : k.sign = k'.sign := by omega
          rw [← Int.sign_mul_natAbs k, ← Int.sign_mul_natAbs k', hsign, hk, hk']
          exact .inl rfl

/-- The canonical text of a document has the whole numbers of the document at their places, and it is the
text of no document with others there; but the number just above `2 ^ 53` is rounded to `2 ^ 53` if it is not
written as an integer. -/
theorem wholeNumbers (hw : Spells (Text.utf8 document) w) (hv : parse document = .ok v)
    (ht : ofJson v = .ok t) :
    (∃ w', Spells (Text.utf8 t.text) w' ∧ ∀ path s (k : Int), w.at? path = some (.number s) →
      s.toRat = k → ∃ j, w'.at? path = some (.number (.ofInt j)) ∧ s.Becomes k j) ∧
    ∀ document' w' v', Spells (Text.utf8 document') w' → parse document' = .ok v' → ofJson v' = .ok t →
      ∀ path, ((∃ s, w.at? path = some (.number s)) ↔ ∃ s', w'.at? path = some (.number s')) ∧
        ∀ s s' (k k' : Int), w.at? path = some (.number s) → w'.at? path = some (.number s') →
          s.toRat = k → s'.toRat = k' →
            k = k' ∨ (¬s.IsPlain ∧ k.natAbs = 2 ^ 53 + 1 ∧ k' = k.sign * 2 ^ 53) ∨
              (¬s'.IsPlain ∧ k'.natAbs = 2 ^ 53 + 1 ∧ k = k'.sign * 2 ^ 53) := by
  have hdocument := isDocument_of_parseBytes hv
  have hreads := hw.reads_document hv
  obtain ⟨u, hu, -, hholds⟩ := exists_holds hdocument ht
  constructor
  · have htext := Canonical.interchange_write (Canonical.coerce_ordered hdocument.ordered hu)
    obtain ⟨w', hw', hplain⟩ := htext.exists_spells
    rw [← Canonical.writtenBytes, ← utf8_write, ← text_of_coerce hu ht] at hw'
    refine ⟨w', hw', fun path s k hs hk => ?_⟩
    obtain ⟨j, fits, hj, hbecomes⟩ := integer_at? hreads hu hs hk
    exact ⟨j, hplain.at?_eq (hw'.reads_document hholds.parse) hj, hbecomes⟩
  · intro document' w' v' hw' hv' ht' path
    have hreads' := hw'.reads_document hv'
    obtain ⟨u', hu', -, hholds'⟩ := exists_holds (isDocument_of_parseBytes hv') ht'
    obtain rfl := Except.ok.inj (hholds.parse.symm.trans hholds'.parse)
    refine ⟨(number_at?_iff hreads hu path).trans (number_at?_iff hreads' hu' path).symm, ?_⟩
    intro s s' k k' hs hs' hk hk'
    obtain ⟨j, fits, hj, hbecomes⟩ := integer_at? hreads hu hs hk
    obtain ⟨j', fits', hj', hbecomes'⟩ := integer_at? hreads' hu' hs' hk'
    have hsame : Json.number (.integer j fits) = .number (.integer j' fits') :=
      Option.some.inj (hj.symm.trans hj')
    apply eq_or_limit hbecomes hbecomes'
    injection hsame with hsame
    injection hsame

section Limit

/-- The spelling `1.8e1`. -/
def eighteen : Spelling where
  sign := .none
  whole := ['1']
  fraction? := some ['8']
  power? := some ⟨'e', .none, ['1'], .inl rfl, List.cons_ne_nil _ _, List.all_eq_true.1 rfl⟩
  isDigit_of_mem := List.all_eq_true.1 rfl
  ne_nil := List.cons_ne_nil _ _

/-- The spelling `9007199254740993.0`, of the number just above `2 ^ 53`. -/
def aboveLimit : Spelling where
  sign := .none
  whole := ['9', '0', '0', '7', '1', '9', '9', '2', '5', '4', '7', '4', '0', '9', '9', '3']
  fraction? := some ['0']
  power? := none
  isDigit_of_mem := List.all_eq_true.1 rfl
  ne_nil := List.cons_ne_nil _ _

/-- A document with both. -/
def listed : Json :=
  .array [.number (.float ⟨false, 5066549580791808, -48⟩), .number (.float ⟨false, 4503599627370496, 1⟩)]

theorem spells_listed : Spells (Text.utf8 "[1.8e1, 9007199254740993.0]")
    (.array [.number eighteen, .number aboveLimit]) := by
  have hbytes : Text.utf8 "[1.8e1, 9007199254740993.0]" = 0x5B :: (series Prod.fst true
      [(Text.utf8Chars eighteen.text, Written.number eighteen),
        (0x20 :: Text.utf8Chars aboveLimit.text, .number aboveLimit)] ++ [0x5D]) := by
    decide
  rw [hbytes]
  apply Spells.array
  intro p hp
  rcases List.mem_pair.1 hp with rfl | rfl
  · exact .number ⟨by decide, by decide, by decide, by decide⟩
  · exact .before rfl (.number ⟨by decide, by decide, by decide, by decide⟩)

theorem toRat_aboveLimit : aboveLimit.toRat = ((2 ^ 53 + 1 : Int) : ℚ) := by
  have hdigits : Decimal.digitsValue (aboveLimit.whole ++ aboveLimit.fraction) = 90071992547409930 := rfl
  have hplaces : aboveLimit.exponent - aboveLimit.fraction.length = -1 := rfl
  rw [Spelling.toRat, hdigits, hplaces, Binary64.signed, if_neg (by decide), one_mul]
  norm_num

theorem wholeNumbers_listed : Spells (Text.utf8 "[1.8e1, 9007199254740993.0]")
      (.array [.number eighteen, .number aboveLimit]) ∧
    parse "[1.8e1, 9007199254740993.0]" = .ok listed ∧
    ofJson listed = .ok ⟨"[18,9007199254740992]"⟩ ∧
    ∃ w', Spells (Text.utf8 "[18,9007199254740992]") w' ∧
      ∃ j, w'.at? [.index 1] = some (.number (.ofInt j)) ∧ aboveLimit.Becomes (2 ^ 53 + 1) j := by
  have hparse : parse "[1.8e1, 9007199254740993.0]" = .ok listed := rfl
  have htext : ofJson listed = .ok ⟨"[18,9007199254740992]"⟩ := rfl
  refine ⟨spells_listed, hparse, htext, ?_⟩
  obtain ⟨⟨w', hw', hplaces⟩, -⟩ := wholeNumbers spells_listed hparse htext
  exact ⟨w', hw', hplaces [.index 1] aboveLimit (2 ^ 53 + 1) rfl toRat_aboveLimit⟩

end Limit

end CanonicalText
end PrivatePresentation
