import PrivatePresentation.Json.Writer
import PrivatePresentation.Proofs.Json.Reading

/-!
Texts in interchange form: nothing but what a value needs, with escapes for only those characters that have
to be escaped, and with the members of each object in a given order of their keys.  Such a text is read as
its value whatever the order is.
-/

namespace PrivatePresentation.Json

/-- The characters that are escaped by a letter, and the letters. -/
def shortEscapes : List (Char × Char) :=
  [('"', '"'), ('\\', '\\'), ('\x08', 'b'), ('\x0c', 'f'), ('\n', 'n'), ('\r', 'r'), ('\t', 't')]

/-- A character of a string as it is written: itself if it may stand there, or its shortest escape. -/
inductive Escaped : Char → List Char → Prop where
  | short {c e : Char} (h : (c, e) ∈ shortEscapes) : Escaped c ['\\', e]
  | control {c : Char} (hc : c.toNat < 0x20) (hshort : ∀ e, (c, e) ∉ shortEscapes) :
      Escaped c ['\\', 'u', '0', '0', Nat.digitChar (c.toNat / 16), Nat.digitChar (c.toNat % 16)]
  | plain {c : Char} (hc : 0x20 ≤ c.toNat) (hshort : ∀ e, (c, e) ∉ shortEscapes) : Escaped c [c]

/-- A string between quotes. -/
inductive Quoted : String → List Char → Prop where
  | mk {s : String} {pieces : List (List Char)} (h : List.Forall₂ Escaped s.toList pieces) :
      Quoted s ('"' :: pieces.flatten ++ ['"'])

/-- A member with its key and its value as they are written. -/
structure Member where
  key : String
  value : Json
  keyText : List Char
  text : List Char

/-- The texts of a value without doubles, with the members of each object in an order of their keys. -/
inductive Interchange (before : String → String → Prop) : Json → List Char → Prop where
  | null : Interchange before .null ['n', 'u', 'l', 'l']
  | trueWord : Interchange before (.bool true) ['t', 'r', 'u', 'e']
  | falseWord : Interchange before (.bool false) ['f', 'a', 'l', 's', 'e']
  | integer (n : Int) (fits : minSigned ≤ n ∧ n ≤ maxUnsigned) :
      Interchange before (.number (.integer n fits)) (toString n).toList
  | string {s : String} {text : List Char} (h : Quoted s text) : Interchange before (.string s) text
  | array {parts : List (Json × List Char)} (hparts : ∀ p ∈ parts, Interchange before p.1 p.2) :
      Interchange before (.array (parts.map Prod.fst))
        ('[' :: [','].intercalate (parts.map Prod.snd) ++ [']'])
  | object {members : Members} {parts : List Member}
      (hperm : (parts.map fun p => (p.key, p.value)).Perm members)
      (hsorted : parts.Pairwise fun p q => before p.key q.key)
      (hkeys : ∀ p ∈ parts, Quoted p.key p.keyText)
      (hparts : ∀ p ∈ parts, Interchange before p.value p.text) :
      Interchange before (.object members)
        ('{' :: [','].intercalate (parts.map fun p => p.keyText ++ ':' :: p.text) ++ ['}'])

section Strings

variable {c : Char} {s : String} {text : List Char}

theorem escapeChar_eq (hshort : ∀ e, (c, e) ∉ shortEscapes) : escapeChar c =
    if c.toNat < 0x20 then
      ['\\', 'u', '0', '0', Nat.digitChar (c.toNat / 16), Nat.digitChar (c.toNat % 16)]
    else [c] := by
  have hdigit : ∀ k < 16, Hex.digit k = Nat.digitChar k := by decide
  unfold escapeChar
  split
  · exact absurd (by decide) (hshort '"')
  · exact absurd (by decide) (hshort '\\')
  · exact absurd (by decide) (hshort 'b')
  · exact absurd (by decide) (hshort 'f')
  · exact absurd (by decide) (hshort 'n')
  · exact absurd (by decide) (hshort 'r')
  · exact absurd (by decide) (hshort 't')
  · split
    · rw [hdigit _ (by omega), hdigit _ (by omega)]
    · rfl

theorem Escaped.eq (h : Escaped c text) : escapeChar c = text := by
  cases h with
  | short h =>
      simp only [shortEscapes, List.mem_cons, Prod.mk.injEq, List.not_mem_nil, or_false] at h
      rcases h with ⟨rfl, rfl⟩ | ⟨rfl, rfl⟩ | ⟨rfl, rfl⟩ | ⟨rfl, rfl⟩ | ⟨rfl, rfl⟩ | ⟨rfl, rfl⟩ | ⟨rfl, rfl⟩ <;>
        rfl
  | control hc hshort => rw [escapeChar_eq hshort, if_pos hc]
  | plain hc hshort => rw [escapeChar_eq hshort, if_neg (Nat.not_lt.2 hc)]

theorem escaped_escapeChar (c : Char) : Escaped c (escapeChar c) := by
  by_cases hshort : ∃ e, (c, e) ∈ shortEscapes
  · obtain ⟨e, he⟩ := hshort
    rw [(Escaped.short he).eq]
    exact .short he
  · rw [not_exists] at hshort
    rw [escapeChar_eq hshort]
    split
    · rename_i hc
      exact .control hc hshort
    · rename_i hc
      exact .plain (Nat.not_lt.1 hc) hshort

/-- There is one way to write a string. -/
theorem quoted_iff : Quoted s text ↔ text = writeString s := by
  constructor
  · rintro ⟨h⟩
    have hpieces := List.forall₂_map_left_iff.2 (h.imp fun c piece hpiece => hpiece.eq)
    rw [List.forall₂_eq_eq_eq] at hpieces
    rw [writeString, ← hpieces, List.flatMap_def]
  · rintro rfl
    rw [writeString, List.flatMap_def]
    exact .mk (List.forall₂_map_right_iff.2 (List.forall₂_same.2 fun c _ => escaped_escapeChar c))

end Strings

section Reading

variable {before : String → String → Prop} {p : Number → Prop} {u : Json} {text : List Char}
  {depth : Nat} {rest : Bytes}

theorem readValue_natural {k : Nat} {m : Number} (hrest : Delimited rest)
    (hm : Literal.number? ⟨false, digitBytes k, [], 0, true⟩ = some m) :
    readValue depth (digitBytes k ++ rest) = .ok (.number m, rest) := by
  have hnumber := @readNumber_digitBytes k rest false hrest
  rw [finishNumber, hm] at hnumber
  obtain ⟨d, ds, hdigits, hd, -⟩ := head_digitBytes k
  rw [hdigits, List.cons_append] at hnumber ⊢
  rw [readValue_of_isDigit hd, hnumber]
  rfl

theorem readValue_negative {k : Nat} {m : Number} (hrest : Delimited rest)
    (hm : Literal.number? ⟨true, digitBytes k, [], 0, true⟩ = some m) :
    readValue depth (0x2D :: (digitBytes k ++ rest)) = .ok (.number m, rest) := by
  rw [readValue_minus, readNumber_digitBytes true hrest, finishNumber, hm]
  rfl

theorem utf8Chars_toString (n : Int) : Text.utf8Chars (toString n).toList =
    if n < 0 then 0x2D :: digitBytes n.natAbs else digitBytes n.natAbs := by
  have hminus : String.utf8EncodeChar '-' = [0x2D] := rfl
  rw [Int.toString_eq_repr, Int.repr_eq_if]
  by_cases hn : n < 0
  · have habs : (-n).toNat = n.natAbs := by omega
    rw [if_neg (Int.not_le.2 hn), if_pos hn, String.toList_append, Nat.toList_repr, Text.utf8Chars_append,
      utf8Chars_toDigits, habs]
    rfl
  · have habs : n.toNat = n.natAbs := by omega
    rw [if_pos (Int.not_lt.1 hn), if_neg hn, Nat.toList_repr, utf8Chars_toDigits, habs]

/-- An integer is read back with its sign. -/
theorem readValue_integer (n : Int) (fits : minSigned ≤ n ∧ n ≤ maxUnsigned) (hrest : Delimited rest) :
    readValue depth (Text.utf8Chars (toString n).toList ++ rest) = .ok (.number (.integer n fits), rest) := by
  rw [utf8Chars_toString]
  split
  · rename_i hn
    obtain ⟨k, rfl⟩ := Int.exists_eq_neg_ofNat hn.le
    rw [Int.natAbs_neg, Int.natAbs_natCast]
    exact readValue_negative hrest (number?_negative (by omega) fits)
  · rename_i hn
    obtain ⟨k, rfl⟩ := Int.eq_ofNat_of_zero_le (Int.not_lt.1 hn)
    exact readValue_natural hrest (number?_natural k fits)

theorem begins_digitBytes (k : Nat) : Begins (digitBytes k) := by
  obtain ⟨d, ds, hdigits, hd, -⟩ := head_digitBytes k
  exact ⟨d, ds, hdigits, isSpace_of_isDigit hd, ne_of_isDigit hd rfl⟩

theorem readValue_null (rest : Bytes) :
    readValue depth ([0x6E, 0x75, 0x6C, 0x6C] ++ rest) = .ok (.null, rest) := by
  unfold readValue
  rfl

theorem readValue_true (rest : Bytes) :
    readValue depth ([0x74, 0x72, 0x75, 0x65] ++ rest) = .ok (.bool true, rest) := by
  unfold readValue
  rfl

theorem readValue_false (rest : Bytes) :
    readValue depth ([0x66, 0x61, 0x6C, 0x73, 0x65] ++ rest) = .ok (.bool false, rest) := by
  unfold readValue
  rfl

theorem readValue_string {bytes : Bytes} {s : String} (h : readString bytes = .ok (s, rest)) :
    readValue depth (0x22 :: bytes) = .ok (.string s, rest) := by
  unfold readValue
  simp [skipSpace, isSpace, h]

theorem readValue_array {bytes : Bytes} {items : List Json}
    (h : readItems (fun _ => readValue depth) (bytes.length + 1) 0 true bytes = .ok (items, rest)) :
    readValue (depth + 1) (0x5B :: bytes) = .ok (.array items, rest) := by
  unfold readValue
  simp [skipSpace, isSpace, isDigit, h]

theorem readValue_object {bytes : Bytes} {members : List (String × Json)}
    (h : readMembers (fun _ => readValue depth) (bytes.length + 1) true bytes =
      .ok (members, rest)) :
    readValue (depth + 1) (0x7B :: bytes) = .ok (ofMembers members, rest) := by
  unfold readValue
  simp [skipSpace, isSpace, isDigit, h]

theorem utf8Chars_intercalate {α : Type} (write : α → List Char) (parts : List α) :
    Text.utf8Chars ([','].intercalate (parts.map write)) =
      series (fun p => Text.utf8Chars (write p)) true parts := by
  have hcomma : String.utf8EncodeChar ',' = [0x2C] := rfl
  induction parts with
  | nil => rfl
  | cons p parts ih =>
      cases parts with
      | nil => simp [series]
      | cons q parts =>
          simp [List.intercalate, series, hcomma] at ih ⊢
          exact ih

theorem utf8Chars_array (parts : List (Json × List Char)) (rest : Bytes) :
    Text.utf8Chars ('[' :: [','].intercalate (parts.map Prod.snd) ++ [']']) ++ rest =
      0x5B :: (series (fun p => Text.utf8Chars p.2) true parts ++ 0x5D :: rest) := by
  have hopen : String.utf8EncodeChar '[' = [0x5B] := rfl
  have hclose : String.utf8EncodeChar ']' = [0x5D] := rfl
  simp [utf8Chars_intercalate, hopen, hclose]

theorem utf8Chars_object {parts : List Member} (hkeys : ∀ p ∈ parts, Quoted p.key p.keyText) (rest : Bytes) :
    Text.utf8Chars ('{' :: [','].intercalate (parts.map fun p => p.keyText ++ ':' :: p.text) ++ ['}']) ++
        rest =
      0x7B :: (series (memberBytes Member.key fun p => Text.utf8Chars p.text) true parts ++
        0x7D :: rest) := by
  have hopen : String.utf8EncodeChar '{' = [0x7B] := rfl
  have hclose : String.utf8EncodeChar '}' = [0x7D] := rfl
  have hcolon : String.utf8EncodeChar ':' = [0x3A] := rfl
  have hmember : ∀ p ∈ parts, Text.utf8Chars (p.keyText ++ ':' :: p.text) =
      memberBytes Member.key (fun p => Text.utf8Chars p.text) p := by
    intro p hp
    rw [quoted_iff.1 (hkeys p hp)]
    simp [memberBytes, hcolon]
  rw [← series_congr (List.forall₂_same.2 hmember)]
  simp [utf8Chars_intercalate, hopen, hclose]

/-- A text in interchange form begins with neither white space nor a bracket that closes. -/
theorem Interchange.begins (h : Interchange before u text) : Begins (Text.utf8Chars text) := by
  cases h with
  | null => exact ⟨0x6E, _, rfl, rfl, by decide⟩
  | trueWord => exact ⟨0x74, _, rfl, rfl, by decide⟩
  | falseWord => exact ⟨0x66, _, rfl, rfl, by decide⟩
  | integer n fits =>
      rw [utf8Chars_toString]
      split
      · exact ⟨0x2D, _, rfl, rfl, by decide⟩
      · exact begins_digitBytes _
  | string h =>
      rw [quoted_iff.1 h]
      exact ⟨0x22, _, utf8Chars_writeString _, rfl, by decide⟩
  | array hparts => exact ⟨0x5B, _, rfl, rfl, by decide⟩
  | object hperm hsorted hkeys hparts => exact ⟨0x7B, _, rfl, rfl, by decide⟩

/-- An array is read back if its items are. -/
theorem readsBack_array {parts : List (Json × List Char)}
    (hbegins : ∀ p ∈ parts, Begins (Text.utf8Chars p.2))
    (hparts : ∀ p ∈ parts, ReadsBack (readValue depth) (Text.utf8Chars p.2) p.1) :
    ReadsBack (readValue (depth + 1))
      (Text.utf8Chars ('[' :: [','].intercalate (parts.map Prod.snd) ++ [']']))
      (.array (parts.map Prod.fst)) := by
  intro rest hrest
  have hfew := @length_le_series _ (fun p => Text.utf8Chars p.2) true parts
    fun p hp => (hbegins p hp).ne_nil
  rw [utf8Chars_array]
  apply readValue_array (readItems_series (fun p hp => ⟨hbegins p hp, fun _ => hparts p hp⟩) ?_)
  rw [List.length_append]
  omega

/-- An object is read back if its members are, in whatever order they come. -/
theorem readsBack_object {members : Members} {parts : List Member} (hascending : members.Ascending)
    (hperm : (parts.map fun p => (p.key, p.value)).Perm members)
    (hkeys : ∀ p ∈ parts, Quoted p.key p.keyText)
    (hparts : ∀ p ∈ parts, ReadsBack (readValue depth) (Text.utf8Chars p.text) p.value) :
    ReadsBack (readValue (depth + 1))
      (Text.utf8Chars ('{' :: [','].intercalate (parts.map fun p => p.keyText ++ ':' :: p.text) ++ ['}']))
      (.object members) := by
  intro rest hrest
  have hfew := @length_le_series _ (memberBytes Member.key fun p => Text.utf8Chars p.text) true parts
    fun p _ => memberBytes_ne_nil _ _ p
  rw [utf8Chars_object hkeys, readValue_object (readMembers_series hparts ?_), ofMembers,
    Members.ofList_eq_of_perm hperm hascending]
  rw [List.length_append]
  omega

/-- A value is read off its text, whatever the order of the members, by a reader that goes deep enough. -/
theorem Interchange.readsBack (h : Interchange before u text) (hu : Ordered p u) (hdepth : Shallow depth u) :
    ReadsBack (readValue depth) (Text.utf8Chars text) u := by
  induction h generalizing depth with
  | null => exact fun rest _ => readValue_null rest
  | trueWord => exact fun rest _ => readValue_true rest
  | falseWord => exact fun rest _ => readValue_false rest
  | integer n fits => exact fun rest => readValue_integer n fits
  | @string s text h =>
      intro rest hrest
      have hbytes : Text.utf8Chars text ++ rest =
          0x22 :: (Text.utf8Chars (s.toList.flatMap escapeChar) ++ 0x22 :: rest) := by
        rw [quoted_iff.1 h, utf8Chars_writeString]
        simp
      rw [hbytes]
      exact readValue_string (readString_escaped s rest)
  | @array parts hparts ih =>
      cases hu with
      | array hitems =>
          cases hdepth with
          | array hshallow =>
              apply readsBack_array fun p hp => (hparts p hp).begins
              intro p hp
              have hmem : p.1 ∈ parts.map Prod.fst := List.mem_map_of_mem hp
              exact ih p hp (hitems _ hmem) (hshallow _ hmem)
  | @object members parts hperm hsorted hkeys hparts ih =>
      cases hu with
      | object hascending hvalues =>
          cases hdepth with
          | object hshallow =>
              apply readsBack_object hascending hperm hkeys
              intro p hp
              have hmem : (p.key, p.value) ∈ members := hperm.subset (List.mem_map_of_mem hp)
              exact ih p hp (hvalues _ hmem) (hshallow _ hmem)

end Reading

section Orders

variable {before before' : String → String → Prop}

/-- Two orders agree on the keys of each object of a value. -/
inductive Agree (before before' : String → String → Prop) : Json → Prop where
  | null : Agree before before' .null
  | bool (b : Bool) : Agree before before' (.bool b)
  | number (n : Number) : Agree before before' (.number n)
  | string (s : String) : Agree before before' (.string s)
  | array {items : List Json} (hitems : ∀ v ∈ items, Agree before before' v) :
      Agree before before' (.array items)
  | object {members : Members}
      (hkeys : ∀ a ∈ members, ∀ b ∈ members, before a.1 b.1 ↔ before' a.1 b.1)
      (hvalues : ∀ e ∈ members, Agree before before' e.2) : Agree before before' (.object members)

variable {p₀ : Number → Prop} {u u' : Json} {text text' : List Char} {rest rest' : Bytes}

/-- A text in one order is one in another if they agree on its keys. -/
theorem Interchange.reorder (h : Interchange before u text) (hu : Agree before before' u) :
    Interchange before' u text := by
  induction h with
  | null => exact .null
  | trueWord => exact .trueWord
  | falseWord => exact .falseWord
  | integer n fits => exact .integer n fits
  | string h => exact .string h
  | array hparts ih =>
      cases hu with
      | array hitems =>
          apply Interchange.array
          intro p hp
          exact ih p hp (hitems _ (List.mem_map_of_mem hp))
  | @object members parts hperm hsorted hkeys hparts ih =>
      cases hu with
      | object hsame hvalues =>
          have hmem : ∀ p ∈ parts, (p.key, p.value) ∈ members := fun p hp =>
            hperm.subset (List.mem_map_of_mem hp)
          apply Interchange.object hperm ?_ hkeys
          · intro p hp
            exact ih p hp (hvalues _ (hmem p hp))
          · apply hsorted.imp_of_mem
            intro p q hp hq hpq
            exact (hsame _ (hmem p hp) _ (hmem q hq)).1 hpq

theorem Shallow.mono {d d' : Nat} (h : Shallow d u) (hd : d ≤ d') : Shallow d' u := by
  induction h generalizing d' with
  | null => exact .null d'
  | bool d b => exact .bool d' b
  | number d n => exact .number d' n
  | string d s => exact .string d' s
  | array hitems ih =>
      obtain ⟨d', rfl⟩ := Nat.exists_eq_add_one.2 (Nat.zero_lt_of_lt hd)
      exact .array fun v hv => ih v hv (Nat.le_of_succ_le_succ hd)
  | object hvalues ih =>
      obtain ⟨d', rfl⟩ := Nat.exists_eq_add_one.2 (Nat.zero_lt_of_lt hd)
      exact .object fun e he => ih e he (Nat.le_of_succ_le_succ hd)

theorem exists_shallow_of_mem {α : Type} {value : α → Json} {l : List α}
    (h : ∀ a ∈ l, ∃ d, Shallow d (value a)) : ∃ d, ∀ a ∈ l, Shallow d (value a) := by
  induction l with
  | nil => exact ⟨0, fun a ha => absurd ha List.not_mem_nil⟩
  | cons a rest ih =>
      obtain ⟨⟨d, hd⟩, hothers⟩ := List.forall_mem_cons.1 h
      obtain ⟨d', hd'⟩ := ih hothers
      refine ⟨max d d', List.forall_mem_cons.2 ⟨hd.mono (Nat.le_max_left d d'), fun b hb => ?_⟩⟩
      exact (hd' b hb).mono (Nat.le_max_right d d')

theorem exists_shallow (hu : Ordered p₀ u) : ∃ d, Shallow d u := by
  induction hu with
  | null => exact ⟨0, .null 0⟩
  | bool b => exact ⟨0, .bool 0 b⟩
  | number hn => exact ⟨0, .number 0 _⟩
  | string s => exact ⟨0, .string 0 s⟩
  | array hitems ih =>
      obtain ⟨d, hd⟩ := exists_shallow_of_mem ih
      exact ⟨d + 1, .array hd⟩
  | object hkeys hvalues ih =>
      obtain ⟨d, hd⟩ := exists_shallow_of_mem ih
      exact ⟨d + 1, .object hd⟩

/-- Where a text ends does not depend on what follows it, nor on the order of its members. -/
theorem Interchange.append_inj (h : Interchange before u text) (h' : Interchange before' u' text')
    (hu : Ordered p₀ u) (hu' : Ordered p₀ u') (hrest : Delimited rest) (hrest' : Delimited rest')
    (hsame : Text.utf8Chars text ++ rest = Text.utf8Chars text' ++ rest') :
    rest = rest' ∧ u = u' ∧ Text.utf8Chars text = Text.utf8Chars text' := by
  obtain ⟨d, hd⟩ := exists_shallow hu
  obtain ⟨d', hd'⟩ := exists_shallow hu'
  have hread := h.readsBack hu (hd.mono (Nat.le_max_left d d')) rest hrest
  have hread' := h'.readsBack hu' (hd'.mono (Nat.le_max_right d d')) rest' hrest'
  rw [← hsame, hread] at hread'
  obtain ⟨rfl, rfl⟩ := Prod.mk.inj (Except.ok.inj hread')
  exact ⟨rfl, rfl, List.append_cancel_right hsame⟩

section Parts

variable {α β : Type} {write : α → Bytes} {write' : β → Bytes} {close : UInt8} {first : Bool}

/-- Some part is not the end. -/
theorem series_ne_close {a : α} {l : List α} (hclose : close ≠ 0x2C)
    (ha : ∃ b tail, write a = b :: tail ∧ b ≠ close) (later rest : Bytes) :
    series write first (a :: l) ++ later ≠ close :: rest := by
  obtain ⟨b, tail, hwrite, hb⟩ := ha
  cases first with
  | true =>
      intro h
      simp only [series, hwrite, List.cons_append, List.cons.injEq] at h
      exact hb h.1
  | false =>
      intro h
      simp only [series, List.cons_append, List.cons.injEq] at h
      exact hclose h.1.symm

/-- Parts come one by one out of what they are written as together, if each shows where it ends. -/
theorem forall₂_of_series {r : α → β → Prop} {l : List α} {l' : List β}
    (hclose : close = 0x5D ∨ close = 0x7D)
    (hbegin : ∀ a ∈ l, ∃ b tail, write a = b :: tail ∧ b ≠ close)
    (hbegin' : ∀ a ∈ l', ∃ b tail, write' a = b :: tail ∧ b ≠ close)
    (hparts : ∀ a ∈ l, ∀ b ∈ l', ∀ rest rest', Delimited rest → Delimited rest' →
      write a ++ rest = write' b ++ rest' → rest = rest' ∧ r a b)
    (h : series write first l ++ [close] = series write' first l' ++ [close]) :
    List.Forall₂ r l l' := by
  have hcomma : close ≠ 0x2C := by
    rcases hclose with rfl | rfl <;> decide
  have hnil {γ : Type} (write : γ → Bytes) (first : Bool) : series write first [] ++ [close] = [close] := by
    cases first <;> rfl
  induction l generalizing first l' with
  | nil =>
      cases l' with
      | nil => exact .nil
      | cons b l' =>
          rw [hnil] at h
          exact absurd h.symm (series_ne_close hcomma (hbegin' b List.mem_cons_self) _ _)
  | cons a l ih =>
      obtain ⟨ha, hothers⟩ := List.forall_mem_cons.1 hbegin
      cases l' with
      | nil =>
          rw [hnil write'] at h
          exact absurd h (series_ne_close hcomma ha _ _)
      | cons b l' =>
          obtain ⟨-, hothers'⟩ := List.forall_mem_cons.1 hbegin'
          have hstart : write a ++ (series write false l ++ [close]) =
              write' b ++ (series write' false l' ++ [close]) := by
            cases first with
            | true => simpa [series] using h
            | false => simpa [series] using h
          obtain ⟨hlater, hab⟩ := hparts a List.mem_cons_self b List.mem_cons_self _ _
            (delimited_series hclose l) (delimited_series hclose l') hstart
          apply List.Forall₂.cons hab
          exact ih hothers hothers' (fun a ha b hb => hparts a (List.mem_cons_of_mem _ ha) b
            (List.mem_cons_of_mem _ hb)) hlater

end Parts

theorem of_interchange_array {items : List Json} (h : Interchange before (.array items) text) :
    ∃ parts : List (Json × List Char), items = parts.map Prod.fst ∧
      text = '[' :: [','].intercalate (parts.map Prod.snd) ++ [']'] ∧
        ∀ p ∈ parts, Interchange before p.1 p.2 := by
  generalize hu : Json.array items = u at h
  cases h with
  | @array parts hparts => exact ⟨parts, Json.array.inj hu, rfl, hparts⟩
  | _ => cases hu

theorem of_interchange_object {members : Members} (h : Interchange before (.object members) text) :
    ∃ parts : List Member, (parts.map fun p => (p.key, p.value)).Perm members ∧
      parts.Pairwise (fun p q => before p.key q.key) ∧ (∀ p ∈ parts, Quoted p.key p.keyText) ∧
        text = '{' :: [','].intercalate (parts.map fun p => p.keyText ++ ':' :: p.text) ++ ['}'] ∧
          ∀ p ∈ parts, Interchange before p.value p.text := by
  cases h with
  | @object _ parts hperm hsorted hkeys hparts => exact ⟨parts, hperm, hsorted, hkeys, rfl, hparts⟩

theorem utf8Chars_injective (h : Text.utf8Chars text = Text.utf8Chars text') : text = text' := by
  have hbytes : Text.utf8 (String.ofList text) = Text.utf8 (String.ofList text') := by
    rw [Text.utf8_eq_utf8Chars, Text.utf8_eq_utf8Chars, String.toList_ofList, String.toList_ofList, h]
  have hchars := congrArg Text.ofUtf8? hbytes
  rw [Text.ofUtf8?_utf8, Text.ofUtf8?_utf8, Option.some.injEq] at hchars
  exact String.ofList_injective hchars

/-- Orders that arrange some keys alike agree on them. -/
theorem agree_of_pairwise {α : Type} {r r' : α → α → Prop} (hasymm : ∀ a b, r a b → ¬r b a)
    (hasymm' : ∀ a b, r' a b → ¬r' b a) {l : List α} (h : l.Pairwise r) (h' : l.Pairwise r') :
    ∀ a ∈ l, ∀ b ∈ l, r a b ↔ r' a b := by
  induction l with
  | nil => exact fun a ha => absurd ha List.not_mem_nil
  | cons c l ih =>
      obtain ⟨hc, hl⟩ := List.pairwise_cons.1 h
      obtain ⟨hc', hl'⟩ := List.pairwise_cons.1 h'
      intro a ha b hb
      rcases List.mem_cons.1 ha with rfl | hal
      · rcases List.mem_cons.1 hb with rfl | hbl
        · exact iff_of_false (fun h => hasymm _ _ h h) fun h => hasymm' _ _ h h
        · exact iff_of_true (hc b hbl) (hc' b hbl)
      · rcases List.mem_cons.1 hb with rfl | hbl
        · exact iff_of_false (hasymm _ _ (hc a hal)) (hasymm' _ _ (hc' a hal))
        · exact ih hl hl' a hal b hbl

/-- The items of an array have one text each. -/
theorem items_eq {parts parts' : List (Json × List Char)} (hparts : ∀ p ∈ parts, Interchange before p.1 p.2)
    (hparts' : ∀ p ∈ parts', Interchange before' p.1 p.2) (hu : ∀ p ∈ parts, Ordered p₀ p.1)
    (hu' : ∀ p ∈ parts', Ordered p₀ p.1)
    (h : '[' :: [','].intercalate (parts.map Prod.snd) ++ [']'] =
      '[' :: [','].intercalate (parts'.map Prod.snd) ++ [']']) : parts = parts' := by
  have hbytes := utf8Chars_array parts []
  rw [h, utf8Chars_array, List.cons.injEq] at hbytes
  have hpairs : List.Forall₂ (· = ·) parts parts' := by
    apply forall₂_of_series (.inl rfl) ?_ ?_ ?_ hbytes.2.symm
    · intro p hp
      obtain ⟨b, tail, hb, -, hne⟩ := (hparts p hp).begins
      exact ⟨b, tail, hb, hne⟩
    · intro p hp
      obtain ⟨b, tail, hb, -, hne⟩ := (hparts' p hp).begins
      exact ⟨b, tail, hb, hne⟩
    · intro p hp q hq rest rest' hrest hrest' hsame
      obtain ⟨hlater, hvalue, htext⟩ :=
        (hparts p hp).append_inj (hparts' q hq) (hu p hp) (hu' q hq) hrest hrest' hsame
      exact ⟨hlater, Prod.ext hvalue (utf8Chars_injective htext)⟩
  rwa [List.forall₂_eq_eq_eq] at hpairs

/-- Where a key ends does not depend on what follows it. -/
theorem memberBytes_append_inj {p q : Member}
    (h : memberBytes Member.key (fun p => Text.utf8Chars p.text) p ++ rest =
      memberBytes Member.key (fun p => Text.utf8Chars p.text) q ++ rest') :
    p.key = q.key ∧ Text.utf8Chars p.text ++ rest = Text.utf8Chars q.text ++ rest' := by
  have hread := readString_escaped p.key (0x3A :: (Text.utf8Chars p.text ++ rest))
  have hread' := readString_escaped q.key (0x3A :: (Text.utf8Chars q.text ++ rest'))
  have hstring : Text.utf8Chars (p.key.toList.flatMap escapeChar) ++
      0x22 :: (0x3A :: (Text.utf8Chars p.text ++ rest)) =
        Text.utf8Chars (q.key.toList.flatMap escapeChar) ++
          0x22 :: (0x3A :: (Text.utf8Chars q.text ++ rest')) := by
    simpa [memberBytes, utf8Chars_writeString] using h
  rw [hstring, hread', Except.ok.injEq, Prod.mk.injEq, List.cons.injEq] at hread
  exact ⟨hread.1.symm, hread.2.2.symm⟩

/-- The members of an object are told from its text, and so is their order. -/
theorem members_eq {parts parts' : List Member} (hquoted : ∀ p ∈ parts, Quoted p.key p.keyText)
    (hquoted' : ∀ p ∈ parts', Quoted p.key p.keyText)
    (hparts : ∀ p ∈ parts, Interchange before p.value p.text)
    (hparts' : ∀ p ∈ parts', Interchange before' p.value p.text)
    (hu : ∀ p ∈ parts, Ordered p₀ p.value) (hu' : ∀ p ∈ parts', Ordered p₀ p.value)
    (h : '{' :: [','].intercalate (parts.map fun p => p.keyText ++ ':' :: p.text) ++ ['}'] =
      '{' :: [','].intercalate (parts'.map fun p => p.keyText ++ ':' :: p.text) ++ ['}']) :
    parts = parts' := by
  have hbytes := utf8Chars_object hquoted []
  rw [h, utf8Chars_object hquoted', List.cons.injEq] at hbytes
  have hquote (p : Member) : ∃ b tail, memberBytes Member.key (fun p => Text.utf8Chars p.text) p =
      b :: tail ∧ b ≠ 0x7D := by
    rw [memberBytes, utf8Chars_writeString]
    exact ⟨0x22, _, rfl, by decide⟩
  have hpairs : List.Forall₂ (· = ·) parts parts' := by
    apply forall₂_of_series (.inr rfl) (fun p _ => hquote p) (fun p _ => hquote p) ?_ hbytes.2.symm
    intro p hp q hq rest rest' hrest hrest' hsame
    obtain ⟨hkey, hlater⟩ := memberBytes_append_inj hsame
    obtain ⟨hlater, hvalue, htext⟩ :=
      (hparts p hp).append_inj (hparts' q hq) (hu p hp) (hu' q hq) hrest hrest' hlater
    have hkeyText : p.keyText = q.keyText := by
      rw [quoted_iff.1 (hquoted p hp), quoted_iff.1 (hquoted' q hq), hkey]
    have htext := utf8Chars_injective htext
    refine ⟨hlater, ?_⟩
    cases p
    cases q
    simp_all
  rwa [List.forall₂_eq_eq_eq] at hpairs

/-- Orders with one text for a value agree on its keys. -/
theorem Interchange.agree (hasymm : ∀ a b, before a b → ¬before b a)
    (hasymm' : ∀ a b, before' a b → ¬before' b a) (h : Interchange before u text)
    (h' : Interchange before' u text) (hu : Ordered p₀ u) : Agree before before' u := by
  induction hu generalizing text with
  | null => exact .null
  | bool b => exact .bool b
  | number hn => exact .number _
  | string s => exact .string s
  | @array items hitems ih =>
      obtain ⟨parts, rfl, rfl, hparts⟩ := of_interchange_array h
      obtain ⟨parts', hitems', htext, hparts'⟩ := of_interchange_array h'
      have hordered : ∀ p ∈ parts, Ordered p₀ p.1 := fun p hp => hitems _ (List.mem_map_of_mem hp)
      have hordered' : ∀ p ∈ parts', Ordered p₀ p.1 := fun p hp =>
        hitems _ (hitems' ▸ List.mem_map_of_mem hp)
      obtain rfl := items_eq hparts hparts' hordered hordered' htext
      apply Agree.array
      intro v hv
      obtain ⟨p, hp, rfl⟩ := List.mem_map.1 hv
      exact ih p.1 hv (hparts p hp) (hparts' p hp)
  | @object members hkeys hvalues ih =>
      obtain ⟨parts, hperm, hsorted, hquoted, rfl, hparts⟩ := of_interchange_object h
      obtain ⟨parts', hperm', hsorted', hquoted', htext, hparts'⟩ := of_interchange_object h'
      have hordered : ∀ p ∈ parts, Ordered p₀ p.value := fun p hp =>
        hvalues (p.key, p.value) (hperm.subset (List.mem_map_of_mem hp))
      have hordered' : ∀ p ∈ parts', Ordered p₀ p.value := fun p hp =>
        hvalues (p.key, p.value) (hperm'.subset (List.mem_map_of_mem hp))
      obtain rfl := members_eq hquoted hquoted' hparts hparts' hordered hordered' htext
      have hmember : ∀ e ∈ members, ∃ p ∈ parts, (p.key, p.value) = e := by
        intro e he
        exact List.mem_map.1 (hperm.symm.subset he)
      apply Agree.object
      · intro a ha b hb
        obtain ⟨p, hp, rfl⟩ := hmember a ha
        obtain ⟨q, hq, rfl⟩ := hmember b hb
        exact agree_of_pairwise (fun p q => hasymm p.key q.key) (fun p q => hasymm' p.key q.key) hsorted
          hsorted' p hp q hq
      · intro e he
        obtain ⟨p, hp, rfl⟩ := hmember e he
        exact ih _ he (hparts p hp) (hparts' p hp)

end Orders

end PrivatePresentation.Json
