import PrivatePresentation.Proofs.Json.NormalForm
import PrivatePresentation.Proofs.Json.Numeral

/-!
Documents as they are written.  The grammar of JSON text gives each text its tree, with the numbers of the
tree as they are spelled and every member of an object, also those that a later one replaces.  Whatever the
reader makes of a text has, at each place of the tree, the number that stands there.
-/

namespace PrivatePresentation.Json

open Decimal (Spelling)

/-- A value as it is written. -/
inductive Written where
  | null
  | bool (value : Bool)
  | number (spelling : Spelling)
  | string (value : String)
  | array (items : List Written)
  | object (members : List (String × Written))

/-- White space. -/
def IsBlank (bytes : Bytes) : Prop := ∀ b ∈ bytes, isSpace b = true

/-- A key between white space. -/
inductive SpellsKey : Bytes → String → Prop where
  | mk {before text after : Bytes} {key : String} (hbefore : IsBlank before)
      (htext : Unescapes text (Text.utf8 key)) (hafter : IsBlank after) :
      SpellsKey (before ++ 0x22 :: (text ++ 0x22 :: after)) key

/-- A member with the bytes of its key and of its value. -/
structure Part where
  keyText : Bytes
  text : Bytes
  key : String
  value : Written

/-- A member as it is written. -/
def Part.bytes (p : Part) : Bytes := p.keyText ++ 0x3A :: p.text

/-- The texts of a value, with white space around it and in it. -/
inductive Spells : Bytes → Written → Prop where
  | null : Spells [0x6E, 0x75, 0x6C, 0x6C] .null
  | trueWord : Spells [0x74, 0x72, 0x75, 0x65] (.bool true)
  | falseWord : Spells [0x66, 0x61, 0x6C, 0x73, 0x65] (.bool false)
  | number {s : Spelling} (hs : s.IsJson) : Spells (Text.utf8Chars s.text) (.number s)
  | string {text : Bytes} {s : String} (htext : Unescapes text (Text.utf8 s)) :
      Spells (0x22 :: (text ++ [0x22])) (.string s)
  | emptyArray {blank : Bytes} (hblank : IsBlank blank) : Spells (0x5B :: (blank ++ [0x5D])) (.array [])
  | array {parts : List (Bytes × Written)} (hparts : ∀ p ∈ parts, Spells p.1 p.2) :
      Spells (0x5B :: (series Prod.fst true parts ++ [0x5D])) (.array (parts.map Prod.snd))
  | emptyObject {blank : Bytes} (hblank : IsBlank blank) :
      Spells (0x7B :: (blank ++ [0x7D])) (.object [])
  | object {parts : List Part} (hkeys : ∀ p ∈ parts, SpellsKey p.keyText p.key)
      (hparts : ∀ p ∈ parts, Spells p.text p.value) :
      Spells (0x7B :: (series Part.bytes true parts ++ [0x7D]))
        (.object (parts.map fun p => (p.key, p.value)))
  | before {b : UInt8} {text : Bytes} {w : Written} (hb : isSpace b = true) (h : Spells text w) :
      Spells (b :: text) w
  | after {b : UInt8} {text : Bytes} {w : Written} (hb : isSpace b = true) (h : Spells text w) :
      Spells (text ++ [b]) w

/-- What stands at a place of a text. -/
def Written.at? : List Step → Written → Option Written
  | [], w => some w
  | .index i :: path, .array items => items[i]?.bind (at? path)
  | .key k :: path, .object members => (Members.lastValue? k members).bind (at? path)
  | _ :: _, _ => none

/-- What stands at a place of a value. -/
def at? : List Step → Json → Option Json
  | [], v => some v
  | .index i :: path, .array items => items[i]?.bind (at? path)
  | .key k :: path, .object members => (Members.get? k members).bind (at? path)
  | _ :: _, _ => none

/-- A value is what its text says, number by number; of the members with one key it has the last. -/
inductive Written.Reads : Written → Json → Prop where
  | null : Reads .null .null
  | bool (b : Bool) : Reads (.bool b) (.bool b)
  | number {s : Spelling} {n : Number} (hn : Denotes s n) : Reads (.number s) (.number n)
  | string (s : String) : Reads (.string s) (.string s)
  | array {items : List Written} {vs : List Json} (hitems : List.Forall₂ Reads items vs) :
      Reads (.array items) (.array vs)
  | object {members : List (String × Written)} {ms : List (String × Json)}
      (hkeys : ms.map Prod.fst = members.map Prod.fst)
      (hvalues : List.Forall₂ Reads (members.map Prod.snd) (ms.map Prod.snd)) :
      Reads (.object members) (ofMembers ms)

section Places

variable {w : Written} {v : Json}

theorem rel_lastValue? {members : List (String × Written)} {ms : List (String × Json)}
    (hkeys : ms.map Prod.fst = members.map Prod.fst)
    (hvalues : List.Forall₂ Written.Reads (members.map Prod.snd) (ms.map Prod.snd)) (key : String) :
    Option.Rel Written.Reads (Members.lastValue? key members) (Members.lastValue? key ms) := by
  induction members generalizing ms with
  | nil =>
      obtain rfl := List.map_eq_nil_iff.1 hkeys
      exact .none
  | cons e rest ih =>
      cases ms with
      | nil => cases hvalues
      | cons m ms =>
          rw [List.map_cons, List.map_cons, List.cons.injEq] at hkeys
          cases hvalues with
          | cons hvalue hvalues =>
              have hlater := ih hkeys.2 hvalues
              rw [Members.lastValue?, Members.lastValue?, hkeys.1]
              generalize Members.lastValue? key rest = later, Members.lastValue? key ms = later' at hlater ⊢
              cases hlater with
              | some hlater => exact .some hlater
              | none =>
                  rw [Option.none_or, Option.none_or]
                  split
                  · exact .some hvalue
                  · exact .none

/-- What stands at a place of a value is what stands there in its text. -/
theorem Written.Reads.at? (h : w.Reads v) (path : List Step) :
    Option.Rel Written.Reads (w.at? path) (v.at? path) := by
  have hbind {step : Option Written} {step' : Option Json} {path : List Step}
      (ih : ∀ {w : Written} {v : Json}, w.Reads v → Option.Rel Written.Reads (w.at? path) (v.at? path))
      (hstep : Option.Rel Written.Reads step step') :
      Option.Rel Written.Reads (step.bind (Written.at? path)) (step'.bind (Json.at? path)) := by
    cases hstep with
    | none => exact .none
    | some hstep => exact ih hstep
  induction path generalizing w v with
  | nil => exact .some h
  | cons step path ih =>
      cases h with
      | @array items vs hitems =>
          cases step with
          | index i => exact hbind ih (Outcome.rel_getElem? hitems i)
          | key k => exact .none
          | unread => exact .none
      | @object members ms hkeys hvalues =>
          cases step with
          | index i => exact .none
          | key k =>
              have hmember := rel_lastValue? hkeys hvalues k
              rw [← Members.get?_ofList] at hmember
              exact hbind ih hmember
          | unread => exact .none
      | null => cases step <;> exact .none
      | bool b => cases step <;> exact .none
      | number hn => cases step <;> exact .none
      | string s => cases step <;> exact .none

end Places

section Space

variable {b : UInt8} {blank text bytes rest : Bytes} {depth : Nat}

/-- What may follow a value, white space included. -/
def Ends (rest : Bytes) : Prop :=
  ∀ b ∈ rest.head?, isSpace b = true ∨ b = 0x2C ∨ b = 0x5D ∨ b = 0x7D

/-- Whatever is read off a text is what it says, and is read up to the white space after it. -/
def ReadAs (text : Bytes) (w : Written) : Prop :=
  ∀ ⦃depth : Nat⦄ ⦃rest : Bytes⦄ ⦃v : Json⦄ ⦃rest' : Bytes⦄, Ends rest →
    readValue depth (text ++ rest) = .ok (v, rest') → skipSpace rest' = skipSpace rest ∧ w.Reads v

theorem ends_of_delimited (h : Delimited rest) : Ends rest := fun b hb => .inr (h b hb)

theorem ends_of_isSpace (hb : isSpace b = true) : Ends (b :: rest) := by
  intro b' hb'
  obtain rfl := Option.some.inj hb'
  exact .inl hb

theorem Ends.endsNumber (h : Ends rest) : EndsNumber rest := by
  intro b hb
  rcases h b hb with hspace | rfl | rfl | rfl
  · simp only [isSpace, Bool.or_eq_true, beq_iff_eq] at hspace
    rcases hspace with ((rfl | rfl) | rfl) | rfl <;> decide
  · decide
  · decide
  · decide

@[simp]
theorem skipSpace_skipSpace (bytes : Bytes) : skipSpace (skipSpace bytes) = skipSpace bytes := by
  rw [skipSpace, skipSpace, List.dropWhile_idempotent]

theorem skipSpace_cons (hb : isSpace b = true) (rest : Bytes) :
    skipSpace (b :: rest) = skipSpace rest :=
  List.dropWhile_cons_of_pos hb

theorem skipSpace_blank (h : IsBlank blank) (rest : Bytes) : skipSpace (blank ++ rest) = skipSpace rest :=
  List.dropWhile_append_of_pos h

theorem skipSpace_eq_self (hb : isSpace b = false) (rest : Bytes) : skipSpace (b :: rest) = b :: rest :=
  List.dropWhile_cons_of_neg (by rw [hb]; exact Bool.false_ne_true)

theorem readValue_skipSpace (bytes : Bytes) : readValue depth (skipSpace bytes) = readValue depth bytes := by
  unfold readValue
  rw [skipSpace_skipSpace]

/-- After its white space, a value begins with what is no bracket that closes. -/
def Opens (text : Bytes) : Prop := ∃ b tail, skipSpace text = b :: tail ∧ b ≠ 0x5D

theorem Opens.skipSpace_append (h : Opens text) (rest : Bytes) :
    ∃ b tail, skipSpace (text ++ rest) = b :: tail ∧ b ≠ 0x5D := by
  obtain ⟨b, tail, htext, hb⟩ := h
  have hne : skipSpace text ≠ [] := by
    rw [htext]
    exact List.cons_ne_nil b tail
  refine ⟨b, tail ++ rest, ?_, hb⟩
  rw [skipSpace, List.dropWhile_append, if_neg (by simpa [skipSpace] using hne), ← skipSpace, htext]
  rfl

theorem opens_of_cons (hb : isSpace b = false) (hne : b ≠ 0x5D) : Opens (b :: text) :=
  ⟨b, text, skipSpace_eq_self hb text, hne⟩

theorem Spells.opens {w : Written} (h : Spells text w) : Opens text := by
  induction h with
  | null => exact opens_of_cons rfl (by decide)
  | trueWord => exact opens_of_cons rfl (by decide)
  | falseWord => exact opens_of_cons rfl (by decide)
  | @number s hs =>
      have htext : Text.utf8Chars s.text =
          Text.utf8Chars s.sign.text ++ Text.utf8Chars (s.whole ++ s.tail) :=
        Text.utf8Chars_append _ _
      rw [htext, utf8Chars_sign]
      cases hsign : s.sign with
      | plus => exact absurd hsign hs.sign
      | minus => exact opens_of_cons rfl (by decide)
      | none =>
          obtain ⟨d, tail, hcons⟩ := List.exists_cons_of_ne_nil
            (utf8Chars_ne_nil hs.whole s.isDigit_of_mem_whole)
          have hd : isDigit d = true :=
            isDigit_of_mem_utf8Chars s.isDigit_of_mem_whole d (hcons ▸ List.mem_cons_self)
          rw [Text.utf8Chars_append, hcons]
          exact opens_of_cons (isSpace_of_isDigit hd) (ne_of_isDigit hd rfl)
  | string htext => exact opens_of_cons rfl (by decide)
  | emptyArray hblank => exact opens_of_cons rfl (by decide)
  | array hparts ih => exact opens_of_cons rfl (by decide)
  | emptyObject hblank => exact opens_of_cons rfl (by decide)
  | object hkeys hparts ih => exact opens_of_cons rfl (by decide)
  | before hb h ih =>
      obtain ⟨b, tail, htext, hne⟩ := ih
      exact ⟨b, tail, (skipSpace_cons hb _).trans htext, hne⟩
  | after hb h ih =>
      obtain ⟨b, tail, htext, hne⟩ := ih.skipSpace_append [_]
      exact ⟨b, tail, htext, hne⟩

end Space

section Items

variable {first : Bool} {bytes rest rest' : Bytes} {fuel index : Nat}

theorem nextItem_congr {bytes bytes' : Bytes} (h : skipSpace bytes = skipSpace bytes') :
    nextItem first bytes = nextItem first bytes' := by
  unfold nextItem
  rw [h]

/-- One more item is found where its text begins. -/
theorem nextItem_part {p : Bytes × Written} {parts : List (Bytes × Written)} (h : Opens p.1) :
    nextItem first (series Prod.fst first (p :: parts) ++ rest) =
      .ok (true, skipSpace (p.1 ++ (series Prod.fst false parts ++ rest))) := by
  obtain ⟨b, tail, hspace, hb⟩ := h.skipSpace_append (series Prod.fst false parts ++ rest)
  rw [hspace]
  cases first with
  | true =>
      rw [series, List.append_assoc]
      simp [nextItem, hspace]
  | false =>
      have hcomma (later : Bytes) : skipSpace (0x2C :: later) = 0x2C :: later := rfl
      rw [series, List.append_assoc, List.cons_append]
      simp [nextItem, hcomma, hspace, hb]

/-- The items of an array are read as what their texts say. -/
theorem of_readItems {depth : Nat} {vs : List Json} {parts : List (Bytes × Written)}
    (hopens : ∀ p ∈ parts, Opens p.1) (hparts : ∀ p ∈ parts, ReadAs p.1 p.2)
    (hbytes : skipSpace bytes = skipSpace (series Prod.fst first parts ++ 0x5D :: rest))
    (h : readItems (fun _ => readValue depth) fuel index first bytes = .ok (vs, rest')) :
    rest' = rest ∧ List.Forall₂ (fun p v => p.2.Reads v) parts vs := by
  induction parts generalizing fuel index first bytes vs with
  | nil =>
      cases fuel with
      | zero => exact nomatch h
      | succ fuel =>
          have hnone : series Prod.fst first ([] : List (Bytes × Written)) = [] := by
            cases first <;> rfl
          rw [hnone] at hbytes
          rw [readItems, nextItem_congr hbytes] at h
          obtain ⟨rfl, rfl⟩ := Prod.mk.inj (Except.ok.inj h)
          exact ⟨rfl, .nil⟩
  | cons p parts ih =>
      cases fuel with
      | zero => exact nomatch h
      | succ fuel =>
          obtain ⟨hp, hrest⟩ := List.forall_mem_cons.1 hparts
          obtain ⟨hopen, hopens⟩ := List.forall_mem_cons.1 hopens
          rw [readItems, nextItem_congr hbytes, nextItem_part hopen] at h
          obtain ⟨⟨more, start⟩, hmore, h⟩ := Outcome.of_bind h
          obtain ⟨rfl, rfl⟩ := Prod.mk.inj (Except.ok.inj (of_within hmore))
          obtain ⟨⟨v, later⟩, hitem, h⟩ := Outcome.of_bind h
          obtain ⟨⟨others, last⟩, hothers, h⟩ := Outcome.of_bind h
          obtain ⟨rfl, rfl⟩ := Prod.mk.inj (Except.ok.inj h)
          have hread := of_within hitem
          rw [readValue_skipSpace] at hread
          obtain ⟨hlater, hv⟩ := hp (ends_of_delimited (delimited_series (.inl rfl) parts)) hread
          obtain ⟨rfl, hvs⟩ := ih hopens hrest hlater hothers
          exact ⟨rfl, .cons hv hvs⟩

end Items

section Members

variable {first : Bool} {bytes rest rest' : Bytes} {fuel : Nat}

theorem nextKey?_congr {bytes bytes' : Bytes} (h : skipSpace bytes = skipSpace bytes') :
    nextKey? first bytes = nextKey? first bytes' := by
  unfold nextKey?
  rw [h]

/-- One more key is found up to the white space after it. -/
theorem nextKey?_part {p : Part} {parts : List Part} (hkey : SpellsKey p.keyText p.key) :
    ∃ after, IsBlank after ∧ nextKey? first (series Part.bytes first (p :: parts) ++ rest) =
      .ok (some p.key, after ++ 0x3A :: (p.text ++ (series Part.bytes false parts ++ rest))) := by
  obtain ⟨keyText, text, key, value⟩ := p
  cases hkey with
  | @mk before body after key hbefore hbody hafter =>
      refine ⟨after, hafter, ?_⟩
      have hread := hbody.readString (after ++ 0x3A :: (text ++ (series Part.bytes false parts ++ rest)))
      have hspace : skipSpace (before ++ (0x22 :: (body ++ 0x22 :: (after ++ 0x3A ::
          (text ++ (series Part.bytes false parts ++ rest)))))) = 0x22 :: (body ++ 0x22 :: (after ++ 0x3A ::
          (text ++ (series Part.bytes false parts ++ rest)))) :=
        (skipSpace_blank hbefore _).trans rfl
      cases first with
      | true =>
          simp only [series, Part.bytes, List.append_assoc, List.cons_append]
          simp [nextKey?, hspace, hread, bind, Except.bind, pure, Except.pure]
      | false =>
          have hcomma (later : Bytes) : skipSpace (0x2C :: later) = 0x2C :: later := rfl
          simp only [series, Part.bytes, List.append_assoc, List.cons_append]
          simp [nextKey?, hcomma, hspace, hread, bind, Except.bind, pure, Except.pure]

theorem readColon_blank {after : Bytes} (hafter : IsBlank after) (rest : Bytes) :
    readColon (after ++ 0x3A :: rest) = .ok rest := by
  have hspace : skipSpace (after ++ 0x3A :: rest) = 0x3A :: rest := (skipSpace_blank hafter _).trans rfl
  rw [readColon, hspace]
  rfl

/-- The members of an object are read as what their texts say. -/
theorem of_readMembers {depth : Nat} {ms : List (String × Json)} {parts : List Part}
    (hkeys : ∀ p ∈ parts, SpellsKey p.keyText p.key) (hparts : ∀ p ∈ parts, ReadAs p.text p.value)
    (hbytes : skipSpace bytes = skipSpace (series Part.bytes first parts ++ 0x7D :: rest))
    (h : readMembers (fun _ => readValue depth) fuel first bytes = .ok (ms, rest')) :
    rest' = rest ∧ List.Forall₂ (fun p m => m.1 = p.key ∧ p.value.Reads m.2) parts ms := by
  induction parts generalizing fuel first bytes ms with
  | nil =>
      cases fuel with
      | zero => exact nomatch h
      | succ fuel =>
          have hnone : series Part.bytes first ([] : List Part) = [] := by
            cases first <;> rfl
          rw [hnone] at hbytes
          rw [readMembers, nextKey?_congr hbytes] at h
          obtain ⟨rfl, rfl⟩ := Prod.mk.inj (Except.ok.inj h)
          exact ⟨rfl, .nil⟩
  | cons p parts ih =>
      cases fuel with
      | zero => exact nomatch h
      | succ fuel =>
          obtain ⟨hp, hrest⟩ := List.forall_mem_cons.1 hparts
          obtain ⟨hkey, hkeys⟩ := List.forall_mem_cons.1 hkeys
          obtain ⟨after, hafter, hnext⟩ := @nextKey?_part first (0x7D :: rest) p parts hkey
          rw [readMembers, nextKey?_congr hbytes, hnext] at h
          obtain ⟨⟨key?, start⟩, hmore, h⟩ := Outcome.of_bind h
          obtain ⟨rfl, rfl⟩ := Prod.mk.inj (Except.ok.inj (of_within hmore))
          obtain ⟨start, hcolon, h⟩ := Outcome.of_bind h
          have hstart := of_within hcolon
          rw [readColon_blank hafter] at hstart
          obtain rfl := Except.ok.inj hstart
          obtain ⟨⟨v, later⟩, hvalue, h⟩ := Outcome.of_bind h
          obtain ⟨⟨others, last⟩, hothers, h⟩ := Outcome.of_bind h
          obtain ⟨rfl, rfl⟩ := Prod.mk.inj (Except.ok.inj h)
          obtain ⟨hlater, hv⟩ := hp (ends_of_delimited (delimited_series (.inr rfl) parts))
            (of_within hvalue)
          obtain ⟨rfl, hms⟩ := ih hkeys hrest hlater hothers
          exact ⟨rfl, .cons ⟨rfl, hv⟩ hms⟩

end Members

section Values

variable {depth : Nat} {text bytes rest rest' : Bytes} {v : Json} {w : Written}

theorem of_readValue_array (h : readValue depth (0x5B :: bytes) = .ok (v, rest')) :
    ∃ d vs, v = .array vs ∧
      readItems (fun _ => readValue d) (bytes.length + 1) 0 true bytes = .ok (vs, rest') := by
  cases depth with
  | zero =>
      unfold readValue at h
      simp [skipSpace, isSpace, isDigit, failOn] at h
  | succ d =>
      unfold readValue at h
      obtain ⟨⟨vs, later⟩, hitems, h⟩ := Outcome.of_bind h
      obtain ⟨rfl, rfl⟩ := Prod.mk.inj (Except.ok.inj h)
      exact ⟨d, vs, rfl, hitems⟩

theorem of_readValue_object (h : readValue depth (0x7B :: bytes) = .ok (v, rest')) :
    ∃ d ms, v = ofMembers ms ∧
      readMembers (fun _ => readValue d) (bytes.length + 1) true bytes = .ok (ms, rest') := by
  cases depth with
  | zero =>
      unfold readValue at h
      simp [skipSpace, isSpace, isDigit, failOn] at h
  | succ d =>
      unfold readValue at h
      obtain ⟨⟨ms, later⟩, hmembers, h⟩ := Outcome.of_bind h
      obtain ⟨rfl, rfl⟩ := Prod.mk.inj (Except.ok.inj h)
      exact ⟨d, ms, rfl, hmembers⟩

theorem reads_array {parts : List (Bytes × Written)} (hopens : ∀ p ∈ parts, Opens p.1)
    (hparts : ∀ p ∈ parts, ReadAs p.1 p.2)
    (hbytes : skipSpace bytes = skipSpace (series Prod.fst true parts ++ 0x5D :: rest))
    (h : readValue depth (0x5B :: bytes) = .ok (v, rest')) :
    rest' = rest ∧ (Written.array (parts.map Prod.snd)).Reads v := by
  obtain ⟨d, vs, rfl, hitems⟩ := of_readValue_array h
  obtain ⟨rfl, hvs⟩ := of_readItems hopens hparts hbytes hitems
  exact ⟨rfl, .array (List.forall₂_map_left_iff.2 hvs)⟩

theorem reads_object {parts : List Part} (hkeys : ∀ p ∈ parts, SpellsKey p.keyText p.key)
    (hparts : ∀ p ∈ parts, ReadAs p.text p.value)
    (hbytes : skipSpace bytes = skipSpace (series Part.bytes true parts ++ 0x7D :: rest))
    (h : readValue depth (0x7B :: bytes) = .ok (v, rest')) :
    rest' = rest ∧ (Written.object (parts.map fun p => (p.key, p.value))).Reads v := by
  obtain ⟨d, ms, rfl, hmembers⟩ := of_readValue_object h
  obtain ⟨rfl, hms⟩ := of_readMembers hkeys hparts hbytes hmembers
  refine ⟨rfl, .object ?_ ?_⟩
  · have hsame : List.Forall₂ (· = ·) (parts.map Part.key) (ms.map Prod.fst) :=
      List.forall₂_map_left_iff.2 (List.forall₂_map_right_iff.2 (hms.imp fun p m hm => hm.1.symm))
    rw [List.forall₂_eq_eq_eq] at hsame
    rw [List.map_map, ← hsame]
    rfl
  · rw [List.map_map]
    exact List.forall₂_map_left_iff.2 (List.forall₂_map_right_iff.2 (hms.imp fun p m hm => hm.2))

theorem readAs_of_eq (hread : ∀ depth rest, readValue depth (text ++ rest) = .ok (v, rest))
    (hv : w.Reads v) : ReadAs text w := by
  intro depth rest u rest' hrest h
  obtain ⟨rfl, rfl⟩ := Prod.mk.inj (Except.ok.inj ((hread depth rest).symm.trans h))
  exact ⟨rfl, hv⟩

/-- A text is read as what it says, up to the white space after it. -/
theorem Spells.readAs (hw : Spells text w) : ReadAs text w := by
  induction hw with
  | null => exact readAs_of_eq (fun _ => readValue_null) .null
  | trueWord => exact readAs_of_eq (fun _ => readValue_true) (.bool true)
  | falseWord => exact readAs_of_eq (fun _ => readValue_false) (.bool false)
  | number hs =>
      intro depth rest v rest' hrest h
      obtain ⟨rfl, n, rfl, hn⟩ := of_readValue_number hs hrest.endsNumber h
      exact ⟨rfl, .number hn⟩
  | @string body s hbody =>
      refine readAs_of_eq (fun depth rest => ?_) (.string s)
      rw [List.cons_append, List.append_assoc, List.singleton_append]
      exact readValue_string (hbody.readString rest)
  | @emptyArray blank hblank =>
      intro depth rest v rest' hrest h
      rw [List.cons_append, List.append_assoc] at h
      obtain ⟨rfl, hv⟩ := @reads_array _ _ rest _ _ [] (by simp) (by simp) (skipSpace_blank hblank _) h
      exact ⟨rfl, hv⟩
  | array hparts ih =>
      intro depth rest v rest' hrest h
      rw [List.cons_append, List.append_assoc] at h
      obtain ⟨rfl, hv⟩ := reads_array (fun p hp => (hparts p hp).opens) ih rfl h
      exact ⟨rfl, hv⟩
  | @emptyObject blank hblank =>
      intro depth rest v rest' hrest h
      rw [List.cons_append, List.append_assoc] at h
      obtain ⟨rfl, hv⟩ := @reads_object _ _ rest _ _ [] (by simp) (by simp) (skipSpace_blank hblank _) h
      exact ⟨rfl, hv⟩
  | object hkeys hparts ih =>
      intro depth rest v rest' hrest h
      rw [List.cons_append, List.append_assoc] at h
      obtain ⟨rfl, hv⟩ := reads_object hkeys ih rfl h
      exact ⟨rfl, hv⟩
  | @before b text w hb hw ih =>
      intro depth rest v rest' hrest h
      rw [List.cons_append, ← readValue_skipSpace, skipSpace_cons hb, readValue_skipSpace] at h
      exact ih hrest h
  | @after b text w hb hw ih =>
      intro depth rest v rest' hrest h
      rw [List.append_assoc, List.singleton_append] at h
      obtain ⟨hspace, hv⟩ := ih (ends_of_isSpace hb) h
      exact ⟨hspace.trans (skipSpace_cons hb rest), hv⟩

/-- A document is read as what it says. -/
theorem Spells.reads_document (hw : Spells text w) (h : parseBytes text = .ok v) : w.Reads v := by
  obtain ⟨⟨u, rest⟩, hread, hend⟩ := Outcome.of_bind h
  obtain rfl := of_readEnd hend
  have hnone : Ends [] := fun b hb => absurd hb (Option.not_mem_none b)
  rw [← List.append_nil text] at hread
  exact (hw.readAs hnone hread).2

end Values

end PrivatePresentation.Json
