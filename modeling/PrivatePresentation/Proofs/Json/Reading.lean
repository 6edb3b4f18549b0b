import PrivatePresentation.Proofs.Json.Members
import PrivatePresentation.Proofs.Json.Scalars
import PrivatePresentation.Proofs.Outcome

/-!
Reading arrays and objects.  Whatever is read has the members of its objects in order, and is nested
no deeper than the reader goes.  The parts of an array or of an object are read one after the other: if
each of them is read back, so are all.
-/

namespace PrivatePresentation.Json

/-- The number is an integer. -/
def Number.IsInteger : Number → Prop
  | .integer _ _ => True
  | .float _ => False

/-- The numbers of a value have a property, and the members of its objects are in order. -/
inductive Ordered (p : Number → Prop) : Json → Prop where
  | null : Ordered p .null
  | bool (b : Bool) : Ordered p (.bool b)
  | number {n : Number} (hn : p n) : Ordered p (.number n)
  | string (s : String) : Ordered p (.string s)
  | array {items : List Json} (hitems : ∀ v ∈ items, Ordered p v) : Ordered p (.array items)
  | object {members : Members} (hkeys : members.Ascending)
      (hvalues : ∀ e ∈ members, Ordered p e.2) : Ordered p (.object members)

/-- Arrays and objects are nested no deeper than a limit. -/
inductive Shallow : Nat → Json → Prop where
  | null (d : Nat) : Shallow d .null
  | bool (d : Nat) (b : Bool) : Shallow d (.bool b)
  | number (d : Nat) (n : Number) : Shallow d (.number n)
  | string (d : Nat) (s : String) : Shallow d (.string s)
  | array {d : Nat} {items : List Json} (hitems : ∀ v ∈ items, Shallow d v) :
      Shallow (d + 1) (.array items)
  | object {d : Nat} {members : Members} (hvalues : ∀ e ∈ members, Shallow d e.2) :
      Shallow (d + 1) (.object members)

section Reading

variable {α : Type} {bytes rest : Bytes} {fuel index : Nat} {first : Bool}

theorem of_within {step : Step} {m : Except Fault α} {a : α}
    (h : within step m = .ok a) : m = .ok a := by
  cases m with
  | ok b => exact h
  | error f => exact nomatch h

theorem exists_of_mem_readItems {item : Nat → Reader α} {vs : List α}
    (h : readItems item fuel index first bytes = .ok (vs, rest)) :
    ∀ v ∈ vs, ∃ i before after, item i before = .ok (v, after) := by
  induction fuel generalizing index first bytes vs rest with
  | zero => exact nomatch h
  | succ fuel ih =>
      rw [readItems] at h
      obtain ⟨⟨more, start⟩, -, h⟩ := Outcome.of_bind h
      cases more with
      | false =>
          obtain ⟨rfl, -⟩ := Prod.mk.inj (Except.ok.inj h)
          exact fun _ hv => absurd hv List.not_mem_nil
      | true =>
          obtain ⟨⟨v, later⟩, hitem, h⟩ := Outcome.of_bind h
          obtain ⟨⟨others, last⟩, hothers, h⟩ := Outcome.of_bind h
          obtain ⟨rfl, -⟩ := Prod.mk.inj (Except.ok.inj h)
          rw [List.forall_mem_cons]
          exact ⟨⟨index, start, later, of_within hitem⟩, ih hothers⟩

theorem exists_of_mem_readMembers {value : String → Reader α} {ms : List (String × α)}
    (h : readMembers value fuel first bytes = .ok (ms, rest)) :
    ∀ m ∈ ms, ∃ before after, value m.1 before = .ok (m.2, after) := by
  induction fuel generalizing first bytes ms rest with
  | zero => exact nomatch h
  | succ fuel ih =>
      rw [readMembers] at h
      obtain ⟨⟨key?, start⟩, -, h⟩ := Outcome.of_bind h
      cases key? with
      | none =>
          obtain ⟨rfl, -⟩ := Prod.mk.inj (Except.ok.inj h)
          exact fun _ hm => absurd hm List.not_mem_nil
      | some key =>
          obtain ⟨colon, -, h⟩ := Outcome.of_bind h
          obtain ⟨⟨v, later⟩, hvalue, h⟩ := Outcome.of_bind h
          obtain ⟨⟨others, last⟩, hothers, h⟩ := Outcome.of_bind h
          obtain ⟨rfl, -⟩ := Prod.mk.inj (Except.ok.inj h)
          rw [List.forall_mem_cons]
          exact ⟨⟨colon, later, of_within hvalue⟩, ih hothers⟩

theorem of_readWord {v w : α} {word : Bytes} (h : readWord w word bytes = .ok (v, rest)) : v = w := by
  induction word generalizing bytes with
  | nil => exact (congrArg Prod.fst (Except.ok.inj h)).symm
  | cons b word ih =>
      cases bytes with
      | nil => exact nomatch h
      | cons b' bytes =>
          rw [readWord] at h
          obtain ⟨-, h⟩ := Outcome.of_guard_else h
          exact ih h

theorem values_ofList {p : Json → Prop} {ms : List (String × Json)} (h : ∀ m ∈ ms, p m.2) :
    ∀ e ∈ Members.ofList ms, p e.2 :=
  fun e he => (Members.mem_of_mem_insertAll he).elim (h e) fun hnone => absurd hnone List.not_mem_nil

theorem ofMembers_ordered {p : Number → Prop} {ms : List (String × Json)}
    (h : ∀ m ∈ ms, Ordered p m.2) : Ordered p (ofMembers ms) :=
  .object (Members.Ascending.insertAll .nil) (values_ofList h)

/-- A value is in order and nested no deeper than the reader goes if those inside it are. -/
theorem ordered_of_inner {depth : Nat} {v : Json}
    (inner : ∀ d, depth = d + 1 → ∀ v before after, readValue d before = .ok (v, after) →
      Ordered (fun _ => True) v ∧ Shallow d v)
    (h : readValue depth bytes = .ok (v, rest)) : Ordered (fun _ => True) v ∧ Shallow depth v := by
  unfold readValue at h
  split at h
  · cases h
  · split_ifs at h
    · rw [of_readWord h]
      exact ⟨.null, .null depth⟩
    · rw [of_readWord h]
      exact ⟨.bool true, .bool depth true⟩
    · rw [of_readWord h]
      exact ⟨.bool false, .bool depth false⟩
    · obtain ⟨⟨s, later⟩, -, h⟩ := Outcome.of_bind h
      obtain ⟨rfl, -⟩ := Prod.mk.inj (Except.ok.inj h)
      exact ⟨.string s, .string depth s⟩
    · obtain ⟨⟨n, later⟩, -, h⟩ := Outcome.of_bind h
      obtain ⟨rfl, -⟩ := Prod.mk.inj (Except.ok.inj h)
      exact ⟨.number trivial, .number depth n⟩
    · obtain ⟨⟨n, later⟩, -, h⟩ := Outcome.of_bind h
      obtain ⟨rfl, -⟩ := Prod.mk.inj (Except.ok.inj h)
      exact ⟨.number trivial, .number depth n⟩
    · split at h
      · cases h
      · rename_i d
        obtain ⟨⟨items, later⟩, hitems, h⟩ := Outcome.of_bind h
        obtain ⟨rfl, -⟩ := Prod.mk.inj (Except.ok.inj h)
        have hinner : ∀ w ∈ items, Ordered (fun _ => True) w ∧ Shallow d w := by
          intro w hw
          obtain ⟨-, before, after, hitem⟩ := exists_of_mem_readItems hitems w hw
          exact inner _ rfl w before after hitem
        exact ⟨.array fun w hw => (hinner w hw).1, .array fun w hw => (hinner w hw).2⟩
    · split at h
      · cases h
      · rename_i d
        obtain ⟨⟨members, later⟩, hmembers, h⟩ := Outcome.of_bind h
        obtain ⟨rfl, -⟩ := Prod.mk.inj (Except.ok.inj h)
        have hinner : ∀ m ∈ members, Ordered (fun _ => True) m.2 ∧ Shallow d m.2 := by
          intro m hm
          obtain ⟨before, after, hvalue⟩ := exists_of_mem_readMembers hmembers m hm
          exact inner _ rfl m.2 before after hvalue
        exact ⟨ofMembers_ordered fun m hm => (hinner m hm).1,
          .object (values_ofList fun m hm => (hinner m hm).2)⟩
    · cases h

/-- Whatever is read has the members of its objects in order, and is nested no deeper than the reader
goes. -/
theorem readValue_ordered {depth : Nat} {v : Json} (h : readValue depth bytes = .ok (v, rest)) :
    Ordered (fun _ => True) v ∧ Shallow depth v := by
  induction depth generalizing bytes v rest with
  | zero => exact ordered_of_inner (fun d hd => absurd hd.symm (Nat.succ_ne_zero d)) h
  | succ depth ih =>
      refine ordered_of_inner (fun d hd v before after hinner => ?_) h
      obtain rfl := Nat.succ.inj hd
      exact ih hinner

end Reading

/-- A given value is read off some bytes in front of a delimiter, and no more is read. -/
def ReadsBack {α : Type} (item : Reader α) (bytes : Bytes) (v : α) : Prop :=
  ∀ rest, Delimited rest → item (bytes ++ rest) = .ok (v, rest)

/-- The bytes begin with neither white space nor the end of an array. -/
def Begins (bytes : Bytes) : Prop := ∃ b tail, bytes = b :: tail ∧ isSpace b = false ∧ b ≠ 0x5D

/-- Parts of an array or of an object with a comma in front of each, but for the first one. -/
def series {α : Type} (write : α → Bytes) : Bool → List α → Bytes
  | _, [] => []
  | true, v :: vs => write v ++ series write false vs
  | false, v :: vs => 0x2C :: write v ++ series write false vs

section Parts

variable {α β : Type} {write : α → Bytes} {first : Bool} {rest : Bytes} {fuel index : Nat}

theorem delimited_series {close : UInt8} (hclose : close = 0x5D ∨ close = 0x7D) (vs : List α) :
    Delimited (series write false vs ++ close :: rest) := by
  intro b hb
  cases vs with
  | nil =>
      obtain rfl := Option.some.inj hb
      exact .inr hclose
  | cons v vs =>
      obtain rfl := Option.some.inj hb
      exact .inl rfl

theorem series_congr {write' : β → Bytes} {l : List α} {l' : List β}
    (h : List.Forall₂ (fun a b => write a = write' b) l l') : series write first l = series write' first l' := by
  induction h generalizing first with
  | nil => cases first <;> rfl
  | cons hfirst hrest ih => cases first <;> simp [series, hfirst, @ih false]

/-- Each part takes up a byte at least. -/
theorem length_le_series {vs : List α} (h : ∀ v ∈ vs, write v ≠ []) :
    vs.length ≤ (series write first vs).length := by
  induction vs generalizing first with
  | nil => exact Nat.le_refl 0
  | cons v vs ih =>
      obtain ⟨hv, hrest⟩ := List.forall_mem_cons.1 h
      have hone := List.length_pos_iff.2 hv
      have hothers := @ih false hrest
      cases first with
      | true =>
          rw [series, List.length_append, List.length_cons]
          omega
      | false =>
          rw [series, List.length_append, List.length_cons, List.length_cons]
          omega

theorem Begins.ne_nil {bytes : Bytes} (h : Begins bytes) : bytes ≠ [] := by
  obtain ⟨b, tail, rfl, -, -⟩ := h
  exact List.cons_ne_nil b tail

theorem skipSpace_of_begins {bytes : Bytes} (h : Begins bytes) (rest : Bytes) :
    skipSpace (bytes ++ rest) = bytes ++ rest := by
  obtain ⟨b, tail, rfl, hb, -⟩ := h
  exact List.dropWhile_cons_of_neg (by rw [hb]; exact Bool.false_ne_true)

/-- One more item is found where it begins. -/
theorem nextItem_series {v : α} {vs : List α} (h : Begins (write v)) :
    nextItem first (series write first (v :: vs) ++ rest) =
      .ok (true, write v ++ (series write false vs ++ rest)) := by
  have hspace := skipSpace_of_begins h (series write false vs ++ rest)
  obtain ⟨b, tail, hb, -, hend⟩ := h
  rw [hb, List.cons_append] at hspace
  cases first with
  | true =>
      rw [series, hb, List.append_assoc, List.cons_append]
      simp [nextItem, hspace]
  | false =>
      have hcomma : skipSpace (0x2C :: b :: (tail ++ (series write false vs ++ rest))) =
          0x2C :: b :: (tail ++ (series write false vs ++ rest)) := rfl
      rw [series, hb, List.append_assoc, List.cons_append, List.cons_append]
      simp [nextItem, hcomma, hspace, hend]

/-- The items of an array are read up to its end. -/
theorem readItems_series {item : Nat → Reader β} {value : α → β} {parts : List α}
    (hitems : ∀ p ∈ parts, Begins (write p) ∧ ∀ i, ReadsBack (item i) (write p) (value p))
    (hfuel : parts.length < fuel) :
    readItems item fuel index first (series write first parts ++ 0x5D :: rest) =
      .ok (parts.map value, rest) := by
  induction parts generalizing fuel index first with
  | nil =>
      obtain ⟨fuel, rfl⟩ := Nat.exists_eq_add_one.2 hfuel
      rfl
  | cons p parts ih =>
      obtain ⟨⟨hbegins, hreads⟩, hrest⟩ := List.forall_mem_cons.1 hitems
      obtain ⟨fuel, rfl⟩ := Nat.exists_eq_add_one.2 (Nat.zero_lt_of_lt hfuel)
      have hv := hreads index _ (@delimited_series _ write rest _ (.inl rfl) parts)
      have hvs := @ih false fuel (index + 1) hrest (Nat.lt_of_succ_lt_succ hfuel)
      rw [readItems, nextItem_series hbegins]
      simp only [within, bind, Except.bind, hv, hvs, pure, Except.pure, if_true, List.map_cons]

/-- A member as it is written. -/
def memberBytes (key : α → String) (write : α → Bytes) (m : α) : Bytes :=
  Text.utf8Chars (writeString (key m)) ++ 0x3A :: write m

/-- One more key is read up to the colon. -/
theorem nextKey?_series {key : α → String} {m : α} {ms : List α} :
    nextKey? first (series (memberBytes key write) first (m :: ms) ++ rest) =
      .ok (some (key m), 0x3A :: write m ++ (series (memberBytes key write) false ms ++ rest)) := by
  have hread := readString_escaped (key m)
    (0x3A :: write m ++ (series (memberBytes key write) false ms ++ rest))
  have hmember : memberBytes key write m ++ (series (memberBytes key write) false ms ++ rest) =
      0x22 :: (Text.utf8Chars ((key m).toList.flatMap escapeChar) ++
        0x22 :: (0x3A :: write m ++ (series (memberBytes key write) false ms ++ rest))) := by
    rw [memberBytes, utf8Chars_writeString]
    simp
  cases first with
  | true =>
      rw [series, List.append_assoc, hmember]
      change (readString _ >>= fun p => pure (some p.1, p.2)) = _
      rw [hread]
      rfl
  | false =>
      rw [series, List.append_assoc, List.cons_append, hmember]
      change (readString _ >>= fun p => pure (some p.1, p.2)) = _
      rw [hread]
      rfl

theorem memberBytes_ne_nil (key : α → String) (write : α → Bytes) (m : α) :
    memberBytes key write m ≠ [] := by
  rw [memberBytes]
  exact List.append_ne_nil_of_right_ne_nil _ (List.cons_ne_nil _ _)

/-- The members of an object are read up to its end. -/
theorem readMembers_series {item : String → Reader β} {key : α → String} {value : α → β}
    {parts : List α} (hvalues : ∀ p ∈ parts, ReadsBack (item (key p)) (write p) (value p))
    (hfuel : parts.length < fuel) :
    readMembers item fuel first (series (memberBytes key write) first parts ++ 0x7D :: rest) =
      .ok (parts.map fun p => (key p, value p), rest) := by
  induction parts generalizing fuel first with
  | nil =>
      obtain ⟨fuel, rfl⟩ := Nat.exists_eq_add_one.2 hfuel
      rfl
  | cons p parts ih =>
      obtain ⟨hreads, hrest⟩ := List.forall_mem_cons.1 hvalues
      obtain ⟨fuel, rfl⟩ := Nat.exists_eq_add_one.2 (Nat.zero_lt_of_lt hfuel)
      have hv := hreads _ (@delimited_series _ (memberBytes key write) rest _ (.inr rfl) parts)
      have hms := @ih false fuel hrest (Nat.lt_of_succ_lt_succ hfuel)
      have hcolon (bytes : Bytes) : readColon (0x3A :: bytes) = .ok bytes := rfl
      rw [readMembers, nextKey?_series]
      simp only [List.cons_append, within, bind, Except.bind, hcolon, hv, hms, pure, Except.pure,
        List.map_cons]

end Parts

end PrivatePresentation.Json
