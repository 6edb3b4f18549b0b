import Mathlib.Data.List.Forall2

/-!
Inversion of runs.  One that succeeds has passed every guard and got something of each part; one that
fails has the fault of a guard or of a part.
-/

namespace PrivatePresentation.Outcome

variable {ε ε' α β : Type}

theorem of_bind {m : Except ε α} {g : α → Except ε β} {b : β} (h : (m >>= g) = .ok b) :
    ∃ a, m = .ok a ∧ g a = .ok b := by
  cases m with
  | error e => exact nomatch h
  | ok a => exact ⟨a, rfl, h⟩

theorem of_mapError {f : ε → ε'} {m : Except ε α} {a : α} (h : m.mapError f = .ok a) :
    m = .ok a := by
  cases m with
  | error e => exact nomatch h
  | ok b => exact congrArg Except.ok (Except.ok.inj h)

theorem of_map {f : α → β} {m : Except ε α} {b : β} (h : m.map f = .ok b) :
    ∃ a, m = .ok a ∧ f a = b := by
  cases m with
  | error e => exact nomatch h
  | ok a => exact ⟨a, rfl, Except.ok.inj h⟩

theorem of_toOption {m : Except ε α} {a : α} (h : m.toOption = some a) : m = .ok a := by
  cases m with
  | error e => exact nomatch h
  | ok b => exact congrArg Except.ok (Option.some.inj h)

/-- A guard has been passed. -/
theorem of_guard {p : Prop} [Decidable p] {e : ε} {m : Except ε α} {a : α}
    (h : (if p then .error e else m) = .ok a) : ¬p ∧ m = .ok a := by
  split at h
  · exact nomatch h
  · rename_i hp
    exact ⟨hp, h⟩

theorem of_guard_else {p : Prop} [Decidable p] {e : ε} {m : Except ε α} {a : α}
    (h : (if p then m else .error e) = .ok a) : p ∧ m = .ok a := by
  split at h
  · rename_i hp
    exact ⟨hp, h⟩
  · exact nomatch h

theorem of_dite {p : Prop} [Decidable p] {e : ε} {m : p → Except ε α} {a : α}
    (h : (if hp : p then m hp else .error e) = .ok a) : ∃ hp, m hp = .ok a := by
  split at h
  · rename_i hp
    exact ⟨hp, h⟩
  · exact nomatch h

theorem bind_eq_ok {m : Except ε α} {g : α → Except ε β} {a : α} {b : β} (hm : m = .ok a)
    (hg : g a = .ok b) : (m >>= g) = .ok b := by
  rw [hm]
  exact hg

theorem guard_eq_ok {p : Prop} [Decidable p] {e : ε} {m : Except ε α} {a : α} (hp : ¬p)
    (hm : m = .ok a) : (if p then .error e else m) = .ok a :=
  (if_neg hp).trans hm

theorem error_of_bind {m : Except ε α} {g : α → Except ε β} {e : ε} (h : (m >>= g) = .error e) :
    m = .error e ∨ ∃ a, m = .ok a ∧ g a = .error e := by
  cases m with
  | error e' => exact Or.inl (congrArg Except.error (Except.error.inj h))
  | ok a => exact Or.inr ⟨a, rfl, h⟩

theorem error_of_mapError {f : ε → ε'} {m : Except ε α} {e : ε'} (h : m.mapError f = .error e) :
    ∃ e', m = .error e' ∧ f e' = e := by
  cases m with
  | error e' => exact ⟨e', rfl, Except.error.inj h⟩
  | ok a => exact nomatch h

theorem error_of_guard {p : Prop} [Decidable p] {e e' : ε} {m : Except ε α}
    (h : (if p then .error e else m) = .error e') : (p ∧ e = e') ∨ (¬p ∧ m = .error e') := by
  split at h
  · rename_i hp
    exact Or.inl ⟨hp, Except.error.inj h⟩
  · rename_i hp
    exact Or.inr ⟨hp, h⟩

theorem exists_forall₂ {r : α → β → Prop} {l : List α} :
    (∃ bs, List.Forall₂ r l bs) ↔ ∀ a ∈ l, ∃ b, r a b := by
  induction l with
  | nil => exact iff_of_true ⟨[], .nil⟩ fun a ha => absurd ha List.not_mem_nil
  | cons a rest ih =>
      rw [List.forall_mem_cons, ← ih]
      constructor
      · rintro ⟨bs, hbs⟩
        cases hbs with
        | cons hb hrest => exact ⟨⟨_, hb⟩, _, hrest⟩
      · rintro ⟨⟨b, hb⟩, bs, hbs⟩
        exact ⟨b :: bs, .cons hb hbs⟩

theorem rel_getElem? {r : α → β → Prop} {l : List α} {bs : List β} (h : List.Forall₂ r l bs)
    (i : Nat) : Option.Rel r l[i]? bs[i]? := by
  induction h generalizing i with
  | nil => exact .none
  | cons hfirst hrest ih =>
      cases i with
      | zero => exact .some hfirst
      | succ i => exact ih i

theorem getElem?_of_forall₂ {r : α → β → Prop} {l : List α} {bs : List β}
    (h : List.Forall₂ r l bs) {i : Nat} {a : α} (ha : l[i]? = some a) :
    ∃ b, bs[i]? = some b ∧ r a b := by
  obtain ⟨hi, rfl⟩ := List.getElem?_eq_some_iff.1 ha
  have hi' : i < bs.length := h.length_eq ▸ hi
  exact ⟨bs[i], List.getElem?_eq_getElem hi', h.get hi hi'⟩

theorem exists_of_mem_forall₂ {r : α → β → Prop} {l : List α} {bs : List β}
    (h : List.Forall₂ r l bs) : ∀ b ∈ bs, ∃ a ∈ l, r a b := by
  intro b hb
  obtain ⟨i, hi⟩ := List.getElem?_of_mem hb
  obtain ⟨a, ha, hab⟩ := getElem?_of_forall₂ h.flip hi
  exact ⟨a, List.mem_of_getElem? ha, hab⟩

section Parts

variable {f g : α → Except ε β}

/-- A list of parts comes to the results of its parts, in their order. -/
theorem mapM_eq_ok_iff {l : List α} {bs : List β} :
    l.mapM f = .ok bs ↔ List.Forall₂ (fun a b => f a = .ok b) l bs := by
  induction l generalizing bs with
  | nil =>
      rw [List.forall₂_nil_left_iff]
      exact ⟨fun h => (Except.ok.inj h).symm, fun h => h ▸ rfl⟩
  | cons a rest ih =>
      rw [List.mapM_cons]
      constructor
      · intro h
        obtain ⟨b, hb, h⟩ := of_bind h
        obtain ⟨others, hothers, h⟩ := of_bind h
        obtain rfl := Except.ok.inj h
        exact .cons hb (ih.1 hothers)
      · intro h
        cases h with
        | cons hb hothers =>
            rw [hb, ih.2 hothers]
            rfl

/-- The first part that fails has the fault. -/
theorem mapM_error_iff {l : List α} {e : ε} :
    l.mapM f = .error e ↔ ∃ before a after, l = before ++ a :: after ∧ f a = .error e ∧
      ∀ b ∈ before, ∃ y, f b = .ok y := by
  induction l with
  | nil =>
      constructor
      · intro h
        cases h
      · rintro ⟨before, a, after, hsplit, -⟩
        exact absurd hsplit.symm (List.append_ne_nil_of_right_ne_nil _ (List.cons_ne_nil _ _))
  | cons a rest ih =>
      rw [List.mapM_cons]
      constructor
      · intro h
        rcases error_of_bind h with ha | ⟨b, hb, h⟩
        · exact ⟨[], a, rest, rfl, ha, fun b hb => absurd hb List.not_mem_nil⟩
        · rcases error_of_bind h with h | ⟨bs, -, h⟩
          · obtain ⟨before, a', after, rfl, ha', hbefore⟩ := ih.1 h
            exact ⟨a :: before, a', after, rfl, ha', List.forall_mem_cons.2 ⟨⟨b, hb⟩, hbefore⟩⟩
          · cases h
      · rintro ⟨before, a', after, hsplit, ha', hbefore⟩
        cases before with
        | nil =>
            obtain ⟨rfl, rfl⟩ := List.cons.inj hsplit
            rw [ha']
            rfl
        | cons b before =>
            obtain ⟨rfl, rfl⟩ := List.cons.inj hsplit
            obtain ⟨⟨y, hy⟩, hothers⟩ := List.forall_mem_cons.1 hbefore
            rw [hy, ih.2 ⟨before, a', after, rfl, ha', hothers⟩]
            rfl

/-- All parts come to something exactly if each does. -/
theorem exists_mapM_iff {l : List α} : (∃ bs, l.mapM f = .ok bs) ↔ ∀ a ∈ l, ∃ b, f a = .ok b := by
  rw [← exists_forall₂]
  exact exists_congr fun bs => mapM_eq_ok_iff

theorem error_of_mapM {l : List α} {e : ε} (hf : l.mapM f = .error e) : ∃ a ∈ l, f a = .error e := by
  obtain ⟨before, a, after, rfl, ha, -⟩ := mapM_error_iff.1 hf
  exact ⟨a, List.mem_append_right before List.mem_cons_self, ha⟩

theorem mapM_congr {l : List α} (h : ∀ a ∈ l, f a = g a) : l.mapM f = l.mapM g := by
  induction l with
  | nil => rfl
  | cons a rest ih =>
      obtain ⟨ha, hrest⟩ := List.forall_mem_cons.1 h
      rw [List.mapM_cons, List.mapM_cons, ha, ih hrest]

theorem mapM_eq_ok {h : α → β} {l : List α} (hf : ∀ a ∈ l, f a = .ok (h a)) :
    l.mapM f = .ok (l.map h) := by
  rw [mapM_eq_ok_iff, List.forall₂_map_right_iff, List.forall₂_same]
  exact hf

/-- The parts come to as many results as there are parts, in their order. -/
theorem getElem?_of_mapM {l : List α} {bs : List β} (hf : l.mapM f = .ok bs) {i : Nat} {a : α}
    (ha : l[i]? = some a) : ∃ b, bs[i]? = some b ∧ f a = .ok b :=
  getElem?_of_forall₂ (mapM_eq_ok_iff.1 hf) ha

theorem length_of_mapM {l : List α} {bs : List β} (hf : l.mapM f = .ok bs) :
    bs.length = l.length :=
  (mapM_eq_ok_iff.1 hf).length_eq.symm

/-- What a list of parts comes to tells what each part comes to. -/
theorem mapM_inj {l : List α} {bs : List β} (hf : l.mapM f = .ok bs) (hg : l.mapM g = .ok bs) :
    ∀ a ∈ l, ∃ b, f a = .ok b ∧ g a = .ok b := by
  intro a ha
  obtain ⟨i, hi⟩ := List.getElem?_of_mem ha
  obtain ⟨b, hb, hfa⟩ := getElem?_of_mapM hf hi
  obtain ⟨b', hb', hga⟩ := getElem?_of_mapM hg hi
  obtain rfl := Option.some.inj (hb.symm.trans hb')
  exact ⟨b, hfa, hga⟩

/-- Parts that come to given results one by one come to all of them together. -/
theorem mapM_of_getElem? {l : List α} {bs : List β} (hlength : bs.length = l.length)
    (hf : ∀ (i : Nat) a, l[i]? = some a → ∃ b, bs[i]? = some b ∧ f a = .ok b) :
    l.mapM f = .ok bs := by
  refine mapM_eq_ok_iff.2 (List.forall₂_iff_get.2 ⟨hlength.symm, fun i hi hi' => ?_⟩)
  obtain ⟨b, hb, ha⟩ := hf i _ (List.getElem?_eq_getElem hi)
  obtain rfl := Option.some.inj ((List.getElem?_eq_getElem hi').symm.trans hb)
  exact ha

end Parts

end PrivatePresentation.Outcome
