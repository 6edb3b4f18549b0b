import Mathlib
import PrivatePresentation.Json.Basic

/-!
Members of objects.  What is added last under a key is what is found there, and members that are in
ascending order stay so, whatever the order they are added in.
-/

namespace PrivatePresentation.Json.Members

/-- The keys ascend. -/
def Ascending (members : Members) : Prop := members.Pairwise fun a b => a.1 < b.1

instance : DecidablePred Ascending := fun members =>
  inferInstanceAs (Decidable (members.Pairwise fun a b => a.1 < b.1))

variable {key k : String} {value : Json} {members added : Members}

theorem get?_eq_none_of_not_mem (hkey : ∀ e ∈ members, e.1 ≠ key) : get? key members = none := by
  induction members with
  | nil => rfl
  | cons e rest ih =>
      obtain ⟨k, v⟩ := e
      rw [get?, if_neg (hkey (k, v) List.mem_cons_self)]
      exact ih fun e he => hkey e (List.mem_cons_of_mem _ he)

/-- Whatever the order of the members, the one that has been added last is found. -/
theorem get?_insert :
    get? k (insert key value members) = if key = k then some value else get? k members := by
  induction members with
  | nil => rfl
  | cons e rest ih =>
      obtain ⟨k', v⟩ := e
      rw [insert]
      split
      · rfl
      · split
        · rename_i _ heq
          subst heq
          rw [get?, get?]
          split <;> rfl
        · rename_i _ hne
          rw [get?, ih, get?]
          by_cases hkey : key = k
          · subst hkey
            rw [if_neg (Ne.symm hne)]
            simp
          · rw [if_neg hkey, if_neg hkey]

theorem get?_insert_self : get? key (insert key value members) = some value := by
  rw [get?_insert, if_pos rfl]

theorem get?_insert_of_ne (hne : key ≠ k) :
    get? k (insert key value members) = get? k members := by
  rw [get?_insert, if_neg hne]

/-- The value of the last of some members that has a key. -/
def lastValue? {α : Type} (key : String) : List (String × α) → Option α
  | [] => none
  | (k, v) :: rest => (lastValue? key rest).or (if k = key then some v else none)

section Added

variable {added : List (String × Json)}

/-- Members that are added one by one replace those with their keys. -/
theorem get?_insertAll_eq (key : String) (members : Members) (added : List (String × Json)) :
    get? key (insertAll members added) = (lastValue? key added).or (get? key members) := by
  induction added generalizing members with
  | nil => rfl
  | cons e rest ih =>
      obtain ⟨k, v⟩ := e
      rw [insertAll, List.foldl_cons, ← insertAll, ih, get?_insert, lastValue?, Option.or_assoc]
      split <;> rfl

theorem get?_ofList (key : String) (added : List (String × Json)) :
    get? key (ofList added) = lastValue? key added := by
  have hadded := get?_insertAll_eq key [] added
  rwa [get?, Option.or_none] at hadded

theorem isSome_lastValue? {α : Type} {members : List (String × α)} :
    (lastValue? key members).isSome = members.any (·.1 == key) := by
  induction members with
  | nil => rfl
  | cons e rest ih =>
      rw [lastValue?, Option.isSome_or, ih, List.any_cons, Bool.or_comm]
      by_cases hkey : e.1 = key <;> simp [hkey]

theorem mem_of_lastValue? {α : Type} {value : α} {members : List (String × α)}
    (h : lastValue? key members = some value) : (key, value) ∈ members := by
  induction members with
  | nil => cases h
  | cons e rest ih =>
      rw [lastValue?, Option.or_eq_some_iff] at h
      rcases h with hrest | ⟨-, hfirst⟩
      · exact List.mem_cons_of_mem e (ih hrest)
      · rw [Option.ite_none_right_eq_some] at hfirst
        obtain ⟨rfl, hvalue⟩ := hfirst
        obtain rfl := Option.some.inj hvalue
        exact List.mem_cons_self

/-- Members in order have different keys, so the last one with a key is the first. -/
theorem lastValue?_eq_get? (hmembers : Ascending members) : lastValue? key members = get? key members := by
  induction members with
  | nil => rfl
  | cons e rest ih =>
      obtain ⟨k, v⟩ := e
      obtain ⟨hfirst, hrest⟩ := List.pairwise_cons.1 hmembers
      rw [lastValue?, ih hrest, get?]
      by_cases hkey : k = key
      · subst hkey
        rw [get?_eq_none_of_not_mem fun e he => (hfirst e he).ne', Option.none_or, if_pos rfl]
      · rw [if_neg hkey, if_neg hkey, Option.or_none]

/-- Of members with different keys, those that are added win. -/
theorem get?_insertAll {added : Members} (hadded : Ascending added) :
    get? k (insertAll members added) = (get? k added).or (get? k members) := by
  rw [get?_insertAll_eq, lastValue?_eq_get? hadded]

theorem get?_insertAll_of_not_contains (hkey : contains key added = false) :
    get? key (insertAll members added) = get? key members := by
  rw [contains, ← isSome_lastValue?, Option.isSome_eq_false_iff, Option.isNone_iff_eq_none] at hkey
  rw [get?_insertAll_eq, hkey, Option.none_or]

/-- What is added decides alone on its keys. -/
theorem get?_insertAll_of_contains (hkey : contains key added = true) (members members' : Members) :
    get? key (insertAll members added) = get? key (insertAll members' added) := by
  rw [contains, ← isSome_lastValue?, Option.isSome_iff_exists] at hkey
  obtain ⟨value, hvalue⟩ := hkey
  rw [get?_insertAll_eq, get?_insertAll_eq, hvalue, Option.some_or, Option.some_or]

/-- What is found under an added key is among the added members. -/
theorem exists_mem_get?_insertAll (hkey : contains key added = true) (members : Members) :
    ∃ value, (key, value) ∈ added ∧ get? key (insertAll members added) = some value := by
  rw [contains, ← isSome_lastValue?, Option.isSome_iff_exists] at hkey
  obtain ⟨value, hvalue⟩ := hkey
  refine ⟨value, mem_of_lastValue? hvalue, ?_⟩
  rw [get?_insertAll_eq, hvalue, Option.some_or]

end Added

theorem get?_filter (p : String → Bool) (members : Members) :
    get? key (members.filter fun e => p e.1) = if p key then get? key members else none := by
  induction members with
  | nil => simp [get?]
  | cons e rest ih =>
      rw [List.filter_cons, get?]
      by_cases hp : p e.1 = true
      · rw [if_pos hp, get?, ih]
        by_cases hkey : e.1 = key
        · rw [if_pos hkey, if_pos hkey, if_pos (hkey ▸ hp)]
        · rw [if_neg hkey, if_neg hkey]
      · rw [if_neg hp, ih]
        by_cases hkey : e.1 = key
        · rw [if_neg (hkey ▸ hp), if_neg (hkey ▸ hp)]
        · rw [if_neg hkey]

theorem mem_insert {e : String × Json} (he : e ∈ insert key value members) : e = (key, value) ∨ e ∈ members := by
  induction members with
  | nil => exact Or.inl (List.mem_singleton.1 he)
  | cons e' rest ih =>
      obtain ⟨k', v⟩ := e'
      rw [insert] at he
      split at he
      · rcases List.mem_cons.1 he with rfl | he
        · exact Or.inl rfl
        · exact Or.inr he
      · split at he
        · rcases List.mem_cons.1 he with rfl | he
          · exact Or.inl rfl
          · exact Or.inr (List.mem_cons_of_mem _ he)
        · rcases List.mem_cons.1 he with rfl | he
          · exact Or.inr List.mem_cons_self
          · exact (ih he).imp_right (List.mem_cons_of_mem _)

theorem mem_of_mem_insertAll {added : List (String × Json)} {e : String × Json}
    (he : e ∈ insertAll members added) : e ∈ added ∨ e ∈ members := by
  induction added generalizing members with
  | nil => exact .inr he
  | cons e' rest ih =>
      rcases ih he with hrest | hold
      · exact .inl (List.mem_cons_of_mem _ hrest)
      · rcases mem_insert hold with rfl | hold
        · exact .inl List.mem_cons_self
        · exact .inr hold

theorem Ascending.insert (hmembers : Ascending members) :
    Ascending (Members.insert key value members) := by
  induction members with
  | nil => exact List.pairwise_singleton _ _
  | cons e rest ih =>
      obtain ⟨k', v⟩ := e
      obtain ⟨hfirst, hrest⟩ := List.pairwise_cons.1 hmembers
      rw [Members.insert]
      split
      · rename_i hlt
        refine List.pairwise_cons.2 ⟨fun e he => ?_, hmembers⟩
        rcases List.mem_cons.1 he with rfl | he
        · exact hlt
        · exact hlt.trans (hfirst e he)
      · split
        · rename_i _ heq
          subst heq
          exact List.pairwise_cons.2 ⟨hfirst, hrest⟩
        · rename_i hnot hne
          refine List.pairwise_cons.2 ⟨fun e he => ?_, ih hrest⟩
          rcases mem_insert he with rfl | he
          · exact lt_of_le_of_ne (not_lt.1 hnot) (Ne.symm hne)
          · exact hfirst e he

theorem Ascending.insertAll {added : List (String × Json)} (hmembers : Ascending members) :
    Ascending (Members.insertAll members added) := by
  induction added generalizing members with
  | nil => exact hmembers
  | cons e rest ih => exact ih hmembers.insert

theorem insert_perm (hkey : key ∉ members.map Prod.fst) :
    (insert key value members).Perm ((key, value) :: members) := by
  induction members with
  | nil => exact .refl _
  | cons e rest ih =>
      obtain ⟨k, v⟩ := e
      rw [List.map_cons, List.mem_cons, not_or] at hkey
      rw [insert]
      split
      · exact .refl _
      · rw [if_neg hkey.1]
        exact ((ih hkey.2).cons (k, v)).trans (.swap _ _ _)

/-- Members with different keys are kept as they are, up to their order. -/
theorem insertAll_perm {acc : Members} {added : List (String × Json)}
    (hnodup : ((added ++ acc).map Prod.fst).Nodup) : (insertAll acc added).Perm (added ++ acc) := by
  induction added generalizing acc with
  | nil => exact .refl _
  | cons e rest ih =>
      rw [List.cons_append, List.map_cons, List.nodup_cons] at hnodup
      have hnew : e.1 ∉ acc.map Prod.fst := by
        intro h
        apply hnodup.1
        rw [List.map_append]
        exact List.mem_append_right _ h
      have hfirst := @insert_perm e.1 e.2 acc hnew
      have hmiddle : (rest ++ insert e.1 e.2 acc).Perm (e :: (rest ++ acc)) :=
        (hfirst.append_left rest).trans List.perm_middle
      have hrest : ((rest ++ insert e.1 e.2 acc).map Prod.fst).Nodup :=
        (hmiddle.map Prod.fst).nodup_iff.2 (List.nodup_cons.2 hnodup)
      exact (ih hrest).trans hmiddle

/-- Members in order come out of any arrangement of them. -/
theorem ofList_eq_of_perm {ms : List (String × Json)} (hperm : ms.Perm members)
    (hmembers : Ascending members) : ofList ms = members := by
  have hnodup : (ms.map Prod.fst).Nodup :=
    (hperm.map Prod.fst).nodup_iff.2 ((List.pairwise_map.2 hmembers).imp fun h => h.ne)
  have hsame : (ofList ms).Perm members := by
    have hkept := @insertAll_perm [] ms (by rwa [List.append_nil])
    rw [List.append_nil] at hkept
    exact hkept.trans hperm
  exact hsame.eq_of_pairwise (fun a b _ _ hab hba => absurd hab (lt_asymm hba))
    (Ascending.insertAll .nil) hmembers

/-- Of members in order, those in front of one are those with a smaller key. -/
theorem Ascending.mem_front_iff {front back : Members} {m : String × Json}
    (hmembers : Ascending (front ++ (key, value) :: back)) (hm : m ∈ front ++ (key, value) :: back) :
    m ∈ front ↔ m.1 < key := by
  obtain ⟨-, hback, hacross⟩ := List.pairwise_append.1 hmembers
  constructor
  · intro hfront
    exact hacross m hfront _ List.mem_cons_self
  · intro hlt
    rcases List.mem_append.1 hm with hfront | hrest
    · exact hfront
    · rcases List.mem_cons.1 hrest with rfl | hrest
      · exact absurd hlt (lt_irrefl _)
      · exact absurd hlt (lt_asymm ((List.pairwise_cons.1 hback).1 m hrest))

end PrivatePresentation.Json.Members
