import Mathlib
import PrivatePresentation.Service.Store

/-!
Laws of stores.  What is looked up is what stands under the key, and what is taken out and what stays
are together what was there.
-/

namespace PrivatePresentation.Store

variable {K V : Type}

/-- Draining parts the values. -/
theorem perm_drain (s : Store K V) (p : V → Bool) :
    ((s.drain p).1 ++ (s.drain p).2.values).Perm s.values := by
  rw [drain, values, values, ← List.map_append]
  exact (List.filter_append_perm (fun e => p e.2) s.entries).map Prod.snd

theorem mem_keys_of_mem {s : Store K V} {key : K} {v : V} (hmem : (key, v) ∈ s.entries) :
    key ∈ s.keys :=
  List.mem_map.2 ⟨(key, v), hmem, rfl⟩

theorem exists_of_mem_keys {s : Store K V} {key : K} (hkey : key ∈ s.keys) :
    ∃ v, (key, v) ∈ s.entries := by
  obtain ⟨⟨k, v⟩, hmem, rfl⟩ := List.mem_map.1 hkey
  exact ⟨v, hmem⟩

/-- A key has one value. -/
theorem value_unique {s : Store K V} {key : K} {v w : V} (hv : (key, v) ∈ s.entries)
    (hw : (key, w) ∈ s.entries) : v = w := by
  have heq := List.inj_on_of_nodup_map s.nodup hv hw rfl
  exact (Prod.mk.inj heq).2

/-- A test that every entry passes takes nothing out. -/
theorem keep_eq_self {s : Store K V} {p : K × V → Bool} (hp : ∀ e ∈ s.entries, p e = true) :
    s.keep p = s := by
  obtain ⟨entries, nodup⟩ := s
  rw [keep, Store.mk.injEq]
  exact List.filter_eq_self.2 hp

variable [DecidableEq K] {s : Store K V} {key k : K} {value v : V}

theorem get?_eq_some_iff : s.get? key = some v ↔ (key, v) ∈ s.entries := by
  constructor
  · intro hget
    obtain ⟨⟨k, w⟩, hfind, rfl⟩ := Option.map_eq_some_iff.1 hget
    have hkey : k = key := by simpa using List.find?_some hfind
    rw [← hkey]
    exact List.mem_of_find?_eq_some hfind
  · intro hmem
    cases hfind : s.entries.find? (·.1 == key) with
    | none =>
        have hne := List.find?_eq_none.1 hfind (key, v) hmem
        simp at hne
    | some e =>
        obtain ⟨k, w⟩ := e
        have hkey : k = key := by simpa using List.find?_some hfind
        have hold : (key, w) ∈ s.entries := hkey ▸ List.mem_of_find?_eq_some hfind
        rw [get?, hfind, value_unique hmem hold]
        rfl

theorem get?_eq_none_iff : s.get? key = none ↔ key ∉ s.keys := by
  constructor
  · intro hnone hkey
    obtain ⟨v, hmem⟩ := exists_of_mem_keys hkey
    rw [get?_eq_some_iff.2 hmem] at hnone
    exact nomatch hnone
  · intro hkey
    rw [Option.eq_none_iff_forall_ne_some]
    exact fun v hget => hkey (mem_keys_of_mem (get?_eq_some_iff.1 hget))

/-- What is kept is looked up as before. -/
theorem get?_keep {p : K × V → Bool} :
    (s.keep p).get? key = some v ↔ s.get? key = some v ∧ p (key, v) = true := by
  rw [get?_eq_some_iff, get?_eq_some_iff]
  exact List.mem_filter

theorem mem_filter_entries (s : Store K V) (p : V → Bool) :
    (key, v) ∈ s.entries.filter (fun e => p e.2) ↔ s.get? key = some v ∧ p v = true := by
  rw [get?_eq_some_iff]
  exact List.mem_filter

/-- The values that pass the test are drained. -/
theorem mem_drain (s : Store K V) (p : V → Bool) :
    v ∈ (s.drain p).1 ↔ ∃ key, s.get? key = some v ∧ p v = true := by
  rw [drain, List.mem_map]
  constructor
  · rintro ⟨⟨key, v⟩, he, rfl⟩
    exact ⟨key, (s.mem_filter_entries p).1 he⟩
  · rintro ⟨key, hv⟩
    exact ⟨(key, v), (s.mem_filter_entries p).2 hv, rfl⟩

/-- There are as many of them as there are keys under which they stand. -/
theorem exists_drained (s : Store K V) (p : V → Bool) : ∃ keys : List K, keys.Nodup ∧
    (∀ key, key ∈ keys ↔ ∃ v, s.get? key = some v ∧ p v = true) ∧
    (s.drain p).1.length = keys.length := by
  refine ⟨(s.entries.filter fun e => p e.2).map Prod.fst, nodup_filter _ s.nodup, fun key => ?_, ?_⟩
  · rw [List.mem_map]
    constructor
    · rintro ⟨⟨key, v⟩, he, rfl⟩
      exact ⟨v, (s.mem_filter_entries p).1 he⟩
    · rintro ⟨v, hv⟩
      exact ⟨(key, v), (s.mem_filter_entries p).2 hv, rfl⟩
  · rw [drain, List.length_map, List.length_map]

/-- The others stay under their keys. -/
theorem get?_drain (s : Store K V) (p : V → Bool) :
    (s.drain p).2.get? key = some v ↔ s.get? key = some v ∧ p v = false := by
  refine get?_keep.trans (and_congr_right' ?_)
  rw [Bool.not_eq_true']

/-- Where no value passes the test, nothing is drained. -/
theorem drain_eq_self {p : V → Bool} (hp : ∀ key v, s.get? key = some v → p v = false) :
    s.drain p = ([], s) := by
  have hentries : ∀ e ∈ s.entries, p e.2 = false := fun e he => hp e.1 e.2 (get?_eq_some_iff.2 he)
  have hdrained : s.entries.filter (fun e => p e.2) = [] := by
    rw [List.filter_eq_nil_iff]
    exact fun e he => Bool.eq_false_iff.1 (hentries e he)
  have hkept : s.keep (fun e => !p e.2) = s := by
    refine keep_eq_self fun e he => ?_
    rw [Bool.not_eq_true']
    exact hentries e he
  rw [drain, hdrained, hkept, List.map_nil]

theorem filter_ne_of_not_mem {entries : List (K × V)} (hkey : key ∉ entries.map Prod.fst) :
    entries.filter (fun e => e.1 != key) = entries := by
  rw [List.filter_eq_self]
  intro e he
  rw [bne_iff_ne]
  rintro rfl
  exact hkey (List.mem_map.2 ⟨e, he, rfl⟩)

theorem perm_cons_filter {entries : List (K × V)} (hnodup : (entries.map Prod.fst).Nodup)
    (hmem : (key, v) ∈ entries) : ((key, v) :: entries.filter (fun e => e.1 != key)).Perm entries := by
  induction entries with
  | nil => exact absurd hmem List.not_mem_nil
  | cons e rest ih =>
      obtain ⟨hnew, hrest⟩ := List.nodup_cons.1 hnodup
      rcases List.mem_cons.1 hmem with rfl | hmem
      · rw [List.filter_cons_of_neg (by simp), filter_ne_of_not_mem hnew]
      · have hne : e.1 ≠ key := by
          rintro rfl
          exact hnew (List.mem_map.2 ⟨_, hmem, rfl⟩)
        rw [List.filter_cons_of_pos (by simpa using hne)]
        exact (List.Perm.swap e (key, v) _).trans ((ih hrest hmem).cons e)

/-- A value that is taken out and those that stay are those that were there. -/
theorem perm_erase (hget : s.get? key = some v) : (v :: (s.erase key).values).Perm s.values :=
  (perm_cons_filter s.nodup (get?_eq_some_iff.1 hget)).map Prod.snd

theorem get?_erase_of_ne (hne : k ≠ key) : (s.erase key).get? k = s.get? k := by
  refine Option.ext fun v => ?_
  rw [erase, get?_keep, bne_iff_ne]
  exact and_iff_left hne

theorem get?_erase (s : Store K V) (key k : K) :
    (s.erase key).get? k = if k = key then none else s.get? k := by
  split
  · rename_i heq
    rw [heq]
    exact get?_eq_none_iff.2 (s.not_mem_erase key)
  · rename_i hne
    exact get?_erase_of_ne hne

theorem get?_insert (s : Store K V) (key k : K) (value : V) :
    (s.insert key value).get? k = if k = key then some value else s.get? k := by
  split
  · rename_i heq
    rw [heq, get?_eq_some_iff]
    exact List.mem_cons_self
  · rename_i hne
    refine Option.ext fun v => ?_
    rw [get?_eq_some_iff, get?_eq_some_iff]
    simp [insert, erase, keep, hne]

/-- A value under a new key is added to the others. -/
theorem entries_insert (hkey : key ∉ s.keys) :
    (s.insert key value).entries = (key, value) :: s.entries :=
  congrArg ((key, value) :: ·) (filter_ne_of_not_mem hkey)

end PrivatePresentation.Store
