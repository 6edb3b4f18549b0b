/-!
Stores: finite maps from keys to values. Every key occurs once; a drain removes at once all values
that pass a test.
-/

namespace PrivatePresentation

/-- A finite map. -/
structure Store (K V : Type) where
  entries : List (K × V)
  nodup : (entries.map Prod.fst).Nodup
deriving Repr

namespace Store

variable {K V : Type}

/-- The store without entries. -/
def empty : Store K V := ⟨[], List.nodup_nil⟩

instance : EmptyCollection (Store K V) := ⟨empty⟩

instance : Inhabited (Store K V) := ⟨empty⟩

/-- The keys of a part of a list without repetition are without repetition. -/
theorem nodup_filter {entries : List (K × V)} (p : K × V → Bool)
    (h : (entries.map Prod.fst).Nodup) : ((entries.filter p).map Prod.fst).Nodup :=
  h.sublist (List.filter_sublist.map Prod.fst)

/-- The entries that pass a test. -/
def keep (s : Store K V) (p : K × V → Bool) : Store K V :=
  ⟨s.entries.filter p, nodup_filter p s.nodup⟩

/-- The number of entries. -/
def size (s : Store K V) : Nat := s.entries.length

/-- The keys. -/
def keys (s : Store K V) : List K := s.entries.map Prod.fst

/-- The values. -/
def values (s : Store K V) : List V := s.entries.map Prod.snd

/-- Removes the values that pass a test, and gives them. -/
def drain (s : Store K V) (p : V → Bool) : List V × Store K V :=
  ((s.entries.filter fun e => p e.2).map Prod.snd, s.keep fun e => !p e.2)

variable [DecidableEq K]

/-- The value of a key. -/
def get? (s : Store K V) (key : K) : Option V := (s.entries.find? (·.1 == key)).map (·.2)

/-- The store without a key. -/
def erase (s : Store K V) (key : K) : Store K V := s.keep fun e => e.1 != key

/-- A key is not among those that differ from it. -/
theorem not_mem_erase (s : Store K V) (key : K) : key ∉ (s.erase key).entries.map Prod.fst := by
  simp [erase, keep]

/-- Sets the value of a key. -/
def insert (s : Store K V) (key : K) (value : V) : Store K V where
  entries := (key, value) :: (s.erase key).entries
  nodup := List.nodup_cons.2 ⟨s.not_mem_erase key, (s.erase key).nodup⟩

/-- Removes a key, and gives its value. -/
def take (s : Store K V) (key : K) : Option V × Store K V := (s.get? key, s.erase key)

end Store
end PrivatePresentation
