import Mathlib.Data.List.Basic
import PrivatePresentation.Text.Bytes

/-!
Hexadecimal text.  Bytes are written in lower case and read in either; what is read are pairs of
digits, and writing the bytes again puts them into lower case.
-/

namespace PrivatePresentation.Hex

theorem length_encodeChars (bytes : Bytes) : (encodeChars bytes).length = 2 * bytes.length := by
  induction bytes with
  | nil => rfl
  | cons b rest ih =>
      rw [encodeChars, List.length_cons, List.length_cons, ih, List.length_cons]
      omega

theorem digit_within {n : Nat} (hn : n < 16) : 48 ≤ (digit n).toNat ∧ (digit n).toNat ≤ 102 := by
  decide +revert

theorem encodeChars_within {bytes : Bytes} {c : Char} (hc : c ∈ encodeChars bytes) :
    48 ≤ c.toNat ∧ c.toNat ≤ 102 := by
  induction bytes with
  | nil => exact absurd hc List.not_mem_nil
  | cons b rest ih =>
      rw [encodeChars, List.mem_cons, List.mem_cons] at hc
      rcases hc with rfl | rfl | hc
      · have hb := b.toNat_lt
        exact digit_within (by omega)
      · exact digit_within (Nat.mod_lt _ (by decide))
      · exact ih hc

theorem value?_digit {n : Nat} (hn : n < 16) : value? (digit n) = some n := by
  decide +revert

theorem decodeChars_encodeChars (bytes : Bytes) : decodeChars (encodeChars bytes) = some bytes := by
  induction bytes with
  | nil => rfl
  | cons b rest ih =>
      have hb := b.toNat_lt
      have hbyte : UInt8.ofNat (16 * (b.toNat / 16) + b.toNat % 16) = b := by
        rw [Nat.div_add_mod, UInt8.ofNat_toNat]
      rw [encodeChars, decodeChars, value?_digit (by omega), value?_digit (Nat.mod_lt _ (by decide)),
        ih]
      exact congrArg (fun b => some (b :: rest)) hbyte

theorem encodeChars_injective : Function.Injective encodeChars := by
  intro bytes bytes' h
  have hread := decodeChars_encodeChars bytes
  rw [h, decodeChars_encodeChars] at hread
  exact (Option.some.inj hread).symm

/-- The characters that hexadecimal numbers are written with, in either case. -/
def IsDigit (c : Char) : Prop := c ∈ "0123456789abcdefABCDEF".toList

instance (c : Char) : Decidable (IsDigit c) := inferInstanceAs (Decidable (_ ∈ _))

theorem IsDigit.toNat_lt {c : Char} (hc : IsDigit c) : c.toNat < 128 := by
  have hall : ∀ c ∈ "0123456789abcdefABCDEF".toList, c.toNat < 128 := by simp
  exact hall c hc

theorem toNat_lt_of_value? {c : Char} {n : Nat} (h : value? c = some n) : c.toNat < 128 := by
  have hbelow {limit : Char} (hc : c ≤ limit) (hlimit : limit.toNat < 128) : c.toNat < 128 :=
    Nat.lt_of_le_of_lt hc hlimit
  unfold value? at h
  split at h
  · rename_i hc
    exact hbelow hc.2 (by decide)
  · split at h
    · rename_i hc
      exact hbelow hc.2 (by decide)
    · split at h
      · rename_i hc
        exact hbelow hc.2 (by decide)
      · exact nomatch h

theorem value?_ascii : ∀ code < 128, ∀ n < 16, value? (Char.ofNat code) = some n ↔
    IsDigit (Char.ofNat code) ∧ digit n = (Char.ofNat code).toLower := by
  decide +kernel

theorem value?_lt {c : Char} {n : Nat} (h : value? c = some n) : n < 16 := by
  have hall : ∀ code < 128, ∀ n ∈ value? (Char.ofNat code), n < 16 := by decide +kernel
  have hcode := hall c.toNat (toNat_lt_of_value? h) n
  rw [Char.ofNat_toNat] at hcode
  exact hcode h

/-- A character has a value exactly if it is a digit, and then it is the digit of that value up to its
case. -/
theorem value?_eq_some_iff {c : Char} {n : Nat} (hn : n < 16) :
    value? c = some n ↔ IsDigit c ∧ digit n = c.toLower := by
  by_cases hc : c.toNat < 128
  · have hcode := value?_ascii c.toNat hc n hn
    rwa [Char.ofNat_toNat] at hcode
  · constructor
    · exact fun h => absurd (toNat_lt_of_value? h) hc
    · exact fun h => absurd h.1.toNat_lt hc

/-- Bytes are read from a text exactly if it has digits only and is the text that is written of them,
up to the case of its digits. -/
theorem decodeChars_eq_some_iff {s : List Char} {bytes : Bytes} :
    decodeChars s = some bytes ↔ (∀ c ∈ s, IsDigit c) ∧ encodeChars bytes = s.map Char.toLower := by
  induction s using decodeChars.induct generalizing bytes with
  | case1 =>
      rw [decodeChars, Option.some_inj]
      constructor
      · rintro rfl
        exact ⟨fun c hc => absurd hc List.not_mem_nil, rfl⟩
      · rintro ⟨-, htext⟩
        exact (encodeChars_injective htext).symm
  | case2 c =>
      constructor
      · exact fun h => nomatch h
      · rintro ⟨-, htext⟩
        have hlength := congrArg List.length htext
        rw [length_encodeChars, List.length_map, List.length_singleton] at hlength
        omega
  | case3 a b rest ih =>
      rw [List.forall_mem_cons, List.forall_mem_cons, List.map_cons, List.map_cons]
      constructor
      · intro h
        obtain ⟨high, ha, h⟩ := Option.bind_eq_some_iff.1 h
        obtain ⟨low, hb, h⟩ := Option.bind_eq_some_iff.1 h
        obtain ⟨tail, htail, h⟩ := Option.bind_eq_some_iff.1 h
        obtain rfl := Option.some.inj h
        obtain ⟨hdigits, htext⟩ := ih.1 htail
        have hhigh := value?_lt ha
        have hlow := value?_lt hb
        obtain ⟨hdigitA, hlowerA⟩ := (value?_eq_some_iff hhigh).1 ha
        obtain ⟨hdigitB, hlowerB⟩ := (value?_eq_some_iff hlow).1 hb
        have hbyte : (UInt8.ofNat (16 * high + low)).toNat = 16 * high + low :=
          UInt8.toNat_ofNat_of_lt' (show 16 * high + low < 256 by omega)
        refine ⟨⟨hdigitA, hdigitB, hdigits⟩, ?_⟩
        rw [encodeChars, hbyte, htext, ← hlowerA, ← hlowerB, Nat.mul_add_div (by decide),
          Nat.div_eq_of_lt hlow, Nat.mul_add_mod, Nat.mod_eq_of_lt hlow, Nat.add_zero]
      · rintro ⟨⟨hdigitA, hdigitB, hdigits⟩, htext⟩
        cases bytes with
        | nil => exact nomatch htext
        | cons byte tail =>
            obtain ⟨hlowerA, htext⟩ := List.cons.inj htext
            obtain ⟨hlowerB, htext⟩ := List.cons.inj htext
            have hhigh : byte.toNat / 16 < 16 := Nat.div_lt_of_lt_mul byte.toNat_lt
            have hlow : byte.toNat % 16 < 16 := Nat.mod_lt _ (by decide)
            rw [decodeChars, (value?_eq_some_iff hhigh).2 ⟨hdigitA, hlowerA⟩,
              (value?_eq_some_iff hlow).2 ⟨hdigitB, hlowerB⟩, ih.2 ⟨hdigits, htext⟩]
            simp only [bind, Option.bind, pure, Nat.div_add_mod, UInt8.ofNat_toNat]

theorem exists_value? {c : Char} (hc : IsDigit c) : ∃ n, value? c = some n := by
  have hall : ∀ c ∈ "0123456789abcdefABCDEF".toList, (value? c).isSome = true := by
    simp [value?]
  exact Option.isSome_iff_exists.1 (hall c hc)

theorem exists_decodeChars {s : List Char} (hs : ∀ c ∈ s, IsDigit c) (heven : 2 ∣ s.length) :
    ∃ bytes, decodeChars s = some bytes := by
  induction s using decodeChars.induct with
  | case1 => exact ⟨[], rfl⟩
  | case2 c =>
      rw [List.length_singleton] at heven
      omega
  | case3 a b rest ih =>
      obtain ⟨ha, hs⟩ := List.forall_mem_cons.1 hs
      obtain ⟨hb, hrest⟩ := List.forall_mem_cons.1 hs
      rw [List.length_cons, List.length_cons] at heven
      obtain ⟨high, hhigh⟩ := exists_value? ha
      obtain ⟨low, hlow⟩ := exists_value? hb
      obtain ⟨tail, htail⟩ := ih hrest (by omega)
      rw [decodeChars, hhigh, hlow, htail]
      exact ⟨_, rfl⟩

end PrivatePresentation.Hex
