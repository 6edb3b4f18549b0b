import PrivatePresentation.Proofs.Text.Bytes
import PrivatePresentation.Text.Base64

/-!
Base64 reads back what it writes, whatever white space has been put around it.
-/

namespace PrivatePresentation.Base64

theorem value?_symbol {n : Nat} (hn : n < 64) : value? (symbol n) = some n := by
  decide +revert

theorem symbol_ne_padding {n : Nat} (hn : n < 64) : symbol n ≠ padding := by
  decide +revert

theorem valueAt_symbol (offset : Nat) {n : Nat} (hn : n < 64) :
    valueAt offset (symbol n) = .ok n := by
  rw [valueAt, value?_symbol hn]

/-- The symbols of a last group are read up to its padding, which does not begin before the third
place. -/
theorem lastSymbols_symbols (offset place : Nat) (ns : List Nat) (hns : ∀ n ∈ ns, n < 64)
    (count : Nat) (hplace : count ≠ 0 → 2 ≤ place + ns.length) :
    lastSymbols offset place (ns.map symbol ++ List.replicate count padding) =
      .ok (ns.map fun n => (symbol n, n), count) := by
  induction ns generalizing place with
  | nil =>
      cases count with
      | zero => rfl
      | succ count =>
          have hall : (List.replicate count padding).all (· == padding) = true := by simp
          have hlate : ¬place < 2 := Nat.not_lt.2 (hplace (Nat.succ_ne_zero count))
          rw [List.map_nil, List.nil_append, List.replicate_succ, lastSymbols, if_pos rfl,
            if_neg hlate, if_pos hall, List.length_replicate]
          rfl
  | cons n ns ih =>
      have hn := hns n List.mem_cons_self
      have hlater : count ≠ 0 → 2 ≤ place + 1 + ns.length := by
        intro h
        have hlong := hplace h
        rw [List.length_cons] at hlong
        omega
      have hrest := ih (place + 1) (fun m hm => hns m (List.mem_cons_of_mem n hm)) hlater
      rw [List.map_cons, List.cons_append, lastSymbols, if_neg (symbol_ne_padding hn),
        value?_symbol hn]
      simp only [hrest, bind, Except.bind, pure, Except.pure, List.map_cons]

section Groups

variable (offset : Nat) (a b c : UInt8)

theorem decodeLast_one : decodeLast offset (encodeBytes [a]) = .ok [a] := by
  have ha := a.toNat_lt
  have hsymbols := lastSymbols_symbols offset 0 [a.toNat * 16 / 64, a.toNat * 16 % 64]
    (by simp; omega) 2 (by simp)
  have hfull : a.toNat * 16 / 64 * 4 + a.toNat * 16 % 64 / 16 = a.toNat := by omega
  have hlast : ¬a.toNat * 16 % 64 % 16 ≠ 0 := by omega
  rw [decodeLast]
  simp only [encodeBytes, List.map_cons, List.map_nil, List.cons_append, List.nil_append,
    List.replicate] at hsymbols ⊢
  simp only [hsymbols, bind, Except.bind, if_neg hlast, hfull, UInt8.ofNat_toNat]
  rfl

theorem decodeLast_two : decodeLast offset (encodeBytes [a, b]) = .ok [a, b] := by
  have ha := a.toNat_lt
  have hb := b.toNat_lt
  have hsymbols := lastSymbols_symbols offset 0
    [(a.toNat * 1024 + b.toNat * 4) / 4096, (a.toNat * 1024 + b.toNat * 4) / 64 % 64,
      (a.toNat * 1024 + b.toNat * 4) % 64]
    (by simp; omega) 1 (by simp)
  have hfirst : (a.toNat * 1024 + b.toNat * 4) / 4096 * 4 +
      (a.toNat * 1024 + b.toNat * 4) / 64 % 64 / 16 = a.toNat := by omega
  have hsecond : (a.toNat * 1024 + b.toNat * 4) / 64 % 64 % 16 * 16 +
      (a.toNat * 1024 + b.toNat * 4) % 64 / 4 = b.toNat := by omega
  have hlast : ¬(a.toNat * 1024 + b.toNat * 4) % 64 % 4 ≠ 0 := by omega
  rw [decodeLast]
  simp only [encodeBytes, List.map_cons, List.map_nil, List.cons_append, List.nil_append,
    List.replicate] at hsymbols ⊢
  simp only [hsymbols, bind, Except.bind, if_neg hlast, hfirst, hsecond, UInt8.ofNat_toNat]
  rfl

/-- The three bytes of a full group from its four symbols. -/
theorem group_of_symbols {n : Nat} (hn : n = a.toNat * 65536 + b.toNat * 256 + c.toNat) :
    n / 262144 < 64 ∧ UInt8.ofNat (n / 262144 * 4 + n / 4096 % 64 / 16) = a ∧
      UInt8.ofNat (n / 4096 % 64 % 16 * 16 + n / 64 % 64 / 4) = b ∧
      UInt8.ofNat (n / 64 % 64 % 4 * 64 + n % 64) = c := by
  have ha := a.toNat_lt
  have hb := b.toNat_lt
  have hc := c.toNat_lt
  have hfirst : n / 262144 * 4 + n / 4096 % 64 / 16 = a.toNat := by omega
  have hsecond : n / 4096 % 64 % 16 * 16 + n / 64 % 64 / 4 = b.toNat := by omega
  have hthird : n / 64 % 64 % 4 * 64 + n % 64 = c.toNat := by omega
  rw [hfirst, hsecond, hthird, UInt8.ofNat_toNat, UInt8.ofNat_toNat, UInt8.ofNat_toNat]
  exact ⟨by omega, rfl, rfl, rfl⟩

theorem decodeLast_three : decodeLast offset (encodeBytes [a, b, c]) = .ok [a, b, c] := by
  obtain ⟨hn, hfirst, hsecond, hthird⟩ := group_of_symbols a b c rfl
  have hsymbols := lastSymbols_symbols offset 0
    [(a.toNat * 65536 + b.toNat * 256 + c.toNat) / 262144,
      (a.toNat * 65536 + b.toNat * 256 + c.toNat) / 4096 % 64,
      (a.toNat * 65536 + b.toNat * 256 + c.toNat) / 64 % 64,
      (a.toNat * 65536 + b.toNat * 256 + c.toNat) % 64]
    (by simp; omega) 0 (by simp)
  rw [decodeLast]
  simp only [encodeBytes, List.map_cons, List.map_nil, List.cons_append, List.nil_append,
    List.replicate] at hsymbols ⊢
  simp only [hsymbols, bind, Except.bind, hfirst, hsecond, hthird]
  rfl

end Groups

theorem encodeBytes_cons (b : UInt8) (rest : Bytes) : ∃ s l, encodeBytes (b :: rest) = s :: l := by
  match rest with
  | [] => exact ⟨_, _, rfl⟩
  | [_] => exact ⟨_, _, rfl⟩
  | _ :: _ :: _ => exact ⟨_, _, rfl⟩

/-- Bytes, of which there is at least one, are read back. -/
theorem decodeFrom_encodeBytes (offset : Nat) (b : UInt8) (rest : Bytes) :
    decodeFrom offset (encodeBytes (b :: rest)) = .ok (b :: rest) := by
  match rest with
  | [] => exact decodeLast_one offset b
  | [c] => exact decodeLast_two offset b c
  | [c, d] => exact decodeLast_three offset b c d
  | c :: d :: e :: rest =>
      obtain ⟨s, l, hsymbols⟩ := encodeBytes_cons e rest
      have htail := decodeFrom_encodeBytes (offset + 4) e rest
      obtain ⟨hn, hfirst, hsecond, hthird⟩ := group_of_symbols b c d rfl
      rw [hsymbols] at htail
      rw [encodeBytes, hsymbols, decodeFrom, valueAt_symbol offset hn,
        valueAt_symbol _ (Nat.mod_lt _ (by decide)), valueAt_symbol _ (Nat.mod_lt _ (by decide)),
        valueAt_symbol _ (Nat.mod_lt _ (by decide)), htail]
      simp only [bind, Except.bind, pure, Except.pure, hfirst, hsecond, hthird]

/-- Groups are full. -/
theorem length_encodeBytes (bytes : Bytes) : (encodeBytes bytes).length % 4 = 0 := by
  match bytes with
  | [] => rfl
  | [_] => simp [encodeBytes]
  | [_, _] => simp [encodeBytes]
  | _ :: _ :: _ :: rest =>
      have ih := length_encodeBytes rest
      rw [encodeBytes]
      simp only [List.length_cons]
      omega

theorem decodeBytes_encodeBytes (bytes : Bytes) : decodeBytes (encodeBytes bytes) = .ok bytes := by
  cases bytes with
  | nil => rfl
  | cons b rest =>
      have hlength := length_encodeBytes (b :: rest)
      obtain ⟨s, l, hsymbols⟩ := encodeBytes_cons b rest
      have hback := decodeFrom_encodeBytes 0 b rest
      rw [hsymbols] at hback hlength ⊢
      rw [decodeBytes, List.getLast?_cons]
      simp only [hlength, hback]
      rfl

/-- Symbols and padding are ASCII characters that are not white space. -/
theorem encodeBytes_ascii {bytes : Bytes} {b : UInt8} (hb : b ∈ encodeBytes bytes) :
    33 ≤ b.toNat ∧ b.toNat < 127 := by
  have hsymbol {n : Nat} (hn : n < 64) : 33 ≤ (symbol n).toNat ∧ (symbol n).toNat < 127 := by
    decide +revert
  have hpadding : 33 ≤ padding.toNat ∧ padding.toNat < 127 := by decide
  match bytes with
  | [] => exact absurd hb List.not_mem_nil
  | [x] =>
      have hx := x.toNat_lt
      simp only [encodeBytes, List.mem_cons, List.not_mem_nil, or_false] at hb
      rcases hb with rfl | rfl | rfl | rfl
      · exact hsymbol (by omega)
      · exact hsymbol (by omega)
      · exact hpadding
      · exact hpadding
  | [x, y] =>
      have hx := x.toNat_lt
      have hy := y.toNat_lt
      simp only [encodeBytes, List.mem_cons, List.not_mem_nil, or_false] at hb
      rcases hb with rfl | rfl | rfl | rfl
      · exact hsymbol (by omega)
      · exact hsymbol (by omega)
      · exact hsymbol (by omega)
      · exact hpadding
  | x :: y :: z :: rest =>
      have hn := (group_of_symbols x y z rfl).1
      simp only [encodeBytes, List.mem_cons] at hb
      rcases hb with rfl | rfl | rfl | rfl | hb
      · exact hsymbol hn
      · exact hsymbol (by omega)
      · exact hsymbol (by omega)
      · exact hsymbol (by omega)
      · exact encodeBytes_ascii hb

/-- Each symbol of a text is one byte of it. -/
theorem utf8_encode (bytes : Bytes) : Text.utf8 (encode bytes) = encodeBytes bytes := by
  rw [encode, Text.utf8_ofList, List.flatMap_map]
  have hbyte : ∀ b : UInt8, b.toNat < 127 → String.utf8EncodeChar (Char.ofNat b.toNat) = [b] := by
    decide +kernel
  rw [List.flatMap_congr fun b hb => hbyte b (encodeBytes_ascii hb).2, List.flatMap_singleton']

/-- There is no white space in a text. -/
theorem not_isBlank_of_mem_encode {bytes : Bytes} {c : Char} (hc : c ∈ (encode bytes).toList) :
    Text.isBlank c = false := by
  have hbyte : ∀ b : UInt8, 33 ≤ b.toNat ∧ b.toNat < 127 →
      Text.isBlank (Char.ofNat b.toNat) = false := by
    decide +kernel
  rw [encode, String.toList_ofList] at hc
  obtain ⟨b, hb, rfl⟩ := List.mem_map.1 hc
  exact hbyte b (encodeBytes_ascii hb)

theorem trim_encode (bytes : Bytes) : Text.trim (encode bytes) = encode bytes := by
  rw [Text.trim, Text.trimChars_of_not_isBlank fun c => not_isBlank_of_mem_encode,
    String.ofList_toList]

/-- What is written is read back. -/
theorem decode_trim_encode (bytes : Bytes) : decode (Text.trim (encode bytes)) = .ok bytes := by
  rw [trim_encode, decode, utf8_encode, decodeBytes_encodeBytes]

end PrivatePresentation.Base64
