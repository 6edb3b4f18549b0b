import PrivatePresentation.Presentation.Descriptor
import PrivatePresentation.Proofs.Text.Bytes

/-!
Deeplinks carry addresses.  Form encoding writes every byte by itself and is read back byte by byte;
what it writes has no ampersand, so that the query of a deeplink is one pair, whatever the address.
-/

namespace PrivatePresentation

namespace Text.FormEncoded

/-- The characters that an encoded text has: letters and digits of ASCII, and a few signs. -/
def IsCarried (c : Char) : Prop := c.isAlphanum = true ∨ c ∈ ['*', '-', '.', '_', '+', '%']

instance (c : Char) : Decidable (IsCarried c) := inferInstanceAs (Decidable (_ ∨ _))

theorem forall_byte {p : UInt8 → Prop} (h : ∀ n < 256, p (UInt8.ofNat n)) (b : UInt8) : p b := by
  have hb := h b.toNat b.toNat_lt
  rwa [UInt8.ofNat_toNat] at hb

theorem isCarried_plain : ∀ b, isPlain b = true → IsCarried (Char.ofNat b.toNat) :=
  forall_byte (by decide +kernel)

theorem isCarried_upperDigit : ∀ n < 16, IsCarried (upperDigit n) := by
  decide

theorem isCarried_encodeByte (b : UInt8) : ∀ c ∈ encodeByte b, IsCarried c := by
  unfold encodeByte
  split
  · rename_i hplain
    exact List.forall_mem_singleton.2 (isCarried_plain b hplain)
  · split
    · exact List.forall_mem_singleton.2 (by decide)
    · have hhigh := isCarried_upperDigit (b.toNat / 16) (Nat.div_lt_of_lt_mul b.toNat_lt)
      have hlow := isCarried_upperDigit (b.toNat % 16) (Nat.mod_lt _ (by decide))
      exact List.forall_mem_cons.2 ⟨by decide, List.forall_mem_cons.2 ⟨hhigh,
        List.forall_mem_singleton.2 hlow⟩⟩

theorem isCarried_encodeBytes {bytes : Bytes} : ∀ c ∈ encodeBytes bytes, IsCarried c := by
  intro c hc
  obtain ⟨b, -, hb⟩ := List.mem_flatMap.1 hc
  exact isCarried_encodeByte b c hb

theorem value?_upperDigit : ∀ n < 16, Hex.value? (upperDigit n) = some n := by
  decide

/-- A plain byte is a character of ASCII that is no sign of the encoding. -/
theorem isPlain_facts : ∀ b, isPlain b = true → b.toNat < 128 ∧ Char.ofNat b.toNat ≠ '+' ∧
    Char.ofNat b.toNat ≠ '%' :=
  forall_byte (by decide +kernel)

theorem utf8_singleton_ofNat : ∀ b : UInt8, b.toNat < 128 →
    utf8 (String.singleton (Char.ofNat b.toNat)) = [b] :=
  forall_byte (by decide +kernel)

theorem decodeBytes_plain {c : Char} (hplus : c ≠ '+') (hpercent : c ≠ '%') (rest : List Char) :
    decodeBytes (c :: rest) = utf8 (String.singleton c) ++ decodeBytes rest := by
  rw [decodeBytes]
  · exact hplus
  · rintro _ _ _ rfl
    exact absurd rfl hpercent

/-- A byte is read back from what is written of it. -/
theorem decodeBytes_encodeByte (b : UInt8) (rest : List Char) :
    decodeBytes (encodeByte b ++ rest) = b :: decodeBytes rest := by
  unfold encodeByte
  split
  · rename_i hplain
    obtain ⟨hascii, hplus, hpercent⟩ := isPlain_facts b hplain
    rw [List.singleton_append, decodeBytes_plain hplus hpercent, utf8_singleton_ofNat b hascii,
      List.singleton_append]
  · split
    · rename_i hspace
      rw [hspace, List.singleton_append, decodeBytes]
    · have hhigh := value?_upperDigit (b.toNat / 16) (Nat.div_lt_of_lt_mul b.toNat_lt)
      have hlow := value?_upperDigit (b.toNat % 16) (Nat.mod_lt _ (by decide))
      rw [escape, List.cons_append, List.cons_append, List.cons_append, List.nil_append, decodeBytes,
        hhigh, hlow]
      dsimp only
      rw [Nat.div_add_mod, UInt8.ofNat_toNat]

theorem decodeBytes_encodeBytes (bytes : Bytes) : decodeBytes (encodeBytes bytes) = bytes := by
  induction bytes with
  | nil => rfl
  | cons b rest ih =>
      have hstep := decodeBytes_encodeByte b (encodeBytes rest)
      rw [encodeBytes, List.flatMap_cons, ← encodeBytes, hstep, ih]

/-- A text is read back from what is written of it. -/
theorem decode?_encode (s : String) : decode? (encode s).toList = some s := by
  rw [decode?, encode, String.toList_ofList, decodeBytes_encodeBytes, ofUtf8?_utf8]

theorem not_mem_encode {c : Char} (hc : ¬IsCarried c) (s : String) : c ∉ (encode s).toList := by
  rw [encode, String.toList_ofList]
  exact fun hmem => hc (isCarried_encodeBytes c hmem)

/-- A name and a value, both encoded, with an equals sign between them are a query of one pair. -/
theorem parseQuery?_pair (name value : String) :
    parseQuery? ((encode name).toList ++ '=' :: (encode value).toList) = some [(name, value)] := by
  have hampersand : '&' ∉ (encode name).toList ++ '=' :: (encode value).toList := by
    rw [List.mem_append, List.mem_cons]
    rintro (hname | heq | hvalue)
    · exact not_mem_encode (by decide) name hname
    · revert heq
      decide
    · exact not_mem_encode (by decide) value hvalue
  have hsplit : ((encode name).toList ++ '=' :: (encode value).toList).splitOn '&' =
      [(encode name).toList ++ '=' :: (encode value).toList] := by
    have hjoined := List.splitOn_intercalate '&' (List.forall_mem_singleton.2 hampersand)
      (List.cons_ne_nil _ _)
    rwa [List.intercalate_singleton] at hjoined
  have hequals : ∀ c ∈ (encode name).toList, (c != '=') = true := by
    intro c hc
    rw [bne_iff_ne]
    rintro rfl
    exact not_mem_encode (by decide) name hc
  have hpair : splitPair ((encode name).toList ++ '=' :: (encode value).toList) =
      ((encode name).toList, (encode value).toList) := by
    rw [splitPair, List.takeWhile_append_of_pos hequals, List.dropWhile_append_of_pos hequals]
    simp
  have hnonempty : ((encode name).toList ++ '=' :: (encode value).toList).isEmpty = false := by
    simp
  rw [parseQuery?, hsplit, List.filter_singleton, hnonempty]
  simp [hpair, decode?_encode]

end Text.FormEncoded

namespace Deeplink

/-- What follows the first question mark of a link. -/
def query (link : String) : List Char := (link.toList.dropWhile (· != '?')).drop 1

/-- A deeplink carries its address intact.  It is the fixed beginning with letters, digits and a few
signs after it, and its query is the address under the name of the parameter and nothing else. -/
theorem carriesAddress (url : String) :
    (∃ carried, ofUrl url = "zkwallet://present?request_uri=" ++ String.ofList carried ∧
      ∀ c ∈ carried, Text.FormEncoded.IsCarried c) ∧
    Text.FormEncoded.parseQuery? (query (ofUrl url)) = some [("request_uri", url)] := by
  have hlink : ofUrl url = "zkwallet://present?request_uri=" ++
      String.ofList (Text.FormEncoded.encodeBytes (Text.utf8 url)) := rfl
  constructor
  · exact ⟨_, hlink, Text.FormEncoded.isCarried_encodeBytes⟩
  · have hname : (Text.FormEncoded.encode "request_uri").toList = "request_uri".toList := by
      decide +kernel
    have hquery : query (ofUrl url) = (Text.FormEncoded.encode "request_uri").toList ++
        '=' :: (Text.FormEncoded.encode url).toList := by
      rw [query, hlink, String.toList_append, hname]
      rfl
    rw [hquery, Text.FormEncoded.parseQuery?_pair]

/-- Signs of the encoding, signs of queries and characters of more bytes are carried. -/
example : ofUrl "a&b=c +%é" = "zkwallet://present?request_uri=a%26b%3Dc+%2B%25%C3%A9" := by
  decide +kernel

end Deeplink
end PrivatePresentation
