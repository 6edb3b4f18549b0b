import PrivatePresentation.Endpoint.Handler
import PrivatePresentation.Proofs.Outcome
import PrivatePresentation.Proofs.Text.Bytes
import PrivatePresentation.Proofs.Text.Hex

/-!
The text of a digest.  It is read exactly if it is the name of the algorithm, a colon and 64 hexadecimal
digits, and what is read is written with the same digits in lower case; so all spellings of a digest
name the same keys.
-/

namespace PrivatePresentation

namespace Text

theorem afterStart?_eq_some_iff {start s rest : List Char} :
    afterStart? start s = some rest ↔ s = start ++ rest := by
  induction start generalizing s with
  | nil => exact Option.some_inj
  | cons a start ih =>
      cases s with
      | nil => exact iff_of_false (fun h => nomatch h) (fun h => nomatch h)
      | cons b s =>
          rw [afterStart?, List.cons_append, List.cons.injEq]
          by_cases hab : a = b
          · rw [if_pos hab, ih]
            exact (and_iff_right hab.symm).symm
          · rw [if_neg hab]
            exact iff_of_false (fun h => nomatch h) (fun h => hab h.1.symm)

/-- A text of ASCII has a byte for each character. -/
theorem byteLength_ascii {s : List Char} (hs : ∀ c ∈ s, c.toNat < 128) :
    byteLength (String.ofList s) = s.length := by
  induction s with
  | nil => rfl
  | cons c rest ih =>
      obtain ⟨hc, hrest⟩ := List.forall_mem_cons.1 hs
      have hone : c.utf8Size = 1 := if_pos (Nat.le_of_lt_succ hc)
      rw [byteLength, String.ofList_cons, String.utf8ByteSize_append, String.utf8ByteSize_singleton,
        hone, ← byteLength, ih hrest, List.length_cons, Nat.add_comm]

end Text

namespace ContentDigest

/-- A text is the name of the algorithm, a colon and 64 hexadecimal digits of either case. -/
structure Spelled (s : String) (digits : List Char) : Prop where
  text : s = "sha256:" ++ String.ofList digits
  length : digits.length = 64
  digits : ∀ c ∈ digits, Hex.IsDigit c

variable {s s' : String} {digits digits' : List Char} {d d' : ContentDigest}

theorem text_eq (d : ContentDigest) :
    d.text = "sha256:" ++ String.ofList (Hex.encodeChars d.bytes) := rfl

/-- A text is read as a digest exactly if it spells the digits that are written of it. -/
theorem parse_eq_ok_iff : parse s = .ok d ↔
    ∃ digits, Spelled s digits ∧ Hex.encodeChars d.bytes = digits.map Char.toLower := by
  constructor
  · intro h
    unfold parse at h
    split at h
    · exact nomatch h
    · rename_i digits hstart
      have hsplit := congrArg String.ofList (Text.afterStart?_eq_some_iff.1 hstart)
      rw [String.ofList_toList, String.ofList_append] at hsplit
      obtain ⟨hlength, h⟩ := Outcome.of_guard h
      split at h
      · rename_i bytes hbytes
        obtain rfl := Except.ok.inj h
        obtain ⟨hdigits, hlower⟩ := Hex.decodeChars_eq_some_iff.1 hbytes
        rw [not_not, Text.byteLength_ascii fun c hc => (hdigits c hc).toNat_lt] at hlength
        exact ⟨digits, ⟨hsplit, hlength, hdigits⟩, hlower⟩
      · exact nomatch h
  · rintro ⟨digits, ⟨rfl, hlength, hdigits⟩, hlower⟩
    have hstart : Text.afterStart? "sha256:".toList ("sha256:" ++ String.ofList digits).toList =
        some digits := by
      rw [Text.afterStart?_eq_some_iff, String.toList_append, @String.toList_ofList digits]
    have hbytes := Hex.decodeChars_eq_some_iff.2 ⟨hdigits, hlower⟩
    unfold parse
    rw [hstart]
    dsimp only
    rw [Text.byteLength_ascii fun c hc => (hdigits c hc).toNat_lt, hbytes]
    exact if_neg (not_not.2 hlength)

theorem Spelled.unique (hs : Spelled s digits) (hs' : Spelled s digits') : digits = digits' := by
  have htext := congrArg String.toList (hs.text.symm.trans hs'.text)
  rw [String.toList_append, String.toList_append, @String.toList_ofList digits,
    @String.toList_ofList digits'] at htext
  exact List.append_cancel_left htext

/-- A spelling is read, as 32 bytes that are written in lower case. -/
theorem Spelled.parse (hs : Spelled s digits) : ∃ d, ContentDigest.parse s = .ok d ∧
    d.bytes.length = 32 ∧ Hex.encodeChars d.bytes = digits.map Char.toLower := by
  obtain ⟨bytes, hbytes⟩ := Hex.exists_decodeChars hs.digits (hs.length ▸ (by decide))
  have hlower := (Hex.decodeChars_eq_some_iff.1 hbytes).2
  have hlong := congrArg List.length hlower
  rw [Hex.length_encodeChars, List.length_map, hs.length] at hlong
  have hlength : bytes.length = 32 := by omega
  exact ⟨⟨bytes⟩, parse_eq_ok_iff.2 ⟨digits, hs, hlower⟩, hlength, hlower⟩

/-- Two spellings are read alike exactly if they are the same up to the case of their digits. -/
theorem Spelled.parse_eq_iff (hs : Spelled s digits) (hs' : Spelled s' digits') :
    ContentDigest.parse s = ContentDigest.parse s' ↔
      digits.map Char.toLower = digits'.map Char.toLower := by
  obtain ⟨d, hd, -, hlower⟩ := hs.parse
  obtain ⟨d', hd', -, hlower'⟩ := hs'.parse
  rw [hd, hd', ← hlower, ← hlower', Hex.encodeChars_injective.eq_iff, Except.ok.injEq]
  exact ContentDigest.mk.injEq _ _ ▸ Iff.rfl

/-- What is written of 32 bytes spells them in lower case. -/
theorem spelled_text (hd : d.bytes.length = 32) :
    Spelled d.text (Hex.encodeChars d.bytes) where
  text := rfl
  length := by rw [Hex.length_encodeChars, hd]
  digits := (Hex.decodeChars_eq_some_iff.1 (Hex.decodeChars_encodeChars d.bytes)).1

theorem parse_text (hd : d.bytes.length = 32) : parse d.text = .ok d :=
  parse_eq_ok_iff.2 ⟨_, spelled_text hd,
    (Hex.decodeChars_eq_some_iff.1 (Hex.decodeChars_encodeChars d.bytes)).2⟩

/-- Digests are read exactly.  A text is read if it is a spelling of one and not otherwise; all 32 bytes
are read back from what is written of them; a spelling is written again with its digits in lower case;
and spellings that differ in the case of their digits only are read alike, so that they name the same
keys. -/
theorem readsSpellings :
    (∀ s, (∃ d, parse s = .ok d) ↔ ∃ digits, Spelled s digits) ∧
    (∀ d : ContentDigest, d.bytes.length = 32 → parse d.text = .ok d) ∧
    (∀ s digits, Spelled s digits → ∃ d, parse s = .ok d ∧ d.bytes.length = 32 ∧
      d.text = "sha256:" ++ String.ofList (digits.map Char.toLower)) ∧
    ∀ s s' digits digits', Spelled s digits → Spelled s' digits' →
      (parse s = parse s' ↔ digits.map Char.toLower = digits'.map Char.toLower) ∧
      (digits.map Char.toLower = digits'.map Char.toLower → ∀ service what,
        Handler.keysOf service s what = Handler.keysOf service s' what) := by
  refine ⟨fun s => ⟨?_, ?_⟩, fun d => parse_text, ?_, ?_⟩
  · rintro ⟨d, hd⟩
    obtain ⟨digits, hs, -⟩ := parse_eq_ok_iff.1 hd
    exact ⟨digits, hs⟩
  · rintro ⟨digits, hs⟩
    obtain ⟨d, hd, -⟩ := hs.parse
    exact ⟨d, hd⟩
  · intro s digits hs
    obtain ⟨d, hd, hlength, hlower⟩ := hs.parse
    refine ⟨d, hd, hlength, ?_⟩
    rw [text_eq, hlower]
  · intro s s' digits digits' hs hs'
    refine ⟨hs.parse_eq_iff hs', fun hlower service what => ?_⟩
    rw [Handler.keysOf, Handler.keysOf, (hs.parse_eq_iff hs').2 hlower]

/-- The digest of nothing in upper case. -/
def emptyDigits : List Char :=
  "E3B0C44298FC1C149AFBF4C8996FB92427AE41E4649B934CA495991B7852B855".toList

theorem spelled_empty : Spelled ("sha256:" ++ String.ofList emptyDigits) emptyDigits := by
  have hread : (Hex.decodeChars emptyDigits).isSome = true := by decide +kernel
  obtain ⟨bytes, hbytes⟩ := Option.isSome_iff_exists.1 hread
  exact ⟨rfl, by decide, (Hex.decodeChars_eq_some_iff.1 hbytes).1⟩

theorem readsSpellings_empty :
    ∃ d, parse ("sha256:" ++ String.ofList emptyDigits) = .ok d ∧ parse d.text = .ok d ∧
      d.text = "sha256:e3b0c44298fc1c149afbf4c8996fb92427ae41e4649b934ca495991b7852b855" ∧
      ∀ service, Handler.keysOf service ("sha256:" ++ String.ofList emptyDigits) "vk" =
        Handler.keysOf service d.text "vk" := by
  obtain ⟨-, hback, hlower, hsame⟩ := readsSpellings
  obtain ⟨d, hd, hlength, htext⟩ := hlower _ _ spelled_empty
  obtain ⟨halike, hkeys⟩ := hsame _ _ _ _ spelled_empty (spelled_text hlength)
  have hparse := hback d hlength
  refine ⟨d, hd, hparse, htext.trans (by decide +kernel), fun service => ?_⟩
  exact hkeys (halike.1 (hd.trans hparse.symm)) service "vk"

end ContentDigest
end PrivatePresentation
