import PrivatePresentation.Canonical
import PrivatePresentation.Hash.Sha256
import PrivatePresentation.Text.Blank

/-!
Content digests: the SHA-256 hash of a canonical text, written as the name of the algorithm, a colon
and 64 hexadecimal digits.
-/

namespace PrivatePresentation

/-- The hash of a canonical text. -/
structure ContentDigest where
  bytes : Bytes
deriving DecidableEq, Repr, Inhabited

/-- Why a text is no digest. -/
inductive DigestError where
  | unsupportedAlgorithm (text : String)
  | invalidHex (digits : String)
deriving Repr

/-- The text of the error. -/
def DigestError.message : DigestError → String
  | .unsupportedAlgorithm s => "unsupported digest algorithm in " ++ Text.quoted s
  | .invalidHex s => "invalid digest hex " ++ Text.quoted s

instance : ToString DigestError := ⟨DigestError.message⟩

namespace ContentDigest

/-- The only algorithm. -/
def algorithm : String := "sha256"

/-- The 64 lower-case digits. -/
def hex (d : ContentDigest) : String := Hex.encode d.bytes

/-- The text of a digest. -/
def text (d : ContentDigest) : String := algorithm ++ ":" ++ d.hex

/-- Reads the text of a digest; digits of either case are taken. -/
def parse (s : String) : Except DigestError ContentDigest :=
  match Text.afterStart? "sha256:".toList s.toList with
  | none => .error (.unsupportedAlgorithm s)
  | some digits =>
    let refusal := DigestError.invalidHex (String.ofList digits)
    if Text.byteLength (String.ofList digits) ≠ 64 then .error refusal
    else
      match Hex.decodeChars digits with
      | some bytes => .ok ⟨bytes⟩
      | none => .error refusal

/-- The digest of a canonical text. -/
def ofCanonical (c : CanonicalText) : ContentDigest := ⟨Sha256.hash (Text.utf8 c.text)⟩

end ContentDigest
end PrivatePresentation
