import PrivatePresentation.Curve.Basic
import PrivatePresentation.Text.Bytes

/-!
Bytes of field elements and points. Numbers are written with the lowest byte first. A point is its
first coordinate; the two highest bits of the last byte tell the neutral element and which of the two
second coordinates is meant, the larger one or the smaller.
-/

namespace PrivatePresentation

/-- Why bytes are no element or point. -/
inductive EncodingError where
  | endOfInput
  | unexpectedFlags
  | invalidData
  | notEnoughSpace
deriving DecidableEq, Repr

/-- The text of the error. -/
def EncodingError.message : EncodingError → String
  | .endOfInput =>
    "I/O error: Error \x7b kind: UnexpectedEof, message: \"failed to fill whole buffer\" \x7d"
  | .unexpectedFlags => "the call expects empty flags"
  | .invalidData => "the input buffer contained invalid data"
  | .notEnoughSpace => "the last byte does not have enough space to encode the extra info bits"

/-- Reads a value off the front of some bytes. -/
abbrev Decoder (α : Type) := Bytes → Except EncodingError (α × Bytes)

namespace LittleEndian

/-- The lowest bytes of a number. -/
def encode : Nat → Nat → Bytes
  | 0, _ => []
  | count + 1, n => UInt8.ofNat (n % 256) :: encode count (n / 256)

/-- The number of some bytes. -/
def decode : Bytes → Nat
  | [] => 0
  | b :: rest => b.toNat + 256 * decode rest

end LittleEndian

/-- Takes bytes off the front, all that are asked for or none. -/
def takeBytes (count : Nat) : Decoder Bytes := fun bytes =>
  let front := bytes.take count
  if front.length < count then .error .endOfInput else .ok (front, bytes.drop count)

/-- Number of bytes of a field element. -/
def elementBytes : Nat := 32

/-- The two highest bits of an element's last byte. -/
inductive PointFlag where
  | smaller
  | larger
  | infinity
deriving DecidableEq, Repr

/-- The value of a flag in front of the low 254 bits. -/
def PointFlag.bits : PointFlag → Nat
  | .smaller => 0
  | .infinity => 1
  | .larger => 2

/-- An element of the field of coordinates with a flag. -/
def Base.encodeFlagged (flag : PointFlag) (x : Base) : Bytes :=
  LittleEndian.encode elementBytes (x.val + (flag.bits <<< 254))

/-- An element of the field of coordinates. -/
def Base.encode (x : Base) : Bytes := LittleEndian.encode elementBytes x.val

/-- A number below the order, from its low 255 bits; the highest bit has to be clear. -/
def decodeBelow (order : Nat) : Decoder (Fin order) := fun bytes => do
  let (raw, rest) ← takeBytes elementBytes bytes
  let n := LittleEndian.decode raw
  if 1 <<< 255 ≤ n then .error .unexpectedFlags
  else if h : n < order then .ok (⟨n, h⟩, rest)
  else .error .invalidData

/-- An element of the field of coordinates with a flag. -/
def Base.decodeFlagged : Decoder (Base × PointFlag) := fun bytes => do
  let (raw, rest) ← takeBytes elementBytes bytes
  let n := LittleEndian.decode raw
  let flag ←
    match n >>> 254 with
    | 0 => .ok PointFlag.smaller
    | 1 => .ok PointFlag.infinity
    | 2 => .ok PointFlag.larger
    | _ => .error EncodingError.unexpectedFlags
  let x := n % (1 <<< 254)
  if h : x < baseOrder then .ok ((⟨x, h⟩, flag), rest) else .error .invalidData

/-- A residue modulo the order of the groups. -/
def Scalar.encode (x : Scalar) : Bytes := LittleEndian.encode elementBytes x.val

/-- A residue modulo the order of the groups. -/
def Scalar.decode : Decoder Scalar := decodeBelow scalarOrder

namespace G1

/-- The two second coordinates that belong to a first one, the smaller in front. -/
def ordinates? (x : Base) : Option (Base × Base) :=
  (Base.sqrt? (x * x * x + coefficient)).map fun y =>
    if y.val ≤ (-y).val then (y, -y) else (-y, y)

/-- The bytes of a point. -/
def encode : G1 → Bytes
  | .infinity => Base.encodeFlagged .infinity 0
  | .affine x y => Base.encodeFlagged (if y.val ≤ (-y).val then .smaller else .larger) x

/-- A point of the curve, which lies in the group. -/
def decode : Decoder G1 := fun bytes => do
  let ((x, flag), rest) ← Base.decodeFlagged bytes
  match flag with
  | .infinity => .ok (.infinity, rest)
  | flag =>
    match ordinates? x with
    | none => .error .invalidData
    | some (low, high) => .ok (.affine x (if flag = .larger then high else low), rest)

end G1

namespace G2

/-- The two second coordinates that belong to a first one, the smaller in front. -/
def ordinates? (x : Quadratic) : Option (Quadratic × Quadratic) :=
  (Quadratic.sqrt? (x * x * x + coefficient)).map fun y =>
    if y.le (-y) then (y, -y) else (-y, y)

/-- The bytes of a point: the first part of its coordinate, then the second with the flag. -/
def encode : G2 → Bytes
  | .infinity => Base.encode 0 ++ Base.encodeFlagged .infinity 0
  | .affine x y =>
    Base.encode x.c0 ++ Base.encodeFlagged (if y.le (-y) then .smaller else .larger) x.c1

/-- A point of the curve, in the group or not. -/
def decodeUnchecked : Decoder G2 := fun bytes => do
  let (c0, rest) ← decodeBelow baseOrder bytes
  let ((c1, flag), rest) ← Base.decodeFlagged rest
  match flag with
  | .infinity => .ok (.infinity, rest)
  | flag =>
    match ordinates? ⟨c0, c1⟩ with
    | none => .error .invalidData
    | some (low, high) => .ok (.affine ⟨c0, c1⟩ (if flag = .larger then high else low), rest)

/-- A point of the group. -/
def decode : Decoder G2 := fun bytes => do
  let (p, rest) ← decodeUnchecked bytes
  if isInGroup p then .ok (p, rest) else .error .invalidData

end G2

/-- Some values in a row. -/
def decodeMany {α : Type} (item : Decoder α) : Nat → Decoder (List α)
  | 0, bytes => .ok ([], bytes)
  | count + 1, bytes => do
    let (v, rest) ← item bytes
    let (vs, rest) ← decodeMany item count rest
    return (v :: vs, rest)

/-- A list: its length in eight bytes, then its items. -/
def encodeList {α : Type} (item : α → Bytes) (items : List α) : Bytes :=
  LittleEndian.encode 8 items.length ++ items.flatMap item

/-- A list whose items pass a check once all of them are read. A length beyond the bytes that are
left ends where these do. -/
def decodeList {α : Type} (item : Decoder α) (check : α → Bool) : Decoder (List α) := fun bytes => do
  let (raw, rest) ← takeBytes 8 bytes
  let (items, rest) ← decodeMany item (min (LittleEndian.decode raw) (rest.length + 1)) rest
  if items.all check then .ok (items, rest) else .error .invalidData

end PrivatePresentation
