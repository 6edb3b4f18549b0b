import PrivatePresentation.Text.Bytes

/-!
Base64 with the standard alphabet. Only the canonical form is read: groups of four symbols, padding
in full at the end, and no bits of the last symbol left over.
-/

namespace PrivatePresentation.Base64

/-- Why a text is not Base64. -/
inductive Refusal where
  | invalidByte (offset : Nat) (byte : UInt8)
  | invalidLength (length : Nat)
  | invalidLastSymbol (offset : Nat) (byte : UInt8)
  | invalidPadding
deriving DecidableEq, Repr

/-- The text of the refusal. -/
def Refusal.message : Refusal → String
  | .invalidByte offset byte =>
    "Invalid symbol " ++ toString byte.toNat ++ ", offset " ++ toString offset ++ "."
  | .invalidLength n => "Invalid input length: " ++ toString n
  | .invalidLastSymbol offset byte =>
    "Invalid last symbol " ++ toString byte.toNat ++ ", offset " ++ toString offset ++ "."
  | .invalidPadding => "Invalid padding"

/-- The symbol of six bits. -/
def symbol (n : Nat) : UInt8 :=
  if n < 26 then UInt8.ofNat (65 + n)
  else if n < 52 then UInt8.ofNat (71 + n)
  else if n < 62 then UInt8.ofNat (n - 4)
  else if n = 62 then 43
  else 47

/-- The six bits of a symbol. -/
def value? (b : UInt8) : Option Nat :=
  let n := b.toNat
  if 65 ≤ n ∧ n ≤ 90 then some (n - 65)
  else if 97 ≤ n ∧ n ≤ 122 then some (n - 71)
  else if 48 ≤ n ∧ n ≤ 57 then some (n + 4)
  else if n = 43 then some 62
  else if n = 47 then some 63
  else none

/-- The sign that fills the last group. -/
def padding : UInt8 := 61

/-- The symbols of some bytes. -/
def encodeBytes : Bytes → Bytes
  | a :: b :: c :: rest =>
    let n := a.toNat * 65536 + b.toNat * 256 + c.toNat
    symbol (n / 262144) :: symbol (n / 4096 % 64) :: symbol (n / 64 % 64) :: symbol (n % 64) ::
      encodeBytes rest
  | [a, b] =>
    let n := a.toNat * 1024 + b.toNat * 4
    [symbol (n / 4096), symbol (n / 64 % 64), symbol (n % 64), padding]
  | [a] =>
    let n := a.toNat * 16
    [symbol (n / 64), symbol (n % 64), padding, padding]
  | [] => []

/-- The text of some bytes. -/
def encode (bytes : Bytes) : String :=
  String.ofList ((encodeBytes bytes).map fun b => Char.ofNat b.toNat)

/-- Takes the symbols in front of the padding of a last group, which may not begin before the third
symbol, and counts the padding. -/
def lastSymbols (offset : Nat) : Nat → Bytes → Except Refusal (List (UInt8 × Nat) × Nat)
  | _, [] => .ok ([], 0)
  | place, b :: rest =>
    if b = padding then
      if place < 2 then .error (.invalidByte (offset + place) b)
      else if rest.all (· == padding) then .ok ([], rest.length + 1)
      else .error (.invalidByte (offset + place) padding)
    else
      match value? b with
      | none => .error (.invalidByte (offset + place) b)
      | some v => do
        let (symbols, filled) ← lastSymbols offset (place + 1) rest
        return ((b, v) :: symbols, filled)

/-- The bytes of a last group, of up to four signs. -/
def decodeLast (offset : Nat) (group : Bytes) : Except Refusal Bytes := do
  let (symbols, filled) ← lastSymbols offset 0 group
  match symbols with
  | [] => if offset = 0 ∧ group.isEmpty then return [] else throw (.invalidLength offset)
  | [_] => throw (.invalidLength (offset + 1))
  | [(_, a), (last, b)] =>
    if filled ≠ 2 then throw .invalidPadding
    else if b % 16 ≠ 0 then throw (.invalidLastSymbol (offset + 1) last)
    else return [UInt8.ofNat (a * 4 + b / 16)]
  | [(_, a), (_, b), (last, c)] =>
    if filled ≠ 1 then throw .invalidPadding
    else if c % 4 ≠ 0 then throw (.invalidLastSymbol (offset + 2) last)
    else return [UInt8.ofNat (a * 4 + b / 16), UInt8.ofNat (b % 16 * 16 + c / 4)]
  | (_, a) :: (_, b) :: (_, c) :: (_, d) :: _ =>
    return [UInt8.ofNat (a * 4 + b / 16), UInt8.ofNat (b % 16 * 16 + c / 4),
      UInt8.ofNat (c % 4 * 64 + d)]

/-- The value of a symbol inside the text. -/
def valueAt (offset : Nat) (b : UInt8) : Except Refusal Nat :=
  match value? b with
  | some v => .ok v
  | none => .error (.invalidByte offset b)

/-- The bytes of groups of four signs and a last group. -/
def decodeFrom (offset : Nat) : Bytes → Except Refusal Bytes
  | a :: b :: c :: d :: e :: rest => do
    let a ← valueAt offset a
    let b ← valueAt (offset + 1) b
    let c ← valueAt (offset + 2) c
    let d ← valueAt (offset + 3) d
    let tail ← decodeFrom (offset + 4) (e :: rest)
    return UInt8.ofNat (a * 4 + b / 16) :: UInt8.ofNat (b % 16 * 16 + c / 4) ::
      UInt8.ofNat (c % 4 * 64 + d) :: tail
  | group => decodeLast offset group

/-- The bytes of a text. A single stray sign at the end that is no symbol is told first. -/
def decodeBytes (text : Bytes) : Except Refusal Bytes :=
  match text.getLast? with
  | some last =>
    if text.length % 4 = 1 ∧ last ≠ padding ∧ (value? last).isNone then
      .error (.invalidByte (text.length - 1) last)
    else decodeFrom 0 text
  | none => .ok []

/-- The bytes of a text. -/
def decode (s : String) : Except Refusal Bytes := decodeBytes (Text.utf8 s)

end PrivatePresentation.Base64
