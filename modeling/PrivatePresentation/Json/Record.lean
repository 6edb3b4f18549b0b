import PrivatePresentation.Json.Skip

/-!
Reading records: documents with known fields. A record is an object, or an array of the fields in
their order. Fields of other names are passed over; a field given twice, or a field missing without a
value to stand for it, is a fault. The first fault in the order of the text is reported, whether it
lies in the text or in a type.
-/

namespace PrivatePresentation.Json

/-- What a field may hold. -/
inductive FieldKind where
  /-- Any value. -/
  | any
  /-- An object with any values. -/
  | map
  /-- A text. -/
  | text
  /-- A truth value. -/
  | flag
  /-- An integer of 64 bits without a sign. -/
  | unsigned
  /-- An integer of 64 bits with a sign. -/
  | signed
  /-- An integer of 64 bits with a sign that passes a check. -/
  | checkedInteger (check : Int → Option String)
  /-- A text that passes a check, with the words that ask for it. -/
  | checkedText (expected : String) (check : String → Option String)
  /-- One of some names. -/
  | variant (names : List String)

/-- A field of a record. -/
structure Field where
  name : String
  kind : FieldKind
  /-- A null stands for an absent value. -/
  optional : Bool := false
  /-- The value of a field that is not given. -/
  missing : Option Json := none

/-- A record: its name and its fields. -/
structure Record where
  name : String
  fields : List Field

/-- The fault of a value of another type, after reading past the value where it is a scalar. -/
def mismatch {α : Type} (expected : String) (bytes : Bytes) : Except Fault α :=
  match skipSpace bytes with
  | [] => failAt .endInValue []
  | b :: rest => do
    if b = 0x6E then
      let (_, rest) ← readWord () [0x75, 0x6C, 0x6C] rest
      failAt (.invalidType .null expected) rest
    else if b = 0x74 then
      let (_, rest) ← readWord () [0x72, 0x75, 0x65] rest
      failAt (.invalidType (.bool true) expected) rest
    else if b = 0x66 then
      let (_, rest) ← readWord () [0x61, 0x6C, 0x73, 0x65] rest
      failAt (.invalidType (.bool false) expected) rest
    else if b = 0x2D then
      let (n, rest) ← readNumber true rest
      failAt (.invalidType (.number n) expected) rest
    else if isDigit b then
      let (n, rest) ← readNumber false (b :: rest)
      failAt (.invalidType (.number n) expected) rest
    else if b = 0x22 then
      let (s, rest) ← readString rest
      failAt (.invalidType (.string s) expected) rest
    else if b = 0x5B then failAt (.invalidType .sequence expected) (b :: rest)
    else if b = 0x7B then failAt (.invalidType .map expected) (b :: rest)
    else failOn .expectedValue (b :: rest)

/-- A text. -/
def readText (expected : String) : Reader String := fun bytes =>
  match skipSpace bytes with
  | 0x22 :: rest => readString rest
  | rest => mismatch expected rest

/-- A number in the place of an integer. -/
def readInteger (expected : String) (accept : Int → Bool) : Reader Int := fun bytes => do
  let check (n : Number) (rest : Bytes) : Except Fault (Int × Bytes) :=
    match n with
    | .integer i _ =>
      if accept i then .ok (i, rest) else failAt (.invalidValue (.number n) expected) rest
    | .float _ => failAt (.invalidType (.number n) expected) rest
  match skipSpace bytes with
  | [] => failAt .endInValue []
  | b :: rest =>
    if b = 0x2D then
      let (n, rest) ← readNumber true rest
      check n rest
    else if isDigit b then
      let (n, rest) ← readNumber false (b :: rest)
      check n rest
    else mismatch expected (b :: rest)

/-- A name of a variant, or an object with that name and null. -/
def readVariant (names : List String) : Reader String := fun bytes => do
  let known (s : String) (rest : Bytes) : Except Fault (String × Bytes) :=
    if names.contains s then .ok (s, rest) else failAt (.unknownVariant s names) rest
  match skipSpace bytes with
  | [] => failAt .endInValue []
  | 0x22 :: rest =>
    let (s, rest) ← readString rest
    known s rest
  | 0x7B :: rest =>
    let (s, rest) ← readText "variant identifier" rest
    let (s, rest) ← known s rest
    let rest ← readColon rest
    match skipSpace rest with
    | 0x6E :: rest =>
      let (_, rest) ← readWord () [0x75, 0x6C, 0x6C] rest
      match skipSpace rest with
      | 0x7D :: rest => return (s, rest)
      | [] => failAt .endInObject []
      | rest => failAt .expectedValue rest
    | rest => mismatch "unit" rest
  | rest => failOn .expectedValue rest

/-- A value of a kind. -/
def FieldKind.read : FieldKind → Reader Json
  | .any, bytes => readValue (maxDepth - 1) bytes
  | .map, bytes =>
    match skipSpace bytes with
    | 0x7B :: rest => do
      let (members, rest) ←
        readMembers (fun _ => readValue (maxDepth - 2)) (rest.length + 1) true rest
      return (ofMembers members, rest)
    | rest => mismatch "a map" rest
  | .text, bytes => do
    let (s, rest) ← readText "a string" bytes
    return (.string s, rest)
  | .flag, bytes =>
    match skipSpace bytes with
    | [] => failAt .endInValue []
    | b :: rest =>
      if b = 0x74 then readWord (.bool true) [0x72, 0x75, 0x65] rest
      else if b = 0x66 then readWord (.bool false) [0x61, 0x6C, 0x73, 0x65] rest
      else mismatch "a boolean" (b :: rest)
  | .unsigned, bytes => do
    let (n, rest) ← readInteger "u64" (fun n => 0 ≤ n) bytes
    return (int n, rest)
  | .signed, bytes => do
    let (n, rest) ← readInteger "i64" (fun n => minSigned ≤ n && n ≤ maxSigned) bytes
    return (int n, rest)
  | .checkedInteger check, bytes => do
    let (n, rest) ← readInteger "i64" (fun n => minSigned ≤ n && n ≤ maxSigned) bytes
    match check n with
    | none => return (int n, rest)
    | some reason => failAt (.refused reason) rest
  | .checkedText expected check, bytes => do
    let (s, rest) ← readText expected bytes
    match check s with
    | none => return (.string s, rest)
    | some reason => failAt (.refused reason) rest
  | .variant names, bytes => do
    let (s, rest) ← readVariant names bytes
    return (.string s, rest)

/-- The value of a field. -/
def Field.read (field : Field) : Reader Json := fun bytes =>
  match field.optional, skipSpace bytes with
  | true, 0x6E :: rest => readWord .null [0x75, 0x6C, 0x6C] rest
  | _, rest => field.kind.read rest

/-- The values given so far for the fields of a record. -/
abbrev Slots := List (Field × Option Json)

/-- The first field without a value and without one to stand for it. -/
def finish : Slots → Except String (List Json)
  | [] => .ok []
  | (_, some v) :: rest => do return v :: (← finish rest)
  | (field, none) :: rest =>
    match field.missing with
    | some v => do return v :: (← finish rest)
    | none => .error field.name

/-- The place reached when a record is given up: past white space and a closing brace. -/
def givenUp (rest : Bytes) : Bytes :=
  match skipSpace rest with
  | 0x7D :: rest => rest
  | rest => rest

/-- The fields of a record given as an object. -/
def readFields : Nat → Bool → Slots → Reader (List Json)
  | 0, _, _, bytes => failAt .endInObject bytes
  | fuel + 1, first, slots, bytes => do
    let (key, rest) ← within .unread (nextKey? first bytes)
    match key with
    | none =>
      match finish slots with
      | .ok values => return (values, rest)
      | .error name => failAt (.missingField name) rest
    | some key =>
      match slots.find? (fun slot => slot.1.name == key) with
      | none =>
        let rest ← within (.key key) (readColon rest)
        let rest ← within (.key key) (skipValue rest)
        readFields fuel false slots rest
      | some (_, some _) => failAt (.duplicateField key) (givenUp rest)
      | some (field, none) =>
        let rest ← within (.key key) (readColon rest)
        let (v, rest) ← within (.key key) (field.read rest)
        let slots := slots.map fun slot =>
          if slot.1.name == key then (slot.1, some v) else slot
        readFields fuel false slots rest

/-- The end of an array. -/
def readArrayEnd {α : Type} (value : α) (bytes : Bytes) : Except Fault (α × Bytes) :=
  match skipSpace bytes with
  | [] => failAt .endInList []
  | 0x5D :: rest => .ok (value, rest)
  | 0x2C :: rest =>
    match skipSpace rest with
    | 0x5D :: after => failOn .trailingComma (0x5D :: after)
    | rest => failOn .trailingCharacters rest
  | rest => failOn .trailingCharacters rest

/-- The fields of a record given as an array. -/
def readSequence (expected : String) : Nat → List Field → Reader (List Json)
  | _, [], bytes => readArrayEnd [] bytes
  | index, field :: fields, bytes => do
    let (more, rest) ← within (.index index) (nextItem (index == 0) bytes)
    if more then
      let (v, rest) ← within (.index index) (field.read rest)
      let (vs, rest) ← readSequence expected (index + 1) fields rest
      return (v :: vs, rest)
    else
      match field.missing with
      | some v =>
        let (vs, after) ← readSequence expected (index + 1) fields (skipSpace bytes)
        return (v :: vs, after)
      | none => failAt (.invalidLength index expected) rest

/-- The values of the fields of a record, in their order. -/
def Record.read (record : Record) : Reader (List Json) := fun bytes =>
  match skipSpace bytes with
  | 0x7B :: rest => readFields (rest.length + 1) true (record.fields.map (·, none)) rest
  | 0x5B :: rest =>
    readSequence ("struct " ++ record.name ++ " with " ++ toString record.fields.length ++
      " element" ++ (if record.fields.length = 1 then "" else "s")) 0 record.fields rest
  | rest => mismatch ("struct " ++ record.name) rest

/-- The values of the fields of a record that is a whole document. -/
def Record.parse (record : Record) (document : Bytes) : Except Fault (List Json) := do
  let (values, rest) ← record.read document
  readEnd values rest

end PrivatePresentation.Json
