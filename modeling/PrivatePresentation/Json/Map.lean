import PrivatePresentation.Json.Basic

/-!
Changing the texts and the members of a value wherever they stand in it.
-/

namespace PrivatePresentation.Json

mutual
/-- The value with every text changed, keys included. -/
def mapTexts (f : String → String) : Json → Json
  | .string s => .string (f s)
  | .array items => .array (mapItems f items)
  | .object members => ofMembers (mapMembers f members)
  | v => v

/-- The items with every text changed. -/
def mapItems (f : String → String) : List Json → List Json
  | [] => []
  | v :: rest => mapTexts f v :: mapItems f rest

/-- The members with every text changed. -/
def mapMembers (f : String → String) : Members → Members
  | [] => []
  | (k, v) :: rest => (f k, mapTexts f v) :: mapMembers f rest
end

mutual
/-- The value with what is not null under some keys replaced by the key in angle brackets. -/
def maskKeys (keys : List String) : Json → Json
  | .array items => .array (maskItems keys items)
  | .object members => .object (maskMembers keys members)
  | v => v

/-- The items with what is under some keys replaced. -/
def maskItems (keys : List String) : List Json → List Json
  | [] => []
  | v :: rest => maskKeys keys v :: maskItems keys rest

/-- The members with what is under some keys replaced. -/
def maskMembers (keys : List String) : Members → Members
  | [] => []
  | (k, v) :: rest =>
    let w := if keys.contains k && !(v matches .null) then .string ("<" ++ k ++ ">")
      else maskKeys keys v
    (k, w) :: maskMembers keys rest
end

end PrivatePresentation.Json
