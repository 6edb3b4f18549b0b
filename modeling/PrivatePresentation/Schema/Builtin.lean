import PrivatePresentation.Schema.Parser

/-!
The schemas at hand without a document of one's own.
-/

namespace PrivatePresentation.Schema

/-- The holder is at least eighteen years old on the current date; the audience and the nonce of the
request are bound into the proof. -/
def ageOver18Text : String :=
  "\x7b\n" ++
  "  \"schema_id\": \"age_over_18\",\n" ++
  "  \"version\": \"1.0.1\",\n" ++
  "  \"fields\": [\n" ++
  "    \x7b\"name\": \"birth_year\", \"type\": \"integer\", \"required\": true, \"secret\": true, \"description\": \"Year of birth\"\x7d,\n" ++
  "    \x7b\"name\": \"birth_month\", \"type\": \"integer\", \"required\": true, \"secret\": true, \"description\": \"Month of birth (1-12)\"\x7d,\n" ++
  "    \x7b\"name\": \"birth_day\", \"type\": \"integer\", \"required\": true, \"secret\": true, \"description\": \"Day of birth (1-31)\"\x7d,\n" ++
  "    \x7b\"name\": \"current_year\", \"type\": \"integer\", \"required\": true, \"public\": true\x7d,\n" ++
  "    \x7b\"name\": \"current_month\", \"type\": \"integer\", \"required\": true, \"public\": true\x7d,\n" ++
  "    \x7b\"name\": \"current_day\", \"type\": \"integer\", \"required\": true, \"public\": true\x7d,\n" ++
  "    \x7b\"name\": \"aud\", \"type\": \"string\", \"required\": true, \"public\": true, \"description\": \"Relying party audience\"\x7d,\n" ++
  "    \x7b\"name\": \"nonce\", \"type\": \"string\", \"required\": true, \"public\": true, \"description\": \"Per-request nonce\"\x7d\n" ++
  "  ],\n" ++
  "  \"constraints\": [\n" ++
  "    \x7b\n" ++
  "      \"type\": \"age_verification\",\n" ++
  "      \"fields\": [\"birth_year\", \"birth_month\", \"birth_day\", \"current_year\", \"current_month\", \"current_day\"],\n" ++
  "      \"operator\": \"ge\",\n" ++
  "      \"value\": 18,\n" ++
  "      \"error_message\": \"holder must be at least 18 years old\"\n" ++
  "    \x7d,\n" ++
  "    \x7b\"type\": \"range_check\", \"fields\": [\"birth_month\"], \"operator\": \"between\", \"value\": [1, 12]\x7d,\n" ++
  "    \x7b\"type\": \"range_check\", \"fields\": [\"birth_day\"], \"operator\": \"between\", \"value\": [1, 31]\x7d\n" ++
  "  ]\n" ++
  "\x7d"

/-- The names of the schemas at hand. -/
def builtinNames : List String := ["age_over_18"]

/-- The text of a schema at hand. -/
def builtinText? (name : String) : Option String :=
  if name = "age_over_18" then some ageOver18Text else none

/-- A schema at hand. -/
def builtin? (name : String) : Option (Except SchemaError Schema) :=
  (builtinText? name).map parse

end PrivatePresentation.Schema
