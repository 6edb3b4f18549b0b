import PrivatePresentation.Proving.Pipeline

/-!
The report on a schema: its identity, the slots of its circuit, and how many constraints it has.
-/

namespace PrivatePresentation.Tool

/-- Fields with their types, a comma between each two. -/
def fieldList (fields : List FieldDecl) : String :=
  "[" ++ ", ".intercalate (fields.map fun f => f.name ++ ":" ++ f.type.name) ++ "]"

/-- The report on a schema that has been compiled. -/
def reportOn (s : Schema) (p : Pipeline.Compiled) : String :=
  "OK: " ++ s.id ++ " v" ++ s.version ++
    "\n  hash:        " ++ s.hash.text ++
    "\n  layout:      " ++ p.circuit.fingerprint.text ++
    "\n  public:      " ++ fieldList p.circuit.layout.publicFields ++
    "\n  secret:      " ++ fieldList p.circuit.layout.secretFields ++
    "\n  constraints: " ++ toString p.constraints ++ "\n"

/-- The report on a schema, unless it cannot be compiled. -/
def report (s : Schema) : Except PipelineError String :=
  (Pipeline.compile s).map (reportOn s)

end PrivatePresentation.Tool
