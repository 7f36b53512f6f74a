import ModuleLoader.Syntax.Program

/-! # Exported names

* **`exportsOf`** lists the names that compiled code exports. -/

namespace ModuleLoader

open Syntax

/-- The names that the code of a module exports, in the order of the code, or why it cannot be
read. Names of another module that are exported all together are not among them. -/
def exportsOf (code : String) : Except String (List String) :=
  match Program.read Dialect.plain code with
  | .ok program => .ok (exportedNames program.body)
  | .error faults =>
    .error ("compiled module does not parse (" ++ toString faults.length ++ " errors)")

end ModuleLoader
