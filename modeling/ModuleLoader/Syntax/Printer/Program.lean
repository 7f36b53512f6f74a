import ModuleLoader.Syntax.Printer.Tree
import ModuleLoader.Syntax.Program

/-! # Programs in print

* **`Program.print`** writes a program as compiled code. -/

namespace ModuleLoader.Syntax

/-- The line that names the interpreter of a program. -/
def Printer.interpreterLine : Option String → String
  | some name => "#!" ++ name ++ "\n"
  | none => ""

/-- A program as compiled code. -/
def Program.print (p : Program) : String :=
  Printer.interpreterLine p.interpreter ++ printScript 0 .none p.body ++
    (Printer.leadingText 0 .line p.trailing).1

end ModuleLoader.Syntax
