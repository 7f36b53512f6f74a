import ModuleLoader.Config.Basic
import ModuleLoader.Imports.TextScan
import ModuleLoader.Syntax.Program

/-! # Finding imports

* **`Scan`** is what a scan found, and the number of faults that kept it from finding anything.
* **`scanProgram`** finds the imports of a module by reading it.
* **`scan`** finds them in the way that is asked for. -/

namespace ModuleLoader

open Syntax

/-- What a scan found. -/
structure Scan where
  /-- One reference for each specifier, in order. -/
  references : List Reference
  /-- The number of faults in the text; with any there are no references. -/
  faults : Nat
deriving DecidableEq, Repr, Inhabited

/-- The references of a program, one for each specifier. -/
def Syntax.Program.references (p : Program) : List Reference :=
  mergeReferences (bodyReferences p.body)

/-- Finds the imports of a module by reading it as its path says. One that cannot be read has
none; why is told when it is compiled. -/
def scanProgram (source path : String) : Scan :=
  match Program.read (Dialect.ofPath path) source with
  | .ok program => ⟨program.references, 0⟩
  | .error faults => ⟨[], faults.length⟩

/-- Finds the imports of a module. -/
def scan (mode : ScanMode) (source path : String) : Scan :=
  match mode with
  | .syntaxTree => scanProgram source path
  | .text => ⟨TextScan.scanText source, 0⟩

/-- The specifiers of references. -/
def specifiers (refs : List Reference) : List String := refs.map Reference.specifier

end ModuleLoader
