import ModuleLoader.Compile.Constant
import ModuleLoader.Compile.Names

/-! # What is known while a program is compiled

* **`Compilation`** is what has been found out and made so far.
* **`Compile.fault`** notes that the program cannot be compiled.
* **`Compile.freshName`** makes a name that the program does not have.
* **`Compile.requireImport`** imports a function that compiled code calls. -/

namespace ModuleLoader.Syntax

/-- A name that is imported for compiled code. -/
structure AddedImport where
  /-- The package it is imported from. -/
  source : String
  /-- The name in that package. -/
  imported : String
  /-- The name in the compiled module. -/
  bound : String
deriving DecidableEq, Repr, Inhabited

/-- What has been found out and made while a program is compiled. -/
structure Compilation where
  /-- The names that are taken. -/
  names : Names
  /-- Why the program cannot be compiled, in order. -/
  faults : List String
  /-- The enumerations so far. -/
  enums : Enums
  /-- The names that compiled code needs from packages, in the order of their first uses. -/
  imports : List AddedImport
  /-- The variable that holds the path of the module, if it is needed. -/
  fileName : Option String
deriving Repr, Inhabited

/-- A step of a compilation. -/
abbrev Compile := StateM Compilation

namespace Compile

/-- The start of a compilation of a program that mentions some names. -/
def start (mentions : List Mention) : Compilation := ⟨Names.ofMentions mentions, [], [], [], none⟩

/-- Notes that the program cannot be compiled. -/
def fault (message : String) : Compile Unit := fun c =>
  ((), { c with faults := c.faults ++ [message] })

/-- Makes a name that the program does not have. -/
def freshName (name : String) : Compile String := fun c =>
  let (made, names) := c.names.fresh name
  (made, { c with names })

/-- Remembers the values of the members of an enumeration. -/
def recordEnum (name : String) (members : EnumMembers) : Compile Unit := fun c =>
  ((), { c with enums := (name, members) :: c.enums })

/-- The members of the enumerations so far. -/
def knownEnums : Compile Enums := fun c => (c.enums, c)

/-- The name of a function that is imported from a package, now or before. -/
def requireImport (source imported : String) : Compile String := do
  let c ← get
  match c.imports.find? fun i => i.source == source && i.imported == imported with
  | some i => return i.bound
  | none =>
    let bound ← freshName imported
    modify fun c => { c with imports := c.imports ++ [⟨source, imported, bound⟩] }
    return bound

/-- The variable that holds the path of the module. -/
def requireFileName : Compile String := do
  let c ← get
  match c.fileName with
  | some name => return name
  | none =>
    let name ← freshName "jsxFileName"
    modify fun c => { c with fileName := some name }
    return name

end Compile

end ModuleLoader.Syntax
