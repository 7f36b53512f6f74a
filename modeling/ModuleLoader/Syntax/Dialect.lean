/-! # What a file may hold

The name of a file tells whether it has elements and types in it.

* **`Dialect`** is what a file may hold.
* **`Dialect.ofPath`** tells it from a path. -/

namespace ModuleLoader.Syntax

/-- What a file may hold. -/
structure Dialect where
  /-- Types may be written. -/
  hasTypes : Bool
  /-- Elements may be written. -/
  hasJsx : Bool
  /-- The file only declares. -/
  isDefinition : Bool
deriving DecidableEq, Repr, Inhabited

namespace Dialect

/-- Code that is to be run as it is: neither elements nor types. -/
def plain : Dialect := ⟨false, false, false⟩

/-- The parts of a text between the places of a character. -/
def splitAt (sep : Char) : List Char → List (List Char)
  | [] => [[]]
  | c :: cs =>
    if c == sep then [] :: splitAt sep cs
    else
      match splitAt sep cs with
      | part :: parts => (c :: part) :: parts
      | [] => [[c]]

/-- The last name in a path, which `..` is not; empty names and `.` are passed over. -/
def fileName (path : String) : Option (List Char) :=
  match ((splitAt '/' path.toList).filter fun s => !s.isEmpty && s != ['.']).getLast? with
  | some name => if name == ['.', '.'] then none else some name
  | none => none

/-- The file only declares: one of the last two parts of its name before the extension is `d`. -/
def isDefinitionStem (reversedParts : List (List Char)) : Bool :=
  (reversedParts.take 2).any (· == ['d'])

/-- What a file with the given name may hold: types when its extension says so, and elements when
it does not forbid them. -/
def ofPath (path : String) : Dialect :=
  match fileName path with
  | none => ⟨false, true, false⟩
  | some name =>
    match (splitAt '.' name).reverse with
    | extension :: stem :: stems =>
      let isNamed := !(stem.isEmpty && stems.isEmpty)
      if !isNamed then ⟨false, true, false⟩
      else if extension == "tsx".toList then ⟨true, true, false⟩
      else if extension == "ts".toList || extension == "mts".toList ||
          extension == "cts".toList then
        ⟨true, false, isDefinitionStem (stem :: stems)⟩
      else ⟨false, true, false⟩
    | _ => ⟨false, true, false⟩

end Dialect

end ModuleLoader.Syntax
