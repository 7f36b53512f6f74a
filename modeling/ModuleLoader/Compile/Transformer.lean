import ModuleLoader.Compile.Program
import ModuleLoader.Compile.Redirect
import ModuleLoader.Loader.Event
import ModuleLoader.Syntax.Printer.Program

/-! # Compiling a module

A transformer turns the source of a module into code that can be run, and asks on the way for the
specifiers that are to stand in the place of those in the source.

* **`Transformation`** is what a transformer answers.
* **`Transformer.compiler`** reads and compiles a module, replaces its specifiers and prints it.
* **`Transformer.lines`** only replaces the specifiers of lines that import. -/

namespace ModuleLoader

open Syntax

/-- The code of a compiled module. -/
structure Compiled where
  /-- The code. -/
  code : String
  /-- How many specifiers were replaced in it. -/
  replaced : Nat
deriving DecidableEq, Repr, Inhabited

/-- What a transformer answers. -/
structure Transformation where
  /-- The specifiers it has asked for, in order. -/
  asked : List String
  /-- What it reports in the end. -/
  reports : List Event
  /-- The compiled module, or why there is none. -/
  outcome : Except Failure Compiled

/-- Turns the source of the module at a URL into code, with some specifiers replaced. -/
abbrev Transformer := Url → String → (String → Option String) → Transformation

namespace Transformation

/-- A module that cannot be compiled. -/
def failed (url : Url) (asked : List String) (reason : String) : Transformation :=
  ⟨asked, [], .error (.transform url reason)⟩

end Transformation

namespace Transformer

/-- The faults of a module in one line. -/
def faultText (kind : String) (faults : List String) : String :=
  match faults with
  | [] => kind
  | faults => kind ++ ": " ++ String.intercalate "; " faults

/-- Replaces the specifiers of a program. -/
def redirectProgram (p : Program) (f : String → Option String) : Program × Asked :=
  let (body, asked) := (redirectBody f p.body).run ⟨[], 0⟩
  ({ p with body }, asked)

/-- Reads a module, compiles it, replaces its specifiers and prints it. -/
def compiler (j : JsxConfig) : Transformer := fun url source f =>
  let path := url.pathText
  match Program.read (Dialect.ofPath path) source with
  | .error faults => .failed url [] (faultText "syntax error" faults)
  | .ok program =>
    match program.compile j path source with
    | .error faults => .failed url [] (faultText "transform error" faults)
    | .ok program =>
      let (program, asked) := redirectProgram program f
      let code := program.print
      ⟨asked.specifiers, [.compiled url asked.replaced code.utf8ByteSize],
        .ok ⟨code, asked.replaced⟩⟩

/-! ## Lines -/

/-- What stands between two texts that a line starts and ends with. -/
def between? (opening closing : List Char) (line : List Char) : Option (List Char) :=
  if opening.isPrefixOf line then
    let rest := line.drop opening.length
    if closing.isSuffixOf rest then some (rest.take (rest.length - closing.length)) else none
  else none

/-- The two ways in which a line may import. -/
def importForms : List (List Char × List Char) :=
  [("import \"".toList, "\";".toList), ("import(\"".toList, "\");".toList)]

/-- What has become of the lines so far: the specifiers asked for, how many were replaced, and the
lines. -/
structure Lines where
  /-- The specifiers asked for. -/
  asked : List String
  /-- How many were replaced. -/
  replaced : Nat
  /-- The lines with their replacements. -/
  written : List (List Char)
deriving DecidableEq, Repr, Inhabited

/-- Replaces the specifier of one line, if the line imports and there is another. -/
def Lines.redirect (f : String → Option String) (l : Lines) (line : List Char) : Lines :=
  match importForms.findSome? fun (opening, closing) =>
      (between? opening closing line).map fun s => (opening, s, closing) with
  | none => { l with written := l.written ++ [line] }
  | some (opening, s, closing) =>
    let specifier := String.ofList s
    match f specifier with
    | none => ⟨l.asked ++ [specifier], l.replaced, l.written ++ [line]⟩
    | some r =>
      ⟨l.asked ++ [specifier], l.replaced + 1, l.written ++ [opening ++ r.toList ++ closing]⟩

/-- Replaces specifiers line by line; a line that starts with two exclamation marks ends it with
the rest of the line. -/
def Lines.redirectAll (f : String → Option String) :
    Lines → List (List Char) → Lines × Option String
  | l, [] => (l, none)
  | l, ('!' :: '!' :: reason) :: _ => (l, some (String.ofList reason))
  | l, line :: rest => (l.redirect f line).redirectAll f rest

/-- Replaces the specifiers of lines that do nothing but import, and leaves all others. -/
def lines : Transformer := fun url source f =>
  let (l, failure) := Lines.redirectAll f ⟨[], 0, []⟩ (Dialect.splitAt '\n' source.toList)
  match failure with
  | some reason => .failed url l.asked reason
  | none =>
    ⟨l.asked, [], .ok ⟨String.ofList (List.intercalate ['\n'] l.written), l.replaced⟩⟩

end Transformer

end ModuleLoader
