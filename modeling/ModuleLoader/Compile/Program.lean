import ModuleLoader.Compile.Element.Tree
import ModuleLoader.Compile.Pragma
import ModuleLoader.Compile.Types.Elision
import ModuleLoader.Compile.Types.Tree
import ModuleLoader.Config.Basic
import ModuleLoader.Syntax.Program

/-! # Compiled programs

* **`Program.compile`** turns a program into one without types and elements. -/

namespace ModuleLoader.Syntax

/-- Why elements cannot be compiled in the way that is asked for. -/
def ElementOptions.faults (o : ElementOptions) (p : Pragmas) : List String :=
  if o.isClassic then ["importSource cannot be set when runtime is classic."]
  else
    (if p.factory.isSome || p.fragment.isSome then
        ["pragma and pragmaFrag cannot be set when runtime is automatic."]
      else []) ++
    (if o.importSource.isEmpty then
        ["importSource cannot be an empty string or longer than u32::MAX bytes"]
      else [])

namespace Program

/-- What the comments of a program say about elements, if it may have any. -/
def pragmas (p : Program) : Pragmas :=
  if p.dialect.hasJsx then Pragmas.ofComments p.comments else Pragmas.none

/-- How the elements of a program are compiled. -/
def elementOptions (p : Program) (j : JsxConfig) (text : String) : ElementOptions :=
  ⟨p.pragmas.importSource.getD j.importSource, j.development, p.pragmas.isClassic, text.toList⟩

/-- A program with only what stands for values in it, and whether it must be marked as a module. -/
def eraseTypes (p : Program) : Compile (List Stmt × Bool) := do
  if !p.dialect.hasTypes then return (p.body, false)
  if p.dialect.isDefinition then return ([], false)
  let body ← eraseBody .top [] p.body
  let needs : Needs :=
    ⟨.ofBody p.body, (bodyMentions p.body).contains .element, body⟩
  let left := body.filterMap needs.elide
  return (left, lostAll body left)

/-- Compiles the statements of a program. -/
def compileStmts (p : Program) (o : ElementOptions) (path : String) : Compile (List Stmt) := do
  let (body, isLost) ← p.eraseTypes
  let body ← compileBody o ThisScope.ofModule body
  let c ← get
  let body := insertDeclarations (c.declarations path) body
  return if isLost && c.imports.isEmpty then body ++ [moduleMarker] else body

/-- Compiles a program at a path, or lists why that is not possible. -/
def compile (p : Program) (j : JsxConfig) (path text : String) : Except (List String) Program :=
  let o := p.elementOptions j text
  let mentions := bodyMentions p.body ++ allMentions p.asides
  let (body, c) := (p.compileStmts o path).run (Compile.start mentions)
  let faults := o.faults p.pragmas ++ c.faults
  if faults.isEmpty then
    .ok { p with body, interpreter := if p.dialect.isDefinition then none else p.interpreter }
  else .error faults

end Program

end ModuleLoader.Syntax
