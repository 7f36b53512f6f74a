import ModuleLoader.Proofs.Compile.ExportedNames
import ModuleLoader.Proofs.Compile.Replacement
import ModuleLoader.Proofs.Syntax.Literals

/-! # Links

The declarations by which a module imports others and exports names are its links. A link in print
is read back as another one, in which strings that are written in another way have the same value,
and names that are written once are named once.

* **`Stmt.isLink`** says which statements these are, **`Stmt.reread`** what is read back.
* **`Stmt.exports_reread`** and **`Stmt.specifiers_reread`** say that what is read back has the same
  names and specifiers. -/

namespace ModuleLoader.Syntax

/-! ## Links -/

/-- A word that may name a variable of a module. -/
def isBindable (name : String) : Bool := Text.isIdentifierName name && !isReserved name

/-- The name is a word, or a string without halves of surrogate pairs. -/
def ModuleName.isPrintable : ModuleName → Bool
  | .ident name => Text.isIdentifierName name
  | .string literal => !literal.hasHalves

/-- The names of an export can be printed. -/
def ExportSpecifier.isPrintable (s : ExportSpecifier) : Bool :=
  s.bound.isPrintable && s.exported.isPrintable

/-- The export is one of a variable of the module. -/
def ExportSpecifier.isLocal (s : ExportSpecifier) : Bool :=
  match s.bound with
  | .ident name => !(isReserved name || (strictWords.contains name && name != "yield"))
  | .string _ => false

/-- The names of an import can be printed: where they are the same, they are words. -/
def ImportSpecifier.isPrintable (s : ImportSpecifier) : Bool :=
  s.imported.isPrintable && isBindable s.bound &&
    (s.imported.text != s.bound || s.imported == .ident s.bound)

/-- What an import binds can be printed: a default, and besides or instead the whole module or names
in braces. -/
def ImportClause.isPrintable (c : ImportClause) : Bool :=
  c.default?.all isBindable &&
    match c.whole?, c.named? with
    | none, none => c.default?.isSome
    | some whole, none => isBindable whole
    | none, some named => named.all ImportSpecifier.isPrintable
    | some _, some _ => false

/-- The statement imports another module, exports from one, or exports variables by their names. It
has no attributes and no halves of surrogate pairs. -/
def Stmt.isLink : Stmt → Bool
  | .importDecl .evaluation _ clause source none =>
    clause.all ImportClause.isPrintable && !source.hasHalves
  | .exportAll _ exported source none => exported.all ModuleName.isPrintable && !source.hasHalves
  | .exportNamed _ specifiers (some source) _ =>
    specifiers.all ExportSpecifier.isPrintable && !source.hasHalves
  | .exportNamed _ specifiers none _ =>
    specifiers.all ExportSpecifier.isPrintable && specifiers.all ExportSpecifier.isLocal
  | _ => false

/-! ## What is read back -/

/-- The name that is read back. -/
def ModuleName.reread : ModuleName → ModuleName
  | .ident name => .ident name
  | .string literal => .string (Lexer.reread literal)

/-- The export that is read back. -/
def ExportSpecifier.reread (s : ExportSpecifier) : ExportSpecifier :=
  ⟨s.bound.reread, if s.bound.text == s.exported.text then s.bound.reread else s.exported.reread,
    false⟩

/-- The import that is read back. -/
def ImportSpecifier.reread (s : ImportSpecifier) : ImportSpecifier :=
  ⟨s.imported.reread, s.bound, false⟩

/-- What is read back of what an import binds. -/
def ImportClause.reread (c : ImportClause) : ImportClause :=
  { c with named? := c.named?.bind fun named =>
      if named.isEmpty && c.default?.isSome then none else some (named.map ImportSpecifier.reread) }

/-- The link that is read back. -/
def Stmt.reread : Stmt → Stmt
  | .importDecl phase _ clause source attributes =>
    .importDecl phase false (clause.map ImportClause.reread) (Lexer.reread source) attributes
  | .exportAll _ exported source attributes =>
    .exportAll false (exported.map ModuleName.reread) (Lexer.reread source) attributes
  | .exportNamed _ specifiers source _ =>
    .exportNamed false (specifiers.map ExportSpecifier.reread) (source.map Lexer.reread) none
  | s => s

/-- A name that is read back has the same text. -/
@[simp] theorem ModuleName.text_reread (name : ModuleName) : name.reread.text = name.text := by
  cases name <;> rfl

/-- An export that is read back exports the same name. -/
theorem ExportSpecifier.text_exported_reread (s : ExportSpecifier) :
    s.reread.exported.text = s.exported.text := by
  unfold reread
  dsimp only
  split
  · next h => rw [ModuleName.text_reread, eq_of_beq h]
  · rw [ModuleName.text_reread]

/-- A link that is read back exports the same names. -/
theorem Stmt.exports_reread {s : Stmt} (h : s.isLink = true) : s.reread.exports = s.exports := by
  have hnames : ∀ specifiers : List ExportSpecifier,
      (specifiers.map ExportSpecifier.reread).map (fun s => s.exported.text) =
        specifiers.map fun s => s.exported.text := by
    intro specifiers
    rw [List.map_map]
    exact List.map_congr_left fun s _ => s.text_exported_reread
  unfold isLink at h
  split at h
  · rfl
  · next exported _ =>
    cases exported with
    | none => rfl
    | some name =>
      change ([name.reread.text], [name.reread.text]) = ([name.text], [name.text])
      rw [ModuleName.text_reread]
  · next specifiers _ _ => exact Prod.ext (hnames specifiers) (hnames specifiers)
  · next specifiers _ => exact Prod.ext (hnames specifiers) (hnames specifiers)
  · cases h

/-- A link that is read back has the same specifier. -/
theorem Stmt.specifiers_reread {s : Stmt} (h : s.isLink = true) :
    (s.reread.imports.filterMap Import.printed?).map (fun s => s.literal.value) =
      (s.imports.filterMap Import.printed?).map fun s => s.literal.value := by
  unfold isLink at h
  split at h
  all_goals first | rfl | cases h

end ModuleLoader.Syntax
