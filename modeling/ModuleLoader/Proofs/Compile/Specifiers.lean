import ModuleLoader.Compile.Transformer
import ModuleLoader.Imports.Scan
import ModuleLoader.Loader.Call
import ModuleLoader.Proofs.Compile.Elements
import ModuleLoader.Proofs.Compile.Erasure
import ModuleLoader.Proofs.Compile.Redirection

/-! # What a compiled program imports

A compiled program imports what its source does, and the functions that make elements. The pass that
replaces specifiers asks for what the compiled program imports, so it asks for nothing that a scan
of the source does not report, but for two kinds of specifiers: the packages of the functions that
make elements, and the texts of `import()` calls with a type beside them.

* **`Program.compile_within`** says what a compiled program imports.
* **`Import.hidden?`** is a specifier that a scan of the source does not report.
* **`Transformer.asked_of_compiler`** says what is asked for. -/

namespace ModuleLoader

namespace Syntax

open Compile Import

/-! ## Imports and exports of types -/

/-- What an export imports depends only on the module that it exports from. -/
theorem imports_exportNamed {isType isType' : Bool} {specifiers specifiers' : List ExportSpecifier}
    {attributes attributes' : Option Attributes} (source : Option StringLiteral) :
    (Stmt.exportNamed isType specifiers source attributes).imports =
      (Stmt.exportNamed isType' specifiers' source attributes').imports := by
  cases source <;> rfl

/-- What is left of a statement of a module imports what the statement does. -/
theorem Needs.elide_within {n : Needs} {s t : Stmt} (h : n.elide s = some t) :
    Within t.imports s.imports := by
  fun_induction n.elide s generalizing t with
  | case1 comments s ih =>
    obtain ⟨t', ht', rfl⟩ := Option.map_eq_some_iff.1 h
    have hleft : Within t'.imports s.imports := ih ht'
    exact hleft
  | case4 =>
    obtain ⟨clause, _, rfl⟩ := Option.map_eq_some_iff.1 h
    exact .refl _
  | case6 | case8 =>
    cases h
    exact .of_eq (imports_exportNamed _)
  | case23 =>
    cases h
    exact .of_eq (imports_aliasStmt _ _)
  | case3 | case10 | case18 | case25 | case26 =>
    cases h
    exact .refl _
  | _ => cases h

/-- What is left of the statements of a module imports what they do. -/
theorem bodyImports_filterMap_elide_within (n : Needs) (body : List Stmt) :
    Within (bodyImports (body.filterMap n.elide)) (bodyImports body) := by
  induction body with
  | nil => exact .refl _
  | cons s body ih =>
    rw [List.filterMap_cons]
    cases h : n.elide s with
    | none => exact ih.right
    | some t => exact (Needs.elide_within h).append ih

namespace Program

variable {packages : String → Prop} {p : Program}

/-- Leaving types out of a program carries its imports. -/
theorem eraseTypes_carries :
    Carries packages (fun left => bodyImports left.1) p.eraseTypes (bodyImports p.body) := by
  unfold eraseTypes
  split
  · exact .pure (.refl _)
  split
  · exact .pure (.nil _)
  · exact (eraseBody_carries p.body).bind fun left hleft =>
      .pure ((bodyImports_filterMap_elide_within _ left).trans hleft)

end Program

/-! ## Imports for compiled code -/

/-- The packages that functions making elements are imported from, as imports. -/
def ElementOptions.packageImports (o : ElementOptions) : List Import :=
  [.declaration (.made o.runtime), .declaration (.made o.importSource)]

/-- Imports are only joined by their packages. -/
theorem exists_of_mem_importsBySource {imports : List AddedImport} {g : String × List AddedImport}
    (h : g ∈ importsBySource imports) : ∃ i ∈ imports, i.source = g.1 := by
  suffices hfold : ∀ groups : List (String × List AddedImport), ∀ g ∈ imports.foldl (fun groups i =>
      if groups.any (·.1 == i.source) then
        groups.map fun g => if g.1 == i.source then (g.1, g.2 ++ [i]) else g
      else groups ++ [(i.source, [i])]) groups,
      (∃ g' ∈ groups, g'.1 = g.1) ∨ ∃ i ∈ imports, i.source = g.1 by
    obtain ⟨g', hg', _⟩ | h := hfold [] g h
    · cases hg'
    · exact h
  clear h
  induction imports with
  | nil => exact fun groups g hg => .inl ⟨g, hg, rfl⟩
  | cons i imports ih =>
    intro groups g hg
    rw [List.foldl_cons] at hg
    obtain ⟨g', hg', he⟩ | ⟨i', hi', he⟩ := ih _ g hg
    · split at hg'
      · obtain ⟨old, hold, rfl⟩ := List.mem_map.1 hg'
        refine .inl ⟨old, hold, ?_⟩
        rw [← he]
        split <;> rfl
      · obtain hg' | hg' := List.mem_append.1 hg'
        · exact .inl ⟨g', hg', he⟩
        · cases List.mem_singleton.1 hg'
          exact .inr ⟨i, List.mem_cons_self, he⟩
    · exact .inr ⟨i', List.mem_cons_of_mem _ hi', he⟩

/-- The declarations that compiled code needs import the packages of what it needs. -/
theorem declarations_within {o : ElementOptions} {c : Compilation} {path : String}
    (h : ∀ i ∈ c.imports, o.Supplies i.source) :
    Within (bodyImports (c.declarations path)) o.packageImports := by
  have hgroups : ∀ groups : List (String × List AddedImport), (∀ g ∈ groups, o.Supplies g.1) →
      Within (bodyImports (groups.map fun g => importStmt g.1 g.2))
        o.packageImports := by
    intro groups hgroups
    induction groups with
    | nil => exact .nil _
    | cons g groups ih =>
      have hpackage : Within [declaration (.made g.1)] o.packageImports := by
        obtain he | he := hgroups g List.mem_cons_self
        · exact .of_subset (by simp [ElementOptions.packageImports, he])
        · exact .of_subset (by simp [ElementOptions.packageImports, he])
      exact hpackage.both (ih fun g hg => hgroups g (List.mem_cons_of_mem _ hg))
  unfold Compilation.declarations
  rw [bodyImports_append]
  refine .both ?_ (hgroups _ fun g hg => ?_)
  · cases c.fileName <;> exact .nil _
  · obtain ⟨i, hi, he⟩ := exists_of_mem_importsBySource hg
    exact he ▸ h i hi

/-- Declarations that are put into a body import what they do. -/
theorem insertDeclarations_within (declarations body : List Stmt) :
    Within (bodyImports (insertDeclarations declarations body))
      (bodyImports body ++ bodyImports declarations) := by
  have hbody : bodyImports body = bodyImports (body.takeWhile Stmt.isDirective) ++
      (bodyImports ((body.dropWhile Stmt.isDirective).takeWhile Stmt.isImport) ++
        bodyImports ((body.dropWhile Stmt.isDirective).dropWhile Stmt.isImport)) := by
    rw [← bodyImports_append, List.takeWhile_append_dropWhile, ← bodyImports_append,
      List.takeWhile_append_dropWhile]
  unfold insertDeclarations
  dsimp only
  rw [bodyImports_append, bodyImports_append, bodyImports_append, hbody]
  exact Within.of_subset (by grind)

/-- The statements of a module with the declarations that they need import what they do, and the
packages of functions that make elements. -/
theorem withDeclarations_within {o : ElementOptions} {c : Compilation} {path : String}
    {isLost : Bool} {body : List Stmt} {is : List Import} (hbody : Within (bodyImports body) is)
    (h : ∀ i ∈ c.imports, o.Supplies i.source) :
    Within
      (bodyImports (if isLost && c.imports.isEmpty
        then insertDeclarations (c.declarations path) body ++ [moduleMarker]
        else insertDeclarations (c.declarations path) body))
      (is ++ o.packageImports) := by
  have hinserted : Within (bodyImports (insertDeclarations (c.declarations path) body))
      (is ++ o.packageImports) :=
    (insertDeclarations_within _ _).trans (hbody.append (declarations_within h))
  split
  · rw [bodyImports_append]
    exact hinserted.both (.nil _)
  · exact hinserted

namespace Program

variable {p p' : Program} {j : JsxConfig} {path text : String}

/-- The compiled statements of a program import what the program does, and the packages of
functions that make elements. -/
theorem compileStmts_within (o : ElementOptions) (mentions : List Mention) :
    Within (bodyImports ((p.compileStmts o path).run (Compile.start mentions)).1)
      (bodyImports p.body ++ o.packageImports) := by
  obtain ⟨hleft, hadded⟩ :=
    (eraseTypes_carries : Carries o.Supplies _ p.eraseTypes _) (Compile.start mentions)
  obtain ⟨hbody, hadded'⟩ := compileBody_carries (o := o) (s := .ofModule)
    (p.eraseTypes (Compile.start mentions)).1.1 (p.eraseTypes (Compile.start mentions)).2
  refine withDeclarations_within (hbody.trans hleft) fun i hi => ?_
  obtain hi | hi := hadded' i hi
  · obtain hi | hi := hadded i hi
    · cases hi
    · exact hi
  · exact hi

/-- The statements of a compiled program. -/
theorem body_of_compile (h : p.compile j path text = .ok p') :
    p'.body = ((p.compileStmts (p.elementOptions j text) path).run
      (Compile.start (bodyMentions p.body ++ allMentions p.asides))).1 := by
  unfold compile at h
  dsimp only at h
  split at h
  rename_i hcompiled
  rw [hcompiled]
  split at h
  · cases h
    rfl
  · cases h

/-- A compiled program imports what its source does, and the packages of functions that make
elements. -/
theorem compile_within (h : p.compile j path text = .ok p') :
    Within (bodyImports p'.body)
      (bodyImports p.body ++ (p.elementOptions j text).packageImports) := by
  rw [body_of_compile h]
  exact compileStmts_within _ _

end Program

/-! ## What a scan reports -/

/-- The text that an `import()` is called on when a scan does not report it: there is a type beside
it. -/
def Import.hidden? : Import → Option String
  | .declaration _ => none
  | .call source => if (dynamicReference source).isEmpty then source.literal? else none

/-- The specifiers of a program that a scan does not report. -/
def Program.hiddenSpecifiers (p : Program) : List String :=
  (bodyImports p.body).filterMap Import.hidden?

/-- What a scan reports of an `import()` is the text that it is called on. -/
theorem dynamicReference_eq (e : Expr) :
    dynamicReference e = [] ∨ ∃ x, dynamicReference e = [⟨x, true⟩] ∧ e.literal? = some x := by
  induction e using dynamicReference.induct with
  | case1 literal => exact .inr ⟨literal.value, rfl, rfl⟩
  | case2 comments e ih => exact ih
  | case3 e hstring hcommented =>
    refine .inl ?_
    rw [dynamicReference]
    · exact hstring
    · exact hcommented

/-- What a scan reports of an import is what it refers to. -/
theorem Import.reference?_eq_of_mem {i : Import} {r : Reference} (h : r ∈ i.references) :
    i.reference? = some r := by
  cases i with
  | declaration source => exact congrArg some (List.mem_singleton.1 h).symm
  | call source =>
    obtain hnone | ⟨x, hsome, hx⟩ := dynamicReference_eq source
    · rw [references, hnone] at h
      cases h
    · rw [references, hsome] at h
      rw [reference?, hx, List.mem_singleton.1 h]
      rfl

/-- What an import refers to is what a scan reports of it, but for an `import()` with a type beside
its text. -/
theorem Import.mem_or_hidden_of_reference? {i : Import} {r : Reference}
    (h : i.reference? = some r) :
    r ∈ i.references ∨ i.hidden? = some r.specifier ∧ r.isDynamic = true := by
  cases i with
  | declaration source =>
    cases h
    exact .inl (List.mem_singleton_self _)
  | call source =>
    obtain ⟨x, hx, rfl⟩ := Option.map_eq_some_iff.1 h
    obtain hnone | ⟨y, hsome, hy⟩ := dynamicReference_eq source
    · refine .inr ⟨?_, rfl⟩
      rw [hidden?, hnone]
      exact hx
    · refine .inl ?_
      rw [references, hsome, Option.some.inj (hx.symm.trans hy)]
      exact List.mem_singleton_self _

namespace Program

variable {p p' : Program} {j : JsxConfig} {path text : String}

/-- What a scan of a compiled program reports, a scan of its source does as well, but for the
packages of functions that make elements and for `import()` calls with a type beside their text. -/
theorem reference_of_compile (h : p.compile j path text = .ok p') {r : Reference}
    (hr : r ∈ bodyReferences p'.body) :
    r ∈ bodyReferences p.body ∨
      r.isDynamic = true ∧ r.specifier ∈ p.hiddenSpecifiers ∨
      r.isDynamic = false ∧ (p.elementOptions j text).Supplies r.specifier := by
  rw [bodyReferences_eq] at hr
  obtain ⟨i, hi, hr⟩ := List.mem_flatMap.1 hr
  have hwithin := compile_within h (List.mem_filterMap.2 ⟨i, hi, reference?_eq_of_mem hr⟩)
  obtain ⟨i', hi', hr'⟩ := List.mem_filterMap.1 hwithin
  obtain hsource | hpackage := List.mem_append.1 hi'
  · obtain hreported | ⟨hhidden, hdynamic⟩ := mem_or_hidden_of_reference? hr'
    · rw [bodyReferences_eq]
      exact .inl (List.mem_flatMap.2 ⟨i', hsource, hreported⟩)
    · exact .inr (.inl ⟨hdynamic, List.mem_filterMap.2 ⟨i', hsource, hhidden⟩⟩)
  · refine .inr (.inr ?_)
    simp only [ElementOptions.packageImports, List.mem_cons, List.not_mem_nil, or_false] at hpackage
    obtain rfl | rfl := hpackage
    · cases hr'
      exact ⟨rfl, .inl rfl⟩
    · cases hr'
      exact ⟨rfl, .inr rfl⟩

end Program

end Syntax

/-! ## What is asked for -/

namespace Transformer

open Syntax

variable {j : JsxConfig} {url : Url} {source : String} {f : String → Option String}

/-- A module that is compiled has been read and compiled; its code is the compiled program with its
specifiers replaced, and what was asked for is what that program imports. -/
theorem exists_programs_of_compiler {code : Compiled}
    (h : (compiler j url source f).outcome = .ok code) :
    ∃ p p', Program.read (Dialect.ofPath url.pathText) source = .ok p ∧
      p.compile j url.pathText source = .ok p' ∧
      code.code = (redirectProgram p' f).1.print ∧
      (compiler j url source f).asked = (bodyReferences p'.body).map Reference.specifier := by
  unfold compiler at h ⊢
  dsimp only at h ⊢
  cases hread : Program.read (Dialect.ofPath url.pathText) source with
  | error faults => rw [hread] at h; cases h
  | ok p =>
    rw [hread] at h
    dsimp only at h ⊢
    cases hcompile : p.compile j url.pathText source with
    | error faults => rw [hcompile] at h; cases h
    | ok p' =>
      rw [hcompile] at h
      cases h
      exact ⟨p, p', rfl, hcompile, rfl, redirectBody_asks p'.body ⟨[], 0⟩⟩

/-- The pass that replaces specifiers asks for nothing that a scan of the source does not report,
but for the packages of functions that make elements and for the texts of `import()` calls with a
type beside them. -/
theorem asked_of_compiler {code : Compiled} (h : (compiler j url source f).outcome = .ok code)
    {x : String} (hx : x ∈ (compiler j url source f).asked) :
    x ∈ specifiers (scan .syntaxTree source url.pathText).references ∨
      ∃ p, Program.read (Dialect.ofPath url.pathText) source = .ok p ∧
        (x ∈ p.hiddenSpecifiers ∨ (p.elementOptions j source).Supplies x) := by
  obtain ⟨p, p', hread, hcompile, -, hasked⟩ := exists_programs_of_compiler h
  rw [hasked] at hx
  obtain ⟨r, hr, rfl⟩ := List.mem_map.1 hx
  obtain hreported | ⟨_, hhidden⟩ | ⟨_, hpackage⟩ := Program.reference_of_compile hcompile hr
  · refine .inl ?_
    rw [scan, scanProgram, hread]
    exact specifier_mem_mergeReferences.2 (List.mem_map_of_mem hreported)
  · exact .inr ⟨p, hread, .inl hhidden⟩
  · exact .inr ⟨p, hread, .inr hpackage⟩

/-- A module that imports another and makes an element. -/
def elementSource : String :=
  "import \x7b u \x7d from \"./util.js\";\nexport const v = <p>\x7bu\x7d</p>;\n"

/-- For the element a package is asked for that a scan does not report. -/
theorem asked_of_compiler_elementSource :
    ∃ code,
      (compiler .default (fileUrl "main.jsx") elementSource fun _ => none).outcome = .ok code ∧
      (compiler .default (fileUrl "main.jsx") elementSource fun _ => none).asked =
        ["./util.js", "react/jsx-runtime"] ∧
      specifiers (scan .syntaxTree elementSource (fileUrl "main.jsx").pathText).references =
        ["./util.js"] ∧
      ∃ p, Program.read (Dialect.ofPath (fileUrl "main.jsx").pathText) elementSource = .ok p ∧
        ("react/jsx-runtime" ∈ p.hiddenSpecifiers ∨
          (p.elementOptions .default elementSource).Supplies "react/jsx-runtime") := by
  have hok : (compiler .default (fileUrl "main.jsx") elementSource
      fun _ => none).outcome.isOk = true := by
    decide +kernel
  have hasked : (compiler .default (fileUrl "main.jsx") elementSource fun _ => none).asked =
      ["./util.js", "react/jsx-runtime"] := by
    decide +kernel
  have hscan : specifiers
      (scan .syntaxTree elementSource (fileUrl "main.jsx").pathText).references =
        ["./util.js"] := by
    decide +kernel
  cases houtcome : (compiler .default (fileUrl "main.jsx") elementSource fun _ => none).outcome with
  | error failure =>
    rw [houtcome] at hok
    cases hok
  | ok code =>
    obtain hreported | hpackage := asked_of_compiler houtcome
      (hasked ▸ List.mem_cons_of_mem _ List.mem_cons_self)
    · rw [hscan] at hreported
      exact absurd hreported (by decide)
    · exact ⟨code, rfl, hasked, hscan, hpackage⟩

/-- The pass that replaces specifiers asks for a specifier of a module that a scan does not
report. -/
def AsksUnreported (j : JsxConfig) (url : Url) (source x : String) : Prop :=
  (compiler j url source fun _ => none).outcome.isOk = true ∧
    x ∈ (compiler j url source fun _ => none).asked ∧ isBare x = false ∧
    x ∉ specifiers (scan .syntaxTree source url.pathText).references

/-- An import with a type beside its text is not reported, and neither is a package that is a file
on the server. -/
theorem asksUnreported_of_type_of_package :
    AsksUnreported .default (fileUrl "main.ts") "import(\"./util.js\" as string);\n" "./util.js" ∧
      AsksUnreported ⟨"./rt", false⟩ (fileUrl "main.jsx") "export const v = <p/>;\n"
        "./rt/jsx-runtime" := by
  unfold AsksUnreported
  decide +kernel

end Transformer

end ModuleLoader
