import ModuleLoader.Exports
import ModuleLoader.Proofs.Compile.ExportedNames
import ModuleLoader.Proofs.Imports.TreeScan
import ModuleLoader.Proofs.Syntax.Patterns

/-! # Where names are exported

The names that a module exports are listed by going down the targets of its declarations. Where a
name is exported is said by a path instead: to the name in the tree of a declaration, over parts
that bind what the whole does, or to a specifier by its number.

* **`Node.bindingAt?`** is the name that is bound at a place in a tree.
* **`Stmt.exportAt?`** is the name under which something is exported at a place in a statement,
  **`Program.exportAt?`** at a place in a program.
* **`Program.placed_exports`** says that the names that are listed are those that are exported
  somewhere, in the order of the text.
* **`exportsOf_lists`** says so of the code of a module, that no name is listed twice, and that the
  targets are of no other form. -/

namespace ModuleLoader

namespace Syntax

/-! ## Bindings -/

/-- The part of a tree with the given number binds what the tree does: an element of a pattern, the
target before a default or behind three dots, the value of a property, a declarator. -/
def Node.bindsBy : Node → Nat → Bool
  | .expr (.array _), _ | .expr (.object _), _ | .expr (.spread _), _
  | .expr (.parameterProperty _), _ | .property (.spread _), _ | .stmt (.variables _ _), _
  | .stmt (.commented _ _), _ => true
  | .expr (.assign _ _ _), i => i == 0
  | .expr (.decorated decorators _), i => i == decorators.length
  | .property (.value _ _ _), i => i == 1
  | _, _ => false

/-- The name that a tree itself binds. -/
def Node.binding? : Node → Option String
  | .expr (.ident name) => some name
  | .stmt (.function _ name _ _) | .stmt (.classDecl _ name _ _) => name
  | .stmt (.enumDecl _ name _ _) | .stmt (.namespaceDecl (name :: _) _)
  | .stmt (.importEquals _ name _) | .stmt (.importRequire _ name _) => some name
  | _ => none

/-- The name that is bound at the end of a path that starts at a tree. -/
def Node.bindingAt? : Node → List Nat → Option String
  | n, [] => n.binding?
  | n, i :: path => if n.bindsBy i then n.parts[i]?.bind fun m => m.bindingAt? path else none

/-- The names that are bound in a tree. -/
def Node.bound : Node → List String
  | .expr e => e.boundNames
  | .property p => p.boundNames
  | .stmt s => s.declaredNames
  | _ => []

/-- The parts of a tree, with whether they bind what the tree does. -/
def Node.targets (n : Node) : List (Bool × Node) := n.parts.mapIdx fun i m => (n.bindsBy i, m)

/-- The names of a part that binds what the tree does. -/
def boundIf (m : Bool × Node) : List String := if m.1 then m.2.bound else []

/-- The names of targets are those of each of them. -/
theorem elementNames_eq_flatMap (es : List Expr) :
    elementNames es = es.flatMap Expr.boundNames := by
  induction es with
  | nil => rfl
  | cons e rest ih => rw [elementNames, ih, List.flatMap_cons]

/-- The names of properties are those of each of them. -/
theorem propertyNames_eq_flatMap (ps : List Property) :
    propertyNames ps = ps.flatMap Property.boundNames := by
  induction ps with
  | nil => rfl
  | cons p rest ih => rw [propertyNames_cons, ih, List.flatMap_cons]

/-- All parts of a tree bind what it does. -/
theorem Node.targets_of_all {n : Node} (h : ∀ i, n.bindsBy i = true) :
    n.targets.flatMap boundIf = n.parts.flatMap bound := by
  have htargets : n.targets = n.parts.map fun m => (true, m) :=
    List.ext_getElem? fun i => by simp [targets, h]
  rw [htargets, List.flatMap_map]
  rfl

/-- No part of a tree binds what it does. -/
theorem Node.targets_of_none {n : Node} (h : ∀ i, n.bindsBy i = false) :
    n.targets.flatMap boundIf = [] := by
  refine List.flatMap_eq_nil_iff.2 fun m hm => ?_
  obtain ⟨i, hi, rfl⟩ := List.mem_mapIdx.1 hm
  rw [boundIf, h]
  rfl

/-- The names in a tree are its own and those in the parts that bind what the tree does. -/
theorem Node.bound_eq (n : Node) : n.bound = n.binding?.toList ++ n.targets.flatMap boundIf := by
  have hall {n : Node} (h : ∀ i, n.bindsBy i = true) (hown : n.binding? = none)
      (hparts : n.bound = n.parts.flatMap bound) :
      n.bound = n.binding?.toList ++ n.targets.flatMap boundIf := by
    rw [targets_of_all h, hown, hparts]
    rfl
  have hnone {n : Node} (h : ∀ i, n.bindsBy i = false) (hown : n.bound = n.binding?.toList) :
      n.bound = n.binding?.toList ++ n.targets.flatMap boundIf := by
    rw [targets_of_none h, hown, List.append_nil]
  cases n with
  | expr e =>
    cases e with
    | array es => exact hall (fun _ => rfl) rfl (by
        rw [bound, Expr.boundNames, elementNames_eq_flatMap, parts, Expr.parts, List.flatMap_map]
        rfl)
    | object ps => exact hall (fun _ => rfl) rfl (by
        rw [bound, Expr.boundNames, propertyNames_eq_flatMap, parts, Expr.parts, List.flatMap_map]
        rfl)
    | spread e | parameterProperty e => exact hall (fun _ => rfl) rfl (List.append_nil _).symm
    | assign op target e =>
      simp [bound, binding?, targets, bindsBy, boundIf, parts, Expr.parts, Expr.boundNames]
    | decorated decorators e =>
      have hdecorators : (List.mapIdx
          (fun i m => ((Node.expr (.decorated decorators e)).bindsBy i, m))
          (decorators.map Node.expr)).flatMap boundIf = [] := by
        refine List.flatMap_eq_nil_iff.2 fun m hm => ?_
        obtain ⟨i, hi, rfl⟩ := List.mem_mapIdx.1 hm
        have hne : i ≠ decorators.length := fun he => by simp [he] at hi
        simp [boundIf, bindsBy, hne]
      rw [targets, parts, Expr.parts, List.mapIdx_append, List.flatMap_append, hdecorators]
      simp [bound, binding?, boundIf, bindsBy, Expr.boundNames]
    | _ => exact hnone (fun _ => rfl) rfl
  | property p =>
    cases p with
    | value key e isShorthand =>
      simp [bound, binding?, targets, bindsBy, boundIf, parts, Property.parts,
        Property.boundNames, propertyNames]
    | spread e => exact hall (fun _ => rfl) rfl rfl
    | method | jsxAttribute => exact hnone (fun _ => rfl) rfl
  | stmt s =>
    cases s with
    | commented comments s => exact hall (fun _ => rfl) rfl (List.append_nil _).symm
    | «variables» kind es => exact hall (fun _ => rfl) rfl (by
        rw [bound, Stmt.declaredNames, elementNames_eq_flatMap, parts, Stmt.parts, List.flatMap_map]
        rfl)
    | function kind name params body => cases name <;> exact hnone (fun _ => rfl) rfl
    | classDecl decorators name base members => cases name <;> exact hnone (fun _ => rfl) rfl
    | namespaceDecl names body => cases names <;> exact hnone (fun _ => rfl) rfl
    | _ => exact hnone (fun _ => rfl) rfl
  | member m => exact hnone (fun _ => rfl) rfl
  | case c => exact hnone (fun _ => rfl) rfl

/-- The names that are listed in a tree are those that are bound in it, in the order of their
paths. -/
theorem Node.placed_bindings (n : Node) :
    ∃ places, Places (fun path x => n.bindingAt? path = some x) n.bound places := by
  induction n using Node.induction with
  | step n ih =>
    rw [n.bound_eq]
    refine Places.whole (fun x => Iff.rfl) ?_
    have hinside : (fun path x => path ≠ [] ∧ n.bindingAt? path = some x) =
        WithinItems (fun m path x => m.1 = true ∧ m.2.bindingAt? path = some x) n.targets := by
      funext path x
      cases path with
      | nil => exact propext ⟨fun h => absurd rfl h.1, False.elim⟩
      | cons i path =>
        refine propext ((and_iff_right (List.cons_ne_nil i path)).trans ?_)
        rw [bindingAt?, WithinItems, targets, List.getElem?_mapIdx]
        cases n.bindsBy i <;> cases n.parts[i]? <;> simp
    rw [hinside]
    refine places_within fun m hm => ?_
    obtain ⟨i, hi, rfl⟩ := List.mem_mapIdx.1 hm
    cases hbinds : n.bindsBy i with
    | true => simpa [boundIf] using ih _ (List.getElem_mem hi)
    | false => exact ⟨[], by simp [boundIf], .nil, fun path x => by simp⟩

/-! ## Exports -/

/-- The name under which something is exported at the end of a path that starts at a statement. A
specifier is at its number. -/
def Stmt.exportAt? : Stmt → List Nat → Option String
  | .commented _ s, 0 :: path => s.exportAt? path
  | .exportDecl s, 0 :: path => (Node.stmt s).bindingAt? path
  | .exportNamed _ specifiers _ _, [i] => specifiers[i]?.map fun s => s.exported.text
  | .exportDefault _, [] | .exportDefaultDecl _, [] => some "default"
  | .exportAll _ (some exported) _ _, [] => some exported.text
  | _, _ => none

/-- The name under which something is exported at the end of a path into a program. -/
def Program.exportAt? (p : Program) : List Nat → Option String
  | [] => none
  | i :: path => p.body[i]?.bind fun s => s.exportAt? path

/-- What is exported in the only part of a statement is exported in the statement. -/
theorem Stmt.below_iff {at? at?' : List Nat → Option String}
    (h : ∀ path, at? (0 :: path) = at?' path) (hnil : at? [] = none)
    (hother : ∀ i path, at? ((i + 1) :: path) = none) (path : List Nat) (x : String) :
    at? path = some x ↔ ∃ path', path = 0 :: path' ∧ at?' path' = some x := by
  match path with
  | [] => simp [hnil]
  | 0 :: path => simp [h]
  | (i + 1) :: path => simp [hother]

/-- At most one name is exported in a statement if none is further inside. -/
theorem Stmt.alone {at? : List Nat → Option String} (h : ∀ i path, at? (i :: path) = none) :
    ∃ places, Places (fun path x => at? path = some x) (at? []).toList places := by
  refine Places.alone (at? []) (fun x => Iff.rfl) fun i path x hat => ?_
  rw [h] at hat
  cases hat

/-- The specifiers of a list of exports are at their numbers, with nothing inside them. -/
theorem Stmt.exportAt?_named {isType : Bool} {specifiers : List ExportSpecifier}
    {source : Option StringLiteral} {attributes : Option Attributes} (path : List Nat)
    (x : String) :
    (Stmt.exportNamed isType specifiers source attributes).exportAt? path = some x ↔
      WithinItems (fun specifier path x => path = [] ∧ some specifier.exported.text = some x)
        specifiers path x := by
  rcases path with _ | ⟨i, _ | ⟨j, path⟩⟩
  · exact iff_of_false (Option.some_ne_none x).symm id
  · rw [exportAt?, WithinItems]
    cases specifiers[i]? <;> simp
  · refine iff_of_false (Option.some_ne_none x).symm ?_
    rintro ⟨specifier, -, hpath, -⟩
    exact List.cons_ne_nil j path hpath

/-- The names that a statement exports are those that are exported in it, in the order of their
paths. -/
theorem Stmt.placed_exports : (s : Stmt) →
    ∃ places, Places (fun path x => s.exportAt? path = some x) s.exportedNames places
  | .commented _ s =>
    Places.below (below_iff (fun _ => rfl) rfl fun _ _ => rfl) s.placed_exports
  | .exportDecl s =>
    Places.below (below_iff (fun _ => rfl) rfl fun _ _ => rfl) (Node.stmt s).placed_bindings
  | .exportNamed isType specifiers source attributes => by
    rw [funext fun path => funext fun x => propext (exportAt?_named path x), exportedNames,
      List.map_eq_flatMap]
    refine places_within fun specifier _ => ?_
    exact Places.alone (some specifier.exported.text) (fun x => by simp) fun i path _ h =>
      List.cons_ne_nil i path h.1
  | .exportAll _ exported _ _ => by
    cases exported with
    | none => exact alone fun _ _ => rfl
    | some exported => exact alone fun _ _ => rfl
  | .exportDefault _ | .exportDefaultDecl _
  | .expr _ | .block _ | .variables _ _ | .function _ _ _ _ | .signature _ _ | .classDecl _ _ _ _
  | .ifThen _ _ | .ifElse _ _ _ | .forLoop _ _ _ _ | .forIn _ _ _ | .forOf _ _ _ _
  | .whileLoop _ _ | .doWhile _ _ | .returnValue _ | .throwValue _ | .tryCatch _ _ _
  | .tryFinally _ _ | .tryCatchFinally _ _ _ _ | .switch _ _ | .labeled _ _ | .withObject _ _
  | .importDecl _ _ _ _ _ | .declared _ | .enumDecl _ _ _ _ | .namespaceDecl _ _
  | .ambientModule _ | .exportAssign _ | .remarks _ | .directive _ _ | .empty | .continueTo _
  | .breakTo _ | .debugger | .typeDecl _ | .importEquals _ _ _ | .importRequire _ _ _
  | .exportAsNamespace _ => alone fun _ _ => rfl

/-- The names that a program exports are those that are exported in it, in the order of their
paths. -/
theorem Program.placed_exports (p : Program) :
    ∃ places, Places (fun path x => p.exportAt? path = some x) (exportedNames p.body) places := by
  have hstands : (fun path x => p.exportAt? path = some x) =
      WithinItems (fun s path x => s.exportAt? path = some x) p.body := by
    funext path x
    cases path with
    | nil => exact propext ⟨(nomatch ·), False.elim⟩
    | cons i path =>
      refine propext ?_
      rw [exportAt?, Option.bind_eq_some_iff]
      rfl
  rw [hstands]
  exact places_within fun s _ => s.placed_exports

/-! ## No name twice -/

/-- No name is in a list again just when none is repeated. -/
theorem nodup_of_repeatedNames {names : List String} (h : Parser.repeatedNames names = []) :
    names.Nodup := by
  induction names with
  | nil => exact .nil
  | cons name rest ih =>
    rw [Parser.repeatedNames] at h
    split at h
    · next hagain =>
      -- the name would be in the list of those that are
      have hmem : name ∈ rest := List.contains_iff_mem.1 (Bool.and_eq_true_iff.1 hagain).1
      have hnone := (List.append_eq_nil_iff.1 h).1
      exact absurd (beq_self_eq_true name) (List.filter_eq_nil_iff.1 hnone name hmem)
    · next hagain =>
      have hnot : name ∉ rest := fun hmem =>
        hagain (by rw [h]; simpa using hmem)
      exact List.nodup_cons.2 ⟨hnot, ih h⟩

/-- Comments before a statement export nothing. -/
theorem Stmt.exportedNames_bare (s : Stmt) : s.bare.exportedNames = s.exportedNames := by
  fun_induction Stmt.bare s with
  | case1 comments s ih => exact ih
  | case2 => rfl

/-- A statement exports a name as often as it is among those that are no default, unless it is the
name of a default. -/
theorem Stmt.count_exportedNames {x : String} (hx : x ≠ "default") (s : Stmt) :
    s.exportedNames.count x = (Parser.Stmt.namedExports s).count x := by
  rw [← s.exportedNames_bare, Parser.Stmt.namedExports]
  split
  · next h => simp [h, exportedNames, hx.symm]
  · next h => simp [h, exportedNames, hx.symm]
  · rfl

/-- No name is exported twice if there is no fault that says so. -/
theorem nodup_exportedNames {body : List Stmt} (h : Parser.exportFaults body = []) :
    (exportedNames body).Nodup := by
  obtain ⟨htwice, hdefault⟩ := List.append_eq_nil_iff.1 h
  have hnamed := nodup_of_repeatedNames (List.map_eq_nil_iff.1 htwice)
  refine List.nodup_iff_count_le_one.2 fun x => ?_
  by_cases hx : x = "default"
  · have hone : ¬ ((exportedNames body).filter (· == "default")).length > 1 := fun hmore => by
      rw [if_pos hmore] at hdefault
      cases hdefault
    rw [hx, List.count, List.countP_eq_length_filter]
    exact Nat.le_of_not_lt hone
  · have hcount : (exportedNames body).count x =
        (body.flatMap Parser.Stmt.namedExports).count x := by
      rw [exportedNames, List.count_flatMap, List.count_flatMap]
      exact congrArg List.sum (List.map_congr_left fun s _ => s.count_exportedNames hx)
    rw [hcount]
    exact List.nodup_iff_count_le_one.1 hnamed x

end Syntax

open Syntax

/-! ## The names of a module -/

/-- What a list of names has to say about the exports of a program. -/
structure ListsExports (names : List String) (p : Program) : Prop where
  /-- There is one for each place at which something is exported, in the order of the text. -/
  places : ∃ places, Places (fun path x => p.exportAt? path = some x) names places
  /-- No name is listed twice. -/
  nodup : names.Nodup
  /-- Exported variables are bound by names and patterns only, so no name is at any other place. -/
  targets : ∀ s ∈ p.body, s.ExportsTargets

/-- The names that are listed for the code of a module are those that it exports, or there is a
failure that says how many faults the code has. -/
theorem exportsOf_lists (code : String) :
    match Program.read Dialect.plain code with
    | .ok p => ∃ names, exportsOf code = .ok names ∧ ListsExports names p
    | .error faults => exportsOf code =
        .error ("compiled module does not parse (" ++ toString faults.length ++ " errors)") := by
  unfold exportsOf
  cases hread : Program.read Dialect.plain code with
  | error faults => rfl
  | ok p =>
    obtain ⟨-, hfaults⟩ := Program.dialect_and_exportFaults_of_read hread
    exact ⟨_, rfl, p.placed_exports, nodup_exportedNames (hfaults rfl),
      Program.exportsTargets_of_read hread⟩

/-- Of `export const { a, b: [c, ...d], e: { f } = g, ...h } = i` the names in the patterns are
listed, and not those of properties and values. -/
example :
    let field (key : String) (value : Expr) := Property.value (.ident key) value false
    exportedNames [.exportDecl (.variables .const [.assign .plain
      (.object [.value (.ident "a") (.ident "a") true,
        field "b" (.array [.ident "c", .spread (.ident "d")]),
        field "e" (.assign .plain (.object [.value (.ident "f") (.ident "f") true]) (.ident "g")),
        .spread (.ident "h")]) (.ident "i")])] = ["a", "c", "d", "f", "h"] := rfl

end ModuleLoader
