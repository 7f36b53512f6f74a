import ModuleLoader.Compile.Transformer
import ModuleLoader.Proofs.Compile.Rebuilding

/-! # Nothing but specifiers is replaced

Two passes go through a program, one that lists specifiers and one that replaces them. The second
asks for what the first lists, and makes a program in which the first lists the answers. All else
stays in its place, also a text that is the same as a specifier.

* **`Node.specifierAt?`** is the specifier that stands at a place in a tree: that of a declaration,
  or the string that an `import()` is called on.
* **`Program.placed_specifiers`** says that the specifiers that are listed are those that stand
  somewhere.
* **`OnlySpecifiers`** is what is asked for, what is listed afterwards, and what is at each place.
* **`redirectProgram_onlySpecifiers`** says that this holds of every program. -/

namespace ModuleLoader

/-- A reference by what is answered for its specifier, or by the same specifier if nothing is. -/
def Reference.replaced (f : String → Option String) (r : Reference) : Reference :=
  { r with specifier := (f r.specifier).getD r.specifier }

namespace Syntax

variable {f : String → Option String} {g : StringLiteral → StringLiteral}

/-! ## What is listed afterwards -/

/-- The text of a literal with its replacement. -/
theorem StringLiteral.value_replaced (s : StringLiteral) :
    (s.replaced f).value = (f s.value).getD s.value := by
  unfold replaced
  cases f s.value <;> rfl

/-- A literal stays if nothing is answered for it. -/
theorem StringLiteral.replaced_eq_self {s : StringLiteral} (h : f s.value = none) :
    s.replaced f = s := by
  rw [replaced, h]
  rfl

/-- The string that an expression is when something has been done to that string. -/
theorem Expr.string?_mapString (e : Expr) : (e.mapString g).string? = e.string?.map g := by
  fun_induction Expr.string? e with
  | case1 => rfl
  | case2 comments e ih => exact ih
  | case3 e hstring hcommented =>
    have hnone : e.string? = none := by
      rw [string?]
      · exact hstring
      · exact hcommented
    rw [mapString]
    · exact hnone
    · exact hstring
    · exact hcommented

/-- Replacing specifiers in an expression leaves the string that it is. -/
theorem Expr.string?_redirected (e : Expr) : ((redirected f).expr e).string? = e.string? := by
  fun_induction Expr.string? e with
  | case1 => rfl
  | case2 comments e ih => exact ih
  | case3 e hstring hcommented =>
    change (e.redirect f ⟨[], 0⟩).1.string? = none
    rw [e.redirect_makes]
    cases e with
    | string literal => exact absurd rfl (hstring literal)
    | commented comments e => exact absurd rfl (hcommented comments e)
    | _ => rfl

/-- There is no reference in a string, or before it. -/
theorem Expr.references_mapString (e : Expr) : (e.mapString g).references = e.references := by
  fun_induction Expr.mapString g e with
  | case1 => rfl
  | case2 comments e ih => exact ih
  | case3 => rfl

/-- The reference that a tree makes when specifiers have been replaced. -/
theorem Node.reference?_redirected (n : Node) :
    ((redirected f).node n).reference? = n.reference?.map (.replaced f) := by
  have hstatic (s : StringLiteral) : some (Reference.mk (s.replaced f).value false) =
      some (Reference.replaced f ⟨s.value, false⟩) :=
    congrArg (fun v => some (Reference.mk v false)) s.value_replaced
  rw [n.redirected_eq]
  cases n with
  | expr e =>
    cases e with
    | importCall phase source options closing =>
      change Option.map _ (((redirected f).expr source).mapString (.replaced f)).string? = _
      rw [Expr.string?_mapString, Expr.string?_redirected]
      simp [reference?, Function.comp_def, Reference.replaced, StringLiteral.value_replaced]
    | _ => rfl
  | stmt s =>
    cases s with
    | importDecl | exportAll => exact hstatic _
    | exportNamed isType specifiers source attributes =>
      cases source with
      | none => rfl
      | some source => exact hstatic source
    | _ => rfl
  | property | member | case => rfl

/-- Doing something to the specifier of a tree leaves the references in its parts. -/
theorem Node.partReferences_mapSpecifier (n : Node) :
    (n.mapSpecifier g).parts.flatMap references = n.parts.flatMap references := by
  cases n with
  | expr e =>
    cases e with
    | importCall phase source options closing =>
      simp [mapSpecifier, Expr.mapSpecifier, parts, Expr.parts, references,
        Expr.references_mapString]
    | _ => rfl
  | stmt s =>
    cases s with
    | exportNamed isType specifiers source attributes => cases source <;> rfl
    | _ => rfl
  | property | member | case => rfl

/-- The references in a tree when specifiers have been replaced are those by the answers. -/
theorem Node.references_redirected (n : Node) :
    ((redirected f).node n).references = n.references.map (.replaced f) := by
  induction n using Node.induction with
  | step n ih =>
    have hparts : ((redirected f).node n).parts.flatMap references =
        (n.parts.flatMap references).map (.replaced f) :=
      calc ((redirected f).node n).parts.flatMap references
        _ = (n.mapParts (redirected f)).parts.flatMap references := by
          rw [n.redirected_eq, partReferences_mapSpecifier]
        _ = n.parts.flatMap fun m => ((redirected f).node m).references := by
          rw [parts_mapParts, List.flatMap_map]
        _ = n.parts.flatMap fun m => m.references.map (.replaced f) := List.flatMap_congr ih
        _ = (n.parts.flatMap references).map (.replaced f) := List.map_flatMap.symm
    rw [references_eq, reference?_redirected, hparts, n.references_eq, List.map_append]
    cases n.reference? <;> rfl

/-- The references in some statements when specifiers have been replaced. -/
theorem bodyReferences_redirectBody (body : List Stmt) (a : Asked) :
    bodyReferences (redirectBody f body a).1 = (bodyReferences body).map (.replaced f) := by
  rw [redirectBody_makes, bodyReferences_eq_flatMap, bodyReferences_eq_flatMap, List.map_map,
    List.flatMap_map, List.flatMap_map, List.map_flatMap]
  exact List.flatMap_congr fun s _ => (Node.stmt s).references_redirected

/-- As many specifiers are replaced as references are by one that there is an answer for. -/
theorem replaced_redirectBody (body : List Stmt) (a : Asked) :
    (redirectBody f body a).2.replaced =
      a.replaced + (bodyReferences body).countP fun r => (f r.specifier).isSome := by
  rw [(redirectBody_replaces body).replaced]
  refine congrArg (a.replaced + ·) ?_
  calc (bodySpecifiers body).countP (PrintedSpecifier.hasReplacement f)
    _ = (((bodySpecifiers body).filter PrintedSpecifier.isAsked).map
        fun s => s.literal.value).countP fun s => (f s).isSome := by
      rw [List.countP_map, List.countP_filter]
      exact List.countP_congr fun s _ => by
        rw [PrintedSpecifier.hasReplacement, Bool.and_comm, Function.comp_apply]
    _ = (bodyReferences body).countP fun r => (f r.specifier).isSome := by
      rw [← asked_eq_bodySpecifiers, List.countP_map]
      rfl

/-! ## Where specifiers stand -/

/-- The parts of a tree, with whether they are what an `import()` is called on. What stands behind
comments is called on if the whole is. -/
def Node.sources (isSource : Bool) : Node → List (Bool × Node)
  | .expr (.importCall _ source options _) => [(true, .expr source), (false, .expr options)]
  | .expr (.commented _ e) => [(isSource, .expr e)]
  | n => n.parts.map fun m => (false, m)

/-- The specifier that a tree itself is or holds. -/
def Node.specifier? (isSource : Bool) : Node → Option StringLiteral
  | .expr (.string literal) => if isSource then some literal else none
  | .stmt (.importDecl _ _ _ source _) | .stmt (.exportAll _ _ source _)
  | .stmt (.exportNamed _ _ (some source) _) => some source
  | _ => none

/-- The specifier that stands at the end of a path that starts at a tree. -/
def Node.specifierAt? (isSource : Bool) : Node → List Nat → Option StringLiteral
  | n, [] => n.specifier? isSource
  | n, i :: path => (n.sources isSource)[i]?.bind fun m => m.2.specifierAt? m.1 path

/-- The specifier that stands at the end of a path into a program. -/
def Program.specifierAt? (p : Program) : List Nat → Option StringLiteral
  | [] => none
  | i :: path => p.body[i]?.bind fun s => (Node.stmt s).specifierAt? false path

/-- Without the marks they are the parts. -/
theorem Node.map_snd_sources (isSource : Bool) (n : Node) :
    (n.sources isSource).map Prod.snd = n.parts := by
  unfold sources
  split
  · rfl
  · rfl
  · rw [List.map_map]
    exact List.map_id _

/-- A specifier stands at the end of a path. -/
def Node.SpecifierStands (isSource : Bool) (n : Node) (path : List Nat) (s : String) : Prop :=
  (n.specifierAt? isSource path).map StringLiteral.value = some s

/-- The reference that an `import()` makes when it is called on a tree. -/
def Node.calledReference (isSource : Bool) : Node → List Reference
  | .expr e => if isSource then dynamicReference e else []
  | _ => []

/-- The specifiers in a tree. -/
def Node.specifiers (isSource : Bool) (n : Node) : List String :=
  (n.calledReference isSource ++ n.references).map Reference.specifier

/-- The specifiers in a tree that nothing is called on are those of its references. -/
theorem Node.specifiers_false (n : Node) :
    n.specifiers false = n.references.map Reference.specifier := by
  cases n <;> rfl

/-- The specifiers in a tree are its own and those in its parts. -/
theorem Node.specifiers_eq (isSource : Bool) (n : Node) :
    n.specifiers isSource = ((n.specifier? isSource).map StringLiteral.value).toList ++
      (n.sources isSource).flatMap fun m => m.2.specifiers m.1 := by
  have hplain {n : Node} (hcalled : n.calledReference isSource = [])
      (hown : n.reference?.map Reference.specifier =
        (n.specifier? isSource).map StringLiteral.value)
      (hsources : n.sources isSource = n.parts.map fun m => (false, m)) :
      n.specifiers isSource = ((n.specifier? isSource).map StringLiteral.value).toList ++
        (n.sources isSource).flatMap fun m => m.2.specifiers m.1 := by
    rw [specifiers, hcalled, List.nil_append, n.references_eq, List.map_append, List.map_flatMap,
      hsources, List.flatMap_map, ← hown, Option.toList_map]
    exact congrArg (_ ++ ·) (List.flatMap_congr fun m _ => m.specifiers_false.symm)
  cases n with
  | expr e =>
    cases e with
    | string literal => cases isSource <;> rfl
    | commented comments e => exact (List.append_nil _).symm
    | importCall phase source options closing =>
      have hcalled : (Node.expr (.importCall phase source options closing)).calledReference
          isSource = [] := by cases isSource <;> rfl
      rw [specifiers, hcalled]
      simp [references, Expr.references, specifier?, sources, specifiers, calledReference]
    | _ => exact hplain (by cases isSource <;> rfl) rfl rfl
  | stmt s =>
    cases s with
    | exportNamed isType specifiers source attributes => cases source <;> exact hplain rfl rfl rfl
    | _ => exact hplain rfl rfl rfl
  | property | member | case => exact hplain rfl rfl rfl

/-- The specifiers that are listed in a tree are those that stand in it, in the order of their
paths. -/
theorem Node.placed_specifiers (isSource : Bool) (n : Node) :
    ∃ places, Places (n.SpecifierStands isSource) (n.specifiers isSource) places := by
  induction n using Node.induction generalizing isSource with
  | step n ih =>
    rw [n.specifiers_eq]
    refine Places.whole (fun s => Iff.rfl) ?_
    have hinside : (fun path s => path ≠ [] ∧ n.SpecifierStands isSource path s) =
        WithinItems (fun m => m.2.SpecifierStands m.1) (n.sources isSource) := by
      funext path s
      cases path with
      | nil => exact propext ⟨fun h => absurd rfl h.1, False.elim⟩
      | cons i path =>
        refine propext ((and_iff_right (List.cons_ne_nil i path)).trans ?_)
        rw [SpecifierStands, specifierAt?, Option.map_bind, Option.bind_eq_some_iff]
        rfl
    rw [hinside]
    refine places_within fun m hm => ih m.2 ?_ m.1
    rw [← n.map_snd_sources isSource]
    exact List.mem_map_of_mem hm

/-- The specifiers that are listed in a program are those that stand in it, in the order of their
paths. -/
theorem Program.placed_specifiers (p : Program) :
    ∃ places, Places (fun path s => (p.specifierAt? path).map StringLiteral.value = some s)
      (specifiers (bodyReferences p.body)) places := by
  have hall : specifiers (bodyReferences p.body) =
      p.body.flatMap fun s => (Node.stmt s).specifiers false := by
    rw [specifiers, bodyReferences_eq_flatMap, List.flatMap_map, List.map_flatMap]
    rfl
  have hstands : (fun path s => (p.specifierAt? path).map StringLiteral.value = some s) =
      WithinItems (fun s => (Node.stmt s).SpecifierStands false) p.body := by
    funext path s
    cases path with
    | nil => exact propext ⟨fun h => Option.some_ne_none s h.symm, False.elim⟩
    | cons i path =>
      refine propext ?_
      rw [specifierAt?, Option.map_bind, Option.bind_eq_some_iff]
      rfl
  rw [hall, hstands]
  exact places_within fun s _ => (Node.stmt s).placed_specifiers false

/-! ## What is at each place -/

/-- Something is done to the literal that a tree is or holds itself. -/
def Node.mapLiteral (g : StringLiteral → StringLiteral) : Node → Node
  | .expr (.string literal) => .expr (.string (g literal))
  | .stmt s => .stmt (s.mapSpecifier g)
  | n => n

/-- Something is done to the string of a tree that an `import()` is called on. -/
def Node.mapSource (isSource : Bool) (g : StringLiteral → StringLiteral) : Node → Node
  | .expr e => .expr (if isSource then e.mapString g else e)
  | n => n

/-- What is at a place is what was there, with another literal if a specifier stands there. -/
def Node.replacedLabel (f : String → Option String) (isSpecifier : Bool) (n : Node) : Node :=
  if isSpecifier then (n.mapLiteral (.replaced f)).label else n.label

/-- Nothing is done to a tree that is not called on. -/
theorem Node.mapSource_false (n : Node) : n.mapSource false g = n := by
  cases n <;> rfl

/-- Nothing is done to a tree that is no string when specifiers have been replaced in it. -/
theorem Node.mapSource_redirected {isSource : Bool} {e : Expr} (h : dynamicReference e = []) :
    ((redirected f).node (.expr e)).mapSource isSource g = (redirected f).node (.expr e) := by
  cases isSource with
  | false => rfl
  | true =>
    exact congrArg Node.expr (Expr.mapString_eq_self ((dynamicReference_redirect _ e).trans h))

/-- The parts of a tree in which specifiers have been replaced, and of one that an `import()` is
called on. -/
theorem Node.parts_redirected (isSource : Bool) (n : Node) :
    (((redirected f).node n).mapSource isSource (.replaced f)).parts =
      (n.sources isSource).map fun m => ((redirected f).node m.2).mapSource m.1 (.replaced f) := by
  have hplain (n : Node) (hsources : n.sources isSource = n.parts.map fun m => (false, m))
      (hspecifier : ((n.mapParts (redirected f)).mapSpecifier (.replaced f)).parts =
        (n.mapParts (redirected f)).parts) :
      ((redirected f).node n).parts =
        (n.sources isSource).map
          fun m => ((redirected f).node m.2).mapSource m.1 (.replaced f) := by
    rw [n.redirected_eq, hspecifier, parts_mapParts, hsources, List.map_map]
    exact List.map_congr_left fun m _ => (mapSource_false _).symm
  cases n with
  | expr e =>
    cases e with
    | string literal => cases isSource <;> rfl
    | commented comments e => cases isSource <;> rfl
    | importCall phase source options closing =>
      rw [mapSource_redirected rfl, redirected_eq]
      rfl
    | _ =>
      rw [mapSource_redirected rfl]
      exact hplain (.expr _) rfl rfl
  | stmt s =>
    cases s with
    | exportNamed isType specifiers source attributes =>
      cases source <;> exact hplain (.stmt _) rfl rfl
    | _ => exact hplain (.stmt _) rfl rfl
  | property p => exact hplain (.property p) rfl rfl
  | member m => exact hplain (.member m) rfl rfl
  | case c => exact hplain (.case c) rfl rfl

/-- All that a tree in which specifiers have been replaced is but for its parts. -/
theorem Node.label_redirected (isSource : Bool) (n : Node) :
    (((redirected f).node n).mapSource isSource (.replaced f)).label =
      n.replacedLabel f (n.specifier? isSource).isSome := by
  have hplain (n : Node) (hspecifier : (n.mapParts (redirected f)).mapSpecifier (.replaced f) =
      n.mapParts (redirected f)) : ((redirected f).node n).label = n.label := by
    rw [n.redirected_eq, hspecifier, label_mapParts]
  cases n with
  | expr e =>
    cases e with
    | string literal => cases isSource <;> rfl
    | commented comments e => cases isSource <;> rfl
    | importCall phase source options closing =>
      rw [mapSource_redirected rfl, redirected_eq]
      rfl
    | _ =>
      rw [mapSource_redirected rfl]
      exact hplain (.expr _) rfl
  | stmt s =>
    cases s with
    | importDecl | exportAll => exact congrArg label (redirected_eq (.stmt _))
    | exportNamed isType specifiers source attributes =>
      cases source with
      | none => exact hplain (.stmt _) rfl
      | some source => exact congrArg label (redirected_eq (.stmt _))
    | _ => exact hplain (.stmt _) rfl
  | property p => exact hplain (.property p) rfl
  | member m => exact hplain (.member m) rfl
  | case c => exact hplain (.case c) rfl

/-- What is at a place in a tree in which specifiers have been replaced. -/
theorem Node.at?_redirected (isSource : Bool) (n : Node) (path : List Nat) :
    ((((redirected f).node n).mapSource isSource (.replaced f)).at? path).map label =
      (n.at? path).map (replacedLabel f (n.specifierAt? isSource path).isSome) := by
  induction path generalizing isSource n with
  | nil => exact congrArg some (n.label_redirected isSource)
  | cons i path ih =>
    rw [at?, at?, specifierAt?, n.parts_redirected, ← n.map_snd_sources isSource, List.getElem?_map,
      List.getElem?_map]
    cases (n.sources isSource)[i]? with
    | none => rfl
    | some m => exact ih m.1 m.2

/-! ## Where there is no answer -/

/-- A string stays if nothing is answered for it. -/
theorem Expr.mapString_replaced_eq_self {e : Expr}
    (h : ∀ literal ∈ e.string?, f literal.value = none) : e.mapString (.replaced f) = e := by
  fun_induction Expr.string? e with
  | case1 literal => exact congrArg Expr.string (StringLiteral.replaced_eq_self (h literal rfl))
  | case2 comments e ih => exact congrArg (Expr.commented comments) (ih h)
  | case3 e hstring hcommented =>
    rw [mapString]
    · exact hstring
    · exact hcommented

/-- A tree stays if nothing is answered for its own specifier. -/
theorem Node.mapSpecifier_eq_self {n : Node} (h : ∀ r ∈ n.reference?, f r.specifier = none) :
    n.mapSpecifier (.replaced f) = n := by
  cases n with
  | expr e =>
    cases e with
    | importCall phase source options closing =>
      have hsame : source.mapString (.replaced f) = source := Expr.mapString_replaced_eq_self
        fun literal hliteral => h ⟨literal.value, true⟩ (Option.mem_map_of_mem _ hliteral)
      rw [mapSpecifier, Expr.mapSpecifier, hsame]
    | _ => rfl
  | stmt s =>
    cases s with
    | importDecl | exportAll =>
      rw [mapSpecifier, Stmt.mapSpecifier, StringLiteral.replaced_eq_self (h _ rfl)]
    | exportNamed isType specifiers source attributes =>
      cases source with
      | none => rfl
      | some source =>
        rw [mapSpecifier, Stmt.mapSpecifier, StringLiteral.replaced_eq_self (h _ rfl)]
    | _ => rfl
  | property | member | case => rfl

/-- A tree stays if nothing is answered for the specifiers in it. -/
theorem Node.redirected_eq_self (n : Node) (h : ∀ r ∈ n.references, f r.specifier = none) :
    (redirected f).node n = n := by
  induction n using Node.induction with
  | step n ih =>
    rw [n.references_eq, List.forall_mem_append] at h
    obtain ⟨hown, hinside⟩ := h
    have hparts : n.mapParts (redirected f) = n := mapParts_eq_self fun m hm =>
      ih m hm fun r hr => hinside r (List.mem_flatMap.2 ⟨m, hm, hr⟩)
    rw [n.redirected_eq, hparts]
    exact mapSpecifier_eq_self fun r hr => hown r (Option.mem_toList.2 hr)

/-- Statements stay if nothing is answered for the specifiers in them. -/
theorem redirectBody_eq_self {body : List Stmt} (a : Asked)
    (h : ∀ r ∈ bodyReferences body, f r.specifier = none) : (redirectBody f body a).1 = body := by
  rw [redirectBody_makes]
  refine (List.map_congr_left fun s hs => ?_).trans (List.map_id body)
  refine Node.stmt.inj ((Node.stmt s).redirected_eq_self fun r hr => h r ?_)
  rw [bodyReferences_eq_flatMap]
  exact List.mem_flatMap.2 ⟨.stmt s, List.mem_map_of_mem hs, hr⟩

/-! ## A whole program -/

/-- What has to hold of a program, what is made of it when specifiers are replaced, and what is
asked for. -/
structure OnlySpecifiers (f : String → Option String) (p q : Program) (asked : Asked) : Prop where
  /-- What is asked for is what is listed, as often and in the same order. -/
  asks : asked.specifiers = specifiers (bodyReferences p.body)
  /-- What is listed stands somewhere in the program, and nothing else that counts as a specifier
  does. -/
  stands : ∃ places, Places (fun path s => (p.specifierAt? path).map StringLiteral.value = some s)
    (specifiers (bodyReferences p.body)) places
  /-- What is listed afterwards are the answers, and the specifiers that there is no answer for. -/
  lists : bodyReferences q.body = (bodyReferences p.body).map (.replaced f)
  /-- A scan records these, each once. -/
  records : q.references = mergeReferences ((bodyReferences p.body).map (.replaced f))
  /-- There is an answer as often as one is counted. -/
  counts : asked.replaced = (bodyReferences p.body).countP fun r => (f r.specifier).isSome
  /-- There are trees at the same places, and they are the same but for their parts, and but for the
  literal if a specifier stands there. -/
  elsewhere : ∀ path, (q.at? path).map Node.label =
    (p.at? path).map (.replacedLabel f (p.specifierAt? path).isSome)
  /-- Only the statements are changed. -/
  statements : q = { p with body := q.body }
  /-- Nothing is changed if there are no answers. -/
  unanswered : (∀ r ∈ bodyReferences p.body, f r.specifier = none) → q = p

end Syntax

open Syntax

/-- When specifiers are replaced, nothing but those that are listed is. -/
theorem redirectProgram_onlySpecifiers (f : String → Option String) (p : Program) :
    OnlySpecifiers f p (Transformer.redirectProgram p f).1 (Transformer.redirectProgram p f).2 where
  asks := redirectBody_asks p.body _
  stands := p.placed_specifiers
  lists := bodyReferences_redirectBody p.body _
  records := congrArg mergeReferences (bodyReferences_redirectBody p.body _)
  counts := (replaced_redirectBody p.body _).trans (Nat.zero_add _)
  elsewhere path := by
    cases path with
    | nil => rfl
    | cons i path =>
      change (treeAt? ((redirectBody f p.body _).1.map .stmt) (i :: path)).map Node.label = _
      rw [redirectBody_makes, Program.at?, treeAt?, treeAt?, Program.specifierAt?,
        List.getElem?_map, List.getElem?_map, List.getElem?_map]
      cases p.body[i]? with
      | none => rfl
      | some s => exact (Node.stmt s).at?_redirected false path
  statements := rfl
  unanswered h := congrArg (fun body => { p with body }) (redirectBody_eq_self _ h)

/-- In the options of an `import()` another one is replaced, and a string that is the same as the
specifier is not. -/
example :
    let program (a b : StringLiteral) : Program :=
      { dialect := .plain, interpreter := none, trailing := [], comments := [], asides := []
        body := [.expr (.importCall .evaluation (.string a)
          (.object [.value (.string (.made "./a.js"))
            (.importCall .evaluation (.string b) .absent []) false]) [])] }
    Transformer.redirectProgram (program (.made "./a.js") (.made "./b.js"))
        (fun s => if s = "./b.js" then none else some "blob:a") =
      (program (.made "blob:a") (.made "./b.js"), ⟨["./a.js", "./b.js"], 1⟩) := rfl

end ModuleLoader
