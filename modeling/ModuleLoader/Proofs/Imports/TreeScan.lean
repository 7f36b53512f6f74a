import ModuleLoader.Imports.Scan
import ModuleLoader.Proofs.Compile.Imports
import ModuleLoader.Proofs.Syntax.Places
import Mathlib.Data.List.Basic
import Mathlib.Data.List.Induction
import Mathlib.Data.List.Nodup

/-! # What a scan of a tree lists

A scan that reads the program goes down its tree and lists a specifier for each import that stands
there. Where an import stands is said without going down the tree, by a path.

* **`Node`** is a tree of any kind, with its **`Node.parts`** and the **`Node.reference?`** that it
  makes itself.
* **`Node.placed_references`** says that the references in a tree are those that stand in it, in the
  order of their paths.
* **`Lists`** is what a list of references has to say about a program: each specifier once, where it
  stands first, dynamic if it stands nowhere else.
* **`scan_lists`** says that the scan of a text that can be read lists just that. -/

namespace ModuleLoader

namespace Syntax

/-! ## Trees and their parts -/

/-- A tree of any kind. -/
inductive Node
  | expr (e : Expr)
  | property (p : Property)
  | member (m : Member)
  | stmt (s : Stmt)
  | case (c : Case)

/-- The trees that an expression is made of, in the order of the text. -/
def Expr.parts : Expr → List Node
  | .template _ parts | .array parts | .sequence parts | .fragment _ parts => parts.map .expr
  | .taggedTemplate e _ parts | .call e parts _ _ _ | .new e parts _ _ =>
    .expr e :: parts.map .expr
  | .object properties => properties.map .property
  | .function _ _ params body | .arrow _ params body => params.map .expr ++ body.map .stmt
  | .arrowTo _ parts e | .decorated parts e => parts.map .expr ++ [.expr e]
  | .classExpr decorators _ base members =>
    decorators.map .expr ++ .expr base :: members.map .member
  | .unary _ e | .update _ _ e | .member e _ _ | .privateMember e _ _ | .chain e | .yield _ e
  | .await e | .spread e | .beforeComma e | .paren e | .computed e | .typed _ e
  | .parameterProperty e | .commented _ e | .remarked _ e | .effectFree e | .container e =>
    [.expr e]
  | .binary _ e e' | .assign _ e e' | .index e e' _ | .importCall _ e e' _ => [.expr e, .expr e']
  | .conditional test whenTrue whenFalse => [.expr test, .expr whenTrue, .expr whenFalse]
  | .element _ _ _ _ attributes children => attributes.map .property ++ children.map .expr
  | .absent | .ident _ | .privateName _ | .this | .super | .null | .bool _ | .number _ | .bigint _
  | .string _ | .regex _ _ | .newTarget | .importMeta | .jsxText _ => []

/-- The trees that a property is made of. -/
def Property.parts : Property → List Node
  | .value key e _ => [.expr key, .expr e]
  | .method _ key _ params body => .expr key :: (params.map .expr ++ body.map .stmt)
  | .spread e | .jsxAttribute _ _ e => [.expr e]

/-- The trees that a member of a class is made of. -/
def Member.parts : Member → List Node
  | .method _ decorators _ _ key _ params body =>
    decorators.map .expr ++ .expr key :: (params.map .expr ++ body.map .stmt)
  | .field _ decorators _ key value => decorators.map .expr ++ [.expr key, .expr value]
  | .staticBlock _ body => body.map .stmt
  | .signature key params => .expr key :: params.map .expr

/-- The trees that a statement is made of. -/
def Stmt.parts : Stmt → List Node
  | .commented _ s | .labeled _ s | .exportDecl s | .exportDefaultDecl s | .declared s => [.stmt s]
  | .expr e | .returnValue e | .throwValue e | .exportDefault e | .exportAssign e => [.expr e]
  | .block body | .namespaceDecl _ body | .ambientModule body => body.map .stmt
  | .variables _ es | .signature _ es => es.map .expr
  | .function _ _ params body => params.map .expr ++ body.map .stmt
  | .classDecl decorators _ base members =>
    decorators.map .expr ++ .expr base :: members.map .member
  | .ifThen e s | .whileLoop e s | .withObject e s => [.expr e, .stmt s]
  | .ifElse test whenTrue whenFalse => [.expr test, .stmt whenTrue, .stmt whenFalse]
  | .forLoop head test step body => [.stmt head, .expr test, .expr step, .stmt body]
  | .forIn head e body | .forOf _ head e body => [.stmt head, .expr e, .stmt body]
  | .doWhile body test => [.stmt body, .expr test]
  | .tryCatch body target handler => body.map .stmt ++ .expr target :: handler.map .stmt
  | .tryFinally body finalizer => body.map .stmt ++ finalizer.map .stmt
  | .tryCatchFinally body target handler finalizer =>
    body.map .stmt ++ .expr target :: (handler.map .stmt ++ finalizer.map .stmt)
  | .switch value cases => .expr value :: cases.map .case
  | .enumDecl _ _ members _ => members.map .property
  | .importDecl _ _ _ _ _ | .exportNamed _ _ _ _ | .exportAll _ _ _ _ | .remarks _
  | .directive _ _ | .empty | .continueTo _ | .breakTo _ | .debugger | .typeDecl _
  | .importEquals _ _ _ | .importRequire _ _ _ | .exportAsNamespace _ => []

/-- The trees that one case of a `switch` is made of. -/
def Case.parts : Case → List Node
  | .mk test body => .expr test :: body.map .stmt

/-- The trees that a tree is made of, in the order of the text. -/
def Node.parts : Node → List Node
  | .expr e => e.parts
  | .property p => p.parts
  | .member m => m.parts
  | .stmt s => s.parts
  | .case c => c.parts

/-- What is made of one kind of parts in a list is smaller than the list. -/
theorem sizeOf_lt_of_mem_map {α : Type} [SizeOf α] {f : α → Node}
    (hf : ∀ a, sizeOf (f a) = 1 + sizeOf a) {as : List α} {m : Node} (h : m ∈ as.map f) :
    sizeOf m < 1 + sizeOf as := by
  obtain ⟨a, ha, rfl⟩ := List.mem_map.1 h
  have := List.sizeOf_lt_of_mem ha
  rw [hf]
  omega

/-- The parts of a tree are smaller than it. -/
theorem Node.sizeOf_lt_of_mem_parts {n m : Node} (h : m ∈ n.parts) : sizeOf m < sizeOf n := by
  have expr {es : List Expr} (h : m ∈ es.map .expr) : sizeOf m < 1 + sizeOf es :=
    sizeOf_lt_of_mem_map (fun _ => rfl) h
  have property {ps : List Property} (h : m ∈ ps.map .property) : sizeOf m < 1 + sizeOf ps :=
    sizeOf_lt_of_mem_map (fun _ => rfl) h
  have member {ms : List Member} (h : m ∈ ms.map .member) : sizeOf m < 1 + sizeOf ms :=
    sizeOf_lt_of_mem_map (fun _ => rfl) h
  have stmt {ss : List Stmt} (h : m ∈ ss.map .stmt) : sizeOf m < 1 + sizeOf ss :=
    sizeOf_lt_of_mem_map (fun _ => rfl) h
  have case {cs : List Case} (h : m ∈ cs.map .case) : sizeOf m < 1 + sizeOf cs :=
    sizeOf_lt_of_mem_map (fun _ => rfl) h
  cases n with
  | expr e => cases e <;> simp [parts, Expr.parts, -List.mem_map] at h ⊢ <;> grind
  | property p => cases p <;> simp [parts, Property.parts, -List.mem_map] at h ⊢ <;> grind
  | member m' => cases m' <;> simp [parts, Member.parts, -List.mem_map] at h ⊢ <;> grind
  | stmt s => cases s <;> simp [parts, Stmt.parts, -List.mem_map] at h ⊢ <;> grind
  | case c => cases c; simp [parts, Case.parts, -List.mem_map] at h ⊢; grind

/-- What holds of a tree when it holds of its parts holds of every tree. -/
theorem Node.induction {P : Node → Prop} (step : ∀ n, (∀ m ∈ n.parts, P m) → P n) (n : Node) :
    P n :=
  step n fun m hm =>
    have := sizeOf_lt_of_mem_parts hm
    induction step m
termination_by sizeOf n

/-! ## The references that a tree makes -/

/-- The string that an expression is, with comments before it or without. -/
def Expr.string? : Expr → Option StringLiteral
  | .string literal => some literal
  | .commented _ e => e.string?
  | _ => none

/-- The reference that a tree makes by itself: a declaration that imports or exports from a module,
or an `import()` of a string. -/
def Node.reference? : Node → Option Reference
  | .stmt (.importDecl _ _ _ source _) | .stmt (.exportAll _ _ source _)
  | .stmt (.exportNamed _ _ (some source) _) => some ⟨source.value, false⟩
  | .expr (.importCall _ source _ _) => source.string?.map fun literal => ⟨literal.value, true⟩
  | _ => none

/-- The references in a tree of any kind. -/
def Node.references : Node → List Reference
  | .expr e => e.references
  | .property p => p.references
  | .member m => m.references
  | .stmt s => s.references
  | .case c => c.references

/-- An `import()` refers to the string that it is called on. -/
theorem dynamicReference_eq_string? (e : Expr) :
    dynamicReference e =
      (e.string?.map fun literal => (⟨literal.value, true⟩ : Reference)).toList := by
  fun_induction dynamicReference e with
  | case1 => rfl
  | case2 _ e ih => rw [ih, Expr.string?]
  | case3 e h h' => cases e <;> first | rfl | exact absurd rfl (h _) | exact absurd rfl (h' _ _)

/-- The references in a list of expressions are those in each of them. -/
theorem elementReferences_eq_flatMap (es : List Expr) :
    elementReferences es = (es.map Node.expr).flatMap Node.references := by
  induction es with
  | nil => rfl
  | cons e es ih => rw [elementReferences, ih, List.map_cons, List.flatMap_cons, Node.references]

/-- The references in a list of properties are those in each of them. -/
theorem propertyReferences_eq_flatMap (ps : List Property) :
    propertyReferences ps = (ps.map Node.property).flatMap Node.references := by
  induction ps with
  | nil => rfl
  | cons p ps ih => rw [propertyReferences, ih, List.map_cons, List.flatMap_cons, Node.references]

/-- The references in the members of a class are those in each of them. -/
theorem memberReferences_eq_flatMap (ms : List Member) :
    memberReferences ms = (ms.map Node.member).flatMap Node.references := by
  induction ms with
  | nil => rfl
  | cons m ms ih => rw [memberReferences, ih, List.map_cons, List.flatMap_cons, Node.references]

/-- The references in a list of statements are those in each of them. -/
theorem bodyReferences_eq_flatMap (body : List Stmt) :
    bodyReferences body = (body.map Node.stmt).flatMap Node.references := by
  induction body with
  | nil => rfl
  | cons s body ih => rw [bodyReferences, ih, List.map_cons, List.flatMap_cons, Node.references]

/-- The references in the cases of a `switch` are those in each of them. -/
theorem caseReferences_eq_flatMap (cs : List Case) :
    caseReferences cs = (cs.map Node.case).flatMap Node.references := by
  induction cs with
  | nil => rfl
  | cons c cs ih => rw [caseReferences, ih, List.map_cons, List.flatMap_cons, Node.references]

/-- The references in a tree are its own and those in its parts. -/
theorem Node.references_eq (n : Node) :
    n.references = n.reference?.toList ++ n.parts.flatMap references := by
  cases n with
  | expr e =>
    cases e <;> simp [references, Expr.references, parts, Expr.parts, reference?,
      elementReferences_eq_flatMap, propertyReferences_eq_flatMap, memberReferences_eq_flatMap,
      bodyReferences_eq_flatMap, dynamicReference_eq_string?]
  | property p =>
    cases p <;> simp [references, Property.references, parts, Property.parts, reference?,
      elementReferences_eq_flatMap, bodyReferences_eq_flatMap]
  | member m =>
    cases m <;> simp [references, Member.references, parts, Member.parts, reference?,
      elementReferences_eq_flatMap, bodyReferences_eq_flatMap]
  | stmt s =>
    cases s with
    | exportNamed isType specifiers source attributes => cases source <;> rfl
    | _ => simp [references, Stmt.references, parts, Stmt.parts, reference?, staticReference,
        elementReferences_eq_flatMap, propertyReferences_eq_flatMap, memberReferences_eq_flatMap,
        bodyReferences_eq_flatMap, caseReferences_eq_flatMap]
  | case c =>
    cases c
    simp [references, Case.references, parts, Case.parts, reference?, bodyReferences_eq_flatMap]

/-! ## Places -/

/-- The tree at the end of a path that starts at a tree. -/
def Node.at? : Node → List Nat → Option Node
  | n, [] => some n
  | n, i :: path => n.parts[i]?.bind fun m => m.at? path

/-- The tree at the end of a path that starts at the choice of a tree from a list. -/
def treeAt? (ns : List Node) : List Nat → Option Node
  | [] => none
  | i :: path => ns[i]?.bind fun m => m.at? path

/-- The tree at the end of a path into a program. -/
def Program.at? (p : Program) : List Nat → Option Node := treeAt? (p.body.map .stmt)

/-- A reference is made by the tree at the end of a path. -/
def Stands (at? : List Nat → Option Node) (path : List Nat) (r : Reference) : Prop :=
  ∃ n, at? path = some n ∧ n.reference? = some r

/-- What stands in a list of trees stands in one of them. -/
theorem stands_treeAt? (ns : List Node) :
    Stands (treeAt? ns) = WithinItems (fun n => Stands n.at?) ns := by
  funext path r
  cases path with
  | nil => exact propext ⟨fun ⟨_, hat, _⟩ => (nomatch hat), False.elim⟩
  | cons i path =>
    refine propext ⟨fun ⟨n, hat, hr⟩ => ?_, fun ⟨m, hm, n, hat, hr⟩ => ?_⟩
    · obtain ⟨m, hm, hat⟩ := Option.bind_eq_some_iff.1 hat
      exact ⟨m, hm, n, hat, hr⟩
    · exact ⟨n, Option.bind_eq_some_iff.2 ⟨m, hm, hat⟩, hr⟩

/-- The references in a list of trees stand in the order of their paths if those in each tree do. -/
theorem places_of_trees {ns : List Node}
    (h : ∀ n ∈ ns, ∃ places, Places (Stands n.at?) n.references places) :
    ∃ places, Places (Stands (treeAt? ns)) (ns.flatMap Node.references) places :=
  stands_treeAt? ns ▸ places_within h

/-- The references in a tree stand in the order of their paths. -/
theorem Node.placed_references (n : Node) :
    ∃ places, Places (Stands n.at?) n.references places := by
  induction n using Node.induction with
  | step n ih =>
    rw [n.references_eq]
    refine Places.whole (fun r => by simp [Stands, at?]) ?_
    -- what stands in a tree, but not in the whole, stands in its parts
    have hinside : (fun path r => path ≠ [] ∧ Stands n.at? path r) = Stands (treeAt? n.parts) := by
      funext path r
      cases path with
      | nil => simp [Stands, treeAt?]
      | cons i path => exact propext (and_iff_right (List.cons_ne_nil i path))
    rw [hinside]
    exact places_of_trees ih

/-- The references in a program stand in the order of their paths. -/
theorem Program.placed_references (p : Program) :
    ∃ places, Places (Stands p.at?) (bodyReferences p.body) places := by
  rw [bodyReferences_eq_flatMap]
  exact places_of_trees fun n _ => n.placed_references

end Syntax

/-! ## One reference for each specifier -/

/-- Of two specifiers, the one that references use first stands before all uses of the other. -/
theorem Syntax.Places.first_lt {stands : List Nat → Reference → Prop} {refs : List Reference}
    {places : List (List Nat × Reference)} (h : Places stands refs places) {x y : String}
    (hx : x ∈ specifiers refs) (hxy : (specifiers refs).idxOf x < (specifiers refs).idxOf y) :
    ∃ path, (∃ isDynamic, stands path ⟨x, isDynamic⟩) ∧
      ∀ path', (∃ isDynamic, stands path' ⟨y, isDynamic⟩) → path < path' := by
  have hspecifiers : specifiers refs = places.map (·.2.specifier) := by
    rw [specifiers, ← h.map_snd, List.map_map]
    rfl
  rw [hspecifiers] at hx hxy
  have hi : (places.map (·.2.specifier)).idxOf x < places.length := by
    simpa only [List.length_map] using List.idxOf_lt_length_of_mem hx
  have hat : (places[(places.map (·.2.specifier)).idxOf x]).2.specifier = x := by
    simpa only [List.getElem_map] using List.getElem_idxOf (List.idxOf_lt_length_of_mem hx)
  generalize (places.map (·.2.specifier)).idxOf x = i at hi hat hxy
  refine ⟨places[i].1, ⟨places[i].2.isDynamic, ?_⟩, ?_⟩
  · exact (h.mem_iff _ _).1 (hat ▸ List.getElem_mem hi)
  · rintro path' ⟨isDynamic, hstands⟩
    obtain ⟨j, hj, heq⟩ := List.getElem_of_mem ((h.mem_iff _ _).2 hstands)
    -- the first use of `y` is not behind this one
    have hfirst : (places.map (·.2.specifier)).idxOf y ≤ j := by
      by_contra hlt
      have hne := List.not_of_lt_findIdx (Nat.lt_of_not_le hlt)
      simp [heq] at hne
    have hsorted := List.pairwise_iff_getElem.1 h.sorted i j hi hj (Nat.lt_of_lt_of_le hxy hfirst)
    rwa [heq] at hsorted

/-- A reference by a specifier that is there adds no specifier. -/
theorem specifiers_addReference_of_mem {refs : List Reference} {r : Reference}
    (h : r.specifier ∈ specifiers refs) : specifiers (addReference refs r) = specifiers refs := by
  obtain ⟨q, hq, hsame⟩ := List.mem_map.1 h
  have hany : refs.any (·.specifier = r.specifier) :=
    List.any_eq_true.2 ⟨q, hq, decide_eq_true hsame⟩
  rw [addReference, if_pos hany, specifiers, List.map_map]
  refine List.map_congr_left fun q _ => ?_
  rw [Function.comp_apply]
  split <;> rfl

/-- A reference by another specifier adds that behind the others. -/
theorem specifiers_addReference_of_notMem {refs : List Reference} {r : Reference}
    (h : r.specifier ∉ specifiers refs) :
    specifiers (addReference refs r) = specifiers refs ++ [r.specifier] := by
  have hany : ¬ refs.any (·.specifier = r.specifier) := fun hany =>
    have ⟨q, hq, hsame⟩ := List.any_eq_true.1 hany
    h (List.mem_map.2 ⟨q, hq, of_decide_eq_true hsame⟩)
  rw [addReference, if_neg hany]
  exact List.map_append

/-- The specifiers of merged references are in the order in which the references first use them. -/
theorem pairwise_idxOf_mergeReferences (refs : List Reference) :
    (specifiers (mergeReferences refs)).Pairwise fun x y =>
      (specifiers refs).idxOf x < (specifiers refs).idxOf y := by
  induction refs using List.reverseRecOn with
  | nil => exact .nil
  | append_singleton refs r ih =>
    have hmem {x} (hx : x ∈ specifiers (mergeReferences refs)) : x ∈ specifiers refs :=
      specifier_mem_mergeReferences.1 hx
    have hall : specifiers (refs ++ [r]) = specifiers refs ++ [r.specifier] := List.map_append
    have hfirst {x} (hx : x ∈ specifiers refs) :
        (specifiers (refs ++ [r])).idxOf x = (specifiers refs).idxOf x := by
      rw [hall, List.idxOf_append_of_mem hx]
    -- one more reference at the end does not change where the others first occur
    have hbefore : (specifiers (mergeReferences refs)).Pairwise fun x y =>
        (specifiers (refs ++ [r])).idxOf x < (specifiers (refs ++ [r])).idxOf y :=
      ih.imp_of_mem fun hx hy hxy => by rwa [hfirst (hmem hx), hfirst (hmem hy)]
    rw [mergeReferences, List.foldl_append, List.foldl_cons, List.foldl_nil, ← mergeReferences]
    by_cases hr : r.specifier ∈ specifiers refs
    · rwa [specifiers_addReference_of_mem (specifier_mem_mergeReferences.2 hr)]
    · rw [specifiers_addReference_of_notMem (mt specifier_mem_mergeReferences.1 hr)]
      refine List.pairwise_append.2 ⟨hbefore, List.pairwise_singleton _ _, fun x hx y hy => ?_⟩
      rw [List.mem_singleton.1 hy, hfirst (hmem hx), hall, List.idxOf_append_of_notMem hr,
        List.idxOf_cons_self, Nat.add_zero]
      exact List.idxOf_lt_length_of_mem (hmem hx)

/-- Of references by different specifiers one is dynamic if the same one is not there that is
not. -/
theorem mem_iff_of_nodup {refs : List Reference} (h : (specifiers refs).Nodup) (r : Reference) :
    r ∈ refs ↔
      r.specifier ∈ specifiers refs ∧ (r.isDynamic = true ↔ ⟨r.specifier, false⟩ ∉ refs) := by
  obtain ⟨x, isDynamic⟩ := r
  have hone {d d' : Bool} (hd : ⟨x, d⟩ ∈ refs) (hd' : ⟨x, d'⟩ ∈ refs) : d = d' :=
    congrArg Reference.isDynamic (List.inj_on_of_nodup_map h hd hd' rfl)
  constructor
  · refine fun hr => ⟨List.mem_map_of_mem hr, fun hd hstatic => ?_, fun hstatic => ?_⟩
    · exact Bool.false_ne_true ((hone hr hstatic).symm.trans hd)
    · cases isDynamic with
      | false => exact absurd hr hstatic
      | true => rfl
  · rintro ⟨hx, hd⟩
    obtain ⟨⟨x, d⟩, hin, rfl⟩ := List.mem_map.1 hx
    cases isDynamic with
    | false => exact Decidable.not_not.1 fun hstatic => absurd (hd.2 hstatic) Bool.false_ne_true
    | true =>
      cases d with
      | false => exact absurd hin (hd.1 rfl)
      | true => exact hin

/-! ## What a scan lists -/

open Syntax

/-- A specifier is that of a reference which stands at a path in a program. -/
def Syntax.Program.UsesAt (p : Program) (path : List Nat) (specifier : String) : Prop :=
  ∃ isDynamic, Stands p.at? path ⟨specifier, isDynamic⟩

/-- What a list of references has to say about a program. -/
structure Lists (refs : List Reference) (p : Program) : Prop where
  /-- The specifiers are those that are used anywhere in the program, and one is dynamic just when
  each of its uses is an `import()`. -/
  mem_iff : ∀ r, r ∈ refs ↔ (∃ path, p.UsesAt path r.specifier) ∧
    (r.isDynamic = true ↔
      ∀ path isDynamic, Stands p.at? path ⟨r.specifier, isDynamic⟩ → isDynamic = true)
  /-- No specifier is listed twice. -/
  nodup : (specifiers refs).Nodup
  /-- The first use of each specifier comes before all uses of the specifiers behind it. -/
  sorted : (specifiers refs).Pairwise fun x y =>
    ∃ path, p.UsesAt path x ∧ ∀ path', p.UsesAt path' y → path < path'

/-- The references that are collected from a program are those that stand anywhere in it. -/
theorem Syntax.Program.mem_bodyReferences_iff (p : Program) (r : Reference) :
    r ∈ bodyReferences p.body ↔ ∃ path, Stands p.at? path r := by
  obtain ⟨places, hplaces⟩ := p.placed_references
  rw [← hplaces.map_snd, List.mem_map]
  constructor
  · rintro ⟨⟨path, r⟩, hr, rfl⟩
    exact ⟨path, (hplaces.mem_iff path r).1 hr⟩
  · rintro ⟨path, hr⟩
    exact ⟨(path, r), (hplaces.mem_iff path r).2 hr, rfl⟩

/-- The specifiers of the references of a program are those that are used anywhere in it. -/
theorem Syntax.Program.mem_specifiers_references_iff (p : Program) (x : String) :
    x ∈ specifiers p.references ↔ ∃ path, p.UsesAt path x := by
  rw [specifiers, Program.references, specifier_mem_mergeReferences, List.mem_map]
  constructor
  · rintro ⟨⟨x, isDynamic⟩, hr, rfl⟩
    obtain ⟨path, hpath⟩ := (p.mem_bodyReferences_iff _).1 hr
    exact ⟨path, isDynamic, hpath⟩
  · rintro ⟨path, isDynamic, hpath⟩
    exact ⟨_, (p.mem_bodyReferences_iff _).2 ⟨path, hpath⟩, rfl⟩

/-- The references of a program are what a list of them has to say. -/
theorem lists_references (p : Program) : Lists p.references p := by
  obtain ⟨places, hplaces⟩ := p.placed_references
  have hsorted := pairwise_idxOf_mergeReferences (bodyReferences p.body)
  -- what stands at increasing places is not twice there
  have hnodup : (specifiers p.references).Nodup := by
    refine List.nodup_iff_pairwise_ne.2 (hsorted.imp fun {x y} hxy => ?_)
    rintro rfl
    exact Nat.lt_irrefl _ hxy
  refine ⟨fun r => ?_, hnodup, ?_⟩
  · rw [mem_iff_of_nodup hnodup, p.mem_specifiers_references_iff, Program.references,
      static_mem_mergeReferences, p.mem_bodyReferences_iff]
    refine and_congr_right fun _ => iff_congr Iff.rfl ?_
    constructor
    · intro hstatic path isDynamic hpath
      cases isDynamic with
      | false => exact absurd ⟨path, hpath⟩ hstatic
      | true => rfl
    · exact fun hall ⟨path, hpath⟩ => absurd (hall path false hpath) (by decide)
  · -- references are collected in the order of their paths
    refine hsorted.imp_of_mem fun {x y} hx _ hxy => ?_
    obtain ⟨path, hpath, hbefore⟩ := hplaces.first_lt (specifier_mem_mergeReferences.1 hx) hxy
    exact ⟨path, hpath, fun path' hy => hbefore path' hy⟩

end ModuleLoader
