import ModuleLoader.Syntax.Program

/-! # What declarations bind

What a declaration binds is a name or a pattern, in which names, further patterns, defaults and
rests may be nested as deep as one likes. Whatever text is read, the variables that it exports are
bound by such targets.

* **`Yields`** says that all that a parser can give has a property.
* **`IsTarget`**, **`IsElement`** are the targets, without and with a default.
* **`Stmt.ExportsTargets`** says that the variables a statement exports are bound by them.
* **`Program.exportsTargets_of_read`** says that this holds of all statements that are read. -/

namespace ModuleLoader.Syntax

open ModuleLoader.Syntax.Parser

/-! ## What a parser can give -/

/-- Whatever a parser gives, if it gives something, has a property. -/
def Yields {α : Type} (p : Parse α) (P : α → Prop) : Prop := ∀ s a s', p s = .ok a s' → P a

namespace Yields

variable {α β : Type} {p : Parse α} {k : α → Parse β} {P : α → Prop} {Q : β → Prop}

/-- What is given back has the property. -/
theorem pure {a : α} (h : P a) : Yields (Pure.pure a) P := by
  intro s b s' hb
  cases hb
  exact h

/-- What is given behind a step may be derived from what the step gives. -/
theorem bind (h : Yields p P) (h' : ∀ a, P a → Yields (k a) Q) : Yields (p >>= k) Q := by
  intro s b s' hb
  change EStateM.bind p k s = _ at hb
  unfold EStateM.bind at hb
  split at hb
  · next a s₁ ha => exact h' a (h s a s₁ ha) s₁ b s' hb
  · cases hb

/-- What comes before a step does not matter. -/
theorem behind (h : ∀ a, Yields (k a) Q) : Yields (p >>= k) Q :=
  bind (P := fun _ => True) (fun _ _ _ _ => trivial) fun a _ => h a

/-- What is given is changed. -/
theorem map {g : α → β} (h : Yields p fun a => Q (g a)) : Yields (g <$> p) Q := by
  rw [map_eq_pure_bind]
  exact h.bind fun a ha => .pure ha

/-- A parser that has one property has another that follows. -/
theorem imp {P' : α → Prop} (h : Yields p P) (h' : ∀ a, P a → P' a) : Yields p P' :=
  fun s a s' ha => h' a (h s a s' ha)

/-- A choice has the property if both branches do. -/
theorem ite {c : Prop} [Decidable c] {p' : Parse α} (h : Yields p P) (h' : Yields p' P) :
    Yields (if c then p else p') P := by
  split
  · exact h
  · exact h'

/-- A step that may be left out does not matter. -/
theorem optional {c : Prop} [Decidable c] {p : Parse Unit} {k : Unit → Parse β}
    (h : ∀ u, Yields (k u) Q) : Yields (if c then p >>= k else k ()) Q :=
  .ite (.behind h) (h ())

/-- Which of two steps comes before does not matter. -/
theorem either {c : Prop} [Decidable c] {p' : Parse α} (h : ∀ a, Yields (k a) Q) :
    Yields (if c then p >>= k else p' >>= k) Q :=
  .ite (.behind h) (.behind h)

/-- A fault gives nothing. -/
theorem fail {message : String} : Yields (Parser.fail message : Parse α) P :=
  fun _ _ _ h => nomatch h

/-- A token that cannot stand somewhere gives nothing. -/
theorem unexpected : Yields (Parser.unexpected : Parse α) P := by
  intro s a s' h
  unfold Parser.unexpected at h
  split at h <;> cases h

/-- What is given in another context. -/
theorem within {f : Context → Context} (h : Yields p P) : Yields (Parser.within f p) P :=
  behind fun _ => behind fun _ => h.bind fun _ ha => behind fun _ => .pure ha

/-- What is given behind something that is still to be closed. -/
theorem inside (h : Yields p P) : Yields (Parser.inside p) P :=
  behind fun _ => h.bind fun _ ha => behind fun _ => .pure ha

/-- What is given between two symbols. -/
theorem between {opening closing : String} (h : Yields p P) :
    Yields (Parser.between opening closing p) P :=
  behind fun _ => h.inside.bind fun _ ha => behind fun _ => .pure ha

/-- What is given by each repetition. -/
theorem repeatFrom {p : Parse (Option α)} (h : Yields p fun a? => ∀ a ∈ a?, P a) (fuel : Nat)
    {acc : List α} (hacc : ∀ a ∈ acc, P a) :
    Yields (Parser.repeatFrom p fuel acc) fun as => ∀ a ∈ as, P a := by
  induction fuel generalizing acc with
  | zero => exact .pure fun a ha => hacc a (List.mem_reverse.1 ha)
  | succ fuel ih =>
    refine h.bind fun a? ha => ?_
    cases a? with
    | none => exact .pure fun a ha => hacc a (List.mem_reverse.1 ha)
    | some a => exact ih (List.forall_mem_cons.2 ⟨ha a rfl, hacc⟩)

/-- What is given by repetitions. -/
theorem repeated {p : Parse (Option α)} (h : Yields p fun a? => ∀ a ∈ a?, P a) :
    Yields (Parser.repeated p) fun as => ∀ a ∈ as, P a :=
  behind fun fuel => h.repeatFrom fuel fun _ ha => nomatch ha

/-- What is given in the parts of a pattern. -/
theorem partsFrom {closing restLast : String} {isRest : α → Bool} (h : Yields p P) (fuel : Nat)
    {acc : List α} (hacc : ∀ a ∈ acc, P a) :
    Yields (Parser.partsFrom closing restLast isRest p fuel acc) fun as => ∀ a ∈ as, P a := by
  have hend : ∀ a ∈ acc.reverse, P a := fun a ha => hacc a (List.mem_reverse.1 ha)
  induction fuel generalizing acc with
  | zero => exact .pure hend
  | succ fuel ih =>
    have hmore : Yields (do
        let a ← p
        Parser.partsFrom closing restLast isRest p fuel (a :: acc)) fun as => ∀ a ∈ as, P a :=
      h.bind fun a ha =>
        have hcons := List.forall_mem_cons.2 ⟨ha, hacc⟩
        ih hcons fun b hb => hcons b (List.mem_reverse.1 hb)
    -- the closing symbol ends the parts, behind a rest nothing else may follow
    have hpart (afterRest : Bool) : Yields (do
        if ← atSymbol closing then
          if afterRest && !(← context).isAmbient then note restComma
          return acc.reverse
        if afterRest then Parser.fail restLast
        let a ← p
        Parser.partsFrom closing restLast isRest p fuel (a :: acc)) fun as => ∀ a ∈ as, P a :=
      .behind fun _ => .ite
        (.behind fun _ => .ite (.behind fun _ => .pure hend) (.pure hend))
        (.ite (.behind fun _ => hmore) hmore)
    exact .behind fun _ => .behind fun _ => .ite (.pure hend)
      (.ite (.behind fun _ => .ite (.behind fun _ => .behind fun _ => hpart _) (hpart _)) (hpart _))

end Yields

/-! ## Targets -/

mutual

/-- What a declaration can bind: a name, or a pattern of an array or object. -/
inductive IsTarget : Expr → Prop
  | name (name : String) : IsTarget (.ident name)
  | array {es : List Expr} (h : ∀ e ∈ es, IsItem e) : IsTarget (.array es)
  | object {ps : List Property} (h : ∀ p ∈ ps, IsField p) : IsTarget (.object ps)

/-- A target that may have a default. -/
inductive IsElement : Expr → Prop
  | plain {e : Expr} (h : IsTarget e) : IsElement e
  | default {e value : Expr} (h : IsTarget e) : IsElement (.assign .plain e value)

/-- A part of a pattern of an array. -/
inductive IsItem : Expr → Prop
  | hole : IsItem .absent
  | rest {e : Expr} (h : IsTarget e) : IsItem (.spread e)
  | element {e : Expr} (h : IsElement e) : IsItem e

/-- A part of a pattern of an object. -/
inductive IsField : Property → Prop
  | rest {e : Expr} (h : IsTarget e) : IsField (.spread e)
  | element {key e : Expr} {isShorthand : Bool} (h : IsElement e) :
    IsField (.value key e isShorthand)

end

section Targets

variable {r : Rules}

/-- A target behind which a default may stand. -/
theorem yields_withDefault {target : Expr} (h : IsTarget target) :
    Yields (withDefault r target) IsElement :=
  .behind fun _ => .ite (.behind fun _ => .pure (.default h)) (.pure (.plain h))

/-- A target with its default. -/
theorem yields_bindingElement (hr : Yields r.target IsTarget) :
    Yields (bindingElement r) IsElement :=
  hr.bind fun _ h => .behind fun _ => yields_withDefault h

/-- The target of a rest. -/
theorem yields_restTarget (hr : Yields r.target IsTarget) : Yields (restTarget r) IsTarget :=
  .behind fun _ => hr.bind fun target h =>
    have hend : Yields (do
        typeAnnotation r
        if ← eat "=" then
          note "A rest parameter cannot have an initializer"
          let _ ← r.assignIn
        pure target) IsTarget :=
      .behind fun _ => .behind fun _ => .ite (.behind fun _ => .behind fun _ => .pure h) (.pure h)
    .behind fun _ => .ite (.behind fun _ => .ite (.behind fun _ => hend) hend) hend

/-- One element of the pattern of an array. -/
theorem yields_bindingItem (hr : Yields r.target IsTarget) : Yields (bindingItem r) IsItem :=
  .behind fun _ => .ite (.pure .hole) <| .behind fun _ => .ite
    ((yields_restTarget hr).bind fun _ h => .pure (.rest h))
    ((yields_bindingElement hr).imp fun _ => .element)

/-- One property of the pattern of an object. -/
theorem yields_bindingProperty (hr : Yields r.target IsTarget) :
    Yields (bindingProperty r) IsField := by
  have hlast (key : Expr) : Yields (do
      expect ":"
      return .value key (← bindingElement r) false) IsField :=
    .behind fun _ => (yields_bindingElement hr).bind fun _ h => .pure (.element h)
  refine .behind fun _ => .ite ((yields_restTarget hr).bind fun _ h => .pure (.rest h)) ?_
  refine .behind fun isName => .behind fun key => ?_
  -- a name without a colon is the target as well
  split
  · next name =>
    exact .behind fun _ => .ite (.behind fun _ => .behind fun _ =>
      (yields_withDefault (.name name)).bind fun _ h => .pure (.element h)) (hlast _)
  · exact hlast key

/-- What a declaration binds. -/
theorem yields_bindingTarget (hr : Yields r.target IsTarget) :
    Yields (bindingTarget r) IsTarget :=
  .behind fun _ => .ite
    (.between (.behind fun _ => ((yields_bindingItem hr).partsFrom _ (List.forall_mem_nil _)).bind
      fun _ h => .pure (.array h))) <|
    .behind fun _ => .ite
      (.between (.behind fun _ =>
        ((yields_bindingProperty hr).partsFrom _ (List.forall_mem_nil _)).bind
          fun _ h => .pure (.object h)))
      (.behind fun name => .pure (.name name))

end Targets

/-- Whatever the rules refer to, they read targets. -/
theorem yields_target (n : Nat) : Yields (rules n).target IsTarget := by
  induction n with
  | zero => exact .unexpected
  | succ n ih => exact yields_bindingTarget ih

/-! ## Declarations -/

/-- The variables that a statement declares are bound by targets. -/
def Stmt.BindsTargets : Stmt → Prop
  | .variables _ es => ∀ e ∈ es, IsElement e
  | _ => True

/-- The declaration that a statement exports, if it exports one. -/
def Stmt.exported? : Stmt → Option Stmt
  | .commented _ s => s.exported?
  | .exportDecl s => some s
  | _ => none

/-- The variables that a statement exports are bound by targets. -/
def Stmt.ExportsTargets (s : Stmt) : Prop := ∀ d ∈ s.exported?, d.BindsTargets

/-- A statement exports no declaration. -/
def Stmt.DeclaresNoExport (s : Stmt) : Prop := s.exported? = none

/-- A statement that exports no declaration, and whose variables are bound by targets. -/
structure Stmt.IsLocal (s : Stmt) : Prop where
  declaresNoExport : s.DeclaresNoExport
  bindsTargets : s.BindsTargets

/-- A statement that exports no declaration exports no variables. -/
theorem Stmt.DeclaresNoExport.exportsTargets {s : Stmt} (h : s.DeclaresNoExport) :
    s.ExportsTargets :=
  fun _ hd => nomatch h.symm.trans hd

/-- What exports no declaration exports no variables. -/
theorem Yields.noExport {p : Parse Stmt} (h : Yields p Stmt.DeclaresNoExport) :
    Yields p Stmt.ExportsTargets := h.imp fun _ => Stmt.DeclaresNoExport.exportsTargets

/-- Nor does a statement that declares for the module alone. -/
theorem Yields.onlyLocal {p : Parse Stmt} (h : Yields p Stmt.IsLocal) :
    Yields p Stmt.ExportsTargets := noExport (h.imp fun _ => Stmt.IsLocal.declaresNoExport)

section Declarations

variable {r : Rules}

/-- The declaration of a variable. -/
theorem yields_declarator (hr : Yields r.target IsTarget) : Yields (declarator r) IsElement :=
  hr.bind fun target h =>
    have hend : Yields (do
        typeAnnotation r
        if ← eat "=" then return .assign .plain target (← r.assign)
        return target) IsElement :=
      .behind fun _ => .behind fun _ =>
        .ite (.behind fun _ => .pure (.default h)) (.pure (.plain h))
    have hmarked : Yields (do
        let _ ← eat "?"
        typeAnnotation r
        if ← eat "=" then return .assign .plain target (← r.assign)
        return target) IsElement := .behind fun _ => hend
    .behind fun _ => .ite (.behind fun _ => .ite (.behind fun _ => hmarked) hmarked) hend

/-- Some variables. -/
theorem yields_declarators (hr : Yields r.target IsTarget) :
    Yields (declarators r) fun es => ∀ e ∈ es, IsElement e :=
  have hmore : Yields (do if ← eat "," then return some (← declarator r) else return none)
      fun e? => ∀ e ∈ e?, IsElement e :=
    .behind fun _ => .ite
      ((yields_declarator hr).bind fun _ h => .pure fun _ he => Option.mem_some.1 he ▸ h)
      (.pure fun _ he => nomatch he)
  (yields_declarator hr).bind fun _ h => hmore.repeated.bind fun _ h' =>
    .pure (List.forall_mem_cons.2 ⟨h, h'⟩)

/-- A declaration of variables. -/
theorem yields_variableDeclaration (hr : Yields r.target IsTarget) (kind : VariableKind) :
    Yields (variableDeclaration r kind) Stmt.IsLocal :=
  (yields_declarators hr).bind fun _ h => .behind fun _ => .behind fun _ => .pure ⟨rfl, h⟩

/-- A declaration of a function. -/
theorem yields_functionDeclaration (isRequired : Bool) :
    Yields (functionDeclaration r isRequired) Stmt.IsLocal :=
  .behind fun _ => .behind fun _ => .behind fun (_, body) => by
    cases body with
    | some body => exact .pure ⟨rfl, trivial⟩
    | none => exact .behind fun _ => .pure ⟨rfl, trivial⟩

/-- A declaration of a class. -/
theorem yields_classDeclaration (decorators : List Expr) :
    Yields (classDeclaration r decorators) Stmt.IsLocal :=
  .behind fun _ => .behind fun _ => .pure ⟨rfl, trivial⟩

/-- A declaration of an enumeration. -/
theorem yields_enumDeclaration (isConst : Bool) :
    Yields (enumDeclaration r isConst) Stmt.IsLocal :=
  .behind fun _ => .behind fun _ => .between <| .behind fun _ => .behind fun _ =>
    .pure ⟨rfl, trivial⟩

/-- A declaration of an interface. -/
theorem yields_interfaceDeclaration : Yields (interfaceDeclaration r) Stmt.IsLocal :=
  .behind fun _ => .behind fun _ => .behind fun _ => .behind fun _ => .optional fun _ =>
    .behind fun _ => .ite (.behind fun _ => .behind fun _ => .behind fun _ => .pure ⟨rfl, trivial⟩)
      (.behind fun _ => .pure ⟨rfl, trivial⟩)

/-- A declaration of a name for a type. -/
theorem yields_aliasDeclaration : Yields (aliasDeclaration r) Stmt.IsLocal :=
  .behind fun _ => .behind fun _ => .behind fun _ => .behind fun _ => .behind fun _ =>
    .behind fun _ => .pure ⟨rfl, trivial⟩

/-- A namespace. -/
theorem yields_namespaceDeclaration : Yields (namespaceDeclaration r) Stmt.IsLocal := by
  refine .behind fun _ => .behind fun f => ?_
  split
  · exact .behind fun _ => .behind fun _ => .ite (.behind fun _ => .pure ⟨rfl, trivial⟩)
      (.behind fun _ => .pure ⟨rfl, trivial⟩)
  · exact .behind fun _ => .behind fun _ => .behind fun _ => .pure ⟨rfl, trivial⟩

/-- An import that names what is imported by an expression of names. -/
theorem yields_importEquals (isType : Bool) (name : String) :
    Yields (importEquals isType name) Stmt.IsLocal :=
  .behind fun _ => .behind fun _ => .bind (P := Stmt.IsLocal)
    (.ite (.behind fun _ => .behind fun _ => .pure ⟨rfl, trivial⟩)
      (.behind fun _ => .pure ⟨rfl, trivial⟩))
    fun _ h => .behind fun _ => .behind fun _ => .optional fun _ => .pure h

/-- A declaration that imports. -/
theorem yields_importDeclaration : Yields importDeclaration Stmt.IsLocal :=
  .behind fun _ => .either fun _ => .behind fun (_, _, default) => by
    cases default with
    | none =>
      exact .behind fun _ => .behind fun _ => .behind fun _ => .behind fun _ => .pure ⟨rfl, trivial⟩
    | some name =>
      exact .behind fun _ => .ite (yields_importEquals _ name) <| .behind fun _ =>
        .behind fun _ => .behind fun _ => .behind fun _ => .pure ⟨rfl, trivial⟩

/-- A declaration without any of the words that only types know. -/
theorem yields_plainDeclaration? (hr : Yields r.target IsTarget) (decorators : List Expr)
    (seen : List String) :
    Yields (plainDeclaration? r decorators seen) fun s? => ∀ s ∈ s?, s.IsLocal := by
  have hsome {p : Parse Stmt} (h : Yields p Stmt.IsLocal) :
      Yields (do return some (← p)) fun s? => ∀ s ∈ s?, s.IsLocal :=
    h.bind fun _ hs => .pure fun _ hmem => Option.mem_some.1 hmem ▸ hs
  refine .behind fun _ => .ite
    (.behind fun _ => .behind fun _ => hsome (yields_enumDeclaration _)) ?_
  refine .behind fun kind? => ?_
  split
  · exact .behind fun _ => .behind fun _ => hsome (yields_variableDeclaration hr _)
  · exact .behind fun _ => .ite (.behind fun _ => hsome (yields_classDeclaration _)) <|
      .behind fun _ => .behind fun _ => .ite
        (.behind fun _ => hsome (yields_functionDeclaration _)) (.pure fun _ h => nomatch h)

/-- A declaration that starts with a word that only types know. -/
theorem yields_typeOnlyDeclaration (seen : List String) (word : String) :
    Yields (typeOnlyDeclaration r seen word) Stmt.IsLocal :=
  .behind fun _ => .ite yields_interfaceDeclaration <| .ite yields_aliasDeclaration <|
    .ite (yields_enumDeclaration _) <| .ite yields_namespaceDeclaration <|
      .ite (.behind fun _ => .behind fun _ => .pure ⟨rfl, trivial⟩) <|
        .ite (.behind fun _ => yields_importDeclaration) .unexpected

/-- A declaration behind modifiers. -/
theorem yields_declarationFrom (hr : Yields r.target IsTarget) (decorators : List Expr)
    (fuel : Nat) (seen : List String) :
    Yields (declarationFrom r decorators fuel seen) Stmt.IsLocal := by
  induction fuel generalizing seen with
  | zero => exact .unexpected
  | succ fuel ih =>
    unfold declarationFrom
    refine (yields_plainDeclaration? hr decorators seen).bind fun s? h => ?_
    split
    · next s => exact .pure (h s rfl)
    · refine .behind fun _ => .ite .unexpected ?_
      refine .behind fun f => ?_
      split
      · exact .ite (.behind fun _ => .behind fun _ => .pure ⟨rfl, trivial⟩) <|
          .ite (.behind fun _ => ih _) (yields_typeOnlyDeclaration _ _)
      · exact .unexpected

/-- A declaration behind its decorators. -/
theorem yields_declaration (hr : Yields r.target IsTarget) (decorators : List Expr) :
    Yields (declaration r decorators) Stmt.IsLocal :=
  .behind fun fuel => yields_declarationFrom hr decorators fuel []

end Declarations

/-! ## Statements -/

section Statements

variable {r : Rules}

/-- Nothing is exported by a declaration by the names in its braces. -/
theorem yields_exportNames (isType : Bool) :
    Yields (exportNames isType) Stmt.DeclaresNoExport :=
  .behind fun _ => .behind fun _ => .behind fun _ => .ite
    (.behind fun _ => .behind fun _ => .behind fun _ => .pure rfl)
    (.behind fun _ => .behind fun _ => .pure rfl)

/-- Nor by one of all names of another module. -/
theorem yields_exportEverything (isType : Bool) :
    Yields (exportEverything isType) Stmt.DeclaresNoExport :=
  .behind fun _ => .behind fun _ => .either fun _ => .behind fun _ => .behind fun _ =>
    .behind fun _ => .behind fun _ => .pure rfl

/-- Nor by a default. -/
theorem yields_exportDefaultRest (decorators : List Expr) :
    Yields (exportDefaultRest r decorators) Stmt.DeclaresNoExport := by
  have hlast : Yields (do
      let e ← r.assign
      endStatement
      return Stmt.exportDefault e) Stmt.DeclaresNoExport :=
    .behind fun _ => .behind fun _ => .pure rfl
  have hdeclared {p : Parse Stmt} :
      Yields (do return .exportDefaultDecl (← p)) Stmt.DeclaresNoExport :=
    .behind fun _ => .pure rfl
  have hinterface : Yields (do
      if ← atWord "interface" then
        let isInterface ← lookahead do
          skip
          return !(← afterBreak) && (← atName)
        if isInterface then return .exportDefaultDecl (← interfaceDeclaration r)
      let e ← r.assign
      endStatement
      return Stmt.exportDefault e) Stmt.DeclaresNoExport :=
    .behind fun _ => .ite (.behind fun _ => .ite hdeclared hlast) hlast
  exact .behind fun _ => .behind fun _ => .ite hdeclared <| .behind fun _ => .behind fun _ =>
    .ite hdeclared <| .behind fun _ => .ite
      (.behind fun _ => .ite (.behind fun _ => .ite (.behind fun _ => hdeclared) hinterface)
        hinterface) hlast

/-- What stands behind `export`. -/
theorem yields_exportDeclaration (hr : Yields r.target IsTarget) (decorators : List Expr) :
    Yields (exportDeclaration r decorators) Stmt.ExportsTargets := by
  have hlast : Yields (do
      let more ← decoratorsBefore r
      return .exportDecl (← declaration r (decorators ++ more))) Stmt.ExportsTargets :=
    .behind fun _ => (yields_declaration hr _).bind fun s h =>
      .pure fun d hd => Option.mem_some.1 hd ▸ h.bindsTargets
  refine .behind fun _ => .ite (.noExport (yields_exportNames _)) <| .behind fun _ =>
    .ite (.noExport (yields_exportEverything _)) <| .behind fun _ =>
      .ite (.noExport (yields_exportDefaultRest _)) <| .behind fun _ => .ite ?_ ?_
  · exact .behind fun _ => .behind fun _ => .ite
      ((yields_exportEverything _).noExport.bind fun _ h => .pure h)
      ((yields_exportNames _).noExport.bind fun _ h => .pure h)
  · have hequals : Yields (do
        let e ← r.expression
        endStatement
        return .exportAssign e) Stmt.ExportsTargets :=
      .noExport (.behind fun _ => .behind fun _ => .pure rfl)
    have hnamespace : Yields (do
        advance
        expectWord "namespace"
        let name ← bindingName
        endStatement
        return .exportAsNamespace name) Stmt.ExportsTargets :=
      .noExport (.behind fun _ => .behind fun _ => .behind fun _ => .behind fun _ => .pure rfl)
    exact .behind fun _ => .ite
      (.behind fun _ => .ite hequals <| .behind fun _ => .ite hnamespace hlast) hlast

/-- A choice. -/
theorem yields_ifStatement : Yields (ifStatement r) Stmt.DeclaresNoExport :=
  .behind fun _ => .behind fun _ => .behind fun _ =>
    .ite (.behind fun _ => .pure rfl) (.pure rfl)

/-- A loop that tests behind its body. -/
theorem yields_doStatement : Yields (doStatement r) Stmt.DeclaresNoExport :=
  .behind fun _ => .behind fun _ => .behind fun _ => .behind fun _ => .pure rfl

/-- A loop with three parts. -/
theorem yields_forRest (head : Stmt) (isAwait : Bool) :
    Yields (forRest r head isAwait) Stmt.DeclaresNoExport := by
  have hrest : Yields (do
      let test ← if (← atSymbol ";") || (← atSymbol ")") then pure .absent else r.expressionIn
      expect ";"
      let step ← if ← atSymbol ")" then pure .absent else r.expressionIn
      expect ")"
      if isAwait then
        note "await can only be used in conjunction with \x60for...of\x60 statements"
      return .forLoop head test step (← body r)) Stmt.DeclaresNoExport :=
    .behind fun _ => .behind fun _ => .either fun _ => .behind fun _ => .behind fun _ =>
      .either fun _ => .behind fun _ => .optional fun _ => .behind fun _ => .pure rfl
  refine .behind fun _ => ?_
  dsimp only
  split
  · exact .behind fun _ => hrest
  · exact hrest

/-- A loop behind what it starts with. -/
theorem yields_forHeadRest (head : Stmt) (isAwait : Bool) :
    Yields (forHeadRest r head isAwait) Stmt.DeclaresNoExport :=
  .behind fun _ => .ite
    (.behind fun _ => .behind fun _ => .behind fun _ => .optional fun _ =>
      .behind fun _ => .pure rfl) <|
    .behind fun _ => .ite (.behind fun _ => .behind fun _ => .behind fun _ => .pure rfl)
      (yields_forRest _ _)

/-- A loop. -/
theorem yields_forStatement : Yields (forStatement r) Stmt.DeclaresNoExport := by
  refine .behind fun isAwait => .behind fun _ => .behind fun _ => .ite (yields_forRest _ _) ?_
  refine .behind fun kind? => ?_
  split
  · exact .behind fun _ => .behind fun _ => yields_forHeadRest _ _
  · refine .behind fun _ => .behind fun e => .behind fun _ => .behind fun _ => .ite ?_
      (yields_forRest _ _)
    have htarget : Yields (do
        let target ← assignTarget e
        forHeadRest r (.expr target) isAwait) Stmt.DeclaresNoExport :=
      .behind fun _ => yields_forHeadRest _ _
    refine .behind fun _ => .ite ?_ htarget
    split
    · exact .behind fun _ => htarget
    · exact htarget

/-- A `return`. -/
theorem yields_returnStatement : Yields (returnStatement r) Stmt.DeclaresNoExport :=
  .behind fun _ => .behind fun _ => .optional fun _ => .pure rfl

/-- A `throw`. -/
theorem yields_throwStatement : Yields (throwStatement r) Stmt.DeclaresNoExport :=
  .behind fun _ => .optional fun _ => .behind fun _ => .behind fun _ => .pure rfl

/-- A `try`. -/
theorem yields_tryStatement : Yields (tryStatement r) Stmt.DeclaresNoExport := by
  refine .behind fun _ => .behind fun _ => .either fun caught => .behind fun _ =>
    .either fun finalizer => ?_
  dsimp only
  split
  · exact .pure rfl
  · exact .pure rfl
  · exact .pure rfl
  · exact .behind fun _ => .pure rfl

/-- A `switch`. -/
theorem yields_switchStatement : Yields (switchStatement r) Stmt.DeclaresNoExport :=
  .behind fun _ => .behind fun _ => .pure rfl

/-- An expression, or a label before a statement. -/
theorem yields_expressionStatement : Yields (expressionStatement r) Stmt.DeclaresNoExport := by
  have hend (e : Expr) : Yields (do
      endStatement
      return .expr e) Stmt.DeclaresNoExport := .behind fun _ => .pure rfl
  refine .behind fun e => ?_
  dsimp only
  split
  · exact .behind fun _ => .ite (.behind fun _ => .pure rfl) (hend _)
  · exact hend e

/-- Variables. -/
theorem yields_lexicalDeclaration (isAlone : Bool) (kind : VariableKind)
    (hr : Yields r.target IsTarget) :
    Yields (lexicalDeclaration r isAlone kind) Stmt.DeclaresNoExport :=
  (yields_variableDeclaration hr kind).bind fun _ h => .behind fun _ => .pure h.declaresNoExport

/-- A function. -/
theorem yields_functionStatement (isAlone : Bool) :
    Yields (functionStatement r isAlone) Stmt.DeclaresNoExport := by
  refine (yields_functionDeclaration true).bind fun s h => ?_
  have hend : Yields (pure s : Parse Stmt) Stmt.DeclaresNoExport := .pure h.declaresNoExport
  dsimp only
  split
  · exact .ite (.behind fun _ => hend) (.ite (.behind fun _ => hend) hend)
  · exact hend

/-- A class with decorators. -/
theorem yields_decoratedStatement (hr : Yields r.target IsTarget) :
    Yields (decoratedStatement r) Stmt.ExportsTargets :=
  .behind fun _ => .behind fun _ => .ite (yields_exportDeclaration hr _) <|
    .behind fun _ => .behind fun _ => .optional fun _ => .behind fun _ => .behind fun _ => .ite
      (yields_declaration hr _).onlyLocal <|
      .behind fun _ => .ite (yields_classDeclaration _).onlyLocal .unexpected

/-- A statement that starts with a word. -/
theorem yields_wordStatement (hr : Yields r.target IsTarget) (isAlone : Bool) (word : String) :
    Yields (wordStatement r isAlone word) Stmt.ExportsTargets := by
  refine .ite (.behind fun _ => .noExport yields_ifStatement) ?_
  refine .ite (.behind fun _ => .noExport yields_doStatement) ?_
  refine .ite (.behind fun _ => .behind fun _ => .behind fun _ => .noExport (.pure rfl)) ?_
  refine .ite (.behind fun _ => .noExport yields_forStatement) ?_
  refine .ite (.behind fun _ => .behind fun _ => .noExport (.pure rfl)) ?_
  refine .ite (.behind fun _ => .behind fun _ => .noExport (.pure rfl)) ?_
  refine .ite (.behind fun _ => .noExport yields_returnStatement) ?_
  refine .ite (.behind fun _ => .behind fun _ => .behind fun _ => .noExport (.pure rfl)) ?_
  refine .ite (.behind fun _ => .noExport yields_switchStatement) ?_
  refine .ite (.behind fun _ => .noExport yields_throwStatement) ?_
  refine .ite (.behind fun _ => .noExport yields_tryStatement) ?_
  refine .ite (.behind fun _ => .behind fun _ => .noExport (.pure rfl)) ?_
  refine .ite (.onlyLocal ((yields_classDeclaration _).bind fun _ h => .behind fun _ => .pure h)) ?_
  refine .ite (.behind fun _ => yields_exportDeclaration hr _) ?_
  refine .ite (.behind fun _ => .onlyLocal (yields_variableDeclaration hr _)) ?_
  refine .ite (.noExport (yields_functionStatement _)) ?_
  refine .ite (.behind fun _ => .ite (.noExport yields_expressionStatement) <| .behind fun _ => .ite
    (.behind fun _ => .behind fun _ => .noExport (.pure rfl))
    (.behind fun _ => .noExport (yields_lexicalDeclaration _ _ hr))) ?_
  refine .ite (.behind fun _ => .ite (.noExport (yields_functionStatement _))
    (.noExport yields_expressionStatement)) ?_
  refine .ite (.behind fun _ => .ite (.behind fun _ => .onlyLocal yields_importDeclaration)
    (.noExport yields_expressionStatement)) ?_
  refine .ite (.behind fun _ => .ite (.onlyLocal (yields_declaration hr _))
    (.behind fun _ => .noExport (yields_lexicalDeclaration _ _ hr))) ?_
  refine .behind fun _ => .ite (.behind fun _ => .noExport (yields_lexicalDeclaration _ _ hr)) ?_
  refine .behind fun _ => .ite
    (.behind fun _ => .behind fun _ => .noExport (yields_lexicalDeclaration _ _ hr)) ?_
  exact .behind fun _ => .ite (.onlyLocal (yields_declaration hr _))
    (.noExport yields_expressionStatement)

/-- A statement without the comments before it. -/
theorem yields_plainStatement (hr : Yields r.target IsTarget) (isAlone : Bool) :
    Yields (plainStatement r isAlone) Stmt.ExportsTargets := by
  have hexpression := (yields_expressionStatement (r := r)).noExport
  refine .behind fun f => ?_
  split
  · exact .ite (.behind fun _ => .noExport (.pure rfl)) <|
      .ite (.behind fun _ => .noExport (.pure rfl)) <|
      .ite (yields_decoratedStatement hr) hexpression
  · exact .ite hexpression (yields_wordStatement hr _ _)
  · exact hexpression

end Statements

/-- Marking a function as one without effect leaves what variables are bound by. -/
theorem Stmt.ExportsTargets.markEffectFree {s : Stmt} (h : s.ExportsTargets) :
    s.markEffectFree.ExportsTargets := by
  unfold Stmt.markEffectFree
  split
  case h_2 => exact fun d hd => Option.mem_some.1 hd ▸ trivial
  case h_6 es =>
    -- the value of the first constant is marked, which its target does not know of
    intro d hd
    obtain rfl := Option.mem_some.1 hd
    have hes : ∀ e ∈ es, IsElement e := h _ rfl
    unfold markFirstEffectFree
    split
    · next op target value rest =>
      obtain ⟨hfirst, hrest⟩ := List.forall_mem_cons.1 hes
      refine List.forall_mem_cons.2 ⟨?_, hrest⟩
      cases hfirst with
      | plain htarget => cases htarget
      | default htarget => exact .default htarget
    · exact hes
  case h_7 => exact h
  all_goals exact Stmt.DeclaresNoExport.exportsTargets rfl

/-- A statement with the comments before it. -/
theorem yields_statementOf {r : Rules} (hr : Yields r.target IsTarget) (isAlone : Bool) :
    Yields (statementOf r isAlone) Stmt.ExportsTargets := by
  refine .behind fun comments => .behind fun token => (yields_plainStatement hr _).bind fun s h =>
    .pure ?_
  have hmarked : (if token.isEffectFree then s.markEffectFree else s).ExportsTargets := by
    split
    · exact h.markEffectFree
    · exact h
  split
  · exact hmarked
  · exact hmarked

/-- Directives export nothing. -/
theorem exportsTargets_markDirectives {body : List Stmt} (h : ∀ s ∈ body, s.ExportsTargets) :
    ∀ s ∈ markDirectives body, s.ExportsTargets := by
  fun_induction markDirectives body with
  | case1 => exact h
  | case2 s rest d hd ih =>
    obtain ⟨-, hrest⟩ := List.forall_mem_cons.1 h
    refine List.forall_mem_cons.2 ⟨Stmt.DeclaresNoExport.exportsTargets ?_, ih hrest⟩
    unfold asDirective? at hd
    split at hd
    · cases hd
      rfl
    · cases hd
      rfl
    · cases hd
  | case3 => exact h

/-- The variables that are exported in a text are bound by targets. -/
theorem Program.exportsTargets_of_read {d : Dialect} {text : String} {p : Program}
    (h : Program.read d text = .ok p) : ∀ s ∈ p.body, s.ExportsTargets := by
  have hstatement (n : Nat) (isAlone : Bool) :
      Yields ((rules n).statement isAlone) Stmt.ExportsTargets := by
    cases n with
    | zero => exact .unexpected
    | succ n => exact yields_statementOf (yields_target n) isAlone
  have hbody (n : Nat) : Yields (programBody (rules n)) fun body => ∀ s ∈ body, s.ExportsTargets :=
    .bind (.repeated (.behind fun _ => .ite (.pure fun _ hs => nomatch hs)
      ((hstatement n false).bind fun _ hs => .pure fun _ hmem => Option.mem_some.1 hmem ▸ hs)))
      fun _ hs => .pure (exportsTargets_markDirectives hs)
  unfold Program.read at h
  dsimp only at h
  split at h
  · next body s hread =>
    generalize (if d.hasTypes then [] else exportFaults body) = faults at h
    split at h
    · cases h
      exact hbody _ _ _ _ hread
    · cases h
  · cases h

end ModuleLoader.Syntax
