import ModuleLoader.Compile.Redirect
import ModuleLoader.Imports.Reference

/-! # What is asked for while specifiers are replaced

The pass that replaces specifiers goes through a program in the order in which a scan does, and asks
for what the scan lists: every specifier as often as it occurs, whatever is answered.

* **`Asks`** is a step that asks for the specifiers of some references.
* **`redirectBody_asks`** says which ones the pass asks for. -/

namespace ModuleLoader.Syntax

variable {α β γ δ ε : Type} {f : String → Option String}

/-! ## Steps that ask -/

/-- The step asks for the specifiers of some references, in their order, behind what has been asked
for before. -/
def Asks (m : Redirecting α) (rs : List Reference) : Prop :=
  ∀ a, (m a).2.specifiers = a.specifiers ++ rs.map Reference.specifier

namespace Asks

variable {m : Redirecting α} {n : Redirecting β} {o : Redirecting γ} {p : Redirecting δ}
variable {rs rs' rs'' rsLast : List Reference}

/-- Giving something back asks for nothing. -/
theorem pure (x : α) : Asks (Pure.pure x) [] := fun a => (List.append_nil a.specifiers).symm

/-- Asking for one thing and then for others. -/
theorem bind {k : α → Redirecting β} (h : Asks m rs) (h' : ∀ x, Asks (k x) rs') :
    Asks (m >>= k) (rs ++ rs') := by
  intro a
  calc ((m >>= k) a).2.specifiers = (k (m a).1 (m a).2).2.specifiers := rfl
    _ = (m a).2.specifiers ++ rs'.map Reference.specifier := h' _ _
    _ = a.specifiers ++ (rs ++ rs').map Reference.specifier := by
      rw [h a, List.map_append, List.append_assoc]

/-- A tree with one part asks for what the part does. -/
theorem one {k : α → β} (h : Asks m rs) : Asks (do return k (← m)) rs :=
  List.append_nil rs ▸ h.bind fun _ => .pure _

/-- A tree with two parts asks for what they do. -/
theorem two {k : α → β → γ} (h : Asks m rs) (h' : Asks n rs') :
    Asks (do return k (← m) (← n)) (rs ++ rs') :=
  h.bind fun _ => h'.one

/-- A tree with three parts asks for what they do. -/
theorem three {k : α → β → γ → δ} (h : Asks m rs) (h' : Asks n rs') (h'' : Asks o rs'') :
    Asks (do return k (← m) (← n) (← o)) (rs ++ rs' ++ rs'') :=
  List.append_assoc rs rs' rs'' ▸ h.bind fun _ => h'.two h''

/-- A tree with four parts asks for what they do. -/
theorem four {k : α → β → γ → δ → ε} (h : Asks m rs) (h' : Asks n rs') (h'' : Asks o rs'')
    (hlast : Asks p rsLast) :
    Asks (do return k (← m) (← n) (← o) (← p)) (rs ++ rs' ++ rs'' ++ rsLast) := by
  rw [List.append_assoc, List.append_assoc, ← List.append_assoc rs']
  exact h.bind fun _ => h'.three h'' hlast

end Asks

/-! ## One specifier -/

/-- Asking for a specifier that is written down. -/
theorem StringLiteral.redirect_asks (s : StringLiteral) (isDynamic : Bool) :
    Asks (s.redirect f) [⟨s.value, isDynamic⟩] := by
  intro a
  unfold StringLiteral.redirect
  cases f s.value <;> rfl

/-- An `import()` that a scan does not list is not asked for. -/
theorem dynamicReference_eq_nil : {e : Expr} → redirectSpecifier? f e = none →
    dynamicReference e = [] := by
  intro e h
  induction e using dynamicReference.induct with
  | case1 literal => cases h
  | case2 comments e ih =>
    rw [redirectSpecifier?, Option.map_eq_none_iff] at h
    exact ih h
  | case3 e hstring hcommented =>
    rw [dynamicReference]
    · exact hstring
    · exact hcommented

/-- An `import()` that is asked for is one that a scan lists, and what it is called on holds no
others. -/
theorem redirectSpecifier?_asks {e : Expr} {m : Redirecting Expr}
    (h : redirectSpecifier? f e = some m) : Asks m (dynamicReference e) ∧ e.references = [] := by
  induction e using dynamicReference.induct generalizing m with
  | case1 literal =>
    cases h
    exact ⟨(literal.redirect_asks true).one, rfl⟩
  | case2 comments e ih =>
    rw [redirectSpecifier?, Option.map_eq_some_iff] at h
    obtain ⟨m, hm, rfl⟩ := h
    exact ⟨(ih hm).1.one, (ih hm).2⟩
  | case3 e hstring hcommented =>
    rw [redirectSpecifier?] at h
    · cases h
    · exact hstring
    · exact hcommented

/-! ## All specifiers -/

mutual

/-- What is asked for in an expression. -/
theorem Expr.redirect_asks : (e : Expr) → Asks (e.redirect f) e.references
  | .template _ parts | .array parts | .sequence parts | .fragment _ parts =>
    (redirectAll_asks parts).one
  | .object properties => (redirectProperties_asks properties).one
  | .unary _ e | .update _ _ e | .member e _ _ | .privateMember e _ _ | .chain e | .yield _ e
  | .await e | .spread e | .beforeComma e | .paren e | .computed e | .typed _ e
  | .parameterProperty e | .commented _ e | .remarked _ e | .effectFree e | .container e =>
    e.redirect_asks.one
  | .binary _ e e' | .assign _ e e' | .index e e' _ => e.redirect_asks.two e'.redirect_asks
  | .conditional test whenTrue whenFalse =>
    test.redirect_asks.three whenTrue.redirect_asks whenFalse.redirect_asks
  | .taggedTemplate e _ parts | .call e parts _ _ _ | .new e parts _ _ =>
    e.redirect_asks.two (redirectAll_asks parts)
  | .function _ _ params body | .arrow _ params body =>
    (redirectAll_asks params).two (redirectBody_asks body)
  | .arrowTo _ parts e | .decorated parts e => (redirectAll_asks parts).two e.redirect_asks
  | .classExpr decorators _ base members =>
    (redirectAll_asks decorators).three base.redirect_asks (redirectMembers_asks members)
  | .importCall phase source options closing => by
    rw [Expr.redirect, Expr.references]
    cases hasked : redirectSpecifier? f source with
    | some m =>
      obtain ⟨hm, hnone⟩ := redirectSpecifier?_asks hasked
      rw [hnone, List.append_nil]
      exact hm.two options.redirect_asks
    | none =>
      rw [dynamicReference_eq_nil hasked]
      exact source.redirect_asks.two options.redirect_asks
  | .element _ _ _ _ attributes children =>
    (redirectProperties_asks attributes).two (redirectAll_asks children)
  | .absent | .ident _ | .privateName _ | .this | .super | .null | .bool _ | .number _ | .bigint _
  | .string _ | .regex _ _ | .newTarget | .importMeta | .jsxText _ => .pure _

/-- What is asked for in several expressions. -/
theorem redirectAll_asks : (es : List Expr) → Asks (redirectAll f es) (elementReferences es)
  | [] => .pure _
  | e :: rest => e.redirect_asks.two (redirectAll_asks rest)

/-- What is asked for in a property. -/
theorem Property.redirect_asks : (p : Property) → Asks (p.redirect f) p.references
  | .value key value _ => key.redirect_asks.two value.redirect_asks
  | .method _ key _ params body =>
    key.redirect_asks.three (redirectAll_asks params) (redirectBody_asks body)
  | .spread e | .jsxAttribute _ _ e => e.redirect_asks.one

/-- What is asked for in several properties. -/
theorem redirectProperties_asks :
    (ps : List Property) → Asks (redirectProperties f ps) (propertyReferences ps)
  | [] => .pure _
  | p :: rest => p.redirect_asks.two (redirectProperties_asks rest)

/-- What is asked for in a member of a class. -/
theorem Member.redirect_asks : (m : Member) → Asks (m.redirect f) m.references
  | .method _ decorators _ _ key _ params body =>
    (redirectAll_asks decorators).four key.redirect_asks (redirectAll_asks params)
      (redirectBody_asks body)
  | .field _ decorators _ key value =>
    (redirectAll_asks decorators).three key.redirect_asks value.redirect_asks
  | .staticBlock _ body => (redirectBody_asks body).one
  | .signature key params => key.redirect_asks.two (redirectAll_asks params)

/-- What is asked for in several members of a class. -/
theorem redirectMembers_asks :
    (ms : List Member) → Asks (redirectMembers f ms) (memberReferences ms)
  | [] => .pure _
  | m :: rest => m.redirect_asks.two (redirectMembers_asks rest)

/-- What is asked for in a statement. -/
theorem Stmt.redirect_asks : (s : Stmt) → Asks (s.redirect f) s.references
  | .commented _ s | .labeled _ s | .exportDecl s | .exportDefaultDecl s | .declared s =>
    s.redirect_asks.one
  | .expr e | .returnValue e | .throwValue e | .exportDefault e | .exportAssign e =>
    e.redirect_asks.one
  | .block body | .namespaceDecl _ body | .ambientModule body => (redirectBody_asks body).one
  | .variables _ es | .signature _ es => (redirectAll_asks es).one
  | .function _ _ params body => (redirectAll_asks params).two (redirectBody_asks body)
  | .classDecl decorators _ base members =>
    (redirectAll_asks decorators).three base.redirect_asks (redirectMembers_asks members)
  | .ifThen e s | .whileLoop e s | .withObject e s => e.redirect_asks.two s.redirect_asks
  | .ifElse test whenTrue whenFalse =>
    test.redirect_asks.three whenTrue.redirect_asks whenFalse.redirect_asks
  | .forLoop head test step body =>
    head.redirect_asks.four test.redirect_asks step.redirect_asks body.redirect_asks
  | .forIn head e body | .forOf _ head e body =>
    head.redirect_asks.three e.redirect_asks body.redirect_asks
  | .doWhile body test => body.redirect_asks.two test.redirect_asks
  | .tryCatch body target handler =>
    (redirectBody_asks body).three target.redirect_asks (redirectBody_asks handler)
  | .tryFinally body finalizer => (redirectBody_asks body).two (redirectBody_asks finalizer)
  | .tryCatchFinally body target handler finalizer =>
    (redirectBody_asks body).four target.redirect_asks (redirectBody_asks handler)
      (redirectBody_asks finalizer)
  | .switch value cases => value.redirect_asks.two (redirectCases_asks cases)
  | .importDecl _ _ _ source _ | .exportNamed _ _ (some source) _ | .exportAll _ _ source _ =>
    (source.redirect_asks false).one
  | .enumDecl _ _ members _ => (redirectProperties_asks members).one
  | .remarks _ | .directive _ _ | .empty | .continueTo _ | .breakTo _ | .debugger
  | .exportNamed _ _ none _ | .typeDecl _ | .importEquals _ _ _ | .importRequire _ _ _
  | .exportAsNamespace _ => .pure _

/-- What is asked for in several statements. -/
theorem redirectBody_asks : (body : List Stmt) → Asks (redirectBody f body) (bodyReferences body)
  | [] => .pure _
  | s :: rest => s.redirect_asks.two (redirectBody_asks rest)

/-- What is asked for in a case. -/
theorem Case.redirect_asks : (c : Case) → Asks (c.redirect f) c.references
  | .mk test body => test.redirect_asks.two (redirectBody_asks body)

/-- What is asked for in several cases. -/
theorem redirectCases_asks : (cs : List Case) → Asks (redirectCases f cs) (caseReferences cs)
  | [] => .pure _
  | c :: rest => c.redirect_asks.two (redirectCases_asks rest)

end

end ModuleLoader.Syntax
