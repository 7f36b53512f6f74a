import ModuleLoader.Proofs.Compile.Replacement
import ModuleLoader.Proofs.Imports.TreeScan

/-! # Rebuilding a tree

The pass that replaces specifiers makes a new program. What it makes of a tree is the tree with the
same done to its parts, and with its own specifier replaced if it imports by one.

* **`Rebuild`** is something that is done to trees of each kind, and **`Node.mapParts`** does it to
  the parts of a tree.
* **`Node.label`** is all that a tree is but for its parts, which stays
  (**`Node.label_mapParts`**).
* **`Node.mapSpecifier`** does something to the specifier of a tree.
* **`Node.redirected_eq`** says what the pass makes of a tree. -/

namespace ModuleLoader.Syntax

/-! ## Rebuilding trees -/

/-- Something that is done to trees of each kind. -/
structure Rebuild where
  expr : Expr → Expr
  property : Property → Property
  member : Member → Member
  stmt : Stmt → Stmt
  case : Case → Case

/-- What is done to a tree of any kind. -/
def Rebuild.node (g : Rebuild) : Node → Node
  | .expr e => .expr (g.expr e)
  | .property p => .property (g.property p)
  | .member m => .member (g.member m)
  | .stmt s => .stmt (g.stmt s)
  | .case c => .case (g.case c)

/-- Something is done to the parts of an expression. -/
def Expr.mapParts (g : Rebuild) : Expr → Expr
  | .template texts parts => .template texts (parts.map g.expr)
  | .taggedTemplate tag texts parts => .taggedTemplate (g.expr tag) texts (parts.map g.expr)
  | .array elements => .array (elements.map g.expr)
  | .object properties => .object (properties.map g.property)
  | .function kind name params body =>
    .function kind name (params.map g.expr) (body.map g.stmt)
  | .arrow isAsync params body => .arrow isAsync (params.map g.expr) (body.map g.stmt)
  | .arrowTo isAsync params body => .arrowTo isAsync (params.map g.expr) (g.expr body)
  | .classExpr decorators name base members =>
    .classExpr (decorators.map g.expr) name (g.expr base) (members.map g.member)
  | .unary op operand => .unary op (g.expr operand)
  | .update op isBefore target => .update op isBefore (g.expr target)
  | .binary op left right => .binary op (g.expr left) (g.expr right)
  | .assign op target value => .assign op (g.expr target) (g.expr value)
  | .conditional test whenTrue whenFalse =>
    .conditional (g.expr test) (g.expr whenTrue) (g.expr whenFalse)
  | .sequence parts => .sequence (parts.map g.expr)
  | .member e name isOptional => .member (g.expr e) name isOptional
  | .privateMember e name isOptional => .privateMember (g.expr e) name isOptional
  | .index e key isOptional => .index (g.expr e) (g.expr key) isOptional
  | .call callee args closing isOptional isPure =>
    .call (g.expr callee) (args.map g.expr) closing isOptional isPure
  | .new callee args closing isPure => .new (g.expr callee) (args.map g.expr) closing isPure
  | .chain e => .chain (g.expr e)
  | .importCall phase source options closing =>
    .importCall phase (g.expr source) (g.expr options) closing
  | .yield isDelegate value => .yield isDelegate (g.expr value)
  | .await value => .await (g.expr value)
  | .spread e => .spread (g.expr e)
  | .beforeComma e => .beforeComma (g.expr e)
  | .paren e => .paren (g.expr e)
  | .computed e => .computed (g.expr e)
  | .typed form e => .typed form (g.expr e)
  | .decorated decorators e => .decorated (decorators.map g.expr) (g.expr e)
  | .parameterProperty target => .parameterProperty (g.expr target)
  | .commented comments e => .commented comments (g.expr e)
  | .remarked comments e => .remarked comments (g.expr e)
  | .effectFree e => .effectFree (g.expr e)
  | .element tail opening closing name attributes children =>
    .element tail opening closing name (attributes.map g.property) (children.map g.expr)
  | .fragment closing children => .fragment closing (children.map g.expr)
  | .container e => .container (g.expr e)
  | e => e

/-- Something is done to the parts of a property. -/
def Property.mapParts (g : Rebuild) : Property → Property
  | .value key e isShorthand => .value (g.expr key) (g.expr e) isShorthand
  | .method kind key function params body =>
    .method kind (g.expr key) function (params.map g.expr) (body.map g.stmt)
  | .spread e => .spread (g.expr e)
  | .jsxAttribute space name e => .jsxAttribute space name (g.expr e)

/-- Something is done to the parts of a member of a class. -/
def Member.mapParts (g : Rebuild) : Member → Member
  | .method comments decorators modifiers kind key function params body =>
    .method comments (decorators.map g.expr) modifiers kind (g.expr key) function
      (params.map g.expr) (body.map g.stmt)
  | .field comments decorators modifiers key value =>
    .field comments (decorators.map g.expr) modifiers (g.expr key) (g.expr value)
  | .staticBlock comments body => .staticBlock comments (body.map g.stmt)
  | .signature key params => .signature (g.expr key) (params.map g.expr)

/-- Something is done to the parts of a statement. -/
def Stmt.mapParts (g : Rebuild) : Stmt → Stmt
  | .commented comments s => .commented comments (g.stmt s)
  | .expr e => .expr (g.expr e)
  | .block body => .block (body.map g.stmt)
  | .variables kind declarators => .variables kind (declarators.map g.expr)
  | .function kind name params body =>
    .function kind name (params.map g.expr) (body.map g.stmt)
  | .signature name params => .signature name (params.map g.expr)
  | .classDecl decorators name base members =>
    .classDecl (decorators.map g.expr) name (g.expr base) (members.map g.member)
  | .ifThen test body => .ifThen (g.expr test) (g.stmt body)
  | .ifElse test whenTrue whenFalse => .ifElse (g.expr test) (g.stmt whenTrue) (g.stmt whenFalse)
  | .forLoop head test step body =>
    .forLoop (g.stmt head) (g.expr test) (g.expr step) (g.stmt body)
  | .forIn head object body => .forIn (g.stmt head) (g.expr object) (g.stmt body)
  | .forOf isAwait head items body => .forOf isAwait (g.stmt head) (g.expr items) (g.stmt body)
  | .whileLoop test body => .whileLoop (g.expr test) (g.stmt body)
  | .doWhile body test => .doWhile (g.stmt body) (g.expr test)
  | .returnValue value => .returnValue (g.expr value)
  | .throwValue value => .throwValue (g.expr value)
  | .tryCatch body target handler =>
    .tryCatch (body.map g.stmt) (g.expr target) (handler.map g.stmt)
  | .tryFinally body finalizer => .tryFinally (body.map g.stmt) (finalizer.map g.stmt)
  | .tryCatchFinally body target handler finalizer =>
    .tryCatchFinally (body.map g.stmt) (g.expr target) (handler.map g.stmt)
      (finalizer.map g.stmt)
  | .switch value cases => .switch (g.expr value) (cases.map g.case)
  | .labeled label body => .labeled label (g.stmt body)
  | .withObject object body => .withObject (g.expr object) (g.stmt body)
  | .exportDecl declaration => .exportDecl (g.stmt declaration)
  | .exportDefault e => .exportDefault (g.expr e)
  | .exportDefaultDecl declaration => .exportDefaultDecl (g.stmt declaration)
  | .declared s => .declared (g.stmt s)
  | .enumDecl isConst name members closing =>
    .enumDecl isConst name (members.map g.property) closing
  | .namespaceDecl names body => .namespaceDecl names (body.map g.stmt)
  | .ambientModule body => .ambientModule (body.map g.stmt)
  | .exportAssign e => .exportAssign (g.expr e)
  | s => s

/-- Something is done to the parts of a case. -/
def Case.mapParts (g : Rebuild) : Case → Case
  | .mk test body => .mk (g.expr test) (body.map g.stmt)

/-- Something is done to the parts of a tree. -/
def Node.mapParts (g : Rebuild) : Node → Node
  | .expr e => .expr (e.mapParts g)
  | .property p => .property (p.mapParts g)
  | .member m => .member (m.mapParts g)
  | .stmt s => .stmt (s.mapParts g)
  | .case c => .case (c.mapParts g)

/-- The parts of a tree when something has been done to them. -/
theorem Node.parts_mapParts (g : Rebuild) (n : Node) :
    (n.mapParts g).parts = n.parts.map g.node := by
  have hnode {α : Type} (lift : α → Node) {h : α → α} (hlift : ∀ a, g.node (lift a) = lift (h a))
      (as : List α) : (as.map lift).map g.node = (as.map h).map lift := by
    rw [List.map_map, List.map_map]
    exact List.map_congr_left fun a _ => hlift a
  have hexpr := hnode .expr (h := g.expr) fun _ => rfl
  have hproperty := hnode .property (h := g.property) fun _ => rfl
  have hmember := hnode .member (h := g.member) fun _ => rfl
  have hstmt := hnode .stmt (h := g.stmt) fun _ => rfl
  have hcase := hnode .case (h := g.case) fun _ => rfl
  cases n with
  | expr e =>
    cases e <;> simp only [mapParts, Expr.mapParts, parts, Expr.parts, List.map_append,
      List.map_cons, List.map_nil, hexpr, hproperty, hmember, hstmt, Rebuild.node]
  | property p =>
    cases p <;> simp only [mapParts, Property.mapParts, parts, Property.parts, List.map_append,
      List.map_cons, List.map_nil, hexpr, hstmt, Rebuild.node]
  | member m =>
    cases m <;> simp only [mapParts, Member.mapParts, parts, Member.parts, List.map_append,
      List.map_cons, List.map_nil, hexpr, hstmt, Rebuild.node]
  | stmt s =>
    cases s <;> simp only [mapParts, Stmt.mapParts, parts, Stmt.parts, List.map_append,
      List.map_cons, List.map_nil, hexpr, hproperty, hmember, hstmt, hcase, Rebuild.node]
  | case c =>
    cases c
    simp only [mapParts, Case.mapParts, parts, Case.parts, List.map_cons, hstmt, Rebuild.node]

/-- A tree stays when what is done to its parts changes none of them. -/
theorem Node.mapParts_eq_self {g : Rebuild} {n : Node} (h : ∀ m ∈ n.parts, g.node m = m) :
    n.mapParts g = n := by
  have hnode {α : Type} {lift : α → Node} (hinj : ∀ {a b}, lift a = lift b → a = b) {h : α → α}
      (hlift : ∀ a, g.node (lift a) = lift (h a)) {l : List α}
      (hs : ∀ m ∈ l.map lift, g.node m = m) : l.map h = l := by
    refine (List.map_congr_left fun a ha => ?_).trans (List.map_id l)
    exact hinj ((hlift a).symm.trans (hs _ (List.mem_map_of_mem ha)))
  have hexpr {es} := hnode (l := es) Node.expr.inj (h := g.expr) fun _ => rfl
  have hproperty {ps} := hnode (l := ps) Node.property.inj (h := g.property) fun _ => rfl
  have hmember {ms} := hnode (l := ms) Node.member.inj (h := g.member) fun _ => rfl
  have hstmt {ss} := hnode (l := ss) Node.stmt.inj (h := g.stmt) fun _ => rfl
  have hcase {cs} := hnode (l := cs) Node.case.inj (h := g.case) fun _ => rfl
  have hone {e} (h : g.node (.expr e) = .expr e) : g.expr e = e := Node.expr.inj h
  have honeStmt {s} (h : g.node (.stmt s) = .stmt s) : g.stmt s = s := Node.stmt.inj h
  cases n with
  | expr e =>
    cases e <;> simp only [parts, Expr.parts, List.forall_mem_append, List.forall_mem_cons] at h <;>
      grind only [mapParts, Expr.mapParts]
  | property p =>
    cases p <;> simp only [parts, Property.parts, List.forall_mem_append, List.forall_mem_cons]
      at h <;> grind only [mapParts, Property.mapParts]
  | member m =>
    cases m <;> simp only [parts, Member.parts, List.forall_mem_append, List.forall_mem_cons]
      at h <;> grind only [mapParts, Member.mapParts]
  | stmt s =>
    cases s <;> simp only [parts, Stmt.parts, List.forall_mem_append, List.forall_mem_cons] at h <;>
      grind only [mapParts, Stmt.mapParts]
  | case c =>
    cases c
    simp only [parts, Case.parts, List.forall_mem_cons] at h
    grind only [mapParts, Case.mapParts]

/-- All parts of a tree are taken out. -/
def Rebuild.blank : Rebuild :=
  ⟨fun _ => .absent, fun _ => .spread .absent, fun _ => .staticBlock [] [], fun _ => .empty,
    fun _ => .mk .absent []⟩

/-- All that a tree is but for its parts: of these there is only how many there are. -/
def Node.label (n : Node) : Node := n.mapParts .blank

/-- What is done to the parts of a tree does not change the rest of it. -/
theorem Node.label_mapParts (g : Rebuild) (n : Node) : (n.mapParts g).label = n.label := by
  have hblank {α β γ : Type} (g : α → β) (c : γ) (as : List α) :
      (as.map g).map (fun _ => c) = as.map fun _ => c := by
    rw [List.map_map]
    rfl
  cases n with
  | expr e => cases e <;> simp only [label, mapParts, Expr.mapParts, Rebuild.blank, hblank]
  | property p =>
    cases p <;> simp only [label, mapParts, Property.mapParts, Rebuild.blank, hblank]
  | member m => cases m <;> simp only [label, mapParts, Member.mapParts, Rebuild.blank, hblank]
  | stmt s => cases s <;> simp only [label, mapParts, Stmt.mapParts, Rebuild.blank, hblank]
  | case c => cases c; simp only [label, mapParts, Case.mapParts, Rebuild.blank, hblank]

/-! ## The specifier of a tree -/

variable {α β γ δ ε : Type} {f : String → Option String} {g : StringLiteral → StringLiteral}

/-- Something is done to the literal of an `import()`, if it is written as a string. -/
def Expr.mapString (g : StringLiteral → StringLiteral) : Expr → Expr
  | .string literal => .string (g literal)
  | .commented comments e => .commented comments (e.mapString g)
  | e => e

/-- Something is done to the specifier that an expression itself imports by. -/
def Expr.mapSpecifier (g : StringLiteral → StringLiteral) : Expr → Expr
  | .importCall phase source options closing =>
    .importCall phase (source.mapString g) options closing
  | e => e

/-- Something is done to the specifier that a statement itself imports by. -/
def Stmt.mapSpecifier (g : StringLiteral → StringLiteral) : Stmt → Stmt
  | .importDecl phase isType clause source attributes =>
    .importDecl phase isType clause (g source) attributes
  | .exportNamed isType specifiers (some source) attributes =>
    .exportNamed isType specifiers (some (g source)) attributes
  | .exportAll isType exported source attributes => .exportAll isType exported (g source) attributes
  | s => s

/-- Something is done to the specifier that a tree itself imports by. -/
def Node.mapSpecifier (g : StringLiteral → StringLiteral) : Node → Node
  | .expr e => .expr (e.mapSpecifier g)
  | .stmt s => .stmt (s.mapSpecifier g)
  | n => n

/-- What becomes of trees when specifiers are replaced in them. -/
def redirected (f : String → Option String) : Rebuild :=
  ⟨fun e => (e.redirect f ⟨[], 0⟩).1, fun p => (p.redirect f ⟨[], 0⟩).1,
    fun m => (m.redirect f ⟨[], 0⟩).1, fun s => (s.redirect f ⟨[], 0⟩).1,
    fun c => (c.redirect f ⟨[], 0⟩).1⟩

/-- The step makes something, whatever has been asked for before. -/
def Makes (m : Redirecting α) (x : α) : Prop := ∀ a, (m a).1 = x

namespace Makes

variable {m : Redirecting α} {n : Redirecting β} {o : Redirecting γ} {p : Redirecting δ}
variable {x : α} {y : β} {z : γ} {u : δ}

/-- What is made when nothing has been asked for is made at any time. -/
theorem start (h : Makes m x) : Makes m (m ⟨[], 0⟩).1 := fun a => (h a).trans (h _).symm

/-- Giving something back makes it. -/
theorem pure (x : α) : Makes (Pure.pure x) x := fun _ => rfl

/-- A tree with one part is made of what is made of the part. -/
theorem one {k : α → ε} (h : Makes m x) : Makes (do return k (← m)) (k x) :=
  fun a => congrArg k (h a)

/-- Two trees are made one after the other. -/
theorem pair (h : Makes m x) (h' : Makes n y) : Makes (do return (← m, ← n)) (x, y) :=
  fun a => Prod.ext (h a) (h' _)

/-- A tree with two parts is made of what is made of them. -/
theorem two {k : α → β → ε} (h : Makes m x) (h' : Makes n y) :
    Makes (do return k (← m) (← n)) (k x y) :=
  (h.pair h').one (k := fun v : α × β => k v.1 v.2)

/-- A tree with three parts is made of what is made of them. -/
theorem three {k : α → β → γ → ε} (h : Makes m x) (h' : Makes n y) (h'' : Makes o z) :
    Makes (do return k (← m) (← n) (← o)) (k x y z) :=
  ((h.pair h').pair h'').one (k := fun v : (α × β) × γ => k v.1.1 v.1.2 v.2)

/-- A tree with four parts is made of what is made of them. -/
theorem four {k : α → β → γ → δ → ε} (h : Makes m x) (h' : Makes n y) (h'' : Makes o z)
    (hlast : Makes p u) : Makes (do return k (← m) (← n) (← o) (← p)) (k x y z u) :=
  (((h.pair h').pair h'').pair hlast).one
    (k := fun v : ((α × β) × γ) × δ => k v.1.1.1 v.1.1.2 v.1.2 v.2)

end Makes

/-- What is no string stays when something is done to the string. -/
theorem Expr.mapString_eq_self {e : Expr} (h : dynamicReference e = []) : e.mapString g = e := by
  induction e using dynamicReference.induct with
  | case1 literal => cases h
  | case2 comments e ih => exact congrArg (Expr.commented comments) (ih h)
  | case3 e hstring hcommented =>
    rw [mapString]
    · exact hstring
    · exact hcommented

/-- Asking for a specifier makes the literal with its replacement. -/
theorem StringLiteral.redirect_makes (s : StringLiteral) : Makes (s.redirect f) (s.replaced f) :=
  fun a => congrArg Prod.fst (s.redirect_eq a)

/-- Asking for the specifier of an `import()` makes the expression with its replacement. -/
theorem redirectSpecifier?_makes {e : Expr} {m : Redirecting Expr}
    (h : redirectSpecifier? f e = some m) :
    Makes m (((redirected f).expr e).mapString (.replaced f)) := by
  induction e using dynamicReference.induct generalizing m with
  | case1 literal =>
    cases h
    exact literal.redirect_makes.one (k := Expr.string)
  | case2 comments e ih =>
    rw [redirectSpecifier?, Option.map_eq_some_iff] at h
    obtain ⟨m, hm, rfl⟩ := h
    exact (ih hm).one (k := Expr.commented comments)
  | case3 e hstring hcommented =>
    rw [redirectSpecifier?] at h
    · cases h
    · exact hstring
    · exact hcommented

mutual

/-- What is made of an expression. -/
theorem Expr.redirect_makes : (e : Expr) →
    Makes (e.redirect f) ((e.mapParts (redirected f)).mapSpecifier (.replaced f))
  | .template _ parts | .array parts | .sequence parts | .fragment _ parts =>
    (redirectAll_makes parts).one
  | .object properties => (redirectProperties_makes properties).one
  | .unary _ e | .update _ _ e | .member e _ _ | .privateMember e _ _ | .chain e | .yield _ e
  | .await e | .spread e | .beforeComma e | .paren e | .computed e | .typed _ e
  | .parameterProperty e | .commented _ e | .remarked _ e | .effectFree e | .container e =>
    e.redirect_makes.start.one
  | .binary _ e e' | .assign _ e e' | .index e e' _ =>
    e.redirect_makes.start.two e'.redirect_makes.start
  | .conditional test whenTrue whenFalse =>
    test.redirect_makes.start.three whenTrue.redirect_makes.start whenFalse.redirect_makes.start
  | .taggedTemplate e _ parts | .call e parts _ _ _ | .new e parts _ _ =>
    e.redirect_makes.start.two (redirectAll_makes parts)
  | .function _ _ params body | .arrow _ params body =>
    (redirectAll_makes params).two (redirectBody_makes body)
  | .arrowTo _ parts e | .decorated parts e => (redirectAll_makes parts).two e.redirect_makes.start
  | .classExpr decorators _ base members =>
    (redirectAll_makes decorators).three base.redirect_makes.start (redirectMembers_makes members)
  | .importCall phase source options closing => by
    rw [Expr.redirect]
    cases hasked : redirectSpecifier? f source with
    | some m =>
      exact (redirectSpecifier?_makes hasked).two options.redirect_makes.start
    | none =>
      have hsame :
          ((redirected f).expr source).mapString (.replaced f) = (redirected f).expr source :=
        Expr.mapString_eq_self
          ((dynamicReference_redirect _ source).trans (dynamicReference_eq_nil hasked))
      rw [Expr.mapParts, Expr.mapSpecifier, hsame]
      exact source.redirect_makes.start.two options.redirect_makes.start
  | .element _ _ _ _ attributes children =>
    (redirectProperties_makes attributes).two (redirectAll_makes children)
  | .absent | .ident _ | .privateName _ | .this | .super | .null | .bool _ | .number _ | .bigint _
  | .string _ | .regex _ _ | .newTarget | .importMeta | .jsxText _ => .pure _

/-- What is made of several expressions. -/
theorem redirectAll_makes :
    (es : List Expr) → Makes (redirectAll f es) (es.map (redirected f).expr)
  | [] => .pure _
  | e :: rest => e.redirect_makes.start.two (redirectAll_makes rest)

/-- What is made of a property. -/
theorem Property.redirect_makes :
    (p : Property) → Makes (p.redirect f) (p.mapParts (redirected f))
  | .value key e _ => key.redirect_makes.start.two e.redirect_makes.start
  | .method _ key _ params body =>
    key.redirect_makes.start.three (redirectAll_makes params) (redirectBody_makes body)
  | .spread e | .jsxAttribute _ _ e => e.redirect_makes.start.one

/-- What is made of several properties. -/
theorem redirectProperties_makes : (ps : List Property) →
    Makes (redirectProperties f ps) (ps.map (redirected f).property)
  | [] => .pure _
  | p :: rest => p.redirect_makes.start.two (redirectProperties_makes rest)

/-- What is made of a member of a class. -/
theorem Member.redirect_makes : (m : Member) → Makes (m.redirect f) (m.mapParts (redirected f))
  | .method _ decorators _ _ key _ params body =>
    (redirectAll_makes decorators).four key.redirect_makes.start (redirectAll_makes params)
      (redirectBody_makes body)
  | .field _ decorators _ key e =>
    (redirectAll_makes decorators).three key.redirect_makes.start e.redirect_makes.start
  | .staticBlock _ body => (redirectBody_makes body).one
  | .signature key params => key.redirect_makes.start.two (redirectAll_makes params)

/-- What is made of several members of a class. -/
theorem redirectMembers_makes :
    (ms : List Member) → Makes (redirectMembers f ms) (ms.map (redirected f).member)
  | [] => .pure _
  | m :: rest => m.redirect_makes.start.two (redirectMembers_makes rest)

/-- What is made of a statement. -/
theorem Stmt.redirect_makes : (s : Stmt) →
    Makes (s.redirect f) ((s.mapParts (redirected f)).mapSpecifier (.replaced f))
  | .commented _ s | .labeled _ s | .exportDecl s | .exportDefaultDecl s | .declared s =>
    s.redirect_makes.start.one
  | .expr e | .returnValue e | .throwValue e | .exportDefault e | .exportAssign e =>
    e.redirect_makes.start.one
  | .block body | .namespaceDecl _ body | .ambientModule body => (redirectBody_makes body).one
  | .variables _ es | .signature _ es => (redirectAll_makes es).one
  | .function _ _ params body => (redirectAll_makes params).two (redirectBody_makes body)
  | .classDecl decorators _ base members =>
    (redirectAll_makes decorators).three base.redirect_makes.start (redirectMembers_makes members)
  | .ifThen e s | .whileLoop e s | .withObject e s =>
    e.redirect_makes.start.two s.redirect_makes.start
  | .ifElse test whenTrue whenFalse =>
    test.redirect_makes.start.three whenTrue.redirect_makes.start whenFalse.redirect_makes.start
  | .forLoop head test step body =>
    head.redirect_makes.start.four test.redirect_makes.start step.redirect_makes.start
      body.redirect_makes.start
  | .forIn head e body | .forOf _ head e body =>
    head.redirect_makes.start.three e.redirect_makes.start body.redirect_makes.start
  | .doWhile body test => body.redirect_makes.start.two test.redirect_makes.start
  | .tryCatch body target handler =>
    (redirectBody_makes body).three target.redirect_makes.start (redirectBody_makes handler)
  | .tryFinally body finalizer => (redirectBody_makes body).two (redirectBody_makes finalizer)
  | .tryCatchFinally body target handler finalizer =>
    (redirectBody_makes body).four target.redirect_makes.start (redirectBody_makes handler)
      (redirectBody_makes finalizer)
  | .switch e cases => e.redirect_makes.start.two (redirectCases_makes cases)
  | .importDecl _ _ _ source _ | .exportNamed _ _ (some source) _ | .exportAll _ _ source _ =>
    source.redirect_makes.one
  | .enumDecl _ _ members _ => (redirectProperties_makes members).one
  | .remarks _ | .directive _ _ | .empty | .continueTo _ | .breakTo _ | .debugger
  | .exportNamed _ _ none _ | .typeDecl _ | .importEquals _ _ _ | .importRequire _ _ _
  | .exportAsNamespace _ => .pure _

/-- What is made of several statements. -/
theorem redirectBody_makes :
    (body : List Stmt) → Makes (redirectBody f body) (body.map (redirected f).stmt)
  | [] => .pure _
  | s :: rest => s.redirect_makes.start.two (redirectBody_makes rest)

/-- What is made of a case. -/
theorem Case.redirect_makes : (c : Case) → Makes (c.redirect f) (c.mapParts (redirected f))
  | .mk test body => test.redirect_makes.start.two (redirectBody_makes body)

/-- What is made of several cases. -/
theorem redirectCases_makes :
    (cs : List Case) → Makes (redirectCases f cs) (cs.map (redirected f).case)
  | [] => .pure _
  | c :: rest => c.redirect_makes.start.two (redirectCases_makes rest)

end

/-- What becomes of a tree: the same becomes of its parts, and its own specifier is replaced. -/
theorem Node.redirected_eq (n : Node) :
    (redirected f).node n = (n.mapParts (redirected f)).mapSpecifier (.replaced f) := by
  cases n with
  | expr e => exact congrArg Node.expr (e.redirect_makes _)
  | property p => exact congrArg Node.property (p.redirect_makes _)
  | member m => exact congrArg Node.member (m.redirect_makes _)
  | stmt s => exact congrArg Node.stmt (s.redirect_makes _)
  | case c => exact congrArg Node.case (c.redirect_makes _)

end ModuleLoader.Syntax
