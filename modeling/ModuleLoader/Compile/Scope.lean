import ModuleLoader.Syntax.Binding

/-! # Uses of names

Which names a program uses, by the rules of scopes: a name that a function or block binds itself
is not the one outside of it.

* **`ElementName.variable?`** is the variable that the name of an element starts with.
* **`Expr.uses`**, **`Stmt.uses`** tell whether the variable of a name outside is used.
* **`bodyUses`** does so for the statements of a body. -/

namespace ModuleLoader.Syntax

/-! ## Names of elements -/

/-- The name of an element stands for itself, and for no variable. -/
def isIntrinsicName (name : String) : Bool :=
  match name.toList with
  | c :: rest => ('a' ≤ c && c ≤ 'z') || (c :: rest).contains '-'
  | [] => true

/-- The variable that the name of an element starts with. -/
def ElementName.variable? : ElementName → Option String
  | .plain name => if name == "this" || isIntrinsicName name then none else some name
  | .member object _ => if object == "this" then none else some object
  | .namespaced _ _ => none

/-! ## Names that are hoisted -/

mutual

/-- The names that `var` binds in the function around a statement. -/
def Stmt.hoisted : Stmt → List String
  | .commented _ s => s.hoisted
  | .block body => bodyHoisted body
  | .variables .var declarators => elementNames declarators
  | .ifThen _ body => body.hoisted
  | .ifElse _ whenTrue whenFalse => whenTrue.hoisted ++ whenFalse.hoisted
  | .forLoop head _ _ body => head.hoisted ++ body.hoisted
  | .forIn head _ body => head.hoisted ++ body.hoisted
  | .forOf _ head _ body => head.hoisted ++ body.hoisted
  | .whileLoop _ body => body.hoisted
  | .doWhile body _ => body.hoisted
  | .tryCatch body _ handler => bodyHoisted body ++ bodyHoisted handler
  | .tryFinally body finalizer => bodyHoisted body ++ bodyHoisted finalizer
  | .tryCatchFinally body _ handler finalizer =>
    bodyHoisted body ++ bodyHoisted handler ++ bodyHoisted finalizer
  | .switch _ cases => casesHoisted cases
  | .labeled _ body => body.hoisted
  | .withObject _ body => body.hoisted
  | .exportDecl declaration => declaration.hoisted
  | _ => []

/-- The names that `var` binds in the function around some statements. -/
def bodyHoisted : List Stmt → List String
  | [] => []
  | s :: rest => s.hoisted ++ bodyHoisted rest

/-- The names that `var` binds in the function around a case. -/
def Case.hoisted : Case → List String
  | .mk _ body => bodyHoisted body

/-- The names that `var` binds in the function around some cases. -/
def casesHoisted : List Case → List String
  | [] => []
  | c :: rest => c.hoisted ++ casesHoisted rest

end

/-- The names that the statements of a block bind in it. -/
def blockNames (body : List Stmt) : List String := body.flatMap Stmt.declaredNames

/-- A function binds a name itself. -/
def functionBinds (name : String) (own : Option String) (params : List Expr) (body : List Stmt) :
    Bool :=
  own == some name || (elementNames params).contains name || (blockNames body).contains name ||
    (bodyHoisted body).contains name

/-- The names that the cases of a `switch` bind in it. -/
def casesNames (cases : List Case) : List String :=
  cases.flatMap fun c =>
    match c with
    | .mk _ body => blockNames body

/-! ## Uses -/

mutual

/-- The variable of the name is used in an expression. -/
def Expr.uses (name : String) : Expr → Bool
  | .ident x => x == name
  | .template _ parts => anyUses name parts
  | .taggedTemplate tag _ parts => tag.uses name || anyUses name parts
  | .array elements => anyUses name elements
  | .object properties => propertiesUse name properties
  | .function _ own params body =>
    !functionBinds name own params body && (anyUses name params || bodyUses name body)
  | .arrow _ params body =>
    !functionBinds name none params body && (anyUses name params || bodyUses name body)
  | .arrowTo _ params body =>
    !(elementNames params).contains name && (anyUses name params || body.uses name)
  | .classExpr decorators own base members =>
    anyUses name decorators ||
      own != some name && (base.uses name || membersUse name members)
  | .unary _ operand => operand.uses name
  | .update _ _ target => target.uses name
  | .binary _ left right => left.uses name || right.uses name
  | .assign _ target value => target.uses name || value.uses name
  | .conditional test whenTrue whenFalse =>
    test.uses name || whenTrue.uses name || whenFalse.uses name
  | .sequence parts => anyUses name parts
  | .member object _ _ => object.uses name
  | .privateMember object _ _ => object.uses name
  | .index object key _ => object.uses name || key.uses name
  | .call callee args _ _ _ => callee.uses name || anyUses name args
  | .new callee args _ _ => callee.uses name || anyUses name args
  | .chain e => e.uses name
  | .importCall _ source options _ => source.uses name || options.uses name
  | .yield _ value => value.uses name
  | .await value => value.uses name
  | .spread e => e.uses name
  | .paren e => e.uses name
  | .computed e => e.uses name
  | .typed _ e => e.uses name
  | .decorated decorators e => anyUses name decorators || e.uses name
  | .parameterProperty target => target.uses name
  | .commented _ e => e.uses name
  | .remarked _ e => e.uses name
  | .effectFree e => e.uses name
  | .beforeComma e => e.uses name
  | .element _ _ _ tag attributes children =>
    tag.variable? == some name || propertiesUse name attributes || anyUses name children
  | .fragment _ children => anyUses name children
  | .container e => e.uses name
  | _ => false

/-- The variable of the name is used in one of several expressions. -/
def anyUses (name : String) : List Expr → Bool
  | [] => false
  | e :: rest => e.uses name || anyUses name rest

/-- The variable of the name is used in a key; a plain key uses none. -/
def Expr.usesAsKey (name : String) : Expr → Bool
  | .computed e => e.uses name
  | _ => false

/-- The variable of the name is used in a property. -/
def Property.uses (name : String) : Property → Bool
  | .value key value _ => key.usesAsKey name || value.uses name
  | .method _ key _ params body =>
    key.usesAsKey name ||
      !functionBinds name none params body && (anyUses name params || bodyUses name body)
  | .spread e => e.uses name
  | .jsxAttribute _ _ value => value.uses name

/-- The variable of the name is used in one of several properties. -/
def propertiesUse (name : String) : List Property → Bool
  | [] => false
  | p :: rest => p.uses name || propertiesUse name rest

/-- The variable of the name is used in a member of a class. -/
def Member.uses (name : String) : Member → Bool
  | .method _ decorators _ _ key _ params body =>
    anyUses name decorators || key.usesAsKey name ||
      !functionBinds name none params body && (anyUses name params || bodyUses name body)
  | .field _ decorators _ key value =>
    anyUses name decorators || key.usesAsKey name || value.uses name
  | .staticBlock _ body =>
    !functionBinds name none [] body && bodyUses name body
  | .signature _ _ => false

/-- The variable of the name is used in one of several members. -/
def membersUse (name : String) : List Member → Bool
  | [] => false
  | m :: rest => m.uses name || membersUse name rest

/-- The variable of the name is used in a statement. -/
def Stmt.uses (name : String) : Stmt → Bool
  | .commented _ s => s.uses name
  | .expr e => e.uses name
  | .block body => !(blockNames body).contains name && bodyUses name body
  | .variables _ declarators => declaratorsUse name declarators
  | .function _ _ params body =>
    !functionBinds name none params body && (anyUses name params || bodyUses name body)
  | .classDecl decorators own base members =>
    anyUses name decorators ||
      own != some name && (base.uses name || membersUse name members)
  | .ifThen test body => test.uses name || body.uses name
  | .ifElse test whenTrue whenFalse =>
    test.uses name || whenTrue.uses name || whenFalse.uses name
  | .forLoop head test step body =>
    !head.declaredNames.contains name &&
      (head.uses name || test.uses name || step.uses name || body.uses name)
  | .forIn head object body =>
    !head.declaredNames.contains name &&
      (head.uses name || object.uses name || body.uses name)
  | .forOf _ head items body =>
    !head.declaredNames.contains name && (head.uses name || items.uses name || body.uses name)
  | .whileLoop test body => test.uses name || body.uses name
  | .doWhile body test => body.uses name || test.uses name
  | .returnValue value => value.uses name
  | .throwValue value => value.uses name
  | .tryCatch body target handler =>
    !(blockNames body).contains name && bodyUses name body ||
      !target.boundNames.contains name && !(blockNames handler).contains name &&
        (target.uses name || bodyUses name handler)
  | .tryFinally body finalizer =>
    !(blockNames body).contains name && bodyUses name body ||
      !(blockNames finalizer).contains name && bodyUses name finalizer
  | .tryCatchFinally body target handler finalizer =>
    !(blockNames body).contains name && bodyUses name body ||
      !target.boundNames.contains name && !(blockNames handler).contains name &&
        (target.uses name || bodyUses name handler) ||
      !(blockNames finalizer).contains name && bodyUses name finalizer
  | .switch value cases =>
    value.uses name || !(casesNames cases).contains name && casesUse name cases
  | .labeled _ body => body.uses name
  | .withObject object body => object.uses name || body.uses name
  | .exportNamed isType specifiers none _ =>
    !isType && specifiers.any fun s => !s.isType && s.bound.text == name
  | .exportDecl declaration => declaration.uses name
  | .exportDefault e => e.uses name
  | .exportDefaultDecl declaration => declaration.uses name
  | .enumDecl _ _ members _ => propertiesUse name members
  | .namespaceDecl _ body => !(blockNames body).contains name && bodyUses name body
  | .importEquals isType _ names => !isType && names.head? == some name
  | .exportAssign e => e.uses name
  | _ => false

/-- The variable of the name is used in one of several statements, which do not bind it. -/
def bodyUses (name : String) : List Stmt → Bool
  | [] => false
  | s :: rest => s.uses name || bodyUses name rest

/-- The variable of the name is used in the values of variables, or in the keys and defaults of
their patterns. -/
def declaratorsUse (name : String) : List Expr → Bool
  | [] => false
  | .ident _ :: rest => declaratorsUse name rest
  | .assign _ (.ident _) value :: rest => value.uses name || declaratorsUse name rest
  | e :: rest => e.uses name || declaratorsUse name rest

/-- The variable of the name is used in a case. -/
def Case.uses (name : String) : Case → Bool
  | .mk test body => test.uses name || bodyUses name body

/-- The variable of the name is used in one of several cases. -/
def casesUse (name : String) : List Case → Bool
  | [] => false
  | c :: rest => c.uses name || casesUse name rest

end

end ModuleLoader.Syntax
