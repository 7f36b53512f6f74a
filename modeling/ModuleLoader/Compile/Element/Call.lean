import ModuleLoader.Compile.Element.Text
import ModuleLoader.Compile.Scope
import ModuleLoader.Compile.State
import ModuleLoader.Syntax.Remarks
import ModuleLoader.Text.Position

/-! # Elements as calls

An element is compiled to a call of a function that makes it, from its name, its attributes and
children as properties, and its key. The expressions inside have been compiled before.

* **`ElementOptions`** says how elements are compiled, and where.
* **`Expr.buildElement`** compiles an element or fragment with the elements nested in it. -/

namespace ModuleLoader.Syntax

/-- How elements are compiled. -/
structure ElementOptions where
  /-- The package that the functions making elements are imported from. -/
  importSource : String
  /-- Elements say where they stand. -/
  isDevelopment : Bool
  /-- The functions are not imported by the compiler. -/
  isClassic : Bool
  /-- The text of the module. -/
  text : List Char
deriving DecidableEq, Repr, Inhabited

namespace ElementOptions

/-- The package of the functions that make elements from their name and properties. -/
def runtime (o : ElementOptions) : String :=
  o.importSource ++ (if o.isDevelopment then "/jsx-dev-runtime" else "/jsx-runtime")

/-- The place of an element from whose start some characters remain. -/
def position (o : ElementOptions) (tail : Nat) : Text.Position :=
  .behind (o.text.take (o.text.length - tail))

end ElementOptions

/-- The scopes around an expression, as far as `this` is concerned. -/
structure ThisScope where
  /-- The innermost function that is no arrow is a constructor. -/
  isConstructor : Bool
  /-- The innermost class extends another one. -/
  isDerived : Bool
deriving DecidableEq, Repr, Inhabited

/-- What `this` is may be told. In the constructor of a class that extends another one it may be
missing yet. -/
def ThisScope.canRead (s : ThisScope) : Bool := !(s.isConstructor && s.isDerived)

/-! ## Names -/

/-- A name in an element as an expression. -/
def wordExpr (name : String) : Expr := if name == "this" then .this else .ident name

/-- The first argument of a call that makes an element. -/
def ElementName.toExpr : ElementName → Compile Expr
  | .plain name =>
    return if name != "this" && isIntrinsicName name then .string (.made name) else wordExpr name
  | .member object properties =>
    return properties.foldl (fun e name => .member e name false) (wordExpr object)
  | .namespaced space name => do
    Compile.fault ("Namespace tags are not supported by default. React's JSX doesn't support " ++
      "namespace tags. You can set \x60throwIfNamespace: false\x60 to bypass this warning.")
    return .string (.made (space ++ ":" ++ name))

/-- A value with a name. -/
def namedValue (name : String) (value : Expr) : Property := .value (.ident name) value false

/-- The key of an attribute. -/
def attributeKey (space : Option String) (name : String) : Expr :=
  match space with
  | some space => .string (.made (space ++ ":" ++ name))
  | none => if name.toList.contains '-' then .string (.made name) else .ident name

/-! ## Attributes -/

/-- The attribute is the key of its element. -/
def Property.isKey : Property → Bool
  | .jsxAttribute none name _ => name == "key"
  | _ => false

/-- A key comes behind an object that is spread among the attributes. -/
def keyFollowsSpread : List Property → Bool
  | [] => false
  | .spread _ :: rest => rest.any Property.isKey
  | _ :: rest => keyFollowsSpread rest

/-- A key that may say what an object is made from. -/
def isPrototypeKey : Expr → Bool
  | .ident name => name == "__proto__"
  | .string literal => literal.value == "__proto__"
  | _ => false

/-- A property that may say what its object is made from. -/
def setsPrototype : Property → Bool
  | .value key _ isShorthand => isPrototypeKey key && !isShorthand
  | .method _ key _ _ _ => isPrototypeKey key
  | _ => false

/-- The properties of an object that is spread among attributes. -/
def spreadProperties : Expr → List Property
  | .object properties =>
    if properties.any setsPrototype then [.spread (.object properties)] else properties
  | .remarked comments (.object properties) =>
    if properties.any setsPrototype then [.spread (.remarked comments (.object properties))]
    else properties
  | e => [.spread e]

/-- An attribute of the name is there. -/
def hasAttribute (attributes : List Property) (name : String) : Bool :=
  attributes.any fun p =>
    match p with
    | .jsxAttribute none n _ => n == name
    | _ => false

/-! ## Calls -/

/-- A call that has no effect if its value is not used, with the comments before its end. -/
def pureCall (callee : Expr) (args : List Expr) (closing : List Comment) : Expr :=
  .call callee args closing false true

/-- The value that is missing. -/
def voidValue : Expr := .unary .void (.number .zero)

/-- Where an element stands, as an argument. -/
def sourceArgument (o : ElementOptions) (tail : Nat) : Compile Expr := do
  let file ← Compile.requireFileName
  let p := o.position tail
  return .object [namedValue "fileName" (.ident file),
    namedValue "lineNumber" (.number (.ofNat p.line)),
    namedValue "columnNumber" (.number (.ofNat p.column))]

/-- What tells where an element stands and what `this` is there, for development. -/
def developmentArguments (o : ElementOptions) (s : ThisScope) (tail : Nat)
    (attributes : List Property) : Compile (List Expr) := do
  let source ←
    if hasAttribute attributes "__source" then do
      Compile.fault "Duplicate __source prop found."
      pure []
    else do pure [← sourceArgument o tail]
  let this ←
    if !s.canRead then pure []
    else if hasAttribute attributes "__self" then do
      Compile.fault "Duplicate __self prop found."
      pure []
    else pure [.this]
  return source ++ this

/-- What tells `this` and where an element stands as properties, for development. -/
def developmentProperties (o : ElementOptions) (s : ThisScope) (tail : Nat)
    (attributes : List Property) : Compile (List Property) := do
  let this ←
    if !s.canRead then pure []
    else if hasAttribute attributes "__self" then do
      Compile.fault "Duplicate __self prop found."
      pure []
    else pure [namedValue "__self" .this]
  let source ←
    if hasAttribute attributes "__source" then do
      Compile.fault "Duplicate __source prop found."
      pure []
    else do pure [namedValue "__source" (← sourceArgument o tail)]
  return this ++ source

/-- The function that makes an element out of properties that hold its children. -/
def makerOf (o : ElementOptions) (hasSeveral : Bool) : Compile Expr :=
  .ident <$> Compile.requireImport o.runtime
    (if o.isDevelopment then "jsxDEV" else if hasSeveral then "jsxs" else "jsx")

/-- A child as a value; what spreads becomes an array. -/
def childValue : Expr → Expr
  | .spread e => .array [.spread e]
  | e => e.withoutComments

/-- The children of an element as a property. -/
def childrenProperty : List Expr → List Property
  | [] => []
  | [child] => [namedValue "children" (childValue child)]
  | children => [namedValue "children" (.array (children.map childValue))]

/-- The arguments behind the properties of an element: its key, and in development more. -/
def trailingArguments (o : ElementOptions) (key : Option Expr) (hasSeveral : Bool)
    (development : List Expr) : List Expr :=
  if o.isDevelopment then [key.getD voidValue, .bool hasSeveral] ++ development
  else key.toList

/-! ## Elements -/

mutual

/-- Compiles an element or fragment and the elements nested in it; other expressions stay. -/
def Expr.buildElement (o : ElementOptions) (s : ThisScope) : Expr → Compile Expr
  | .element tail opening closing name attributes children => do
    if o.isClassic || keyFollowsSpread attributes then
      let properties ← buildAttributes o s true attributes
      let marks ← if o.isDevelopment then developmentProperties o s tail attributes else pure []
      let tag := withComments opening (← name.toExpr)
      let kids ← buildChildren o s children
      if o.isClassic then return pureCall tag kids closing
      let maker ← Compile.requireImport o.importSource "createElement"
      return pureCall (.ident maker)
        (tag :: .object (properties ++ marks) :: kids.map Expr.asArgument) closing
    else
      let properties ← buildAttributes o s false attributes
      let kids ← buildChildren o s children
      let hasSeveral := kids.length > 1
      let tag := withComments opening (← name.toExpr)
      let key ← buildKey o s attributes
      let marks ← if o.isDevelopment then developmentArguments o s tail attributes else pure []
      let maker ← makerOf o hasSeveral
      return pureCall maker
        (tag :: .object (properties ++ childrenProperty kids) ::
          trailingArguments o (key.map Expr.asArgument) hasSeveral marks) closing
  | .fragment closing children => do
    if o.isClassic then
      let kids ← buildChildren o s children
      return pureCall voidValue kids closing
    let kids ← buildChildren o s children
    let hasSeveral := kids.length > 1
    let tag ← Compile.requireImport o.runtime "Fragment"
    let maker ← makerOf o hasSeveral
    return pureCall maker
      (.ident tag :: .object (childrenProperty kids) :: trailingArguments o none false [])
      closing
  | .jsxText written => return .string (.made (attributeText written))
  | .container e => return e
  | .commented comments e => return .commented comments (← e.buildElement o s)
  | .absent => return .bool true
  | e => return e

/-- Compiles attributes to properties; the key is one only if it is asked for. -/
def buildAttributes (o : ElementOptions) (s : ThisScope) (withKey : Bool) :
    List Property → Compile (List Property)
  | [] => return []
  | .jsxAttribute none name value :: rest => do
    if name == "key" && !withKey then
      match value with
      | .absent =>
        Compile.fault ("Please provide an explicit key value. Using \"key\" as a shorthand for " ++
          "\"key=\x7btrue\x7d\" is not allowed.")
      | _ => pure ()
      buildAttributes o s withKey rest
    else
      let value ← value.buildElement o s
      return .value (attributeKey none name) value.withoutComments false ::
        (← buildAttributes o s withKey rest)
  | .jsxAttribute space name value :: rest => do
    let value ← value.buildElement o s
    return .value (attributeKey space name) value.withoutComments false ::
      (← buildAttributes o s withKey rest)
  | .spread e :: rest => return spreadProperties e ++ (← buildAttributes o s withKey rest)
  | p :: rest => return p :: (← buildAttributes o s withKey rest)

/-- Compiles the last key among attributes. -/
def buildKey (o : ElementOptions) (s : ThisScope) : List Property → Compile (Option Expr)
  | [] => return none
  | .jsxAttribute none "key" .absent :: rest => buildKey o s rest
  | .jsxAttribute none "key" value :: rest =>
    if rest.any Property.isKey then buildKey o s rest else some <$> value.buildElement o s
  | _ :: rest => buildKey o s rest

/-- Compiles the children of an element; blank text and empty braces are none. -/
def buildChildren (o : ElementOptions) (s : ThisScope) : List Expr → Compile (List Expr)
  | [] => return []
  | .jsxText written :: rest => do
    match childText? written with
    | some text => return .string (.made text) :: (← buildChildren o s rest)
    | none => buildChildren o s rest
  | .container .absent :: rest => buildChildren o s rest
  | e :: rest => return (← e.buildElement o s) :: (← buildChildren o s rest)

end

end ModuleLoader.Syntax
