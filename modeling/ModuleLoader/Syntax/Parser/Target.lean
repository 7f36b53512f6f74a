import ModuleLoader.Syntax.Parser.Rules

/-! # Targets

What can be assigned to, and what a declaration binds. An assignment is read as an expression
first, and the expression is then taken as a target.

* **`simpleTarget`**, **`assignTarget`** take an expression as a target.
* **`bindingTarget`** reads what a declaration binds. -/

namespace ModuleLoader.Syntax.Parser

/-- Nothing can be assigned to the expression. -/
def failAssign {α : Type} : Parse α := fail "Cannot assign to this expression"

/-- The expression is a variable or property, in parentheses or with types beside it. -/
def isReference : Expr → Bool
  | .ident _ | .member _ _ _ | .privateMember _ _ _ | .index _ _ _ => true
  | .paren e => isReference e
  | .typed _ e => isReference e
  | _ => false

/-- Takes an expression as something that holds one value. Parentheses are dropped. -/
def simpleTarget : Expr → Parse Expr
  | .ident name => pure (.ident name)
  | .member object name opt => pure (.member object name opt)
  | .privateMember object name opt => pure (.privateMember object name opt)
  | .index object key opt => pure (.index object key opt)
  | .paren e =>
    match e with
    | .object _ | .array _ => failAssign
    | e => simpleTarget e
  | .typed .arguments _ => fail "Invalid left-hand side in assignment"
  | .typed form e => if isReference e then pure (.typed form e) else failAssign
  | _ => failAssign

/-- A property may have a value that only a target can have; it is a target now. -/
def uncover : Parse Unit :=
  modify fun s => { s with covers := s.covers - 1 }

/-- The message about something behind the rest. -/
def restNotLast : String := "Spread must be last element"

/-- Notes a separator behind the rest. -/
def checkRest : Expr → Parse Unit
  | .beforeComma _ => note "Unexpected trailing comma after rest element"
  | _ => pure ()

mutual

/-- Takes an expression as a target. -/
def assignTarget : Expr → Parse Expr
  | .array elements => do return .array (← elementTargets elements)
  | .object properties => do return .object (← propertyTargets properties)
  | .remarked _ e => assignTarget e
  | .beforeComma e => assignTarget e
  | e => simpleTarget e

/-- Takes an expression as a target that may have a default. -/
def defaultTarget : Expr → Parse Expr
  | .assign op target value => pure (.assign op target value)
  | .array elements => do return .array (← elementTargets elements)
  | .object properties => do return .object (← propertyTargets properties)
  | .remarked _ e => defaultTarget e
  | e => simpleTarget e

/-- Takes the elements of an array as targets. -/
def elementTargets : List Expr → Parse (List Expr)
  | [] => pure []
  | .absent :: rest => do return .absent :: (← elementTargets rest)
  | .spread e :: rest => do
    if rest.isEmpty then
      let target ← assignTarget e
      checkRest e
      return [.spread target]
    else fail restNotLast
  | e :: rest => do
    let target ← defaultTarget e
    return target :: (← elementTargets rest)

/-- Takes the properties of an object as targets. -/
def propertyTargets : List Property → Parse (List Property)
  | [] => pure []
  | .spread e :: rest => do
    if rest.isEmpty then
      let target ← assignTarget e
      checkRest e
      return [.spread target]
    else fail restNotLast
  | .value key (.assign op target value) true :: rest => do
    uncover
    return .value key (.assign op target value) true :: (← propertyTargets rest)
  | .value key value isShorthand :: rest => do
    let target ← defaultTarget value
    return .value key target isShorthand :: (← propertyTargets rest)
  | _ :: _ => failAssign

end

/-! ## Bindings -/

/-- A default behind a target. -/
def withDefault (r : Rules) (target : Expr) : Parse Expr := do
  if ← eat "=" then return .assign .plain target (← r.assignIn)
  else pure target

/-- Passes the type behind a target, where types may be written. -/
def typeAnnotation (r : Rules) : Parse Unit := do
  if (← hasTypes) && (← atSymbol ":") then
    advance
    r.type

/-- A target with its type and default. -/
def bindingElement (r : Rules) : Parse Expr := do
  let target ← r.target
  typeAnnotation r
  withDefault r target

/-- The message about a separator behind the rest. -/
def restComma : String := "A rest parameter or binding pattern may not have a trailing comma."

/-- Reads parts up to a closing symbol, which is not passed; nothing may follow the rest. The
number bounds how many there are. -/
def partsFrom {α : Type} (closing restLast : String) (isRest : α → Bool) (p : Parse α) :
    Nat → List α → Parse (List α)
  | 0, acc => pure acc.reverse
  | fuel + 1, acc => do
    if (← atSymbol closing) || (← atEnd) then return acc.reverse
    if !acc.isEmpty then
      if !(← eat ",") then fail (separatorMessage "," closing (← form))
    let afterRest := match acc with
      | last :: _ => isRest last
      | [] => false
    if ← atSymbol closing then
      if afterRest && !(← context).isAmbient then note restComma
      return acc.reverse
    if afterRest then fail restLast
    let a ← p
    partsFrom closing restLast isRest p fuel (a :: acc)

/-- The target takes the rest. -/
def isRestTarget : Expr → Bool
  | .spread _ => true
  | _ => false

/-- The property takes the rest. -/
def isRestProperty : Property → Bool
  | .spread _ => true
  | _ => false

/-- A number, string, word or expression in brackets that names a property. -/
def propertyKey (r : Rules) : Parse Expr := do
  match ← form with
  | .string literal =>
    skip
    pure (.string literal)
  | .number _ value =>
    skip
    pure (.number value)
  | .bigint _ value =>
    skip
    pure (.bigint value)
  | .symbol "[" =>
    let e ← between "[" "]" r.assignIn
    pure (.computed e)
  | .privateName _ => unexpected
  | _ => return .ident (← identifierName)

/-- The rest in a pattern or among parameters. -/
def restTarget (r : Rules) : Parse Expr := do
  expect "..."
  let target ← r.target
  if ← hasTypes then
    if ← eat "?" then note "A rest parameter cannot be optional"
  typeAnnotation r
  if ← eat "=" then
    note "A rest parameter cannot have an initializer"
    let _ ← r.assignIn
  pure target

/-- One property of an object pattern. -/
def bindingProperty (r : Rules) : Parse Property := do
  if ← atSymbol "..." then return .spread (← restTarget r)
  let isName ← atName
  let key ← propertyKey r
  match key with
  | .ident name =>
    if isName && !(← atSymbol ":") then
      checkName name (← context)
      let target ← withDefault r (.ident name)
      return .value key target true
  | _ => pure ()
  expect ":"
  return .value key (← bindingElement r) false

/-- One element of an array pattern. -/
def bindingItem (r : Rules) : Parse Expr := do
  if ← atSymbol "," then pure .absent
  else if ← atSymbol "..." then return .spread (← restTarget r)
  else bindingElement r

/-- The message about something behind the rest of a pattern. -/
def restOfPattern : String := "A rest element must be last in a destructuring pattern"

/-- What a declaration binds: a name, or a pattern in brackets or braces. -/
def bindingTarget (r : Rules) : Parse Expr := do
  if ← atSymbol "[" then
    between "[" "]" do
      let items ← partsFrom "]" restOfPattern isRestTarget (bindingItem r) (← remaining) []
      return .array items
  else if ← atSymbol "\x7b" then
    between "\x7b" "\x7d" do
      let properties ←
        partsFrom "\x7d" restOfPattern isRestProperty (bindingProperty r) (← remaining) []
      return .object properties
  else return .ident (← bindingName)

end ModuleLoader.Syntax.Parser
