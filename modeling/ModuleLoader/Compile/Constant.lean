import ModuleLoader.Number.Arithmetic
import ModuleLoader.Syntax.Binding

/-! # Constants

The members of an enumeration are numbers and texts, which a compiler works out where it can.

* **`Constant`** is a number or text.
* **`Expr.constant?`** works out an expression over the members of enumerations.
* **`Expr.qualify`** writes members of an enumeration in full. -/

namespace ModuleLoader.Syntax

/-- The value of a member of an enumeration. -/
inductive Constant
  | number (x : Double)
  | text (s : String)
deriving DecidableEq, Repr, Inhabited

namespace Constant

/-- A constant as part of a text. -/
def display : Constant → String
  | .number x => x.script
  | .text s => s

/-- A constant as an expression. -/
def toExpr : Constant → Expr
  | .text s => .string (.made s)
  | .number .nan => .ident "NaN"
  | .number (.signed isNegative x) =>
    let e := match x with
      | .infinite => .ident "Infinity"
      | x => Expr.number x
    if isNegative then .unary .minus e else e

/-- The value of an operator before a constant. -/
def unary? (op : UnaryOp) : Constant → Option Constant
  | .number x =>
    match op with
    | .plus => some (.number x)
    | .minus => some (.number x.neg)
    | .complement => some (.number x.complement)
    | _ => none
  | .text s =>
    match op with
    | .minus => some (.number .nan)
    | .complement => some (.number (.ofInt (-1)))
    | _ => some (.text s)

/-- The value of an operator between two numbers. -/
def arithmetic? (op : BinaryOp) (x y : Double) : Option Double :=
  match op with
  | .add => some (x.add y)
  | .subtract => some (x.sub y)
  | .multiply => some (x.mul y)
  | .divide => some (x.div y)
  | .remainder => some (x.rem y)
  | .power => x.pow? y
  | .bitOr => some (x.bitwise Nat.lor y)
  | .bitXor => some (x.bitwise Nat.xor y)
  | .bitAnd => some (x.bitwise Nat.land y)
  | .shiftLeft => some (x.shiftLeft y)
  | .shiftRight => some (x.shiftRight y)
  | .shiftRightZero => some (x.shiftRightZero y)
  | _ => none

/-- The value of an operator between two constants. -/
def binary? (op : BinaryOp) (a b : Constant) : Option Constant :=
  match a, b with
  | .number x, .number y => (arithmetic? op x y).map .number
  | a, b => if op == .add then some (.text (a.display ++ b.display)) else none

end Constant

/-! ## Members of enumerations -/

/-- Members of an enumeration with their values, where these are known; later ones come first. -/
abbrev EnumMembers := List (String × Option Constant)

/-- Enumerations by their names. -/
abbrev Enums := List (String × EnumMembers)

/-- The texts of a template with constants between them. -/
def templateConstant : List String → List Constant → String
  | text :: texts, c :: cs => text ++ c.display ++ templateConstant texts cs
  | text :: texts, [] => text ++ templateConstant texts []
  | [], _ => ""

/-- The value of a member of an enumeration. -/
def memberConstant? (enums : Enums) (object : Expr) (name : String) : Option Constant :=
  match object with
  | .ident enum => (enums.lookup enum).bind fun members => (members.lookup name).join
  | _ => none

mutual

/-- The value of an expression, in which the members may be named alone. -/
def Expr.constant? (enums : Enums) (members : EnumMembers) : Expr → Option Constant
  | .number x => some (.number (.signed false x))
  | .string literal => some (.text literal.value)
  | .template texts parts => (constants? enums members parts).map fun cs =>
    .text (templateConstant texts cs)
  | .paren e => e.constant? enums members
  | .unary op operand => (operand.constant? enums members).bind (Constant.unary? op)
  | .binary op left right =>
    (left.constant? enums members).bind fun a =>
      (right.constant? enums members).bind fun b => Constant.binary? op a b
  | .ident name =>
    if name == "Infinity" then some (.number (.signed false .infinite))
    else if name == "NaN" then some (.number .nan)
    else (members.lookup name).join
  | .member object name _ => memberConstant? enums object name
  | .index object (.string literal) _ => memberConstant? enums object literal.value
  | _ => none

/-- The values of several expressions, if all are known. -/
def constants? (enums : Enums) (members : EnumMembers) : List Expr → Option (List Constant)
  | [] => some []
  | e :: rest =>
    (e.constant? enums members).bind fun c =>
      (constants? enums members rest).map (c :: ·)

end

/-! ## Members in full -/

/-- The names of members that the parameters of a function do not take. -/
def namesBeside (params : List Expr) (members : List String) : List String :=
  members.filter fun name => !(elementNames params).contains name

mutual

/-- An expression with the names that are members of an enumeration written as its properties. -/
def Expr.qualify (enum : String) (members : List String) : Expr → Expr
  | .ident name =>
    if members.contains name then .member (.ident enum) name false else .ident name
  | .template texts parts => .template texts (qualifyAll enum members parts)
  | .taggedTemplate tag texts parts =>
    .taggedTemplate (tag.qualify enum members) texts (qualifyAll enum members parts)
  | .array elements => .array (qualifyAll enum members elements)
  | .object properties => .object (qualifyProperties enum members properties)
  | .arrowTo isAsync params body =>
    .arrowTo isAsync params (body.qualify enum (namesBeside params members))
  | .assign op (.ident name) value => .assign op (.ident name) (value.qualify enum members)
  | .assign op target value =>
    .assign op (target.qualify enum members) (value.qualify enum members)
  | .yield isDelegate value => .yield isDelegate (value.qualify enum members)
  | .await value => .await (value.qualify enum members)
  | .importCall phase source options closing =>
    .importCall phase (source.qualify enum members) (options.qualify enum members) closing
  | .unary op operand => .unary op (operand.qualify enum members)
  | .binary op left right =>
    .binary op (left.qualify enum members) (right.qualify enum members)
  | .conditional test whenTrue whenFalse =>
    .conditional (test.qualify enum members) (whenTrue.qualify enum members)
      (whenFalse.qualify enum members)
  | .sequence parts => .sequence (qualifyAll enum members parts)
  | .member object name isOptional => .member (object.qualify enum members) name isOptional
  | .index object key isOptional =>
    .index (object.qualify enum members) (key.qualify enum members) isOptional
  | .call callee args closing isOptional isPure =>
    .call (callee.qualify enum members) (qualifyAll enum members args) closing isOptional isPure
  | .new callee args closing isPure =>
    .new (callee.qualify enum members) (qualifyAll enum members args) closing isPure
  | .chain e => .chain (e.qualify enum members)
  | .spread e => .spread (e.qualify enum members)
  | .beforeComma e => .beforeComma (e.qualify enum members)
  | .paren e => .paren (e.qualify enum members)
  | .commented comments e => .commented comments (e.qualify enum members)
  | .remarked comments e => .remarked comments (e.qualify enum members)
  | .effectFree e => .effectFree (e.qualify enum members)
  | .typed form e => .typed form (e.qualify enum members)
  | e => e

/-- Several expressions with the members of an enumeration written as its properties. -/
def qualifyAll (enum : String) (members : List String) : List Expr → List Expr
  | [] => []
  | e :: rest => e.qualify enum members :: qualifyAll enum members rest

/-- A key with the members of an enumeration written as its properties: only one that is worked
out has any. -/
def Expr.qualifyKey (enum : String) (members : List String) : Expr → Expr
  | .computed e => .computed (e.qualify enum members)
  | key => key

/-- A property with the members of an enumeration written as its properties. -/
def Property.qualify (enum : String) (members : List String) : Property → Property
  | .value key value isShorthand =>
    .value (key.qualifyKey enum members) (value.qualify enum members) isShorthand
  | .spread e => .spread (e.qualify enum members)
  | p => p

/-- Several properties with the members of an enumeration written as its properties. -/
def qualifyProperties (enum : String) (members : List String) : List Property → List Property
  | [] => []
  | p :: rest => p.qualify enum members :: qualifyProperties enum members rest

end

end ModuleLoader.Syntax
