import ModuleLoader.Syntax.Remarks

/-! # Fresh names

Compiled code needs names of its own. A fresh name is an underscore and the name it is made for,
with a number where that is taken.

* **`Stmt.mentions`** lists the names that a statement binds or uses, and its elements.
* **`Names`** remembers which names with underscores are taken.
* **`Names.fresh`** makes a name that is not. -/

namespace ModuleLoader.Syntax

/-- What a program holds that a compiler has to know of. -/
inductive Mention
  /-- A variable, bound or used. -/
  | name (name : String)
  /-- An element or fragment. -/
  | element
deriving DecidableEq, Repr, Inhabited

/-- A name that may be missing. -/
def Mention.names (name : Option String) : List Mention := (name.map Mention.name).toList

/-- The name of a member of an enumeration, which is a variable for the members behind it. -/
def memberMentions : Property → List Mention
  | .value key _ _ =>
    match key.withoutComments with
    | .ident name => [.name name]
    | .string literal => [.name literal.value]
    | _ => []
  | _ => []

/-- The variable that the name of an element may start with. -/
def ElementName.mentions : ElementName → List Mention
  | .plain name => [.name name]
  | .member object _ => [.name object]
  | .namespaced _ _ => []

/-- The names that an import binds. -/
def ImportClause.mentions (c : ImportClause) : List Mention :=
  Mention.names c.default? ++ Mention.names c.whole? ++
    (c.named?.getD []).map fun s => .name s.bound

mutual

/-- What an expression mentions. -/
def Expr.mentions : Expr → List Mention
  | .ident name => [.name name]
  | .template _ parts => allMentions parts
  | .taggedTemplate tag _ parts => tag.mentions ++ allMentions parts
  | .array elements => allMentions elements
  | .object properties => propertiesMention properties
  | .function _ name params body =>
    Mention.names name ++ allMentions params ++ bodyMentions body
  | .arrow _ params body => allMentions params ++ bodyMentions body
  | .arrowTo _ params body => allMentions params ++ body.mentions
  | .classExpr decorators name base members =>
    allMentions decorators ++ Mention.names name ++ base.mentions ++ membersMention members
  | .unary _ operand => operand.mentions
  | .update _ _ target => target.mentions
  | .binary _ left right => left.mentions ++ right.mentions
  | .assign _ target value => target.mentions ++ value.mentions
  | .conditional test whenTrue whenFalse =>
    test.mentions ++ whenTrue.mentions ++ whenFalse.mentions
  | .sequence parts => allMentions parts
  | .member object _ _ => object.mentions
  | .privateMember object _ _ => object.mentions
  | .index object key _ => object.mentions ++ key.mentions
  | .call callee args _ _ _ => callee.mentions ++ allMentions args
  | .new callee args _ _ => callee.mentions ++ allMentions args
  | .chain e => e.mentions
  | .importCall _ source options _ => source.mentions ++ options.mentions
  | .yield _ value => value.mentions
  | .await value => value.mentions
  | .spread e => e.mentions
  | .paren e => e.mentions
  | .computed e => e.mentions
  | .typed _ e => e.mentions
  | .decorated decorators e => allMentions decorators ++ e.mentions
  | .parameterProperty target => target.mentions
  | .commented _ e => e.mentions
  | .remarked _ e => e.mentions
  | .effectFree e => e.mentions
  | .beforeComma e => e.mentions
  | .element _ _ _ name attributes children =>
    .element :: name.mentions ++ propertiesMention attributes ++ allMentions children
  | .fragment _ children => .element :: allMentions children
  | .container e => e.mentions
  | _ => []

/-- What several expressions mention. -/
def allMentions : List Expr → List Mention
  | [] => []
  | e :: rest => e.mentions ++ allMentions rest

/-- What a key mentions; a plain key is no variable. -/
def Expr.mentionsAsKey : Expr → List Mention
  | .computed e => e.mentions
  | _ => []

/-- What a property mentions. -/
def Property.mentions : Property → List Mention
  | .value key value _ => key.mentionsAsKey ++ value.mentions
  | .method _ key _ params body => key.mentionsAsKey ++ allMentions params ++ bodyMentions body
  | .spread e => e.mentions
  | .jsxAttribute _ _ value => value.mentions

/-- What several properties mention. -/
def propertiesMention : List Property → List Mention
  | [] => []
  | p :: rest => p.mentions ++ propertiesMention rest

/-- What a member of a class mentions. -/
def Member.mentions : Member → List Mention
  | .method _ decorators _ _ key _ params body =>
    allMentions decorators ++ key.mentionsAsKey ++ allMentions params ++ bodyMentions body
  | .field _ decorators _ key value =>
    allMentions decorators ++ key.mentionsAsKey ++ value.mentions
  | .staticBlock _ body => bodyMentions body
  | .signature key params => key.mentionsAsKey ++ allMentions params

/-- What several members mention. -/
def membersMention : List Member → List Mention
  | [] => []
  | m :: rest => m.mentions ++ membersMention rest

/-- What a statement mentions. -/
def Stmt.mentions : Stmt → List Mention
  | .commented _ s => s.mentions
  | .expr e => e.mentions
  | .block body => bodyMentions body
  | .variables _ declarators => allMentions declarators
  | .function _ name params body =>
    Mention.names name ++ allMentions params ++ bodyMentions body
  | .signature name params => Mention.names name ++ allMentions params
  | .classDecl decorators name base members =>
    allMentions decorators ++ Mention.names name ++ base.mentions ++ membersMention members
  | .ifThen test body => test.mentions ++ body.mentions
  | .ifElse test whenTrue whenFalse =>
    test.mentions ++ whenTrue.mentions ++ whenFalse.mentions
  | .forLoop head test step body =>
    head.mentions ++ test.mentions ++ step.mentions ++ body.mentions
  | .forIn head object body => head.mentions ++ object.mentions ++ body.mentions
  | .forOf _ head items body => head.mentions ++ items.mentions ++ body.mentions
  | .whileLoop test body => test.mentions ++ body.mentions
  | .doWhile body test => body.mentions ++ test.mentions
  | .returnValue value => value.mentions
  | .throwValue value => value.mentions
  | .tryCatch body target handler =>
    bodyMentions body ++ target.mentions ++ bodyMentions handler
  | .tryFinally body finalizer => bodyMentions body ++ bodyMentions finalizer
  | .tryCatchFinally body target handler finalizer =>
    bodyMentions body ++ target.mentions ++ bodyMentions handler ++ bodyMentions finalizer
  | .switch value cases => value.mentions ++ casesMention cases
  | .labeled _ body => body.mentions
  | .withObject object body => object.mentions ++ body.mentions
  | .importDecl _ _ (some clause) _ _ => clause.mentions
  | .exportNamed _ specifiers none _ => specifiers.map fun s => .name s.bound.text
  | .exportDecl declaration => declaration.mentions
  | .exportDefault e => e.mentions
  | .exportDefaultDecl declaration => declaration.mentions
  | .typeDecl name => [.name name]
  | .declared s => s.mentions
  | .enumDecl _ name members _ =>
    .name name :: members.flatMap memberMentions ++ propertiesMention members
  | .namespaceDecl names body => names.map Mention.name ++ bodyMentions body
  | .ambientModule body => bodyMentions body
  | .importEquals _ name names => .name name :: (names.take 1).map Mention.name
  | .importRequire _ name _ => [.name name]
  | .exportAssign e => e.mentions
  | _ => []

/-- What several statements mention. -/
def bodyMentions : List Stmt → List Mention
  | [] => []
  | s :: rest => s.mentions ++ bodyMentions rest

/-- What a case mentions. -/
def Case.mentions : Case → List Mention
  | .mk test body => test.mentions ++ bodyMentions body

/-- What several cases mention. -/
def casesMention : List Case → List Mention
  | [] => []
  | c :: rest => c.mentions ++ casesMention rest

end

/-! ## Names with underscores -/

/-- A taken name: underscores, a base, and a number, which is one when none is written. -/
structure TakenName where
  /-- The name between underscores and number. -/
  base : String
  /-- How many underscores stand before it. -/
  underscores : Nat
  /-- The number behind it. -/
  number : Nat
deriving DecidableEq, Repr, Inhabited

/-- The taken names with underscores, the greatest for each base. -/
abbrev Names := List TakenName

namespace Names

/-- The character is a decimal digit. -/
def isDigit (c : Char) : Bool := '0' ≤ c && c ≤ '9'

/-- A name without the underscores before it and the digits behind it. -/
def baseOf (name : String) : String :=
  String.ofList (((name.toList.dropWhile (· == '_')).reverse.dropWhile isDigit).reverse)

/-- The greatest number that a name may have behind it. -/
def maxNumber : Nat := 4294967295

/-- The number that some digits behind a name stand for: from two on, without zeros before it, and
none that is too great. -/
def numberOf? (digits : List Char) : Option Nat :=
  if digits.head? == some '0' then none
  else (String.ofList digits).toNat?.filter fun n => 2 ≤ n && n ≤ maxNumber

/-- The parts of a name, if it starts with an underscore. Digits that are no number behind a name
are part of it. -/
def partsOf (name : String) : Option TakenName :=
  let cs := name.toList
  let underscores := (cs.takeWhile (· == '_')).length
  if underscores = 0 then none
  else
    let cs := cs.drop underscores
    match numberOf? (cs.reverse.takeWhile isDigit).reverse with
    | some n => some ⟨baseOf name, underscores, n⟩
    | none => some ⟨String.ofList cs, underscores, 1⟩

/-- A taken name is greater than another one of its base. -/
def isAbove (a b : TakenName) : Bool :=
  a.underscores > b.underscores || a.underscores == b.underscores && a.number > b.number

/-- Remembers a taken name. -/
def insert (names : Names) (n : TakenName) : Names :=
  match names.find? (·.base == n.base) with
  | none => names ++ [n]
  | some old =>
    if isAbove n old then names.map fun m => if m.base == n.base then n else m else names

/-- The names that are taken in a program. -/
def ofMentions (mentions : List Mention) : Names :=
  mentions.foldl (fun names m =>
    match m with
    | .name name =>
      match partsOf name with
      | some n => names.insert n
      | none => names
    | .element => names) []

/-- A taken name as it is written. -/
def write (n : TakenName) : String :=
  "".pushn '_' n.underscores ++ n.base ++ (if n.number ≤ 1 then "" else toString n.number)

/-- A name made for another one, which is taken from then on. Behind the greatest number comes one
more underscore. -/
def fresh (names : Names) (name : String) : String × Names :=
  let base := baseOf name
  let n : TakenName :=
    match names.find? (·.base == base) with
    | none => ⟨base, 1, 1⟩
    | some old =>
      if old.number < maxNumber then ⟨base, old.underscores, old.number + 1⟩
      else ⟨base, old.underscores + 1, 1⟩
  (write n, names.insert n)

end Names

end ModuleLoader.Syntax
