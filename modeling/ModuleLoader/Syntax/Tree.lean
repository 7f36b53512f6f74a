import ModuleLoader.Number.Binary64
import ModuleLoader.Syntax.Operator

/-! # Syntax trees

Modules of JavaScript with JSX and TypeScript, after their types have been left out. A tree keeps
what is needed to find imports, to compile the module, and to print it.

* **`Expr`** are expressions, and what stands in their places: targets of declarations and
  assignments, keys, holes, and the parts of elements.
* **`Property`** stands in the braces of an object, **`Member`** in those of a class.
* **`Stmt`** are statements and declarations, **`Case`** the parts of a `switch`. -/

namespace ModuleLoader.Syntax

/-! ## Leaves -/

/-- A comment. -/
structure Comment where
  /-- The comment with its delimiters. -/
  text : String
  /-- It ends with its line. -/
  isLine : Bool
  /-- A line break, or nothing at all, lies between it and what comes before. -/
  afterBreak : Bool
  /-- A line break lies between it and what comes after. -/
  beforeBreak : Bool
deriving DecidableEq, Repr, Inhabited

/-- A string literal. -/
structure StringLiteral where
  /-- The text that it stands for. -/
  value : String
  /-- Half a surrogate pair is in its value, which therefore writes each of them, and U+FFFD itself,
  as U+FFFD and four digits. -/
  hasHalves : Bool
  /-- How it was written between its quotes, with the quote, unless it was made by the compiler. -/
  written : Option (Char × String)
deriving DecidableEq, Repr, Inhabited

/-- A string literal that was not written by anyone. -/
def StringLiteral.made (value : String) : StringLiteral := ⟨value, false, none⟩

/-- When the module of an import is evaluated. -/
inductive Phase
  | evaluation | deferred | source
deriving DecidableEq, Repr, Inhabited

/-- The name of an import or export. -/
inductive ModuleName
  /-- An identifier. -/
  | ident (name : String)
  /-- Any text between quotes. -/
  | string (literal : StringLiteral)
deriving DecidableEq, Repr, Inhabited

/-- The text of a name. -/
def ModuleName.text : ModuleName → String
  | .ident name => name
  | .string literal => literal.value

/-- One name in the braces of an import. -/
structure ImportSpecifier where
  /-- The name in the imported module. -/
  imported : ModuleName
  /-- The name in this module. -/
  bound : String
  /-- It names a type. -/
  isType : Bool
deriving DecidableEq, Repr, Inhabited

/-- What an import declaration binds. -/
structure ImportClause where
  /-- The name of the default export. -/
  default? : Option String
  /-- The name of the whole module. -/
  whole? : Option String
  /-- The names in braces. -/
  named? : Option (List ImportSpecifier)
deriving DecidableEq, Repr, Inhabited

/-- The attributes of an import or export, behind the word that opens them. -/
structure Attributes where
  /-- The word, `with` or `assert`. -/
  word : String
  /-- Keys and values. -/
  entries : List (ModuleName × StringLiteral)
deriving DecidableEq, Repr, Inhabited

/-- One name in the braces of an export. -/
structure ExportSpecifier where
  /-- The name in this module, or in the one that is exported from. -/
  bound : ModuleName
  /-- The name that other modules see. -/
  exported : ModuleName
  /-- It names a type. -/
  isType : Bool
deriving DecidableEq, Repr, Inhabited

/-- The name of an element. -/
inductive ElementName
  /-- A plain name. -/
  | plain (name : String)
  /-- Names joined by dots. -/
  | member (object : String) (properties : List String)
  /-- A name in a namespace. -/
  | namespaced (space name : String)
deriving DecidableEq, Repr, Inhabited

/-- What a variable declaration starts with. -/
inductive VariableKind
  | var | letVar | const | using | awaitUsing
deriving DecidableEq, Repr, Inhabited

/-- The kinds of methods in objects and classes. -/
inductive MethodKind
  | method | getter | setter | constructor
deriving DecidableEq, Repr, Inhabited

/-- How a type is put beside an expression. -/
inductive TypeForm
  | asType | satisfies | angle | nonNull | arguments
deriving DecidableEq, Repr, Inhabited

/-- The words before a function. -/
structure FunctionKind where
  /-- It returns a promise. -/
  isAsync : Bool
  /-- It yields values. -/
  isGenerator : Bool
deriving DecidableEq, Repr, Inhabited

/-- The words before a member of a class that change what it is. -/
structure Modifiers where
  /-- It belongs to the class itself. -/
  isStatic : Bool
  /-- It is declared only, here or for subclasses. -/
  isDeclared : Bool
  /-- It is read and written through a getter and a setter. -/
  isAccessor : Bool
deriving DecidableEq, Repr, Inhabited

/-! ## Trees -/

mutual

/-- Expressions. Targets of declarations, parameters and assignments are expressions as well: a
default is an `assign`, the rest is a `spread`. A key is an identifier, a literal, a private name
or `computed`. -/
inductive Expr
  /-- Nothing, where an expression may be missing. -/
  | absent
  | ident (name : String)
  | privateName (name : String)
  | this
  | super
  | null
  | bool (value : Bool)
  | number (value : Binary64)
  | bigint (value : Nat)
  | string (literal : StringLiteral)
  | regex (pattern flags : String)
  /-- A template; there is one more text than parts. -/
  | template (texts : List String) (parts : List Expr)
  | taggedTemplate (tag : Expr) (texts : List String) (parts : List Expr)
  | array (elements : List Expr)
  | object (properties : List Property)
  | function (kind : FunctionKind) (name : Option String) (params : List Expr) (body : List Stmt)
  /-- A function with a body of statements that has no `this` of its own. -/
  | arrow (isAsync : Bool) (params : List Expr) (body : List Stmt)
  /-- A function whose body is the expression that it returns. -/
  | arrowTo (isAsync : Bool) (params : List Expr) (body : Expr)
  | classExpr (decorators : List Expr) (name : Option String) (base : Expr)
      (members : List Member)
  | unary (op : UnaryOp) (operand : Expr)
  | update (op : UpdateOp) (isBefore : Bool) (target : Expr)
  | binary (op : BinaryOp) (left right : Expr)
  | assign (op : AssignOp) (target value : Expr)
  | conditional (test whenTrue whenFalse : Expr)
  | sequence (parts : List Expr)
  | member (object : Expr) (name : String) (isOptional : Bool)
  | privateMember (object : Expr) (name : String) (isOptional : Bool)
  | index (object key : Expr) (isOptional : Bool)
  /-- A call; the comments are those before its closing parenthesis. -/
  | call (callee : Expr) (arguments : List Expr) (closing : List Comment)
      (isOptional isPure : Bool)
  | new (callee : Expr) (arguments : List Expr) (closing : List Comment) (isPure : Bool)
  /-- The whole of an optional chain. -/
  | chain (e : Expr)
  | newTarget
  | importMeta
  /-- An import by an expression; the comments are those before its closing parenthesis. -/
  | importCall (phase : Phase) (source options : Expr) (closing : List Comment)
  | yield (isDelegate : Bool) (value : Expr)
  | await (value : Expr)
  | spread (e : Expr)
  /-- What the last part of a list spreads, with a comma behind it. -/
  | beforeComma (e : Expr)
  | paren (e : Expr)
  | computed (e : Expr)
  | typed (form : TypeForm) (e : Expr)
  | decorated (decorators : List Expr) (e : Expr)
  /-- A parameter of a constructor that is a field as well. -/
  | parameterProperty (target : Expr)
  /-- An argument with the comments before it. -/
  | commented (comments : List Comment) (e : Expr)
  /-- An object with the comments before it, when nothing around it starts at the same place. -/
  | remarked (comments : List Comment) (e : Expr)
  /-- A function that has no effect when it is called. -/
  | effectFree (e : Expr)
  /-- An element; `tail` counts the characters from its start to the end of the text. The comments
  are those before its name and before its last angle bracket. -/
  | element (tail : Nat) (opening closing : List Comment) (name : ElementName)
      (attributes : List Property) (children : List Expr)
  | fragment (closing : List Comment) (children : List Expr)
  /-- The text of a child or an attribute as it is written. -/
  | jsxText (written : String)
  /-- A child or an attribute in braces. -/
  | container (e : Expr)

/-- What stands in the braces of an object or a target, and the attributes of an element. -/
inductive Property
  | value (key value : Expr) (isShorthand : Bool)
  | method (kind : MethodKind) (key : Expr) (function : FunctionKind) (params : List Expr)
      (body : List Stmt)
  | spread (e : Expr)
  | jsxAttribute (space : Option String) (name : String) (value : Expr)

/-- What stands in the braces of a class, with the comments before it. -/
inductive Member
  | method (comments : List Comment) (decorators : List Expr) (modifiers : Modifiers)
      (kind : MethodKind) (key : Expr) (function : FunctionKind) (params : List Expr)
      (body : List Stmt)
  | field (comments : List Comment) (decorators : List Expr) (modifiers : Modifiers)
      (key value : Expr)
  | staticBlock (comments : List Comment) (body : List Stmt)
  /-- A method without a body. -/
  | signature (key : Expr) (params : List Expr)

/-- Statements and declarations. -/
inductive Stmt
  /-- A statement with the comments before it. -/
  | commented (comments : List Comment) (s : Stmt)
  /-- The comments before the brace that closes the body of a function, at the end of that. -/
  | remarks (comments : List Comment)
  | expr (e : Expr)
  /-- A string at the start of a body that directs its evaluation, as written. -/
  | directive (quote : Char) (written : String)
  | block (body : List Stmt)
  | empty
  /-- Variables; one with a value is an `assign`. -/
  | variables (kind : VariableKind) (declarators : List Expr)
  | function (kind : FunctionKind) (name : Option String) (params : List Expr) (body : List Stmt)
  /-- A function without a body. -/
  | signature (name : Option String) (params : List Expr)
  | classDecl (decorators : List Expr) (name : Option String) (base : Expr)
      (members : List Member)
  | ifThen (test : Expr) (body : Stmt)
  | ifElse (test : Expr) (whenTrue whenFalse : Stmt)
  | forLoop (head : Stmt) (test step : Expr) (body : Stmt)
  | forIn (head : Stmt) (object : Expr) (body : Stmt)
  | forOf (isAwait : Bool) (head : Stmt) (items : Expr) (body : Stmt)
  | whileLoop (test : Expr) (body : Stmt)
  | doWhile (body : Stmt) (test : Expr)
  | continueTo (label : Option String)
  | breakTo (label : Option String)
  | returnValue (value : Expr)
  | throwValue (value : Expr)
  | tryCatch (body : List Stmt) (target : Expr) (handler : List Stmt)
  | tryFinally (body finalizer : List Stmt)
  | tryCatchFinally (body : List Stmt) (target : Expr) (handler finalizer : List Stmt)
  | switch (value : Expr) (cases : List Case)
  | labeled (label : String) (body : Stmt)
  | withObject (object : Expr) (body : Stmt)
  | debugger
  | importDecl (phase : Phase) (isType : Bool) (clause : Option ImportClause)
      (source : StringLiteral) (attributes : Option Attributes)
  | exportNamed (isType : Bool) (specifiers : List ExportSpecifier)
      (source : Option StringLiteral) (attributes : Option Attributes)
  | exportAll (isType : Bool) (exported : Option ModuleName) (source : StringLiteral)
      (attributes : Option Attributes)
  | exportDecl (declaration : Stmt)
  | exportDefault (e : Expr)
  | exportDefaultDecl (declaration : Stmt)
  /-- A declaration of a type alone. -/
  | typeDecl (name : String)
  /-- A declaration that says only that something is there. -/
  | declared (s : Stmt)
  /-- An enumeration; the comments are those before its closing brace. -/
  | enumDecl (isConst : Bool) (name : String) (members : List Property) (closing : List Comment)
  | namespaceDecl (names : List String) (body : List Stmt)
  /-- The declaration of a module by its specifier, or of what is global. -/
  | ambientModule (body : List Stmt)
  | importEquals (isType : Bool) (name : String) (names : List String)
  | importRequire (isType : Bool) (name : String) (source : StringLiteral)
  | exportAssign (e : Expr)
  | exportAsNamespace (name : String)

/-- One case of a `switch`; the default case has no test. -/
inductive Case
  | mk (test : Expr) (body : List Stmt)

end

end ModuleLoader.Syntax
