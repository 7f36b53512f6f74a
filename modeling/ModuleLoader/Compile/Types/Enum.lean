import ModuleLoader.Compile.State

/-! # Enumerations

An enumeration is compiled to a call of a function that sets the members of an object and, for the
members that are numbers, their names as well.

* **`enumMembers`** compiles the members.
* **`enumValue`** is the value of an enumeration. -/

namespace ModuleLoader.Syntax

/-- The name of a member of an enumeration. -/
def memberName : Expr → String
  | .commented _ e => memberName e
  | .ident name => name
  | .string literal => literal.value
  | .computed e => memberName e
  | .template texts _ => String.join texts
  | _ => ""

/-- A member of an object by its name. -/
def propertyOf (object name : String) : Expr :=
  .index (.ident object) (.string (.made name)) false

/-- The comments before a member of an enumeration, by its key. -/
def memberComments : Expr → List Comment
  | .commented comments _ => comments
  | _ => []

/-- What comes of one member of an enumeration: the expression that it is set to, and its value. -/
structure EnumMember where
  /-- The comments before it. -/
  comments : List Comment
  /-- The name. -/
  name : String
  /-- What it is set to. -/
  init : Expr
  /-- Its value, where that is known. -/
  value : Option Constant

/-- Compiles a member that says what it is; `written` is that as it is written, `init` without
types. What has a type beside it is not worked out. -/
def EnumMember.ofValue (enums : Enums) (enum : String) (members : EnumMembers)
    (key written init : Expr) : EnumMember :=
  let name := memberName key
  match written.constant? enums members with
  | some c => ⟨memberComments key, name, c.toExpr, some c⟩
  | none =>
    ⟨memberComments key, name, init.qualify enum ((name, none) :: members |>.map Prod.fst), none⟩

/-- Compiles a member that follows another one without saying what it is. -/
def EnumMember.following (enum : String) (last : Option EnumMember) (key : Expr) : EnumMember :=
  let comments := memberComments key
  let name := memberName key
  match last with
  | none => ⟨comments, name, (Constant.number (.ofInt 0)).toExpr, some (.number (.ofInt 0))⟩
  | some ⟨_, _, _, some (.number x)⟩ =>
    let c := Constant.number (x.add (.ofInt 1))
    ⟨comments, name, c.toExpr, some c⟩
  | some ⟨_, before, _, _⟩ =>
    ⟨comments, name, .binary .add (Constant.number (.ofInt 1)).toExpr (propertyOf enum before),
      none⟩

/-- Sets a member, and for a number its name. -/
def EnumMember.stmt (enum : String) (m : EnumMember) : Stmt :=
  let set := Expr.assign .plain (propertyOf enum m.name) m.init
  let all := match m.value with
    | some (.text _) => set
    | _ => .assign .plain (.index (.ident enum) set false) (.string (.made m.name))
  if m.comments.isEmpty then .expr all else .commented m.comments (.expr all)

/-- Compiles the members of an enumeration, each as it is written and without types; `members` are
those that are known before, `last` is the one before. -/
def enumMembers (enums : Enums) (enum : String) :
    EnumMembers → Option EnumMember → List (Property × Property) → List EnumMember
  | members, last, (.value key written _, .value _ init _) :: rest =>
    let m := match written with
      | .absent => EnumMember.following enum last key
      | written => EnumMember.ofValue enums enum members key written init
    m :: enumMembers enums enum ((m.name, m.value) :: members) (some m) rest
  | members, last, _ :: rest => enumMembers enums enum members last rest
  | _, _, [] => []

/-- A member is set to what a call gives, which may do anything. -/
def callsOnce : Property → Bool
  | .value _ (.call ..) _ | .value _ (.new ..) _ => true
  | _ => false

/-- The value of an enumeration, made out of an object, with the comments before its closing
brace. -/
def enumValue (enum : String) (isPure : Bool) (members : List EnumMember) (closing : List Comment)
    (object : Expr) : Expr :=
  let remarks : List Stmt := if closing.isEmpty then [] else [.remarks closing]
  .call
    (.function ⟨false, false⟩ none [.ident enum]
      (members.map (·.stmt enum) ++ .returnValue (.ident enum) :: remarks))
    [object] [] false isPure

/-- Compiles an enumeration to its value, and remembers its members. Its properties are given as
they are written and without types. -/
def compileEnum (enum : String) (properties erased : List Property) (closing : List Comment)
    (object : Expr) : Compile Expr := do
  let enums ← Compile.knownEnums
  let known := (enums.lookup enum).getD []
  let members := enumMembers enums enum known none (properties.zip erased)
  Compile.recordEnum enum ((members.map fun m => (m.name, m.value)).reverse ++ known)
  return enumValue enum (!properties.any callsOnce) members closing object

end ModuleLoader.Syntax
