/-! # Operators

The operators of JavaScript expressions, how they are written, and how tightly they bind.

* **`UnaryOp`**, **`UpdateOp`**, **`BinaryOp`**, **`AssignOp`** are the operators; `text` writes
  them.
* **`Precedence`** orders the levels of expressions from loose to tight.
* **`BinaryOp.precedence`** is the level of a binary operator. -/

namespace ModuleLoader.Syntax

/-- The operators written before one operand. -/
inductive UnaryOp
  | plus | minus | not | complement | typeOf | void | delete
deriving DecidableEq, Repr, Inhabited

/-- How a unary operator is written. -/
def UnaryOp.text : UnaryOp → String
  | .plus => "+"
  | .minus => "-"
  | .not => "!"
  | .complement => "~"
  | .typeOf => "typeof"
  | .void => "void"
  | .delete => "delete"

/-- The unary operators that are words. -/
def UnaryOp.isWord : UnaryOp → Bool
  | .typeOf | .void | .delete => true
  | _ => false

/-- The operators that step a variable. -/
inductive UpdateOp
  | increment | decrement
deriving DecidableEq, Repr, Inhabited

/-- How a step is written. -/
def UpdateOp.text : UpdateOp → String
  | .increment => "++"
  | .decrement => "--"

/-- The operators between two operands. -/
inductive BinaryOp
  | coalesce | or | and
  | bitOr | bitXor | bitAnd
  | looseEq | looseNe | strictEq | strictNe
  | less | lessEq | greater | greaterEq | instanceOf | isIn
  | shiftLeft | shiftRight | shiftRightZero
  | add | subtract | multiply | divide | remainder | power
deriving DecidableEq, Repr, Inhabited

/-- How a binary operator is written. -/
def BinaryOp.text : BinaryOp → String
  | .coalesce => "??"
  | .or => "||"
  | .and => "&&"
  | .bitOr => "|"
  | .bitXor => "^"
  | .bitAnd => "&"
  | .looseEq => "=="
  | .looseNe => "!="
  | .strictEq => "==="
  | .strictNe => "!=="
  | .less => "<"
  | .lessEq => "<="
  | .greater => ">"
  | .greaterEq => ">="
  | .instanceOf => "instanceof"
  | .isIn => "in"
  | .shiftLeft => "<<"
  | .shiftRight => ">>"
  | .shiftRightZero => ">>>"
  | .add => "+"
  | .subtract => "-"
  | .multiply => "*"
  | .divide => "/"
  | .remainder => "%"
  | .power => "**"

/-- All binary operators. -/
def BinaryOp.all : List BinaryOp :=
  [.coalesce, .or, .and, .bitOr, .bitXor, .bitAnd, .looseEq, .looseNe, .strictEq, .strictNe,
    .less, .lessEq, .greater, .greaterEq, .instanceOf, .isIn, .shiftLeft, .shiftRight,
    .shiftRightZero, .add, .subtract, .multiply, .divide, .remainder, .power]

/-- The list of binary operators is complete. -/
theorem BinaryOp.mem_all (op : BinaryOp) : op ∈ BinaryOp.all := by
  cases op <;> decide

/-- The binary operator that is written so. -/
def BinaryOp.ofText? (text : String) : Option BinaryOp :=
  BinaryOp.all.find? (·.text == text)

/-- Reading back a written operator gives the operator. -/
theorem BinaryOp.ofText?_text (op : BinaryOp) : BinaryOp.ofText? op.text = some op := by
  cases op <;> decide

/-- The operators that decide by the left operand whether the right one is evaluated. -/
def BinaryOp.isLogical : BinaryOp → Bool
  | .coalesce | .or | .and => true
  | _ => false

/-- The operators that assign. -/
inductive AssignOp
  /-- Plain assignment. -/
  | plain
  /-- Assignment of what a binary operator makes of the old value. -/
  | compound (op : BinaryOp)
deriving DecidableEq, Repr, Inhabited

/-- How an assignment is written. -/
def AssignOp.text : AssignOp → String
  | .plain => "="
  | .compound op => op.text ++ "="

/-- The assignment that is written so. -/
def AssignOp.ofText? (text : String) : Option AssignOp :=
  if text == "=" then some .plain
  else
    [BinaryOp.coalesce, .or, .and, .bitOr, .bitXor, .bitAnd, .shiftLeft, .shiftRight,
      .shiftRightZero, .add, .subtract, .multiply, .divide, .remainder, .power].findSome? fun op =>
        if op.text ++ "=" == text then some (.compound op) else none

/-! ## Precedence -/

/-- The levels of expressions, from the one that binds least to the one that binds most. -/
inductive Precedence
  | lowest | comma | spread | yield | assign | conditional | coalesce | logicalOr | logicalAnd
  | bitOr | bitXor | bitAnd | equals | compare | shift | add | multiply | exponentiation
  | unary | postfixOp | new | call | member
deriving DecidableEq, Repr, Inhabited

namespace Precedence

/-- The place of a level in the order. -/
def rank : Precedence → Nat
  | .lowest => 0
  | .comma => 1
  | .spread => 2
  | .yield => 3
  | .assign => 4
  | .conditional => 5
  | .coalesce => 6
  | .logicalOr => 7
  | .logicalAnd => 8
  | .bitOr => 9
  | .bitXor => 10
  | .bitAnd => 11
  | .equals => 12
  | .compare => 13
  | .shift => 14
  | .add => 15
  | .multiply => 16
  | .exponentiation => 17
  | .unary => 18
  | .postfixOp => 19
  | .new => 20
  | .call => 21
  | .member => 22

instance : LE Precedence := ⟨fun p q => p.rank ≤ q.rank⟩
instance : LT Precedence := ⟨fun p q => p.rank < q.rank⟩
instance (p q : Precedence) : Decidable (p ≤ q) := inferInstanceAs (Decidable (p.rank ≤ q.rank))
instance (p q : Precedence) : Decidable (p < q) := inferInstanceAs (Decidable (p.rank < q.rank))

/-- The next looser level. -/
def looser : Precedence → Precedence
  | .lowest | .comma => .lowest
  | .spread => .comma
  | .yield => .spread
  | .assign => .yield
  | .conditional => .assign
  | .coalesce => .conditional
  | .logicalOr => .coalesce
  | .logicalAnd => .logicalOr
  | .bitOr => .logicalAnd
  | .bitXor => .bitOr
  | .bitAnd => .bitXor
  | .equals => .bitAnd
  | .compare => .equals
  | .shift => .compare
  | .add => .shift
  | .multiply => .add
  | .exponentiation => .multiply
  | .unary => .exponentiation
  | .postfixOp => .unary
  | .new => .postfixOp
  | .call => .new
  | .member => .call

end Precedence

/-- The level of a binary operator. -/
def BinaryOp.precedence : BinaryOp → Precedence
  | .coalesce => .coalesce
  | .or => .logicalOr
  | .and => .logicalAnd
  | .bitOr => .bitOr
  | .bitXor => .bitXor
  | .bitAnd => .bitAnd
  | .looseEq | .looseNe | .strictEq | .strictNe => .equals
  | .less | .lessEq | .greater | .greaterEq | .instanceOf | .isIn => .compare
  | .shiftLeft | .shiftRight | .shiftRightZero => .shift
  | .add | .subtract => .add
  | .multiply | .divide | .remainder => .multiply
  | .power => .exponentiation

/-- Only powers group to the right. -/
def BinaryOp.isRightAssociative (op : BinaryOp) : Bool := op == .power

end ModuleLoader.Syntax
