import ModuleLoader.Syntax.Dialect
import ModuleLoader.Syntax.Lexer.Scan

/-! # The state of a parser

A parser reads tokens one by one. A fault that it can pass is noted; one that it cannot pass ends
the parse. Where the grammar is ambiguous the parser tries a reading and goes back.

* **`State`** is the current token with the text behind it, the faults so far and the context.
* **`Parse`** is a parser of something.
* **`advance`**, **`eat`**, **`expect`** pass tokens; **`attempt`**, **`lookahead`** go back. -/

namespace ModuleLoader.Syntax.Parser

open Lexer

/-- What the place of an expression or statement allows. -/
structure Context where
  /-- `in` is an operator. -/
  allowsIn : Bool
  /-- `yield` is an operator. -/
  allowsYield : Bool
  /-- `await` is an operator. -/
  allowsAwait : Bool
  /-- `return` is a statement. -/
  allowsReturn : Bool
  /-- An `@` starts no decorator but ends one. -/
  isDecorator : Bool
  /-- Only declarations stand here. -/
  isAmbient : Bool
  /-- `extends` starts no conditional type. -/
  noConditionalTypes : Bool
deriving DecidableEq, Repr, Inhabited

/-- A fault that ends a parse. -/
structure Fatal where
  /-- What is wrong. -/
  message : String
  /-- The parser is inside of something that it would still have to close. -/
  isInside : Bool
deriving DecidableEq, Repr, Inhabited

/-- The state of a parser. -/
structure State where
  /-- What the file may hold. -/
  dialect : Dialect
  /-- What the place allows. -/
  context : Context
  /-- The current token. -/
  token : Token
  /-- The text behind the current token. -/
  rest : List Char
  /-- The token before the current one. -/
  previous : Token
  /-- How many brackets around the current token are still to be closed. -/
  depth : Nat
  /-- The faults of tokens, last one first. -/
  tokenFaults : List String
  /-- The faults of the grammar, last one first. -/
  faults : List String
  /-- How many properties have a value as only targets can have one, and are no targets yet. -/
  covers : Nat
  /-- All comments, last one first. -/
  comments : List Comment
  /-- What has been named in types, last one first. -/
  asides : List Expr
deriving Inhabited

/-- A parser of something. -/
abbrev Parse := EStateM Fatal State

/-! ## Faults -/

/-- Notes a fault and goes on. -/
def note (message : String) : Parse Unit :=
  modify fun s => { s with faults := message :: s.faults }

/-- Ends the parse with a fault. -/
def fail {α : Type} (message : String) : Parse α := fun s =>
  .error ⟨message, s.depth > 0⟩ s

/-- Ends the parse at a token that cannot stand here; if it is no token, with the fault of it. -/
def unexpected {α : Type} : Parse α := fun s =>
  match s.token.form, s.tokenFaults with
  | .invalid, fault :: faults => .error ⟨fault, s.depth > 0⟩ { s with tokenFaults := faults }
  | _, _ => .error ⟨"Unexpected token", s.depth > 0⟩ s

/-- Remembers what has been named in a type. -/
def noteAside (e : Expr) : Parse Unit :=
  modify fun s => { s with asides := e :: s.asides }

/-! ## The current token -/

/-- The current token. -/
def current : Parse Token := return (← get).token

/-- What the current token is. -/
def form : Parse Form := return (← get).token.form

/-- The current token is the given symbol. -/
def atSymbol (text : String) : Parse Bool := return (← form).isSymbol text

/-- The current token is the given word. -/
def atWord (text : String) : Parse Bool := return (← form).isWord text

/-- The current token is one of the given words. -/
def atAnyWord (words : List String) : Parse Bool := do
  match ← form with
  | .word text _ => pure (words.contains text)
  | _ => pure false

/-- The text is at its end. -/
def atEnd : Parse Bool := return (← form) == .eof

/-- A line break lies before the current token. -/
def afterBreak : Parse Bool := return (← get).token.afterBreak

/-- The dialect of the file. -/
def dialect : Parse Dialect := return (← get).dialect

/-- The file may hold types. -/
def hasTypes : Parse Bool := return (← get).dialect.hasTypes

/-- The context of the current token. -/
def context : Parse Context := return (← get).context

/-! ## Passing tokens -/

/-- The state behind the current token. -/
def State.next (s : State) : State :=
  let scan := nextToken false s.token.form s.rest
  { s with
    token := scan.token
    rest := scan.rest
    previous := s.token
    comments := scan.comments.reverse ++ s.comments
    tokenFaults := scan.faults.reverse ++ s.tokenFaults }

/-- Passes the current token, whatever it is. -/
def skip : Parse Unit := modify State.next

/-- Passes the current token; a keyword must not be written with escapes. -/
def advance : Parse Unit := do
  match ← form with
  | .word text true =>
    if isKeyword text then note "Keywords cannot contain escape characters"
  | _ => pure ()
  skip

/-- Passes the given symbol if it is there. -/
def eat (text : String) : Parse Bool := do
  if ← atSymbol text then
    advance
    pure true
  else pure false

/-- Passes the given word if it is there. -/
def eatWord (text : String) : Parse Bool := do
  if ← atWord text then
    advance
    pure true
  else pure false

/-- The message about a missing token. -/
def expectedMessage (expected : String) (found : Form) : String :=
  "Expected \x60" ++ expected ++ "\x60 but found \x60" ++ found.name ++ "\x60"

/-- The parser passes a token behind the fault, which is then the end of the text. -/
def failExpected {α : Type} (expected : String) : Parse α := do
  let found ← form
  fun s => .error ⟨expectedMessage expected found, true⟩ s

/-- Passes the given symbol, which has to be there. -/
def expect (text : String) : Parse Unit := do
  if ← atSymbol text then advance else failExpected text

/-- Passes the given word, which has to be there. -/
def expectWord (text : String) : Parse Unit := do
  if ← atWord text then advance else failExpected text

/-! ## Going back -/

/-- Tries a parser; if it fails, nothing has happened. -/
def attempt {α : Type} (p : Parse α) : Parse (Option α) := fun s =>
  match p s with
  | .ok a s' => .ok (some a) s'
  | .error _ _ => .ok none s

/-- Tries a parser that may also give up. -/
def attempt? {α : Type} (p : Parse (Option α)) : Parse (Option α) := fun s =>
  match p s with
  | .ok (some a) s' => .ok (some a) s'
  | _ => .ok none s

/-- What a parser says about the text to come, of which nothing is passed. -/
def lookahead (p : Parse Bool) : Parse Bool := fun s =>
  match p s with
  | .ok b _ => .ok b s
  | .error _ _ => .ok false s

/-! ## Contexts -/

/-- Parses in another context. -/
def within {α : Type} (f : Context → Context) (p : Parse α) : Parse α := do
  let old := (← get).context
  modify fun s => { s with context := f old }
  let a ← p
  modify fun s => { s with context := old }
  pure a

/-- Parses something behind which something is still to be closed. -/
def inside {α : Type} (p : Parse α) : Parse α := do
  modify fun s => { s with depth := s.depth + 1 }
  let a ← p
  modify fun s => { s with depth := s.depth - 1 }
  pure a

/-- Parses something between two symbols. -/
def between {α : Type} (opening closing : String) (p : Parse α) : Parse α := do
  expect opening
  let a ← inside p
  expect closing
  pure a

/-! ## Semicolons -/

/-- A statement may end before the current token. -/
def canEnd : Parse Bool := do
  if ← afterBreak then pure true
  else
    match ← form with
    | .eof => pure true
    | .symbol text => pure (text == ";" || text == "\x7d")
    | _ => pure false

/-- Ends a statement: by a semicolon, or where one may be left out. -/
def endStatement : Parse Unit := do
  if ← eat ";" then pure ()
  else if ← canEnd then pure ()
  else fail "Expected a semicolon or an implicit semicolon after a statement, but found none"

/-! ## Lists -/

/-- A number that no more tokens than it are left. -/
def remaining : Parse Nat := return (← get).rest.length + 2

/-- Repeats a parser until it has nothing to give; the number bounds how often. -/
def repeatFrom {α : Type} (p : Parse (Option α)) : Nat → List α → Parse (List α)
  | 0, acc => pure acc.reverse
  | fuel + 1, acc => do
    match ← p with
    | some a => repeatFrom p fuel (a :: acc)
    | none => pure acc.reverse

/-- Repeats a parser until it has nothing to give. -/
def repeated {α : Type} (p : Parse (Option α)) : Parse (List α) := do
  repeatFrom p (← remaining) []

/-- Changes a value by a parser as long as that gives a new one; the number bounds how often. -/
def iterateFrom {α : Type} (p : α → Parse (Option α)) : Nat → α → Parse α
  | 0, a => pure a
  | fuel + 1, a => do
    match ← p a with
    | some b => iterateFrom p fuel b
    | none => pure a

/-- Changes a value by a parser as long as that gives a new one. -/
def iterated {α : Type} (p : α → Parse (Option α)) (a : α) : Parse α := do
  iterateFrom p (← remaining) a

/-- The message about a missing separator. -/
def separatorMessage (separator closing : String) (found : Form) : String :=
  "Expected \x60" ++ separator ++ "\x60 or \x60" ++ closing ++ "\x60 but found \x60" ++
    found.name ++ "\x60"

/-- The rest of a list behind one of its parts, with the flag that a separator stands behind the
last one; the number bounds how many there are. -/
def listRest {α : Type} (separator closing : String) (p : Parse α) :
    Nat → List α → Parse (List α × Bool)
  | 0, acc => pure (acc.reverse, false)
  | fuel + 1, acc => do
    if (← atSymbol closing) || (← atEnd) then pure (acc.reverse, false)
    else if ← eat separator then
      if ← atSymbol closing then pure (acc.reverse, true)
      else
        let a ← p
        listRest separator closing p fuel (a :: acc)
    else fail (separatorMessage separator closing (← form))

/-- A list up to its closing symbol, which is not passed, with the flag that a separator stands
behind the last part. -/
def listAndComma {α : Type} (separator closing : String) (p : Parse α) :
    Parse (List α × Bool) := do
  if (← atSymbol closing) || (← atEnd) then pure ([], false)
  else
    let a ← p
    listRest separator closing p (← remaining) [a]

/-- A list up to its closing symbol, which is not passed. A separator may stand behind the last
part. -/
def listUntil {α : Type} (separator closing : String) (p : Parse α) : Parse (List α) :=
  Prod.fst <$> listAndComma separator closing p

/-- A list between two symbols. -/
def listBetween {α : Type} (opening separator closing : String) (p : Parse α) :
    Parse (List α) :=
  between opening closing (listUntil separator closing p)

end ModuleLoader.Syntax.Parser
