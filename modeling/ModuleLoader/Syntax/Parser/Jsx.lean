import ModuleLoader.Syntax.Parser.Type

/-! # Elements

Elements and fragments, whose children are read by rules of their own: text goes up to a brace or
an angle bracket, and names have hyphens in them.

* **`elementRest`** reads an element or fragment behind its first angle bracket. -/

namespace ModuleLoader.Syntax.Parser

/-! ## Tokens -/

/-- Passes the given symbol, behind which children stand. -/
def expectChild (text : String) : Parse Unit := do
  if ← atSymbol text then
    modify fun s =>
      let p := Lexer.readJsxChild s.rest
      { s with
        token := .bare p.form s.rest
        rest := p.rest
        tokenFaults := p.faults.reverse ++ s.tokenFaults }
  else failExpected text

/-- Passes the given symbol, behind which children stand if that is so. -/
def expectBefore (inChild : Bool) (text : String) : Parse Unit :=
  if inChild then expectChild text else expect text

/-- Passes the equals sign before the value of an attribute. -/
def expectValue : Parse Unit := do
  let s ← get
  match s.rest with
  | c :: more =>
    if c == '"' || c == '\x27' then
      let p := Lexer.readJsxString c more
      set { s with
        token := .bare p.form s.rest
        rest := p.rest
        tokenFaults := p.faults.reverse ++ s.tokenFaults }
    else advance
  | [] => advance

/-- A name as it is written, which may have hyphens in it. -/
def elementWord : Parse String := do
  match ← form with
  | .word text isEscaped =>
    let s ← get
    let (tail, rest) := Lexer.readJsxNameTail s.rest
    let written := s.token.start
    set { s with rest }
    skip
    if isEscaped then return String.ofList (written.take (written.length - rest.length))
    return text ++ String.ofList tail
  | _ => unexpected

/-- A name that must not have hyphens in it. -/
def memberWord : Parse String := do
  let word ← elementWord
  if word.toList.contains '-' then fail "Identifiers in JSX cannot contain hyphens"
  return word

/-! ## Names and attributes -/

/-- The name of an element. -/
def elementName : Parse ElementName := do
  let first ← elementWord
  if ← eat ":" then return .namespaced first (← elementWord)
  if ← atSymbol "." then
    if first.toList.contains '-' then fail "Identifiers in JSX cannot contain hyphens"
    let names ← repeated do
      if ← eat "." then return some (← memberWord) else return none
    return .member first names
  return .plain first

/-- The context of an expression in braces, which knows of what is around it only whether it may
wait. -/
def containerContext (c : Context) : Context :=
  { allowsIn := true, allowsAwait := c.allowsAwait, allowsYield := false, allowsReturn := false,
    isDecorator := false, isAmbient := false, noConditionalTypes := false }

/-- An expression in braces, which are still to be closed. -/
def containedExpression (r : Rules) : Parse Expr := inside (within containerContext r.expression)

/-- An expression behind its brace, with the closing one and the comments before it. -/
def container (r : Rules) (inChild : Bool) : Parse Expr := do
  if ← atSymbol "\x7d" then
    expectBefore inChild "\x7d"
    return .container .absent
  let comments ← leadingComments
  let e ← containedExpression r
  expectBefore inChild "\x7d"
  return .container (withComments comments e)

/-- The value of an attribute behind its equals sign. -/
def attributeValue (r : Rules) : Parse Expr := do
  let comments ← leadingComments
  match ← form with
  | .jsxText written =>
    skip
    return .jsxText written
  | .string literal =>
    skip
    return withComments comments (.jsxText literal.value)
  | .symbol "\x7b" =>
    advance
    let e ← container r false
    match e with
    | .container .absent =>
      note "JSX attributes must only be assigned a non-empty 'expression'."
    | _ => pure ()
    return e
  | .symbol "<" =>
    let tail := (← current).start.length
    advance
    return withComments comments (← r.element tail false)
  | _ => unexpected

/-- One attribute. -/
def jsxAttribute (r : Rules) : Parse Property := do
  if ← eat "\x7b" then
    expect "..."
    let e ← containedExpression r
    expect "\x7d"
    return .spread e
  let first ← elementWord
  let (space, name) ← if ← eat ":" then (do return (some first, ← elementWord))
    else pure (none, first)
  if ← atSymbol "=" then
    expectValue
    return .jsxAttribute space name (← attributeValue r)
  return .jsxAttribute space name .absent

/-- The attributes of an element. -/
def jsxAttributes (r : Rules) : Parse (List Property) :=
  repeated do
    match ← form with
    | .symbol text =>
      if text == "<" || text == ">" || text == "/" then return none
    | _ => pure ()
    return some (← jsxAttribute r)

/-! ## Children -/

/-- The angle bracket that closes a tag, of which the comments before it are given. -/
def closingAngle (inChild : Bool) : Parse (List Comment) := do
  let comments ← leadingComments
  expectBefore inChild ">"
  return comments

/-- The children of an element up to the slash of its closing tag; the number bounds how many there
are. -/
def childrenFrom (r : Rules) : Nat → List Expr → Parse (List Expr)
  | 0, _ => unexpected
  | fuel + 1, acc => do
    match ← form with
    | .jsxText written =>
      modify fun s =>
        let p := Lexer.readJsxChild s.rest
        { s with
          token := .bare p.form s.rest
          rest := p.rest
          tokenFaults := p.faults.reverse ++ s.tokenFaults }
      childrenFrom r fuel (.jsxText written :: acc)
    | .symbol "\x7b" =>
      advance
      if ← eat "..." then
        let e ← containedExpression r
        expectChild "\x7d"
        childrenFrom r fuel (.spread e :: acc)
      else
        let e ← container r true
        childrenFrom r fuel (e :: acc)
    | .symbol "<" =>
      let tail := (← current).start.length
      advance
      if ← eat "/" then return acc.reverse
      let e ← r.element tail true
      childrenFrom r fuel (e :: acc)
    | _ => unexpected

/-- The children of an element up to the name in its closing tag. -/
def children (r : Rules) : Parse (List Expr) := do
  childrenFrom r (← remaining) []

/-- The name of an element as it is written. -/
def ElementName.text : ElementName → String
  | .plain name => name
  | .member object properties => String.intercalate "." (object :: properties)
  | .namespaced space name => space ++ ":" ++ name

/-- An element or fragment behind its first angle bracket. -/
def elementRest (r : Rules) (tail : Nat) (inChild : Bool) : Parse Expr := do
  if ← atSymbol ">" then
    expectChild ">"
    let kids ← inside (children r)
    return .fragment (← closingAngle inChild) kids
  if !Form.isAnyWord (← form) then return ← unexpected
  let opening ← leadingComments
  let name ← elementName
  if ← hasTypes then optionalTypeArguments r
  let attrs ← jsxAttributes r
  if ← eat "/" then return .element tail opening (← closingAngle inChild) name attrs []
  expectChild ">"
  let kids ← children r
  let closingName ← inside elementName
  let closing ← closingAngle inChild
  if closingName != name then
    note ("Expected corresponding JSX closing tag for '" ++ ElementName.text name ++ "'.")
  return .element tail opening closing name attrs kids

end ModuleLoader.Syntax.Parser
