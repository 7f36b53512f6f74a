import ModuleLoader.Syntax.Parser.Modifier
import ModuleLoader.Syntax.Parser.Target

/-! # Types

Types are read to find where they end; nothing of them is kept but what they name.

* **`typeOf`** passes a type, **`typeArguments`** and **`typeParameters`** lists of them.
* **`returnType`** passes what stands behind the parameters of a function.
* **`typeMembersOf`** passes the members of an object type. -/

namespace ModuleLoader.Syntax.Parser

/-! ## Angle brackets -/

/-- Splits a symbol that starts with `<` so that the angle bracket stands alone. -/
def splitLess : Parse Unit :=
  modify fun s =>
    match s.token.form, s.token.start with
    | .symbol text, '<' :: rest =>
      if text == "<<" || text == "<=" || text == "<<=" then
        { s with token := { s.token with form := .symbol "<" }, rest := rest }
      else s
    | _, _ => s

/-- The types in angle brackets. -/
def typeArguments (r : Rules) : Parse Unit := do
  splitLess
  let types ← listBetween "<" "," ">" r.type
  if types.isEmpty then note "Type argument list cannot be empty."

/-- The types in angle brackets, if there are any on the same line. -/
def optionalTypeArguments (r : Rules) : Parse Unit := do
  splitLess
  if (← atSymbol "<") && !(← afterBreak) then typeArguments r

/-- A name that a type binds. -/
def typeName : Parse Unit := do
  noteAside (.ident (← bindingName))

/-- One parameter of a type. -/
def typeParameter (r : Rules) : Parse Unit := do
  let _ ← repeated do
    if ← atAnyWord ["const", "in", "out"] then
      let isModifier ← lookahead do
        skip
        return Form.isAnyWord (← form)
      if isModifier then
        advance
        return some ()
    return none
  typeName
  if ← eatWord "extends" then r.type
  if ← eat "=" then r.type

/-- The parameters of a type in angle brackets, if there are any. -/
def typeParameters (r : Rules) : Parse Unit := do
  if (← hasTypes) && (← atSymbol "<") then
    let parameters ← listBetween "<" "," ">" (typeParameter r)
    if parameters.isEmpty then note "Type parameter list cannot be empty."

/-! ## Functions -/

/-- One parameter of a function type. -/
def typeFunctionParameter (r : Rules) : Parse Unit := do
  let _ ← eat "..."
  if ← atWord "this" then advance else noteAside (← r.target)
  let _ ← eat "?"
  typeAnnotation r
  let _ ← withDefault r .absent
  pure ()

/-- The parameters of a function type. -/
def typeFunctionParameters (r : Rules) : Parse Unit := do
  let _ ← listBetween "(" "," ")" (typeFunctionParameter r)
  pure ()

/-- The type of a result: a type, or what a test tells about its parameter. -/
def resultType (r : Rules) : Parse Unit := do
  if ← atWord "asserts" then
    let isAssertion ← lookahead do
      skip
      return !(← afterBreak) && (Form.isName (← form) || (← atWord "this"))
    if isAssertion then
      advance
      advance
      if (← atWord "is") && !(← afterBreak) then
        advance
        r.type
      return
  if Form.isName (← form) || (← atWord "this") then
    let isTest ← lookahead do
      skip
      return (← atWord "is") && !(← afterBreak)
    if isTest then
      advance
      advance
      return ← r.type
  within (fun c => { c with noConditionalTypes := false }) r.type

/-- The type behind the parameters of a function, where types may be written. -/
def returnType (r : Rules) : Parse Unit := do
  if (← hasTypes) && (← atSymbol ":") then
    advance
    resultType r

/-- A function type follows, and nothing else can. -/
def startsFunctionType (r : Rules) : Parse Bool :=
  lookahead do
    if ← atSymbol "<" then return true
    if ← atWord "new" then return true
    if ← atWord "abstract" then
      skip
      return ← atWord "new"
    if !(← atSymbol "(") then return false
    skip
    if (← atSymbol ")") || (← atSymbol "...") then return true
    if (← atSymbol "[") || (← atSymbol "\x7b") then
      let _ ← r.target
      pure ()
    else if Form.isName (← form) || (← atWord "this") then skip
    else return false
    match ← form with
    | .symbol text =>
      if text == ":" || text == "," || text == "?" || text == "=" then return true
      if text == ")" then
        skip
        return ← atSymbol "=>"
      return false
    | _ => return false

/-- A function type, of a plain function or a constructor. -/
def functionType (r : Rules) : Parse Unit := do
  if ← atWord "abstract" then advance
  let _ ← eatWord "new"
  typeParameters r
  typeFunctionParameters r
  expect "=>"
  resultType r

/-! ## Object types -/

/-- Ends a member of an object type. -/
def endTypeMember : Parse Unit := do
  if ← eat ";" then pure ()
  else if ← eat "," then pure ()
  else if ← canEnd then pure ()
  else fail "Expected a semicolon or an implicit semicolon after a statement, but found none"

/-- An index signature follows. -/
def startsIndexSignature : Parse Bool :=
  lookahead do
    if !(← atSymbol "[") then return false
    skip
    if !Form.isName (← form) then return false
    skip
    atSymbol ":"

/-- An index signature. -/
def indexSignature (r : Rules) : Parse Unit := do
  between "[" "]" do
    let _ ← bindingName
    expect ":"
    r.type
  if !(← atSymbol ":") then return ← unexpected
  typeAnnotation r

/-- Notes the modifiers that an index signature cannot have. -/
def checkIndexModifiers (words : List String) : Parse Unit := do
  for word in words do
    if word != "readonly" && word != "static" then
      note ("'" ++ word ++ "' modifier cannot appear on an index signature.")

/-- The word stands before the name of a member and is none itself. -/
def isBeforeName : Parse Bool :=
  lookahead do
    skip
    atMemberName

/-- A property or method of an object type. -/
def typeProperty (r : Rules) : Parse Unit := do
  match ← propertyKey r with
  | .computed e => noteAside e
  | _ => pure ()
  let _ ← eat "?"
  if (← atSymbol "(") || (← atSymbol "<") then
    typeParameters r
    typeFunctionParameters r
    returnType r
  else typeAnnotation r

/-- One member of an object type. -/
def typeMember (r : Rules) : Parse Unit := do
  if (← atSymbol "(") || (← atSymbol "<") then
    typeParameters r
    typeFunctionParameters r
    returnType r
    return ← endTypeMember
  if ← atWord "new" then
    let isConstructor ← lookahead do
      skip
      return (← atSymbol "(") || (← atSymbol "<")
    if isConstructor then
      advance
      typeParameters r
      typeFunctionParameters r
      returnType r
      return ← endTypeMember
  let words ← modifiersBefore
    (typeOnlyModifiers ++ foreignModifiers ++ ["accessor", "async", "static"])
  if ← startsIndexSignature then
    indexSignature r
    checkIndexModifiers words
    return ← endTypeMember
  if (← atAnyWord ["get", "set"]) && (← isBeforeName) then advance
  typeProperty r
  for word in words do
    if word != "readonly" then note ("'" ++ word ++ "' modifier cannot appear on a type member.")
  endTypeMember

/-- The members of an object type with its braces. -/
def typeMembersOf (r : Rules) : Parse Unit :=
  between "\x7b" "\x7d" do
    let _ ← repeated do
      if (← atSymbol "\x7d") || (← atEnd) then return none
      typeMember r
      return some ()
    pure ()

/-- A mapped type follows. -/
def startsMappedType : Parse Bool :=
  lookahead do
    skip
    if (← atSymbol "+") || (← atSymbol "-") then
      skip
      return ← atWord "readonly"
    if ← atWord "readonly" then skip
    if !(← atSymbol "[") then return false
    skip
    if !Form.isAnyWord (← form) then return false
    skip
    atWord "in"

/-- A mapped type. -/
def mappedType (r : Rules) : Parse Unit :=
  between "\x7b" "\x7d" do
    if (← atSymbol "+") || (← atSymbol "-") then
      advance
      expectWord "readonly"
    else
      let _ ← eatWord "readonly"
    between "[" "]" do
      noteAside (.ident (← identifierName))
      expectWord "in"
      r.type
      if ← eatWord "as" then r.type
    if (← atSymbol "+") || (← atSymbol "-") then
      advance
      expect "?"
    else
      let _ ← eat "?"
    typeAnnotation r
    if !(← eat ",") then
      let _ ← eat ";"

/-! ## Tuples, templates and names -/

/-- One element of a tuple, which may be named. -/
def tupleElement (r : Rules) : Parse Unit := do
  let _ ← eat "..."
  let isNamed ← lookahead do
    if !Form.isAnyWord (← form) then return false
    skip
    if ← atSymbol ":" then return true
    if !(← atSymbol "?") then return false
    skip
    atSymbol ":"
  if isNamed then
    advance
    let _ ← eat "?"
    expect ":"
  r.type
  let _ ← eat "?"

/-- Reads on in a template behind the brace that ends a part. -/
def continueTemplate : Parse Unit := do
  if ← atSymbol "\x7d" then
    modify fun s =>
      let p := Lexer.readTemplate (s.token.start.drop 1)
      { s with
        token := { s.token with form := p.form }
        rest := p.rest
        tokenFaults := p.faults.reverse ++ s.tokenFaults }
  else failExpected "\x7d"

/-- The type of a template. -/
def templateType (r : Rules) : Parse Unit := do
  let _ ← repeated do
    match ← form with
    | .template _ true _ =>
      skip
      return none
    | .template _ false _ =>
      skip
      inside r.type
      continueTemplate
      return some ()
    | _ => failExpected "\x7d"
  pure ()

/-- Names joined by points. -/
def qualifiedName : Parse (List String) := do
  let first ← identifierName
  let more ← repeated do
    if ← eat "." then return some (← identifierName) else return none
  return first :: more

/-- Names joined by points, of which the first is that of a variable or type. -/
def variableName : Parse Unit := do
  let names ← qualifiedName
  for name in names.take 1 do noteAside (.ident name)

/-- The type of what a module exports. -/
def importType (r : Rules) : Parse Unit := do
  expectWord "import"
  between "(" ")" do
    r.type
    if ← eat "," then
      if !(← atSymbol ")") then
        let _ ← r.assign
        let _ ← eat ","
  if ← eat "." then
    let _ ← qualifiedName
  optionalTypeArguments r

/-- The type of a variable. -/
def typeQuery (r : Rules) : Parse Unit := do
  expectWord "typeof"
  if ← atWord "import" then importType r
  else
    variableName
    optionalTypeArguments r

/-- A named type. -/
def typeReference (r : Rules) : Parse Unit := do
  if !Form.isName (← form) then return ← unexpected
  variableName
  optionalTypeArguments r

/-- Named types, separated by commas. -/
def namedTypes (r : Rules) : Parse Unit := do
  typeReference r
  let _ ← repeated do
    if ← eat "," then
      typeReference r
      return some ()
    return none
  pure ()

/-! ## Types -/

/-- The reserved words that start a type. -/
def typeWords : List String :=
  ["typeof", "void", "null", "true", "false", "this", "new", "import", "function"]

/-- A mark that a type may be missing or is unknown stands before what follows. -/
def isUnknownType : Parse Bool := do
  match ← form with
  | .symbol text => return [",", "\x7d", ")", ">", "=", "|"].contains text
  | _ => return false

/-- A type that no operator joins. -/
def primaryType (r : Rules) : Parse Unit := do
  match ← form with
  | .string _ | .number _ _ | .bigint _ _ => skip
  | .template _ _ _ => templateType r
  | .symbol "-" =>
    skip
    if Form.isNumber (← form) then skip else unexpected
  | .symbol "?" =>
    skip
    if !(← isUnknownType) then r.type
  | .symbol "\x7b" => if ← startsMappedType then mappedType r else r.typeMembers
  | .symbol "[" =>
    let _ ← listBetween "[" "," "]" (tupleElement r)
    pure ()
  | .symbol "(" =>
    between "(" ")" (within (fun c => { c with noConditionalTypes := false }) r.type)
  | .word text _ =>
    if text == "true" || text == "false" || text == "null" || text == "void" || text == "this" then
      skip
    else if text == "typeof" then typeQuery r
    else if text == "import" then importType r
    else typeReference r
  | _ => unexpected

/-- Something that starts a type follows. -/
def startsType : Parse Bool := do
  match ← form with
  | .word text _ => return !isReserved text || typeWords.contains text
  | .string _ | .number _ _ | .bigint _ _ | .template _ _ _ => return true
  | .symbol "-" =>
    lookahead do
      skip
      return Form.isNumber (← form)
  | .symbol text =>
    return ["\x7b", "[", "(", "<", "<<", "|", "&", "*", "?", "!"].contains text
  | _ => return false

/-- A question mark behind a type says that it may be missing, unless a type follows. -/
def atMissingMark : Parse Bool := do
  if ← atSymbol "?" then
    lookahead do
      skip
      return !(← startsType)
  else return false

/-- A type with the brackets and marks behind it. -/
def postfixType (r : Rules) : Parse Unit := do
  if ← atSymbol "!" then advance
  primaryType r
  let _ ← repeated do
    if ← afterBreak then return none
    if ← atSymbol "[" then
      between "[" "]" do
        if !(← atSymbol "]") then r.type
      return some ()
    if ← eat "!" then return some ()
    if ← atMissingMark then
      advance
      return some ()
    return none
  pure ()

/-- What an `infer` names, with the type that bounds it unless a question mark follows that. -/
def inferredType (r : Rules) : Parse Unit := do
  typeName
  let noConditional := (← context).noConditionalTypes
  let _ ← attempt? do
    if !(← eatWord "extends") then return none
    within (fun c => { c with noConditionalTypes := true }) r.type
    if noConditional || !(← atSymbol "?") then return some () else return none
  pure ()

/-- A type with the words before it. -/
def operatorType (r : Rules) : Parse Unit := do
  let _ ← repeated do
    if ← atAnyWord ["keyof", "unique", "readonly"] then
      advance
      return some ()
    return none
  if ← eatWord "infer" then inferredType r else postfixType r

/-- Types joined by a symbol, which may also stand before the first. -/
def joinedTypes (symbol : String) (p : Parse Unit) : Parse Unit := do
  let _ ← eat symbol
  p
  let _ ← repeated do
    if ← eat symbol then
      p
      return some ()
    return none
  pure ()

/-- A type. -/
def typeOf (r : Rules) : Parse Unit := do
  if ← startsFunctionType r then return ← functionType r
  joinedTypes "|" (joinedTypes "&" do
    if ← startsFunctionType r then functionType r else operatorType r)
  if !(← context).noConditionalTypes && !(← afterBreak) && (← atWord "extends") then
    advance
    within (fun c => { c with noConditionalTypes := true }) r.type
    expect "?"
    within (fun c => { c with noConditionalTypes := false }) r.type
    expect ":"
    within (fun c => { c with noConditionalTypes := false }) r.type

end ModuleLoader.Syntax.Parser
