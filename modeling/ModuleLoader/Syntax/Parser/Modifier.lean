import ModuleLoader.Syntax.Parser.Rules

/-! # Modifiers

The words before a declaration, member or parameter that change what it is. They are no keywords:
a word is a modifier if something follows it on its line that can have one.

* **`atModifier`** tells whether the current word is one.
* **`modifiersBefore`** reads the modifiers before something, **`memberModifiers`** those before a
  member of a class or of an object. -/

namespace ModuleLoader.Syntax.Parser

/-! ## What follows a modifier -/

/-- Something that can be the name of a member follows. -/
def atMemberName : Parse Bool := do
  match ← form with
  | .word _ _ | .string _ | .number _ _ | .bigint _ _ | .privateName _ => pure true
  | .symbol text => pure (text == "[")
  | _ => pure false

/-- Something that a modifier can stand before. -/
def canFollowModifier : Parse Bool := do
  match ← form with
  | .symbol text => pure (text == "[" || text == "\x7b" || text == "*" || text == "...")
  | _ => atMemberName

/-- The current word, one of the given, is a modifier of what follows on its line. -/
def atModifier (words : List String) : Parse Bool := do
  if ← atAnyWord words then
    lookahead do
      skip
      return !(← afterBreak) && (← canFollowModifier)
  else pure false

/-! ## Sorts of modifiers -/

/-- The modifiers that say who may use something. -/
def accessWords : List String := ["public", "private", "protected"]

/-- The modifiers of members that only types know. -/
def typeOnlyModifiers : List String :=
  accessWords ++ ["abstract", "override", "readonly", "declare"]

/-- The modifiers of other declarations, which no member can have. -/
def foreignModifiers : List String := ["const", "export", "in", "out"]

/-- The words that can be modifiers of a member of a class or of an object, apart from `static`. -/
def memberWords (inClass : Bool) : List String :=
  typeOnlyModifiers ++ ["accessor", "async"] ++
    if inClass then foreignModifiers else foreignModifiers.filter (· != "const")

/-! ## Faults -/

/-- The modifiers that a modifier has to stand before. -/
def laterModifiers (word : String) : List String :=
  if accessWords.contains word then ["override", "static", "accessor", "readonly", "async"]
  else if word == "static" then ["readonly", "async", "accessor", "override"]
  else if word == "override" then ["readonly", "accessor", "async"]
  else []

/-- What is wrong with a modifier behind others. -/
def modifierFault? (seen : List String) (word : String) : Option String :=
  if accessWords.contains word && seen.any accessWords.contains then
    some "Accessibility modifier already seen."
  else if seen.contains word then some ("'" ++ word ++ "' modifier already seen.")
  else ((laterModifiers word).find? seen.contains).map fun later =>
    "'" ++ word ++ "' modifier must precede '" ++ later ++ "' modifier."

/-- The message about a modifier of something that cannot have it. -/
def misplacedModifier (word : String) : String := "'" ++ word ++ "' modifier cannot be used here."

/-! ## Reading modifiers -/

/-- Passes a modifier behind others; gives all of them. -/
def modifierBehind (seen : List String) : Parse (List String) := do
  let word ← identifierName
  match modifierFault? seen word with
  | some message => note message
  | none => pure ()
  return seen ++ [word]

/-- The modifiers, of the given, before something. -/
def modifiersBefore (words : List String) : Parse (List String) :=
  iterated (fun seen => do
    if ← atModifier words then return some (← modifierBehind seen)
    return none) []

/-- A `static` before a member follows, which may stand on the next line. Before a block in a class
it is none. -/
def atStatic (inClass : Bool) : Parse Bool := do
  if ← atWord "static" then
    lookahead do
      skip
      return !(inClass && (← atSymbol "\x7b")) && (← canFollowModifier)
  else pure false

/-- The modifiers before a member of a class or of an object; `static` is one only once. -/
def memberModifiers (inClass : Bool) : Parse (List String) :=
  iterated (fun seen => do
    if !seen.contains "static" && (← atStatic inClass) then return some (← modifierBehind seen)
    if ← atModifier (memberWords inClass) then return some (← modifierBehind seen)
    return none) []

/-- Notes the modifiers that something cannot have. -/
def checkMisplaced (allowed words : List String) : Parse Unit := do
  for word in words do
    if !allowed.contains word then note (misplacedModifier word)

end ModuleLoader.Syntax.Parser
