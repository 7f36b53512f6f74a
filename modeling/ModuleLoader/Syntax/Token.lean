import ModuleLoader.Syntax.Tree

/-! # Tokens

The tokens of JavaScript and the words among them.

* **`Token`** is a token with what lies before it.
* **`Form`** is what a token is; **`Form.name`** is how messages call it.
* **`isReserved`**, **`isKeyword`** class the words. -/

namespace ModuleLoader.Syntax

/-! ## Words -/

/-- The words that are never identifiers. -/
def reservedWords : List String :=
  ["await", "break", "case", "catch", "class", "const", "continue", "debugger", "default",
    "delete", "do", "else", "enum", "export", "extends", "finally", "for", "function", "if",
    "import", "in", "instanceof", "new", "return", "super", "switch", "this", "throw", "try",
    "typeof", "var", "void", "while", "with", "null", "true", "false"]

/-- The words that are identifiers in sloppy code only, or at some places. -/
def strictWords : List String :=
  ["let", "static", "implements", "interface", "package", "private", "protected", "public",
    "yield"]

/-- The words that have a meaning at some places and are identifiers elsewhere. -/
def contextualWords : List String :=
  ["async", "from", "get", "meta", "of", "set", "target", "accessor", "abstract", "as", "asserts",
    "assert", "any", "boolean", "constructor", "declare", "infer", "intrinsic", "is", "keyof",
    "module", "namespace", "never", "out", "readonly", "require", "number", "object", "satisfies",
    "string", "symbol", "type", "undefined", "unique", "using", "unknown", "global", "bigint",
    "override", "source", "defer"]

/-- The word is never an identifier; `await` and `yield` depend on their place. -/
def isReserved (word : String) : Bool := reservedWords.contains word

/-- The word has a meaning of its own somewhere. -/
def isKeyword (word : String) : Bool :=
  reservedWords.contains word || strictWords.contains word || contextualWords.contains word

/-! ## Forms -/

/-- How a number is written. -/
inductive NumberForm
  | decimal | float | exponential | binary | octal | hex
deriving DecidableEq, Repr, Inhabited

/-- How messages call a way to write numbers. -/
def NumberForm.name : NumberForm → String
  | .decimal => "decimal"
  | .float => "float"
  | .exponential => "exponential"
  | .binary => "binary"
  | .octal => "octal"
  | .hex => "hex"

/-- What a token is. -/
inductive Form
  | eof
  /-- Text that is no token. -/
  | invalid
  /-- An identifier or keyword. -/
  | word (text : String) (isEscaped : Bool)
  | privateName (name : String)
  | symbol (text : String)
  | number (form : NumberForm) (value : Binary64)
  | bigint (form : NumberForm) (value : Nat)
  | string (literal : StringLiteral)
  | regex (pattern flags : String)
  /-- The text of a template up to its end or its next part; its escapes may be wrong. -/
  | template (written : String) (isEnd isSound : Bool)
  | jsxText (written : String)
deriving DecidableEq, Repr, Inhabited

/-- How messages call a token. -/
def Form.name : Form → String
  | .eof => "EOF"
  | .invalid => "Unknown"
  | .word text isEscaped => if isKeyword text && !isEscaped then text else "Identifier"
  | .privateName _ => "PrivateIdentifier"
  | .symbol text => text
  | .number form _ => form.name
  | .bigint form _ => form.name
  | .string _ => "string"
  | .regex _ _ => "/regexp/"
  | .template _ true _ => "NoSubstitutionTemplate"
  | .template _ false _ => "TemplateHead"
  | .jsxText _ => "JSXText"

/-- The form is the given symbol. -/
def Form.isSymbol (f : Form) (text : String) : Bool :=
  match f with
  | .symbol t => t == text
  | _ => false

/-- The form is the given word, however it is written. -/
def Form.isWord (f : Form) (text : String) : Bool :=
  match f with
  | .word t _ => t == text
  | _ => false

/-- A token with what lies before it. -/
structure Token where
  /-- What the token is. -/
  form : Form
  /-- A line break lies before it. -/
  afterBreak : Bool
  /-- The comments before it that belong to it. -/
  comments : List Comment
  /-- A comment before it says that the call that follows has no effect. -/
  isPure : Bool
  /-- A comment before it says that the function that follows has no effect when called. -/
  isEffectFree : Bool
  /-- The text from its first character on. -/
  start : List Char
deriving Inhabited

/-- A token that nothing lies before. -/
def Token.bare (form : Form) (start : List Char) : Token := ⟨form, false, [], false, false, start⟩

end ModuleLoader.Syntax
