import ModuleLoader.Syntax.Lexer.Escape
import ModuleLoader.Syntax.Lexer.Number
import ModuleLoader.Syntax.Lexer.Trivia

/-! # Reading tokens

* **`readForm`** reads the token at the start of a text.
* **`readRegex`**, **`readTemplate`**, **`readJsxText`**, **`readJsxString`** read the tokens that
  only the place tells apart from others.
* **`nextToken`** passes what lies between tokens and reads one. -/

namespace ModuleLoader.Syntax.Lexer

/-- A piece with no fault. -/
def Piece.sound (form : Form) (rest : List Char) : Piece := ⟨form, [], rest⟩

/-! ## Words -/

/-- What is behind the backslash of an identifier: a character, or the fault of it. -/
def readIdentifierEscape (isFirst : Bool) (cs : List Char) : Except String Char × List Char :=
  let fault : Except String Char := .error "Invalid Unicode escape sequence"
  match cs with
  | 'u' :: rest =>
    match readUnicode rest with
    | (none, rest) => (fault, rest)
    | (some n, rest) =>
      if 0xD800 ≤ n ∧ n ≤ 0xDFFF then (fault, rest)
      else
        let c := Char.ofNat n
        if if isFirst then Text.isIdentifierStart c else Text.isIdentifierPart c then (.ok c, rest)
        else (.error (unexpectedFault [c]), rest)
  | _ :: rest => (fault, rest)
  | [] => (fault, [])

/-- A word that has been read. -/
structure Word where
  /-- Its characters, last one first. -/
  reversed : List Char
  /-- A character was written by its number. -/
  isEscaped : Bool
  /-- The faults, last one first. -/
  faults : List String
  /-- The text behind it. -/
  rest : List Char
deriving Inhabited

/-- Reads on in a word; the number bounds the steps. -/
def readWordFrom : Nat → Bool → Word → Word
  | 0, _, w => w
  | fuel + 1, isFirst, w =>
    match w.rest with
    | [] => w
    | '\\' :: rest =>
      match readIdentifierEscape isFirst rest with
      | (.ok c, rest) =>
        readWordFrom fuel false { w with reversed := c :: w.reversed, isEscaped := true, rest }
      | (.error fault, rest) =>
        readWordFrom fuel false { w with faults := fault :: w.faults, isEscaped := true, rest }
    | c :: rest =>
      if if isFirst then Text.isIdentifierStart c else Text.isIdentifierPart c then
        readWordFrom fuel false { w with reversed := c :: w.reversed, rest }
      else w

/-- Reads a word. -/
def readWord (cs : List Char) : Word :=
  readWordFrom (cs.length + 1) true ⟨[], false, [], cs⟩

/-- The characters of a word in order. -/
def Word.text (w : Word) : String := String.ofList w.reversed.reverse

/-- Reads a private name behind its number sign. -/
def readPrivateName (cs : List Char) : Piece :=
  match cs with
  | c :: _ =>
    if Text.isIdentifierStart c || c == '\\' then
      let w := readWord cs
      ⟨.privateName w.text, w.faults.reverse, w.rest⟩
    else ⟨.invalid, [unexpectedFault cs], cs⟩
  | [] => ⟨.invalid, [unexpectedFault cs], cs⟩

/-! ## Strings -/

/-- A string that is being read. -/
structure StringState where
  /-- The pieces of its value, last one first. -/
  units : List Unit16
  /-- Its characters as written, last one first. -/
  written : List Char
  /-- Its faults, last one first. -/
  faults : List String
deriving Inhabited

/-- Reads on in a string; the number bounds the steps. -/
def readStringFrom (quote : Char) : Nat → StringState → List Char → Piece
  | 0, s, cs => ⟨.invalid, s.faults.reverse, cs⟩
  | _ + 1, s, [] => ⟨.invalid, ("Unterminated string" :: s.faults).reverse, []⟩
  | fuel + 1, s, '\\' :: rest =>
    let e := readEscape false rest
    let faults := if e.isSound then s.faults else "Invalid escape sequence" :: s.faults
    let written := (rest.take (rest.length - e.rest.length)).reverse ++ '\\' :: s.written
    readStringFrom quote fuel ⟨e.units.reverse ++ s.units, written, faults⟩ e.rest
  | fuel + 1, s, c :: rest =>
    if c == quote then
      ⟨.string ⟨stringValue s.units.reverse, s.units.any Unit16.isLone,
          some (quote, String.ofList s.written.reverse)⟩, s.faults.reverse, rest⟩
    else if c == '\n' || c == '\r' then
      ⟨.invalid, ("Unterminated string" :: s.faults).reverse, c :: rest⟩
    else
      readStringFrom quote fuel { s with units := .char c :: s.units, written := c :: s.written }
        rest

/-- Reads a string behind its first quote. -/
def readString (quote : Char) (cs : List Char) : Piece :=
  readStringFrom quote (cs.length + 1) ⟨[], [], []⟩ cs

/-- Reads on in a template up to its end or its next part; the number bounds the steps. -/
def readTemplateFrom : Nat → List Char → Bool → List Char → Piece
  | 0, _, _, cs => ⟨.invalid, [], cs⟩
  | _ + 1, _, _, [] => ⟨.invalid, ["Unterminated string"], []⟩
  | _ + 1, written, isSound, '\x60' :: rest =>
    .sound (.template (String.ofList written.reverse) true isSound) rest
  | _ + 1, written, isSound, '$' :: '\x7b' :: rest =>
    .sound (.template (String.ofList written.reverse) false isSound) rest
  | fuel + 1, written, isSound, '\\' :: rest =>
    let e := readEscape true rest
    let taken := (rest.take (rest.length - e.rest.length)).reverse
    readTemplateFrom fuel (taken ++ '\\' :: written) (isSound && e.isSound) e.rest
  | fuel + 1, written, isSound, c :: rest => readTemplateFrom fuel (c :: written) isSound rest

/-- Reads a template behind its opening mark, or goes on behind the brace that ends a part. -/
def readTemplate (cs : List Char) : Piece :=
  readTemplateFrom (cs.length + 1) [] true cs

/-! ## Regular expressions -/

/-- The flags of regular expressions in the order of the alphabet. -/
def regexFlags : List Char := ['d', 'g', 'i', 'm', 's', 'u', 'v', 'y']

/-- Splits off the pattern of a regular expression; `none` when it does not end on its line. -/
def splitPattern (isEscaped isClass : Bool) : List Char → Option (List Char × List Char)
  | [] => none
  | c :: rest =>
    if Text.isLineTerminator c then none
    else if isEscaped then (splitPattern false isClass rest).map fun p => (c :: p.1, p.2)
    else if c == '/' && !isClass then some ([], rest)
    else
      let isClass := c == '[' || (isClass && c != ']')
      (splitPattern (c == '\\') isClass rest).map fun p => (c :: p.1, p.2)

/-- The flags among some characters, and the faults of those that are none. -/
def readFlags (cs : List Char) : List Char × List String :=
  cs.foldl (fun (flags, faults) c =>
    if !regexFlags.contains c then
      (flags, faults ++ ["Unexpected flag " ++ c.toString ++ " in regular expression literal"])
    else if flags.contains c then
      (flags, faults ++
        ["Flag " ++ c.toString ++ " is mentioned twice in regular expression literal"])
    else (flags ++ [c], faults)) ([], [])

/-- Reads a regular expression behind its first slash. -/
def readRegex (cs : List Char) : Piece :=
  match splitPattern false false cs with
  | none =>
    ⟨.regex "" "", ["Unterminated regular expression"],
      (cs.dropWhile fun c => !Text.isLineTerminator c).drop 1⟩
  | some (pattern, rest) =>
    let isFlag (c : Char) : Bool := Text.isAsciiLetter c || Text.isDigit c || c == '_' || c == '$'
    let (flags, faults) := readFlags (rest.takeWhile isFlag)
    let sorted := regexFlags.filter flags.contains
    ⟨.regex (String.ofList pattern) (String.ofList sorted), faults, rest.dropWhile isFlag⟩

/-! ## Symbols -/

/-- The symbols by length, longest first. A `>` is always read alone. -/
def symbols : List String :=
  [">>>=", "...", "===", "!==", "**=", "<<=", "&&=", "||=", "??=",
    "=>", "==", "!=", "<=", "++", "--", "<<", "&&", "||", "??", "?.", "+=", "-=", "*=", "/=", "%=",
    "&=", "|=", "^=", "**",
    "\x7b", "\x7d", "(", ")", "[", "]", ";", ",", "<", ">", "+", "-", "*", "/", "%", "&", "|", "^",
    "!", "~", "?", ":", "=", ".", "@"]

/-- Reads a symbol. A question mark before a point and a digit stands alone. -/
def readSymbol? (cs : List Char) : Option (String × List Char) :=
  match cs with
  | '?' :: '.' :: d :: _ =>
    if Text.isDigit d then some ("?", cs.drop 1) else some ("?.", cs.drop 2)
  | '>' :: rest => some (">", rest)
  | _ =>
    (symbols.find? fun s => s.toList.isPrefixOf cs).map fun s => (s, cs.drop s.length)

/-- The symbols that start with `>`, longest first. -/
def angleSymbols : List String := [">>>=", ">>>", ">>=", ">>", ">="]

/-- Reads a symbol that starts with `>` to its full length. -/
def readAngle (cs : List Char) : String × List Char :=
  match angleSymbols.find? fun s => s.toList.isPrefixOf cs with
  | some s => (s, cs.drop s.length)
  | none => (">", cs.drop 1)

/-! ## Any token -/

/-- Reads the token at the start of a text. -/
def readForm (cs : List Char) : Piece :=
  match cs with
  | [] => .sound .eof []
  | c :: rest =>
    if Text.isIdentifierStart c || c == '\\' then
      let w := readWord cs
      ⟨.word w.text w.isEscaped, w.faults.reverse, w.rest⟩
    else if Text.isDigit c then readNumber cs
    else if c == '"' || c == '\x27' then readString c rest
    else if c == '\x60' then readTemplate rest
    else if c == '#' then readPrivateName rest
    else if c == '.' && (match rest with
        | d :: _ => Text.isDigit d
        | [] => false) then readNumber cs
    else
      match readSymbol? cs with
      | some (s, rest) => .sound (.symbol s) rest
      | none => ⟨.invalid, [unexpectedFault cs], rest⟩

/-! ## In elements -/

/-- The message about a character that the text of an element cannot hold. -/
def jsxTextFault (c : Char) : String :=
  let entity := if c == '>' then "&gt;" else "&rbrace;"
  "Unexpected token. Did you mean \x60\x7b'" ++ c.toString ++ "'\x7d\x60 or \x60" ++ entity ++
    "\x60?"

/-- Reads a child of an element: text, or the symbol that starts another child. -/
def readJsxChild (cs : List Char) : Piece :=
  match cs with
  | [] => .sound .eof []
  | '<' :: rest => .sound (.symbol "<") rest
  | '\x7b' :: rest => .sound (.symbol "\x7b") rest
  | _ =>
    let isText (c : Char) : Bool := c != '<' && c != '\x7b' && c != '>' && c != '\x7d'
    let text := cs.takeWhile isText
    let rest := cs.dropWhile isText
    match rest with
    | c :: more =>
      if c == '>' || c == '\x7d' then ⟨.invalid, [jsxTextFault c], more⟩
      else .sound (.jsxText (String.ofList text)) rest
    | [] => .sound (.jsxText (String.ofList text)) rest

/-- Reads a quoted attribute value behind its first quote; it holds no escapes. -/
def readJsxString (quote : Char) (cs : List Char) : Piece :=
  let text := cs.takeWhile (· != quote)
  match cs.dropWhile (· != quote) with
  | _ :: rest => .sound (.jsxText (String.ofList text)) rest
  | [] => ⟨.invalid, ["Unterminated string"], []⟩

/-- Reads on in the name of an element or attribute, which may have hyphens in it. -/
def readJsxNameTail (cs : List Char) : List Char × List Char :=
  let isTail (c : Char) : Bool := Text.isIdentifierPart c || c == '-'
  match cs with
  | '-' :: _ => (cs.takeWhile isTail, cs.dropWhile isTail)
  | _ => ([], cs)

/-! ## Tokens -/

/-- A token with the text behind it, the comments before it and all faults. -/
structure Scan where
  /-- The token. -/
  token : Token
  /-- The text behind it. -/
  rest : List Char
  /-- All comments before it. -/
  comments : List Comment
  /-- The faults in the comments and in it. -/
  faults : List String
deriving Inhabited

/-- Passes what lies behind a token and reads the next one. -/
def nextToken (isFirst : Bool) (before : Form) (cs : List Char) : Scan :=
  let isOpening := before.isSymbol "=" || before.isSymbol "("
  let t := readTrivia isFirst isOpening cs
  let p := readForm t.rest
  ⟨⟨p.form, t.hasBreak, t.leading.filter fun c => !saysPure c && !saysNoSideEffects c,
      t.comments.any saysPure, t.comments.any saysNoSideEffects, t.rest⟩,
    p.rest, t.comments, t.faults ++ p.faults⟩

end ModuleLoader.Syntax.Lexer
