import ModuleLoader.Failure
import ModuleLoader.Json.Value

/-! # Options of a loader

* **`Config`** holds the options, **`Config.default`** the ones that are used when nothing is said.
* **`Config.invalid?`** says what does not hold together in them.
* **`Config.text`** writes them. -/

namespace ModuleLoader

/-- How the imports of a module are found. -/
inductive ScanMode
  /-- By reading the module as a program. -/
  | syntaxTree
  /-- By searching its text. -/
  | text
deriving DecidableEq, Repr, Inhabited

/-- The name of a way to find imports. -/
def ScanMode.name : ScanMode → String
  | .syntaxTree => "ast"
  | .text => "regex"

/-- How elements are compiled. -/
structure JsxConfig where
  /-- The package that the functions making elements are imported from. -/
  importSource : String
  /-- Elements say where they stand in the source. -/
  development : Bool
deriving DecidableEq, Repr, Inhabited

/-- Elements are those of React, as they are for use. -/
def JsxConfig.default : JsxConfig := ⟨"react", false⟩

/-- The options of a loader. -/
structure Config where
  /-- The extensions tried, in order, for a specifier that has none. -/
  probeExtensions : List String
  /-- How long the answer to such a try may take, in milliseconds. -/
  probeTimeoutMs : UInt64
  /-- The extension assumed when all tries fail. -/
  fallbackExtension : String
  /-- The type of the blobs that hold compiled modules. -/
  blobMimeType : String
  /-- The origin in the URLs of the blobs. -/
  blobOrigin : String
  /-- How imports are found. -/
  scanMode : ScanMode
  /-- How elements are compiled. -/
  jsx : JsxConfig
deriving DecidableEq, Repr, Inhabited

namespace Config

/-- The options that are used when nothing is said. -/
def default : Config :=
  { probeExtensions := [".jsx", ".js", ".tsx", ".ts"]
    probeTimeoutMs := 2000
    fallbackExtension := ".js"
    blobMimeType := "application/javascript"
    blobOrigin := "null"
    scanMode := .syntaxTree
    jsx := JsxConfig.default }

/-! ## What holds together -/

/-- An extension is a dot with something behind it. -/
def isExtension (s : String) : Bool :=
  match s.toList with
  | '.' :: _ :: _ => true
  | _ => false

/-- Why options do not hold together, if they do not: an extension that is none, or a blank type. -/
def invalid? (c : Config) : Option String :=
  match (c.probeExtensions ++ [c.fallbackExtension]).find? fun e => !isExtension e with
  | some bad => some ("extension \x60" ++ bad ++ "\x60 must start with a dot")
  | none =>
    if c.blobMimeType.toList.all Text.isWhiteSpace then some "blobMimeType must not be empty"
    else none

/-- Options hold together exactly when every extension is one and the type is not blank. -/
theorem invalid?_eq_none_iff (c : Config) :
    c.invalid? = none ↔
      (∀ e ∈ c.probeExtensions, isExtension e = true) ∧ isExtension c.fallbackExtension = true ∧
        c.blobMimeType.toList.all Text.isWhiteSpace = false := by
  unfold invalid?
  cases hf : (c.probeExtensions ++ [c.fallbackExtension]).find? fun e => !isExtension e with
  | some bad =>
    have hb := List.find?_some hf
    have hm := List.mem_of_find?_eq_some hf
    simp only [reduceCtorEq, false_iff, not_and]
    intro h1 h2
    rcases List.mem_append.1 hm with h | h
    · simp [h1 bad h] at hb
    · simp only [List.mem_singleton] at h
      simp [h, h2] at hb
  | none =>
    have hn := List.find?_eq_none.1 hf
    have h1 : ∀ e ∈ c.probeExtensions, isExtension e = true := fun e he => by
      simpa using hn e (List.mem_append_left _ he)
    have h2 : isExtension c.fallbackExtension = true := by
      simpa using hn c.fallbackExtension (by simp)
    by_cases hb : c.blobMimeType.toList.all Text.isWhiteSpace = true
    · simp [hb]
    · simp only [Bool.not_eq_true] at hb
      simp only [hb]
      exact iff_of_true rfl ⟨h1, h2, trivial⟩

/-! ## Writing -/

/-- The text of a truth value. -/
def boolText (b : Bool) : String := if b then "true" else "false"

/-- A field of an object. -/
def field (name value : String) : String := Json.quote name ++ ":" ++ value

/-- An object with fields that are already written. -/
def object (fields : List String) : String :=
  "\x7b" ++ String.intercalate "," fields ++ "\x7d"

/-- A list of strings. -/
def textsText (xs : List String) : String :=
  "[" ++ String.intercalate "," (xs.map Json.quote) ++ "]"

/-- The options for elements as JSON. -/
def jsxText (j : JsxConfig) : String :=
  object [field "importSource" (Json.quote j.importSource),
    field "development" (boolText j.development)]

/-- The options as JSON, in the order of the fields. -/
def text (c : Config) : String :=
  object [field "probeExtensions" (textsText c.probeExtensions),
    field "probeTimeoutMs" (toString c.probeTimeoutMs.toNat),
    field "fallbackExtension" (Json.quote c.fallbackExtension),
    field "blobMimeType" (Json.quote c.blobMimeType),
    field "blobOrigin" (Json.quote c.blobOrigin),
    field "scanMode" (Json.quote c.scanMode.name),
    field "jsx" (jsxText c.jsx)]

end Config

end ModuleLoader
