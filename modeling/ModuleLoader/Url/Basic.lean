import ModuleLoader.Text.Percent

/-! # URLs

A URL in parsed form and its text. Every module is named by an absolute URL, so two modules are
the same exactly when their URLs are equal.

* **`Url`** holds scheme, authority, path, query and fragment, each already normalised.
* **`Url.text`** writes the URL, **`Url.pathText`** its path alone.
* **`Url.Failure`** lists why a text is no URL. -/

namespace ModuleLoader

/-- The host part of a URL with the user before it and the port after it. -/
structure Url.Authority where
  /-- The user name, percent-encoded; empty when absent. -/
  username : String
  /-- The password, percent-encoded; empty when absent. -/
  password : String
  /-- The host as it is written. -/
  host : String
  /-- The port, when it is not the scheme's own. -/
  port : Option Nat
deriving DecidableEq, Repr, Inhabited

/-- The path of a URL. -/
inductive Url.Path
  /-- A path with no hierarchy, as of `data:` and `mailto:` URLs; nothing can be joined to it. -/
  | rootless (text : String)
  /-- The segments of a path, each preceded by a slash. -/
  | segments (names : List String)
deriving DecidableEq, Repr, Inhabited

/-- A URL in normal form. -/
structure Url where
  /-- The scheme in small letters, without its colon. -/
  scheme : String
  /-- What follows `//`, if anything does. -/
  authority : Option Url.Authority
  /-- The path. -/
  path : Url.Path
  /-- The query without its question mark. -/
  query : Option String
  /-- The fragment without its number sign. -/
  fragment : Option String
deriving DecidableEq, Repr, Inhabited

/-- Why a text is not a URL. -/
inductive Url.Failure
  /-- The scheme needs a host and there is none. -/
  | emptyHost
  /-- The host has a character that no domain has. -/
  | badDomain
  /-- An opaque host has a character that no host has. -/
  | badDomainCharacter
  /-- The port is no number below 65536. -/
  | badPort
  /-- The host ends in a number but is no IPv4 address. -/
  | badIpv4
  /-- The host is bracketed but is no IPv6 address. -/
  | badIpv6
  /-- A relative reference with nothing to join it to. -/
  | noBase
  /-- A relative reference to be joined to a path without hierarchy. -/
  | rootlessBase
deriving DecidableEq, Repr, Inhabited

namespace Url

/-- The wording of a failure. -/
def Failure.message : Failure → String
  | .emptyHost => "empty host"
  | .badDomain => "invalid international domain name"
  | .badDomainCharacter => "invalid domain character"
  | .badPort => "invalid port number"
  | .badIpv4 => "invalid IPv4 address"
  | .badIpv6 => "invalid IPv6 address"
  | .noBase => "relative URL without a base"
  | .rootlessBase => "relative URL with a cannot-be-a-base base"

/-! ## Schemes -/

/-- The schemes whose URLs always have a host and a path. -/
def isSpecialScheme (scheme : String) : Bool :=
  scheme == "http" || scheme == "https" || scheme == "ws" || scheme == "wss" ||
    scheme == "ftp" || scheme == "file"

/-- The port that a scheme uses when none is written. -/
def defaultPort (scheme : String) : Option Nat :=
  if scheme == "http" || scheme == "ws" then some 80
  else if scheme == "https" || scheme == "wss" then some 443
  else if scheme == "ftp" then some 21
  else none

/-! ## The text of a URL -/

/-- The segments of a path, each behind a slash. -/
def segmentsText (names : List String) : String :=
  String.join (names.map ("/" ++ ·))

/-- The path as it is written. -/
def Path.text : Path → String
  | .rootless text => text
  | .segments names => segmentsText names

/-- User, host and port as they are written. -/
def Authority.text (a : Authority) : String :=
  let password := if a.password.isEmpty then "" else ":" ++ a.password
  let user := if a.username.isEmpty && a.password.isEmpty then "" else a.username ++ password ++ "@"
  let port := match a.port with
    | none => ""
    | some n => ":" ++ toString n
  user ++ a.host ++ port

/-- The path as it is written. -/
def pathText (u : Url) : String :=
  u.path.text

/-- The URL as it is written. A path that would read as an authority is kept apart by `/.`. -/
def text (u : Url) : String :=
  let authority := match u.authority, u.path with
    | some a, _ => "//" ++ a.text
    | none, .segments ("" :: _ :: _) => "/."
    | none, _ => ""
  let query := match u.query with
    | none => ""
    | some q => "?" ++ q
  let fragment := match u.fragment with
    | none => ""
    | some f => "#" ++ f
  u.scheme ++ ":" ++ authority ++ u.path.text ++ query ++ fragment

instance : ToString Url := ⟨Url.text⟩

/-- A URL with a path that has no hierarchy cannot be a base. -/
def isRootless (u : Url) : Bool :=
  match u.path with
  | .rootless _ => true
  | .segments _ => false

end Url

end ModuleLoader
