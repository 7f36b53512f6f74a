import ModuleLoader.Failure

/-! # Requests and answers

What the loader asks of a server, and how it judges the answers: a module is a successful answer
that is not a page, because a server that falls back to a page has no such module.

* **`Request`** is a request for a source or a probe for an extension.
* **`Response`** is an answer; **`Response.source`** is the module text in it or why there is none.
* **`Answer`** is a response, or the failure of the request itself. -/

namespace ModuleLoader

/-- What a request is for. -/
inductive Request.Purpose
  /-- The source of a module. -/
  | source
  /-- Whether a module is there, within a time in milliseconds. -/
  | probe (timeout : UInt64)
deriving DecidableEq, Repr, Inhabited

/-- A request, which no cache between loader and server may answer. -/
structure Request where
  /-- The URL asked for. -/
  url : Url
  /-- What the answer is for. -/
  purpose : Request.Purpose
deriving DecidableEq, Repr, Inhabited

/-- How long an answer may take, in milliseconds; sources may take any time. -/
def Request.timeout? (q : Request) : Option UInt64 :=
  match q.purpose with
  | .source => none
  | .probe timeout => some timeout

/-- The answer of a server. -/
structure Response where
  /-- The status code. -/
  status : Nat
  /-- The content type, if one is given. -/
  contentType : Option String
  /-- The text of the answer. -/
  body : String
deriving DecidableEq, Repr, Inhabited

namespace Response

/-- A text occurs in another from some place on. -/
def occursIn (part : List Char) : List Char → Bool
  | [] => part.isEmpty
  | c :: rest => part.isPrefixOf (c :: rest) || occursIn part rest

/-- The statuses of success. -/
def isSuccess (r : Response) : Bool :=
  200 ≤ r.status && r.status < 300

/-- An answer of an HTML content type, in whatever letters. -/
def isHtml (r : Response) : Bool :=
  match r.contentType with
  | none => false
  | some type => occursIn "text/html".toList (type.toList.map Text.toAsciiLower)

/-- An answer that can be the text of a module. -/
def isModule (r : Response) : Bool :=
  r.isSuccess && !r.isHtml

/-- The text of the module at `url`, or the failure that the answer stands for. -/
def source (r : Response) (url : Url) : Except Failure String :=
  if !r.isSuccess then .error (.status url r.status)
  else if r.isHtml then .error (.htmlFallback url)
  else .ok r.body

/-- An answer has a source exactly when it can be the text of a module, and then it is its body. -/
theorem source_eq_ok_iff (r : Response) (url : Url) (text : String) :
    r.source url = .ok text ↔ r.isModule = true ∧ r.body = text := by
  unfold source isModule
  by_cases hs : r.isSuccess = true <;> by_cases hh : r.isHtml = true <;> simp [hs, hh]

end Response

/-- What comes of a request. -/
inductive Answer
  /-- The server answered. -/
  | response (r : Response)
  /-- The request failed, for reasons that go from the outermost to the innermost. -/
  | unanswered (reasons : List String)
deriving DecidableEq, Repr, Inhabited

namespace Answer

/-- The reasons of a failed request in one line. -/
def reasonText (reasons : List String) : String :=
  String.intercalate ": " reasons

/-- The text of the module at `url`, or why there is none. -/
def source (a : Answer) (url : Url) : Except Failure String :=
  match a with
  | .response r => r.source url
  | .unanswered reasons => .error (.fetch url (reasonText reasons))

/-- The body of an answer that can be the text of a module. -/
def moduleBody? : Answer → Option String
  | .response r => if r.isModule then some r.body else none
  | .unanswered _ => none

/-- A module body is what the source of the same answer is. -/
theorem moduleBody?_eq_some_iff (a : Answer) (url : Url) (text : String) :
    a.moduleBody? = some text ↔ a.source url = .ok text := by
  cases a with
  | unanswered reasons => simp [moduleBody?, source]
  | response r =>
    rw [source, Response.source_eq_ok_iff]
    by_cases h : r.isModule = true <;> simp [moduleBody?, h]

end Answer

end ModuleLoader
