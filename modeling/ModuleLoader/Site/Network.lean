import ModuleLoader.Loader.Task
import ModuleLoader.Site.Serve
import ModuleLoader.Url.Reader

/-! # The network

* **`Site.urlText`** is the URL of a path on a development server.
* **`Network.unreachable`** answers when there is no way to any server.
* **`Site.serve`** answers as a development server does when it can be reached. -/

namespace ModuleLoader

/-- The URL of a path on the development server at an address. -/
def Site.urlText (address path : String) : String :=
  "http://" ++ address ++ "/" ++ String.ofList (path.toList.dropWhile (· == '/'))

namespace Network

/-- Why a request fails when there is no way to any server, from the outermost reason to the
innermost. -/
def reasons (url : Url) : List String :=
  ["error sending request for url (" ++ url.text ++ ")", "client error (Connect)",
    "tcp connect error", "Network is unreachable (os error 101)"]

/-- Answers when there is no way to any server. -/
def unreachable : Server Unit := fun q => return .unanswered (reasons q.url)

/-- Why a request fails that has been sent elsewhere too often. -/
def redirectReasons (url : Url) : List String :=
  ["error following redirect for url (" ++ url.text ++ ")", "too many redirects"]

end Network

/-- What a server is asked for when a URL leads to it: the path and the query. -/
def Url.target (u : Url) : String := u.pathText ++ u.query.elim "" ("?" ++ ·)

namespace Site

/-- The answer as it is told to whoever asked. -/
def Reply.toAnswer (r : Reply) : Answer := .response ⟨r.status, r.contentType, r.body⟩

/-- The URL that the answer for another sends to, if it sends anywhere. -/
def Reply.next? (r : Reply) (url : Url) : Option Url :=
  r.location.bind fun location => (url.join location).toOption

/-- The answer to a request that a development server may get: that of the site if the URL leads to
it, and that of others if not. Where the site sends elsewhere, `follow` goes on. -/
def hop {ω : Type} (s : Site) (leadsHere : Url → Bool) (others : Server ω)
    (follow : Url → StateM ω Answer) : Server ω := fun q =>
  if leadsHere q.url then
    let r := s.answer "GET" q.url.target
    match r.next? q.url with
    | none => return r.toAnswer
    | some url => follow url
  else others q

/-- The answers of a development server and of others, with those that send elsewhere followed as
often as the number says. -/
def serve {ω : Type} (s : Site) (leadsHere : Url → Bool) (others : Server ω) : Nat → Server ω
  | 0 => fun q =>
    s.hop leadsHere others (fun _ => return .unanswered (Network.redirectReasons q.url)) q
  | hops + 1 => fun q =>
    s.hop leadsHere others (fun url => s.serve leadsHere others hops { q with url }) q

end Site

end ModuleLoader
