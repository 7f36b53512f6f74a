import ModuleLoader.Config.Basic
import ModuleLoader.Loader.Event
import ModuleLoader.Loader.Task
import ModuleLoader.Specifier

/-! # Finding extensions

A URL without extension stands for the first of some candidates that a server has a module at: the
URL with each of the configured extensions in turn. If there is none at any of them, it stands for
the URL with the fallback extension, so that the miss is told when its source is asked for.

* **`Resolution`** is what a URL stands for.
* **`Resolver.infer`** asks for the candidates.
* **`Resolver.resolve`** resolves a specifier. -/

namespace ModuleLoader

/-- What a URL stands for. -/
structure Resolution where
  /-- The URL with an extension. -/
  url : Url
  /-- The text of the module, when the server was asked for it. -/
  source : Option String
  /-- The extension was not there before. -/
  isInferred : Bool
deriving DecidableEq, Repr, Inhabited

namespace Resolver

variable {σ : Type}

/-- The request that asks whether there is a module at a candidate. -/
def probe (c : Config) (candidate : Url) : Request := ⟨candidate, .probe c.probeTimeoutMs⟩

/-- The candidates for a URL without extension, in the order in which they are asked for. -/
def candidates (c : Config) (requested : Url) : List Url :=
  c.probeExtensions.map requested.withExtension

/-- The URL that is assumed when there is a module at no candidate. -/
def fallback (c : Config) (requested : Url) : Url := requested.withExtension c.fallbackExtension

/-- What is reported of an answer for a candidate without a module. -/
def missEvent (candidate : Url) : Answer → Event
  | .response r => .probeMiss candidate r.status
  | .unanswered reasons => .probeFailed candidate (reasons.head?.getD "")

/-- Asks for candidates in turn until there is a module at one of them. -/
def probeAll (c : Config) (report : Event → Task σ Unit) (requested : Url) :
    List Url → Task σ Resolution
  | [] => do
    report (.assumed requested (fallback c requested))
    return ⟨fallback c requested, none, true⟩
  | candidate :: rest => do
    let answer ← Task.ask (probe c candidate)
    match answer.moduleBody? with
    | some body =>
      report (.inferred requested candidate)
      return ⟨candidate, some body, true⟩
    | none =>
      report (missEvent candidate answer)
      probeAll c report requested rest

/-- Finds what a URL without extension stands for. -/
def infer (c : Config) (report : Event → Task σ Unit) (requested : Url) : Task σ Resolution :=
  probeAll c report requested (candidates c requested)

/-- Finds what a URL stands for; one with an extension stands for itself. -/
def resolveAbsolute (c : Config) (report : Event → Task σ Unit) (url : Url) :
    Task σ Resolution :=
  if url.hasExtension then return ⟨url, none, false⟩ else infer c report url

/-- Finds what a specifier stands for in a module; nothing for a bare one. -/
def resolve (c : Config) (report : Event → Task σ Unit) (specifier : String) (base : Url) :
    Task σ (Option Resolution) :=
  match resolve? specifier base with
  | none => return none
  | some url => some <$> resolveAbsolute c report url

end Resolver

end ModuleLoader
