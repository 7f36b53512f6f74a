import ModuleLoader.Proofs.Loader.Misses
import ModuleLoader.Site.Network

/-! # A page for what is missing

Whether a development server answers for what it has not with an error or with its index page makes
no difference to which modules load. No more does any other way in which a server can have no
module.

* **`Site.alike_serve`** says that the fallback of a site changes the answers only where they have
  no module.
* **`Loader.Follows`** is a loader that can do what another does.
* **`Loader.follows_of_sameModule`** says that it makes no difference how modules are missing. -/

namespace ModuleLoader

open Relation

/-! ## Sites with and without a fallback -/

namespace Site

variable {ω : Type}

/-- An answer without a module that sends nowhere else. -/
structure Reply.IsMiss (r : Reply) : Prop where
  /-- It sends nowhere else. -/
  stays : r.location = none
  /-- It has no module. -/
  noModule : r.toAnswer.moduleBody? = none

/-- That nothing is there is a miss. -/
theorem Reply.isMiss_notFound : Reply.notFound.IsMiss := ⟨rfl, rfl⟩

/-- What a file answers is that nothing is there, or is its text. -/
theorem Files.reply_cases (f : Files) (path : Path) :
    f.reply path = .notFound ∨ ∃ text, f.reply path = .file path text := by
  rw [Files.reply]
  cases f.read? path with
  | none => exact .inl rfl
  | some text => exact .inr ⟨text, rfl⟩

/-- The index page is a miss, because it is a page. -/
theorem Files.isMiss_index (f : Files) : (f.reply [indexName]).IsMiss := by
  rcases f.reply_cases [indexName] with hnone | ⟨text, htext⟩
  · rw [hnone]
    exact Reply.isMiss_notFound
  · rw [htext]
    have htype : contentType [indexName] = "text/html" := by decide
    have hhtml : Response.isHtml ⟨200, some (contentType [indexName]), text⟩ = true := by
      rw [htype]
      change Response.occursIn _ _ = true
      decide
    refine ⟨rfl, ?_⟩
    change (if Response.isModule ⟨200, some (contentType [indexName]), text⟩ then
      some text else none) = none
    rw [Response.isModule, hhtml, Bool.not_true, Bool.and_false]
    rfl

/-- A status of 404 says that nothing is there. -/
theorem Files.find_eq_notFound {f : Files} {target : List Char}
    (h : (f.find target).status = 404) : f.find target = .notFound := by
  have hreply : ∀ path, (f.reply path).status = 404 → f.reply path = .notFound := by
    intro path hstatus
    rcases f.reply_cases path with hnone | ⟨text, htext⟩
    · exact hnone
    · rw [htext] at hstatus
      cases hstatus
  unfold Files.find at h ⊢
  cases hsplit : splitTarget target with
  | mk path query =>
    rw [hsplit] at h
    cases hlocated : locate? path with
    | none => simp only [hlocated]
    | some names =>
      simp only [hlocated] at h ⊢
      by_cases hdirectory : f.isDirectory names = true
      · rw [if_pos hdirectory] at h ⊢
        by_cases hslash : (path.getLast? == some '/') = true
        · rw [if_pos hslash] at h ⊢
          exact hreply _ h
        -- a directory without a slash sends elsewhere
        · rw [if_neg hslash] at h
          cases h
      · rw [if_neg hdirectory] at h ⊢
        exact hreply _ h

/-- With or without a fallback a site answers the same, or with a miss. -/
theorem find_cases (f : Files) (b b' : Bool) (target : String) :
    (Site.mk f b).find target = (Site.mk f b').find target ∨
      ((Site.mk f b).find target).IsMiss ∧ ((Site.mk f b').find target).IsMiss := by
  by_cases hstatus : (f.find target.toList).status = 404
  · have hmiss : ∀ b, ((Site.mk f b).find target).IsMiss := by
      intro b
      rw [find]
      cases b with
      | true =>
        rw [if_pos (by simp [hstatus])]
        exact f.isMiss_index
      | false =>
        rw [if_neg (by simp), Files.find_eq_notFound hstatus]
        exact Reply.isMiss_notFound
    exact .inr ⟨hmiss b, hmiss b'⟩
  · have hfiles : ∀ b, (Site.mk f b).find target = f.find target.toList := by
      intro b
      rw [find]
      exact if_neg (by simp [hstatus])
    rw [hfiles b, hfiles b']
    exact .inl rfl

/-- Sites with and without a fallback answer alike if what follows is alike. -/
theorem alike_hop (f : Files) (b b' : Bool) (leadsHere : Url → Bool) (others : Server ω)
    {follow follow' : Url → StateM ω Answer} (x : ω)
    (hfollow : ∀ url, Loader.SameModule (follow url x).1 (follow' url x).1 ∧
      (follow url x).2 = (follow' url x).2) (q : Request) :
    Loader.SameModule ((Site.mk f b).hop leadsHere others follow q x).1
        ((Site.mk f b').hop leadsHere others follow' q x).1 ∧
      ((Site.mk f b).hop leadsHere others follow q x).2 =
        ((Site.mk f b').hop leadsHere others follow' q x).2 := by
  have hget : ∀ b, (Site.mk f b).answer "GET" q.url.target = (Site.mk f b).find q.url.target :=
    fun b => if_pos (beq_self_eq_true _)
  unfold hop
  by_cases hhere : leadsHere q.url = true
  · simp only [if_pos hhere, hget]
    rcases find_cases f b b' q.url.target with hsame | ⟨hmiss, hmiss'⟩
    · rw [hsame]
      cases ((Site.mk f b').find q.url.target).next? q.url with
      | none => exact ⟨rfl, rfl⟩
      | some url => exact hfollow url
    · have hstays : ∀ r : Reply, r.IsMiss → r.next? q.url = none := by
        intro r hr
        rw [Reply.next?, hr.stays]
        rfl
      have hasked : ∀ a : Answer, ((pure a : StateM ω Answer) x).2 = x := fun _ => rfl
      rw [hstays _ hmiss, hstays _ hmiss']
      exact ⟨hmiss.noModule.trans hmiss'.noModule.symm, (hasked _).trans (hasked _).symm⟩
  · simp only [if_neg hhere]
    exact ⟨rfl, trivial⟩

/-- A site has the same modules with and without a fallback. -/
theorem alike_serve (f : Files) (b b' : Bool) (leadsHere : Url → Bool) (others : Server ω)
    (hops : Nat) :
    Server.Alike Loader.SameModule Eq ((Site.mk f b).serve leadsHere others hops)
      ((Site.mk f b').serve leadsHere others hops) := by
  rintro q x _ rfl
  induction hops generalizing q with
  | zero => exact alike_hop f b b' leadsHere others x (fun _ => ⟨rfl, rfl⟩) q
  | succ hops ih => exact alike_hop f b b' leadsHere others x (fun url => ih { q with url }) q

end Site

/-! ## Loaders that differ in what is missing -/

/-- The answers of a server, with none at all where it has no module. -/
def Server.silent {ω : Type} (server : Server ω) : Server ω := fun q => do
  let a ← server q
  return if a.moduleBody?.isSome then a else .unanswered []

/-- A server that does not answer where it has no module has the same modules. -/
theorem Server.alike_silent {ω : Type} (server : Server ω) :
    server.Alike Loader.SameModule Eq server.silent := by
  rintro q x _ rfl
  refine ⟨?_, rfl⟩
  change (server q x).1.moduleBody? =
    (if (server q x).1.moduleBody?.isSome then (server q x).1 else .unanswered []).moduleBody?
  split
  · rfl
  · next hnone => exact Option.not_isSome_iff_eq_none.1 hnone

namespace Loader

variable {ω ω' : Type} {l : Loader}

/-- A loader can do with one server whatever it does with another: wherever calls lead, they lead to
the like, after the same requests in the same order, with the same graphs, resolutions and blobs.
What comes of them is the same but for causes. -/
def Follows (l : Loader) (calls : List Call) (server : Server ω) (x : ω) (server' : Server ω')
    (x' : ω') : Prop :=
  ∀ op w, Op.Steps server (l.respondAll calls, l.start x) (op, w) →
    ∃ op' w', Op.Steps server' (l.respondAll calls, l.start x') (op', w') ∧
      w.requests = w'.requests ∧ w.state.SameButCauses w'.state ∧ (op = .endless → op' = .endless) ∧
      ∀ results, op = .done results →
        ∃ results', op' = .done results' ∧ List.Forall₂ Call.Result.Alike results results'

/-- A loader follows another if their servers have the same modules. -/
theorem follows_of_alike {server : Server ω} {server' : Server ω'} {asked : ω → ω' → Prop}
    (hserver : server.Alike SameModule asked server') {x : ω} {x' : ω'} (hx : asked x x')
    (l : Loader) (calls : List Call) : l.Follows calls server x server' x' := by
  intro op w h
  have hstart : (l.start x).Alike Session.SameButCauses asked (l.start x') := ⟨.refl _, hx, rfl⟩
  obtain ⟨op', w', hsteps, hop, hw⟩ := (alike_respondAll calls).steps hserver hstart h
  refine ⟨op', w', hsteps, hw.requests, hw.state, ?_, ?_⟩
  · rintro rfl
    cases op' with
    | endless => rfl
    | _ => exact hop.elim
  · rintro results rfl
    cases op' with
    | done results' => exact ⟨results', rfl, hop⟩
    | _ => exact hop.elim

/-- It makes no difference how modules are missing. If two servers have the same modules at the same
URLs, as long as they are asked the same, then a loader with either can do whatever it can do with
the other: it sends the same requests in the same order, builds the same graphs, resolves URLs alike
and makes the same blobs, and the same comes of every call but for the causes of failures. In
particular it makes no difference whether a site has a fallback. -/
theorem follows_of_sameModule (l : Loader) (calls : List Call) :
    (∀ {ω ω' : Type} {server : Server ω} {server' : Server ω'} {asked : ω → ω' → Prop},
      server.Alike SameModule asked server' → ∀ x x', asked x x' →
        l.Follows calls server x server' x' ∧ l.Follows calls server' x' server x) ∧
      ∀ {ω : Type} (f : Site.Files) (leadsHere : Url → Bool) (others : Server ω) (hops : Nat)
        (x : ω) (b b' : Bool), l.Follows calls ((Site.mk f b).serve leadsHere others hops) x
          ((Site.mk f b').serve leadsHere others hops) x := by
  constructor
  · intro ω ω' server server' asked hserver x x' hx
    -- having the same modules is symmetric
    have hback : server'.Alike SameModule (fun x' x => asked x x') server := by
      intro q x' x hx
      obtain ⟨hanswer, hasked⟩ := hserver q x x' hx
      exact ⟨hanswer.symm, hasked⟩
    exact ⟨follows_of_alike hserver hx l calls, follows_of_alike hback hx l calls⟩
  · intro ω f leadsHere others hops x b b'
    exact follows_of_alike (Site.alike_serve f b b' leadsHere others hops) rfl l calls

/-- A site with a page and two modules. One of them imports the other without its extension, and one
that there is not when it runs. -/
def pageAndModules : Site.Files :=
  ⟨[(["index.html".toList], "<p>Slides</p>\n"),
    (["main.js".toList], "import \"./util\";\nimport(\"./gone.js\");\n"),
    (["util.js".toList], "export const u = 1;\n")]⟩

/-- The answers of the site, whose modules are all asked for at one host. -/
def serverOf (hasFallback : Bool) : Server Unit :=
  (Site.mk pageAndModules hasFallback).serve (fun u => u.authority == (fileUrl "").authority)
    Network.unreachable 3

/-- The module that there is not is answered with the page, with an error or not at all, and each
time the load sends the same requests and ends alike. -/
theorem follows_of_sameModule_pageAndModules :
    ((serverOf true ⟨fileUrl "gone.js", .source⟩ ()).1 =
        .response ⟨200, some "text/html", "<p>Slides</p>\n"⟩ ∧
      (serverOf false ⟨fileUrl "gone.js", .source⟩ ()).1 = .response ⟨404, none, ""⟩) ∧
      ∃ results w, Op.Steps (serverOf true)
          (default.respondAll [.loadModule 3 (fileUrl "main.js")], default.start ())
          (.done results, w) ∧
        w.requests = [⟨fileUrl "main.js", .source⟩,
          Resolver.probe .default (fileUrl "util.jsx"), Resolver.probe .default (fileUrl "util.js"),
          ⟨fileUrl "gone.js", .source⟩, ⟨fileUrl "gone.js", .source⟩] ∧
        ∀ server ∈ [serverOf false, (serverOf true).silent], ∃ results' w', Op.Steps server
            (default.respondAll [.loadModule 3 (fileUrl "main.js")], default.start ())
            (.done results', w') ∧
          w.requests = w'.requests ∧ w.state.SameButCauses w'.state ∧
          List.Forall₂ Call.Result.Alike results results' := by
  refine ⟨by decide +kernel, ?_⟩
  obtain ⟨hends, hrequests⟩ :
      ((default.respondAll [.loadModule 3 (fileUrl "main.js")]).run (serverOf true)
        (default.start ())).1.isSome = true ∧
      ((default.respondAll [.loadModule 3 (fileUrl "main.js")]).run (serverOf true)
        (default.start ())).2.requests = [⟨fileUrl "main.js", .source⟩,
          Resolver.probe .default (fileUrl "util.jsx"), Resolver.probe .default (fileUrl "util.js"),
          ⟨fileUrl "gone.js", .source⟩, ⟨fileUrl "gone.js", .source⟩] := by
    decide +kernel
  obtain ⟨results, hresults⟩ := Option.isSome_iff_exists.1 hends
  have hsteps := Op.steps_of_fst_run hresults
  refine ⟨results, _, hsteps, hrequests, ?_⟩
  obtain ⟨hmissing, hfallback⟩ :=
    follows_of_sameModule default [.loadModule 3 (fileUrl "main.js")]
  have hfollows : ∀ server ∈ [serverOf false, (serverOf true).silent],
      default.Follows [.loadModule 3 (fileUrl "main.js")] (serverOf true) () server () := by
    intro server hserver
    rcases List.mem_pair.1 hserver with rfl | rfl
    · exact hfallback pageAndModules _ _ 3 () true false
    · exact (hmissing (serverOf true).alike_silent () () rfl).1
  intro server hserver
  obtain ⟨_, w', hsteps', hrequests', hstate, -, hdone⟩ := hfollows server hserver _ _ hsteps
  obtain ⟨results', rfl, hresults'⟩ := hdone results rfl
  exact ⟨results', w', hsteps', hrequests', hstate, hresults'⟩

end Loader

end ModuleLoader
