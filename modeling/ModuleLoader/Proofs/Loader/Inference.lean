import ModuleLoader.Config.Reader
import ModuleLoader.Loader.Call
import ModuleLoader.Proofs.Loader.Targets
import ModuleLoader.Proofs.Url.Extension

/-! # What a URL without extension stands for

Candidates are asked for in turn until one has a module. The URL that is found has an extension, and
so stands for itself from then on, unless the extension had no name to be put behind.

* **`Resolver.ComesTo`** is what asking for candidates comes to, whatever the answers are.
* **`Resolver.run_infer`** says that a search comes to that, by the answers of the server in turn.
* **`Resolver.run_resolveAbsolute_eq_iff`** says when resolving again changes nothing.
* **`Resolver.settled_by_inference_iff`** puts this together for every configuration that can be
  read. -/

namespace ModuleLoader.Resolver

variable {σ ω : Type} {server : Server ω} {c : Config} {u : Url}

/-! ## Asking in turn -/

/-- What asking for some candidates in turn comes to, with the candidates that are asked for and the
answers for them. Either the first that has a module is found, with the body of its answer, and none
behind it is asked for; or none has a module, all are asked for, and the fallback is assumed. -/
def ComesTo (c : Config) (u : Url) (cs asked : List Url) (answers : List Answer)
    (r : Resolution) : Prop :=
  (∃ front t back misses a body, cs = front ++ t :: back ∧ asked = front ++ [t] ∧
    answers = misses ++ [a] ∧ misses.length = front.length ∧
    (∀ b ∈ misses, b.moduleBody? = none) ∧ a.moduleBody? = some body ∧ r = ⟨t, some body, true⟩) ∨
  asked = cs ∧ answers.length = cs.length ∧ (∀ b ∈ answers, b.moduleBody? = none) ∧
    r = ⟨fallback c u, none, true⟩

/-- Where there is no candidate, the fallback is assumed. -/
theorem comesTo_nil (c : Config) (u : Url) : ComesTo c u [] [] [] ⟨fallback c u, none, true⟩ :=
  .inr ⟨rfl, rfl, by simp, rfl⟩

/-- A candidate with a module is found. -/
theorem comesTo_cons_of_some {a : Answer} {body : String} (h : a.moduleBody? = some body)
    (t : Url) (rest : List Url) : ComesTo c u (t :: rest) [t] [a] ⟨t, some body, true⟩ :=
  .inl ⟨[], t, rest, [], a, body, rfl, rfl, rfl, rfl, by simp, h, rfl⟩

/-- Behind a candidate without a module, it comes to what the others come to. -/
theorem comesTo_cons_of_none {cs asked : List Url} {answers : List Answer} {r : Resolution}
    {a : Answer} (h : a.moduleBody? = none) (t : Url) (hrest : ComesTo c u cs asked answers r) :
    ComesTo c u (t :: cs) (t :: asked) (a :: answers) r := by
  rcases hrest with ⟨front, first, back, misses, b, body, rfl, rfl, rfl, hlength, hmisses, hb,
    rfl⟩ | ⟨rfl, hlength, hmisses, rfl⟩
  · exact .inl ⟨t :: front, first, back, a :: misses, b, body, rfl, rfl, rfl, by simp [hlength],
      by simpa [h] using hmisses, hb, rfl⟩
  · exact .inr ⟨rfl, by simp [hlength], by simpa [h] using hmisses, rfl⟩

/-- What is found stands for a candidate or the fallback, and is told to have been found. -/
theorem ComesTo.url {cs asked : List Url} {answers : List Answer} {r : Resolution}
    (h : ComesTo c u cs asked answers r) :
    (r.url ∈ cs ∨ r.url = fallback c u) ∧ r.isInferred = true := by
  rcases h with ⟨front, t, back, -, -, body, rfl, -, -, -, -, -, rfl⟩ | ⟨-, -, -, rfl⟩
  · exact ⟨.inl (by simp), rfl⟩
  · exact ⟨.inr rfl, rfl⟩

/-- Asking for candidates in turn comes to what it may, by the answers that the server gives to just
these requests. -/
theorem run_probeAll (c : Config) (server : Server ω) (report : Event → StateM σ Unit) (u : Url)
    (cs : List Url) (w : World σ ω) :
    ∃ asked answers, ((probeAll c (fun e => Task.act (report e)) u cs).run server w).2.requests =
        w.requests ++ asked.map (probe c) ∧
      (asked.map (probe c)).mapM server w.server =
        (answers, ((probeAll c (fun e => Task.act (report e)) u cs).run server w).2.server) ∧
      ComesTo c u cs asked answers
        ((probeAll c (fun e => Task.act (report e)) u cs).run server w).1 := by
  induction cs generalizing w with
  | nil => exact ⟨[], [], (List.append_nil _).symm, rfl, comesTo_nil c u⟩
  | cons t cs ih =>
    rw [probeAll, Task.run_ask]
    cases hbody : (World.ask server (probe c t) w).1.moduleBody? with
    | some body =>
      refine ⟨[t], [(World.ask server (probe c t) w).1], ?_, ?_, ?_⟩
      · rfl
      · rfl
      · exact comesTo_cons_of_some hbody t cs
    | none =>
      dsimp only
      rw [Task.run_bind]
      obtain ⟨asked, answers, hrequests, hanswers, hcomes⟩ :=
        ih ((Task.act (report (missEvent t (World.ask server (probe c t) w).1))).run server
          (World.ask server (probe c t) w).2).2
      refine ⟨t :: asked, (World.ask server (probe c t) w).1 :: answers, ?_, ?_,
        comesTo_cons_of_none hbody t hcomes⟩
      · rw [hrequests, List.map_cons, ← List.singleton_append, ← List.append_assoc]
        rfl
      · rw [List.map_cons, List.mapM_cons]
        exact congrArg (fun p : List Answer × ω => (_ :: p.1, p.2)) hanswers

/-- A search for an extension comes to what it may for its candidates. -/
theorem run_infer (c : Config) (server : Server ω) (report : Event → StateM σ Unit) (u : Url)
    (w : World σ ω) :
    ∃ asked answers, ((infer c (fun e => Task.act (report e)) u).run server w).2.requests =
        w.requests ++ asked.map (probe c) ∧
      (asked.map (probe c)).mapM server w.server =
        (answers, ((infer c (fun e => Task.act (report e)) u).run server w).2.server) ∧
      ComesTo c u (candidates c u) asked answers
        ((infer c (fun e => Task.act (report e)) u).run server w).1 :=
  run_probeAll c server report u (candidates c u) w

/-! ## Resolving again -/

/-- The extensions that are tried, and the one that is assumed. -/
def extensions (c : Config) : List String := c.probeExtensions ++ [c.fallbackExtension]

/-- The extensions of options that hold together are extensions. -/
theorem isExtension_of_mem_extensions (hc : c.invalid? = none) {e : String}
    (he : e ∈ extensions c) : Config.isExtension e = true := by
  obtain ⟨hprobe, hfallback, -⟩ := (Config.invalid?_eq_none_iff c).1 hc
  rcases List.mem_append.1 he with he | he
  · exact hprobe e he
  · rw [List.mem_singleton] at he
    exact he ▸ hfallback

/-- What is found for a URL is the URL with one of the extensions. -/
theorem ComesTo.exists_withExtension {asked : List Url} {answers : List Answer} {r : Resolution}
    (h : ComesTo c u (candidates c u) asked answers r) :
    ∃ e ∈ extensions c, r.url = u.withExtension e := by
  rcases h.url.1 with hurl | hurl
  · obtain ⟨e, he, heq⟩ := List.mem_map.1 hurl
    exact ⟨e, List.mem_append_left _ he, heq.symm⟩
  · exact ⟨c.fallbackExtension, by simp [extensions], hurl⟩

variable (server) (c) (report : Event → StateM σ Unit)

/-- A URL with an extension is what it resolves to, and nothing is asked for. -/
theorem run_resolveAbsolute_of_hasExtension (h : u.hasExtension = true) (w : World σ ω) :
    (resolveAbsolute c (fun e => Task.act (report e)) u).run server w =
      (⟨u, none, false⟩, w) := by
  rw [resolveAbsolute, if_pos h]
  rfl

/-- A URL without extension resolves to what is found for it. -/
theorem run_resolveAbsolute_of_not_hasExtension (h : u.hasExtension = false) (w : World σ ω) :
    (resolveAbsolute c (fun e => Task.act (report e)) u).run server w =
      (infer c (fun e => Task.act (report e)) u).run server w := by
  rw [resolveAbsolute, if_neg (by simp [h])]

/-- Resolving a URL changes nothing and asks for nothing exactly if the URL has an extension. -/
theorem run_resolveAbsolute_eq_iff (u : Url) (w : World σ ω) :
    (resolveAbsolute c (fun e => Task.act (report e)) u).run server w = (⟨u, none, false⟩, w) ↔
      u.hasExtension = true := by
  refine ⟨fun heq => ?_, fun h => run_resolveAbsolute_of_hasExtension server c report h w⟩
  by_contra h
  rw [Bool.not_eq_true] at h
  rw [run_resolveAbsolute_of_not_hasExtension server c report h] at heq
  obtain ⟨_, _, -, -, hcomes⟩ := run_infer c server report u w
  rw [heq] at hcomes
  exact Bool.noConfusion hcomes.url.2

/-- For all options that can be read, a URL resolves to itself without a request if it has an
extension, and to itself with one of the extensions otherwise. That is so for good, and asks for
nothing again, exactly if what it resolves to has an extension; if not, it is inferred again. An
extension that is put behind a URL is its extension exactly if the name that ends the path is
extended then: if the extension reads as it is written, that fails only where it is put behind no
name and has no dot of its own behind its first, and so makes a hidden name. -/
theorem settled_by_inference_iff {json : String} {c : Config} (hc : Config.read json = .ok c)
    (server : Server ω) (report : Event → StateM σ Unit) (u : Url) (w : World σ ω) :
    (∀ e ∈ extensions c,
      (u.withExtension e).hasExtension = Url.isExtended (u.lastName (u.pathText ++ e)) ∧
      (Url.isPlain e = true → ((u.withExtension e).hasExtension = true ↔
        u.lastName u.pathText ≠ [] ∨ '.' ∈ e.toList.tail))) ∧
    ∃ r w₁, (resolveAbsolute c (fun e => Task.act (report e)) u).run server w = (r, w₁) ∧
      (u.hasExtension = true → r = ⟨u, none, false⟩ ∧ w₁ = w) ∧
      (u.hasExtension = false →
        r.isInferred = true ∧ ∃ e ∈ extensions c, r.url = u.withExtension e) ∧
      (∀ w₂, (resolveAbsolute c (fun e => Task.act (report e)) r.url).run server w₂ =
        (⟨r.url, none, false⟩, w₂) ↔ r.url.hasExtension = true) ∧
      (r.url.hasExtension = false → ∀ w₂,
        ((resolveAbsolute c (fun e => Task.act (report e)) r.url).run server w₂).1.isInferred =
          true) ∧
      (r.url.hasExtension = true → ∀ (l : Loader) (known : Cache Module),
        l.lookupTarget known r.url = r.url) := by
  have hvalid := ((Config.read_eq_ok_iff json c).1 hc).2
  refine ⟨fun e he => ⟨Url.hasExtension_withPath u _, fun hplain => ?_⟩, _, _, rfl, ?_, ?_, ?_, ?_,
    fun h l known => Loader.lookupTarget_of_hasExtension known h⟩
  · exact Url.hasExtension_withExtension_iff u (isExtension_of_mem_extensions hvalid he) hplain
  · intro h
    rw [run_resolveAbsolute_of_hasExtension server c report h]
    exact ⟨rfl, rfl⟩
  · intro h
    rw [run_resolveAbsolute_of_not_hasExtension server c report h]
    obtain ⟨_, _, -, -, hcomes⟩ := run_infer c server report u w
    exact ⟨hcomes.url.2, hcomes.exists_withExtension⟩
  · exact fun w₂ => run_resolveAbsolute_eq_iff server c report _ w₂
  · intro h w₂
    rw [run_resolveAbsolute_of_not_hasExtension server c report h]
    obtain ⟨_, _, -, -, hcomes⟩ := run_infer c server report _ w₂
    exact hcomes.url.2

/-- A name gets the extension that is assumed where no candidate has a module, and keeps it. -/
theorem settled_by_inference_util :
    Config.read "\x7b\x7d" = .ok Config.default ∧
      ((fileUrl "util").withExtension ".js").hasExtension = true ∧
      ∃ r w₁, (resolveAbsolute Config.default (fun e => Task.act (Session.report e))
          (fileUrl "util")).run (Server.ofModules []) (Loader.default.start ()) = (r, w₁) ∧
        r.url = fileUrl "util.js" ∧
        ∀ w₂, (resolveAbsolute Config.default (fun e => Task.act (Session.report e)) r.url).run
          (Server.ofModules []) w₂ = (⟨r.url, none, false⟩, w₂) := by
  have hread : Config.read "\x7b\x7d" = .ok Config.default := by decide +kernel
  obtain ⟨hextension, r, w₁, hrun, -, -, hagain, -⟩ := settled_by_inference_iff hread
    (Server.ofModules []) Session.report (fileUrl "util") (Loader.default.start ())
  have hurl : r.url = fileUrl "util.js" := by
    have hfst : ((resolveAbsolute Config.default (fun e => Task.act (Session.report e))
        (fileUrl "util")).run (Server.ofModules []) (Loader.default.start ())).1.url =
          fileUrl "util.js" := by
      decide +kernel
    rwa [hrun] at hfst
  refine ⟨hread, ?_, r, w₁, hrun, hurl, fun w₂ => (hagain w₂).2 ?_⟩
  · refine ((hextension ".js" (by decide)).2 (by decide)).2 (.inl ?_)
    decide +kernel
  · rw [hurl]
    decide +kernel

/-- A directory gets the extension as a hidden name, which has none: resolving again asks for
candidates again, and leads to another URL. -/
theorem resolved_twice_directory :
    Config.read "\x7b\x7d" = .ok Config.default ∧
      (fileUrl "").hasExtension = false ∧
      ((fileUrl "").withExtension ".js").hasExtension = false ∧
      ((resolveAbsolute Config.default (fun e => Task.act (Session.report e)) (fileUrl "")).run
        (Server.ofModules []) (Loader.default.start ())).1 = ⟨fileUrl ".js", none, true⟩ ∧
      ((resolveAbsolute Config.default (fun e => Task.act (Session.report e)) (fileUrl ".js")).run
        (Server.ofModules []) (Loader.default.start ())).1 = ⟨fileUrl ".js.js", none, true⟩ ∧
      ((resolveAbsolute Config.default (fun e => Task.act (Session.report e)) (fileUrl ".js")).run
        (Server.ofModules []) (Loader.default.start ())).2.requests.length = 4 := by
  refine ⟨?_, ?_, ?_, ?_, ?_, ?_⟩ <;> decide +kernel

end ModuleLoader.Resolver
