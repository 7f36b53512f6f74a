import ModuleLoader.Proofs.Loader.History
import ModuleLoader.Proofs.Loader.Runs

/-! # Loads that are done with

When a load has come to an end, what came of it is settled: nothing of what it was concluded from is
ever taken back. Whatever is called then, the same load comes to the same, and does no work.

* **`Loader.Decided`** is a state in which it is settled what comes of a module.
* **`Loader.decided_of_loadModule`** says that a load that has come to an end has settled that.
* **`Loader.keeps_loadModule_of_decided`** says that a further load does no work.
* **`Loader.Decided.of_run`** says that what is settled stays so. -/

namespace ModuleLoader

open Relation

variable {ω : Type} {server : Server ω}

/-- Nothing has changed but what has been reported. -/
structure Session.Rests (s s' : Session) : Prop where
  /-- The same is remembered. -/
  cache : s'.cache = s.cache
  /-- The blobs are the same. -/
  blobs : s'.blobs = s.blobs
  /-- The transformer has not been called. -/
  compilations : s'.compilations = s.compilations
  /-- No module has been imported. -/
  serial : s'.serial = s.serial

namespace Session.Rests

variable {s s' s'' : Session}

theorem refl (s : Session) : s.Rests s := ⟨rfl, rfl, rfl, rfl⟩

theorem trans (h : s.Rests s') (h' : s'.Rests s'') : s.Rests s'' where
  cache := h'.cache.trans h.cache
  blobs := h'.blobs.trans h.blobs
  compilations := h'.compilations.trans h.compilations
  serial := h'.serial.trans h.serial

end Session.Rests

namespace Loader

variable {l : Loader} {s s' : Session} {g : Graph} {url : Url} {e : Failure}
variable {r : Except Failure Module} {w w' w₁ : World Session ω}

/-! ## Entries that are refused -/

/-- When a module cannot be imported, nothing changes but what has been reported. -/
theorem rests_importEager {graph : Option Graph} {a : Artifact}
    (h : (Session.importEager url graph a s).1 = .error e) :
    s.Rests (Session.importEager url graph a s).2 := by
  rcases importEager_cases url graph a s with ⟨blobUrl, -, -, heq⟩ | ⟨f, u, cause, heq⟩
  · rw [heq] at h ⊢
    cases hread : s.readBlob blobUrl with
    | error reason =>
      rw [Session.importBlob_of_error hread]
      exact .refl s
    | ok m =>
      rw [Session.importBlob_of_ok hread] at h
      cases h
  · rw [heq]
    exact ⟨rfl, rfl, rfl, rfl⟩

/-- When an entry cannot be imported, nothing changes but what has been reported. -/
theorem rests_importEntry (h : (importEntry url g s).1 = .error e) :
    s.Rests (importEntry url g s).2 := by
  cases ha : s.cache.compiled.get? url with
  | none =>
    rw [importEntry_of_notCompiled ha]
    exact .refl s
  | some a =>
    rw [importEntry_of_compiled ha] at h ⊢
    exact rests_importEager h

/-- What came of a compiled module stays. -/
theorem compiled_eq_of_continues {m : Url} (hc : s.Continues s')
    (h : s.cache.isCompiled m = true) :
    s'.cache.compiled.get? m = s.cache.compiled.get? m := by
  obtain ⟨a, ha⟩ := Option.isSome_iff_exists.1 h
  rw [ha, hc.compiled m a ha]

/-- The blob of a module that cannot be imported can never be. -/
theorem readBlob_eq_error_of_continues {blobUrl reason : String} (hcoherent : l.Coherent s)
    (hc : s.Continues s') (hcode : s.cache.compiled.get? url = some (.ready blobUrl))
    (hread : s.readBlob blobUrl = .error reason) : s'.readBlob blobUrl = .error reason := by
  obtain ⟨_, compiled, _, -, -, -, -, hblob⟩ := hcoherent.code url blobUrl hcode
  have hblob' := hc.blobs blobUrl _ hblob
  rw [Session.readBlob, hblob] at hread
  rw [Session.readBlob, hblob']
  dsimp only at hread ⊢
  -- what a blob exports does not depend on how many modules have been imported
  cases hnames : exportsOf _ with
  | error reason' =>
    rw [hnames] at hread
    exact hread
  | ok names =>
    rw [hnames] at hread
    cases hread

/-- An entry that cannot be imported when all modules of its graph have been compiled can never
be. -/
theorem importEntry_eq_error_of_continues (hcoherent : l.Coherent s) (hwell : g.WellFormed)
    (hurl : url ∈ g.urls) (hcompiled : ∀ m ∈ g.urls, s.cache.isCompiled m = true)
    (hc : s.Continues s') (h : (importEntry url g s).1 = .error e) :
    (importEntry url g s').1 = .error e := by
  obtain ⟨a, ha⟩ := Option.isSome_iff_exists.1 (hcompiled url hurl)
  -- what is evaluated along with the entry has been compiled for good
  have hfirst : Session.firstFailed s'.cache (g.eagerDependencies url) =
      Session.firstFailed s.cache (g.eagerDependencies url) :=
    firstFailed_congr fun dep hdep => compiled_eq_of_continues hc
      (hcompiled dep (hwell.mem_urls_of_mem_eagerDependencies hdep))
  rw [importEntry_of_compiled ha] at h
  rw [importEntry_of_compiled (hc.compiled url a ha)]
  cases a with
  | failed u cause => exact h
  | ready blobUrl =>
    cases hf : Session.firstFailed s.cache (g.eagerDependencies url) with
    | some failed =>
      obtain ⟨dep, b⟩ := failed
      obtain ⟨u, cause, rfl⟩ := Session.exists_failed_of_firstFailed hf
      have hnew : Session.importEager url (some g) (.ready blobUrl) s' = _ :=
        Session.importEager_of_firstFailed (hfirst.trans hf)
      have hold : Session.importEager url (some g) (.ready blobUrl) s = _ :=
        Session.importEager_of_firstFailed hf
      rw [hold] at h
      rw [hnew]
      exact h
    | none =>
      have hnew : Session.importEager url (some g) (.ready blobUrl) s' = _ :=
        Session.importEager_of_ready (hfirst.trans hf)
      have hold : Session.importEager url (some g) (.ready blobUrl) s = _ :=
        Session.importEager_of_ready hf
      rw [hold] at h
      rw [hnew]
      cases hread : s.readBlob blobUrl with
      | error reason =>
        rw [Session.importBlob_of_error hread] at h
        rw [Session.importBlob_of_error (readBlob_eq_error_of_continues hcoherent hc ha hread)]
        exact h
      | ok m =>
        rw [Session.importBlob_of_ok hread] at h
        cases h

/-! ## What is settled -/

/-- It is settled what comes of a module: it has been imported; or its graph has a circle; or all
modules of its graph have been compiled, and it cannot be imported. -/
inductive Decided (s : Session) (url : Url) : Except Failure Module → Prop
  /-- It has been imported. -/
  | imported (x : Module) (hx : s.cache.modules.get? url = some x) : Decided s url (.ok x)
  /-- Its graph has a circle. -/
  | circular (g : Graph) (circle : Graph.Cycle) (hnew : s.cache.modules.get? url = none)
      (hg : s.cache.graphs.get? url = some g) (hsort : g.topologicalSort = .error circle) :
      Decided s url (.error (.circularDependency circle.closing circle.path))
  /-- It cannot be imported. -/
  | refused (g : Graph) (order : List Url) (e : Failure) (hnew : s.cache.modules.get? url = none)
      (hg : s.cache.graphs.get? url = some g) (hsort : g.topologicalSort = .ok order)
      (hcompiled : ∀ m ∈ g.urls, s.cache.isCompiled m = true)
      (h : (importEntry url g s).1 = .error e) : Decided s url (.error e)

/-- What is settled stays so while calls add to what is remembered and do not import the module. -/
theorem Decided.of_continues (h : Decided s url r) (hs : l.Sound s) (hcoherent : l.Coherent s)
    (hc : s.Continues s')
    (hmodules : s'.cache.modules.get? url = s.cache.modules.get? url) : Decided s' url r := by
  cases h with
  | imported x hx => exact .imported x (hmodules.trans hx)
  | circular g circle hnew hg hsort =>
    exact .circular g circle (hmodules.trans hnew) (hc.graphs url g hg) hsort
  | refused g order e hnew hg hsort hcompiled h =>
    have hd := hs.described url g hg
    exact .refused g order e (hmodules.trans hnew) (hc.graphs url g hg) hsort
      (fun m hm => hc.toGrows.isCompiled (hcompiled m hm))
      (importEntry_eq_error_of_continues hcoherent hd.wellFormed hd.entry_mem hcompiled hc h)

/-- What is settled stays so while nothing changes but what has been reported. -/
theorem Decided.of_rests (h : Decided s url r) (hr : s.Rests s') : Decided s' url r := by
  cases h with
  | imported x hx => exact .imported x (hr.cache ▸ hx)
  | circular g circle hnew hg hsort =>
    exact .circular g circle (hr.cache ▸ hnew) (hr.cache ▸ hg) hsort
  | refused g order e hnew hg hsort hcompiled h =>
    refine .refused g order e (hr.cache ▸ hnew) (hr.cache ▸ hg) hsort (hr.cache ▸ hcompiled) ?_
    rw [importEntry_congr hr.blobs hr.serial (by rw [hr.cache]) fun m _ => by rw [hr.cache]]
    exact h

/-- What a load does with the graph settles what comes of the module. -/
theorem decided_of_finish (hd : l.Describes w.state url g)
    (hnew : w.state.cache.modules.get? url = none) (hg : w.state.cache.graphs.get? url = some g)
    (hcoherent : l.Coherent w'.state)
    (hfinish : Op.Steps server (l.finish url g, w) (.done r, w')) : Decided w'.state url r := by
  cases hsort : g.topologicalSort with
  | error circle =>
    have hrun := (Op.steps_done_iff (isSequential_finish l url g)).1 hfinish
    rw [finish, hsort] at hrun
    cases hrun
    exact .circular g circle hnew hg hsort
  | ok order =>
    obtain ⟨rfl, rfl⟩ := (steps_finish_iff hsort).1 hfinish
    obtain ⟨-, hmem⟩ := Graph.sorted_of_topologicalSort hd.wellFormed hsort
    have hcompiled : ∀ m ∈ g.urls,
        (l.afterCompiling server order w).state.cache.isCompiled m = true :=
      fun m hm => isCompiled_afterCompiling l server ((hmem m).2 hm) w
    -- compiling imports nothing, and the graph stays
    have hadds : w.state.Adds (l.afterCompiling server order w).state none :=
      adds_of_adding ((adds_compileModules l order none w).steps
        (Op.steps_of_run (run_compileModules l server order w))).1
    have hconcluded := concluded_importEntry hcoherent (hcompiled url hd.entry_mem)
    cases hr : (importEntry url g (l.afterCompiling server order w).state).1 with
    | ok x =>
      rw [hr] at hconcluded
      cases hconcluded with
      | executed _ _ hexecutes =>
        cases hexecutes with
        | imported _ hx _ => exact .imported x hx
    -- an entry that is refused changes nothing, so it is refused in the state that is left
    | error e =>
      have hrefused : Decided (l.afterCompiling server order w).state url (.error e) :=
        .refused g order e ((hadds.sameModules url (by simp)).trans hnew) (hadds.graphs url g hg)
          hsort hcompiled hr
      exact hrefused.of_rests (rests_importEntry hr)

/-- A load that has come to an end has settled what comes of the module. -/
theorem decided_of_loadModule {limit : Nat} (hs : l.Sound w.state) (hcoherent : l.Coherent w'.state)
    (hload : Op.Steps server (l.loadModule limit url, w) (.done r, w')) :
    Decided w'.state url r := by
  cases hmodule : w.state.cache.modules.get? url with
  | some x =>
    obtain ⟨rfl, rfl⟩ := eq_of_steps_loadModule hmodule hload
    exact .imported x hmodule
  | none =>
    obtain ⟨g, w₁, hbuild, hfinish⟩ := (steps_loadModule_iff hmodule).1 hload
    obtain ⟨hmoved, hg⟩ := (keeps_buildGraph l limit url w).steps hbuild
    have hprepares := prepares_of_preparing hmoved
    have hnew : w₁.state.cache.modules.get? url = none := by rw [hprepares.sameModules, hmodule]
    exact decided_of_finish ((hprepares.sound hs).described url g hg) hnew hg hcoherent hfinish

/-! ## Further loads -/

/-- What a load promises that does no work: it sends no request, and nothing changes but what has
been reported. -/
def resting (w w' : World Session ω) : Prop :=
  w'.requests = w.requests ∧ w.state.Rests w'.state

/-- To do no work for some steps is to do none. -/
theorem rests_of_resting (h : ReflTransGen resting w w') : resting w w' := by
  induction h with
  | refl => exact ⟨rfl, .refl _⟩
  | tail _ h ih => exact ⟨h.1.trans ih.1, ih.2.trans h.2⟩

/-- Reporting something is no work. -/
theorem resting_report (event : Event) (w : World Session ω) :
    resting w { w with state := (Session.report event w.state).2 } :=
  ⟨rfl, rfl, rfl, rfl, rfl⟩

/-- Compiling modules that have been compiled is no work. -/
theorem keeps_compileModules_of_isCompiled {order : List Url}
    (h : ∀ m ∈ order, w.state.cache.isCompiled m = true) :
    (l.compileModules order).Keeps server resting (fun _ w' => w' = w) w := by
  refine keeps_compileModules (fun _ w' => w' = w) (fun front m rest w₁ horder hw₁ => ?_) rfl
  obtain rfl := hw₁
  refine Op.keeps_one ?_
  unfold compileModule
  refine Task.keeps_look ⟨rfl, .refl _⟩ fun w₂ hw₂ => ?_
  obtain rfl : w₂ = w₁ := Task.eq_of_alone hw₂
  rw [if_pos (h m (by simp [horder]))]
  exact fun _ => rfl

/-- A load of a module that has a graph goes on with that. -/
theorem keeps_loadModule_of_graph {ends : Except Failure Module → World Session ω → Prop}
    (hnew : w.state.cache.modules.get? url = none) (hg : w.state.cache.graphs.get? url = some g)
    (h : (l.finish url g).Keeps server resting ends
      { w with state := (Session.report (.graphHit url) w.state).2 }) (limit : Nat) :
    (l.loadModule limit url).Keeps server resting ends w := by
  unfold loadModule
  refine Op.keeps_look ⟨rfl, .refl _⟩ ?_
  rw [hnew]
  refine Op.keeps_bind ?_
  unfold buildGraph
  refine Op.keeps_look ⟨rfl, .refl _⟩ ?_
  rw [hg]
  exact Op.keeps_bind (Op.keeps_act (resting_report _ w) h)

/-- When it is settled what comes of a module, a load of it does no work and comes to that. -/
theorem keeps_loadModule_of_decided (h : Decided w.state url r) (hs : l.Sound w.state)
    (limit : Nat) :
    (l.loadModule limit url).Keeps server resting (fun r' _ => r' = r) w := by
  cases h with
  | imported x hx =>
    unfold loadModule
    refine Op.keeps_look ⟨rfl, .refl _⟩ ?_
    rw [hx]
    exact Op.keeps_bind (Op.keeps_act (resting_report _ w) rfl)
  | circular g circle hnew hg hsort =>
    refine keeps_loadModule_of_graph hnew hg ?_ limit
    rw [finish, hsort]
    rfl
  | refused g order e hnew hg hsort hcompiled h =>
    refine keeps_loadModule_of_graph hnew hg ?_ limit
    have hd := hs.described url g hg
    obtain ⟨-, hmem⟩ := Graph.sorted_of_topologicalSort hd.wellFormed hsort
    have hreport := resting_report (.graphHit url) w
    have hrefused :
        (importEntry url g (Session.report (.graphHit url) w.state).2).1 = .error e := by
      rw [importEntry_congr hreport.2.blobs hreport.2.serial rfl fun _ _ => rfl]
      exact h
    -- nothing is left to compile, and the import is refused as before
    rw [finish, hsort]
    refine Op.keeps_bind ((keeps_compileModules_of_isCompiled (w := { w with
      state := (Session.report (.graphHit url) w.state).2 })
      fun m hm => hcompiled m ((hmem m).1 hm)).imp fun _ w₁ hw₁ => ?_)
    obtain rfl := hw₁
    exact Op.keeps_act ⟨rfl, rests_importEntry hrefused⟩ hrefused

/-- Such a load ends, however few waves there may be. -/
theorem terminates_loadModule_of_decided (h : Decided w.state url r) (limit : Nat) :
    Op.Terminates server (l.loadModule limit url, w) := by
  unfold loadModule
  refine Op.Terminates.look ?_
  cases hmodule : w.state.cache.modules.get? url with
  | some x => exact Op.terminates_of_run (fun _ => trivial) rfl
  | none =>
    obtain ⟨g, hg⟩ : ∃ g, w.state.cache.graphs.get? url = some g := by
      cases h with
      | imported x hx =>
        rw [hmodule] at hx
        cases hx
      | circular g _ _ hg _ => exact ⟨g, hg⟩
      | refused g _ _ _ hg _ _ _ => exact ⟨g, hg⟩
    refine Op.Terminates.bind ?_ fun g w₂ _ => terminates_finish l server url g w₂
    unfold buildGraph
    refine Op.Terminates.look ?_
    rw [hg]
    exact Op.terminates_of_run (fun _ => trivial) rfl

/-! ## Calls in between -/

/-- A call that loads the module does no work when it is settled what comes of that. -/
theorem keeps_perform_of_decided {c : Call} (h : Decided w.state url r) (hs : l.Sound w.state)
    (htarget : c.target? = some url) (himport : c ≠ .importCompiled url) :
    (l.perform c).Keeps server resting (fun _ _ => True) w := by
  have hload : ∀ limit, (l.loadModule limit url >>= fun _ => (return () : Op Session Unit)).Keeps
      server resting (fun _ _ => True) w :=
    fun limit => Op.keeps_bind ((keeps_loadModule_of_decided h hs limit).imp fun _ _ _ => trivial)
  cases c with
  | load limit entry =>
    have hparse : Url.parse entry = .ok url := by
      cases hp : Url.parse entry with
      | error e =>
        rw [Call.target?, hp] at htarget
        cases htarget
      | ok u =>
        rw [Call.target?, hp] at htarget
        cases htarget
        rfl
    change (l.load limit entry >>= fun _ => (return () : Op Session Unit)).Keeps server _ _ w
    rw [load, hparse]
    exact hload limit
  | loadModule limit u =>
    obtain rfl : u = url := Option.some.inj htarget
    exact hload limit
  | importCompiled u =>
    obtain rfl : u = url := Option.some.inj htarget
    exact absurd rfl himport
  | buildGraph limit entry => cases htarget
  | fetchSource u => cases htarget
  | compileModules order => cases htarget
  | cleanup => cases htarget

/-- What is settled stays so in a call that neither forgets everything nor imports the module on its
own. -/
theorem Decided.of_perform {c : Call} {op : Op Session Unit} (h : Decided w.state url r)
    (hw : l.Reached server (fun _ => True) w) (hclean : c ≠ .cleanup)
    (himport : c ≠ .importCompiled url) (hsteps : Op.Steps server (l.perform c, w) (op, w')) :
    Decided w'.state url r := by
  have hs : l.Sound w.state := sound_of_reached hw
  by_cases htarget : c.target? = some url
  -- such a call is a load of the module
  · have hkeeps : (l.perform c).Keeps server resting (fun _ _ => True) w :=
      keeps_perform_of_decided h hs htarget himport
    exact h.of_rests (rests_of_resting (hkeeps.steps hsteps).1).2
  · have hadds := adds_of_adding ((adds_perform l hclean w).steps hsteps).1
    exact h.of_continues hs (coherent_of_reached hw).1 hadds.toContinues
      (hadds.sameModules url htarget)

/-- The call neither forgets everything nor imports the module that a text names on its own. -/
def Spares (entry : String) (c : Call) : Prop :=
  c ≠ .cleanup ∧ ∀ url, Url.parse entry = .ok url → c ≠ .importCompiled url

/-- What is settled stays so in a run of such calls. -/
theorem Decided.of_run {entry : String} {trace : List (World Session ω × World Session ω)}
    (h : Decided w.state url r) (hparse : Url.parse entry = .ok url)
    (hw : l.Reached server (fun _ => True) w)
    (hrun : l.Run server (Spares entry) w trace w') : Decided w'.state url r := by
  induction hrun with
  | refl => exact h
  | call hrun hc hp ih => exact ih.of_perform (hrun.reached hw) hc.1 (hc.2 url hparse) hp.steps

/-- Where a load has come to an end, calls go on, given up or not, but none of them forgets
everything or imports the entry on its own. A load of the entry then ends, however few waves there
may be, and comes to the same: the same module object or the same error. No request is sent, the
transformer is not called, there is no new blob, and nothing is remembered that was not before. -/
theorem final_of_load {limit : Nat} {entry : String} (hw : l.Reached server (fun _ => True) w)
    (hload : Op.Steps server (l.load limit entry, w) (.done r, w₁))
    {trace : List (World Session ω × World Session ω)}
    (hrun : l.Run server (Spares entry) w₁ trace w') (limit' : Nat) :
    Op.Terminates server (l.load limit' entry, w') ∧
      ∀ op w'', Op.Steps server (l.load limit' entry, w') (op, w'') →
        w''.requests = w'.requests ∧ w'.state.Rests w''.state ∧
          ∀ r', op = .done r' → r' = r := by
  have hw₁ : l.Reached server (fun _ => True) w₁ :=
    .call hw trivial (c := .load limit entry) (hload.bind fun _ => .done ())
  have hsettled : Op.Terminates server (l.load limit' entry, w') ∧
      (l.load limit' entry).Keeps server resting (fun r' _ => r' = r) w' := by
    unfold load at hload ⊢
    cases hparse : Url.parse entry with
    | error e =>
      rw [hparse] at hload
      have hpure : (Op.done (.error (.invalidUrl entry e.message)) :
          Op Session (Except Failure Module)).IsSequential := trivial
      cases (Op.steps_done_iff hpure).1 hload
      exact ⟨Op.terminates_of_run hpure rfl, rfl⟩
    | ok url =>
      rw [hparse] at hload
      have hdecided : Decided w'.state url r :=
        (decided_of_loadModule (sound_of_reached hw) (coherent_of_reached hw₁).1 hload).of_run
          hparse hw₁ hrun
      exact ⟨terminates_loadModule_of_decided hdecided limit',
        keeps_loadModule_of_decided hdecided (sound_of_reached (hrun.reached hw₁)) limit'⟩
  refine ⟨hsettled.1, fun op w'' hsteps => ?_⟩
  obtain ⟨hmoved, hends⟩ := hsettled.2.steps hsteps
  obtain ⟨hrequests, hrests⟩ := rests_of_resting hmoved
  refine ⟨hrequests, hrests, ?_⟩
  rintro r' rfl
  exact hends

/-- A module that imports one that there is not, and one that imports the former. -/
def wanting : List (String × String) :=
  [("main.js", "import \"./gone.js\";\n"), ("page.js", "import \"./main.js\";\n")]

-- irreducible, lest the calls are run wherever two worlds are compared
/-- What comes of a load of the first module. -/
@[irreducible]
def loadWanting : Option (Except Failure Module) × World Session Unit :=
  (byLines.load 3 "http://slides.test/main.js").run (Server.ofModules wanting) (byLines.start ())

/-- What comes of a load of the second module then. -/
@[irreducible]
def loadOther : Option Unit × World Session Unit :=
  (byLines.perform (.loadModule 3 (fileUrl "page.js"))).run (Server.ofModules wanting)
    loadWanting.2

/-- When the second module has been loaded as well, a further load of the first fails as before and
sends no request, even if no wave is allowed. -/
theorem final_of_load_wanting :
    ∃ (w₁ w₂ w₃ : World Session Unit) (trace : List (World Session Unit × World Session Unit))
      (e : Failure),
      Op.Steps (Server.ofModules wanting)
        (byLines.load 3 "http://slides.test/main.js", byLines.start ()) (.done (.error e), w₁) ∧
      byLines.Run (Server.ofModules wanting) (Spares "http://slides.test/main.js") w₁ trace w₂ ∧
      w₁.requests ≠ w₂.requests ∧
      Op.Steps (Server.ofModules wanting) (byLines.load 0 "http://slides.test/main.js", w₂)
        (.done (.error e), w₃) ∧
      w₃.requests = w₂.requests := by
  obtain ⟨hends, hother, hrequests⟩ :
      loadWanting.1 = some (.error (.failed (fileUrl "gone.js")
        (.status (fileUrl "gone.js") 404))) ∧
      loadOther.1 = some () ∧ loadWanting.2.requests ≠ loadOther.2.requests := by
    decide +kernel
  have hload : Op.Steps (Server.ofModules wanting)
      (byLines.load 3 "http://slides.test/main.js", byLines.start ())
      (.done (.error (.failed (fileUrl "gone.js") (.status (fileUrl "gone.js") 404))),
        loadWanting.2) := by
    unfold loadWanting at hends ⊢
    exact Op.steps_of_fst_run hends
  have hrun : ∃ trace, byLines.Run (Server.ofModules wanting)
      (Spares "http://slides.test/main.js") loadWanting.2 trace loadOther.2 := by
    unfold loadOther at hother ⊢
    obtain ⟨steps, hpath⟩ := (Op.steps_of_fst_run hother).exists_path
    exact ⟨_, .call .refl ⟨by simp, by simp⟩ hpath⟩
  obtain ⟨trace, hrun⟩ := hrun
  obtain ⟨hterminates, hfinal⟩ := final_of_load (.start ()) hload hrun 0
  obtain ⟨r', w₃, hagain⟩ := hterminates.exists_done .refl
  obtain ⟨hsame, -, hresult⟩ := hfinal _ _ hagain
  obtain rfl := hresult r' rfl
  exact ⟨_, _, w₃, trace, _, hload, hrun, hrequests, hagain, hsame⟩

end Loader

end ModuleLoader
