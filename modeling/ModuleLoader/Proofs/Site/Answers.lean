import ModuleLoader.Proofs.Site.Fallback

/-! # What a fallback changes

A site that falls back to its index page answers for what it has as one that does not. What is
missing is told by the path alone: it cannot be located, or nothing can be read there.

* **`Site.Files.Lacks`** says that nothing can be read at a path.
* **`Site.Reply.by`** is an answer as it is given to a method.
* **`Site.answer_withFallback`** says what the fallback changes: the answers for what is missing,
  and none of them to a module. -/

namespace ModuleLoader.Site

/-! ## What is missing -/

/-- Nothing can be read at a path: it cannot be located, or it names no file. A directory is there
without a file, but for a path that ends with a slash it has to have an index file. -/
def Files.Lacks (f : Files) (target : List Char) : Prop :=
  ∀ names, locate? (splitTarget target).1 = some names →
    if f.isDirectory names then
      (splitTarget target).1.getLast? = some '/' ∧ f.read? (names ++ [indexName]) = none
    else f.read? names = none

/-- What a file answers is that nothing is there just when there is no such file. -/
theorem Files.status_reply {f : Files} {path : Path} :
    (f.reply path).status = 404 ↔ f.read? path = none := by
  rw [reply]
  cases f.read? path with
  | none => exact iff_of_true rfl rfl
  | some text => exact iff_of_false (by decide : (200 : Nat) ≠ 404) (Option.some_ne_none text)

/-- The files answer that nothing is there just when nothing can be read. -/
theorem Files.status_find {f : Files} {target : List Char} :
    (f.find target).status = 404 ↔ f.Lacks target := by
  unfold find Lacks
  cases splitTarget target with
  | mk path query =>
    dsimp only
    cases locate? path with
    | none => exact iff_of_true rfl nofun
    | some names =>
      simp only [Option.some.injEq, forall_eq']
      by_cases hdirectory : f.isDirectory names = true
      · rw [if_pos hdirectory, if_pos hdirectory]
        by_cases hslash : path.getLast? = some '/'
        · rw [if_pos (beq_iff_eq.2 hslash), status_reply, and_iff_right hslash]
        -- one is sent to the path with a slash
        · rw [if_neg (mt beq_iff_eq.1 hslash)]
          exact iff_of_false (by decide : (307 : Nat) ≠ 404) fun h => hslash h.1
      · rw [if_neg hdirectory, if_neg hdirectory, status_reply]

/-! ## Methods -/

/-- An answer as it is given to a method: only reading is allowed. -/
def Reply.by (r : Reply) (method : String) : Reply :=
  if method == "GET" then r else if method == "HEAD" then r.head else .methodNotAllowed

/-- A method by which files can be read. -/
def Reads (method : String) : Prop := method = "GET" ∨ method = "HEAD"

/-- A site answers what it finds, as it is given to the method. -/
theorem answer_eq (s : Site) (method target : String) :
    s.answer method target = (s.find target).by method := rfl

/-- To all other methods the answer is that only reading is allowed. -/
theorem Reply.by_eq_methodNotAllowed {method : String} (h : ¬ Reads method) (r : Reply) :
    r.by method = .methodNotAllowed := by
  obtain ⟨hget, hhead⟩ := not_or.1 h
  rw [Reply.by, if_neg (mt beq_iff_eq.1 hget), if_neg (mt beq_iff_eq.1 hhead)]

/-- That nothing is there is told to the methods by which files can be read. -/
theorem Reply.status_by {r : Reply} {method : String} :
    (r.by method).status = 404 ↔ Reads method ∧ r.status = 404 := by
  unfold Reply.by Reads
  by_cases hget : method = "GET"
  · simp [hget]
  · by_cases hhead : method = "HEAD"
    · simp [hhead, head]
    · simp [hget, hhead, methodNotAllowed]

/-- That nothing is there is told to both in the same way. -/
theorem Reply.notFound_by {method : String} (h : Reads method) :
    Reply.notFound.by method = .notFound := by
  obtain rfl | rfl := h <;> rfl

/-- The answer that is judged by whoever asked. -/
def Reply.toResponse (r : Reply) : Response := ⟨r.status, r.contentType, r.body⟩

/-- An answer without a module is given to every method without one. -/
theorem Reply.isModule_by {r : Reply} (h : r.toResponse.isModule = false) (method : String) :
    (r.by method).toResponse.isModule = false := by
  unfold Reply.by
  split
  · exact h
  · split
    -- the text of the answer does not matter
    · exact h
    · rfl

/-- A miss is no module. -/
theorem Reply.IsMiss.isModule_eq {r : Reply} (h : r.IsMiss) : r.toResponse.isModule = false := by
  refine Bool.eq_false_iff.2 fun hmodule => ?_
  have hsome : r.toAnswer.moduleBody? = some r.body := if_pos hmodule
  rw [h.noModule] at hsome
  cases hsome

/-! ## The fallback -/

variable {f : Files}

/-- With a fallback, what the files have is answered by the files, and all else by the index
file. -/
theorem find_withFallback (f : Files) (target : String) :
    (Site.mk f true).find target =
      if (f.find target.toList).status = 404 then f.reply [indexName]
      else f.find target.toList := by
  rw [find]
  by_cases hstatus : (f.find target.toList).status = 404 <;> simp [hstatus]

/-- The path of the index file leads to it. -/
theorem find_index (h : f.isDirectory [indexName] = false) :
    f.find "/index.html".toList = f.reply [indexName] := by
  have hsplit : splitTarget "/index.html".toList = ("/index.html".toList, none) := by decide
  have hlocate : locate? "/index.html".toList = some [indexName] := by decide +kernel
  unfold Files.find
  simp only [hsplit, hlocate, h, Bool.false_eq_true, if_false]

/-- What a fallback changes. Whatever is not answered with 404 without the fallback is answered
alike with it: files, directories, and methods that are not allowed. What is answered with 404 is
what can be read by the method and is missing. It is answered with the index page as the method gets
it, which is the answer for the path of the index page where that is no directory, and with 404 if
there is no such page. In no case is the answer a module. -/
theorem answer_withFallback (f : Files) (method target : String) :
    let plain := (Site.mk f false).answer method target
    let other := (Site.mk f true).answer method target
    (plain.status ≠ 404 → other = plain) ∧
      (plain.status = 404 ↔ Reads method ∧ f.Lacks target.toList) ∧
      (plain.status = 404 →
        (∀ text, f.read? [indexName] = some text →
          other = (Reply.file [indexName] text).by method) ∧
        (f.read? [indexName] = none → other = .notFound) ∧
        (f.isDirectory [indexName] = false →
          other = (Site.mk f false).answer method "/index.html") ∧
        other.toResponse.isModule = false) := by
  intro plain other
  have hplain : plain = (f.find target.toList).by method := by
    change ((Site.mk f false).find target).by method = _
    rw [find_of_noFallback]
  have hother : other = (if (f.find target.toList).status = 404 then f.reply [indexName]
      else f.find target.toList).by method := by
    change ((Site.mk f true).find target).by method = _
    rw [find_withFallback]
  refine ⟨fun hfound => ?_, ?_, fun hmissing => ?_⟩
  · rw [hplain, Ne, Reply.status_by] at hfound
    rw [hother, hplain]
    by_cases hstatus : (f.find target.toList).status = 404
    -- it is the method that is refused, with the fallback and without
    · have hreads : ¬ Reads method := fun hreads => hfound ⟨hreads, hstatus⟩
      rw [Reply.by_eq_methodNotAllowed hreads, Reply.by_eq_methodNotAllowed hreads]
    · rw [if_neg hstatus]
  · rw [hplain, Reply.status_by, Files.status_find]
  · rw [hplain, Reply.status_by] at hmissing
    obtain ⟨hreads, hstatus⟩ := hmissing
    rw [if_pos hstatus] at hother
    refine ⟨fun text htext => ?_, fun hnone => ?_, fun hfile => ?_, ?_⟩
    · rw [hother, Files.reply, htext]
    · rw [hother, Files.reply, hnone]
      exact Reply.notFound_by hreads
    · rw [hother, answer_eq, find_of_noFallback, find_index hfile]
    · rw [hother]
      exact Reply.isModule_by f.isMiss_index.isModule_eq method

/-- A module that is not there is answered with the page, of which only the head is given. -/
theorem answer_withFallback_pageAndModules :
    ((Site.mk Loader.pageAndModules false).answer "HEAD" "/slides/gone.jsx").status = 404 ∧
      (Site.mk Loader.pageAndModules true).answer "HEAD" "/slides/gone.jsx" =
        ⟨200, some "text/html", none, none, ""⟩ ∧
      ((Site.mk Loader.pageAndModules true).answer "HEAD"
        "/slides/gone.jsx").toResponse.isModule = false := by
  have hmissing :
      ((Site.mk Loader.pageAndModules false).answer "HEAD" "/slides/gone.jsx").status = 404 := by
    decide +kernel
  have htext : Loader.pageAndModules.read? [indexName] = some "<p>Slides</p>\n" := by
    decide +kernel
  obtain ⟨-, -, hfallback⟩ :=
    answer_withFallback Loader.pageAndModules "HEAD" "/slides/gone.jsx"
  obtain ⟨hindex, -, -, hmodule⟩ := hfallback hmissing
  exact ⟨hmissing, hindex _ htext, hmodule⟩

end ModuleLoader.Site
