import ModuleLoader.Imports.Scan
import ModuleLoader.Proofs.Compile.Imports
import ModuleLoader.Proofs.Imports.Exchange
import ModuleLoader.Proofs.Imports.Written

/-! # No import is missed

The scan that knows no grammar finds every import that is plainly written, if what stands before it
hides no part of it and nothing else that looks like an import reaches over it.

* **`Stands`** is an import in a text.
* **`Kind.Clear`** says that nothing that looks like an import reaches over another one.
* **`Stands.exists_mem`** says that the import is found.
* **`scan_text_of_syntaxTree`** says that the scan finds what reading the module does. -/

namespace ModuleLoader.TextScan

/-! ## Imports in a text -/

/-- A piece of a text may stand before an import. -/
def Kind.mayFollow (k : Kind) : Piece → Bool
  | .code c => k.before c
  | .block _ => true
  | .line _ => false

/-- An import that is plainly written stands in a text, behind something that it may stand behind;
the patterns take comments out of what is before it, and out of it with what follows. -/
inductive Stands (x : List Char) (k : Kind) : List Piece → Prop
  | intro {before w after u₁ u₂ : List Piece} (hw : Written x k w)
    (hbefore : ∀ p ∈ before.getLast?, k.mayFollow p = true) (h₁ : Unblocks before u₁)
    (h₂ : Unblocks (w ++ after) u₂) (hlines : LinesTidy none (u₁ ++ u₂)) :
    Stands x k (before ++ (w ++ after))

/-- Nothing that looks like an import of the kind reaches over another one by another specifier. -/
def Kind.Clear (k : Kind) (cs : List Char) : Prop :=
  ∀ place ∈ cs.tails, ∀ m ∈ matchAt? k.before k.shape (place.length == cs.length) place,
    ∀ wide ∈ cs.tails, place.length < wide.length →
      ∀ m' ∈ matchAt? k.before k.shape (wide.length == cs.length) wide,
        m'.after.length < place.length → m'.specifier = m.specifier

instance (k : Kind) (cs : List Char) : Decidable (k.Clear cs) :=
  inferInstanceAs (Decidable (∀ place ∈ cs.tails, _))

variable {before w after r u u₁ u₂ : List Piece} {x cs : List Char} {k : Kind}

/-! ## What is before an import -/

/-- What may stand before an import is no part of one. -/
theorem Kind.shape_eq_none {c : Char} (hc : k.before c = true) (cs : List Char) :
    k.shape (c :: cs) = none := by
  have hword {word : String} {d : Char} {y : List Char} (hword : word.toList = d :: y)
      (hd : k.before d = false) : behind word (c :: cs) = none := by
    rw [Option.eq_none_iff_forall_ne_some]
    intro rest hrest
    obtain ⟨cs', hcs'⟩ := head?_of_behind hword hrest
    obtain ⟨rfl, -⟩ := List.cons.inj hcs'
    exact Bool.false_ne_true (hd.symm.trans hc)
  cases k with
  | declaration => rw [Kind.shape, staticImport?, hword (d := 'i') rfl rfl]; rfl
  | call => rw [Kind.shape, dynamicImport?, hword (d := 'i') rfl (by decide +kernel)]; rfl
  | reexport => rw [Kind.shape, exportFrom?, hword (d := 'e') rfl rfl]; rfl

/-- An import may stand behind a blank. -/
theorem Kind.before_blank (k : Kind) : k.before ' ' = true := by cases k <;> decide +kernel

/-- The last of some elements is the first one if it is alone, and else the last of the others. -/
theorem mem_getLast?_cons {α : Type} {a b : α} {l : List α} :
    b ∈ (a :: l).getLast? ↔ l = [] ∧ b = a ∨ b ∈ l.getLast? := by
  cases l with
  | nil => simp [eq_comm]
  | cons c l => simp

/-- The first pattern leaves nothing of nothing only. -/
theorem Unblocks.eq_nil (h : Unblocks r []) : r = [] := by
  cases h
  rfl

/-- The first pattern leaves at the end of a text what may stand before an import, if that is
there. -/
theorem Unblocks.mayFollow (h : Unblocks r u) (hr : ∀ p ∈ r.getLast?, k.mayFollow p = true) :
    ∀ q ∈ u.getLast?, k.mayFollow q = true := by
  induction h with
  | nil => exact nofun
  | code _ h ih =>
    intro q hq
    obtain ⟨rfl, rfl⟩ | hq := mem_getLast?_cons.1 hq
    · exact hr _ (mem_getLast?_cons.2 (.inl ⟨h.eq_nil, rfl⟩))
    · exact ih (fun p hp => hr p (mem_getLast?_cons.2 (.inr hp))) q hq
  | hidden _ _ ih =>
    intro q hq
    obtain ⟨-, rfl⟩ | hq := mem_getLast?_cons.1 hq
    · exact k.before_blank
    · exact ih (fun p hp => hr p (by rw [List.getLast?_append, hp]; rfl)) q hq
  | block _ ih =>
    intro q hq
    obtain ⟨-, rfl⟩ | hq := mem_getLast?_cons.1 hq
    · exact k.before_blank
    · exact ih (fun p hp => hr p (mem_getLast?_cons.2 (.inr hp))) q hq
  | line _ _ h ih =>
    intro q hq
    obtain ⟨rfl, rfl⟩ | hq := mem_getLast?_cons.1 hq
    · exact absurd (hr _ (mem_getLast?_cons.2 (.inl ⟨h.eq_nil, rfl⟩))) Bool.false_ne_true
    · exact ih (fun p hp => hr p (mem_getLast?_cons.2 (.inr hp))) q hq

/-- The rest of a line that ends in a text ends as the text does. -/
theorem getLast?_restOfLine {x : List Char} (h : '\n' ∈ x) :
    (restOfLine x).getLast? = x.getLast? := by
  obtain ⟨y, hy⟩ : restOfLine x <:+ x := List.dropWhile_suffix _
  have hne : restOfLine x ≠ [] := by
    intro hnil
    exact absurd (List.dropWhile_eq_nil_iff.1 hnil _ h) (by decide)
  have hlast : (y ++ restOfLine x).getLast? = (restOfLine x).getLast? :=
    List.getLast?_append_of_ne_nil y hne
  rw [hy] at hlast
  exact hlast.symm

/-- So does the second pattern, before a text that starts with no end of a line. -/
theorem LinesTidy.before_getLast? {last : Option Char} (h : LinesTidy last (u ++ u₂))
    (hends : endsByNewline u₂ = false) (hu : ∀ q ∈ u.getLast?, k.mayFollow q = true) :
    ∀ d ∈ (stripped u).getLast?, k.before d = true := by
  induction u generalizing last with
  | nil => exact nofun
  | cons q u ih =>
    have hu' : ∀ q ∈ u.getLast?, k.mayFollow q = true :=
      fun q hq => hu q (mem_getLast?_cons.2 (.inr hq))
    cases q with
    | code c =>
      intro d hd
      obtain ⟨hnil, rfl⟩ | hd := mem_getLast?_cons.1 hd
      · have hall : Among (fun _ => true) u := fun _ _ => rfl
        have hu₀ : u = [] := by
          by_contra hne
          exact (stripped_of_among hall h.2 hends).2 hne hnil
        exact hu _ (mem_getLast?_cons.2 (.inl ⟨hu₀, rfl⟩))
      · exact ih h.2 hu' d hd
    | block text => exact h.elim
    | line text =>
      obtain ⟨-, -, hline, hrest⟩ := h
      have hnewline := (endsByNewline_append hends hline []).2
      rw [stripped, getLast?_restOfLine hnewline]
      exact ih hrest hu'

/-! ## Imports are found -/

/-- What is written starts with a word. -/
theorem Written.startsWord (hw : Written x k w) :
    ∃ word w', w = codeOf word ++ w' ∧ IsToken word := by
  have himport : IsToken "import".toList := .of_all rfl (by decide)
  have hexport : IsToken "export".toList := .of_all rfl (by decide)
  cases hw <;> exact ⟨_, _, rfl, by assumption⟩

/-- What is written starts with no asterisk. -/
theorem Written.nextCode_ne (hw : Written x k w) : nextCode (w ++ after) ≠ some '*' := by
  intro h
  cases hw <;> exact absurd (Option.some.inj h) (by decide)

/-- The shape of the kind passes something. -/
theorem Kind.consumes (k : Kind) : Consumes k.shape := by
  cases k
  · exact consumes_staticImport
  · exact consumes_dynamicImport
  · exact consumes_exportFrom

/-- What the kind's search finds is found. -/
theorem Kind.mem_allFound {f : Found} (hf : f ∈ search k.before k.shape k.isDynamic cs) :
    f ∈ allFound cs := by
  cases k with
  | declaration => exact List.mem_append_left _ (List.mem_append_left _ hf)
  | call => exact List.mem_append_left _ (List.mem_append_right _ hf)
  | reexport => exact List.mem_append_right _ hf

/-- The shape of a kind is found behind what it may stand behind, or at the start. -/
theorem Kind.exists_mem_allFound {early rest : List Char} {m : Match}
    (hearly : ∀ d ∈ early.getLast?, k.before d = true) (hm : k.shape rest = some m)
    (hclear : k.Clear (early ++ rest)) :
    ∃ f ∈ allFound (early ++ rest), f.reference = ⟨String.ofList m.specifier, k.isDynamic⟩ := by
  -- the place where the search comes to the import
  obtain ⟨early', place, hplace, hmatch⟩ : ∃ early' place, early ++ rest = early' ++ place ∧
      matchAt? k.before k.shape early'.isEmpty place = some m := by
    obtain rfl | ⟨early', d, rfl⟩ := List.eq_nil_or_concat early
    · refine ⟨[], rest, rfl, ?_⟩
      obtain ⟨-, -, hlength⟩ := k.consumes _ _ hm
      cases rest with
      | nil => exact absurd hlength (Nat.not_lt_zero _)
      | cons c rest => rw [List.isEmpty_nil, matchAt?, if_pos rfl, hm]; rfl
    · have hd : k.before d = true :=
        hearly d (by rw [List.concat_eq_append, List.getLast?_concat]; rfl)
      refine ⟨early', d :: rest, by simp, ?_⟩
      rw [matchAt?, k.shape_eq_none hd, ite_self, if_pos hd, hm]
      rfl
  rw [hplace] at hclear ⊢
  -- the start of the text is told by the length
  have hstart (first : List Char) (y : List Char) :
      (y.length == (first ++ y).length) = (true && first.isEmpty) := by
    cases first with
    | nil => simp
    | cons c first =>
      simp only [List.cons_append, List.length_cons, List.length_append, List.isEmpty_cons,
        Bool.and_false, beq_eq_false_iff_ne]
      omega
  have hfinds : Finds k.before k.shape k.isDynamic true (early' ++ place) _ :=
    finds_searchFrom k.consumes (Nat.lt_succ_self _)
  obtain ⟨f, hf, href⟩ := hfinds.exists_mem k.consumes rfl hmatch
    fun first between hsplit hbetween m' hm' hover => by
      refine hclear place ((List.mem_tails _ _).2 (List.suffix_append _ _)) m ?_ (between ++ place)
        ((List.mem_tails _ _).2 ?_) ?_ m' ?_ hover
      · rw [hstart]
        exact hmatch
      · rw [hsplit, List.append_assoc]
        exact List.suffix_append _ _
      · have := List.length_pos_iff.2 hbetween
        rw [List.length_append]
        omega
      · rw [hsplit, List.append_assoc, hstart]
        exact hm'
  exact ⟨f, k.mem_allFound hf, href⟩

/-- What is found is a reference of the text, and no dynamic one if it is not found as one. -/
theorem exists_mem_referencesIn {f : Found} (hf : f ∈ allFound cs) :
    ∃ ref ∈ referencesIn cs, ref.specifier = f.reference.specifier ∧
      (f.reference.isDynamic = false → ref.isDynamic = false) := by
  have hmem : f.reference ∈
      ((allFound cs).mergeSort fun a b => a.tail ≥ b.tail).map Found.reference :=
    List.mem_map_of_mem (List.mem_mergeSort.2 hf)
  cases hdynamic : f.reference.isDynamic with
  | false =>
    refine ⟨f.reference, ?_, rfl, fun _ => hdynamic⟩
    have hfound : (⟨f.reference.specifier, false⟩ : Reference) = f.reference := by rw [← hdynamic]
    exact hfound ▸ static_mem_mergeReferences.2 (hfound.symm ▸ hmem)
  | true =>
    obtain ⟨ref, href, hspecifier⟩ := List.mem_map.1
      (specifier_mem_mergeReferences.2 (List.mem_map_of_mem (f := Reference.specifier) hmem))
    exact ⟨ref, href, hspecifier, nofun⟩

/-- An import that stands in a text is found. -/
theorem Stands.exists_mem (h : Stands x k r) (hr : Delimited r)
    (hclear : k.Clear (withoutComments (textOf r))) :
    ∃ ref ∈ scanText (String.ofList (textOf r)), ref.specifier = String.ofList x ∧
      (k.isDynamic = false → ref.isDynamic = false) := by
  obtain @⟨before, w, after, u₁, u₂, hw, hbefore, h₁, h₂, hlines⟩ := h
  obtain ⟨last, hlines₂⟩ := hlines.right
  obtain ⟨m, hm, rfl⟩ := shape_of_written hw h₂ hlines₂
  have hends : endsByNewline u₂ = false := by
    obtain ⟨word, w', rfl, hword⟩ := hw.startsWord
    rw [List.append_assoc] at h₂
    exact hword.endsByNewline_eq h₂
  have htext : withoutComments (textOf (before ++ (w ++ after))) = stripped u₁ ++ stripped u₂ := by
    rw [withoutComments_textOf hr (h₁.append h₂ hw.nextCode_ne) hlines,
      stripped_append hends hlines]
  rw [htext] at hclear
  obtain ⟨f, hf, href⟩ := Kind.exists_mem_allFound
    (hlines.before_getLast? hends (h₁.mayFollow hbefore)) hm hclear
  obtain ⟨ref, hmem, hspecifier, hstatic⟩ := exists_mem_referencesIn hf
  refine ⟨ref, ?_, ?_, ?_⟩
  · rw [scanText_eq, String.toList_ofList, htext]
    exact hmem
  · rw [hspecifier, href]
  · rw [href] at hstatic
    exact hstatic

/-- The scan that knows no grammar finds what reading the module does, if that is plainly written,
and finds what is imported statically as such. -/
theorem scan_text_of_syntaxTree {source path : String} (hsource : source.toList = textOf r)
    (hr : Delimited r) (hclear : ∀ k : Kind, k.Clear (withoutComments (textOf r)))
    (hstands : ∀ ref ∈ (scan .syntaxTree source path).references, ∃ k,
      Stands ref.specifier.toList k r ∧ (ref.isDynamic = false → k.isDynamic = false)) :
    ∀ ref ∈ (scan .syntaxTree source path).references,
      ∃ ref' ∈ (scan .text source path).references, ref'.specifier = ref.specifier ∧
        (ref.isDynamic = false → ref'.isDynamic = false) := by
  intro ref href
  obtain ⟨k, hk, hstatic⟩ := hstands ref href
  obtain ⟨ref', hmem, hspecifier, hstatic'⟩ := hk.exists_mem hr (hclear k)
  rw [← hsource, String.ofList_toList] at hmem
  rw [String.ofList_toList] at hspecifier
  exact ⟨ref', hmem, hspecifier, fun h => hstatic' (hstatic h)⟩

/-- A module that imports by a declaration and by a call, with comments and a string. -/
def plainImports : List Piece :=
  codeOf "import a ".toList ++ .block " one */".toList :: (codeOf " from 'react'".toList ++
    (codeOf ";".toList ++ .line " two".toList :: (codeOf "\nf(\"s\", ".toList ++
      (codeOf "import(\"chart\"));".toList ++ []))))

theorem scan_text_of_syntaxTree_plainImports :
    (scan .syntaxTree (String.ofList (textOf plainImports)) "/m.js").references =
        [⟨"react", false⟩, ⟨"chart", true⟩] ∧
      ∀ ref ∈ (scan .syntaxTree (String.ofList (textOf plainImports)) "/m.js").references,
        ∃ ref' ∈ (scan .text (String.ofList (textOf plainImports)) "/m.js").references,
          ref'.specifier = ref.specifier ∧ (ref.isDynamic = false → ref'.isDynamic = false) := by
  have hr : Delimited plainImports := by decide +kernel
  have htree : (scan .syntaxTree (String.ofList (textOf plainImports)) "/m.js").references =
      [⟨"react", false⟩, ⟨"chart", true⟩] := by decide +kernel
  have hline {r u : List Piece} (h : Unblocks r u) :
      Unblocks (.line " two".toList :: r) (.line " two".toList :: u) := by
    have hcloses : Unblocks (.line " two".toList :: r) (.line (withoutBlocks " two".toList) :: u) :=
      .line (by decide) (.of_opensBlock (by decide)) h
    rwa [withoutBlocks_eq_self (by decide)] at hcloses
  have hblock {r u : List Piece} (h : Unblocks r u) :
      Unblocks (codeOf "import a ".toList ++ .block " one */".toList ::
          (codeOf " from 'react'".toList ++ r))
        (codeOf "import a ".toList ++ .code ' ' :: (codeOf " from 'react'".toList ++ u)) :=
    .codes (by decide) (.block (.codes (by decide) h))
  have hbetween {r u : List Piece} (h : Unblocks r u) :
      Unblocks (codeOf ";".toList ++ .line " two".toList :: (codeOf "\nf(\"s\", ".toList ++ r))
        (codeOf ";".toList ++ .line " two".toList :: (codeOf "\nf(\"s\", ".toList ++ u)) :=
    .codes (by decide) (hline (.codes (by decide) h))
  have hcall : Unblocks (codeOf "import(\"chart\"));".toList ++ [])
      (codeOf "import(\"chart\"));".toList ++ []) := .codes (by decide) .nil
  have hstands {x : List Char} {k : Kind} {before w after u₁ u₂ : List Piece} (hw : Written x k w)
      (hbefore : ∀ p ∈ before.getLast?, k.mayFollow p = true) (h₁ : Unblocks before u₁)
      (h₂ : Unblocks (w ++ after) u₂) (hlines : LinesTidy none (u₁ ++ u₂))
      (hsplit : plainImports = before ++ (w ++ after)) : Stands x k plainImports :=
    hsplit ▸ .intro hw hbefore h₁ h₂ hlines
  have hreact : Stands "react".toList .declaration plainImports := by
    have hw : Written "react".toList .declaration _ :=
      .clause (k := codeOf " a ".toList ++ [.block " one */".toList, .code ' '])
        (g := codeOf " ".toList) (by decide +kernel) (by decide) (by decide)
        (w := "'react'".toList) ⟨⟨'\x27', '\x27', rfl, rfl, rfl⟩, by decide, by decide, by decide⟩
    have hbefore : ∀ p ∈ ([] : List Piece).getLast?, Kind.declaration.mayFollow p = true := by simp
    exact hstands hw hbefore .nil (hblock (hbetween hcall)) (by decide +kernel) rfl
  have hchart : Stands "chart".toList .call plainImports := by
    have hw : Written "chart".toList .call _ :=
      .call (by decide : Among Text.isWhiteSpace []) (by decide : Among Text.isWhiteSpace [])
        (by decide : Among Text.isWhiteSpace []) (w := "\"chart\"".toList)
        ⟨⟨'"', '"', rfl, rfl, rfl⟩, by decide, by decide, by decide⟩
    exact hstands hw (by decide +kernel) (hblock (hbetween .nil)) hcall (by decide +kernel) rfl
  have hclear (k : Kind) : k.Clear (withoutComments (textOf plainImports)) := by
    rw [withoutComments_textOf hr (hblock (hbetween hcall)) (by decide +kernel)]
    cases k <;> decide +kernel
  refine ⟨htree, scan_text_of_syntaxTree (String.toList_ofList) hr hclear ?_⟩
  rw [htree]
  simp only [List.forall_mem_cons]
  exact ⟨⟨_, hreact, fun _ => rfl⟩, ⟨_, hchart, nofun⟩, nofun⟩

/-- A module that imports by the address of another host, without a scheme. -/
def schemelessImport : List Char := "import \"//cdn.test/x.js\";".toList

/-- The second pattern takes a specifier for a comment that starts with two slashes, so the scan
that knows no grammar misses the import. -/
theorem scan_text_schemelessImport :
    (scan .syntaxTree (String.ofList schemelessImport) "/m.js").references =
        [⟨"//cdn.test/x.js", false⟩] ∧
      (scan .text (String.ofList schemelessImport) "/m.js").references = [] := by
  refine ⟨by decide +kernel, ?_⟩
  have hblocks : withoutBlocks schemelessImport = schemelessImport :=
    withoutBlocks_eq_self (by decide +kernel)
  have hlines : withoutLines schemelessImport = "import \"".toList := by decide +kernel
  rw [scan, scanText_eq, String.toList_ofList, withoutComments, hblocks, hlines,
    referencesIn_of_pairwise (by decide +kernel)]
  decide +kernel

end ModuleLoader.TextScan
