import ModuleLoader.Config.Basic
import ModuleLoader.Specifier
import Mathlib.Data.List.Basic
import Mathlib.Data.List.Induction
import Mathlib.Data.List.TakeWhile

/-! # Extensions of names

An extension is put behind the text of a path, and the path is read anew. Whether the URL has an
extension then is decided by the name that ends the text: reading drops dots that stand for nothing,
encodes characters and may move a drive letter, and none of that touches an extension.

* **`Url.nameBehind`** is the name that ends a text, **`Url.lastName`** the one that ends a path
  that is set.
* **`Url.isExtended_iff`** says which names have an extension.
* **`Url.hasExtension_withPath`** says what setting a path does.
* **`Url.hasExtension_withExtension_iff`** says when an extension that is put behind a path is
  one. -/

namespace ModuleLoader

open Text

/-! ## Names -/

namespace Url

variable {separates : Char → Bool}

/-- What stands behind the last separator of a text. -/
def nameBehind (separates : Char → Bool) (cs : List Char) : List Char :=
  (cs.reverse.takeWhile fun c => !separates c).reverse

/-- Behind a separator it makes no difference what stands before. -/
theorem nameBehind_append_of_any {ys : List Char} (h : ys.any separates = true) (xs : List Char) :
    nameBehind separates (xs ++ ys) = nameBehind separates ys := by
  unfold nameBehind
  rw [List.reverse_append, List.takeWhile_append, if_neg]
  -- all of `ys` would be taken only if there were no separator in it
  intro hlength
  obtain ⟨c, hc, hsep⟩ := List.any_eq_true.1 h
  have hall := List.takeWhile_eq_self_iff.1 ((List.takeWhile_prefix _).eq_of_length hlength)
  simpa [hsep] using hall c (List.mem_reverse.2 hc)

/-- A text without separators is put behind the name that ends another. -/
theorem nameBehind_append_of_all {ys : List Char} (h : ∀ c ∈ ys, separates c = false)
    (xs : List Char) : nameBehind separates (xs ++ ys) = nameBehind separates xs ++ ys := by
  unfold nameBehind
  have hself : (ys.reverse.takeWhile fun c => !separates c) = ys.reverse := by
    rw [List.takeWhile_eq_self_iff]
    intro c hc
    rw [h c (List.mem_reverse.1 hc)]
    rfl
  rw [List.reverse_append, List.takeWhile_append, if_pos (by rw [hself]), List.reverse_append,
    List.reverse_reverse]

/-- A text without separators is a name. -/
theorem nameBehind_of_all {cs : List Char} (h : ∀ c ∈ cs, separates c = false) :
    nameBehind separates cs = cs :=
  nameBehind_append_of_all h []

/-- A name stands behind a separator. -/
theorem nameBehind_append_cons {c : Char} (hc : separates c = true) (xs ys : List Char) :
    nameBehind separates (xs ++ c :: ys) = nameBehind separates ys := by
  rw [nameBehind_append_of_any (by simp [hc])]
  by_cases hys : ys.any separates = true
  · exact nameBehind_append_of_any hys [c]
  · have hall : ∀ d ∈ ys, separates d = false := by simpa using hys
    have hone : nameBehind separates [c] = [] := by simp [nameBehind, hc]
    rw [nameBehind_of_all hall, ← List.singleton_append, nameBehind_append_of_all hall, hone,
      List.nil_append]

/-- There is no separator in a name. -/
theorem separates_of_mem_nameBehind {cs : List Char} {c : Char}
    (h : c ∈ nameBehind separates cs) : separates c = false := by
  have htaken := List.mem_takeWhile_imp (List.mem_reverse.1 h)
  simpa using htaken

/-- A separator begins a part. -/
theorem splitAtChar_cons_self (sep : Char) (cs : List Char) :
    splitAtChar sep (sep :: cs) = [] :: splitAtChar sep cs := by
  rw [splitAtChar, List.foldr_cons, if_pos (beq_self_eq_true sep)]
  rfl

/-- Any other character is put before the first part. -/
theorem splitAtChar_cons_of_ne {sep c : Char} {cs part : List Char} {parts : List (List Char)}
    (hc : c ≠ sep) (h : splitAtChar sep cs = part :: parts) :
    splitAtChar sep (c :: cs) = (c :: part) :: parts := by
  rw [splitAtChar] at h ⊢
  rw [List.foldr_cons, h, if_neg (by simpa using hc)]

/-- The name that ends a text is the last of the parts between its separators. There is no part
before it exactly if there is no separator. -/
theorem exists_splitAtChar (sep : Char) (cs : List Char) :
    ∃ front, splitAtChar sep cs = front ++ [nameBehind (· == sep) cs] ∧
      (front = [] ↔ sep ∉ cs) := by
  induction cs with
  | nil => exact ⟨[], rfl, by simp⟩
  | cons c cs ih =>
    obtain ⟨front, hsplit, hfront⟩ := ih
    by_cases hc : c = sep
    · subst hc
      have hname : nameBehind (· == c) ([] ++ c :: cs) = nameBehind (· == c) cs :=
        nameBehind_append_cons (by simp) [] cs
      refine ⟨[] :: front, ?_, by simp⟩
      rw [splitAtChar_cons_self, hsplit, ← List.nil_append (c :: cs), hname]
      rfl
    · cases front with
      | nil =>
        have hnone : sep ∉ cs := hfront.1 rfl
        have hall : ∀ d ∈ cs, (d == sep) = false := by
          intro d hd
          simpa using ne_of_mem_of_not_mem hd hnone
        refine ⟨[], ?_, by simp [hnone, Ne.symm hc]⟩
        rw [splitAtChar_cons_of_ne hc hsplit, nameBehind_of_all hall,
          nameBehind_of_all (by simpa [hc] using hall)]
        rfl
      | cons part front =>
        have hsome : sep ∈ cs := by
          by_contra hnone
          exact List.cons_ne_nil _ _ (hfront.2 hnone)
        have hname : nameBehind (· == sep) (c :: cs) = nameBehind (· == sep) cs :=
          nameBehind_append_of_any (by simpa using hsome) [c]
        refine ⟨(c :: part) :: front, ?_, by simp [hsome]⟩
        rw [splitAtChar_cons_of_ne hc hsplit, hname]
        rfl

/-! ## Extensions -/

/-- Something follows the first dot of a text exactly if there is a dot before its last
character. -/
theorem one_lt_length_dropWhile_iff (cs : List Char) :
    1 < (cs.dropWhile (· != '.')).length ↔ '.' ∈ cs.dropLast := by
  induction cs with
  | nil => simp
  | cons c cs ih =>
    cases cs with
    | nil => by_cases hc : c = '.' <;> simp [hc]
    | cons d cs =>
      rw [List.dropLast_cons_cons]
      by_cases hc : c = '.'
      · simp [hc]
      · rw [List.dropWhile_cons_of_pos (by simpa using hc), ih]
        simp [Ne.symm hc]

/-- A name has an extension exactly if there is a dot behind its first character and it does not end
in a dot. -/
theorem isExtended_iff (name : List Char) :
    isExtended name = true ↔ '.' ∈ name.tail ∧ name.getLast? ≠ some '.' := by
  have htail : '.' ∈ name.tail ↔ 1 < (name.reverse.dropWhile (· != '.')).length := by
    rw [one_lt_length_dropWhile_iff, List.dropLast_reverse, List.mem_reverse]
  rw [htail, ← List.head?_reverse, isExtended]
  cases name.reverse with
  | nil => simp
  | cons c cs =>
    by_cases hc : c = '.'
    · simp [hc]
    · rw [List.takeWhile_cons_of_pos (by simpa using hc)]
      rcases List.dropWhile (· != '.') (c :: cs) with - | ⟨d, - | ⟨d', ds⟩⟩ <;> simp [hc]

/-- A text that is empty, or has no dot behind its first character, has no extension. -/
theorem isExtended_eq_false_of_notMem {name : List Char} (h : '.' ∉ name.tail) :
    isExtended name = false := by
  rw [← Bool.not_eq_true, isExtended_iff]
  exact fun hext => h hext.1

/-! ## Encoding -/

/-- Hexadecimal digits are neither dots nor slashes. -/
theorem hexDigitUpper_ne : ∀ n < 16, hexDigitUpper n ≠ '.' ∧ hexDigitUpper n ≠ '/' := by
  decide

/-- The bytes of an encoded character are written without dots and slashes. -/
theorem ne_of_mem_percentByte {b : UInt8} {c : Char} (h : c ∈ percentByte b) :
    c ≠ '.' ∧ c ≠ '/' := by
  have hb : b.toNat < 256 := b.toNat_lt
  have hhigh := hexDigitUpper_ne (b.toNat / 16) (by omega)
  have hlow := hexDigitUpper_ne (b.toNat % 16) (by omega)
  simp only [percentByte, List.mem_cons, List.not_mem_nil, or_false] at h
  rcases h with rfl | rfl | rfl
  · decide
  · exact hhigh
  · exact hlow

/-- A character is kept, or is written without dots and slashes. -/
theorem percentChar_cases (encoded : Char → Bool) (c : Char) :
    percentChar encoded c = [c] ∨
      (128 ≤ c.toNat ∨ encoded c = true) ∧ percentChar encoded c ≠ [] ∧
        ∀ d ∈ percentChar encoded c, d ≠ '.' ∧ d ≠ '/' := by
  by_cases hc : (c.toNat ≥ 128 || encoded c) = true
  · rw [percentChar, if_pos hc]
    refine .inr ⟨by simpa using hc, ?_, ?_⟩
    · have hlength := String.length_utf8EncodeChar c
      have hpos := c.utf8Size_pos
      cases hbytes : String.utf8EncodeChar c with
      | nil =>
        rw [hbytes, List.length_nil] at hlength
        omega
      | cons b bs => simp [percentByte]
    · intro d hd
      obtain ⟨b, -, hd⟩ := List.mem_flatMap.1 hd
      exact ne_of_mem_percentByte hd
  · exact .inl (by rw [percentChar, if_neg hc])

section

variable {encoded : Char → Bool}

/-- Encoding adds no dot and no slash. -/
theorem mem_of_mem_percentEncode {cs : List Char} {d : Char} (hd : d = '.' ∨ d = '/')
    (h : d ∈ percentEncode encoded cs) : d ∈ cs := by
  obtain ⟨c, hc, hmem⟩ := List.mem_flatMap.1 h
  rcases percentChar_cases encoded c with hkept | ⟨-, -, hother⟩
  · rw [hkept, List.mem_singleton] at hmem
    exact hmem ▸ hc
  · have hne := hother d hmem
    rcases hd with rfl | rfl
    · exact absurd rfl hne.1
    · exact absurd rfl hne.2

/-- A dot that is not encoded is kept. -/
theorem percentChar_dot (hdot : encoded '.' = false) : percentChar encoded '.' = ['.'] := by
  rw [percentChar, if_neg (by simp [hdot])]

/-- Encoding keeps the dots behind the first character of a text. -/
theorem dot_mem_tail_percentEncode_iff (hdot : encoded '.' = false) (cs : List Char) :
    '.' ∈ (percentEncode encoded cs).tail ↔ '.' ∈ cs.tail := by
  have hmem : ∀ ds, '.' ∈ percentEncode encoded ds ↔ '.' ∈ ds := by
    refine fun ds => ⟨mem_of_mem_percentEncode (.inl rfl), fun h => ?_⟩
    exact List.mem_flatMap.2 ⟨'.', h, by rw [percentChar_dot hdot]; exact List.mem_singleton_self _⟩
  cases cs with
  | nil => rfl
  | cons c cs =>
    have hcons : percentEncode encoded (c :: cs) =
        percentChar encoded c ++ percentEncode encoded cs := rfl
    rw [hcons, List.tail_cons, ← hmem cs]
    rcases percentChar_cases encoded c with hkept | ⟨-, hne, hother⟩
    · rw [hkept]
      rfl
    · rw [List.tail_append_of_ne_nil hne, List.mem_append, or_iff_right]
      exact fun h => (hother '.' (List.mem_of_mem_tail h)).1 rfl

/-- Encoding keeps the dot at the end of a text, if there is one. -/
theorem getLast?_percentEncode_eq_dot_iff (hdot : encoded '.' = false) (cs : List Char) :
    (percentEncode encoded cs).getLast? = some '.' ↔ cs.getLast? = some '.' := by
  rcases List.eq_nil_or_concat cs with rfl | ⟨front, c, rfl⟩
  · rfl
  · have hone : percentEncode encoded [c] = percentChar encoded c := List.append_nil _
    rw [List.concat_eq_append, percentEncode_append, hone, List.getLast?_concat]
    rcases percentChar_cases encoded c with hkept | ⟨hencoded, hne, hother⟩
    · rw [hkept, List.getLast?_concat]
    · rw [List.getLast?_append_of_ne_nil _ hne]
      constructor
      · exact fun h => absurd rfl (hother '.' (List.mem_of_getLast? h)).1
      · rintro ⟨rfl⟩
        simp [hdot] at hencoded

/-- A name has an extension exactly if it has one when it is encoded. -/
theorem isExtended_percentEncode (hdot : encoded '.' = false) (name : List Char) :
    isExtended (percentEncode encoded name) = isExtended name := by
  rw [Bool.eq_iff_iff, isExtended_iff, isExtended_iff, dot_mem_tail_percentEncode_iff hdot,
    Ne, Ne, getLast?_percentEncode_eq_dot_iff hdot]

/-- The name that ends an encoded text is the encoded name that ends the text. -/
theorem nameBehind_percentEncode (hslash : encoded '/' = false) (cs : List Char) :
    nameBehind (· == '/') (percentEncode encoded cs) =
      percentEncode encoded (nameBehind (· == '/') cs) := by
  -- the induction is on what is put behind the text
  induction cs using List.reverseRecOn with
  | nil => rfl
  | append_singleton cs c ih =>
    have hone : percentEncode encoded [c] = percentChar encoded c := List.append_nil _
    rw [percentEncode_append, hone]
    by_cases hc : c = '/'
    · subst hc
      have hkept : percentChar encoded '/' = ['/'] := by
        rw [percentChar, if_neg (by simp [hslash])]
      rw [hkept, nameBehind_append_cons (by rfl), nameBehind_append_cons (by rfl)]
      rfl
    · have hall : ∀ d ∈ percentChar encoded c, (d == '/') = false := by
        intro d hd
        have hmem : d = '/' → '/' ∈ [c] := by
          rintro rfl
          rw [← hone] at hd
          exact mem_of_mem_percentEncode (.inr rfl) hd
        simpa [Ne.symm hc] using hmem
      rw [nameBehind_append_of_all hall, ih, nameBehind_append_of_all (by simpa using hc),
        percentEncode_append, hone]

end

/-! ## Segments -/

/-- Dots that stand for something else have no extension. -/
theorem isExtended_of_isDoubleDot {s : String} (h : isDoubleDot s = true) :
    isExtended s.toList = false := by
  simp only [isDoubleDot, Bool.or_eq_true, beq_iff_eq] at h
  rcases h with (((((((rfl | rfl) | rfl) | rfl) | rfl) | rfl) | rfl) | rfl) | rfl <;> decide

/-- A dot that stands for nothing has no extension. -/
theorem isExtended_of_isSingleDot {s : String} (h : isSingleDot s = true) :
    isExtended s.toList = false := by
  simp only [isSingleDot, Bool.or_eq_true, beq_iff_eq] at h
  rcases h with (rfl | rfl) | rfl <;> decide

/-- The segment that ends a path leaves a segment behind that has an extension exactly if it has
one, and a slash only if it has one. -/
theorem pathStep_last (file : Bool) (reversed : List String) (s : String) :
    ∃ name rest, pathStep file reversed s true = name :: rest ∧
      isExtended name.toList = isExtended s.toList ∧ ('/' ∈ name.toList → '/' ∈ s.toList) := by
  have hempty : isExtended "".toList = false := by decide
  have hslash : '/' ∈ "".toList → '/' ∈ s.toList := fun h => nomatch h
  unfold pathStep
  by_cases hdouble : isDoubleDot s = true
  · rw [if_pos hdouble]
    exact ⟨"", _, rfl, hempty.trans (isExtended_of_isDoubleDot hdouble).symm, hslash⟩
  · rw [if_neg hdouble]
    by_cases hsingle : isSingleDot s = true
    · rw [if_pos hsingle]
      exact ⟨"", _, rfl, hempty.trans (isExtended_of_isSingleDot hsingle).symm, hslash⟩
    · rw [if_neg hsingle]
      by_cases hdrive : (file && reversed.isEmpty && isDriveLetter s) = true
      -- a drive letter has no dot, whether a colon or a bar follows it
      · rw [if_pos hdrive]
        rw [Bool.and_eq_true, isDriveLetter] at hdrive
        obtain ⟨a, b, hs⟩ : ∃ a b, s.toList = [a, b] := by
          rcases hchars : s.toList with - | ⟨a, - | ⟨b, - | ⟨c, cs⟩⟩⟩
          · simp [hchars] at hdrive
          · simp [hchars] at hdrive
          · exact ⟨a, b, rfl⟩
          · simp [hchars] at hdrive
        have hb : b ≠ '.' := by
          rintro rfl
          simp [hs] at hdrive
        refine ⟨_, _, rfl, ?_, ?_⟩
        · rw [isExtended_eq_false_of_notMem, isExtended_eq_false_of_notMem]
          · simpa [hs] using Ne.symm hb
          · simp [hs]
        · simpa [hs] using Or.inl
      · rw [if_neg hdrive]
        exact ⟨s, reversed, rfl, rfl, id⟩

/-- The segment that ends a path is read behind those before it. -/
theorem exists_pathSteps_concat (file : Bool) (front : List String) (s : String)
    (reversed : List String) :
    ∃ before, pathSteps file reversed (front ++ [s]) = pathStep file before s true := by
  induction front generalizing reversed with
  | nil => exact ⟨reversed, rfl⟩
  | cons t front ih =>
    obtain ⟨before, h⟩ := ih (pathStep file reversed t false)
    refine ⟨before, h ▸ ?_⟩
    cases front <;> rfl

/-- A path keeps the segment that ends it when it loses its empty leading segments. -/
theorem trimFilePath_concat (file : Bool) (front : List String) (name : String) :
    ∃ front', trimFilePath file (front ++ [name]) = front' ++ [name] := by
  cases file with
  | false => exact ⟨front, rfl⟩
  | true =>
    unfold trimFilePath
    rw [if_pos rfl, List.dropWhile_append]
    cases hfront : front.dropWhile (· == "") with
    | cons t front' => exact ⟨t :: front', rfl⟩
    | nil =>
      refine ⟨[], ?_⟩
      by_cases hname : name = ""
      · simp [hname]
      · simp [hname]

/-- The characters that stand between the segments of a path. -/
def separatesIn (scheme : String) (c : Char) : Bool :=
  c == '/' || (c == '\\' && isSpecialScheme scheme)

/-- The name that ends a text whose characters are replaced is the replaced name. -/
theorem nameBehind_map (replace : Char → Char) (cs : List Char) :
    nameBehind separates (cs.map replace) =
      (nameBehind (fun c => separates (replace c)) cs).map replace := by
  unfold nameBehind
  rw [← List.map_reverse, List.takeWhile_map, List.map_reverse]
  rfl

/-- The name that ends a path is the last of its written segments. -/
theorem exists_splitSegments (scheme : String) (cs : List Char) :
    ∃ front, splitSegments (isSpecialScheme scheme) cs =
      front ++ [nameBehind (separatesIn scheme) cs] := by
  unfold splitSegments
  cases hspecial : isSpecialScheme scheme with
  | false =>
    have hsep : separatesIn scheme = (· == '/') := by
      funext c
      simp [separatesIn, hspecial]
    obtain ⟨front, hsplit, -⟩ := exists_splitAtChar '/' cs
    exact ⟨front, by rw [hsep]; exact hsplit⟩
  | true =>
    have hsep : (fun c => (if c == '\\' then '/' else c) == '/') = separatesIn scheme := by
      funext c
      by_cases hc : c = '\\' <;> simp [separatesIn, hspecial, hc]
    obtain ⟨front, hsplit, -⟩ :=
      exists_splitAtChar '/' (cs.map fun c => if c == '\\' then '/' else c)
    -- nothing is replaced in a name
    have hsame : (nameBehind (separatesIn scheme) cs).map (fun c => if c == '\\' then '/' else c) =
        nameBehind (separatesIn scheme) cs := by
      refine (List.map_congr_left fun c hc => ?_).trans (List.map_id _)
      have hne := separates_of_mem_nameBehind hc
      rw [← hsep] at hne
      by_cases hback : c = '\\'
      · simp [hback] at hne
      · simp [hback]
    refine ⟨front, ?_⟩
    rw [if_pos rfl, hsplit, nameBehind_map, hsep, hsame]

/-- The name that ends a path is the last of its segments, where it has an extension exactly if it
has one as it is written. -/
theorem exists_segmentsOf (scheme : String) (before : List String) (cs : List Char) :
    ∃ front name, segmentsOf scheme before cs = front ++ [name] ∧ '/' ∉ name.toList ∧
      isExtended name.toList = isExtended (nameBehind (separatesIn scheme) cs) := by
  obtain ⟨front, hsplit⟩ := exists_splitSegments scheme cs
  unfold segmentsOf
  dsimp only
  rw [hsplit, List.map_append, List.map_singleton]
  obtain ⟨reversed, hlast⟩ := exists_pathSteps_concat (scheme == "file")
    (front.map fun s => String.ofList (percentEncode encodedInPath s))
    (String.ofList (percentEncode encodedInPath (nameBehind (separatesIn scheme) cs)))
    before.reverse
  obtain ⟨name, rest, hstep, hextended, hslash⟩ := pathStep_last (scheme == "file") reversed
    (String.ofList (percentEncode encodedInPath (nameBehind (separatesIn scheme) cs)))
  rw [hlast, hstep, List.reverse_cons]
  obtain ⟨front', htrim⟩ := trimFilePath_concat (scheme == "file") rest.reverse name
  refine ⟨front', name, htrim, fun hmem => ?_, ?_⟩
  · have hname := hslash hmem
    rw [String.toList_ofList] at hname
    have hsep := separates_of_mem_nameBehind (mem_of_mem_percentEncode (.inr rfl) hname)
    simp [separatesIn] at hsep
  · rw [hextended, String.toList_ofList, isExtended_percentEncode (by decide)]

/-- The last segment of a path is behind the others. -/
theorem lastSegment_segmentsText_concat (front : List String) {name : String}
    (h : '/' ∉ name.toList) :
    lastSegment (segmentsText (front ++ [name])).toList = name.toList := by
  have htext : segmentsText (front ++ [name]) = segmentsText front ++ ("/" ++ name) := by
    simp [segmentsText, String.join, List.foldl_append]
  have hlast : ∀ cs, lastSegment cs = nameBehind (· == '/') cs := fun _ => rfl
  have hall : ∀ c ∈ name.toList, (c == '/') = false := by
    intro c hc
    simpa using ne_of_mem_of_not_mem hc h
  rw [htext, String.toList_append, String.toList_append, hlast]
  exact (nameBehind_append_cons rfl _ _).trans (nameBehind_of_all hall)

/-- A path that is read from its start has an extension exactly if the name that ends it has one. -/
theorem isExtended_rootedSegments (scheme : String) (cs : List Char) :
    isExtended (lastSegment (segmentsText (rootedSegments scheme cs)).toList) =
      isExtended (nameBehind (separatesIn scheme) cs) := by
  have hread : ∀ cs, isExtended (lastSegment (segmentsText (segmentsOf scheme [] cs)).toList) =
      isExtended (nameBehind (separatesIn scheme) cs) := by
    intro cs
    obtain ⟨front, name, hsegments, hslash, hextended⟩ := exists_segmentsOf scheme [] cs
    rw [hsegments, lastSegment_segmentsText_concat front hslash, hextended]
  cases cs with
  | nil =>
    have hnil : nameBehind (separatesIn scheme) [] = [] := rfl
    rw [hnil, rootedSegments]
    cases isSpecialScheme scheme <;> decide
  | cons c rest =>
    have hcons : rootedSegments scheme (c :: rest) =
        if separatesIn scheme c then segmentsOf scheme [] rest
        else segmentsOf scheme [] (c :: rest) := rfl
    rw [hcons]
    by_cases hc : separatesIn scheme c = true
    -- one separator at the start is not counted
    · rw [if_pos hc, hread, ← List.nil_append (c :: rest), nameBehind_append_cons hc]
    · rw [if_neg hc, hread]

/-! ## Setting a path -/

/-- The text that a path is read from when it is set: without what a URL ignores, and with a slash
at its start encoded where paths have no hierarchy. -/
def pathInput (u : Url) (text : String) : List Char :=
  match u.path, withoutBreaks text.toList with
  | .rootless _, '/' :: rest => "%2F".toList ++ rest
  | _, cs => cs

/-- The characters behind which the names of a path stand: slashes, and backslashes where they are
slashes. -/
def separatesNames (u : Url) (c : Char) : Bool :=
  match u.path with
  | .rootless _ => c == '/'
  | .segments _ => separatesIn u.scheme c

/-- The name that ends the path that is read from a text. -/
def lastName (u : Url) (text : String) : List Char :=
  nameBehind u.separatesNames (u.pathInput text)

/-- When a path is set, the URL has an extension exactly if the name that ends the path has one. -/
theorem hasExtension_withPath (u : Url) (text : String) :
    (u.withPath text).hasExtension = isExtended (u.lastName text) := by
  cases hpath : u.path with
  | segments names =>
    have hname : u.lastName text =
        nameBehind (separatesIn u.scheme) (withoutBreaks text.toList) := by
      unfold lastName pathInput separatesNames
      rw [hpath]
    have hset : u.withPath text =
        { u with path := .segments (rootedSegments u.scheme (withoutBreaks text.toList)) } := by
      rw [withPath, hpath]
    rw [hname, hset]
    exact isExtended_rootedSegments u.scheme _
  | rootless old =>
    have hname : u.lastName text = nameBehind (· == '/') (u.pathInput text) := by
      unfold lastName separatesNames
      rw [hpath]
    have hset : u.withPath text = { u with
        path := .rootless (String.ofList (percentEncode isControl (u.pathInput text))) } := by
      rw [withPath, pathInput, hpath]
      cases withoutBreaks text.toList with
      | nil => rfl
      | cons c rest => by_cases hc : c = '/' <;> simp [hc]
    have hlast : lastSegment (percentEncode isControl (u.pathInput text)) =
        percentEncode isControl (nameBehind (· == '/') (u.pathInput text)) :=
      nameBehind_percentEncode (by decide) _
    rw [hname, hset, hasExtension, pathText, Path.text, String.toList_ofList, hlast]
    exact isExtended_percentEncode (by decide) _

/-! ## Setting an extension -/

/-- An extension that reads as it is written wherever it is put: nothing in it stands between names
or is ignored, and it does not end in a dot. -/
def isPlain (e : String) : Bool :=
  e.toList.all (fun c => !"/\\\t\n\r".toList.contains c) && e.toList.getLast? != some '.'

/-- An extension is a dot with something behind it. -/
theorem exists_of_isExtension {e : String} (he : Config.isExtension e = true) :
    ∃ c cs, e.toList = '.' :: c :: cs := by
  rw [Config.isExtension] at he
  split at he
  · next c cs h => exact ⟨c, cs, h⟩
  · cases he

/-- A plain extension is put behind the name that ends a path. -/
theorem lastName_append (u : Url) (text : String) {e : String} (he : Config.isExtension e = true)
    (hplain : isPlain e = true) : u.lastName (text ++ e) = u.lastName text ++ e.toList := by
  rw [isPlain, Bool.and_eq_true, List.all_eq_true] at hplain
  have hother : ∀ c ∈ e.toList, c ≠ '/' ∧ c ≠ '\\' ∧ c ≠ '\t' ∧ c ≠ '\n' ∧ c ≠ '\r' := by
    intro c hc
    simpa using hplain.1 c hc
  have hbreaks : withoutBreaks (text ++ e).toList = withoutBreaks text.toList ++ e.toList := by
    have hkept : withoutBreaks e.toList = e.toList := by
      apply List.filter_eq_self.2
      intro c hc
      simp [hother c hc]
    rw [String.toList_append, withoutBreaks, List.filter_append]
    exact congrArg _ hkept
  -- the dot that the extension starts with is no slash at the start of a path
  have hinput : u.pathInput (text ++ e) = u.pathInput text ++ e.toList := by
    unfold pathInput
    rw [hbreaks]
    cases u.path with
    | segments names => rfl
    | rootless old =>
      cases withoutBreaks text.toList with
      | nil =>
        obtain ⟨c, cs, hchars⟩ := exists_of_isExtension he
        rw [hchars]
        rfl
      | cons c rest => by_cases hc : c = '/' <;> simp [hc]
  unfold lastName
  rw [hinput, nameBehind_append_of_all]
  intro c hc
  obtain ⟨hslash, hback, -⟩ := hother c hc
  unfold separatesNames separatesIn
  cases u.path <;> simp [hslash, hback]

/-- A plain extension that is put behind a path is the extension of the URL exactly if there is a
name before it, or it has a dot of its own behind its first. -/
theorem hasExtension_withExtension_iff (u : Url) {e : String} (he : Config.isExtension e = true)
    (hplain : isPlain e = true) :
    (u.withExtension e).hasExtension = true ↔
      u.lastName u.pathText ≠ [] ∨ '.' ∈ e.toList.tail := by
  rw [withExtension, hasExtension_withPath, lastName_append u _ he hplain, isExtended_iff]
  rw [isPlain, Bool.and_eq_true, bne_iff_ne] at hplain
  obtain ⟨c, cs, hchars⟩ := exists_of_isExtension he
  rw [List.getLast?_append_of_ne_nil _ (by simp [hchars]), and_iff_left hplain.2]
  cases u.lastName u.pathText with
  | nil => simp
  | cons d name => simp [hchars]

end Url

end ModuleLoader
