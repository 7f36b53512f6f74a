import ModuleLoader.Proofs.Config.Records

/-! # Objects that hold options

An object may hold some of the options, in any order and among fields that are none.

* **`Config.Holds`** says that an object holds options, **`JsxConfig.Holds`** that it holds options
  for elements.
* **`Config.shownBy`** is what such an object says about options, the usual ones where it says
  nothing.
* **`Config.parse_document`** says that this is what is read of a text of the object. -/

namespace ModuleLoader

open Json Config

/-- The fields of an object. -/
abbrev Fields := List (String × Value)

/-- A field with a name is among the fields. -/
abbrev Fields.Has (fields : Fields) (name : String) : Prop := (fields.lookup name).isSome = true

/-- No two fields share one of some names. -/
def Fields.Once (names : List String) (fields : Fields) : Prop :=
  fields.Pairwise fun f g => f.1 ∈ names → f.1 ≠ g.1

/-- A field has not come before. -/
theorem Fields.Once.lookup_eq_none {names : List String} {before after : Fields}
    {f : String × Value} (h : Fields.Once names (before ++ f :: after)) (hf : f.1 ∈ names) :
    before.lookup f.1 = none := by
  rw [List.lookup_eq_none_iff]
  intro g hg
  rw [bne_iff_ne]
  rintro heq
  exact (List.pairwise_append.1 h).2.2 g hg f List.mem_cons_self (heq ▸ hf) heq.symm

variable {before : Fields} {key name : String} {v : Value}

/-- A field that comes last is found if it has not come before. -/
theorem lookup_last (h : before.lookup key = none) :
    List.lookup key (before ++ [(key, v)]) = some v := by
  rw [List.lookup_append, h, List.lookup_cons_self, Option.none_or]

/-- A field that comes last does not change what is found for other names. -/
theorem lookup_other (h : key ≠ name) :
    List.lookup name (before ++ [(key, v)]) = before.lookup name := by
  have hlast : List.lookup name [(key, v)] = none := by
    rw [List.lookup_eq_none_iff]
    intro f hf
    obtain rfl := List.mem_singleton.1 hf
    exact bne_iff_ne.2 h.symm
  rw [List.lookup_append, hlast, Option.or_none]

section Filling

variable {α : Type} {names : List String} {fields : Fields} {Holds : String → Value → Prop}
variable {set : α → String → Cursor → Except Json.Failure (Option (α × Cursor))}

/-- A record is filled with all fields if each of them adds its own part. -/
theorem fills_of_takes {shown : Fields → α} (hholds : ∀ f ∈ fields, Holds f.1 f.2)
    (honce : Fields.Once names fields)
    (hstep : ∀ {before : Fields} {key v}, Holds key v →
      (key ∈ names → before.lookup key = none) →
      Takes set (shown before) key v (shown (before ++ [(key, v)]))) :
    Fills set (shown []) fields (shown fields) := by
  suffices h : ∀ before after, before ++ after = fields →
      Fills set (shown before) after (shown fields) from h [] fields rfl
  intro before after hsplit
  induction after generalizing before with
  | nil =>
    rw [List.append_nil] at hsplit
    rw [hsplit]
    exact .nil
  | cons f after ih =>
    subst hsplit
    refine .cons (hstep (hholds f (by simp)) honce.lookup_eq_none) (ih _ ?_)
    rw [List.append_assoc, List.singleton_append]

end Filling

/-! ## Options for elements -/

namespace JsxConfig

/-- The names of the options for elements. -/
def names : List String := ["importSource", "development"]

/-- A field holds an option for elements, or it is none of them. -/
inductive HoldsField (j : JsxConfig) : String → Value → Prop
  | importSource : HoldsField j "importSource" (.string j.importSource)
  | development : HoldsField j "development" (.bool j.development)
  | unknown {key : String} {v : Value} (h : key ∉ names) : HoldsField j key v

/-- An object holds some options for elements. -/
structure Holds (j : JsxConfig) (fields : Fields) : Prop where
  /-- Each field holds an option, or it is none of them. -/
  each : ∀ f ∈ fields, j.HoldsField f.1 f.2
  /-- No option comes twice. -/
  once : Fields.Once names fields

/-- What an object says about the options for elements. -/
def shownBy (j : JsxConfig) (fields : Fields) : JsxConfig :=
  { importSource :=
      if fields.Has "importSource" then j.importSource else JsxConfig.default.importSource
    development :=
      if fields.Has "development" then j.development else JsxConfig.default.development }

/-- What a field says about the options for elements, if there is one. -/
def shownIn (j : JsxConfig) : Option Value → JsxConfig
  | some (.object fields) => j.shownBy fields
  | _ => JsxConfig.default

/-- What has been read of the options for elements behind some fields. -/
def partOf (j : JsxConfig) (fields : Fields) : JsxPartial :=
  { importSource := (fields.lookup "importSource").map fun _ => j.importSource
    development := (fields.lookup "development").map fun _ => j.development }

/-- What has been read is completed to what the object says. -/
theorem complete_partOf (j : JsxConfig) (fields : Fields) :
    (j.partOf fields).complete = j.shownBy fields := by
  cases h : fields.lookup "importSource" <;> cases h' : fields.lookup "development" <;>
    simp [partOf, shownBy, JsxPartial.complete, Fields.Has, h, h']

/-- A field adds its own option for elements. -/
theorem takes_partOf {j : JsxConfig} (h : j.HoldsField key v)
    (hnone : key ∈ names → before.lookup key = none) :
    Takes setJsx (j.partOf before) key v (j.partOf (before ++ [(key, v)])) := by
  cases h with
  | importSource =>
    have hnone := hnone (by decide)
    exact takes_field (gets_text _) (fun v => { j.partOf before with importSource := some v })
      (by simp [setJsx, partOf, hnone]) (by simp [partOf, lookup_last hnone, lookup_other])
  | development =>
    have hnone := hnone (by decide)
    exact takes_field (gets_bool _) (fun v => { j.partOf before with development := some v })
      (by simp [setJsx, partOf, hnone]) (by simp [partOf, lookup_last hnone, lookup_other])
  | unknown h =>
    simp only [names, List.mem_cons, List.not_mem_nil, or_false, not_or] at h
    have hput : j.partOf (before ++ [(key, v)]) = j.partOf before := by
      simp [partOf, lookup_other, h]
    rw [hput]
    exact .unknown fun c => by simp [setJsx, h]

/-- Options for elements are got from an object that holds some of them. -/
theorem gets_jsx {j : JsxConfig} {fields : Fields} (h : j.Holds fields) :
    Gets readJsx (.object fields) (j.shownBy fields) := by
  have hfills : Fills setJsx (j.partOf []) fields (j.partOf fields) :=
    fills_of_takes h.each h.once takes_partOf
  intro ws cs rest hws hcs hrest
  rw [← complete_partOf]
  exact (gets_record hfills hws hcs hrest).bind fun o => ⟨o, rfl⟩

end JsxConfig

/-! ## All options -/

namespace Config

/-- The way to find imports is got from its name. -/
theorem gets_scanMode (m : ScanMode) : Gets readScanMode (.string m.name) m := by
  rintro ws cs rest hws hcs - o
  rw [readScanMode, skipBlanks_append hws hcs.startsPlain]
  cases hcs with
  | string h =>
    rw [List.cons_append, List.append_assoc]
    refine (reads_string h).bind ?_ _
    cases m <;> exact fun o => ⟨o, rfl⟩

/-- The names of the options. -/
def names : List String :=
  ["probeExtensions", "probeTimeoutMs", "fallbackExtension", "blobMimeType", "blobOrigin",
    "scanMode", "jsx"]

/-- A field holds an option, or it is none of them. -/
inductive HoldsField (c : Config) : String → Value → Prop
  | probeExtensions :
    HoldsField c "probeExtensions" (.array (c.probeExtensions.map .string))
  | probeTimeoutMs : HoldsField c "probeTimeoutMs" (.number (toString c.probeTimeoutMs.toNat))
  | fallbackExtension : HoldsField c "fallbackExtension" (.string c.fallbackExtension)
  | blobMimeType : HoldsField c "blobMimeType" (.string c.blobMimeType)
  | blobOrigin : HoldsField c "blobOrigin" (.string c.blobOrigin)
  | scanMode : HoldsField c "scanMode" (.string c.scanMode.name)
  | jsx {fields : Fields} (h : c.jsx.Holds fields) : HoldsField c "jsx" (.object fields)
  | unknown {key : String} {v : Value} (h : key ∉ names) : HoldsField c key v

/-- An object holds some options. -/
structure Holds (c : Config) (fields : Fields) : Prop where
  /-- Each field holds an option, or it is none of them. -/
  each : ∀ f ∈ fields, c.HoldsField f.1 f.2
  /-- No option comes twice. -/
  once : Fields.Once names fields

/-- What an object says about the options. -/
def shownBy (c : Config) (fields : Fields) : Config :=
  { probeExtensions :=
      if fields.Has "probeExtensions" then c.probeExtensions else default.probeExtensions
    probeTimeoutMs :=
      if fields.Has "probeTimeoutMs" then c.probeTimeoutMs else default.probeTimeoutMs
    fallbackExtension :=
      if fields.Has "fallbackExtension" then c.fallbackExtension else default.fallbackExtension
    blobMimeType := if fields.Has "blobMimeType" then c.blobMimeType else default.blobMimeType
    blobOrigin := if fields.Has "blobOrigin" then c.blobOrigin else default.blobOrigin
    scanMode := if fields.Has "scanMode" then c.scanMode else default.scanMode
    jsx := c.jsx.shownIn (fields.lookup "jsx") }

/-- What has been read of the options behind some fields. -/
def partOf (c : Config) (fields : Fields) : Partial :=
  { probeExtensions := (fields.lookup "probeExtensions").map fun _ => c.probeExtensions
    probeTimeoutMs := (fields.lookup "probeTimeoutMs").map fun _ => c.probeTimeoutMs
    fallbackExtension := (fields.lookup "fallbackExtension").map fun _ => c.fallbackExtension
    blobMimeType := (fields.lookup "blobMimeType").map fun _ => c.blobMimeType
    blobOrigin := (fields.lookup "blobOrigin").map fun _ => c.blobOrigin
    scanMode := (fields.lookup "scanMode").map fun _ => c.scanMode
    jsx := (fields.lookup "jsx").map fun v => c.jsx.shownIn (some v) }

/-- An option that was read, or the usual one. -/
theorem getD_map_lookup {β : Type} (fields : Fields) (name : String) (x y : β) :
    ((fields.lookup name).map fun _ => x).getD y = if fields.Has name then x else y := by
  unfold Fields.Has
  cases fields.lookup name <;> rfl

/-- What has been read is completed to what the object says. -/
theorem complete_partOf (c : Config) (fields : Fields) :
    (c.partOf fields).complete = c.shownBy fields := by
  have hjsx : ((fields.lookup "jsx").map fun v => c.jsx.shownIn (some v)).getD default.jsx =
      c.jsx.shownIn (fields.lookup "jsx") := by
    cases fields.lookup "jsx" <;> rfl
  simp only [partOf, Partial.complete, shownBy, getD_map_lookup, hjsx]

/-- A field adds its own option. -/
theorem takes_partOf {c : Config} (h : c.HoldsField key v)
    (hnone : key ∈ names → before.lookup key = none) :
    Takes setField (c.partOf before) key v (c.partOf (before ++ [(key, v)])) := by
  cases h with
  | probeExtensions =>
    have hnone := hnone (by decide)
    exact takes_field (gets_texts _) (fun v => { c.partOf before with probeExtensions := some v })
      (by simp [setField, partOf, hnone]) (by simp [partOf, lookup_last hnone, lookup_other])
  | probeTimeoutMs =>
    have hnone := hnone (by decide)
    exact takes_field (gets_word64 _) (fun v => { c.partOf before with probeTimeoutMs := some v })
      (by simp [setField, partOf, hnone]) (by simp [partOf, lookup_last hnone, lookup_other])
  | fallbackExtension =>
    have hnone := hnone (by decide)
    exact takes_field (gets_text _) (fun v => { c.partOf before with fallbackExtension := some v })
      (by simp [setField, partOf, hnone]) (by simp [partOf, lookup_last hnone, lookup_other])
  | blobMimeType =>
    have hnone := hnone (by decide)
    exact takes_field (gets_text _) (fun v => { c.partOf before with blobMimeType := some v })
      (by simp [setField, partOf, hnone]) (by simp [partOf, lookup_last hnone, lookup_other])
  | blobOrigin =>
    have hnone := hnone (by decide)
    exact takes_field (gets_text _) (fun v => { c.partOf before with blobOrigin := some v })
      (by simp [setField, partOf, hnone]) (by simp [partOf, lookup_last hnone, lookup_other])
  | scanMode =>
    have hnone := hnone (by decide)
    exact takes_field (gets_scanMode _) (fun v => { c.partOf before with scanMode := some v })
      (by simp [setField, partOf, hnone]) (by simp [partOf, lookup_last hnone, lookup_other])
  | @jsx fields hfields =>
    have hnone := hnone (by decide)
    exact takes_field (JsxConfig.gets_jsx hfields) (fun v => { c.partOf before with jsx := some v })
      (by simp [setField, partOf, hnone])
      (by simp [partOf, lookup_last hnone, lookup_other, JsxConfig.shownIn])
  | unknown h =>
    simp only [names, List.mem_cons, List.not_mem_nil, or_false, not_or] at h
    have hput : c.partOf (before ++ [(key, v)]) = c.partOf before := by
      simp [partOf, lookup_other, h]
    rw [hput]
    exact .unknown fun cur => by simp [setField, h]

/-- Options are read from an object that holds some of them, up to what is completed. -/
theorem gets_partial {c : Config} {fields : Fields} (h : c.Holds fields) :
    Gets readPartial (.object fields) (c.partOf fields) := by
  have hfills : Fills setField (c.partOf []) fields (c.partOf fields) :=
    fills_of_takes h.each h.once takes_partOf
  exact gets_record hfills

/-- A text that holds some options is parsed to what it says about them. -/
theorem parse_document {c : Config} {fields : Fields} {text : String} (h : c.Holds fields)
    (htext : Document (.object fields) text) : parse text = .ok (c.shownBy fields) := by
  obtain ⟨ws, cs, ws', hsplit, hws, hws', hcs⟩ := htext
  obtain ⟨o, ho⟩ := gets_partial h hws hcs (stopsNumber_blanks hws') 0
  have hend : atEnd ⟨ws', o⟩ = .ok () := by
    have hskip := skipBlanks_append hws' startsPlain_nil o
    rw [List.append_nil] at hskip
    rw [atEnd, hskip]
    rfl
  rw [parse, Cursor.ofString, hsplit, ok_bind ho, ← complete_partOf]
  exact ok_bind hend _

end Config

end ModuleLoader
