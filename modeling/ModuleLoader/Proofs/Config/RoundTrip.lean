import Mathlib.Data.String.Basic
import ModuleLoader.Proofs.Config.Objects
import ModuleLoader.Proofs.Json.Compact

/-! # Options come back from their text

* **`Config.IsSound`** says that options hold together.
* **`Config.ReadsAs`** says that options are read from a text if they hold together, and that the
  text is refused otherwise.
* **`Config.text_roundTrip`** says that options come back from their own text, and from any text of
  an object that holds some of them, with the usual options for those it does not hold. -/

namespace ModuleLoader

open Json

/-! ## Options that hold together -/

/-- A text is an extension exactly if it starts with a dot and has two bytes at least. -/
theorem Config.isExtension_iff (s : String) :
    isExtension s = true ↔ s.toList.head? = some '.' ∧ 2 ≤ s.utf8ByteSize := by
  obtain ⟨cs, rfl⟩ : ∃ cs, s = String.ofList cs := ⟨s.toList, String.ofList_toList.symm⟩
  rw [isExtension, String.toList_ofList, String.utf8ByteSize_ofList]
  match cs with
  | [] => simp
  | [c] =>
    by_cases hc : c = '.'
    · subst hc
      decide
    · simp [hc]
  | c :: d :: cs =>
    have hsize : 2 ≤ String.utf8Len (c :: d :: cs) := by
      have hc := c.utf8Size_pos
      have hd := d.utf8Size_pos
      simp only [String.utf8Len_cons]
      omega
    by_cases hc : c = '.'
    · subst hc
      exact iff_of_true rfl ⟨rfl, hsize⟩
    · simp [hc]

namespace Config

/-- Options hold together: all extensions start with a dot and have two bytes at least, and the type
of blobs is not blank. -/
structure IsSound (c : Config) : Prop where
  /-- Each extension starts with a dot and has two bytes at least. -/
  extensions : ∀ e ∈ c.probeExtensions ++ [c.fallbackExtension],
    e.toList.head? = some '.' ∧ 2 ≤ e.utf8ByteSize
  /-- The type of blobs is not blank. -/
  blobMimeType : ∃ x ∈ c.blobMimeType.toList, Text.isWhiteSpace x = false

/-- Nothing is said against options exactly if they hold together. -/
theorem invalid?_eq_none_iff_isSound (c : Config) : c.invalid? = none ↔ c.IsSound := by
  have htype : c.blobMimeType.toList.all Text.isWhiteSpace = false ↔
      ∃ x ∈ c.blobMimeType.toList, Text.isWhiteSpace x = false := by
    rw [List.all_eq_false]
    simp
  rw [invalid?_eq_none_iff, htype]
  simp only [isExtension_iff]
  constructor
  · rintro ⟨hprobe, hfallback, htype⟩
    refine ⟨fun e he => ?_, htype⟩
    rcases List.mem_append.1 he with he | he
    · exact hprobe e he
    · exact List.mem_singleton.1 he ▸ hfallback
  · rintro ⟨hall, htype⟩
    exact ⟨fun e he => hall e (List.mem_append_left _ he), hall _ (by simp), htype⟩

/-- Options are read from a text if they hold together; if they do not, the text is refused. -/
def ReadsAs (text : String) (c : Config) : Prop :=
  (c.IsSound → read text = .ok c) ∧
    (¬ c.IsSound → ∃ reason, read text = .error (.config reason))

/-- A text is read as the options that it is parsed to. -/
theorem readsAs_of_parse {text : String} {c : Config} (h : parse text = .ok c) :
    ReadsAs text c := by
  constructor
  · intro hsound
    exact (read_eq_ok_iff text c).2 ⟨h, (invalid?_eq_none_iff_isSound c).2 hsound⟩
  · intro hsound
    rw [← invalid?_eq_none_iff_isSound] at hsound
    obtain ⟨reason, hreason⟩ := Option.ne_none_iff_exists'.1 hsound
    exact ⟨reason, by simp only [read, h, hreason]⟩

/-! ## The text of options -/

/-- A truth value is written as its word. -/
theorem written_boolText (b : Bool) : Written (.value (.bool b)) (boolText b).toList := by
  cases b
  · exact .no
  · exact .yes

/-- A list of strings is written as an array of them. -/
theorem written_textsText (xs : List String) :
    Written (.value (.array (xs.map .string))) (textsText xs).toList := by
  have htexts : (textsText xs).toList =
      '[' :: (List.intercalate [','] (xs.map fun x => (quote x).toList) ++ [']']) := by
    simp [textsText, String.toList_intercalate, Function.comp_def]
  rw [htexts]
  refine written_array ?_
  rw [List.forall₂_map_left_iff, List.forall₂_map_right_iff]
  exact List.forall₂_same.2 fun x _ => written_quote x

/-- Fields that are written make up an object. -/
theorem written_fieldsObject {fields : Fields} {texts : List String}
    (h : List.Forall₂ (fun f text => Written (.field f.1 f.2) text.toList) fields texts) :
    Written (.value (.object fields)) (object texts).toList := by
  have htexts : (object texts).toList =
      '\x7b' :: (List.intercalate [','] (texts.map String.toList) ++ ['\x7d']) := by
    simp [object, String.toList_intercalate]
  rw [htexts]
  exact written_object (List.forall₂_map_right_iff.2 h)

/-- A field is written as its key, a colon and its value. -/
theorem written_fieldText (name : String) {v : Value} {text : String}
    (h : Written (.value v) text.toList) : Written (.field name v) (field name text).toList := by
  have htext : (field name text).toList = (quote name).toList ++ ':' :: text.toList := by
    simp [field]
  rw [htext]
  exact written_field name h

end Config

/-- All options for elements, in the order of the fields. -/
def JsxConfig.fields (j : JsxConfig) : Fields :=
  [("importSource", .string j.importSource), ("development", .bool j.development)]

namespace Config

/-- All options, in the order of the fields. -/
def fields (c : Config) : Fields :=
  [("probeExtensions", .array (c.probeExtensions.map .string)),
    ("probeTimeoutMs", .number (toString c.probeTimeoutMs.toNat)),
    ("fallbackExtension", .string c.fallbackExtension),
    ("blobMimeType", .string c.blobMimeType),
    ("blobOrigin", .string c.blobOrigin),
    ("scanMode", .string c.scanMode.name),
    ("jsx", .object c.jsx.fields)]

/-- The options for elements are written as an object. -/
theorem written_jsxText (j : JsxConfig) : Written (.value (.object j.fields)) (jsxText j).toList :=
  written_fieldsObject (.cons (written_fieldText _ (written_quote _))
    (.cons (written_fieldText _ (written_boolText _)) .nil))

/-- Options are written as an object that holds all of them. -/
theorem written_text (c : Config) : Written (.value (.object c.fields)) c.text.toList :=
  written_fieldsObject (.cons (written_fieldText _ (written_textsText _))
    (.cons (written_fieldText _ (written_digits _))
    (.cons (written_fieldText _ (written_quote _))
    (.cons (written_fieldText _ (written_quote _))
    (.cons (written_fieldText _ (written_quote _))
    (.cons (written_fieldText _ (written_quote _))
    (.cons (written_fieldText _ (written_jsxText _)) .nil)))))))

/-- The object that the options for elements are written as holds them. -/
theorem holds_jsxFields (j : JsxConfig) : j.Holds j.fields where
  each := by
    intro f hf
    simp only [JsxConfig.fields, List.mem_cons, List.not_mem_nil, or_false] at hf
    rcases hf with rfl | rfl
    · exact .importSource
    · exact .development
  once := by simp [Fields.Once, JsxConfig.fields]

/-- The object that options are written as holds them. -/
theorem holds_fields (c : Config) : c.Holds c.fields where
  each := by
    intro f hf
    simp only [fields, List.mem_cons, List.not_mem_nil, or_false] at hf
    rcases hf with rfl | rfl | rfl | rfl | rfl | rfl | rfl
    · exact .probeExtensions
    · exact .probeTimeoutMs
    · exact .fallbackExtension
    · exact .blobMimeType
    · exact .blobOrigin
    · exact .scanMode
    · exact .jsx (holds_jsxFields c.jsx)
  once := by simp [Fields.Once, fields]

/-- The object that options are written as says all of them. -/
theorem shownBy_fields (c : Config) : c.shownBy c.fields = c := by
  have hjsx : c.jsx.shownBy c.jsx.fields = c.jsx := by
    simp [JsxConfig.shownBy, JsxConfig.fields, Fields.Has, List.lookup_cons]
  simp [shownBy, fields, Fields.Has, List.lookup_cons, JsxConfig.shownIn, hjsx]

/-! ## The round trip -/

/-- A text is read as what the object in it says, if it holds options. -/
theorem readsAs_document {c : Config} {fields : Fields} {text : String} (h : c.Holds fields)
    (htext : Document (.object fields) text) : ReadsAs text (c.shownBy fields) :=
  readsAs_of_parse (parse_document h htext)

/-- Options come back from their own text, and from any text of an object that holds some of them,
in any order and with fields that are none, with the usual options for those it does not hold. -/
theorem text_roundTrip (c : Config) :
    ReadsAs c.text c ∧
      ∀ fields text, c.Holds fields → Document (.object fields) text →
        ReadsAs text (c.shownBy fields) := by
  have hown : Document (.object c.fields) c.text :=
    ⟨[], c.text.toList, [], by simp, blanks_nil, blanks_nil, written_text c⟩
  have hall := readsAs_document (holds_fields c) hown
  rw [shownBy_fields] at hall
  exact ⟨hall, fun fields text => readsAs_document⟩

/-- The usual options come back from their text; an object with two options, one of them for
elements, and a note keeps the usual ones for the rest; one with a word for an extension is
refused. -/
theorem text_roundTrip_partial :
    read default.text = .ok default ∧
      read "\x7b\"note\":null,\"scanMode\":\"regex\",\"jsx\":\x7b\"development\":true\x7d\x7d" =
        .ok { default with scanMode := .text, jsx := ⟨"react", true⟩ } ∧
      ∃ reason, read "\x7b\"probeExtensions\":[\"jsx\"]\x7d" = .error (.config reason) := by
  refine ⟨(text_roundTrip default).1.1 ?_, ?_, ?_⟩
  · exact (invalid?_eq_none_iff_isSound default).1 (by decide)
  · let c : Config := { default with scanMode := .text, jsx := ⟨"preact", true⟩ }
    have hjsx : c.jsx.Holds [("development", .bool true)] :=
      ⟨List.forall_mem_singleton.2 .development, by simp [Fields.Once]⟩
    have hholds : c.Holds [("note", .null), ("scanMode", .string "regex"),
        ("jsx", .object [("development", .bool true)])] := by
      refine ⟨?_, by simp [Fields.Once]⟩
      simp only [List.forall_mem_cons, List.not_mem_nil, false_imp_iff, implies_true, and_true]
      exact ⟨.unknown (by decide), .scanMode, .jsx hjsx⟩
    have htext : Written (.value (.object [("note", .null), ("scanMode", .string "regex"),
        ("jsx", .object [("development", .bool true)])])) _ :=
      written_fieldsObject
        (.cons (written_fieldText "note" (show Written _ "null".toList from .null))
        (.cons (written_fieldText "scanMode" (written_quote "regex"))
        (.cons (written_fieldText "jsx" (written_fieldsObject
          (.cons (written_fieldText "development" (written_boolText true)) .nil))) .nil)))
    exact ((text_roundTrip c).2 _ _ hholds ⟨[], _, [], by rfl, blanks_nil, blanks_nil, htext⟩).1
      ((invalid?_eq_none_iff_isSound _).1 (by decide))
  · let c : Config := { default with probeExtensions := ["jsx"] }
    have hholds : c.Holds [("probeExtensions", .array [.string "jsx"])] :=
      ⟨List.forall_mem_singleton.2 .probeExtensions, by simp [Fields.Once]⟩
    have htext : Written (.value (.object [("probeExtensions", .array [.string "jsx"])])) _ :=
      written_fieldsObject (.cons (written_fieldText "probeExtensions" (written_textsText ["jsx"]))
        .nil)
    exact ((text_roundTrip c).2 _ _ hholds ⟨[], _, [], by rfl, blanks_nil, blanks_nil, htext⟩).2
      (mt (invalid?_eq_none_iff_isSound _).2 (by decide))

end Config

end ModuleLoader
