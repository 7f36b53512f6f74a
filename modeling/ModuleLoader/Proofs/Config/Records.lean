import ModuleLoader.Config.Reader
import ModuleLoader.Proofs.Json.Reading

/-! # Reading records

A record is read from an object field by field. What comes of it depends on the fields alone, not on
how the object is written.

* **`Takes`** says what one field makes of a record, **`Fills`** what the fields of an object do.
* **`gets_record`** says that a record is got from an object by its fields. -/

namespace ModuleLoader.Config

open ModuleLoader.Json

variable {α β : Type} {a b e : α} {key : String} {v : Value} {fs : List (String × Value)}
variable {set : α → String → Cursor → Except Json.Failure (Option (α × Cursor))}
variable {ws ws' cs mid rest : List Char}

/-! ## Fields -/

/-- What a record is behind a field: the field is read from behind its key, or it is not one of the
record's. -/
inductive Takes (set : α → String → Cursor → Except Json.Failure (Option (α × Cursor))) (a : α)
    (key : String) (v : Value) : α → Prop
  | known {b : α}
    (h : ∀ ⦃ws ws' cs rest⦄, Blanks ws → Blanks ws' → Written (.value v) cs → StopsNumber rest →
      ∀ o, ∃ o', set a key ⟨ws ++ ':' :: (ws' ++ (cs ++ rest)), o⟩ = .ok (some (b, ⟨rest, o'⟩))) :
    Takes set a key v b
  | unknown (h : ∀ c, set a key c = .ok none) : Takes set a key v a

/-- What a record is behind some fields. -/
inductive Fills (set : α → String → Cursor → Except Json.Failure (Option (α × Cursor))) :
    α → List (String × Value) → α → Prop
  | nil {a : α} : Fills set a [] a
  | cons {a b e : α} {key : String} {v : Value} {fs : List (String × Value)}
    (h : Takes set a key v b) (hmore : Fills set b fs e) : Fills set a ((key, v) :: fs) e

/-- A field is taken that has not come before and whose value is got. -/
theorem takes_field {read : Reader β} {x : β} (hv : Gets read v x) (put : β → α)
    (hset : ∀ c, set a key c = readField key none read put c) (hb : b = put x) :
    Takes set a key v b := by
  refine .known fun ws ws' cs rest hws hws' hcs hrest o => ?_
  obtain ⟨o', hcolon⟩ := passes_colon (ws' ++ (cs ++ rest)) hws o
  obtain ⟨o'', hread⟩ := hv hws' hcs hrest o'
  refine ⟨o'', ?_⟩
  rw [hset, hb, readField]
  simp only [Option.isSome_none, Bool.false_eq_true, if_false]
  rw [ok_bind hcolon, ok_bind hread]
  rfl

/-- A field is passed, and those behind it are read. -/
theorem reads_taken {fuel : Nat} (h : Takes set a key v b) (hws : Blanks ws) (hws' : Blanks ws')
    (hv : Written (.value v) cs) (hstop : StopsNumber mid)
    (hmore : Reads (readFields set fuel false b) mid rest e) :
    Reads (fun c => do
      match ← set a key c with
      | some (a, c) => readFields set fuel false a c
      | none => do
        let c ← colon c
        let c ← skipValue c
        readFields set fuel false a c) (ws ++ ':' :: (ws' ++ (cs ++ mid))) rest e := by
  intro o
  cases h with
  | known h =>
    obtain ⟨o', ho'⟩ := h hws hws' hv hstop o
    obtain ⟨o'', ho''⟩ := hmore o'
    exact ⟨o'', (ok_bind ho' _).trans ho''⟩
  | unknown h =>
    dsimp only
    rw [h]
    exact (passes_colon _ hws).bind ((passes_value hv hws' hstop).bind hmore) o

/-! ## Objects -/

/-- The fields behind one are read, up to the closing brace. -/
theorem reads_fields (h : Fills set b fs e) (hfs : Written (.fields fs) cs) (fuel : Nat)
    (hfuel : fs.length < fuel) :
    Reads (readFields set fuel false b) (cs ++ rest) ('\x7d' :: rest) e := by
  induction h generalizing cs fuel with
  | nil =>
    obtain ⟨fuel, rfl⟩ := Nat.exists_eq_add_one_of_ne_zero (Nat.ne_zero_of_lt hfuel)
    cases hfs with
    | lastField hws =>
      rw [List.append_assoc]
      exact (reads_noKey hws).bind fun o => ⟨_, rfl⟩
  | cons h hmore ih =>
    obtain ⟨fuel, rfl⟩ := Nat.exists_eq_add_one_of_ne_zero (Nat.ne_zero_of_lt hfuel)
    cases hfs with
    | nextField hws hws' hfield hfs =>
      cases hfield with
      | field hname hblank hblank' hv =>
        simp only [List.cons_append, List.append_assoc]
        exact (reads_nextKey hws hws' hname).bind
          (reads_taken h hblank hblank' hv (stopsNumber_fields hfs _)
            (ih hfs fuel (Nat.lt_of_succ_lt_succ hfuel)))

/-- A record is got from an object by its fields. -/
theorem gets_record {name : String} {empty : α}
    {steps : List (α → Cursor → Except Json.Failure (α × Cursor))} (h : Fills set empty fs a) :
    Gets (readRecord name empty set steps) (.object fs) a := by
  rintro ws cs rest hws hcs - o
  rw [readRecord, skipBlanks_append hws hcs.startsPlain]
  have hend : Reads (fun c => do
      let c ← endObject c
      pure (a, c)) ('\x7d' :: rest) rest a := fun o => ⟨_, rfl⟩
  cases hcs with
  | noFields hws' =>
    cases h
    rw [List.cons_append, List.append_assoc]
    refine Reads.bind (p := readFields set _ true a) ?_ hend _
    exact (reads_noKey hws').bind fun o => ⟨_, rfl⟩
  | object hws' hfield hfs =>
    cases h with
    | cons h hmore =>
      cases hfield with
      | field hname hblank hblank' hv =>
        simp only [List.cons_append, List.append_assoc]
        refine Reads.bind (p := readFields set _ true empty) ?_ hend _
        refine (reads_firstKey hws' hname).bind
          (reads_taken h hblank hblank' hv (stopsNumber_fields hfs _) (reads_fields hmore hfs _ ?_))
        have hcount := hfs.count_le
        simp only [Part.count] at hcount
        simp only [List.length_cons, List.length_append]
        omega

end ModuleLoader.Config
