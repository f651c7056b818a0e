import KakeyaEngine.Lib.PyValue

/-!
# Records as mappings

A record is written as the mapping of its fields and built from a mapping by keyword: a key that is no field and a missing
field without a default are refused, a missing one with a default keeps it.  A field is the text of its key with a way to
write it and to read it, and the law that joins the two; a record that is written is built as it was (`build_asdict`).
-/

namespace RecordCodec

variable {R : Type}

/-- A field of a record.  `read` puts a value of the field's type into a record, `copy` takes the field over from another
record. -/
structure RecordField (R : Type) where
  key : String
  get : R → PyValue
  read : PyValue → R → Option R
  copy : R → R → R
  read_get : ∀ r acc, read (get r) acc = some (copy r acc)

/-- Reading what was written, for each item of a list. -/
theorem mapM_map {α β : Type} (write : α → β) (read : β → Option α) (h : ∀ a, read (write a) = some a) (items : List α) :
    (items.map write).mapM read = some items := by
  induction items with
  | nil => rfl
  | cons a items ih =>
    rw [List.map_cons, List.mapM_cons, ih, h]
    rfl

/-! ### Kinds of fields -/

def text (key : String) (get : R → String) (put : String → R → R) : RecordField R where
  key := key
  get r := .str (get r)
  read
    | .str s, acc => some (put s acc)
    | _, _ => none
  copy r acc := put (get r) acc
  read_get _ _ := rfl

def number (key : String) (get : R → Int) (put : Int → R → R) : RecordField R where
  key := key
  get r := .int (get r)
  read
    | .int n, acc => some (put n acc)
    | _, _ => none
  copy r acc := put (get r) acc
  read_get _ _ := rfl

/-- A floating point number, kept as its text. -/
def float (key : String) (get : R → String) (put : String → R → R) : RecordField R where
  key := key
  get r := .float (get r)
  read
    | .float s, acc => some (put s acc)
    | _, _ => none
  copy r acc := put (get r) acc
  read_get _ _ := rfl

/-- The text that a value is. -/
def textOf : PyValue → Option String
  | .str s => some s
  | _ => none

def texts (key : String) (get : R → List String) (put : List String → R → R) : RecordField R where
  key := key
  get r := .list ((get r).map .str)
  read
    | .list items, acc => (items.mapM textOf).map fun ts => put ts acc
    | _, _ => none
  copy r acc := put (get r) acc
  read_get r acc := by
    have hread : ((get r).map PyValue.str).mapM textOf = some (get r) :=
      mapM_map PyValue.str textOf (fun _ => rfl) _
    show (((get r).map PyValue.str).mapM textOf).map (fun ts => put ts acc) = _
    rw [hread]
    rfl

/-- An entry with a text. -/
def textEntry (e : String × PyValue) : Option (String × String) := (textOf e.2).map fun s => (e.1, s)

/-- A mapping of texts. -/
def textMap (key : String) (get : R → Dict String String) (put : Dict String String → R → R) : RecordField R where
  key := key
  get r := .dict ((get r).entries.map fun e => (e.1, .str e.2))
  read
    | .dict entries, acc => (entries.mapM textEntry).map fun es => put (Dict.ofEntries es) acc
    | _, _ => none
  copy r acc := put (get r) acc
  read_get r acc := by
    have hread : ((get r).entries.map fun e => (e.1, PyValue.str e.2)).mapM textEntry = some (get r).entries :=
      mapM_map _ textEntry (fun _ => rfl) _
    show (((get r).entries.map fun e => (e.1, PyValue.str e.2)).mapM textEntry).map
      (fun es => put (Dict.ofEntries es) acc) = _
    rw [hread, Option.map_some, Dict.ofEntries_entries]

/-! ### Writing and building -/

def asdict (fields : List (RecordField R)) (r : R) : List (String × PyValue) := fields.map fun f => (f.key, f.get r)

/-- The fields of the mapping; the others keep what they have. -/
def readFields (d : Dict String PyValue) : List (RecordField R) → R → Option R
  | [], acc => some acc
  | f :: fields, acc =>
    match d.get? f.key with
    | none => readFields d fields acc
    | some v => (f.read v acc).bind (readFields d fields)

/-- The record with the fields of the mapping, where `default` has the defaults. -/
def build (fields : List (RecordField R)) (required : List String) (default : R) (d : Dict String PyValue) : Option R :=
  if (∀ key ∈ d.keys, key ∈ fields.map (·.key)) ∧ ∀ key ∈ required, key ∈ d.keys then readFields d fields default
  else none

/-- The fields have different keys, and the required keys are among them. -/
structure Keyed (fields : List (RecordField R)) (required : List String) : Prop where
  distinct : (fields.map (·.key)).Nodup
  required : ∀ key ∈ required, key ∈ fields.map (·.key)

theorem readFields_of_get? {d : Dict String PyValue} {fields : List (RecordField R)} {r : R}
    (h : ∀ f ∈ fields, d.get? f.key = some (f.get r)) (acc : R) :
    readFields d fields acc = some (fields.foldl (fun acc f => f.copy r acc) acc) := by
  induction fields generalizing acc with
  | nil => rfl
  | cons f fields ih =>
    rw [List.forall_mem_cons] at h
    unfold readFields
    rw [h.1]
    dsimp only
    rw [f.read_get, Option.bind_some, ih h.2]
    rfl

/-- A mapping with the fields of a record and no other key. -/
theorem build_of_get? {fields : List (RecordField R)} {required : List String} {default r : R} {d : Dict String PyValue}
    (h : Keyed fields required) (hcopies : fields.foldl (fun acc f => f.copy r acc) default = r)
    (hkeys : ∀ key ∈ d.keys, key ∈ fields.map (·.key)) (hget : ∀ f ∈ fields, d.get? f.key = some (f.get r)) :
    build fields required default d = some r := by
  have hrequired : ∀ key ∈ required, key ∈ d.keys := by
    intro key hkey
    obtain ⟨f, hf, rfl⟩ := List.mem_map.mp (h.required key hkey)
    exact Dict.mem_keys_iff.mpr ⟨_, hget f hf⟩
  unfold build
  rw [if_pos ⟨hkeys, hrequired⟩, readFields_of_get? hget, hcopies]

theorem map_fst_asdict (fields : List (RecordField R)) (r : R) : (asdict fields r).map Prod.fst = fields.map (·.key) := by
  unfold asdict
  rw [List.map_map]
  rfl

/-- Building from what was written gives the record back, where its fields are all that it has. -/
theorem build_asdict {fields : List (RecordField R)} {required : List String} {default r : R} (h : Keyed fields required)
    (hcopies : fields.foldl (fun acc f => f.copy r acc) default = r) :
    build fields required default (Dict.ofEntries (asdict fields r)) = some r := by
  have hnodup : ((asdict fields r).map Prod.fst).Nodup := by
    rw [map_fst_asdict]
    exact h.distinct
  refine build_of_get? h hcopies (fun key hkey => ?_) fun f hf => ?_
  · unfold Dict.keys at hkey
    rwa [Dict.entries_ofEntries hnodup, map_fst_asdict] at hkey
  · rw [← Dict.mem_entries_iff, Dict.entries_ofEntries hnodup]
    exact List.mem_map_of_mem hf

end RecordCodec
