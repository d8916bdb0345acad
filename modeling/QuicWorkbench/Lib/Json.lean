import Mathlib.Data.List.Basic
import Mathlib.Data.Rat.Init
import Mathlib.Tactic.Ring

/-!
# JSON values, and how types are written to them and read back

`Serde` is a type's derived pair of `serialize` and `deserialize`. Structs are objects: a field is read by its name, has to
be there once, and may be missing only if it is read as an optional one. What reads back is stated for each value
(`ReadsBack`), since a type need not read back all that it writes.
-/

inductive Json
  | null
  | bool (b : Bool)
  | int (n : Int)
  | float (x : ℚ)
  | string (s : String)
  | array (values : List Json)
  | object (fields : List (String × Json))

/-- The fields of an object, in the order in which they were written. -/
abbrev Fields := List (String × Json)

namespace Json

def asObject : Json → Option Fields
  | .object fields => some fields
  | _ => none

def asArray : Json → Option (List Json)
  | .array values => some values
  | _ => none

/-- The variant of an enumeration: its name, or an object with its name for a key and no content. -/
def asUnitVariant : Json → Option String
  | .string s => some s
  | .object [(s, .null)] => some s
  | _ => none

end Json

structure Serde (α : Type) where
  serialize : α → Option Json
  deserialize : Json → Option α

namespace Serde
variable {α : Type} {c : Serde α} {a : α}

/-- The value is written, not as `null`, and is read back. -/
def ReadsBack (c : Serde α) (a : α) : Prop :=
  ∃ v, c.serialize a = some v ∧ v ≠ .null ∧ c.deserialize v = some a

/-- Integers from 0 to `max`. -/
def uint (max : Nat) : Serde Nat where
  serialize n := if n ≤ max then some (.int n) else none
  deserialize
    | .int n => if 0 ≤ n ∧ n ≤ max then some n.toNat else none
    | _ => none

def bool : Serde Bool where
  serialize b := some (.bool b)
  deserialize
    | .bool b => some b
    | _ => none

def string : Serde String where
  serialize s := some (.string s)
  deserialize
    | .string s => some s
    | _ => none

/-- Floating-point numbers; they may be written as integers. -/
def float : Serde ℚ where
  serialize x := some (.float x)
  deserialize
    | .float x => some x
    | .int n => some n
    | _ => none

/-- A type by its text. -/
def displayFromStr (display : α → String) (fromStr : String → Option α) : Serde α where
  serialize a := some (.string (display a))
  deserialize
    | .string s => fromStr s
    | _ => none

/-- An enumeration without contents. -/
def unitVariants (name : α → String) (all : List α) : Serde α where
  serialize a := some (.string (name a))
  deserialize v := v.asUnitVariant.bind fun s => all.find? fun a => name a = s

def list (c : Serde α) : Serde (List α) where
  serialize as := (as.mapM c.serialize).map .array
  deserialize v := v.asArray.bind fun values => values.mapM c.deserialize

theorem uint_readsBack {max n : Nat} (h : n ≤ max) : (uint max).ReadsBack n :=
  ⟨.int n, by simp [uint, h], by simp, by simp [uint, h]⟩

theorem bool_readsBack (b : Bool) : bool.ReadsBack b := ⟨.bool b, rfl, by simp, rfl⟩

theorem string_readsBack (s : String) : string.ReadsBack s := ⟨.string s, rfl, by simp, rfl⟩

theorem float_readsBack (x : ℚ) : float.ReadsBack x := ⟨.float x, rfl, by simp, rfl⟩

theorem displayFromStr_readsBack {display : α → String} {fromStr : String → Option α} (h : fromStr (display a) = some a) :
    (displayFromStr display fromStr).ReadsBack a :=
  ⟨.string (display a), rfl, by simp, h⟩

theorem unitVariants_readsBack {name : α → String} {all : List α} (h : all.find? (fun b => name b = name a) = some a) :
    (unitVariants name all).ReadsBack a :=
  ⟨.string (name a), rfl, by simp, by simpa [unitVariants, Json.asUnitVariant] using h⟩

/-- A list is read back if its values are. -/
theorem list_readsBack {as : List α} (h : ∀ a ∈ as, c.ReadsBack a) : c.list.ReadsBack as := by
  have hvalues : ∃ values, as.mapM c.serialize = some values ∧ values.mapM c.deserialize = some as := by
    induction as with
    | nil => exact ⟨[], rfl, rfl⟩
    | cons a as ih =>
      obtain ⟨v, hv, -, hread⟩ := h a (List.mem_cons_self ..)
      obtain ⟨values, hvalues, hreads⟩ := ih fun b hb => h b (List.mem_cons_of_mem _ hb)
      exact ⟨v :: values, by simp [List.mapM_cons, hv, hvalues], by simp [List.mapM_cons, hread, hreads]⟩
  obtain ⟨values, hvalues, hreads⟩ := hvalues
  exact ⟨.array values, by simp [list, hvalues], by simp, hreads⟩

/-- One value that is not read is enough. -/
theorem deserialize_list_eq_none {as : List α} {v : Json} (h : c.list.serialize as = some v) (ha : a ∈ as)
    (hread : ∀ w, c.serialize a = some w → c.deserialize w = none) : c.list.deserialize v = none := by
  obtain ⟨values, hvalues, rfl⟩ := Option.map_eq_some_iff.1 h
  show values.mapM c.deserialize = none
  clear h
  induction as generalizing values with
  | nil => simp at ha
  | cons b as ih =>
    simp only [List.mapM_cons, Option.bind_eq_bind, Option.bind_eq_some_iff, Option.pure_def] at hvalues
    obtain ⟨w, hw, ws, hws, heq⟩ := hvalues
    obtain rfl := Option.some.inj heq
    rcases List.mem_cons.1 ha with rfl | ha
    · simp [List.mapM_cons, hread w hw]
    · have hnone : ws.mapM c.deserialize = none := ih ha ws hws
      simp [List.mapM_cons, hnone]

end Serde

/-! ### Structs -/

namespace Fields
variable {α : Type} {c : Serde α} {a : α}

/-- The values of the fields with the name. -/
def get (fields : Fields) (key : String) : List Json := (fields.filter fun f => f.1 = key).map Prod.snd

def readRequired (c : Serde α) : List Json → Option α
  | [v] => c.deserialize v
  | _ => none

def readOptional (c : Serde α) : List Json → Option (Option α)
  | [] => some none
  | [.null] => some none
  | [v] => (c.deserialize v).map some
  | _ => none

/-- A field that has to be there. -/
def required (fields : Fields) (key : String) (c : Serde α) : Option α := readRequired c (fields.get key)

/-- A field of type `Option`. -/
def optional (fields : Fields) (key : String) (c : Serde α) : Option (Option α) := readOptional c (fields.get key)

/-- The fields that a writer adds, unless it fails. -/
def field (key : String) (c : Serde α) (a : α) : Option Fields := (c.serialize a).map fun v => [(key, v)]

/-- `skip_serializing_if` -/
def skipIf (skip : Bool) (fields : Option Fields) : Option Fields := if skip then some [] else fields

/-- A field of type `Option` that is skipped if there is no value. -/
def fieldIfSome (key : String) (c : Serde α) (a : Option α) : Option Fields :=
  match a with
  | none => some []
  | some a => field key c a

/-- The object of all the fields. -/
def object (parts : List (Option Fields)) : Option Json := (parts.mapM id).map fun parts => .object parts.flatten

@[simp] theorem get_nil (key : String) : get [] key = [] := rfl

@[simp] theorem get_cons (key key' : String) (v : Json) (fields : Fields) :
    get ((key', v) :: fields) key = if key' = key then v :: get fields key else get fields key := by
  by_cases h : key' = key <;> simp [get, h]

@[simp] theorem get_append (fields fields' : Fields) (key : String) :
    get (fields ++ fields') key = get fields key ++ get fields' key := by
  simp [get]

@[simp] theorem get_map (values : List Json) (key key' : String) :
    get (values.map fun v => (key', v)) key = if key' = key then values else [] := by
  induction values with
  | nil => simp
  | cons v values ih =>
    rw [List.map_cons, get_cons, ih]
    split_ifs <;> rfl

theorem exists_field (h : c.ReadsBack a) (key : String) : ∃ v, field key c a = some [(key, v)] ∧ readRequired c [v] = some a := by
  obtain ⟨v, hv, -, hread⟩ := h
  exact ⟨v, by simp [field, hv], hread⟩

theorem exists_fieldIfSome {o : Option α} (h : ∀ a ∈ o, c.ReadsBack a) (key : String) :
    ∃ values, fieldIfSome key c o = some (values.map fun v => (key, v)) ∧ readOptional c values = some o := by
  cases o with
  | none => exact ⟨[], rfl, rfl⟩
  | some a =>
    obtain ⟨v, hv, hnull, hread⟩ := h a rfl
    refine ⟨[v], by simp [fieldIfSome, field, hv], ?_⟩
    show readOptional c [v] = some (some a)
    unfold readOptional
    split <;> simp_all

theorem readOptional_eq_none {v : Json} (hnull : v ≠ .null) (h : c.deserialize v = none) : readOptional c [v] = none := by
  unfold readOptional
  split <;> simp_all

theorem object_pair {part part' : Option Fields} {v : Json} (h : object [part, part'] = some v) :
    ∃ fields ∈ part, ∃ fields' ∈ part', v = .object (fields ++ fields') := by
  cases part with
  | none => simp [object] at h
  | some fields =>
    cases part' with
    | none => simp [object] at h
    | some fields' => exact ⟨fields, rfl, fields', rfl, by simpa [object, eq_comm] using h⟩

/-- The field is not written. -/
def Lacks (key : String) (part : Option Fields) : Prop := ∀ fields ∈ part, get fields key = []

@[simp] theorem lacks_field {key key' : String} (h : key' ≠ key) (c : Serde α) (a : α) : Lacks key (field key' c a) := by
  rintro fields hfields
  obtain ⟨v, -, rfl⟩ := Option.map_eq_some_iff.1 hfields
  simp [h]

@[simp] theorem lacks_fieldIfSome {key key' : String} (h : key' ≠ key) (c : Serde α) (a : Option α) :
    Lacks key (fieldIfSome key' c a) := by
  cases a with
  | none =>
    rintro fields hfields
    obtain rfl := Option.some.inj hfields
    rfl
  | some a => exact lacks_field h c a

@[simp] theorem lacks_skipIf {skip : Bool} (h : skip = true) (key : String) (part : Option Fields) : Lacks key (skipIf skip part) := by
  rintro fields hfields
  rw [skipIf, if_pos h] at hfields
  obtain rfl := Option.some.inj hfields
  rfl

theorem get_of_object {parts : List (Option Fields)} {v : Json} (key : String) (h : object parts = some v)
    (hparts : ∀ part ∈ parts, Lacks key part) : ∃ fields, v = .object fields ∧ get fields key = [] := by
  obtain ⟨all, hall, rfl⟩ := Option.map_eq_some_iff.1 h
  refine ⟨all.flatten, rfl, ?_⟩
  clear h
  induction parts generalizing all with
  | nil =>
    obtain rfl : [] = all := by simpa using hall
    rfl
  | cons part parts ih =>
    simp only [List.mapM_cons, id, Option.bind_eq_bind, Option.bind_eq_some_iff, Option.pure_def] at hall
    obtain ⟨fields, hfields, rest, hrest, heq⟩ := hall
    obtain rfl := Option.some.inj heq
    have hlacks := hparts part (List.mem_cons_self ..) fields hfields
    rw [List.flatten_cons, get_append, hlacks, List.nil_append]
    exact ih (fun q hq => hparts q (List.mem_cons_of_mem _ hq)) rest hrest

end Fields

/-! ### Durations -/

namespace Serde

def u32 : Serde Nat := uint (2 ^ 32 - 1)

def u64 : Serde Nat := uint (2 ^ 64 - 1)

def usize : Serde Nat := u64

/-- `serde_with::DurationNanoSeconds` -/
def durationNanoSeconds : Serde Nat := u64

/-- `std::time::Duration`, in nanoseconds. -/
def duration : Serde Nat where
  serialize d := Fields.object [Fields.field "secs" u64 (d / 1000000000), Fields.field "nanos" u32 (d % 1000000000)]
  deserialize v := do
    let fields ← v.asObject
    if fields.all fun f => f.1 = "secs" || f.1 = "nanos" then
      let secs ← fields.required "secs" u64
      let nanos ← fields.required "nanos" u32
      if secs + nanos / 1000000000 < 2 ^ 64 then some (secs * 1000000000 + nanos) else none
    else none

theorem u64_readsBack {n : Nat} (h : n < 2 ^ 64) : u64.ReadsBack n := uint_readsBack (by omega)

theorem duration_readsBack {d : Nat} (h : d < 2 ^ 64) : duration.ReadsBack d := by
  obtain ⟨secs, hsecs, hreadSecs⟩ := Fields.exists_field (u64_readsBack (n := d / 1000000000) (by omega)) "secs"
  obtain ⟨nanos, hnanos, hreadNanos⟩ :=
    Fields.exists_field (c := u32) (uint_readsBack (n := d % 1000000000) (by omega)) "nanos"
  refine ⟨.object [("secs", secs), ("nanos", nanos)], by simp [duration, Fields.object, hsecs, hnanos], by simp, ?_⟩
  have hnames : [("secs", secs), ("nanos", nanos)].all (fun f => f.1 = "secs" || f.1 = "nanos") := by simp
  simp only [duration, Json.asObject, Option.bind_eq_bind, Option.bind_some, hnames, ↓reduceIte]
  simp [Fields.required, hreadSecs, hreadNanos]
  omega

end Serde
