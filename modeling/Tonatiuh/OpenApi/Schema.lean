import Mathlib.Algebra.Order.Ring.Rat

/-! JSON values and schemas.

A schema describes JSON values by its keywords, those of OpenAPI 3.0 among `type`, `nullable`,
`enum`, the bounds of lengths and of numbers, `pattern`, `items`, `properties`, `required` and a
Boolean `additionalProperties`. A `$ref` is named by the last part of its path. Where there is no
schema, all values are accepted. -/

namespace Tonatiuh.OpenApi

inductive Json where
  | null
  | bool (b : Bool)
  | number (n : Rat)
  | string (s : String)
  | array (items : List Json)
  | object (entries : List (String × Json))

inductive SchemaType where
  | string | number | integer | boolean | array | object
  deriving DecidableEq, Repr

structure Keywords (α : Type) where
  type : Option SchemaType := none
  nullable : Bool := false
  enum : Option (List Json) := none
  minLength : Option Nat := none
  maxLength : Option Nat := none
  minimum : Option Rat := none
  maximum : Option Rat := none
  pattern : Option String := none
  items : Option α := none
  properties : Option (List (String × α)) := none
  required : List String := []
  additionalProperties : Bool := true

inductive Schema where
  | ref (name : String)
  | keywords (k : Keywords Schema)

/-- The named schemas of a contract. -/
abbrev Schemas := List (String × Schema)

/-- The names that every object of JavaScript has from `Object.prototype`. -/
def inherited : List String := [
  "constructor", "hasOwnProperty", "isPrototypeOf", "propertyIsEnumerable", "toLocaleString",
  "toString", "valueOf", "__defineGetter__", "__defineSetter__", "__lookupGetter__",
  "__lookupSetter__", "__proto__"]

/-- The value of a property of an object. What is inherited has none of the keywords. -/
def get {α : Type} (empty : α) (entries : List (String × α)) (name : String) : Option α :=
  (entries.lookup name).or (if name ∈ inherited then some empty else none)

def getSchema (schemas : Schemas) (name : String) : Option Schema := get (.keywords {}) schemas name

/-- Where the references lead, after at most `count` of them. A reference on a cycle has no keyword
besides. -/
def followed (schemas : Schemas) : (count : Nat) → Option Schema → Option (Keywords Schema)
  | _, none => none
  | _, some (.keywords k) => some k
  | 0, some (.ref _) => some {}
  | count + 1, some (.ref name) => followed schemas count (getSchema schemas name)

/-- A chain of references that has no cycle is no longer than the list of schemas, but for its
start. -/
def resolvedSchema (schemas : Schemas) (schema : Option Schema) : Option (Keywords Schema) :=
  followed schemas (schemas.length + 1) schema

@[simp] theorem resolvedSchema_none (schemas : Schemas) : resolvedSchema schemas none = none := by
  rw [resolvedSchema, followed]

@[simp] theorem resolvedSchema_keywords (schemas : Schemas) (k : Keywords Schema) :
    resolvedSchema schemas (some (.keywords k)) = some k := by
  rw [resolvedSchema, followed]

namespace Keywords

variable {α : Type} (k : Keywords α)

def declared : List (String × α) := k.properties.getD []

/-- The schema of a property that the schema declares. -/
def property? (name : String) : Option α := k.declared.lookup name

end Keywords

/-! ## What holds of a value and its parts -/

section
variable (check : Keywords Schema → Json → Bool) (schemas : Schemas)

mutual

/-- The test holds of the value with the keywords of its schema, and of the elements and of the
values of the declared properties with those of theirs. -/
def meets (schema : Option Schema) : Json → Bool
  | .array items =>
    match resolvedSchema schemas schema with
    | none => true
    | some k => check k (.array items) && meetAll k.items items
  | .object entries =>
    match resolvedSchema schemas schema with
    | none => true
    | some k => check k (.object entries) && meetEntries k entries
  | .null => (resolvedSchema schemas schema).all (check · .null)
  | .bool b => (resolvedSchema schemas schema).all (check · (.bool b))
  | .number n => (resolvedSchema schemas schema).all (check · (.number n))
  | .string s => (resolvedSchema schemas schema).all (check · (.string s))

def meetAll (schema : Option Schema) : List Json → Bool
  | [] => true
  | v :: vs => meets schema v && meetAll schema vs

def meetEntries (k : Keywords Schema) : List (String × Json) → Bool
  | [] => true
  | (name, v) :: entries => meets (k.property? name) v && meetEntries k entries

end

end

/-! ## Acceptance -/

def SchemaType.admits : SchemaType → Json → Bool
  | .string, .string _ | .number, .number _ | .boolean, .bool _ | .array, .array _
  | .object, .object _ => true
  | .integer, .number n => n.den = 1
  | _, _ => false

def within {α : Type} [LE α] [DecidableLE α] (minimum maximum : Option α) (a : α) : Bool :=
  minimum.all (· ≤ a) && maximum.all (a ≤ ·)

section
variable (stringify : Json → String) (test : String → String → Bool)

namespace Keywords

variable (k : Keywords Schema)

/-- `nullable` adds `null` to the values of a type. -/
def admits (v : Json) : Bool :=
  k.type.all fun type =>
    match v with
    | .null => k.nullable
    | v => type.admits v

/-- A value is one of several values when its text is. -/
def enumerates (v : Json) : Bool := k.enum.all fun values => stringify v ∈ values.map stringify

/-- The empty pattern matches every text. -/
def matchesPattern (s : String) : Bool :=
  k.pattern.all fun pattern => pattern = "" || test pattern s

/-- The keywords accept the value, apart from its parts. If `ignored`, properties that are not
declared are ignored. -/
def allows (ignored : Bool) (v : Json) : Bool :=
  k.admits v && k.enumerates stringify v &&
    match v with
    | .string s => within k.minLength k.maxLength s.length && k.matchesPattern test s
    | .number n => within k.minimum k.maximum n
    | .object entries =>
      k.required.all (fun name => (entries.lookup name).isSome) &&
        (ignored || k.additionalProperties || entries.all fun entry => (k.property? entry.1).isSome)
    | _ => true

/-- An object has only properties that are declared. -/
def declares : Json → Bool
  | .object entries => entries.all fun entry => (k.property? entry.1).isSome
  | _ => true

end Keywords

def accepts (schemas : Schemas) (schema : Option Schema) (v : Json) : Bool :=
  meets (·.allows stringify test false) schemas schema v

/-- Properties that are not declared are ignored. -/
def acceptsDeclared (schemas : Schemas) (schema : Option Schema) (v : Json) : Bool :=
  meets (·.allows stringify test true) schemas schema v

end

/-- The value has only properties that are declared. -/
def declaresAll (schemas : Schemas) (schema : Option Schema) (v : Json) : Bool :=
  meets Keywords.declares schemas schema v

/-! ## Lemmas -/

section
variable {check : Keywords Schema → Json → Bool} {schemas : Schemas} {schema : Option Schema}
  {k : Keywords Schema}
  {v : Json}

theorem meetAll_iff {vs : List Json} :
    meetAll check schemas schema vs ↔ ∀ v ∈ vs, meets check schemas schema v := by
  induction vs with
  | nil => simp [meetAll]
  | cons v vs ih => rw [meetAll, Bool.and_eq_true, ih, List.forall_mem_cons]

theorem meetEntries_iff {entries : List (String × Json)} :
    meetEntries check schemas k entries ↔
      ∀ entry ∈ entries, meets check schemas (k.property? entry.1) entry.2 := by
  induction entries with
  | nil => simp [meetEntries]
  | cons entry entries ih => rw [meetEntries, Bool.and_eq_true, ih, List.forall_mem_cons]

theorem meets_of_none (h : resolvedSchema schemas schema = none) :
    meets check schemas schema v := by
  cases v with
  | _ => simp [meets, h]

/-- What holds of the parts of a value with their schemas. -/
def Keywords.Parts (k : Keywords Schema) (P : Option Schema → Json → Prop) : Json → Prop
  | .array items => ∀ v ∈ items, P k.items v
  | .object entries => ∀ entry ∈ entries, P (k.property? entry.1) entry.2
  | _ => True

theorem meets_iff (h : resolvedSchema schemas schema = some k) :
    meets check schemas schema v ↔
    check k v ∧ k.Parts (fun schema v => meets check schemas schema v) v := by
  cases v with
  | array items => simp only [meets, h, Bool.and_eq_true, meetAll_iff, Keywords.Parts]
  | object entries => simp only [meets, h, Bool.and_eq_true, meetEntries_iff, Keywords.Parts]
  | _ => simp only [meets, h, Option.all_some, Keywords.Parts, and_true]

end

end Tonatiuh.OpenApi
