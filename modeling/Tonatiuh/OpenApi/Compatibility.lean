import Tonatiuh.OpenApi.Schema
import Tonatiuh.Tables.Map

/-! `compatibilityIssues` of `scripts/check-openapi-compatibility.js`.

`fuel` bounds how deep schemas are nested. Where it does not suffice there is no result, as there is
none when schemas contain themselves. Of a snapshot, the version is left out. `stringify` is
`JSON.stringify`. -/

namespace Tonatiuh.OpenApi

open Tables

inductive Mode where
  | input | output
  deriving DecidableEq, Repr

/-- The issues that have been found, if there is a result. -/
abbrev Issues := Option (List String)

namespace Issues

/-- The issues of several parts, in their order. -/
def collect {α : Type} (f : α → Issues) : List α → Issues
  | [] => some []
  | a :: l => (f a).bind fun issues => (collect f l).map (issues ++ ·)

def append (a b : Issues) : Issues := a.bind fun issues => b.map (issues ++ ·)

instance : Append Issues := ⟨append⟩

end Issues

def SchemaType.text : SchemaType → String
  | .string => "string"
  | .number => "number"
  | .integer => "integer"
  | .boolean => "boolean"
  | .array => "array"
  | .object => "object"

/-- `schema.type??(schema.properties?'object':undefined)`. -/
def Keywords.kind {α : Type} (k : Keywords α) : Option SchemaType :=
  k.type.or (if k.properties.isSome then some .object else none)

def kindText (kind : Option SchemaType) : String := (kind.map SchemaType.text).getD "unknown"

section
variable (stringify : Json → String)

def Keywords.enumTexts {α : Type} (k : Keywords α) : Option (List String) :=
  k.enum.map fun values => (values.map stringify).eraseDups

def enumIssues (mode : Mode) (old new : Keywords Schema) (path : String) : List String :=
  match mode, old.enumTexts stringify, new.enumTexts stringify with
  | .input, none, some _ => [s!"{path}: input enum constraint was added"]
  | .input, some oldEnum, some newEnum =>
    (oldEnum.filter (· ∉ newEnum)).map fun value => s!"{path}: enum compatibility removed {value}"
  | .output, some _, none => [s!"{path}: response enum constraint was removed"]
  | .output, some oldEnum, some newEnum =>
    (newEnum.filter (· ∉ oldEnum)).map fun value => s!"{path}: response enum added {value}"
  | _, _, _ => []

/-- A lower bound is new, or greater. -/
def isIncreased {α : Type} [LT α] [DecidableLT α] (old new : Option α) : Bool :=
  new.any fun bound => old.all (· < bound)

/-- An upper bound is new, or less. -/
def isDecreased {α : Type} [LT α] [DecidableLT α] (old new : Option α) : Bool :=
  new.any fun bound => old.all (bound < ·)

def issueIf (condition : Bool) (issue : String) : List String := if condition then [issue] else []

/-- `nullable`, the bounds and `pattern`. -/
def valueIssues (mode : Mode) (old new : Keywords Schema) (path : String) : List String :=
  match mode with
  | .input =>
    issueIf (old.nullable && !new.nullable) s!"{path}: nullable input was narrowed" ++
      issueIf (isIncreased old.minLength new.minLength) s!"{path}: minLength was increased" ++
      issueIf (isDecreased old.maxLength new.maxLength) s!"{path}: maxLength was decreased" ++
      issueIf (isIncreased old.minimum new.minimum) s!"{path}: minimum was increased" ++
      issueIf (isDecreased old.maximum new.maximum) s!"{path}: maximum was decreased" ++
      issueIf (new.pattern.any (· ≠ "") &&
        new.pattern ≠ old.pattern) s!"{path}: input pattern changed"
  | .output => issueIf (!old.nullable && new.nullable) s!"{path}: response became nullable"

def requiredIssue (mode : Mode) (path name : String) : String :=
  match mode with
  | .input => s!"{path}.{name}: new required input is incompatible"
  | .output => s!"{path}.{name}: required response is incompatible"

/-- `required` and `additionalProperties`. -/
def objectIssues (mode : Mode) (old new : Keywords Schema) (path : String) : List String :=
  let (requiredToKeep, requiredBefore) :=
    match mode with
    | .input => (new.required, old.required)
    | .output => (old.required, new.required)
  (requiredToKeep.eraseDups.filter (· ∉ requiredBefore)).map (requiredIssue mode path) ++
    issueIf (mode = .input && old.additionalProperties && !new.additionalProperties)
      s!"{path}: additional input properties are no longer accepted"

def compareSchema (oldRoot newRoot : Schemas) (mode : Mode) :
    (fuel : Nat) → (oldValue newValue : Option Schema) → (path : String) → Issues
  | 0, _, _, _ => none
  | fuel + 1, oldValue, newValue, path =>
    match resolvedSchema oldRoot oldValue, resolvedSchema newRoot newValue with
    | none, none => some []
    | some _, none => some [s!"{path}: schema was removed"]
    | none, some _ => some []
    | some old, some new =>
      if old.kind ≠ new.kind then
        some [s!"{path}: type changed from {kindText old.kind} to {kindText new.kind}"]
      else
        let issues : Issues :=
          some (enumIssues stringify mode old new path ++ valueIssues mode old new path)
        match old.kind with
        | some .array =>
          issues ++ compareSchema oldRoot newRoot mode fuel old.items new.items s!"{path}[]"
        | some .object =>
          let properties := Issues.collect
            (fun (name, schema) =>
              match get (.keywords {}) new.declared name with
              | none => some [s!"{path}.{name}: property was removed"]
              | some next => compareSchema oldRoot newRoot mode fuel (some schema)
                (some next) s!"{path}.{name}")
            old.declared
          issues ++ properties ++ (some (objectIssues mode old new path) : Issues)
        | _ => issues

/-! ## Contracts -/

structure Parameter where
  name : String
  location : String
  required : Bool
  schema : Option Schema

structure RequestBody where
  required : Bool
  schema : Option Schema

structure Operation where
  method : String
  path : String
  parameters : List Parameter
  requestBody : Option RequestBody
  responses : List (String × Option Schema)

structure Snapshot where
  operations : List (String × Operation)
  schemas : Schemas

/-- `in:name`. -/
def Parameter.key (p : Parameter) : String := s!"{p.location}:{p.name}"

/-- The last parameter with a key counts. -/
def Operation.parameterMap (o : Operation) : List (String × Parameter) :=
  o.parameters.foldl (fun entries p => upsert Prod.fst (p.key, p) entries) []

section
variable (fuel : Nat) (baseline current : Snapshot)

def parameterIssues (id : String)
    (oldParameters nextParameters : List (String × Parameter)) : Issues :=
  Issues.collect
    (fun (key, parameter) =>
      match nextParameters.lookup key with
      | none => some [s!"{id}: parameter {key} was removed"]
      | some replacement =>
        compareSchema stringify baseline.schemas current.schemas .input fuel parameter.schema
          replacement.schema
          s!"{id}.{key}")
    oldParameters ++
  (some (nextParameters.flatMap fun (key, parameter) =>
    issueIf (parameter.required && !(oldParameters.lookup key).any (·.required))
      s!"{id}: parameter {key} became required") : Issues)

def bodyIssues (id : String) (oldOperation next : Operation) : Issues :=
  (some (issueIf (next.requestBody.any (·.required) && !oldOperation.requestBody.any (·.required))
    s!"{id}: request body became required") : Issues) ++
  match oldOperation.requestBody.bind (·.schema) with
  | none => some []
  | some schema =>
    compareSchema stringify baseline.schemas current.schemas .input fuel schema
      (next.requestBody.bind (·.schema)) s!"{id}.body"

def responseIssues (id : String) (oldOperation next : Operation) : Issues :=
  Issues.collect
    (fun (status, schema) =>
      match get (some (.keywords {})) next.responses status with
      | none => some [s!"{id}: response {status} was removed"]
      | some nextSchema =>
        compareSchema stringify baseline.schemas current.schemas .output fuel schema nextSchema
          s!"{id}.response.{status}")
    oldOperation.responses

def operationIssues (id : String) (oldOperation next : Operation) : Issues :=
  (some (issueIf (next.method ≠ oldOperation.method || next.path ≠ oldOperation.path)
    s!"{id}: {oldOperation.method.toUpper} {oldOperation.path} changed to {next.method.toUpper} {next.path}") :
      Issues) ++
    parameterIssues stringify fuel baseline current id oldOperation.parameterMap
      next.parameterMap ++
    bodyIssues stringify fuel baseline current id oldOperation next ++
    responseIssues stringify fuel baseline current id oldOperation next

/-- When the current contract has no operation but an inherited property, the check fails with an
exception. -/
def compatibilityIssues : Issues :=
  Issues.collect
    (fun (id, oldOperation) =>
      match current.operations.lookup id with
      | none => if id ∈ inherited then none else some [s!"{id}: operation was removed"]
      | some next => operationIssues stringify fuel baseline current id oldOperation next)
    baseline.operations

end

end

end Tonatiuh.OpenApi
