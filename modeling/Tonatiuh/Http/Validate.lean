import Tonatiuh.OpenApi.Schema
import Tonatiuh.Quota.Creations
import Mathlib.Data.List.TakeWhile

/-! `saas/http/validate.ts`: the checks of the fields of a body.

A value that is not there is `none`. Numbers of a body are finite. -/

namespace Tonatiuh.Http

open OpenApi (Json)
open Commands (isSpace trim)
open Quota (utf16Length)

/-- `validationError(message, details)`: the error 400 `VALIDATION_ERROR`. -/
structure ValidationError where
  message : String
  fields : Option (List String) := none
  deriving DecidableEq, Repr

abbrev JsonRecord := List (String × Json)

def objectValue (value : Json) (allowedFields : List String) : Except ValidationError JsonRecord :=
  match value with
  | .object result =>
    let unknownFields := (result.map Prod.fst).filter fun field => field ∉ allowedFields
    if unknownFields ≠ [] then .error { message := "Unknown fields.", fields := some unknownFields }
    else .ok result
  | _ => .error { message := "Expected a JSON object." }

def stringValue (value : Option Json) (field : String) (maxLength : Nat := 255) :
    Except ValidationError String :=
  match value with
  | some (.string value) =>
    let result := trim value
    if result = "" ∨ maxLength < utf16Length result then
      .error { message := field ++ " must contain between 1 and " ++ toString maxLength ++
        " characters." }
    else .ok result
  | _ => .error { message := field ++ " must be a string." }

def booleanValue (value : Option Json) (field : String) : Except ValidationError Bool :=
  match value with
  | some (.bool value) => .ok value
  | _ => .error { message := field ++ " must be a boolean." }

/-- A bound, with the text that it has in a message. -/
structure Bound where
  value : Rat
  text : String
  deriving DecidableEq, Repr

def numberValue (value : Option Json) (field : String) (minimum maximum : Bound) :
    Except ValidationError Rat :=
  match value with
  | some (.number value) =>
    if value < minimum.value ∨ maximum.value < value then .error (outside minimum maximum)
    else .ok value
  | _ => .error (outside minimum maximum)
where outside (minimum maximum : Bound) : ValidationError :=
  { message := field ++ " must be a number between " ++ minimum.text ++ " and " ++
    maximum.text ++ "." }

variable {field : String}

theorem objectValue_ok {value : Json} {allowedFields : List String} {result : JsonRecord}
    (h : objectValue value allowedFields = .ok result) :
    value = .object result ∧ ∀ entry ∈ result, entry.1 ∈ allowedFields := by
  unfold objectValue at h
  split at h
  next entries =>
    dsimp only at h
    split at h
    next => cases h
    next hknown =>
      cases h
      refine ⟨rfl, fun entry hentry => ?_⟩
      rw [ne_eq, not_not, List.filter_eq_nil_iff] at hknown
      simpa using hknown entry.1 (List.mem_map_of_mem hentry)
  next => cases h

theorem objectValue_object {allowedFields : List String} {result : JsonRecord}
    (h : ∀ entry ∈ result, entry.1 ∈ allowedFields) :
    objectValue (.object result) allowedFields = .ok result := by
  have hknown : (result.map Prod.fst).filter (fun field => field ∉ allowedFields) = [] := by
    rw [List.filter_eq_nil_iff]
    intro name hname
    obtain ⟨entry, hentry, rfl⟩ := List.mem_map.mp hname
    simpa using h entry hentry
  simp only [objectValue, hknown, ne_eq, not_true_eq_false, if_false]

/-- A text without spaces, of an accepted length. -/
theorem stringValue_string {s : String} {maxLength : Nat}
    (hspace : ∀ c ∈ s.toList, isSpace c = false)
    (hne : s ≠ "") (hlength : utf16Length s ≤ maxLength) :
    stringValue (some (.string s)) field maxLength = .ok s := by
  have htrim : trim s = s := by
    have hdrop : ∀ cs : List Char, (∀ c ∈ cs, isSpace c = false) → cs.dropWhile isSpace = cs := by
      intro cs hcs
      rw [List.dropWhile_eq_self_iff]
      exact fun hpos => by simp [hcs _ (List.getElem_mem hpos)]
    rw [trim, hdrop _ hspace, hdrop _ fun c hc => hspace c (List.mem_reverse.mp hc),
      List.reverse_reverse,
      String.ofList_toList]
  simp only [stringValue, htrim]
  exact if_neg (not_or.mpr ⟨hne, Nat.not_lt.mpr hlength⟩)

theorem numberValue_ok {value : Option Json} {minimum maximum : Bound} {q : Rat}
    (h : numberValue value field minimum maximum = .ok q) :
    value = some (.number q) ∧ minimum.value ≤ q ∧ q ≤ maximum.value := by
  unfold numberValue at h
  split at h
  next =>
    split at h
    next => cases h
    next hrange =>
      cases h
      obtain ⟨hmin, hmax⟩ := not_or.mp hrange
      exact ⟨rfl, not_lt.mp hmin, not_lt.mp hmax⟩
  next => cases h

theorem booleanValue_ok {value : Option Json} {b : Bool} (h : booleanValue value field = .ok b) :
    value = some (.bool b) := by
  unfold booleanValue at h
  split at h <;> cases h
  rfl

end Tonatiuh.Http
