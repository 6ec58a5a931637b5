import Mathlib.Data.List.Find
import Mathlib.Logic.Relation

/-! Rows with the same key, in the order in which they were inserted.

The rows of a table are numbered in the order of their insertion, and `keys` are the keys of the
rows. The rows with one key form a chain: `following keys i` is the next row with the key of row
`i`. -/

namespace Tonatiuh.Tables

variable {κ : Type*} [DecidableEq κ] {keys : List κ} {k : κ} {i j : Nat}

def following (keys : List κ) (i : Nat) : Option Nat :=
  (List.range keys.length).find? fun j => i < j ∧ keys[j]? = keys[i]?

theorem following_eq_some (h : following keys i = some j) :
    i < j ∧ j < keys.length ∧ keys[j]? = keys[i]? := by
  have hp := List.find?_some h
  have hmem := List.mem_of_find?_eq_some h
  simp only [decide_eq_true_eq] at hp
  exact ⟨hp.1, List.mem_range.mp hmem, hp.2⟩

theorem following_eq_none :
    following keys i = none ↔ ∀ j, i < j → j < keys.length → keys[j]? ≠ keys[i]? := by
  simp only [following, List.find?_eq_none, List.mem_range, decide_eq_true_eq, not_and]
  exact ⟨fun h j hij hj => h j hj hij, fun h j hj hij => h j hij hj⟩

/-- A row that is added follows the last row with its key. -/
theorem following_concat (hi : i < keys.length) :
    following (keys ++ [k]) i =
      if keys[i]? = some k then (following keys i).or (some keys.length) else following keys i := by
  have hget {j : Nat} (hj : j < keys.length) : (keys ++ [k])[j]? = keys[j]? :=
    List.getElem?_append_left hj
  have hold : (List.range keys.length).find?
      (fun j => i < j ∧ (keys ++ [k])[j]? = (keys ++ [k])[i]?) = following keys i :=
    List.find?_congr fun j hj => by rw [hget hi, hget (List.mem_range.mp hj)]
  rw [following, List.length_append, List.length_singleton, List.range_succ, List.find?_append,
    hold, List.find?_singleton]
  simp only [hi, hget hi, true_and, List.getElem?_concat_length, decide_eq_true_eq]
  simp only [eq_comm (a := some k)]
  split
  · rfl
  · exact Option.or_none

/-- A row that is added is the last one with its key. -/
theorem following_concat_self : following (keys ++ [k]) keys.length = none := by
  refine following_eq_none.mpr fun j hlt hj => ?_
  rw [List.length_append, List.length_singleton] at hj
  omega

/-- The chains have no cycles. -/
theorem following_acyclic : ¬Relation.TransGen (fun i j => following keys i = some j) i i := by
  intro h
  have hlt : ∀ {j}, Relation.TransGen (fun i j => following keys i = some j) i j → i < j := by
    intro j hj
    induction hj with
    | single h => exact (following_eq_some h).1
    | tail _ h ih => exact Nat.lt_trans ih (following_eq_some h).1
  exact Nat.lt_irrefl i (hlt h)

end Tonatiuh.Tables
