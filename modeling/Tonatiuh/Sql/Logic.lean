import Mathlib.Data.Option.Basic

/-! The logic of SQL, in which a comparison with `NULL` is neither true nor false. -/

namespace Tonatiuh.Sql

/-- A value of type `boolean`; `none` is `NULL`. -/
abbrev Truth := Option Bool

variable {α : Type} [DecidableEq α]

/-- `a = b`. -/
def equal (a b : Option α) : Truth := a.bind fun x => b.map fun y => decide (x = y)

/-- `NULLIF(a, b)`, where `b` is not `NULL`. -/
def nullif (a : Option α) (b : α) : Option α := a.filter (· ≠ b)

/-- `a OR b`. -/
def or (a b : Truth) : Truth :=
  if a = some true ∨ b = some true then some true else a.bind fun _ => b

/-- `a AND b`. -/
def and (a b : Truth) : Truth :=
  if a = some false ∨ b = some false then some false else a.bind fun _ => b

theorem equal_iff {a b : Option α} : equal a b = some true ↔ ∃ x, a = some x ∧ b = some x := by
  cases a with
  | none => simp [equal]
  | some x => simp [equal, eq_comm]

theorem or_iff {a b : Truth} : or a b = some true ↔ a = some true ∨ b = some true := by
  rw [or]
  split
  next h => exact ⟨fun _ => h, fun _ => rfl⟩
  next h =>
    refine ⟨fun hbind => ?_, fun h' => absurd h' h⟩
    obtain ⟨_, _, hb⟩ := Option.bind_eq_some_iff.mp hbind
    exact .inr hb

theorem and_iff {a b : Truth} : and a b = some true ↔ a = some true ∧ b = some true := by
  rw [and]
  split
  next h =>
    refine ⟨fun hfalse => absurd hfalse (by decide), ?_⟩
    rintro ⟨rfl, rfl⟩
    exact absurd h (by decide)
  next h =>
    constructor
    · intro hbind
      obtain ⟨x, rfl, rfl⟩ := Option.bind_eq_some_iff.mp hbind
      cases x with
      | true => exact ⟨rfl, rfl⟩
      | false => exact absurd (.inl rfl) h
    · rintro ⟨rfl, rfl⟩
      rfl

end Tonatiuh.Sql
