import Mathlib.Data.List.Basic

/-! Exclusive locks.

The entries of a list are the parties of a system. A function `f` tells which locks an entry holds.
A party acquires a lock when no other holds it (`isUnheld`), and keeps it until it gives it up, so
that no lock is held twice (`Exclusive`). Where a party holds at most one lock of a kind, `f` gives
this lock (`isFree`, `HeldOnce`). -/

namespace Tonatiuh.Transition

variable {α κ : Type*}

/-! ## Lists of parties -/

theorem getElem?_set_cases {l : List α} {a b : α} {i j : Nat} (h : (l.set i a)[j]? = some b) :
    (j = i ∧ b = a) ∨ (j ≠ i ∧ l[j]? = some b) := by
  rw [List.getElem?_set] at h
  split at h
  next heq =>
    split at h
    · exact .inl ⟨heq.symm, (Option.some.inj h).symm⟩
    · cases h
  next hne => exact .inr ⟨Ne.symm hne, h⟩

theorem getElem?_concat_cases {l : List α} {a b : α} {j : Nat} (h : (l ++ [a])[j]? = some b) :
    (j = l.length ∧ b = a) ∨ (j < l.length ∧ l[j]? = some b) := by
  rcases Nat.lt_or_ge j l.length with hlt | hge
  · rw [List.getElem?_append_left hlt] at h
    exact .inr ⟨hlt, h⟩
  · rw [List.getElem?_append_right hge, List.getElem?_singleton] at h
    split at h
    next hzero => exact .inl ⟨by omega, (Option.some.inj h).symm⟩
    next => cases h

theorem getElem?_modify_cases {l : List α} {f : α → α} {b : α} {i j : Nat}
    (h : (l.modify i f)[j]? = some b) :
    (j = i ∧ ∃ a, l[j]? = some a ∧ b = f a) ∨ (j ≠ i ∧ l[j]? = some b) := by
  rcases eq_or_ne i j with rfl | hne
  · rw [List.getElem?_modify_eq] at h
    obtain ⟨a, ha, rfl⟩ := Option.map_eq_some_iff.mp h
    exact .inl ⟨rfl, a, ha, rfl⟩
  · rw [List.getElem?_modify_ne _ _ hne] at h
    exact .inr ⟨Ne.symm hne, h⟩

/-- The entry at `i` does not begin to count. -/
theorem countP_set_le {l : List α} {p : α → Bool} {a b : α} {i : Nat} (ha : l[i]? = some a)
    (h : p b → p a) : (l.set i b).countP p ≤ l.countP p := by
  obtain ⟨hlt, rfl⟩ := List.getElem?_eq_some_iff.mp ha
  rw [List.countP_set hlt]
  by_cases hb : p b
  · have hpos : 0 < l.countP p := List.countP_pos_iff.mpr ⟨_, List.getElem_mem hlt, h hb⟩
    rw [if_pos (h hb), if_pos hb]
    omega
  · rw [if_neg hb]
    exact Nat.sub_le _ _

/-- The entry at `i` does not count any more. -/
theorem countP_set_lt {l : List α} {p : α → Bool} {a b : α} {i : Nat} (ha : l[i]? = some a)
    (hpa : p a) (hpb : ¬p b) : (l.set i b).countP p < l.countP p := by
  obtain ⟨hlt, rfl⟩ := List.getElem?_eq_some_iff.mp ha
  have hpos : 0 < l.countP p := List.countP_pos_iff.mpr ⟨_, List.getElem_mem hlt, hpa⟩
  rw [List.countP_set hlt, if_pos hpa, if_neg hpb]
  omega

/-! ## Any number of locks -/

/-- No two entries hold the same lock. -/
def Exclusive (f : α → List κ) (l : List α) : Prop :=
  ∀ (i j : Nat) (a b : α) (k : κ),
    l[i]? = some a → l[j]? = some b → k ∈ f a → k ∈ f b → i = j

/-- No entry but the one at `i` holds the lock `k`. -/
def isUnheld [DecidableEq κ] (f : α → List κ) (l : List α) (i : Nat) (k : κ) : Bool :=
  (l.eraseIdx i).all fun b => k ∉ f b

theorem isUnheld_iff [DecidableEq κ] {f : α → List κ} {l : List α} {i : Nat} {k : κ} :
    isUnheld f l i k ↔ ∀ (j : Nat) (b : α), j ≠ i → l[j]? = some b → k ∉ f b := by
  simp only [isUnheld, List.all_eq_true, decide_eq_true_eq, List.mem_eraseIdx_iff_getElem?]
  constructor
  · intro h j b hne hb
    exact h b ⟨j, hne, hb⟩
  · rintro h b ⟨j, hne, hb⟩
    exact h j b hne hb

namespace Exclusive

variable {f : α → List κ} {l : List α}

theorem nil : Exclusive f [] := by
  intro i j a b k ha
  simp at ha

/-- An entry that is added holds no lock. -/
theorem concat (h : Exclusive f l) {c : α} (hc : f c = []) : Exclusive f (l ++ [c]) := by
  have hold {i : Nat} {a : α} {k : κ} (ha : (l ++ [c])[i]? = some a) (hk : k ∈ f a) :
      l[i]? = some a := by
    rcases getElem?_concat_cases ha with ⟨-, rfl⟩ | ⟨-, ha⟩
    · rw [hc] at hk
      cases hk
    · exact ha
  intro i j a b k ha hb hak hbk
  exact h i j a b k (hold ha hak) (hold hb hbk) hak hbk

/-- The entry at `i` keeps its locks, gives them up, or acquires some that are free. -/
theorem set [DecidableEq κ] (h : Exclusive f l) {i : Nat} {a a' : α} (ha : l[i]? = some a)
    (hnew : ∀ k, k ∈ f a' → k ∈ f a ∨ isUnheld f l i k) : Exclusive f (l.set i a') := by
  -- the other party of a conflict with the entry at `i` is in the list already
  have hother {j : Nat} {b : α} {k : κ} (hne : j ≠ i) (hb : l[j]? = some b)
      (hk : k ∈ f a') : k ∉ f b := by
    intro hbk
    rcases hnew k hk with hold | hfree
    · exact hne (h j i b a k hb ha hbk hold)
    · exact isUnheld_iff.mp hfree j b hne hb hbk
  intro j₁ j₂ b₁ b₂ k h₁ h₂ hk₁ hk₂
  rcases getElem?_set_cases h₁ with ⟨rfl, rfl⟩ | ⟨hne₁, hold₁⟩
  · rcases getElem?_set_cases h₂ with ⟨rfl, rfl⟩ | ⟨hne₂, hold₂⟩
    · rfl
    · exact absurd hk₂ (hother hne₂ hold₂ hk₁)
  · rcases getElem?_set_cases h₂ with ⟨rfl, rfl⟩ | ⟨hne₂, hold₂⟩
    · exact absurd hk₁ (hother hne₁ hold₁ hk₂)
    · exact h j₁ j₂ b₁ b₂ k hold₁ hold₂ hk₁ hk₂

end Exclusive

/-! ## One lock -/

/-- No two entries hold the same lock. -/
def HeldOnce (f : α → Option κ) (l : List α) : Prop :=
  ∀ (i j : Nat) (a b : α) (k : κ),
    l[i]? = some a → l[j]? = some b → f a = some k → f b = some k → i = j

/-- No entry but the one at `i` holds the lock `k`. -/
def isFree [DecidableEq κ] (f : α → Option κ) (l : List α) (i : Nat) (k : κ) : Bool :=
  (l.eraseIdx i).all fun b => f b ≠ some k

theorem heldOnce_iff {f : α → Option κ} {l : List α} :
    HeldOnce f l ↔ Exclusive (fun a => (f a).toList) l := by
  simp only [HeldOnce, Exclusive, Option.mem_toList]

theorem isFree_eq [DecidableEq κ] {f : α → Option κ} {l : List α} {i : Nat} {k : κ} :
    isFree f l i k = isUnheld (fun a => (f a).toList) l i k := by
  simp only [isFree, isUnheld, Option.mem_toList, ne_eq]

theorem isFree_iff [DecidableEq κ] {f : α → Option κ} {l : List α} {i : Nat} {k : κ} :
    isFree f l i k ↔ ∀ (j : Nat) (b : α), j ≠ i → l[j]? = some b → f b ≠ some k := by
  rw [isFree_eq, isUnheld_iff]
  simp only [Option.mem_toList, ne_eq]

namespace HeldOnce

variable {f : α → Option κ} {l : List α}

theorem nil : HeldOnce f [] := heldOnce_iff.mpr .nil

/-- An entry that is added holds no lock. -/
theorem concat (h : HeldOnce f l) {c : α} (hc : f c = none) : HeldOnce f (l ++ [c]) :=
  heldOnce_iff.mpr ((heldOnce_iff.mp h).concat (by rw [hc]; rfl))

/-- The entry at `i` keeps its lock, gives it up, or acquires one that is free. -/
theorem set [DecidableEq κ] (h : HeldOnce f l) {i : Nat} {a a' : α} (ha : l[i]? = some a)
    (hnew : ∀ k, f a' = some k → f a = some k ∨ isFree f l i k) : HeldOnce f (l.set i a') := by
  refine heldOnce_iff.mpr ((heldOnce_iff.mp h).set ha fun k hk => ?_)
  rw [← isFree_eq, Option.mem_toList]
  exact hnew k (Option.mem_toList.mp hk)

end HeldOnce

end Tonatiuh.Transition
