import Mathlib.Data.List.Induction
import Mathlib.Data.List.Nodup

/-! Tables with a unique key.

A table is the list of its rows, and `k` gives the key of a row. `INSERT ... ON CONFLICT DO UPDATE`
replaces the row with the key of the new one, or adds the new row at the end (`upsert`).
`INSERT ... ON CONFLICT DO NOTHING` adds it if there is none (`insertNew`). -/

namespace Tonatiuh.Tables

variable {α κ : Type*} [DecidableEq κ] {k : α → κ} {x y : α} {rows : List α}

def upsert (k : α → κ) (x : α) : List α → List α
  | [] => [x]
  | y :: rows => if k y = k x then x :: rows else y :: upsert k x rows

theorem mem_of_mem_upsert (h : y ∈ upsert k x rows) : y = x ∨ y ∈ rows := by
  induction rows with
  | nil => exact .inl (List.mem_singleton.mp h)
  | cons z rows ih =>
    rw [upsert] at h
    split at h
    · rcases List.mem_cons.mp h with rfl | hmem
      · exact .inl rfl
      · exact .inr (List.mem_cons_of_mem z hmem)
    · rcases List.mem_cons.mp h with rfl | hmem
      · exact .inr List.mem_cons_self
      · exact (ih hmem).imp_right (List.mem_cons_of_mem z)

theorem self_mem_upsert : x ∈ upsert k x rows := by
  induction rows with
  | nil => exact List.mem_cons_self
  | cons z rows ih =>
    rw [upsert]
    split
    · exact List.mem_cons_self
    · exact List.mem_cons_of_mem z ih

theorem mem_upsert_of_ne (hne : k y ≠ k x) (h : y ∈ rows) : y ∈ upsert k x rows := by
  induction rows with
  | nil => cases h
  | cons z rows ih =>
    rw [upsert]
    split
    next heq =>
      rcases List.mem_cons.mp h with rfl | hmem
      · exact absurd heq hne
      · exact List.mem_cons_of_mem x hmem
    next =>
      rcases List.mem_cons.mp h with rfl | hmem
      · exact List.mem_cons_self
      · exact List.mem_cons_of_mem z (ih hmem)

/-- The other rows are kept, and the row with the key of the new one is not. -/
theorem mem_upsert (hrows : (rows.map k).Nodup) :
    y ∈ upsert k x rows ↔ y = x ∨ (y ∈ rows ∧ k y ≠ k x) := by
  constructor
  · intro h
    induction rows with
    | nil => exact .inl (List.mem_singleton.mp h)
    | cons z rows ih =>
      rw [List.map_cons, List.nodup_cons] at hrows
      rw [upsert] at h
      split at h
      next heq =>
        rcases List.mem_cons.mp h with rfl | hmem
        · exact .inl rfl
        · refine .inr ⟨List.mem_cons_of_mem z hmem, fun hy => hrows.1 ?_⟩
          exact heq.trans hy.symm ▸ List.mem_map_of_mem hmem
      next hne =>
        rcases List.mem_cons.mp h with rfl | hmem
        · exact .inr ⟨List.mem_cons_self, hne⟩
        · exact (ih hrows.2 hmem).imp_right fun h' => ⟨List.mem_cons_of_mem z h'.1, h'.2⟩
  · rintro (rfl | ⟨hmem, hne⟩)
    · exact self_mem_upsert
    · exact mem_upsert_of_ne hne hmem

theorem find?_upsert {key : κ} (heq : k x = key) :
    (upsert k x rows).find? (fun y => k y = key) = some x := by
  subst heq
  induction rows with
  | nil => simp [upsert]
  | cons z rows ih =>
    rw [upsert]
    split
    next => simp
    next hne => simpa [List.find?_cons, hne] using ih

theorem find?_upsert_of_ne {key : κ} (hne : k x ≠ key) :
    (upsert k x rows).find? (fun y => k y = key) = rows.find? fun y => k y = key := by
  induction rows with
  | nil => simp [upsert, hne]
  | cons z rows ih =>
    rw [upsert]
    split
    next heq => simp [hne, heq]
    next => rw [List.find?_cons, List.find?_cons, ih]

theorem find?_filter_of_ne {key key' : κ} (hne : key' ≠ key) :
    (rows.filter fun y => k y ≠ key').find? (fun y => k y = key) =
      rows.find? fun y => k y = key := by
  rw [List.find?_filter]
  congr 1
  funext y
  by_cases hy : k y = key
  · simp [hy, hne.symm]
  · simp [hy]

theorem nodup_upsert (hrows : (rows.map k).Nodup) : ((upsert k x rows).map k).Nodup := by
  induction rows with
  | nil => simp [upsert]
  | cons z rows ih =>
    rw [List.map_cons, List.nodup_cons] at hrows
    rw [upsert]
    split
    next heq =>
      rw [List.map_cons, List.nodup_cons, ← heq]
      exact hrows
    next hne =>
      rw [List.map_cons, List.nodup_cons]
      refine ⟨fun hmem => ?_, ih hrows.2⟩
      obtain ⟨y, hy, heq⟩ := List.mem_map.mp hmem
      rcases mem_of_mem_upsert hy with rfl | hold
      · exact hne heq.symm
      · exact hrows.1 (heq ▸ List.mem_map_of_mem hold)

/-- Rows of another kind than the new row and the one that it replaces. -/
theorem filter_upsert {p : α → Bool} (hx : p x = false) (h : ∀ y ∈ rows, k y = k x → p y = false) :
    (upsert k x rows).filter p = rows.filter p := by
  induction rows with
  | nil => simp [upsert, hx]
  | cons z rows ih =>
    rw [upsert]
    split
    next heq => simp [hx, h z List.mem_cons_self heq]
    next =>
      rw [List.filter_cons, List.filter_cons, ih fun y hy => h y (List.mem_cons_of_mem z hy)]

/-- Rows of the kind of the new row, when the key tells the kind of a row. -/
theorem filter_upsert_of_key {p : α → Bool} (hx : p x) (h : ∀ y, k y = k x → p y) :
    (upsert k x rows).filter p = upsert k x (rows.filter p) := by
  induction rows with
  | nil => simp [upsert, hx]
  | cons z rows ih =>
    rw [upsert]
    split
    next heq =>
      rw [List.filter_cons_of_pos hx, List.filter_cons_of_pos (h z heq), upsert, if_pos heq]
    next hne =>
      cases hz : p z with
      | true => rw [List.filter_cons_of_pos hz, List.filter_cons_of_pos hz, upsert, if_neg hne, ih]
      | false =>
        rw [List.filter_cons_of_neg (by simp [hz]), List.filter_cons_of_neg (by simp [hz]), ih]

/-! ## Numbers of rows -/

theorem countP_upsert_le {p : α → Bool} : (upsert k x rows).countP p ≤ rows.countP p + 1 := by
  induction rows with
  | nil => exact List.countP_le_length
  | cons z rows ih =>
    rw [upsert]
    split
    · rw [List.countP_cons, List.countP_cons]
      split <;> omega
    · rw [List.countP_cons, List.countP_cons]
      omega

/-- A row that counts is replaced. -/
theorem countP_upsert_le_of_mem {p : α → Bool} (hrows : (rows.map k).Nodup) (hy : y ∈ rows)
    (hk : k y = k x) (hp : p y) : (upsert k x rows).countP p ≤ rows.countP p := by
  induction rows with
  | nil => cases hy
  | cons z rows ih =>
    rw [List.map_cons, List.nodup_cons] at hrows
    rw [upsert]
    rcases List.mem_cons.mp hy with rfl | hmem
    · rw [if_pos hk, List.countP_cons, List.countP_cons_of_pos hp]
      split <;> omega
    · have hne : k z ≠ k x := fun heq =>
        hrows.1 (heq.trans hk.symm ▸ List.mem_map_of_mem hmem)
      rw [if_neg hne, List.countP_cons, List.countP_cons]
      exact Nat.add_le_add_right (ih hrows.2 hmem) _

/-- No row begins to count. -/
theorem countP_map_le {p : α → Bool} {f : α → α} (h : ∀ y ∈ rows, p (f y) → p y) :
    (rows.map f).countP p ≤ rows.countP p := by
  rw [List.countP_map]
  exact List.countP_mono_left h

/-- No row begins to count, and one does not count any more. -/
theorem countP_map_lt {p : α → Bool} {f : α → α} (h : ∀ y ∈ rows, p (f y) → p y) (hx : x ∈ rows)
    (hp : p x) (hf : ¬p (f x)) : (rows.map f).countP p < rows.countP p := by
  induction rows with
  | nil => cases hx
  | cons z rows ih =>
    rw [List.map_cons, List.countP_cons, List.countP_cons]
    rcases List.mem_cons.mp hx with rfl | hmem
    · rw [if_neg hf, if_pos hp]
      exact Nat.lt_succ_of_le (countP_map_le fun y hy => h y (List.mem_cons_of_mem _ hy))
    · have hlt := ih (fun y hy => h y (List.mem_cons_of_mem _ hy)) hmem
      have hz := h z List.mem_cons_self
      split
      next hfz => rw [if_pos (hz hfz)]; omega
      next => split <;> omega

/-! ## Rows that are added once -/

/-- The row is added if no row has its key. -/
def insertNew (k : α → κ) (x : α) (rows : List α) : List α :=
  if rows.any fun y => k y = k x then rows else rows ++ [x]

theorem mem_insertNew_of_mem (h : y ∈ rows) : y ∈ insertNew k x rows := by
  unfold insertNew
  split
  · exact h
  · exact List.mem_append_left _ h

/-- A row that has been added is the only one of its key. -/
theorem mem_insertNew (h : y ∈ insertNew k x rows) : y ∈ rows ∨ y = x ∧ ∀ z ∈ rows, k z ≠ k x := by
  unfold insertNew at h
  split at h
  next => exact .inl h
  next hany =>
    rcases List.mem_append.mp h with hold | hnew
    · exact .inl hold
    · refine .inr ⟨List.mem_singleton.mp hnew, fun z hz heq => hany ?_⟩
      exact List.any_eq_true.mpr ⟨z, hz, decide_eq_true heq⟩

theorem exists_mem_insertNew : ∃ y ∈ insertNew k x rows, k y = k x := by
  unfold insertNew
  split
  next hany =>
    obtain ⟨y, hy, heq⟩ := List.any_eq_true.mp hany
    exact ⟨y, hy, of_decide_eq_true heq⟩
  next => exact ⟨x, List.mem_append_right _ (List.mem_singleton_self x), rfl⟩

/-! ## The last row of each key -/

/-- The table after the rows have been written one after another. -/
def lastBy (k : α → κ) (l : List α) : List α := l.foldl (fun rows x => upsert k x rows) []

theorem lastBy_concat (l : List α) : lastBy k (l ++ [x]) = upsert k x (lastBy k l) := by
  rw [lastBy, List.foldl_append]
  rfl

section
variable {β κ' : Type*} [DecidableEq κ'] {k' : β → κ'} {R : α → β → Prop}

/-- Two tables whose rows correspond to each other, with their keys. -/
theorem forall₂_upsert {rows' : List β} {x' : β} (hrows : List.Forall₂ R rows rows') (hx : R x x')
    (hk : ∀ y y', R y y' → (k y = k x ↔ k' y' = k' x')) :
    List.Forall₂ R (upsert k x rows) (upsert k' x' rows') := by
  induction hrows with
  | nil => exact .cons hx .nil
  | cons hy hrest ih =>
    rw [upsert, upsert]
    split
    next heq =>
      rw [if_pos ((hk _ _ hy).mp heq)]
      exact .cons hx hrest
    next hne =>
      rw [if_neg fun heq => hne ((hk _ _ hy).mpr heq)]
      exact .cons hy ih

theorem forall₂_lastBy {l : List α} {l' : List β} (hl : List.Forall₂ R l l')
    (hk : ∀ x x' y y', R x x' → R y y' → (k y = k x ↔ k' y' = k' x')) :
    List.Forall₂ R (lastBy k l) (lastBy k' l') := by
  suffices h : ∀ rows rows', List.Forall₂ R rows rows' →
      List.Forall₂ R (l.foldl (fun rows x => upsert k x rows) rows)
        (l'.foldl (fun rows x => upsert k' x rows) rows') from h _ _ .nil
  induction hl with
  | nil => exact fun _ _ hrows => hrows
  | cons hx _ ih =>
    exact fun _ _ hrows => ih _ _ (forall₂_upsert hrows hx fun y y' hy => hk _ _ y y' hx hy)

end

/-- Exactly one row with the property `p`. -/
theorem filter_eq_singleton {p : α → Bool} (hrows : rows.Nodup) :
    rows.filter p = [x] ↔ x ∈ rows ∧ p x ∧ ∀ y ∈ rows, p y → y = x := by
  constructor
  · intro h
    have hx : x ∈ rows.filter p := by rw [h]; exact List.mem_cons_self
    rw [List.mem_filter] at hx
    refine ⟨hx.1, hx.2, fun y hy hpy => ?_⟩
    exact List.mem_singleton.mp (h ▸ List.mem_filter.mpr ⟨hy, hpy⟩)
  · rintro ⟨hx, hpx, hunique⟩
    refine List.perm_singleton.mp ((List.perm_ext_iff_of_nodup (hrows.filter p) (by simp)).mpr ?_)
    intro y
    rw [List.mem_filter, List.mem_singleton]
    constructor
    · rintro ⟨hy, hpy⟩
      exact hunique y hy hpy
    · rintro rfl
      exact ⟨hx, hpx⟩

end Tonatiuh.Tables
