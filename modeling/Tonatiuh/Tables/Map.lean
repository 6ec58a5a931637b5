import Tonatiuh.Tables.Upsert

/-! Maps that remember the order of insertion.

A map is the list of its entries. `set` is `upsert` by the key, which keeps the place of an entry
that is there, and an entry that is deleted and set again comes last. -/

namespace Tonatiuh.Tables

variable {κ α : Type*} [DecidableEq κ] {entries : List (κ × α)} {k c : κ} {a : α}

theorem lookup_cons :
    ((k, a) :: entries).lookup c = if c = k then some a else entries.lookup c := by
  rw [List.lookup_cons]
  by_cases h : c = k
  · rw [if_pos h, beq_iff_eq.mpr h]
  · rw [if_neg h, beq_eq_false_iff_ne.mpr h]

theorem lookup_upsert :
    (upsert Prod.fst (k, a) entries).lookup c = if c = k then some a else entries.lookup c := by
  induction entries with
  | nil => rw [upsert, lookup_cons]
  | cons entry entries ih =>
    obtain ⟨key, b⟩ := entry
    rw [upsert]
    split
    next heq =>
      subst heq
      rw [lookup_cons, lookup_cons]
      split <;> rfl
    next hne =>
      rw [lookup_cons, lookup_cons, ih]
      by_cases hc : c = key
      · subst hc
        rw [if_pos rfl, if_pos rfl, if_neg hne]
      · rw [if_neg hc, if_neg hc]

theorem mem_of_lookup (h : entries.lookup k = some a) : (k, a) ∈ entries := by
  obtain ⟨before, after, rfl, -⟩ := List.lookup_eq_some_iff.mp h
  exact List.mem_append_right before List.mem_cons_self

def delete (k : κ) (entries : List (κ × α)) : List (κ × α) :=
  entries.filter fun entry => entry.1 ≠ k

theorem lookup_delete : (delete k entries).lookup c = if c = k then none else entries.lookup c := by
  induction entries with
  | nil => exact (ite_self none).symm
  | cons entry entries ih =>
    obtain ⟨key, b⟩ := entry
    rw [delete] at ih ⊢
    by_cases hkey : key = k
    · rw [List.filter_cons_of_neg (by simp [hkey]), ih, lookup_cons, hkey]
      split <;> rfl
    · rw [List.filter_cons_of_pos (by simp [hkey]), lookup_cons, lookup_cons, ih]
      by_cases hc : c = key
      · subst hc
        rw [if_pos rfl, if_pos rfl, if_neg hkey]
      · rw [if_neg hc, if_neg hc]

theorem lookup_eq_none (h : k ∉ entries.map Prod.fst) : entries.lookup k = none := by
  rw [List.lookup_eq_none_iff]
  intro entry hentry
  exact bne_iff_ne.mpr fun heq => h (heq.symm ▸ List.mem_map_of_mem hentry)

theorem lookup_of_mem (h : (entries.map Prod.fst).Nodup) (hmem : (k, a) ∈ entries) :
    entries.lookup k = some a := by
  induction entries with
  | nil => cases hmem
  | cons entry entries ih =>
    obtain ⟨hkey, hrest⟩ := List.nodup_cons.mp h
    rcases List.mem_cons.mp hmem with rfl | hmem
    · rw [lookup_cons, if_pos rfl]
    · rw [lookup_cons, if_neg, ih hrest hmem]
      rintro rfl
      exact hkey (List.mem_map.mpr ⟨_, hmem, rfl⟩)

/-- Entries that are removed by a test of theirs. -/
theorem lookup_filter {p : κ × α → Bool} (h : (entries.map Prod.fst).Nodup) :
    (entries.filter p).lookup k = (entries.lookup k).filter fun a => p (k, a) := by
  induction entries with
  | nil => rfl
  | cons entry entries ih =>
    obtain ⟨key, b⟩ := entry
    obtain ⟨hkey, hrest⟩ := List.nodup_cons.mp h
    rw [lookup_cons, List.filter_cons]
    by_cases hk : k = key
    · subst hk
      rw [if_pos rfl]
      split
      next hp => rw [lookup_cons, if_pos rfl, Option.filter_some, if_pos hp]
      next hp =>
        rw [ih hrest, lookup_eq_none hkey, Option.filter_none, Option.filter_some, if_neg hp]
    · rw [if_neg hk]
      split
      next => rw [lookup_cons, if_neg hk, ih hrest]
      next => exact ih hrest

end Tonatiuh.Tables
