import Mathlib.Data.Fintype.Card
import Mathlib.Data.Set.Finite.Basic
import Mathlib.Logic.Relation

/-! Walks along the successors of a graph.

A recursion over the successors ends with a bound on its depth exactly if no walk is infinite, and
where finitely many points are reached, exactly if none of them leads back to itself. -/

namespace Tonatiuh.Transition

open Relation

variable {α : Type} (next : α → List α)

def Leads (a b : α) : Prop := b ∈ next a

/-- No walk from `a` on has `n` steps. -/
def EndsWithin : (n : Nat) → (a : α) → Prop
  | 0, _ => False
  | n + 1, a => ∀ b ∈ next a, EndsWithin n b

variable {next} {a b : α}

theorem EndsWithin.mono {m n : Nat} (h : EndsWithin next m a) (hle : m ≤ n) :
    EndsWithin next n a := by
  induction m generalizing n a with
  | zero => cases h
  | succ m ih =>
    obtain ⟨n, rfl⟩ := Nat.exists_eq_add_one.mpr (Nat.zero_lt_of_lt hle)
    exact fun b hb => ih (h b hb) (Nat.le_of_succ_le_succ hle)

theorem exists_endsWithin_forall {l : List α} (h : ∀ b ∈ l, ∃ n, EndsWithin next n b) :
    ∃ n, ∀ b ∈ l, EndsWithin next n b := by
  induction l with
  | nil => exact ⟨0, fun _ hb => absurd hb List.not_mem_nil⟩
  | cons c l ih =>
    obtain ⟨m, hm⟩ := h c List.mem_cons_self
    obtain ⟨n, hn⟩ := ih fun b hb => h b (List.mem_cons_of_mem _ hb)
    refine ⟨max m n, fun b hb => ?_⟩
    rcases List.mem_cons.mp hb with rfl | hb
    · exact hm.mono (Nat.le_max_left m n)
    · exact (hn b hb).mono (Nat.le_max_right m n)

theorem exists_endsWithin_iff_acc : (∃ n, EndsWithin next n a) ↔ Acc (flip (Leads next)) a := by
  constructor
  · rintro ⟨n, hn⟩
    induction n generalizing a with
    | zero => cases hn
    | succ n ih => exact ⟨_, fun b hb => ih (hn b hb)⟩
  · intro h
    induction h with
    | intro a _ ih =>
      obtain ⟨n, hn⟩ := exists_endsWithin_forall ih
      exact ⟨n + 1, hn⟩

/-- A point at which the walks end does not lead back to itself. -/
theorem not_transGen_self_of_acc (h : Acc (flip (Leads next)) a) : ¬ TransGen (Leads next) a a := by
  induction h with
  | intro a _ ih =>
    intro hcycle
    obtain ⟨b, hab, hba⟩ := TransGen.head'_iff.mp hcycle
    exact ih b hab (.tail' hba hab)

theorem acc_of_reflTransGen (h : Acc (flip (Leads next)) a) (hab : ReflTransGen (Leads next) a b) :
    Acc (flip (Leads next)) b := by
  induction hab with
  | refl => exact h
  | tail _ hstep ih => exact ih.inv hstep

theorem acc_of_finite (hfinite : {b | ReflTransGen (Leads next) a b}.Finite)
    (h : ∀ b, ReflTransGen (Leads next) a b → ¬ TransGen (Leads next) b b) :
    Acc (flip (Leads next)) a := by
  let after (x y : {b | ReflTransGen (Leads next) a b}) : Prop := TransGen (Leads next) y.1 x.1
  have : Finite {b | ReflTransGen (Leads next) a b} := hfinite
  have : IsTrans _ after := ⟨fun _ _ _ hyx hzy => hzy.trans hyx⟩
  have : Std.Irrefl after := ⟨fun x => h x.1 x.2⟩
  have hwf := Finite.wellFounded_of_trans_of_irrefl after
  suffices hacc : ∀ x : {b | ReflTransGen (Leads next) a b},
      Acc (flip (Leads next)) x.1 from hacc ⟨a, .refl⟩
  intro x
  induction hwf.apply x with
  | intro x _ ih => exact ⟨_, fun b hb => ih ⟨b, x.2.tail hb⟩ (.single hb)⟩

/-- Where the reached points are finitely many, the walks end if none of them leads back to
itself. -/
theorem exists_endsWithin_iff (hfinite : {b | ReflTransGen (Leads next) a b}.Finite) :
    (∃ n, EndsWithin next n a) ↔
      ∀ b, ReflTransGen (Leads next) a b → ¬ TransGen (Leads next) b b := by
  rw [exists_endsWithin_iff_acc]
  constructor
  · exact fun h b hab => not_transGen_self_of_acc (acc_of_reflTransGen h hab)
  · exact acc_of_finite hfinite

end Tonatiuh.Transition
