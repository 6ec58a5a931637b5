import Tonatiuh.Quota.Creations
import Tonatiuh.Transition.Run

/-! Creations commit below the limit of the plan.

Only the transaction that holds the advisory lock of a resource inserts a row of it. So the number
of committed rows does not grow between the count and the COMMIT. -/

namespace Tonatiuh.Quota

open Billing (Plan)
open Commands (Failure activePlan)
open Transition

variable {hashtextextended : String → Int} {organizationId : String} {db : Database}
  {s s' : System} {t u : Transaction} {stage : Stage} {plan : Plan} {row : Row} {i : Nat}

/-! ## Rows -/

theorem Transaction.row_key (h : t.row = .ok row) : row.key.1 = t.resource := by
  unfold Transaction.row at h
  split at h
  next exchangeCode label sandbox isVerified hbody =>
    cases hlabel : stringValue label "label" 100 with
    | error => simp only [hlabel] at h; cases h
    | ok =>
      simp only [hlabel] at h; cases h
      simp only [Row.key, Transaction.resource, hbody, Body.resource]
  next connectionId name configuration hbody =>
    cases hname : stringValue name "name" 100 with
    | error => simp only [hname] at h; cases h
    | ok =>
      cases configuration with
      | error => simp only [hname] at h; cases h
      | ok =>
        simp only [hname] at h; cases h
        simp only [Row.key, Transaction.resource, hbody, Body.resource]

theorem Database.count_insert (resource : Resource) :
    (db.insert row).count resource = db.count resource + if row.key.1 = resource then 1 else 0 := by
  cases row <;> cases resource <;> simp [insert, count, Row.key]

/-! ## Statements -/

/-- The plan for which a transaction has counted fewer rows than the limit. -/
def Transaction.checked (t : Transaction) : Option Plan :=
  match t.stage with
  | .selectConnection plan _ | .insert plan | .commit plan _ => some plan
  | _ => none

/-- The plan that a transaction has read. -/
def Transaction.planRead (t : Transaction) : Option Plan :=
  match t.stage with
  | .count plan => some plan
  | _ => t.checked

/-- What the next statement of a transaction can find, and the stage after it. -/
inductive System.Next (hashtextextended : String → Int) (organizationId : String) (s : System)
    (i : Nat) (t : Transaction) : Stage → Prop where
  | locked (hs : t.stage = .lock)
    (hfree : isFree (Transaction.lockedKey hashtextextended organizationId) s.transactions i
      (lockKey hashtextextended organizationId t.resource)) : Next _ _ s i t .selectPlan
  | planned (hs : t.stage = .selectPlan) :
    Next _ _ s i t (.count (activePlan t.now s.db.subscription))
  | connecting {plan : Plan} (hs : t.stage = .count plan)
    (hcount : s.db.count t.resource < t.resource.limit plan) :
    Next _ _ s i t (.selectConnection plan connectionId)
  | counted {plan : Plan} (hs : t.stage = .count plan)
    (hcount : s.db.count t.resource < t.resource.limit plan) : Next _ _ s i t (.insert plan)
  | connected {plan : Plan} (hs : t.stage = .selectConnection plan connectionId) :
    Next _ _ s i t (.insert plan)
  | inserted {plan : Plan} {row : Row} (hs : t.stage = .insert plan) (hrow : t.row = .ok row) :
    Next _ _ s i t (.commit plan row)
  | committed {plan : Plan} {row : Row} (hs : t.stage = .commit plan row) :
    Next _ _ s i t (.ended (.ok row))
  | rejected (hs : t.inserted = none) (failure : Failure) : Next _ _ s i t (.ended (.error failure))

theorem System.next_cases (h : s.next hashtextextended organizationId i t = some stage) :
    s.Next hashtextextended organizationId i t stage := by
  cases hs : t.stage with
  | lock =>
    simp only [next, hs] at h
    split at h
    next hfree =>
      cases h
      exact .locked hs hfree
    next => cases h
  | selectPlan =>
    simp only [next, hs, Option.some.injEq] at h
    exact h ▸ .planned hs
  | count plan =>
    simp only [next, hs, Option.some.injEq] at h
    subst h
    split
    next => exact .rejected (by rw [Transaction.inserted, hs]) _
    next hlimit =>
      split
      · exact .counted hs (Nat.not_le.mp hlimit)
      · exact .connecting hs (Nat.not_le.mp hlimit)
  | selectConnection plan connectionId =>
    simp only [next, hs, Option.some.injEq] at h
    subst h
    split
    · exact .connected hs
    · exact .rejected (by rw [Transaction.inserted, hs]) _
  | insert plan =>
    have hnone : t.inserted = none := by rw [Transaction.inserted, hs]
    simp only [next, hs] at h
    cases hrow : t.row with
    | error failure =>
      simp only [hrow, Option.some.injEq] at h
      exact h ▸ .rejected hnone failure
    | ok row =>
      simp only [hrow] at h
      split at h
      · cases h
        split
        · exact .rejected hnone _
        · split
          · exact .inserted hs hrow
          · exact .rejected hnone _
      · cases h
  | commit plan row =>
    simp only [next, hs, Option.some.injEq] at h
    exact h ▸ .committed hs
  | ended answer =>
    simp only [next, hs] at h
    cases h

/-! ## Invariant -/

/-- No two transactions hold the same advisory lock. A transaction that has passed the check inserts
the row of its body, and there are fewer rows than its plan allows. -/
structure System.Sound (hashtextextended : String → Int) (organizationId : String) (s : System) :
    Prop where
  locks : HeldOnce (Transaction.lockedKey hashtextextended organizationId) s.transactions
  rows : ∀ (i : Nat) (t : Transaction), s.transactions[i]? = some t → ∀ row,
    t.inserted = some row → t.row = .ok row
  below : ∀ (i : Nat) (t : Transaction), s.transactions[i]? = some t → ∀ plan,
    t.checked = some plan → s.db.count t.resource < t.resource.limit plan

@[simp] theorem Transaction.resource_stage :
    ({ t with stage } : Transaction).resource = t.resource :=
  rfl

@[simp] theorem Transaction.row_stage : ({ t with stage } : Transaction).row = t.row := rfl

theorem Transaction.locked_of_checked (h : t.checked = some plan) : t.locked = some t.resource := by
  cases hs : t.stage with
  | selectConnection | insert | commit => simp only [locked, hs]
  | _ =>
    rw [checked, hs] at h
    cases h

theorem Transaction.inserted_cases (h : t.inserted = some row) :
    ∃ plan, t.stage = .commit plan row := by
  cases hs : t.stage with
  | commit plan row' =>
    rw [inserted, hs] at h
    exact ⟨plan, by rw [Option.some.inj h]⟩
  | _ =>
    rw [inserted, hs] at h
    cases h

/-- A statement that is no COMMIT of a row changes no table. -/
theorem Database.commit_eq (h : t.inserted = none) : db.commit t = db ∧ t.created = [] := by
  cases hs : t.stage with
  | commit plan row =>
    rw [Transaction.inserted, hs] at h
    cases h
  | _ => simp only [commit, Transaction.created, hs, and_self]

namespace System

theorem run_cases (h : s.run hashtextextended organizationId i = some s') :
    ∃ t stage, s.transactions[i]? = some t ∧
      s.next hashtextextended organizationId i t = some stage ∧
      s' = ⟨s.db.commit t, s.transactions.set i { t with stage }, s.created ++ t.created⟩ := by
  obtain ⟨t, ht, h⟩ := Option.bind_eq_some_iff.mp h
  obtain ⟨stage, hstage, h⟩ := Option.bind_eq_some_iff.mp h
  exact ⟨t, stage, ht, hstage, (Option.some.inj h).symm⟩

theorem abort_cases {message : String} (h : s.abort i message = some s') :
    ∃ t, s.transactions[i]? = some t ∧ (∀ answer, t.stage ≠ .ended answer) ∧ s' = { s with
      transactions := s.transactions.set i
        { t with stage := .ended (.error (.internal message)) } } := by
  obtain ⟨t, ht, h⟩ := Option.bind_eq_some_iff.mp h
  refine ⟨t, ht, ?_⟩
  split at h
  · cases h
  next hs => exact ⟨hs, (Option.some.inj h).symm⟩

/-- A transaction takes a lock only if no other has it. -/
theorem next_lockedKey (h : s.next hashtextextended organizationId i t = some stage) {k : Int}
    (hk : ({ t with stage } : Transaction).lockedKey hashtextextended organizationId = some k) :
    t.lockedKey hashtextextended organizationId = some k ∨
      isFree (Transaction.lockedKey hashtextextended organizationId) s.transactions i k := by
  cases next_cases h with
  | locked _ hfree =>
    obtain rfl : lockKey hashtextextended organizationId t.resource = k := Option.some.inj hk
    exact .inr hfree
  | planned hs | connecting hs | counted hs | connected hs | inserted hs =>
    left
    simpa only [Transaction.lockedKey, Transaction.locked, hs, Transaction.resource_stage] using hk
  | committed | rejected => cases hk

theorem next_row (h : s.next hashtextextended organizationId i t = some stage)
    (hrow : ({ t with stage } : Transaction).inserted = some row) : t.row = .ok row := by
  cases next_cases h with
  | inserted _ ht => exact Option.some.inj hrow ▸ ht
  | _ => cases hrow

theorem next_checked (h : s.next hashtextextended organizationId i t = some stage)
    (hplan : ({ t with stage } : Transaction).checked = some plan) :
    t.checked = some plan ∨ s.db.count t.resource < t.resource.limit plan := by
  cases next_cases h with
  | connecting _ hcount | counted _ hcount => exact .inr (Option.some.inj hplan ▸ hcount)
  | connected hs | inserted hs =>
    left
    simpa only [Transaction.checked, hs] using hplan
  | _ => cases hplan

/-- The rows of a transaction that commits are of its resource. -/
theorem Sound.count_commit (hi : s.Sound hashtextextended organizationId)
    (ht : s.transactions[i]? = some t) {resource : Resource} (hne : t.resource ≠ resource) :
    (s.db.commit t).count resource = s.db.count resource := by
  cases hrow : t.inserted with
  | none => rw [(Database.commit_eq hrow).1]
  | some row =>
    obtain ⟨plan, hs⟩ := Transaction.inserted_cases hrow
    have hkey := Transaction.row_key (hi.rows i t ht row hrow)
    simp only [Database.commit, hs, Database.count_insert, hkey, if_neg hne, Nat.add_zero]

/-- The transaction `t` has run a statement and comes to `stage`. -/
theorem Sound.run (hi : s.Sound hashtextextended organizationId)
    (h : s.run hashtextextended organizationId i = some s') :
    s'.Sound hashtextextended organizationId := by
  obtain ⟨t, stage, ht, hnext, rfl⟩ := run_cases h
  exact {
    locks := hi.locks.set ht fun _ hk => next_lockedKey hnext hk
    rows j u hj row hrow := by
      rcases getElem?_set_cases hj with ⟨rfl, rfl⟩ | ⟨-, hj⟩
      · rw [Transaction.row_stage]
        exact next_row hnext hrow
      · exact hi.rows j u hj row hrow
    below j u hj plan hplan := by
      rcases getElem?_set_cases hj with ⟨rfl, rfl⟩ | ⟨hne, hj⟩
      · -- a transaction that has passed the check has not committed in this step
        have hnone : t.inserted = none := by
          cases next_cases hnext with
          | committed | rejected => cases hplan
          | locked hs | planned hs | connecting hs | counted hs | connected hs | inserted hs =>
            rw [Transaction.inserted, hs]
        rw [(Database.commit_eq hnone).1]
        rcases next_checked hnext hplan with hold | hcount
        · exact hi.below _ t ht plan hold
        · exact hcount
      · rcases eq_or_ne t.resource u.resource with heq | hres
        · -- `t` does not hold the lock that `u` holds, and so inserts nothing
          cases hrow : t.inserted with
          | none =>
            rw [(Database.commit_eq hrow).1]
            exact hi.below j u hj plan hplan
          | some row =>
            obtain ⟨plan', hs⟩ := Transaction.inserted_cases hrow
            have hut : u.locked = some u.resource := Transaction.locked_of_checked hplan
            have htt : t.locked = some u.resource := by rw [Transaction.locked, hs, ← heq]
            refine absurd (hi.locks j i u t (lockKey hashtextextended organizationId u.resource)
              hj ht ?_ ?_) hne
            · rw [Transaction.lockedKey, hut, Option.map_some]
            · rw [Transaction.lockedKey, htt, Option.map_some]
        · rw [hi.count_commit ht hres]
          exact hi.below j u hj plan hplan }

/-- Rows are changed or deleted. -/
theorem Sound.of_count (hi : s.Sound hashtextextended organizationId)
    (hcount : ∀ resource, db.count resource ≤ s.db.count resource) :
    System.Sound hashtextextended organizationId { s with db := db } where
  locks := hi.locks
  rows := hi.rows
  below i t ht plan hplan := Nat.lt_of_le_of_lt (hcount _) (hi.below i t ht plan hplan)

/-- A step that is no statement of a transaction adds no row. -/
theorem step_count (h : s.step hashtextextended organizationId e = some s')
    (he : ∀ i, e ≠ .run i) (resource : Resource) :
    s'.db.count resource ≤ s.db.count resource ∧ s'.created = s.created := by
  cases e with
  | run i => exact absurd rfl (he i)
  | request body id now =>
    simp only [step] at h
    split at h
    · cases h; exact ⟨Nat.le_refl _, rfl⟩
    · cases h
  | abort i message =>
    obtain ⟨t, -, -, rfl⟩ := abort_cases h
    exact ⟨Nat.le_refl _, rfl⟩
  | updateBot id name configuration =>
    simp only [step] at h
    split at h
    · cases h; cases resource <;> simp [Database.count]
    · cases h
  | updateConnection id label enabled =>
    simp only [step] at h
    split at h
    · cases h; cases resource <;> simp [Database.count]
    · cases h
  | delete bots connections =>
    simp only [step] at h
    split at h
    · cases h
    · cases h
      cases resource with
      | exchangeConnections => exact ⟨List.length_filter_le .., rfl⟩
      | bots => exact ⟨List.length_filter_le .., rfl⟩
  | updateSubscription subscription =>
    cases h
    cases resource <;> exact ⟨Nat.le_refl _, rfl⟩

theorem Sound.step {e : Event} (hi : s.Sound hashtextextended organizationId)
    (h : s.step hashtextextended organizationId e = some s') :
    s'.Sound hashtextextended organizationId := by
  cases e with
  | run i => exact hi.run h
  | request body id now =>
    simp only [System.step] at h
    split at h
    · cases h
      exact {
        locks := hi.locks.concat rfl
        rows j u hj row hrow := by
          rcases getElem?_concat_cases hj with ⟨-, rfl⟩ | ⟨-, hj⟩
          · cases hrow
          · exact hi.rows j u hj row hrow
        below j u hj plan hplan := by
          rcases getElem?_concat_cases hj with ⟨-, rfl⟩ | ⟨-, hj⟩
          · cases hplan
          · exact hi.below j u hj plan hplan }
    · cases h
  | abort i message =>
    obtain ⟨t, ht, -, rfl⟩ := abort_cases h
    exact {
      locks := hi.locks.set ht fun _ hk => by cases hk
      rows j u hj row hrow := by
        rcases getElem?_set_cases hj with ⟨-, rfl⟩ | ⟨-, hj⟩
        · cases hrow
        · exact hi.rows j u hj row hrow
      below j u hj plan hplan := by
        rcases getElem?_set_cases hj with ⟨-, rfl⟩ | ⟨-, hj⟩
        · cases hplan
        · exact hi.below j u hj plan hplan }
  | updateBot | updateConnection | delete =>
    have hcount := step_count h (by simp)
    simp only [System.step] at h
    split at h
    all_goals
      cases h
      try exact hi.of_count fun resource => (hcount resource).1
  | updateSubscription subscription =>
    have hcount := step_count h (by simp)
    cases h
    exact hi.of_count fun resource => (hcount resource).1

/-- Nothing is under way, and nothing has been created. -/
structure IsIdle (s : System) : Prop where
  transactions : s.transactions = []
  created : s.created = []

theorem IsIdle.sound (h : s.IsIdle) : s.Sound hashtextextended organizationId where
  locks := h.transactions ▸ .nil
  rows i t ht := by simp [h.transactions] at ht
  below i t ht := by simp [h.transactions] at ht

end System

/-! ## The plan that a transaction reads -/

/-- Transaction `i` holds the advisory lock of the resource. -/
def System.Holds (s : System) (resource : Resource) (i : Nat) : Prop :=
  ∃ t, s.transactions[i]? = some t ∧ t.locked = some resource

/-- Between the states `start` and `s`, transaction `i` has read this plan under the advisory lock,
which it has held since. -/
def ReadUnderLock (hashtextextended : String → Int) (organizationId : String) (start s : System)
    (i : Nat) (t : Transaction) (plan : Plan) : Prop :=
  ∃ es₁ es₂ s₁ s₂, Run (Stepping (System.step hashtextextended organizationId)) start es₁ s₁ ∧
    s₁.step hashtextextended organizationId (.run i) = some s₂ ∧
    s₁.transactions[i]? = some { t with stage := .selectPlan } ∧ s₁.Holds t.resource i ∧
    plan = activePlan t.now s₁.db.subscription ∧
    Run (Meeting (Stepping (System.step hashtextextended organizationId)) fun a _ b =>
      a.Holds t.resource i ∧ b.Holds t.resource i) s₂ es₂ s

theorem Transaction.locked_of_planRead (h : t.planRead = some plan) :
    t.locked = some t.resource := by
  cases hs : t.stage with
  | count | selectConnection | insert | commit => simp only [locked, hs]
  | _ =>
    simp only [planRead, checked, hs] at h
    cases h

namespace System

theorem next_planRead (h : s.next hashtextextended organizationId i t = some stage)
    (hplan : ({ t with stage } : Transaction).planRead = some plan) :
    t.planRead = some plan ∨
      t.stage = .selectPlan ∧ plan = activePlan t.now s.db.subscription := by
  cases next_cases h with
  | planned hs => exact .inr ⟨hs, (Option.some.inj hplan).symm⟩
  | connecting hs | counted hs | connected hs | inserted hs =>
    left
    simpa only [Transaction.planRead, Transaction.checked, hs] using hplan
  | _ => cases hplan

/-- Where a transaction comes from: it begins, or it has ended or run a statement, or was there. -/
theorem step_transaction {e : Event} (h : s.step hashtextextended organizationId e = some s')
    (hu : s'.transactions[i]? = some u) :
    s.transactions[i]? = some u ∨ (u.stage = .lock ∧ s.transactions[i]? = none) ∨
      ∃ t, s.transactions[i]? = some t ∧ u = { t with stage := u.stage } ∧
        ((∃ message, u.stage = .ended (.error (.internal message))) ∧
            (∀ answer, t.stage ≠ .ended answer) ∨
          e = .run i ∧ s.next hashtextextended organizationId i t = some u.stage) := by
  cases e with
  | request body id now =>
    simp only [step] at h
    split at h
    · cases h
      rcases getElem?_concat_cases hu with ⟨rfl, rfl⟩ | ⟨-, hu⟩
      · exact .inr (.inl ⟨rfl, List.getElem?_eq_none (Nat.le_refl _)⟩)
      · exact .inl hu
    · cases h
  | run j =>
    obtain ⟨t, stage, ht, hnext, rfl⟩ := run_cases h
    rcases getElem?_set_cases hu with ⟨rfl, rfl⟩ | ⟨-, hu⟩
    · exact .inr (.inr ⟨t, ht, rfl, .inr ⟨rfl, hnext⟩⟩)
    · exact .inl hu
  | abort j message =>
    obtain ⟨t, ht, hopen, rfl⟩ := abort_cases h
    rcases getElem?_set_cases hu with ⟨rfl, rfl⟩ | ⟨-, hu⟩
    · exact .inr (.inr ⟨t, ht, rfl, .inl ⟨⟨message, rfl⟩, hopen⟩⟩)
    · exact .inl hu
  | updateBot | updateConnection | delete =>
    simp only [step] at h
    split at h
    all_goals
      cases h
      try exact .inl hu
  | updateSubscription subscription =>
    cases h
    exact .inl hu

end System

theorem readUnderLock {start : System} (hstart : start.transactions = [])
    (h : Run (Stepping (System.step hashtextextended organizationId)) start es s)
    (ht : s.transactions[i]? = some t) (hplan : t.planRead = some plan) :
    ReadUnderLock hashtextextended organizationId start s i t plan := by
  -- the transaction with this plan, at any stage
  let P (a : System) : Prop := ∃ stage, a.transactions[i]? = some { t with stage } ∧
    ({ t with stage } : Transaction).planRead = some plan
  have holds {a : System} (ha : P a) : a.Holds t.resource i := by
    obtain ⟨stage, ha, hplan⟩ := ha
    exact ⟨_, ha, Transaction.locked_of_planRead hplan⟩
  rcases h.since (P := P) ⟨t.stage, ht, hplan⟩ with ⟨⟨stage, hs, -⟩, -⟩ |
    ⟨es₁, e, es₂, s₁, s₂, rfl, h₁, hno, hstep, ⟨stage, hs₂, hplan₂⟩, h₂⟩
  · rw [hstart] at hs
    cases hs
  · rcases System.step_transaction hstep hs₂ with hold | ⟨hlock, -⟩ |
      ⟨t₁, ht₁, heq, ⟨⟨message, hs⟩, -⟩ | ⟨rfl, hnext⟩⟩
    · exact absurd ⟨stage, hold, hplan₂⟩ hno
    · obtain rfl : stage = .lock := hlock
      cases hplan₂
    · obtain rfl : stage = _ := hs
      cases hplan₂
    · have hbody : t₁ = { t with stage := t₁.stage } := by
        injection heq with hbody hid hnow
        rw [hbody, hid, hnow]
      rcases System.next_planRead hnext (by rwa [← heq]) with hold | ⟨hs, hread⟩
      · exact absurd ⟨t₁.stage, hbody ▸ ht₁, hbody ▸ hold⟩ hno
      · rw [hs] at hbody
        subst hbody
        refine ⟨es₁, es₂, s₁, s₂, h₁, hstep, ht₁, ⟨_, ht₁, rfl⟩, hread, ?_⟩
        exact h₂.mono fun a e b ⟨hab, ha, hb⟩ => ⟨hab, holds ha, holds hb⟩

/-! ## Runs -/

namespace System

theorem step_length {e : Event} (h : s.step hashtextextended organizationId e = some s') :
    s.transactions.length ≤ s'.transactions.length := by
  cases e with
  | run j =>
    obtain ⟨t, stage, -, -, rfl⟩ := run_cases h
    exact Nat.le_of_eq List.length_set.symm
  | abort j message =>
    obtain ⟨t, -, -, rfl⟩ := abort_cases h
    exact Nat.le_of_eq List.length_set.symm
  | request | updateBot | updateConnection | delete =>
    simp only [step] at h
    split at h
    all_goals
      cases h
      try simp
  | updateSubscription subscription =>
    cases h
    exact Nat.le_refl _

/-- The answer to a request is final. -/
theorem step_ended {e : Event} {answer : Except Failure Row}
    (h : s.step hashtextextended organizationId e = some s') (ht : s.transactions[i]? = some t)
    (hs : t.stage = .ended answer) : s'.transactions[i]? = some t := by
  have hlt : i < s'.transactions.length :=
    Nat.lt_of_lt_of_le (List.getElem?_eq_some_iff.mp ht).1 (step_length h)
  have hu := List.getElem?_eq_getElem hlt
  rcases step_transaction h hu with hold | ⟨-, hnone⟩ | ⟨t', ht', -, ⟨-, hopen⟩ | ⟨-, hnext⟩⟩
  · rw [hu, ← hold, ht]
  · rw [ht] at hnone
    cases hnone
  · obtain rfl : t = t' := Option.some.inj (ht.symm.trans ht')
    exact absurd hs (hopen answer)
  · obtain rfl : t = t' := Option.some.inj (ht.symm.trans ht')
    simp only [next, hs] at hnext
    cases hnext

theorem run_ended {answer : Except Failure Row}
    (h : Run (Stepping (System.step hashtextextended organizationId)) s es s')
    (ht : s.transactions[i]? = some t) (hs : t.stage = .ended answer) :
    s'.transactions[i]? = some t :=
  h.invariant (I := fun s => s.transactions[i]? = some t) (fun _ _ _ ht h => step_ended h ht hs) ht

/-- The largest of the number of rows before and the limits of the creations that have been
committed. -/
def bound (s : System) (resource : Resource) (before : Nat) : Nat :=
  ((s.created.filter (·.1 = resource)).map fun c => resource.limit c.2).foldl max before

theorem Sound.bound_step {e : Event} {before : Resource → Nat}
    (hi : s.Sound hashtextextended organizationId)
    (hbound : ∀ resource, s.db.count resource ≤ s.bound resource (before resource))
    (h : s.step hashtextextended organizationId e = some s') (resource : Resource) :
    s'.db.count resource ≤ s'.bound resource (before resource) := by
  by_cases hrun : ∃ i, e = .run i
  · obtain ⟨i, rfl⟩ := hrun
    obtain ⟨t, stage, ht, -, rfl⟩ := run_cases h
    cases hrow : t.inserted with
    | none =>
      obtain ⟨hdb, hcreated⟩ : s.db.commit t = s.db ∧ t.created = [] := Database.commit_eq hrow
      simpa only [hdb, hcreated, bound, List.append_nil] using hbound resource
    | some row =>
      obtain ⟨plan, hs⟩ := Transaction.inserted_cases hrow
      have hkey := Transaction.row_key (hi.rows i t ht row hrow)
      rcases eq_or_ne t.resource resource with heq | hne
      · -- one row more, and it was below the limit
        have hbelow := hi.below i t ht plan (by rw [Transaction.checked, hs])
        rw [heq] at hbelow
        simp only [Database.commit, Transaction.created, bound, hs, Database.count_insert, hkey,
          heq, List.filter_append, List.map_append, List.foldl_append]
        simp only [↓reduceIte, List.filter_cons, decide_true, List.filter_nil, List.map_cons,
          List.map_nil, List.foldl_cons, List.foldl_nil]
        omega
      · rw [hi.count_commit ht hne]
        simpa [Transaction.created, bound, hs, hne] using hbound resource
  · obtain ⟨hcount, hcreated⟩ := step_count h (fun i he => hrun ⟨i, he⟩) resource
    rw [bound, hcreated]
    exact Nat.le_trans hcount (hbound resource)

end System

/-- The transaction whose step this is. -/
def Event.transaction : Event → Option Nat
  | .run i | .abort i _ => some i
  | _ => none

/-- A transaction that is rejected has changed no table. -/
theorem rejected_unchanged {e : Event} {failure : Failure} {s₁ s₂ : System}
    (he : e.transaction = some i) (hstep : s₁.step hashtextextended organizationId e = some s₂)
    (h : Run (Stepping (System.step hashtextextended organizationId)) s₂ es s)
    (ht : s.transactions[i]? = some t) (hs : t.stage = .ended (.error failure)) :
    s₂.db = s₁.db := by
  cases e with
  | run j =>
    obtain rfl : j = i := Option.some.inj he
    obtain ⟨t₁, stage, ht₁, hnext, rfl⟩ := System.run_cases hstep
    cases hrow : t₁.inserted with
    | none => exact (Database.commit_eq hrow).1
    | some row =>
      -- it has committed, and that is its answer
      obtain ⟨plan, hs₁⟩ := Transaction.inserted_cases hrow
      simp only [System.next, hs₁, Option.some.injEq] at hnext
      subst hnext
      have hlt : j < s₁.transactions.length := (List.getElem?_eq_some_iff.mp ht₁).1
      have hfinal := System.run_ended h (List.getElem?_set_self hlt) rfl
      obtain rfl := Option.some.inj (ht.symm.trans hfinal)
      cases hs
  | abort j message =>
    obtain ⟨t₁, -, -, rfl⟩ := System.abort_cases hstep
    rfl
  | request | updateBot | updateConnection | delete | updateSubscription => cases he

/-- A creation commits only below the limit of the plan that it has read under the advisory lock, so
that no number of rows exceeds what it was before and what these plans allow. A creation that is
rejected changes no table. -/
theorem creations_within_limit {start : System} (hstart : start.IsIdle)
    (h : Run (Stepping (System.step hashtextextended organizationId)) start es s) :
    (∀ (i : Nat) (t : Transaction) plan row, s.transactions[i]? = some t →
      t.stage = .commit plan row → s.db.count t.resource < t.resource.limit plan ∧
        ReadUnderLock hashtextextended organizationId start s i t plan) ∧
    (∀ resource, s.db.count resource ≤ s.bound resource (start.db.count resource)) ∧
    ∀ (i : Nat) (t : Transaction) failure, s.transactions[i]? = some t →
      t.stage = .ended (.error failure) → ∀ es₁ e es₂ s₁ s₂, es = es₁ ++ e :: es₂ →
        Run (Stepping (System.step hashtextextended organizationId)) start es₁ s₁ →
        s₁.step hashtextextended organizationId e = some s₂ →
        Run (Stepping (System.step hashtextextended organizationId)) s₂ es₂ s →
        e.transaction = some i → s₂.db = s₁.db := by
  have hsound := h.invariant (I := fun s => s.Sound hashtextextended organizationId ∧
      ∀ resource, s.db.count resource ≤ s.bound resource (start.db.count resource))
    (fun s e s' hi hstep => ⟨hi.1.step hstep, hi.1.bound_step hi.2 hstep⟩)
    ⟨hstart.sound, fun _ => by simp [System.bound, hstart.created]⟩
  refine ⟨fun i t plan row ht hs => ⟨?_, ?_⟩, hsound.2, ?_⟩
  · exact hsound.1.below i t ht plan (by rw [Transaction.checked, hs])
  · refine readUnderLock hstart.transactions h ht ?_
    rw [Transaction.planRead, hs, Transaction.checked, hs]
  · intro i t failure ht hs es₁ e es₂ s₁ s₂ _ _ hstep hrest he
    exact rejected_unchanged he hstep hrest ht hs

/-- The second of two concurrent creations of the FREE plan waits for the lock of the first. -/
def twoCreations : List Event :=
  [.request (.connection "okx" (some "main") false false) 0 0,
    .request (.connection "bybit" (some "spare") true false) 1 0, .run 0, .run 0, .run 0, .run 0,
    .run 0, .run 1, .run 1, .run 1]

theorem twoCreations_enabled :
    (exec (System.step (fun _ => 0) "organization") {} twoCreations).isSome := by
  decide +kernel

theorem creations_within_limit_two :
    let s := (exec (System.step (fun _ => 0) "organization") {} twoCreations).get
      twoCreations_enabled
    s.created.length = 1 ∧ ∀ resource, s.db.count resource ≤ s.bound resource 0 :=
  ⟨by decide +kernel, fun resource => by
    have h := (creations_within_limit ⟨rfl, rfl⟩ (.of_exec_get twoCreations_enabled)).2.1 resource
    cases resource <;> exact h⟩

end Tonatiuh.Quota
