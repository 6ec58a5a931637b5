import Tonatiuh.Sessions.Families

/-! A family that has been revoked after the reuse of a token is not used again.

The `UPDATE` that revokes a family finds the tokens that are committed when it begins. A rotation
that commits before this `UPDATE` is committed adds a token that it does not find. -/

namespace Tonatiuh.Sessions

open Tables Transition

variable {ttl : Nat} {s s' : System} {t u : Transaction} {stage : Stage} {i j : Nat} {id : TokenId}
  {ids held : List TokenId} {stored row : RefreshToken} {family : FamilyId} {e : Event}

def Scope.familyId : Scope → Option FamilyId
  | .family id => some id
  | _ => none

namespace Transaction

/-- The family that it revokes. -/
def revokes (t : Transaction) : Option FamilyId :=
  match t.stage with
  | .revoke scope _ | .lockRows scope _ _ | .commitRevocation scope _ => scope.familyId
  | _ => none

/-- The family that it revokes, with the rows that the `UPDATE` has found. -/
def found (t : Transaction) : Option (FamilyId × List TokenId) :=
  match t.stage with
  | .lockRows (.family id) held rest => some (id, held ++ rest)
  | .commitRevocation (.family id) held => some (id, held)
  | _ => none

theorem revokes_of_found (h : t.found = some (family, ids)) : t.revokes = some family := by
  unfold found at h
  split at h
  next hs => cases h; simp only [revokes, hs, Scope.familyId]
  next hs => cases h; simp only [revokes, hs, Scope.familyId]
  next => cases h

end Transaction

namespace System

/-- The condition: no rotation commits in a family while an `UPDATE` that has found the tokens of
the family is not committed. -/
def keepsFamilies (s : System) : Event → Bool
  | .run i => s.transactions[i]?.all fun t =>
    match t.stage with
    | .commitRotation _ stored =>
      s.transactions.all fun u => u.found.all fun found => found.1 ≠ stored.familyId
    | _ => true
  | _ => true

/-- The next step is the COMMIT of a rotation in the family. -/
def accepts (s : System) (family : FamilyId) : Event → Bool
  | .run i => s.transactions[i]?.any fun t =>
    match t.stage with
    | .commitRotation _ stored => stored.familyId = family
    | _ => false
  | _ => false

theorem accepts_iff : s.accepts family e ↔ ∃ i t id stored, e = .run i ∧
    s.transactions[i]? = some t ∧ t.stage = .commitRotation id stored ∧
    stored.familyId = family := by
  constructor
  · intro h
    cases e with
    | run i =>
      obtain ⟨t, ht, h⟩ := (Option.any_eq_true _ _).mp h
      split at h
      next id stored hs => exact ⟨i, t, id, stored, rfl, ht, hs, of_decide_eq_true h⟩
      next => cases h
    | _ => cases h
  · rintro ⟨i, t, id, stored, rfl, ht, hs, rfl⟩
    simp [accepts, ht, hs]

/-! ## Steps -/

/-- Where a token comes from: it was there, perhaps not revoked yet, or is the first of its family,
or the newest. -/
theorem step_tokens (h : s.step ttl e = some s') (hrow : s'.tokens[id]? = some row) :
    (∃ old, s.tokens[id]? = some old ∧ row.familyId = old.familyId ∧
        (old.revokedAt.isSome → row.revokedAt.isSome)) ∨
      id = s.tokens.length ∧ (row.familyId = s.tokens.length ∨ s.accepts row.familyId e) := by
  have hsame {tokens : List RefreshToken} (htokens : tokens[id]? = some row) :
      ∃ old, tokens[id]? = some old ∧ row.familyId = old.familyId ∧
        (old.revokedAt.isSome → row.revokedAt.isSome) := ⟨row, htokens, rfl, fun h => h⟩
  cases e with
  | signIn userId organizationId =>
    cases h
    rcases getElem?_concat_cases hrow with ⟨rfl, rfl⟩ | ⟨-, hrow⟩
    · exact .inr ⟨rfl, .inl rfl⟩
    · exact .inl (hsame hrow)
  | refresh tokenId =>
    cases h
    exact .inl (hsame hrow)
  | revoke scope =>
    simp only [step] at h
    split at h
    · cases h
    · cases h
      exact .inl (hsame hrow)
  | logout tokenId =>
    simp only [step] at h
    split at h
    · cases h
      left
      rcases getElem?_modify_cases hrow with ⟨rfl, old, hold, rfl⟩ | ⟨-, hrow⟩
      · exact ⟨old, hold, rfl, fun h => by rw [RefreshToken.revoke, Option.isSome_or, h]; rfl⟩
      · exact hsame hrow
    · cases h
  | run i =>
    obtain ⟨t, stage, ht, -, rfl⟩ := run_cases h
    cases hs : t.stage with
    | commitRotation tokenId stored =>
      simp only [commit, hs] at hrow
      rcases getElem?_concat_cases hrow with ⟨hlength, rfl⟩ | ⟨-, hrow⟩
      · rw [List.length_modify] at hlength
        exact .inr ⟨hlength, .inr (accepts_iff.mpr ⟨i, t, tokenId, stored, rfl, ht, hs, rfl⟩)⟩
      · left
        rcases getElem?_modify_cases hrow with ⟨rfl, old, hold, rfl⟩ | ⟨-, hrow⟩
        · exact ⟨old, hold, rfl, fun _ => rfl⟩
        · exact hsame hrow
    | commitRevocation scope held =>
      simp only [commit, hs] at hrow
      rw [List.getElem?_mapIdx] at hrow
      obtain ⟨old, hold, rfl⟩ := Option.map_eq_some_iff.mp hrow
      refine .inl ⟨old, hold, ?_, fun h => ?_⟩
      · split <;> rfl
      · split
        · rw [RefreshToken.revoke, Option.isSome_or, h]; rfl
        · exact h
    | _ =>
      simp only [commit, hs] at hrow
      exact .inl (hsame hrow)
  | abort i message =>
    obtain ⟨t, -, rfl⟩ := abort_cases h
    exact .inl (hsame hrow)
  | setMember | wait =>
    cases h
    exact .inl (hsame hrow)

/-- Where a transaction comes from: it was there, revokes no family, or has run a statement. -/
theorem step_transaction (h : s.step ttl e = some s') (hu : s'.transactions[j]? = some u) :
    s.transactions[j]? = some u ∨ u.revokes = none ∨
      ∃ t, e = .run j ∧ s.transactions[j]? = some t ∧ s.next j t = some u.stage := by
  cases e with
  | signIn | setMember | wait =>
    cases h
    exact .inl hu
  | refresh tokenId =>
    cases h
    rcases getElem?_concat_cases hu with ⟨-, rfl⟩ | ⟨-, hu⟩
    · exact .inr (.inl rfl)
    · exact .inl hu
  | revoke scope =>
    simp only [step] at h
    split at h
    next => cases h
    next hscope =>
      cases h
      rcases getElem?_concat_cases hu with ⟨-, rfl⟩ | ⟨-, hu⟩
      · cases scope with
        | family => exact absurd rfl hscope
        | _ => exact .inr (.inl rfl)
      · exact .inl hu
  | logout tokenId =>
    simp only [step] at h
    split at h
    · cases h
      exact .inl hu
    · cases h
  | run i =>
    obtain ⟨t, stage, ht, hnext, rfl⟩ := run_cases h
    rcases getElem?_set_cases hu with ⟨rfl, rfl⟩ | ⟨-, hu⟩
    · exact .inr (.inr ⟨t, rfl, ht, hnext⟩)
    · exact .inl hu
  | abort i message =>
    obtain ⟨t, -, rfl⟩ := abort_cases h
    rcases getElem?_set_cases hu with ⟨-, rfl⟩ | ⟨-, hu⟩
    · exact .inr (.inl rfl)
    · exact .inl hu

/-- A family is revoked for reuse when its revocation commits. -/
theorem step_reused (h : s.step ttl e = some s') (hfamily : family ∈ s'.reused) :
    family ∈ s.reused ∨ ∃ i t held, e = .run i ∧ s.transactions[i]? = some t ∧
      t.stage = .commitRevocation (.family family) held := by
  cases e with
  | run i =>
    obtain ⟨t, stage, ht, -, rfl⟩ := run_cases h
    cases hs : t.stage with
    | commitRevocation scope held =>
      simp only [commit, hs] at hfamily
      split at hfamily
      next id =>
        rcases List.mem_cons.mp hfamily with rfl | hold
        · exact .inr ⟨i, t, held, rfl, ht, hs⟩
        · exact .inl hold
      next => exact .inl hfamily
    | _ =>
      simp only [commit, hs] at hfamily
      exact .inl hfamily
  | abort i message =>
    obtain ⟨t, -, rfl⟩ := abort_cases h
    exact .inl hfamily
  | revoke | logout =>
    simp only [step] at h
    split at h
    all_goals
      cases h
      try exact .inl hfamily
  | signIn | refresh | setMember | wait =>
    cases h
    exact .inl hfamily

theorem step_length (h : s.step ttl e = some s') : s.tokens.length ≤ s'.tokens.length := by
  cases e with
  | run i =>
    obtain ⟨t, stage, -, -, rfl⟩ := run_cases h
    cases hs : t.stage with
    | commitRotation | commitRevocation => simp [commit, hs]
    | _ => simp only [commit, hs, Nat.le_refl]
  | abort i message =>
    obtain ⟨t, -, rfl⟩ := abort_cases h
    exact Nat.le_refl _
  | revoke | logout =>
    simp only [step] at h
    split at h
    all_goals
      cases h
      try simp [begin_]
  | signIn | refresh | setMember | wait =>
    cases h
    simp [begin_]

/-- What the next statement makes of the rows that a revocation has found. -/
theorem next_found (h : s.next i t = some stage)
    (hfound : ({ t with stage } : Transaction).found = some (family, ids)) :
    (∃ ids', t.found = some (family, ids') ∧ ∀ id ∈ ids', id ∈ ids) ∨
      (∃ held, t.stage = .revoke (.family family) held) ∧
        ∀ id ∈ s.covered (.family family), id ∈ ids := by
  cases next_cases h with
  | @found scope held hs =>
    cases scope with
    | family id =>
      cases hfound
      exact .inr ⟨⟨held, hs⟩, fun id hid => List.mem_append_right _ hid⟩
    | _ => cases hfound
  | @locked scope held rest id hs =>
    cases scope with
    | family =>
      cases hfound
      refine .inl ⟨_, by rw [Transaction.found, hs], fun k hk => ?_⟩
      simp only [List.mem_append, List.mem_cons] at hk ⊢
      tauto
    | _ => cases hfound
  | @updated scope held hs =>
    cases scope with
    | family =>
      cases hfound
      exact .inl ⟨_, by rw [Transaction.found, hs], by simp⟩
    | _ => cases hfound
  | _ => cases hfound

theorem next_revokes (h : s.next i t = some stage)
    (hrevokes : ({ t with stage } : Transaction).revokes = some family) :
    t.revokes = some family ∨ ∃ row ∈ s.tokens, row.familyId = family := by
  cases next_cases h with
  | reused _ hrow =>
    cases hrevokes
    exact .inr ⟨_, List.mem_of_getElem? hrow, rfl⟩
  | found hs | locked hs | updated hs =>
    left
    simpa only [Transaction.revokes, hs] using hrevokes
  | _ => cases hrevokes

/-! ## Invariant -/

/-- A revocation has found all tokens of its family, and after it all are revoked. -/
structure Final (s : System) : Prop where
  sound : s.Sound
  families : ∀ (j : Nat) (u : Transaction), s.transactions[j]? = some u → ∀ family,
    u.revokes = some family → family < s.tokens.length
  found : ∀ (j : Nat) (u : Transaction), s.transactions[j]? = some u → ∀ family ids,
    u.found = some (family, ids) → ∀ (id : TokenId) row, s.tokens[id]? = some row →
      row.familyId = family → id ∈ ids
  reused : ∀ family ∈ s.reused, family < s.tokens.length ∧
    ∀ row ∈ s.tokens, row.familyId = family → row.revokedAt.isSome

theorem IsFresh.final (h : s.IsFresh) : s.Final where
  sound := h.sound
  families j u hu := by simp [h.transactions] at hu
  found j u hu := by simp [h.transactions] at hu
  reused family hfamily := by simp [h.reused] at hfamily

/-- No token of a revoked family is being replaced. -/
theorem Final.not_accepts (hi : s.Final) (hfamily : family ∈ s.reused) : ¬s.accepts family e := by
  intro h
  obtain ⟨i, t, id, stored, -, ht, hs, rfl⟩ := accepts_iff.mp h
  obtain ⟨hrow, hlive⟩ := hi.sound.rotating i t ht id stored (by rw [Transaction.rotating, hs])
  have hrevoked := (hi.reused _ hfamily).2 stored (List.mem_of_getElem? hrow) rfl
  rw [hlive] at hrevoked
  cases hrevoked

theorem Final.step (hi : s.Final) (hkeeps : s.keepsFamilies e) (h : s.step ttl e = some s') :
    s'.Final where
  sound := hi.sound.step h
  families j u hu family hrevokes := by
    refine Nat.lt_of_lt_of_le ?_ (step_length h)
    rcases step_transaction h hu with hold | hnone | ⟨t, rfl, ht, hnext⟩
    · exact hi.families j u hold family hrevokes
    · rw [hnone] at hrevokes
      cases hrevokes
    · rcases next_revokes hnext hrevokes with hold | ⟨row, hrow, rfl⟩
      · exact hi.families j t ht family hold
      · exact hi.sound.tokens.families row hrow
  found j u hu family ids hfound id row hrow hfamily := by
    have hrevokes := Transaction.revokes_of_found hfound
    rcases step_transaction h hu with hold | hnone | ⟨t, rfl, ht, hnext⟩
    · rcases step_tokens h hrow with ⟨old, hold', hsame, -⟩ | ⟨-, hnew | hnew⟩
      · exact hi.found j u hold family ids hfound id old hold' (hsame ▸ hfamily)
      · have hlt := hi.families j u hold family hrevokes
        exact absurd (hfamily.symm.trans hnew) (Nat.ne_of_lt hlt)
      · -- the rotation of another transaction does not commit now
        obtain ⟨i, t, id', stored, rfl, ht, hs, hstored⟩ := accepts_iff.mp hnew
        simp only [keepsFamilies, ht, Option.all_some, hs, List.all_eq_true] at hkeeps
        have hne := hkeeps u (List.mem_of_getElem? hold)
        simp only [hfound, Option.all_some, decide_eq_true_eq] at hne
        exact absurd (hfamily.symm.trans hstored.symm) hne
    · rw [hnone] at hrevokes
      cases hrevokes
    · -- a revocation that has found its rows commits none now
      have hno : s'.tokens = s.tokens := by
        obtain ⟨t', stage, ht', hnext', rfl⟩ := run_cases h
        obtain rfl : t = t' := Option.some.inj (ht.symm.trans ht')
        rcases next_found hnext hfound with ⟨ids', hfound', -⟩ | ⟨⟨held, hs⟩, -⟩
        · cases hs : t.stage with
          | commitRevocation =>
            simp only [next, hs, Option.some.injEq] at hnext
            rw [Transaction.found, ← hnext] at hfound
            cases hfound
          | lockRows => simp only [commit, hs]
          | _ => simp [Transaction.found, hs] at hfound'
        · simp only [commit, hs]
      rw [hno] at hrow
      rcases next_found hnext hfound with ⟨ids', hfound', hsub⟩ | ⟨-, hcovered⟩
      · exact hsub id (hi.found j t ht family ids' hfound' id row hrow hfamily)
      · refine hcovered id (List.mem_filter.mpr ⟨?_, ?_⟩)
        · exact List.mem_range.mpr (List.getElem?_eq_some_iff.mp hrow).1
        · simp [hrow, Scope.covers, hfamily]
  reused family hfamily := by
    rcases step_reused h hfamily with hold | ⟨i, t, held, rfl, ht, hs⟩
    · obtain ⟨hlt, hrevoked⟩ := hi.reused family hold
      refine ⟨Nat.lt_of_lt_of_le hlt (step_length h), fun row hrow hrowfamily => ?_⟩
      obtain ⟨id, hid⟩ := List.mem_iff_getElem?.mp hrow
      rcases step_tokens h hid with ⟨old, hold', hsame, hmono⟩ | ⟨-, hnew | hnew⟩
      · exact hmono (hrevoked old (List.mem_of_getElem? hold') (hsame ▸ hrowfamily))
      · exact absurd (hrowfamily.symm.trans hnew) (Nat.ne_of_lt hlt)
      · exact absurd (hrowfamily ▸ hnew) (hi.not_accepts hold)
    · have hlt := hi.families i t ht family (by rw [Transaction.revokes, hs]; rfl)
      refine ⟨Nat.lt_of_lt_of_le hlt (step_length h), fun row hrow hrowfamily => ?_⟩
      obtain ⟨t', stage, ht', -, rfl⟩ := run_cases h
      obtain rfl : t = t' := Option.some.inj (ht.symm.trans ht')
      obtain ⟨id, hid⟩ := List.mem_iff_getElem?.mp hrow
      simp only [commit, hs] at hid
      rw [List.getElem?_mapIdx] at hid
      obtain ⟨old, hold, rfl⟩ := Option.map_eq_some_iff.mp hid
      have hfound : id ∈ held := by
        refine hi.found i t ht family held (by rw [Transaction.found, hs]) id old hold ?_
        split at hrowfamily
        · exact hrowfamily
        · exact hrowfamily
      rw [if_pos hfound, RefreshToken.revoke, Option.isSome_or, Option.isSome_some, Bool.or_true]

end System

/-- In a run whose steps all meet the condition, no token of a family is accepted any more after the
family has been revoked because a token was used again. -/
theorem reuse_final {start : System} (hstart : start.IsFresh)
    (h : Run (Meeting (Stepping (System.step ttl)) fun s e _ => s.keepsFamilies e) start es s) :
    Run (Meeting (Stepping (System.step ttl)) fun s e _ =>
      ∀ family ∈ s.reused, ¬s.accepts family e) start es s :=
  h.mono_invariant (I := System.Final) (fun _ _ _ hi ⟨hstep, hkeeps⟩ =>
    ⟨⟨hstep, fun _ hfamily => hi.not_accepts hfamily⟩, hi.step hkeeps hstep⟩) hstart.final

/-- The first token is used again after it and the second one have been replaced. -/
def reusedLater : List Event := List.flatten [
  [.setMember 0 0 true, .signIn 0 0, .refresh 0], List.replicate 5 (.run 0),
  [.refresh 1], List.replicate 5 (.run 1), [.refresh 0], List.replicate 7 (.run 2),
  [.refresh 2], List.replicate 7 (.run 3)]

theorem reusedLater_enabled :
    (execWhere (System.step 60) (fun s e => s.keepsFamilies e) {} reusedLater).isSome := by
  decide +kernel

theorem reuse_final_reusedLater :
    Run (Meeting (Stepping (System.step 60)) fun s e _ =>
      ∀ family ∈ s.reused, ¬s.accepts family e) {} reusedLater
      ((execWhere (System.step 60) (fun s e => s.keepsFamilies e) {} reusedLater).get
        reusedLater_enabled) :=
  reuse_final ⟨rfl, rfl, rfl⟩ (Run.of_execWhere_get reusedLater_enabled)

/-- The first token is used again while the second one is being replaced, and then the third. -/
def reusedMeanwhile : List Event := List.flatten [
  [.setMember 0 0 true, .signIn 0 0, .refresh 0], List.replicate 5 (.run 0),
  [.refresh 1], List.replicate 4 (.run 1), [.refresh 0], List.replicate 3 (.run 2), [.run 1],
  List.replicate 3 (.run 2), [.refresh 2], List.replicate 4 (.run 3)]

theorem reuse_not_final : ∃ s s', Run (Stepping (System.step 60)) {} reusedMeanwhile s ∧
    s.step 60 (.run 3) = some s' ∧ 0 ∈ s.reused ∧ s.accepts 0 (.run 3) :=
  Run.exists_step (by decide +kernel)

end Tonatiuh.Sessions
