import Tonatiuh.Sessions.Cleanup

/-! The foreign key of `replaced_by` never makes the `DELETE` fail, if no `UPDATE` revokes a token
whose rotation began after the transaction of the `UPDATE`.

A rotation revokes the old token at the time at which it inserts the new one. So the new one can be
removed first only if it is revoked with an earlier time. -/

namespace Tonatiuh.Sessions

open Billing (Timestamp)
open Tables Transition

variable {ttl : Nat} {s s' : System} {r r' : Retained} {t : Transaction} {stage : Stage} {i : Nat}
  {id : TokenId}
  {now : Timestamp} {row row' next : RefreshToken} {e : RetainedEvent}

/-! ## Which token can be removed first -/

namespace RefreshToken

variable {now' : Timestamp}

/-- Whenever the token can be removed, the other one can. -/
def Outlives (next row : RefreshToken) : Prop := ∀ now, next.isStale now → row.isStale now

theorem isStale_iff : row.isStale now ↔
    row.expiresAt + retentionInterval < now ∨
    ∃ since ∈ row.revokedAt, since + retentionInterval < now := by
  rw [isStale, Bool.or_eq_true, decide_eq_true_eq, Option.any_eq_true]
  simp only [decide_eq_true_eq, Option.mem_def]

theorem isStale_of_revoked (h : row.revokedAt.any (· ≤ now'))
    (hlt : now' + retentionInterval < now) :
    row.isStale now := by
  obtain ⟨since, hsince, hle⟩ := (Option.any_eq_true _ _).mp h
  have hle : since + retentionInterval ≤ now' + retentionInterval :=
    Int.add_le_add_right (of_decide_eq_true hle) _
  exact isStale_iff.mpr (.inr ⟨since, hsince, Int.lt_of_le_of_lt hle hlt⟩)

theorem revoke_eq (h : row.revokedAt.isSome) : row.revoke now = row := by
  obtain ⟨since, hsince⟩ := Option.isSome_iff_exists.mp h
  simp only [revoke, hsince, Option.some_or]
  rw [← hsince]

theorem isStale_of_revoke (h : row.revokedAt = none) (hstale : (row.revoke now').isStale now) :
    row.isStale now ∨ now' + retentionInterval < now := by
  rcases isStale_iff.mp hstale with hexpired | ⟨since, hsince, hlt⟩
  · exact .inl (isStale_iff.mpr (.inl hexpired))
  · rw [revoke, h] at hsince
    cases hsince
    exact .inr hlt

theorem isStale_revoke (h : row.isStale now) : (row.revoke now').isStale now := by
  rcases isStale_iff.mp h with hexpired | ⟨since, hsince, hlt⟩
  · exact isStale_iff.mpr (.inl hexpired)
  · rw [revoke_eq (Option.isSome_iff_exists.mpr ⟨since, hsince⟩)]
    exact h

/-- That it is replaced does not matter. -/
theorem isStale_replace (h : row.revokedAt = none) :
    (row.replace now' id).isStale now ↔ (row.revoke now').isStale now := by
  rw [isStale_iff, isStale_iff, revoke, replace, h]
  rfl

/-- The token is revoked in a transaction that began at `now`. -/
theorem Outlives.revoke (h : next.Outlives row)
    (ht : next.revokedAt.isSome ∨ row.revokedAt.any (· ≤ now)) :
    (next.revoke now).Outlives row := by
  cases hrevoked : next.revokedAt with
  | some since =>
    rw [revoke_eq (Option.isSome_iff_exists.mpr ⟨since, hrevoked⟩)]
    exact h
  | none =>
    intro now' hstale
    rcases isStale_of_revoke hrevoked hstale with hold | hlt
    · exact h now' hold
    · rcases ht with hsome | hle
      · rw [hrevoked] at hsome
        cases hsome
      · exact isStale_of_revoked hle hlt

end RefreshToken

/-! ## The order of revocations -/

/-- The tokens that the transaction is going to revoke, if they are not revoked yet. -/
def Transaction.targets (t : Transaction) : List TokenId :=
  match t.stage with
  | .select tokenId | .selectMembership tokenId _ | .insert tokenId _ | .replace tokenId _
  | .commitRotation tokenId _ => [tokenId]
  | .revoke _ held | .commitRevocation _ held => held
  | .lockRows _ held rest => held ++ rest
  | .ended _ => []

/-- The token is revoked, or the rotation that inserted it did not begin after `now`. -/
def System.isTimely (s : System) (now : Timestamp) (id : TokenId) : Bool :=
  s.tokens[id]?.any (·.revokedAt.isSome) ||
    s.tokens.all fun row => row.replacedBy = some id → row.revokedAt.any (· ≤ now)

/-- When the `UPDATE` of a transaction finds its rows, none has been inserted by a rotation that
began after the transaction, unless it is revoked. -/
def Retained.revokesInOrder (r : Retained) : RetainedEvent → Bool
  | .session (.run i) => r.system.transactions[i]?.all fun t =>
    match t.stage with
    | .revoke scope _ =>
      (r.system.covered scope).all fun id => id ∈ r.removed || r.system.isTimely t.now id
    | _ => true
  | _ => true

namespace System

theorem isTimely_iff : s.isTimely now id ↔
    (∃ row, s.tokens[id]? = some row ∧ row.revokedAt.isSome) ∨
    ∀ row ∈ s.tokens, row.replacedBy = some id → row.revokedAt.any (· ≤ now) := by
  simp only [isTimely, Bool.or_eq_true, Option.any_eq_true, List.all_eq_true, decide_eq_true_eq]

/-- What a statement makes of a row. -/
inductive Committed (s : System) (t : Transaction) (id : TokenId) (row : RefreshToken) :
    RefreshToken → Prop where
  | kept : Committed s t id row row
  | revoked (h : id ∈ t.targets) : Committed s t id row (row.revoke t.now)
  | replaced (h : id ∈ t.targets) (hlive : row.revokedAt = none) :
    Committed s t id row (row.replace t.now s.tokens.length)

theorem Sound.commit_row (hi : s.Sound) (ht : s.transactions[i]? = some t)
    (hrow : (s.commit ttl t).tokens[id]? = some row') :
    (∃ row, s.tokens[id]? = some row ∧ s.Committed t id row row') ∨
      id = s.tokens.length ∧ row'.revokedAt = none ∧ row'.replacedBy = none ∧
        row'.expiresAt = expiry ttl t.now ∧
        ∃ tokenId stored, t.stage = .commitRotation tokenId stored := by
  cases hs : t.stage with
  | commitRotation tokenId stored =>
    simp only [commit, hs] at hrow
    rcases getElem?_concat_cases hrow with ⟨hid, rfl⟩ | ⟨-, hrow⟩
    · rw [List.length_modify] at hid
      exact .inr ⟨hid, rfl, rfl, rfl, tokenId, stored, rfl⟩
    left
    rcases getElem?_modify_cases hrow with ⟨rfl, row, hold, rfl⟩ | ⟨-, hold⟩
    · obtain ⟨hstored, hlive⟩ := hi.rotating i t ht id stored (by rw [Transaction.rotating, hs])
      obtain rfl := Option.some.inj (hstored.symm.trans hold)
      refine ⟨stored, hold, .replaced ?_ hlive⟩
      simp only [Transaction.targets, hs, List.mem_singleton]
    · exact ⟨row', hold, .kept⟩
  | commitRevocation scope held =>
    simp only [commit, hs] at hrow
    rw [List.getElem?_mapIdx] at hrow
    obtain ⟨row, hold, rfl⟩ := Option.map_eq_some_iff.mp hrow
    refine .inl ⟨row, hold, ?_⟩
    split
    next hheld => exact .revoked (by simpa only [Transaction.targets, hs] using hheld)
    next => exact .kept
  | _ =>
    simp only [commit, hs] at hrow
    exact .inl ⟨row', hrow, .kept⟩

namespace Committed

variable (h : s.Committed t id row row')
include h

theorem revokedAt (hrevoked : row.revokedAt.isSome) : row'.revokedAt = row.revokedAt := by
  cases h with
  | kept => rfl
  | revoked => rw [RefreshToken.revoke_eq hrevoked]
  | replaced _ hlive =>
    rw [hlive] at hrevoked
    cases hrevoked

theorem replacedBy {nextId : TokenId} (hreplaced : row'.replacedBy = some nextId) :
    row.replacedBy = some nextId ∨
      nextId = s.tokens.length ∧ row'.revokedAt = some t.now := by
  cases h with
  | kept | revoked => exact .inl hreplaced
  | replaced =>
    cases hreplaced
    exact .inr ⟨rfl, rfl⟩

theorem isStale (hstale : row.isStale now) : row'.isStale now := by
  cases h with
  | kept => exact hstale
  | revoked => exact RefreshToken.isStale_revoke hstale
  | replaced _ hlive =>
    exact (RefreshToken.isStale_replace hlive).mpr (RefreshToken.isStale_revoke hstale)

/-- A row that a token outlives before the statement is one that it outlives after it. -/
theorem outlives {other : RefreshToken} (hold : row.Outlives other)
    (ht : id ∈ t.targets → row.revokedAt.isSome ∨ other.revokedAt.any (· ≤ t.now)) :
    row'.Outlives other := by
  cases h with
  | kept => exact hold
  | revoked hmem => exact hold.revoke (ht hmem)
  | replaced hmem hlive =>
    intro now hstale
    exact hold.revoke (ht hmem) now ((RefreshToken.isStale_replace hlive).mp hstale)

end Committed

/-- Rows are added, and changed as statements change them. -/
structure Grows (s s' : System) : Prop where
  length : s.tokens.length ≤ s'.tokens.length
  rows : ∀ (id : TokenId) row', s'.tokens[id]? = some row' →
    (∃ row, s.tokens[id]? = some row ∧ (row.revokedAt.isSome → row'.revokedAt = row.revokedAt) ∧
        ∀ nextId, row'.replacedBy = some nextId →
          row.replacedBy = some nextId ∨ nextId = s.tokens.length) ∨
      s.tokens.length ≤ id ∧ row'.replacedBy = none

theorem Grows.of_eq (h : s'.tokens = s.tokens) : s.Grows s' where
  length := h ▸ Nat.le_refl _
  rows _ row' hrow := .inl ⟨row', h ▸ hrow, fun _ => rfl, fun _ => .inl⟩

theorem Grows.concat (hreplaced : row.replacedBy = none) :
    s.Grows { s with tokens := s.tokens ++ [row] } where
  length := by simp
  rows id row' hrow := by
    rcases getElem?_concat_cases hrow with ⟨rfl, rfl⟩ | ⟨-, hold⟩
    · exact .inr ⟨Nat.le_refl _, hreplaced⟩
    · exact .inl ⟨row', hold, fun _ => rfl, fun _ => .inl⟩

theorem Grows.isTimely (h : s.Grows s') (hs : Linked s.tokens) (hid : id < s.tokens.length)
    (ht : s.isTimely now id) : s'.isTimely now id := by
  rw [isTimely_iff] at ht ⊢
  rcases ht with ⟨row, hrow, hrevoked⟩ | hall
  · left
    have hid' : id < s'.tokens.length := Nat.lt_of_lt_of_le hid h.length
    refine ⟨s'.tokens[id], List.getElem?_eq_getElem hid', ?_⟩
    rcases h.rows id _ (List.getElem?_eq_getElem hid') with ⟨old, hold, hsame, -⟩ | ⟨hle, -⟩
    · obtain rfl := Option.some.inj (hold.symm.trans hrow)
      rw [hsame hrevoked]
      exact hrevoked
    · exact absurd hid (Nat.not_lt_of_le hle)
  · right
    intro row' hmem hreplaced
    obtain ⟨j, hj⟩ := List.mem_iff_getElem?.mp hmem
    rcases h.rows j row' hj with ⟨row, hrow, hsame, hnext⟩ | ⟨-, hnone⟩
    · rcases hnext id hreplaced with hold | hnew
      · have hmem := List.mem_of_getElem? hrow
        rw [hsame (hs.revoked row hmem (hold ▸ rfl))]
        exact hall row hmem hold
      · exact absurd hid (hnew ▸ Nat.lt_irrefl _)
    · rw [hnone] at hreplaced
      cases hreplaced

theorem Sound.commit_grows (hi : s.Sound) (ht : s.transactions[i]? = some t) :
    s.Grows (s.commit ttl t) where
  length := by
    cases hs : t.stage with
    | commitRotation | commitRevocation => simp [commit, hs]
    | _ => simp only [commit, hs, Nat.le_refl]
  rows id row' hrow := by
    rcases hi.commit_row ht hrow with ⟨row, hold, hc⟩ | ⟨hid, -, hnone, -⟩
    · exact .inl ⟨row, hold, hc.revokedAt,
        fun nextId hnext => (hc.replacedBy hnext).imp_right (·.1)⟩
    · exact .inr ⟨Nat.le_of_eq hid.symm, hnone⟩

/-! ## Invariant -/

/-- No token can be removed before one that it has replaced, and no transaction is going to revoke
it so early. -/
structure InOrder (s : System) : Prop where
  past : ∀ row ∈ s.tokens, ∀ since ∈ row.revokedAt, since ≤ s.now
  begun : ∀ t ∈ s.transactions, t.now ≤ s.now
  timely : ∀ t ∈ s.transactions, ∀ id ∈ t.targets, id < s.tokens.length ∧ s.isTimely t.now id
  outlives : ∀ row ∈ s.tokens, ∀ nextId next, row.replacedBy = some nextId →
    s.tokens[nextId]? = some next →
    next.Outlives row

theorem IsFresh.inOrder (h : s.IsFresh) : s.InOrder where
  past := by simp [h.tokens]
  begun := by simp [h.transactions]
  timely := by simp [h.transactions]
  outlives := by simp [h.tokens]

/-- A token that is there can be revoked from now on. -/
theorem InOrder.isTimely (hi : s.InOrder) (hs : s.Sound) (id : TokenId) : s.isTimely s.now id := by
  refine isTimely_iff.mpr (.inr fun row hrow hreplaced => ?_)
  obtain ⟨since, hsince⟩ :=
    Option.isSome_iff_exists.mp (hs.tokens.revoked row hrow (hreplaced ▸ rfl))
  rw [hsince]
  exact decide_eq_true (hi.past row hrow since hsince)

theorem InOrder.advance (hi : s.InOrder) (hs : s.Sound) (hg : s.Grows s') (hnow : s.now ≤ s'.now)
    (hpast : ∀ row ∈ s'.tokens, ∀ since ∈ row.revokedAt, since ≤ s'.now)
    (htransactions : ∀ t ∈ s'.transactions, t ∈ s.transactions ∨
      t.now ≤ s'.now ∧ ∀ id ∈ t.targets, id < s.tokens.length ∧ s.isTimely t.now id)
    (houtlives : ∀ row ∈ s'.tokens, ∀ nextId next, row.replacedBy = some nextId →
      s'.tokens[nextId]? = some next → next.Outlives row) : s'.InOrder where
  past := hpast
  begun t ht := by
    rcases htransactions t ht with hold | ⟨hle, -⟩
    · exact Int.le_trans (hi.begun t hold) hnow
    · exact hle
  timely t ht id hid := by
    have htimely : id < s.tokens.length ∧ s.isTimely t.now id := by
      rcases htransactions t ht with hold | ⟨-, hnew⟩
      · exact hi.timely t hold id hid
      · exact hnew id hid
    exact ⟨Nat.lt_of_lt_of_le htimely.1 hg.length, hg.isTimely hs.tokens htimely.1 htimely.2⟩
  outlives := houtlives

/-- A step that leaves the rows as they are. -/
theorem InOrder.same_tokens (hi : s.InOrder) (hs : s.Sound) (htokens : s'.tokens = s.tokens)
    (hnow : s.now ≤ s'.now) (htransactions : ∀ t ∈ s'.transactions, t ∈ s.transactions ∨
      t.now ≤ s'.now ∧ ∀ id ∈ t.targets, id < s.tokens.length ∧ s.isTimely t.now id) :
      s'.InOrder := by
  refine hi.advance hs (.of_eq htokens) hnow ?_ htransactions ?_
  · rw [htokens]
    exact fun row hrow since hsince => Int.le_trans (hi.past row hrow since hsince) hnow
  · rw [htokens]
    exact hi.outlives

theorem InOrder.commit_past (hi : s.InOrder) (hs : s.Sound) (ht : s.transactions[i]? = some t) :
    ∀ row ∈ (s.commit ttl t).tokens, ∀ since ∈ row.revokedAt, since ≤ s.now := by
  intro row' hmem since hsince
  obtain ⟨j, hj⟩ := List.mem_iff_getElem?.mp hmem
  rcases hs.commit_row ht hj with ⟨row, hrow, hc⟩ | ⟨-, hlive, -⟩
  · have hold := hi.past row (List.mem_of_getElem? hrow)
    have hbegun := hi.begun t (List.mem_of_getElem? ht)
    cases hc with
    | kept => exact hold since hsince
    | revoked =>
      cases hrevoked : row.revokedAt with
      | some =>
        rw [RefreshToken.revoke_eq (hrevoked ▸ rfl)] at hsince
        exact hold since hsince
      | none =>
        rw [RefreshToken.revoke, hrevoked] at hsince
        cases hsince
        exact hbegun
    | replaced =>
      cases hsince
      exact hbegun
  · rw [hlive] at hsince
    cases hsince

theorem InOrder.commit_outlives (hi : s.InOrder) (hs : s.Sound) (ht : s.transactions[i]? = some t) :
    ∀ row ∈ (s.commit ttl t).tokens, ∀ nextId next, row.replacedBy = some nextId →
      (s.commit ttl t).tokens[nextId]? = some next → next.Outlives row := by
  intro row' hmem nextId next' hreplaced hnext'
  obtain ⟨j, hj⟩ := List.mem_iff_getElem?.mp hmem
  rcases hs.commit_row ht hj with ⟨row, hrow, hc⟩ | ⟨-, -, hnone, -⟩
  · have hmem := List.mem_of_getElem? hrow
    rcases hs.commit_row ht hnext' with ⟨next, hnext, hc'⟩ | ⟨hid, hlive, -, hexpires, -⟩
    -- both rows were there
    · rcases hc.replacedBy hreplaced with hold | ⟨heq, -⟩
      · have houtlives : next'.Outlives row := by
          refine hc'.outlives (hi.outlives row hmem nextId next hold hnext) fun htarget => ?_
          have htimely := (hi.timely t (List.mem_of_getElem? ht) nextId htarget).2
          rcases isTimely_iff.mp htimely with ⟨old, hold', hrevoked⟩ | hall
          · obtain rfl := Option.some.inj (hnext.symm.trans hold')
            exact .inl hrevoked
          · exact .inr (hall row hmem hold)
        exact fun now hstale => hc.isStale (houtlives now hstale)
      · have hlt := (List.getElem?_eq_some_iff.mp hnext).1
        exact absurd hlt (heq ▸ Nat.lt_irrefl _)
    -- the new row expires after the transaction has begun
    · rcases hc.replacedBy hreplaced with hold | ⟨-, hrevoked⟩
      · have hlt := (following_eq_some ((hs.tokens.links j row hrow).symm.trans hold)).2.1
        rw [List.length_map] at hlt
        exact absurd hlt (hid ▸ Nat.lt_irrefl _)
      · intro now hstale
        have hpast : row'.revokedAt.any (· ≤ t.now) := hrevoked ▸ decide_eq_true (Int.le_refl _)
        refine RefreshToken.isStale_of_revoked hpast ?_
        rcases RefreshToken.isStale_iff.mp hstale with hexpired | ⟨since, hsince, -⟩
        · rw [hexpires, expiry] at hexpired
          have hle : t.now ≤ t.now + (ttl * 1000000 : Nat) :=
            Int.le_add_of_nonneg_right (Int.natCast_nonneg _)
          exact Int.lt_of_le_of_lt (Int.add_le_add_right hle _) hexpired
        · rw [hlive] at hsince
          cases hsince
  · rw [hnone] at hreplaced
    cases hreplaced

theorem InOrder.signIn (hi : s.InOrder) (hs : s.Sound) (hlive : row.revokedAt = none)
    (hreplaced : row.replacedBy = none) :
    ({ s with tokens := s.tokens ++ [row] } : System).InOrder := by
  refine hi.advance hs (.concat hreplaced) (Int.le_refl _) ?_ (fun t ht => .inl ht) ?_
  · intro row' hmem since hsince
    rcases List.mem_append.mp hmem with hold | hnew
    · exact hi.past row' hold since hsince
    · rw [List.mem_singleton.mp hnew, hlive] at hsince
      cases hsince
  · intro row' hmem nextId next' hnext hnext'
    rcases List.mem_append.mp hmem with hold | hnew
    · rcases getElem?_concat_cases hnext' with ⟨rfl, rfl⟩ | ⟨-, hold'⟩
      · obtain ⟨j, hj⟩ := List.mem_iff_getElem?.mp hold
        have hlt := (following_eq_some ((hs.tokens.links j row' hj).symm.trans hnext)).2.1
        rw [List.length_map] at hlt
        exact absurd hlt (Nat.lt_irrefl _)
      · exact hi.outlives row' hold nextId next' hnext hold'
    · rw [List.mem_singleton.mp hnew, hreplaced] at hnext
      cases hnext

end System

namespace Retained

theorem run_cases (h : r.run ttl i = some r') :
    ∃ t stage, r.system.transactions[i]? = some t ∧ r.next i t = some stage ∧
      r' = { r with system := { r.system.commit ttl t with
        transactions := r.system.transactions.set i { t with stage } } } := by
  obtain ⟨t, ht, h⟩ := Option.bind_eq_some_iff.mp h
  obtain ⟨stage, hstage, h⟩ := Option.bind_eq_some_iff.mp h
  exact ⟨t, stage, ht, hstage, (Option.some.inj h).symm⟩

/-- Where the removed rows matter for the next statement, and where they do not. -/
theorem next_cases (h : r.next i t = some stage) :
    r.system.next i t = some stage ∧ (∀ scope held, t.stage ≠ .revoke scope held) ∨
      (∃ answer, stage = .ended answer) ∨
      (∃ scope held, t.stage = .revoke scope held ∧
        stage = .lockRows scope held ((r.system.covered scope).filter (· ∉ r.removed))) ∨
      ∃ scope held tokenId rest, t.stage = .lockRows scope held (tokenId :: rest) ∧
        stage = .lockRows scope held rest := by
  cases hs : t.stage with
  | select tokenId =>
    simp only [next, hs] at h
    split at h
    · cases h
      exact .inr (.inl ⟨_, rfl⟩)
    · exact .inl ⟨h, nofun⟩
  | revoke scope held =>
    simp only [next, hs, Option.some.injEq] at h
    exact .inr (.inr (.inl ⟨scope, held, rfl, h.symm⟩))
  | lockRows scope held rest =>
    cases rest with
    | nil => exact .inl ⟨by simpa only [next, hs] using h, nofun⟩
    | cons tokenId rest =>
      simp only [next, hs] at h
      split at h
      · cases h
        exact .inr (.inr (.inr ⟨scope, held, tokenId, rest, rfl, rfl⟩))
      · exact .inl ⟨h, nofun⟩
  | _ => exact .inl ⟨by simpa only [next, hs] using h, nofun⟩

theorem run_sound (hs : r.system.Sound) (h : r.run ttl i = some r') : r'.system.Sound := by
  obtain ⟨t, stage, ht, hnext, rfl⟩ := run_cases h
  rcases next_cases hnext with
    ⟨hnext, -⟩ | ⟨_, rfl⟩ | ⟨scope, held, hstage, rfl⟩ | ⟨scope, held, tokenId, rest, hstage, rfl⟩
  · exact hs.advance_next ht hnext
  · exact hs.advance ht (fun k hk => by cases hk) fun id stored hrotating => by cases hrotating
  · refine hs.advance ht (fun k hk => .inl ?_) fun id stored hrotating => by cases hrotating
    simpa only [Transaction.locks, hstage] using hk
  · refine hs.advance ht (fun k hk => .inl ?_) fun id stored hrotating => by cases hrotating
    simpa only [Transaction.locks, hstage] using hk

/-- A statement finds no more tokens to revoke, but for the `UPDATE`. -/
theorem next_targets (ht : r.system.transactions[i]? = some t) (hinOrder : r.system.InOrder)
    (hfound : r.revokesInOrder (.session (.run i))) (hnext : r.next i t = some stage) :
    ∀ id ∈ ({ t with stage } : Transaction).targets,
      id < r.system.tokens.length ∧ r.system.isTimely t.now id := by
  have htimely := hinOrder.timely t (List.mem_of_getElem? ht)
  rcases next_cases hnext with
    ⟨hnext, hno⟩ | ⟨_, rfl⟩ | ⟨scope, held, hstage, rfl⟩ | ⟨scope, held, tokenId, rest, hstage, rfl⟩
  · intro id hid
    refine htimely id ?_
    cases System.next_cases hnext with
    | found hs => exact absurd hs (hno _ _)
    | locked hs => simpa [Transaction.targets, hs, or_assoc, or_left_comm] using hid
    | ended => cases hid
    | updated hs => simpa [Transaction.targets, hs] using hid
    | reused hs | selected hs | allowed hs | inserted hs | replaced hs =>
      simpa only [Transaction.targets, hs] using hid
  · nofun
  · intro id hid
    rcases List.mem_append.mp hid with hheld | hfiltered
    · exact htimely id (by simpa only [Transaction.targets, hstage] using hheld)
    · obtain ⟨hcovered, hthere⟩ := List.mem_filter.mp hfiltered
      simp only [revokesInOrder, ht, Option.all_some, hstage, List.all_eq_true, Bool.or_eq_true,
        decide_eq_true_eq] at hfound
      refine ⟨?_, (hfound id hcovered).resolve_left (of_decide_eq_true hthere)⟩
      exact List.mem_range.mp (List.mem_of_mem_filter hcovered)
  · intro id hid
    refine htimely id ?_
    simp only [Transaction.targets, hstage, List.mem_append, List.mem_cons] at hid ⊢
    exact hid.imp_right .inr

theorem run_inOrder (hs : r.system.Sound) (hi : r.system.InOrder)
    (hfound : r.revokesInOrder (.session (.run i))) (h : r.run ttl i = some r') :
    r'.system.InOrder := by
  obtain ⟨t, stage, ht, hnext, rfl⟩ := run_cases h
  have hgrows : r.system.Grows (r.system.commit ttl t) := hs.commit_grows ht
  have hnow : (r.system.commit ttl t).now = r.system.now := by
    cases hst : t.stage with
    | _ => simp only [System.commit, hst]
  refine hi.advance hs ⟨hgrows.length, hgrows.rows⟩ (Int.le_of_eq hnow.symm) ?_ (fun u hu => ?_)
    (hi.commit_outlives hs ht)
  · dsimp only
    rw [hnow]
    exact hi.commit_past hs ht
  · rcases List.mem_or_eq_of_mem_set hu with hold | rfl
    · exact .inl hold
    · right
      refine ⟨?_, next_targets ht hi hfound hnext⟩
      dsimp only
      rw [hnow]
      exact hi.begun t (List.mem_of_getElem? ht)

/-! ## The foreign key -/

/-- The rows that are there refer to rows that are there. -/
structure Closed (r : Retained) : Prop where
  removed : ∀ id ∈ r.removed, id < r.system.tokens.length
  references : ∀ (id : TokenId) row nextId, r.system.tokens[id]? = some row →
    row.replacedBy = some nextId →
    nextId ∈ r.removed → id ∈ r.removed

theorem Closed.grows (hc : r.Closed) (hg : r.system.Grows s) : Closed { r with system := s } where
  removed id hid := Nat.lt_of_lt_of_le (hc.removed id hid) hg.length
  references id row' nextId hrow' hreplaced hremoved := by
    rcases hg.rows id row' hrow' with ⟨row, hrow, -, hnext⟩ | ⟨-, hnone⟩
    · rcases hnext nextId hreplaced with hold | hnew
      · exact hc.references id row nextId hrow hold hremoved
      · exact absurd (hc.removed nextId hremoved) (hnew ▸ Nat.lt_irrefl _)
    · rw [hnone] at hreplaced
      cases hreplaced

structure Sound (r : Retained) : Prop where
  system : r.system.Sound
  inOrder : r.system.InOrder
  closed : r.Closed

theorem deletes_iff : r.deletes now id ↔
    id ∉ r.removed ∧ ∃ row, r.system.tokens[id]? = some row ∧ row.isStale now := by
  simp only [deletes, Bool.and_eq_true, decide_eq_true_eq, Option.any_eq_true]

theorem mem_deleted : id ∈ r.deleted now ↔ r.deletes now id := by
  rw [deleted, List.mem_filter, List.mem_range]
  refine and_iff_right_of_imp fun h => ?_
  obtain ⟨-, row, hrow, -⟩ := deletes_iff.mp h
  exact (List.getElem?_eq_some_iff.mp hrow).1

theorem Sound.intact (hi : r.Sound) (now : Timestamp) : r.Intact now := by
  intro id row nextId hid hrow hreplaced hdeletes
  obtain ⟨-, next, hnext, hstale⟩ := deletes_iff.mp hdeletes
  have houtlives := hi.inOrder.outlives row (List.mem_of_getElem? hrow) nextId next hreplaced hnext
  exact deletes_iff.mpr ⟨hid, row, hrow, houtlives now hstale⟩

/-- The foreign key lets the `DELETE` pass if it removes no token to which one that it keeps
refers. -/
theorem Intact.cleanup (h : r.Intact now) :
    r.cleanup now = .ok { r with removed := r.deleted now ++ r.removed } := by
  refine if_neg fun hany => ?_
  obtain ⟨nextId, hnextId, hreferenced⟩ := List.any_eq_true.mp hany
  obtain ⟨id, -, hid⟩ := List.any_eq_true.mp hreferenced
  simp only [Bool.and_eq_true, decide_eq_true_eq, Bool.not_eq_true', Option.any_eq_true] at hid
  obtain ⟨⟨hthere, hkept⟩, row, hrow, hreplaced⟩ := hid
  have hdeletes := h id row nextId hthere hrow hreplaced (mem_deleted.mp hnextId)
  rw [hkept] at hdeletes
  cases hdeletes

theorem cleanup_eq_error (h : (r.deleted now).any (r.isReferenced now ·)) :
    r.cleanup now = .error foreignKeyViolation := if_pos h

theorem Sound.cleanup (hi : r.Sound) (now : Timestamp) :
    Sound { r with removed := r.deleted now ++ r.removed } where
  system := hi.system
  inOrder := hi.inOrder
  closed := {
    removed id hid := by
      rcases List.mem_append.mp hid with hdeleted | hremoved
      · exact List.mem_range.mp (List.mem_of_mem_filter hdeleted)
      · exact hi.closed.removed id hremoved
    references id row nextId hrow hreplaced hnextId := by
      by_cases hid : id ∈ r.removed
      · exact List.mem_append_right _ hid
      rcases List.mem_append.mp hnextId with hdeleted | hremoved
      · have hdeletes := hi.intact now id row nextId hid hrow hreplaced (mem_deleted.mp hdeleted)
        exact List.mem_append_left _ (mem_deleted.mpr hdeletes)
      · exact absurd (hi.closed.references id row nextId hrow hreplaced hremoved) hid }

/-- A transaction begins that is going to revoke tokens that are there. -/
theorem Sound.begin_ (hi : r.Sound) (hlocks : (⟨r.system.now, stage⟩ : Transaction).locks = [])
    (hrotating : (⟨r.system.now, stage⟩ : Transaction).rotating = none)
    (htargets : ∀ id ∈ (⟨r.system.now, stage⟩ : Transaction).targets, id < r.system.tokens.length) :
    Sound { r with system := r.system.begin_ stage } where
  system := hi.system.begin_ hlocks hrotating
  inOrder := by
    refine hi.inOrder.same_tokens hi.system rfl (Int.le_refl _) fun t ht => ?_
    rcases List.mem_append.mp ht with hold | hnew
    · exact .inl hold
    · obtain rfl := List.mem_singleton.mp hnew
      exact .inr ⟨Int.le_refl _, fun id hid => ⟨htargets id hid, hi.inOrder.isTimely hi.system id⟩⟩
  closed := hi.closed.grows (.of_eq rfl)

theorem Sound.run (hi : r.Sound) (hfound : r.revokesInOrder (.session (.run i)))
    (h : r.run ttl i = some r') :
    r'.Sound where
  system := run_sound hi.system h
  inOrder := run_inOrder hi.system hi.inOrder hfound h
  closed := by
    obtain ⟨t, stage, ht, -, rfl⟩ := run_cases h
    have hgrows : r.system.Grows (r.system.commit ttl t) := hi.system.commit_grows ht
    exact hi.closed.grows ⟨hgrows.length, hgrows.rows⟩

theorem Sound.step (hi : r.Sound) (hfound : r.revokesInOrder e) (h : r.step ttl e = some r') :
    r'.Sound := by
  cases e with
  | cleanup now =>
    simp only [Retained.step] at h
    split at h
    · rw [(hi.intact now).cleanup] at h
      cases h
      exact hi.cleanup now
    · cases h
  | logout tokenId =>
    obtain ⟨stored, hstored, h⟩ := Option.bind_eq_some_iff.mp h
    cases h
    refine hi.begin_ rfl rfl fun id hid => ?_
    have hid : id = tokenId := by
      dsimp only [Transaction.targets] at hid
      split at hid
      · cases hid
      · exact List.mem_singleton.mp hid
    exact hid ▸ (List.getElem?_eq_some_iff.mp hstored).1
  | session e =>
    cases e with
    | run i => exact hi.run hfound h
    | refresh tokenId =>
      simp only [Retained.step] at h
      split at h
      next hlt =>
        cases h
        exact hi.begin_ rfl rfl fun id hid => List.mem_singleton.mp hid ▸ hlt
      next => cases h
    | logout => cases h
    | signIn userId organizationId =>
      cases h
      exact {
        system :=
          hi.system.step (show r.system.step ttl (.signIn userId organizationId) = some _ from rfl)
        inOrder := hi.inOrder.signIn hi.system rfl rfl
        closed := hi.closed.grows (.concat rfl) }
    | revoke scope =>
      simp only [Retained.step, System.step] at h
      split at h
      · cases h
      · cases h
        exact hi.begin_ rfl rfl fun id hid => by cases hid
    | abort i message =>
      obtain ⟨system, hstep, rfl⟩ := Option.map_eq_some_iff.mp h
      have hsystem := hi.system.step hstep
      obtain ⟨t, ht, rfl⟩ := System.abort_cases hstep
      refine ⟨hsystem, hi.inOrder.same_tokens hi.system rfl (Int.le_refl _) fun u hu => ?_,
        hi.closed.grows (.of_eq rfl)⟩
      rcases List.mem_or_eq_of_mem_set hu with hold | rfl
      · exact .inl hold
      · exact .inr ⟨hi.inOrder.begun t (List.mem_of_getElem? ht), fun id hid => by cases hid⟩
    | setMember userId organizationId isMember =>
      cases h
      exact {
        system :=
          hi.system.step (show r.system.step ttl (.setMember userId organizationId isMember) =
            some _ from rfl)
        inOrder := hi.inOrder.same_tokens hi.system rfl (Int.le_refl _) fun t ht => .inl ht
        closed := hi.closed.grows (.of_eq rfl) }
    | wait microseconds =>
      cases h
      exact {
        system := hi.system.step (show r.system.step ttl (.wait microseconds) = some _ from rfl)
        inOrder :=
          hi.inOrder.same_tokens hi.system rfl (Int.le_add_of_nonneg_right (Int.natCast_nonneg _))
          fun t ht => .inl ht
        closed := hi.closed.grows (.of_eq rfl) }

end Retained

/-- In every state of a run in which no `UPDATE` finds a token that a rotation has inserted which
began after the transaction of the `UPDATE`, the `DELETE` passes whenever it is executed, and keeps
no token that refers to one which it removes. -/
theorem cleanup_intact {start r : Retained} {es : List RetainedEvent}
    (hstart : start.system.IsFresh) (hremoved : start.removed = [])
    (h : Run (Meeting (Stepping (Retained.step ttl)) fun r e _ => r.revokesInOrder e) start es r)
    (now : Timestamp) :
    r.Intact now ∧ r.cleanup now = .ok { r with removed := r.deleted now ++ r.removed } := by
  have hi : r.Sound := by
    refine h.invariant (fun _ _ _ hi ⟨hstep, hfound⟩ => hi.step hfound hstep) ⟨hstart.sound,
      hstart.inOrder, ?_⟩
    exact ⟨by simp [hremoved], by simp [hremoved]⟩
  exact ⟨hi.intact now, (hi.intact now).cleanup⟩

/-- A token is replaced, and a second passes. -/
def rotatedOnce : List RetainedEvent := List.flatten [
  [.session (.setMember 0 0 true), .session (.signIn 0 0), .session (.refresh 0)],
  List.replicate 5 (.session (.run 0)),
  [.session (.wait 1000000)]]

/-- The first token is used again, and then everybody waits until it can be removed. -/
def reusedInOrder : List RetainedEvent := List.flatten [
  rotatedOnce,
  [.session (.refresh 1)], List.replicate 5 (.session (.run 1)),
  [.session (.wait 1), .session (.refresh 0)], List.replicate 7 (.session (.run 2)),
  [.session (.wait 2592000000000), .cleanup 2592001000000, .logout 2]]

theorem reusedInOrder_enabled :
    (execWhere (Retained.step 2592000) (fun r e => r.revokesInOrder e)
      {} reusedInOrder).isSome := by
  decide +kernel

theorem cleanup_intact_reusedInOrder :
    ((execWhere (Retained.step 2592000) (fun r e => r.revokesInOrder e) {} reusedInOrder).get
      reusedInOrder_enabled).Intact 2592001000001 :=
  (cleanup_intact ⟨rfl, rfl, rfl⟩ rfl (Run.of_execWhere_get reusedInOrder_enabled) 2592001000001).1

/-- The first token is used again, in a transaction that begins before the second one is replaced
and finds its rows after this. -/
def reusedBefore : List RetainedEvent := List.flatten [
  rotatedOnce,
  [.session (.refresh 0), .session (.wait 1), .session (.refresh 1)],
  List.replicate 5 (.session (.run 2)),
  List.replicate 7 (.session (.run 1)), [.session (.wait 2592000000000)]]

theorem cleanup_violates : ∃ r, Run (Stepping (Retained.step 2592000)) {} reusedBefore r ∧
    r.system.now = 2592001000001 ∧ r.cleanup r.system.now = .error Retained.foreignKeyViolation ∧
      ¬r.Intact r.system.now := by
  have hany : (exec (Retained.step 2592000) {} reusedBefore).any fun r =>
      r.system.now = 2592001000001 ∧
        (r.deleted r.system.now).any (r.isReferenced r.system.now ·) := by
    decide +kernel
  obtain ⟨r, hr, hr'⟩ := (Option.any_eq_true _ _).mp hany
  obtain ⟨hnow, hreferenced⟩ := of_decide_eq_true hr'
  have hcleanup := Retained.cleanup_eq_error hreferenced
  refine ⟨r, Run.of_exec hr, hnow, hcleanup, fun hintact => ?_⟩
  rw [hintact.cleanup] at hcleanup
  cases hcleanup

end Tonatiuh.Sessions
