import Tonatiuh.Members.Invitations
import Tonatiuh.Transition.Run

/-! Members and active invitations, and the limit of the plan.

The quota is enforced for a new invitation under an advisory lock, which makes it the only
transaction that adds to the number. An invitation that seems to be active already is written
without the lock, and an acceptance takes none. These two keep the number only where the invitation
is active when they commit. -/

namespace Tonatiuh.Members

open Billing (Timestamp Plan)
open Commands (Failure)
open Quota (planCatalog)
open Retention (Role UserId)
open Tables Transition

variable {plan : Plan} {s s' : System} {t u : Transaction} {stage : Stage} {i : Nat}
  {row : Invitation} {now : Timestamp}

/-- The number of members and of active invitations at this moment. -/
def System.total (s : System) : Nat := s.count s.now

/-- The condition: an invitation that was written without a check of the quota is active when it is
committed, and so is one that is accepted by somebody who becomes a member. -/
def System.keepsActive (s : System) : Event → Bool
  | .run i => s.transactions[i]?.all fun t =>
    match t.stage with
    | .commitInvite invite false =>
      s.invitations.any fun row => row.email = invite.email && row.isActive s.now
    | .commitAcceptance invitation member => member.isNone || s.now < invitation.expiresAt
    | _ => true
  | _ => true

/-! ## Statements -/

namespace Transaction

/-- Has it enforced the quota, for the invitation that it writes? -/
def isChecked (t : Transaction) : Bool :=
  match t.stage with
  | .upsert _ isChecked | .commitInvite _ isChecked => isChecked
  | _ => false

/-- The invitation that it has locked to accept it. -/
def invitation (t : Transaction) : Option Invitation :=
  match t.stage with
  | .insertMember _ invitation | .updateInvitation invitation _ | .commitAcceptance invitation _ =>
    some invitation
  | _ => none

theorem lockedMembers_of_isChecked (h : t.isChecked) : t.lockedMembers = some () := by
  cases hs : t.stage with
  | upsert _ checked | commitInvite _ checked =>
    simp only [isChecked, hs] at h
    subst h
    simp only [lockedMembers, hs]
  | _ => simp [isChecked, hs] at h

theorem lockedEmail_of_invitation (h : t.invitation = some row) :
    t.lockedEmail = some row.email := by
  cases hs : t.stage with
  | insertMember | updateInvitation | commitAcceptance =>
    simp only [invitation, hs, Option.some.injEq] at h
    simp only [lockedEmail, hs, h]
  | _ => simp [invitation, hs] at h

end Transaction

/-- What the next statement of a transaction can find, and the stage after it. -/
inductive System.Next (plan : Plan) (s : System) (i : Nat) (t : Transaction) : Stage → Prop where
  | existing {invite : Invite} (hs : t.stage = .selectMember invite) :
    Next plan s i t (.selectExisting invite)
  | unchecked {invite : Invite} (hs : t.stage = .selectExisting invite) :
    Next plan s i t (.upsert invite false)
  | new {invite : Invite} (hs : t.stage = .selectExisting invite) : Next plan s i t (.lock invite)
  | locked {invite : Invite} (hs : t.stage = .lock invite)
    (hfree : isFree Transaction.lockedMembers s.transactions i ()) :
    Next plan s i t (.selectPlan invite)
  | planned {invite : Invite} (hs : t.stage = .selectPlan invite) : Next plan s i t (.count invite)
  | counted {invite : Invite} (hs : t.stage = .count invite)
    (hcount : s.count t.now < (planCatalog plan).maxMembers) :
    Next plan s i t (.upsert invite true)
  | written {invite : Invite} {isChecked : Bool} (hs : t.stage = .upsert invite isChecked)
    (hfree : isFree Transaction.lockedEmail s.transactions i invite.email) :
    Next plan s i t (.commitInvite invite isChecked)
  | selected {acceptance : Acceptance} {isActive : Bool} (hs : t.stage = .selectUser acceptance) :
    Next plan s i t (.selectInvitation acceptance isActive)
  | found {acceptance : Acceptance} {isActive : Bool} {invitation : Invitation}
    (hs : t.stage = .selectInvitation acceptance isActive)
    (hfind : s.find acceptance.tokenHash t.now = some invitation)
    (hfree : isFree Transaction.lockedEmail s.transactions i invitation.email) :
    Next plan s i t (.insertMember acceptance invitation)
  | inserted {acceptance : Acceptance} {invitation : Invitation} (member : Option Member)
    (hs : t.stage = .insertMember acceptance invitation) :
    Next plan s i t (.updateInvitation invitation member)
  | updated {invitation : Invitation} {member : Option Member}
    (hs : t.stage = .updateInvitation invitation member) :
    Next plan s i t (.commitAcceptance invitation member)
  | ended (answer : Except Failure Unit) : Next plan s i t (.ended answer)

namespace System

theorem next_cases (h : s.next plan i t = some stage) : s.Next plan i t stage := by
  cases hs : t.stage with
  | selectMember invite =>
    simp only [next, hs, Option.some.injEq] at h
    subst h
    split
    · exact .ended _
    · exact .existing hs
  | selectExisting invite =>
    simp only [next, hs, Option.some.injEq] at h
    subst h
    split
    · exact .unchecked hs
    · exact .new hs
  | lock invite =>
    simp only [next, hs] at h
    split at h
    next hfree =>
      cases h
      exact .locked hs hfree
    next => cases h
  | selectPlan invite =>
    simp only [next, hs, Option.some.injEq] at h
    subst h
    exact .planned hs
  | count invite =>
    simp only [next, hs, Option.some.injEq] at h
    subst h
    split
    next => exact .ended _
    next hlimit => exact .counted hs (Nat.not_le.mp hlimit)
  | upsert invite isChecked =>
    simp only [next, hs] at h
    split at h
    next hfree =>
      cases h
      exact .written hs hfree
    next => cases h
  | selectUser acceptance =>
    simp only [next, hs, Option.some.injEq] at h
    subst h
    exact .selected hs
  | selectInvitation acceptance isActive =>
    simp only [next, hs] at h
    split at h
    next => cases h; exact .ended _
    next invitation hfind =>
      split at h
      next hfree =>
        cases h
        split
        · exact .found hs hfind hfree
        · exact .ended _
      next => cases h
  | insertMember acceptance invitation =>
    simp only [next, hs] at h
    split at h
    · cases h
      exact .inserted _ hs
    · cases h
  | updateInvitation invitation member =>
    simp only [next, hs, Option.some.injEq] at h
    subst h
    exact .updated hs
  | commitInvite | commitAcceptance =>
    simp only [next, hs, Option.some.injEq] at h
    subst h
    exact .ended _
  | ended answer =>
    simp only [next, hs] at h
    cases h

theorem run_cases (h : s.run plan i = some s') :
    ∃ t stage, s.transactions[i]? = some t ∧ s.next plan i t = some stage ∧
      s' = { s.commit t with transactions := s.transactions.set i { t with stage } } := by
  obtain ⟨t, ht, h⟩ := Option.bind_eq_some_iff.mp h
  obtain ⟨stage, hstage, h⟩ := Option.bind_eq_some_iff.mp h
  exact ⟨t, stage, ht, hstage, (Option.some.inj h).symm⟩

theorem abort_cases {message : String} (h : s.abort i message = some s') :
    ∃ t, s.transactions[i]? = some t ∧ s' = { s with
      transactions := s.transactions.set i
        { t with stage := .ended (.error (.internal message)) } } := by
  obtain ⟨t, ht, h⟩ := Option.bind_eq_some_iff.mp h
  refine ⟨t, ht, ?_⟩
  split at h
  · cases h
  · exact (Option.some.inj h).symm

theorem next_lockedEmail (h : s.next plan i t = some stage) {email : String}
    (hk : ({ t with stage } : Transaction).lockedEmail = some email) :
    t.lockedEmail = some email ∨ isFree Transaction.lockedEmail s.transactions i email := by
  cases next_cases h with
  | written _ hfree | found _ _ hfree => exact .inr (Option.some.inj hk ▸ hfree)
  | inserted _ hs | updated hs =>
    left
    simpa only [Transaction.lockedEmail, hs] using hk
  | _ => cases hk

theorem next_lockedMembers (h : s.next plan i t = some stage)
    (hk : ({ t with stage } : Transaction).lockedMembers = some ()) :
    t.lockedMembers = some () ∨ isFree Transaction.lockedMembers s.transactions i () := by
  cases next_cases h with
  | locked _ hfree => exact .inr hfree
  | planned hs | counted hs =>
    left
    simp only [Transaction.lockedMembers, hs]
  | @written _ isChecked hs =>
    left
    cases isChecked with
    | false => cases hk
    | true => simp only [Transaction.lockedMembers, hs]
  | _ => cases hk

theorem next_isChecked (h : s.next plan i t = some stage)
    (hchecked : ({ t with stage } : Transaction).isChecked) :
    t.isChecked ∨ s.count t.now < (planCatalog plan).maxMembers := by
  cases next_cases h with
  | counted _ hcount => exact .inr hcount
  | written hs =>
    left
    simpa only [Transaction.isChecked, hs] using hchecked
  | _ => cases hchecked

theorem next_invitation (h : s.next plan i t = some stage)
    (hrow : ({ t with stage } : Transaction).invitation = some row) :
    t.invitation = some row ∨ ∃ tokenHash, s.find tokenHash t.now = some row := by
  cases next_cases h with
  | found _ hfind => exact .inr ⟨_, Option.some.inj hrow ▸ hfind⟩
  | inserted _ hs | updated hs =>
    left
    simpa only [Transaction.invitation, hs] using hrow
  | _ => cases hrow

/-! ## Numbers -/

theorem count_mono (h : now ≤ s.now) : s.total ≤ s.count now := by
  refine Nat.add_le_add_left (List.countP_mono_left fun row _ hrow => ?_) _
  simp only [Invitation.isActive, Bool.and_eq_true, decide_eq_true_eq] at hrow ⊢
  exact ⟨hrow.1, Int.lt_of_le_of_lt h hrow.2⟩

theorem mem_of_find {tokenHash : Nat} (h : s.find tokenHash now = some row) :
    row ∈ s.invitations ∧ row.acceptedAt = none ∧ row.revokedAt = none := by
  have hp := List.find?_some h
  simp only [Invitation.isActive, Bool.and_eq_true, Option.isNone_iff_eq_none] at hp
  exact ⟨List.mem_of_find?_eq_some h, hp.2.1.1, hp.2.1.2⟩

/-! ## Invariant -/

/-- What holds of the transactions: locks are exclusive, an invitation that is being accepted is
still there, and a transaction that has enforced the quota finds room. -/
structure Sound (plan : Plan) (s : System) : Prop where
  rowLocks : HeldOnce Transaction.lockedEmail s.transactions
  quotaLock : HeldOnce Transaction.lockedMembers s.transactions
  emails : (s.invitations.map Invitation.email).Nodup
  began : ∀ (i : Nat) (t : Transaction), s.transactions[i]? = some t → t.now ≤ s.now
  below : ∀ (i : Nat) (t : Transaction), s.transactions[i]? = some t → t.isChecked →
    s.total < (planCatalog plan).maxMembers
  found : ∀ (i : Nat) (t : Transaction), s.transactions[i]? = some t → ∀ row,
    t.invitation = some row → row ∈ s.invitations ∧ row.acceptedAt = none ∧ row.revokedAt = none

/-! ## Commits -/

@[simp] theorem commit_now : (s.commit t).now = s.now := by
  unfold commit
  split <;> rfl

/-- A statement that is no COMMIT changes no row. -/
theorem commit_eq (h : t.lockedEmail = none) : s.commit t = s := by
  cases hs : t.stage with
  | commitInvite | commitAcceptance => simp [Transaction.lockedEmail, hs] at h
  | _ => simp only [commit, hs]

/-- The invitations that a transaction has not locked are kept. -/
theorem mem_commit (h : row ∈ s.invitations) (hne : t.lockedEmail ≠ some row.email) :
    row ∈ (s.commit t).invitations := by
  cases hs : t.stage with
  | commitInvite invite isChecked =>
    simp only [Transaction.lockedEmail, hs, ne_eq, Option.some.injEq] at hne
    simp only [commit, hs]
    exact mem_upsert_of_ne (fun heq => hne heq.symm) h
  | commitAcceptance invitation member =>
    simp only [Transaction.lockedEmail, hs, ne_eq, Option.some.injEq] at hne
    simp only [commit, hs, List.mem_map]
    exact ⟨row, h, if_neg fun heq => hne heq.symm⟩
  | _ => simpa only [commit, hs] using h

theorem map_email {f : Invitation → Invitation} (hf : ∀ row, (f row).email = row.email) :
    (s.invitations.map f).map Invitation.email = s.invitations.map Invitation.email := by
  rw [List.map_map]
  exact List.map_congr_left fun row _ => hf row

theorem emails_commit (h : (s.invitations.map Invitation.email).Nodup) :
    ((s.commit t).invitations.map Invitation.email).Nodup := by
  cases hs : t.stage with
  | commitInvite invite isChecked =>
    simp only [commit, hs]
    exact nodup_upsert h
  | commitAcceptance invitation member =>
    simp only [commit, hs]
    rw [map_email fun row => by split <;> rfl]
    exact h
  | _ => simpa only [commit, hs] using h

/-- Only an invitation for which the quota has been enforced adds to the number. -/
theorem Sound.total_commit (hi : s.Sound plan) (hkeeps : s.keepsActive (.run i))
    (ht : s.transactions[i]? = some t) :
    (s.commit t).total ≤ s.total ∨ t.isChecked ∧ (s.commit t).total ≤ s.total + 1 := by
  simp only [keepsActive, ht, Option.all_some] at hkeeps
  cases hs : t.stage with
  | commitInvite invite checked =>
    simp only [total, count, commit, hs]
    cases checked with
    | true => exact .inr ⟨by simp only [Transaction.isChecked, hs],
        Nat.add_le_add_left countP_upsert_le _⟩
    | false =>
      simp only [hs, List.any_eq_true, Bool.and_eq_true, decide_eq_true_eq] at hkeeps
      obtain ⟨row, hrow, hemail, hactive⟩ := hkeeps
      exact .inl (Nat.add_le_add_left (countP_upsert_le_of_mem hi.emails hrow hemail hactive) _)
  | commitAcceptance invitation member =>
    obtain ⟨hmem, haccepted, hrevoked⟩ := hi.found i t ht invitation
      (by simp only [Transaction.invitation, hs])
    have hactive {row : Invitation} (h : Invitation.isActive s.now (
        if row.email = invitation.email then { row with acceptedAt := some t.now } else row)) :
        row.isActive s.now := by
      split at h
      · simp [Invitation.isActive] at h
      · exact h
    simp only [total, count, commit, hs, List.length_append]
    simp only [hs, Bool.or_eq_true, Option.isNone_iff_eq_none, decide_eq_true_eq] at hkeeps
    rcases hkeeps with rfl | hlive
    · have hle := @countP_map_le _ s.invitations (Invitation.isActive s.now) _
        fun row _ h => hactive h
      exact .inl (Nat.add_le_add_left hle _)
    · have hlt := countP_map_lt (p := Invitation.isActive s.now) (fun row _ h => hactive h) hmem
        (by simp [Invitation.isActive, haccepted, hrevoked, hlive]) (by simp [Invitation.isActive])
      have hmember : member.toList.length ≤ 1 := by cases member <;> simp
      left
      omega
  | _ => exact .inl (by simp only [commit, hs, Nat.le_refl])

/-! ## Steps -/

/-- The transaction `t` has run a statement and comes to `stage`. -/
theorem Sound.run (hi : s.Sound plan) (hkeeps : s.keepsActive (.run i))
    (h : s.run plan i = some s') : s'.Sound plan := by
  obtain ⟨t, stage, ht, hnext, rfl⟩ := run_cases h
  exact {
    rowLocks := hi.rowLocks.set ht fun _ hk => next_lockedEmail hnext hk
    quotaLock := hi.quotaLock.set ht fun _ hk => next_lockedMembers hnext hk
    emails := emails_commit hi.emails
    began j u hj := by
      change u.now ≤ (s.commit t).now
      rw [commit_now]
      rcases getElem?_set_cases hj with ⟨-, rfl⟩ | ⟨-, hj⟩
      · exact hi.began i t ht
      · exact hi.began j u hj
    below j u hj hchecked := by
      change (s.commit t).total < _
      rcases getElem?_set_cases hj with ⟨-, rfl⟩ | ⟨hne, hj⟩
      · -- a transaction that is going to write has not committed in this step
        have hno : s.commit t = s := by
          cases next_cases hnext with
          | counted hs | written hs => simp only [commit, hs]
          | _ => cases hchecked
        rw [hno]
        rcases next_isChecked hnext hchecked with hold | hcount
        · exact hi.below i t ht hold
        · exact Nat.lt_of_le_of_lt (count_mono (hi.began i t ht)) hcount
      · rcases hi.total_commit hkeeps ht with hle | ⟨hother, -⟩
        · exact Nat.lt_of_le_of_lt hle (hi.below j u hj hchecked)
        · refine absurd (hi.quotaLock j i u t () hj ht ?_ ?_) hne
          · exact Transaction.lockedMembers_of_isChecked hchecked
          · exact Transaction.lockedMembers_of_isChecked hother
    found j u hj row hrow := by
      rcases getElem?_set_cases hj with ⟨-, rfl⟩ | ⟨hne, hj⟩
      · have hno : s.commit t = s := by
          cases next_cases hnext with
          | found hs | inserted _ hs | updated hs => simp only [commit, hs]
          | _ => cases hrow
        rw [hno]
        rcases next_invitation hnext hrow with hold | ⟨tokenHash, hfind⟩
        · exact hi.found i t ht row hold
        · exact mem_of_find hfind
      · obtain ⟨hmem, hlive⟩ := hi.found j u hj row hrow
        refine ⟨mem_commit hmem fun hlocked => ?_, hlive⟩
        have hu := Transaction.lockedEmail_of_invitation hrow
        exact hne (hi.rowLocks j i u t _ hj ht hu hlocked) }

/-- Rows change that no transaction has locked. -/
theorem Sound.of_rows (hi : s.Sound plan) (htransactions : s'.transactions = s.transactions)
    (hnow : s.now ≤ s'.now) (htotal : s'.total ≤ s.total)
    (hemails : (s'.invitations.map Invitation.email).Nodup)
    (hkept : ∀ row ∈ s.invitations, (∃ t ∈ s.transactions, t.lockedEmail = some row.email) →
      row ∈ s'.invitations) : s'.Sound plan where
  rowLocks := htransactions ▸ hi.rowLocks
  quotaLock := htransactions ▸ hi.quotaLock
  emails := hemails
  began j u hj := Int.le_trans (hi.began j u (htransactions ▸ hj)) hnow
  below j u hj hchecked :=
    Nat.lt_of_le_of_lt htotal (hi.below j u (htransactions ▸ hj) hchecked)
  found j u hj row hrow := by
    rw [htransactions] at hj
    obtain ⟨hmem, hlive⟩ := hi.found j u hj row hrow
    have hlocked := Transaction.lockedEmail_of_invitation hrow
    exact ⟨hkept row hmem ⟨u, List.mem_of_getElem? hj, hlocked⟩, hlive⟩

/-- A transaction begins or ends that holds nothing. -/
theorem Sound.of_idle (hi : s.Sound plan) {transactions : List Transaction}
    (hrow : HeldOnce Transaction.lockedEmail transactions)
    (hquota : HeldOnce Transaction.lockedMembers transactions)
    (hkept : ∀ (j : Nat) (u : Transaction), transactions[j]? = some u →
      (∃ j' : Nat, s.transactions[j']? = some u) ∨
        u.now ≤ s.now ∧ u.isChecked = false ∧ u.invitation = none) :
    System.Sound plan { s with transactions := transactions } where
  rowLocks := hrow
  quotaLock := hquota
  emails := hi.emails
  began j u hj := by
    rcases hkept j u hj with ⟨j', hj'⟩ | ⟨hnow, -⟩
    · exact hi.began j' u hj'
    · exact hnow
  below j u hj hchecked := by
    rcases hkept j u hj with ⟨j', hj'⟩ | ⟨-, hno, -⟩
    · exact hi.below j' u hj' hchecked
    · rw [hno] at hchecked
      cases hchecked
  found j u hj row hrow := by
    rcases hkept j u hj with ⟨j', hj'⟩ | ⟨-, -, hno⟩
    · exact hi.found j' u hj' row hrow
    · rw [hno] at hrow
      cases hrow

theorem Sound.begin_ (hi : s.Sound plan) (hrow : (⟨s.now, stage⟩ : Transaction).lockedEmail = none)
    (hquota : (⟨s.now, stage⟩ : Transaction).lockedMembers = none)
    (hno : (⟨s.now, stage⟩ : Transaction).isChecked = false ∧
      (⟨s.now, stage⟩ : Transaction).invitation = none) : (s.begin_ stage).Sound plan := by
  refine hi.of_idle (hi.rowLocks.concat hrow) (hi.quotaLock.concat hquota) fun j u hj => ?_
  rcases getElem?_concat_cases hj with ⟨-, rfl⟩ | ⟨-, hj⟩
  · exact .inr ⟨Int.le_refl _, hno⟩
  · exact .inl ⟨j, hj⟩

/-- A step that is no statement of a transaction does not add to the number. -/
theorem step_total {e : Event} (h : s.step plan e = some s') (he : ∀ i, e ≠ .run i) :
    s'.total ≤ s.total := by
  cases e with
  | run i => exact absurd rfl (he i)
  | invite | accept | setActive =>
    cases h
    exact Nat.le_refl _
  | abort i message =>
    obtain ⟨t, -, rfl⟩ := abort_cases h
    exact Nat.le_refl _
  | revoke email =>
    simp only [step] at h
    split at h
    · cases h
      refine Nat.add_le_add_left (countP_map_le fun row _ hrow => ?_) _
      split at hrow
      · simp [Invitation.isActive] at hrow
      · exact hrow
    · cases h
  | removeMember | deleteAccount =>
    cases h
    exact Nat.add_le_add_right (List.length_filter_le ..) _
  | wait microseconds =>
    cases h
    exact count_mono (Int.le_add_of_nonneg_right (Int.natCast_nonneg _))

theorem Sound.step {e : Event} (hi : s.Sound plan) (hkeeps : s.keepsActive e)
    (h : s.step plan e = some s') : s'.Sound plan := by
  cases e with
  | run i => exact hi.run hkeeps h
  | invite actor invite =>
    cases h
    split
    · exact hi.begin_ rfl rfl ⟨rfl, rfl⟩
    · exact hi.begin_ rfl rfl ⟨rfl, rfl⟩
  | accept acceptance =>
    cases h
    exact hi.begin_ rfl rfl ⟨rfl, rfl⟩
  | abort i message =>
    obtain ⟨t, ht, rfl⟩ := abort_cases h
    refine hi.of_idle (hi.rowLocks.set ht fun _ hk => by cases hk)
      (hi.quotaLock.set ht fun _ hk => by cases hk) fun j u hj => ?_
    rcases getElem?_set_cases hj with ⟨-, rfl⟩ | ⟨-, hj⟩
    · exact .inr ⟨hi.began i t ht, rfl, rfl⟩
    · exact .inl ⟨j, hj⟩
  | revoke email =>
    have htotal := step_total h (by simp)
    simp only [System.step] at h
    split at h
    next hfree =>
      cases h
      refine hi.of_rows rfl (Int.le_refl _) htotal ?_ fun row hrow hlocked => ?_
      · rw [map_email fun row => by split <;> rfl]
        exact hi.emails
      · obtain ⟨t, ht, hemail⟩ := hlocked
        refine List.mem_map.mpr ⟨row, hrow, if_neg fun heq => ?_⟩
        simp only [List.all_eq_true, decide_eq_true_eq] at hfree
        exact hfree t ht (heq.1 ▸ hemail)
    next => cases h
  | removeMember | deleteAccount | setActive =>
    have htotal := step_total h (by simp)
    cases h
    exact hi.of_rows rfl (Int.le_refl _) htotal hi.emails fun _ hrow _ => hrow
  | wait microseconds =>
    have htotal := step_total h (by simp)
    cases h
    exact hi.of_rows rfl (Int.le_add_of_nonneg_right (Int.natCast_nonneg _)) htotal hi.emails
      fun _ hrow _ => hrow

/-- Nothing is under way, and each address has at most one invitation. -/
structure IsIdle (s : System) : Prop where
  transactions : s.transactions = []
  emails : (s.invitations.map Invitation.email).Nodup

theorem IsIdle.sound (h : s.IsIdle) : s.Sound plan where
  rowLocks := h.transactions ▸ .nil
  quotaLock := h.transactions ▸ .nil
  emails := h.emails
  began i t ht := by simp [h.transactions] at ht
  below i t ht := by simp [h.transactions] at ht
  found i t ht := by simp [h.transactions] at ht

/-- The number does not rise above the limit. -/
theorem Sound.total_le {e : Event} (hi : s.Sound plan) (hkeeps : s.keepsActive e)
    (h : s.step plan e = some s') : s'.total ≤ max s.total (planCatalog plan).maxMembers := by
  by_cases hrun : ∃ i, e = .run i
  · obtain ⟨i, rfl⟩ := hrun
    obtain ⟨t, stage, ht, -, rfl⟩ := run_cases h
    rcases hi.total_commit hkeeps ht with hle | ⟨hchecked, hle⟩
    · exact Nat.le_trans hle (Nat.le_max_left ..)
    · have hbelow := hi.below i t ht hchecked
      exact Nat.le_trans (Nat.le_trans hle hbelow) (Nat.le_max_right ..)
  · exact Nat.le_trans (step_total h fun i he => hrun ⟨i, he⟩) (Nat.le_max_left ..)

end System

/-- In a run whose steps all meet the condition, no step raises the number of members and active
invitations above the limit of the plan. -/
theorem members_within_limit {start : System} (hstart : start.IsIdle)
    (h : Run (Meeting (Stepping (System.step plan)) fun s e _ => s.keepsActive e) start es s) :
    Run (Meeting (Stepping (System.step plan)) fun s _ s' =>
      s'.total ≤ max s.total (planCatalog plan).maxMembers) start es s :=
  h.mono_invariant (I := System.Sound plan) (fun _ _ _ hi ⟨hstep, hkeeps⟩ =>
    ⟨⟨hstep, hi.total_le hkeeps hstep⟩, hi.step hkeeps hstep⟩) hstart.sound

/-- A PRO organization with nine members and an invitation that expires at ten. -/
def nineMembers : System where
  emailOf userId := if userId = 9 then "ann@example.org" else "member@example.org"
  isActive _ := true
  members := (List.range 9).map fun userId => ⟨userId, if userId = 0 then .owner else .viewer⟩
  invitations := [⟨"ann@example.org", .viewer, 1, 10, none, none⟩]

theorem nineMembers_isIdle : nineMembers.IsIdle := ⟨rfl, by decide +kernel⟩

/-- Ann is invited again and then accepts. -/
def reinvitedFirst : List Event :=
  [.invite .owner ⟨.trader, "ann@example.org", 2⟩, .run 0, .run 0, .run 0, .run 0,
    .accept ⟨9, 2⟩, .run 1, .run 1, .run 1, .run 1, .run 1]

theorem reinvitedFirst_enabled :
    (execWhere (System.step .pro) (fun s e =>
      s.keepsActive e) nineMembers reinvitedFirst).isSome := by
  decide +kernel

theorem members_within_limit_reinvitedFirst :
    Run (Meeting (Stepping (System.step .pro)) fun s _ s' =>
      s'.total ≤ max s.total (planCatalog .pro).maxMembers) nineMembers reinvitedFirst
      ((execWhere (System.step .pro) (fun s e => s.keepsActive e) nineMembers reinvitedFirst).get
        reinvitedFirst_enabled) :=
  members_within_limit nineMembers_isIdle (Run.of_execWhere_get reinvitedFirst_enabled)

/-- The next step of a run raises the number above the limit. -/
def Exceeds (plan : Plan) (start : System) (es : List Event) (e : Event) : Prop :=
  ∃ s s', Run (Stepping (System.step plan)) start es s ∧ s.step plan e = some s' ∧
    max s.total (planCatalog plan).maxMembers < s'.total

/-- Ann accepts while she is invited again. -/
def acceptedMeanwhile : List Event :=
  [.invite .owner ⟨.trader, "ann@example.org", 2⟩, .run 0, .run 0,
    .accept ⟨9, 1⟩, .run 1, .run 1, .run 1, .run 1, .run 1, .run 0]

/-- The invitation expires while Ann accepts it, and Bob is invited. -/
def expiredMeanwhile : List Event :=
  [.accept ⟨9, 1⟩, .run 0, .run 0, .run 0, .run 0, .wait 10,
    .invite .owner ⟨.trader, "bob@example.org", 2⟩, .run 1, .run 1, .run 1, .run 1, .run 1, .run 1,
    .run 1]

theorem members_exceed_limit :
    Exceeds .pro nineMembers acceptedMeanwhile (.run 0) ∧
      Exceeds .pro nineMembers expiredMeanwhile (.run 0) :=
  ⟨Run.exists_step (by decide +kernel), Run.exists_step (by decide +kernel)⟩

end Tonatiuh.Members
