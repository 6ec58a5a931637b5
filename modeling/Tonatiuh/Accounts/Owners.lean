import Tonatiuh.Accounts.Administrators

/-! The owner of an organization.

Only `POST /register` makes an owner, and only `anonymizeOne` removes one. It closes the
organizations that nobody else is a member of. `DELETE /me` refuses the owner of an organization
that has another member, but an invitation can be accepted in the thirty days after it. -/

namespace Tonatiuh.Accounts

open Retention (UserId OrganizationId Role Membership Platform)
open Transition

variable {s s' : System} {t w : Request} {i j : Nat} {userId : UserId} {m : Membership}
  {owned : List OrganizationId} {e : Event}

namespace System

/-- The memberships of the owners. -/
def ownerships (s : System) : List Membership := s.memberships.filter fun m => m.role = .owner

/-- Each active organization has exactly one owner. -/
def HasOwners (s : System) : Prop :=
  ∀ id : OrganizationId, s.organizations[id]? = some .active →
    s.ownerships.countP (fun m => m.organizationId = id) = 1

/-- The condition: `anonymizeOne` is executed while nobody else is a member of an organization of
the user. -/
def keepsOwners (s : System) : Event → Bool
  | .run i => s.requests[i]?.all fun t =>
    match t.stage with
    | .selectOwned userId => !s.platform.isBlocked userId
    | _ => true
  | _ => true

theorem mem_ownerships : m ∈ s.ownerships ↔ m ∈ s.memberships ∧ m.role = .owner := by
  rw [ownerships, List.mem_filter, decide_eq_true_eq]

/-! ## Memberships -/

theorem filter_changeRole {organizationId : OrganizationId} {role : Role} (hrole : role ≠ .owner)
    (memberships : List Membership) :
    (memberships.map fun m =>
      if m.organizationId = organizationId ∧ m.userId = userId ∧
      m.role ≠ .owner then { m with role }
      else m).filter (fun m => m.role = .owner) = memberships.filter fun m => m.role = .owner := by
  induction memberships with
  | nil => rfl
  | cons m rest ih =>
    rw [List.map_cons, List.filter_cons, List.filter_cons, ih]
    by_cases hm : m.organizationId = organizationId ∧ m.userId = userId ∧ m.role ≠ .owner
    · rw [if_pos hm, if_neg (by simpa using hrole), if_neg (by simpa using hm.2.2)]
    · rw [if_neg hm]

/-- What the memberships of owners and the organizations are after a step. -/
theorem step_ownerships (h : s.step e = some s')
    (hroles : ∀ (t : Request) (m : Membership), t ∈ s.requests → t.stage = .insertMembership m →
      m.role ≠ .owner) :
    (s'.ownerships = s.ownerships ∧ s'.organizations = s.organizations) ∨
      (e = .register ∧
        s'.ownerships = s.ownerships ++ [⟨s.organizations.length, s.users.length, .owner⟩] ∧
        s'.organizations = s.organizations ++ [.active]) ∨
      ∃ i t userId owned, e = .run i ∧ s.requests[i]? = some t ∧ t.stage = .anonymize userId owned ∧
        s'.ownerships = s.ownerships.filter (fun m => m.userId ≠ userId) ∧
        s'.organizations =
          s.organizations.mapIdx fun id status => if id ∈ owned then .closed else status := by
  cases e with
  | register =>
    cases h
    refine .inr (.inl ⟨rfl, ?_, rfl⟩)
    simp [ownerships, register, List.filter_append]
  | run i =>
    obtain ⟨t, stage, ht, -, rfl⟩ := run_cases h
    cases hs : t.stage with
    | anonymize userId owned =>
      refine .inr (.inr ⟨i, t, userId, owned, rfl, ht, hs, ?_, ?_⟩)
      · simp only [ownerships, commit, Request.updateMemberships, hs]
        exact List.filter_comm _ _ _
      · simp only [commit, Request.updateOrganizations, hs]
    | insertMembership m =>
      refine .inl ⟨?_, by simp only [commit, Request.updateOrganizations, hs]⟩
      have hrole := hroles t m (List.mem_of_getElem? ht) hs
      simp only [ownerships, commit, Request.updateMemberships, hs]
      split
      · rfl
      · simp [List.filter_append, hrole]
    | _ =>
      left
      simp only [ownerships, commit, Request.updateMemberships, Request.updateOrganizations, hs,
        and_self]
  | abort i message =>
    obtain ⟨t, -, rfl⟩ := abort_cases h
    exact .inl ⟨rfl, rfl⟩
  | changeRole =>
    simp only [step] at h
    split at h
    next hrole =>
      cases h
      exact .inl ⟨filter_changeRole hrole _, rfl⟩
    next => cases h
  | removeMember =>
    cases h
    refine .inl ⟨?_, rfl⟩
    rw [ownerships, ownerships, List.filter_filter]
    refine List.filter_congr fun m _ => ?_
    by_cases hm : m.role = .owner <;> simp [hm]
  | request =>
    simp only [step] at h
    split at h
    · cases h
      exact .inl ⟨rfl, rfl⟩
    · cases h
  | wait =>
    cases h
    exact .inl ⟨rfl, rfl⟩

end System

/-! ## Invariant -/

/-- The membership that `POST /invitations/accept` inserts. -/
def Request.invited (t : Request) : Option Membership :=
  match t.stage with
  | .selectInvitee m | .insertMembership m => some m
  | _ => none

namespace System

/-- The owners that are there are owners of organizations that are there, and no other one is made.
The organizations of an account that is being deleted have been found. -/
structure Owned (s : System) : Prop where
  sound : s.Sound
  owners : s.HasOwners
  known : ∀ m ∈ s.ownerships, m.organizationId < s.organizations.length
  invited : ∀ (i : Nat) (t : Request), s.requests[i]? = some t → ∀ m, t.invited = some m →
    m.role ≠ .owner
  closing : ∀ (i : Nat) (t : Request), s.requests[i]? = some t → ∀ userId owned,
    t.stage = .anonymize userId owned → ∀ m ∈ s.ownerships, m.userId = userId →
      m.organizationId ∈ owned

/-- A user whose organizations have no other member owns those that are closed with the account. -/
theorem mem_owned (h : ¬s.platform.isBlocked userId) (hm : m ∈ s.ownerships)
    (huser : m.userId = userId) :
    m.organizationId ∈ s.platform.owned userId := by
  obtain ⟨hmem, hrole⟩ := mem_ownerships.mp hm
  refine List.mem_map.mpr ⟨m, List.mem_filter.mpr ⟨hmem, ?_⟩, rfl⟩
  simp only [Platform.isBlocked, List.any_eq_true, not_exists, not_and] at h
  have hnone := h m hmem
  simp only [huser, hrole, Bool.and_eq_true, decide_eq_true_eq, true_and] at hnone ⊢
  simpa [platform] using hnone

namespace Owned

theorem start {start : System} (hstart : start.IsFresh) (howners : start.HasOwners)
    (hknown : ∀ m ∈ start.ownerships, m.organizationId < start.organizations.length) :
    start.Owned where
  sound := hstart.sound
  owners := howners
  known := hknown
  invited i t ht := by simp [hstart.requests] at ht
  closing i t ht := by simp [hstart.requests] at ht

theorem ownerships_cases (hi : s.Owned) (h : s.step e = some s') :
    (s'.ownerships = s.ownerships ∧ s'.organizations = s.organizations) ∨
      (e = .register ∧
        s'.ownerships = s.ownerships ++ [⟨s.organizations.length, s.users.length, .owner⟩] ∧
        s'.organizations = s.organizations ++ [.active]) ∨
      ∃ i t userId owned, e = .run i ∧ s.requests[i]? = some t ∧ t.stage = .anonymize userId owned ∧
        s'.ownerships = s.ownerships.filter (fun m => m.userId ≠ userId) ∧
        s'.organizations =
          s.organizations.mapIdx fun id status => if id ∈ owned then .closed else status := by
  refine step_ownerships h fun t m ht hs => ?_
  obtain ⟨i, hi'⟩ := List.mem_iff_getElem?.mp ht
  exact hi.invited i t hi' m (by rw [Request.invited, hs])

theorem step_owners (hi : s.Owned) (h : s.step e = some s') : s'.HasOwners := by
  rcases hi.ownerships_cases h with ⟨hrows, horgs⟩ | ⟨rfl, hrows, horgs⟩ |
    ⟨i, t, userId, owned, rfl, ht, hs, hrows, horgs⟩
  · rw [HasOwners, hrows, horgs]
    exact hi.owners
  · intro id hactive
    rw [horgs] at hactive
    rw [hrows, List.countP_append, List.countP_singleton]
    rcases getElem?_concat_cases hactive with ⟨rfl, -⟩ | ⟨hlt, hold⟩
    · -- there is no owner of an organization that is new
      have hnone : s.ownerships.countP (fun m => m.organizationId =
          s.organizations.length) = 0 := by
        refine List.countP_eq_zero.mpr fun m hm => ?_
        simpa using Nat.ne_of_lt (hi.known m hm)
      rw [hnone]
      simp
    · rw [hi.owners id hold, if_neg (by simpa using Nat.ne_of_gt hlt)]
  · intro id hactive
    rw [horgs, List.getElem?_mapIdx] at hactive
    obtain ⟨status, hstatus, hopen⟩ := Option.map_eq_some_iff.mp hactive
    have hnot : id ∉ owned := by
      intro hmem
      rw [if_pos hmem] at hopen
      cases hopen
    rw [if_neg hnot] at hopen
    rw [hrows, List.countP_filter, ← hi.owners id (hopen ▸ hstatus)]
    refine List.countP_congr fun m hm => ?_
    simp only [Bool.and_eq_true, decide_eq_true_eq, and_iff_left_iff_imp]
    rintro rfl huser
    exact hnot (hi.closing i t ht userId owned hs m hm huser)

theorem step_closing (hi : s.Owned) (h : s.step e = some s') (hkeeps : s.keepsOwners e)
    (hw : s'.requests[j]? = some w) (hs : w.stage = .anonymize userId owned)
    (hm : m ∈ s'.ownerships) (huser : m.userId = userId) : m.organizationId ∈ owned := by
  rcases step_request h hw with ⟨hold, -⟩ | hfirst | ⟨t, stage, rfl, ht, rfl, hnext, hsame⟩
  · have hclosing := hi.closing j w hold userId owned hs
    rcases hi.ownerships_cases h with ⟨hrows, -⟩ | ⟨-, hrows, -⟩ | ⟨_, _, _, _, -, -, -, hrows, -⟩
    · exact hclosing m (hrows ▸ hm) huser
    · rw [hrows] at hm
      rcases List.mem_append.mp hm with hold' | hnew
      · exact hclosing m hold' huser
      · -- the new user is not the one that is deleted
        have hdue := hi.sound.due j w hold userId (by rw [Request.due, hs])
        have hlt := Sound.exists_of_status hdue
        rw [List.mem_singleton.mp hnew] at huser
        exact absurd huser (Nat.ne_of_gt hlt)
    · rw [hrows] at hm
      exact hclosing m (List.mem_of_mem_filter hm) huser
  · rcases hfirst with hfirst | ⟨answer, hended⟩
    · simp [hs, Stage.isFirst] at hfirst
    · rw [hs] at hended
      cases hended
  · rw [hsame] at hm
    cases next_cases hnext with
    | ownedSelected hs' =>
      cases hs
      have hblocked := (Option.all_eq_true _ _).mp hkeeps t ht
      simp only [hs', Bool.not_eq_true'] at hblocked
      exact mem_owned (by rw [hblocked]; exact Bool.false_ne_true) hm huser
    | _ => cases hs

theorem step (hi : s.Owned) (h : s.step e = some s') (hkeeps : s.keepsOwners e) : s'.Owned where
  sound := hi.sound.step h
  owners := hi.step_owners h
  known m hm := by
    rcases hi.ownerships_cases h with ⟨hrows, horgs⟩ | ⟨-, hrows, horgs⟩ |
      ⟨_, _, _, _, -, -, -, hrows, horgs⟩
    · rw [horgs]
      exact hi.known m (hrows ▸ hm)
    · rw [hrows] at hm
      rw [horgs, List.length_append, List.length_singleton]
      rcases List.mem_append.mp hm with hold | hnew
      · exact Nat.lt_succ_of_lt (hi.known m hold)
      · rw [List.mem_singleton.mp hnew]
        exact Nat.lt_succ_self _
    · rw [hrows] at hm
      rw [horgs, List.length_mapIdx]
      exact hi.known m (List.mem_of_mem_filter hm)
  invited j w hw m hm := by
    rcases step_request h hw with ⟨hold, -⟩ | hfirst | ⟨t, stage, -, ht, rfl, hnext, -⟩
    · exact hi.invited j w hold m hm
    · cases hs : w.stage with
      | selectInvitee membership =>
        cases (by simpa only [Request.invited, hs] using hm : some membership = some m)
        simpa [hs, Stage.isFirst] using hfirst
      | insertMembership => simp [hs, Stage.isFirst] at hfirst
      | _ => simp [Request.invited, hs] at hm
    · cases next_cases hnext with
      | inviteeSelected hs =>
        cases hm
        exact hi.invited j t ht _ (by rw [Request.invited, hs])
      | _ => cases hm
  closing j w hw userId owned hs m hm huser := hi.step_closing h hkeeps hw hs hm huser

end Owned

end System

/-- In a run whose steps all meet the condition, each active organization has exactly one owner
after each step. -/
theorem owners_remain {start : System} (hstart : start.IsFresh) (howners : start.HasOwners)
    (hknown : ∀ m ∈ start.ownerships, m.organizationId < start.organizations.length)
    (h : Run (Meeting (Stepping System.step) fun s e _ => s.keepsOwners e) start es s) :
    Run (Meeting (Stepping System.step) fun _ _ s' => s'.HasOwners) start es s :=
  h.mono_invariant (I := System.Owned) (fun _ _ _ hi ⟨hstep, hkeeps⟩ =>
    have hi' := hi.step hstep hkeeps
    ⟨⟨hstep, hi'.owners⟩, hi'⟩) (.start hstart howners hknown)

/-- An owner requests the deletion of the account after the other member has been removed. -/
def leftAlone : List Event := List.flatten [
  [.register, .register, .request (.selectToken 0 .verifyEmail),
    .request (.selectToken 1 .verifyEmail)],
  List.replicate 4 (.run 0), List.replicate 4 (.run 1),
  [.request (.selectInvitee ⟨0, 1, .trader⟩), .run 2, .run 2, .changeRole 0 1 .viewer,
    .removeMember 0 1, .request (.selectAccount 0 true), .run 3, .run 3, .run 3, .run 3,
    .wait Platform.retention, .request (.selectDue 0), .run 4, .run 4, .run 4]]

theorem leftAlone_enabled :
    (execWhere System.step (fun s e => s.keepsOwners e) {} leftAlone).isSome := by decide +kernel

theorem owners_remain_leftAlone :
    Run (Meeting (Stepping System.step) fun _ _ s' => s'.HasOwners) {} leftAlone
      ((execWhere System.step (fun s e => s.keepsOwners e) {} leftAlone).get leftAlone_enabled) :=
  owners_remain ⟨rfl, rfl, rfl⟩ (by simp [System.HasOwners]) (by simp [System.ownerships])
    (Run.of_execWhere_get leftAlone_enabled)

/-- An invitation is accepted while the deletion of the owner is pending. -/
def joinedLate : List Event := List.flatten [
  [.register, .register, .request (.selectToken 0 .verifyEmail),
    .request (.selectToken 1 .verifyEmail)],
  List.replicate 4 (.run 0), List.replicate 4 (.run 1),
  [.request (.selectAccount 0 true), .run 2, .run 2, .run 2, .run 2,
    .request (.selectInvitee ⟨0, 1, .trader⟩), .run 3, .run 3,
    .wait Platform.retention, .request (.selectDue 0), .run 4, .run 4]]

theorem owners_not_remain : ∃ s s', Run (Stepping System.step) {} joinedLate s ∧
    s.step (.run 4) = some s' ∧ s'.organizations[0]? = some .active ∧
      s'.memberships.any (fun m => m.organizationId = 0) ∧
      s'.ownerships.countP (fun m => m.organizationId = 0) = 0 :=
  Run.exists_step (by decide +kernel)

end Tonatiuh.Accounts
