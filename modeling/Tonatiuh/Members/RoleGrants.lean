import Tonatiuh.Members.Roles

/-! Who grants the roles of an organization.

A role comes from a `PATCH` or from an invitation, and it is the invitation that carries it until it
is accepted. The owner is the only one who can make an administrator, also where an invitation is
written again. -/

namespace Tonatiuh.Members

open Billing (Plan)
open Retention (Role UserId)
open Tables Transition

variable {plan : Plan} {s s' : System} {t : Transaction} {stage : Stage} {i : Nat} {m : Member}
  {row : Invitation}
  {emailOf : UserId → String}

/-! ## Roles under way -/

/-- The invitation is for the member. -/
def Invitation.IsFor (emailOf : UserId → String) (row : Invitation) (m : Member) : Prop :=
  row.role = m.role ∧ row.email = emailOf m.userId

def Invite.IsFor (emailOf : UserId → String) (invite : Invite) (m : Member) : Prop :=
  invite.role = m.role ∧ invite.email = emailOf m.userId

/-- The transaction is about to give the member the role, or to invite somebody to it. -/
def Transaction.Carries (emailOf : UserId → String) (t : Transaction) (m : Member) : Prop :=
  match t.stage with
  | .selectMember invite | .selectExisting invite | .lock invite
  | .selectPlan invite | .count invite
  | .upsert invite _ | .commitInvite invite _ => invite.IsFor emailOf m
  | .insertMember acceptance invitation => m = ⟨acceptance.userId, invitation.role⟩
  | .updateInvitation _ member | .commitAcceptance _ member => member = some m
  | .selectUser _ | .selectInvitation .. | .ended _ => False

namespace System

/-- The role of the member is there, or under way. -/
def Holds (s : System) (m : Member) : Prop :=
  m ∈ s.members ∨ (∃ row ∈ s.invitations, row.IsFor s.emailOf m) ∨
    ∃ t ∈ s.transactions, t.Carries s.emailOf m

theorem isFor_of_find {acceptance : Acceptance} {invitation : Invitation}
    (h : s.next plan i t = some (.insertMember acceptance invitation)) :
    invitation ∈ s.invitations ∧
    invitation.IsFor s.emailOf ⟨acceptance.userId, invitation.role⟩ := by
  cases hs : t.stage with
  | selectInvitation =>
    simp only [next, hs] at h
    split at h
    next => cases h
    next hfind =>
      split at h
      · split at h
        next hcheck =>
          cases h
          rw [Bool.and_eq_true, decide_eq_true_eq] at hcheck
          exact ⟨(mem_of_find hfind).1, rfl, hcheck.2.symm⟩
        next => cases h
      · cases h
  | _ => cases next_cases h; simp_all

theorem member_of_inserted {invitation : Invitation}
    (h : s.next plan i t = some (.updateInvitation invitation (some m))) :
    t.Carries s.emailOf m := by
  cases hs : t.stage with
  | insertMember =>
    simp only [next, hs] at h
    split at h
    · simp only [Option.some.injEq, Stage.updateInvitation.injEq] at h
      obtain ⟨-, h⟩ := h
      split at h
      · cases h
      · simpa only [Transaction.Carries, hs] using (Option.some.inj h).symm
    · cases h
  | _ => cases next_cases h; simp_all

/-- A role that a transaction carries after a statement is one that it carried, or that of an
invitation. -/
theorem next_carries (h : s.next plan i t = some stage)
    (hm : ({ t with stage } : Transaction).Carries s.emailOf m) :
    t.Carries s.emailOf m ∨ ∃ row ∈ s.invitations, row.IsFor s.emailOf m := by
  cases next_cases h with
  | existing hs | unchecked hs | new hs | locked hs | planned hs | counted hs
  | written hs | updated hs =>
    left
    simpa only [Transaction.Carries, hs] using hm
  | found =>
    right
    obtain ⟨hrow, hfor⟩ := isFor_of_find h
    exact ⟨_, hrow, (show m = _ from hm) ▸ hfor⟩
  | inserted =>
    cases hm
    exact .inl (member_of_inserted h)
  | selected | ended => cases hm

theorem commit_members (h : m ∈ (s.commit t).members) : m ∈ s.members ∨ t.Carries s.emailOf m := by
  cases hs : t.stage with
  | commitAcceptance invitation member =>
    simp only [commit, hs, List.mem_append, Option.mem_toList] at h
    simpa only [Transaction.Carries, hs] using h
  | _ =>
    left
    simpa only [commit, hs] using h

theorem commit_invitations (h : row ∈ (s.commit t).invitations) (hfor : row.IsFor s.emailOf m) :
    (∃ row ∈ s.invitations, row.IsFor s.emailOf m) ∨ t.Carries s.emailOf m := by
  cases hs : t.stage with
  | commitInvite invite isChecked =>
    simp only [commit, hs] at h
    rcases mem_of_mem_upsert h with rfl | h
    · right
      simp only [Transaction.Carries, hs]
      exact hfor
    · exact .inl ⟨row, h, hfor⟩
  | commitAcceptance invitation member =>
    simp only [commit, hs, List.mem_map] at h
    obtain ⟨row, hrow, rfl⟩ := h
    refine .inl ⟨row, hrow, ?_⟩
    split at hfor
    · exact hfor
    · exact hfor
  | _ =>
    left
    exact ⟨row, by simpa only [commit, hs] using h, hfor⟩

theorem run_holds (h : s.run plan i = some s') (hm : s'.Holds m) : s.Holds m := by
  obtain ⟨t, stage, ht, hstage, rfl⟩ := run_cases h
  have hemail : (s.commit t).emailOf = s.emailOf := by
    unfold commit
    split <;> rfl
  have hcarried (h : t.Carries s.emailOf m) : s.Holds m :=
    .inr (.inr ⟨t, List.mem_of_getElem? ht, h⟩)
  unfold Holds at hm
  simp only [hemail] at hm
  rcases hm with hm | ⟨row, hrow, hfor⟩ | ⟨u, hu, hcarries⟩
  · rcases commit_members hm with hm | hm
    · exact .inl hm
    · exact hcarried hm
  · rcases commit_invitations hrow hfor with hrow | hm
    · exact .inr (.inl hrow)
    · exact hcarried hm
  · rcases List.mem_or_eq_of_mem_set hu with hu | rfl
    · exact .inr (.inr ⟨u, hu, hcarries⟩)
    · rcases next_carries hstage hcarries with hm | hrow
      · exact hcarried hm
      · exact .inr (.inl hrow)

/-- The steps that are none of a request of a member. -/
theorem Holds.of_base (h : s'.Holds m) (hemail : s'.emailOf = s.emailOf)
    (hmembers : ∀ m ∈ s'.members, m ∈ s.members)
    (hinvitations : ∀ row ∈ s'.invitations, ∃ row' ∈ s.invitations,
      row'.role = row.role ∧ row'.email = row.email)
    (htransactions : ∀ t ∈ s'.transactions, t ∈ s.transactions ∨ ¬t.Carries s.emailOf m) :
    s.Holds m := by
  unfold Holds at h ⊢
  rw [hemail] at h
  rcases h with hm | ⟨row, hrow, hrole, hto⟩ | ⟨t, ht, hcarries⟩
  · exact .inl (hmembers m hm)
  · obtain ⟨row', hrow', hrole', hto'⟩ := hinvitations row hrow
    exact .inr (.inl ⟨row', hrow', hrole'.trans hrole, hto'.trans hto⟩)
  · exact .inr (.inr ⟨t, (htransactions t ht).resolve_right fun hnot => hnot hcarries, hcarries⟩)

theorem begin_holds (h : (s.begin_ stage).Holds m) :
    s.Holds m ∨ ({ now := s.now, stage } : Transaction).Carries s.emailOf m := by
  rcases h with hm | hrow | ⟨t, ht, hcarries⟩
  · exact .inl (.inl hm)
  · exact .inl (.inr (.inl hrow))
  · rcases List.mem_append.mp ht with ht | ht
    · exact .inl (.inr (.inr ⟨t, ht, hcarries⟩))
    · exact .inr (List.mem_singleton.mp ht ▸ hcarries)

/-- A role is not there or under way before it is asked for. -/
theorem step_holds {e : Event} (h : s.step plan e = some s') (hm : s'.Holds m) :
    s.Holds m ∨ ∃ actor invite, e = .invite actor invite ∧ invite.IsFor s.emailOf m ∧
      m.role ≠ .owner ∧
      ¬(actor = .admin ∧ m.role = .admin) := by
  cases e with
  | invite actor invite =>
    cases h
    refine (begin_holds hm).imp_right fun hcarries => ?_
    by_cases hinvalid : invite.role = .owner ∨ (actor = .admin ∧ invite.role = .admin)
    · rw [if_pos hinvalid] at hcarries
      cases hcarries
    · rw [if_neg hinvalid] at hcarries
      have hfor : invite.IsFor s.emailOf m := hcarries
      rw [hfor.1, not_or] at hinvalid
      exact ⟨actor, invite, rfl, hfor, hinvalid⟩
  | accept acceptance =>
    cases h
    exact .inl ((begin_holds hm).resolve_right id)
  | run i => exact .inl (run_holds h hm)
  | abort i message =>
    obtain ⟨t, -, rfl⟩ := abort_cases h
    refine .inl (hm.of_base rfl (fun _ h => h) (fun row h => ⟨row, h, rfl, rfl⟩) fun t ht => ?_)
    rcases List.mem_or_eq_of_mem_set ht with ht | rfl
    · exact .inl ht
    · exact .inr id
  | revoke email =>
    simp only [step] at h
    split at h
    next =>
      cases h
      refine .inl (hm.of_base rfl (fun _ h => h) (fun row h => ?_) fun _ ht => .inl ht)
      obtain ⟨row', hrow', rfl⟩ := List.mem_map.mp h
      exact ⟨row', hrow', by split <;> rfl, by split <;> rfl⟩
    next => cases h
  | removeMember | deleteAccount =>
    cases h
    exact .inl (hm.of_base rfl (fun _ h => List.mem_of_mem_filter h)
      (fun row h => ⟨row, h, rfl, rfl⟩)
      fun _ ht => .inl ht)
  | setActive | wait =>
    cases h
    exact .inl hm

theorem step_emailOf {e : Event} (h : s.step plan e = some s') : s'.emailOf = s.emailOf := by
  cases e with
  | run i =>
    obtain ⟨t, stage, -, -, rfl⟩ := run_cases h
    unfold commit
    split <;> rfl
  | abort i message =>
    obtain ⟨t, -, rfl⟩ := abort_cases h
    rfl
  | revoke =>
    simp only [step] at h
    split at h
    · cases h
      rfl
    · cases h
  | invite | accept | removeMember | deleteAccount | setActive | wait =>
    cases h
    rfl

theorem mem_changeRole {userId : UserId} {role : Role}
    (h : m ∈ (s.changeRole userId role).members) :
    m ∈ s.members ∨ m = ⟨userId, role⟩ := by
  obtain ⟨member, hmember, rfl⟩ := List.mem_map.mp h
  split
  next heq => exact .inr (by rw [← heq.1])
  next => exact .inl hmember

end System

/-! ## Grants -/

/-- The request grants the role to the member: the owner changes it, or an invitation is written. -/
structure Request.Grants (emailOf : UserId → String) (r : Request) (m : Member) : Prop where
  notOwner : m.role ≠ .owner
  actor : r.auth.role = .owner ∨ r.auth.role = .admin ∧ m.role ≠ .admin
  route : (r.auth.role = .owner ∧ r.route = .changeRole m.userId m.role) ∨
    ∃ invite, r.route = .invite invite ∧ invite.IsFor emailOf m

namespace Workspace

variable {w w' start : Workspace} {e : WorkspaceEvent} {es : List WorkspaceEvent} {founder : UserId}

/-- The step handles a request that grants the role. -/
def IsGranting (w : Workspace) (m : Member) (e : WorkspaceEvent) : Prop :=
  ∃ k r, e = .handle k ∧ w.requests[k]? = some r ∧ r.progress = .authenticated ∧
    r.Grants w.system.emailOf m

theorem respond_holds {r : Request} {progress : Progress}
    (h : respond plan s r = some (s', progress))
    (hm : s'.Holds m) : s.Holds m ∨ r.Grants s.emailOf m := by
  unfold respond at h
  split at h
  next hroles =>
    cases hroute : r.route with
    | changeRole userId role =>
      simp only [hroute, handler, Option.some.injEq] at h
      split at h
      next hrole =>
        cases h
        rcases hm with hm | hrest
        · rcases System.mem_changeRole hm with hm | rfl
          · exact .inl (.inl hm)
          · rw [hroute] at hroles
            have howner : r.auth.role = .owner := List.mem_singleton.mp hroles
            refine .inr ⟨fun hrole' => ?_, .inl howner, .inl ⟨howner, hroute⟩⟩
            have hnot : Role.owner ∉ invitationRoles := by decide
            exact hnot ((show role = .owner from hrole') ▸ hrole)
        · exact .inl (.inr hrest)
      next =>
        cases h
        exact .inl hm
    | invite invite =>
      simp only [hroute, handler, Option.map_eq_some_iff, Prod.mk.injEq] at h
      obtain ⟨_, h, rfl, -⟩ := h
      refine (System.step_holds h hm).imp_right fun ⟨actor, _, heq, hfor, howner, hadmin⟩ => ?_
      cases heq
      refine ⟨howner, ?_, .inr ⟨invite, hroute, hfor⟩⟩
      rw [hroute] at hroles
      rcases List.mem_cons.mp hroles with hrole | hrole
      · exact .inl hrole
      · have hrole := List.mem_singleton.mp hrole
        exact .inr ⟨hrole, fun h => hadmin ⟨hrole, h⟩⟩
    | removeMember | revoke =>
      simp only [hroute, handler, Option.map_eq_some_iff, Prod.mk.injEq] at h
      obtain ⟨_, h, rfl, -⟩ := h
      refine .inl ((System.step_holds h hm).resolve_right ?_)
      rintro ⟨_, _, h, -⟩
      cases h
  next =>
    cases h
    exact .inl hm

theorem respond_emailOf {r : Request} {progress : Progress}
    (h : respond plan s r = some (s', progress)) :
    s'.emailOf = s.emailOf := by
  unfold respond at h
  split at h
  · cases hroute : r.route with
    | changeRole =>
      simp only [hroute, handler, Option.some.injEq] at h
      split at h <;> cases h <;> rfl
    | invite | removeMember | revoke =>
      simp only [hroute, handler, Option.map_eq_some_iff, Prod.mk.injEq] at h
      obtain ⟨_, h, rfl, -⟩ := h
      exact System.step_emailOf h
  · cases h
    rfl

theorem handle_cases {k : Nat} (h : w.handle plan k = some w') :
    ∃ r system progress, w.requests[k]? = some r ∧ r.progress = .authenticated ∧
      respond plan w.system r = some (system, progress) ∧
      w' = { w with system, requests := w.requests.set k { r with progress } } := by
  obtain ⟨r, hr, h⟩ := Option.bind_eq_some_iff.mp h
  split at h
  next hprogress =>
    obtain ⟨⟨system, progress⟩, hanswer, h⟩ := Option.bind_eq_some_iff.mp h
    exact ⟨r, system, progress, hr, hprogress, hanswer, (Option.some.inj h).symm⟩
  next => cases h

theorem lift_cases {system : Option System} (h : w.lift system = some w') :
    ∃ s, system = some s ∧ w' = { w with system := s } := by
  obtain ⟨s, hs, rfl⟩ := Option.map_eq_some_iff.mp h
  exact ⟨s, hs, rfl⟩

/-- A role comes with a request that grants it. -/
theorem step_holds (h : w.step plan e = some w') (hm : w'.system.Holds m) :
    w.system.Holds m ∨ w.IsGranting m e := by
  have hlift {e' : Event} (h : w.lift (w.system.step plan e') = some w')
      (he : ∀ actor invite, e' ≠ .invite actor invite) : w.system.Holds m := by
    obtain ⟨s, hs, rfl⟩ := lift_cases h
    exact (System.step_holds hs hm).resolve_right fun ⟨actor, invite, heq, _⟩ => he actor invite heq
  cases e with
  | handle k =>
    obtain ⟨r, system, progress, hr, hprogress, hanswer, rfl⟩ := handle_cases h
    exact (respond_holds hanswer hm).imp_right fun hgrants => ⟨k, r, rfl, hr, hprogress, hgrants⟩
  | accept | run | abort | deleteAccount | setActive | wait =>
    exact .inl (hlift h fun _ _ h => by cases h)
  | authenticate | setOrganization =>
    cases h
    exact .inl hm

theorem step_emailOf (h : w.step plan e = some w') : w'.system.emailOf = w.system.emailOf := by
  have hlift {e' : Event} (h : w.lift (w.system.step plan e') = some w') :
      w'.system.emailOf = w.system.emailOf := by
    obtain ⟨s, hs, rfl⟩ := lift_cases h
    exact System.step_emailOf hs
  cases e with
  | handle k =>
    obtain ⟨r, system, progress, -, -, hanswer, rfl⟩ := handle_cases h
    exact respond_emailOf hanswer
  | accept | run | abort | deleteAccount | setActive | wait => exact hlift h
  | authenticate | setOrganization =>
    cases h
    rfl

/-- Who has made a request has been found in the organization, with the role of the request. -/
theorem step_requests {auth : Auth} (h : w.step plan e = some w')
    (hauth : ∃ r ∈ w'.requests, r.auth = auth) :
    (∃ r ∈ w.requests, r.auth = auth) ∨ w.roleOf auth.userId = some auth.role := by
  obtain ⟨r, hr, rfl⟩ := hauth
  have hlift {system : Option System} (h : w.lift system = some w') : w'.requests = w.requests := by
    obtain ⟨s, -, rfl⟩ := lift_cases h
    rfl
  cases e with
  | authenticate userId route =>
    cases h
    rcases List.mem_append.mp hr with hr | hr
    · exact .inl ⟨r, hr, rfl⟩
    · obtain ⟨role, hrole, rfl⟩ := Option.map_eq_some_iff.mp (Option.mem_toList.mp hr)
      exact .inr hrole
  | handle k =>
    obtain ⟨r₀, system, progress, hr₀, -, -, rfl⟩ := handle_cases h
    rcases List.mem_or_eq_of_mem_set hr with hr | rfl
    · exact .inl ⟨r, hr, rfl⟩
    · exact .inl ⟨r₀, List.mem_of_getElem? hr₀, rfl⟩
  | accept | run | abort | deleteAccount | setActive | wait => exact .inl ⟨r, hlift h ▸ hr, rfl⟩
  | setOrganization =>
    cases h
    exact .inl ⟨r, hr, rfl⟩

theorem mem_of_roleOf {userId : UserId} {role : Role} (h : w.roleOf userId = some role) :
    ⟨userId, role⟩ ∈ w.system.members := by
  unfold roleOf at h
  split at h
  · obtain ⟨member, hfind, rfl⟩ := Option.map_eq_some_iff.mp h
    have huser : member.userId = userId := by simpa using List.find?_some hfind
    rw [← huser]
    exact List.mem_of_find?_eq_some hfind
  · cases h

theorem IsRegistered.holds (h : start.IsRegistered founder) (hm : start.system.Holds m) :
    m = ⟨founder, .owner⟩ := by
  rcases hm with hm | ⟨row, hrow, -⟩ | ⟨t, ht, -⟩
  · rw [h.members] at hm
    exact List.mem_singleton.mp hm
  · rw [h.invitations] at hrow
    cases hrow
  · rw [h.transactions] at ht
    cases ht

/-- Nobody but the founder is ever an owner. -/
theorem owner_eq (hstart : start.IsRegistered founder)
    (h : Run (Stepping (Workspace.step plan)) start es w)
    (hm : m ∈ w.system.members) (howner : m.role = .owner) : m = ⟨founder, .owner⟩ := by
  rcases h.caused (P := fun w e => w.IsGranting m e) (fun _ _ _ => step_holds) (.inl hm) with
      hholds | hgranting
  · exact hstart.holds hholds
  · obtain ⟨_, _, _, _, -, -, _, _, -, -, -, hgrants⟩ := hgranting
    exact absurd howner hgrants.notOwner

/-- A request of the run grants the role to the member. It has been authenticated when who makes it
was an active member with the role of the request, and nobody but the founder makes it as the
owner. -/
def GrantedIn (plan : Plan) (founder : UserId) (start : Workspace) (es : List WorkspaceEvent)
    (m : Member) : Prop :=
  ∃ es₀ es₁ es₂ w₀ w₁ k r, es = es₀ ++ es₁ ++ .handle k :: es₂ ∧
    Run (Stepping (Workspace.step plan)) start es₀ w₀ ∧ w₀.roleOf r.auth.userId = some r.auth.role ∧
    Run (Stepping (Workspace.step plan)) start (es₀ ++ es₁) w₁ ∧ w₁.requests[k]? = some r ∧
    r.progress = .authenticated ∧ r.Grants start.system.emailOf m ∧
      (r.auth.role = .owner → r.auth.userId = founder)

/-! An organization whose founder invites Ann, who invites Bob. -/

def newOrganization : Workspace where
  system :=
    { emailOf := fun userId =>
        if userId = 1 then "ann@example.org"
        else if userId = 2 then "bob@example.org" else "eve@example.org"
      isActive := fun _ => true
      members := [⟨0, .owner⟩] }

theorem newOrganization_isRegistered : newOrganization.IsRegistered 0 := ⟨rfl, rfl, rfl, rfl⟩

def invited : List WorkspaceEvent :=
  [.authenticate 0 (.invite ⟨.admin, "ann@example.org", 1⟩),
    .handle 0] ++ List.replicate 7 (.run 0) ++
    .accept ⟨1, 1⟩ :: List.replicate 5 (.run 1) ++
    [.authenticate 1 (.invite ⟨.trader, "bob@example.org", 2⟩),
      .handle 1] ++ List.replicate 7 (.run 2) ++
    .accept ⟨2, 2⟩ :: List.replicate 5 (.run 3)

theorem invited_enabled : (exec (Workspace.step .pro) newOrganization invited).isSome := by
  decide +kernel

/-- The role of every member but the founder has been granted, by the founder or by an administrator
who grants less. -/
theorem roles_granted (hstart : start.IsRegistered founder)
    (h : Run (Stepping (Workspace.step plan)) start es w) (hm : m ∈ w.system.members) :
    m = ⟨founder, .owner⟩ ∨ GrantedIn plan founder start es m := by
  rcases h.caused (P := fun w e => w.IsGranting m e) (fun _ _ _ => step_holds) (.inl hm) with
      hholds | hgranting
  · exact .inl (hstart.holds hholds)
  obtain ⟨es₁, _, es₂, w₁, rfl, h₁, k, r, rfl, hr, hprogress, hgrants⟩ := hgranting
  rcases h₁.once (Q := fun w => ∃ r' ∈ w.requests,
    r'.auth = r.auth) (fun _ _ _ h hauth => step_requests h hauth)
    ⟨r, List.mem_of_getElem? hr, rfl⟩ with hfirst | hread
  · obtain ⟨r₀, hr₀, -⟩ := hfirst
    rw [hstart.requests] at hr₀
    cases hr₀
  obtain ⟨es₀, es₁, w₀, rfl, h₀, hrole⟩ := hread
  have hemail : w₁.system.emailOf = start.system.emailOf :=
    h₁.invariant (I := fun w => w.system.emailOf = start.system.emailOf)
      (fun _ _ _ hs h => (step_emailOf h).trans hs)
      rfl
  refine .inr ⟨es₀, es₁, es₂, w₀, w₁, k, r, rfl, h₀, hrole, h₁, hr, hprogress, hemail ▸ hgrants,
    fun howner => ?_⟩
  exact congrArg Member.userId (owner_eq hstart h₀ (mem_of_roleOf hrole) howner)

theorem roles_granted_invited :
    ((exec (Workspace.step .pro) newOrganization invited).get invited_enabled).system.members =
      [⟨0, .owner⟩, ⟨1, .admin⟩, ⟨2, .trader⟩] ∧
    GrantedIn .pro 0 newOrganization invited ⟨2, .trader⟩ := by
  have hmembers : ((exec (Workspace.step .pro) newOrganization invited).get
      invited_enabled).system.members =
      [⟨0, .owner⟩, ⟨1, .admin⟩, ⟨2, .trader⟩] := by decide +kernel
  refine ⟨hmembers,
    (roles_granted (m := ⟨2, .trader⟩) newOrganization_isRegistered (.of_exec_get invited_enabled)
    ?_).resolve_left (by decide)⟩
  rw [hmembers]
  decide

end Workspace

end Tonatiuh.Members
