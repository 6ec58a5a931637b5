import Tonatiuh.Accounts.Requests
import Tonatiuh.Transition.Run

/-! What a step does to the rows of accounts, and to the requests.

A row of `users` or `account_tokens` changes only in a step of the request that has locked it, or
that finds it free. So a request relies on the rows that it has locked. -/

namespace Tonatiuh.Accounts

open Retention (UserId OrganizationId User UserStatus Membership)
open Transition

variable {s s' : System} {t w : Request} {stage : Stage} {i j : Nat} {userId : UserId} {user : User}
  {id : TokenId} {token : AccountToken} {e : Event}

/-! ## Queries -/

/-- What the next query of a request can find, and the stage after it. -/
inductive System.Next (s : System) (i : Nat) (t : Request) : Stage → Prop where
  | userSelected {userId : UserId} {kind : TokenKind} (hs : t.stage = .selectUser userId kind)
    (huser : s.hasStatus userId kind.status) (hfree : s.isUserFree i userId) :
    Next s i t (.findTokens (.queueEmail userId kind) [])
  | verificationSelected {id : TokenId} {token : AccountToken}
    (hs : t.stage = .selectToken id .verifyEmail)
    (htoken : s.tokens[id]? = some token) (hkind : token.kind = .verifyEmail) (hlive : token.isLive)
    (hfree : s.isTokenFree i id) : Next s i t (.consumeToken id token.userId)
  | resetSelected {id : TokenId} {token : AccountToken}
    (hs : t.stage = .selectToken id .resetPassword)
    (htoken : s.tokens[id]? = some token)
      (hkind : token.kind = .resetPassword) (hlive : token.isLive)
    (hfree : s.isTokenFree i id) : Next s i t (.updatePassword id token.userId)
  | consumed {id : TokenId} {userId : UserId} (hs : t.stage = .consumeToken id userId) :
    Next s i t (.activateUser id userId)
  | activated {id : TokenId} {userId : UserId} (hs : t.stage = .activateUser id userId)
    (hfree : s.isUserFree i userId) : Next s i t (.commitVerification id userId)
  | updated {id : TokenId} {userId : UserId} (hs : t.stage = .updatePassword id userId)
    (hfree : s.isUserFree i userId) : Next s i t (.findTokens (.resetPassword userId id) [id])
  | found {job : Job} {held : List TokenId} (hs : t.stage = .findTokens job held) :
    Next s i t (.lockTokens job held (s.covered job))
  | locked {job : Job} {held rest : List TokenId} {id : TokenId}
    (hs : t.stage = .lockTokens job held (id :: rest)) (hfree : s.isTokenFree i id) :
    Next s i t (.lockTokens job (id :: held) rest)
  | skipped {job : Job} {held rest : List TokenId} {id : TokenId}
    (hs : t.stage = .lockTokens job held (id :: rest)) (hnot : ¬s.tokens[id]?.any job.covers) :
    Next s i t (.lockTokens job held rest)
  | allLocked {job : Job} {held : List TokenId} (hs : t.stage = .lockTokens job held []) :
    Next s i t (.commitTokens job held)
  | adminSelected {userId : UserId} {passwordMatches : Bool}
    (hs : t.stage = .selectAccount userId passwordMatches) (huser : s.hasStatus userId .active) :
    Next s i t (.selectAdmins userId)
  | accountSelected {userId : UserId} {passwordMatches : Bool}
    (hs : t.stage = .selectAccount userId passwordMatches) (huser : s.hasStatus userId .active) :
    Next s i t (.selectBlocking userId)
  | adminsSelected {userId : UserId} (hs : t.stage = .selectAdmins userId) :
    Next s i t (.selectBlocking userId)
  | blockingSelected {userId : UserId} (hs : t.stage = .selectBlocking userId) :
    Next s i t (.beginDeletion userId)
  | begun {userId : UserId} (hs : t.stage = .beginDeletion userId) :
    Next s i t (.requestDeletion userId s.now)
  | pendingSelected {userId : UserId} {passwordMatches : Bool}
    (hs : t.stage = .selectPending userId passwordMatches)
    (huser : s.hasStatus userId .deletionPending) : Next s i t (.cancelDeletion userId)
  | adminRequired {actor target : UserId} {isSuspended : Bool}
    (hs : t.stage = .requireAdmin actor target isSuspended) :
      Next s i t (.setStatus target isSuspended)
  | inviteeSelected {membership : Membership} (hs : t.stage = .selectInvitee membership) :
    Next s i t (.insertMembership membership)
  | dueSelected {userId : UserId} (hs : t.stage = .selectDue userId)
    (huser : s.hasStatus userId .deletionPending) (hfree : s.isUserFree i userId) :
    Next s i t (.selectOwned userId)
  | ownedSelected {userId : UserId} (hs : t.stage = .selectOwned userId) :
    Next s i t (.anonymize userId (s.platform.owned userId))
  | ended (answer : Except Commands.Failure Unit) : Next s i t (.ended answer)

namespace System

theorem hasStatus_iff {status : UserStatus} :
    s.hasStatus userId status ↔ ∃ user, s.users[userId]? = some user ∧ user.status = status := by
  simp only [hasStatus, Option.any_eq_true, decide_eq_true_eq]

theorem next_cases (h : s.next i t = some stage) : s.Next i t stage := by
  cases hs : t.stage with
  | selectUser userId kind =>
    simp only [next, hs] at h
    split at h
    next huser =>
      split at h
      next hfree =>
        cases h
        exact .userSelected hs huser hfree
      next => cases h
    next =>
      cases h
      exact .ended _
  | selectToken id kind =>
    simp only [next, hs] at h
    split at h
    next =>
      cases h
      exact .ended _
    next token htoken =>
      split at h
      next hfree =>
        cases h
        simp only [Option.filter_eq_some_iff, Bool.and_eq_true, decide_eq_true_eq] at htoken
        obtain ⟨htoken, ⟨hkind, hlive⟩, -⟩ := htoken
        cases kind with
        | verifyEmail => exact .verificationSelected hs htoken hkind hlive hfree
        | resetPassword => exact .resetSelected hs htoken hkind hlive hfree
      next => cases h
  | activateUser | updatePassword =>
    simp only [next, hs] at h
    split at h
    next hfree =>
      cases h
      first
        | exact .activated hs hfree
        | exact .updated hs hfree
    next => cases h
  | lockTokens job held rest =>
    cases rest with
    | nil =>
      simp only [next, hs, Option.some.injEq] at h
      subst h
      exact .allLocked hs
    | cons id rest =>
      simp only [next, hs] at h
      split at h
      next hfree =>
        cases h
        split
        next => exact .locked hs hfree
        next hnot => exact .skipped hs hnot
      next => cases h
  | selectAccount userId passwordMatches =>
    simp only [next, hs] at h
    split at h
    next =>
      cases h
      exact .ended _
    next user huser =>
      cases h
      split
      · exact .ended _
      · next hactive =>
        have hstatus := hasStatus_iff.mpr ⟨user, huser, (not_not.mp hactive).1⟩
        split
        · exact .adminSelected hs hstatus
        · exact .accountSelected hs hstatus
  | selectPending userId passwordMatches =>
    simp only [next, hs, Option.some.injEq] at h
    subst h
    split
    next hpending => exact .pendingSelected hs hpending.2
    next => exact .ended _
  | selectDue userId =>
    simp only [next, hs, Option.some.injEq] at h
    subst h
    split
    next hdue =>
      rw [Bool.and_eq_true, Option.any_eq_true] at hdue
      obtain ⟨⟨user, huser, hstatus⟩, hfree⟩ := hdue
      rw [Bool.and_eq_true, decide_eq_true_eq] at hstatus
      exact .dueSelected hs (hasStatus_iff.mpr ⟨user, huser, hstatus.1⟩) hfree
    next => exact .ended _
  | requireAdmin actor target isSuspended =>
    simp only [next, hs, Option.some.injEq] at h
    subst h
    split
    · split
      · exact .ended _
      · exact .adminRequired hs
    · exact .ended _
  | selectAdmins | selectBlocking | selectInvitee =>
    simp only [next, hs, Option.some.injEq] at h
    subst h
    split
    all_goals
      first
        | exact .ended _
        | exact .adminsSelected hs
        | exact .blockingSelected hs
        | exact .inviteeSelected hs
  | setStatus target isSuspended =>
    simp only [next, hs] at h
    split at h
    · split at h
      · cases h
        exact .ended _
      · cases h
    · cases h
      exact .ended _
  | anonymize | requestDeletion | cancelDeletion =>
    simp only [next, hs] at h
    split at h
    · cases h
      exact .ended _
    · cases h
  | consumeToken | findTokens | beginDeletion | selectOwned | commitVerification | commitTokens
  | insertMembership =>
    simp only [next, hs, Option.some.injEq] at h
    subst h
    first
      | exact .consumed hs
      | exact .found hs
      | exact .begun hs
      | exact .ownedSelected hs
      | exact .ended _
  | ended answer =>
    simp only [next, hs] at h
    cases h

theorem run_cases (h : s.run i = some s') :
    ∃ t stage, s.requests[i]? = some t ∧ s.next i t = some stage ∧
      s' = { s.commit t with requests := s.requests.set i { t with stage } } := by
  obtain ⟨t, ht, h⟩ := Option.bind_eq_some_iff.mp h
  obtain ⟨stage, hstage, h⟩ := Option.bind_eq_some_iff.mp h
  exact ⟨t, stage, ht, hstage, (Option.some.inj h).symm⟩

theorem abort_cases {message : String} (h : s.abort i message = some s') :
    ∃ t, s.requests[i]? = some t ∧ s' = { s with
      requests := s.requests.set i { t with stage := .ended (.error (.internal message)) } } := by
  obtain ⟨t, ht, h⟩ := Option.bind_eq_some_iff.mp h
  refine ⟨t, ht, ?_⟩
  split at h
  · cases h
  · exact (Option.some.inj h).symm

/-- A query that another one comes after changes no row. -/
theorem next_commit (h : s.next i t = some stage) :
    (∃ answer, stage = .ended answer) ∨ s.commit t = s := by
  cases next_cases h with
  | ended answer => exact .inl ⟨answer, rfl⟩
  | userSelected hs | verificationSelected hs | resetSelected hs | consumed hs | activated hs
  | updated hs | found hs | locked hs | skipped hs | allLocked hs | adminSelected hs
  | accountSelected hs | adminsSelected hs | blockingSelected hs | begun hs | pendingSelected hs
  | adminRequired hs | inviteeSelected hs | dueSelected hs | ownedSelected hs =>
    right
    simp only [commit, Request.userUpdate, Request.updateTokens, Request.updateMemberships,
      Request.updateOrganizations, Request.applied, hs, List.nil_append]

/-! ## Requests -/

/-- The list of requests after a step. -/
theorem step_requests (h : s.step e = some s') :
    (∀ i, e ≠ .run i) ∧ (s'.requests = s.requests ∨
        (∃ c : Request, c.stage.isFirst ∧ s'.requests = s.requests ++ [c]) ∨
        ∃ i t answer, s.requests[i]? = some t ∧
          s'.requests = s.requests.set i { t with stage := .ended answer }) ∨
      ∃ i t stage, e = .run i ∧ s.requests[i]? = some t ∧ s.next i t = some stage ∧
        s'.requests = s.requests.set i { t with stage } ∧
        ((∃ answer, stage = .ended answer) ∨ s' = { s with requests := s'.requests }) := by
  cases e with
  | request stage =>
    simp only [step] at h
    split at h
    next hfirst =>
      cases h
      exact .inl ⟨nofun, .inr (.inl ⟨_, hfirst, rfl⟩)⟩
    next => cases h
  | run i =>
    obtain ⟨t, stage, ht, hnext, rfl⟩ := run_cases h
    refine .inr ⟨i, t, stage, rfl, ht, hnext, rfl, ?_⟩
    rcases next_commit hnext with hended | hsame
    · exact .inl hended
    · exact .inr (by rw [hsame])
  | abort i message =>
    obtain ⟨t, ht, rfl⟩ := abort_cases h
    exact .inl ⟨nofun, .inr (.inr ⟨i, t, _, ht, rfl⟩)⟩
  | changeRole =>
    simp only [step] at h
    split at h
    · cases h
      exact .inl ⟨nofun, .inl rfl⟩
    · cases h
  | register | removeMember | wait =>
    cases h
    exact .inl ⟨nofun, .inl rfl⟩

/-- Where a request comes from: it was there, is new or has ended, or has executed a query that
changes no row. -/
theorem step_request (h : s.step e = some s') (hw : s'.requests[j]? = some w) :
    (s.requests[j]? = some w ∧ e ≠ .run j) ∨ (w.stage.isFirst ∨ ∃ answer, w.stage = .ended answer) ∨
      ∃ t stage, e = .run j ∧ s.requests[j]? = some t ∧ w = { t with stage } ∧
        s.next j t = some stage ∧ s' = { s with requests := s'.requests } := by
  rcases step_requests h with ⟨hother, hsame | ⟨c, hfirst, hnew⟩ | ⟨i, t, answer, -, hset⟩⟩ |
    ⟨i, t, stage, rfl, ht, hnext, hset, hcommit⟩
  · exact .inl ⟨hsame ▸ hw, hother j⟩
  · rw [hnew] at hw
    rcases getElem?_concat_cases hw with ⟨-, rfl⟩ | ⟨-, hw⟩
    · exact .inr (.inl (.inl hfirst))
    · exact .inl ⟨hw, hother j⟩
  · rw [hset] at hw
    rcases getElem?_set_cases hw with ⟨-, rfl⟩ | ⟨-, hw⟩
    · exact .inr (.inl (.inr ⟨_, rfl⟩))
    · exact .inl ⟨hw, hother j⟩
  · rw [hset] at hw
    rcases getElem?_set_cases hw with ⟨rfl, rfl⟩ | ⟨hne, hw⟩
    · rcases hcommit with hended | hsame
      · exact .inr (.inl (.inr hended))
      · exact .inr (.inr ⟨t, stage, rfl, ht, rfl, hnext, hsame⟩)
    · refine .inl ⟨hw, fun heq => hne ?_⟩
      cases heq
      rfl

/-! ## Locks -/

theorem next_lockedUser (h : s.next i t = some stage)
    (hlock : ({ t with stage } : Request).lockedUser = some userId) :
    t.lockedUser = some userId ∨ s.isUserFree i userId := by
  cases next_cases h with
  | userSelected _ _ hfree | activated _ hfree | updated _ hfree | dueSelected _ _ hfree =>
    cases hlock
    exact .inr hfree
  | found hs | locked hs | skipped hs | allLocked hs | ownedSelected hs =>
    left
    simpa only [Request.lockedUser, hs] using hlock
  | _ => cases hlock

theorem next_lockedTokens (h : s.next i t = some stage)
    (hlock : id ∈ ({ t with stage } : Request).lockedTokens) :
    id ∈ t.lockedTokens ∨ s.isTokenFree i id := by
  cases next_cases h with
  | verificationSelected _ _ _ _ hfree | resetSelected _ _ _ _ hfree =>
    exact .inr (List.mem_singleton.mp hlock ▸ hfree)
  | locked hs hfree =>
    rcases List.mem_cons.mp hlock with rfl | hold
    · exact .inr hfree
    · left
      simpa only [Request.lockedTokens, hs] using hold
  | consumed hs | activated hs | updated hs | found hs | skipped hs | allLocked hs =>
    left
    simpa only [Request.lockedTokens, hs] using hlock
  | _ => cases hlock

theorem heldOnce_step (hheld : HeldOnce Request.lockedUser s.requests) (h : s.step e = some s') :
    HeldOnce Request.lockedUser s'.requests := by
  rcases step_requests h with ⟨-, hsame | ⟨c, hfirst, hnew⟩ | ⟨i, t, answer, ht, hset⟩⟩ |
    ⟨i, t, stage, rfl, ht, hnext, hset, -⟩
  · rw [hsame]
    exact hheld
  · rw [hnew]
    refine hheld.concat ?_
    cases hs : c.stage <;> simp_all [Stage.isFirst, Request.lockedUser]
  · rw [hset]
    exact hheld.set ht nofun
  · rw [hset]
    exact hheld.set ht fun k hk => next_lockedUser hnext hk

theorem exclusive_step (hheld : Exclusive Request.lockedTokens s.requests)
    (h : s.step e = some s') :
    Exclusive Request.lockedTokens s'.requests := by
  rcases step_requests h with ⟨-, hsame | ⟨c, hfirst, hnew⟩ | ⟨i, t, answer, ht, hset⟩⟩ |
    ⟨i, t, stage, rfl, ht, hnext, hset, -⟩
  · rw [hsame]
    exact hheld
  · rw [hnew]
    refine hheld.concat ?_
    cases hs : c.stage <;> simp_all [Stage.isFirst, Request.lockedTokens]
  · rw [hset]
    exact hheld.set ht nofun
  · rw [hset]
    exact hheld.set ht fun k hk => next_lockedTokens hnext hk

/-! ## Users -/

/-- The row that is updated is locked, or it is free. -/
theorem next_update {f : User → User} (h : s.next i t = some stage)
    (hupdate : t.userUpdate = some (userId, f)) (huser : s.users[userId]? = some user) :
    f user = user ∨ t.lockedUser = some userId ∨ s.isUserFree i userId := by
  cases hs : t.stage with
  | commitVerification | anonymize =>
    simp only [Request.userUpdate, hs] at hupdate
    cases hupdate
    exact .inr (.inl (by simp only [Request.lockedUser, hs]))
  | requestDeletion | cancelDeletion =>
    simp only [Request.userUpdate, hs] at hupdate
    cases hupdate
    simp only [next, hs] at h
    split at h
    next hfree => exact .inr (.inr hfree)
    next => cases h
  | setStatus target isSuspended =>
    simp only [Request.userUpdate, hs] at hupdate
    cases hupdate
    simp only [next, hs] at h
    split at h
    · split at h
      next hfree => exact .inr (.inr hfree)
      next => cases h
    · next hstatus =>
      simp only [Bool.or_eq_true, hasStatus_iff, huser, Option.some.injEq,
        exists_eq_left'] at hstatus
      exact .inl (if_neg hstatus)
  | _ =>
    simp only [Request.userUpdate, hs] at hupdate
    cases hupdate

/-- Where a user comes from: the row was there, is new, or has been updated. -/
theorem step_user (h : s.step e = some s') (huser : s'.users[userId]? = some user) :
    s.users[userId]? = some user ∨ (userId = s.users.length ∧ user = {}) ∨
      ∃ i t f old, e = .run i ∧ s.requests[i]? = some t ∧ t.userUpdate = some (userId, f) ∧
        s.users[userId]? = some old ∧ user = f old ∧
        (t.lockedUser = some userId ∨ s.isUserFree i userId) := by
  cases e with
  | register =>
    cases h
    rcases getElem?_concat_cases huser with hnew | ⟨-, hold⟩
    · exact .inr (.inl hnew)
    · exact .inl hold
  | run i =>
    obtain ⟨t, stage, ht, hnext, rfl⟩ := run_cases h
    cases hupdate : t.userUpdate with
    | none =>
      simp only [commit, hupdate] at huser
      exact .inl huser
    | some update =>
      obtain ⟨target, f⟩ := update
      simp only [commit, hupdate] at huser
      rcases getElem?_modify_cases huser with ⟨rfl, old, hold, rfl⟩ | ⟨-, huser⟩
      · rcases next_update hnext hupdate hold with hsame | hlock
        · rw [hsame]
          exact .inl hold
        · exact .inr (.inr ⟨i, t, f, old, rfl, ht, hupdate, hold, rfl, hlock⟩)
      · exact .inl huser
  | abort i message =>
    obtain ⟨t, -, rfl⟩ := abort_cases h
    exact .inl huser
  | request | changeRole =>
    simp only [step] at h
    split at h
    · cases h
      exact .inl huser
    · cases h
  | removeMember | wait =>
    cases h
    exact .inl huser

theorem step_users_length (h : s.step e = some s') : s.users.length ≤ s'.users.length := by
  cases e with
  | run i =>
    obtain ⟨t, stage, -, -, rfl⟩ := run_cases h
    cases hupdate : t.userUpdate <;> simp [commit, hupdate]
  | abort i message =>
    obtain ⟨t, -, rfl⟩ := abort_cases h
    exact Nat.le_refl _
  | request | changeRole =>
    simp only [step] at h
    split at h
    · cases h
      exact Nat.le_refl _
    · cases h
  | register | removeMember | wait =>
    cases h
    simp [register]

/-- What a step makes of a user that is there. -/
theorem step_user_of (h : s.step e = some s') (huser : s.users[userId]? = some user) :
    ∃ user', s'.users[userId]? = some user' ∧ (user' = user ∨
      ∃ i t f, e = .run i ∧ s.requests[i]? = some t ∧ t.userUpdate = some (userId, f) ∧
        user' = f user ∧ (t.lockedUser = some userId ∨ s.isUserFree i userId)) := by
  have hlt : userId < s.users.length := (List.getElem?_eq_some_iff.mp huser).1
  have hsome := List.getElem?_eq_getElem (Nat.lt_of_lt_of_le hlt (step_users_length h))
  refine ⟨_, hsome, ?_⟩
  rcases step_user h hsome with hold | ⟨heq, -⟩ | ⟨i, t, f, old, he, ht, hupdate, hold, hnew, hlock⟩
  · exact .inl (Option.some.inj (hold.symm.trans huser))
  · exact absurd heq (Nat.ne_of_lt hlt)
  · obtain rfl := Option.some.inj (huser.symm.trans hold)
    exact .inr ⟨i, t, f, he, ht, hupdate, hnew, hlock⟩

/-- The row of a user that a request has locked is changed by no other request. -/
theorem step_locked_user (hheld : HeldOnce Request.lockedUser s.requests) (h : s.step e = some s')
    (hw : s.requests[j]? = some w) (hne : e ≠ .run j) (hlock : w.lockedUser = some userId)
    (huser : s.users[userId]? = some user) : s'.users[userId]? = some user := by
  obtain ⟨user', huser', rfl | ⟨i, t, f, rfl, ht, -, -, hmine | hfree⟩⟩ := step_user_of h huser
  · exact huser'
  · exact absurd (hheld i j t w userId ht hw hmine hlock ▸ rfl) hne
  · have hij : j ≠ i := fun heq => hne (heq ▸ rfl)
    exact absurd hlock (isFree_iff.mp hfree j w hij hw)

/-- No update makes a user pending. -/
theorem userUpdate_not_pending {f : User → User} (h : t.userUpdate = some (userId, f))
    (hnot : user.status ≠ .pending) : (f user).status ≠ .pending := by
  cases hs : t.stage with
  | setStatus target isSuspended =>
    simp only [Request.userUpdate, hs, Option.some.injEq, Prod.mk.injEq] at h
    rw [← h.2]
    simp only
    split
    · cases isSuspended <;> nofun
    · exact hnot
  | _ =>
    simp only [Request.userUpdate, hs, Option.some.injEq, Prod.mk.injEq, reduceCtorEq] at h
    try
      rw [← h.2]
      nofun

/-! ## Tokens -/

/-- The token has just been issued to the user, by `queueAccountEmail`. -/
def issues (s : System) (e : Event) (token : AccountToken) : Prop :=
  (e = .register ∧ token.userId = s.users.length ∧ token.kind = .verifyEmail) ∨
    ∃ i t held, e = .run i ∧ s.requests[i]? = some t ∧
      t.stage = .commitTokens (.queueEmail token.userId token.kind) held

/-- Where a token comes from: the row was there, is new, or has been consumed or deleted. -/
theorem step_token (h : s.step e = some s') (hrow : s'.tokens[id]? = some token) :
    s.tokens[id]? = some token ∨ (id = s.tokens.length ∧ token.isLive ∧ s.issues e token) ∨
      ∃ i t old, e = .run i ∧ s.requests[i]? = some t ∧ s.tokens[id]? = some old ∧
        token.userId = old.userId ∧ token.kind = old.kind ∧ ¬token.isLive ∧
        (id ∈ t.lockedTokens ∨ s.isTokenFree i id) := by
  cases e with
  | register =>
    cases h
    rcases getElem?_concat_cases hrow with ⟨rfl, rfl⟩ | ⟨-, hold⟩
    · exact .inr (.inl ⟨rfl, rfl, .inl ⟨rfl, rfl, rfl⟩⟩)
    · exact .inl hold
  | run i =>
    obtain ⟨t, stage, ht, hnext, rfl⟩ := run_cases h
    cases hs : t.stage with
    | commitVerification tokenId =>
      simp only [commit, Request.updateTokens, hs] at hrow
      rcases getElem?_modify_cases hrow with ⟨rfl, old, hold, rfl⟩ | ⟨-, hrow⟩
      · exact .inr (.inr ⟨i, t, old, rfl, ht, hold, rfl, rfl, by simp [AccountToken.consume,
          AccountToken.isLive], .inl (by simp [Request.lockedTokens, hs])⟩)
      · exact .inl hrow
    | commitTokens job held =>
      simp only [commit, Request.updateTokens, hs] at hrow
      rcases Nat.lt_or_ge id s.tokens.length with hlt | hge
      · rw [List.getElem?_append_left (by simpa using hlt), List.getElem?_mapIdx] at hrow
        obtain ⟨old, hold, rfl⟩ := Option.map_eq_some_iff.mp hrow
        split
        next hheld =>
          exact .inr (.inr ⟨i, t, old, rfl, ht, hold, rfl, rfl, by simp [AccountToken.consume,
            AccountToken.isLive], .inl (by simpa [Request.lockedTokens, hs] using hheld)⟩)
        next => exact .inl hold
      · rw [List.getElem?_append_right (by simpa using hge), List.length_mapIdx] at hrow
        cases job with
        | queueEmail userId kind =>
          rw [Job.inserted, List.getElem?_singleton] at hrow
          split at hrow
          next hzero =>
            cases hrow
            have hid : id = s.tokens.length := Nat.le_antisymm (Nat.le_of_sub_eq_zero hzero) hge
            exact .inr (.inl ⟨hid, rfl, .inr ⟨i, t, held, rfl, ht, hs⟩⟩)
          next => cases hrow
        | resetPassword => simp [Job.inserted] at hrow
    | anonymize userId owned =>
      simp only [commit, Request.updateTokens, hs] at hrow
      rw [List.getElem?_map] at hrow
      obtain ⟨old, hold, rfl⟩ := Option.map_eq_some_iff.mp hrow
      split
      next huser =>
        refine .inr (.inr ⟨i, t, old, rfl, ht, hold, rfl, rfl, ?_, .inr ?_⟩)
        · simp [AccountToken.remove, AccountToken.isLive]
        · -- the `DELETE` waits for the rows that others have locked
          simp only [next, hs] at hnext
          split at hnext
          next hall =>
            have hid := List.all_eq_true.mp hall id
              (List.mem_range.mpr (List.getElem?_eq_some_iff.mp hold).1)
            simpa [hold, huser] using hid
          next => cases hnext
      next => exact .inl hold
    | _ =>
      simp only [commit, Request.updateTokens, hs] at hrow
      exact .inl hrow
  | abort i message =>
    obtain ⟨t, -, rfl⟩ := abort_cases h
    exact .inl hrow
  | request | changeRole =>
    simp only [step] at h
    split at h
    · cases h
      exact .inl hrow
    · cases h
  | removeMember | wait =>
    cases h
    exact .inl hrow

theorem step_live_token (h : s.step e = some s') (hrow : s'.tokens[id]? = some token)
    (hlive : token.isLive) :
    s.tokens[id]? = some token ∨ (id = s.tokens.length ∧ s.issues e token) := by
  rcases step_token h hrow with hold | ⟨heq, -, hissues⟩ | ⟨i, t, old, -, -, -, -, -, hdead, -⟩
  · exact .inl hold
  · exact .inr ⟨heq, hissues⟩
  · exact absurd hlive hdead

theorem step_tokens_length (h : s.step e = some s') : s.tokens.length ≤ s'.tokens.length := by
  cases e with
  | run i =>
    obtain ⟨t, stage, -, -, rfl⟩ := run_cases h
    cases hs : t.stage with
    | commitVerification | commitTokens | anonymize => simp [commit, Request.updateTokens, hs]
    | _ => simp only [commit, Request.updateTokens, hs, Nat.le_refl]
  | abort i message =>
    obtain ⟨t, -, rfl⟩ := abort_cases h
    exact Nat.le_refl _
  | request | changeRole =>
    simp only [step] at h
    split at h
    · cases h
      exact Nat.le_refl _
    · cases h
  | register | removeMember | wait =>
    cases h
    simp [register]

/-- A token keeps its user and its kind, and is not live again. -/
theorem step_token_of (h : s.step e = some s') (hrow : s.tokens[id]? = some token) :
    ∃ token', s'.tokens[id]? = some token' ∧ token'.userId = token.userId ∧
      token'.kind = token.kind ∧
      (token'.isLive → token' = token) := by
  have hlt : id < s.tokens.length := (List.getElem?_eq_some_iff.mp hrow).1
  have hsome := List.getElem?_eq_getElem (Nat.lt_of_lt_of_le hlt (step_tokens_length h))
  refine ⟨_, hsome, ?_⟩
  rcases step_token h hsome with hold | ⟨heq, -⟩ |
      ⟨i, t, old, rfl, ht, hold, huser, hkind, hdead, -⟩
  · obtain heq := Option.some.inj (hold.symm.trans hrow)
    exact ⟨congrArg _ heq, congrArg _ heq, fun _ => heq⟩
  · exact absurd heq (Nat.ne_of_lt hlt)
  · obtain rfl := Option.some.inj (hold.symm.trans hrow)
    exact ⟨huser, hkind, fun hlive => absurd hlive hdead⟩

/-- A token that a request has locked is changed by no other request. -/
theorem step_locked_token (hheld : Exclusive Request.lockedTokens s.requests)
    (h : s.step e = some s') (hw : s.requests[j]? = some w) (hne : e ≠ .run j)
    (hlock : id ∈ w.lockedTokens) (hrow : s.tokens[id]? = some token) :
    s'.tokens[id]? = some token := by
  have hlt : id < s.tokens.length := (List.getElem?_eq_some_iff.mp hrow).1
  have hsome := List.getElem?_eq_getElem (Nat.lt_of_lt_of_le hlt (step_tokens_length h))
  rcases step_token h hsome with hold | ⟨heq, -⟩ | ⟨i, t, old, rfl, ht, -, -, -, -, hmine | hfree⟩
  · rw [hsome, ← hold, hrow]
  · exact absurd heq (Nat.ne_of_lt hlt)
  · exact absurd (hheld i j t w id ht hw hmine hlock ▸ rfl) hne
  · have hij : j ≠ i := fun heq => hne (heq ▸ rfl)
    exact absurd hlock (isUnheld_iff.mp hfree j w hij hw)

end System

/-- The tokens that are consumed in the next query. -/
def Request.consumed (t : Request) : List TokenId :=
  match t.stage with
  | .commitVerification id _ => [id]
  | .commitTokens _ held => held
  | _ => []

theorem System.step_consumed (h : s.step (.run i) = some s') (ht : s.requests[i]? = some t)
    (hid : id ∈ t.consumed) (hlt : id < s.tokens.length) (hrow : s'.tokens[id]? = some token) :
    ¬token.isLive := by
  obtain ⟨t', stage, ht', -, rfl⟩ := run_cases h
  obtain rfl := Option.some.inj (ht.symm.trans ht')
  cases hs : t.stage with
  | commitVerification tokenId =>
    simp only [Request.consumed, hs, List.mem_singleton] at hid
    simp only [commit, Request.updateTokens, hs, hid, List.getElem?_modify_eq] at hrow
    obtain ⟨old, -, rfl⟩ := Option.map_eq_some_iff.mp hrow
    simp [AccountToken.consume, AccountToken.isLive]
  | commitTokens job held =>
    simp only [Request.consumed, hs] at hid
    simp only [commit, Request.updateTokens, hs] at hrow
    rw [List.getElem?_append_left (by simpa using hlt), List.getElem?_mapIdx] at hrow
    obtain ⟨old, -, rfl⟩ := Option.map_eq_some_iff.mp hrow
    rw [if_pos hid]
    simp [AccountToken.consume, AccountToken.isLive]
  | _ => simp [Request.consumed, hs] at hid

end Tonatiuh.Accounts
