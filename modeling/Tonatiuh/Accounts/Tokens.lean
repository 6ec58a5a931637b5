import Tonatiuh.Accounts.Steps

/-! The tokens of an account.

`POST /verify-email` activates a user without a look at the status. It relies on this: a token for
it is live only while the user is pending. The token is locked first by a request that uses it, and
the user first by one that issues another. -/

namespace Tonatiuh.Accounts

open Retention (UserId OrganizationId User UserStatus)
open Transition

variable {s s' : System} {t w : Request} {stage : Stage} {i j : Nat} {userId : UserId} {user : User}
  {id : TokenId} {ids : List TokenId} {token : AccountToken} {kind : TokenKind} {e : Event}

/-! ## What a request has found -/

namespace Request

/-- The token of `POST /verify-email` or `POST /reset-password`, with its kind and its user. -/
def uses (t : Request) : Option (TokenId × TokenKind × UserId) :=
  match t.stage with
  | .consumeToken id userId | .activateUser id userId | .commitVerification id userId =>
    some (id, .verifyEmail, userId)
  | .updatePassword id userId | .findTokens (.resetPassword userId id) _
  | .lockTokens (.resetPassword userId id) _ _ | .commitTokens (.resetPassword userId id) _ =>
    some (id, .resetPassword, userId)
  | _ => none

/-- The user and the kind that `queueAccountEmail` issues a token for. -/
def issuing (t : Request) : Option (UserId × TokenKind) :=
  match t.stage with
  | .findTokens (.queueEmail userId kind) _ | .lockTokens (.queueEmail userId kind) _ _
  | .commitTokens (.queueEmail userId kind) _ => some (userId, kind)
  | _ => none

/-- The tokens that the `UPDATE` of `queueAccountEmail` has found. -/
def found (t : Request) : Option (List TokenId) :=
  match t.stage with
  | .lockTokens (.queueEmail ..) held rest => some (held ++ rest)
  | .commitTokens (.queueEmail ..) held => some held
  | _ => none

/-- A user that has been found active, or deletion-pending. -/
def checked (t : Request) : Option UserId :=
  match t.stage with
  | .selectAdmins userId | .selectBlocking userId | .beginDeletion userId
  | .requestDeletion userId _ | .cancelDeletion userId => some userId
  | _ => none

/-- The user that `anonymizeOne` has locked. -/
def due (t : Request) : Option UserId :=
  match t.stage with
  | .selectOwned userId | .anonymize userId _ => some userId
  | _ => none

/-- A request that has executed no query, or has ended, has found nothing. -/
theorem found_nothing (h : w.stage.isFirst ∨ ∃ answer, w.stage = .ended answer) :
    w.uses = none ∧ w.issuing = none ∧ w.found = none ∧ w.checked = none ∧ w.due = none := by
  cases hs : w.stage <;> simp_all [Stage.isFirst, uses, issuing, found, checked, due]

theorem lockedUser_of_issuing (h : t.issuing = some (userId, kind)) :
    t.lockedUser = some userId := by
  cases hs : t.stage with
  | findTokens job | lockTokens job | commitTokens job =>
    cases job <;> simp_all [issuing, lockedUser, Job.userId]
  | _ => simp [issuing, hs] at h

theorem lockedUser_of_due (h : t.due = some userId) : t.lockedUser = some userId := by
  cases hs : t.stage with
  | selectOwned | anonymize => simpa only [due, lockedUser, hs] using h
  | _ => simp [due, hs] at h

end Request

namespace System

theorem next_uses (h : s.next i t = some stage)
    (huses : ({ t with stage } : Request).uses = some (id, kind, userId)) :
    (t.uses = some (id, kind, userId) ∧
        (id ∈ t.lockedTokens → id ∈ ({ t with stage } : Request).lockedTokens)) ∨
      ∃ token, s.tokens[id]? = some token ∧ token.isLive ∧ token.kind = kind ∧
        token.userId = userId ∧
        id ∈ ({ t with stage } : Request).lockedTokens := by
  cases next_cases h with
  | verificationSelected hs htoken hkind hlive | resetSelected hs htoken hkind hlive =>
    cases huses
    exact .inr ⟨_, htoken, hlive, hkind, rfl, List.mem_singleton_self _⟩
  | consumed hs | activated hs | updated hs =>
    cases huses
    left
    simp only [Request.uses, Request.lockedTokens, hs, true_and, imp_self]
  | @found job held hs | @allLocked job held hs | @skipped job held rest k hs
  | @locked job held rest k hs =>
    cases job with
    | queueEmail => cases huses
    | resetPassword =>
      cases huses
      left
      simp only [Request.uses, Request.lockedTokens, hs, true_and, imp_self]
      try exact List.mem_cons_of_mem _
  | _ => cases huses

theorem next_issuing (h : s.next i t = some stage)
    (hissuing : ({ t with stage } : Request).issuing = some (userId, kind)) :
    t.issuing = some (userId, kind) ∨ s.hasStatus userId kind.status := by
  cases next_cases h with
  | userSelected _ huser =>
    cases hissuing
    exact .inr huser
  | @found job held hs | @allLocked job held hs | @skipped job held rest k hs
  | @locked job held rest k hs =>
    cases job with
    | queueEmail =>
      cases hissuing
      left
      simp only [Request.issuing, hs]
    | resetPassword => cases hissuing
  | _ => cases hissuing

/-- The tokens that are found are those that are live, and one is left out only when it is not. -/
theorem next_found (h : s.next i t = some stage)
    (hissuing : ({ t with stage } : Request).issuing = some (userId, kind))
    (hfound : ({ t with stage } : Request).found = some ids)
    (hold : ∀ ids', t.issuing = some (userId, kind) → t.found = some ids' →
      ∀ id token, s.tokens[id]? = some token → token.isLive → token.userId = userId →
        token.kind = kind → id ∈ ids')
    (hrow : s.tokens[id]? = some token) (hlive : token.isLive) (huser : token.userId = userId)
    (hkind : token.kind = kind) : id ∈ ids := by
  cases next_cases h with
  | @found job held hs =>
    cases job with
    | queueEmail =>
      cases hissuing
      cases hfound
      refine List.mem_append_right _ (List.mem_filter.mpr ⟨?_, ?_⟩)
      · exact List.mem_range.mpr (List.getElem?_eq_some_iff.mp hrow).1
      · simp [hrow, Job.covers, hlive, huser, hkind]
    | resetPassword => cases hissuing
  | @locked job held rest k hs =>
    cases job with
    | queueEmail =>
      cases hissuing
      cases hfound
      have hmem := hold (held ++ k :: rest) (by simp only [Request.issuing, hs])
        (by simp only [Request.found, hs]) id token hrow hlive huser hkind
      simp only [List.mem_append, List.mem_cons] at hmem ⊢
      tauto
    | resetPassword => cases hissuing
  | @skipped job held rest k hs hnot =>
    cases job with
    | queueEmail =>
      cases hissuing
      cases hfound
      have hmem := hold (held ++ k :: rest) (by simp only [Request.issuing, hs])
        (by simp only [Request.found, hs]) id token hrow hlive huser hkind
      rcases List.mem_append.mp hmem with hheld | hrest
      · exact List.mem_append_left _ hheld
      · rcases List.mem_cons.mp hrest with rfl | hrest
        · exact absurd (by simp [hrow, Job.covers, hlive, huser, hkind]) hnot
        · exact List.mem_append_right _ hrest
    | resetPassword => cases hissuing
  | @allLocked job held hs =>
    cases job with
    | queueEmail =>
      cases hissuing
      cases hfound
      have hmem := hold (ids ++ []) (by simp only [Request.issuing, hs])
        (by simp only [Request.found, hs]) id token hrow hlive huser hkind
      rwa [List.append_nil] at hmem
    | resetPassword => cases hissuing
  | @userSelected u k hs => cases hfound
  | _ => cases hissuing

theorem next_checked (h : s.next i t = some stage)
    (hchecked : ({ t with stage } : Request).checked = some userId) :
    t.checked = some userId ∨ s.hasStatus userId .active ∨ s.hasStatus userId .deletionPending := by
  cases next_cases h with
  | adminSelected _ huser | accountSelected _ huser =>
    cases hchecked
    exact .inr (.inl huser)
  | pendingSelected _ huser =>
    cases hchecked
    exact .inr (.inr huser)
  | adminsSelected hs | blockingSelected hs | begun hs =>
    cases hchecked
    left
    simp only [Request.checked, hs]
  | _ => cases hchecked

theorem next_due (h : s.next i t = some stage)
    (hdue : ({ t with stage } : Request).due = some userId) :
    t.due = some userId ∨ s.hasStatus userId .deletionPending := by
  cases next_cases h with
  | dueSelected _ huser =>
    cases hdue
    exact .inr huser
  | ownedSelected hs =>
    cases hdue
    left
    simp only [Request.due, hs]
  | _ => cases hdue

/-! ## Invariant -/

/-- Each user has at most one token of a kind that can be used. -/
def HasSingleTokens (s : System) : Prop :=
  ∀ (i j : TokenId) (a b : AccountToken), s.tokens[i]? = some a → s.tokens[j]? = some b →
    a.isLive → b.isLive → a.userId = b.userId → a.kind = b.kind → i = j

/-- Locks are exclusive, a token for a verification is live only while its user is pending, and what
a request has found is so until it ends. -/
structure Sound (s : System) : Prop where
  heldOnce : HeldOnce Request.lockedUser s.requests
  exclusive : Exclusive Request.lockedTokens s.requests
  tokenUsers : ∀ token ∈ s.tokens, token.userId < s.users.length
  single : s.HasSingleTokens
  pending : ∀ token ∈ s.tokens, token.isLive → token.kind = .verifyEmail →
    s.hasStatus token.userId .pending
  uses : ∀ (i : Nat) (t : Request), s.requests[i]? = some t → ∀ id kind userId,
    t.uses = some (id, kind, userId) → id ∈ t.lockedTokens ∧ ∃ token, s.tokens[id]? = some token ∧
      token.isLive ∧ token.kind = kind ∧ token.userId = userId
  issuing : ∀ (i : Nat) (t : Request), s.requests[i]? = some t → ∀ userId kind,
    t.issuing = some (userId, kind) → s.hasStatus userId kind.status
  found : ∀ (i : Nat) (t : Request), s.requests[i]? = some t → ∀ userId kind ids,
    t.issuing = some (userId, kind) → t.found = some ids → ∀ (id : TokenId) token,
      s.tokens[id]? = some token → token.isLive → token.userId = userId →
        token.kind = kind → id ∈ ids
  checked : ∀ (i : Nat) (t : Request), s.requests[i]? = some t → ∀ userId,
    t.checked = some userId → ∃ user, s.users[userId]? = some user ∧ user.status ≠ .pending
  due : ∀ (i : Nat) (t : Request), s.requests[i]? = some t → ∀ userId,
    t.due = some userId → s.hasStatus userId .deletionPending
  applied : ∀ id ∈ s.applied, ∃ token, s.tokens[id]? = some token ∧ ¬token.isLive
  nodup : s.applied.Nodup

/-- No request is being executed, and no token has been issued. -/
structure IsFresh (s : System) : Prop where
  tokens : s.tokens = []
  requests : s.requests = []
  applied : s.applied = []

theorem IsFresh.sound (h : s.IsFresh) : s.Sound where
  heldOnce := by
    rw [h.requests]
    exact .nil
  exclusive := by
    rw [h.requests]
    exact .nil
  tokenUsers := by simp [h.tokens]
  single i j a b ha := by simp [h.tokens] at ha
  pending := by simp [h.tokens]
  uses i t ht := by simp [h.requests] at ht
  issuing i t ht := by simp [h.requests] at ht
  found i t ht := by simp [h.requests] at ht
  checked i t ht := by simp [h.requests] at ht
  due i t ht := by simp [h.requests] at ht
  applied := by simp [h.applied]
  nodup := by simp [h.applied]

namespace Sound

theorem exists_of_status {status : UserStatus} (huser : s.hasStatus userId status) :
    userId < s.users.length := by
  obtain ⟨user, huser, -⟩ := hasStatus_iff.mp huser
  exact (List.getElem?_eq_some_iff.mp huser).1

/-- The status of a user that a request has locked. -/
theorem status_locked {status : UserStatus} (hi : s.Sound) (h : s.step e = some s')
    (hw : s.requests[j]? = some w) (hne : e ≠ .run j) (hlock : w.lockedUser = some userId)
    (hstatus : s.hasStatus userId status) : s'.hasStatus userId status := by
  obtain ⟨user, huser, hstatus⟩ := hasStatus_iff.mp hstatus
  exact hasStatus_iff.mpr ⟨user, step_locked_user hi.heldOnce h hw hne hlock huser, hstatus⟩

/-- A request that issues a token is the only one to do so for its user. -/
theorem issues_unique (hi : s.Sound) (hw : s.requests[j]? = some w) (hne : e ≠ .run j)
    (hissuing : w.issuing = some (userId, kind)) (hissues : s.issues e token) :
    token.userId ≠ userId := by
  rintro rfl
  rcases hissues with ⟨-, hlength, -⟩ | ⟨i, t, held, rfl, ht, hs⟩
  · have hlt := exists_of_status (hi.issuing j w hw _ _ hissuing)
    rw [hlength] at hlt
    exact absurd hlt (Nat.lt_irrefl _)
  · have heq := hi.heldOnce i j t w token.userId ht hw (by rw [Request.lockedUser, hs]; rfl)
      (Request.lockedUser_of_issuing hissuing)
    exact hne (heq ▸ rfl)

/-- A user is pending until a verification is committed. -/
theorem pending_step (hi : s.Sound) (h : s.step e = some s')
    (hpending : s.hasStatus userId .pending) :
    s'.hasStatus userId .pending ∨ ∃ i t id, e = .run i ∧ s.requests[i]? = some t ∧
      t.stage = .commitVerification id userId := by
  obtain ⟨user, huser, hstatus⟩ := hasStatus_iff.mp hpending
  obtain ⟨user', hsome, rfl | ⟨i, t, f, rfl, ht, hupdate, hnew, -⟩⟩ := step_user_of h huser
  · exact .inl (hasStatus_iff.mpr ⟨_, hsome, hstatus⟩)
  · cases hs : t.stage with
    | commitVerification id =>
      simp only [Request.userUpdate, hs, Option.some.injEq, Prod.mk.injEq] at hupdate
      exact .inr ⟨i, t, id, rfl, ht, by rw [hs, hupdate.1]⟩
    | requestDeletion | cancelDeletion =>
      simp only [Request.userUpdate, hs, Option.some.injEq, Prod.mk.injEq] at hupdate
      obtain ⟨user', huser', hnot⟩ :=
        hi.checked i t ht userId (by rw [Request.checked, hs, hupdate.1])
      obtain rfl := Option.some.inj (huser.symm.trans huser')
      exact absurd hstatus hnot
    | setStatus =>
      simp only [Request.userUpdate, hs, Option.some.injEq, Prod.mk.injEq] at hupdate
      rw [← hupdate.2] at hnew
      simp only [hstatus, reduceCtorEq, or_self, if_false] at hnew
      exact .inl (hasStatus_iff.mpr ⟨_, hsome, by rw [hnew, hstatus]⟩)
    | anonymize =>
      simp only [Request.userUpdate, hs, Option.some.injEq, Prod.mk.injEq] at hupdate
      obtain ⟨user', huser', hdue⟩ :=
        hasStatus_iff.mp (hi.due i t ht userId (by rw [Request.due, hs, hupdate.1]))
      obtain rfl := Option.some.inj (huser.symm.trans huser')
      rw [hstatus] at hdue
      cases hdue
    | _ => simp [Request.userUpdate, hs] at hupdate

/-- A token that is used is live, and is consumed when it is applied. -/
theorem consumes_applied (hi : s.Sound) (ht : s.requests[i]? = some t) (hid : id ∈ t.applied) :
    id ∈ t.consumed ∧ ∃ token, s.tokens[id]? = some token ∧ token.isLive := by
  cases hs : t.stage with
  | commitVerification tokenId userId =>
    obtain rfl : id = tokenId := by simpa [Request.applied, hs] using hid
    obtain ⟨-, token, hrow, hlive, -⟩ := hi.uses i t ht id _ _ (by rw [Request.uses, hs])
    exact ⟨by simp [Request.consumed, hs], token, hrow, hlive⟩
  | commitTokens job held =>
    cases job with
    | queueEmail => simp [Request.applied, hs] at hid
    | resetPassword userId tokenId =>
      obtain rfl : id = tokenId := by simpa [Request.applied, hs] using hid
      obtain ⟨hlock, token, hrow, hlive, -⟩ := hi.uses i t ht id _ _ (by rw [Request.uses, hs])
      exact ⟨by simpa [Request.consumed, Request.lockedTokens, hs] using hlock, token, hrow, hlive⟩
  | _ => simp [Request.applied, hs] at hid

theorem step_single (hi : s.Sound) (h : s.step e = some s') : s'.HasSingleTokens := by
  -- a new token, and one that is live before and after it has been issued
  have hnew {i : TokenId} {a b : AccountToken} (ha : s.tokens[i]? = some a)
      (ha' : s'.tokens[i]? = some a) (hlive : a.isLive) (huser : a.userId = b.userId)
      (hkind : a.kind = b.kind) (hissues : s.issues e b) : False := by
    rcases hissues with ⟨-, hlength, -⟩ | ⟨n, t, held, rfl, ht, hs⟩
    · have hlt := hi.tokenUsers a (List.mem_of_getElem? ha)
      rw [huser, hlength] at hlt
      exact absurd hlt (Nat.lt_irrefl _)
    · have hheld := hi.found n t ht b.userId b.kind held (by rw [Request.issuing, hs])
        (by rw [Request.found, hs]) i a ha hlive huser hkind
      exact step_consumed h ht (by simpa only [Request.consumed, hs] using hheld)
        (List.getElem?_eq_some_iff.mp ha).1 ha' hlive
  intro i j a b ha hb hlivea hliveb huser hkind
  rcases step_live_token h ha hlivea with holda | ⟨hia, hissuesa⟩
  · rcases step_live_token h hb hliveb with holdb | ⟨-, hissuesb⟩
    · exact hi.single i j a b holda holdb hlivea hliveb huser hkind
    · exact (hnew holda ha hlivea huser hkind hissuesb).elim
  · rcases step_live_token h hb hliveb with holdb | ⟨hjb, -⟩
    · exact (hnew holdb hb hliveb huser.symm hkind.symm hissuesa).elim
    · exact hia.trans hjb.symm

theorem step_pending (hi : s.Sound) (h : s.step e = some s') (hrow : s'.tokens[id]? = some token)
    (hlive : token.isLive) (hkind : token.kind = .verifyEmail) :
    s'.hasStatus token.userId .pending := by
  rcases step_live_token h hrow hlive with hold | ⟨-, hissues⟩
  · have hpending := hi.pending token (List.mem_of_getElem? hold) hlive hkind
    rcases hi.pending_step h hpending with hstill | ⟨i, t, id', rfl, ht, hs⟩
    · exact hstill
    · -- the user has one token for this, which is the one that is consumed now
      obtain ⟨-, used, hused, hlive', hkind', huser'⟩ :=
        hi.uses i t ht id' _ _ (by rw [Request.uses, hs])
      have heq := hi.single id id' token used hold hused hlive hlive' huser'.symm
        (hkind.trans hkind'.symm)
      exact absurd hlive (step_consumed h ht (by simp [Request.consumed, hs, heq])
        (List.getElem?_eq_some_iff.mp hold).1 hrow)
  · rcases hissues with ⟨rfl, hlength, -⟩ | ⟨i, t, held, rfl, ht, hs⟩
    · cases h
      exact hasStatus_iff.mpr ⟨{}, by rw [hlength]; exact List.getElem?_concat_length, rfl⟩
    · have hpending := hi.issuing i t ht token.userId token.kind (by rw [Request.issuing, hs])
      rw [hkind] at hpending
      rcases hi.pending_step h hpending with hstill | ⟨i', t', id', heq, ht', hs'⟩
      · exact hstill
      · cases heq
        obtain rfl := Option.some.inj (ht.symm.trans ht')
        rw [hs] at hs'
        cases hs'

theorem step_applied (hi : s.Sound) (h : s.step e = some s') :
    (∀ id ∈ s'.applied, ∃ token, s'.tokens[id]? = some token ∧ ¬token.isLive) ∧
      s'.applied.Nodup := by
  have hold {id : TokenId} (hid : id ∈ s.applied) :
      ∃ token, s'.tokens[id]? = some token ∧ ¬token.isLive := by
    obtain ⟨token, hrow, hdead⟩ := hi.applied id hid
    obtain ⟨token', hrow', -, -, hsame⟩ := step_token_of h hrow
    exact ⟨token', hrow', fun hlive => hdead (hsame hlive ▸ hlive)⟩
  by_cases hrun : ∃ i, e = .run i
  · obtain ⟨i, rfl⟩ := hrun
    obtain ⟨t, stage, ht, -, hs'⟩ := run_cases h
    have happlied : s'.applied = t.applied ++ s.applied := by rw [hs']; rfl
    rw [happlied]
    constructor
    · intro id hid
      rcases List.mem_append.mp hid with hnew | hid
      · obtain ⟨hconsumed, token, hrow, -⟩ := hi.consumes_applied ht hnew
        obtain ⟨token', hrow', -⟩ := step_token_of h hrow
        exact ⟨token', hrow', step_consumed h ht hconsumed
          (List.getElem?_eq_some_iff.mp hrow).1 hrow'⟩
      · exact hold hid
    · have hsingle : t.applied.Nodup := by
        unfold Request.applied
        split <;> simp
      refine List.nodup_append.mpr ⟨hsingle, hi.nodup, ?_⟩
      rintro id hid _ hid' rfl
      obtain ⟨-, token, hrow, hlive⟩ := hi.consumes_applied ht hid
      obtain ⟨token', hrow', hdead⟩ := hi.applied id hid'
      obtain rfl := Option.some.inj (hrow.symm.trans hrow')
      exact hdead hlive
  · have happlied : s'.applied = s.applied := by
      cases e with
      | run i => exact absurd ⟨i, rfl⟩ hrun
      | abort i message =>
        obtain ⟨t, -, rfl⟩ := abort_cases h
        rfl
      | request | changeRole =>
        simp only [System.step] at h
        split at h
        · cases h
          rfl
        · cases h
      | register | removeMember | wait =>
        cases h
        rfl
    rw [happlied]
    exact ⟨fun id => hold, hi.nodup⟩

theorem step (hi : s.Sound) (h : s.step e = some s') : s'.Sound where
  heldOnce := heldOnce_step hi.heldOnce h
  exclusive := exclusive_step hi.exclusive h
  tokenUsers token htoken := by
    obtain ⟨id, hrow⟩ := List.mem_iff_getElem?.mp htoken
    have hle := step_users_length h
    rcases step_token h hrow with hold | ⟨-, -, hissues⟩ | ⟨i, t, old, -, -, hold, huser, -⟩
    · exact Nat.lt_of_lt_of_le (hi.tokenUsers token (List.mem_of_getElem? hold)) hle
    · rcases hissues with ⟨rfl, hlength, -⟩ | ⟨i, t, held, rfl, ht, hs⟩
      · cases h
        simp [register, hlength]
      · exact Nat.lt_of_lt_of_le (exists_of_status (hi.issuing i t ht _ _
          (by rw [Request.issuing, hs]))) hle
    · rw [huser]
      exact Nat.lt_of_lt_of_le (hi.tokenUsers old (List.mem_of_getElem? hold)) hle
  single := hi.step_single h
  pending token htoken hlive hkind := by
    obtain ⟨id, hrow⟩ := List.mem_iff_getElem?.mp htoken
    exact hi.step_pending h hrow hlive hkind
  uses j w hw id kind userId huses := by
    rcases step_request h hw with ⟨hold, hne⟩ | hidle | ⟨t, stage, -, ht, rfl, hnext, hsame⟩
    · obtain ⟨hlock, token, hrow, hused⟩ := hi.uses j w hold id kind userId huses
      exact ⟨hlock, token, step_locked_token hi.exclusive h hold hne hlock hrow, hused⟩
    · rw [(Request.found_nothing hidle).1] at huses
      cases huses
    · rw [hsame]
      rcases next_uses hnext huses with ⟨hold, hlock⟩ | ⟨token, hrow, hlive, hkind, huser, hlock⟩
      · obtain ⟨hheld, hrow⟩ := hi.uses j t ht id kind userId hold
        exact ⟨hlock hheld, hrow⟩
      · exact ⟨hlock, token, hrow, hlive, hkind, huser⟩
  issuing j w hw userId kind hissuing := by
    rcases step_request h hw with ⟨hold, hne⟩ | hidle | ⟨t, stage, -, ht, rfl, hnext, hsame⟩
    · exact hi.status_locked h hold hne (Request.lockedUser_of_issuing hissuing)
        (hi.issuing j w hold userId kind hissuing)
    · rw [(Request.found_nothing hidle).2.1] at hissuing
      cases hissuing
    · rw [hsame]
      rcases next_issuing hnext hissuing with hold | hstatus
      · exact hi.issuing j t ht userId kind hold
      · exact hstatus
  found j w hw userId kind ids hissuing hfound id token hrow hlive huser hkind := by
    rcases step_request h hw with ⟨hold, hne⟩ | hidle | ⟨t, stage, -, ht, rfl, hnext, hsame⟩
    · rcases step_live_token h hrow hlive with hrow' | ⟨-, hissues⟩
      · exact hi.found j w hold userId kind ids hissuing hfound id token hrow' hlive huser hkind
      · exact absurd huser (hi.issues_unique hold hne hissuing hissues)
    · rw [(Request.found_nothing hidle).2.1] at hissuing
      cases hissuing
    · rw [hsame] at hrow
      exact next_found hnext hissuing hfound (hi.found j t ht userId kind) hrow hlive huser hkind
  checked j w hw userId hchecked := by
    rcases step_request h hw with ⟨hold, -⟩ | hidle | ⟨t, stage, -, ht, rfl, hnext, hsame⟩
    · obtain ⟨user, huser, hnot⟩ := hi.checked j w hold userId hchecked
      obtain ⟨user', huser', rfl | ⟨i, t, f, -, -, hupdate, rfl, -⟩⟩ := step_user_of h huser
      · exact ⟨_, huser', hnot⟩
      · exact ⟨_, huser', userUpdate_not_pending hupdate hnot⟩
    · rw [(Request.found_nothing hidle).2.2.2.1] at hchecked
      cases hchecked
    · rw [hsame]
      rcases next_checked hnext hchecked with hold | hstatus | hstatus
      · exact hi.checked j t ht userId hold
      all_goals
        obtain ⟨user, huser, hstatus⟩ := hasStatus_iff.mp hstatus
        exact ⟨user, huser, fun heq => by rw [hstatus] at heq; cases heq⟩
  due j w hw userId hdue := by
    rcases step_request h hw with ⟨hold, hne⟩ | hidle | ⟨t, stage, -, ht, rfl, hnext, hsame⟩
    · exact hi.status_locked h hold hne (Request.lockedUser_of_due hdue)
        (hi.due j w hold userId hdue)
    · rw [(Request.found_nothing hidle).2.2.2.2] at hdue
      cases hdue
    · rw [hsame]
      rcases next_due hnext hdue with hold | hstatus
      · exact hi.due j t ht userId hold
      · exact hstatus
  applied := (hi.step_applied h).1
  nodup := (hi.step_applied h).2

/-- A verification that is committed next finds its user pending. -/
theorem verified_pending (hi : s.Sound) (ht : s.requests[i]? = some t) {id : TokenId}
    (hs : t.stage = .commitVerification id userId) : s.hasStatus userId .pending := by
  obtain ⟨-, token, hrow, hlive, hkind, huser⟩ := hi.uses i t ht id _ _ (by rw [Request.uses, hs])
  exact huser ▸ hi.pending token (List.mem_of_getElem? hrow) hlive hkind

theorem run {start : System} (hi : start.Sound) (h : Run (Stepping System.step) start es s) :
    s.Sound :=
  h.invariant (fun _ _ _ hi hstep => hi.step hstep) hi

end Sound

end System

/-- Each user has at most one token of a kind that can be used, each token has its effect at most
once, and a verification that is committed next finds its user pending. -/
theorem tokens_single {start : System} (hstart : start.IsFresh)
    (h : Run (Stepping System.step) start es s) :
    s.HasSingleTokens ∧ s.applied.Nodup ∧
    ∀ (i : Nat) (t : Request) (id : TokenId) (userId : UserId),
      s.requests[i]? = some t → t.stage = .commitVerification id userId →
      s.hasStatus userId .pending := by
  have hi := hstart.sound.run h
  exact ⟨hi.single, hi.nodup, fun i t id userId ht hs => hi.verified_pending ht hs⟩

/-- A user is sent a second token, and is verified and changes the password with a third one. -/
def verified : List Event := List.flatten [
  [.register, .request (.selectUser 0 .verifyEmail), .request (.selectToken 0 .verifyEmail)],
  List.replicate 5 (.run 0), [.run 1],
  [.request (.selectToken 1 .verifyEmail)], List.replicate 4 (.run 2),
  [.request (.selectUser 0 .resetPassword)], List.replicate 4 (.run 3),
  [.request (.selectToken 2 .resetPassword)], List.replicate 6 (.run 4)]

theorem verified_enabled : (exec System.step {} verified).isSome := by decide +kernel

theorem tokens_single_verified :
    ((exec System.step {} verified).get verified_enabled).HasSingleTokens ∧
      ((exec System.step {} verified).get verified_enabled).applied.Nodup ∧
      ∀ (i : Nat) (t : Request) (id : TokenId) (userId : UserId),
        ((exec System.step {} verified).get verified_enabled).requests[i]? = some t →
        t.stage = .commitVerification id userId →
        ((exec System.step {} verified).get verified_enabled).hasStatus userId .pending :=
  tokens_single ⟨rfl, rfl, rfl⟩ (Run.of_exec_get verified_enabled)

end Tonatiuh.Accounts
