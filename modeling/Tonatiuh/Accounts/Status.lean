import Tonatiuh.Accounts.Tokens

/-! The status of a user.

`DELETE /me` and `POST /cancel-deletion` look at the status in a query of its own, and their updates
name the user only. An update that comes after the worker has deleted the account, or after an
administrator has suspended it, leaves the edges of the status machine. -/

namespace Tonatiuh.Accounts

open Retention (UserId User UserStatus)
open Transition

variable {s s' : System} {t : Request} {i : Nat} {userId : UserId} {user user' : User} {e : Event}

/-- The edges of the status machine. -/
def isEdge : UserStatus → UserStatus → Bool
  | .pending, .active | .active, .suspended | .suspended, .active | .active, .deletionPending
  | .deletionPending, .active | .deletionPending, .deleted => true
  | _, _ => false

namespace System

/-- The next query is the one of an administrator that changes a status. -/
def isAdministrators (s : System) : Event → Bool
  | .run i => s.requests[i]?.any fun t =>
    match t.stage with
    | .setStatus .. => true
    | _ => false
  | _ => false

/-- Users are not removed, and the status of a user changes along an edge. A suspension is undone by
an administrator. -/
def Follows (s : System) (e : Event) (s' : System) : Prop :=
  ∀ (userId : UserId) (user : User), s.users[userId]? = some user →
    ∃ user', s'.users[userId]? = some user' ∧ (user'.status = user.status ∨
      isEdge user.status user'.status ∧ (user.status = .suspended → s.isAdministrators e))

/-- The condition: the update of `DELETE /me` or `POST /cancel-deletion` is executed while the user
is active or deletion-pending. -/
def keepsStatus (s : System) : Event → Bool
  | .run i => s.requests[i]?.all fun t =>
    match t.stage with
    | .requestDeletion userId _ | .cancelDeletion userId =>
      s.hasStatus userId .active || s.hasStatus userId .deletionPending
    | _ => true
  | _ => true

/-- The row that the next query updates, after it. -/
theorem run_user {f : User → User} (h : s.step (.run i) = some s') (ht : s.requests[i]? = some t)
    (hupdate : t.userUpdate = some (userId, f)) (huser : s.users[userId]? = some user) :
    s'.users[userId]? = some (f user) := by
  obtain ⟨t', stage, ht', -, rfl⟩ := run_cases h
  obtain rfl := Option.some.inj (ht.symm.trans ht')
  simp only [commit, hupdate, List.getElem?_modify_eq, huser]
  rfl

theorem Sound.follows (hi : s.Sound) (h : s.step e = some s') (hkeeps : s.keepsStatus e) :
    s.Follows e s' := by
  intro userId user huser
  obtain ⟨user', huser', rfl | ⟨i, t, f, rfl, ht, hupdate, rfl, -⟩⟩ := step_user_of h huser
  · exact ⟨_, huser', .inl rfl⟩
  · refine ⟨_, huser', ?_⟩
    have hkeeps := (Option.all_eq_true _ _).mp hkeeps t ht
    -- the status that the request has found is the one of this row
    have hfound {status : UserStatus} (h : s.hasStatus userId status) : user.status = status := by
      obtain ⟨found, hfound, hstatus⟩ := hasStatus_iff.mp h
      obtain rfl := Option.some.inj (huser.symm.trans hfound)
      exact hstatus
    cases hs : t.stage with
    | commitVerification id =>
      simp only [Request.userUpdate, hs, Option.some.injEq, Prod.mk.injEq] at hupdate
      obtain ⟨rfl, rfl⟩ := hupdate
      rw [hfound (hi.verified_pending ht hs)]
      exact .inr ⟨rfl, fun hsuspended => by cases hsuspended⟩
    | requestDeletion | cancelDeletion =>
      simp only [Request.userUpdate, hs, Option.some.injEq, Prod.mk.injEq] at hupdate
      obtain ⟨rfl, rfl⟩ := hupdate
      simp only [hs, Bool.or_eq_true] at hkeeps
      rcases hkeeps with hactive | hpending
      · rw [hfound hactive]
        first
          | exact .inl rfl
          | exact .inr ⟨rfl, fun hsuspended => by cases hsuspended⟩
      · rw [hfound hpending]
        first
          | exact .inl rfl
          | exact .inr ⟨rfl, fun hsuspended => by cases hsuspended⟩
    | setStatus target isSuspended =>
      simp only [Request.userUpdate, hs, Option.some.injEq, Prod.mk.injEq] at hupdate
      obtain ⟨rfl, rfl⟩ := hupdate
      have hadmin : s.isAdministrators (.run i) := by simp [isAdministrators, ht, hs]
      simp only
      split
      next hstatus =>
        rcases hstatus with hactive | hsuspended
        · rw [hactive]
          cases isSuspended
          · exact .inl rfl
          · exact .inr ⟨rfl, fun hsuspended => by cases hsuspended⟩
        · rw [hsuspended]
          cases isSuspended
          · exact .inr ⟨rfl, fun _ => hadmin⟩
          · exact .inl rfl
      next => exact .inl rfl
    | anonymize =>
      simp only [Request.userUpdate, hs, Option.some.injEq, Prod.mk.injEq] at hupdate
      obtain ⟨rfl, rfl⟩ := hupdate
      rw [hfound (hi.due i t ht _ (by rw [Request.due, hs]))]
      exact .inr ⟨rfl, fun hsuspended => by cases hsuspended⟩
    | _ => simp [Request.userUpdate, hs] at hupdate

theorem Sound.keepsStatus (hi : s.Sound) (h : s.step e = some s') (hfollows : s.Follows e s') :
    s.keepsStatus e := by
  cases e with
  | run i =>
    refine (Option.all_eq_true _ _).mpr fun t ht => ?_
    cases hs : t.stage with
    | requestDeletion userId now =>
      obtain ⟨user, huser, -⟩ := hi.checked i t ht userId (by rw [Request.checked, hs])
      obtain ⟨user', huser', hstatus⟩ := hfollows userId user huser
      rw [run_user h ht (by rw [Request.userUpdate, hs]) huser] at huser'
      cases huser'
      simp only [hasStatus, huser, Option.any_some]
      cases hold : user.status <;> simp_all [isEdge]
    | cancelDeletion userId =>
      obtain ⟨user, huser, hnot⟩ := hi.checked i t ht userId (by rw [Request.checked, hs])
      obtain ⟨user', huser', hstatus⟩ := hfollows userId user huser
      rw [run_user h ht (by rw [Request.userUpdate, hs]) huser] at huser'
      cases huser'
      simp only [hasStatus, huser, Option.any_some]
      cases hold : user.status <;> simp_all [isEdge, isAdministrators]
    | _ => rfl
  | _ => rfl

end System

/-- In every run, the status of each user follows the edges if and only if each deletion is
requested, and each is cancelled, while the user is active or deletion-pending. -/
theorem status_follows {start : System} (hstart : start.IsFresh) :
    Run (Meeting (Stepping System.step) fun s e _ => s.keepsStatus e) start es s ↔
      Run (Meeting (Stepping System.step) System.Follows) start es s := by
  constructor
  · intro h
    exact h.mono_invariant (I := System.Sound) (fun _ _ _ hi ⟨hstep, hkeeps⟩ =>
      ⟨⟨hstep, hi.follows hstep hkeeps⟩, hi.step hstep⟩) hstart.sound
  · intro h
    exact h.mono_invariant (I := System.Sound) (fun _ _ _ hi ⟨hstep, hfollows⟩ =>
      ⟨⟨hstep, hi.keepsStatus hstep hfollows⟩, hi.step hstep⟩) hstart.sound

/-- One user, who is an administrator. -/
def administrated : System := { users := [{ status := .active, isAdmin := true }] }

/-- A user is verified and suspended, an administrator undoes it, and the user requests a deletion,
cancels it, and requests it again. -/
def followed : List Event := List.flatten [
  [.register, .request (.selectToken 0 .verifyEmail), .request (.requireAdmin 0 1 true)],
  List.replicate 4 (.run 0), List.replicate 2 (.run 1),
  [.request (.requireAdmin 0 1 false)], List.replicate 2 (.run 2),
  [.request (.selectAccount 1 true)], List.replicate 4 (.run 3),
  [.request (.selectPending 1 true)], List.replicate 2 (.run 4),
  [.request (.selectAccount 1 true)], List.replicate 4 (.run 5),
  [.wait Retention.Platform.retention, .request (.selectDue 1)], List.replicate 3 (.run 6)]

theorem followed_enabled :
    (execWhere System.step (fun s e => s.keepsStatus e) administrated followed).isSome := by
  decide +kernel

theorem status_follows_followed :
    Run (Meeting (Stepping System.step) System.Follows) administrated followed
      ((execWhere System.step (fun s e => s.keepsStatus e) administrated followed).get
        followed_enabled) :=
  (status_follows ⟨rfl, rfl, rfl⟩).mp (Run.of_execWhere_get followed_enabled)

/-- The deletion is cancelled thirty days later, and between the two queries of this the account is
deleted. -/
def cancelledLate : List Event :=
  .request (.selectAccount 0 true) :: List.replicate 4 (.run 0) ++
    [.wait Retention.Platform.retention, .request (.selectPending 0 true), .run 1,
      .request (.selectDue 0), .run 2, .run 2, .run 2]

theorem deleted_not_final : ∃ s s',
    Run (Stepping System.step) { users := [{ status := .active }] } cancelledLate s ∧
      s.step (.run 1) = some s' ∧ s.hasStatus 0 .deleted ∧ s'.hasStatus 0 .active :=
  Run.exists_step (by decide +kernel)

end Tonatiuh.Accounts
