import Tonatiuh.Accounts.Status

/-! The last active administrator of the platform.

`DELETE /me` looks for another administrator before the query that changes the account, and `PATCH
/users/:id/status` refuses only the administrator's own account. Of two administrators who act at
once, each relies on the other. -/

namespace Tonatiuh.Accounts

open Retention (UserId User UserStatus Platform)
open Transition

variable {s s' : System} {t : Request} {i : Nat} {userId : UserId} {user : User} {e : Event}

/-- An active administrator of the platform. -/
def isActiveAdmin (user : User) : Bool := user.isAdmin && user.status = .active

theorem isActiveAdmin_iff : isActiveAdmin user ↔ user.isAdmin ∧ user.status = .active := by
  simp only [isActiveAdmin, Bool.and_eq_true, decide_eq_true_eq]

namespace System

def HasAdmin (s : System) : Prop := ∃ user ∈ s.users, isActiveAdmin user

instance : Decidable s.HasAdmin :=
  inferInstanceAs (Decidable (∃ user ∈ s.users, isActiveAdmin user))

/-- The condition: an active administrator requests a deletion, or is suspended, while another one
is active. -/
def keepsAdmin (s : System) : Event → Bool
  | .run i => s.requests[i]?.all fun t =>
    match t.stage with
    | .requestDeletion userId _ | .setStatus userId true =>
      s.users[userId]?.all (fun user => !isActiveAdmin user) || s.platform.hasOtherAdmin userId
    | _ => true
  | _ => true

theorem hasOtherAdmin_iff : s.platform.hasOtherAdmin userId ↔
    ∃ (id : UserId) (user : User), id ≠ userId ∧ s.users[id]? = some user ∧ isActiveAdmin user := by
  simp only [Platform.hasOtherAdmin, platform, List.any_eq_true, Prod.exists,
    List.mem_zipIdx_iff_getElem?, Bool.and_eq_true, decide_eq_true_eq, isActiveAdmin_iff]
  constructor
  · rintro ⟨user, id, huser, ⟨hne, hadmin⟩, hstatus⟩
    exact ⟨id, user, hne, huser, hadmin, hstatus⟩
  · rintro ⟨id, user, hne, huser, hadmin, hstatus⟩
    exact ⟨user, id, huser, ⟨hne, hadmin⟩, hstatus⟩

/-- The query ends the role of an active administrator: it is the update of `DELETE /me`, or a
suspension. -/
theorem Sound.update_admin (hi : s.Sound) {f : User → User} (ht : s.requests[i]? = some t)
    (hupdate : t.userUpdate = some (userId, f)) (huser : s.users[userId]? = some user)
    (hadmin : isActiveAdmin user) :
    isActiveAdmin (f user) ∨ (∃ now, t.stage = .requestDeletion userId now) ∨
      t.stage = .setStatus userId true := by
  obtain ⟨hrole, hactive⟩ := isActiveAdmin_iff.mp hadmin
  cases hs : t.stage with
  | commitVerification | cancelDeletion =>
    simp only [Request.userUpdate, hs, Option.some.injEq, Prod.mk.injEq] at hupdate
    obtain ⟨rfl, rfl⟩ := hupdate
    exact .inl (isActiveAdmin_iff.mpr ⟨hrole, rfl⟩)
  | requestDeletion _ now =>
    simp only [Request.userUpdate, hs, Option.some.injEq, Prod.mk.injEq] at hupdate
    exact .inr (.inl ⟨now, by rw [hupdate.1]⟩)
  | setStatus target isSuspended =>
    simp only [Request.userUpdate, hs, Option.some.injEq, Prod.mk.injEq] at hupdate
    obtain ⟨rfl, rfl⟩ := hupdate
    cases isSuspended with
    | false =>
      left
      simp [isActiveAdmin_iff, hrole, hactive]
    | true => exact .inr (.inr rfl)
  | anonymize =>
    simp only [Request.userUpdate, hs, Option.some.injEq, Prod.mk.injEq] at hupdate
    obtain ⟨found, hfound, hdue⟩ :=
      hasStatus_iff.mp (hi.due i t ht userId (by rw [Request.due, hs, hupdate.1]))
    obtain rfl := Option.some.inj (huser.symm.trans hfound)
    rw [hactive] at hdue
    cases hdue
  | _ => simp [Request.userUpdate, hs] at hupdate

theorem Sound.hasAdmin (hi : s.Sound) (h : s.step e = some s') (hadmin : s.HasAdmin)
    (hkeeps : s.keepsAdmin e) : s'.HasAdmin := by
  obtain ⟨user, hmem, hactive⟩ := hadmin
  obtain ⟨userId, huser⟩ := List.mem_iff_getElem?.mp hmem
  obtain ⟨user', huser', rfl | ⟨i, t, f, rfl, ht, hupdate, rfl, -⟩⟩ := step_user_of h huser
  · exact ⟨_, List.mem_of_getElem? huser', hactive⟩
  rcases hi.update_admin ht hupdate huser hactive with hstill | hends
  · exact ⟨_, List.mem_of_getElem? huser', hstill⟩
  have hother : s.platform.hasOtherAdmin userId := by
    have hkeeps := (Option.all_eq_true _ _).mp hkeeps t ht
    rcases hends with ⟨_, hs⟩ | hs
    all_goals simpa [hs, huser, hactive] using hkeeps
  -- the row of another administrator is not the one that is updated
  obtain ⟨other, admin, hne, hrow, hadmin⟩ := hasOtherAdmin_iff.mp hother
  obtain ⟨admin', hrow', rfl | ⟨i', t', f', he, ht', hupdate', -⟩⟩ := step_user_of h hrow
  · exact ⟨_, List.mem_of_getElem? hrow', hadmin⟩
  · cases he
    obtain rfl := Option.some.inj (ht.symm.trans ht')
    rw [hupdate] at hupdate'
    cases hupdate'
    exact absurd rfl hne

theorem keepsAdmin_of_hasAdmin (h : s.step e = some s') (hadmin : s'.HasAdmin) :
    s.keepsAdmin e := by
  cases e with
  | run i =>
    refine (Option.all_eq_true _ _).mpr fun t ht => ?_
    -- of the users that an update makes inactive, none is the administrator that is left
    have hother {userId : UserId} {f : User → User} (hupdate : t.userUpdate = some (userId, f))
        (hf : ∀ user, isActiveAdmin user → ¬isActiveAdmin (f user)) :
        s.users[userId]?.all (fun user => !isActiveAdmin user) ||
          s.platform.hasOtherAdmin userId := by
      cases huser : s.users[userId]? with
      | none => rfl
      | some user =>
        by_cases hactive : isActiveAdmin user
        · obtain ⟨other, hmem, hremains⟩ := hadmin
          obtain ⟨id, hid⟩ := List.mem_iff_getElem?.mp hmem
          have hne : id ≠ userId := by
            rintro rfl
            rw [run_user h ht hupdate huser] at hid
            cases hid
            exact hf user hactive hremains
          rcases step_user h hid with hold | ⟨-, rfl⟩ | ⟨i', t', f', old, he, ht', hupdate', -⟩
          · rw [hasOtherAdmin_iff.mpr ⟨id, other, hne, hold, hremains⟩, Bool.or_true]
          · cases hremains
          · cases he
            obtain rfl := Option.some.inj (ht.symm.trans ht')
            rw [hupdate] at hupdate'
            cases hupdate'
            exact absurd rfl hne
        · simp [hactive]
    cases hs : t.stage with
    | requestDeletion =>
      exact hother (by rw [Request.userUpdate, hs]) fun _ _ h => by simp [isActiveAdmin] at h
    | setStatus target isSuspended =>
      cases isSuspended with
      | true =>
        refine hother (by rw [Request.userUpdate, hs]) fun user hactive h => ?_
        rw [if_pos (.inl (isActiveAdmin_iff.mp hactive).2)] at h
        simp [isActiveAdmin] at h
      | false => rfl
    | _ => rfl
  | _ => rfl

end System

/-- In every run from an active administrator on, there is one after each step if and only if each
deletion of an active administrator is requested, and each is suspended, while another one is
active. -/
theorem admin_remains {start : System} (hstart : start.IsFresh) (hadmin : start.HasAdmin) :
    Run (Meeting (Stepping System.step) fun s e _ => s.keepsAdmin e) start es s ↔
      Run (Meeting (Stepping System.step) fun _ _ s' => s'.HasAdmin) start es s := by
  constructor
  · intro h
    exact h.mono_invariant (I := fun s => s.Sound ∧ s.HasAdmin) (fun _ _ _ hi ⟨hstep, hkeeps⟩ =>
      have hadmin := hi.1.hasAdmin hstep hi.2 hkeeps
      ⟨⟨hstep, hadmin⟩, hi.1.step hstep, hadmin⟩) ⟨hstart.sound, hadmin⟩
  · intro h
    exact h.mono fun _ _ _ ⟨hstep, hadmin⟩ => ⟨hstep, System.keepsAdmin_of_hasAdmin hstep hadmin⟩

/-- Two users, who are administrators. -/
def twoAdmins : System := { users := List.replicate 2 { status := .active, isAdmin := true } }

/-- One suspends the other and undoes it, and requests the deletion of the own account. -/
def replaced : List Event :=
  [.request (.requireAdmin 0 1 true), .run 0, .run 0, .request (.requireAdmin 0 1 false),
    .run 1, .run 1, .request (.selectAccount 0 true), .run 2, .run 2, .run 2, .run 2, .run 2]

theorem replaced_enabled :
    (execWhere System.step (fun s e => s.keepsAdmin e) twoAdmins replaced).isSome := by
  decide +kernel

theorem admin_remains_replaced :
    Run (Meeting (Stepping System.step) fun _ _ s' => s'.HasAdmin) twoAdmins replaced
      ((execWhere System.step (fun s e => s.keepsAdmin e) twoAdmins replaced).get
        replaced_enabled) :=
  (admin_remains ⟨rfl, rfl, rfl⟩ (by decide)).mp (Run.of_execWhere_get replaced_enabled)

/-- Both look for another administrator before one of them requests the deletion. -/
def deletedBoth : List Event :=
  .request (.selectAccount 0 true) :: .request (.selectAccount 1 true) ::
    [.run 0, .run 1, .run 0, .run 1, .run 0, .run 1, .run 0, .run 1, .run 0]

theorem admin_not_remains : ∃ s s', Run (Stepping System.step) twoAdmins deletedBoth s ∧
    s.step (.run 1) = some s' ∧ twoAdmins.HasAdmin ∧ ¬s'.HasAdmin :=
  Run.exists_step (by decide +kernel)

end Tonatiuh.Accounts
