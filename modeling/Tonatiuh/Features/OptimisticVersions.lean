import Tonatiuh.Features.Flags
import Tonatiuh.Transition.Run

/-! The optimistic versions of feature flags.

Each mutation that is committed is one step from the state that the last one has left
(`Mutation.apply`), as the lock of the row is held from the test of the version to the commit. The
others leave nothing behind. -/

namespace Tonatiuh.Features

open Tables Transition

variable {s s' start : System} {r r' : Request} {i : Nat} {e : Event} {m : Mutation} {key : String}
  {state after : FlagState}

/-- A mutation as one step. -/
def Mutation.apply (organizations : List OrganizationId) (m : Mutation) (state : FlagState) :
    Except Failure FlagState :=
  if state.flag.version = m.expectedVersion then
    match m.change with
    | .patch enabled rolloutPercentage =>
      .ok { state with
        flag := { enabled, rolloutPercentage, version := m.expectedVersion + 1,
                  updatedBy := some m.userId } }
    | .put organizationId enabled =>
      if organizationId ∈ organizations then
        .ok {
          flag := { state.flag with version := m.expectedVersion + 1, updatedBy := some m.userId }
          overrides := upsert Override.organizationId
            { organizationId, enabled, updatedBy := m.userId } state.overrides }
      else .error .organizationNotFound
    | .delete organizationId =>
      if state.overrides.any fun row => row.organizationId = organizationId then
        .ok {
          flag := { state.flag with version := m.expectedVersion + 1, updatedBy := some m.userId }
          overrides := state.overrides.filter fun row => row.organizationId ≠ organizationId }
      else .error .overrideNotFound
  else .error .versionConflict

theorem Mutation.apply_version {organizations : List OrganizationId}
    (h : m.apply organizations state = .ok after) :
    state.flag.version = m.expectedVersion ∧ after.flag.version = state.flag.version + 1 := by
  unfold apply at h
  split at h
  next hversion =>
    refine ⟨hversion, ?_⟩
    rw [hversion]
    split at h
    next =>
      cases h
      rfl
    all_goals
      split at h
      next =>
        cases h
        rfl
      next => cases h
  next => cases h

theorem Mutation.updateFlag_patch {enabled : Bool} {rolloutPercentage : Nat}
    (h : m.change = .patch enabled rolloutPercentage) (flag : Flag) : m.updateFlag flag =
      { enabled, rolloutPercentage, version := flag.version + 1, updatedBy := some m.userId } := by
  rw [updateFlag, h]

/-- The transactions about an override leave the rest of the flag as it is. -/
theorem Mutation.updateFlag_of_override
    (h : ∀ enabled rolloutPercentage, m.change ≠ .patch enabled rolloutPercentage)
    (flag : Flag) : m.updateFlag flag =
      { flag with version := flag.version + 1, updatedBy := some m.userId } := by
  cases hchange : m.change with
  | patch enabled rolloutPercentage => exact absurd hchange (h enabled rolloutPercentage)
  | put | delete => rw [updateFlag, hchange]

/-- What the transaction has written is what the mutation makes of the state that is there. -/
def Request.Based (s : System) (r : Request) : Prop :=
  match r.stage with
  | .selectOrganization flag =>
    ∃ state, s.flags r.mutation.key = some state ∧ state.flag.version = r.mutation.expectedVersion ∧
      flag = r.mutation.updateFlag state.flag
  | .writeOverride flag =>
    ∃ state, s.flags r.mutation.key = some state ∧ state.flag.version = r.mutation.expectedVersion ∧
      flag = r.mutation.updateFlag state.flag ∧
      ∀ organizationId enabled, r.mutation.change = .put organizationId enabled →
        organizationId ∈ s.organizations
  | .commit flag write =>
    ∃ state, s.flags r.mutation.key = some state ∧ r.mutation.apply s.organizations state =
      .ok { flag, overrides := write.elim state.overrides (·.apply state.overrides) }
  | _ => True

theorem Request.Based.congr (hb : r.Based s) (horganizations : s'.organizations = s.organizations)
    (hflags : r.lock = some r.mutation.key → s'.flags r.mutation.key = s.flags r.mutation.key) :
    r.Based s' := by
  have hkept (hlock : r.lock = some r.mutation.key) : s.flags r.mutation.key =
      s'.flags r.mutation.key :=
    (hflags hlock).symm
  unfold Based at hb ⊢
  cases hstage : r.stage with
  | selectOrganization =>
    rw [hstage] at hb
    rwa [← hkept (by rw [lock, hstage])]
  | writeOverride | commit =>
    rw [hstage] at hb
    rwa [← hkept (by rw [lock, hstage]), horganizations]
  | update | selectFlag | audit | ended | unaudited => trivial

namespace System

/-! ## Steps -/

/-- What a query other than `COMMIT` makes of its request. -/
structure Moves (s : System) (i : Nat) (r r' : Request) : Prop where
  mutation : r'.mutation = r.mutation
  lock : ∀ key, r'.lock = some key → r.lock = some key ∨ isFree Request.lock s.requests i key
  based : r.Based s → r'.Based s
  committed : r'.isCommitted = r.isCommitted

/-- The step of a request: its transaction is committed, or nothing changes for the others. -/
def Steps (s : System) (i : Nat) (r : Request) (s' : System) : Prop :=
  (∃ flag write, r.stage = .commit flag write ∧ s' = s.commit i r flag write) ∨
    ∃ r', s.Moves i r r' ∧ s'.requests = s.requests.set i r' ∧ s'.flags = s.flags ∧ s'.log = s.log ∧
      s'.organizations = s.organizations

/-- A request that ends before the commit. -/
theorem moves_ended (hcommitted : r.isCommitted = false) (failure : Failure) :
    s.Moves i r { r with stage := .ended (.error failure) } where
  mutation := rfl
  lock := nofun
  based _ := trivial
  committed := hcommitted.symm

theorem update_moves (hstage : r.stage = .update) (h : s.update i r = some s') :
    s.Steps i r s' := by
  have hcommitted : r.isCommitted = false := by rw [Request.isCommitted, hstage]
  simp only [update] at h
  split at h
  next =>
    cases h
    refine .inr ⟨_, ?_, rfl, rfl, rfl, rfl⟩
    split
    · exact ⟨rfl, nofun, fun _ => trivial, hcommitted.symm⟩
    all_goals exact moves_ended hcommitted _
  next state hfound =>
    rw [Option.filter_eq_some_iff, decide_eq_true_eq] at hfound
    obtain ⟨hfound, hversion⟩ := hfound
    split at h
    next hfree =>
      split at h
      next =>
        cases h
        refine .inr ⟨_, ?_, rfl, rfl, rfl, rfl⟩
        have hlock (key : String) (hkey : some r.mutation.key = some key) :
            r.lock = some key ∨ isFree Request.lock s.requests i key := by
          cases hkey
          exact .inr hfree
        split
        next hchange =>
          refine ⟨rfl, hlock, fun _ => ⟨state, hfound, ?_⟩, hcommitted.symm⟩
          simp only [Mutation.apply, hversion, if_true, hchange, Mutation.updateFlag_patch hchange]
          rfl
        next => exact ⟨rfl, hlock, fun _ => ⟨state, hfound, hversion, rfl⟩, hcommitted.symm⟩
        next hchange =>
          refine ⟨rfl, hlock, fun _ => ⟨state, hfound, hversion, rfl, ?_⟩, hcommitted.symm⟩
          intro organizationId enabled hput
          cases hchange.symm.trans hput
      next =>
        cases h
        exact .inr ⟨_, moves_ended hcommitted _, rfl, rfl, rfl, rfl⟩
    next => cases h

theorem selectOrganization_moves {flag : Flag} (hstage : r.stage = .selectOrganization flag)
    (h : s.selectOrganization i r flag = some s') : s.Steps i r s' := by
  have hcommitted : r.isCommitted = false := by rw [Request.isCommitted, hstage]
  simp only [selectOrganization] at h
  split at h
  next organizationId enabled hchange =>
    cases h
    refine .inr ⟨_, ?_, rfl, rfl, rfl, rfl⟩
    split
    next hmem =>
      refine ⟨rfl, fun key hkey => .inl ?_, fun hb => ?_, hcommitted.symm⟩
      · rwa [Request.lock, hstage]
      · simp only [Request.Based, hstage] at hb ⊢
        obtain ⟨state, hfound, hversion, hflag⟩ := hb
        refine ⟨state, hfound, hversion, hflag, fun organizationId' enabled' hput => ?_⟩
        cases hchange.symm.trans hput
        exact hmem
    next => exact moves_ended hcommitted _
  all_goals cases h

theorem writeOverride_moves {flag : Flag} (hstage : r.stage = .writeOverride flag)
    (h : s.writeOverride i r flag = some s') : s.Steps i r s' := by
  have hcommitted : r.isCommitted = false := by rw [Request.isCommitted, hstage]
  have hlock (key : String) (hkey : some r.mutation.key = some key) :
      r.lock = some key ∨ isFree Request.lock s.requests i key := by
    left
    rwa [Request.lock, hstage]
  simp only [writeOverride] at h
  split at h
  next organizationId enabled hchange =>
    cases h
    refine .inr ⟨{ r with stage := .commit flag _ },
      ⟨rfl, hlock, fun hb => ?_, hcommitted.symm⟩, rfl, rfl, rfl, rfl⟩
    simp only [Request.Based, hstage] at hb ⊢
    obtain ⟨state, hfound, hversion, rfl, hmem⟩ := hb
    refine ⟨state, hfound, ?_⟩
    have hflag :=
      r.mutation.updateFlag_of_override (fun _ _ h => by cases hchange.symm.trans h) state.flag
    simp only [Mutation.apply, hversion, if_true, hchange,
      hmem organizationId enabled hchange, hflag]
    rfl
  next organizationId hchange =>
    cases h
    refine .inr ⟨_, ?_, rfl, rfl, rfl, rfl⟩
    split
    next hany =>
      refine ⟨rfl, hlock, fun hb => ?_, hcommitted.symm⟩
      simp only [Request.Based, hstage] at hb ⊢
      obtain ⟨state, hfound, hversion, rfl, -⟩ := hb
      rw [hfound, Option.any_some] at hany
      refine ⟨state, hfound, ?_⟩
      have hflag :=
        r.mutation.updateFlag_of_override (fun _ _ h => by cases hchange.symm.trans h) state.flag
      simp only [Mutation.apply, hversion, if_true, hchange, hany, hflag]
      rfl
    next => exact moves_ended hcommitted _
  next => cases h

/-- What a step does: a request is new, or one of them goes on. -/
theorem step_cases (h : s.step e = some s') :
    (∃ mutation, s' = { s with requests := s.requests ++ [{ mutation }] }) ∨
      ∃ i r, s.requests[i]? = some r ∧ s.Steps i r s' := by
  cases e with
  | send mutation =>
    cases h
    exact .inl ⟨mutation, rfl⟩
  | run i =>
    obtain ⟨r, hr, h⟩ := Option.bind_eq_some_iff.mp h
    refine .inr ⟨i, r, hr, ?_⟩
    cases hstage : r.stage with
    | update =>
      rw [hstage] at h
      exact update_moves hstage h
    | selectFlag =>
      rw [hstage] at h
      cases h
      exact .inr ⟨_, moves_ended (by rw [Request.isCommitted, hstage]) _, rfl, rfl, rfl, rfl⟩
    | selectOrganization flag =>
      rw [hstage] at h
      exact selectOrganization_moves hstage h
    | writeOverride flag =>
      rw [hstage] at h
      exact writeOverride_moves hstage h
    | commit flag write =>
      rw [hstage] at h
      cases h
      exact .inl ⟨flag, write, hstage, rfl⟩
    | audit =>
      rw [hstage] at h
      cases h
      refine .inr ⟨{ r with stage := .ended (.ok _) }, ⟨rfl, nofun, fun _ => trivial, ?_⟩,
        rfl, rfl, rfl, rfl⟩
      rw [Request.isCommitted, Request.isCommitted, hstage]
    | ended | unaudited =>
      rw [hstage] at h
      cases h
  | fail i =>
    obtain ⟨r, hr, h⟩ := Option.bind_eq_some_iff.mp h
    refine .inr ⟨i, r, hr, .inr ?_⟩
    cases hstage : r.stage with
    | update | selectFlag | selectOrganization | writeOverride | commit =>
      rw [hstage] at h
      cases h
      exact ⟨_, moves_ended (by rw [Request.isCommitted, hstage]) _, rfl, rfl, rfl, rfl⟩
    | audit =>
      rw [hstage] at h
      cases h
      refine ⟨{ r with stage := .unaudited }, ⟨rfl, nofun, fun _ => trivial, ?_⟩, rfl,
        rfl, rfl, rfl⟩
      rw [Request.isCommitted, Request.isCommitted, hstage]
    | ended | unaudited =>
      rw [hstage] at h
      cases h

/-! ## Invariant -/

/-- The mutations of a flag that are committed, in the order of the commits. -/
def history (s : System) (key : String) : List Mutation :=
  (s.log.map Prod.snd).filter fun m => m.key = key

/-- A step that is no commit changes no flag, and a commit applies its mutation to the state that is
there. -/
def Serializes (s s' : System) : Prop :=
  (s'.flags = s.flags ∧ s'.log = s.log) ∨
    ∃ i m state after, s.flags m.key = some state ∧ m.apply s.organizations state = .ok after ∧
      s'.flags = Function.update s.flags m.key (some after) ∧ s'.log = s.log ++ [(i, m)]

/-- A flag is what its mutations have made of it, one after the other. -/
structure Serial (start s : System) : Prop where
  organizations : s.organizations = start.organizations
  locks : HeldOnce Request.lock s.requests
  based : ∀ (i : Nat) (r : Request), s.requests[i]? = some r → r.Based s
  nodup : (s.log.map Prod.fst).Nodup
  logged : ∀ i m, (i, m) ∈ s.log ↔
    ∃ r, s.requests[i]? = some r ∧ r.mutation = m ∧ r.isCommitted
  replays : ∀ key state, start.flags key = some state → ∃ after, s.flags key = some after ∧
    (s.history key).foldlM (fun state m => m.apply start.organizations state) state = .ok after

structure IsFresh (s : System) : Prop where
  requests : s.requests = []
  log : s.log = []

theorem IsFresh.serial (h : start.IsFresh) : start.Serial start where
  organizations := rfl
  locks := by
    rw [h.requests]
    exact .nil
  based i r hr := by simp [h.requests] at hr
  nodup := by simp [h.log]
  logged i m := by simp [h.log, h.requests]
  replays key state hstate := ⟨state, hstate, by simp [history, h.log, pure, Except.pure]⟩

namespace Serial

theorem send (hi : start.Serial s) (mutation : Mutation) :
    start.Serial { s with requests := s.requests ++ [{ mutation }] } where
  organizations := hi.organizations
  locks := hi.locks.concat rfl
  based i r hr := by
    rcases getElem?_concat_cases hr with ⟨-, rfl⟩ | ⟨-, hold⟩
    · trivial
    · exact (hi.based i r hold).congr rfl fun _ => rfl
  nodup := hi.nodup
  logged i m := by
    rw [hi.logged i m]
    constructor
    · rintro ⟨r, hr, hm, hcommitted⟩
      exact ⟨r, (List.getElem?_append_left (List.getElem?_eq_some_iff.mp hr).1).trans hr, hm,
        hcommitted⟩
    · rintro ⟨r, hr, hm, hcommitted⟩
      rcases getElem?_concat_cases hr with ⟨-, rfl⟩ | ⟨-, hold⟩
      · cases hcommitted
      · exact ⟨r, hold, hm, hcommitted⟩
  replays := hi.replays

/-- A request whose mutation stays the same is committed now as it was before, or there is an entry
for it. -/
theorem logged_set {log : List (Nat × Mutation)} (hi : start.Serial s)
    (hr : s.requests[i]? = some r) (hmutation : r'.mutation = r.mutation)
    (hlog : ∀ j m, (j, m) ∈ log ↔ (j, m) ∈ s.log ∨ (j = i ∧ m = r.mutation ∧ r'.isCommitted))
    (hkept : r.isCommitted → r'.isCommitted) (j : Nat) (m : Mutation) :
    (j, m) ∈ log ↔ ∃ r, (s.requests.set i r')[j]? = some r ∧ r.mutation = m ∧ r.isCommitted := by
  rw [hlog, hi.logged]
  have hlt := (List.getElem?_eq_some_iff.mp hr).1
  constructor
  · rintro (⟨old, hold, hm, hcommitted⟩ | ⟨rfl, rfl, hcommitted⟩)
    · by_cases hji : j = i
      · subst hji
        obtain rfl := Option.some.inj (hr.symm.trans hold)
        exact ⟨r', List.getElem?_set_self hlt, hmutation.trans hm, hkept hcommitted⟩
      · exact ⟨old, (List.getElem?_set_ne (Ne.symm hji)).trans hold, hm, hcommitted⟩
    · exact ⟨r', List.getElem?_set_self hlt, hmutation, hcommitted⟩
  · rintro ⟨new, hnew, hm, hcommitted⟩
    rcases getElem?_set_cases hnew with ⟨rfl, rfl⟩ | ⟨-, hold⟩
    · exact .inr ⟨rfl, hm.symm.trans hmutation, hcommitted⟩
    · exact .inl ⟨new, hold, hm, hcommitted⟩

theorem moves (hi : start.Serial s) (hr : s.requests[i]? = some r) (hmoves : s.Moves i r r')
    (hrequests : s'.requests = s.requests.set i r') (hflags : s'.flags = s.flags)
    (hlog : s'.log = s.log)
    (horganizations : s'.organizations = s.organizations) : start.Serial s' where
  organizations := horganizations.trans hi.organizations
  locks := by
    rw [hrequests]
    exact hi.locks.set hr hmoves.lock
  based j new hnew := by
    have hsame {r : Request} (hb : r.Based s) : r.Based s' :=
      hb.congr horganizations fun _ => by rw [hflags]
    rw [hrequests] at hnew
    rcases getElem?_set_cases hnew with ⟨-, rfl⟩ | ⟨-, hold⟩
    · exact hsame (hmoves.based (hi.based i r hr))
    · exact hsame (hi.based j new hold)
  nodup := by
    rw [hlog]
    exact hi.nodup
  logged := by
    rw [hrequests, hlog]
    refine hi.logged_set hr hmoves.mutation (fun j m => ?_) fun h => by rwa [hmoves.committed]
    rw [hmoves.committed, or_iff_left_of_imp]
    rintro ⟨rfl, rfl, hcommitted⟩
    exact (hi.logged j r.mutation).mpr ⟨r, hr, rfl, hcommitted⟩
  replays key state hstate := by
    rw [hflags, history, hlog]
    exact hi.replays key state hstate

theorem commit {flag : Flag} {write : Option OverrideWrite} (hi : start.Serial s)
    (hr : s.requests[i]? = some r) (hstage : r.stage = .commit flag write) :
    start.Serial (s.commit i r flag write) ∧ s.Serializes (s.commit i r flag write) := by
  have hb := hi.based i r hr
  simp only [Request.Based, hstage] at hb
  obtain ⟨state, hfound, happly⟩ := hb
  have hlock : r.lock = some r.mutation.key := by rw [Request.lock, hstage]
  have hflags : (s.commit i r flag write).flags = Function.update s.flags r.mutation.key
      (some { flag, overrides := write.elim state.overrides (·.apply state.overrides) }) := by
    rw [System.commit, hfound]
    rfl
  have hnew : i ∉ s.log.map Prod.fst := by
    intro hmem
    obtain ⟨⟨j, m⟩, hlog, rfl⟩ := List.mem_map.mp hmem
    obtain ⟨old, hold, -, hcommitted⟩ := (hi.logged j m).mp hlog
    obtain rfl := Option.some.inj (hr.symm.trans hold)
    simp [Request.isCommitted, hstage] at hcommitted
  refine ⟨⟨hi.organizations, hi.locks.set hr nofun, fun j other hother => ?_, ?_, ?_, ?_⟩,
    .inr ⟨i, r.mutation, state, _, hfound, happly, hflags, rfl⟩⟩
  · rcases getElem?_set_cases hother with ⟨-, rfl⟩ | ⟨hne, hold⟩
    · trivial
    · -- another flag, as the lock of this one is held by this request
      refine (hi.based j other hold).congr rfl fun hlock' => ?_
      have hkey : other.mutation.key ≠ r.mutation.key := fun heq =>
        hne (hi.locks j i other r r.mutation.key hold hr (heq ▸ hlock') hlock)
      rw [hflags, Function.update_of_ne hkey]
  · simp only [System.commit, List.map_append, List.map_cons, List.map_nil]
    exact List.nodup_append.mpr ⟨hi.nodup, List.nodup_singleton i, by
      rintro a ha b hb rfl
      exact hnew (List.mem_singleton.mp hb ▸ ha)⟩
  · refine hi.logged_set hr rfl (fun j m => ?_) fun _ => rfl
    simp [System.commit, Request.isCommitted]
  · intro key start' hstart
    obtain ⟨before, hbefore, hreplays⟩ := hi.replays key start' hstart
    rw [hflags]
    simp only [history, System.commit, List.map_append, List.filter_append, List.map_cons,
      List.map_nil]
    by_cases hkey : r.mutation.key = key
    · subst hkey
      obtain rfl := Option.some.inj (hfound.symm.trans hbefore)
      refine ⟨_, Function.update_self .., ?_⟩
      rw [history] at hreplays
      rw [hi.organizations] at happly
      rw [List.foldlM_append, hreplays]
      simp [happly, bind, Except.bind, pure, Except.pure]
    · refine ⟨before, (Function.update_of_ne (Ne.symm hkey) ..).trans hbefore, ?_⟩
      simpa [history, hkey] using hreplays

theorem step (hi : start.Serial s) (h : s.step e = some s') :
    start.Serial s' ∧ s.Serializes s' := by
  rcases step_cases h with ⟨mutation, rfl⟩ | ⟨i, r, hr, ⟨flag, write, hstage, rfl⟩ |
    ⟨r', hmoves, hrequests, hflags, hlog, horganizations⟩⟩
  · exact ⟨hi.send mutation, .inl ⟨rfl, rfl⟩⟩
  · exact hi.commit hr hstage
  · exact ⟨hi.moves hr hmoves hrequests hflags hlog horganizations, .inl ⟨hflags, hlog⟩⟩

end Serial

end System

/-- The version grows by one with each mutation. -/
theorem foldlM_apply_version {organizations : List OrganizationId} {ms : List Mutation}
    (h : ms.foldlM (fun state m => m.apply organizations state) state = .ok after) :
    after.flag.version = state.flag.version + ms.length := by
  induction ms generalizing state with
  | nil =>
    cases h
    rfl
  | cons m ms ih =>
    rw [List.foldlM_cons] at h
    cases hm : m.apply organizations state with
    | error failure =>
      rw [hm] at h
      cases h
    | ok next =>
      rw [hm] at h
      rw [ih h, (Mutation.apply_version hm).2, List.length_cons]
      omega

/-- In every run, the mutations of a flag that have succeeded are applied one after the other, each
to the state that the last one has left and in its version, and no other step changes a flag or an
override. -/
theorem mutations_serial (hstart : start.IsFresh) (h : Run (Stepping System.step) start es s) :
    Run (Meeting (Stepping System.step) fun s _ s' => s.Serializes s') start es s ∧
      (s.log.map Prod.fst).Nodup ∧
      (∀ i m, (i, m) ∈ s.log ↔ ∃ r, s.requests[i]? = some r ∧ r.mutation = m ∧ r.isCommitted) ∧
      ∀ key state, start.flags key = some state → ∃ after, s.flags key = some after ∧
        (s.history key).foldlM (fun state m => m.apply start.organizations state) state =
          .ok after ∧
        after.flag.version = state.flag.version + (s.history key).length := by
  have hi : start.Serial s := h.invariant (fun _ _ _ hi hstep => (hi.step hstep).1) hstart.serial
  refine ⟨h.mono_invariant (I := start.Serial) (fun s e s' hi hstep => ?_) hstart.serial,
    hi.nodup, hi.logged, fun key state hstate => ?_⟩
  · exact ⟨⟨hstep, (hi.step hstep).2⟩, (hi.step hstep).1⟩
  · obtain ⟨after, hafter, hreplays⟩ := hi.replays key state hstate
    exact ⟨after, hafter, hreplays, foldlM_apply_version hreplays⟩

def checkout : System where
  organizations := [1]
  flags key :=
    if key = "billing_checkout" then some { flag := { enabled := true, rolloutPercentage := 100 } }
    else none

/-- Two administrators change the same version, and the second one is refused and comes back. There
is no override of the organization whose override is removed last. -/
def sameVersion : List Event := [
  .send ⟨"billing_checkout", .patch false 50, 1, 7, "rollback"⟩,
  .send ⟨"billing_checkout", .put 1 true, 1, 8, "pilot"⟩, .run 0, .run 0, .run 1, .run 0,
  .send ⟨"billing_checkout", .put 1 true, 2, 8, "pilot"⟩, .run 2, .run 2, .run 2, .run 2, .fail 2,
  .send ⟨"billing_checkout", .delete 2, 3, 7, "cleanup"⟩, .run 3, .run 3]

theorem sameVersion_enabled : (exec System.step checkout sameVersion).isSome := by
  decide +kernel

theorem mutations_serial_sameVersion :
    ((exec System.step checkout sameVersion).get sameVersion_enabled).history "billing_checkout" =
        [⟨"billing_checkout", .patch false 50, 1, 7, "rollback"⟩,
          ⟨"billing_checkout", .put 1 true, 2, 8, "pilot"⟩] ∧
      ((exec System.step checkout sameVersion).get sameVersion_enabled).flags "billing_checkout" =
        some ⟨⟨false, 50, 3, some 8⟩, [⟨1, true, 8⟩]⟩ := by
  have hhistory : ((exec System.step checkout sameVersion).get
      sameVersion_enabled).history "billing_checkout" =
      [⟨"billing_checkout", .patch false 50, 1, 7, "rollback"⟩,
        ⟨"billing_checkout", .put 1 true, 2, 8, "pilot"⟩] := by
    decide +kernel
  obtain ⟨-, -, -, hreplays⟩ := mutations_serial (show checkout.IsFresh from ⟨rfl, rfl⟩)
    (Run.of_exec_get sameVersion_enabled)
  obtain ⟨after, hafter, happly, -⟩ := hreplays "billing_checkout" _ rfl
  rw [hhistory] at happly
  cases happly
  exact ⟨hhistory, hafter⟩

end Tonatiuh.Features
