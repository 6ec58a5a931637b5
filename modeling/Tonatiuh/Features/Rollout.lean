import Tonatiuh.Commands.Routes
import Tonatiuh.Features.OptimisticVersions

/-! The gradual rollout of a feature: `rolloutBucket`, `decideFeature` and `evaluateFeature` of
`features/service.ts`.

Whoever has a feature keeps it while the percentage grows, in whatever order the administrators'
transactions commit. For each pair of a flag and an organization, at most one row of overrides joins
that of the flag. -/

namespace Tonatiuh.Features

open Tables Transition

/-- What Node makes of a text, and the text of a UUID. -/
structure Hashing where
  sha256 : String → Fin 32 → UInt8
  text : OrganizationId → String

/-- `digest.readUInt32BE(0)`. -/
def readUInt32BE (digest : Fin 32 → UInt8) : Nat :=
  (((digest 0).toNat * 256 + (digest 1).toNat) * 256 + (digest 2).toNat) * 256 + (digest 3).toNat

/-- The columns that a decision depends on. -/
structure FlagRow where
  key : String
  enabled : Bool
  rolloutPercentage : Nat
  overrideEnabled : Option Bool
  deriving DecidableEq, Repr

inductive DecisionSource where
  | killSwitch | organizationOverride | percentageRollout
  deriving DecidableEq, Repr

structure FeatureDecision where
  key : String
  enabled : Bool
  source : DecisionSource
  deriving DecidableEq, Repr

def featureConfigurationMissing : Commands.Failure :=
  .http ⟨503, "FEATURE_CONFIGURATION_MISSING", "Required feature configuration is missing.", .none⟩

section
variable (hashing : Hashing)

def rolloutBucket (flagKey : String) (organizationId : OrganizationId) : Nat :=
  readUInt32BE (hashing.sha256 (flagKey ++ ":" ++ hashing.text organizationId)) % 100

def decideFeature (row : FlagRow) (organizationId : OrganizationId) : FeatureDecision :=
  if !row.enabled then ⟨row.key, false, .killSwitch⟩
  else
    match row.overrideEnabled with
    | some enabled => ⟨row.key, enabled, .organizationOverride⟩
    | none =>
      ⟨row.key, rolloutBucket hashing row.key organizationId < row.rolloutPercentage,
        .percentageRollout⟩

/-- The row of `LEFT JOIN`. -/
def FlagState.row (state : FlagState) (key : String) (organizationId : OrganizationId) :
    FlagRow where
  key
  enabled := state.flag.enabled
  rolloutPercentage := state.flag.rolloutPercentage
  overrideEnabled :=
    (state.overrides.find? fun row => row.organizationId = organizationId).map (·.enabled)

def System.evaluateFeature (s : System) (flagKey : String) (organizationId : OrganizationId) :
    Except Commands.Failure FeatureDecision :=
  match s.flags flagKey with
  | none => .error featureConfigurationMissing
  | some state => .ok (decideFeature hashing (state.row flagKey organizationId) organizationId)

/-- `requireFeature` lets a request of the organization through. -/
def System.isEnabled (s : System) (flagKey : String) (organizationId : OrganizationId) : Bool :=
  match s.evaluateFeature hashing flagKey organizationId with
  | .ok decision => decision.enabled
  | .error _ => false

end

/-- The condition: `PATCH` neither disables the flag nor lowers the percentage, and the
organization's own override is neither removed nor set to `false`. Those of the others may be. -/
def Mutation.keepsEnabled (organizationId : OrganizationId) (flag : Flag) (m : Mutation) : Bool :=
  match m.change with
  | .patch enabled rolloutPercentage => enabled && flag.rolloutPercentage ≤ rolloutPercentage
  | .put organizationId' enabled => organizationId' ≠ organizationId || enabled
  | .delete organizationId' => organizationId' ≠ organizationId

/-- The step commits no mutation of the flag but one that meets the condition. -/
def System.keepsEnabled (flagKey : String) (organizationId : OrganizationId) (s : System) :
    Event → Bool
  | .run i => s.requests[i]?.all fun r =>
    match r.stage with
    | .commit _ _ => r.mutation.key ≠ flagKey ||
      (s.flags flagKey).all fun state => r.mutation.keepsEnabled organizationId state.flag
    | _ => true
  | _ => true

variable {hashing : Hashing} {s s' start : System} {m : Mutation} {e : Event} {es es' : List Event}
  {state after : FlagState} {organizations : List OrganizationId} {key : String}
  {organizationId : OrganizationId}

/-! ## Decisions -/

/-- The kill switch wins, then the override, then the percentage. -/
theorem decideFeature_enabled {row : FlagRow} :
    (decideFeature hashing row organizationId).enabled = true ↔
    row.enabled = true ∧ (row.overrideEnabled = some true ∨
      row.overrideEnabled = none ∧
        rolloutBucket hashing row.key organizationId < row.rolloutPercentage) := by
  unfold decideFeature
  cases row.enabled with
  | false => simp
  | true => cases row.overrideEnabled <;> simp

theorem System.isEnabled_iff : s.isEnabled hashing key organizationId = true ↔
    ∃ state, s.flags key = some state ∧
      (decideFeature hashing (state.row key organizationId) organizationId).enabled = true := by
  unfold isEnabled evaluateFeature
  cases s.flags key with
  | none => simp
  | some state => simp

theorem Mutation.apply_enabled (h : m.apply organizations state = .ok after)
    (hkeeps : m.keepsEnabled organizationId state.flag = true)
    (henabled : (decideFeature hashing (state.row key organizationId) organizationId).enabled =
      true) :
    (decideFeature hashing (after.row key organizationId) organizationId).enabled = true := by
  rw [decideFeature_enabled] at henabled ⊢
  obtain ⟨hflag, hdecision⟩ := henabled
  unfold apply at h
  split at h
  next =>
    unfold keepsEnabled at hkeeps
    cases hchange : m.change with
    | patch enabled rolloutPercentage =>
      simp only [hchange, Bool.and_eq_true, decide_eq_true_eq] at h hkeeps
      cases h
      simp only [FlagState.row] at hdecision ⊢
      exact ⟨hkeeps.1,
        hdecision.imp_right (And.imp_right fun hlt => Nat.lt_of_lt_of_le hlt hkeeps.2)⟩
    | put organizationId' enabled =>
      simp only [hchange, Bool.or_eq_true, decide_eq_true_eq] at h hkeeps
      split at h
      next =>
        cases h
        simp only [FlagState.row] at hflag hdecision ⊢
        refine ⟨hflag, ?_⟩
        by_cases hsame : organizationId' = organizationId
        · subst hsame
          have hkey : Override.organizationId ⟨organizationId', enabled,
              m.userId⟩ = organizationId' := rfl
          rw [find?_upsert hkey]
          exact .inl (congrArg some (hkeeps.resolve_left fun hne => hne rfl))
        · rwa [find?_upsert_of_ne (k := Override.organizationId) hsame]
      next => cases h
    | delete organizationId' =>
      simp only [hchange, decide_eq_true_eq] at h hkeeps
      split at h
      next =>
        cases h
        simp only [FlagState.row] at hflag hdecision ⊢
        refine ⟨hflag, ?_⟩
        rwa [find?_filter_of_ne (k := Override.organizationId) hkeeps]
      next => cases h
  next => cases h

/-! ## Runs -/

/-- Only a commit changes a flag or an override. -/
theorem System.step_flags (h : s.step e = some s') : s'.flags = s.flags ∨
    ∃ i r flag write, e = .run i ∧ s.requests[i]? = some r ∧ r.stage = .commit flag write ∧
      s' = s.commit i r flag write := by
  have hmoves {i : Nat} {r : Request} (hsteps : s.Steps i r s')
      (hne : ∀ flag write, r.stage ≠ .commit flag write) :
      s'.flags = s.flags := by
    rcases hsteps with ⟨flag, write, hstage, -⟩ | ⟨_, -, -, hflags, -⟩
    · exact absurd hstage (hne flag write)
    · exact hflags
  cases e with
  | send =>
    cases h
    exact .inl rfl
  | run i =>
    obtain ⟨r, hr, h⟩ := Option.bind_eq_some_iff.mp h
    cases hstage : r.stage with
    | update =>
      rw [hstage] at h
      exact .inl (hmoves (update_moves hstage h) (by simp [hstage]))
    | selectOrganization =>
      rw [hstage] at h
      exact .inl (hmoves (selectOrganization_moves hstage h) (by simp [hstage]))
    | writeOverride =>
      rw [hstage] at h
      exact .inl (hmoves (writeOverride_moves hstage h) (by simp [hstage]))
    | commit flag write =>
      rw [hstage] at h
      cases h
      exact .inr ⟨i, r, flag, write, rfl, hr, hstage, rfl⟩
    | selectFlag | audit =>
      rw [hstage] at h
      cases h
      exact .inl rfl
    | ended | unaudited =>
      rw [hstage] at h
      cases h
  | fail i =>
    obtain ⟨r, hr, h⟩ := Option.bind_eq_some_iff.mp h
    left
    split at h <;> cases h <;> rfl

theorem System.isEnabled_congr (h : s'.flags key = s.flags key) :
    s'.isEnabled hashing key organizationId = s.isEnabled hashing key organizationId := by
  unfold isEnabled evaluateFeature
  rw [h]

theorem System.step_enabled (hi : start.Serial s) (h : s.step e = some s')
    (hkeeps : s.keepsEnabled key organizationId e = true)
    (henabled : s.isEnabled hashing key organizationId = true) :
    s'.isEnabled hashing key organizationId = true := by
  rcases step_flags h with hflags | ⟨i, r, flag, write, rfl, hr, hstage, rfl⟩
  · rwa [isEnabled_congr (congrFun hflags key)]
  have hb := hi.based i r hr
  simp only [Request.Based, hstage] at hb
  obtain ⟨state, hfound, happly⟩ := hb
  have hflags : (s.commit i r flag write).flags = Function.update s.flags r.mutation.key
      (some { flag, overrides := write.elim state.overrides (·.apply state.overrides) }) := by
    rw [commit, hfound]
    rfl
  by_cases hkey : r.mutation.key = key
  · subst hkey
    obtain ⟨state', hstate', hdecision⟩ := isEnabled_iff.mp henabled
    obtain rfl := Option.some.inj (hfound.symm.trans hstate')
    have hmutation : r.mutation.keepsEnabled organizationId state.flag = true := by
      simpa [keepsEnabled, hr, hstage, hfound] using hkeeps
    exact isEnabled_iff.mpr ⟨_, by rw [hflags, Function.update_self],
      r.mutation.apply_enabled happly hmutation hdecision⟩
  · have hsame : (s.commit i r flag write).flags key = s.flags key := by
      rw [hflags, Function.update_of_ne (Ne.symm hkey)]
    rwa [isEnabled_congr hsame]

/-- An organization that has a feature keeps it in every run whose commits meet the condition. -/
theorem feature_sticky (hstart : start.IsFresh) (h : Run (Stepping System.step) start es s)
    (henabled : s.isEnabled hashing key organizationId = true)
    (h' : Run (Meeting (Stepping System.step) fun s e _ =>
      s.keepsEnabled key organizationId e = true) s es' s') :
    s'.isEnabled hashing key organizationId = true := by
  have hi : start.Serial s := h.invariant (fun _ _ _ hi hstep => (hi.step hstep).1) hstart.serial
  refine (h'.invariant (I := fun s => start.Serial s ∧
    s.isEnabled hashing key organizationId = true) ?_
    ⟨hi, henabled⟩).2
  rintro s e s' ⟨hi, henabled⟩ ⟨hstep, hkeeps⟩
  exact ⟨(hi.step hstep).1, System.step_enabled hi hstep hkeeps henabled⟩

/-- The digest of the text that is hashed below. -/
def checkoutDigest : List UInt8 :=
  [221, 98, 165, 212, 42, 252, 218, 5, 101, 254, 79, 11, 180, 246, 188, 231, 247, 147,
    120, 242, 216,
    124, 6, 9, 16, 199, 131, 80, 204, 94, 254, 101]

def checkoutHashing : Hashing where
  sha256 text i :=
    if text = "billing_checkout:00000000-0000-4000-8000-000000000001" then checkoutDigest.getD i 0
    else 0
  text organizationId :=
    if organizationId = 1 then "00000000-0000-4000-8000-000000000001"
    else "00000000-0000-4000-8000-000000000002"

example : rolloutBucket checkoutHashing "billing_checkout" 1 = 16 := by decide +kernel

/-- Half of the organizations have the feature. -/
def halfRollout : System where
  organizations := [1, 2]
  flags key :=
    if key = "billing_checkout" then some { flag := { enabled := true, rolloutPercentage := 50 } }
    else none

/-- The percentage grows while another administrator takes the feature from the other
organization. -/
def grownRollout : List Event := [
  .send ⟨"billing_checkout", .patch true 75, 1, 7, "next step"⟩,
  .send ⟨"billing_checkout", .put 2 false, 2, 8, "complaint"⟩,
  .run 0, .run 0, .run 1, .run 0, .run 1, .run 1, .run 1, .run 1]

theorem grownRollout_enabled : (execWhere System.step
    (fun s e => s.keepsEnabled "billing_checkout" 1 e = true) halfRollout grownRollout).isSome := by
  decide +kernel

theorem feature_sticky_grownRollout :
    ((execWhere System.step (fun s e =>
      s.keepsEnabled "billing_checkout" 1 e = true) halfRollout grownRollout).get
      grownRollout_enabled).isEnabled checkoutHashing "billing_checkout" 1 = true :=
  feature_sticky (show halfRollout.IsFresh from ⟨rfl, rfl⟩) .nil (by decide +kernel)
    (.of_execWhere_get grownRollout_enabled)

end Tonatiuh.Features
