import Tonatiuh.Process.TradingWorkerManager
import Tonatiuh.Transition.Locks
import Tonatiuh.Transition.Run

/-! One child for each config.

A child that exits with an error is launched again by a timer, which reads the record of this child
only. `start` does not wait for the timer when the exit code is known. Where no timer launches a
child for a record that the map does not hold any more, the child that runs is the one in the
map. -/

namespace Tonatiuh.Process

open Tables Transition

variable {α : Type} {m m' : TradingWorkerManager α} {record : WorkerRecord α}
  {config : ConfigType α}
  {configId i : Nat} {e : Event α} {f : WorkerRecord α → WorkerRecord α}

namespace TradingWorkerManager

/-- The condition: a timer that launches a child is the one of the record that the map holds. -/
def restartsCurrent (m : TradingWorkerManager α) : Event α → Bool
  | .timeout i => m.launches[i]?.all fun record =>
    !record.desiredRunning || m.records.lookup record.config.id = some i
  | _ => true

/-- At most one child of a config is alive, and the map holds it. -/
structure OneChild (m : TradingWorkerManager α) : Prop where
  unique : ∀ (i j : Nat) (a b : WorkerRecord α), m.launches[i]? = some a → m.launches[j]? = some b →
    a.exit = none → b.exit = none → a.config.id = b.config.id → i = j
  held : ∀ (i : Nat) (record : WorkerRecord α), m.launches[i]? = some record → record.exit = none →
    m.records.lookup record.config.id = some i

/-! ## Invariant -/

structure Tracked (m : TradingWorkerManager α) : Prop where
  alive : ∀ (i : Nat) (record : WorkerRecord α), m.launches[i]? = some record → record.exit = none →
    m.records.lookup record.config.id = some i
  restarts : ∀ (i : Nat) (record : WorkerRecord α), m.launches[i]? = some record → record.restarts →
    record.exit ≠ none
  known : ∀ configId i, m.records.lookup configId = some i →
    ∃ record, m.launches[i]? = some record ∧ record.config.id = configId

/-- No child of the config is alive. -/
def NoChild (m : TradingWorkerManager α) (configId : Nat) : Prop :=
  ∀ (i : Nat) (record : WorkerRecord α), m.launches[i]? = some record →
    record.config.id = configId →
    record.exit ≠ none

namespace Tracked

theorem empty : Tracked ({} : TradingWorkerManager α) where
  alive := nofun
  restarts := nofun
  known := nofun

theorem oneChild (hi : m.Tracked) : m.OneChild where
  unique i j a b ha hb halive hblive heq := by
    have hfound := hi.alive i a ha halive
    rw [heq, hi.alive j b hb hblive] at hfound
    exact (Option.some.inj hfound).symm
  held := hi.alive

/-- The child that the map holds has exited, or the map holds none. -/
theorem noChild (hi : m.Tracked) (h : ∀ (i : Nat) (record : WorkerRecord α),
    m.records.lookup configId = some i → m.launches[i]? = some record → record.exit ≠ none) :
    m.NoChild configId := by
  rintro i record hr rfl hlive
  exact h i record (hi.alive i record hr hlive) hr hlive

theorem launch (hi : m.Tracked) (hnone : m.NoChild config.id) (restartAttempts : Nat) :
    (m.launch config restartAttempts).Tracked where
  alive i record hr hlive := by
    rw [TradingWorkerManager.launch, lookup_upsert]
    rcases getElem?_concat_cases hr with ⟨rfl, rfl⟩ | ⟨-, hold⟩
    · rw [if_pos rfl]
    · rw [if_neg fun heq => hnone i record hold heq hlive]
      exact hi.alive i record hold hlive
  restarts i record hr hrestarts := by
    rcases getElem?_concat_cases hr with ⟨rfl, rfl⟩ | ⟨-, hold⟩
    · cases hrestarts
    · exact hi.restarts i record hold hrestarts
  known configId i hfound := by
    rw [TradingWorkerManager.launch, lookup_upsert] at hfound
    split at hfound
    next heq =>
      cases hfound
      exact ⟨_, List.getElem?_concat_length, heq.symm⟩
    next =>
      obtain ⟨record, hr, heq⟩ := hi.known configId i hfound
      exact ⟨record, (List.getElem?_append_left (List.getElem?_eq_some_iff.mp hr).1).trans hr, heq⟩

/-- A record keeps its config, no child comes to life, and the timer runs for one that has
exited. -/
theorem update (hi : m.Tracked) (hconfig : ∀ record, (f record).config = record.config)
    (hlive : ∀ record, (f record).exit = none → record.exit = none)
    (hrestarts : ∀ record, m.launches[i]? = some record → (f record).restarts →
      (f record).exit ≠ none) :
    (m.update i f).Tracked where
  alive j record hr hnone := by
    rcases getElem?_modify_cases hr with ⟨rfl, old, hold, rfl⟩ | ⟨-, hold⟩
    · rw [hconfig]
      exact hi.alive j old hold (hlive old hnone)
    · exact hi.alive j record hold hnone
  restarts j record hr htimer := by
    rcases getElem?_modify_cases hr with ⟨rfl, old, hold, rfl⟩ | ⟨-, hold⟩
    · exact hrestarts old hold htimer
    · exact hi.restarts j record hold htimer
  known configId j hfound := by
    obtain ⟨record, hr, heq⟩ := hi.known configId j hfound
    by_cases hij : i = j
    · subst hij
      refine ⟨f record, ?_, by rw [hconfig, heq]⟩
      rw [TradingWorkerManager.update, List.getElem?_modify_eq, hr]
      rfl
    · exact ⟨record, (List.getElem?_modify_ne _ _ hij).trans hr, heq⟩

theorem delete (hi : m.Tracked) (hnone : m.NoChild configId) :
    ({ m with records := Tables.delete configId m.records } : TradingWorkerManager α).Tracked where
  alive i record hr hlive := by
    rw [lookup_delete, if_neg fun heq => hnone i record hr heq hlive]
    exact hi.alive i record hr hlive
  restarts := hi.restarts
  known c i hfound := by
    rw [lookup_delete] at hfound
    split at hfound
    · cases hfound
    · exact hi.known c i hfound

theorem stop (hi : m.Tracked) (configId : Nat) : (m.stop configId).1.Tracked := by
  unfold TradingWorkerManager.stop
  split
  · exact hi
  · exact hi.update (fun _ => rfl) (fun _ hlive => hlive) fun record hr => hi.restarts _ record hr

theorem start (hi : m.Tracked) (config : ConfigType α) : (m.start config).1.Tracked := by
  unfold TradingWorkerManager.start
  split
  next => exact hi
  next hnone =>
    refine hi.launch (hi.noChild fun i record hfound hr hlive => hnone ?_) 0
    rw [get, hfound, Option.bind_some, hr]
    simp [WorkerRecord.exitCode, hlive]

theorem onExit (hi : m.Tracked) {exit : Exit} (h : m.onExit i exit = some m') : m'.Tracked := by
  obtain ⟨record, hr, h⟩ := Option.bind_eq_some_iff.mp h
  have hexit : (m.update i fun record => { record with exit := some exit }).Tracked :=
    hi.update (fun _ => rfl) nofun fun _ _ _ => nofun
  split at h
  next => cases h
  next =>
    dsimp only at h
    split at h
    next =>
      cases h
      exact hexit
    next hcurrent =>
      split at h
      next =>
        cases h
        refine hexit.update (fun _ => rfl) (fun _ hlive => hlive) fun record' hr' _ => ?_
        rcases getElem?_modify_cases hr' with ⟨-, old, -, rfl⟩ | ⟨hne, -⟩
        · exact nofun
        · exact absurd rfl hne
      next =>
        cases h
        refine hexit.delete (hexit.noChild fun j record' hfound hr' => ?_)
        have hji : j = i := Option.some.inj (hfound.symm.trans (not_not.mp hcurrent))
        rcases getElem?_modify_cases hr' with ⟨-, old, -, rfl⟩ | ⟨hne, -⟩
        · exact nofun
        · exact absurd hji hne

theorem onTimeout (hi : m.Tracked) (hcurrent : m.restartsCurrent (.timeout i))
    (h : m.onTimeout i = some m') : m'.Tracked := by
  obtain ⟨record, hr, h⟩ := Option.bind_eq_some_iff.mp h
  have hfired : (m.update i fun record => { record with restarts := false }).Tracked :=
    hi.update (fun _ => rfl) (fun _ hlive => hlive) fun _ _ => nofun
  split at h
  next htimer =>
    split at h
    next hdesired =>
      cases h
      -- the child of this record has exited, and the map holds no other one
      refine hfired.launch (hfired.noChild fun j record' hfound hr' => ?_) _
      simp only [restartsCurrent, hr, Option.all_some, hdesired, Bool.not_true, Bool.false_or,
        decide_eq_true_eq] at hcurrent
      obtain rfl : j = i := Option.some.inj (hfound.symm.trans hcurrent)
      rcases getElem?_modify_cases hr' with ⟨-, old, hold, rfl⟩ | ⟨hne, -⟩
      · obtain rfl := Option.some.inj (hr.symm.trans hold)
        exact hi.restarts j record hr htimer
      · exact absurd rfl hne
    next =>
      cases h
      exact hfired
  next => cases h

theorem step (hi : m.Tracked) (hcurrent : m.restartsCurrent e) (h : m.step e = some m') :
    m'.Tracked := by
  cases e with
  | start config =>
    cases h
    exact hi.start config
  | stop configId =>
    cases h
    exact hi.stop configId
  | stopAll =>
    cases h
    exact List.foldlRecOn _ _ hi fun m hm configId _ => hm.stop configId
  | exit i exit => exact hi.onExit h
  | timeout i => exact hi.onTimeout hcurrent h

end Tracked

/-! ## After `stop` -/

/-- The record that the map holds is to be stopped. -/
def Stopped (m : TradingWorkerManager α) (configId : Nat) : Prop :=
  ∀ (i : Nat) (record : WorkerRecord α), m.records.lookup configId = some i →
    m.launches[i]? = some record → record.desiredRunning = false

/-- How often a child of the config has been launched. -/
def launchCount (m : TradingWorkerManager α) (configId : Nat) : Nat :=
  m.launches.countP fun record => record.config.id = configId

theorem launchCount_update (hconfig : ∀ record, (f record).config = record.config)
    (i configId : Nat) :
    (m.update i f).launchCount configId = m.launchCount configId := by
  unfold launchCount update
  induction m.launches generalizing i with
  | nil => simp
  | cons record launches ih => cases i <;> simp [List.countP_cons, hconfig, ih]

namespace Stopped

theorem update (hs : m.Stopped configId)
    (hdesired : ∀ record, record.desiredRunning = false → (f record).desiredRunning = false) :
    (m.update i f).Stopped configId := by
  intro j record hfound hr
  rcases getElem?_modify_cases hr with ⟨rfl, old, hold, rfl⟩ | ⟨-, hold⟩
  · exact hdesired old (hs j old hfound hold)
  · exact hs j record hfound hold

theorem launch (hs : m.Stopped configId) (hi : m.Tracked) (hne : config.id ≠ configId)
    (restartAttempts : Nat) : (m.launch config restartAttempts).Stopped configId := by
  intro i record hfound hr
  rw [TradingWorkerManager.launch, lookup_upsert, if_neg hne.symm] at hfound
  obtain ⟨old, hold, -⟩ := hi.known configId i hfound
  rcases getElem?_concat_cases hr with ⟨rfl, -⟩ | ⟨-, hr⟩
  · exact absurd (List.getElem?_eq_some_iff.mp hold).1 (Nat.lt_irrefl _)
  · exact hs i record hfound hr

theorem stop (hs : m.Stopped configId) (c : Nat) : (m.stop c).1.Stopped configId := by
  unfold TradingWorkerManager.stop
  split
  · exact hs
  · exact hs.update fun _ _ => rfl

theorem of_stop (m : TradingWorkerManager α) (configId : Nat) :
    (m.stop configId).1.Stopped configId := by
  intro i record hfound hr
  unfold TradingWorkerManager.stop at hfound hr
  split at hfound
  next hnone =>
    rw [hnone] at hfound
    cases hfound
  next j hj =>
    obtain rfl : j = i := Option.some.inj (hj.symm.trans hfound)
    rw [hj] at hr
    rcases getElem?_modify_cases hr with ⟨-, old, -, rfl⟩ | ⟨hne, -⟩
    · rfl
    · exact absurd rfl hne

theorem stop_records (m : TradingWorkerManager α) (configId : Nat) :
    (m.stop configId).1.records = m.records := by
  unfold TradingWorkerManager.stop
  split <;> rfl

theorem of_stopAll (m : TradingWorkerManager α) (configId : Nat) : m.stopAll.Stopped configId := by
  unfold stopAll
  by_cases hkey : configId ∈ m.records.map Prod.fst
  · generalize m.records.map Prod.fst = keys at hkey
    induction keys generalizing m with
    | nil => cases hkey
    | cons c keys ih =>
      rcases List.mem_cons.mp hkey with rfl | hmem
      · exact List.foldlRecOn (motive := fun m' : TradingWorkerManager α =>
          m'.Stopped configId) keys _
          (of_stop m configId) fun m' hm' c _ => hm'.stop c
      · exact ih (m.stop c).1 hmem
  · have hrecords : ((m.records.map Prod.fst).foldl
        (fun m configId => (m.stop configId).1) m).records =
        m.records :=
      List.foldlRecOn (motive := fun m' : TradingWorkerManager α => m'.records = m.records) _ _ rfl
        fun m' hm' c _ => (stop_records m' c).trans hm'
    intro i record hfound
    rw [hrecords] at hfound
    have hmem : (configId, i) ∈ m.records := by
      obtain ⟨before, after, heq, -⟩ := List.lookup_eq_some_iff.mp hfound
      rw [heq]
      exact List.mem_append_right _ List.mem_cons_self
    exact absurd (List.mem_map_of_mem hmem) hkey

end Stopped

theorem launchCount_stop (m : TradingWorkerManager α) (c configId : Nat) :
    (m.stop c).1.launchCount configId = m.launchCount configId := by
  unfold stop
  split
  · rfl
  · exact launchCount_update (fun _ => by rfl) _ _

theorem launchCount_launch (hne : config.id ≠ configId) (restartAttempts : Nat) :
    (m.launch config restartAttempts).launchCount configId = m.launchCount configId := by
  simp [launchCount, launch, hne]

/-- A child of the config is launched by `start` only. -/
theorem Tracked.step_stopped (hi : m.Tracked) (hs : m.Stopped configId)
    (hcurrent : m.restartsCurrent e) (hstart : ∀ config, e = .start config → config.id ≠ configId)
    (h : m.step e = some m') :
    m'.Stopped configId ∧ m'.launchCount configId = m.launchCount configId := by
  cases e with
  | start config =>
    cases h
    unfold TradingWorkerManager.start
    split
    · exact ⟨hs, rfl⟩
    · have hne := hstart config rfl
      exact ⟨hs.launch hi hne 0, launchCount_launch hne 0⟩
  | stop c =>
    cases h
    exact ⟨hs.stop c, launchCount_stop m c configId⟩
  | stopAll =>
    cases h
    exact List.foldlRecOn (motive := fun m' : TradingWorkerManager α => m'.Stopped configId ∧
      m'.launchCount configId = m.launchCount configId) _ _ ⟨hs, rfl⟩
      fun m' hm' c _ => ⟨hm'.1.stop c, (launchCount_stop m' c configId).trans hm'.2⟩
  | exit i exit =>
    obtain ⟨record, hr, h⟩ := Option.bind_eq_some_iff.mp h
    have hexit : (m.update i fun record => { record with exit := some exit }).Stopped configId :=
      hs.update fun _ hdesired => hdesired
    have hcount : (m.update i fun record =>
        { record with exit := some exit }).launchCount configId =
        m.launchCount configId := launchCount_update (fun _ => by rfl) _ _
    split at h
    next => cases h
    next =>
      dsimp only at h
      split at h
      next =>
        cases h
        exact ⟨hexit, hcount⟩
      next =>
        split at h
        next =>
          cases h
          exact ⟨hexit.update fun _ hdesired => hdesired,
            (launchCount_update (fun _ => by rfl) _ _).trans hcount⟩
        next =>
          cases h
          refine ⟨fun j record' hfound hr' => ?_, hcount⟩
          rw [lookup_delete] at hfound
          split at hfound
          · cases hfound
          · exact hexit j record' hfound hr'
  | timeout i =>
    obtain ⟨record, hr, h⟩ := Option.bind_eq_some_iff.mp h
    have hfired : (m.update i fun record => { record with restarts := false }).Stopped configId :=
      hs.update fun _ hdesired => hdesired
    have hcount : (m.update i fun record =>
        { record with restarts := false }).launchCount configId =
        m.launchCount configId := launchCount_update (fun _ => by rfl) _ _
    split at h
    next htimer =>
      split at h
      next hdesired =>
        cases h
        simp only [restartsCurrent, hr, Option.all_some, hdesired, Bool.not_true, Bool.false_or,
          decide_eq_true_eq] at hcurrent
        have hne : record.config.id ≠ configId := by
          rintro rfl
          rw [hs i record hcurrent hr] at hdesired
          cases hdesired
        have htracked : (m.update i fun record => { record with restarts := false }).Tracked :=
          hi.update (fun _ => rfl) (fun _ hlive => hlive) fun _ _ => nofun
        exact ⟨hfired.launch htracked hne _, (launchCount_launch hne _).trans hcount⟩
      next =>
        cases h
        exact ⟨hfired, hcount⟩
    next => cases h

end TradingWorkerManager

/-- In a run whose timers all meet the condition, at most one child of each config is alive, and the
map holds it. After `stop` or `stopAll` no child of a config is launched until `start` is called for
it. -/
theorem one_child (h : Run (Meeting (Stepping TradingWorkerManager.step)
      fun (m : TradingWorkerManager α) e _ => m.restartsCurrent e) {} es m) :
    m.OneChild ∧ ∀ (es₁ es₂ : List (Event α)) e (t t' : TradingWorkerManager α) (configId : Nat),
      es = es₁ ++ e :: es₂ →
      Run (Meeting (Stepping TradingWorkerManager.step) fun m e _ => m.restartsCurrent e) {} es₁ t →
      Meeting (Stepping TradingWorkerManager.step) (fun m e _ => m.restartsCurrent e) t e t' →
      Run (Meeting (Stepping TradingWorkerManager.step) fun m e _ => m.restartsCurrent e) t' es₂ m →
      e = .stop configId ∨ e = .stopAll → (∀ config, .start config ∈ es₂ → config.id ≠ configId) →
      m.launchCount configId = t'.launchCount configId := by
  have htracked {es : List (Event α)} {m : TradingWorkerManager α}
      (h : Run (Meeting (Stepping TradingWorkerManager.step) fun m e _ => m.restartsCurrent e)
        {} es m) :
      m.Tracked :=
    h.invariant (fun _ _ _ hi ⟨hstep, hcurrent⟩ => hi.step hcurrent hstep) .empty
  refine ⟨(htracked h).oneChild, ?_⟩
  rintro es₁ es₂ e t t' configId rfl h₁ ⟨hstep, hcurrent⟩ h₂ hstop hstart
  have hstopped : t'.Stopped configId := by
    rcases hstop with rfl | rfl
    · cases hstep
      exact .of_stop t configId
    · cases hstep
      exact .of_stopAll t configId
  -- the steps after `stop`, none of which is a `start` of this config
  have hrest := h₂.meeting (C := fun _ e _ => ∀ config, e = .start config → config.id ≠ configId)
    fun _ e _ hmem _ config heq => hstart config (heq ▸ hmem)
  refine (hrest.invariant (I := fun m => m.Tracked ∧ m.Stopped configId ∧
    m.launchCount configId = t'.launchCount configId) ?_
    ⟨(htracked h₁).step hcurrent hstep, hstopped, rfl⟩).2.2
  rintro m e m' ⟨hi, hs, hcount⟩ ⟨⟨hstep, hcurrent⟩, hstart⟩
  obtain ⟨hs', hcount'⟩ := hi.step_stopped hs hcurrent hstart hstep
  exact ⟨hi.step hcurrent hstep, hs', hcount'.trans hcount⟩

/-- A child is killed and launched again, stops, and is started once more. -/
def restarted : List (Event Unit) := [
  .start ⟨1, ()⟩, .start ⟨2, ()⟩, .exit 0 (.signal "SIGKILL"), .timeout 0, .stopAll,
  .exit 2 (.code 0), .exit 1 (.code 1), .start ⟨1, ()⟩]

theorem restarted_enabled : (execWhere TradingWorkerManager.step
    (fun m e => m.restartsCurrent e) {} restarted).isSome := by
  decide +kernel

theorem one_child_restarted : ((execWhere TradingWorkerManager.step
    (fun m e => m.restartsCurrent e) {} restarted).get restarted_enabled).OneChild :=
  (one_child (Run.of_execWhere_get restarted_enabled)).1

/-- A child fails, and the config is started again before the timer of the next launch. -/
def startedAgain : List (Event Unit) := [.start ⟨1, ()⟩, .exit 0 (.code 1), .start ⟨1, ()⟩]

theorem two_children :
    (∃ m m', Run (Stepping TradingWorkerManager.step) {} startedAgain m ∧
      m.step (.timeout 0) = some m' ∧
      m'.launches.countP (fun record => record.config.id = 1 && record.exit.isNone) = 2) ∧
    ∃ m m', Run (Stepping TradingWorkerManager.step) {} (startedAgain ++ [.stop 1]) m ∧
      m.step (.timeout 0) = some m' ∧ m'.launchCount 1 = m.launchCount 1 + 1 :=
  ⟨Run.exists_step (by decide +kernel), Run.exists_step (by decide +kernel)⟩

end Tonatiuh.Process
