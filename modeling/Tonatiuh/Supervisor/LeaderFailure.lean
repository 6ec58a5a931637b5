import Tonatiuh.Supervisor.EmergencyStop
import Tonatiuh.Supervisor.StagedData

/-! Commands across the failure of a leader.

The command that a leader handles when it ends stays `PROCESSING`, and its effect half done. -/

namespace Tonatiuh.Supervisor

open Async Transition

/-- No command waits, and no worker handles one. -/
structure System.IsAtRest (s : System) : Prop where
  waits : ∀ c ∈ s.commands, c.status = .pending → c.isRemoved = true
  handles : ∀ i ∈ s.workers, (s.instances i).life = .up → ∀ t ∈ (s.instances i).tasks,
    t.progress.command = none

instance (s : System) : Decidable s.IsAtRest :=
  decidable_of_iff ((∀ c ∈ s.commands, c.status = .pending → c.isRemoved = true) ∧
    ∀ i ∈ s.workers, (s.instances i).life = .up → ∀ t ∈ (s.instances i).tasks,
      t.progress.command = none) ⟨fun h => ⟨h.1, h.2⟩, fun h => ⟨h.1, h.2⟩⟩

theorem System.IsAtRest.command {s : System} (h : s.IsAtRest) (hl : s.Listed) (ht : s.Runs i t) :
    t.progress.command = none :=
  h.handles i (hl i (by rw [ht.1]; exact nofun)) ht.1 t ht.2

/-- In the run from `s₀` to `s`, the command was marked as succeeded when the position was
closed. -/
def ClosedDuring (bound : Nat) (s₀ : System) (es : List Event) (s : System) (id : CommandId)
    (botId : BotId) : Prop :=
  ∃ es₁ e es₂ t t', es = es₁ ++ e :: es₂ ∧ Run (Stepping (System.step bound)) s₀ es₁ t ∧
    t.step bound e = some t' ∧ Run (Stepping (System.step bound)) t' es₂ s ∧
    t.MarksSucceeded t' id botId ∧ (t'.accounts botId).IsFlat

/-- An EMERGENCY_STOP has closed the position; a DELETE has removed the row of the bot and its
data. -/
def TookEffect (bound : Nat) (s₀ : System) (es : List Event) (s : System) (id : CommandId)
    (c : CommandRow) : Prop :=
  match c.command with
  | .emergencyStop => ClosedDuring bound s₀ es s id c.botId
  | .delete => s.bot c.botId = none ∧ s.directories c.botId = {}
  | _ => True

/-- An EMERGENCY_STOP closes its position first, no command loses its worker or its outcome, and no
data are left behind. -/
def System.KeepsAccepted (s : System) (e : Event) : Prop :=
  s.ClosesFirst e ∧ s.KeepsClaims e ∧ s.KeepsData e

instance (s : System) (e : Event) : Decidable (s.KeepsAccepted e) := by
  unfold System.KeepsAccepted
  infer_instance

/-- The system before the first bot is created. -/
structure System.Initial (s : System) : Prop extends s.Fresh where
  bots : s.bots = []
  commands : s.commands = []
  directories : ∀ botId, s.directories botId = {}
  nonneg : ∀ botId, (s.accounts botId).exchange.Nonneg

theorem System.Initial.empty : System.Initial {} :=
  ⟨.empty, rfl, rfl, fun _ => rfl, fun _ _ ho => absurd ho List.not_mem_nil⟩

/-- What holds of every run whose steps keep what was accepted. -/
structure System.Accepting (s : System) : Prop where
  closing : s.Closing
  targeted : s.Targeted
  removed : s.Removed
  claims : s.Claims
  spares : s.Spares
  erases : s.Erases
  tidy : s.Tidy

variable {s s' : System} {id : CommandId} {c : CommandRow}

theorem System.Initial.accepting (h : s.Initial) : s.Accepting where
  closing := h.closing h.nonneg
  targeted c hc := by rw [h.commands] at hc; cases hc
  removed c hc := by rw [h.commands] at hc; cases hc
  claims id hid := by
    obtain ⟨c, hc, _⟩ := hid
    rw [h.commands] at hc
    cases hc
  spares id c hc := by rw [h.commands] at hc; cases hc
  erases := by
    refine ⟨fun i t ht => ?_, fun id c hc => ?_⟩
    · rw [h.instances] at ht
      cases ht
    · rw [h.commands] at hc
      cases hc
  tidy := by
    refine ⟨fun botId hb => ?_, fun botId hb hchild => ?_, fun botId => ?_⟩
    · rw [h.directories botId]
    · obtain ⟨c, hmem, _⟩ := hchild
      rw [h.children] at hmem
      cases hmem
    · rw [h.directories botId]
      refine Set.encard_eq_zero.mpr (Set.eq_empty_of_forall_notMem ?_)
      rintro p ⟨hup, _⟩
      rw [h.instances] at hup
      cases hup

theorem System.Accepting.step (h : s.Accepting) (hstep : s.step bound e = some s')
    (hk : s.KeepsAccepted e) : s'.Accepting where
  closing := h.closing.step hstep hk.1
  targeted := h.targeted.step hstep
  removed := h.removed.step h.targeted hstep
  claims := h.claims.step h.closing.regular hstep hk.2.1
  spares := h.spares.step hstep hk.2.1
  erases := h.erases.step h.closing.regular hstep
  tidy := h.tidy.step h.closing.regular hstep hk.2.2

/-- Where nothing is left to do, the outcome of each EMERGENCY_STOP has been stored. -/
theorem System.Accepting.processed (h : s.Accepting) (hrest : s.IsAtRest)
    (hc : s.commands[id]? = some c) (hkind : c.command.isBinding = true)
    (hr : c.isRemoved = false) :
    c.isProcessed = true := by
  cases hs : c.status with
  | pending =>
    cases hr.symm.trans (hrest.waits c (List.mem_of_getElem? hc) hs)
  | processing =>
    obtain ⟨i, t, b, hruns, hb, _⟩ := h.claims id ⟨c, hc, hkind, hs, hr⟩
    cases (hrest.command h.closing.regular.listed hruns).symm.trans hb
  | succeeded | failed => rw [CommandRow.isProcessed, hs]; rfl

/-- An EMERGENCY_STOP that has succeeded was marked so by a step of the run. -/
theorem closedDuring_of_succeeded {s₀ : System} (hs₀ : s₀.Initial)
    (h : Run (Meeting (Stepping (System.step bound)) fun s e _ => s.KeepsAccepted e) s₀ es s)
    (hc : s.commands[id]? = some c) (hkind : c.command = .emergencyStop)
    (hs : c.status = .succeeded) :
    ClosedDuring bound s₀ es s id c.botId := by
  have hplain {s s' : System} {es : List Event}
      (h : Run (Meeting (Stepping (System.step bound)) fun s e _ => s.KeepsAccepted e) s es s') :
      Run (Stepping (System.step bound)) s es s' := h.mono fun _ _ _ h => h.1
  obtain ⟨⟨c₀, hc₀, _⟩, _⟩ |
      ⟨es₁, e, es₂, t, t', rfl, h₁, hnot, ⟨hstep, hk⟩, ⟨c', hc', hb, hk', hs'⟩, h₂⟩ :=
    h.since (P := fun s => ∃ c' ∈ s.commands[id]?,
      c'.botId = c.botId ∧ c'.command = .emergencyStop ∧
      c'.status = .succeeded) ⟨c, hc, rfl, hkind, hs⟩
  · rw [hs₀.commands] at hc₀
    cases hc₀
  have hmarks : t.MarksSucceeded t' id c.botId := by
    obtain ⟨c₁, c₂, hc₁, hc₂, hrow⟩ | ⟨_, hnew⟩ := System.row_step hstep id
    · cases Option.some.inj (Eq.trans (Eq.symm hc') hc₂)
      have hb₁ := hrow.botId.symm.trans hb
      have hk₁ := hrow.command.symm.trans hk'
      exact ⟨c₁, hc₁, _, hc', hb₁, hk₁, fun hs₁ => hnot ⟨c₁, hc₁, hb₁, hk₁, hs₁⟩, hs'⟩
    · cases (hnew c' hc').status.symm.trans hs'
  have haccepting : t.Accepting :=
    h₁.invariant (fun _ _ _ hc ⟨hstep, hk⟩ => hc.step hstep hk) hs₀.accepting
  exact ⟨es₁, e, es₂, t, t', rfl, hplain h₁, hstep, hplain (h₂.mono fun _ _ _ h => h.1), hmarks,
    haccepting.closing.isFlat hstep hmarks⟩

/-- In every run whose steps keep what was accepted, a worker that is up handles every
EMERGENCY_STOP and every DELETE that is being processed; and when no command waits and none is
handled, each of them has failed or has had its effect. -/
theorem accepted_commands_kept (bound : Nat) {s₀ s : System} (hs₀ : s₀.Initial)
    (h : Run (Meeting (Stepping (System.step bound)) fun s e _ => s.KeepsAccepted e) s₀ es s) :
    (∀ id, s.IsUnsettled id → s.IsHandled id) ∧ (s.IsAtRest → ∀ (id : CommandId) (c : CommandRow),
      s.commands[id]? = some c → c.command.isBinding = true →
        c.status = .failed ∨ TookEffect bound s₀ es s id c) := by
  have haccepting : s.Accepting :=
    h.invariant (fun _ _ _ hc ⟨hstep, hk⟩ => hc.step hstep hk) hs₀.accepting
  refine ⟨haccepting.claims, fun hrest id c hc hkind => ?_⟩
  have hprocessed := haccepting.processed hrest hc hkind
  rw [TookEffect]
  cases hcommand : c.command with
  | emergencyStop =>
    have hdone : c.isProcessed = true := by
      cases hr : c.isRemoved with
      | true => exact haccepting.spares id c hc hcommand hr
      | false => exact hprocessed hr
    cases hs : c.status with
    | succeeded => exact .inr (closedDuring_of_succeeded hs₀ h hc hcommand hs)
    | failed => exact .inl rfl
    | _ =>
      rw [CommandRow.isProcessed, hs] at hdone
      cases hdone
  | delete =>
    by_cases hfailed : c.status = .failed
    · exact .inl hfailed
    have hremoved : c.isRemoved = true := by
      by_contra hr
      have hdone := hprocessed (Bool.eq_false_iff.mpr hr)
      rw [CommandRow.isProcessed, decide_eq_false hfailed, Bool.or_false] at hdone
      exact hr (haccepting.erases.rows id c hc hcommand (of_decide_eq_true hdone))
    have hmem := List.mem_of_getElem? hc
    have hgone := haccepting.removed c hmem hremoved
    exact .inr ⟨hgone, haccepting.tidy.gone ⟨haccepting.targeted c hmem, hgone⟩ fun _ _ ht =>
      hrest.command haccepting.closing.regular.listed ht⟩
  | _ =>
    rw [hcommand] at hkind
    cases hkind

/-! ## Commands that are lost -/

/-- A command that is being processed and that nobody handles stays so in every run. -/
theorem processing_stays (hr : s.Regular) (hc : s.commands[id]? = some c)
    (hs : c.status = .processing)
    (hn : ¬ s.IsHandled id) (h : Run (Stepping (System.step bound)) s es s') :
    ∃ c' ∈ s'.commands[id]?, c'.status = .processing := by
  have hinv : s'.Regular ∧ (∃ c' ∈ s'.commands[id]?,
      c'.status = .processing) ∧ ¬ s'.IsHandled id := by
    refine h.invariant (I := fun s => s.Regular ∧
      (∃ c' ∈ s.commands[id]?, c'.status = .processing) ∧
      ¬ s.IsHandled id) (fun s e s' ⟨hr, ⟨c, hc, hs⟩, hn⟩ hstep => ?_) ⟨hr, ⟨c, hc, hs⟩, hn⟩
    obtain ⟨c', hc', hrow⟩ := System.row_kept hstep hc
    refine ⟨hr.step hstep, ⟨c', hc', ?_⟩, ?_⟩
    · cases hrow with
      | kept => exact hs
      | @served i n outcome choice r he hup hpending hcommitted =>
        obtain ⟨t, ht, hr'⟩ := Option.bind_eq_some_iff.mp hpending
        have hmem := List.mem_of_getElem? ht
        have hallowed := (hr.follows i t hmem).allowed hr'
        obtain hs' | hs' | rfl | ⟨error, rfl⟩ := r.onRow_status choice id c
        · exact hs'.trans hs
        · exact hs'
        · obtain ⟨b, hb, hid, _⟩ := hallowed
          exact absurd ⟨i, t, b, ⟨hup, hmem⟩, hb.1, hid⟩ hn
        · obtain ⟨b, hb, hid⟩ := hallowed
          exact absurd ⟨i, t, b, ⟨hup, hmem⟩, hb.1, hid⟩ hn
    · rintro ⟨i, t, b, ⟨hup, hmem⟩, hb, rfl⟩
      cases System.task_step hstep hmem with
      | kept hl hmem => exact hn ⟨i, t, b, ⟨hl.symm.trans hup, hmem⟩, hb, rfl⟩
      | spawned => cases hb
      | served hup hn' hserve =>
        obtain hold | hx := Progress.after_command hb
        · exact hn ⟨i, _, b, ⟨hup, List.mem_of_getElem? hn'⟩, hold, rfl⟩
        · cases hx
          obtain ⟨row, _, ⟨hrow, hpending, _⟩, _⟩ := serve_claimed hserve rfl
          cases Option.some.inj (Eq.trans (Eq.symm hc) hrow)
          cases hs.symm.trans hpending
  exact hinv.2.1

/-! ## Two runs -/

/-- The next leader begins, and comes to its loop. -/
def nextLeader : List Event := [.crash 0, .boot 1] ++ served 1 0 7

/-- An EMERGENCY_STOP is handled before the leader fails, and a DELETE by the next one. -/
def deletedByNext : List Event :=
  closed ++ served 0 0 1 ++ nextLeader ++
    [.api (.deleteBot 0 2), .serve 1 0 (.ok (.claimed 2))] ++ served 1 0 4 ++
    [.serve 1 0 (.ok (.found true))] ++ served 1 0 5

theorem deletedByNext_keepsAccepted :
    (execWhere (System.step 4) System.KeepsAccepted {} deletedByNext).isSome := by decide +kernel

theorem accepted_commands_kept_deletedByNext :
    ∃ s, ClosedDuring 4 {} deletedByNext s 1 0 ∧ s.bot 0 = none ∧ s.directories 0 = {} := by
  have hkept :=
    (accepted_commands_kept 4 .empty (Run.of_execWhere_get deletedByNext_keepsAccepted)).2
    (by decide +kernel)
  have hclosed :=
    (hkept 1 ⟨0, .emergencyStop, 1, .succeeded, none, true⟩ (by decide +kernel) rfl).resolve_left
    nofun
  have hdeleted :=
    (hkept 2 ⟨0, .delete, 2, .processing, none, true⟩ (by decide +kernel) rfl).resolve_left
    nofun
  exact ⟨_, hclosed, hdeleted⟩

/-- The leader ends when it has claimed the EMERGENCY_STOP; the next one finds no command. -/
def endedAfterClaim : List Event :=
  sold ++ emergencyClaimed ++ nextLeader ++ [.serve 1 0 (.ok .noCommand)]

theorem endedAfterClaim_enabled : (exec (System.step 4) {} endedAfterClaim).isSome := by
  decide +kernel

/-- Nothing is left to do, the position is open, and the EMERGENCY_STOP stays `PROCESSING` for
ever. -/
theorem accepted_command_lost :
    ∃ s, Run (Stepping (System.step 4)) {} endedAfterClaim s ∧ s.IsAtRest ∧ s.IsUnsettled 1 ∧
      ¬ (s.accounts 0).IsFlat ∧ ∀ es s', Run (Stepping (System.step 4)) s es s' →
        ∃ c ∈ s'.commands[1]?, c.status = .processing := by
  have hrun := Run.of_exec_get endedAfterClaim_enabled
  have hr :=
    hrun.invariant (fun _ _ _ hr hstep => System.Regular.step hr hstep) System.Fresh.empty.regular
  have hrest : ((exec (System.step 4) {} endedAfterClaim).get
      endedAfterClaim_enabled).IsAtRest := by
    decide +kernel
  have hunsettled : ((exec (System.step 4) {} endedAfterClaim).get
      endedAfterClaim_enabled).IsUnsettled 1 := by
    decide +kernel
  obtain ⟨c, hc, _, hs, _⟩ := id hunsettled
  refine ⟨_, hrun, hrest, hunsettled, by decide +kernel, fun es s' h => ?_⟩
  refine processing_stays hr hc hs ?_ h
  rintro ⟨i, t, b, hruns, hb, _⟩
  cases (hrest.command hr.listed hruns).symm.trans hb

end Tonatiuh.Supervisor
