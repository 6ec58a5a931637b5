import Tonatiuh.Trading.Stopping
import Tonatiuh.Trading.WorkerTask

/-! What a session opens and closes, over runs of a bot.

A step is within the terms if its answer is, and if an emergency stop, once under way, finds and
leaves the position to itself. Then the world stays `Valid`, so closing orders never execute more
than the entry orders did, and a session is ended only when its position is flat. -/

namespace Tonatiuh.Trading

open Async Config Transition

variable {terms : Terms}

/-! ## The stopping task -/

/-- A process that is stopping remains so. -/
def Memory.Stops (m : Memory) : Prop := m.isStopping = true

/-- Once its first statement has run, the process is stopping. -/
theorem stopWorker_keeps (bound : Nat) (closePosition : Bool) (m : Memory) :
    ((stopWorker bound closePosition).settle m).1.Keeps Memory.Stops ∧
      ((stopWorker bound closePosition).settle m).2.Stops := by
  have hdispose : dispose.Keeps Memory.Stops := by
    refine .get_bind fun m _ => ?_
    split
    next => exact .request _
    next => exact .pure _
  refine Program.Keeps.settle_modify (.tryCatch ?_ fun _ => .pure _) rfl
  split
  next =>
    refine .bind (.get_bind fun m _ => ?_) fun _ => .bind hdispose fun _ => .pure _
    split
    next =>
      exact .bind (closeFilledPosition_confined (fun _ _ => id) bound _).keeps fun _ => .pure _
    next => exact .pure _
  next => exact .bind hdispose fun _ => .pure _

/-- The task only closes the log, and then ends the process. -/
def Leaves : Prog ExitCode → Prop
  | .pure code => code.isSome
  | .await r k => r = .loggerClose ∧ ∀ x, ∃ code, k x = .pure (some code)
  | _ => False

theorem stopWorker_leaves (bound : Nat) (m : Memory) :
    Leaves ((stopWorker bound false).settle m).1 ∧
      ((stopWorker bound false).settle m).2 = { m with isStopping := true } := by
  obtain ⟨config, services, indexOperation, orders, retired, isStopping⟩ := m
  cases services with
  | false => exact ⟨rfl, rfl⟩
  | true =>
    refine ⟨⟨rfl, fun x => ?_⟩, rfl⟩
    cases x with
    | ok => exact ⟨0, rfl⟩
    | error => exact ⟨1, rfl⟩

/-! ## Steps within the terms -/

/-- The requests that leave the orders of the session, and the session, to another task. -/
def Request.harmless (r : Request) : Bool := r.quiet && !r.accounting && r.ends.isNone

/-- The answer of the step is within the terms. A stop message that closes the position finds it
accounted for, and from then on the watch loop neither submits, stores, begins nor ends anything and
changes nothing of the memory but the configuration. -/
def Bot.Within (terms : Terms) (b : Bot) (e : Event) : Prop :=
  match b.process, e with
  | .running p, .message true => p.memory.isStopping = false →
      Accounted p.memory.indexOperation p.memory.orders b.world.exchange
  | .running p, .serve task outcome => ∀ r ∈ p.pending task,
      terms.Meets p.memory b.world r outcome ∧
        (p.emergency.isSome → task = .main → r.harmless = true)
  | .running p, .resume .main => p.emergency.isSome →
      let m := (p.main.settle p.memory).2
      m.orders = p.memory.orders ∧ m.retired = p.memory.retired ∧
        m.indexOperation = p.memory.indexOperation ∧ m.services = p.memory.services ∧
        m.isStopping = p.memory.isStopping
  | .running _, .exchange e => terms.full → e.Uncut b.world.exchange
  | _, _ => True

instance (terms : Terms) (b : Bot) (e : Event) : Decidable (b.Within terms e) := by
  unfold Bot.Within
  generalize b.process = process
  induction process using Process.casesOn with
  | running p =>
    induction e using Event.casesOn with
    | message closePosition =>
      induction closePosition using Bool.casesOn <;> dsimp only <;> infer_instance
    | serve => dsimp only; infer_instance
    | resume task => induction task using Task.casesOn <;> dsimp -zeta only <;> infer_instance
    | exchange e =>
      dsimp only
      by_cases hfull : terms.full = true
      · exact decidable_of_iff _ (forall_prop_of_true hfull).symm
      · exact isTrue fun h => absurd h hfull
    | _ => exact instDecidableTrue
  | _ => exact instDecidableTrue

/-- The task is safe, however the others interfere. -/
abbrev Kept.Task (terms : Terms) (program : Prog ExitCode) (m : Memory) (w : World) : Prop :=
  Stable (sessionContract terms) (fun _ t => t.2.Valid) program (m, w)

/-- What holds of the process: the trading task is safe until an emergency stop, then the stopping
task is. -/
def Process.Keeps (terms : Terms) (w : World) : Process → Prop
  | .running p =>
    (p.emergency = none → Kept.Task terms p.main p.memory w ∧ ∀ program ∈ p.stop, Leaves program) ∧
    (p.emergency.isSome → p.memory.Stops ∧ ∃ program, p.stop = some program ∧
      program.Keeps Memory.Stops ∧ Kept.Task terms program p.memory w)
  | _ => True

/-- What holds of a bot whose steps are within the terms. -/
structure Bot.Keeps (terms : Terms) (b : Bot) : Prop where
  world : b.world.Valid
  process : b.process.Keeps terms b.world

section
variable {p : Running} {w w' : World} {m : Memory} {program : Prog ExitCode}

/-- A safe task is run up to its next await. -/
theorem task_settle (h : Safe (sessionContract terms) (fun _ t => t.2.Valid) program (m, w))
    (hw : w.Valid) : Kept.Task terms (program.settle m).1 (program.settle m).2 w :=
  h.settle_stable (fun _ ht => World.Valid.rely (s := (_, w)) hw ht) fun _ _ hx ht => hx.rely ht

theorem worker_task (hclean : terms.clean = true) (hw : w.Valid) (bound : Nat)
    (config : ConfigType) :
    Kept.Task terms (worker bound config) m w :=
  fun _ ht => have hw' := World.Valid.rely (s := (m, w)) hw ht
    ⟨hw', worker_session hclean hw' bound config⟩

theorem Process.Keeps.of_settled {task : Task} {r : Prog ExitCode × Memory}
    (h : (Process.running { p.setTask task r.1 with memory := r.2 }).Keeps terms w) :
    (p.settled task r).Keeps terms w := by
  obtain ⟨code, _, hset⟩ | hset := p.settled_cases task r
  · rw [hset]
    trivial
  · rw [hset]
    exact h

/-- What both tasks leave alone is interference. -/
theorem interferes_of_harmless {r : Request} {x : Except String r.Answer} (hr : r.harmless = true)
    (hmeets : terms.Meets m w r outcome) (hserve : serve w r outcome = some (x, w')) :
    (sessionContract terms).rely (m, w) (m, w') := by
  simp only [Request.harmless, Bool.and_eq_true, Bool.not_eq_true'] at hr
  obtain ⟨hrows, hev⟩ := serve_quiet hr.1.1 hmeets hserve
  exact ⟨⟨rfl, rfl, rfl, rfl, hrows, hev⟩, ((serve_tables hserve).2 hr.1.2).1⟩

/-- Closing the log changes nothing outside. -/
theorem serve_loggerClose {x : Except String Request.loggerClose.Answer}
    (h : serve w .loggerClose outcome = some (x, w')) : w' = w := by
  cases outcome with
  | done => cases h; rfl
  | rejected => cases h; rfl
  | _ => cases h

theorem Running.message_keeps (hclean : terms.clean = true) (hw : w.Valid)
    (hp : (Process.running p).Keeps terms w)
    (hin : closePosition = true → p.memory.isStopping = false →
      Accounted p.memory.indexOperation p.memory.orders w.exchange) (bound : Nat) :
    (p.message bound w closePosition).Keeps terms w := by
  unfold Running.message
  split
  next => exact hp
  next hstop =>
    have hstop := Bool.eq_false_iff.mpr hstop
    -- an emergency stop is not repeated
    have hnone : p.emergency = none := by
      by_contra hsome
      obtain ⟨hstops, _⟩ := hp.2 (Option.isSome_iff_ne_none.mpr hsome)
      exact absurd (hstop.symm.trans hstops) nofun
    obtain ⟨hmain, _⟩ := hp.1 hnone
    cases closePosition with
    | true =>
      refine .of_settled ⟨nofun, fun _ => ?_⟩
      have hsafe := stopWorker_session (s := (p.memory, w)) hclean hw (hin rfl hstop) bound
      obtain ⟨hkeeps, hstops⟩ := stopWorker_keeps bound true p.memory
      exact ⟨hstops, _, rfl, hkeeps, task_settle hsafe hw⟩
    | false =>
      obtain ⟨hleaves, hmemory⟩ := stopWorker_leaves bound p.memory
      refine .of_settled ⟨fun _ => ⟨?_, fun program hprogram => ?_⟩, nofun⟩
      · change Kept.Task terms p.main ((stopWorker bound false).settle p.memory).2 w
        rw [hmemory]
        exact hmain.rely ⟨⟨rfl, rfl, rfl, rfl, rfl, .refl _⟩, rfl⟩
      · cases hprogram
        exact hleaves

theorem Bot.Keeps.step (hclean : terms.clean = true) {b b' : Bot} (h : b.Keeps terms)
    (hstep : b.step bound e = some b') (hin : b.Within terms e) : b'.Keeps terms := by
  obtain ⟨hw, hp⟩ := h
  cases Bot.step_cases hstep with
  | start => exact ⟨hw, fun _ => ⟨worker_task hclean hw bound _, nofun⟩, nofun⟩
  | @message w closePosition p =>
    refine ⟨hw, Running.message_keeps hclean hw hp (fun hc => ?_) bound⟩
    subst hc
    exact hin
  | @serve r task w outcome x w' p k ht hserve =>
    obtain ⟨hmeets, hidle⟩ := hin r (Running.pending_eq ht)
    obtain ⟨hmain, hstop⟩ := hp
    cases he : p.emergency with
    | none =>
      obtain ⟨hmain, hleaves⟩ := hmain he
      cases task with
      | main =>
        rw [show p.main = .await r k from Option.some.inj ht] at hmain
        have hmain := hmain.served (t := (p.memory, w')) ⟨rfl, outcome, hmeets, hserve⟩
        exact ⟨hmain.ready, fun _ => ⟨hmain, hleaves⟩, fun hsome => absurd (he ▸ hsome) nofun⟩
      | stop =>
        obtain ⟨rfl, hcode⟩ := hleaves _ ht
        obtain rfl := serve_loggerClose hserve
        obtain ⟨code, hcode⟩ := hcode x
        refine ⟨hw, fun _ => ⟨hmain, fun program hprogram => ?_⟩,
          fun hsome => absurd (he ▸ hsome) nofun⟩
        obtain rfl : k x = program := Option.some.inj hprogram
        rw [hcode]
        rfl
    | some x₀ =>
      obtain ⟨hstops, program, hprogram, hkeeps, hstable⟩ := hstop (he ▸ rfl)
      cases task with
      | main =>
        have hst := interferes_of_harmless (hidle (he ▸ rfl) rfl) hmeets hserve
        refine ⟨World.Valid.rely (s := (p.memory, w)) hw hst, ?_⟩
        exact ⟨fun hnone => absurd (he.symm.trans hnone) nofun,
          fun _ => ⟨hstops, program, hprogram, hkeeps, hstable.rely hst⟩⟩
      | stop =>
        cases hprogram.symm.trans ht
        have hstable := hstable.served (t := (p.memory, w')) ⟨rfl, outcome, hmeets, hserve⟩
        exact ⟨hstable.ready, fun hnone => absurd (he.symm.trans hnone) nofun,
          fun _ => ⟨hstops, _, rfl, hkeeps x, hstable⟩⟩
  | @resume task program w p ht =>
    refine ⟨hw, .of_settled ?_⟩
    obtain ⟨hmain, hstop⟩ := hp
    cases he : p.emergency with
    | none =>
      obtain ⟨hmain, hleaves⟩ := hmain he
      cases task with
      | main =>
        obtain rfl : p.main = program := Option.some.inj ht
        exact ⟨fun _ => ⟨task_settle hmain.safe hw, hleaves⟩,
          fun hsome => absurd (he ▸ hsome) nofun⟩
      | stop =>
        have hprogram := hleaves _ ht
        refine ⟨fun _ => ?_, fun hsome => absurd (he ▸ hsome) nofun⟩
        cases program with
        | pure code =>
          refine ⟨hmain, fun program hprogram' => ?_⟩
          cases hprogram'
          exact hprogram
        | await r k =>
          refine ⟨hmain, fun program hprogram' => ?_⟩
          cases hprogram'
          exact hprogram
        | _ => exact hprogram.elim
    | some x₀ =>
      obtain ⟨hstops, stopping, hstopping, hkeeps, hstable⟩ := hstop (he ▸ rfl)
      cases task with
      | main =>
        refine ⟨fun hnone => absurd (he.symm.trans hnone) nofun, fun _ => ?_⟩
        obtain rfl : p.main = program := Option.some.inj ht
        obtain ⟨horders, hretired, hindex, hservices, hstopping'⟩ := hin (he ▸ rfl)
        exact ⟨hstopping'.trans hstops, stopping, hstopping, hkeeps,
          hstable.rely ⟨⟨horders, hretired, hindex, hservices, rfl, .refl _⟩, rfl⟩⟩
      | stop =>
        refine ⟨fun hnone => absurd (he.symm.trans hnone) nofun, fun _ => ?_⟩
        cases hstopping.symm.trans ht
        obtain ⟨hkeeps, hstops⟩ := hkeeps.settle hstops
        exact ⟨hstops, _, rfl, hkeeps, task_settle hstable.safe hw⟩
  | @exchange e x process w hx =>
    cases process with
    | running p =>
      have hst : (sessionContract terms).rely (p.memory, w) (p.memory, { w with exchange := x }) :=
        ⟨⟨rfl, rfl, rfl, rfl, rfl, .event hx hin⟩, rfl⟩
      refine ⟨World.Valid.rely (s := (p.memory, w)) hw hst, fun hnone => ?_, fun hsome => ?_⟩
      · obtain ⟨hmain, hleaves⟩ := hp.1 hnone
        exact ⟨hmain.rely hst, hleaves⟩
      · obtain ⟨hstops, stopping, hstopping, hkeeps, hstable⟩ := hp.2 hsome
        exact ⟨hstops, stopping, hstopping, hkeeps, hstable.rely hst⟩
    | _ =>
      have hev := Exchange.Evolves.moved hx
      exact ⟨⟨hw.ledger.evolves hev, hw.started.evolves le_rfl hev⟩, trivial⟩
  | kill => exact ⟨hw, trivial⟩

end

theorem Bot.keeps_empty : ({} : Bot).Keeps terms :=
  ⟨⟨.empty, fun _ ho => absurd ho List.not_mem_nil⟩, trivial⟩

theorem Bot.keeps_of_run (hclean : terms.clean = true)
    (h : Run (Meeting (Stepping (Bot.step bound)) fun b e _ => b.Within terms e) {} es b) :
    b.Keeps terms :=
  h.invariant (fun _ _ _ hb hstep => hb.step hclean hstep.1 hstep.2) Bot.keeps_empty

/-! ## Closing no more than was entered -/

/-- A session whose orders are in the books never changes the side of its position. -/
theorem Ledger.net_mul_netEntry {x : Exchange} {rows : List OrderRow} (h : Ledger x rows)
    (session : Option SessionId) : 0 ≤ x.net session * x.netEntry session := by
  obtain ⟨d, hd⟩ := h.sided session
  have hclosed : x.total session ExchangeOrder.closed ≤ x.total session ExchangeOrder.entered :=
    (Exchange.total_le_total fun o ho => (h.sound o ho).closed_le).trans (h.covered session)
  have hentered : 0 ≤ x.total session ExchangeOrder.entered := by
    rw [← Exchange.total_zero x session]
    refine Exchange.total_le_total fun o ho => ?_
    unfold ExchangeOrder.entered
    split
    next => exact (h.sound o ho).nonneg
    next => exact le_rfl
  rw [hd.net, hd.netEntry, mul_mul_mul_comm, Side.sign_mul_sign, one_mul]
  exact mul_nonneg (sub_nonneg.mpr hclosed) hentered

/-- Nothing loses track of a closing order. -/
def cleanTerms : Terms := ⟨true, false⟩

/-- In every run within these terms whose sums are exact, the closing orders of a session never
execute more than its entry orders have executed, and its position never changes sides. -/
theorem closed_le_entered (bound : Nat) {b : Bot}
    (h : Run (Meeting (Stepping (Bot.step bound)) fun b e _ =>
      b.Within cleanTerms e ∧ b.SumsExactly e) {} es b)
    (session : Option SessionId) :
    b.world.exchange.closed session ≤ |b.world.exchange.netEntry session| ∧
      0 ≤ b.world.exchange.net session * b.world.exchange.netEntry session := by
  have hwithin : Run (Meeting (Stepping (Bot.step bound)) fun b e _ => b.Within cleanTerms e)
      {} es b :=
    h.mono fun b e b' hstep => ⟨hstep.1, hstep.2.1⟩
  have hledger := (Bot.keeps_of_run rfl hwithin).world.ledger
  exact ⟨hledger.closed_le session, hledger.net_mul_netEntry session⟩

theorem stoppedOnce_within :
    (execWhere (Bot.step 4) (fun b e => b.Within cleanTerms e ∧ b.SumsExactly e) {}
      stoppedOnce).isSome := by
  decide +kernel

theorem closed_le_entered_stopped :
    let x := ((execWhere (Bot.step 4) (fun b e => b.Within cleanTerms e ∧ b.SumsExactly e) {}
      stoppedOnce).get stoppedOnce_within).world.exchange
    x.closed (some 0) ≤ |x.netEntry (some 0)| ∧ 0 ≤ x.net (some 0) * x.netEntry (some 0) :=
  closed_le_entered 4 (Run.of_execWhere_get stoppedOnce_within) (some 0)

/-- The price tracker closes the position twice: the status of its first closing order could not be
read. -/
def closedAgain : List Event :=
  opening ++ roundTrips .main
    [.tick (some 120), .tick (some 120), .tick (some 110), .tick (some 110), .done, .reported {},
     .tick (some 110), .accepted 1 { status := false }, .rejected "RequestTimeout", .done,
     .config none, .balances {}, .tick (some 120), .tick (some 120), .tick (some 110),
     .tick (some 110), .done, .reported {}, .tick (some 110), .accepted 1 {}]

theorem closedAgain_enabled : (exec (Bot.step 4) {} closedAgain).isSome := by decide +kernel

/-- A buy of one coin is followed by two sells of one coin. -/
theorem closing_repeats :
    ∃ b, Run (Stepping (Bot.step 4)) {} closedAgain b ∧ b.world.exchange.netEntry (some 0) = 1 ∧
      b.world.exchange.closed (some 0) = 2 ∧ b.world.exchange.net (some 0) = -1 ∧
      ¬ (b.world.exchange.closed (some 0) ≤ |b.world.exchange.netEntry (some 0)| ∧
        0 ≤ b.world.exchange.net (some 0) * b.world.exchange.netEntry (some 0)) :=
  ⟨_, Run.of_exec_get closedAgain_enabled, by decide +kernel, by decide +kernel, by decide +kernel,
    by decide +kernel⟩

/-! ## Ending flat sessions -/

/-- And no closing order is cut off after a part of it has executed. -/
def fullTerms : Terms := ⟨true, true⟩

/-- In every run within these terms, a request that ends a session of which something was executed,
or asks for its profit to end it, finds the position flat. -/
theorem ended_flat (bound : Nat) {b b' : Bot} {p : Running}
    (h : Run (Meeting (Stepping (Bot.step bound)) fun b e _ => b.Within fullTerms e) {} es b)
    (hin : b.Within fullTerms (.serve task outcome))
    (hstep : b.step bound (.serve task outcome) = some b') (hp : b.process = .running p)
    (hr : p.pending task = some r) (hends : r.ends = some session)
    (htraded : 0 < b.world.exchange.traded session) : b.world.exchange.Flat session := by
  obtain ⟨_, hkeeps⟩ := Bot.keeps_of_run rfl h
  cases Bot.step_cases hstep with
  | @serve r' task w outcome x w' p' k ht hserve =>
    cases hp
    cases (Running.pending_eq ht).symm.trans hr
    obtain ⟨hmain, hstop⟩ := hkeeps
    have flat {program : Prog ExitCode} (hprogram : program = .await r k)
        (htask : Kept.Task fullTerms program p.memory w) : w.exchange.Flat session := by
      subst hprogram
      exact htask.pending.2 session hends rfl htraded
    cases he : p.emergency with
    | none =>
      obtain ⟨hmain, hleaves⟩ := hmain he
      cases task with
      | main => exact flat (Option.some.inj ht) hmain
      | stop =>
        obtain ⟨rfl, _⟩ := hleaves _ ht
        cases hends
    | some x₀ =>
      obtain ⟨_, program, hprogram, _, htask⟩ := hstop (he ▸ rfl)
      cases task with
      | main =>
        have hharmless := (hin r hr).2 (he ▸ rfl) rfl
        simp [Request.harmless, hends] at hharmless
      | stop => exact flat (Option.some.inj (hprogram.symm.trans ht)) htask

/-- The stop loss closes the position, and the session is about to be ended. -/
def stopLossClosed : List Event :=
  opening ++ roundTrips .main [.tick (some 50), .done, .reported {}, .tick (some 50),
    .accepted 1 {}, .done, .done, .balances { usdt := some (some 50) }, .done, .done]

theorem stopLossClosed_within :
    (execWhere (Bot.step 4) (Bot.Within fullTerms) {} stopLossClosed).isSome := by decide +kernel

/-- The trading process of a bot, if it runs. -/
def Bot.running (b : Bot) : Option Running :=
  match b.process with
  | .running p => some p
  | _ => none

theorem Bot.running_eq {b : Bot} (h : b.running = some p) : b.process = .running p := by
  unfold Bot.running at h
  split at h
  next hp => cases h; exact hp
  next => cases h

/-- A bot whose trading task waits for this request. -/
theorem Bot.exists_running {b : Bot} (h : b.running.bind (·.pending .main) = some r) :
    ∃ p, b.process = .running p ∧ p.pending .main = some r := by
  obtain ⟨p, hp, hr⟩ := Option.bind_eq_some_iff.mp h
  exact ⟨p, Bot.running_eq hp, hr⟩

theorem ended_flat_stopLoss : ((execWhere (Bot.step 4) (Bot.Within fullTerms) {} stopLossClosed).get
    stopLossClosed_within).world.exchange.Flat (some 0) := by
  obtain ⟨p, hp, hr⟩ := Bot.exists_running (r := .endTradeSession (some (-50)) (some 0))
    (b := (execWhere (Bot.step 4) (Bot.Within fullTerms) {} stopLossClosed).get
      stopLossClosed_within)
    (by decide +kernel)
  have hstep : (((execWhere (Bot.step 4) (Bot.Within fullTerms) {} stopLossClosed).get
      stopLossClosed_within).step 4 (.serve .main .done)).isSome := by decide +kernel
  exact ended_flat 4 (Run.of_execWhere_get stopLossClosed_within) (by decide +kernel)
    (Option.some_get hstep).symm hp hr rfl (by decide +kernel)

/-- Half of the closing order is executed when it is cancelled, and the session is about to be
ended. -/
def halfClosed : List Event :=
  opening ++ roundTrips .main [.tick (some 50), .done, .reported {}, .tick (some 50),
    .accepted (1 / 2) {}] ++ [.exchange (.terminate 1 .canceled)] ++
  roundTrips .main [.reported {}, .done, .done, .balances { usdt := some (some 50) }, .done, .done]

theorem halfClosed_ends : (exec (Bot.step 4) {} halfClosed).any fun b =>
    (b.step 4 (.serve .main .done)).any fun b' =>
      b.running.bind (·.pending .main) = some (.endTradeSession (some (-50)) (some 0)) ∧
        0 < b.world.exchange.traded (some 0) ∧ ¬ b.world.exchange.Flat (some 0) ∧
        b'.world.sessions = [{ isActive := false, profitSession := some (-50) }] ∧
        b'.world.exchange.net (some 0) = 1 / 2 := by decide +kernel

/-- The session is ended with half of its position. -/
theorem ended_with_half :
    ∃ b b' p, Run (Stepping (Bot.step 4)) {} halfClosed b ∧
      b.step 4 (.serve .main .done) = some b' ∧
      b.process = .running p ∧ p.pending .main = some (.endTradeSession (some (-50)) (some 0)) ∧
      0 < b.world.exchange.traded (some 0) ∧ ¬ b.world.exchange.Flat (some 0) ∧
      b'.world.sessions = [{ isActive := false, profitSession := some (-50) }] ∧
      b'.world.exchange.net (some 0) = 1 / 2 := by
  obtain ⟨b, b', hrun, hstep, hpending, hrest⟩ := Run.exists_step halfClosed_ends
  obtain ⟨p, hp, hr⟩ := Bot.exists_running hpending
  exact ⟨b, b', p, hrun, hstep, hp, hr, hrest⟩

end Tonatiuh.Trading
