import Tonatiuh.Trading.ActiveSession

/-! Sessions over the runs of a bot: they are active one after the other.

A close that a stop message orders runs beside the trading task, and may store its order after the
task has ended the session, also where the message finds the task outside its watch loop. Without
such a close only the trading task stores rows and starts and ends sessions. -/

namespace Tonatiuh.Trading

open Async Config Transition

variable {w w' : World} {i : SessionId} {s : Memory × World} {b b' : Bot} {bound : Nat}

theorem serialContract_covers : serialContract.Covers environment where
  served h := by
    obtain ⟨outcome, rfl, hserve⟩ := environment_serve h
    exact ⟨rfl, outcome, hserve⟩
  moved h := by
    obtain ⟨e, x, rfl, _, rfl⟩ := environment_move h
    exact ⟨rfl, rfl, rfl⟩

/-! ## The trading process -/

/-- The trading task keeps the contract, and a stopping task only closes the log. -/
def Process.TradesSerially (process : Process) (w : World) : Prop :=
  match process with
  | .running p => Stable serialContract (fun _ t => t.2.Serial) p.main (p.memory, w) ∧
      ∀ program, p.stop = some program → Leaves program
  | _ => True

structure Bot.TradesSerially (b : Bot) : Prop where
  world : b.world.Serial
  process : b.process.TradesSerially b.world

/-- The step issues a close beside the trading task. A process that is already stopping ignores the
message, and one without services has nothing to close. -/
def Bot.closes (b : Bot) : Event → Bool
  | .message true =>
    match b.process with
    | .running p => !p.memory.isStopping && p.memory.services
    | _ => false
  | _ => false

theorem Process.TradesSerially.of_settled {p : Running} {r : Prog ExitCode × Memory}
    (h : (Process.running { p.setTask task r.1 with memory := r.2 }).TradesSerially w) :
    (p.settled task r).TradesSerially w := by
  obtain ⟨code, _, heq⟩ | heq := p.settled_cases task r
  · rw [heq]
    trivial
  · rw [heq]
    exact h

theorem worker_stable (hw : w.Serial) (m : Memory) (config : ConfigType) :
    Stable serialContract (fun _ t => t.2.Serial) (worker bound config) (m, w) := by
  rintro t ⟨_, _, hsessions⟩
  exact ⟨hw.congr hsessions, worker_serial (hw.congr hsessions) bound config⟩

theorem settle_serial {p : Prog ExitCode} (hw : w.Serial)
    (h : Safe serialContract (fun _ t => t.2.Serial) p (m, w)) :
    Stable serialContract (fun _ t => t.2.Serial) (p.settle m).1 ((p.settle m).2, w) :=
  h.settle_stable (fun _ ht => hw.congr ht.2.2) fun _ _ ht hst => ht.congr hst.2.2

theorem Leaves.settle {p : Prog ExitCode} (h : Leaves p) (m : Memory) : p.settle m = (p, m) := by
  cases p with
  | pure => rfl
  | await => rfl
  | _ => exact h.elim

/-- A process without services has nothing to close, and ends. -/
theorem stopWorker_unserviced {m : Memory} (hm : m.services = false) (bound : Nat) :
    (stopWorker bound true).settle m = (.pure (some 0), { m with isStopping := true }) := by
  obtain ⟨config, services, indexOperation, orders, retired, isStopping⟩ := m
  cases hm
  rfl

/-- A message that closes nothing. -/
theorem Running.message_serial {p : Running} (hp : (Process.running p).TradesSerially w)
    (hcloses : (⟨w, .running p⟩ : Bot).closes (.message closePosition) = false) :
    (p.message bound w closePosition).TradesSerially w := by
  unfold Running.message
  split
  next => exact hp
  next hstop =>
    obtain ⟨hmain, _⟩ := hp
    have hstop := Bool.eq_false_iff.mpr hstop
    cases closePosition with
    | true =>
      have hservices : p.memory.services = false := by
        simpa only [Bot.closes, hstop, Bool.not_false, Bool.true_and] using hcloses
      dsimp only
      rw [stopWorker_unserviced hservices]
      trivial
    | false =>
      obtain ⟨hleaves, hmemory⟩ := stopWorker_leaves bound p.memory
      refine .of_settled ⟨?_, fun program hprogram => ?_⟩
      · change Stable _ _ p.main (((stopWorker bound false).settle p.memory).2, w)
        rw [hmemory]
        exact hmain.rely ⟨rfl, rfl, rfl⟩
      · cases hprogram
        exact hleaves

theorem Bot.TradesSerially.step (h : b.TradesSerially) (hstep : b.step bound e = some b')
    (hcloses : b.closes e = false) : b'.TradesSerially := by
  obtain ⟨hw, hp⟩ := h
  cases Bot.step_cases hstep with
  | start => exact ⟨hw, worker_stable hw _ _, nofun⟩
  | message => exact ⟨hw, Running.message_serial hp hcloses⟩
  | @serve r task w outcome x w' p k ht hserve =>
    obtain ⟨hmain, hstop⟩ := hp
    cases task with
    | main =>
      rw [show p.main = .await r k from Option.some.inj ht] at hmain
      have hmain := hmain.served (t := (p.memory, w')) ⟨rfl, outcome, hserve⟩
      exact ⟨hmain.ready, hmain, hstop⟩
    | stop =>
      obtain ⟨rfl, hcode⟩ := hstop _ ht
      obtain rfl := serve_loggerClose hserve
      obtain ⟨code, hcode⟩ := hcode x
      refine ⟨hw, hmain, fun program hprogram => ?_⟩
      obtain rfl : k x = program := Option.some.inj hprogram
      rw [hcode]
      rfl
  | @resume task program w p ht =>
    refine ⟨hw, .of_settled ?_⟩
    obtain ⟨hmain, hstop⟩ := hp
    cases task with
    | main =>
      obtain rfl : p.main = program := Option.some.inj ht
      exact ⟨settle_serial hw hmain.safe, hstop⟩
    | stop =>
      have hprogram := hstop _ ht
      rw [hprogram.settle]
      refine ⟨hmain, fun program' hprogram' => ?_⟩
      cases hprogram'
      exact hprogram
  | @exchange e x process w hx =>
    refine ⟨hw.congr rfl, ?_⟩
    cases process with
    | running p => exact ⟨hp.1.rely ⟨rfl, rfl, rfl⟩, hp.2⟩
    | _ => trivial
  | kill => exact ⟨hw, trivial⟩

/-! ## One active session -/

theorem Bot.tradesSerially_of_run
    (h : Run (Meeting (Stepping (Bot.step bound)) fun b e _ => b.closes e = false) {} es b) :
    b.TradesSerially :=
  h.invariant (fun _ _ _ hb hstep => hb.step hstep.1 hstep.2)
    ⟨⟨none, fun _ => ⟨nofun, nofun⟩⟩, trivial⟩

/-- No request but `createOrderRow` adds a row. -/
theorem serve_rows {r : Request} {x : Except String r.Answer} (h : serve w r outcome = some (x, w'))
    (hne : w'.orders.length ≠ w.orders.length) :
    ∃ row, r = .createOrderRow row ∧ w'.orders = w.orders ++ [row] := by
  cases r with
  | createOrderRow row =>
    cases outcome with
    | done => cases h; exact ⟨row, rfl, rfl⟩
    | rejected => cases h; exact absurd rfl hne
    | _ => cases h
  | revertOrderActiveStatus session =>
    cases outcome with
    | done => cases h; exact absurd (List.length_map _) hne
    | rejected => cases h; exact absurd rfl hne
    | _ => cases h
  | _ => exact absurd (congrArg List.length ((serve_tables h).1 rfl)) hne

/-- A row is added for the active session. -/
theorem Bot.TradesSerially.inserts (h : b.TradesSerially) (hstep : b.step bound e = some b')
    (hne : b'.world.orders.length ≠ b.world.orders.length) :
    ∃ row i, b'.world.orders = b.world.orders ++ [row] ∧ row.session = some i ∧
      b.world.Active (some i) := by
  obtain ⟨hw, hp⟩ := h
  cases Bot.step_cases hstep with
  | @serve r task w outcome x w' p k ht hserve =>
    obtain ⟨row, rfl, hrows⟩ := serve_rows hserve hne
    obtain ⟨hmain, hstop⟩ := hp
    cases task with
    | main =>
      rw [show p.main = .await _ k from Option.some.inj ht] at hmain
      obtain ⟨hsome, hactive⟩ := hmain.pending.2
      obtain ⟨i, hi⟩ := Option.isSome_iff_exists.mp hsome
      exact ⟨row, i, hrows, hi, hi ▸ hactive⟩
    | stop =>
      obtain ⟨hclose, _⟩ := hstop _ ht
      cases hclose
  | start | message | resume | exchange | kill => exact absurd rfl hne

/-- The stored orders are read of the active session. -/
theorem Bot.TradesSerially.reads {p : Running} (h : b.TradesSerially) (hp : b.process = .running p)
    (hr : p.pending .main = some (.getAllOrdersByIndexOperation session)) :
    ∃ i, session = some i ∧ b.world.Active (some i) := by
  obtain ⟨w, process⟩ := b
  cases hp
  obtain ⟨k, hk⟩ := Program.eq_await (p := p.main) hr
  have hmain := h.process.1
  rw [hk] at hmain
  obtain ⟨hsome, hactive⟩ := hmain.pending.2
  obtain ⟨i, rfl⟩ := Option.isSome_iff_exists.mp hsome
  exact ⟨i, rfl, hactive⟩

theorem World.Active.iff {w : World} (h : w.Active (some i)) (j : SessionId) :
    w.isActive j = true ↔ j = i :=
  (h j).trans (Option.some_inj.trans eq_comm)

/-- In every run without a close beside the trading task, also if the process dies and is started
again at any moment: no two sessions are active; `initTradeSession` takes up a session only if it is
the active one, with exactly its rows; rows are read only of the active session; and a row is stored
only for the session that is active then. -/
theorem one_active_session (bound : Nat) {b : Bot}
    (h : Run (Meeting (Stepping (Bot.step bound)) fun b e _ => b.closes e = false) {} es b) :
    (∀ i j, b.world.isActive i = true → b.world.isActive j = true → i = j) ∧
    (∀ m t i m' w rows, Returns (environment.noted rowsRead) initTradeSession (m, b.world, []) t
        (.ok (.startOldTrade, i)) (m', w, rows) →
      (∀ j, w.isActive j = true ↔ j = i) ∧ rows = w.rows (some i) ∧ rows ≠ []) ∧
    (∀ p session, b.process = .running p →
        p.pending .main = some (.getAllOrdersByIndexOperation session) →
      ∃ i, session = some i ∧ ∀ j, b.world.isActive j = true ↔ j = i) ∧
    ∀ e b', b.step bound e = some b' → b'.world.orders.length ≠ b.world.orders.length →
      ∃ row i, b'.world.orders = b.world.orders ++ [row] ∧ row.session = some i ∧
        ∀ j, b.world.isActive j = true ↔ j = i := by
  have hserial := Bot.tradesSerially_of_run h
  refine ⟨fun i j => hserial.world.eq, fun m t i m' w rows hreturns => ?_,
    fun p session hp hr => ?_, fun e b' hstep hne => ?_⟩
  · have hsafe := initTradeSession_initiates (s := (m, b.world)) hserial.world []
    obtain ⟨hactive, htakenUp⟩ := hsafe.returns serialContract_covers.noted hreturns
    exact ⟨hactive.iff, htakenUp rfl⟩
  · obtain ⟨i, hsession, hactive⟩ := hserial.reads hp hr
    exact ⟨i, hsession, hactive.iff⟩
  · obtain ⟨row, i, hrows, hsession, hactive⟩ := hserial.inserts hstep hne
    exact ⟨row, i, hrows, hsession, hactive.iff⟩

/-- The process dies with an open position. -/
def diedOpen : List Event := opening ++ [.kill]

theorem diedOpen_runs :
    (execWhere (Bot.step 4) (fun b e => b.closes e = false) {} diedOpen).isSome := by decide +kernel

/-- What the next process finds. -/
def diedWorld : World :=
  ((execWhere (Bot.step 4) (fun b e => b.closes e = false) {} diedOpen).get diedOpen_runs).world

theorem diedOpen_takenUp :
    (initTradeSession.ends (environment.noted rowsRead) { config := oneTrade }
    (diedWorld, []) [.served .done, .served .done]).isSome := by decide +kernel

theorem diedOpen_startOldTrade : ((initTradeSession.ends (environment.noted rowsRead)
    { config := oneTrade } (diedWorld, []) [.served .done, .served .done]).get diedOpen_takenUp).1 =
      .ok (.startOldTrade, 0) := by decide +kernel

/-- The next process takes up the session with its one row. -/
theorem one_active_session_died :
    let s :=
      ((initTradeSession.ends (environment.noted rowsRead) { config := oneTrade } (diedWorld, [])
      [.served .done, .served .done]).get diedOpen_takenUp).2
    (∀ j, s.2.1.isActive j = true ↔ j = 0) ∧ s.2.2 = s.2.1.rows (some 0) ∧ s.2.2 ≠ [] :=
  (one_active_session 4 (Run.of_execWhere_get diedOpen_runs)).2.1 _ _ _ _ _ _
    (Returns.of_ends_eq diedOpen_startOldTrade)

/-- The requests of the trading task that are served in a run. -/
def Bot.served (bound : Nat) (b : Bot) : List Event → List Request
  | [] => []
  | e :: es =>
    (match e with
      | .serve .main _ => (b.running.bind (·.pending .main)).toList
      | _ => []) ++
    match b.step bound e with
    | none => []
    | some b' => b'.served bound es

/-- The row of the first order cannot be stored, which is only logged. The stop loss cannot read the
status of the order, so it finds nothing to close and the watch loop is left. The trading task
sleeps before it looks for the active session. -/
def leftTracked : List Event :=
  [.start oneTrade, .resume .main] ++ roundTrips .main
    [.done, .done, .done, .done, .done, .done, .tick (some 100), .candle (some (some 50, some 200)),
     .balances {}, .accepted 1 { price := some 100 }, .rejected "SQLITE_BUSY", .config none,
     .balances {}, .tick (some 50), .done, .rejected "RequestTimeout"]

/-- The stopping task closes the position. The trading task ends the session, which has no rows, and
starts another one. -/
def closedAsleep : List Event :=
  roundTrips .stop [.done, .reported {}, .tick (some 50), .accepted 1 {}] ++
    roundTrips .main [.done, .done, .done, .done, .done]

theorem closedAsleep_enabled :
    (exec (Bot.step 4) {} (leftTracked ++ .message true :: closedAsleep)).isSome := by
  decide +kernel

theorem closedAsleep_stored :
    (((exec (Bot.step 4) {} (leftTracked ++ .message true :: closedAsleep)).get
      closedAsleep_enabled).step 4 (.serve .stop .done)).isSome := by decide +kernel

theorem leftTracked_enabled : (exec (Bot.step 4) {} leftTracked).isSome := by decide +kernel

/-- The stop message finds the trading task in the sleep before `initTradeSession`, and until the
row is stored this task only ends the session 0 and starts the session 1. The row of the closing
order is stored for the session 0. -/
theorem row_of_ended_session : ∃ b₁ b₂ b₃,
    Run (Stepping (Bot.step 4)) {} leftTracked b₁ ∧
      b₁.running.bind (·.pending .main) = some (.sleep 5000) ∧
      Run (Stepping (Bot.step 4)) {} (leftTracked ++ .message true :: closedAsleep) b₂ ∧
      b₁.served 4 (.message true :: closedAsleep) =
        [.sleep 5000, .checkingActiveSession, .getAllOrdersByIndexOperation (some 0),
          .endTradeSession (some 0) (some 0), .startSession] ∧
      b₂.step 4 (.serve .stop .done) = some b₃ ∧
      b₂.world.isActive 0 = false ∧ b₂.world.isActive 1 = true ∧
      b₂.world.orders = [] ∧ b₃.world.orders.map (·.session) = [some 0] :=
  ⟨_, _, _, Run.of_exec_get leftTracked_enabled, by decide +kernel,
    Run.of_exec_get closedAsleep_enabled, by decide +kernel,
    (Option.some_get closedAsleep_stored).symm, by decide +kernel, by decide +kernel,
    by decide +kernel, by decide +kernel⟩

/-- A stop message comes while the stop loss closes the position. Both tasks submit a closing order,
and the trading task has ended the session before the other stores its row. -/
def closedBeside : List Event :=
  opening ++ roundTrips .main [.tick (some 50), .done] ++
    [.serve .main (.reported {}), .message true] ++ roundTrips .stop [.done, .reported {}] ++
    [.resume .main] ++ roundTrips .main [.tick (some 50)] ++ [.serve .main (.accepted 1 {})] ++
    roundTrips .stop [.tick (some 50), .accepted 1 {}] ++ [.resume .main] ++
    roundTrips .main [.done, .done, .balances {}, .done, .done, .done]

example : (exec (Bot.step 4) {} closedBeside).any fun b =>
    (b.step 4 (.serve .stop .done)).any fun b' =>
      b.world.isActive 0 = false ∧ b.world.orders.length = 2 ∧
        b'.world.orders.map (·.session) = [some 0, some 0, some 0] := by decide +kernel

end Tonatiuh.Trading
