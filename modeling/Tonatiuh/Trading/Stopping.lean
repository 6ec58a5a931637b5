import Tonatiuh.Trading.Environment

/-! The emergency stop: `closeFilledPosition`, called by `stopWorker(true)`, beside the watch loop.

`isStopping` is tested by the outer loop only, so while `stopWorker` closes the position the watch
loop may close it too, or buy back. It does what it should when the loop takes none of its branches
any more, and when the stop message found the tracked orders complete. -/

namespace Tonatiuh.Trading

open Async Config Transition

/-- The requests that the watch loop makes outside its branches. -/
def Request.idle : Request → Bool
  | .getTick | .getBalance | .getConfigById | .sleep _ => true
  | _ => false

theorem serve_idle {r : Request} {x : Except String r.Answer} (hr : r.idle = true)
    (h : serve w r outcome = some (x, w')) : w' = w := by
  unfold serve at h
  split at h
  all_goals first
    | (cases h; rfl)
    | (cases h; done)
    | cases hr

/-! ## The stopping task -/

/-- A stopping process may meet any failure, but no closing order is cut off in part. -/
def stopTerms : Terms := ⟨false, true⟩

theorem kept_nonneg : Kept stopTerms fun x _ => x.Nonneg where
  nonneg h := h
  rows hc := by cases hc
  evolves h hev := h.evolves hev
  closes h _ _ _ hfill _ := h.append hfill
  records h _ _ _ _ _ _ _ _ := h

/-- Compared with the account `x₀` at the stop: the position of the session is closed, by at most
one closing order, and nothing else has been accepted or executed for the session. -/
structure ClosedOnce (x₀ x : Exchange) (session : Option SessionId) : Prop where
  flat : x.net session = 0
  settled : x.Settled session
  unchanged : ∀ (n : OrderId) (o : ExchangeOrder), x₀[n]? = some o → o.session = session →
    x[n]? = some o
  once : x.length ≤ x₀.length + 1
  closing : ∀ (n : OrderId) (o : ExchangeOrder), x₀.length ≤ n → x[n]? = some o →
    o.purpose = .closing

theorem ClosedOnce.evolves {x₀ x x' : Exchange} (h : ClosedOnce x₀ x session)
    (hev : Exchange.Evolves full x x') : ClosedOnce x₀ x' session where
  flat := by
    rw [Exchange.net, h.settled.total_eq hev]
    exact h.flat
  settled := h.settled.evolves hev
  unchanged n o ho hs := by
    have hx := h.unchanged n o ho hs
    exact hev.settled hx (h.settled n o hx hs)
  once := hev.length.trans_le h.once
  closing n o hn ho := by
    obtain ⟨o', ho', hevo⟩ := hev.getElem?_back ho
    exact hevo.purpose.trans (h.closing n o' hn ho')

/-- The stop message finds the session accounted for, and a position that is closed or larger
than `Number.EPSILON`. -/
structure Prepared (m : Memory) (x : Exchange) : Prop where
  services : m.services = true
  accounted : Accounted m.indexOperation m.orders x
  exposed : x.net m.indexOperation = 0 ∨ epsilon < |x.net m.indexOperation|

instance (m : Memory) (x : Exchange) : Decidable (Prepared m x) :=
  decidable_of_iff (m.services = true ∧ Accounted m.indexOperation m.orders x ∧
      (x.net m.indexOperation = 0 ∨ epsilon < |x.net m.indexOperation|))
    ⟨fun ⟨h₁, h₂, h₃⟩ => ⟨h₁, h₂, h₃⟩, fun h => ⟨h.services, h.accounted, h.exposed⟩⟩

/-- `stopWorker` exits with code 0 only after it has closed the position of the session once. -/
def StopEnds (x₀ : Exchange) (session : Option SessionId) :
    Except String ExitCode → Memory × World → Prop
  | .ok (some 0), t => t.1.indexOperation = session ∧ ClosedOnce x₀ t.2.exchange session
  | _, _ => True

theorem From.closedOnce {s t : Memory × World}
    (h : From stopTerms (fun x _ => x.Nonneg) s t)
    (ha : Accounted s.1.indexOperation s.1.orders s.2.exchange)
    (hnet : s.2.exchange.net s.1.indexOperation = 0) :
    ClosedOnce s.2.exchange t.2.exchange s.1.indexOperation where
  flat := by
    rw [Exchange.net, ha.settled.total_eq h.exchange]
    exact hnet
  settled := ha.settled.evolves h.exchange
  unchanged n o ho hs := h.exchange.settled ho (ha.settled n o ho hs)
  once := by rw [h.exchange.length]; omega
  closing n o hn ho := by
    have hlt := (List.getElem?_eq_some_iff.mp ho).1
    rw [h.exchange.length] at hlt
    omega

theorem Closed.closedOnce {s t : Memory × World}
    (h : Closed stopTerms (fun x _ => x.Nonneg) s t)
    (ha : Accounted s.1.indexOperation s.1.orders s.2.exchange) :
    ClosedOnce s.2.exchange t.2.exchange s.1.indexOperation := by
  obtain ⟨x, o, hev, hp, heq⟩ := h.submitted
  have hindex := h.indexOperation
  refine ⟨hindex ▸ h.flat rfl, hindex ▸ h.accounted.settled, ?_, ?_, ?_⟩
  · intro n o' ho' hs
    have := hev.settled ho' (ha.settled n o' ho' hs)
    rw [heq, List.getElem?_append_left (List.getElem?_eq_some_iff.mp this).1, this]
  · rw [heq, List.length_append, hev.length, List.length_singleton]
  · intro n o' hn ho'
    rw [heq, List.getElem?_append_right (hev.length ▸ hn)] at ho'
    rw [List.mem_singleton.mp (List.mem_of_getElem? ho')]
    exact hp

/-- `endAlgorithms` closes the position once, or throws. -/
theorem endAlgorithms_safe (bound : Nat) {s : Memory × World} (hw : s.2.exchange.Nonneg)
    (hp : Prepared s.1 s.2.exchange) :
    Safe (contract stopTerms fun x _ => x.Nonneg)
      (Ends (fun _ t => t.1.indexOperation = s.1.indexOperation ∧ t.2.exchange.Nonneg ∧
        ClosedOnce s.2.exchange t.2.exchange s.1.indexOperation) fun _ => True)
      (endAlgorithms bound) s := by
  unfold endAlgorithms
  rw [safe_get_bind, if_pos hp.services]
  have hrest : Rest (fun x _ => x.Nonneg) s := ⟨hp.accounted, hw⟩
  apply Safe.bind (closeFilledPosition_safe kept_nonneg hrest (.refl hw) bound)
  · intro closingOrder t ht
    rw [ends_ok] at ht
    split at ht
    next =>
      exact ⟨ht.indexOperation, ht.holds, ht.closedOnce hp.accounted⟩
    next =>
      obtain ⟨hfrom, hsmall⟩ := ht
      have hnet : t.2.exchange.net t.1.indexOperation = s.2.exchange.net s.1.indexOperation := by
        rw [hfrom.indexOperation]
        exact hp.accounted.settled.total_eq hfrom.exchange
      have hzero : s.2.exchange.net s.1.indexOperation = 0 := by
        obtain h | h := hp.exposed
        · exact h
        · exact absurd (hnet ▸ hsmall) (not_le.mpr h)
      exact ⟨hfrom.indexOperation, hfrom.holds, hfrom.closedOnce hp.accounted hzero⟩
  · exact fun _ _ _ => trivial

theorem stopWorker_safe (bound : Nat) {s : Memory × World} (hw : s.2.exchange.Nonneg)
    (hp : Prepared s.1 s.2.exchange) :
    Safe (contract stopTerms fun x _ => x.Nonneg)
      (StopEnds s.2.exchange s.1.indexOperation) (stopWorker bound true) s := by
  unfold stopWorker
  rw [safe_modify_bind]
  apply Safe.tryCatch (Q := fun
    | .ok r => StopEnds s.2.exchange s.1.indexOperation (.ok r)
    | .error _ => fun _ => True)
  swap
  · exact fun _ _ h => h
  swap
  · exact fun _ _ _ => trivial
  apply Safe.bind (endAlgorithms_safe bound (s := ({ s.1 with isStopping := true }, s.2)) hw
    ⟨hp.services, hp.accounted, hp.exposed⟩)
  swap
  · exact fun _ _ _ => trivial
  rintro _ t ⟨hindex, ht, hclosed⟩
  apply Safe.bind (Q := Ends (fun _ u => u.1.indexOperation = s.1.indexOperation ∧
    ClosedOnce s.2.exchange u.2.exchange s.1.indexOperation) fun _ => True)
  · unfold dispose
    rw [safe_get_bind]
    split
    next =>
      refine Safe.mono (quiet_from kept_nonneg rfl rfl (.refl ht)) fun x u hu => ?_
      cases x with
      | ok => exact ⟨hu.indexOperation.trans hindex, hclosed.evolves hu.exchange⟩
      | error => trivial
    next => exact ⟨hindex, hclosed⟩
  · exact fun _ u hu => hu
  · exact fun _ _ _ => trivial

/-! ## The process -/

/-- The task never ends the process with code 0. -/
def NeverZero (program : Prog ExitCode) : Prop :=
  ∀ s, Safe (Contract.any api Memory World String) (fun x _ => x ≠ .ok (some 0)) program s

theorem worker_neverZero (bound : Nat) (config : ConfigType) :
    NeverZero (worker bound config) := by
  intro s
  apply Safe.tryCatch (Q := fun x _ => ∀ r, x = .ok r → r = none)
  · refine Safe.bind (safe_any _ s) (fun _ t _ => ?_) fun _ _ _ => nofun
    refine Safe.bind (safe_any _ t) (fun _ u _ => ?_) fun _ _ _ => nofun
    refine Safe.bind (safe_any _ u) (fun _ v _ => ?_) fun _ _ _ => nofun
    rintro r ⟨⟩
    rfl
  · intro r t hr
    rw [hr r rfl]
    exact nofun
  · exact fun _ _ _ => nofun

/-- While the emergency stop is under way, the watch loop takes none of its branches and the
stopping task meets its terms; and the stop message finds the process prepared. -/
def Bot.Undisturbed (b : Bot) (e : Event) : Prop :=
  match b.process, e with
  | .running p, .message true => p.memory.isStopping = false → Prepared p.memory b.world.exchange
  | .running p, .serve .main _ => p.emergency.isSome → ∀ r ∈ p.pending .main, r.idle = true
  | .running p, .serve .stop outcome => p.emergency.isSome →
      ∀ r ∈ p.pending .stop, stopTerms.Meets p.memory b.world r outcome
  | .running p, .resume .main => p.emergency.isSome →
      let m := (p.main.settle p.memory).2
      m.orders = p.memory.orders ∧ m.retired = p.memory.retired ∧
        m.indexOperation = p.memory.indexOperation ∧ m.services = p.memory.services
  | .running p, .exchange e => p.emergency.isSome → e.Uncut b.world.exchange
  | _, _ => True

instance (b : Bot) (e : Event) : Decidable (b.Undisturbed e) := by
  unfold Bot.Undisturbed
  split <;> infer_instance

/-- The tracked orders with their executed amounts. -/
def Memory.fills (m : Memory) (x : Exchange) : List FilledOrderExposure :=
  m.orders.map fun order => ⟨order.side, x[order.exchangeOrderId]?.map (·.executed)⟩

/-- `closeFilledPosition` reads the status of a tracked order. -/
def Request.readsTracked (m : Memory) : Request → Bool
  | .checkStatusOrderById n => m.Tracks n
  | _ => false

/-- Whenever the status of a tracked order is read, Numbers add up to the sum of the executed
amounts of the tracked orders: what `closeFilledPosition` computes of them is what it computes
here. -/
def Bot.SumsExactly (b : Bot) (e : Event) : Prop :=
  match b.process, e with
  | .running p, .serve task _ => ∀ r ∈ p.pending task, r.readsTracked p.memory = true →
      SumIsExact (p.memory.fills b.world.exchange)
  | _, _ => True

instance (b : Bot) (e : Event) : Decidable (b.SumsExactly e) := by
  unfold Bot.SumsExactly
  split <;> infer_instance

/-- Only `stopWorker` ends the process with code 0. -/
def Process.EndsByStop : Process → Prop
  | .running p => NeverZero p.main
  | _ => True

/-- What holds of the process of a bot whose steps are undisturbed. -/
def Process.StopsCleanly (w : World) : Process → Prop
  | .absent => True
  | .running p => NeverZero p.main ∧ ∀ x₀, p.emergency = some x₀ →
      ∃ session program, p.stop = some program ∧
        Stable (contract stopTerms fun x _ => x.Nonneg) (StopEnds x₀ session) program (p.memory, w)
  | .exited code session emergency => code = 0 → ∀ x₀, emergency = some x₀ →
      ClosedOnce x₀ w.exchange session

def Bot.StopsCleanly (b : Bot) : Prop :=
  b.world.exchange.Nonneg ∧ b.process.StopsCleanly b.world

theorem NeverZero.settle {program : Prog ExitCode} (h : NeverZero program) (m : Memory) :
    NeverZero (program.settle m).1 := by
  intro s
  have hs := (h (m, s.2)).settle
  obtain ⟨r, k, hp⟩ | ⟨a, hp⟩ | ⟨e, hp⟩ | hp := program.settle_cases m
  · rw [hp] at hs ⊢
    exact hs.rely_await trivial
  · rw [hp] at hs ⊢
    exact hs
  · rw [hp]
    exact nofun
  · rw [hp]
    trivial

theorem NeverZero.served {k : Except String (api.Answer r) → Prog ExitCode}
    (h : NeverZero (.await r k)) (x) : NeverZero (k x) :=
  fun s => ((h s s trivial).2 x s trivial s trivial).2

theorem StopEnds.rely {s t : Memory × World} {x : Except String ExitCode}
    (h : StopEnds x₀ session x s) (hst : Interferes stopTerms.full s t) :
    StopEnds x₀ session x t := by
  match x, h with
  | .ok (some 0), h => exact ⟨hst.indexOperation.trans h.1, h.2.evolves hst.exchange⟩
  | .ok (some (_ + 1)), _ => trivial
  | .ok none, _ => trivial
  | .error _, _ => trivial

/-- The stopping task runs up to its next await. -/
theorem Running.stop_settled {p : Running} {w : World} {x₀ : Exchange} {program : Prog ExitCode}
    (he : p.emergency = some x₀) (hw : w.exchange.Nonneg) (hmain : NeverZero p.main)
    (hsafe : Safe (contract stopTerms fun x _ => x.Nonneg) (StopEnds x₀ session) program
      (p.memory, w)) :
    (p.settled .stop (program.settle p.memory)).StopsCleanly w := by
  have hsettle := hsafe.settle
  obtain ⟨code, hp, hset⟩ | hset := p.settled_cases .stop (program.settle p.memory)
  · rw [hset]
    intro hcode x₁ hx
    rw [hp, hcode] at hsettle
    obtain ⟨hindex, hclosed⟩ := hsettle
    obtain rfl : x₀ = x₁ := Option.some.inj (he.symm.trans hx)
    rw [hindex]
    exact hclosed
  · rw [hset]
    refine ⟨hmain, fun x₁ hx => ?_⟩
    obtain rfl : x₀ = x₁ := Option.some.inj (he.symm.trans hx)
    refine ⟨session, _, rfl, hsafe.settle_stable ?_ ?_⟩
    · exact fun t ht => hw.evolves ht.exchange
    · exact fun x t hx ht => hx.rely ht

/-- The trading task runs up to its next await. -/
theorem Running.main_settled {p : Running} {w : World} {r : Prog ExitCode × Memory}
    (hr : NeverZero r.1)
    (hstop : ∀ x₀, p.emergency = some x₀ → ∃ session program, p.stop = some program ∧
      Stable (contract stopTerms fun x _ => x.Nonneg) (StopEnds x₀ session) program (r.2, w)) :
    (p.settled .main r).StopsCleanly w := by
  obtain ⟨code, hp, hset⟩ | hset := p.settled_cases .main r
  · rw [hset]
    intro hcode
    subst hcode
    rw [hp] at hr
    exact absurd rfl (hr (r.2, w))
  · rw [hset]
    exact ⟨hr, hstop⟩

/-- A message that does not find the process stopping starts `stopWorker`. -/
theorem Running.message_stopsCleanly {p : Running} {w : World} (bound : Nat)
    (hw : w.exchange.Nonneg) (hp : (Process.running p).StopsCleanly w)
    (hu : closePosition = true → p.memory.isStopping = false → Prepared p.memory w.exchange) :
    (p.message bound w closePosition).StopsCleanly w := by
  unfold Running.message
  split
  next => exact hp
  next hstop =>
    have hstop := Bool.eq_false_iff.mpr hstop
    cases closePosition with
    | true =>
      exact Running.stop_settled rfl hw hp.1 (stopWorker_safe bound (s := (p.memory, w)) hw
        (hu rfl hstop))
    | false =>
      obtain ⟨code, _, hset⟩ | hset := Running.settled_cases { p with emergency := none } .stop
        ((stopWorker bound false).settle p.memory)
      · rw [if_neg nofun, hset]
        intro _ x₀ hx
        cases hx
      · rw [if_neg nofun, hset]
        exact ⟨hp.1, fun x₀ hx => by cases hx⟩

theorem Bot.StopsCleanly.step {b b' : Bot} (h : b.StopsCleanly) (hstep : b.step bound e = some b')
    (hu : b.Undisturbed e) : b'.StopsCleanly := by
  obtain ⟨hw, hp⟩ := h
  cases Bot.step_cases hstep with
  | start => exact ⟨hw, worker_neverZero bound _, fun x₀ hx => by cases hx⟩
  | @message w closePosition p =>
    refine ⟨hw, Running.message_stopsCleanly bound hw hp fun hc hs => ?_⟩
    subst hc
    exact hu hs
  | @serve r task w outcome x w' p k ht hserve =>
    have hw' := serve_nonneg hw hserve
    obtain ⟨hmain, hstop⟩ := hp
    cases task with
    | main =>
      have hidle x₀ (hx : p.emergency = some x₀) : r.idle = true :=
        hu (Option.isSome_of_mem hx) r (Running.pending_eq ht)
      have ht : p.main = .await r k := Option.some.inj ht
      refine ⟨hw', (ht ▸ hmain).served x, fun x₀ hx => ?_⟩
      rw [serve_idle (hidle x₀ hx) hserve]
      exact hstop x₀ hx
    | stop =>
      refine ⟨hw', hmain, fun x₀ hx => ?_⟩
      obtain ⟨session, program, hprogram, hstable⟩ := hstop x₀ hx
      have hmeets := hu (Option.isSome_of_mem hx) r (Running.pending_eq ht)
      cases hprogram.symm.trans ht
      exact ⟨session, k x, rfl, hstable.served ⟨rfl, outcome, hmeets, hserve⟩⟩
  | @resume task program w p ht =>
    obtain ⟨hmain, hstop⟩ := hp
    cases task with
    | main =>
      obtain rfl : p.main = program := Option.some.inj ht
      refine ⟨hw, Running.main_settled (hmain.settle _) fun x₀ hx => ?_⟩
      obtain ⟨session, program, hprogram, hstable⟩ := hstop x₀ hx
      obtain ⟨horders, hretired, hindex, hservices⟩ := hu (Option.isSome_of_mem hx)
      exact ⟨session, program, hprogram, hstable.rely
        ⟨horders, hretired, hindex, hservices, rfl, .refl _⟩⟩
    | stop =>
      cases he : p.emergency with
      | some x₀ =>
        obtain ⟨session, program, hprogram, hstable⟩ := hstop x₀ he
        cases hprogram.symm.trans ht
        exact ⟨hw, Running.stop_settled he hw hmain hstable.safe⟩
      | none =>
        refine ⟨hw, ?_⟩
        obtain ⟨code, _, hset⟩ | hset := p.settled_cases .stop (program.settle p.memory)
        · rw [hset, he]
          intro _ x₀ hx
          cases hx
        · rw [hset]
          exact ⟨hmain, fun x₀ hx => by cases he.symm.trans hx⟩
  | @exchange e x process w hx =>
    cases process with
    | absent => exact ⟨hw.evolves (.moved hx), trivial⟩
    | running p =>
      obtain ⟨hmain, hstop⟩ := hp
      refine ⟨hw.evolves (.moved hx), hmain, fun x₀ he => ?_⟩
      obtain ⟨session, program, hprogram, hstable⟩ := hstop x₀ he
      refine ⟨session, program, hprogram, hstable.rely ⟨rfl, rfl, rfl, rfl, rfl, ?_⟩⟩
      exact .event hx fun _ => hu (Option.isSome_of_mem he)
    | exited code session emergency =>
      refine ⟨hw.evolves (.moved hx), fun hcode x₀ he => ?_⟩
      exact (hp hcode x₀ he).evolves (.moved hx)
  | kill => exact ⟨hw, trivial⟩

theorem Running.settled_endsByStop {p : Running} {task : Task} {r : Prog ExitCode × Memory}
    (h : NeverZero (({ p.setTask task r.1 with memory := r.2 } : Running).main)) :
    (p.settled task r).EndsByStop := by
  obtain ⟨code, _, hset⟩ | hset := p.settled_cases task r
  · rw [hset]
    trivial
  · rw [hset]
    exact h

theorem Bot.endsByStop_step {b b' : Bot} (h : b.process.EndsByStop)
    (hstep : b.step bound e = some b') : b'.process.EndsByStop := by
  cases Bot.step_cases hstep with
  | start => exact worker_neverZero bound _
  | @message w closePosition p =>
    change (p.message bound w closePosition).EndsByStop
    unfold Running.message
    split
    next => exact h
    next => exact Running.settled_endsByStop h
  | @serve r task w outcome x w' p k ht =>
    cases task with
    | main =>
      have hmain : NeverZero p.main := h
      rw [Option.some.inj ht] at hmain
      exact hmain.served x
    | stop => exact h
  | @resume task program w p ht =>
    refine Running.settled_endsByStop ?_
    cases task with
    | main =>
      have hmain : NeverZero p.main := h
      rw [Option.some.inj ht] at hmain
      exact hmain.settle _
    | stop => exact h
  | exchange => exact h
  | kill => trivial

theorem Bot.nonneg_step {b b' : Bot} (h : b.world.exchange.Nonneg)
    (hstep : b.step bound e = some b') : b'.world.exchange.Nonneg := by
  cases Bot.step_cases hstep with
  | serve _ hserve => exact serve_nonneg h hserve
  | exchange hx => exact h.evolves (.moved hx)
  | start | message | resume | kill => exact h

/-- A process that was not told to close its position stops cleanly. -/
theorem Process.EndsByStop.stopsCleanly {process : Process} (h : process.EndsByStop)
    (he : process.emergency = none) (w : World) : process.StopsCleanly w := by
  cases process with
  | absent => trivial
  | running p => exact ⟨h, fun x₀ hx => (by cases he.symm.trans hx)⟩
  | exited code session emergency => exact fun _ x₀ hx => (by cases he.symm.trans hx)

/-- In every run whose steps are undisturbed and whose sums are exact, a process that has ended with
code 0 after an emergency stop has closed the position of its session once, and nothing was opened
since. -/
theorem emergency_stop_closes_once (bound : Nat) {b : Bot}
    (h : Run (Meeting (Stepping (Bot.step bound)) fun b e _ =>
      b.Undisturbed e ∧ b.SumsExactly e) {} es b)
    (hexit : b.process = .exited 0 session (some x₀)) :
    ClosedOnce x₀ b.world.exchange session := by
  have hclean : b.StopsCleanly :=
    h.invariant (fun b e b' hb hstep => hb.step hstep.1 hstep.2.1)
      ⟨fun _ ho => (by cases ho), trivial⟩
  have hprocess := hclean.2
  rw [hexit] at hprocess
  exact hprocess rfl x₀ rfl

/-! ## Two runs -/

/-- The first order of a session is executed at the price 100, and the first round of the watch
loop is about to ask for the price. -/
def opening : List Event :=
  [.start oneTrade, .resume .main] ++ roundTrips .main
    [.done, .done, .done, .done, .done, .done, .tick (some 100), .candle (some (some 50, some 200)),
     .balances {}, .accepted 1 { price := some 100 }, .done, .config none, .balances {}]

/-- The message comes while the loop waits for the price. -/
def stoppedOnce : List Event :=
  opening ++ [.message true, .serve .main (.tick (some 100))] ++
    roundTrips .stop [.done, .reported {}, .tick (some 100), .accepted 1 {}, .done, .done]

theorem stoppedOnce_undisturbed :
    (execWhere (Bot.step 4) (fun b e => b.Undisturbed e ∧
      b.SumsExactly e) {} stoppedOnce).isSome := by
  decide +kernel

theorem emergency_stop_closes_once_opened :
    ∃ x₀, ClosedOnce x₀
      ((execWhere (Bot.step 4) (fun b e => b.Undisturbed e ∧ b.SumsExactly e) {} stoppedOnce).get
        stoppedOnce_undisturbed).world.exchange (some 0) :=
  ⟨[⟨some 0, .entry, .buy, 1, 1, .closed⟩],
    emergency_stop_closes_once 4 (Run.of_execWhere_get stoppedOnce_undisturbed)
      (Process.eq_exited (by decide +kernel))⟩

/-- The price has halved: the stop loss of the loop has read the filled orders when the message
comes, and both tasks submit their closing order. -/
def closedTwice : List Event :=
  opening ++ roundTrips .main [.tick (some 50), .done] ++
    [.serve .main (.reported {}), .message true] ++ roundTrips .stop [.done, .reported {}] ++
    [.resume .main] ++ roundTrips .main [.tick (some 50)] ++ [.serve .main (.accepted 1 {})] ++
    roundTrips .stop [.tick (some 50), .accepted 1 {}, .done, .done]

theorem closedTwice_enabled : (exec (Bot.step 4) {} closedTwice).isSome := by decide +kernel

/-- A buy of one coin is closed by two sells, and the process ends with code 0. -/
theorem emergency_stop_closes_twice :
    ∃ b x₀, Run (Stepping (Bot.step 4)) {} closedTwice b ∧
      b.process = .exited 0 (some 0) (some x₀) ∧
      x₀.net (some 0) = 1 ∧ b.world.exchange.net (some 0) = -1 ∧
      b.world.exchange.closed (some 0) = 2 := by
  refine ⟨_, [⟨some 0, .entry, .buy, 1, 1, .closed⟩], Run.of_exec_get closedTwice_enabled, ?_, ?_⟩
  · exact Process.eq_exited (by decide +kernel)
  · decide +kernel

/-! ## The active session -/

/-- What `checkingActiveSession` reads. -/
def World.activeSession (w : World) : Option SessionId := w.sessions.findIdx? (·.isActive)

/-- The position of the active session is closed. -/
def World.IsFlat (w : World) : Prop := ∀ session ∈ w.activeSession, w.exchange.Flat (some session)

/-- And none of its orders is open. -/
def World.HasClosed (w : World) : Prop := ∀ session ∈ w.activeSession,
  w.exchange.Flat (some session) ∧ ∀ o ∈ w.exchange, o.session = some session → o.status ≠ .opened

instance (w : World) : Decidable w.IsFlat := by
  unfold World.IsFlat Exchange.Flat
  infer_instance

instance (w : World) : Decidable w.HasClosed := by
  unfold World.HasClosed Exchange.Flat
  infer_instance

namespace World.HasClosed

variable {w w' : World}

theorem isFlat (h : w.HasClosed) : w.IsFlat := fun session hs => (h session hs).1

theorem settled (h : w.HasClosed) (hs : session ∈ w.activeSession) :
    w.exchange.Settled (some session) :=
  fun _ o ho => (h session hs).2 o (List.mem_of_getElem? ho)

/-- While no process of the bot runs, it stays closed. -/
theorem evolves (h : w.HasClosed) (hs : w'.sessions = w.sessions)
    (hev : Exchange.Evolves full w.exchange w'.exchange) : w'.HasClosed := by
  intro session hactive
  rw [activeSession, hs] at hactive
  have hsettled := h.settled hactive
  refine ⟨?_, fun o ho hsession => ?_⟩
  · rw [Exchange.Flat, Exchange.net, Exchange.traded, hsettled.total_eq hev, hsettled.total_eq hev]
    exact (h session hactive).1
  · obtain ⟨n, hn⟩ := List.getElem?_of_mem ho
    exact hsettled.evolves hev n o hn hsession

end World.HasClosed

theorem ClosedOnce.hasClosed {w : World} (h : ClosedOnce x₀ w.exchange w.activeSession) :
    w.HasClosed := by
  intro session hactive
  rw [Option.mem_def.mp hactive] at h
  refine ⟨?_, fun o ho hsession => ?_⟩
  · rw [Exchange.Flat, h.flat, abs_zero]
    exact le_max_of_le_left (by norm_num)
  · obtain ⟨n, hn⟩ := List.getElem?_of_mem ho
    exact h.settled n o hn hsession

end Tonatiuh.Trading
