import Tonatiuh.Async.Execution
import Tonatiuh.Trading.Closing

/-! Executions of single programs of the trading process: the environment serves requests with
outcomes and moves by exchange events, and an observer notes what it answers. -/

namespace Tonatiuh.Trading

open Async Config

/-- What happens next in the execution of one program. -/
inductive Response where
  | served (outcome : Outcome)
  | exchange (e : ExchangeEvent)

def environment : Environment api World String Response where
  serve w r
    | .served outcome => serve w r outcome
    | .exchange _ => none
  move w
    | .exchange e => (w.exchange.event e).map fun x => { w with exchange := x }
    | .served _ => none

theorem environment_serve {r : Request} {x : Except String r.Answer}
    (h : environment.serve w r l = some (x, w')) :
    ∃ outcome, l = .served outcome ∧ serve w r outcome = some (x, w') := by
  cases l with
  | served outcome => exact ⟨outcome, rfl, h⟩
  | exchange e => cases h

theorem environment_move (h : environment.move w l = some w') :
    ∃ e x, l = .exchange e ∧ w.exchange.event e = some x ∧ w' = { w with exchange := x } := by
  cases l with
  | served outcome => cases h
  | exchange e =>
    obtain ⟨x, hx, rfl⟩ := Option.map_eq_some_iff.mp h
    exact ⟨e, x, rfl, hx, rfl⟩

theorem Exec.sound {p q : Prog α} (h : Exec environment p s t q s')
    (hs : s.2.exchange.Sound) : s'.2.exchange.Sound := by
  refine h.invariant (I := fun w => w.exchange.Sound) (fun w r l x w' hw hserve => ?_)
    (fun w l w' hw hmove => ?_) hs
  · obtain ⟨outcome, _, hserve⟩ := environment_serve hserve
    exact serve_sound hw hserve
  · obtain ⟨e, x, _, hx, rfl⟩ := environment_move hmove
    exact hw.evolves (.moved hx)

/-! ## Observing the responses -/

/-- What an observer notes of the responses to a call: whether every request was answered, and
whether the last report of an order carried the field `filled`. -/
structure Log where
  answered : Bool := true
  filled : Bool := false

/-- The request did what it asks for. -/
def Outcome.answered : Outcome → Bool
  | .rejected _ | .lost _ | .partlyCancelled _ => false
  | _ => true

def Log.note (log : Log) : Response → Log
  | .served (.reported shape) | .served (.accepted _ shape) => { log with filled := shape.filled }
  | .served outcome => { log with answered := log.answered && outcome.answered }
  | .exchange _ => log

/-- What may happen between two responses: open orders execute or end. -/
structure Drifts (s t : Memory × World × Log) : Prop where
  memory : t.1 = s.1
  rows : t.2.1.orders = s.2.1.orders
  sessions : t.2.1.sessions = s.2.1.sessions
  balances : t.2.1.balances = s.2.1.balances
  exchange : Exchange.Evolves False s.2.1.exchange t.2.1.exchange
  log : t.2.2 = s.2.2

namespace Drifts

variable {s t u : Memory × World × Log}

theorem refl (s : Memory × World × Log) : Drifts s s := ⟨rfl, rfl, rfl, rfl, .refl _, rfl⟩

theorem trans (h : Drifts s t) (h' : Drifts t u) : Drifts s u where
  memory := h'.memory.trans h.memory
  rows := h'.rows.trans h.rows
  sessions := h'.sessions.trans h.sessions
  balances := h'.balances.trans h.balances
  exchange := h.exchange.trans h'.exchange
  log := h'.log.trans h.log

end Drifts

/-- A task alone with the exchange: every response is admitted and noted, and whenever the task
waits, `P` holds. -/
def observing (P : Memory × World × Log → Prop) : Contract api Memory (World × Log) String where
  rely := Drifts
  rely_refl := .refl
  rely_trans _ _ _ := .trans
  served r s x t := t.1 = s.1 ∧ ∃ outcome, serve s.2.1 r outcome = some (x, t.2.1) ∧
    t.2.2 = s.2.2.note (.served outcome)
  pending _ := P
  ready _ := True
  pending_ready _ _ _ := trivial

/-- The same without a condition. -/
abbrev observedContract : Contract api Memory (World × Log) String := observing fun _ => True

theorem observing_covers : (observing P).Covers (environment.observed Log.note) where
  served h := by
    obtain ⟨⟨x, w⟩, hserve, h⟩ := Option.map_eq_some_iff.mp h
    cases h
    obtain ⟨outcome, rfl, hserve⟩ := environment_serve hserve
    exact ⟨rfl, outcome, hserve, rfl⟩
  moved h := by
    obtain ⟨w, hmove, h⟩ := Option.map_eq_some_iff.mp h
    cases h
    obtain ⟨e, x, rfl, hx, rfl⟩ := environment_move hmove
    exact ⟨rfl, rfl, rfl, rfl, .moved hx, rfl⟩

/-- The rule of a request under observation. -/
theorem observing_rule {P : Memory × World × Log → Prop} {s : Memory × World × Log} {r : Request}
    {Q : Except String r.Answer → _ → Prop}
    (h : ∀ s', Drifts s s' → P s' ∧ ∀ outcome x w t, serve s'.2.1 r outcome = some (x, w) →
      Drifts (s'.1, w, s'.2.2.note (.served outcome)) t → Q x t) :
    Safe (observing P) Q (request r) s := by
  apply Safe.request
  intro s' hs'
  obtain ⟨hP, hQ⟩ := h s' hs'
  refine ⟨hP, ?_⟩
  rintro x ⟨m, w, log⟩ ⟨hm, outcome, hserve, hlog⟩ t ht
  cases hm
  cases hlog
  exact ⟨trivial, hQ outcome x w t hserve ht⟩

theorem observed_rule {s : Memory × World × Log} {r : Request}
    {Q : Except String r.Answer → _ → Prop}
    (h : ∀ s' outcome x w t, Drifts s s' → serve s'.2.1 r outcome = some (x, w) →
      Drifts (s'.1, w, s'.2.2.note (.served outcome)) t → Q x t) :
    Safe observedContract Q (request r) s :=
  observing_rule fun s' hs' =>
    ⟨trivial, fun outcome x w t hserve ht => h s' outcome x w t hs' hserve ht⟩

/-- Whoever has missed an answer has missed it for good. -/
theorem Log.note_answered {log : Log} {l : Response} (h : (log.note l).answered = true) :
    log.answered = true := by
  unfold Log.note at h
  split at h
  next => exact h
  next => exact h
  next => exact (Bool.and_eq_true_iff.mp h).1
  next => exact h

end Tonatiuh.Trading
