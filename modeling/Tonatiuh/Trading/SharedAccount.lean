import Tonatiuh.Trading.Stopping

/-! Bots that share an account and trade the same symbol.

Their connections authenticate the same account, so that each sees, and may cancel, the orders of
all. `owners` is a ghost: it tells which bot has submitted an order. The databases and processes of
the bots are apart. -/

namespace Tonatiuh.Trading

open Transition

abbrev BotNumber := Nat

structure SharedAccount where
  exchange : Exchange := []
  owners : List BotNumber := []
  bots : BotNumber → Bot := fun _ => {}

/-- The event of one of the bots. What the exchange does by itself is the same event for each of
them. -/
structure SharedEvent where
  bot : BotNumber
  event : Event

namespace SharedAccount

/-- A bot with the account. -/
def bot (s : SharedAccount) (i : BotNumber) : Bot :=
  { s.bots i with world := { (s.bots i).world with exchange := s.exchange } }

def step (bound : Nat) (s : SharedAccount) (e : SharedEvent) : Option SharedAccount :=
  ((s.bot e.bot).step bound e.event).map fun b =>
    { exchange := b.world.exchange
      owners := s.owners ++ List.replicate (b.world.exchange.length - s.exchange.length) e.bot
      bots := Function.update s.bots e.bot b }

/-- The open orders of a bot. -/
def openOrders (s : SharedAccount) (i : BotNumber) : Set OrderId :=
  {id | s.owners[id]? = some i ∧ s.exchange[id]?.any fun o => o.status = .opened}

instance (s : SharedAccount) (i : BotNumber) (id : OrderId) : Decidable (id ∈ s.openOrders i) :=
  inferInstanceAs (Decidable (_ ∧ _))

end SharedAccount

variable {s s' : SharedAccount} {b b' : Bot} {e : Event} {i j : BotNumber} {id : OrderId}
  {bound : Nat}

/-- The step serves a `cancelAllOrders` of the bot. -/
def Bot.cancels (b : Bot) (e : Event) : Bool :=
  match b.serves e with
  | some (_, .cancelAllOrders) => true
  | _ => false

def ExchangeEvent.order : ExchangeEvent → OrderId
  | .fill id _ | .terminate id _ => id

/-- The order that the exchange executes or ends. -/
def Event.order? : Event → Option OrderId
  | .exchange e => some e.order
  | _ => none

/-! ## What a step does to the orders -/

theorem serve_appends {r : Request} {x : Except String r.Answer} (hr : r ≠ .cancelAllOrders)
    (h : serve w r outcome = some (x, w')) : ∃ accepted, w'.exchange = w.exchange ++ accepted := by
  unfold serve at h
  split at h
  case h_1 | h_2 => exact absurd rfl hr
  case h_3 =>
    obtain ⟨o, _, h⟩ := Option.map_eq_some_iff.mp h
    cases h
    exact ⟨[], (List.append_nil _).symm⟩
  case h_4 | h_5 =>
    split at h
    next => cases h; exact ⟨_, rfl⟩
    next => cases h
  all_goals first
    | (cases h; exact ⟨[], (List.append_nil _).symm⟩)
    | cases h

/-- A step that is neither one of the exchange nor a cancellation keeps the orders that are
there. -/
theorem Bot.step_appends (h : b.step bound e = some b') (horder : e.order? = none)
    (hcancels : b.cancels e = false) :
    ∃ accepted, b'.world.exchange = b.world.exchange ++ accepted := by
  cases Bot.step_cases h with
  | serve ht hserve =>
    refine serve_appends ?_ hserve
    rintro rfl
    rw [Bot.cancels, Bot.serves_serve rfl ht] at hcancels
    cases hcancels
  | exchange => cases horder
  | start | message | resume | kill => exact ⟨[], (List.append_nil _).symm⟩

/-- The exchange keeps all orders but one. -/
theorem Exchange.event_getElem? {x x' : Exchange} {event : ExchangeEvent}
    (h : x.event event = some x') (hne : event.order ≠ id) : x'[id]? = x[id]? := by
  cases event with
  | fill | terminate =>
    obtain ⟨o, -, h⟩ := Option.bind_eq_some_iff.mp h
    split at h
    · cases h
      exact List.getElem?_set_ne hne
    · cases h

theorem Bot.step_order {order : OrderId} (h : b.step bound e = some b')
    (horder : e.order? = some order) :
    b'.world.exchange.length = b.world.exchange.length ∧
      ∀ id, order ≠ id → b'.world.exchange[id]? = b.world.exchange[id]? := by
  cases Bot.step_cases h with
  | exchange hx =>
    cases horder
    exact ⟨(Exchange.Evolves.moved hx).length, fun id hne => Exchange.event_getElem? hx hne⟩
  | start | message | serve | resume | kill => cases horder

theorem Bot.step_cancelled {task : Task} (h : b.step bound (.serve task .done) = some b')
    (hcancels : b.cancels (.serve task .done)) :
    b'.world.exchange = b.world.exchange.cancelAll := by
  cases Bot.step_cases h with
  | @serve r task w outcome x w' p k ht hserve =>
    rw [Bot.cancels, Bot.serves_serve rfl ht] at hcancels
    cases r with
    | cancelAllOrders =>
      cases hserve
      rfl
    | _ => cases hcancels

/-- Steps of the exchange and of requests accept no order without adding it to the account. -/
theorem Bot.step_length (h : b.step bound e = some b') :
    b.world.exchange.length ≤ b'.world.exchange.length := by
  cases Bot.step_cases h with
  | serve ht hserve =>
    obtain hev | ⟨_, _, _, _, _, _, _, _, _, _, heq⟩ := serve_exchange hserve
    · exact hev.length.ge
    · rw [heq, List.length_append]
      exact Nat.le_add_right _ _
  | exchange hx => exact (Exchange.Evolves.moved hx).length.ge
  | start | message | resume | kill => exact Nat.le_refl _

/-! ## Open orders -/

namespace SharedAccount

/-- Every order has an owner. -/
def Owned (s : SharedAccount) : Prop := s.owners.length = s.exchange.length

theorem step_cases {e : SharedEvent} (h : s.step bound e = some s') :
    ∃ b, (s.bot e.bot).step bound e.event = some b ∧
    s' = { exchange := b.world.exchange
           owners := s.owners ++ List.replicate (b.world.exchange.length - s.exchange.length) e.bot
           bots := Function.update s.bots e.bot b } := by
  obtain ⟨b, hb, rfl⟩ := Option.map_eq_some_iff.mp h
  exact ⟨b, hb, rfl⟩

theorem Owned.step {e : SharedEvent} (hs : s.Owned) (h : s.step bound e = some s') : s'.Owned := by
  obtain ⟨b, hb, rfl⟩ := step_cases h
  have hlength : s.exchange.length ≤ b.world.exchange.length := Bot.step_length hb
  rw [Owned] at hs ⊢
  rw [List.length_append, List.length_replicate, hs, Nat.add_sub_cancel' hlength]

/-- The open orders of a bot stay the same when its orders do, and another bot submits the new
ones. -/
theorem openOrders_eq {count : Nat} (howners : s'.owners = s.owners ++ List.replicate count i)
    (hsame : ∀ id : OrderId, s.owners[id]? = some j → s'.exchange[id]? = s.exchange[id]?)
    (hj : count = 0 ∨ j ≠ i) :
    s'.openOrders j = s.openOrders j := by
  have howner (id : OrderId) : s'.owners[id]? = some j ↔ s.owners[id]? = some j := by
    rw [howners, List.getElem?_append]
    split
    next => rfl
    next hle =>
      rw [List.getElem?_eq_none (Nat.le_of_not_lt hle), List.getElem?_replicate]
      split
      next hlt =>
        have hne := hj.resolve_left (Nat.ne_of_gt (Nat.lt_of_le_of_lt (Nat.zero_le _) hlt))
        exact ⟨fun h => absurd (Option.some.inj h).symm hne, nofun⟩
      next => rfl
  ext id
  simp only [openOrders, Set.mem_ofPred_eq, howner]
  refine and_congr_right fun hid => ?_
  rw [hsame id hid]

/-- What may change the open orders of the bots in a step. -/
structure Isolates (s : SharedAccount) (e : SharedEvent) (s' : SharedAccount) : Prop where
  /-- Another bot changes them only when it cancels. -/
  others : e.event.order? = none → (s.bot e.bot).cancels e.event = false →
    ∀ j, j ≠ e.bot → s'.openOrders j = s.openOrders j
  /-- The exchange changes those of the owner of an order. -/
  exchange : ∀ order, e.event.order? = some order → ∀ j, s.owners[order]? ≠ some j →
    s'.openOrders j = s.openOrders j
  /-- A bot that cancels, cancels those of all. -/
  cancelled : ∀ task, e.event = .serve task .done → (s.bot e.bot).cancels e.event →
    ∀ j, s'.openOrders j = ∅

theorem Owned.isolates {e : SharedEvent} (hs : s.Owned) (h : s.step bound e = some s') :
    s.Isolates e s' := by
  obtain ⟨b, hb, rfl⟩ := step_cases h
  refine ⟨fun horder hcancels j hj => ?_, fun order horder j hj => ?_,
    fun task htask hcancels j => ?_⟩
  · obtain ⟨accepted, haccepted⟩ := Bot.step_appends hb horder hcancels
    refine openOrders_eq rfl (fun id hid => ?_) (.inr hj)
    have hlt : id < s.exchange.length := hs ▸ (List.getElem?_eq_some_iff.mp hid).1
    dsimp only
    rw [haccepted]
    exact List.getElem?_append_left hlt
  · obtain ⟨hlength, hsame⟩ := Bot.step_order hb horder
    refine openOrders_eq rfl (fun id hid => hsame id ?_) (.inl (Nat.sub_eq_zero_of_le hlength.le))
    rintro rfl
    exact hj hid
  · rw [htask] at hb hcancels
    have hexchange := Bot.step_cancelled hb hcancels
    refine Set.eq_empty_of_forall_notMem fun id hid => ?_
    obtain ⟨-, hopen⟩ := hid
    dsimp only at hopen
    rw [hexchange] at hopen
    obtain ⟨o, ho, hopen⟩ := (Option.any_eq_true _ _).mp hopen
    exact Exchange.cancelAll_ne_opened ho (of_decide_eq_true hopen)

end SharedAccount

/-- In every run of the bots of an account, the open orders of a bot change only by its own steps,
when the exchange executes or ends one of its orders, and when another bot cancels all orders, its
own ones and those of the others. -/
theorem bots_isolated {s₀ s : SharedAccount} {es : List SharedEvent} (h₀ : s₀.Owned)
    (h : Run (Stepping (SharedAccount.step bound)) s₀ es s) :
    Run (Meeting (Stepping (SharedAccount.step bound)) SharedAccount.Isolates) s₀ es s :=
  h.mono_invariant (I := SharedAccount.Owned) (fun _ _ _ hs hstep => ⟨⟨hstep, hs.isolates hstep⟩,
    hs.step hstep⟩) h₀

def eventsOf (i : BotNumber) (events : List Event) : List SharedEvent := events.map (⟨i, ·⟩)

/-- A bot begins to trade, and its entry order is open. -/
def entryOpen : List SharedEvent := eventsOf 1 <|
  [.start oneTrade, .resume .main] ++ roundTrips .main
    [.done, .done, .done, .done, .done, .done, .tick (some 100), .candle (some (some 50, some 200)),
      .balances {}, .accepted 0 { price := some 100 }]

/-- Another bot begins to trade, and is stopped in an emergency. -/
def otherStopped : List SharedEvent := eventsOf 0 <|
  [.start oneTrade, .resume .main] ++ roundTrips .main [.done, .done, .done] ++ [.message true]

theorem entryOpen_enabled :
    (exec (SharedAccount.step 4) {} (entryOpen ++ otherStopped)).isSome := by
  decide +kernel

theorem bots_isolated_entryOpen :
    Run (Meeting (Stepping (SharedAccount.step 4)) SharedAccount.Isolates) {}
    (entryOpen ++ otherStopped)
      ((exec (SharedAccount.step 4) {} (entryOpen ++ otherStopped)).get entryOpen_enabled) :=
  bots_isolated rfl (Run.of_exec_get entryOpen_enabled)

theorem open_order_cancelled : ∃ s s',
    Run (Stepping (SharedAccount.step 4)) {} (entryOpen ++ otherStopped) s ∧
      s.step 4 ⟨0, .serve .stop .done⟩ = some s' ∧ 0 ∈ s.openOrders 1 ∧ 0 ∉ s'.openOrders 1 :=
  Run.exists_step (by decide +kernel)

end Tonatiuh.Trading
