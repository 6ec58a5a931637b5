import Tonatiuh.Trading.ExchangeService

/-! `ExchangeService` refines the requests that the other modules are about.

Reads leave the world as it is, so a repeated read is its last attempt. Where the orders are
cancelled one by one, the request is served at the second look at the open orders, which finds
none. -/

namespace Tonatiuh.Trading

open Async

variable {w w₀ w' : World} {n : Option CachedBalance} {r : Request}

/-! ## The world -/

theorem moves_of_ccxt (h : Moves ccxtEnvironment w w') : Moves environment w w' := by
  refine Relation.ReflTransGen.mono ?_ _ _ h
  intro w w' hmove
  obtain ⟨l, hmove⟩ := hmove
  cases l with
  | exchange e => exact ⟨.exchange e, hmove⟩
  | served | failed | done | openOrders | time => cases hmove

theorem serve_rejected (hr : r.isRead ∨ r = .cancelAllOrders) (message : String) :
    environment.serve w r (.served (.rejected message)) = some (.error message, w) := by
  rcases hr with hr | rfl
  · cases r <;> first | rfl | cases hr
  · rfl

theorem serve_read {outcome : Outcome} {x : Except String r.Answer} (hr : r.isRead)
    (h : serve w r outcome = some (x, w')) : w' = w := by
  cases r with
  | checkStatusOrderById id =>
    cases outcome with
    | reported shape =>
      obtain ⟨o, -, h⟩ := Option.map_eq_some_iff.mp h
      cases h
      rfl
    | rejected =>
      cases h
      rfl
    | _ => cases h
  | getTick | fetchOHLCV | getBalance =>
    cases outcome <;> cases h <;> rfl
  | _ => cases hr

theorem mapError_ofMessage {α : Type} (x : Except String α) :
    (x.mapError CcxtError.ofMessage).mapError CcxtError.message = x := by
  cases x <;> rfl

/-- A request that is answered by one call. -/
theorem serves_of_call {x : Except CcxtError r.Answer} {l : Reply} (hmoves : Moves environment w₀ w)
    (h : serveCall w (.call r) l = some (x, w')) :
    Serves environment r w₀ (x.mapError CcxtError.message) w' := by
  cases l with
  | served outcome =>
    simp only [serveCall] at h
    split at h
    next => cases h
    next =>
      obtain ⟨⟨y, w₁⟩, hserve, heq⟩ := Option.map_eq_some_iff.mp h
      cases heq
      exact (mapError_ofMessage y).symm ▸ ⟨w, .served outcome, hmoves, hserve⟩
  | failed error =>
    simp only [serveCall] at h
    split at h
    next hread =>
      cases h
      exact ⟨w, _, hmoves, serve_rejected (.inl hread) error.message⟩
    next => cases h
  | done | openOrders | time | exchange => cases h

theorem call_read {x : Except CcxtError r.Answer} {l : Reply} (hr : r.isRead)
    (h : serveCall w (.call r) l = some (x, w')) : w' = w := by
  cases l with
  | served outcome =>
    simp only [serveCall] at h
    split at h
    next => cases h
    next =>
      obtain ⟨⟨y, w₁⟩, hserve, heq⟩ := Option.map_eq_some_iff.mp h
      cases heq
      exact serve_read hr hserve
  | failed error =>
    simp only [serveCall] at h
    split at h
    next =>
      cases h
      rfl
    next => exact (‹¬ _› hr).elim
  | done | openOrders | time | exchange => cases h

theorem serves_error (hr : r.isRead ∨ r = .cancelAllOrders) (hmoves : Moves environment w₀ w)
    (message : String) :
    Serves environment r w₀ (.error message) w :=
  ⟨w, _, hmoves, serve_rejected hr message⟩

namespace Exchange

theorem mem_openOrders {x : Exchange} {id : OrderId} :
    id ∈ x.openOrders ↔ ∃ o, x[id]? = some o ∧ o.status = .opened := by
  rw [openOrders, List.mem_filter, List.mem_range, Option.any_eq_true]
  simp only [decide_eq_true_eq]
  constructor
  · exact fun h => h.2
  · rintro ⟨o, ho, hopened⟩
    exact ⟨(List.getElem?_eq_some_iff.mp ho).1, o, ho, hopened⟩

theorem cancelAll_of_openOrders {x : Exchange} (h : x.openOrders = []) : x.cancelAll = x := by
  rw [cancelAll]
  refine (List.map_congr_left fun o ho => ?_).trans (List.map_id x)
  obtain ⟨id, hid⟩ := List.mem_iff_getElem?.mp ho
  refine if_neg fun hopened => ?_
  have hmem : id ∈ x.openOrders := mem_openOrders.mpr ⟨o, hid, hopened⟩
  rw [h] at hmem
  cases hmem

end Exchange

/-- No order is open, so it is as if all had been cancelled. -/
theorem serves_cancelAll (hmoves : Moves environment w₀ w) (h : w.exchange.openOrders = []) :
    Serves environment .cancelAllOrders w₀ (.ok ()) w := by
  refine ⟨w, .served .done, hmoves, ?_⟩
  change some (Except.ok (), { w with exchange := w.exchange.cancelAll }) = some (Except.ok (), w)
  rw [Exchange.cancelAll_of_openOrders h]

/-! ## Methods -/

namespace ExchangeService

/-- The postcondition of a method. -/
abbrev Serving (r : Request) (w₀ : World) (x : Except CcxtError r.Answer) (_ : Option CachedBalance)
    (w : World) :
    Prop :=
  Serves environment r w₀ (x.mapError CcxtError.message) w

abbrev MeetsRequest (r : Request) (w₀ : World) :
    ServiceProg r.Answer → Option CachedBalance → World → Prop :=
  Meets ccxtEnvironment (Moves environment w₀) (Serving r w₀)

/-- A call that leaves the world as it is. -/
theorem send_meets {c : Call} {Q : Except CcxtError c.Answer → Option CachedBalance → World → Prop}
    (hw : Moves environment w₀ w)
    (hQ : ∀ w₁ l x w₂, Moves environment w₀ w₁ → serveCall w₁ c l = some (x, w₂) → Q x n w₂) :
    Meets ccxtEnvironment (Moves environment w₀) Q (send c) n w :=
  .request fun w₁ hw₁ => ⟨hw.trans (moves_of_ccxt hw₁), fun l x w₂ =>
    hQ w₁ l x w₂ (hw.trans (moves_of_ccxt hw₁))⟩

theorem readAttempts_meets (hr : r.isRead) (lastError : CcxtError) (attempts : List Nat)
    (hw : Moves environment w₀ w) :
    MeetsRequest r w₀ (readAttempts (send (.call r)) lastError attempts) n w := by
  induction attempts generalizing lastError n w with
  | nil => exact serves_error (.inl hr) hw lastError.message
  | cons attempt rest ih =>
    refine Meets.tryCatch (Q := fun x _ w' => Serving r w₀ x n w' ∧ Moves environment w₀ w')
      (send_meets hw fun w₁ l x w₂ hw₁ hserve => ⟨serves_of_call hw₁ hserve,
        call_read hr hserve ▸ hw₁⟩)
      (fun a n w h => h.1) fun error n w h => ?_
    split
    next => exact h.1
    next =>
      refine Meets.bind (Q := fun x _ w' => x = .ok () ∧ Moves environment w₀ w')
        (send_meets h.2 fun w₁ l x w₂ hw₁ hserve => ?_) (fun _ n w h => ih error h.2)
          fun _ _ _ h => by cases h.1
      cases l <;> cases hserve
      exact ⟨rfl, hw₁⟩

theorem readWithRetry_meets (hr : r.isRead) (hw : Moves environment w₀ w) :
    MeetsRequest r w₀ (readWithRetry r) n w :=
  readAttempts_meets hr _ _ hw

/-- Whatever is the answer, the exchange could give it now. -/
theorem getBalance_answer (hmoves : Moves environment w₀ w) (value : Balances) :
    Serves environment .getBalance w₀ (.ok value) w :=
  ⟨w, .served (.balances value), hmoves, rfl⟩

theorem now_meets {Q : Except CcxtError Nat → Option CachedBalance → World → Prop}
    (hw : Moves environment w₀ w) (hQ : ∀ now w, Moves environment w₀ w → Q (.ok now) n w) :
    Meets ccxtEnvironment (Moves environment w₀) Q (send .now) n w :=
  send_meets hw fun w₁ l x w₂ hw₁ hserve => by
    cases l <;> cases hserve
    exact hQ _ _ hw₁

theorem Serves.moves_of_read {x : Except String r.Answer} (hr : r.isRead)
    (h : Serves environment r w₀ x w) :
    Moves environment w₀ w := by
  obtain ⟨w₁, l, hmoves, hserve⟩ := h
  obtain ⟨outcome, -, hserve⟩ := environment_serve hserve
  exact serve_read hr hserve ▸ hmoves

theorem fetchBalance_meets (hw : Moves environment w₀ w) :
    MeetsRequest .getBalance w₀ fetchBalance n w := by
  refine (readWithRetry_meets rfl hw).bind (fun value n w h => ?_) fun _ _ _ h => h
  refine (now_meets (Q := fun x _ w' => (∃ now, x = .ok now) ∧ Moves environment w₀ w')
    (Serves.moves_of_read rfl h) fun now w hw => ⟨⟨now, rfl⟩, hw⟩).bind (fun now n w h => ?_)
      fun _ _ _ h => ?_
  · exact getBalance_answer h.2 value
  · obtain ⟨⟨_, h⟩, -⟩ := h
    cases h

theorem getBalance_meets (hw : Moves environment w₀ w) :
    MeetsRequest .getBalance w₀ getBalance n w := by
  cases n with
  | none => exact fetchBalance_meets (n := none) hw
  | some cache =>
    change MeetsRequest .getBalance w₀ (send .now >>= fun now =>
      if now < cache.expiresAt then pure cache.value else fetchBalance) (some cache) w
    refine (now_meets (Q := fun x _ w' => (∃ now, x = .ok now) ∧ Moves environment w₀ w') hw
      fun now w hw => ⟨⟨now, rfl⟩, hw⟩).bind (fun now n w h => ?_) fun _ _ _ h => ?_
    · split
      next => exact getBalance_answer h.2 cache.value
      next => exact fetchBalance_meets h.2
    · obtain ⟨⟨_, h⟩, -⟩ := h
      cases h

/-- The open orders are those of the moment at which they are fetched. -/
theorem fetchOpenOrders_meets (hw : Moves environment w₀ w) :
    Meets ccxtEnvironment (Moves environment w₀)
      (fun x _ w => Moves environment w₀ w ∧ ∀ openOrders, x = .ok openOrders →
        openOrders = w.exchange.openOrders)
      (send .fetchOpenOrders) n w :=
  send_meets hw fun w₁ l x w₂ hw₁ hserve => by
    cases l <;> cases hserve
    · exact ⟨hw₁, fun openOrders h => by cases h⟩
    · refine ⟨hw₁, fun openOrders h => ?_⟩
      cases h
      rfl

theorem cancelSeparately_meets (symbol : String) (bulkCancelError : CcxtError)
    (hw : Moves environment w₀ w) :
    MeetsRequest .cancelAllOrders w₀ (cancelSeparately symbol bulkCancelError) n w := by
  have hfetch : Meets ccxtEnvironment (Moves environment w₀)
      (fun x _ w => Moves environment w₀ w ∧ ∀ openOrders, x = .ok openOrders →
        openOrders = w.exchange.openOrders)
      ((send .fetchOpenOrders).tryCatch fun _ => throw bulkCancelError) n w :=
    (fetchOpenOrders_meets hw).tryCatch (fun _ _ _ h => h) fun _ _ _ h =>
      ⟨h.1, fun _ h => by cases h⟩
  refine hfetch.bind (fun openOrders n w h => ?_) fun error _ _ h =>
    serves_error (.inr rfl) h.1 error.message
  split
  next hempty => exact serves_cancelAll h.1 ((h.2 _ rfl).symm.trans hempty)
  next =>
    refine Meets.bind (Q := fun x _ w => x = .ok () ∧ Moves environment w₀ w)
      (send_meets h.1 fun w₁ l x w₂ hw₁ hserve => ?_) (fun _ n w h => ?_) fun _ _ _ h => by
        cases h.1
    · cases l <;> cases hserve
      exact ⟨rfl, hw₁⟩
    refine (fetchOpenOrders_meets h.2).bind (fun remainingOrders n w h => ?_) fun error _ _ h =>
      serves_error (.inr rfl) h.1 error.message
    split
    next hempty => exact serves_cancelAll h.1 ((h.2 _ rfl).symm.trans hempty)
    next => exact serves_error (.inr rfl) h.1 (unableToCancel symbol remainingOrders).message

theorem cancelAllOrders_meets (symbol : String) (hw : Moves environment w₀ w) :
    MeetsRequest .cancelAllOrders w₀ (cancelAllOrders symbol) n w := by
  refine Meets.tryCatch (Q := fun x _ w => Serving .cancelAllOrders w₀ x n w ∧
      ∀ error, x = .error error → Moves environment w₀ w)
        (send_meets hw fun w₁ l x w₂ hw₁ hserve => ?_)
    (fun _ _ _ h => h.1) fun error n w h => cancelSeparately_meets symbol error (h.2 error rfl)
  cases l <;> cases hserve
  · exact ⟨serves_error (.inr rfl) hw₁ _, fun _ _ => hw₁⟩
  · exact ⟨⟨w₁, .served .done, hw₁, rfl⟩, fun _ h => by cases h⟩

/-- What is answered by one call. -/
theorem send_meetsRequest (hw : Moves environment w₀ w) : MeetsRequest r w₀ (send (.call r)) n w :=
  send_meets hw fun _ _ _ _ hw₁ hserve => serves_of_call hw₁ hserve

theorem method_refines (symbol : String) (r : Request) :
    Refines environment ccxtEnvironment CcxtError.message r (method symbol r) := by
  intro n w
  cases r with
  | cancelAllOrders => exact cancelAllOrders_meets symbol .refl
  | checkStatusOrderById id => exact readWithRetry_meets rfl .refl
  | getTick => exact readWithRetry_meets rfl .refl
  | getBalance => exact getBalance_meets .refl
  | _ => exact send_meetsRequest .refl

end ExchangeService

/-- Each execution over `ExchangeService` is one over the requests: where it returns, the other one
returns the same, and where it is cut off, the other one can be cut off with the same memory and the
same world. -/
theorem exchangeService_refines (symbol : String) (p : Prog α) {m m' : Memory}
    {cache cache' : Option CachedBalance} {w w' : World} {t : List Reply} :
    (∀ x, Returns ccxtEnvironment (p.overService symbol) ((m, cache), w) t x ((m', cache'), w') →
      ∃ t', Returns environment p (m, w) t' (x.mapError CcxtError.message) (m', w')) ∧
    (Cut ccxtEnvironment (p.overService symbol) ((m, cache), w) t ((m', cache'), w') →
      ∃ t', Cut environment p (m, w) t' (m', w')) :=
  ⟨fun _ h => h.implement (ExchangeService.method_refines symbol) fun _ => rfl,
    fun h => h.implement (ExchangeService.method_refines symbol)⟩

/-- A coin is held, and half of another order is executed. -/
def halfExecuted : World where
  exchange := [⟨some 0, .entry, .buy, 1, 1, .closed⟩, ⟨some 0, .entry, .buy, 2, 1, .opened⟩]

def holding : Memory where
  config :=
    { apiKey := "", privateKey := "", password := "", symbol := "BTC/USDT", exchange := .okx }
  indexOperation := some 0
  orders :=
    [.row ⟨some 0, 0, some 100, some 1, .buy, true⟩, .row ⟨some 0, 1, some 100, some 2, .buy, true⟩]

/-- The exchange cannot cancel all orders in one call, and the first look at an order times out. -/
def cancelledSeparately : List Reply :=
  [.failed { name := "NotSupported", message := "cancelAllOrders" }, .openOrders,
    .exchange (.terminate 1 .canceled), .done, .openOrders,
    .failed { name := "RequestTimeout", message := "fetchOrder" }, .done, .served (.reported {}),
    .served (.reported {}), .served (.tick (some 100)), .served (.accepted 2 {}), .served .done]

theorem cancelledSeparately_ends :
    (((closeFilledPosition 3 (some 0)).overService "BTC/USDT").ends ccxtEnvironment (holding,
      none) halfExecuted
      cancelledSeparately).isSome := by decide +kernel

theorem exchangeService_refines_cancelledSeparately : ∃ t m w, w.exchange.net (some 0) = 0 ∧
    Returns environment (closeFilledPosition 3 (some 0)) (holding, halfExecuted) t
      (.ok (some ⟨2, .sell, some .closed, some 2, some 2, none, none⟩)) (m, w) := by
  have hreturns := Returns.of_ends_eq (h := cancelledSeparately_ends)
    (x := .ok (some ⟨2, .sell, some .closed, some 2, some 2, none, none⟩)) (by decide +kernel)
  obtain ⟨t, ht⟩ :=
    (exchangeService_refines "BTC/USDT" (closeFilledPosition 3 (some 0))).1 _ hreturns
  exact ⟨t, _, _, by decide +kernel, ht⟩

end Tonatiuh.Trading
