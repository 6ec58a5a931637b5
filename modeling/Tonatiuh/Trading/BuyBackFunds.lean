import Tonatiuh.Async.Execution
import Tonatiuh.Trading.WatchRequests

/-! What the buy-backs of the watch loop lock, and what is free on the exchange when they are
submitted.

The account is used by one bot only: a free balance goes down only when an order of the bot is
accepted. The loop takes its balances from `getBalance`, which answers for ten seconds with those it
has fetched last. Two ghost fields tell of each side whether an order that locks its currency has
been accepted since the cached balances were fetched, and since those were with which the loop was
answered last. -/

namespace Tonatiuh.Trading

open Async

/-- The balance of the currency that an order of the side locks. -/
def Balances.of (b : Balances) : Side → Option Num
  | .sell => b.first
  | .buy => b.second

/-- What an order locks. -/
def requiredBalance (side : Side) (amount : Rat) (price : Num) : Num :=
  match side with
  | .buy => Num.mul (some amount) price
  | .sell => some amount

/-- These are the free balances, as far as they are listed. -/
def Balances.Reports (b : Balances) (free : Side → Rat) : Prop :=
  (∀ q ∈ b.first.join, q = free .sell) ∧ ∀ q ∈ b.second.join, q = free .buy

instance (b : Balances) (free : Side → Rat) : Decidable (b.Reports free) :=
  inferInstanceAs (Decidable (_ ∧ _))

/-- As much is free of every currency of which nothing has been spent. -/
def Balances.Within (b : Balances) (free : Side → Rat) (spent : Side → Bool) : Prop :=
  ∀ side q, spent side = false → b.of side = some (some q) → q ≤ free side

/-- The account on the exchange, the balances that `ExchangeService` has cached with the time at
which they expire, and the clock in milliseconds. -/
structure Account where
  free : Side → Rat
  clock : Nat := 0
  cache : Option (Balances × Nat) := none
  cacheSpent : Side → Bool := fun _ => false
  readSpent : Side → Bool := fun _ => false
  fetched : ∀ entry ∈ cache, entry.1.Within free cacheSpent

/-- What happens to the account while the loop waits: an order gives its currency back or an
execution brings the other one, time passes, or another task of the bot submits an order or fetches
the balances. -/
inductive AccountEvent where
  | credited (side : Side) (q : { q : Rat // 0 ≤ q })
  | passed (ms : Nat)
  | ordered (side : Side) (required : Rat)
  | fetched (b : Balances) (latency : Nat)

theorem Balances.Within.mono {b : Balances} (h : b.Within free spent)
    (hkept : ∀ side, spent' side = false → spent side = false ∧ free side ≤ free' side) :
    b.Within free' spent' := by
  intro side q hspent hq
  obtain ⟨hs, hle⟩ := hkept side hspent
  exact (h side q hs hq).trans hle

theorem Balances.Reports.within {b : Balances} (h : b.Reports free) (spent : Side → Bool) :
    b.Within free spent := by
  intro side q _ hq
  cases side with
  | sell => exact (h.1 q (by rw [show b.first = _ from hq]; rfl)).le
  | buy => exact (h.2 q (by rw [show b.second = _ from hq]; rfl)).le

theorem Balances.Within.credit {b : Balances} (h : b.Within free spent) (side : Side) {q : Rat}
    (hq : 0 ≤ q) :
    b.Within (Function.update free side (free side + q)) spent := by
  refine h.mono fun side' hspent => ⟨hspent, ?_⟩
  by_cases hside : side' = side
  · subst hside
    rw [Function.update_self]
    exact le_add_of_nonneg_right hq
  · rw [Function.update_of_ne hside]

theorem Balances.Within.order {b : Balances} (h : b.Within free spent) (side : Side)
    (required : Rat) :
    b.Within (Function.update free side required) (Function.update spent side true) := by
  refine h.mono fun side' hspent => ?_
  by_cases hside : side' = side
  · subst hside
    rw [Function.update_self] at hspent
    cases hspent
  · rw [Function.update_of_ne hside] at hspent ⊢
    exact ⟨hspent, le_rfl⟩

namespace Account

/-- The cached balances, unless they have expired. -/
def cached (s : Account) : Option Balances :=
  match s.cache with
  | some (b, expiresAt) => if s.clock < expiresAt then some b else none
  | none => none

/-- An order is accepted. -/
def order (s : Account) (side : Side) (required : Rat) : Account :=
  { s with
    free := Function.update s.free side (s.free side - required)
    cacheSpent := Function.update s.cacheSpent side true
    readSpent := Function.update s.readSpent side true
    fetched := fun entry hentry => (s.fetched entry hentry).order side _ }

/-- The balances are fetched, and cached when they have arrived. -/
def fetch (s : Account) (b : Balances) (hb : b.Reports s.free) (latency : Nat) : Account :=
  { s with
    clock := s.clock + latency
    cache := some (b, s.clock + latency + 10000)
    cacheSpent := fun _ => false
    fetched := by
      rintro _ ⟨⟩
      exact hb.within _ }

/-- The loop is answered with the cached balances. -/
def read (s : Account) : Account := { s with readSpent := s.cacheSpent }

def event (s : Account) : AccountEvent → Account
  | .credited side q =>
    { s with
      free := Function.update s.free side (s.free side + q)
      fetched := fun entry hentry => (s.fetched entry hentry).credit side q.2 }
  | .passed ms => { s with clock := s.clock + ms }
  | .ordered side required => s.order side required
  | .fetched b latency => if hb : b.Reports s.free then s.fetch b hb latency else s

/-- The balances with which the loop was answered last. -/
def Holds (b : Balances) (s : Account) : Prop := b.Within s.free s.readSpent

theorem Holds.event {b : Balances} {s : Account} (h : Holds b s) (e : AccountEvent) :
    Holds b (s.event e) := by
  cases e with
  | credited side q => exact h.credit side q.2
  | passed ms => exact h
  | ordered side required => exact h.order side _
  | fetched b' latency =>
    rw [Account.event]
    split
    next => exact h
    next => exact h

theorem Holds.events {b : Balances} {s : Account} (h : Holds b s) (events : List AccountEvent) :
    Holds b (events.foldl Account.event s) := by
  induction events generalizing s with
  | nil => exact h
  | cons e events ih => exact ih (h.event e)

end Account

/-! ## Requests -/

/-- How a request is answered. Only the balances and what orders lock matter here. -/
inductive AccountOutcome where
  | cached
  | fetched (b : Balances) (latency : Nat)
  | accepted (order : Order)
  | lost (message : String)
  | rejected (message : String)
  | answered (answer : Sigma Request.Answer)

namespace Account

/-- An order that is accepted locks its currency, also when the answer is lost. -/
def serve (s : Account) : (r : Request) → AccountOutcome → Option (Except String r.Answer × Account)
  | .getBalance, .cached => s.cached.map fun b => (.ok b, s.read)
  | .getBalance, .fetched b latency =>
    if h : s.cached = none ∧ b.Reports s.free then some (.ok b, (s.fetch b h.2 latency).read)
    else none
  | .getBalance, .answered _ => none
  | .createOrder _ _ side amount price, .accepted order =>
    (requiredBalance side amount price).map fun q => (.ok order, s.order side q)
  | .createOrder _ _ side amount price, .lost message =>
    (requiredBalance side amount price).map fun q => (.error message, s.order side q)
  | .createOrder .., .answered _ => none
  | r, .answered answer => if h : answer.1 = r then some (.ok (h ▸ answer.2), s) else none
  | _, .rejected message => some (.error message, s)
  | _, _ => none

end Account

/-- The request is no buy-back, or under the condition it locks no more than is free. -/
def Request.Funded (C : Account → Side → Prop) (s : Account) : Request → Prop
  | .createOrder .entry _ side amount price =>
    C s side → Num.le (requiredBalance side amount price) (some (s.free side)) = true
  | _ => True

/-- As long as a buy-back is submitted it is funded, under the condition. -/
def fundsContract (C : Account → Side → Prop) : Contract api Memory Account String where
  rely s t := ∃ events : List AccountEvent, t.2 = events.foldl Account.event s.2
  rely_refl _ := ⟨[], rfl⟩
  rely_trans := by
    rintro s t u ⟨events, ht⟩ ⟨events', hu⟩
    exact ⟨events ++ events', by rw [hu, ht, List.foldl_append]⟩
  served r s x t := ∃ outcome, s.2.serve r outcome = some (x, t.2)
  pending r s := r.Funded C s.2
  ready _ := True
  pending_ready _ _ _ := trivial

namespace Account

variable {s s' : Account} {b : Balances}

theorem Holds.serve {r : Request} {x : Except String r.Answer} (h : Holds b s)
    (hr : r ≠ .getBalance) (hserve : s.serve r outcome = some (x, s')) : Holds b s' := by
  unfold Account.serve at hserve
  split at hserve
  next => exact absurd rfl hr
  next => exact absurd rfl hr
  next => cases hserve
  next side amount price order =>
    obtain ⟨q, -, hserve⟩ := Option.map_eq_some_iff.mp hserve
    cases hserve
    exact h.order side _
  next side amount price message =>
    obtain ⟨q, -, hserve⟩ := Option.map_eq_some_iff.mp hserve
    cases hserve
    exact h.order side _
  next => cases hserve
  next =>
    split at hserve
    next => cases hserve; exact h
    next => cases hserve
  next => cases hserve; exact h
  next => cases hserve

/-- `getBalance` answers with balances that were free when they were fetched. -/
theorem holds_of_getBalance (hserve : s.serve .getBalance outcome = some (.ok b, s')) :
    Holds b s' := by
  cases outcome with
  | cached =>
    obtain ⟨b', hcached, hserve⟩ := Option.map_eq_some_iff.mp hserve
    cases hserve
    unfold cached at hcached
    split at hcached
    next entry hentry =>
      split at hcached
      next => cases hcached; exact s.fetched _ hentry
      next => cases hcached
    next => cases hcached
  | fetched b' latency =>
    simp only [serve] at hserve
    split at hserve
    next h => cases hserve; exact h.2.within _
    next => cases hserve
  | accepted | lost | rejected | answered => cases hserve

end Account

/-! ## A round -/

theorem Num.eq_some_of_le {a b : Num} (h : Num.le a b = true) : ∃ q, b = some q := by
  cases b with
  | none => cases a <;> cases h
  | some q => exact ⟨q, rfl⟩

theorem Num.le_of_le_of_le {a : Num} {p q : Rat} (h : Num.le a (some p) = true) (hpq : p ≤ q) :
    Num.le a (some q) = true := by
  cases a with
  | none => cases h
  | some x => exact decide_eq_true ((of_decide_eq_true h).trans hpq)

/-- A buy-back is affordable with the balance it is given. -/
theorem calculateBuyBackOrderAmount_le
    (h : calculateBuyBackOrderAmount side availableBalance lastPrice percentFromBalance positionSize
      drawdownStep
      fibonacci = some amount) (hpos : 0 < amount) :
    Num.le (requiredBalance side amount lastPrice) availableBalance = true := by
  unfold calculateBuyBackOrderAmount at h
  split at h
  next => cases h; exact absurd hpos (lt_irrefl 0)
  next =>
    extract_lets size required at h
    split at h
    next hle =>
      simp only [required, h] at hle
      cases side with
      | buy => exact hle.2
      | sell => exact hle.2
    next => cases h; exact absurd hpos (lt_irrefl 0)

/-- Of the currency that the orders of the side lock nothing has been spent. -/
def Account.Unspent (s : Account) (side : Side) : Prop := s.readSpent side = false

/-- The order enters the position, or adds to it. -/
def Request.entering : Request → Bool
  | .createOrder .entry .. => true
  | _ => false

theorem Request.funded_of_not_entering {r : Request} (h : r.entering = false)
    (C : Account → Side → Prop) (s : Account) : r.Funded C s := by
  unfold Funded
  split
  next => cases h
  next => trivial

theorem Request.entering_of_passive (r : Request) (h : r.passive = true) : r.entering = false := by
  cases r with
  | createOrder => cases h
  | _ => rfl

/-- The requests of a program that neither enters a position nor reads the balances. -/
def Request.Bystanding (r : Request) : Prop := r.entering = false ∧ r ≠ .getBalance

theorem Request.bystanding_of_waits {r : Request} (h : r.Waits) : r.Bystanding := by
  cases r with
  | cancelAllOrders | checkStatusOrderById | sleep => exact ⟨rfl, nofun⟩
  | _ => cases h

theorem bystanding_closes : Closes Request.Bystanding fun _ => True where
  getTick := ⟨rfl, nofun⟩
  trades _ _ :=
    { waits := fun _ => Request.bystanding_of_waits
      getTick := ⟨rfl, nofun⟩
      createOrder := fun _ _ _ => ⟨rfl, nofun⟩
      createOrderRow := fun _ _ => ⟨rfl, nofun⟩ }
  push _ _ := id

variable {C : Account → Side → Prop} {s : Memory × Account} {b : Balances}

/-- Such a program changes nothing of what was answered. -/
theorem safe_of_bystanding {p : Prog α} (hp : p.Confined Request.Bystanding fun _ => True)
    (hb : Account.Holds b s.2) : Safe (fundsContract C) (fun _ t => Account.Holds b t.2) p s := by
  refine (Safe.of_confined (I := Account.Holds b) hp trivial hb ?_ ?_ ?_ fun _ _ => trivial).mono
    fun _ _ h => h.2
  · rintro s t ⟨events, ht⟩ - hs
    exact ⟨trivial, ht ▸ hs.events events⟩
  · rintro r s x t hr ⟨outcome, hserve⟩ - hs
    exact ⟨trivial, hs.serve hr.2 hserve⟩
  · exact fun r s hr _ => Request.funded_of_not_entering hr.1 C s.2

/-- A program that enters no position is safe. -/
theorem safe_of_not_entering {p : Prog α}
    (hp : p.Confined (fun r : Request => r.entering = false) fun _ => True) :
    Safe (fundsContract C) (fun _ _ => True) p s :=
  Safe.of_sends (fun _ s hr => Request.funded_of_not_entering hr C s.2)
    (fun _ => trivial) (fun _ _ => trivial) hp.sends s

theorem getBalance_holds : Safe (fundsContract C) (fun x t => match x with
    | .ok b => Account.Holds b t.2
    | .error _ => True) (request .getBalance) s := by
  apply Safe.request
  intro s' _
  refine ⟨trivial, ?_⟩
  rintro x t ⟨outcome, hserve⟩ u ⟨events, hu⟩
  refine ⟨trivial, ?_⟩
  cases x with
  | ok b => exact hu ▸ (Account.holds_of_getBalance hserve).events events
  | error e => trivial

/-- The market is observed with the balances that were answered. -/
theorem observeMarket_holds (w : WatchState) : Safe (fundsContract C) (fun x t => match x with
    | .ok market => Account.Holds market.balance t.2
    | .error _ => True) (observeMarket w) s := by
  have hreload : reloadConfig.Confined (fun r : Request => r.entering = false) fun _ => True := by
    refine .bind (.request rfl) fun config => ?_
    split
    next => exact .pure _
    next => exact .modifies fun _ => id
  refine Safe.bind (safe_of_not_entering hreload) (fun _ t _ => ?_) fun _ _ _ => trivial
  refine Safe.bind getBalance_holds (fun balance u hu => ?_) fun _ _ _ => trivial
  refine safe_get_bind.mpr ?_
  split
  next => trivial
  next =>
    refine Safe.bind (safe_of_bystanding (b := balance) (.request ⟨rfl, nofun⟩) hu)
      (fun lastPrice v hv => ?_)
      fun _ _ _ => trivial
    refine safe_get_bind.mpr ?_
    dsimp only
    split
    next => trivial
    next =>
      split
      next => trivial
      next => exact hv

/-- A buy-back sized by the balances that were answered last is funded. -/
theorem buyBack_funded (w : WatchState) (market : Market) (hs : Account.Holds market.balance s.2) :
    Safe (fundsContract Account.Unspent) (fun _ _ => True) (buyBack w market) s := by
  unfold buyBack
  dsimp only
  split
  next =>
    split
    next => trivial
    next free hfree =>
      refine safe_get_bind.mpr ?_
      split
      next => trivial
      next amount hamount =>
        split
        next hpos =>
          have hle := calculateBuyBackOrderAmount_le hamount hpos
          have hof : market.balance.of market.entrySide = some free := hfree
          refine Safe.bind (Q := fun _ _ => True) ?_ (fun _ _ _ => trivial) fun _ _ _ => trivial
          refine Safe.bind (Q := fun _ _ => True) ?_ (fun order t _ => ?_) fun _ _ _ => trivial
          · apply Safe.request
            rintro s' ⟨events, hs'⟩
            refine ⟨fun hunspent => ?_, fun _ _ _ _ _ => ⟨trivial, trivial⟩⟩
            obtain ⟨q, rfl⟩ := Num.eq_some_of_le hle
            have hholds : Account.Holds market.balance s'.2 := hs' ▸ hs.events events
            exact Num.le_of_le_of_le hle (hholds _ q hunspent hof)
          · have htrades := bystanding_closes.trades s.1 trivial
            exact safe_of_not_entering
              (.mono (htrades.entered (fun _ _ _ => trivial) ..) fun _ h => h.1)
        next => trivial
  next => trivial

/-! ## The loop -/

theorem endTradeSession_entering (deltaForSale : Num) :
    (endTradeSession deltaForSale).Confined (fun r : Request => r.entering = false) fun _ => True :=
  endTradeSession_confined Request.entering_of_passive
    (fun _ _ => rfl) (fun _ => rfl) (fun _ => id) deltaForSale

theorem closeAndEnd_entering (bound : Nat) (deltaForSale : Num) :
    (closeAndEnd bound deltaForSale).Confined
      (fun r : Request => r.entering = false) fun _ => True :=
  (bystanding_closes.mono fun _ h => h.1).closeAndEnd bound deltaForSale
    (endTradeSession_entering deltaForSale)

theorem watchRound_funded (bound : Nat) (w : WatchState) :
    Safe (fundsContract Account.Unspent) (fun _ _ => True) (watchRound bound w) s := by
  refine Safe.bind (observeMarket_holds w) (fun market t ht => ?_) fun _ _ _ => trivial
  refine safe_get_bind.mpr ?_
  split
  next =>
    exact safe_of_not_entering (.bind (.request rfl) fun _ =>
      .bind (closeAndEnd_entering bound _) fun _ => .pure _)
  next =>
    split
    next => trivial
    next =>
      split
      next => exact safe_of_not_entering (.bind (closeAndEnd_entering bound _) fun _ => .pure _)
      next =>
        refine Safe.bind (safe_of_bystanding
          (bystanding_closes.watchingTakeProfitLogic bound _ _) ht)
          (fun takeProfit u hu => ?_) fun _ _ _ => trivial
        split
        next => exact safe_of_not_entering (.bind (endTradeSession_entering _) fun _ => .pure _)
        next =>
          exact Safe.bind (buyBack_funded w market hu)
            (fun _ _ _ => safe_of_not_entering (.bind (.request rfl) fun _ => .pure _))
              fun _ _ _ => trivial

/-- Whatever the account, the prices and the configurations, a buy-back of the loop locks no more
than is free when it is submitted, if of its currency nothing has been spent since the balances were
fetched that sized it. -/
theorem watchingProcess_funded (bound rounds : Nat) (w : WatchState) (s : Memory × Account) :
    Safe (fundsContract Account.Unspent) (fun _ _ => True) (watchingProcess bound rounds w) s := by
  induction rounds generalizing w s with
  | zero => trivial
  | succ rounds ih =>
    refine safe_get_bind.mpr ?_
    split
    next => trivial
    next =>
      refine Safe.bind (watchRound_funded bound w) (fun next t _ => ?_) fun _ _ _ => trivial
      cases next with
      | none => trivial
      | some w => exact ih w t

/-! ## Two buy-backs within the ten seconds -/

/-- An account in which requests are answered and events happen. -/
def accountEnvironment : Environment api Account String (AccountOutcome ⊕ AccountEvent) where
  serve s r
    | .inl outcome => s.serve r outcome
    | .inr _ => none
  move s
    | .inr e => some (s.event e)
    | .inl _ => none

theorem fundsContract_covers : (fundsContract C).Covers accountEnvironment where
  served {w r l x w' m} h := by
    cases l with
    | inl outcome => exact ⟨outcome, h⟩
    | inr e => cases h
  moved {w l w' m} h := by
    cases l with
    | inl outcome => cases h
    | inr e => cases h; exact ⟨[e], rfl⟩

/-- A long position of 1 at 100, and 1000 of the quote currency that are free. -/
def longAccount : Account where
  free
    | .buy => 1000
    | .sell => 0
  fetched _ h := by cases h

def longMemory : Memory where
  config := {
    apiKey := "key", privateKey := "secret", password := "", symbol := "BTC/USDT", exchange := .okx
    percentBuyBackStep := 1 / 10, percentFromBalance := 3 / 5, stopLoss := some (1 / 2) }
  orders :=
    [.row { session := none, orderId := 0, price := some 100, amount := some 1, side := .buy }]

def longWatch : WatchState where
  firstOrderSide := some .buy
  price := some 100
  buyingBack := some 1
  drawdownStep := 1

/-- At 80 the loop buys 7.5 for 600, and a second later, at 64, it goes on with the balance of
before. -/
def twoBuyBacks : List (AccountOutcome ⊕ AccountEvent) :=
  [.inl (.answered ⟨.getConfigById, none⟩),
    .inl (.fetched { first := some (some 0), second := some (some 1000) } 200),
    .inl (.answered ⟨.getTick, some 80⟩),
    .inl (.accepted { id := 1, side := .buy, status := some .closed, amount := some (15 / 2),
                      filled := some (15 / 2), average := some 80, price := some 80 }),
    .inr (.credited .sell ⟨15 / 2, by norm_num⟩),
    .inl (.answered ⟨.createOrderRow { session := none, orderId := 1, price := some 80,
                                       amount := some (15 / 2), side := .buy }, ()⟩),
    .inr (.passed 1000),
    .inl (.answered ⟨.sleep 1000, ()⟩),
    .inl (.answered ⟨.getConfigById, none⟩),
    .inl .cached,
    .inl (.answered ⟨.getTick, some 64⟩)]

theorem twoBuyBacks_waitsFor :
    ((watchingProcess 1 2 longWatch).waitsFor accountEnvironment longMemory longAccount
      twoBuyBacks).map
      (fun x => ((x.1 : Request), x.2.free .buy)) =
        some (.createOrder .entry none .buy (75 / 8) (some 64), 400) := by
  decide +kernel

/-- The second buy-back takes 600 of the 400 that are left. -/
theorem watchingProcess_not_funded :
    ¬ Safe (fundsContract fun _ _ => True) (fun _ _ => True) (watchingProcess 1 2 longWatch)
      (longMemory, longAccount) := by
  intro h
  obtain ⟨⟨r, a⟩, hwaits, hr⟩ := Option.map_eq_some_iff.mp twoBuyBacks_waitsFor
  obtain ⟨hr, hfree⟩ := Prod.mk.inj hr
  obtain rfl : r = .createOrder .entry none .buy (75 / 8) (some 64) := hr
  obtain ⟨m, hfunded⟩ := h.waitsFor fundsContract_covers hwaits
  have hle : Num.le (some (75 / 8 * 64)) (some (a.free .buy)) = true := hfunded trivial
  rw [show a.free .buy = 400 from hfree] at hle
  exact absurd (of_decide_eq_true hle) (by norm_num)

end Tonatiuh.Trading
