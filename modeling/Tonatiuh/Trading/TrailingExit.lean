import Tonatiuh.Async.Execution
import Tonatiuh.Trading.Watch
import Mathlib.Data.List.Induction
import Mathlib.Algebra.Order.Group.MinMax

/-! The trailing exit of `_onPriceTracker`.

The targets follow the price over the distance `reversePriceIndent`. What they are depends on the
prices that have been compared with them, in their order; a price is compared when the second
request of its round has been answered too. If that one fails, the tracker ends without a close,
whatever the price. A close is attempted with `cancelAllOrders`, the first request of
`closeFilledPosition`. -/

namespace Tonatiuh.Trading

open Async Config

/-! ## The targets -/

/-- The targets after a price that was compared with them, when the exit goes on. -/
def nextTargets (side : Side) (reversePriceIndent : Num) (targets : Num × Num) (lastPrice : Num) :
    Num × Num :=
  if takeTargetReached side lastPrice targets.1 then
    calculateTargets side reversePriceIndent lastPrice
  else
    targets

/-- The targets after the start and a list of prices. -/
def targetsAfter (side : Side) (reversePriceIndent price : Num) (prices : List Num) : Num × Num :=
  prices.foldl (nextTargets side reversePriceIndent)
    (calculateTargets side reversePriceIndent price)

def stopAfter (side : Side) (reversePriceIndent price : Num) (prices : List Num) : Num :=
  (targetsAfter side reversePriceIndent price prices).2

/-- A close is to be attempted at `lastPrice`. -/
def reaches (side : Side) (reversePriceIndent price : Num) (prices : List Num)
    (lastPrice : Num) : Bool :=
  stopTargetReached side lastPrice (stopAfter side reversePriceIndent price prices)

/-- And at none of the prices. -/
def Unreached (side : Side) (reversePriceIndent price : Num) (prices : List Num) : Prop :=
  ∀ before lastPrice, before ++ [lastPrice] <+: prices →
    reaches side reversePriceIndent price before lastPrice = false

/-- The highest of the prices and `price`. -/
def highest (price : Rat) (prices : List Num) : Rat :=
  prices.foldl (fun high p => p.elim high (max high)) price

/-- The lowest of the prices and `price`. -/
def lowest (price : Rat) (prices : List Num) : Rat :=
  prices.foldl (fun low p => p.elim low (min low)) price

section
variable {side : Side} {reversePriceIndent price lastPrice : Num} {prices : List Num}

theorem targetsAfter_concat : targetsAfter side reversePriceIndent price (prices ++ [lastPrice]) =
    nextTargets side reversePriceIndent
      (targetsAfter side reversePriceIndent price prices) lastPrice := by
  rw [targetsAfter, List.foldl_append]
  rfl

theorem unreached_nil : Unreached side reversePriceIndent price [] := by
  intro before lastPrice h
  exact absurd (List.prefix_nil.mp h) (by simp)

theorem unreached_concat (h : Unreached side reversePriceIndent price prices)
    (hlast : reaches side reversePriceIndent price prices lastPrice = false) :
    Unreached side reversePriceIndent price (prices ++ [lastPrice]) := by
  intro before p hprefix
  rcases List.prefix_concat_iff.mp hprefix with heq | hprefix
  · obtain ⟨hbefore, hp⟩ := List.append_inj' heq rfl
    cases hp
    subst hbefore
    exact hlast
  · exact h before p hprefix

end

/-! ## Selling -/

section
variable {d price : Rat} {prices : List Num}

/-- The targets are around a price `last` that is not far below the highest. -/
structure Around (d high last : Rat) (targets : Num × Num) : Prop where
  take : targets.1 = some (last + d)
  stop : targets.2 = some (last - d)
  le : last ≤ high
  lt : high < last + d

theorem highest_concat (price : Rat) (prices : List Num) (p : Num) :
    highest price (prices ++ [p]) = p.elim (highest price prices) (max (highest price prices)) := by
  rw [highest, List.foldl_append]
  rfl

/-- The targets follow the highest price, and the price that they are around does not fall. -/
theorem Around.next {high last : Rat} {targets : Num × Num} (hd : 0 < d)
    (h : Around d high last targets) (p : Num) : ∃ last', last ≤ last' ∧
      Around d (p.elim high (max high)) last' (nextTargets .sell (some d) targets p) := by
  cases p with
  | none =>
    refine ⟨last, le_rfl, ?_⟩
    rw [nextTargets, if_neg (by rw [h.take]; exact nofun)]
    exact h
  | some q =>
    rw [nextTargets, takeTargetReached, h.take]
    split
    next hq =>
      have hq : last + d ≤ q := of_decide_eq_true hq
      refine ⟨q, by linarith, rfl, rfl, le_max_right _ _, max_lt ?_ ?_⟩
      · linarith [h.lt]
      · linarith
    next hq =>
      have hq : q < last + d := not_le.mp fun hle => hq (decide_eq_true hle)
      exact ⟨last, le_rfl, h.take, h.stop, h.le.trans (le_max_left _ _), max_lt h.lt hq⟩

theorem around_targetsAfter (hd : 0 < d) (price : Rat) (prices : List Num) :
    ∃ last, Around d (highest price prices) last
      (targetsAfter .sell (some d) (some price) prices) := by
  induction prices using List.reverseRecOn with
  | nil => exact ⟨price, rfl, rfl, le_rfl, lt_add_of_pos_right price hd⟩
  | append_singleton prices p ih =>
    obtain ⟨last, h⟩ := ih
    obtain ⟨last', -, h'⟩ := h.next hd p
    rw [targetsAfter_concat, highest_concat]
    exact ⟨last', h'⟩

/-- The stop target of a long position, over a distance `d`. -/
structure TrailsHighest (d price : Rat) (prices : List Num) : Prop where
  bounds : ∃ stop, stopAfter .sell (some d) (some price) prices = some stop ∧
    highest price prices - 2 * d < stop ∧ stop ≤ highest price prices - d
  rises : ∀ p, Num.le (stopAfter .sell (some d) (some price) prices)
    (stopAfter .sell (some d) (some price) (prices ++ [p])) = true
  le_of_reaches : ∀ q, reaches .sell (some d) (some price) prices (some q) = true → q ≤
    highest price prices - d
  reaches_of_le : ∀ q, q ≤ highest price prices - 2 * d →
    reaches .sell (some d) (some price) prices (some q) = true

theorem trailsHighest (hd : 0 < d) (price : Rat) (prices : List Num) :
    TrailsHighest d price prices := by
  obtain ⟨last, h⟩ := around_targetsAfter hd price prices
  have hstop : stopAfter .sell (some d) (some price) prices = some (last - d) := h.stop
  have hlow : highest price prices - 2 * d < last - d := by linarith [h.lt]
  have hhigh : last - d ≤ highest price prices - d := by linarith [h.le]
  refine ⟨⟨_, hstop, hlow, hhigh⟩, fun p => ?_, fun q hq => ?_, fun q hq => ?_⟩
  · obtain ⟨last', hle, h'⟩ := h.next hd p
    rw [hstop, stopAfter, targetsAfter_concat, h'.stop]
    exact decide_eq_true (sub_le_sub_right hle d)
  · rw [reaches, hstop] at hq
    exact (of_decide_eq_true hq).trans hhigh
  · rw [reaches, hstop]
    exact decide_eq_true (hq.trans hlow.le)

end

/-! ## Buying -/

section
variable {d price : Rat} {prices : List Num}

/-- The same prices with the opposite sign. -/
theorem takeTargetReached_buy (lastPrice target : Num) :
    takeTargetReached .buy lastPrice target =
      takeTargetReached .sell (Num.neg lastPrice) (Num.neg target) := by
  cases lastPrice <;> cases target <;> simp [takeTargetReached, Num.le, Num.neg]

theorem stopTargetReached_buy (lastPrice target : Num) :
    stopTargetReached .buy lastPrice target =
      stopTargetReached .sell (Num.neg lastPrice) (Num.neg target) := by
  cases lastPrice <;> cases target <;> simp [stopTargetReached, Num.le, Num.neg]

theorem Num.neg_neg (n : Num) : n.neg.neg = n := by
  cases n <;> simp [Num.neg]

theorem Num.neg_le_neg (a b : Num) : a.neg.le b.neg = b.le a := by
  cases a <;> cases b <;> simp [Num.neg, Num.le]

/-- Both targets with the opposite sign. -/
def negTargets (targets : Num × Num) : Num × Num := (Num.neg targets.1, Num.neg targets.2)

theorem calculateTargets_buy (d actualPrice : Num) :
    calculateTargets .buy d actualPrice =
      negTargets (calculateTargets .sell d (Num.neg actualPrice)) := by
  cases d with
  | none => cases actualPrice <;> rfl
  | some d =>
    cases actualPrice with
    | none => rfl
    | some q =>
      simp only [calculateTargets, negTargets, Num.add, Num.sub, Num.neg, Option.bind_some,
        Option.map_some]
      rw [show -(-q + d) = q - d by ring, show -(-q - d) = q + d by ring]

theorem targetsAfter_buy (d price : Num) (prices : List Num) :
    targetsAfter .buy d price prices =
      negTargets (targetsAfter .sell d (Num.neg price) (prices.map Num.neg)) := by
  induction prices using List.reverseRecOn with
  | nil => exact calculateTargets_buy d price
  | append_singleton prices p ih =>
    rw [List.map_append, List.map_singleton, targetsAfter_concat, targetsAfter_concat, ih,
      nextTargets, nextTargets, takeTargetReached_buy, negTargets, Num.neg_neg]
    split
    next => exact calculateTargets_buy d p
    next => rfl

theorem stopAfter_buy (d price : Num) (prices : List Num) :
    stopAfter .buy d price prices =
      Num.neg (stopAfter .sell d (Num.neg price) (prices.map Num.neg)) := by
  rw [stopAfter, targetsAfter_buy]
  rfl

theorem reaches_buy (d price : Num) (prices : List Num) (lastPrice : Num) :
    reaches .buy d price prices lastPrice =
      reaches .sell d (Num.neg price) (prices.map Num.neg) (Num.neg lastPrice) := by
  rw [reaches, stopAfter_buy, stopTargetReached_buy, Num.neg_neg]
  rfl

theorem lowest_concat (price : Rat) (prices : List Num) (p : Num) :
    lowest price (prices ++ [p]) = p.elim (lowest price prices) (min (lowest price prices)) := by
  rw [lowest, List.foldl_append]
  rfl

theorem lowest_eq (price : Rat) (prices : List Num) :
    lowest price prices = -highest (-price) (prices.map Num.neg) := by
  induction prices using List.reverseRecOn with
  | nil => exact (neg_neg price).symm
  | append_singleton prices p ih =>
    rw [List.map_append, List.map_singleton, highest_concat, lowest_concat, ih]
    cases p with
    | none => rfl
    | some q =>
      change min _ q = -max _ (-q)
      rw [← min_neg_neg, neg_neg]

/-- The stop target of a short position, over a distance `d`. -/
structure TrailsLowest (d price : Rat) (prices : List Num) : Prop where
  bounds : ∃ stop, stopAfter .buy (some d) (some price) prices = some stop ∧
    lowest price prices + d ≤ stop ∧ stop < lowest price prices + 2 * d
  falls : ∀ p, Num.le (stopAfter .buy (some d) (some price) (prices ++ [p]))
    (stopAfter .buy (some d) (some price) prices) = true
  le_of_reaches : ∀ q, reaches .buy (some d) (some price) prices (some q) = true →
    lowest price prices + d ≤ q
  reaches_of_le : ∀ q, lowest price prices + 2 * d ≤ q →
    reaches .buy (some d) (some price) prices (some q) = true

theorem trailsLowest (hd : 0 < d) (price : Rat) (prices : List Num) :
    TrailsLowest d price prices := by
  have h := trailsHighest hd (-price) (prices.map Num.neg)
  have hlowest := lowest_eq price prices
  obtain ⟨stop, hstop, hlow, hhigh⟩ := h.bounds
  have hstop' : stopAfter .buy (some d) (some price) prices = some (-stop) := by
    rw [stopAfter_buy]
    exact congrArg Num.neg hstop
  refine ⟨⟨-stop, hstop', by linarith, by linarith⟩, fun p => ?_, fun q hq => ?_, fun q hq => ?_⟩
  · have hrises := h.rises (Num.neg p)
    rwa [stopAfter_buy, stopAfter_buy, List.map_append, List.map_singleton, Num.neg_le_neg]
  · rw [reaches_buy] at hq
    have := h.le_of_reaches (-q) hq
    linarith
  · rw [reaches_buy]
    exact h.reaches_of_le (-q) (by linarith)

end

/-! ## The program -/

/-- What has been observed: the first price, a price that waits for the second request of its round,
the prices that have been compared, and whether a close has been attempted. -/
structure TrackerNotes where
  start : Option Num := none
  observed : Option Num := none
  compared : List Num := []
  attempted : Bool := false

namespace TrackerNotes

def after (g : TrackerNotes) : (r : Request) → Except String r.Answer → TrackerNotes
  | .getTick, .ok price =>
    match g.start, g.observed with
    | none, _ => { g with start := some price }
    | some _, none => { g with observed := some price }
    | some _, some lastPrice => { g with observed := none, compared := g.compared ++ [lastPrice] }
  | .cancelAllOrders, _ => { g with attempted := true }
  | _, _ => g

/-- No compared price has reached the stop target; `percent` is `percentTargetAfterTakeProfit`. -/
def Unreached (g : TrackerNotes) (side : Side) (percent : Rat) : Prop :=
  ∀ price ∈ g.start, Trading.Unreached side (Num.mul price (some percent)) price g.compared

/-- A close is attempted when the last of the compared prices is the first that reaches the stop
target, and the tracker goes on while none has. -/
def Allowed (g : TrackerNotes) (side : Side) (percent : Rat) (r : Request) : Prop :=
  g.attempted = true ∨
    match r with
    | .getTick | .sleep _ => g.Unreached side percent
    | .cancelAllOrders =>
      ∃ price before lastPrice, g.start = some price ∧ g.compared = before ++ [lastPrice] ∧
        Trading.Unreached side (Num.mul price (some percent)) price before ∧
        reaches side (Num.mul price (some percent)) price before lastPrice = true
    | _ => False

end TrackerNotes

/-- The setting of the distance. -/
def Memory.percent (m : Memory) : Rat := m.config.percentTargetAfterTakeProfit

/-- The other tasks of the process leave the setting of the distance alone. -/
def trackerContract (side : Side) : Contract api Memory TrackerNotes String where
  rely s t := t.2 = s.2 ∧ t.1.percent = s.1.percent
  rely_refl _ := ⟨rfl, rfl⟩
  rely_trans _ _ _ h h' := ⟨h'.1.trans h.1, h'.2.trans h.2⟩
  served r s x t := t.2 = s.2.after r x ∧ t.1.percent = s.1.percent
  pending r s := s.2.Allowed side s.1.percent r
  ready _ := True
  pending_ready _ _ _ := trivial

/-- Without an attempt, the tracker ends with `false` and no compared price has reached the stop
target. -/
def trackerEnds (side : Side) (x : Except String Bool) (s : Memory × TrackerNotes) : Prop :=
  s.2.attempted = true ∨ (x = .ok false ∧ s.2.Unreached side s.1.percent)

variable {side : Side} {α : Type}

theorem tracker_bind {r : Request} {f : r.Answer → Prog α} {s : Memory × TrackerNotes}
    {Q : Except String α → Memory × TrackerNotes → Prop} (hr : s.2.Allowed side s.1.percent r)
    (hok : ∀ a m, m.percent = s.1.percent →
      Safe (trackerContract side) Q (f a) (m, s.2.after r (.ok a)))
    (herr : ∀ e m, m.percent = s.1.percent → Q (.error e) (m, s.2.after r (.error e))) :
    Safe (trackerContract side) Q (request r >>= f) s := by
  refine Safe.bind (Q := fun x t => t.2 = s.2.after r x ∧ t.1.percent = s.1.percent) ?_ ?_ ?_
  · apply Safe.request
    rintro s' ⟨hnotes, hpercent⟩
    refine ⟨?_, ?_⟩
    · change s'.2.Allowed side s'.1.percent r
      rwa [hnotes, hpercent]
    · rintro x t ⟨ht, hpt⟩ t' ⟨ht', hpt'⟩
      refine ⟨trivial, ?_, hpt'.trans (hpt.trans hpercent)⟩
      rw [ht', ht, hnotes]
  · rintro a ⟨m, g⟩ ⟨rfl, hm⟩
    exact hok a m hm
  · rintro e ⟨m, g⟩ ⟨rfl, hm⟩
    exact herr e m hm

/-- Once a close has been attempted, anything may follow. -/
theorem safe_attempted (p : Prog α) {s : Memory × TrackerNotes} (h : s.2.attempted = true) :
    Safe (trackerContract side) (fun _ t => t.2.attempted = true) p s := by
  have hafter : ∀ (g : TrackerNotes) (r : Request) (x : Except String r.Answer),
      g.attempted = true →
      (g.after r x).attempted = true := by
    intro g r x hg
    unfold TrackerNotes.after
    split
    next => split <;> exact hg
    next => rfl
    next => exact hg
  refine (Safe.of_confined (I := fun g => g.attempted = true) (Program.Confined.all p) trivial h ?_
    ?_ ?_ ?_).mono
    fun _ _ ht => ht.2
  · rintro s t ⟨ht, -⟩ - hs
    exact ⟨trivial, ht ▸ hs⟩
  · rintro r s x t - ⟨ht, -⟩ - hs
    exact ⟨trivial, ht ▸ hafter s.2 r x hs⟩
  · exact fun r s _ hs => .inl hs
  · exact fun _ _ => trivial

/-- A close is attempted at the last of the compared prices. -/
theorem close_safe (bound : Nat) (session : Option SessionId) {s : Memory × TrackerNotes}
    (hr : s.2.Allowed side s.1.percent .cancelAllOrders) :
    Safe (trackerContract side) (fun _ t => t.2.attempted = true)
      (do let closingOrder ← closeFilledPosition bound session
          return closingOrder.isSome : Prog Bool) s := by
  refine Safe.bind (Q := fun _ t => t.2.attempted = true) ?_ ?_ fun _ _ ht => ht
  · exact tracker_bind hr (fun _ m _ => safe_attempted _ rfl) fun _ _ _ => rfl
  · exact fun _ _ ht => ht

section
variable {price : Num} {compared : List Num}

theorem unreached_start {observed : Option Num} {attempted : Bool} {percent : Rat}
    (h : Unreached side (Num.mul price (some percent)) price compared) :
    TrackerNotes.Unreached { start := some price, observed, compared, attempted } side percent := by
  rintro _ ⟨⟩
  exact h

/-- The loop, when no compared price has reached the stop target and the targets follow from
them. -/
theorem trackPrice_safe (bound rounds : Nat) {m : Memory} {reversePriceIndent : Num}
    {targets : Num × Num} (hindent : reversePriceIndent = Num.mul price (some m.percent))
    (htargets : targets = targetsAfter side reversePriceIndent price compared)
    (hunreached : Unreached side reversePriceIndent price compared) :
    Safe (trackerContract side)
      (fun x t => t.2.attempted = true ∨ ((∃ e, x = .error e) ∧ t.2.Unreached side t.1.percent))
      (trackPrice bound side reversePriceIndent rounds targets)
      (m, { start := some price, compared }) := by
  induction rounds generalizing targets compared m with
  | zero => trivial
  | succ rounds ih =>
    have hnotes : ∀ observed (m' : Memory), m'.percent = m.percent →
        TrackerNotes.Unreached { start := some price, observed, compared } side m'.percent := by
      intro observed m' hm'
      rw [hm']
      exact unreached_start (hindent ▸ hunreached)
    refine safe_get_bind.mpr ?_
    split
    next => exact .inr ⟨⟨_, rfl⟩, hnotes none m rfl⟩
    next =>
      refine tracker_bind (.inr (hnotes none m rfl)) (fun lastPrice m₁ hm₁ => ?_) fun e m₁ hm₁ =>
        .inr ⟨⟨e, rfl⟩, hnotes none m₁ hm₁⟩
      refine safe_get_bind.mpr ?_
      split
      next => exact .inr ⟨⟨_, rfl⟩, hnotes (some lastPrice) m₁ hm₁⟩
      next =>
        refine tracker_bind (.inr (hnotes (some lastPrice) m₁ hm₁))
          (fun _ m₂ hm₂ => ?_) fun e m₂ hm₂ =>
          .inr ⟨⟨e, rfl⟩, hnotes (some lastPrice) m₂ (hm₂.trans hm₁)⟩
        have hpercent : m₂.percent = m.percent := hm₂.trans hm₁
        split
        next hreached =>
          refine safe_get_bind.mpr (close_safe bound _
            (.inr ⟨price, compared, lastPrice, rfl, rfl, ?_⟩) |>.mono ?_)
          · change Unreached side (Num.mul price (some m₂.percent)) price compared ∧ _
            rw [hpercent, ← hindent]
            refine ⟨hunreached, ?_⟩
            rwa [reaches, stopAfter, ← htargets]
          · exact fun _ _ ht => .inl ht
        next hnot =>
          have hunreached' : Unreached side reversePriceIndent price (compared ++ [lastPrice]) := by
            refine unreached_concat hunreached ?_
            rw [reaches, stopAfter, ← htargets]
            exact Bool.eq_false_iff.mpr hnot
          have hnotes' : ∀ m' : Memory, m'.percent = m.percent → TrackerNotes.Unreached
              { start := some price, compared := compared ++ [lastPrice] } side m'.percent := by
            intro m' hm'
            rw [hm']
            exact unreached_start (hindent ▸ hunreached')
          refine tracker_bind (.inr (hnotes' m₂ hpercent)) (fun _ m₃ hm₃ => ?_) fun e m₃ hm₃ =>
            .inr ⟨⟨e, rfl⟩, hnotes' m₃ (hm₃.trans hpercent)⟩
          refine ih ?_ ?_ hunreached'
          · rw [hindent, ← hm₃.trans hpercent]
          · exact (targetsAfter_concat.trans
              (congrArg (nextTargets side _ · lastPrice) htargets.symm)).symm

end

/-- The tracker attempts a close at the first compared price that reaches the stop target, and at no
other. -/
theorem onPriceTracker_safe (bound : Nat) (side : Side) (m : Memory) :
    Safe (trackerContract side) (trackerEnds side) (onPriceTracker bound side) (m, {}) := by
  have hstart : ∀ percent, TrackerNotes.Unreached {} side percent := by
    intro percent price hprice
    cases hprice
  refine Safe.tryCatch (Q := fun x t => t.2.attempted = true ∨
    ((∃ e, x = .error e) ∧ t.2.Unreached side t.1.percent)) ?_ ?_ ?_
  · refine tracker_bind (.inr (hstart _)) (fun price m₁ _ => ?_) fun e m₁ _ =>
      .inr ⟨⟨e, rfl⟩, hstart _⟩
    exact safe_get_bind.mpr (trackPrice_safe bound bound rfl rfl unreached_nil)
  · rintro a t (ht | ⟨⟨e, he⟩, -⟩)
    · exact .inl ht
    · cases he
  · rintro e t (ht | ⟨-, hu⟩)
    · exact .inl ht
    · exact .inr ⟨rfl, hu⟩

/-! ## What it does next -/

/-- A round of the loop with both its answers, and the memories in which the tracker goes on after
the first one, after the second one and after the pause. -/
structure Round where
  lastPrice : Num
  second : Num
  seen : Memory
  compared : Memory
  resumed : Memory

namespace Round

/-- The two requests of the round are answered. -/
def answers (r : Round) : List (Resumed api Memory String) :=
  [⟨.getTick, .ok r.lastPrice, r.seen⟩, ⟨.getTick, .ok r.second, r.compared⟩]

def labels (r : Round) : List (Resumed api Memory String) :=
  r.answers ++ [⟨.sleep 1000, .ok (), r.resumed⟩]

/-- Whenever the tracker looks at them, there are tracked orders. -/
structure Tracked (r : Round) : Prop where
  seen : r.seen.orders ≠ []
  resumed : r.resumed.orders ≠ []

end Round

/-- What the tracker does after its first price and some rounds: it asks for the next price,
attempts a close if that reaches the stop target, and ends without one if its second request
fails. -/
structure TrackerContinues (bound : Nat) (side : Side) (m : Memory) (reversePriceIndent price : Num)
    (prices : List Num) (labels : List (Resumed api Memory String)) : Prop where
  asks : ∃ k m', Interleaved (onPriceTracker bound side) m labels (.await .getTick k) m'
  closes : ∀ r : Round, r.seen.orders ≠ [] →
    reaches side reversePriceIndent price prices r.lastPrice = true →
      ∃ k, Interleaved (onPriceTracker bound side) m (labels ++ r.answers)
        (.await .cancelAllOrders k) r.compared
  fails : ∀ (r : Round) (e : String), r.seen.orders ≠ [] →
    Interleaved (onPriceTracker bound side) m
      (labels ++ [⟨.getTick, .ok r.lastPrice, r.seen⟩, ⟨.getTick, .error e, r.compared⟩])
      (.pure false) r.compared

section
variable {bound rounds : Nat} {m : Memory} {reversePriceIndent price : Num} {targets : Num × Num}

theorem trackPrice_asks (hm : m.orders ≠ []) :
    ∃ k, Interleaved (trackPrice bound side reversePriceIndent (rounds + 1) targets) m []
      (.await .getTick k) m := by
  apply Exists.intro
  apply Interleaved.read
  simp only [Program.bind, if_neg hm]
  exact .refl

/-- Both requests of a round are answered. -/
theorem trackPrice_answers {q : Prog Bool} {m' : Memory} {t : List (Resumed api Memory String)}
    (r : Round) (hm : m.orders ≠ []) (hr : r.seen.orders ≠ [])
    (h : Interleaved
      (if stopTargetReached side r.lastPrice targets.2 then do
        let m ← get
        let closingOrder ← closeFilledPosition bound m.indexOperation
        return closingOrder.isSome
      else do
        request (.sleep 1000)
        trackPrice bound side reversePriceIndent rounds
          (nextTargets side reversePriceIndent targets r.lastPrice)) r.compared t q m') :
    Interleaved (trackPrice bound side reversePriceIndent (rounds + 1) targets) m (r.answers ++ t)
      q m' := by
  refine .read ?_
  simp only [Program.bind, if_neg hm]
  refine .await (.read ?_)
  simp only [Program.bind, if_neg hr]
  exact .await h

theorem trackPrice_round (r : Round) (hm : m.orders ≠ []) (hr : r.seen.orders ≠ [])
    (hreached : stopTargetReached side r.lastPrice targets.2 = false) :
    Interleaved (trackPrice bound side reversePriceIndent (rounds + 1) targets) m r.labels
      (trackPrice bound side reversePriceIndent rounds
        (nextTargets side reversePriceIndent targets r.lastPrice)) r.resumed := by
  refine trackPrice_answers r hm hr ?_
  rw [hreached]
  exact .await .refl

theorem trackPrice_closes (r : Round) (hm : m.orders ≠ []) (hr : r.seen.orders ≠ [])
    (hreached : stopTargetReached side r.lastPrice targets.2 = true) :
    ∃ k, Interleaved (trackPrice bound side reversePriceIndent (rounds + 1) targets) m r.answers
      (.await .cancelAllOrders k) r.compared := by
  apply Exists.intro
  apply trackPrice_answers (t := []) r hm hr
  rw [hreached]
  exact .read .refl

theorem trackPrice_fails (r : Round) (e : String) (hm : m.orders ≠ []) (hr : r.seen.orders ≠ []) :
    Interleaved (trackPrice bound side reversePriceIndent (rounds + 1) targets) m
      [⟨.getTick, .ok r.lastPrice, r.seen⟩, ⟨.getTick, .error e, r.compared⟩] (.throw e)
      r.compared := by
  refine .read ?_
  simp only [Program.bind, if_neg hm]
  refine .await (.read ?_)
  simp only [Program.bind, if_neg hr]
  exact .await .refl

/-- The rounds whose prices do not reach the stop target. -/
theorem trackPrice_rounds {rs : List Round} (hm : m.orders ≠ []) (hrs : ∀ r ∈ rs, r.Tracked)
    (hunreached : Unreached side reversePriceIndent price (rs.map (·.lastPrice))) :
    ∃ m' : Memory, m'.orders ≠ [] ∧
      Interleaved
        (trackPrice bound side reversePriceIndent (rounds + rs.length)
          (calculateTargets side reversePriceIndent price)) m (rs.flatMap Round.labels)
        (trackPrice bound side reversePriceIndent rounds
          (targetsAfter side reversePriceIndent price (rs.map (·.lastPrice)))) m' := by
  induction rs using List.reverseRecOn generalizing rounds with
  | nil => exact ⟨m, hm, .refl⟩
  | append_singleton rs r ih =>
    rw [List.map_append, List.map_singleton] at hunreached
    obtain ⟨m', hm', hbefore⟩ := @ih (rounds + 1)
      (fun r' hr' => hrs r' (List.mem_append_left _ hr'))
      fun before p hstarts => hunreached before p (hstarts.trans (List.prefix_append _ _))
    have hr := hrs r (List.mem_append_right _ (List.mem_singleton_self r))
    have hround := @trackPrice_round side bound rounds m' reversePriceIndent _ r hm' hr.seen
      (hunreached _ _ List.prefix_rfl)
    refine ⟨r.resumed, hr.resumed, ?_⟩
    rw [List.length_append, List.length_singleton, Nat.add_comm rs.length, ← Nat.add_assoc,
      List.flatMap_append, List.flatMap_singleton, List.map_append, List.map_singleton,
      targetsAfter_concat]
    exact hbefore.trans hround

end

/-- The labels of the first price and of some rounds. -/
def trackerLabels (price : Num) (start : Memory) (rs : List Round) :
    List (Resumed api Memory String) :=
  ⟨.getTick, .ok price, start⟩ :: rs.flatMap Round.labels

/-- What the tracker does after rounds in which the stop target has not been reached. -/
theorem onPriceTracker_continues {bound : Nat} {rs : List Round} (m start : Memory) (price : Num)
    (hbound : rs.length < bound) (hstart : start.orders ≠ []) (hrs : ∀ r ∈ rs, r.Tracked)
    (hunreached : Unreached side (Num.mul price (some start.percent)) price
      (rs.map (·.lastPrice))) :
    TrackerContinues bound side m (Num.mul price (some start.percent)) price (rs.map (·.lastPrice))
      (trackerLabels price start rs) := by
  obtain ⟨rounds, rfl⟩ := Nat.exists_eq_add_of_lt hbound
  obtain ⟨m', hm', hrounds⟩ :=
    @trackPrice_rounds side (rs.length + rounds + 1) (rounds + 1) _ _ _ _ hstart hrs hunreached
  rw [Nat.add_comm (rounds + 1), ← Nat.add_assoc] at hrounds
  -- the rest of the loop, behind the first price and within the `try`
  have hrest : ∀ {t q m''},
      Interleaved (trackPrice (rs.length + rounds + 1) side _ (rounds + 1) _) m'
      t q m'' → Interleaved (onPriceTracker (rs.length + rounds + 1) side) m
        (trackerLabels price start rs ++ t) (q.tryCatch fun _ => return false) m'' :=
    fun h => .await (.read ((hrounds.trans h).tryCatch _))
  refine ⟨?_, fun r hr hreached => ?_, fun r e hr => ?_⟩
  · obtain ⟨k, hasks⟩ := trackPrice_asks hm'
    have hasks := hrest hasks
    rw [List.append_nil] at hasks
    exact ⟨_, m', hasks⟩
  · obtain ⟨k, hcloses⟩ := trackPrice_closes r hm' hr hreached
    exact ⟨_, hrest hcloses⟩
  · exact hrest (trackPrice_fails r e hm' hr)

/-- The trailing exit: a close is attempted at the first price that reaches the stop target, and at
no other. Over any prices, the stop target moves with the best of them only, and is less than twice
the distance away from it. -/
theorem onPriceTracker_trails (bound : Nat) (side : Side) (m : Memory) :
    Safe (trackerContract side) (trackerEnds side) (onPriceTracker bound side) (m, {}) ∧
      (∀ (price : Num) (start : Memory) (rs : List Round), rs.length < bound → start.orders ≠ [] →
        (∀ r ∈ rs, r.Tracked) →
          Unreached side (Num.mul price (some start.percent)) price (rs.map (·.lastPrice)) →
            TrackerContinues bound side m (Num.mul price (some start.percent)) price
              (rs.map (·.lastPrice)) (trackerLabels price start rs)) ∧
      ∀ price percent : Rat, 0 < price → 0 < price * percent → ∀ prices : List Num,
        TrailsHighest (price * percent) price prices ∧
        TrailsLowest (price * percent) price prices :=
  ⟨onPriceTracker_safe bound side m,
    fun price start _ hbound hstart hrs hunreached =>
      onPriceTracker_continues m start price hbound hstart hrs hunreached,
    fun price _ _ hd prices => ⟨trailsHighest hd price prices, trailsLowest hd price prices⟩⟩

/-- The memory of a process that trades with the default settings, and tracks an order. -/
def defaultMemory : Memory where
  config :=
    { apiKey := "", privateKey := "", password := "", symbol := "BTC/USDT", exchange := .okx }
  orders := [.order ⟨0, .buy, some .closed, some 1, some 1, none, some 100⟩]

/-- A round in which the memory stays as it is. -/
def quietRound (lastPrice : Num) : Round :=
  ⟨lastPrice, lastPrice, defaultMemory, defaultMemory, defaultMemory⟩

/-- A price that rises and falls back over the distance. -/
theorem onPriceTracker_trails_fallsBack :
    TrailsHighest (100 * (1 / 100)) 100 [some 102, none, some 101] ∧
      reaches .sell (some 1) (some 100) [some 102, none] (some 101) = true ∧
      ∃ k, Interleaved (onPriceTracker 3 .sell) defaultMemory
        (trackerLabels (some 100) defaultMemory [quietRound (some 102), quietRound none] ++
          (quietRound (some 101)).answers) (.await .cancelAllOrders k) defaultMemory := by
  have h := onPriceTracker_trails 3 .sell defaultMemory
  refine ⟨(h.2.2 100 (1 / 100) (by norm_num) (by norm_num) _).1, by decide +kernel, ?_⟩
  refine (h.2.1 (some 100) defaultMemory [quietRound (some 102), quietRound none] (by decide) nofun
    ?_ ?_).closes (quietRound (some 101)) nofun (by decide +kernel)
  · exact List.forall_mem_cons.mpr ⟨⟨nofun, nofun⟩, List.forall_mem_singleton.mpr ⟨nofun, nofun⟩⟩
  · exact unreached_concat (unreached_concat unreached_nil (by decide +kernel)) (by decide +kernel)

end Tonatiuh.Trading
