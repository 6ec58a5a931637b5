import Tonatiuh.Trading.Math

/-! The exchange account of a bot, for its one symbol.

The account holds the orders that were ever accepted; an order's id is its place in the list.
An order belongs to the trade session for which it was submitted and remembers whether
`openPositionForStrategy` or `closeFilledPosition` submitted it (`session` and `purpose` are ghost
fields, no program reads them). The exchange reports orders truthfully but may leave out fields,
as ccxt does for some venues. -/

namespace Tonatiuh.Trading

abbrev OrderId := Nat
abbrev SessionId := Nat

inductive Status where
  | opened | closed | canceled | rejected | expired
  deriving DecidableEq, Repr

def Status.text : Status → String
  | opened => "open"
  | closed => "closed"
  | canceled => "canceled"
  | rejected => "rejected"
  | expired => "expired"

inductive Purpose where
  | entry | closing
  deriving DecidableEq, Repr

structure ExchangeOrder where
  session : Option SessionId
  purpose : Purpose
  side : Side
  amount : Rat
  executed : Rat
  status : Status
  deriving DecidableEq, Repr

abbrev Exchange := List ExchangeOrder

/-- An order as ccxt returns it. -/
structure Order where
  id : OrderId
  side : Side
  status : Option Status
  amount : Option Rat
  filled : Option Rat
  average : Option Rat
  price : Option Rat
  deriving DecidableEq, Repr

/-- Which fields a report carries, and the prices it gives. -/
structure Shape where
  status : Bool := true
  amount : Bool := true
  filled : Bool := true
  average : Option Rat := none
  price : Option Rat := none
  deriving DecidableEq, Repr

def ExchangeOrder.report (o : ExchangeOrder) (id : OrderId) (shape : Shape) : Order where
  id
  side := o.side
  status := if shape.status then some o.status else none
  amount := if shape.amount then some o.amount else none
  filled := if shape.filled then some o.executed else none
  average := shape.average
  price := shape.price

namespace ExchangeOrder

/-- An order as it is accepted, with what is executed of it at once. -/
def accepted (session : Option SessionId) (purpose : Purpose) (side : Side) (amount fill : Rat) :
    ExchangeOrder where
  session; purpose; side; amount
  executed := fill
  status := if fill = amount then .closed else .opened

def fill (o : ExchangeOrder) (q : Rat) : ExchangeOrder :=
  { o with executed := o.executed + q
           status := if o.executed + q = o.amount then .closed else .opened }

def cancel (o : ExchangeOrder) : ExchangeOrder :=
  if o.status = .opened then { o with status := .canceled } else o

end ExchangeOrder

/-- What the exchange does by itself. -/
inductive ExchangeEvent where
  | fill (id : OrderId) (q : Rat)
  | terminate (id : OrderId) (status : Status)
  deriving DecidableEq, Repr

def Exchange.event (x : Exchange) : ExchangeEvent → Option Exchange
  | .fill id q => do
    let o ← x[id]?
    if o.status = .opened ∧ 0 < q ∧ o.executed + q ≤ o.amount then some (x.set id (o.fill q))
    else none
  | .terminate id status => do
    let o ← x[id]?
    if o.status = .opened ∧ status ≠ .opened ∧ status ≠ .closed then
      some (x.set id { o with status })
    else none

/-- Cancel the open orders among the given ones. -/
def Exchange.cancelOrders (x : Exchange) (ids : List OrderId) : Exchange :=
  x.mapIdx fun id o => if id ∈ ids then o.cancel else o

def Exchange.cancelAll (x : Exchange) : Exchange := x.map ExchangeOrder.cancel

/-! ## Executed amounts -/

/-- What the order contributes to the position. -/
def ExchangeOrder.signed (o : ExchangeOrder) : Rat := o.side.sign * o.executed

/-- The sum of `f` over the orders of a session. -/
def Exchange.total (x : Exchange) (session : Option SessionId) (f : ExchangeOrder → Rat) : Rat :=
  (x.map fun o => if o.session = session then f o else 0).sum

/-- Executed buys minus executed sells of a session. -/
def Exchange.net (x : Exchange) (session : Option SessionId) : Rat :=
  x.total session ExchangeOrder.signed

/-- The same over its entry orders. -/
def Exchange.netEntry (x : Exchange) (session : Option SessionId) : Rat :=
  x.total session fun o => if o.purpose = .entry then o.signed else 0

/-- The executed amount of its closing orders. -/
def Exchange.closed (x : Exchange) (session : Option SessionId) : Rat :=
  x.total session fun o => if o.purpose = .closing then o.executed else 0

/-- The executed amount of all its orders. -/
def Exchange.traded (x : Exchange) (session : Option SessionId) : Rat :=
  x.total session ExchangeOrder.executed

/-! ## How orders evolve -/

/-- An order that has executed or may still execute. -/
def ExchangeOrder.Accountable (o : ExchangeOrder) : Prop := o.status = .opened ∨ 0 < o.executed

instance (o : ExchangeOrder) : Decidable o.Accountable :=
  inferInstanceAs (Decidable (o.status = .opened ∨ 0 < o.executed))

/-- What may become of an order. If `full`, closing orders that have begun to execute are
not cut off. -/
structure ExchangeOrder.Evolves (full : Prop) (o o' : ExchangeOrder) : Prop where
  session : o'.session = o.session
  purpose : o'.purpose = o.purpose
  side : o'.side = o.side
  amount : o'.amount = o.amount
  executed : o.executed ≤ o'.executed
  bounded : o.executed ≤ o.amount → o'.executed ≤ o.amount
  settled : o.status ≠ .opened → o' = o
  closed : o'.status = .closed → o' = o ∨ o'.executed = o.amount
  uncut : full → o.purpose = .closing → o'.status ≠ .opened →
    o' = o ∨ o'.executed = 0 ∨ o'.executed = o.amount

namespace ExchangeOrder.Evolves

variable {full : Prop} {o o' o'' : ExchangeOrder}

theorem refl (o : ExchangeOrder) : Evolves full o o where
  session := rfl
  purpose := rfl
  side := rfl
  amount := rfl
  executed := le_rfl
  bounded := id
  settled _ := rfl
  closed _ := .inl rfl
  uncut _ _ _ := .inl rfl

theorem trans (h : Evolves full o o') (h' : Evolves full o' o'') : Evolves full o o'' where
  session := h'.session.trans h.session
  purpose := h'.purpose.trans h.purpose
  side := h'.side.trans h.side
  amount := h'.amount.trans h.amount
  executed := h.executed.trans h'.executed
  bounded hle := h.amount ▸ h'.bounded (h.amount.symm ▸ h.bounded hle)
  settled hs := by
    have ho := h.settled hs
    subst ho
    exact h'.settled hs
  closed hs := by
    obtain ho | ho := h'.closed hs
    · subst ho
      exact h.closed hs
    · exact .inr (ho.trans h.amount)
  uncut hf hp hs := by
    obtain ho | ho | ho := h'.uncut hf (h.purpose.trans hp) hs
    · subst ho
      exact h.uncut hf hp hs
    · exact .inr (.inl ho)
    · exact .inr (.inr (ho.trans h.amount))

end ExchangeOrder.Evolves

/-- What may become of the account while no order is accepted. -/
def Exchange.Evolves (full : Prop) (x x' : Exchange) : Prop :=
  List.Forall₂ (ExchangeOrder.Evolves full) x x'

namespace Exchange.Evolves

variable {full : Prop} {x x' x'' : Exchange} {o o' : ExchangeOrder} {n : OrderId}

theorem refl (x : Exchange) : Evolves full x x := List.forall₂_same.mpr fun o _ => .refl o

theorem trans (h : Evolves full x x') (h' : Evolves full x' x'') : Evolves full x x'' := by
  induction h generalizing x'' with
  | nil => cases h'; exact .nil
  | cons ho _ ih =>
    cases h' with
    | cons ho' hrest => exact .cons (ho.trans ho') (ih hrest)

theorem length (h : Evolves full x x') : x'.length = x.length := (List.Forall₂.length_eq h).symm

theorem getElem? (h : Evolves full x x') (ho : x[n]? = some o) :
    ∃ o', x'[n]? = some o' ∧ o.Evolves full o' := by
  induction h generalizing n with
  | nil => cases ho
  | cons hhead _ ih =>
    cases n with
    | zero => cases ho; exact ⟨_, rfl, hhead⟩
    | succ n => exact ih ho

theorem getElem?_back (h : Evolves full x x') (ho : x'[n]? = some o') :
    ∃ o, x[n]? = some o ∧ o.Evolves full o' := by
  induction h generalizing n with
  | nil => cases ho
  | cons hhead _ ih =>
    cases n with
    | zero => cases ho; exact ⟨_, rfl, hhead⟩
    | succ n => exact ih ho

/-- An order that is not open any more does not change. -/
theorem settled (h : Evolves full x x') (ho : x[n]? = some o) (hs : o.status ≠ .opened) :
    x'[n]? = some o := by
  obtain ⟨o', ho', hev⟩ := h.getElem? ho
  rw [ho', hev.settled hs]

theorem set (ho : x[n]? = some o) (hev : o.Evolves full o') : Evolves full x (x.set n o') := by
  induction x generalizing n with
  | nil => cases ho
  | cons a x ih =>
    cases n with
    | zero => cases ho; exact .cons hev (Evolves.refl x)
    | succ n => exact .cons (.refl a) (ih ho)

theorem map (x : Exchange) {f : ExchangeOrder → ExchangeOrder}
    (hf : ∀ o ∈ x, o.Evolves full (f o)) : Evolves full x (x.map f) := by
  induction x with
  | nil => exact .nil
  | cons a x ih =>
    exact .cons (hf a List.mem_cons_self) (ih fun o ho => hf o (List.mem_cons_of_mem a ho))

theorem mapIdx (x : Exchange) {f : Nat → ExchangeOrder → ExchangeOrder}
    (hf : ∀ id, ∀ o ∈ x, o.Evolves full (f id o)) : Evolves full x (x.mapIdx f) := by
  induction x generalizing f with
  | nil => exact .nil
  | cons a x ih =>
    rw [List.mapIdx_cons]
    exact .cons (hf 0 a List.mem_cons_self)
      (ih fun id o ho => hf (id + 1) o (List.mem_cons_of_mem a ho))

theorem append_inv {y : Exchange} (h : Evolves full (x ++ [o]) y) :
    ∃ x' o', y = x' ++ [o'] ∧ Evolves full x x' ∧ o.Evolves full o' := by
  induction x generalizing y with
  | nil =>
    cases h with
    | cons ho hnil =>
      cases hnil
      exact ⟨[], _, rfl, .nil, ho⟩
  | cons a x ih =>
    cases h with
    | cons ha hrest =>
      obtain ⟨x', o', rfl, hx, ho⟩ := ih hrest
      exact ⟨_ :: x', o', rfl, .cons ha hx, ho⟩

end Exchange.Evolves

/-- The cancellation of an order does not cut it off. -/
def ExchangeOrder.Uncut (o : ExchangeOrder) : Prop :=
  o.purpose = .closing → o.status = .opened → o.executed = 0

theorem ExchangeOrder.Evolves.terminate {full : Prop} {o : ExchangeOrder} {status : Status}
    (hs : o.status = .opened) (hc : status ≠ .closed) (huncut : full → o.Uncut) :
    o.Evolves full { o with status } where
  session := rfl
  purpose := rfl
  side := rfl
  amount := rfl
  executed := le_rfl
  bounded := id
  settled h := absurd hs h
  closed h := absurd h hc
  uncut hf hp _ := .inr (.inl (huncut hf hp hs))

theorem ExchangeOrder.Evolves.cancel {full : Prop} {o : ExchangeOrder} (huncut : full → o.Uncut) :
    o.Evolves full o.cancel := by
  unfold ExchangeOrder.cancel
  split
  next hs => exact .terminate hs nofun huncut
  next => exact .refl o

theorem ExchangeOrder.Evolves.fill {full : Prop} {o : ExchangeOrder} {q : Rat}
    (hs : o.status = .opened) (hq : 0 < q) (hle : o.executed + q ≤ o.amount) :
    o.Evolves full (o.fill q) where
  session := rfl
  purpose := rfl
  side := rfl
  amount := rfl
  executed := by simp only [ExchangeOrder.fill]; linarith
  bounded _ := hle
  settled h := absurd hs h
  closed h := by
    refine .inr ?_
    simp only [ExchangeOrder.fill] at h ⊢
    split at h
    next heq => exact heq
    next => cases h
  uncut _ _ h := by
    refine .inr (.inr ?_)
    simp only [ExchangeOrder.fill] at h ⊢
    split at h
    next heq => exact heq
    next => exact absurd rfl h

@[simp] theorem ExchangeOrder.cancel_ne_opened (o : ExchangeOrder) : o.cancel.status ≠ .opened := by
  unfold ExchangeOrder.cancel
  split
  next => exact nofun
  next h => exact h

/-- The events of the exchange that do not cut off closing orders. -/
def ExchangeEvent.Uncut (x : Exchange) : ExchangeEvent → Prop
  | .fill _ _ => True
  | .terminate id _ => ∀ o, x[id]? = some o → o.Uncut

instance (x : Exchange) (e : ExchangeEvent) : Decidable (e.Uncut x) := by
  cases e <;> dsimp only [ExchangeEvent.Uncut, ExchangeOrder.Uncut] <;> infer_instance

theorem Exchange.Evolves.event {x x' : Exchange} {e : ExchangeEvent} (h : x.event e = some x')
    (huncut : full → e.Uncut x) : Evolves full x x' := by
  cases e with
  | fill id q =>
    obtain ⟨o, ho, h⟩ := Option.bind_eq_some_iff.mp h
    split at h
    next hc =>
      cases h
      exact .set ho (.fill hc.1 hc.2.1 hc.2.2)
    next => cases h
  | terminate id status =>
    obtain ⟨o, ho, h⟩ := Option.bind_eq_some_iff.mp h
    split at h
    next hc =>
      cases h
      exact .set ho (.terminate hc.1 hc.2.2 fun hf => huncut hf o ho)
    next => cases h

/-- What the exchange does by itself. -/
theorem Exchange.Evolves.moved {x x' : Exchange} {e : ExchangeEvent} (h : x.event e = some x') :
    Evolves False x x' :=
  .event h nofun

theorem Exchange.Evolves.cancelAll {x : Exchange} (huncut : full → ∀ o ∈ x, o.Uncut) :
    Evolves full x x.cancelAll :=
  .map x fun o ho => .cancel fun hf => huncut hf o ho

theorem Exchange.Evolves.cancelOrders {x : Exchange} {ids : List OrderId}
    (huncut : full → ∀ o ∈ x, o.Uncut) : Evolves full x (x.cancelOrders ids) := by
  refine .mapIdx x fun id o ho => ?_
  split
  next => exact .cancel fun hf => huncut hf o ho
  next => exact .refl o

theorem Exchange.cancelAll_ne_opened {x : Exchange} {n : OrderId} (ho : x.cancelAll[n]? = some o) :
    o.status ≠ .opened := by
  rw [Exchange.cancelAll, List.getElem?_map, Option.map_eq_some_iff] at ho
  obtain ⟨o', _, rfl⟩ := ho
  exact o'.cancel_ne_opened

/-! ## Sound accounts -/

/-- The account holds no negative executions. -/
def Exchange.Nonneg (x : Exchange) : Prop := ∀ o ∈ x, 0 ≤ o.executed

/-- At most the amount of the order is executed, and all of it when the order is closed. -/
structure ExchangeOrder.Sound (o : ExchangeOrder) : Prop where
  nonneg : 0 ≤ o.executed
  bounded : o.executed ≤ o.amount
  closed : o.status = .closed → o.executed = o.amount

def Exchange.Sound (x : Exchange) : Prop := ∀ o ∈ x, o.Sound

theorem ExchangeOrder.Sound.evolves {o o' : ExchangeOrder} (h : o.Sound)
    (hev : o.Evolves full o') : o'.Sound where
  nonneg := h.nonneg.trans hev.executed
  bounded := hev.amount ▸ hev.bounded h.bounded
  closed hs := by
    obtain rfl | heq := hev.closed hs
    · exact h.closed hs
    · exact heq.trans hev.amount.symm

theorem ExchangeOrder.Sound.of_accepted {session : Option SessionId} {purpose : Purpose}
    {side : Side} {amount fill : Rat} (h : 0 ≤ fill) (hle : fill ≤ amount) :
    (ExchangeOrder.accepted session purpose side amount fill).Sound where
  nonneg := h
  bounded := hle
  closed hs := by
    simp only [ExchangeOrder.accepted] at hs ⊢
    split at hs
    next heq => exact heq
    next => cases hs

/-- What is true of every order, and stays true, is true of the account. -/
theorem Exchange.forall_evolves {P : ExchangeOrder → Prop} {x x' : Exchange} (h : ∀ o ∈ x, P o)
    (hP : ∀ o o' : ExchangeOrder, P o → o.Evolves full o' → P o')
    (hev : Exchange.Evolves full x x') : ∀ o ∈ x', P o := by
  intro o ho
  obtain ⟨n, hn⟩ := List.mem_iff_getElem?.mp ho
  obtain ⟨o', ho', hevo⟩ := hev.getElem?_back hn
  exact hP o' o (h o' (List.mem_of_getElem? ho')) hevo

theorem Exchange.Nonneg.evolves {x x' : Exchange} (h : x.Nonneg)
    (hev : Exchange.Evolves full x x') : x'.Nonneg :=
  Exchange.forall_evolves h (fun _ _ ho hev => ho.trans hev.executed) hev

theorem Exchange.Sound.evolves {x x' : Exchange} (h : x.Sound)
    (hev : Exchange.Evolves full x x') : x'.Sound :=
  Exchange.forall_evolves h (fun _ _ ho hev => ho.evolves hev) hev

theorem Exchange.Nonneg.append {x : Exchange} (h : x.Nonneg) (ho : 0 ≤ o.executed) :
    Exchange.Nonneg (x ++ [o]) :=
  List.forall_mem_append.mpr ⟨h, List.forall_mem_singleton.mpr ho⟩

theorem Exchange.Sound.append {x : Exchange} (h : x.Sound) (ho : o.Sound) :
    Exchange.Sound (x ++ [o]) :=
  List.forall_mem_append.mpr ⟨h, List.forall_mem_singleton.mpr ho⟩

end Tonatiuh.Trading
