import Tonatiuh.Trading.Orders
import Mathlib.Algebra.BigOperators.Group.Finset.Basic
import Mathlib.Algebra.BigOperators.Intervals

/-! The position of a session, and when the tracked orders account for it. -/

namespace Tonatiuh.Trading

open Async Config

/-! ## Sums over lists by index -/

theorem sum_map_eq_sum_range (h : α → Rat) (l : List α) :
    (l.map h).sum = ∑ n ∈ Finset.range l.length, l[n]?.elim 0 h := by
  induction l with
  | nil => simp
  | cons a l ih => simp [Finset.sum_range_succ', ih, add_comm]

/-- A sum over a list is the sum over any indices that cover the nonzero terms. -/
theorem sum_map_eq_sum_indices {h : α → Rat} {l : List α} {ids : List Nat} (hn : ids.Nodup)
    (hlt : ∀ n ∈ ids, n < l.length) (hz : ∀ n a, l[n]? = some a → n ∉ ids → h a = 0) :
    (l.map h).sum = (ids.map fun n => l[n]?.elim 0 h).sum := by
  rw [sum_map_eq_sum_range, ← List.sum_toFinset _ hn]
  refine (Finset.sum_subset ?_ ?_).symm
  · intro n hmem
    exact Finset.mem_range.mpr (hlt n (List.mem_toFinset.mp hmem))
  · intro n _ hout
    cases ha : l[n]? with
    | none => rfl
    | some a => exact hz n a ha fun hmem => hout (List.mem_toFinset.mpr hmem)

theorem getElem?_of_append_ne {l : List α} (hne : n ≠ l.length) (h : (l ++ [b])[n]? = some a) :
    l[n]? = some a := by
  have hlt := (List.getElem?_eq_some_iff.mp h).1
  rw [List.length_append, List.length_singleton] at hlt
  rwa [List.getElem?_append_left (by omega)] at h

/-! ## Sums over the orders of a session -/

namespace Exchange

variable {x x' : Exchange} {session : Option SessionId} {f : ExchangeOrder → Rat}

theorem total_append (x : Exchange) (o : ExchangeOrder) (session : Option SessionId)
    (f : ExchangeOrder → Rat) :
    total (x ++ [o]) session f = total x session f + if o.session = session then f o else 0 := by
  simp [total]

/-- Sums that agree order by order. -/
theorem total_congr (h : List.Forall₂
    (fun o o' => (if o.session = session then f o else 0) =
      if o'.session = session then f o' else 0)
    x x') : x.total session f = x'.total session f := by
  unfold total
  induction h with
  | nil => rfl
  | cons hhead _ ih => rw [List.map_cons, List.map_cons, List.sum_cons, List.sum_cons, hhead, ih]

theorem total_mono {g : ExchangeOrder → Rat} (h : List.Forall₂
    (fun o o' => (if o.session = session then f o else 0) ≤
      if o'.session = session then g o' else 0)
    x x') : x.total session f ≤ x'.total session g := by
  unfold total
  induction h with
  | nil => rfl
  | cons hhead _ ih =>
    rw [List.map_cons, List.map_cons, List.sum_cons, List.sum_cons]
    exact add_le_add hhead ih

/-- No order of the session is open. -/
def Settled (x : Exchange) (session : Option SessionId) : Prop :=
  ∀ (n : OrderId) (o : ExchangeOrder), x[n]? = some o → o.session = session → o.status ≠ .opened

theorem Evolves.settled_back (h : Evolves full x x') (hs : x.Settled session) {n : OrderId}
    {o : ExchangeOrder} (ho : x'[n]? = some o) (hsession : o.session = session) :
    x[n]? = some o := by
  obtain ⟨o', ho', hev⟩ := h.getElem?_back ho
  have := hev.settled (hs n o' ho' (hev.session ▸ hsession))
  rwa [this]

theorem Settled.evolves (hs : x.Settled session) (h : Evolves full x x') : x'.Settled session :=
  fun n o ho hsession => hs n o (h.settled_back hs ho hsession) hsession

theorem Settled.total_eq (hs : x.Settled session) (h : Evolves full x x') :
    x'.total session f = x.total session f := by
  refine (total_congr ?_).symm
  refine List.forall₂_iff_get.mpr ?_
  have h := List.forall₂_iff_get.mp h
  refine ⟨h.1, fun i hi hi' => ?_⟩
  have hev := h.2 i hi hi'
  by_cases hsession : (x.get ⟨i, hi⟩).session = session
  · have := hev.settled (hs i _ (List.getElem?_eq_getElem hi) hsession)
    rw [this]
  · rw [if_neg hsession, if_neg (hev.session ▸ hsession)]

end Exchange

/-! ## Accounting for a session -/

/-- The tracked orders are the executed orders of the session, each once and with its side, and no
order of the session is open. -/
structure Accounted (session : Option SessionId) (orders : List TrackedOrder) (x : Exchange) :
    Prop where
  nodup : (orders.map (·.exchangeOrderId)).Nodup
  known : ∀ t ∈ orders, ∃ o, x[t.exchangeOrderId]? = some o ∧ o.session = session ∧
    o.side = t.side ∧ 0 < o.executed
  settled : x.Settled session
  complete : ∀ (n : OrderId) (o : ExchangeOrder), x[n]? = some o → o.session = session →
    0 < o.executed → n ∈ orders.map (·.exchangeOrderId)

instance (session : Option SessionId) (orders : List TrackedOrder) (x : Exchange) :
    Decidable (Accounted session orders x) :=
  decidable_of_iff ((orders.map (·.exchangeOrderId)).Nodup ∧
      (∀ t ∈ orders, ∃ o ∈ x[t.exchangeOrderId]?, o.session = session ∧ o.side = t.side ∧
        0 < o.executed) ∧
      ∀ n < x.length, ∀ o ∈ x[n]?, o.session = session → o.status ≠ .opened ∧
        (0 < o.executed → n ∈ orders.map (·.exchangeOrderId)))
    ⟨fun ⟨hn, hk, hc⟩ => ⟨hn, hk,
        fun n o ho hs => (hc n (List.getElem?_eq_some_iff.mp ho).1 o ho hs).1,
        fun n o ho hs => (hc n (List.getElem?_eq_some_iff.mp ho).1 o ho hs).2⟩,
      fun h => ⟨h.nodup, h.known, fun n _ o ho hs => ⟨h.settled n o ho hs, h.complete n o ho hs⟩⟩⟩

/-- The executed amount of a tracked order. -/
def TrackedOrder.executed (t : TrackedOrder) (x : Exchange) : Rat :=
  x[t.exchangeOrderId]?.elim 0 (·.executed)

/-- What a truthful answer says about it. -/
def TrackedOrder.exposure (x : Exchange) (t : TrackedOrder) : FilledOrderExposure :=
  ⟨t.side, some (t.executed x)⟩

namespace Accounted

variable {session : Option SessionId} {orders : List TrackedOrder} {x x' : Exchange}

theorem evolves (h : Accounted session orders x) (hev : Exchange.Evolves full x x') :
    Accounted session orders x' where
  nodup := h.nodup
  known t ht := by
    obtain ⟨o, ho, hsession, hrest⟩ := h.known t ht
    exact ⟨o, hev.settled ho (h.settled _ _ ho hsession), hsession, hrest⟩
  settled := h.settled.evolves hev
  complete n o ho hsession := h.complete n o (hev.settled_back h.settled ho hsession) hsession

/-- A sum over the session is one over the tracked orders. -/
theorem total (h : Accounted session orders x) (hnonneg : ∀ o ∈ x, 0 ≤ o.executed)
    {f : ExchangeOrder → Rat} (hf : ∀ o ∈ x, o.executed = 0 → f o = 0) :
    x.total session f = (orders.map fun t => x[t.exchangeOrderId]?.elim 0 f).sum := by
  rw [Exchange.total, sum_map_eq_sum_indices (l := x) h.nodup, List.map_map]
  · congr 1
    refine List.map_congr_left fun t ht => ?_
    obtain ⟨o, ho, hsession, _⟩ := h.known t ht
    simp [ho, hsession]
  · intro n hn
    obtain ⟨t, ht, rfl⟩ := List.mem_map.mp hn
    obtain ⟨o, ho, _⟩ := h.known t ht
    exact (List.getElem?_eq_some_iff.mp ho).1
  · intro n o ho hout
    split
    next hsession =>
      have hmem := List.mem_of_getElem? ho
      exact hf o hmem (le_antisymm
        (not_lt.mp fun hpos => hout (h.complete n o ho hsession hpos)) (hnonneg o hmem))
    next => rfl

/-- What is read of the tracked orders is the position of the session. -/
theorem net (h : Accounted session orders x)
    (hnonneg : ∀ o ∈ x, 0 ≤ o.executed) :
    netBaseAmount (orders.map (TrackedOrder.exposure x)) = x.net session := by
  rw [netBaseAmount_eq_sum, Exchange.net, h.total hnonneg, List.map_map]
  · congr 1
    refine List.map_congr_left fun t ht => ?_
    obtain ⟨o, ho, _, hside, hpos⟩ := h.known t ht
    simp [TrackedOrder.exposure, TrackedOrder.executed, FilledOrderExposure.signed, ho,
      ExchangeOrder.signed, hside, not_le.mpr hpos]
  · intro o _ hzero
    simp [ExchangeOrder.signed, hzero]

/-- With nothing tracked the session has executed nothing. -/
theorem net_nil (h : Accounted session [] x)
    (hnonneg : ∀ o ∈ x, 0 ≤ o.executed) :
    x.net session = 0 := by
  rw [← h.net hnonneg]
  rfl

end Accounted

/-- The same while the fate of order `n` of the session is not known. -/
structure Awaiting (session : Option SessionId) (orders : List TrackedOrder) (n : OrderId)
    (x : Exchange) : Prop where
  nodup : (orders.map (·.exchangeOrderId)).Nodup
  fresh : n ∉ orders.map (·.exchangeOrderId)
  known : ∀ t ∈ orders, ∃ o, x[t.exchangeOrderId]? = some o ∧ o.session = session ∧
    o.side = t.side ∧ 0 < o.executed
  settled : ∀ (n' : OrderId) (o : ExchangeOrder), n' ≠ n → x[n']? = some o →
    o.session = session → o.status ≠ .opened
  complete : ∀ (n' : OrderId) (o : ExchangeOrder), n' ≠ n → x[n']? = some o →
    o.session = session → 0 < o.executed → n' ∈ orders.map (·.exchangeOrderId)

theorem Accounted.awaiting (h : Accounted session orders x) (o : ExchangeOrder) :
    Awaiting session orders x.length (x ++ [o]) where
  nodup := h.nodup
  fresh hmem := by
    obtain ⟨t, ht, hid⟩ := List.mem_map.mp hmem
    obtain ⟨o', ho', _⟩ := h.known t ht
    rw [hid, List.getElem?_eq_none le_rfl] at ho'
    cases ho'
  known t ht := by
    obtain ⟨o', ho', hrest⟩ := h.known t ht
    refine ⟨o', ?_, hrest⟩
    rw [List.getElem?_append_left (List.getElem?_eq_some_iff.mp ho').1, ho']
  settled n o' hne ho' := h.settled n o' (getElem?_of_append_ne hne ho')
  complete n o' hne ho' := h.complete n o' (getElem?_of_append_ne hne ho')

namespace Awaiting

variable {session : Option SessionId} {orders : List TrackedOrder} {x x' : Exchange} {n : OrderId}

theorem evolves (h : Awaiting session orders n x) (hev : Exchange.Evolves full x x') :
    Awaiting session orders n x' where
  nodup := h.nodup
  fresh := h.fresh
  known t ht := by
    obtain ⟨o, ho, hsession, hrest⟩ := h.known t ht
    have hne : t.exchangeOrderId ≠ n := fun hid => h.fresh (hid ▸ List.mem_map_of_mem ht)
    exact ⟨o, hev.settled ho (h.settled _ _ hne ho hsession), hsession, hrest⟩
  settled n' o hne ho hsession := by
    obtain ⟨o', ho', hevo⟩ := hev.getElem?_back ho
    have hs := h.settled n' o' hne ho' (hevo.session ▸ hsession)
    rwa [hevo.settled hs]
  complete n' o hne ho hsession hpos := by
    obtain ⟨o', ho', hevo⟩ := hev.getElem?_back ho
    have hs := h.settled n' o' hne ho' (hevo.session ▸ hsession)
    exact h.complete n' o' hne ho' (hevo.session ▸ hsession) (hevo.settled hs ▸ hpos)

/-- The order ended without executing. -/
theorem unexecuted (h : Awaiting session orders n x) (ho : x[n]? = some o)
    (hs : o.status ≠ .opened) (hzero : o.executed = 0) : Accounted session orders x where
  nodup := h.nodup
  known := h.known
  settled n' o' ho' hsession := by
    by_cases hne : n' = n
    · subst hne
      rw [ho] at ho'
      cases ho'
      exact hs
    · exact h.settled n' o' hne ho' hsession
  complete n' o' ho' hsession hpos := by
    by_cases hne : n' = n
    · subst hne
      rw [ho] at ho'
      cases ho'
      exact absurd hzero (ne_of_gt hpos)
    · exact h.complete n' o' hne ho' hsession hpos

/-- The order has executed and is tracked. -/
theorem executed (h : Awaiting session orders n x) (ho : x[n]? = some o)
    (hsession : o.session = session) (hs : o.status ≠ .opened) (hpos : 0 < o.executed)
    {t : TrackedOrder} (hid : t.exchangeOrderId = n) (hside : o.side = t.side) :
    Accounted session (orders ++ [t]) x where
  nodup := by
    rw [List.map_append, List.map_singleton, hid]
    exact h.nodup.append (List.nodup_singleton n)
      (List.disjoint_singleton.mpr h.fresh)
  known t' ht' := by
    obtain ht' | ht' := List.mem_append.mp ht'
    · exact h.known t' ht'
    · cases List.mem_singleton.mp ht'
      exact ⟨o, hid ▸ ho, hsession, hside, hpos⟩
  settled n' o' ho' hsession' := by
    by_cases hne : n' = n
    · subst hne
      rw [ho] at ho'
      cases ho'
      exact hs
    · exact h.settled n' o' hne ho' hsession'
  complete n' o' ho' hsession' hpos' := by
    rw [List.map_append, List.mem_append]
    by_cases hne : n' = n
    · exact .inr (by simp [hid, hne])
    · exact .inl (h.complete n' o' hne ho' hsession' hpos')

end Awaiting

end Tonatiuh.Trading
