import Mathlib.Algebra.Order.BigOperators.Group.List
import Mathlib.Algebra.Order.Ring.Abs
import Tonatiuh.Trading.Closing

/-! The orders of a session and the rows that record them.

All entry orders of a session are on one side and all closing orders on the other; what the closing
orders have executed, and what an open one may still execute, is never more than what the entry
orders have executed. -/

namespace Tonatiuh.Trading

open Async Config

/-- The side of an order of a session that was entered on side `d`. -/
def Purpose.side (d : Side) : Purpose → Side
  | .entry => d
  | .closing => d.other

/-- What an entry order has executed. -/
def ExchangeOrder.entered (o : ExchangeOrder) : Rat := if o.purpose = .entry then o.executed else 0

/-- What a closing order has executed, or may still execute. -/
def ExchangeOrder.committed (o : ExchangeOrder) : Rat :=
  if o.purpose = .closing then if o.status = .opened then o.amount else o.executed else 0

/-- What a closing order has executed. -/
def ExchangeOrder.closed (o : ExchangeOrder) : Rat := if o.purpose = .closing then o.executed else 0

/-- The session was entered on side `d`. -/
def Exchange.Sided (x : Exchange) (session : Option SessionId) (d : Side) : Prop :=
  ∀ o ∈ x, o.session = session → o.side = o.purpose.side d

/-- The row tells the truth about an order that is over. -/
def OrderRow.Records (row : OrderRow) (x : Exchange) : Prop :=
  ∃ o, x[row.orderId]? = some o ∧ o.session = row.session ∧ o.side = row.side ∧
    o.status ≠ .opened ∧ 0 < o.executed ∧ row.amount = some o.executed

structure Ledger (x : Exchange) (rows : List OrderRow) : Prop where
  sound : x.Sound
  sided : ∀ session, ∃ d, x.Sided session d
  covered : ∀ session, x.total session ExchangeOrder.committed ≤
    x.total session ExchangeOrder.entered
  /-- An entry order has executed before a closing order is submitted. -/
  opened : ∀ (n : OrderId) (o : ExchangeOrder), x[n]? = some o → o.purpose = .closing →
    ∃ m < n, ∃ o', x[m]? = some o' ∧ o'.session = o.session ∧ o'.purpose = .entry ∧ 0 < o'.executed
  sorted : rows.Pairwise fun row row' => row.orderId < row'.orderId
  recorded : ∀ row ∈ rows, row.Records x

/-! ## Sums over a session -/

namespace Exchange

variable {x : Exchange} {session : Option SessionId} {d : Side}

theorem total_le_total {f g : ExchangeOrder → Rat} (h : ∀ o ∈ x, f o ≤ g o) :
    x.total session f ≤ x.total session g := by
  refine total_mono (List.forall₂_same.mpr fun o ho => ?_)
  split
  next => exact h o ho
  next => exact le_rfl

theorem total_mul_sub (x : Exchange) (session : Option SessionId) (a : Rat)
    (f g : ExchangeOrder → Rat) :
    x.total session (fun o => a * (f o - g o)) = a * (x.total session f - x.total session g) := by
  unfold total
  induction x with
  | nil => simp
  | cons o x ih =>
    rw [List.map_cons, List.sum_cons, ih, List.map_cons, List.sum_cons, List.map_cons,
      List.sum_cons]
    split <;> ring

theorem total_ext {f g : ExchangeOrder → Rat} (h : ∀ o ∈ x, o.session = session → f o = g o) :
    x.total session f = x.total session g := by
  refine congrArg List.sum (List.map_congr_left fun o ho => ?_)
  split
  next hs => exact h o ho hs
  next => rfl

@[simp] theorem total_zero (x : Exchange) (session : Option SessionId) :
    x.total session (fun _ => 0) = 0 := by
  simp [total]

/-- A sum that is positive has a positive term. -/
theorem exists_pos_of_total {f : ExchangeOrder → Rat} (h : 0 < x.total session f) :
    ∃ (n : OrderId) (o : ExchangeOrder), x[n]? = some o ∧ o.session = session ∧ 0 < f o := by
  by_contra hnone
  have hle : x.total session f ≤ x.total session fun _ => 0 := by
    refine total_mono (List.forall₂_same.mpr fun o ho => ?_)
    obtain ⟨n, hn⟩ := List.getElem?_of_mem ho
    split
    next hs => exact not_lt.mp fun hpos => hnone ⟨n, o, hn, hs, hpos⟩
    next => exact le_rfl
  rw [total_zero] at hle
  exact absurd h (not_lt.mpr hle)

theorem Sided.evolves (h : x.Sided session d) (hev : Evolves full x x') : x'.Sided session d := by
  intro o' ho' hs
  obtain ⟨n, hn⟩ := List.getElem?_of_mem ho'
  obtain ⟨o, ho, hevo⟩ := hev.getElem?_back hn
  rw [hevo.side, hevo.purpose]
  exact h o (List.mem_of_getElem? ho) (hevo.session ▸ hs)

/-- The position of a session is what was entered and not closed. -/
theorem Sided.net (h : x.Sided session d) : x.net session =
    d.sign * (x.total session ExchangeOrder.entered - x.total session ExchangeOrder.closed) := by
  rw [← total_mul_sub, Exchange.net]
  refine total_ext fun o ho hs => ?_
  rw [ExchangeOrder.signed, h o ho hs, ExchangeOrder.entered, ExchangeOrder.closed]
  cases o.purpose with
  | entry => simp [Purpose.side]
  | closing => simp [Purpose.side]

theorem Sided.netEntry (h : x.Sided session d) :
    x.netEntry session = d.sign * x.total session ExchangeOrder.entered := by
  rw [← sub_zero (x.total session ExchangeOrder.entered), ← total_zero x session, ← total_mul_sub]
  refine total_ext fun o ho hs => ?_
  rw [ExchangeOrder.signed, h o ho hs, ExchangeOrder.entered, sub_zero]
  cases o.purpose with
  | entry => rfl
  | closing => simp

end Exchange

theorem ExchangeOrder.Sound.closed_le {o : ExchangeOrder} (h : o.Sound) :
    o.closed ≤ o.committed := by
  unfold ExchangeOrder.closed ExchangeOrder.committed
  split
  next =>
    split
    next => exact h.bounded
    next => exact le_rfl
  next => exact le_rfl

/-- What is over may execute no more. -/
theorem Exchange.Settled.committed {x : Exchange} (h : x.Settled session) :
    x.total session ExchangeOrder.committed = x.total session ExchangeOrder.closed := by
  refine Exchange.total_ext fun o ho hs => ?_
  obtain ⟨n, hn⟩ := List.getElem?_of_mem ho
  rw [ExchangeOrder.committed, if_neg (h n o hn hs), ExchangeOrder.closed]

theorem ExchangeOrder.Evolves.committed_le {o o' : ExchangeOrder} (h : o.Evolves full o')
    (ho : o.Sound) : o'.committed ≤ o.committed := by
  unfold ExchangeOrder.committed
  rw [h.purpose]
  split
  next =>
    by_cases hs : o.status = .opened
    · rw [if_pos hs]
      split
      next => exact h.amount.le
      next => exact h.bounded ho.bounded
    · rw [h.settled hs, if_neg hs]
  next => exact le_rfl

theorem ExchangeOrder.Evolves.entered_le {o o' : ExchangeOrder} (h : o.Evolves full o') :
    o.entered ≤ o'.entered := by
  unfold ExchangeOrder.entered
  rw [h.purpose]
  split
  next => exact h.executed
  next => exact le_rfl

/-- A closing order commits its whole amount. -/
theorem ExchangeOrder.committed_accepted (session : Option SessionId) (side : Side)
    (amount fill : Rat) : (accepted session .closing side amount fill).committed = amount := by
  unfold committed accepted
  rw [if_pos rfl]
  dsimp only
  by_cases hf : fill = amount
  · rw [if_pos hf, if_neg nofun, hf]
  · rw [if_neg hf, if_pos rfl]

namespace Ledger

variable {x x' : Exchange} {rows : List OrderRow}

theorem empty : Ledger [] [] where
  sound := nofun
  sided session := ⟨.buy, nofun⟩
  covered session := le_rfl
  opened n o ho := by cases ho
  sorted := .nil
  recorded := nofun

theorem evolves (h : Ledger x rows) (hev : Exchange.Evolves full x x') : Ledger x' rows where
  sound := h.sound.evolves hev
  sided session := by
    obtain ⟨d, hd⟩ := h.sided session
    exact ⟨d, hd.evolves hev⟩
  covered session := by
    have hev' := List.forall₂_iff_get.mp hev
    calc x'.total session ExchangeOrder.committed
      _ ≤ x.total session ExchangeOrder.committed := by
        refine Exchange.total_mono (List.forall₂_iff_get.mpr ⟨hev'.1.symm, fun i hi' hi => ?_⟩)
        have hevo := hev'.2 i hi hi'
        rw [hevo.session]
        split
        next => exact hevo.committed_le (h.sound _ (List.get_mem ..))
        next => exact le_rfl
      _ ≤ x.total session ExchangeOrder.entered := h.covered session
      _ ≤ x'.total session ExchangeOrder.entered := by
        refine Exchange.total_mono (List.forall₂_iff_get.mpr ⟨hev'.1, fun i hi hi' => ?_⟩)
        have hevo := hev'.2 i hi hi'
        rw [hevo.session]
        split
        next => exact hevo.entered_le
        next => exact le_rfl
  opened n o' ho' hp := by
    obtain ⟨o, ho, hevo⟩ := hev.getElem?_back ho'
    obtain ⟨m, hm, e, he, hs, hentry, hpos⟩ := h.opened n o ho (hevo.purpose ▸ hp)
    obtain ⟨e', he', heve⟩ := hev.getElem? he
    exact ⟨m, hm, e', he', by rw [heve.session, hs, hevo.session], heve.purpose.trans hentry,
      hpos.trans_le heve.executed⟩
  sorted := h.sorted
  recorded row hrow := by
    obtain ⟨o, ho, hs, hside, hset, hrest⟩ := h.recorded row hrow
    exact ⟨o, hev.settled ho hset, hs, hside, hset, hrest⟩

/-- The row of the order is known to be an old one. -/
theorem row_lt (h : Ledger x rows) (hrow : row ∈ rows) : row.orderId < x.length := by
  obtain ⟨o, ho, _⟩ := h.recorded row hrow
  exact (List.getElem?_eq_some_iff.mp ho).1

/-- An order is accepted. -/
theorem append {o : ExchangeOrder} (h : Ledger x rows) (ho : o.Sound)
    (hd : ∃ d, x.Sided o.session d ∧ o.side = o.purpose.side d)
    (hcovered : o.purpose = .closing → x.total o.session ExchangeOrder.committed + o.committed ≤
      x.total o.session ExchangeOrder.entered)
    (hopened : o.purpose = .closing → ∃ (m : OrderId) (e : ExchangeOrder), x[m]? = some e ∧
      e.session = o.session ∧ e.purpose = .entry ∧ 0 < e.executed) : Ledger (x ++ [o]) rows where
  sound := h.sound.append ho
  sided session := by
    by_cases hs : o.session = session
    · obtain ⟨d, hd, hside⟩ := hd
      refine ⟨d, fun o' ho' hs' => ?_⟩
      obtain ho' | ho' := List.mem_append.mp ho'
      · exact hd o' ho' (hs'.trans hs.symm)
      · cases List.mem_singleton.mp ho'
        exact hside
    · obtain ⟨d, hd⟩ := h.sided session
      refine ⟨d, fun o' ho' hs' => ?_⟩
      obtain ho' | ho' := List.mem_append.mp ho'
      · exact hd o' ho' hs'
      · cases List.mem_singleton.mp ho'
        exact absurd hs' hs
  covered session := by
    rw [Exchange.total_append, Exchange.total_append]
    split
    next hs =>
      subst hs
      cases hp : o.purpose with
      | entry =>
        have hzero : o.committed = 0 := by simp [ExchangeOrder.committed, hp]
        have hentered : o.entered = o.executed := by simp [ExchangeOrder.entered, hp]
        have := h.covered o.session
        have := ho.nonneg
        linarith
      | closing =>
        have hentered : o.entered = 0 := by simp [ExchangeOrder.entered, hp]
        have := hcovered hp
        linarith
    next =>
      rw [add_zero, add_zero]
      exact h.covered session
  opened n o' ho' hp := by
    by_cases hn : n = x.length
    · subst hn
      rw [List.getElem?_concat_length] at ho'
      cases ho'
      obtain ⟨m, e, he, hrest⟩ := hopened hp
      have hlt := (List.getElem?_eq_some_iff.mp he).1
      exact ⟨m, hlt, e, by rw [List.getElem?_append_left hlt, he], hrest⟩
    · obtain ⟨m, hm, e, he, hrest⟩ := h.opened n o' (getElem?_of_append_ne hn ho') hp
      have hlt := (List.getElem?_eq_some_iff.mp he).1
      exact ⟨m, hm, e, by rw [List.getElem?_append_left hlt, he], hrest⟩
  sorted := h.sorted
  recorded row hrow := by
    obtain ⟨o', ho', hrest⟩ := h.recorded row hrow
    refine ⟨o', ?_, hrest⟩
    rw [List.getElem?_append_left (List.getElem?_eq_some_iff.mp ho').1, ho']

/-- A closing order is accepted for the position of a session that is accounted for. -/
theorem closes (h : Ledger x rows) (ha : Accounted session orders x) (hpos : 0 < amount)
    (hnet : side.sign * amount = -x.net session) (hfill : 0 ≤ fill) (hle : fill ≤ amount) :
    Ledger (x ++ [.accepted session .closing side amount fill]) rows := by
  obtain ⟨d, hd⟩ := h.sided session
  have hcovered := h.covered session
  rw [ha.settled.committed] at hcovered
  rw [hd.net] at hnet
  -- the side is the one that reduces the position
  have hside : side = d.other := by
    by_contra hne
    have heq : side = d := by
      cases side <;> cases d <;> first | rfl | exact absurd rfl hne
    have hmul : d.sign * (amount + (x.total session ExchangeOrder.entered -
        x.total session ExchangeOrder.closed)) = 0 := by
      rw [mul_add, ← heq, hnet, heq]
      ring
    have hsign : d.sign ≠ 0 := by cases d <;> norm_num [Side.sign]
    have hsum := (mul_eq_zero.mp hmul).resolve_left hsign
    linarith
  have hamount : amount = x.total session ExchangeOrder.entered -
      x.total session ExchangeOrder.closed := by
    rw [hside, Side.sign_other, neg_mul, neg_inj] at hnet
    have hsign : d.sign ≠ 0 := by cases d <;> norm_num [Side.sign]
    exact mul_left_cancel₀ hsign hnet
  refine h.append (.of_accepted hfill hle) ⟨d, hd, hside⟩ (fun _ => ?_) fun _ => ?_
  · rw [ExchangeOrder.committed_accepted]
    change x.total session _ + amount ≤ x.total session _
    rw [ha.settled.committed]
    linarith
  · have hentered : 0 < x.total session ExchangeOrder.entered := by
      have hclosed : 0 ≤ x.total session ExchangeOrder.closed := by
        rw [← Exchange.total_zero x session]
        refine Exchange.total_le_total fun o ho => ?_
        unfold ExchangeOrder.closed
        split
        next => exact (h.sound o ho).nonneg
        next => exact le_rfl
      linarith
    obtain ⟨m, e, he, hs, hpos⟩ := Exchange.exists_pos_of_total hentered
    unfold ExchangeOrder.entered at hpos
    split at hpos
    next hp => exact ⟨m, e, he, hs, hp, hpos⟩
    next => exact absurd hpos (lt_irrefl 0)

/-- An entry order is accepted on the side of the session. -/
theorem enters (h : Ledger x rows) (hd : x.Sided session side) (hfill : 0 ≤ fill)
    (hle : fill ≤ amount) : Ledger (x ++ [.accepted session .entry side amount fill]) rows :=
  h.append (.of_accepted hfill hle) ⟨side, hd, rfl⟩ nofun nofun

/-- The row of an executed order is inserted. -/
theorem records (h : Ledger x rows) (hrow : row.Records x)
    (hlt : ∀ row' ∈ rows, row'.orderId < row.orderId) : Ledger x (rows ++ [row]) where
  sound := h.sound
  sided := h.sided
  covered := h.covered
  opened := h.opened
  sorted := List.pairwise_append.mpr ⟨h.sorted, List.pairwise_singleton ..,
    fun row' hrow' r hr => List.mem_singleton.mp hr ▸ hlt row' hrow'⟩
  recorded row' hrow' := by
    obtain hrow' | hrow' := List.mem_append.mp hrow'
    · exact h.recorded row' hrow'
    · exact List.mem_singleton.mp hrow' ▸ hrow

/-- The rows of a session are marked as inactive. -/
theorem reverted (h : Ledger x rows) (f : OrderRow → OrderRow)
    (hid : ∀ row, (f row).orderId = row.orderId) (hf : ∀ row, row.Records x → (f row).Records x) :
    Ledger x (rows.map f) where
  sound := h.sound
  sided := h.sided
  covered := h.covered
  opened := h.opened
  sorted := by
    rw [List.pairwise_map]
    exact h.sorted.imp fun hlt => by rwa [hid, hid]
  recorded row hrow := by
    obtain ⟨row', hrow', rfl⟩ := List.mem_map.mp hrow
    exact hf row' (h.recorded row' hrow')

theorem kept (hclean : terms.clean = true) : Kept terms Ledger where
  nonneg h o ho := (h.sound o ho).nonneg
  rows _ h _ hrow := h.row_lt hrow
  evolves h hev := h.evolves hev
  closes h ha hpos hnet hfill hle := h.closes ha hpos hnet hfill hle
  records h ho hset hpos hs hid hamount hside hlt := by
    subst hid
    exact h.records ⟨_, ho, hs.symm, hside.symm, hset, hpos, hamount⟩ (hlt hclean)

/-- The closing orders of a session never execute more than its entry orders. -/
theorem closed_le (h : Ledger x rows) (session : Option SessionId) :
    x.closed session ≤ |x.netEntry session| := by
  obtain ⟨d, hd⟩ := h.sided session
  rw [hd.netEntry, abs_mul, Side.abs_sign, one_mul]
  calc x.closed session
    _ ≤ x.total session ExchangeOrder.committed :=
      Exchange.total_le_total fun o ho => (h.sound o ho).closed_le
    _ ≤ x.total session ExchangeOrder.entered := h.covered session
    _ ≤ _ := le_abs_self _

end Ledger

end Tonatiuh.Trading
