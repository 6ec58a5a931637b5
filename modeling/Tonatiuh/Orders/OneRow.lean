import Tonatiuh.Orders.Updates

/-! One row for each order.

The table has one row for each client order id, so it has one for each order of the exchange only if
the updates of an order always carry the same client order id, and those of different orders
different ones. The exchange may leave out the client order id of an order in some of its
answers. -/

namespace Tonatiuh.Orders

open Supervisor (BotId)
open Tables Transition

/-- The updates of an order that have been written. -/
def System.written (s : System) (botId : BotId) (id : String) : List OrderUpdate :=
  (s.persisted.filter fun entry => entry.1 = botId ∧ entry.2.exchangeOrderId = id).map (·.2)

/-- The rows of an order. -/
def System.rowsOf (s : System) (botId : BotId) (id : String) : List OrderRow :=
  s.rows.filter fun row => row.botId = botId ∧ row.exchangeOrderId = id

/-- A row holds what an update says. -/
structure OrderRow.Shows (row : OrderRow) (order : OrderUpdate) : Prop where
  status : row.status = order.status
  quantity : numeric order.quantity = .ok row.quantity
  price : numericOrNull order.price = .ok row.price

/-- Each order of which an update has been written has exactly one row, which holds the last of
these updates. -/
def System.OneRow (s : System) : Prop :=
  ∀ botId id, match (s.written botId id).getLast? with
    | some order => ∃ row, s.rowsOf botId id = [row] ∧ row.Shows order
    | none => s.rowsOf botId id = []

/-- The update that is written has the client order id of an earlier update of its bot exactly if it
has its exchange order id. -/
def KeepsClientOrderId (s : System) (e : Event) (_ : System) : Prop :=
  ∀ botId order rest, e = .persist botId → s.queues botId = order :: rest →
    ∀ u, (botId, u) ∈ s.persisted →
      (u.clientOrderId = order.clientOrderId ↔ u.exchangeOrderId = order.exchangeOrderId)

/-- What holds of the table while `KeepsClientOrderId` does. -/
structure System.Kept (s : System) : Prop where
  nodup : (s.rows.map OrderRow.key).Nodup
  present : ∀ botId u, (botId, u) ∈ s.persisted → ∃ row ∈ s.rows,
    row.botId = botId ∧ row.exchangeOrderId = u.exchangeOrderId ∧
      row.clientOrderId = u.clientOrderId
  source : ∀ row ∈ s.rows, ∃ u, (row.botId, u) ∈ s.persisted ∧
    row.exchangeOrderId = u.exchangeOrderId ∧ row.clientOrderId = u.clientOrderId
  oneRow : s.OneRow

variable {s s' : System} {botId : BotId} {order : OrderUpdate} {row : OrderRow}

theorem of_bind_eq_ok {α β : Type} {x : Except String α} {f : α → Except String β} {b : β}
    (h : (x >>= f) = .ok b) : ∃ a, x = .ok a ∧ f a = .ok b := by
  cases x with
  | error message => cases h
  | ok a => exact ⟨a, rfl, h⟩

/-- The row of an update. -/
theorem orderRow_eq (h : orderRow botId order = .ok row) :
    row.botId = botId ∧ row.exchangeOrderId = order.exchangeOrderId ∧
      row.clientOrderId = order.clientOrderId ∧ row.Shows order := by
  unfold orderRow at h
  split at h
  · cases h
  · obtain ⟨quantity, hquantity, h⟩ := of_bind_eq_ok h
    obtain ⟨price, hprice, h⟩ := of_bind_eq_ok h
    split at h
    · cases h
    · cases h
      exact ⟨rfl, rfl, rfl, rfl, hquantity, hprice⟩

theorem orderRow_side (h : orderRow botId order = .ok row) : row.side = order.side := by
  unfold orderRow at h
  split at h
  · cases h
  · obtain ⟨quantity, -, h⟩ := of_bind_eq_ok h
    obtain ⟨price, -, h⟩ := of_bind_eq_ok h
    split at h
    · cases h
    · cases h
      rfl

theorem persistOrderUpdate_eq {rows rows' : List OrderRow}
    (h : persistOrderUpdate botId order rows = .ok rows') :
    ∃ row, orderRow botId order = .ok row ∧ rows' = upsert OrderRow.key row rows := by
  obtain ⟨row, hrow, h⟩ := of_bind_eq_ok h
  exact ⟨row, hrow, (Except.ok.inj h).symm⟩

/-! ## Steps -/

/-- The steps that change a row. -/
theorem System.step_cases {e : Event} (h : s.step e = some s') :
    (s'.rows = s.rows ∧ s'.persisted = s.persisted ∧ ∀ botId, e ≠ .persist botId) ∨
      ∃ botId order rest row, e = .persist botId ∧ s.queues botId = order :: rest ∧
        orderRow botId order = .ok row ∧ s'.rows = upsert OrderRow.key row s.rows ∧
        s'.persisted = s.persisted ++ [(botId, order)] := by
  cases e with
  | publish botId order =>
    cases h
    exact .inl ⟨rfl, rfl, fun _ he => by cases he⟩
  | setOrders botId orders =>
    cases h
    exact .inl ⟨rfl, rfl, fun _ he => by cases he⟩
  | restart =>
    cases h
    exact .inl ⟨rfl, rfl, fun _ he => by cases he⟩
  | fail botId =>
    simp only [step] at h
    split at h
    · cases h
      exact .inl ⟨rfl, rfl, fun _ he => by cases he⟩
    · cases h
  | persist botId =>
    simp only [step] at h
    split at h
    next order rest hqueue =>
      split at h
      next rows hrows =>
        cases h
        obtain ⟨row, hrow, rfl⟩ := persistOrderUpdate_eq hrows
        exact .inr ⟨botId, order, rest, row, rfl, hqueue, hrow, rfl, rfl⟩
      next => cases h
    next => cases h

theorem System.mem_rowsOf {id : String} :
    row ∈ s.rowsOf botId id ↔ row ∈ s.rows ∧ row.botId = botId ∧ row.exchangeOrderId = id := by
  simp [rowsOf]

theorem System.mem_written {id : String} {u : OrderUpdate} :
    u ∈ s.written botId id ↔ (botId, u) ∈ s.persisted ∧ u.exchangeOrderId = id := by
  simp [written]

/-- The updates of the order that is written, and those of another one. -/
theorem System.written_persist (h : s'.persisted = s.persisted ++ [(botId, order)]) (b : BotId)
    (id : String) : s'.written b id =
      if b = botId ∧ order.exchangeOrderId = id then s.written b id ++ [order]
      else s.written b id := by
  simp only [written, h, List.filter_append, List.map_append]
  split
  next heq => simp [heq.1, heq.2]
  next hne =>
    have hno : ¬(botId = b ∧ order.exchangeOrderId = id) := fun heq => hne ⟨heq.1.symm, heq.2⟩
    simp [hno]

/-- A table that holds the last update of an order has a row for it. -/
theorem System.OneRow.exists_row (h : s.OneRow) {u : OrderUpdate} (hu : (botId, u) ∈ s.persisted) :
    ∃ row, s.rowsOf botId u.exchangeOrderId = [row] := by
  have hmem : u ∈ s.written botId u.exchangeOrderId := mem_written.mpr ⟨hu, rfl⟩
  have hrow := h botId u.exchangeOrderId
  cases hlast : (s.written botId u.exchangeOrderId).getLast? with
  | none =>
    rw [List.getLast?_eq_none_iff.mp hlast] at hmem
    cases hmem
  | some last =>
    rw [hlast] at hrow
    obtain ⟨row, hrow, -⟩ := hrow
    exact ⟨row, hrow⟩

/-- The row of an update that keeps the client order ids is the one of its order. -/
theorem System.Kept.persist {rest : List OrderUpdate} (hk : s.Kept)
    (hkeeps : KeepsClientOrderId s (.persist botId) s') (hqueue : s.queues botId = order :: rest)
    (hrow : orderRow botId order = .ok row) (hrows : s'.rows = upsert OrderRow.key row s.rows)
    (hpersisted : s'.persisted = s.persisted ++ [(botId, order)]) : s'.Kept := by
  obtain ⟨hbot, hid, hclient, hshows⟩ := orderRow_eq hrow
  have hkeeps := hkeeps botId order rest rfl hqueue
  have hnodup : (s'.rows.map OrderRow.key).Nodup := by rw [hrows]; exact nodup_upsert hk.nodup
  have hkey (r : OrderRow) : r.key = row.key ↔ r.botId = botId ∧
      r.clientOrderId = order.clientOrderId := by
    rw [OrderRow.key, OrderRow.key, hbot, hclient, Prod.mk.injEq]
  -- a row of the bot has the client order id of the update exactly if it is the row of its order
  have hsame {r : OrderRow} (hr : r ∈ s.rows) (hb : r.botId = botId) :
      r.clientOrderId = order.clientOrderId ↔ r.exchangeOrderId = order.exchangeOrderId := by
    obtain ⟨u, hu, hue, huc⟩ := hk.source r hr
    rw [huc, hue]
    exact hkeeps u (hb ▸ hu)
  have hmem (r : OrderRow) : r ∈ s'.rows ↔ r = row ∨ (r ∈ s.rows ∧ r.key ≠ row.key) := by
    rw [hrows]; exact mem_upsert hk.nodup
  exact {
    nodup := hnodup
    present b u hu := by
      rw [hpersisted, List.mem_append, List.mem_singleton] at hu
      rcases hu with hu | heq
      · obtain ⟨r, hr, hrb, hre, hrc⟩ := hk.present b u hu
        by_cases hrkey : r.key = row.key
        · obtain ⟨hrb', hrc'⟩ := (hkey r).mp hrkey
          refine ⟨row, (hmem row).mpr (.inl rfl), hbot.trans (hrb'.symm.trans hrb), ?_, ?_⟩
          · exact hid.trans (((hsame hr hrb').mp hrc').symm.trans hre)
          · exact hclient.trans (hrc'.symm.trans hrc)
        · exact ⟨r, (hmem r).mpr (.inr ⟨hr, hrkey⟩), hrb, hre, hrc⟩
      · obtain ⟨rfl, rfl⟩ := Prod.mk.inj heq
        exact ⟨row, (hmem row).mpr (.inl rfl), hbot, hid, hclient⟩
    source r hr := by
      rw [hpersisted]
      rcases (hmem r).mp hr with rfl | ⟨hold, -⟩
      · exact ⟨order, List.mem_append_right _ (by rw [hbot]; exact List.mem_singleton_self _),
          hid, hclient⟩
      · obtain ⟨u, hu, hue, huc⟩ := hk.source r hold
        exact ⟨u, List.mem_append_left _ hu, hue, huc⟩
    oneRow b id := by
      rw [System.written_persist hpersisted]
      by_cases heq : b = botId ∧ order.exchangeOrderId = id
      · rw [if_pos heq, List.getLast?_concat]
        obtain ⟨rfl, rfl⟩ := heq
        refine ⟨row, (filter_eq_singleton hnodup.of_map).mpr ⟨(hmem row).mpr (.inl rfl), ?_, ?_⟩,
          hshows⟩
        · simp [hbot, hid]
        · intro r hr hp
          obtain ⟨hrb, hre⟩ : r.botId = b ∧ r.exchangeOrderId = order.exchangeOrderId := by
            simpa using hp
          rcases (hmem r).mp hr with rfl | ⟨hold, hne⟩
          · rfl
          · exact absurd ((hkey r).mpr ⟨hrb, (hsame hold hrb).mpr hre⟩) hne
      · rw [if_neg heq]
        have hrowsOf : s'.rowsOf b id = s.rowsOf b id := by
          rw [System.rowsOf, System.rowsOf, hrows]
          refine filter_upsert ?_ fun r hr hrkey => ?_
          · rw [decide_eq_false_iff_not, hbot, hid]
            exact fun hsame' => heq ⟨hsame'.1.symm, hsame'.2⟩
          · obtain ⟨hrb, hrc⟩ := (hkey r).mp hrkey
            rw [decide_eq_false_iff_not, hrb, (hsame hr hrb).mp hrc]
            exact fun hsame' => heq ⟨hsame'.1.symm, hsame'.2⟩
        rw [hrowsOf]
        exact hk.oneRow b id }

/-- An update without the client order id of its order, or with that of another one, leaves an order
with two rows or with none. -/
theorem System.Kept.keeps (hk : s.Kept) {e : Event} (h : s.step e = some s') (hone : s'.OneRow) :
    KeepsClientOrderId s e s' := by
  rintro botId order rest rfl hqueue u hu
  obtain ⟨-, -, hno⟩ | ⟨b, order', rest', row, he, hqueue', hrow, hrows, hpersisted⟩ := step_cases h
  · exact absurd rfl (hno botId)
  cases he
  obtain ⟨rfl, rfl⟩ := List.cons.inj (hqueue.symm.trans hqueue')
  obtain ⟨hbot, hid, hclient, -⟩ := orderRow_eq hrow
  have hmem (r : OrderRow) : r ∈ s'.rows ↔ r = row ∨ (r ∈ s.rows ∧ r.key ≠ row.key) := by
    rw [hrows]; exact mem_upsert hk.nodup
  obtain ⟨r, hr, hrb, hre, hrc⟩ := hk.present botId u hu
  have hold : (botId, u) ∈ s'.persisted := by rw [hpersisted]; exact List.mem_append_left _ hu
  obtain ⟨only, honly⟩ := hone.exists_row hold
  constructor
  · intro hsame
    by_contra hne
    -- the row of `u` is replaced, and there is no other one
    have hin : only ∈ s'.rowsOf botId u.exchangeOrderId := by
      rw [honly]; exact List.mem_singleton_self _
    obtain ⟨hin, hob, hoe⟩ := mem_rowsOf.mp hin
    rcases (hmem only).mp hin with rfl | ⟨hin, hkey⟩
    · exact hne (hoe.symm.trans hid)
    · obtain ⟨first, hfirst⟩ := hk.oneRow.exists_row hu
      have h₁ : only ∈ s.rowsOf botId u.exchangeOrderId := mem_rowsOf.mpr ⟨hin, hob, hoe⟩
      have h₂ : r ∈ s.rowsOf botId u.exchangeOrderId := mem_rowsOf.mpr ⟨hr, hrb, hre⟩
      rw [hfirst, List.mem_singleton] at h₁ h₂
      refine hkey ?_
      rw [h₁, ← h₂, OrderRow.key, OrderRow.key, hrb, hbot, hrc, hsame, hclient]
  · intro hsame
    by_contra hne
    -- the row of `u` stays next to the new one
    have h₁ : r ∈ s'.rowsOf botId u.exchangeOrderId := by
      refine mem_rowsOf.mpr ⟨(hmem r).mpr (.inr ⟨hr, fun hkey => hne ?_⟩), hrb, hre⟩
      exact hrc.symm.trans ((congrArg Prod.snd hkey).trans hclient)
    have h₂ : row ∈ s'.rowsOf botId u.exchangeOrderId :=
      mem_rowsOf.mpr ⟨(hmem row).mpr (.inl rfl), hbot, hid.trans hsame.symm⟩
    rw [honly, List.mem_singleton] at h₁ h₂
    refine hne ?_
    rw [← hrc, h₁, ← h₂, hclient]

theorem System.Kept.step (hk : s.Kept) {e : Event} (hkeeps : KeepsClientOrderId s e s')
    (h : s.step e = some s') : s'.Kept := by
  obtain ⟨hrows, hpersisted, -⟩ | ⟨botId, order, rest, row, rfl, hqueue, hrow, hrows, hpersisted⟩ :=
    step_cases h
  · exact {
      nodup := by rw [hrows]; exact hk.nodup
      present := by rw [hrows, hpersisted]; exact hk.present
      source := by rw [hrows, hpersisted]; exact hk.source
      oneRow := by
        unfold System.OneRow System.written System.rowsOf
        rw [hrows, hpersisted]
        exact hk.oneRow }
  · exact hk.persist hkeeps hqueue hrow hrows hpersisted

theorem System.kept_empty : ({} : System).Kept where
  nodup := List.nodup_nil
  present _ _ h := by cases h
  source _ h := by cases h
  oneRow _ _ := rfl

/-- The table has one row for each order, with its last update, in all states of the runs in which
the updates of each order, and of no other, carry its client order id. -/
theorem System.oneRow_iff {es : List Event} :
    Run (Meeting (Stepping System.step) fun _ _ s' => s'.OneRow) {} es s ↔
      Run (Meeting (Stepping System.step) KeepsClientOrderId) {} es s := by
  constructor
  · intro h
    refine h.mono_invariant (I := System.Kept) (fun s e s' hk hstep => ?_) System.kept_empty
    have hkeeps := hk.keeps hstep.1 hstep.2
    exact ⟨⟨hstep.1, hkeeps⟩, hk.step hkeeps hstep.1⟩
  · intro h
    refine h.mono_invariant (I := System.Kept) (fun s e s' hk hstep => ?_) System.kept_empty
    have hk' := hk.step hstep.2 hstep.1
    exact ⟨⟨hstep.1, hk'.oneRow⟩, hk'⟩

/-- The answer to `createOrder`, with the client order id. -/
def submittedOrder : Order where
  id := some "1001"
  clientOrderId := some "x-7"
  symbol := some "BTC/USDT"
  side := some .buy
  type := some "limit"
  status := some "open"
  filled := some 0
  amount := some 2
  price := some 100

/-- The answer to `fetchOrder`, without it. -/
def fetchedOrder : Order :=
  { submittedOrder with clientOrderId := none, status := some "closed", filled := some 2 }

def fetchedWithoutClientOrderId : List Event :=
  [.publish 0 submittedOrder, .publish 0 fetchedOrder, .persist 0, .persist 0]

theorem fetchedWithoutClientOrderId_enabled :
    (exec System.step {} fetchedWithoutClientOrderId).isSome := by decide +kernel

/-- One order has two rows, one of them open. -/
theorem order_with_two_rows :
    ¬∀ (es : List Event) (s : System), Run (Stepping System.step) {} es s → s.OneRow := by
  intro h
  have hone := h _ _ (Run.of_exec_get fetchedWithoutClientOrderId_enabled)
  have hrows : (((exec System.step {} fetchedWithoutClientOrderId).get
      fetchedWithoutClientOrderId_enabled).rowsOf 0 "1001").length = 2 := by decide +kernel
  have hone := hone 0 "1001"
  split at hone
  · obtain ⟨row, hrow, -⟩ := hone
    rw [hrow] at hrows
    cases hrows
  · rw [hone] at hrows
    cases hrows

end Tonatiuh.Orders
