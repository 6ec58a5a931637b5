import Tonatiuh.Email.Outbox
import Tonatiuh.Transition.Locks
import Tonatiuh.Transition.Run

/-! The statuses of a message, and how often it is handed to the transport.

Of the updates of a worker, that of the `catch` block is the only one that takes a message out of a
final status. A claim counts an attempt, and each claim hands the message over once at most. -/

namespace Tonatiuh.Email

open Transition

variable {s s' : System} {message message' : Message} {d d' : Delivery} {id : MessageId} {i j : Nat}
  {e : Event}

namespace Message

def isFinal (message : Message) : Bool :=
  message.status = .sent || message.status = .delivered || message.status = .bounced ||
    message.status = .suppressed

@[simp] theorem recover_attempts (now : Nat) :
    (message.recover now).attempts = message.attempts := by
  unfold recover
  split <;> rfl

@[simp] theorem recover_retries (now : Nat) : (message.recover now).retries = message.retries := by
  unfold recover
  split <;> rfl

@[simp] theorem recover_handoffs (now : Nat) :
    (message.recover now).handoffs = message.handoffs := by
  unfold recover
  split <;> rfl

theorem deliver_counters (now : Nat) : (message.deliver now).attempts = message.attempts ∧
    (message.deliver now).retries = message.retries ∧
    (message.deliver now).handoffs = message.handoffs := by
  unfold deliver
  split <;> exact ⟨rfl, rfl, rfl⟩

theorem recover_of_final (h : message.isFinal) (now : Nat) : message.recover now = message := by
  unfold recover
  split
  next hstalled =>
    rw [Bool.and_eq_true, decide_eq_true_eq] at hstalled
    simp [isFinal, hstalled.1] at h
  next => rfl

end Message

/-- The message that a delivery can still hand over, with the retries that it knows. -/
def Delivery.waits (d : Delivery) : Option (MessageId × Nat) :=
  match d.stage with
  | .selectSuppression | .render => some (d.id, d.retries)
  | _ => none

namespace System

/-! ## Steps -/

/-- What a step makes of a message that is there. -/
inductive Changes (s : System) : Event → MessageId → Message → Message → Prop where
  | same {e : Event} {id : MessageId} {m : Message} (h : e ≠ .claim (some id)) : Changes s e id m m
  | recovered {id? : Option MessageId} {id : MessageId} {m : Message} (h : id? ≠ some id) :
    Changes s (.claim id?) id m (m.recover s.now)
  | claimed {id : MessageId} {m : Message} (h : (m.recover s.now).status = .pending) :
    Changes s (.claim (some id)) id m ((m.recover s.now).claim s.now)
  | suppressed {i : Nat} {d : Delivery} {m : Message} : Changes s (.run i) d.id m m.suppress
  | handedOver {i : Nat} {d : Delivery} {m : Message} (hd : s.deliveries[i]? = some d)
    (hs : d.stage = .render) : Changes s (.run i) d.id m m.handOver
  | sent {i : Nat} {d : Delivery} {m : Message} {messageId : String} :
    Changes s (.run i) d.id m (m.send s.now messageId)
  | failed {i : Nat} {d : Delivery} {m : Message} {error : String} (hd : s.deliveries[i]? = some d)
    (hs : d.stage = .recordError error) :
    Changes s (.run i) d.id m (m.fail s.now (d.attempts + 1) error)
  | delivered {e : Event} {id : MessageId} {m : Message} (h : e ≠ .claim (some id)) :
    Changes s e id m (m.deliver s.now)
  | bounced {e : Event} {id : MessageId} {m : Message} (h : e ≠ .claim (some id)) :
    Changes s e id m (m.bounce s.now)
  | retried {id : MessageId} {m : Message} (h : m.status = .deadLetter) :
    Changes s (.retry id) id m (m.retry s.now)

/-- Where a message comes from: it was there, or it is new. -/
theorem step_message (h : s.step e = some s') (hm : s'.outbox[id]? = some message') :
    (∃ message, s.outbox[id]? = some message ∧ s.Changes e id message message') ∨
      ∃ recipient, e = .enqueue recipient ∧ id = s.outbox.length ∧
        message' = { recipient, nextAttemptAt := s.now } := by
  have hsame (hold : s.outbox[id]? = some message') (hne : e ≠ .claim (some id)) :
      ∃ message, s.outbox[id]? = some message ∧ s.Changes e id message message' :=
    ⟨message', hold, .same hne⟩
  cases e with
  | enqueue recipient =>
    cases h
    rcases getElem?_concat_cases hm with hnew | ⟨-, hold⟩
    · exact .inr ⟨recipient, rfl, hnew⟩
    · exact .inl (hsame hold nofun)
  | claim id? =>
    left
    cases id? with
    | none =>
      cases h
      rw [List.getElem?_map] at hm
      obtain ⟨old, hold, rfl⟩ := Option.map_eq_some_iff.mp hm
      exact ⟨old, hold, .recovered nofun⟩
    | some target =>
      simp only [step, claim] at h
      split at h
      next => cases h
      next found hfound =>
        cases h
        rcases getElem?_modify_cases hm with ⟨rfl, m, hmap, rfl⟩ | ⟨hne, hmap⟩
        · rw [hmap, Option.filter_eq_some_iff, Bool.and_eq_true, decide_eq_true_eq] at hfound
          obtain ⟨hfound, hpending, -⟩ := hfound
          cases hfound
          rw [List.getElem?_map] at hmap
          obtain ⟨old, hold, rfl⟩ := Option.map_eq_some_iff.mp hmap
          exact ⟨old, hold, .claimed hpending⟩
        · rw [List.getElem?_map] at hmap
          obtain ⟨old, hold, rfl⟩ := Option.map_eq_some_iff.mp hmap
          exact ⟨old, hold, .recovered fun heq => hne (Option.some.inj heq).symm⟩
  | run i =>
    left
    obtain ⟨d, hd, h⟩ := Option.bind_eq_some_iff.mp h
    cases hs : d.stage with
    | selectSuppression =>
      simp only [hs] at h
      obtain ⟨_, -, h⟩ := Option.bind_eq_some_iff.mp h
      cases h
      exact hsame hm nofun
    | suppress =>
      simp only [hs, Option.some.injEq] at h
      subst h
      rcases getElem?_modify_cases hm with ⟨rfl, m, hold, rfl⟩ | ⟨-, hold⟩
      · exact ⟨m, hold, .suppressed⟩
      · exact hsame hold nofun
    | render =>
      simp only [hs, Option.some.injEq] at h
      subst h
      rcases getElem?_modify_cases hm with ⟨rfl, m, hold, rfl⟩ | ⟨-, hold⟩
      · exact ⟨m, hold, .handedOver hd hs⟩
      · exact hsame hold nofun
    | recordSent messageId =>
      simp only [hs] at h
      split at h
      · cases h
        exact hsame hm nofun
      · cases h
        rcases getElem?_modify_cases hm with ⟨rfl, m, hold, rfl⟩ | ⟨-, hold⟩
        · exact ⟨m, hold, .sent⟩
        · exact hsame hold nofun
    | recordError error =>
      simp only [hs, Option.some.injEq] at h
      subst h
      rcases getElem?_modify_cases hm with ⟨rfl, m, hold, rfl⟩ | ⟨-, hold⟩
      · exact ⟨m, hold, .failed hd hs⟩
      · exact hsame hold nofun
    | sending | ended =>
      simp only [hs] at h
      cases h
  | answer i result =>
    obtain ⟨d, -, h⟩ := Option.bind_eq_some_iff.mp h
    split at h
    · cases h
      exact .inl (hsame hm nofun)
    · cases h
  | throw i error =>
    obtain ⟨d, -, h⟩ := Option.bind_eq_some_iff.mp h
    split at h
    all_goals
      cases h
      try exact .inl (hsame hm nofun)
  | crash i =>
    obtain ⟨d, -, h⟩ := Option.bind_eq_some_iff.mp h
    cases h
    exact .inl (hsame hm nofun)
  | providerEvent eventId messageId type =>
    left
    cases h
    simp only [providerEvent] at hm
    split at hm
    · exact hsame hm nofun
    · split at hm
      · exact hsame hm nofun
      · cases type with
        | delivered =>
          rcases getElem?_modify_cases hm with ⟨rfl, m, hold, rfl⟩ | ⟨-, hold⟩
          · exact ⟨m, hold, .delivered nofun⟩
          · exact hsame hold nofun
        | hardBounce | complaint =>
          rcases getElem?_modify_cases hm with ⟨rfl, m, hold, rfl⟩ | ⟨-, hold⟩
          · exact ⟨m, hold, .bounced nofun⟩
          · exact hsame hold nofun
  | retry target =>
    left
    simp only [step, retry] at h
    split at h
    next hdead =>
      cases h
      rcases getElem?_modify_cases hm with ⟨rfl, m, hold, rfl⟩ | ⟨-, hold⟩
      · rw [hold, Option.any_some, decide_eq_true_eq] at hdead
        exact ⟨m, hold, .retried hdead⟩
      · exact hsame hold nofun
    next => cases h
  | wait =>
    cases h
    exact .inl (hsame hm nofun)

/-- What a step makes of the deliveries. One that has moved on waits for its message only if it
did. -/
theorem step_deliveries (h : s.step e = some s') :
    s'.deliveries = s.deliveries ∨
      (∃ i d stage, s.deliveries[i]? = some d ∧
        s'.deliveries = s.deliveries.set i { d with stage } ∧
        (({ d with stage } : Delivery).waits = none ∨
          ({ d with stage } : Delivery).waits = d.waits)) ∨
      ∃ id message, e = .claim (some id) ∧ s.outbox[id]? = some message ∧
        s'.deliveries = s.deliveries ++
          [{ id, attempts := message.attempts, retries := message.retries }] := by
  -- a delivery that does not wait any more
  have hmoved {i : Nat} {d : Delivery} {stage : Stage} (hd : s.deliveries[i]? = some d)
      (heq : s'.deliveries = s.deliveries.set i { d with stage })
      (hnone : ({ d with stage } : Delivery).waits = none) :
      ∃ i d stage, s.deliveries[i]? = some d ∧ s'.deliveries = s.deliveries.set i { d with stage } ∧
        (({ d with stage } : Delivery).waits = none ∨
          ({ d with stage } : Delivery).waits = d.waits) :=
    ⟨i, d, stage, hd, heq, .inl hnone⟩
  cases e with
  | claim id? =>
    cases id? with
    | none =>
      cases h
      exact .inl rfl
    | some id =>
      simp only [step, claim] at h
      split at h
      next => cases h
      next found hfound =>
        cases h
        rw [Option.filter_eq_some_iff, List.getElem?_map] at hfound
        obtain ⟨old, hold, rfl⟩ := Option.map_eq_some_iff.mp hfound.1
        exact .inr (.inr ⟨id, old, rfl, hold, by simp⟩)
  | run i =>
    obtain ⟨d, hd, h⟩ := Option.bind_eq_some_iff.mp h
    cases hs : d.stage with
    | selectSuppression =>
      simp only [hs] at h
      obtain ⟨message, -, h⟩ := Option.bind_eq_some_iff.mp h
      cases h
      refine .inr (.inl ⟨i, d, _, hd, rfl, ?_⟩)
      split
      · exact .inl rfl
      · exact .inr (by simp only [Delivery.waits, hs])
    | recordSent messageId =>
      simp only [hs] at h
      split at h
      all_goals
        cases h
        exact .inr (.inl (hmoved hd rfl rfl))
    | suppress | render | recordError =>
      simp only [hs, Option.some.injEq] at h
      subst h
      exact .inr (.inl (hmoved hd rfl rfl))
    | sending | ended =>
      simp only [hs] at h
      cases h
  | answer i result =>
    obtain ⟨d, hd, h⟩ := Option.bind_eq_some_iff.mp h
    split at h
    · cases h
      cases result <;> exact .inr (.inl (hmoved hd rfl rfl))
    · cases h
  | throw i error =>
    obtain ⟨d, hd, h⟩ := Option.bind_eq_some_iff.mp h
    split at h
    all_goals
      cases h
      try exact .inr (.inl (hmoved hd rfl rfl))
  | crash i =>
    obtain ⟨d, hd, h⟩ := Option.bind_eq_some_iff.mp h
    cases h
    exact .inr (.inl (hmoved hd rfl rfl))
  | providerEvent eventId messageId type =>
    cases h
    left
    simp only [providerEvent]
    split
    · rfl
    · split
      · rfl
      · cases type <;> rfl
  | retry id =>
    simp only [step, retry] at h
    split at h
    · cases h
      exact .inl rfl
    · cases h
  | enqueue | wait =>
    cases h
    exact .inl rfl

theorem step_length (h : s.step e = some s') : s.outbox.length ≤ s'.outbox.length := by
  cases e with
  | claim id? =>
    cases id? with
    | none =>
      cases h
      simp
    | some id =>
      simp only [step, claim] at h
      split at h
      · cases h
      · cases h
        simp
  | run i =>
    obtain ⟨d, -, h⟩ := Option.bind_eq_some_iff.mp h
    cases hs : d.stage with
    | selectSuppression =>
      simp only [hs] at h
      obtain ⟨_, -, h⟩ := Option.bind_eq_some_iff.mp h
      cases h
      exact Nat.le_refl _
    | recordSent messageId =>
      simp only [hs] at h
      split at h
      all_goals
        cases h
        simp [update, setStage]
    | suppress | render | recordError =>
      simp only [hs, Option.some.injEq] at h
      subst h
      simp [update, setStage]
    | sending | ended =>
      simp only [hs] at h
      cases h
  | answer i result =>
    obtain ⟨d, -, h⟩ := Option.bind_eq_some_iff.mp h
    split at h
    · cases h
      exact Nat.le_refl _
    · cases h
  | throw i error =>
    obtain ⟨d, -, h⟩ := Option.bind_eq_some_iff.mp h
    split at h
    all_goals
      cases h
      try exact Nat.le_refl _
  | crash i =>
    obtain ⟨d, -, h⟩ := Option.bind_eq_some_iff.mp h
    cases h
    exact Nat.le_refl _
  | providerEvent eventId messageId type =>
    cases h
    simp only [providerEvent]
    split
    · exact Nat.le_refl _
    · split
      · exact Nat.le_refl _
      · cases type <;> simp [update]
  | retry id =>
    simp only [step, retry] at h
    split at h
    · cases h
      simp [update]
    · cases h
  | enqueue | wait =>
    cases h
    simp

theorem step_message_of (h : s.step e = some s') (hm : s.outbox[id]? = some message) :
    ∃ message', s'.outbox[id]? = some message' ∧ s.Changes e id message message' := by
  have hlt : id < s.outbox.length := (List.getElem?_eq_some_iff.mp hm).1
  have hsome := List.getElem?_eq_getElem (Nat.lt_of_lt_of_le hlt (step_length h))
  refine ⟨_, hsome, ?_⟩
  rcases step_message h hsome with ⟨old, hold, hchanges⟩ | ⟨-, -, heq, -⟩
  · obtain rfl := Option.some.inj (hm.symm.trans hold)
    exact hchanges
  · exact absurd heq (Nat.ne_of_lt hlt)

/-! ## Handing over -/

/-- The deliveries that can still hand the message over, of those that know so many retries. -/
def waiting (s : System) (id : MessageId) (retries : Nat) : Nat :=
  s.deliveries.countP fun d => d.waits = some (id, retries)

theorem waiting_step (h : s.step e = some s') (id : MessageId) (retries : Nat) :
    s'.waiting id retries ≤ s.waiting id retries ∨
      ∃ message, e = .claim (some id) ∧ s.outbox[id]? = some message ∧ message.retries = retries ∧
        s'.waiting id retries = s.waiting id retries + 1 := by
  rcases step_deliveries h with hsame | ⟨i, d, stage, hd, hset, hwaits⟩ | ⟨id', m, rfl, hm, happend⟩
  · exact .inl (Nat.le_of_eq (by rw [waiting, waiting, hsame]))
  · left
    rw [waiting, waiting, hset]
    refine countP_set_le hd fun hp => ?_
    rcases hwaits with hnone | hkept
    · simp [hnone] at hp
    · rwa [hkept] at hp
  · rw [waiting, waiting, happend, List.countP_append, List.countP_singleton]
    by_cases heq : id' = id ∧ m.retries = retries
    · obtain ⟨rfl, rfl⟩ := heq
      exact .inr ⟨m, rfl, hm, rfl, by simp [Delivery.waits]⟩
    · left
      simp [Delivery.waits, heq]

theorem waiting_handOver (h : s.step (.run i) = some s') (hd : s.deliveries[i]? = some d)
    (hs : d.stage = .render) : s'.waiting d.id d.retries < s.waiting d.id d.retries := by
  obtain ⟨d', hd', h⟩ := Option.bind_eq_some_iff.mp h
  obtain rfl := Option.some.inj (hd.symm.trans hd')
  simp only [hs, Option.some.injEq] at h
  subst h
  exact countP_set_lt hd (by simp [Delivery.waits, hs]) (by simp [Delivery.waits])

/-! ## Invariant -/

/-- The condition: a message is claimed after fewer than eight attempts, it is handed over by a
worker that has claimed it since the last retry, and no failure is recorded for it in a final
status. -/
def keepsOutbox (s : System) : Event → Bool
  | .claim (some id) => s.outbox[id]?.all fun message => message.attempts < 8
  | .run i => s.deliveries[i]?.all fun d => s.outbox[d.id]?.all fun message =>
    match d.stage with
    | .render => message.retries = d.retries
    | .recordError _ => !message.isFinal
    | _ => true
  | _ => true

theorem keepsOutbox_run (hkeeps : s.keepsOutbox (.run i)) (hd : s.deliveries[i]? = some d)
    (hm : s.outbox[d.id]? = some message) : match d.stage with
      | .render => message.retries = d.retries
      | .recordError _ => ¬message.isFinal
      | _ => True := by
  simp only [keepsOutbox, hd, hm, Option.all_some] at hkeeps
  split <;> simp_all

namespace Changes

theorem isFinal (hchanges : s.Changes e id message message') (hkeeps : s.keepsOutbox e)
    (hm : s.outbox[id]? = some message) (hfinal : message.isFinal) : message'.isFinal := by
  cases hchanges with
  | same | handedOver => exact hfinal
  | recovered => rwa [Message.recover_of_final hfinal]
  | claimed hpending =>
    rw [Message.recover_of_final hfinal] at hpending
    simp [Message.isFinal, hpending] at hfinal
  | suppressed | sent | bounced => rfl
  | failed hd hs =>
    have hnot := keepsOutbox_run hkeeps hd hm
    rw [hs] at hnot
    exact absurd hfinal hnot
  | delivered =>
    unfold Message.deliver
    split
    · rfl
    · exact hfinal
  | retried hdead => simp [Message.isFinal, hdead] at hfinal

theorem retries_le (hchanges : s.Changes e id message message') :
    message.retries ≤ message'.retries := by
  cases hchanges with
  | recovered | claimed => simp [Message.claim]
  | delivered => exact Nat.le_of_eq (Message.deliver_counters _).2.1.symm
  | retried => exact Nat.le_succ _
  | _ => exact Nat.le_refl _

end Changes

/-- Since the last retry, each attempt stands for a claim that has handed the message over, or still
can. -/
structure Sound (s : System) : Prop where
  known : ∀ d ∈ s.deliveries, ∃ message,
    s.outbox[d.id]? = some message ∧ d.retries ≤ message.retries
  budget : ∀ (id : MessageId) (message : Message), s.outbox[id]? = some message →
    message.handoffs + s.waiting id message.retries ≤ message.attempts ∧ message.attempts ≤ 8

structure IsFresh (s : System) : Prop where
  outbox : s.outbox = []
  deliveries : s.deliveries = []

theorem IsFresh.sound (h : s.IsFresh) : s.Sound where
  known := by simp [h.deliveries]
  budget id message hm := by simp [h.outbox] at hm

namespace Sound

/-- Nobody waits for a message with retries that it has not had. -/
theorem waiting_eq_zero (hi : s.Sound) (id : MessageId) (retries : Nat)
    (h : ∀ message, s.outbox[id]? = some message → message.retries < retries) :
    s.waiting id retries = 0 := by
  refine List.countP_eq_zero.mpr fun d hd hwaits => ?_
  rw [decide_eq_true_eq] at hwaits
  obtain ⟨message, hm, hle⟩ := hi.known d hd
  unfold Delivery.waits at hwaits
  split at hwaits
  all_goals
    cases hwaits
    try exact absurd hle (Nat.not_le_of_lt (h message hm))

theorem step_known (hi : s.Sound) (h : s.step e = some s') (hd : d ∈ s'.deliveries) :
    ∃ message, s'.outbox[d.id]? = some message ∧ d.retries ≤ message.retries := by
  have hold {id : MessageId} {message : Message} {retries : Nat} (hm : s.outbox[id]? = some message)
      (hle : retries ≤ message.retries) :
      ∃ message', s'.outbox[id]? = some message' ∧ retries ≤ message'.retries := by
    obtain ⟨message', hm', hchanges⟩ := step_message_of h hm
    exact ⟨message', hm', Nat.le_trans hle hchanges.retries_le⟩
  rcases step_deliveries h with hsame | ⟨i, d₀, stage, hd₀, hset, -⟩ | ⟨id, m, -, hm, happend⟩
  · obtain ⟨message, hm, hle⟩ := hi.known d (hsame ▸ hd)
    exact hold hm hle
  · rw [hset] at hd
    rcases List.mem_or_eq_of_mem_set hd with hmem | rfl
    · obtain ⟨message, hm, hle⟩ := hi.known d hmem
      exact hold hm hle
    · obtain ⟨message, hm, hle⟩ := hi.known d₀ (List.mem_of_getElem? hd₀)
      exact hold hm hle
  · rw [happend] at hd
    rcases List.mem_append.mp hd with hmem | hnew
    · obtain ⟨message, hm, hle⟩ := hi.known d hmem
      exact hold hm hle
    · rw [List.mem_singleton.mp hnew]
      exact hold hm (Nat.le_refl _)

theorem step_budget (hi : s.Sound) (hkeeps : s.keepsOutbox e) (h : s.step e = some s')
    (hm' : s'.outbox[id]? = some message') :
    message'.handoffs + s'.waiting id message'.retries ≤ message'.attempts ∧
      message'.attempts ≤ 8 := by
  rcases step_message h hm' with ⟨message, hm, hchanges⟩ | ⟨recipient, rfl, rfl, rfl⟩
  · obtain ⟨hle, hmax⟩ := hi.budget id message hm
    have hwaiting := waiting_step h id message'.retries
    -- a step that neither claims the message nor counts anything
    have hkeep (hattempts : message'.attempts = message.attempts)
        (hretries : message'.retries = message.retries)
        (hhandoffs : message'.handoffs = message.handoffs) (hne : e ≠ .claim (some id)) :
        message'.handoffs + s'.waiting id message'.retries ≤ message'.attempts ∧
          message'.attempts ≤ 8 := by
      rcases hwaiting with hw | ⟨-, heq, -⟩
      · rw [hretries] at hw ⊢
        omega
      · exact absurd heq hne
    cases hchanges with
    | same hne => exact hkeep rfl rfl rfl hne
    | recovered hne =>
      exact hkeep (by simp) (by simp) (by simp) fun heq => hne (Event.claim.inj heq)
    | claimed =>
      have hlt : message.attempts < 8 := by simpa [System.keepsOutbox, hm] using hkeeps
      simp only [Message.claim, Message.recover_retries, Message.recover_handoffs,
        Message.recover_attempts] at hwaiting ⊢
      rcases hwaiting with hw | ⟨-, -, -, -, hw⟩ <;> omega
    | suppressed | sent | failed => exact hkeep rfl rfl rfl nofun
    | handedOver hd hs =>
      have hretries := keepsOutbox_run hkeeps hd hm
      rw [hs] at hretries
      have hw := waiting_handOver h hd hs
      simp only [Message.handOver, hretries] at hw hle ⊢
      omega
    | delivered hne =>
      obtain ⟨hattempts, hretries, hhandoffs⟩ := message.deliver_counters s.now
      exact hkeep hattempts hretries hhandoffs hne
    | bounced hne => exact hkeep rfl rfl rfl hne
    | retried =>
      have hzero := hi.waiting_eq_zero id (message.retries + 1) fun m hm₀ => by
        obtain rfl := Option.some.inj (hm.symm.trans hm₀)
        exact Nat.lt_succ_self _
      rcases hwaiting with hw | ⟨-, heq, -⟩
      · simp only [Message.retry] at hw ⊢
        omega
      · cases heq
  · have hzero := hi.waiting_eq_zero s.outbox.length 0 fun m hm => by simp at hm
    rcases waiting_step h s.outbox.length 0 with hw | ⟨-, heq, -⟩
    · simp only
      omega
    · cases heq

theorem step (hi : s.Sound) (hkeeps : s.keepsOutbox e) (h : s.step e = some s') : s'.Sound where
  known _ hd := hi.step_known h hd
  budget _ _ hm := hi.step_budget hkeeps h hm

end Sound

end System

/-- In a run whose steps all meet the condition, a message in a final status keeps one, and no
message is handed to the transport more than eight times between two retries. -/
theorem outbox_safe {start : System} (hstart : start.IsFresh)
    (h : Run (Meeting (Stepping System.step) fun s e _ => s.keepsOutbox e) start es s) :
    Run (Meeting (Stepping System.step) fun s _ s' =>
      (∀ (id : MessageId) (message : Message), s.outbox[id]? = some message → message.isFinal →
        ∃ message', s'.outbox[id]? = some message' ∧ message'.isFinal) ∧
      ∀ message ∈ s'.outbox, message.handoffs ≤ 8) start es s := by
  refine h.mono_invariant (I := System.Sound) (fun s e s' hi ⟨hstep, hkeeps⟩ => ?_) hstart.sound
  have hi' := hi.step hkeeps hstep
  refine ⟨⟨hstep, fun id message hm hfinal => ?_, fun message hmem => ?_⟩, hi'⟩
  · obtain ⟨message', hm', hchanges⟩ := System.step_message_of hstep hm
    exact ⟨message', hm', hchanges.isFinal hkeeps hm hfinal⟩
  · obtain ⟨id, hm⟩ := List.mem_iff_getElem?.mp hmem
    obtain ⟨hle, hmax⟩ := hi'.budget id message hm
    omega

/-- A message is delivered in the second attempt, and there is a complaint, so that the next one to
this address is suppressed. -/
def suppressedNext : List Event := [
  .enqueue 0, .claim (some 0), .run 0, .run 0, .answer 0 (.error "Timeout"), .run 0, .wait 60,
  .claim (some 0), .run 1, .run 1, .answer 1 (.ok "m"), .run 1, .providerEvent "e" "m" .delivered,
  .providerEvent "f" "m" .complaint, .enqueue 0, .claim (some 1), .run 2, .run 2]

theorem suppressedNext_enabled :
    (execWhere System.step (fun s e => s.keepsOutbox e) {} suppressedNext).isSome := by
  decide +kernel

theorem outbox_safe_suppressedNext :
    Run (Meeting (Stepping System.step) fun s _ s' =>
      (∀ (id : MessageId) (message : Message), s.outbox[id]? = some message → message.isFinal →
        ∃ message', s'.outbox[id]? = some message' ∧ message'.isFinal) ∧
      ∀ message ∈ s'.outbox, message.handoffs ≤ 8) {} suppressedNext
      ((execWhere System.step (fun s e => s.keepsOutbox e) {} suppressedNext).get
        suppressedNext_enabled) :=
  outbox_safe ⟨rfl, rfl⟩ (Run.of_execWhere_get suppressedNext_enabled)

/-- A worker stalls while it sends, and fails after another one has sent the message. -/
def failedLate : List Event := [
  .enqueue 0, .claim (some 0), .run 0, .run 0, .wait 901, .claim (some 0), .run 1, .run 1,
  .answer 1 (.ok "m"), .run 1, .answer 0 (.error "Connection lost")]

/-- Eight workers stop after they have handed the message over, and a ninth one claims it. -/
def crashed : List Event := .enqueue 0 ::
  (List.range 8).flatMap (fun i => [.claim (some 0), .run i, .run i, .crash i, .wait 901]) ++
    [.claim (some 0), .run 8]

theorem outbox_not_safe :
    (∃ s s', Run (Stepping System.step) {} failedLate s ∧ s.step (.run 0) = some s' ∧
      s.outbox[0]?.any (fun message => message.status = .sent) ∧
      s'.outbox[0]?.any fun message => message.status = .pending) ∧
    ∃ s s', Run (Stepping System.step) {} crashed s ∧ s.step (.run 8) = some s' ∧
      s'.outbox[0]?.any fun message => message.retries = 0 && message.handoffs = 9 :=
  ⟨Run.exists_step (by decide +kernel), Run.exists_step (by decide +kernel)⟩

end Tonatiuh.Email
