import Tonatiuh.Email.Safety

/-! Bounces and complaints of a message that has been recorded.

An event of the provider finds its message by the id that the worker stores after `sendMail` has
returned. It is recorded as handled whether it has found the message or not, so only an event that
is new when the message is there has an effect. -/

namespace Tonatiuh.Email

open Transition

variable {s s' : System} {message message' : Message} {d : Delivery} {id : MessageId} {i : Nat}
  {e : Event} {messageId : String}

namespace System

/-! ## Conditions -/

/-- One worker handles the message: no other delivery writes the row of a message that has been
recorded. -/
def sentOnce (s : System) : Event → Bool
  | .run i => s.deliveries[i]?.all fun d => s.outbox[d.id]?.all fun message =>
    match d.stage with
    | .suppress | .recordSent _ | .recordError _ => message.providerMessageId.isNone
    | _ => true
  | _ => true

/-- A hard bounce or a complaint of the message is handled for the first time. -/
def Bounces (s : System) (messageId : String) (e : Event) : Prop :=
  ∃ eventId type, e = .providerEvent eventId messageId type ∧ type ≠ .delivered ∧
    eventId ∉ s.providerEvents

/-- A message has been recorded under this id. -/
def Recorded (s : System) (messageId : String) : Prop :=
  ∃ message ∈ s.outbox, message.providerMessageId = some messageId

/-! ## Steps -/

/-- What a step of a worker makes of the outbox. -/
theorem run_cases (h : s.run i = some s') : ∃ d, s.deliveries[i]? = some d ∧
    (s'.outbox = s.outbox ∨ ∃ f : Message → Message, s'.outbox = s.outbox.modify d.id f ∧
      ((d.stage = .suppress ∧ f = (·.suppress)) ∨ (d.stage = .render ∧ f = (·.handOver)) ∨
        (∃ messageId, d.stage = .recordSent messageId ∧ f = (·.send s.now messageId) ∧
          ∀ (j : Nat) (message : Message), j ≠ d.id → s.outbox[j]? = some message →
            message.providerMessageId ≠ some messageId) ∨
        ∃ error, d.stage = .recordError error ∧ f = (·.fail s.now (d.attempts + 1) error))) := by
  obtain ⟨d, hd, h⟩ := Option.bind_eq_some_iff.mp h
  refine ⟨d, hd, ?_⟩
  cases hs : d.stage with
  | selectSuppression =>
    simp only [hs] at h
    obtain ⟨_, -, h⟩ := Option.bind_eq_some_iff.mp h
    cases h
    exact .inl rfl
  | suppress =>
    simp only [hs, Option.some.injEq] at h
    subst h
    exact .inr ⟨_, rfl, .inl ⟨rfl, rfl⟩⟩
  | render =>
    simp only [hs, Option.some.injEq] at h
    subst h
    exact .inr ⟨_, rfl, .inr (.inl ⟨rfl, rfl⟩)⟩
  | recordSent messageId =>
    simp only [hs] at h
    split at h
    next =>
      cases h
      exact .inl rfl
    next hunique =>
      cases h
      refine .inr ⟨_, rfl,
        .inr (.inr (.inl ⟨messageId, rfl, rfl, fun j message hne hj heq => hunique ?_⟩))⟩
      exact List.any_eq_true.mpr
        ⟨message, List.mem_eraseIdx_iff_getElem?.mpr ⟨j, hne, hj⟩, decide_eq_true heq⟩
  | recordError error =>
    simp only [hs, Option.some.injEq] at h
    subst h
    exact .inr ⟨_, rfl, .inr (.inr (.inr ⟨error, rfl, rfl⟩))⟩
  | sending | ended =>
    simp only [hs] at h
    cases h

/-- What an event of the provider does to the message that it finds. -/
theorem providerEvent_cases (s : System) (eventId messageId : String) (type : EmailEvent) :
    ((s.providerEvent eventId messageId type).outbox = s.outbox ∧
      (s.providerEvent eventId messageId type).suppressions = s.suppressions ∧
      (eventId ∈ s.providerEvents ∨ ¬ s.Recorded messageId)) ∨
    ∃ (id : MessageId) (message : Message), s.outbox[id]? = some message ∧
      message.providerMessageId = some messageId ∧ eventId ∉ s.providerEvents ∧
      ((type = .delivered ∧ (s.providerEvent eventId messageId type).outbox =
          s.outbox.modify id (·.deliver s.now) ∧
        (s.providerEvent eventId messageId type).suppressions = s.suppressions) ∨
      (type ≠ .delivered ∧ (s.providerEvent eventId messageId type).outbox =
          s.outbox.modify id (·.bounce s.now) ∧
        (s.providerEvent eventId messageId type).suppressions =
          message.recipient :: s.suppressions)) := by
  unfold providerEvent
  split
  next hold => exact .inl ⟨rfl, rfl, .inl hold⟩
  next hnew =>
    dsimp only
    split
    next hnone =>
      refine .inl ⟨rfl, rfl, .inr ?_⟩
      rintro ⟨message, hmem, hid⟩
      exact of_decide_eq_false (List.findIdx?_eq_none_iff.mp hnone message hmem) hid
    next id hfind =>
      obtain ⟨hlt, hid, -⟩ := List.findIdx?_eq_some_iff_getElem.mp hfind
      have hm := List.getElem?_eq_getElem hlt
      refine .inr ⟨id, _, hm, of_decide_eq_true hid, hnew, ?_⟩
      cases type with
      | delivered => exact .inl ⟨rfl, rfl, rfl⟩
      | hardBounce | complaint => exact .inr ⟨nofun, rfl, by simp [hm]⟩

/-- Only a worker writes the id of the provider. -/
theorem Changes.providerMessageId (hchanges : s.Changes e id message message')
    (hrun : ∀ i, e ≠ .run i) :
    message'.providerMessageId = message.providerMessageId := by
  cases hchanges with
  | suppressed | handedOver | sent | failed => exact absurd rfl (hrun _)
  | recovered =>
    unfold Message.recover
    split <;> rfl
  | claimed =>
    simp only [Message.claim, Message.recover]
    split <;> rfl
  | delivered =>
    unfold Message.deliver
    split <;> rfl
  | same | bounced | retried => rfl

/-- A message in a final status waits for workers and for the provider only. -/
theorem step_isFinal (h : s.step e = some s') (hrun : ∀ i, e ≠ .run i)
    (hevent : ∀ eventId messageId type, e ≠ .providerEvent eventId messageId type)
    (hm : s.outbox[id]? = some message) (hfinal : message.isFinal) :
    s'.outbox[id]? = some message := by
  cases e with
  | run i => exact absurd rfl (hrun i)
  | providerEvent eventId messageId type => exact absurd rfl (hevent eventId messageId type)
  | enqueue recipient =>
    cases h
    rw [List.getElem?_append_left (List.getElem?_eq_some_iff.mp hm).1]
    exact hm
  | claim id? =>
    have hrecover : (s.outbox.map (·.recover s.now))[id]? = some message := by
      rw [List.getElem?_map, hm, Option.map_some, Message.recover_of_final hfinal]
    cases id? with
    | none =>
      cases h
      exact hrecover
    | some target =>
      simp only [step, claim] at h
      split at h
      next => cases h
      next found hfound =>
        cases h
        rw [Option.filter_eq_some_iff, Bool.and_eq_true, decide_eq_true_eq] at hfound
        have hne : target ≠ id := by
          rintro rfl
          rw [hrecover] at hfound
          cases hfound.1
          simp [Message.isFinal, hfound.2.1] at hfinal
        exact (List.getElem?_modify_ne _ _ hne).trans hrecover
  | retry target =>
    simp only [step, retry] at h
    split at h
    next hdead =>
      cases h
      have hne : target ≠ id := by
        rintro rfl
        simp only [hm, Option.any_some, decide_eq_true_eq] at hdead
        simp [Message.isFinal, hdead] at hfinal
      exact (List.getElem?_modify_ne _ _ hne).trans hm
    next => cases h
  | answer i result =>
    obtain ⟨d, -, h⟩ := Option.bind_eq_some_iff.mp h
    split at h
    · cases h
      exact hm
    · cases h
  | throw i error =>
    obtain ⟨d, -, h⟩ := Option.bind_eq_some_iff.mp h
    split at h
    all_goals
      cases h
      try exact hm
  | crash i =>
    obtain ⟨d, -, h⟩ := Option.bind_eq_some_iff.mp h
    cases h
    exact hm
  | wait =>
    cases h
    exact hm

/-- An address that is suppressed stays so. -/
theorem step_suppressions (h : s.step e = some s') {recipient : Recipient}
    (hmem : recipient ∈ s.suppressions) : recipient ∈ s'.suppressions := by
  cases e with
  | providerEvent eventId messageId type =>
    cases h
    rcases s.providerEvent_cases eventId messageId type with
      ⟨-, hsame, -⟩ | ⟨_, _, -, -, -, ⟨-, -, hsame⟩ | ⟨-, -, hcons⟩⟩
    · rwa [hsame]
    · rwa [hsame]
    · rw [hcons]
      exact List.mem_cons_of_mem _ hmem
  | run i =>
    obtain ⟨d, -, h⟩ := Option.bind_eq_some_iff.mp h
    split at h
    · obtain ⟨_, -, h⟩ := Option.bind_eq_some_iff.mp h
      cases h
      exact hmem
    · cases h
      exact hmem
    · cases h
      exact hmem
    · split at h
      all_goals
        cases h
        exact hmem
    · cases h
      exact hmem
    all_goals cases h
  | claim id? =>
    cases id? with
    | none =>
      cases h
      exact hmem
    | some target =>
      simp only [step, claim] at h
      split at h
      all_goals
        cases h
        try exact hmem
  | retry target =>
    simp only [step, retry] at h
    split at h
    all_goals
      cases h
      try exact hmem
  | answer i result =>
    obtain ⟨d, -, h⟩ := Option.bind_eq_some_iff.mp h
    split at h
    all_goals
      cases h
      try exact hmem
  | throw i error =>
    obtain ⟨d, -, h⟩ := Option.bind_eq_some_iff.mp h
    split at h
    all_goals
      cases h
      try exact hmem
  | crash i =>
    obtain ⟨d, -, h⟩ := Option.bind_eq_some_iff.mp h
    cases h
    exact hmem
  | enqueue | wait =>
    cases h
    exact hmem

/-- A message that has been recorded was recorded before, or is recorded by this step. -/
theorem recorded_cases (honce : s.sentOnce e) (h : s.step e = some s')
    (hm' : s'.outbox[id]? = some message') (hid : message'.providerMessageId = some messageId) :
    (∃ message, s.outbox[id]? = some message ∧ message.providerMessageId = some messageId) ∨
      ∃ i d, e = .run i ∧ s.deliveries[i]? = some d ∧ id = d.id ∧
        (∀ (j : Nat) (message : Message), s.outbox[j]? = some message →
          message.providerMessageId ≠ some messageId) ∧ message'.status = .sent := by
  by_cases hrun : ∃ i, e = .run i
  · obtain ⟨i, rfl⟩ := hrun
    obtain ⟨d, hd, hout | ⟨f, hout, hf⟩⟩ := run_cases h
    · exact .inl ⟨message', hout ▸ hm', hid⟩
    · rw [hout] at hm'
      rcases getElem?_modify_cases hm' with ⟨rfl, m, hm, rfl⟩ | ⟨-, hm⟩
      · rcases hf with ⟨-, rfl⟩ | ⟨-, rfl⟩ | ⟨_, hs, rfl, hunique⟩ | ⟨_, -, rfl⟩
        · exact .inl ⟨m, hm, hid⟩
        · exact .inl ⟨m, hm, hid⟩
        · refine .inr ⟨i, d, rfl, hd, rfl, fun j other hj => ?_, rfl⟩
          obtain rfl := Option.some.inj hid
          by_cases hne : j = d.id
          · subst hne
            simp only [sentOnce, hd, hj, Option.all_some, hs, Option.isNone_iff_eq_none] at honce
            rw [honce]
            exact nofun
          · exact hunique j other hne hj
        · exact .inl ⟨m, hm, hid⟩
      · exact .inl ⟨message', hm, hid⟩
  · rcases step_message h hm' with ⟨m, hm, hchanges⟩ | ⟨_, -, -, rfl⟩
    · exact .inl ⟨m, hm, (hchanges.providerMessageId fun i heq => hrun ⟨i, heq⟩).symm.trans hid⟩
    · cases hid

/-! ## Invariant -/

/-- A message that has been recorded is in a final status, and its id is its own. The recipient of
one that has bounced is suppressed. -/
structure Recording (s : System) : Prop where
  unique : HeldOnce (·.providerMessageId) s.outbox
  isFinal : ∀ message ∈ s.outbox, message.providerMessageId.isSome → message.isFinal
  suppressed : ∀ message ∈ s.outbox, message.providerMessageId.isSome → message.status = .bounced →
    message.recipient ∈ s.suppressions

/-- What a step makes of a message that has been recorded. -/
structure Follows (s : System) (e : Event) (s' : System) (messageId : String)
    (message message' : Message) :
    Prop where
  recorded : message'.providerMessageId = some messageId
  recipient : message'.recipient = message.recipient
  isFinal : message'.isFinal
  bounced : message'.status = .bounced ↔ message.status = .bounced ∨ s.Bounces messageId e
  suppressed : s.Bounces messageId e → message'.recipient ∈ s'.suppressions

namespace Recording

theorem empty : Recording {} where
  unique := .nil
  isFinal _ hmem := absurd hmem List.not_mem_nil
  suppressed _ hmem := absurd hmem List.not_mem_nil

theorem step_message (hi : s.Recording) (honce : s.sentOnce e) (h : s.step e = some s')
    (hm : s.outbox[id]? = some message) (hid : message.providerMessageId = some messageId) :
    ∃ message', s'.outbox[id]? = some message' ∧ s.Follows e s' messageId message message' := by
  have hmem := List.mem_of_getElem? hm
  have hfinal := hi.isFinal message hmem (by rw [hid]; rfl)
  -- a step that is no event of the provider for this message
  have hsame {message' : Message} (hm' : s'.outbox[id]? = some message')
      (heq : message'.providerMessageId = message.providerMessageId ∧
        message'.recipient = message.recipient ∧ message'.status = message.status)
      (hnot : ¬s.Bounces messageId e) :
      ∃ message', s'.outbox[id]? = some message' ∧ s.Follows e s' messageId message message' := by
    refine ⟨message', hm', ⟨heq.1.trans hid, heq.2.1, ?_, ?_, fun hb => absurd hb hnot⟩⟩
    · rwa [Message.isFinal, heq.2.2]
    · rw [heq.2.2, or_iff_left hnot]
  by_cases hrun : ∃ i, e = .run i
  · obtain ⟨i, rfl⟩ := hrun
    have hnot : ¬s.Bounces messageId (.run i) := by
      rintro ⟨_, _, heq, -⟩
      cases heq
    obtain ⟨d, hd, hout | ⟨f, hout, hf⟩⟩ := run_cases h
    · exact hsame (hout ▸ hm) ⟨rfl, rfl, rfl⟩ hnot
    · by_cases hne : d.id = id
      · subst hne
        have hm' : s'.outbox[d.id]? = some (f message) := by
          rw [hout, List.getElem?_modify_eq, hm]
          rfl
        simp only [sentOnce, hd, hm, Option.all_some] at honce
        rcases hf with ⟨hs, rfl⟩ | ⟨hs, rfl⟩ | ⟨_, hs, rfl, -⟩ | ⟨_, hs, rfl⟩
        · simp [hs, hid] at honce
        · exact hsame hm' ⟨rfl, rfl, rfl⟩ hnot
        · simp [hs, hid] at honce
        · simp [hs, hid] at honce
      · exact hsame (by rw [hout, List.getElem?_modify_ne _ _ hne, hm]) ⟨rfl, rfl, rfl⟩ hnot
  by_cases hevent : ∃ eventId messageId type, e = .providerEvent eventId messageId type
  · obtain ⟨eventId, messageId', type, rfl⟩ := hevent
    cases h
    rcases s.providerEvent_cases eventId messageId' type with
      ⟨hout, -, hnone⟩ | ⟨id', found, hfound, hid', hnew, htype⟩
    · refine hsame (hout ▸ hm) ⟨rfl, rfl, rfl⟩ ?_
      rintro ⟨_, _, heq, -, hnew⟩
      cases heq
      exact hnone.elim hnew fun hnot => hnot ⟨message, hmem, hid⟩
    · by_cases hne : id' = id
      · subst hne
        obtain rfl := Option.some.inj (hm.symm.trans hfound)
        obtain rfl := Option.some.inj (hid.symm.trans hid')
        rcases htype with ⟨rfl, hout, -⟩ | ⟨htype, hout, hcons⟩
        · have hnot : ¬s.Bounces messageId (.providerEvent eventId messageId .delivered) := by
            rintro ⟨_, _, heq, htype, -⟩
            cases heq
            exact htype rfl
          have hm' : (s.providerEvent eventId messageId .delivered).outbox[id']? =
              some (message.deliver s.now) := by
            rw [hout, List.getElem?_modify_eq, hm]
            rfl
          by_cases hsent : message.status = .sent
          · refine ⟨_, hm', ⟨?_, ?_, ?_, ?_, fun hb => absurd hb hnot⟩⟩
            all_goals simp [Message.deliver, Message.isFinal, hsent, hid, hnot]
          · rw [Message.deliver, if_neg hsent] at hm'
            exact hsame hm' ⟨rfl, rfl, rfl⟩ hnot
        · refine ⟨message.bounce s.now, ?_, ⟨hid, rfl, rfl, ?_, fun _ => ?_⟩⟩
          · rw [hout, List.getElem?_modify_eq, hm]
            rfl
          · exact ⟨fun _ => .inr ⟨eventId, type, rfl, htype, hnew⟩, fun _ => rfl⟩
          · rw [hcons]
            exact List.mem_cons_self
      · have hm' : (s.providerEvent eventId messageId' type).outbox[id]? = some message := by
          rcases htype with ⟨-, hout, -⟩ | ⟨-, hout, -⟩
          all_goals rw [hout, List.getElem?_modify_ne _ _ hne, hm]
        refine hsame hm' ⟨rfl, rfl, rfl⟩ ?_
        rintro ⟨_, _, heq, -⟩
        cases heq
        exact hne (hi.unique id' id found message _ hfound hm hid' hid)
  · have hm' := step_isFinal h (fun i heq => hrun ⟨i, heq⟩)
      (fun _ _ _ heq => hevent ⟨_, _, _, heq⟩) hm hfinal
    refine hsame hm' ⟨rfl, rfl, rfl⟩ ?_
    rintro ⟨_, _, rfl, -⟩
    exact hevent ⟨_, _, _, rfl⟩

theorem step (hi : s.Recording) (honce : s.sentOnce e) (h : s.step e = some s') : s'.Recording where
  unique i j a b k hi' hj hka hkb := by
    rcases recorded_cases honce h hi' hka with ⟨m, hm, hk⟩ | ⟨_, d, heq, hd, rfl, hnew, -⟩
    · rcases recorded_cases honce h hj hkb with ⟨m', hm', hk'⟩ | ⟨_, _, -, -, -, hnew, -⟩
      · exact hi.unique i j m m' k hm hm' hk hk'
      · exact absurd hk (hnew i m hm)
    · rcases recorded_cases honce h hj hkb with ⟨m', hm', hk'⟩ | ⟨_, d', heq', hd', rfl, -⟩
      · exact absurd hk' (hnew j m' hm')
      · cases heq.symm.trans heq'
        rw [Option.some.inj (hd.symm.trans hd')]
  isFinal message' hmem hid := by
    obtain ⟨id, hm'⟩ := List.mem_iff_getElem?.mp hmem
    obtain ⟨k, hk⟩ := Option.isSome_iff_exists.mp hid
    rcases recorded_cases honce h hm' hk with ⟨m, hm, hkm⟩ | ⟨_, _, -, -, -, -, hsent⟩
    · obtain ⟨_, hfound, hfollows⟩ := hi.step_message honce h hm hkm
      rw [Option.some.inj (hm'.symm.trans hfound)]
      exact hfollows.isFinal
    · simp [Message.isFinal, hsent]
  suppressed message' hmem hid hbounced := by
    obtain ⟨id, hm'⟩ := List.mem_iff_getElem?.mp hmem
    obtain ⟨k, hk⟩ := Option.isSome_iff_exists.mp hid
    rcases recorded_cases honce h hm' hk with ⟨m, hm, hkm⟩ | ⟨_, _, -, -, -, -, hsent⟩
    · obtain ⟨_, hfound, hfollows⟩ := hi.step_message honce h hm hkm
      obtain rfl := Option.some.inj (hm'.symm.trans hfound)
      rcases hfollows.bounced.mp hbounced with hold | hnew
      · rw [hfollows.recipient]
        exact step_suppressions h
          (hi.suppressed m (List.mem_of_getElem? hm) (by rw [hkm]; rfl) hold)
      · exact hfollows.suppressed hnew
    · rw [hsent] at hbounced
      cases hbounced

end Recording

theorem Recording.of_run
    (h : Run (Meeting (Stepping System.step) fun s e _ => s.sentOnce e) {} es s) :
    s.Recording :=
  h.invariant (fun _ _ _ hi ⟨hstep, honce⟩ => hi.step honce hstep) .empty

/-- The message that has been recorded under this id has bounced. -/
def IsBounced (s : System) (messageId : String) (id : MessageId) : Prop :=
  ∃ message, s.outbox[id]? = some message ∧ message.providerMessageId = some messageId ∧
    message.status = .bounced

theorem IsBounced.run (hb : s.IsBounced messageId id) (hi : s.Recording)
    (h : Run (Meeting (Stepping System.step) fun s e _ => s.sentOnce e) s es s') :
    s'.IsBounced messageId id := by
  refine (h.invariant (I := fun s => s.Recording ∧ s.IsBounced messageId id) ?_ ⟨hi, hb⟩).2
  rintro s e s' ⟨hi, message, hm, hid, hbounced⟩ ⟨hstep, honce⟩
  obtain ⟨message', hm', hfollows⟩ := hi.step_message honce hstep hm hid
  exact ⟨hi.step honce hstep, message', hm', hfollows.recorded,
    hfollows.bounced.mpr (.inl hbounced)⟩

end System

/-- Where one worker handles each message, a message that has been recorded has bounced and its
recipient is suppressed if and only if a hard bounce or a complaint was handled for the first time
after the message had been recorded. An event that has overtaken the record is lost, however often
it is repeated. -/
theorem bounced_iff (h : Run (Meeting (Stepping System.step) fun s e _ => s.sentOnce e) {} es s)
    (hm : s.outbox[id]? = some message) (hid : message.providerMessageId = some messageId) :
    (message.status = .bounced ∧ message.recipient ∈ s.suppressions) ↔
      ∃ es₁ e es₂ t t', es = es₁ ++ e :: es₂ ∧
        Run (Meeting (Stepping System.step) fun s e _ => s.sentOnce e) {} es₁ t ∧
        Meeting (Stepping System.step) (fun s e _ => s.sentOnce e) t e t' ∧
        Run (Meeting (Stepping System.step) fun s e _ => s.sentOnce e) t' es₂ s ∧
        t.Recorded messageId ∧ t.Bounces messageId e := by
  have hi := System.Recording.of_run h
  constructor
  · rintro ⟨hbounced, -⟩
    rcases h.since (P := fun s => s.IsBounced messageId id) ⟨message, hm, hid, hbounced⟩ with
      ⟨⟨_, hnone, -⟩, -⟩ | ⟨es₁, e, es₂, t, t', rfl, h₁, hnot, hstep, ⟨m', hm', hid', hb'⟩, h₂⟩
    · cases hnone
    · have hrun₂ := h₂.mono fun _ _ _ hboth => hboth.1
      refine ⟨es₁, e, es₂, t, t', rfl, h₁, hstep, hrun₂, ?_⟩
      rcases System.recorded_cases hstep.2 hstep.1 hm' hid' with ⟨m, hm, hk⟩ |
          ⟨_, _, -, -, -, -, hsent⟩
      · obtain ⟨_, hfound, hfollows⟩ :=
          (System.Recording.of_run h₁).step_message hstep.2 hstep.1 hm hk
        obtain rfl := Option.some.inj (hm'.symm.trans hfound)
        refine ⟨⟨m, List.mem_of_getElem? hm, hk⟩, ?_⟩
        exact (hfollows.bounced.mp hb').resolve_left fun hold => hnot ⟨m, hm, hk, hold⟩
      · rw [hsent] at hb'
        cases hb'
  · rintro ⟨es₁, e, es₂, t, t', rfl, h₁, hstep, h₂, ⟨m, hmem, hk⟩, hbounces⟩
    obtain ⟨j, hm₀⟩ := List.mem_iff_getElem?.mp hmem
    have hi₁ := System.Recording.of_run h₁
    obtain ⟨m', hm', hfollows⟩ := hi₁.step_message hstep.2 hstep.1 hm₀ hk
    have hb' : t'.IsBounced messageId j :=
      ⟨m', hm', hfollows.recorded, hfollows.bounced.mpr (.inr hbounces)⟩
    obtain ⟨last, hlast, hidlast, hb⟩ := hb'.run (hi₁.step hstep.2 hstep.1) h₂
    obtain rfl := hi.unique j id last message messageId hlast hm hidlast hid
    obtain rfl := Option.some.inj (hm.symm.trans hlast)
    exact ⟨hb, hi.suppressed message (List.mem_of_getElem? hm) (by rw [hid]; rfl) hb⟩

/-- The first bounce is handled after the message has been recorded. -/
def bouncedLate : List Event := [
  .enqueue 0, .claim (some 0), .run 0, .run 0, .answer 0 (.ok "m"), .run 0,
  .providerEvent "e" "m" .hardBounce, .providerEvent "e" "m" .hardBounce]

theorem bouncedLate_enabled :
    (execWhere System.step (fun s e => s.sentOnce e) {} bouncedLate).isSome := by
  decide +kernel

theorem bounced_iff_bouncedLate : ∃ es₁ e es₂ t t', bouncedLate = es₁ ++ e :: es₂ ∧
    Run (Meeting (Stepping System.step) fun s e _ => s.sentOnce e) {} es₁ t ∧
    Meeting (Stepping System.step) (fun s e _ => s.sentOnce e) t e t' ∧
    Run (Meeting (Stepping System.step) fun s e _ => s.sentOnce e) t' es₂
      ((execWhere System.step (fun s e => s.sentOnce e) {} bouncedLate).get bouncedLate_enabled) ∧
    t.Recorded "m" ∧ t.Bounces "m" e := by
  have hlast : (execWhere System.step (fun s e => s.sentOnce e) {} bouncedLate).all fun s =>
      s.outbox[0]?.any fun message => message.providerMessageId = some "m" &&
        message.status = .bounced && message.recipient ∈ s.suppressions := by decide +kernel
  have hlast := (Option.all_eq_true _ _).mp hlast _ (Option.some_get bouncedLate_enabled).symm
  obtain ⟨message, hm, hmessage⟩ := (Option.any_eq_true _ _).mp hlast
  simp only [Bool.and_eq_true, decide_eq_true_eq] at hmessage
  exact (bounced_iff (Run.of_execWhere_get bouncedLate_enabled) hm hmessage.1.1).mp
    ⟨hmessage.1.2, hmessage.2⟩

/-- The first bounce overtakes the record, and the same event is handled twice more. -/
def bouncedEarly : List Event := [
  .enqueue 0, .claim (some 0), .run 0, .run 0, .answer 0 (.ok "m"),
  .providerEvent "e" "m" .hardBounce, .run 0, .providerEvent "e" "m" .hardBounce,
  .providerEvent "e" "m" .hardBounce]

theorem bounce_lost : ∃ s, Run (Stepping System.step) {} bouncedEarly s ∧
    (s.outbox[0]?.any fun message => message.providerMessageId = some "m" &&
      message.status = .sent) ∧
    s.suppressions = [] :=
  ⟨_, Run.of_exec_get (h := by decide +kernel), by decide +kernel, by decide +kernel⟩

end Tonatiuh.Email
