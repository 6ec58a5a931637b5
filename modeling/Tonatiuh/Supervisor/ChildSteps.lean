import Tonatiuh.Supervisor.CommandRows

/-! What a step does to the trading processes and their accounts. -/

namespace Tonatiuh.Supervisor

open Async Transition

/-- The child is the same process, and has not been told to close its position since. -/
structure Child.Like (c c' : Child) : Prop where
  botId : c'.botId = c.botId
  owner : c'.owner = c.owner
  process : c'.process = c.process
  inbox : true ∈ c'.inbox → true ∈ c.inbox

namespace Child.Like

theorem refl (c : Child) : c.Like c := ⟨rfl, rfl, rfl, id⟩

theorem trans {c c' c'' : Child} (h : c.Like c') (h' : c'.Like c'') : c.Like c'' :=
  ⟨h'.botId.trans h.botId, h'.owner.trans h.owner, h'.process.trans h.process, h.inbox ∘ h'.inbox⟩

end Child.Like

/-- The children are like those before. -/
structure Kept (l l' : List Child) : Prop where
  length : l'.length = l.length
  like : ∀ (n : ChildId) (c : Child), l[n]? = some c → ∃ c', l'[n]? = some c' ∧ c.Like c'

namespace Kept

theorem refl (l : List Child) : Kept l l := ⟨rfl, fun _ c hc => ⟨c, hc, .refl c⟩⟩

theorem trans (h : Kept l l') (h' : Kept l' l'') : Kept l l'' := by
  refine ⟨h'.length.trans h.length, fun n c hc => ?_⟩
  obtain ⟨c', hc', hlike⟩ := h.like n c hc
  obtain ⟨c'', hc'', hlike'⟩ := h'.like n c' hc'
  exact ⟨c'', hc'', hlike.trans hlike'⟩

theorem of_modify {f : Child → Child} (l : List Child) (child : ChildId)
    (hf : ∀ c, Child.Like c (f c)) :
    Kept l (l.modify child f) := by
  refine ⟨List.length_modify .., fun n c hc => ⟨_, by rw [List.getElem?_modify, hc]; rfl, ?_⟩⟩
  split
  next => exact hf c
  next => exact .refl c

end Kept

/-- A child as it is forked. -/
structure Child.IsForked (bound : Nat) (c : Child) : Prop where
  process : ∃ config, c.process =
    .running { memory := { config }, main := Trading.worker bound config }
  inbox : c.inbox = []

/-- The event lets a trading process take this step. -/
inductive Drives (c : Child) (n : ChildId) : Event → Trading.Event → Prop
  | child : isOwn e = true → Drives c n (.child n e) e
  | receive : c.inbox = closePosition :: rest → Drives c n (.receive n) (.message closePosition)

/-- What a step does to the accounts and to the trading processes. -/
inductive AccountStep (bound : Nat) (s s' : System) : Event → Prop
  | kept : s'.accounts = s.accounts → Kept s.children s'.children → AccountStep bound s s' e
  | sent {i : InstanceId} {k : Nat} {choice : Choice} {n : ChildId} {closePosition : Bool} :
      (s.instances i).life = .up → s.pending i k = some (.send n closePosition) →
      s'.accounts = s.accounts →
      s'.children = s.children.modify n (fun c =>
        { c with inbox := c.inbox ++ [closePosition], exitAwaited := true }) →
      AccountStep bound s s' (.serve i k (.ok choice))
  | forked {i : InstanceId} {k : Nat} {choice : Choice} {botId : BotId}
      {config : Config.ConfigType} {c : Child} :
      (s.instances i).life = .up → s.pending i k = some (.fork botId config) →
      s'.accounts = s.accounts → s'.children = s.children ++ [c] → c.botId = botId → c.owner = i →
      c.IsForked bound → AccountStep bound s s' (.serve i k (.ok choice))
  | child {n : ChildId} {c : Child} {e' : Trading.Event} {b : Trading.Bot} {f : Child → Child} :
      s.children[n]? = some c → Drives c n e e' →
      Trading.Bot.step bound ⟨s.accounts c.botId, c.process⟩ e' = some b →
      s'.accounts = Function.update s.accounts c.botId b.world →
      s'.children = s.children.modify n f → (f c).botId = c.botId → (f c).owner = c.owner →
      (f c).process = b.process → (∀ m ∈ (f c).inbox, m ∈ c.inbox) → AccountStep bound s s' e
  | exchange {botId : BotId} {e : Trading.ExchangeEvent} {x : Trading.Exchange} :
      (s.accounts botId).exchange.event e = some x →
      s'.accounts = Function.update s.accounts botId { s.accounts botId with exchange := x } →
      s'.children = s.children → AccountStep bound s s' (.exchange botId e)

theorem System.suspend_kept (s : System) (child : ChildId) :
    Kept s.children (s.suspend child).children := by
  refine .of_modify _ _ fun c => ?_
  split
  next =>
    refine ⟨rfl, rfl, rfl, fun h => ?_⟩
    obtain h | h := List.mem_append.mp h
    · exact h
    · cases List.mem_singleton.mp h
  next => exact .refl c

theorem suspends_kept (entries : List (BotId × ChildId)) (s : System) :
    Kept s.children (entries.foldl (fun s entry => s.suspend entry.2) s).children := by
  induction entries generalizing s with
  | nil => exact .refl _
  | cons entry entries ih => exact (s.suspend_kept entry.2).trans (ih _)

theorem complete_account {s t s' : System} {r : Request} {a : r.Answer} {choice : Choice}
    (h : s.complete bound i r choice = some (a, t)) (hup : (s.instances i).life = .up)
    (hr : s.pending i k = some r) (hc : s'.children = t.children) (ha : s'.accounts = t.accounts) :
    AccountStep bound s s' (.serve i k (.ok choice)) := by
  have hu := complete_unchanged h
  have ha : s'.accounts = s.accounts := ha.trans hu.accounts
  by_cases hl : r.isLocal = false
  · exact .kept ha (hc ▸ hu.children hl ▸ .refl _)
  cases r with
  | fork botId config =>
    cases choice with
    | done => cases h; exact .forked hup hr ha hc rfl rfl ⟨⟨config, rfl⟩, rfl⟩
    | _ => cases h
  | listen child =>
    cases choice with
    | done => cases h; exact .kept ha (hc ▸ .of_modify _ _ fun c => ⟨rfl, rfl, rfl, id⟩)
    | _ => cases h
  | takeChild botId =>
    cases choice with
    | done => cases h; exact .kept ha (hc ▸ .refl _)
    | _ => cases h
  | send child closePosition =>
    cases choice with
    | done => cases h; exact .sent hup hr ha hc
    | _ => cases h
  | suspendAll =>
    cases choice with
    | done =>
      refine .kept ha ?_
      cases h
      exact hc ▸ suspends_kept _ s
    | _ => cases h
  | _ => exact absurd rfl hl

theorem exit_account {s s' : System} (h : s.exit child = some s') :
    AccountStep bound s s' (.exit child) := by
  obtain ⟨c, _, _, _, rfl⟩ := exit_cases h
  have hkept := Kept.of_modify s.children child
    (f := fun c => { c with exitEmitted := true, exitSeen := c.exitAwaited })
    fun c => ⟨rfl, rfl, rfl, id⟩
  split
  next =>
    refine .kept ?_ (by rw [onExit_children]; exact hkept)
    unfold System.onExit
    split
    next => rfl
    next =>
      dsimp only
      split
      next => rfl
      next =>
        obtain ⟨f, hf⟩ := scheduleRestart_cases _ c.owner c.botId
        rw [hf]
        rfl
  next => exact .kept rfl hkept

theorem message_account {s s' : System} (h : s.message child = some s') :
    AccountStep bound s s' (.message child) := by
  obtain ⟨c, m, rest, _, _, _, _, rfl⟩ := message_cases h
  have hkept := Kept.of_modify s.children child (f := fun c => { c with outbox := rest })
    fun c => ⟨rfl, rfl, rfl, id⟩
  cases m with
  | started => exact .kept rfl hkept
  | error message => exact .kept rfl (hkept.trans (.of_modify _ _ fun c => ⟨rfl, rfl, rfl, id⟩))

theorem System.account_step {s s' : System} (h : s.step bound e = some s') :
    AccountStep bound s s' e := by
  cases e with
  | api call =>
    have hc := System.call_called h
    exact .kept hc.accounts (hc.children ▸ .refl _)
  | boot i =>
    simp only [System.step] at h
    split at h
    next => cases h; exact .kept rfl (.refl _)
    next => cases h
  | serve i n outcome =>
    obtain ⟨r, k, history, x, t, hup, hn, hserve, rfl⟩ := serveTask_cases h
    obtain ⟨choice, a, rfl, _, hc⟩ | ⟨_, _, _, _, rfl⟩ | ⟨_, _, _, _, _, htr, hc⟩ :=
      serve_cases hserve
    · exact complete_account hc hup (System.pending_eq hn) rfl rfl
    · exact .kept rfl (.refl _)
    · have hu := complete_unchanged hc
      have hl : r.isLocal = false := by cases r <;> first | rfl | cases htr
      exact .kept hu.accounts (hu.children hl ▸ .refl _)
  | message child => exact message_account h
  | exit child => exact exit_account h
  | close child =>
    simp only [System.step, System.close] at h
    split at h
    next =>
      split at h
      next => cases h; exact .kept rfl (.of_modify _ _ fun c => ⟨rfl, rfl, rfl, id⟩)
      next => cases h
    next => cases h
  | resetAttempts i botId =>
    simp only [System.step, System.resetAttempts] at h
    split at h
    next =>
      split at h
      next => cases h; exact .kept rfl (.refl _)
      next => cases h
    next => cases h
  | signal i => cases h; exact .kept rfl (.refl _)
  | disconnect i =>
    simp only [System.step] at h
    split at h
    next =>
      cases h
      obtain ⟨lock, heq⟩ := s.unlocked_eq i
      rw [heq]
      exact .kept rfl (.refl _)
    next => cases h
  | crash i =>
    simp only [System.step] at h
    split at h
    next =>
      cases h
      obtain ⟨lock, heq⟩ := s.unlocked_eq i
      rw [heq]
      exact .kept rfl (.refl _)
    next => cases h
  | child n e =>
    simp only [System.step] at h
    split at h
    next he =>
      obtain ⟨c, b, hc, hb, rfl⟩ := stepChild_cases h
      exact .child hc (.child he) hb rfl rfl rfl rfl rfl fun _ hm => hm
    next => cases h
  | receive n =>
    obtain ⟨c, closePosition, rest, hc, hinbox, h⟩ := receive_cases h
    obtain ⟨c', b, hc', hb, rfl⟩ := stepChild_cases h
    have hupdate : (s.updateChild n fun c => { c with inbox := rest }).children[n]? =
        some { c with inbox := rest } := by
      rw [System.updateChild, List.getElem?_modify, hc]
      exact congrArg some (if_pos rfl)
    cases hupdate.symm.trans hc'
    refine .child (f := fun c => { c with inbox := rest, process := b.process }) hc
      (.receive hinbox)
      hb rfl ?_ rfl rfl rfl fun m hm => hinbox ▸ List.mem_cons_of_mem _ hm
    exact List.modify_modify_eq ..
  | report child m =>
    simp only [System.step, System.report] at h
    split at h
    next =>
      split at h
      next => cases h; exact .kept rfl (.of_modify _ _ fun c => ⟨rfl, rfl, rfl, id⟩)
      next => cases h
    next => cases h
  | makeDirectory child =>
    simp only [System.step, System.makeDirectory] at h
    split at h
    next =>
      split at h
      next => cases h; exact .kept rfl (.refl _)
      next => cases h
    next => cases h
  | exchange botId e =>
    obtain ⟨x, hx, h⟩ := Option.map_eq_some_iff.mp h
    cases h
    exact .exchange hx rfl rfl

/-! ## The map of a worker -/

/-- What a step does to an entry of the map: it was there before, or its child is forked. -/
inductive EntryStep (s : System) (i : InstanceId) (botId : BotId) (child : ChildId) : Event → Prop
  | kept : (s.instances i).processes botId = some child → EntryStep s i botId child e
  | forked {config : Config.ConfigType} : s.pending i k = some (.fork botId config) →
      child = s.children.length → EntryStep s i botId child (.serve i k (.ok choice))

theorem complete_entry {s t : System} {r : Request} {a : r.Answer} {choice : Choice}
    (h : s.complete bound i r choice = some (a, t)) (hr : s.pending i k = some r)
    (hentry : (t.instances i).processes botId = some child) :
    EntryStep s i botId child (.serve i k (.ok choice)) := by
  by_cases hc : r.changesProcesses = false
  · exact .kept (complete_processes h hc ▸ hentry)
  cases r with
  | fork botId' config =>
    cases choice with
    | done =>
      cases h
      rw [System.updateInstance_self] at hentry
      have hentry : Function.update (s.instances i).processes botId'
          (some s.children.length) botId =
          some child := hentry
      by_cases hb : botId = botId'
      · rw [hb, Function.update_self] at hentry
        exact .forked (hb ▸ hr) (Option.some.inj hentry).symm
      · rw [Function.update_of_ne hb] at hentry
        exact .kept hentry
    | _ => cases h
  | takeChild botId' =>
    cases choice with
    | done =>
      cases h
      rw [System.updateInstance_self] at hentry
      have hentry : Function.update (s.instances i).processes botId' none botId = some child :=
        hentry
      by_cases hb : botId = botId'
      · rw [hb, Function.update_self] at hentry
        cases hentry
      · rw [Function.update_of_ne hb] at hentry
        exact .kept hentry
    | _ => cases h
  | suspendAll =>
    cases choice with
    | done =>
      cases h
      rw [System.updateInstance_self] at hentry
      cases hentry
    | _ => cases h
  | _ => exact absurd rfl hc

theorem System.entry_step {s s' : System} (h : s.step bound e = some s')
    (hentry : (s'.instances i).processes botId = some child) : EntryStep s i botId child e := by
  cases System.step_cases h with
  | api hcall =>
    rw [(System.call_called hcall).instances] at hentry
    exact .kept hentry
  | @boot j hl =>
    by_cases hij : i = j
    · subst hij
      rw [System.updateInstance_self] at hentry
      exact .kept hentry
    · rw [System.updateInstance_ne _ _ hij] at hentry
      exact .kept hentry
  | @serve j n r k history outcome x t hup hn hserve =>
    by_cases hij : i = j
    · subst hij
      rw [System.updateInstance_self] at hentry
      obtain ⟨choice, a, rfl, _, hc⟩ | ⟨_, _, _, _, rfl⟩ | ⟨_, _, _, _, _, htr, hc⟩ :=
        serve_cases hserve
      · exact complete_entry hc (System.pending_eq hn) hentry
      · exact .kept hentry
      · have hl : r.isLocal = false := by cases r <;> first | rfl | cases htr
        rw [(complete_unchanged hc).instances hl] at hentry
        exact .kept hentry
    · rw [System.updateInstance_ne _ _ hij, (serve_serves hserve).others i hij] at hentry
      exact .kept hentry
  | @disconnect j hl =>
    obtain ⟨lock, heq⟩ := s.unlocked_eq j
    rw [heq] at hentry
    exact .kept hentry
  | @crash j hl =>
    by_cases hij : i = j
    · rw [hij, System.updateInstance_self] at hentry
      cases hentry
    · obtain ⟨lock, heq⟩ := s.unlocked_eq j
      rw [System.updateInstance_ne _ _ hij, heq] at hentry
      exact .kept hentry
  | other hp => exact .kept ((hp.grows i).processes botId child hentry)

/-- The children that were there are there, of the same bot and worker. -/
theorem System.child_kept {s s' : System} {n : ChildId} {c : Child} (h : s.step bound e = some s')
    (hc : s.children[n]? = some c) :
    ∃ c', s'.children[n]? = some c' ∧ c'.botId = c.botId ∧ c'.owner = c.owner := by
  have hsame (hchildren : s'.children[n]? = s.children[n]?) :
      ∃ c', s'.children[n]? = some c' ∧ c'.botId = c.botId ∧ c'.owner = c.owner :=
    ⟨c, hchildren.trans hc, rfl, rfl⟩
  cases System.account_step h with
  | kept _ hkept =>
    obtain ⟨c', hc', hlike⟩ := hkept.like n c hc
    exact ⟨c', hc', hlike.botId, hlike.owner⟩
  | sent _ _ _ hchildren =>
    refine ⟨_, by rw [hchildren, List.getElem?_modify, hc]; rfl, ?_⟩
    split
    next => exact ⟨rfl, rfl⟩
    next => exact ⟨rfl, rfl⟩
  | forked _ _ _ hchildren =>
    refine hsame ?_
    rw [hchildren, List.getElem?_append_left (List.getElem?_eq_some_iff.mp hc).1]
  | @child _ n₀ c₀ e' b f hc₀ _ _ _ hchildren hb ho =>
    refine ⟨_, by rw [hchildren, List.getElem?_modify, hc]; rfl, ?_⟩
    split
    next hn =>
      subst hn
      cases hc.symm.trans hc₀
      exact ⟨hb, ho⟩
    next => exact ⟨rfl, rfl⟩
  | exchange _ _ hchildren => exact hsame (by rw [hchildren])

/-- The child has been told to close its position. -/
def Child.Told (c : Child) : Prop := true ∈ c.inbox ∨ c.process.emergency.isSome = true

theorem Child.Like.told {c c' : Child} (h : c.Like c') (ht : c'.Told) : c.Told := by
  obtain ht | ht := ht
  · exact .inl (h.inbox ht)
  · exact .inr (h.process ▸ ht)

/-- The message is the only step that makes a child close its position. -/
theorem Child.told_of_step {c c' : Child} {b : Trading.Bot} {w : Trading.World}
    (hd : Drives c n e e') (h : Trading.Bot.step bound ⟨w, c.process⟩ e' = some b)
    (hp : c'.process = b.process) (hinbox : ∀ m ∈ c'.inbox, m ∈ c.inbox) (ht : c'.Told) :
    c.Told := by
  obtain ht | ht := ht
  · exact .inl (hinbox true ht)
  rw [hp] at ht
  obtain ht | rfl := Trading.Bot.emergency_step h ht
  · exact .inr ht
  · cases hd with
    | child hown => cases hown
    | receive hi => exact .inl (hi ▸ List.mem_cons_self)

/-- The map of a worker stores its own children under their bots, and none that a task has taken out
of it or that has been told to close its position. -/
structure System.Mapped (s : System) : Prop where
  entries : ∀ (i : InstanceId) (botId : BotId) (n : ChildId),
    (s.instances i).processes botId = some n →
      ∃ c, s.children[n]? = some c ∧ c.botId = botId ∧ c.owner = i
  taken : ∀ (i : InstanceId) (t : Task) (n : ChildId), t ∈ (s.instances i).tasks →
    t.progress.taken = some (some n) →
      (∃ c, s.children[n]? = some c ∧ c.owner = i) ∧
        ∀ botId, (s.instances i).processes botId ≠ some n
  told : ∀ (n : ChildId) (c : Child), s.children[n]? = some c → c.Told →
    ∀ botId, (s.instances c.owner).processes botId ≠ some n

theorem System.Fresh.mapped {s : System} (h : s.Fresh) : s.Mapped := by
  refine ⟨fun i botId n hp => ?_, fun i t n ht => ?_, fun n c hc => ?_⟩
  · rw [h.instances] at hp
    cases hp
  · rw [h.instances] at ht
    cases ht
  · rw [h.children] at hc
    cases hc

namespace System.Mapped

theorem entries_step {s s' : System} (h : s.Mapped) (hstep : s.step bound e = some s')
    (hp : (s'.instances i).processes botId = some n) :
    ∃ c, s'.children[n]? = some c ∧ c.botId = botId ∧ c.owner = i := by
  cases System.entry_step hstep hp with
  | kept hp =>
    obtain ⟨c, hc, hb, ho⟩ := h.entries i botId n hp
    obtain ⟨c', hc', hb', ho'⟩ := System.child_kept hstep hc
    exact ⟨c', hc', hb'.trans hb, ho'.trans ho⟩
  | @forked k choice config hpending hn =>
    obtain ⟨r, k', history, x, t, hup, htask, hserve, rfl⟩ := serveTask_cases hstep
    cases hpending.symm.trans (System.pending_eq htask)
    obtain ⟨_, a, _, _, hc⟩ | ⟨_, ha, _, _, _⟩ | ⟨_, _, _, ha, _, _, _⟩ := serve_cases hserve
    · obtain ⟨c, hchildren, hb, ho, _⟩ := (complete_forked hc).child
      refine ⟨c, ?_, hb, ho⟩
      rw [hn]
      exact hchildren ▸ List.getElem?_concat_length ..
    · cases ha
    · cases ha

/-- An entry that was not there before is not the one of a child that was. -/
theorem entry_ne {s s' : System} {n : ChildId} (hstep : s.step bound e = some s')
    (hc : s.children[n]? = some c) (hp : (s.instances i).processes botId ≠ some n) :
    (s'.instances i).processes botId ≠ some n := by
  intro hp'
  cases System.entry_step hstep hp' with
  | kept h => exact hp h
  | forked _ hn =>
    rw [hn, List.getElem?_length] at hc
    cases hc

theorem complete_takeChild {s t : System} {a : Option ChildId}
    (h : s.complete bound i (.takeChild botId) choice = some (a, t)) :
    a = s.runningChild i botId ∧
      (t.instances i).processes = Function.update (s.instances i).processes botId none := by
  cases choice with
  | done =>
    cases h
    refine ⟨rfl, ?_⟩
    rw [System.updateInstance_self]
  | _ => cases h

theorem taken_step {s s' : System} {t : Task} (h : s.Mapped) (hstep : s.step bound e = some s')
    (ht : t ∈ (s'.instances i).tasks) (htaken : t.progress.taken = some (some n)) :
    (∃ c, s'.children[n]? = some c ∧ c.owner = i) ∧
      ∀ botId, (s'.instances i).processes botId ≠ some n := by
  have hold (h : (∃ c, s.children[n]? = some c ∧ c.owner = i) ∧
      ∀ botId, (s.instances i).processes botId ≠ some n) :
      (∃ c, s'.children[n]? = some c ∧ c.owner = i) ∧
        ∀ botId, (s'.instances i).processes botId ≠ some n := by
    obtain ⟨⟨c, hc, ho⟩, hp⟩ := h
    obtain ⟨c', hc', _, ho'⟩ := System.child_kept hstep hc
    exact ⟨⟨c', hc', ho'.trans ho⟩, fun botId => entry_ne hstep hc (hp botId)⟩
  cases System.task_step hstep ht with
  | kept _ ht => exact hold (h.taken i t n ht htaken)
  | spawned => cases htaken
  | @served m r k history outcome x u hup hn hserve =>
    obtain htaken | ⟨botId, hx⟩ := Progress.taken_cases htaken
    · exact hold (h.taken i _ n (List.mem_of_getElem? hn) htaken)
    · cases hx
      obtain ⟨choice, a, rfl, ha, hc⟩ | ⟨_, _, ha, _, _⟩ | ⟨_, _, _, _, ha, _, _⟩ :=
        serve_cases hserve
      · cases ha
        obtain ⟨r', k', history', x', t', _, htask, hserve', rfl⟩ := serveTask_cases hstep
        cases hn.symm.trans htask
        obtain ⟨hrunning, hprocesses⟩ := complete_takeChild hc
        obtain ⟨c, hchild, hb, ho⟩ :=
          h.entries i botId n (Option.eq_some_of_filter_eq_some hrunning.symm)
        obtain ⟨c', hchild', _, ho'⟩ := System.child_kept hstep hchild
        have ht' : t' = u := congrArg Prod.snd (Option.some.inj (hserve'.symm.trans hserve))
        refine ⟨⟨c', hchild', ho'.trans ho⟩, fun botId' hentry => ?_⟩
        rw [System.updateInstance_self] at hentry
        have hentry : (t'.instances i).processes botId' = some n := hentry
        rw [ht', hprocesses] at hentry
        by_cases hbot : botId' = botId
        · rw [hbot, Function.update_self] at hentry
          cases hentry
        · rw [Function.update_of_ne hbot] at hentry
          obtain ⟨c'', hchild'', hb'', _⟩ := h.entries i botId' n hentry
          cases hchild.symm.trans hchild''
          exact hbot (hb''.symm.trans hb)
      · cases ha
      · cases ha

theorem told_step {s s' : System} {c' : Child} (h : s.Mapped) (hr : s.Follows)
    (hstep : s.step bound e = some s') (hc' : s'.children[n]? = some c') (ht : c'.Told)
    (botId : BotId) : (s'.instances c'.owner).processes botId ≠ some n := by
  have hold {c : Child} (hc : s.children[n]? = some c) (ho : c'.owner = c.owner) (ht : c.Told) :
      (s'.instances c'.owner).processes botId ≠ some n :=
    ho ▸ entry_ne hstep hc (h.told n c hc ht botId)
  cases System.account_step hstep with
  | kept _ hkept =>
    obtain ⟨c, hc⟩ : ∃ c, s.children[n]? = some c :=
      ⟨_, List.getElem?_eq_getElem (hkept.length ▸ (List.getElem?_eq_some_iff.mp hc').1)⟩
    obtain ⟨c'', hc'', hlike⟩ := hkept.like n c hc
    cases hc'.symm.trans hc''
    exact hold hc hlike.owner (hlike.told ht)
  | @sent i k choice n₀ closePosition hup hpending _ hchildren =>
    rw [hchildren, List.getElem?_modify] at hc'
    obtain ⟨c, hc, rfl⟩ := Option.map_eq_some_iff.mp hc'
    by_cases hn : n₀ = n
    · subst hn
      obtain ⟨t, htask, hrequest⟩ := Option.bind_eq_some_iff.mp hpending
      have hmem := List.mem_of_getElem? htask
      obtain ⟨_, _, htaken, _⟩ := (hr i t hmem).allowed hrequest
      obtain ⟨⟨c₀, hc₀, ho⟩, hp⟩ := h.taken i t n₀ hmem htaken
      cases hc.symm.trans hc₀
      rw [if_pos rfl]
      exact entry_ne hstep hc (ho ▸ hp botId)
    · rw [if_neg hn] at ht hold ⊢
      exact hold hc rfl ht
  | @forked i k choice botId' config c₀ _ _ _ hchildren _ _ hforked =>
    rw [hchildren, List.getElem?_append] at hc'
    split at hc'
    next => exact hold hc' rfl ht
    next =>
      cases List.mem_singleton.mp (List.mem_of_getElem? hc')
      obtain ht | ht := ht
      · rw [hforked.inbox] at ht
        cases ht
      · obtain ⟨config, hprocess⟩ := hforked.process
        rw [hprocess] at ht
        cases ht
  | @child _ n₀ c₀ e' b f hc₀ hd hb _ hchildren _ ho hprocess hinbox =>
    rw [hchildren, List.getElem?_modify] at hc'
    obtain ⟨c, hc, rfl⟩ := Option.map_eq_some_iff.mp hc'
    by_cases hn : n₀ = n
    · subst hn
      cases hc.symm.trans hc₀
      rw [if_pos rfl] at ht hold ⊢
      exact hold hc ho (Child.told_of_step hd hb hprocess hinbox ht)
    · rw [if_neg hn] at ht hold ⊢
      exact hold hc rfl ht
  | exchange _ _ hchildren =>
    rw [hchildren] at hc'
    exact hold hc' rfl ht

theorem step {s s' : System} (h : s.Mapped) (hr : s.Follows) (hstep : s.step bound e = some s') :
    s'.Mapped :=
  ⟨fun _ _ _ => h.entries_step hstep, fun _ _ _ => h.taken_step hstep,
    fun _ _ => h.told_step hr hstep⟩

end System.Mapped

end Tonatiuh.Supervisor
