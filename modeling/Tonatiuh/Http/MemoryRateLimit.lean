import Mathlib.Data.Rat.Floor
import Tonatiuh.Tables.Map
import Tonatiuh.Counting.Windows

/-! `memoryRateLimit` of `saas/http/rate-limit.ts`.

One limiter serves all clients. Its map holds an entry for each key, and the entries whose window is
over are removed now and then, during the request of some client. A request is answered with the
headers that it sets and, when it is refused, with the error `RATE_LIMITED`. -/

namespace Tonatiuh.Http

open Tables Counting

structure WindowEntry where
  count : Nat
  resetAt : Int
  deriving DecidableEq, Repr

/-- What the handler reads of a request, and `Date.now()`. -/
structure Request where
  ip : Option String := none
  remoteAddress : Option String := none
  now : Int
  deriving DecidableEq, Repr

def Request.key (req : Request) : String := (req.ip <|> req.remoteAddress).getD "unknown"

/-- `Math.ceil(ms / 1000)`. -/
def seconds (ms : Int) : Int := -(-ms / 1000)

/-- The headers `RateLimit-Limit`, `RateLimit-Remaining`, `RateLimit-Reset` and, with the error 429,
`Retry-After`. -/
structure Answer where
  limit : Int
  remaining : Int
  reset : Int
  retryAfter : Option Int
  deriving DecidableEq, Repr

def Answer.isAdmitted (answer : Answer) : Bool := answer.retryAfter.isNone

def WindowEntry.answer (limit now : Int) (entry : WindowEntry) : Answer where
  limit
  remaining := max 0 (limit - entry.count)
  reset := seconds entry.resetAt
  retryAfter :=
    if limit < entry.count then some (max 1 (seconds (entry.resetAt - now))) else none

/-- The entry after a request, when the map holds `current`. -/
def WindowEntry.next (windowMs now : Int) (current : Option WindowEntry) : WindowEntry :=
  match current with
  | none => { count := 1, resetAt := now + windowMs }
  | some current =>
    if current.resetAt ≤ now then { count := 1, resetAt := now + windowMs }
    else { current with count := current.count + 1 }

/-- The variables of the closure. -/
structure RateLimiter where
  windows : List (String × WindowEntry) := []
  nextCleanup : Int := 0
  deriving DecidableEq, Repr

namespace RateLimiter

def cleanUp (windowMs now : Int) (limiter : RateLimiter) : RateLimiter :=
  if limiter.nextCleanup ≤ now then
    { nextCleanup := now + windowMs
      windows := limiter.windows.filter fun (_, entry) => ¬ entry.resetAt ≤ now }
  else limiter

/-- The handler on one request. -/
def handle (limit windowMs : Int) (limiter : RateLimiter) (req : Request) : Answer × RateLimiter :=
  let limiter := limiter.cleanUp windowMs req.now
  let entry := WindowEntry.next windowMs req.now (limiter.windows.lookup req.key)
  (entry.answer limit req.now,
    { limiter with windows := upsert Prod.fst (req.key, entry) limiter.windows })

/-- The answers to a list of requests, each with its request. -/
def answers (limit windowMs : Int) : RateLimiter → List Request → List (Request × Answer)
  | _, [] => []
  | limiter, req :: reqs =>
    let (answer, limiter) := limiter.handle limit windowMs req
    (req, answer) :: answers limit windowMs limiter reqs

end RateLimiter

/-- `memoryRateLimit(limit, windowMs)` on the requests it receives in order. -/
def memoryRateLimit (limit windowMs : Int) (reqs : List Request) : List (Request × Answer) :=
  RateLimiter.answers limit windowMs {} reqs

/-- The answers to one client. -/
def answersTo (key : String) (answers : List (Request × Answer)) : List Answer :=
  (answers.filter fun answer => answer.1.key = key).map (·.2)

/-- The times of the requests of one client. -/
def timesOf (key : String) (reqs : List Request) : List Int :=
  (reqs.filter fun req => req.key = key).map (·.now)

/-! ## A plain fixed-window counter -/

/-- The answer to the `n`-th request of a window that is over at `resetAt`: it is admitted if it is
one of the first `limit`, and `limit - n` may follow. Times are told in seconds, rounded up. -/
def countedAnswer (limit resetAt : Int) (n : Nat) (now : Int) : Answer where
  limit
  remaining := (limit - n).toNat
  reset := ⌈(resetAt / 1000 : ℚ)⌉
  retryAfter := if n ≤ limit then none else some (max 1 ⌈((resetAt - now : Int) / 1000 : ℚ)⌉)

/-- The answers to the requests of one window, which is over `windowMs` after its first. -/
def windowAnswers (limit windowMs : Int) : List Int → List Answer
  | [] => []
  | first :: times => number (countedAnswer limit (first + windowMs)) 1 (first :: times)

/-- A counter that serves one client, window after window. -/
def fixedWindow (limit windowMs : Int) (times : List Int) : List Answer :=
  (windows windowMs times).flatMap (windowAnswers limit windowMs)

theorem isAdmitted_countedAnswer {limit resetAt now : Int} {n : Nat} :
    (countedAnswer limit resetAt n now).isAdmitted = true ↔ n ≤ limit := by
  simp only [Answer.isAdmitted, countedAnswer]
  split
  next h => simp [h]
  next h => simp [h]

theorem seconds_eq_ceil (ms : Int) : seconds ms = ⌈(ms / 1000 : ℚ)⌉ :=
  (Rat.ceil_intCast_div_natCast ms 1000).symm

/-- The limiter answers by its entry as the counter by its number. -/
theorem answer_eq_countedAnswer (limit resetAt : Int) (n : Nat) (now : Int) :
    WindowEntry.answer limit now { count := n, resetAt } = countedAnswer limit resetAt n now := by
  simp only [WindowEntry.answer, countedAnswer, seconds_eq_ceil, Answer.mk.injEq, true_and]
  refine ⟨by omega, ?_⟩
  split
  next h => rw [if_neg (not_le.mpr h)]
  next h => rw [if_pos (not_lt.mp h)]

theorem countP_windowAnswers_le (limit windowMs : Int) (window : List Int) :
    (windowAnswers limit windowMs window).countP Answer.isAdmitted ≤ limit.toNat := by
  cases window with
  | nil => exact Nat.zero_le _
  | cons first times =>
    have hlimit : ∀ (n : Nat) (now : Int),
        (countedAnswer limit (first + windowMs) n now).isAdmitted = true → n ≤ limit.toNat := by
      intro n now hn
      have := isAdmitted_countedAnswer.mp hn
      omega
    have hcount := countP_number_le hlimit 1 (first :: times)
    rwa [Nat.add_sub_cancel] at hcount

/-- The answers of the counter to the times from `current` on. -/
def countFrom (limit windowMs : Int) : Option WindowEntry → List Int → List Answer
  | _, [] => []
  | current, now :: times =>
    let entry := WindowEntry.next windowMs now current
    entry.answer limit now :: countFrom limit windowMs (some entry) times

theorem countFrom_congr {limit windowMs : Int} {current current' : Option WindowEntry}
    {times : List Int}
    (h : ∀ now ∈ times.head?,
      WindowEntry.next windowMs now current = WindowEntry.next windowMs now current') :
    countFrom limit windowMs current times = countFrom limit windowMs current' times := by
  cases times with
  | nil => rfl
  | cons now times => rw [countFrom, countFrom, h now rfl]

/-- The counter goes on with the rest of its window, and then starts afresh. -/
theorem countFrom_some (limit windowMs : Int) (n : Nat) (resetAt : Int) (times : List Int) :
    countFrom limit windowMs (some { count := n, resetAt }) times =
      number (countedAnswer limit resetAt) (n + 1) (times.takeWhile (· < resetAt)) ++
        countFrom limit windowMs none (times.dropWhile (· < resetAt)) := by
  induction times generalizing n with
  | nil => rfl
  | cons now times ih =>
    by_cases hnow : now < resetAt
    · have hnext : WindowEntry.next windowMs now (some { count := n, resetAt }) =
          { count := n + 1, resetAt } := by simp [WindowEntry.next, not_le.mpr hnow]
      rw [List.takeWhile_cons_of_pos (by simpa using hnow),
        List.dropWhile_cons_of_pos (by simpa using hnow), countFrom, hnext, ih, number,
        List.cons_append, answer_eq_countedAnswer]
    · rw [List.takeWhile_cons_of_neg (by simpa using hnow),
        List.dropWhile_cons_of_neg (by simpa using hnow)]
      refine countFrom_congr fun now' hmem => ?_
      cases hmem
      simp [WindowEntry.next, not_lt.mp hnow]

theorem fixedWindow_eq (limit windowMs : Int) (times : List Int) :
    fixedWindow limit windowMs times = countFrom limit windowMs none times := by
  induction times using windows.induct windowMs with
  | case1 => rw [fixedWindow, windows_nil]; rfl
  | case2 first times ih =>
    rw [fixedWindow] at ih ⊢
    rw [windows_cons, List.flatMap_cons, ih, countFrom, windowAnswers, number,
      ← answer_eq_countedAnswer]
    exact congrArg _ (countFrom_some limit windowMs 1 (first + windowMs) times).symm

/-! ## The limiter and the counter -/

namespace RateLimiter

/-- No key has two entries. -/
def Keyed (limiter : RateLimiter) : Prop := (limiter.windows.map Prod.fst).Nodup

/-- What the map holds for a client is what its counter holds, or nothing after the window is
over. -/
def Follows (key : String) (now : Int) (limiter : RateLimiter)
    (current : Option WindowEntry) : Prop :=
  limiter.windows.lookup key = current ∨
    limiter.windows.lookup key = none ∧ ∀ entry ∈ current, entry.resetAt ≤ now

variable {limiter : RateLimiter} {windowMs now : Int} {key : String} {current : Option WindowEntry}

theorem Keyed.cleanUp (h : limiter.Keyed) : (limiter.cleanUp windowMs now).Keyed := by
  unfold RateLimiter.cleanUp
  split
  next => exact h.sublist (List.filter_sublist.map Prod.fst)
  next => exact h

/-- A cleanup removes no window that is not over. -/
theorem Follows.cleanUp (hk : limiter.Keyed) (h : limiter.Follows key now current)
    (windowMs : Int) :
    (limiter.cleanUp windowMs now).Follows key now current := by
  unfold RateLimiter.cleanUp
  split
  next =>
    unfold Follows
    dsimp only
    rw [lookup_filter hk]
    obtain h | ⟨h, hover⟩ := h
    · rw [h]
      cases current with
      | none => exact .inl rfl
      | some entry =>
        by_cases hentry : entry.resetAt ≤ now
        · refine .inr ⟨by simp [hentry], fun e he => ?_⟩
          cases he
          exact hentry
        · exact .inl (by simpa using hentry)
    · exact .inr ⟨by rw [h]; rfl, hover⟩
  next => exact h

/-- The client gets the entry that its counter has. -/
theorem Follows.next (h : limiter.Follows key now current) (windowMs : Int) :
    WindowEntry.next windowMs now (limiter.windows.lookup key) =
      WindowEntry.next windowMs now current := by
  obtain h | ⟨h, hover⟩ := h
  · rw [h]
  · rw [h]
    cases current with
    | none => rfl
    | some entry => simp [WindowEntry.next, hover entry rfl]

theorem Follows.mono {now' : Int} (h : limiter.Follows key now current) (hle : now ≤ now') :
    limiter.Follows key now' current :=
  h.imp_right fun h => ⟨h.1, fun entry he => (h.2 entry he).trans hle⟩

theorem Keyed.handle (h : limiter.Keyed) (limit : Int) (req : Request) :
    (limiter.handle limit windowMs req).2.Keyed :=
  nodup_upsert h.cleanUp

/-- The request of another client. -/
theorem Follows.handle_of_ne (hk : limiter.Keyed) (h : limiter.Follows key now current)
    (limit windowMs : Int) {req : Request} (hnow : now ≤ req.now) (hkey : req.key ≠ key) :
    (limiter.handle limit windowMs req).2.Follows key req.now current := by
  have h' := (h.mono hnow).cleanUp hk windowMs
  simpa only [Follows, handle, lookup_upsert, if_neg hkey.symm] using h'

/-- The request of the client itself. -/
theorem Follows.handle (hk : limiter.Keyed) (limit windowMs : Int) {req : Request}
    (h : limiter.Follows req.key now current) (hnow : now ≤ req.now) :
    (limiter.handle limit windowMs req).1 =
        (WindowEntry.next windowMs req.now current).answer limit req.now ∧
      (limiter.handle limit windowMs req).2.Follows req.key req.now
        (some (WindowEntry.next windowMs req.now current)) := by
  have hnext := ((h.mono hnow).cleanUp hk windowMs).next windowMs
  refine ⟨?_, .inl ?_⟩
  · simp only [RateLimiter.handle, hnext]
  · simp only [RateLimiter.handle, lookup_upsert, hnext, if_true]

/-- From any point on, a client is answered as by its counter. -/
theorem Follows.answers (hk : limiter.Keyed) (limit : Int) {reqs : List Request}
    (h : limiter.Follows key now current) (hnow : ∀ req ∈ reqs, now ≤ req.now)
    (hsorted : reqs.Pairwise fun a b => a.now ≤ b.now) :
    answersTo key (limiter.answers limit windowMs reqs) =
      countFrom limit windowMs current (timesOf key reqs) := by
  induction reqs generalizing limiter current now with
  | nil => rfl
  | cons req reqs ih =>
    have hreq := hnow req List.mem_cons_self
    obtain ⟨hle, hsorted⟩ := List.pairwise_cons.mp hsorted
    rw [RateLimiter.answers]
    by_cases hkey : req.key = key
    · subst hkey
      obtain ⟨hanswer, hfollows⟩ := h.handle hk limit windowMs hreq
      have hrest := ih (hk.handle limit req) hfollows hle hsorted
      simpa [answersTo, timesOf, countFrom, hanswer] using hrest
    · have hrest :=
        ih (hk.handle limit req) (h.handle_of_ne hk limit windowMs hreq hkey) hle hsorted
      simpa [answersTo, timesOf, hkey] using hrest

end RateLimiter

/-- Whatever the other clients request and whenever the map is cleaned up, each client is answered
as by a fixed-window counter of its own, which admits at most `limit` requests in each window. -/
theorem memoryRateLimit_fixedWindow (limit windowMs : Int) {reqs : List Request}
    (h : reqs.Pairwise fun a b => a.now ≤ b.now) (key : String) :
    answersTo key (memoryRateLimit limit windowMs reqs) =
      fixedWindow limit windowMs (timesOf key reqs) ∧
      ∀ window ∈ windows windowMs (timesOf key reqs),
        (windowAnswers limit windowMs window).countP Answer.isAdmitted ≤ limit.toNat := by
  refine ⟨?_, fun window _ => countP_windowAnswers_le limit windowMs window⟩
  rw [fixedWindow_eq]
  cases reqs with
  | nil => rfl
  | cons req reqs =>
    have hk : RateLimiter.Keyed {} := List.nodup_nil
    have hfollows : RateLimiter.Follows key req.now {} none := .inl rfl
    refine hfollows.answers hk limit ?_ h
    exact List.forall_mem_cons.mpr ⟨le_rfl, (List.pairwise_cons.mp h).1⟩

/-- Two clients around the end of a window, with a cleanup in between. -/
theorem memoryRateLimit_fixedWindow_twoClients :
    answersTo "a" (memoryRateLimit 1 60000 [
        { ip := some "a", now := 1000 }, { ip := some "b", now := 30000 },
          { ip := some "a", now := 60999 },
        { remoteAddress := some "b", now := 61000 }, { ip := some "a", now := 61000 }]) =
      fixedWindow 1 60000 [1000, 60999, 61000] :=
  (memoryRateLimit_fixedWindow 1 60000 (by decide) "a").1

end Tonatiuh.Http
