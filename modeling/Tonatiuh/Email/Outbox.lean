import Mathlib.Algebra.Group.Nat.Defs
import Tonatiuh.Text.Delimited

/-! The outbox of email.

These are `claim` and `send` of `email/worker.ts`, `POST /provider-events` of `email/router.ts`, and
the retry of a dead letter of `admin/router.ts`. Any number of workers run, and stop at any point.
The rows that `claim` changes are locked until the end of its transaction, and skipped by others, so
it is one step, as is the transaction of an event of the provider. The other queries of a worker are
steps of their own. Messages are numbered in the order in which they are queued, and an address
stands for its hash. -/

namespace Tonatiuh.Email

abbrev MessageId := Nat

abbrev Recipient := Nat

inductive Status where
  | pending | processing | sent | delivered | bounced | suppressed | deadLetter
  deriving DecidableEq, Repr

/-- A row of `email_outbox`. Moments are in seconds. `retries` are the retries of an administrator,
and `handoffs` are the calls of `sendMail` since the last of them. -/
structure Message where
  recipient : Recipient
  status : Status := .pending
  attempts : Nat := 0
  nextAttemptAt : Nat
  lastAttemptAt : Option Nat := none
  lastError : Option String := none
  providerMessageId : Option String := none
  sentAt : Option Nat := none
  deliveredAt : Option Nat := none
  bouncedAt : Option Nat := none
  retries : Nat := 0
  handoffs : Nat := 0
  deriving DecidableEq, Repr

namespace Message

/-- `interval '15 minutes'`. -/
def stalled : Nat := 15 * 60

def recover (now : Nat) (message : Message) : Message :=
  if message.status = .processing && message.lastAttemptAt.any (· + stalled < now) then
    { message with
      status := .pending
      nextAttemptAt := now
      lastError := some "Recovered after interrupted delivery." }
  else message

def claim (now : Nat) (message : Message) : Message :=
  { message with
    status := .processing
    attempts := message.attempts + 1
    lastAttemptAt := some now }

def suppress (message : Message) : Message :=
  { message with status := .suppressed, lastError := some "Recipient is suppressed." }

def handOver (message : Message) : Message := { message with handoffs := message.handoffs + 1 }

def send (now : Nat) (messageId : String) (message : Message) : Message :=
  { message with
    status := .sent
    sentAt := some now
    providerMessageId := some messageId
    lastError := none }

/-- The `UPDATE` of the `catch` block. `attempt` is computed from the row that was claimed. -/
def fail (now attempt : Nat) (error : String) (message : Message) : Message :=
  { message with
    status := if 8 ≤ attempt then .deadLetter else .pending
    nextAttemptAt := now + min 3600 (30 * 2 ^ attempt)
    lastError := some (String.ofList (Text.slice 1000 error.toList)) }

def deliver (now : Nat) (message : Message) : Message :=
  if message.status = .sent then { message with status := .delivered, deliveredAt := some now }
  else message

def bounce (now : Nat) (message : Message) : Message :=
  { message with status := .bounced, bouncedAt := some now }

def retry (now : Nat) (message : Message) : Message :=
  { message with
    status := .pending
    attempts := 0
    nextAttemptAt := now
    lastError := none
    retries := message.retries + 1
    handoffs := 0 }

end Message

/-! ## Deliveries -/

/-- What a worker does next with the message that it has claimed. -/
inductive Stage where
  | selectSuppression
  | suppress
  /-- The payload is decrypted and the content rendered, and `sendMail` is called. -/
  | render
  | sending
  | recordSent (messageId : String)
  | recordError (error : String)
  | ended
  deriving DecidableEq, Repr

/-- `attempts` are those of the row before it was claimed. `retries` are its retries then. -/
structure Delivery where
  id : MessageId
  attempts : Nat
  retries : Nat
  stage : Stage := .selectSuppression
  deriving DecidableEq, Repr

inductive EmailEvent where
  | delivered | hardBounce | complaint
  deriving DecidableEq, Repr

structure System where
  outbox : List Message := []
  deliveries : List Delivery := []
  suppressions : List Recipient := []
  providerEvents : List String := []
  now : Nat := 0

namespace System

/-- `claim` of a worker. The row that it finds is any that is due, as the oldest ones may be
locked. -/
def claim (s : System) (id? : Option MessageId) : Option System :=
  let outbox := s.outbox.map (·.recover s.now)
  match id? with
  | none => some { s with outbox }
  | some id =>
    match outbox[id]?.filter fun message =>
        message.status = .pending && message.nextAttemptAt ≤ s.now with
    | none => none
    | some message => some { s with
        outbox := outbox.modify id (·.claim s.now)
        deliveries := s.deliveries ++
          [{ id, attempts := message.attempts, retries := message.retries }] }

def setStage (s : System) (i : Nat) (d : Delivery) (stage : Stage) : System :=
  { s with deliveries := s.deliveries.set i { d with stage } }

def update (s : System) (id : MessageId) (f : Message → Message) : System :=
  { s with outbox := s.outbox.modify id f }

/-- The next query of delivery `i`, or the call of `sendMail`. -/
def run (s : System) (i : Nat) : Option System := do
  let d ← s.deliveries[i]?
  match d.stage with
  | .selectSuppression =>
    let message ← s.outbox[d.id]?
    s.setStage i d (if message.recipient ∈ s.suppressions then .suppress else .render)
  | .suppress => (s.update d.id (·.suppress)).setStage i d .ended
  | .render => (s.update d.id (·.handOver)).setStage i d .sending
  | .recordSent messageId =>
    if (s.outbox.eraseIdx d.id).any fun message => message.providerMessageId = some messageId then
      s.setStage i d (.recordError ("duplicate key value violates unique constraint " ++
        "\"email_outbox_provider_message_idx\""))
    else (s.update d.id (·.send s.now messageId)).setStage i d .ended
  | .recordError error => (s.update d.id (·.fail s.now (d.attempts + 1) error)).setStage i d .ended
  | .sending | .ended => none

/-- What `sendMail` answers. -/
def answer (s : System) (i : Nat) (result : Except String String) : Option System := do
  let d ← s.deliveries[i]?
  if d.stage = .sending then
    s.setStage i d (match result with
      | .ok messageId => .recordSent messageId
      | .error error => .recordError error)
  else none

/-- A step of the `try` block fails. -/
def throw (s : System) (i : Nat) (error : String) : Option System := do
  let d ← s.deliveries[i]?
  match d.stage with
  | .selectSuppression | .suppress | .render | .recordSent _ => s.setStage i d (.recordError error)
  | .sending | .recordError _ | .ended => none

/-- The worker stops, which is also what a failed query in the `catch` block leads to. -/
def crash (s : System) (i : Nat) : Option System := do
  let d ← s.deliveries[i]?
  s.setStage i d .ended

/-- `POST /provider-events`, for a request that is authorized and valid. -/
def providerEvent (s : System) (eventId messageId : String) (type : EmailEvent) : System :=
  if eventId ∈ s.providerEvents then s
  else
    let s := { s with providerEvents := eventId :: s.providerEvents }
    match s.outbox.findIdx? fun message => message.providerMessageId = some messageId with
    | none => s
    | some id =>
      match type with
      | .delivered => s.update id (·.deliver s.now)
      | .hardBounce | .complaint =>
        { s.update id (·.bounce s.now) with
          suppressions := (s.outbox[id]?.map (·.recipient)).toList ++ s.suppressions }

/-- `POST /email/dead-letters/:id/retry`. -/
def retry (s : System) (id : MessageId) : Option System :=
  if s.outbox[id]?.any fun message => message.status = .deadLetter then
    some (s.update id (·.retry s.now))
  else none

end System

/-! ## Steps -/

inductive Event where
  | enqueue (recipient : Recipient)
  | claim (id? : Option MessageId)
  | run (i : Nat)
  | answer (i : Nat) (result : Except String String)
  | throw (i : Nat) (error : String)
  | crash (i : Nat)
  | providerEvent (eventId messageId : String) (type : EmailEvent)
  | retry (id : MessageId)
  | wait (seconds : Nat)

def System.step (s : System) : Event → Option System
  | .enqueue recipient =>
    some { s with outbox := s.outbox ++ [{ recipient, nextAttemptAt := s.now }] }
  | .claim id? => s.claim id?
  | .run i => s.run i
  | .answer i result => s.answer i result
  | .throw i error => s.throw i error
  | .crash i => s.crash i
  | .providerEvent eventId messageId type => some (s.providerEvent eventId messageId type)
  | .retry id => s.retry id
  | .wait seconds => some { s with now := s.now + seconds }

end Tonatiuh.Email
