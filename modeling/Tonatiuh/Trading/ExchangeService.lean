import Tonatiuh.Async.Refinement
import Tonatiuh.Trading.Environment

/-! `ExchangeService`: its methods as programs over the calls of ccxt.

The other modules meet the exchange at the level of `IExchangeService`. Here the orders of a symbol
are cancelled in several calls where the exchange has none for all of them, reads are repeated, and
a balance is kept for ten seconds. `implement` puts these programs in the place of the requests, and
nothing more can happen then. -/

namespace Tonatiuh.Trading

open Async

/-! ## Calls -/

/-- What a promise of ccxt is rejected with. `isError` is `error instanceof Error`. -/
structure CcxtError where
  isError : Bool := true
  name : String := "Error"
  code : Option String := none
  message : String
  deriving DecidableEq, Repr

/-- `cancelOrders` is `Promise.allSettled` over `cancelOrder`. `call` is the one call that answers
the request, such as `fetchOrder`, or a request to the database or a timer. `now` is `Date.now()`,
which is no await. -/
inductive Call where
  | cancelAllOrders
  | fetchOpenOrders
  | cancelOrders (ids : List OrderId)
  | setTimeout (ms : Nat)
  | now
  | call (r : Request)
  deriving DecidableEq, Repr

@[reducible] def Call.Answer : Call → Type
  | .fetchOpenOrders => List OrderId
  | .now => Nat
  | .call r => r.Answer
  | _ => Unit

def ccxt : Api := ⟨Call, Call.Answer⟩

structure CachedBalance where
  value : Balances
  expiresAt : Nat
  deriving DecidableEq, Repr

/-- The programs of the service. Their memory is `_balanceCache`. -/
abbrev ServiceProg := Program ccxt (Option CachedBalance) CcxtError

namespace ExchangeService

abbrev send (c : Call) : ServiceProg c.Answer := Program.request (A := ccxt) c

/-! ## Reads -/

def transientNames : List String :=
  ["DDoSProtection", "ExchangeNotAvailable", "NetworkError", "RateLimitExceeded", "RequestTimeout"]

def transientCodes : List String := ["ECONNRESET", "ECONNREFUSED", "ETIMEDOUT", "EAI_AGAIN"]

def isTransientExchangeError (error : CcxtError) : Bool :=
  error.isError && (error.name ∈ transientNames || error.code.getD "" ∈ transientCodes)

def retryDelay (attempt : Nat) : Nat := min (1000 * 2 ^ (attempt - 1)) 10000

/-- The loop of `_readWithRetry`, over the attempts that are left. -/
def readAttempts (read : ServiceProg α) (lastError : CcxtError) : List Nat → ServiceProg α
  | [] => throw lastError
  | attempt :: rest =>
    read.tryCatch fun error =>
      if !isTransientExchangeError error || attempt = 5 then throw error
      else do
        send (.setTimeout (retryDelay attempt))
        readAttempts read error rest

def undefinedError : CcxtError where
  isError := false
  name := ""
  message := "undefined"

/-- `_readWithRetry`. -/
def readWithRetry (r : Request) : ServiceProg r.Answer :=
  readAttempts (send (.call r)) undefinedError [1, 2, 3, 4, 5]

def fetchBalance : ServiceProg Balances := do
  let value ← readWithRetry .getBalance
  let now ← send .now
  set (some { value, expiresAt := now + 10000 : CachedBalance })
  return value

def getBalance : ServiceProg Balances := do
  match ← get with
  | none => fetchBalance
  | some cache =>
    let now ← send .now
    if now < cache.expiresAt then return cache.value else fetchBalance

/-! ## Cancellation -/

def unableToCancel (symbol : String) (remainingOrders : List OrderId) : CcxtError where
  message := "Unable to cancel open orders for " ++ symbol ++ ": " ++
    ", ".intercalate (remainingOrders.map toString)

/-- The `catch` of `cancelAllOrders`. -/
def cancelSeparately (symbol : String) (bulkCancelError : CcxtError) : ServiceProg Unit := do
  let openOrders ← (send .fetchOpenOrders).tryCatch fun _ => throw bulkCancelError
  if openOrders = [] then return ()
  else
    send (.cancelOrders openOrders)
    let remainingOrders ← send .fetchOpenOrders
    if remainingOrders = [] then return () else throw (unableToCancel symbol remainingOrders)

def cancelAllOrders (symbol : String) : ServiceProg Unit :=
  (send .cancelAllOrders).tryCatch (cancelSeparately symbol)

/-- The method that a request stands for. -/
def method (symbol : String) : (r : Request) → ServiceProg r.Answer
  | .cancelAllOrders => cancelAllOrders symbol
  | .checkStatusOrderById id => readWithRetry (.checkStatusOrderById id)
  | .getTick => readWithRetry .getTick
  | .getBalance => getBalance
  | r => send (.call r)

end ExchangeService

/-! ## The exchange -/

def Exchange.openOrders (x : Exchange) : List OrderId :=
  (List.range x.length).filter fun id => x[id]?.any fun o => o.status = .opened

/-- The reads of the exchange. -/
def Request.isRead : Request → Bool
  | .checkStatusOrderById _ | .getTick | .fetchOHLCV | .getBalance => true
  | _ => false

/-- How a call is answered, or a move of the exchange. -/
inductive Reply where
  | served (outcome : Outcome)
  | failed (error : CcxtError)
  | done
  | openOrders
  | time (now : Nat)
  | exchange (e : ExchangeEvent)

/-- An error that is thrown by the code itself. -/
def CcxtError.ofMessage (message : String) : CcxtError := { message }

/-- Serve a call. The orders that are cancelled one by one, and those that a call cancels before it
fails, are cancelled in moves of the exchange. The list of open orders is complete. -/
def serveCall (w : World) : (c : Call) → Reply → Option (Except CcxtError c.Answer × World)
  | .cancelAllOrders, .done => some (.ok (), { w with exchange := w.exchange.cancelAll })
  | .cancelAllOrders, .failed error => some (.error error, w)
  | .fetchOpenOrders, .openOrders => some (.ok w.exchange.openOrders, w)
  | .fetchOpenOrders, .failed error => some (.error error, w)
  | .cancelOrders _, .done => some (.ok (), w)
  | .setTimeout _, .done => some (.ok (), w)
  | .now, .time now => some (.ok now, w)
  | .call r, .served outcome =>
    if r = .cancelAllOrders then none
    else (serve w r outcome).map fun (x, w') => (x.mapError .ofMessage, w')
  | .call r, .failed error => if r.isRead then some (.error error, w) else none
  | _, _ => none

def ccxtEnvironment : Environment ccxt World CcxtError Reply where
  serve := serveCall
  move w
    | .exchange e => (w.exchange.event e).map fun x => { w with exchange := x }
    | _ => none

/-- The program over `ExchangeService`. -/
def Prog.overService (symbol : String) (p : Prog α) :
    Program ccxt (Memory × Option CachedBalance) CcxtError α :=
  p.implement (ExchangeService.method symbol) CcxtError.message .ofMessage

end Tonatiuh.Trading
