import OptionsBot.Core.RateLimit

/-!
# REST Client

The requests of the exchange client, as far as its two rate limiters see them.

A call of `_request` makes one attempt after the other. Each asks the bucket of its kind
for one token, sends the request once it has it, and once it is answered the call is over
or pauses before the next. The calls are tasks of one event loop, so any number of them
are under way at a time, each at another point. What is sent to the exchange is what the
buckets have granted.

The pauses and the answers come from outside and are left open, and so is how often and
after which answers the retry library starts another attempt.

## Main definitions

* `RateSettings`: The two rates of the settings.
* `DeltaRestClient`: The two limiters, and the calls under way.
* `DeltaRestClient.make`: A client by its settings.
* `DeltaRestClient.startAttempt`: An attempt asks for its token.
* `DeltaRestClient.step`: What the loop does next.
-/

namespace OptionsBot

/-- The rates of the settings, in requests a second. -/
structure RateSettings where
  deltaRestRps : Nat := 10
  deltaOrderRps : Nat := 5
  rest_ge : 1 ≤ deltaRestRps
  order_ge : 1 ≤ deltaOrderRps

/-- The rate for orders, or for everything else. -/
def RateSettings.rps (self : RateSettings) (isOrder : Bool) : Nat :=
  if isOrder then self.deltaOrderRps else self.deltaRestRps

/-- Where a call is: waiting for its token, waiting for the answer, or pausing before
    another attempt. A call that is over has returned or raised for good. -/
inductive RequestState where
  | acquiring
  | sent
  | pausing
  | over
  deriving DecidableEq, Repr

/-- A call of `_request`. -/
structure RestRequest where
  isOrder : Bool
  state : RequestState
  deriving DecidableEq, Repr

structure DeltaRestClient where
  general : Limiter
  order : Limiter
  requests : List RestRequest := []

/-- What the event loop does. A call is known by its place in the list of calls, and its
    attempt is answered with another one to follow or without. -/
inductive RestAct where
  | request (isOrder : Bool)
  | wake (isOrder : Bool)
  | enter (isOrder : Bool)
  | answer (task : Nat) (again : Bool)
  | retry (task : Nat)
  deriving DecidableEq, Repr

/-- What it does, and the time. -/
structure RestEvent where
  act : RestAct
  now : ℚ
  deriving DecidableEq, Repr

namespace DeltaRestClient

/-- `__init__`, without buckets of the caller's. -/
def make (settings : RateSettings) (now : ℚ) : Except PyError DeltaRestClient := do
  let capacityGeneral : ℚ := (max 1 (settings.deltaRestRps * 10) : Nat)
  let capacityOrder : ℚ := (max 1 (settings.deltaOrderRps * 10) : Nat)
  let general ← TokenBucket.make settings.deltaRestRps (some capacityGeneral) now
  let order ← TokenBucket.make settings.deltaOrderRps (some capacityOrder) now
  .ok { general := Limiter.idle general, order := Limiter.idle order }

def limiter (self : DeltaRestClient) (isOrder : Bool) : Limiter :=
  if isOrder then self.order else self.general

def setRequest (self : DeltaRestClient) (task : Nat) (f : RestRequest → RestRequest) :
    DeltaRestClient :=
  { self with requests := self.requests.modify task f }

def setLimiter (self : DeltaRestClient) (isOrder : Bool) (after : Limiter) : DeltaRestClient :=
  if isOrder then { self with order := after } else { self with general := after }

/-- A limiter goes on. The calls that it has granted their token send their request. -/
def advance (self : DeltaRestClient) (isOrder : Bool) (after : Limiter) : DeltaRestClient :=
  let tasks := (after.granted.drop (self.limiter isOrder).granted.length).map Grant.task
  tasks.foldl (fun client task => client.setRequest task (fun r => { r with state := .sent }))
    (self.setLimiter isOrder after)

/-- An attempt asks for its token. If that raises, the call is over. -/
def startAttempt (self : DeltaRestClient) (task : Nat) (isOrder : Bool) (now : ℚ) :
    DeltaRestClient :=
  match (self.limiter isOrder).acquire task 1 now with
  | .ok after => self.advance isOrder after
  | .error _ => self.setRequest task (fun r => { r with state := .over })

/-- What the loop does next. An answer to a call that has sent nothing is none, and a
    call that does not pause is not retried. -/
def step (self : DeltaRestClient) (e : RestEvent) : DeltaRestClient :=
  match e.act with
  | .request isOrder =>
    let called : DeltaRestClient :=
      { self with
        requests := self.requests ++ [{ isOrder := isOrder, state := .acquiring }] }
    called.startAttempt self.requests.length isOrder e.now
  | .wake isOrder => self.advance isOrder ((self.limiter isOrder).wake e.now)
  | .enter isOrder => self.advance isOrder ((self.limiter isOrder).enter e.now)
  | .answer task again =>
    self.setRequest task (fun r =>
      if r.state = .sent then { r with state := if again then .pausing else .over } else r)
  | .retry task =>
    match self.requests[task]? with
    | some r =>
      if r.state = .pausing then
        (self.setRequest task (fun r => { r with state := .acquiring })).startAttempt task
          r.isOrder e.now
      else self
    | none => self

end DeltaRestClient

end OptionsBot
