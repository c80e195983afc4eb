import OptionsBot.Core.RateLimit
import OptionsBot.Lib.JsonText
import OptionsBot.Lib.Percent

/-!
# REST Calls

One call of the REST client, from the endpoint that makes it to the envelope that it
returns. Of a call the path, the parameters and the payload are texts before the first
attempt, and every attempt sends the same ones. A private call is signed anew for each
attempt, as its time is part of what is signed.

An attempt can be retried if nothing came back, if the exchange is overloaded, or if it
failed on its side. Whether it is retried is for the retry library to say, which is a
parameter. Of what it is set up with, two things are relied on: it stops with the last
attempt it is allowed, and it retries no other exception than the one it is told to. How
long it pauses does not matter here.

The exchange is a script: what comes back on the first attempt, the second, and so on.
The signature of a text and the clock come from outside too, and so do the text of a float
and what Python shows for a value.

## Main definitions

* `RequestSigner`: The two parts of an API key.
* `RequestSigner.sign`, `RequestSigner.headers`: The signature of a request.
* `RestCall`: A call of `_request`.
* `HttpRequest`, `HttpReply`: What is sent, and what comes back.
* `DeltaRestError`: The exception of a call, with what it says about the reply.
* `AsyncRetrying`: The retry library, as the client sets it up.
* `RestCall.judge`: What a call makes of a reply.
* `RestCall.request`: A call with all its attempts.
* `PrivateCall`: The calls of the private endpoints.
-/

namespace OptionsBot

/-- The API key. -/
structure RequestSigner where
  apiKey : String
  apiSecret : String

namespace RequestSigner

def configured (self : RequestSigner) : Bool :=
  decide (self.apiKey ≠ "") && decide (self.apiSecret ≠ "")

/-- `now_timestamp`: the seconds since the epoch, without their fraction. -/
def nowTimestamp (now : ℚ) : String := toString (truncate now)

/-- `text.upper()`, on ASCII letters. -/
def upper (text : String) : String := String.ofList (text.toList.map Char.toUpper)

/-- What is signed. -/
def message (method ts path queryString body : String) : String :=
  upper method ++ ts ++ path ++ queryString ++ body

variable (hmac : ByteArray → ByteArray → String)

/-- `sign`, without a timestamp of the caller's. -/
def sign (self : RequestSigner) (method path queryString body : String) (now : ℚ) :
    Except String (String × String) :=
  if self.configured then
    let ts := nowTimestamp now
    .ok (ts, hmac self.apiSecret.toUTF8 (message method ts path queryString body).toUTF8)
  else .error "RequestSigner has no api_key/api_secret configured"

def headers (self : RequestSigner) (method path queryString body : String) (now : ℚ) :
    Except String (List (String × String)) := do
  let (ts, signature) ← self.sign hmac method path queryString body now
  .ok [("api-key", self.apiKey), ("timestamp", ts), ("signature", signature)]

end RequestSigner

/-- What is sent. -/
structure HttpRequest where
  method : String
  url : String
  content : Option String
  headers : List (String × String)
  deriving DecidableEq

/-- What comes back: a failure of the transport, any other exception of the HTTP client, or a
    response, whose text is JSON or raises when it is read. -/
inductive HttpReply where
  | transportError (message : String)
  | raised (error : String)
  | response (statusCode : Nat) (text : String) (json : Except String JsonTree)

/-- `DeltaRestError`, and with `retryable` its subclass `_RetryableRestError`. -/
structure DeltaRestError where
  message : String
  statusCode : Option Nat := none
  body : Option JsonTree := none
  endpoint : String
  retryable : Bool := false

/-- What a call raises: the signer's exception, its own, or one of the HTTP client. -/
inductive RequestError where
  | runtimeError (message : String)
  | deltaRestError (error : DeltaRestError)
  | other (error : String)

/-- The exception is a `_RetryableRestError`. -/
def RequestError.retryable : RequestError → Bool
  | .deltaRestError error => error.retryable
  | _ => false

/-- The retry library with the client's settings: whether another attempt follows one that has
    raised. Behind the last attempt that is allowed none does (`stop_after_attempt`), and behind
    another exception than `_RetryableRestError` neither (`retry_if_exception_type`). -/
structure AsyncRetrying (maxAttempts : Int) where
  again : Nat → RequestError → Bool
  stops : ∀ (attempt : Nat) e, maxAttempts ≤ attempt → again attempt e = false
  retries : ∀ attempt e, again attempt e = true → e.retryable = true

/-- `type(value).__name__`. -/
def JsonTree.typeName : JsonTree → String
  | .null => "NoneType"
  | .flag _ => "bool"
  | .integer _ => "int"
  | .real _ => "float"
  | .text _ => "str"
  | .array _ => "list"
  | .object _ => "dict"

/-- A call of `_request`. -/
structure RestCall where
  method : String
  path : String
  params : List (String × String) := []
  json : Option JsonFields := none
  signed : Bool := false
  isOrder : Bool := false

/-- What a call meets. The attempts are numbered from one. -/
structure RestScript where
  reply : Nat → HttpReply
  now : Nat → ℚ

/-- What a call has done, and what it returns or raises. -/
structure RequestRun where
  sent : List HttpRequest
  result : Except RequestError JsonFields

/-- The client, as far as one call uses it. -/
structure RestCaller where
  signer : RequestSigner
  maxAttempts : Int := 4
  retrying : AsyncRetrying maxAttempts
  hmac : ByteArray → ByteArray → String
  floats : FloatText
  shown : JsonTree → String

namespace RestCall

/-- The first 512 letters of a reply. -/
def excerpt (text : String) : String := String.ofList (text.toList.take 512)

def body (floats : FloatText) (self : RestCall) : String :=
  match self.json with
  | none => ""
  | some fields => String.ofList (JsonText.dumps floats (.object fields))

def queryString (self : RestCall) : String :=
  if self.params = [] then "" else "?" ++ String.ofList (Percent.urlencode self.params)

/-- What is sent, at a given time. -/
def prepare (caller : RestCaller) (self : RestCall) (now : ℚ) : Except String HttpRequest := do
  let body := self.body caller.floats
  let headers ←
    if self.signed then
      caller.signer.headers caller.hmac self.method self.path self.queryString body now
    else .ok []
  .ok
    { method := self.method
      url := self.path ++ self.queryString
      content := if body = "" then none else some body
      headers := if body = "" then headers else headers ++ [("Content-Type", "application/json")] }

/-- What a call makes of a response. -/
def judgeResponse (shown : JsonTree → String) (self : RestCall) (statusCode : Nat) (text : String)
    (json : Except String JsonTree) : Except DeltaRestError JsonFields :=
  if statusCode = 429 ∨ (500 ≤ statusCode ∧ statusCode < 600) then
    .error
      { message := s!"retryable status {statusCode} on {self.method} {self.path}"
        statusCode := some statusCode
        body := some (.text (excerpt text))
        endpoint := self.path
        retryable := true }
  else if 400 ≤ statusCode then
    .error
      { message := s!"{statusCode} on {self.method} {self.path}: {excerpt text}"
        statusCode := some statusCode
        body := some (.text text)
        endpoint := self.path }
  else
    match json with
    | .error e =>
      .error
        { message := s!"invalid JSON on {self.method} {self.path}: {e}"
          statusCode := some statusCode
          endpoint := self.path }
    | .ok (.object fields) =>
      match JsonFields.get fields "success" with
      | .flag false =>
        let err := (JsonFields.get fields "error").or (.object [])
        .error
          { message := s!"delta error on {self.method} {self.path}: {shown err}"
            statusCode := some statusCode
            body := some (.object fields)
            endpoint := self.path }
      | _ => .ok fields
    | .ok envelope =>
      .error
        { message :=
            s!"unexpected envelope type on {self.method} {self.path}: {envelope.typeName}"
          endpoint := self.path }

/-- What a call makes of what comes back. Only a failure of the transport is turned into an
    exception of its own, any other passes through. -/
def judge (shown : JsonTree → String) (self : RestCall) :
    HttpReply → Except RequestError JsonFields
  | .transportError message =>
    .error (.deltaRestError
      { message := s!"transport error on {self.method} {self.path}: {message}"
        endpoint := self.path
        retryable := true })
  | .raised error => .error (.other error)
  | .response statusCode text json =>
    (self.judgeResponse shown statusCode text json).mapError .deltaRestError

/-- One attempt: what it sends, and what comes of it. -/
def attempt (caller : RestCaller) (script : RestScript) (self : RestCall) (n : Nat) :
    List HttpRequest × Except RequestError JsonFields :=
  match self.prepare caller (script.now n) with
  | .error message => ([], .error (.runtimeError message))
  | .ok request => ([request], self.judge caller.shown (script.reply n))

/-- The attempts from one on. What the last of them raises is raised again. -/
def attemptFrom (caller : RestCaller) (script : RestScript) (self : RestCall) (n : Nat) :
    RequestRun :=
  let tried := self.attempt caller script n
  match tried.2 with
  | .ok envelope => { sent := tried.1, result := .ok envelope }
  | .error e =>
    if hagain : caller.retrying.again n e = true then
      let rest := self.attemptFrom caller script (n + 1)
      { rest with sent := tried.1 ++ rest.sent }
    else { sent := tried.1, result := .error e }
termination_by (caller.maxAttempts - n).toNat
decreasing_by
  have hless : ¬ caller.maxAttempts ≤ n := fun hstop => by
    rw [caller.retrying.stops n e hstop] at hagain
    cases hagain
  omega

/-- `_request`. -/
def request (caller : RestCaller) (script : RestScript) (self : RestCall) : RequestRun :=
  self.attemptFrom caller script 1

end RestCall

/-- The calls of the private endpoints. -/
inductive PrivateCall where
  | getWalletBalances
  | getPositions
  | getOpenOrders
  | getOrderByClientId (clientOrderId : String)
  | placeOrder (payload : JsonFields)
  | cancelOrder (orderId : Option Int) (clientOrderId : Option String) (productId : Option Int)
  | cancelAllOrders (productId : Option Int)

namespace PrivateCall

/-- A field of a payload, if there is a value for it. -/
def optional {α : Type} (key : String) (value : Option α) (wrap : α → JsonTree) : JsonFields :=
  match value with
  | none => []
  | some v => [(key, wrap v)]

/-- What an endpoint asks `_request` for. -/
def restCall : PrivateCall → Except PyError RestCall
  | .getWalletBalances => .ok { method := "GET", path := "/v2/wallet/balances", signed := true }
  | .getPositions => .ok { method := "GET", path := "/v2/positions/margined", signed := true }
  | .getOpenOrders =>
    .ok { method := "GET", path := "/v2/orders", params := [("state", "open")], signed := true }
  | .getOrderByClientId clientOrderId =>
    .ok
      { method := "GET", path := "/v2/orders", params := [("client_order_id", clientOrderId)],
        signed := true }
  | .placeOrder payload =>
    .ok
      { method := "POST", path := "/v2/orders", json := some payload, signed := true,
        isOrder := true }
  | .cancelOrder none none _ =>
    .error (.valueError "cancel_order requires order_id or client_order_id")
  | .cancelOrder orderId clientOrderId productId =>
    .ok
      { method := "DELETE", path := "/v2/orders",
        json := some (optional "id" orderId .integer ++
          optional "client_order_id" clientOrderId .text ++
          optional "product_id" productId .integer),
        signed := true, isOrder := true }
  | .cancelAllOrders productId =>
    .ok
      { method := "DELETE", path := "/v2/orders/all",
        json := some (optional "product_id" productId .integer), signed := true, isOrder := true }

end PrivateCall

end OptionsBot
