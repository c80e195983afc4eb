import OptionsBot.Core.RestCall

/-!
# Signed Calls

What the exchange can rely on when it checks a signature, and what the desk can rely on
when a call comes back.

A signature is made of one text, in which the method, the time, the path, the query and
the body follow each other with nothing between them. Each of them ends where its letters
do, so the text says where it was put together: two private calls of one text are one call,
made within one second. A signature for one order is none for another.

A call sends what it sends once, or again behind a reply that settles nothing, for as long
as the retry library has it. Whatever the library decides, what the call returns or raises
is what it makes of the last reply, and each request is signed for exactly what is on the
wire. Without its key a call sends nothing at all.

## Main definitions

* `RestCall.signedMessage`: What is signed for a call, at a time.
* `HttpReply.Unsettled`: A reply that settles nothing.
* `Attempted`: What a call with several attempts does.
* `HttpRequest.Sealed`: A request with its own signature.

## Theorems

* `signedMessage_inj`: The parts of a call from what is signed.
* `signature_names_call`: Private calls of one text.
* `judge_retryable`: After which replies there can be another attempt.
* `request_attempts`: The attempts of a call.
-/

namespace OptionsBot

section Messages

/-- What is signed for a call. -/
def RestCall.signedMessage (floats : FloatText) (call : RestCall) (now : ℚ) : String :=
  RequestSigner.message call.method (RequestSigner.nowTimestamp now) call.path call.queryString
    (call.body floats)

/-- The method and the path of a private call: words of their own letters. -/
structure RestCall.Plain (call : RestCall) : Prop where
  upper : RequestSigner.upper call.method = call.method
  method : ∀ c ∈ call.method.toList, c.isUpper = true
  path : ∀ c ∈ call.path.toList, c.isAlphanum = true ∨ c = '/'
  rooted : call.path.toList.head? = some '/'

variable (floats : FloatText)

theorem queryString_toList (call : RestCall) : call.queryString.toList = [] ∨
    call.queryString.toList = '?' :: Percent.urlencode call.params := by
  unfold RestCall.queryString
  split_ifs
  · exact Or.inl rfl
  · exact Or.inr (by simp [String.toList_append])

/-- A query has no brace. -/
theorem mem_queryString (call : RestCall) (c : Char) (hc : c ∈ call.queryString.toList) :
    c ≠ Char.ofNat 123 := by
  rintro rfl
  rcases queryString_toList call with h | h
  · rw [h] at hc
    cases hc
  · rw [h, List.mem_cons] at hc
    rcases hc with hc | hc
    · exact absurd hc (by decide)
    · rcases Percent.mem_urlencode _ _ hc with hquoted | heq | heq
      · exact absurd hquoted (by unfold Percent.IsQuoted; decide)
      · exact absurd heq (by decide)
      · exact absurd heq (by decide)

theorem queryString_inj (call call' : RestCall)
    (h : call.queryString.toList = call'.queryString.toList) : call.params = call'.params := by
  unfold RestCall.queryString at h
  by_cases hp : call.params = []
  · by_cases hp' : call'.params = []
    · rw [hp, hp']
    · rw [if_pos hp, if_neg hp', String.toList_append] at h
      exact absurd h (by simp)
  · by_cases hp' : call'.params = []
    · rw [if_neg hp, if_pos hp', String.toList_append] at h
      exact absurd h (by simp)
    · rw [if_neg hp, if_neg hp', String.toList_append, String.toList_append] at h
      have hquery := List.append_cancel_left h
      simp only [String.toList_ofList] at hquery
      exact Percent.urlencode_injective _ _ hquery

theorem body_toList (call : RestCall) : (call.json = none ∧ (call.body floats).toList = []) ∨
    ∃ fields rest, call.json = some fields ∧
      (call.body floats).toList = JsonText.dumps floats (.object fields) ∧
      (call.body floats).toList = Char.ofNat 123 :: rest := by
  unfold RestCall.body
  rcases call.json with _ | fields
  · exact Or.inl ⟨rfl, rfl⟩
  · rcases JsonText.dumps_leads floats (.object fields) with ⟨c, rest, hdumps, hc⟩
    refine Or.inr ⟨fields, rest, rfl, String.toList_ofList, ?_⟩
    simp only
    rw [String.toList_ofList, hdumps]
    exact congrArg (· :: rest) hc

theorem body_inj (call call' : RestCall)
    (h : (call.body floats).toList = (call'.body floats).toList) : call.json = call'.json := by
  rcases body_toList floats call with ⟨hj, hb⟩ | ⟨fields, rest, hj, hd, hb⟩ <;>
    rcases body_toList floats call' with ⟨hj', hb'⟩ | ⟨fields', rest', hj', hd', hb'⟩
  · rw [hj, hj']
  · rw [hb, hb'] at h
    cases h
  · rw [hb, hb'] at h
    cases h
  · rw [hd, hd'] at h
    have hobject := JsonText.dumps_injective floats _ _ h
    rw [hj, hj', JsonTree.object.inj hobject]

theorem body_stops (kind : Char → Prop) (hkind : ¬ kind (Char.ofNat 123)) (call : RestCall) :
    Text.Stops kind (call.body floats).toList := by
  rcases body_toList floats call with ⟨-, hb⟩ | ⟨fields, rest, -, -, hb⟩
  · rw [hb]
    exact Text.stops_nil kind
  · rw [hb]
    exact Text.stops_cons kind _ rest hkind

theorem query_stops (kind : Char → Prop) (hkind : ¬ kind (Char.ofNat 123)) (hmark : ¬ kind '?')
    (call : RestCall) :
    Text.Stops kind (call.queryString.toList ++ (call.body floats).toList) := by
  rcases queryString_toList call with h | h
  · rw [h, List.nil_append]
    exact body_stops floats kind hkind call
  · rw [h, List.cons_append]
    exact Text.stops_cons kind _ _ hmark

/-- A time is digits, with a sign before the epoch. -/
def IsStamp (c : Char) : Prop := c.isDigit = true ∨ c = '-'

theorem signedMessage_toList (call : RestCall) (hplain : call.Plain) (now : ℚ) :
    (call.signedMessage floats now).toList = call.method.toList ++
      ((toString (truncate now)).toList ++
        (call.path.toList ++ (call.queryString.toList ++ (call.body floats).toList))) := by
  simp only [RestCall.signedMessage, RequestSigner.message, RequestSigner.nowTimestamp,
    hplain.upper, String.toList_append, List.append_assoc]

/-- What is signed says what it was put together from. -/
theorem signedMessage_inj (call call' : RestCall) (now now' : ℚ) (hplain : call.Plain)
    (hplain' : call'.Plain)
    (h : call.signedMessage floats now = call'.signedMessage floats now') :
    call.method = call'.method ∧ truncate now = truncate now' ∧ call.path = call'.path ∧
      call.params = call'.params ∧ call.json = call'.json := by
  have htext := congrArg String.toList h
  rw [signedMessage_toList floats call hplain, signedMessage_toList floats call' hplain'] at htext
  -- The method ends before the first digit or sign of the time.
  have hmethod : ∀ (n : Int) (t : List Char),
      Text.Stops (fun c => c.isUpper = true) ((toString n).toList ++ t) := by
    intro n t
    rcases JsonText.intText_leads n with ⟨c, rest, hc, hlead⟩
    rw [hc, List.cons_append]
    refine Text.stops_cons _ c _ fun hupper => ?_
    rcases hlead with hdigit | rfl
    · have hupper : 'A'.val ≤ c.val ∧ c.val ≤ 'Z'.val := of_decide_eq_true hupper
      rw [UInt32.le_iff_toNat_le, UInt32.le_iff_toNat_le] at hupper
      simp only [Char.isDigit, Bool.and_eq_true, decide_eq_true_eq, ge_iff_le,
        UInt32.le_iff_toNat_le] at hdigit
      have h1 : '9'.val.toNat = 57 := rfl
      have h2 : 'A'.val.toNat = 65 := rfl
      omega
    · exact absurd hupper (by decide)
  rcases Text.append_inj_of_stops _ _ _ _ _ hplain.method hplain'.method (hmethod _ _)
    (hmethod _ _) htext with ⟨hm, hstamp⟩
  -- The time ends before the path.
  have hpath : ∀ (c : RestCall) (t : List Char), c.Plain →
      Text.Stops IsStamp (c.path.toList ++ t) := by
    intro c t hc
    rcases List.head?_eq_some_iff.mp hc.rooted with ⟨rest, hrest⟩
    rw [hrest, List.cons_append]
    exact Text.stops_cons _ _ _ (by unfold IsStamp; decide)
  rcases Text.append_inj_of_stops IsStamp _ _ _ _ (JsonText.mem_intText _) (JsonText.mem_intText _)
    (hpath call _ hplain) (hpath call' _ hplain') hstamp with ⟨ht, hrest⟩
  -- The path ends before the query or the body, and the query before the body.
  rcases Text.append_inj_of_stops _ _ _ _ _ hplain.path hplain'.path
    (query_stops floats _ (by decide) (by decide) call)
    (query_stops floats _ (by decide) (by decide) call') hrest with ⟨hp, htail⟩
  rcases Text.append_inj_of_stops (fun c => c ≠ Char.ofNat 123) _ _ _ _ (mem_queryString call)
    (mem_queryString call') (body_stops floats _ (not_not_intro rfl) call)
    (body_stops floats _ (not_not_intro rfl) call') htail with ⟨hq, hb⟩
  exact ⟨String.toList_inj.mp hm, JsonText.intText_inj _ _ ht, String.toList_inj.mp hp,
    queryString_inj call call' hq, body_inj floats call call' hb⟩

/-- The methods of the private endpoints. -/
def privateMethods : List String := ["GET", "POST", "DELETE"]

/-- The paths of the private endpoints. -/
def privatePaths : List String :=
  ["/v2/wallet/balances", "/v2/positions/margined", "/v2/orders", "/v2/orders/all"]

theorem restCall_words (call : PrivateCall) (rest : RestCall) (h : call.restCall = .ok rest) :
    rest.method ∈ privateMethods ∧ rest.path ∈ privatePaths := by
  cases call with
  | cancelOrder orderId clientOrderId productId =>
      rcases orderId with _ | orderId <;> rcases clientOrderId with _ | clientOrderId <;> cases h <;>
        simp only [privateMethods, privatePaths, List.mem_cons, true_or, or_true, and_self]
  | _ =>
      cases h
      simp only [privateMethods, privatePaths, List.mem_cons, true_or, or_true, and_self]

/-- The calls of the private endpoints have plain methods and paths. -/
theorem restCall_plain (call : PrivateCall) (rest : RestCall) (h : call.restCall = .ok rest) :
    rest.Plain := by
  have hmethods : ∀ method ∈ privateMethods, RequestSigner.upper method = method ∧
      method.toList.all Char.isUpper = true := by decide
  have hpaths : ∀ path ∈ privatePaths,
      path.toList.all (fun c => c.isAlphanum || c == '/') = true ∧
        path.toList.head? = some '/' := by decide
  rcases restCall_words call rest h with ⟨hm, hp⟩
  refine ⟨(hmethods _ hm).1, List.all_eq_true.mp (hmethods _ hm).2, fun c hc => ?_,
    (hpaths _ hp).2⟩
  simpa only [Bool.or_eq_true, beq_iff_eq] using List.all_eq_true.mp (hpaths _ hp).1 c hc

/-- The fields of a cancellation say what is cancelled. -/
theorem cancel_fields_inj (o o' : Option Int) (c c' : Option String) (p p' : Option Int)
    (h : PrivateCall.optional "id" o .integer ++ PrivateCall.optional "client_order_id" c .text ++
        PrivateCall.optional "product_id" p .integer =
      PrivateCall.optional "id" o' .integer ++ PrivateCall.optional "client_order_id" c' .text ++
        PrivateCall.optional "product_id" p' .integer) : o = o' ∧ c = c' ∧ p = p' := by
  rcases o with _ | o <;> rcases o' with _ | o' <;> rcases c with _ | c <;>
    rcases c' with _ | c' <;> rcases p with _ | p <;> rcases p' with _ | p' <;>
    simp_all [PrivateCall.optional]

/-- What a call is known by: its method, its path, its parameters and its payload. -/
def PrivateCall.asked : PrivateCall →
    (String × String) × List (String × String) × Option JsonFields
  | .getWalletBalances => (("GET", "/v2/wallet/balances"), [], none)
  | .getPositions => (("GET", "/v2/positions/margined"), [], none)
  | .getOpenOrders => (("GET", "/v2/orders"), [("state", "open")], none)
  | .getOrderByClientId clientOrderId =>
    (("GET", "/v2/orders"), [("client_order_id", clientOrderId)], none)
  | .placeOrder payload => (("POST", "/v2/orders"), [], some payload)
  | .cancelOrder orderId clientOrderId productId =>
    (("DELETE", "/v2/orders"), [], some (PrivateCall.optional "id" orderId .integer ++
      PrivateCall.optional "client_order_id" clientOrderId .text ++
      PrivateCall.optional "product_id" productId .integer))
  | .cancelAllOrders productId =>
    (("DELETE", "/v2/orders/all"), [], some (PrivateCall.optional "product_id" productId .integer))

theorem restCall_asked (call : PrivateCall) (rest : RestCall) (h : call.restCall = .ok rest) :
    ((rest.method, rest.path), rest.params, rest.json) = call.asked := by
  cases call with
  | cancelOrder orderId clientOrderId productId =>
      rcases orderId with _ | orderId <;> rcases clientOrderId with _ | clientOrderId <;> cases h <;>
        rfl
  | _ =>
      cases h
      rfl

/-- What is asked for says which endpoint asks. -/
theorem asked_inj (call call' : PrivateCall) (h : call.asked = call'.asked) : call = call' := by
  cases call with
  | cancelOrder o c p =>
      cases call' with
      | cancelOrder o' c' p' =>
          rcases cancel_fields_inj o o' c c' p p' (Option.some.inj (Prod.mk.inj (Prod.mk.inj h).2).2)
            with ⟨rfl, rfl, rfl⟩
          rfl
      | _ => exact absurd h (by simp [PrivateCall.asked])
  | cancelAllOrders p =>
      cases call' with
      | cancelAllOrders p' =>
          rcases cancel_fields_inj none none none none p p'
            (Option.some.inj (Prod.mk.inj (Prod.mk.inj h).2).2) with ⟨-, -, rfl⟩
          rfl
      | _ => exact absurd h (by simp [PrivateCall.asked])
  | _ => cases call' <;> simp_all [PrivateCall.asked]

/-- Private calls of which the same text is signed are one call, made within one second. -/
theorem signature_names_call (call call' : PrivateCall) (rest rest' : RestCall) (now now' : ℚ)
    (hcall : call.restCall = .ok rest) (hcall' : call'.restCall = .ok rest')
    (h : rest.signedMessage floats now = rest'.signedMessage floats now') :
    call = call' ∧ truncate now = truncate now' := by
  rcases signedMessage_inj floats rest rest' now now' (restCall_plain call rest hcall)
    (restCall_plain call' rest' hcall') h with ⟨hmethod, hnow, hpath, hparams, hjson⟩
  refine ⟨asked_inj call call' ?_, hnow⟩
  rw [← restCall_asked call rest hcall, ← restCall_asked call' rest' hcall', hmethod, hpath,
    hparams, hjson]

end Messages

/-- Floats as fractions. -/
def fractionText : FloatText where
  shown x := (toString x.num).toList ++ 'e' :: (toString x.den).toList
  shown_inj x y h := by
    have hdigits : ∀ n : Int, 'e' ∉ (toString n).toList := by
      intro n hmem
      exact absurd (JsonText.mem_intText n 'e' hmem) (by decide)
    rcases Text.append_sep_inj 'e' _ _ _ _ (hdigits x.num) (hdigits y.num) h with ⟨hnum, hden⟩
    exact Rat.ext (JsonText.intText_inj _ _ hnum) (JsonText.natText_inj _ _ hden)
  numeric x c hc := by
    rw [List.mem_append, List.mem_cons] at hc
    rcases hc with hc | rfl | hc
    · exact JsonText.numeric_intText x.num c hc
    · exact Or.inr (Or.inr (Or.inr (Or.inr rfl)))
    · exact Or.inl (JsonText.isDigit_natText x.den c hc)
  leads x := by
    rcases JsonText.intText_leads x.num with ⟨c, rest, hc, hlead⟩
    exact ⟨c, _, by rw [hc, List.cons_append], hlead⟩
  marked x := Or.inr (List.mem_append_right _ List.mem_cons_self)

/-- The cancellation of one order, twice within a second. -/
theorem signature_names_cancel :
    PrivateCall.cancelOrder (some 7) none (some 27) = .cancelOrder (some 7) none (some 27) ∧
      truncate (8001 / 5) = truncate (16003 / 10) :=
  signature_names_call fractionText _ _ _ _ _ _ rfl rfl (by
    have htime : RequestSigner.nowTimestamp (8001 / 5) = RequestSigner.nowTimestamp (16003 / 10) :=
      congrArg toString (show truncate (8001 / 5) = truncate (16003 / 10) by decide +kernel)
    rw [RestCall.signedMessage, RestCall.signedMessage, htime])

section Attempts

/-- Nothing came back, or the exchange is overloaded or failed on its side. -/
def HttpReply.Unsettled : HttpReply → Prop
  | .transportError _ => True
  | .raised _ => False
  | .response statusCode _ _ => statusCode = 429 ∨ (500 ≤ statusCode ∧ statusCode < 600)

/-- A request as it was asked for, and signed for what it sends or not at all. -/
structure HttpRequest.Sealed (caller : RestCaller) (call : RestCall) (now : ℚ)
    (r : HttpRequest) : Prop where
  method : r.method = call.method
  url : r.url = call.path ++ call.queryString
  content : r.content.getD "" = call.body caller.floats
  signed : call.signed = true →
    r.headers.lookup "api-key" = some caller.signer.apiKey ∧
      r.headers.lookup "timestamp" = some (RequestSigner.nowTimestamp now) ∧
      r.headers.lookup "signature" = some (caller.hmac caller.signer.apiSecret.toUTF8
        (RequestSigner.upper r.method ++ RequestSigner.nowTimestamp now ++ r.url ++
          r.content.getD "").toUTF8)
  unsigned : call.signed = false → ∀ key ∈ ["api-key", "timestamp", "signature"],
    r.headers.lookup key = none

variable (caller : RestCaller) (script : RestScript) (call : RestCall)

/-- A response with one of those codes raises what can be retried, and no other does. -/
theorem judgeResponse_retryable (shown : JsonTree → String) (statusCode : Nat) (text : String)
    (json : Except String JsonTree) : (statusCode = 429 ∨ (500 ≤ statusCode ∧ statusCode < 600)) ↔
    ∃ e, call.judgeResponse shown statusCode text json = .error e ∧ e.retryable = true := by
  unfold RestCall.judgeResponse
  by_cases hcode : statusCode = 429 ∨ (500 ≤ statusCode ∧ statusCode < 600)
  · rw [if_pos hcode]
    exact ⟨fun _ => ⟨_, rfl, rfl⟩, fun _ => hcode⟩
  · rw [if_neg hcode]
    refine ⟨fun h => absurd h hcode, ?_⟩
    rintro ⟨e, he, hretry⟩
    -- Every other exception of a response is final.
    by_cases hclient : 400 ≤ statusCode
    · rw [if_pos hclient] at he
      cases he
      cases hretry
    · rw [if_neg hclient] at he
      rcases json with message | envelope
      · cases he
        cases hretry
      · cases envelope with
        | object fields =>
            simp only at he
            split at he
            · cases he
              cases hretry
            · cases he
        | _ =>
            cases he
            cases hretry

/-- A reply that settles nothing raises what can be retried, and no other does. -/
theorem judge_retryable (reply : HttpReply) : reply.Unsettled ↔
    ∃ e, call.judge caller.shown reply = .error e ∧ e.retryable = true := by
  cases reply with
  | transportError message => exact ⟨fun _ => ⟨_, rfl, rfl⟩, fun _ => trivial⟩
  | raised error =>
      refine ⟨fun h => h.elim, ?_⟩
      rintro ⟨e, he, hretry⟩
      cases he
      cases hretry
  | response statusCode text json =>
      rw [HttpReply.Unsettled, judgeResponse_retryable call caller.shown statusCode text json,
        RestCall.judge]
      constructor
      · rintro ⟨e, he, hretry⟩
        exact ⟨.deltaRestError e, by rw [he]; rfl, hretry⟩
      · rintro ⟨e, he, hretry⟩
        rcases hjudged : call.judgeResponse caller.shown statusCode text json with e' | fields
        · rw [hjudged] at he
          cases he
          exact ⟨e', rfl, hretry⟩
        · rw [hjudged] at he
          cases he

/-- A call without a signature, or with a key to sign with. -/
def Keyed : Prop := call.signed = true → caller.signer.configured = true

/-- What is sent is sealed, and a call with a key sends it. -/
theorem prepare_sealed (now : ℚ) (hkey : Keyed caller call) :
    ∃ r, call.prepare caller now = .ok r ∧ r.Sealed caller call now := by
  have hbody : (if call.body caller.floats = "" then none
      else some (call.body caller.floats)).getD "" = call.body caller.floats := by
    split_ifs with h
    · exact h.symm
    · rfl
  unfold RestCall.prepare
  by_cases hsigned : call.signed = true
  · simp only [hsigned, if_true, RequestSigner.headers, RequestSigner.sign, hkey hsigned, bind,
      Except.bind]
    refine ⟨_, rfl, rfl, rfl, hbody, fun _ => ?_, fun h => ?_⟩
    · -- The type of the content stands behind the signature.
      simp only [hbody, RequestSigner.message, String.append_assoc]
      split_ifs
      · exact ⟨rfl, rfl, rfl⟩
      · exact ⟨rfl, rfl, rfl⟩
    · rw [hsigned] at h
      cases h
  · rw [Bool.not_eq_true] at hsigned
    simp only [hsigned, bind, Except.bind]
    refine ⟨_, rfl, rfl, rfl, hbody, fun h => ?_, fun _ => ?_⟩
    · rw [hsigned] at h
      cases h
    · -- What is left is at most the type of the content.
      have hnone : ∀ key ∈ ["api-key", "timestamp", "signature"],
          ([] : List (String × String)).lookup key = none ∧
            [("Content-Type", "application/json")].lookup key = none := by decide
      intro key hmem
      simp only
      split_ifs
      · exact (hnone key hmem).1
      · exact (hnone key hmem).2

theorem prepare_keyless (now : ℚ) (hkey : ¬ Keyed caller call) : call.prepare caller now =
    .error "RequestSigner has no api_key/api_secret configured" := by
  unfold Keyed at hkey
  push Not at hkey
  have hconfigured : caller.signer.configured = false := Bool.not_eq_true _ ▸ hkey.2
  simp only [RestCall.prepare, hkey.1, if_true, RequestSigner.headers, RequestSigner.sign,
    hconfigured, bind, Except.bind, Bool.false_eq_true, if_false]

/-- One attempt of a call with a key. -/
theorem attempt_keyed (n : Nat) (hkey : Keyed caller call) : ∃ r,
    call.attempt caller script n = ([r], call.judge caller.shown (script.reply n)) ∧
      r.Sealed caller call (script.now n) := by
  rcases prepare_sealed caller call (script.now n) hkey with ⟨r, hr, hsealed⟩
  exact ⟨r, by rw [RestCall.attempt, hr], hsealed⟩

/-- What the attempts from one on do, by how many of them are retried. -/
structure Attempted (attempt k : Nat) (run : RequestRun) : Prop where
  retried : ∀ n < k, (script.reply (attempt + n)).Unsettled
  result : run.result = call.judge caller.shown (script.reply (attempt + k))
  settled : ∀ e, run.result = .error e → caller.retrying.again (attempt + k) e = false
  sent : run.sent.length = k + 1
  wellSent : ∀ n (r : HttpRequest), run.sent[n]? = some r →
    r.Sealed caller call (script.now (attempt + n))

/-- The attempt that is not retried. -/
theorem attempted_last (attempt : Nat) (r : HttpRequest)
    (hsealed : r.Sealed caller call (script.now attempt))
    (hlast : ∀ e, call.judge caller.shown (script.reply attempt) = .error e →
      caller.retrying.again attempt e = false) :
    Attempted caller script call attempt 0
      ⟨[r], call.judge caller.shown (script.reply attempt)⟩ := by
  refine ⟨fun n hn => absurd hn (Nat.not_lt_zero n), rfl, hlast, rfl, fun n s hs => ?_⟩
  rcases n with _ | n
  · rwa [← Option.some.inj hs]
  · cases hs

/-- An attempt in front of others. -/
theorem attempted_next (attempt k : Nat) (r : HttpRequest) (rest : RequestRun)
    (hsealed : r.Sealed caller call (script.now attempt))
    (hunsettled : (script.reply attempt).Unsettled)
    (h : Attempted caller script call (attempt + 1) k rest) :
    Attempted caller script call attempt (k + 1) { rest with sent := r :: rest.sent } := by
  have hnext : ∀ n, attempt + 1 + n = attempt + (n + 1) := fun n => by omega
  refine ⟨fun n hn => ?_, hnext k ▸ h.result, hnext k ▸ h.settled, ?_, fun n s hs => ?_⟩
  · rcases n with _ | n
    · exact hunsettled
    · exact hnext n ▸ h.retried n (by omega)
  · rw [List.length_cons, h.sent]
  · rcases n with _ | n
    · rwa [← Option.some.inj hs]
    · exact hnext n ▸ h.wellSent n s hs

/-- The attempts of a call with a key, by those that are left. -/
theorem attemptFrom_attempted (hkey : Keyed caller call) (left attempt : Nat)
    (hleft : (caller.maxAttempts - attempt).toNat ≤ left) :
    ∃ k, Attempted caller script call attempt k (call.attemptFrom caller script attempt) := by
  induction left generalizing attempt with
  | zero =>
      rcases attempt_keyed caller script call attempt hkey with ⟨r, htried, hsealed⟩
      have hstops : ∀ e, caller.retrying.again attempt e = false :=
        fun e => caller.retrying.stops attempt e (by omega)
      refine ⟨0, ?_⟩
      have hlast := attempted_last caller script call attempt r hsealed (fun e _ => hstops e)
      rw [RestCall.attemptFrom, htried]
      rcases hjudge : call.judge caller.shown (script.reply attempt) with e | envelope
      · rw [hjudge] at hlast
        simp only [hstops e, Bool.false_eq_true, dite_false]
        exact hlast
      · rw [hjudge] at hlast
        exact hlast
  | succ left ih =>
      rcases attempt_keyed caller script call attempt hkey with ⟨r, htried, hsealed⟩
      rw [RestCall.attemptFrom, htried]
      rcases hjudge : call.judge caller.shown (script.reply attempt) with e | envelope
      · by_cases hagain : caller.retrying.again attempt e = true
        · -- The library has the call go on, so the reply has settled nothing.
          have hunsettled := (judge_retryable caller call _).mpr
            ⟨e, hjudge, caller.retrying.retries attempt e hagain⟩
          have hmore : ¬ caller.maxAttempts ≤ attempt := fun hstop => by
            rw [caller.retrying.stops attempt e hstop] at hagain
            cases hagain
          rcases ih (attempt + 1) (by omega) with ⟨k, hk⟩
          simp only [hagain, dite_true]
          exact ⟨k + 1, attempted_next caller script call attempt k r _ hsealed hunsettled hk⟩
        · rw [Bool.not_eq_true] at hagain
          have hlast := attempted_last caller script call attempt r hsealed (fun e' he' => by
            rw [hjudge] at he'
            cases he'
            exact hagain)
          rw [hjudge] at hlast
          simp only [hagain, Bool.false_eq_true, dite_false]
          exact ⟨0, hlast⟩
      · have hlast := attempted_last caller script call attempt r hsealed (fun e he => by
          rw [hjudge] at he
          cases he)
        rw [hjudge] at hlast
        exact ⟨0, hlast⟩

/-- A call without its key sends nothing. Any other is attempted up to a reply behind which the
    library has no other attempt: the replies before settled nothing, what it returns or raises
    is what it makes of that reply, and every request asks for the same and is signed for what it
    sends. -/
theorem request_attempts :
    (Keyed caller call → ∃ k, Attempted caller script call 1 k (call.request caller script)) ∧
      (¬ Keyed caller call → call.request caller script =
        ⟨[], .error (.runtimeError "RequestSigner has no api_key/api_secret configured")⟩) := by
  refine ⟨fun hkey => attemptFrom_attempted caller script call hkey _ 1 (le_refl _),
    fun hkey => ?_⟩
  rw [RestCall.request, RestCall.attemptFrom, RestCall.attempt, prepare_keyless caller call _ hkey]
  -- The library does not retry the signer's exception.
  have hfinal : ∀ message, caller.retrying.again 1 (.runtimeError message) = false := by
    intro message
    rw [← Bool.not_eq_true]
    exact fun hagain => Bool.noConfusion (caller.retrying.retries 1 _ hagain)
  simp only [hfinal, Bool.false_eq_true, dite_false]

end Attempts

/-- A library that has every attempt it may. -/
def everyAttempt (maxAttempts : Int) : AsyncRetrying maxAttempts where
  again attempt e := decide (¬ maxAttempts ≤ attempt) && e.retryable
  stops attempt e h := by rw [decide_eq_false (not_not_intro h), Bool.false_and]
  retries attempt e h := (Bool.and_eq_true_iff.mp h).2

/-- A client without a key. -/
def publicCaller : RestCaller :=
  { signer := { apiKey := "", apiSecret := "" }, retrying := everyAttempt 4
    hmac := fun _ _ => "", floats := fractionText, shown := fun _ => "" }

/-- An overloaded exchange at first, an answer without an error behind that. -/
def overloadedOnce : RestScript :=
  { reply := fun n =>
      if n = 1 then .response 503 "" (.error "") else .response 200 "{}" (.ok (.object []))
    now := fun n => n }

/-- A public call, for the products that are listed. -/
def productsCall : RestCall := { method := "GET", path := "/v2/products" }

/-- It is sent twice there, and returns what came the second time. -/
theorem request_attempts_overloaded :
    (productsCall.request publicCaller overloadedOnce).sent.length = 2 ∧
      ∃ fields, (productsCall.request publicCaller overloadedOnce).result = .ok fields ∧
        fields = [] := by
  rcases (request_attempts publicCaller overloadedOnce productsCall).1
    (fun hsigned => Bool.noConfusion hsigned) with ⟨k, hk⟩
  have hk1 : k = 1 := by
    rcases k with _ | _ | k
    · -- A first reply of 503 is retried by a library that has every attempt.
      exact absurd (hk.settled _ hk.result) (by decide)
    · rfl
    · -- The second reply settles the call.
      exact absurd (hk.retried 1 (by omega)) (by simp [overloadedOnce, HttpReply.Unsettled])
  subst hk1
  exact ⟨hk.sent, [], hk.result, rfl⟩

end OptionsBot
