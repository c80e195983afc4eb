import Mathlib.Data.List.Sort
import Mathlib.Algebra.Order.Ring.Abs
import Mathlib.Data.Rat.Floor
import OptionsBot.Core.Window
import OptionsBot.Lib.Python
import OptionsBot.Lib.Table

/-!
# Option Chain Cache

The symbol parser, the expiry buckets and the in-memory chain the strategies
pick contracts from.

`parseSymbol` follows the symbol's regular expression: `\d` accepts any Unicode
decimal digit, and `$` accepts one trailing newline. The six expiry digits then
go through `strptime`, whose own pattern is stricter about which of them may be
non-ASCII, and which raises on a date that does not exist.

A `ChainCache` carries the invariant its one writer keeps: every instrument was
built from its own symbol, and no two have the same one. `refreshInstruments`
is that writer, and the two proofs it needs are the only place the invariant is
established.

## Main definitions

* `decimalDigit`: The value of a Unicode decimal digit.
* `strptimeDdmmyy`: A date from six digits, day first.
* `parseSymbol`: The parts of an option symbol.
* `bucketForExpiry`: The bucket of an expiry as seen from an instant.
* `QuoteSnapshot`: The latest ticker data of a symbol.
* `InstrumentRecord`: A listed option.
* `ChainCache`: The instruments and their quotes.
* `ChainCache.instrumentsFor`: The listed options of a bucket, by strike.
* `ChainCache.getAtmStrike`, `ChainCache.getStrikeByDelta`: The two pickers.

## Theorems

* `parseSymbol_expiry`: An accepted symbol's expiry is 17:30 on its date.
* `bucket_d1`, `bucket_d2`: What the two nearest buckets say about an expiry.
* `mem_collectInstruments`: A collected record comes from a product.
* `mem_instrumentsFor`: What the bucket filter guarantees.
* `getAtmStrike_mem`, `getStrikeByDelta_mem`: A picked instrument is a listed
  one of the bucket.
* `getStrikeByDelta_delta`: One picked by delta has a delta within the bounds.
-/

namespace OptionsBot

inductive OptionType where
  | call
  | put
  deriving DecidableEq, Repr

/-- The zeros of the Unicode decimal digit blocks. -/
def digitZeros : List Nat :=
  [0x30, 0x660, 0x6f0, 0x7c0, 0x966, 0x9e6, 0xa66, 0xae6, 0xb66, 0xbe6, 0xc66, 0xce6, 0xd66,
    0xde6, 0xe50, 0xed0, 0xf20, 0x1040, 0x1090, 0x17e0, 0x1810, 0x1946, 0x19d0, 0x1a80, 0x1a90,
    0x1b50, 0x1bb0, 0x1c40, 0x1c50, 0xa620, 0xa8d0, 0xa900, 0xa9d0, 0xa9f0, 0xaa50, 0xabf0,
    0xff10, 0x104a0, 0x10d30, 0x11066, 0x110f0, 0x11136, 0x111d0, 0x112f0, 0x11450, 0x114d0,
    0x11650, 0x116c0, 0x11730, 0x118e0, 0x11950, 0x11c50, 0x11d50, 0x11da0, 0x11f50, 0x16a60,
    0x16ac0, 0x16b50, 0x1d7ce, 0x1d7d8, 0x1d7e2, 0x1d7ec, 0x1d7f6, 0x1e140, 0x1e2f0, 0x1e4f0,
    0x1e950, 0x1fbf0]

/-- The value of a Unicode decimal digit. -/
def decimalDigit (c : Char) : Option Nat :=
  (digitZeros.find? (fun z => decide (z ≤ c.toNat ∧ c.toNat < z + 10))).map (fun z => c.toNat - z)

/-- `\d`. -/
def isDecimal (c : Char) : Bool := (decimalDigit c).isSome

/-- The number a run of decimal digits spells. -/
def digitsValue (cs : List Char) : Nat :=
  cs.foldl (fun acc c => 10 * acc + (decimalDigit c).getD 0) 0

/-- `%d` on two characters: `3[0-1]|[1-2]\d|0[1-9]`. -/
def dayField (a b : Char) : Option Nat :=
  if a = '3' ∧ (b = '0' ∨ b = '1') ∨ (a = '1' ∨ a = '2') ∧ isDecimal b ∨
      a = '0' ∧ ('1' ≤ b ∧ b ≤ '9') then some (digitsValue [a, b])
  else none

/-- `%m` on two characters: `1[0-2]|0[1-9]`. -/
def monthField (a b : Char) : Option Nat :=
  if a = '1' ∧ ('0' ≤ b ∧ b ≤ '2') ∨ a = '0' ∧ ('1' ≤ b ∧ b ≤ '9') then some (digitsValue [a, b])
  else none

/-- `%y` on two characters, with the POSIX pivot at 69. -/
def yearField (a b : Char) : Option Nat :=
  if isDecimal a ∧ isDecimal b then
    let y := digitsValue [a, b]
    some (if y ≤ 68 then 2000 + y else 1900 + y)
  else none

/-- `strptime(raw, "%d%m%y")`, as a date. -/
def strptimeDdmmyy (raw : List Char) : Except PyError Int :=
  match raw with
  | [d1, d2, m1, m2, y1, y2] =>
    match dayField d1 d2, monthField m1 m2, yearField y1 y2 with
    | some day, some month, some year =>
      if day ≤ daysInMonth year month then .ok (ymdToOrdinal year month day)
      else .error (.valueError "day is out of range for month")
    | _, _, _ => .error (.valueError "time data does not match format '%d%m%y'")
  | _ => .error (.valueError "time data does not match format '%d%m%y'")

/-- The parts of an option symbol. -/
structure ParsedSymbol where
  optionType : OptionType
  underlying : Underlying
  strike : ℚ
  expiry : DateTime
  deriving DecidableEq, Repr

/-- `(?P<opt>[CP])-(?P<underlying>BTC|ETH)-`, and what follows it. -/
def matchHead (cs : List Char) : Option (OptionType × Underlying × List Char) :=
  match cs with
  | o :: '-' :: a :: b :: c :: '-' :: rest =>
    let opt := if o = 'C' then some OptionType.call else if o = 'P' then some .put else none
    let und := if [a, b, c] = ['B', 'T', 'C'] then some Underlying.btc
      else if [a, b, c] = ['E', 'T', 'H'] then some .eth else none
    match opt, und with
    | some o, some u => some (o, u, rest)
    | _, _ => none
  | _ => none

/-- `(?P<strike>\d+(?:\.\d+)?)-`, and what follows it. -/
def matchStrike (cs : List Char) : Option (ℚ × List Char) :=
  -- Both runs are greedy. No digit can start what follows, so nothing is given back.
  let whole := cs.takeWhile isDecimal
  if whole = [] then none
  else match cs.dropWhile isDecimal with
    | '-' :: rest => some (digitsValue whole, rest)
    | '.' :: more =>
      let frac := more.takeWhile isDecimal
      if frac = [] then none
      else match more.dropWhile isDecimal with
        | '-' :: rest => some (digitsValue whole + digitsValue frac / 10 ^ frac.length, rest)
        | _ => none
    | _ => none

/-- `(?P<expiry>\d{6})$`, where the end may be a trailing newline. -/
def matchExpiry (cs : List Char) : Option (List Char) :=
  let raw := cs.take 6
  if raw.length = 6 ∧ raw.all isDecimal ∧ (cs.drop 6 = [] ∨ cs.drop 6 = ['\n']) then some raw
  else none

/-- The groups of `_SYMBOL_RE.match(symbol)`, the expiry still as digits. -/
def matchSymbol (symbol : String) : Option (OptionType × Underlying × ℚ × List Char) :=
  match matchHead symbol.toList with
  | none => none
  | some (opt, und, afterHead) =>
    match matchStrike afterHead with
    | none => none
    | some (strike, afterStrike) =>
      match matchExpiry afterStrike with
      | none => none
      | some raw => some (opt, und, strike, raw)

def parseSymbol (symbol : String) : Except PyError (Option ParsedSymbol) :=
  match matchSymbol symbol with
  | none => .ok none
  | some (opt, und, strike, raw) =>
    match strptimeDdmmyy raw with
    | .error e => .error e
    | .ok date =>
      .ok (some { optionType := opt, underlying := und, strike := strike,
                  expiry := combine date (hourMinute 17 30) })

/-- An accepted symbol's expiry is stamped 17:30 on the date it encodes. -/
theorem parseSymbol_expiry (symbol : String) (p : ParsedSymbol)
    (h : parseSymbol symbol = .ok (some p)) :
    p.expiry = combine p.expiry.date (hourMinute 17 30) := by
  unfold parseSymbol at h
  split at h
  · simp only [Except.ok.injEq, reduceCtorEq] at h
  · split at h
    · simp only [reduceCtorEq] at h
    · next date _ =>
      simp only [Except.ok.injEq, Option.some.injEq] at h
      rw [← h]
      -- 17:30 stays within the day, so the stamp's date is the encoded one.
      have hd : (combine date (hourMinute 17 30)).date = date :=
        date_combine date _ (by decide) (by decide)
      simp only [hd]

example : parseSymbol "P-BTC-77000-260526" =
    .ok (some { optionType := .put, underlying := .btc, strike := 77000,
                expiry := combine (ymdToOrdinal 2026 5 26) (hourMinute 17 30) }) := by
  decide

/-- The next three Fridays after a date. -/
def fridaysAfter (today : Int) : Int × Int × Int :=
  -- On a Friday the next one is a week away.
  let days := (4 - weekday today) % 7
  let toFriday := if days = 0 then 7 else days
  (today + toFriday, today + toFriday + 7, today + toFriday + 14)

/-- The bucket of an expiry as seen from an instant, by calendar date. -/
def bucketForExpiry (now expiry : DateTime) : Option ExpiryBucket :=
  if expiry ≤ now then none
  else
    -- Dates on the UTC clock, which turn five and a half hours after India's.
    let days := expiry.date - now.date
    if days = 0 then some .d1
    else if days = 1 then some .d2
    else
      let fridays := fridaysAfter now.date
      if expiry.date = fridays.1 then some .w1
      else if expiry.date = fridays.2.1 then some .w2
      else if expiry.date = fridays.2.2 then some .w3
      else none

theorem bucket_d1 (now expiry : DateTime) (h : bucketForExpiry now expiry = some .d1) :
    now < expiry ∧ expiry.date = now.date := by
  unfold bucketForExpiry at h
  by_cases hle : expiry ≤ now
  · rw [if_pos hle] at h
    cases h
  · rw [if_neg hle] at h
    have hlt : now < expiry := by
      rw [DateTime.lt_def]
      rw [DateTime.le_def] at hle
      omega
    refine ⟨hlt, ?_⟩
    by_cases hd : expiry.date - now.date = 0
    · omega
    · simp only [if_neg hd] at h
      split_ifs at h <;> cases h

theorem bucket_d2 (now expiry : DateTime) (h : bucketForExpiry now expiry = some .d2) :
    expiry.date = now.date + 1 := by
  unfold bucketForExpiry at h
  by_cases hle : expiry ≤ now
  · rw [if_pos hle] at h
    cases h
  · rw [if_neg hle] at h
    by_cases hd : expiry.date - now.date = 1
    · omega
    · simp only [if_neg hd] at h
      split_ifs at h <;> cases h

/-- The latest ticker data of an option symbol. -/
structure QuoteSnapshot where
  bid : Option ℚ := none
  ask : Option ℚ := none
  markPrice : Option ℚ := none
  iv : Option ℚ := none
  delta : Option ℚ := none
  gamma : Option ℚ := none
  theta : Option ℚ := none
  vega : Option ℚ := none
  openInterest : Option ℚ := none
  deriving DecidableEq, Repr

namespace QuoteSnapshot

/-- The middle of a two-sided quote, else the mark. -/
def mid (q : QuoteSnapshot) : Option ℚ :=
  match q.bid, q.ask with
  | some bid, some ask => if 0 < ask then some ((bid + ask) / 2) else q.markPrice
  | _, _ => q.markPrice

def spreadPct (q : QuoteSnapshot) : Option ℚ :=
  match q.mid, q.bid, q.ask with
  | some mid, some bid, some ask => if mid ≤ 0 then none else some ((ask - bid) / mid)
  | _, _, _ => none

end QuoteSnapshot

/-- A listed option. -/
structure InstrumentRecord where
  productId : Int
  symbol : String
  underlying : Underlying
  optionType : OptionType
  strike : ℚ
  expiry : DateTime
  lotSize : ℚ
  tickSize : ℚ
  isActive : Bool := true
  deriving DecidableEq, Repr

/-- What the symbol of a record should parse to. -/
def InstrumentRecord.parsed (r : InstrumentRecord) : ParsedSymbol :=
  { optionType := r.optionType, underlying := r.underlying, strike := r.strike,
    expiry := r.expiry }

/-- A `/v2/products` entry. A numeric field that is absent or falsy is `none`. -/
structure Product where
  contractType : Option String
  symbol : Option String
  id : Option Int
  contractValue : Option ℚ
  lotSize : Option ℚ
  tickSize : Option ℚ
  state : Option String

/-- `_product_to_record`: `none` for anything that is not an option. -/
def productToRecord (p : Product) : Except PyError (Option InstrumentRecord) :=
  if p.contractType = some "call_options" ∨ p.contractType = some "put_options" then
    match p.symbol with
    | none => .error (.keyError "symbol")
    | some symbol =>
      match parseSymbol symbol with
      | .error e => .error e
      | .ok none => .ok none
      | .ok (some parsed) =>
        match p.id with
        | none => .error (.keyError "id")
        | some id =>
          .ok (some
            { productId := id, symbol := symbol, underlying := parsed.underlying,
              optionType := parsed.optionType, strike := parsed.strike, expiry := parsed.expiry,
              lotSize := (p.contractValue <|> p.lotSize).getD 1,
              tickSize := p.tickSize.getD (1 / 2),
              isActive := p.state.getD "live" = "live" ∨ p.state.getD "live" = "operational" })
  else .ok none

theorem productToRecord_parsed (p : Product) (r : InstrumentRecord)
    (h : productToRecord p = .ok (some r)) : parseSymbol r.symbol = .ok (some r.parsed) := by
  unfold productToRecord at h
  split_ifs at h
  · split at h
    · cases h
    · split at h
      · cases h
      · cases h
      · next parsed hp =>
        split at h
        · cases h
        · cases h
          exact hp
  · cases h

/-- The records of a product list, keyed by symbol. A product that cannot be
    read is skipped. -/
def collectInstruments (products : List Product) : List InstrumentRecord :=
  products.foldl (fun acc p =>
    match productToRecord p with
    | .ok (some r) => Table.upsert InstrumentRecord.symbol r.symbol (fun _ => r) acc
    | _ => acc) []

/-- The fold keeps what holds of an empty list and of a list with a record
    written to it. -/
theorem collectInstruments_induct (P : List InstrumentRecord → Prop) (h0 : P [])
    (hstep : ∀ acc p r, productToRecord p = .ok (some r) → P acc →
      P (Table.upsert InstrumentRecord.symbol r.symbol (fun _ => r) acc))
    (products : List Product) : P (collectInstruments products) := by
  refine List.foldlRecOn products _ h0 (fun acc hacc p _ => ?_)
  rcases hp : productToRecord p with e | ⟨_ | r⟩
  · exact hacc
  · exact hacc
  · exact hstep acc p r hp hacc

theorem mem_collectInstruments (products : List Product) :
    ∀ inst ∈ collectInstruments products, parseSymbol inst.symbol = .ok (some inst.parsed) := by
  refine collectInstruments_induct
    (fun rows => ∀ inst ∈ rows, parseSymbol inst.symbol = .ok (some inst.parsed)) ?_ ?_ products
  · intro inst hinst
    exact absurd hinst List.not_mem_nil
  · intro acc p r hp hacc inst hinst
    rcases Table.mem_upsert _ _ _ acc inst hinst with hold | hnew | ⟨_, _, _, hnew⟩
    · exact hacc inst hold
    · rw [hnew]
      exact productToRecord_parsed p r hp
    · rw [hnew]
      exact productToRecord_parsed p r hp

theorem nodup_collectInstruments (products : List Product) :
    ((collectInstruments products).map InstrumentRecord.symbol).Nodup := by
  refine collectInstruments_induct
    (fun rows => (rows.map InstrumentRecord.symbol).Nodup) List.nodup_nil ?_ products
  intro acc p r _ hacc
  exact Table.nodup_upsert _ _ _ (fun _ => rfl) acc hacc

/-- The cached chain: the listed instruments in the order they were read, and
    the latest quote of each symbol. -/
structure ChainCache where
  instruments : List InstrumentRecord
  quotes : String → Option QuoteSnapshot
  listed : ∀ inst ∈ instruments, parseSymbol inst.symbol = .ok (some inst.parsed)
  distinct : (instruments.map InstrumentRecord.symbol).Nodup

/-- An instrument together with its quote. -/
structure StrikeSelection where
  instrument : InstrumentRecord
  quote : QuoteSnapshot

namespace ChainCache

/-- A cache before its first refresh. -/
def empty : ChainCache :=
  { instruments := []
    quotes := fun _ => none
    listed := fun _ h => absurd h List.not_mem_nil
    distinct := List.nodup_nil }

/-- Replace the instruments by those of a product list. -/
def refreshInstruments (chain : ChainCache) (products : List Product) : ChainCache :=
  { instruments := collectInstruments products
    quotes := chain.quotes
    listed := mem_collectInstruments products
    distinct := nodup_collectInstruments products }

def upsertQuote (chain : ChainCache) (symbol : String) (snapshot : QuoteSnapshot) : ChainCache :=
  { chain with quotes := fun s => if s = symbol then some snapshot else chain.quotes s }

def getInstrument (chain : ChainCache) (symbol : String) : Option InstrumentRecord :=
  Table.lookup InstrumentRecord.symbol symbol chain.instruments

def getQuote (chain : ChainCache) (symbol : String) : Option QuoteSnapshot := chain.quotes symbol

/-- The instruments of a bucket, by strike. -/
def instrumentsFor (chain : ChainCache) (underlying : Underlying) (optionType : OptionType)
    (bucket : ExpiryBucket) (now : DateTime) : List InstrumentRecord :=
  (chain.instruments.filter (fun inst =>
    inst.isActive ∧ inst.underlying = underlying ∧ inst.optionType = optionType ∧
      bucketForExpiry now inst.expiry = some bucket)).insertionSort
    (fun a b => a.strike ≤ b.strike)

/-- The at-the-money strike, or the one `offset` places above it. -/
def getAtmStrike (chain : ChainCache) (underlying : Underlying) (optionType : OptionType)
    (bucket : ExpiryBucket) (spotPrice : ℚ) (offset : Int) (now : DateTime) :
    Option StrikeSelection :=
  let instruments := chain.instrumentsFor underlying optionType bucket now
  -- A stable sort by distance: of two strikes equally far away the lower one comes first.
  match instruments.insertionSort
      (fun a b => |a.strike - spotPrice| ≤ |b.strike - spotPrice|) with
  | [] => none
  | atm :: _ =>
    let chosen :=
      if offset = 0 then some atm
      else
        -- Past either end of the listed strikes there is none.
        let target := (instruments.findIdx (fun inst => inst.symbol = atm.symbol) : Int) + offset
        if 0 ≤ target ∧ target < instruments.length then instruments[target.toNat]? else none
    match chosen with
    | none => none
    | some inst => (chain.quotes inst.symbol).map (fun q => { instrument := inst, quote := q })

/-- The candidates of a delta query, each with its distance to the target. -/
def deltaCandidates (chain : ChainCache) (underlying : Underlying) (optionType : OptionType)
    (bucket : ExpiryBucket) (targetDelta : ℚ) (deltaMin deltaMax : Option ℚ) (now : DateTime) :
    List (ℚ × StrikeSelection) :=
  (chain.instrumentsFor underlying optionType bucket now).filterMap (fun inst =>
    match chain.quotes inst.symbol with
    | none => none
    | some quote =>
      match quote.delta with
      | none => none
      | some delta =>
        if (∃ lo ∈ deltaMin, |delta| < lo) ∨ (∃ hi ∈ deltaMax, hi < |delta|) then none
        else some (|(|delta| - targetDelta)|, { instrument := inst, quote := quote }))

/-- The listed strike whose absolute delta is closest to the target. -/
def getStrikeByDelta (chain : ChainCache) (underlying : Underlying) (optionType : OptionType)
    (bucket : ExpiryBucket) (targetDelta : ℚ) (deltaMin deltaMax : Option ℚ) (now : DateTime) :
    Option StrikeSelection :=
  ((chain.deltaCandidates underlying optionType bucket targetDelta deltaMin deltaMax
    now).insertionSort (fun a b => a.1 ≤ b.1)).head?.map Prod.snd

theorem mem_instrumentsFor (chain : ChainCache) (underlying : Underlying)
    (optionType : OptionType) (bucket : ExpiryBucket) (now : DateTime) (inst : InstrumentRecord) :
    inst ∈ chain.instrumentsFor underlying optionType bucket now ↔
      inst ∈ chain.instruments ∧ inst.isActive ∧ inst.underlying = underlying ∧
        inst.optionType = optionType ∧ bucketForExpiry now inst.expiry = some bucket := by
  simp only [instrumentsFor, List.mem_insertionSort, List.mem_filter, decide_eq_true_eq,
    Bool.decide_and, Bool.and_eq_true, Bool.decide_eq_true]

theorem getAtmStrike_mem (chain : ChainCache) (underlying : Underlying) (optionType : OptionType)
    (bucket : ExpiryBucket) (spotPrice : ℚ) (offset : Int) (now : DateTime)
    (sel : StrikeSelection)
    (h : chain.getAtmStrike underlying optionType bucket spotPrice offset now = some sel) :
    sel.instrument ∈ chain.instrumentsFor underlying optionType bucket now := by
  unfold getAtmStrike at h
  simp only at h
  split at h
  · cases h
  · next atm rest hsort =>
    have hatm : atm ∈ chain.instrumentsFor underlying optionType bucket now := by
      rw [← List.mem_insertionSort (fun a b : InstrumentRecord =>
        |a.strike - spotPrice| ≤ |b.strike - spotPrice|), hsort]
      exact List.mem_cons_self
    split at h
    · cases h
    · next inst hchosen =>
      -- The chosen instrument is the money itself or a neighbour in strike order.
      have hmem : inst ∈ chain.instrumentsFor underlying optionType bucket now := by
        split_ifs at hchosen with h0 hb
        · cases hchosen
          exact hatm
        · exact List.mem_of_getElem? hchosen
      rcases Option.map_eq_some_iff.mp h with ⟨q, _, hq⟩
      rw [← hq]
      exact hmem

/-- What a delta query looks at: a listed option, its quote, and a delta in it that is within
    the bounds. -/
theorem deltaCandidates_spec (chain : ChainCache) (underlying : Underlying)
    (optionType : OptionType) (bucket : ExpiryBucket) (targetDelta : ℚ)
    (deltaMin deltaMax : Option ℚ) (now : DateTime) (distance : ℚ) (sel : StrikeSelection)
    (h : (distance, sel) ∈
      chain.deltaCandidates underlying optionType bucket targetDelta deltaMin deltaMax now) :
    sel.instrument ∈ chain.instrumentsFor underlying optionType bucket now ∧
      chain.quotes sel.instrument.symbol = some sel.quote ∧
      ∃ delta, sel.quote.delta = some delta ∧ distance = |(|delta| - targetDelta)| ∧
        (∀ lo ∈ deltaMin, lo ≤ |delta|) ∧ ∀ hi ∈ deltaMax, |delta| ≤ hi := by
  rw [deltaCandidates, List.mem_filterMap] at h
  rcases h with ⟨inst, hinst, hsome⟩
  split at hsome
  · cases hsome
  · next quote hquote =>
    split at hsome
    · cases hsome
    · next delta hdelta =>
      split_ifs at hsome with hout
      cases hsome
      rw [not_or] at hout
      refine ⟨hinst, hquote, delta, hdelta, rfl, ?_, ?_⟩
      · exact fun lo hlo => not_lt.mp (fun hlt => hout.1 ⟨lo, hlo, hlt⟩)
      · exact fun hi hhi => not_lt.mp (fun hlt => hout.2 ⟨hi, hhi, hlt⟩)

/-- A pick by delta is one of them. -/
theorem getStrikeByDelta_candidate (chain : ChainCache) (underlying : Underlying)
    (optionType : OptionType) (bucket : ExpiryBucket) (targetDelta : ℚ)
    (deltaMin deltaMax : Option ℚ) (now : DateTime) (sel : StrikeSelection)
    (h : chain.getStrikeByDelta underlying optionType bucket targetDelta deltaMin deltaMax now =
      some sel) :
    ∃ distance, (distance, sel) ∈
      chain.deltaCandidates underlying optionType bucket targetDelta deltaMin deltaMax now := by
  rcases Option.map_eq_some_iff.mp h with ⟨⟨distance, sel'⟩, hhead, rfl⟩
  exact ⟨distance, (List.mem_insertionSort _).mp (List.mem_of_head? hhead)⟩

theorem getStrikeByDelta_mem (chain : ChainCache) (underlying : Underlying)
    (optionType : OptionType) (bucket : ExpiryBucket) (targetDelta : ℚ)
    (deltaMin deltaMax : Option ℚ) (now : DateTime) (sel : StrikeSelection)
    (h : chain.getStrikeByDelta underlying optionType bucket targetDelta deltaMin deltaMax now =
      some sel) :
    sel.instrument ∈ chain.instrumentsFor underlying optionType bucket now := by
  rcases chain.getStrikeByDelta_candidate _ _ _ _ _ _ _ sel h with ⟨distance, hmem⟩
  exact (chain.deltaCandidates_spec _ _ _ _ _ _ _ distance sel hmem).1

/-- The quote of a selection is the one its symbol has in the chain. -/
theorem getAtmStrike_quote (chain : ChainCache) (underlying : Underlying) (optionType : OptionType)
    (bucket : ExpiryBucket) (spotPrice : ℚ) (offset : Int) (now : DateTime)
    (sel : StrikeSelection)
    (h : chain.getAtmStrike underlying optionType bucket spotPrice offset now = some sel) :
    chain.getQuote sel.instrument.symbol = some sel.quote := by
  unfold getAtmStrike at h
  simp only at h
  split at h
  · cases h
  · split at h
    · cases h
    · rcases Option.map_eq_some_iff.mp h with ⟨q, hquote, hq⟩
      rw [← hq]
      exact hquote

theorem getStrikeByDelta_quote (chain : ChainCache) (underlying : Underlying)
    (optionType : OptionType) (bucket : ExpiryBucket) (targetDelta : ℚ)
    (deltaMin deltaMax : Option ℚ) (now : DateTime) (sel : StrikeSelection)
    (h : chain.getStrikeByDelta underlying optionType bucket targetDelta deltaMin deltaMax now =
      some sel) :
    chain.getQuote sel.instrument.symbol = some sel.quote := by
  rcases chain.getStrikeByDelta_candidate _ _ _ _ _ _ _ sel h with ⟨distance, hmem⟩
  exact (chain.deltaCandidates_spec _ _ _ _ _ _ _ distance sel hmem).2.1

/-- A strike picked by delta has one, within the bounds. -/
theorem getStrikeByDelta_delta (chain : ChainCache) (underlying : Underlying)
    (optionType : OptionType) (bucket : ExpiryBucket) (targetDelta : ℚ)
    (deltaMin deltaMax : Option ℚ) (now : DateTime) (sel : StrikeSelection)
    (h : chain.getStrikeByDelta underlying optionType bucket targetDelta deltaMin deltaMax now =
      some sel) :
    ∃ delta, sel.quote.delta = some delta ∧ (∀ lo ∈ deltaMin, lo ≤ |delta|) ∧
      ∀ hi ∈ deltaMax, |delta| ≤ hi := by
  rcases chain.getStrikeByDelta_candidate _ _ _ _ _ _ _ sel h with ⟨distance, hmem⟩
  rcases chain.deltaCandidates_spec _ _ _ _ _ _ _ distance sel hmem with
    ⟨_, _, delta, hdelta, _, hbounds⟩
  exact ⟨delta, hdelta, hbounds⟩

/-- Every instrument expires at 17:30 on the clock of its record. -/
theorem instrument_expiry (chain : ChainCache) (inst : InstrumentRecord)
    (h : inst ∈ chain.instruments) :
    inst.expiry = combine inst.expiry.date (hourMinute 17 30) :=
  parseSymbol_expiry inst.symbol inst.parsed (chain.listed inst h)

end ChainCache

end OptionsBot
