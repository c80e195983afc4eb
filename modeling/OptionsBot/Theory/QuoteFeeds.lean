import Mathlib.Data.List.ReduceOption
import OptionsBot.Core.Tickers

/-!
# Quote Feeds

What a refresh stores when some of the entries are not what they should be, and
whether the two decoders make the same of a ticker.

An entry by itself gives a quote, gives nothing, or raises, and the loop over the
entries has no handler: one that raises takes the entries behind it with it. Two kinds
do. One has a list, a text, a number or `true` where an object should be, which the
decoder for the feed takes for an empty object. The other has an integer that is too
large for a float, which raises in both.

## Main definitions

* `IsFields`: A value that is an object, or as good as an empty one.
* `picked`: The values a decoder reads as numbers.
* `WellFormedTicker`, `MalformedTicker`: The entries that give a quote, and the ones that raise.
* `IsOptionTicker`: A ticker of an option symbol.
* `RefreshRight`: What a refresh is to do.

## Theorems

* `tickerQuote_isOk`: When the values of a ticker raise nothing.
* `wellFormed_iff`, `malformed_iff`: What the decoder makes of the two kinds of entries.
* `upsertQuotes_last`: Of the quotes of a symbol the last one written stays.
* `decoders_agree_iff`: When the decoders make the same of an option ticker.
* `refreshQuotes_right_iff`: Exactly the malformed entries go wrong.
-/

namespace OptionsBot

/-- An object, or a value that counts as false and so as an empty one. -/
def IsFields (x : JsonTree) : Prop := (∃ fields, x = .object fields) ∨ x.truthy = false

/-- The fields of an object, and none of anything else. -/
def JsonTree.entries : JsonTree → JsonFields
  | .object fields => fields
  | _ => []

/-- What the feed's decoder takes a value for. -/
theorem JsonTree.orEmpty_eq (x : JsonTree) : x.orEmpty = .object x.entries := by
  cases x with
  | _ => rfl

/-- What the list's decoder takes a value for, if it has fields. -/
theorem JsonTree.or_empty (x : JsonTree) (h : IsFields x) :
    x.or (.object []) = .object x.entries := by
  rcases h with ⟨fields, rfl⟩ | hfalse
  · cases fields with
    | nil => rfl
    | cons field rest => rfl
  · rw [JsonTree.or, hfalse, if_neg Bool.false_ne_true]
    cases x with
    | object fields =>
        rw [JsonTree.truthy, Bool.not_eq_false', List.isEmpty_iff] at hfalse
        rw [hfalse, JsonTree.entries]
    | _ => rfl

/-- What it takes for an object is one. -/
theorem JsonTree.isFields_of_or (x : JsonTree) (h : ∃ fields, x.or (.object []) = .object fields) :
    IsFields x := by
  rcases h with ⟨fields, h⟩
  cases htruthy : x.truthy with
  | false => exact Or.inr htruthy
  | true =>
      rw [JsonTree.or, if_pos htruthy] at h
      exact Or.inl ⟨fields, h⟩

/-- The values of a ticker that are read as numbers. -/
def picked (greeks quotes t : JsonFields) : List JsonTree :=
  [(quotes.get "best_bid").or (t.get "best_bid"), (quotes.get "best_ask").or (t.get "best_ask"),
    t.get "mark_price", (greeks.get "iv").or (t.get "iv"), greeks.get "delta",
    greeks.get "gamma", greeks.get "theta", greeks.get "vega", greeks.get "rho",
    (t.get "spot_price").or (t.get "underlying_mark"),
    ((t.get "oi_contracts").or (t.get "open_interest")).or (t.get "oi"),
    (t.get "volume").or (t.get "volume_24h")]

/-- Both inner values of a ticker are objects, and every number fits a float. -/
structure ReadableTicker (t : JsonFields) : Prop where
  greeks : IsFields (t.get "greeks")
  quotes : IsFields (t.get "quotes")
  fits : ∀ v ∈ picked (t.get "greeks").entries (t.get "quotes").entries t, v.Fits

/-- A ticker under a symbol that can be read. -/
structure WellFormedTicker (t : JsonFields) : Prop where
  symbol : ∃ symbol, t.get "symbol" = .text symbol
  readable : ReadableTicker t

/-- A ticker under a symbol that cannot be read. -/
structure MalformedTicker (t : JsonFields) : Prop where
  symbol : ∃ symbol, t.get "symbol" = .text symbol
  unreadable : ¬ ReadableTicker t

/-- A ticker of an option symbol. -/
def IsOptionTicker (t : JsonFields) : Prop :=
  ∃ symbol parts, t.get "symbol" = .text symbol ∧ parseSymbol symbol = .ok (some parts)

section Decoding

variable (parse : String → Option ℚ)

theorem asFloat_then_isOk {β : Type} (v : JsonTree) (f : Option ℚ → Except PyError β) (P : Prop)
    (hf : ∀ a, (∃ y, f a = .ok y) ↔ P) : (∃ y, (v.asFloat parse >>= f) = .ok y) ↔ v.Fits ∧ P := by
  rw [bind_isOk_iff _ f P hf, JsonTree.asFloat_ok_iff]

theorem asFloat_then_raises {β : Type} (v : JsonTree) (f : Option ℚ → Except PyError β)
    (hf : ∀ a, ¬ ∃ y, f a = .ok y) : ¬ ∃ y, (v.asFloat parse >>= f) = .ok y := by
  rw [asFloat_then_isOk parse v f False (fun a => iff_of_false (hf a) id)]
  exact fun h => h.2

/-- With both inner objects there, only a number can raise. -/
theorem tickerQuote_isOk (symbol : String) (greeks quotes t : JsonFields) :
    (∃ quote, tickerQuote parse symbol (.object greeks) (.object quotes) t = .ok quote) ↔
      ∀ v ∈ picked greeks quotes t, v.Fits := by
  unfold picked
  simp only [List.forall_mem_cons]
  -- The twelve values are read one after the other.
  iterate 12 refine asFloat_then_isOk parse _ _ _ (fun _ => ?_)
  exact ⟨fun _ v hv => absurd hv List.not_mem_nil, fun _ => ⟨_, rfl⟩⟩

/-- Without either of them it raises. -/
theorem tickerQuote_fields (symbol : String) (greeks quotes : JsonTree) (t : JsonFields)
    (quote : TickerQuote) (h : tickerQuote parse symbol greeks quotes t = .ok quote) :
    (∃ g, greeks = .object g) ∧ ∃ q, quotes = .object q := by
  by_cases hquotes : ∃ q, quotes = .object q
  · rcases hquotes with ⟨q, rfl⟩
    by_cases hgreeks : ∃ g, greeks = .object g
    · exact ⟨hgreeks, q, rfl⟩
    · -- The prices come first, so the greeks are asked for their fields behind three numbers.
      have hraises : ¬ ∃ quote, tickerQuote parse symbol greeks (.object q) t = .ok quote := by
        iterate 3 refine asFloat_then_raises parse _ _ (fun _ => ?_)
        rw [JsonTree.fields_error greeks hgreeks]
        rintro ⟨y, hy⟩
        cases hy
      exact absurd ⟨quote, h⟩ hraises
  · unfold tickerQuote at h
    rw [JsonTree.fields_error quotes hquotes] at h
    cases h

theorem map_some_isOk {α : Type} (e : Except PyError α) :
    (∃ a, e.map some = .ok (some a)) ↔ ∃ a, e = .ok a := by
  cases e with
  | error x => exact ⟨fun ⟨a, h⟩ => by (cases h), fun ⟨a, h⟩ => by (cases h)⟩
  | ok a => exact ⟨fun _ => ⟨a, rfl⟩, fun _ => ⟨a, rfl⟩⟩

theorem map_some_ne_none {α : Type} (e : Except PyError α) : e.map some ≠ .ok none := by
  cases e with
  | error x => exact fun h => by cases h
  | ok a => exact fun h => by cases h

theorem map_some_eq_some {α : Type} (e : Except PyError α) (a : α)
    (h : e.map some = .ok (some a)) : e = .ok a := by
  cases e with
  | error x => cases h
  | ok b =>
      cases h
      rfl

/-- The list's decoder reads a ticker under a symbol exactly if all of it can be read. -/
theorem tickerToSnapshot_isOk (t : JsonFields) (symbol : String)
    (hsymbol : t.get "symbol" = .text symbol) :
    (∃ quote, tickerToSnapshot parse t = .ok (some quote)) ↔ ReadableTicker t := by
  unfold tickerToSnapshot
  rw [hsymbol]
  simp only [map_some_isOk]
  constructor
  · rintro ⟨quote, hquote⟩
    rcases tickerQuote_fields parse symbol _ _ t quote hquote with ⟨hgreeks, hquotes⟩
    have hg := JsonTree.isFields_of_or _ hgreeks
    have hq := JsonTree.isFields_of_or _ hquotes
    rw [JsonTree.or_empty _ hg, JsonTree.or_empty _ hq] at hquote
    exact ⟨hg, hq, (tickerQuote_isOk parse symbol _ _ t).mp ⟨quote, hquote⟩⟩
  · rintro ⟨hg, hq, hfits⟩
    rw [JsonTree.or_empty _ hg, JsonTree.or_empty _ hq]
    exact (tickerQuote_isOk parse symbol _ _ t).mpr hfits

/-- The feed's decoder reads an option's ticker exactly if all numbers in it can be read. -/
theorem quoteFromWsTicker_isOk (t : JsonFields) (h : IsOptionTicker t) :
    (∃ quote, quoteFromWsTicker parse t = .ok (some quote)) ↔
      ∀ v ∈ picked (t.get "greeks").entries (t.get "quotes").entries t, v.Fits := by
  rcases h with ⟨symbol, parts, hsymbol, hparts⟩
  unfold quoteFromWsTicker
  rw [hsymbol]
  simp only [hparts, JsonTree.orEmpty_eq, map_some_isOk]
  exact tickerQuote_isOk parse symbol _ _ t

/-- Where both decoders read an option's ticker, they make the same of it. -/
theorem decoders_same (t : JsonFields) (h : IsOptionTicker t) (hread : ReadableTicker t) :
    tickerToSnapshot parse t = quoteFromWsTicker parse t := by
  rcases h with ⟨symbol, parts, hsymbol, hparts⟩
  unfold tickerToSnapshot quoteFromWsTicker
  rw [hsymbol]
  simp only [hparts, JsonTree.orEmpty_eq, JsonTree.or_empty _ hread.greeks,
    JsonTree.or_empty _ hread.quotes]

/-- What the decoders make of a ticker is the same quote, or no quote on either side. -/
def DecodersAgree (t : JsonFields) : Prop :=
  ∀ quote, tickerToSnapshot parse t = .ok (some quote) ↔
    quoteFromWsTicker parse t = .ok (some quote)

theorem decoders_agree_iff (t : JsonFields) (h : IsOptionTicker t) : DecodersAgree parse t ↔
    ((∀ v ∈ picked (t.get "greeks").entries (t.get "quotes").entries t, v.Fits) →
      IsFields (t.get "greeks") ∧ IsFields (t.get "quotes")) := by
  rcases h with ⟨symbol, parts, hsymbol, hparts⟩
  have hlist := tickerToSnapshot_isOk parse t symbol hsymbol
  have hfeed := quoteFromWsTicker_isOk parse t ⟨symbol, parts, hsymbol, hparts⟩
  constructor
  · intro hagree hfits
    rcases hfeed.mpr hfits with ⟨quote, hquote⟩
    have hread := hlist.mp ⟨quote, (hagree quote).mpr hquote⟩
    exact ⟨hread.greeks, hread.quotes⟩
  · intro hfields quote
    by_cases hfits : ∀ v ∈ picked (t.get "greeks").entries (t.get "quotes").entries t, v.Fits
    · have hread : ReadableTicker t := ⟨(hfields hfits).1, (hfields hfits).2, hfits⟩
      rw [decoders_same parse t ⟨symbol, parts, hsymbol, hparts⟩ hread]
    · -- A number that does not fit raises in both.
      exact iff_of_false (fun hq => hfits (hlist.mp ⟨quote, hq⟩).fits)
        (fun hq => hfits (hfeed.mp ⟨quote, hq⟩))

/-- An entry without a symbol in it is passed over. -/
theorem tickerToSnapshot_nameless (t : JsonFields) (h : ¬ ∃ symbol, t.get "symbol" = .text symbol) :
    tickerToSnapshot parse t = .ok none := by
  unfold tickerToSnapshot
  split
  · next symbol hsymbol => exact absurd ⟨symbol, hsymbol⟩ h
  · rfl

theorem wellFormed_iff (t : JsonFields) :
    WellFormedTicker t ↔ ∃ quote, tickerToSnapshot parse t = .ok (some quote) := by
  by_cases hsymbol : ∃ symbol, t.get "symbol" = .text symbol
  · rcases hsymbol with ⟨symbol, hsymbol⟩
    rw [tickerToSnapshot_isOk parse t symbol hsymbol]
    exact ⟨fun h => h.readable, fun h => ⟨⟨symbol, hsymbol⟩, h⟩⟩
  · rw [tickerToSnapshot_nameless parse t hsymbol]
    refine iff_of_false (fun h => hsymbol h.symbol) ?_
    rintro ⟨quote, hquote⟩
    cases hquote

theorem malformed_iff (t : JsonFields) :
    MalformedTicker t ↔ ¬ ∃ result, tickerToSnapshot parse t = .ok result := by
  by_cases hsymbol : ∃ symbol, t.get "symbol" = .text symbol
  · have hwell := wellFormed_iff parse t
    constructor
    · rintro hmal ⟨_ | quote, hresult⟩
      · -- Nothing is what the decoder makes of an entry without a symbol only.
        rcases hsymbol with ⟨symbol, hsymbol⟩
        unfold tickerToSnapshot at hresult
        rw [hsymbol] at hresult
        exact absurd hresult (map_some_ne_none _)
      · exact hmal.unreadable (hwell.mpr ⟨quote, hresult⟩).readable
    · intro hraises
      refine ⟨hsymbol, fun hread => hraises ?_⟩
      rcases hwell.mp ⟨hsymbol, hread⟩ with ⟨quote, hquote⟩
      exact ⟨some quote, hquote⟩
  · refine iff_of_false (fun h => hsymbol h.symbol) (not_not_intro ⟨none, ?_⟩)
    exact tickerToSnapshot_nameless parse t hsymbol

/-- The quote of a ticker carries the symbol it is read under. -/
theorem tickerQuote_symbol (symbol : String) (greeks quotes : JsonTree) (t : JsonFields) :
    ∀ quote, tickerQuote parse symbol greeks quotes t = .ok quote → quote.symbol = symbol := by
  unfold tickerQuote
  -- Whatever is read on the way, the symbol is passed on.
  iterate 20 refine of_bind_ok (fun _ => ?_)
  intro quote h
  cases h
  rfl

/-- The quote of a ticker is kept under the symbol it names. -/
theorem tickerToSnapshot_symbol (t : JsonFields) (quote : TickerQuote)
    (h : tickerToSnapshot parse t = .ok (some quote)) : t.get "symbol" = .text quote.symbol := by
  unfold tickerToSnapshot at h
  split at h
  · next symbol hsymbol =>
    have hquote := map_some_eq_some _ _ h
    rw [hsymbol, tickerQuote_symbol parse symbol _ _ t quote hquote]
  · cases h

end Decoding

/-- Of the quotes of a symbol, the last one written stays. -/
theorem upsertQuotes_last (chain : ChainCache) (before after : List TickerQuote)
    (snap : TickerQuote) (hlast : ∀ later ∈ after, later.symbol ≠ snap.symbol) :
    (chain.upsertQuotes (before ++ snap :: after)).getQuote snap.symbol =
      some snap.toQuoteSnapshot := by
  unfold ChainCache.upsertQuotes
  rw [List.foldl_append, List.foldl_cons]
  generalize before.foldl _ chain = written
  induction after using List.reverseRecOn with
  | nil =>
      simp only [List.foldl_nil, ChainCache.getQuote, ChainCache.upsertQuote, if_pos]
  | append_singleton rest later ih =>
      have hother : snap.symbol ≠ later.symbol :=
        (hlast later (List.mem_append_right _ List.mem_cons_self)).symm
      rw [List.foldl_append, List.foldl_cons, List.foldl_nil]
      simp only [ChainCache.getQuote, ChainCache.upsertQuote, if_neg hother]
      exact ih (fun l hl => hlast l (List.mem_append_left _ hl))

section Refresh

variable (parse : String → Option ℚ) (chain : ChainCache) (tickers : List JsonFields)

/-- A refresh returns, and has stored the quote of every well-formed entry, unless
    another one of its symbol comes behind it. -/
structure RefreshRight : Prop where
  returns : ∃ updated, (chain.refreshQuotes parse tickers).2 = .ok updated
  stored : ∀ before t after, tickers = before ++ t :: after → WellFormedTicker t →
    ∃ quote, tickerToSnapshot parse t = .ok (some quote) ∧ t.get "symbol" = .text quote.symbol ∧
      ((∀ t' ∈ after, WellFormedTicker t' → t'.get "symbol" ≠ t.get "symbol") →
        (chain.refreshQuotes parse tickers).1.getQuote quote.symbol = some quote.toQuoteSnapshot)

theorem refreshQuotes_returns_iff : (∃ n, (chain.refreshQuotes parse tickers).2 = .ok n) ↔
    (forEach (tickerToSnapshot parse) tickers).2 = none := by
  simp only [ChainCache.refreshQuotes]
  cases (forEach (tickerToSnapshot parse) tickers).2 with
  | none => exact ⟨fun _ => rfl, fun _ => ⟨_, rfl⟩⟩
  | some e => exact ⟨fun ⟨n, h⟩ => by (cases h), fun h => by (cases h)⟩

/-- A refresh that reaches its end has stored the quotes that are the last of their
    symbols. -/
theorem refreshQuotes_stored (before after : List JsonFields) (t : JsonFields)
    (quote : TickerQuote)
    (hends : (forEach (tickerToSnapshot parse) (before ++ t :: after)).2 = none)
    (hquote : tickerToSnapshot parse t = .ok (some quote))
    (hlast : ∀ t' ∈ after, WellFormedTicker t' → t'.get "symbol" ≠ t.get "symbol") :
    (chain.refreshQuotes parse (before ++ t :: after)).1.getQuote quote.symbol =
      some quote.toQuoteSnapshot := by
  have hbefore : (forEach (tickerToSnapshot parse) before).2 = none := by
    rw [forEach_ends_iff] at hends ⊢
    exact fun x hx => hends x (List.mem_append_left _ hx)
  unfold ChainCache.refreshQuotes
  simp only [forEach_append _ before _ hbefore, forEach, hquote, List.reduceOption_append,
    List.reduceOption_cons_of_some]
  refine upsertQuotes_last chain _ _ quote (fun later hlater hsame => ?_)
  -- A later quote of the symbol comes from a later entry of the symbol.
  rw [List.reduceOption_mem_iff] at hlater
  rcases mem_forEach _ _ _ hlater with ⟨t', ht', hquote'⟩
  refine hlast t' ht' ((wellFormed_iff parse t').mpr ⟨later, hquote'⟩) ?_
  rw [tickerToSnapshot_symbol parse t' later hquote', tickerToSnapshot_symbol parse t quote hquote,
    hsame]

theorem refreshQuotes_iff :
    RefreshRight parse chain tickers ↔ ∀ t ∈ tickers, ¬ MalformedTicker t := by
  have hends : (forEach (tickerToSnapshot parse) tickers).2 = none ↔
      ∀ t ∈ tickers, ¬ MalformedTicker t := by
    rw [forEach_ends_iff]
    exact forall₂_congr (fun t _ => by rw [malformed_iff parse, not_not])
  constructor
  · intro hright
    exact hends.mp ((refreshQuotes_returns_iff parse chain tickers).mp hright.returns)
  · intro hwell
    have hnone := hends.mpr hwell
    refine ⟨(refreshQuotes_returns_iff parse chain tickers).mpr hnone, ?_⟩
    rintro before t after rfl ht
    rcases (wellFormed_iff parse t).mp ht with ⟨quote, hquote⟩
    exact ⟨quote, hquote, tickerToSnapshot_symbol parse t quote hquote,
      refreshQuotes_stored parse chain before after t quote hnone hquote⟩

end Refresh

section Main

variable (parse : String → Option ℚ)

/-- A refresh is right exactly if no entry raises, and the decoders make the same of an
    option's ticker exactly if its inner values are objects or one of its numbers does
    not fit. -/
theorem refreshQuotes_right_iff (chain : ChainCache) (tickers : List JsonFields) :
    (RefreshRight parse chain tickers ↔ ∀ t ∈ tickers, ¬ MalformedTicker t) ∧
      ∀ t, IsOptionTicker t → (DecodersAgree parse t ↔
        ((∀ v ∈ picked (t.get "greeks").entries (t.get "quotes").entries t, v.Fits) →
          IsFields (t.get "greeks") ∧ IsFields (t.get "quotes"))) :=
  ⟨refreshQuotes_iff parse chain tickers, fun t h => decoders_agree_iff parse t h⟩

/-- An entry whose greeks are a list, in front of one that is as it should be. -/
def listedGreeks : List JsonFields :=
  [[("symbol", .text "C-BTC-100000-130526"), ("greeks", .array [.integer 1])],
    [("symbol", .text "P-BTC-100000-130526"), ("mark_price", .integer 120)]]

/-- It aborts the refresh, and only the feed's decoder reads it. -/
theorem refreshQuotes_aborted : ¬ ((∀ parse chain tickers, RefreshRight parse chain tickers) ∧
    ∀ parse t, IsOptionTicker t → DecodersAgree parse t) := by
  rintro ⟨hright, -⟩
  rcases (hright (fun _ => none) .empty listedGreeks).returns with ⟨updated, h⟩
  cases h

end Main

end OptionsBot
