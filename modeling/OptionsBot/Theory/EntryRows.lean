import OptionsBot.Theory.DeskBookkeeping

/-!
# What a Row Keeps of Its Entry

A row is written again and again while its trade is open, and some of it never changes. What the
strategy has decided on stands there twice: in the notes, which the exit engine reads, and in the
features of the signal, which the reports read.

Both come from the same tick, and no later step writes to either. So for every row of the
directional strategy, in every state of every run, the two say the same: the price of the
underlying at the entry, its range, and the option.

## Main definitions

* `EntryFacts`, `DeskRow.atEntry`: What of a row is written at its entry only.
* `EntryFacts.Explained`: The notes and the signal of a directional entry say the same.
* `EntryInput.DecidedAt`, `MainLoop.Decided`: The entries of the strategy are its decisions.

## Theorems

* `evaluateOne_entered`, `evaluateOne_noted`: What a decision says of its market.
* `step_atEntry`: A step keeps what the rows say of their entries.
* `openTrade_explained`: The row of an entry.
* `explained_live`, `explained_run`: The rows of a run.
-/

namespace OptionsBot

/-- What of a row is written at its entry only. -/
structure EntryFacts where
  id : Nat
  strategyId : StrategyId
  underlying : Underlying
  entryTs : DateTime
  expiry : Option DateTime
  premiumPaidInr : Option ℚ
  entryUnderlyingPrice : Option ℚ
  entryAtr : Option ℚ
  signal : Option SignalRow
  legs : List (String × Option OptionType)

/-- The contract of a leg. -/
def Leg.contract (leg : Leg) : String × Option OptionType := (leg.symbol, leg.optionType)

/-- What a record and its legs say of the entry. -/
def TradeRecord.atEntry (record : TradeRecord) (legs : List Leg) : EntryFacts :=
  { id := record.trade.id
    strategyId := record.trade.strategyId
    underlying := record.trade.underlying
    entryTs := record.trade.entryTs
    expiry := record.trade.expiry
    premiumPaidInr := record.trade.premiumPaidInr
    entryUnderlyingPrice := record.trade.notes.entryUnderlyingPrice
    entryAtr := record.trade.notes.entryAtr
    signal := record.signal
    legs := legs.map Leg.contract }

def DeskRow.atEntry (row : DeskRow) : EntryFacts := row.record.atEntry row.legs

namespace EntryFacts

/-- The notes of a directional entry and its signal say the same of one listed option, at a price
    and a range of its underlying. A premium that was paid was paid for that option. -/
structure Explained (f : EntryFacts) (signal : SignalRow) (p : ParsedSymbol) (spot atr : ℚ) :
    Prop where
  recorded : f.signal = some signal
  symbol : parseSymbol signal.intendedSymbol = .ok (some p)
  underlying : f.underlying = p.underlying
  spot : signal.featureVector.get "spot" = some (.num (some spot)) ∧
    f.entryUnderlyingPrice = some spot
  atr : signal.featureVector.get "atr" = some (.num (some atr)) ∧ f.entryAtr = some atr
  legs : ∀ leg ∈ f.legs, leg = (signal.intendedSymbol, some p.optionType)
  paid : ∀ premium ∈ f.premiumPaidInr, 0 < premium ∧ f.legs ≠ []

/-- A row has an expiry, and if it is one of the directional strategy, it is explained. -/
def Sound (f : EntryFacts) : Prop :=
  f.expiry ≠ none ∧
    (f.strategyId = .directional → ∃ signal p spot atr, f.Explained signal p spot atr)

end EntryFacts

namespace Features

variable (d : Features) (k k' : String) (v : FeatureValue)

/-- A feature that is written stands for itself only. -/
theorem get_set_of_ne (h : k ≠ k') : (d.set k v).get k' = d.get k' := by
  unfold get set
  rw [Table.lookup_upsert_of_ne Prod.fst k (fun _ => (k, v)) d rfl k' (Ne.symm h)]

theorem get_update_of_ne (e : List (String × FeatureValue)) (h : ∀ kv ∈ e, kv.1 ≠ k') :
    (d.update e).get k' = d.get k' := by
  induction e generalizing d with
  | nil => rfl
  | cons kv rest ih =>
      have hrest := ih (d.set kv.1 kv.2) (fun kv' hkv' => h kv' (List.mem_cons_of_mem kv hkv'))
      exact hrest.trans (d.get_set_of_ne kv.1 k' kv.2 (h kv List.mem_cons_self))

end Features

namespace DirectionalStrategy

variable (self : DirectionalStrategy)

/-- The percentile goes under keys of its own. -/
theorem withIv_get (features : Features) (iv : Option IvPercentileResult) (key : String)
    (hkey : key ∉ ["iv_percentile", "iv_percentile_reason", "iv_percentile_n"]) :
    (withIv features iv).get key = features.get key := by
  have hne : ∀ k ∈ ["iv_percentile", "iv_percentile_reason", "iv_percentile_n"], k ≠ key :=
    fun k hk heq => hkey (heq ▸ hk)
  cases iv with
  | none => rfl
  | some r =>
      unfold withIv
      simp only
      rw [Features.get_set_of_ne _ _ _ _ (hne _ (by simp)),
        Features.get_set_of_ne _ _ _ _ (hne _ (by simp)),
        Features.get_set_of_ne _ _ _ _ (hne _ (by simp))]

/-- An intent has the features it was entered with, whatever is added to them. -/
theorem enter_features (market : MarketState) (underlying : Underlying) (spot : ℚ)
    (optionType : OptionType) (features : Features) (intent : Intent) (key : String)
    (h : (self.enter market underlying spot optionType features).intent = some intent)
    (hkey : key ∉ ["iv_percentile", "iv_percentile_reason", "iv_percentile_n", "spread_pct", "mid",
      "leg_iv", "leg_oi", "leg_delta", "leg_gamma", "leg_theta", "leg_vega"]) :
    intent.featureVector.get key = features.get key := by
  have hne : ∀ k ∈ ["iv_percentile", "iv_percentile_reason", "iv_percentile_n", "spread_pct", "mid",
      "leg_iv", "leg_oi", "leg_delta", "leg_gamma", "leg_theta", "leg_vega"], k ≠ key :=
    fun k hk heq => hkey (heq ▸ hk)
  have hiv := withIv_get features (market.ivPercentile underlying (self.pickExpiryBucket market))
    key (fun hk => hkey (by simp only [List.mem_cons] at hk ⊢; tauto))
  unfold enter at h
  simp only at h
  -- Only the last of the branches has an intent.
  split at h
  · cases h
  · split at h
    · cases h
    · next sel hsel =>
      split at h
      · cases h
      · simp only [Option.some.injEq] at h
        rw [← h, entryIntent]
        refine (Features.get_update_of_ne _ key (quoteGreekFeatures sel.quote)
          (fun kv hkv => hne kv.1 ?_)).trans ?_
        · have hkeys := List.mem_map_of_mem (f := Prod.fst) hkv
          simp only [quoteGreekFeatures, List.map_cons, List.map_nil] at hkeys
          simp only [List.mem_cons] at hkeys ⊢
          tauto
        · rw [Features.get_set_of_ne _ _ _ _ (hne _ (by simp)),
            Features.get_set_of_ne _ _ _ _ (hne _ (by simp)), hiv]

/-- A decision with an intent has entered, on the price of the underlying and the levels. -/
theorem evaluateOne_entered (market : MarketState) (underlying : Underlying) (d : Decision)
    (intent : Intent) (h : self.evaluateOne market underlying = .ok d)
    (hi : d.intent = some intent) :
    ∃ spot optionType levels, market.spot underlying = some spot ∧
      (self.enter market underlying spot optionType
        (("spot", .num (some spot)) :: TrendLevels.features levels)).intent = some intent := by
  unfold evaluateOne at h
  simp only at h
  -- What is rejected has no intent, and the two setups enter with the same features.
  split at h
  · cases h
    cases hi
  · split at h
    · cases h
      cases hi
    · next spot hspot =>
      split at h
      · cases h
        cases hi
      · split at h
        · cases h
        · cases h
          cases hi
        · next levels _ =>
          split at h
          · cases h
            exact ⟨spot, .call, levels, hspot, hi⟩
          · split at h
            · cases h
              exact ⟨spot, .put, levels, hspot, hi⟩
            · cases h
              cases hi

/-- A decision with an intent notes the price of the underlying and its range, and is for a listed
    option of it. -/
theorem evaluateOne_noted (market : MarketState) (underlying : Underlying) (d : Decision)
    (intent : Intent) (h : self.evaluateOne market underlying = .ok d)
    (hi : d.intent = some intent) :
    intent.strategyId = .directional ∧ intent.underlying = underlying ∧
      (∃ spot, market.spot underlying = some spot ∧
        intent.featureVector.get "spot" = some (.num (some spot))) ∧
      (∃ atr, intent.featureVector.get "atr" = some (.num (some atr))) ∧
      ∃ leg p, intent.legs = [leg] ∧ parseSymbol leg.symbol = .ok (some p) ∧
        p.optionType = leg.optionType ∧ p.underlying = underlying := by
  rcases self.evaluateOne_intent market underlying d intent h hi with
    ⟨optionType, all, sel, mid, hlisted, _, hintent⟩
  rcases (ChainCache.mem_instrumentsFor _ _ _ _ _ _).mp hlisted with ⟨hmem, _, hund, hopt, _⟩
  rcases self.evaluateOne_entered market underlying d intent h hi with
    ⟨spot, _, levels, hspot, henter⟩
  refine ⟨?_, ?_, ⟨spot, hspot, ?_⟩, ⟨levels.atr, ?_⟩, ?_⟩
  · rw [hintent]
    rfl
  · rw [hintent]
    rfl
  -- The features start with the price, and the levels have the range.
  · exact (self.enter_features _ _ _ _ _ _ "spot" henter (by decide)).trans rfl
  · exact (self.enter_features _ _ _ _ _ _ "atr" henter (by decide)).trans rfl
  · rw [hintent]
    exact ⟨_, _, rfl, market.chain.listed _ hmem, hopt, hund⟩

end DirectionalStrategy

/-- The entry is one the directional strategy has decided on at a market, and if it succeeds, it
    has bought what the intent is for. -/
structure EntryInput.DecidedAt (a : EntryInput) (market : MarketState) : Prop where
  decided : ∃ (strategy : DirectionalStrategy) (chain : ChainCache) (u : Underlying) (d : Decision),
    strategy.evaluateOne { market with chain := chain } u = .ok d ∧ d.intent = some a.intent
  bought : ∀ result raises, a.outcome = .answered result raises → result.success = true →
    result.fills.map LegFill.symbol = a.intent.legs.map LegIntent.symbol

namespace MainLoop

/-- The entries of the directional strategy are its decisions. -/
def Decided (s : MainLoop) : LifeEvent → Prop
  | .desk (.enter a) => ∀ t, s.phase = .entering t → a.intent.strategyId = .directional →
      a.DecidedAt t.market
  | _ => True

section Kept

theorem refresh_atEntry (loaded : LoadedRow) (t : DeskTick) (peak : Option ℚ) (row : DeskRow) :
    (row.refresh loaded t peak).atEntry = row.atEntry := by
  unfold DeskRow.refresh DeskRow.atEntry TradeRecord.atEntry refreshOpenTradeRecord
  simp only
  split
  · rfl
  · rfl

theorem close_atEntry (loaded : LoadedRow) (c : ExitContext) (written : Bool) (row : DeskRow) :
    (row.close loaded c written).atEntry = row.atEntry := by
  have hlegs : ∀ legs : List Leg, (legs.map (closedLeg c.result)).map Leg.contract =
      legs.map Leg.contract := fun legs => by
    rw [List.map_map]
    rfl
  unfold DeskRow.close DeskRow.atEntry TradeRecord.atEntry persistExitRecord
  simp only [hlegs]

/-- The rows of a list say of their entries what those of another do. -/
def SameEntries (rows old : List DeskRow) : Prop :=
  ∀ row ∈ rows, ∃ before ∈ old, row.atEntry = before.atEntry

theorem sameEntries_refl (rows : List DeskRow) : SameEntries rows rows :=
  fun row hrow => ⟨row, hrow, rfl⟩

theorem sameEntries_modify (id : Nat) (f : DeskRow → DeskRow)
    (hf : ∀ row, (f row).atEntry = row.atEntry) (rows : List DeskRow) :
    SameEntries (modifyRow id f rows) rows := by
  intro row hrow
  rcases (mem_modifyRow id f rows row).mp hrow with ⟨old, hold, _, rfl⟩ | ⟨hold, _⟩
  · exact ⟨old, hold, hf old⟩
  · exact ⟨row, hold, rfl⟩

/-- What a directive writes is nothing of the entry. -/
theorem carryOut_atEntry (t : DeskTick) (loaded : LoadedRow) (answer : ManageAnswer)
    (acc : CarriedOut) (d : ExitDirective) :
    SameEntries (carryOut t loaded answer acc d).rows acc.rows := by
  unfold carryOut
  split
  · exact sameEntries_refl _
  · split
    · split
      · exact sameEntries_refl _
      · split
        · exact sameEntries_refl _
        · split_ifs
          · exact sameEntries_refl _
          · exact sameEntries_refl _
          · exact sameEntries_modify _ _ (close_atEntry _ _ _) _
    · split_ifs
      · exact sameEntries_refl _
      · exact sameEntries_refl _
      · refine sameEntries_modify _ _ ?_ _
        exact fun _ => rfl
    · exact sameEntries_refl _

theorem carryOuts_atEntry (t : DeskTick) (loaded : LoadedRow) (answer : ManageAnswer)
    (directives : List ExitDirective) (acc : CarriedOut) :
    SameEntries (directives.foldl (carryOut t loaded answer) acc).rows acc.rows := by
  induction directives generalizing acc with
  | nil => exact sameEntries_refl _
  | cons d rest ih =>
      intro row hrow
      rcases ih (carryOut t loaded answer acc d) row hrow with ⟨mid, hmid, hsame⟩
      rcases carryOut_atEntry t loaded answer acc d mid hmid with ⟨old, hold, hsame'⟩
      exact ⟨old, hold, hsame.trans hsame'⟩

variable (s : MainLoop)

/-- The row that an entry writes. -/
def enteredRow (a : EntryInput) (t : DeskTick) (row : Trade × List Leg) : DeskRow :=
  { record := entryRecord a t.market t.lastTs row.1, legs := row.2,
    orders := entryOrders a t.market.now }

/-- A step keeps what the rows say of their entries, and a row that is new is one of an entry. -/
theorem step_atEntry (e : DeskEvent) (row : DeskRow) (hrow : row ∈ (s.step e).rows) :
    (∃ old ∈ s.rows, row.atEntry = old.atEntry) ∨
      ∃ a t opened, e = .enter a ∧ s.phase = .entering t ∧
        opened ∈ (openTrade a.outcome s.nextId a.intent a.sizing t.market (some t.market.quoteFor)
          (some a.chain)).rows ∧ row = enteredRow a t opened := by
  have hsame : ∀ next : MainLoop, next.rows = s.rows → row ∈ next.rows →
      ∃ old ∈ s.rows, row.atEntry = old.atEntry :=
    fun next hrows hmem => sameEntries_refl s.rows row (hrows ▸ hmem)
  unfold step at hrow
  cases e with
  | load t =>
      refine Or.inl (hsame _ ?_ hrow)
      simp only
      split
      · unfold load
        simp only
        split <;> rfl
      · rfl
  | manage answer =>
      -- An exit writes to the rows as they are by now, a moved stop too.
      refine Or.inl ?_
      simp only [manage] at hrow
      split at hrow
      · exact hsame _ rfl hrow
      · split at hrow
        · exact hsame _ rfl hrow
        · exact carryOuts_atEntry _ _ _ _ _ row hrow
      · exact hsame _ rfl hrow
  | refresh chain commits =>
      refine Or.inl ?_
      simp only [refresh] at hrow
      split at hrow
      · exact hsame _ rfl hrow
      · split_ifs at hrow
        · exact hsame _ rfl hrow
        · exact sameEntries_modify _ _ (refresh_atEntry _ _ _) _ row hrow
      · exact hsame _ rfl hrow
  | enter a =>
      simp only [enter] at hrow
      split at hrow
      · next t hphase =>
        rcases List.mem_append.mp hrow with hold | hnew
        · exact Or.inl (sameEntries_refl s.rows row hold)
        · rcases List.mem_map.mp hnew with ⟨opened, hopened, rfl⟩
          exact Or.inr ⟨a, t, opened, rfl, hphase, hopened, rfl⟩
      · exact Or.inl (hsame _ rfl hrow)
  | sleep =>
      refine Or.inl (hsame _ ?_ hrow)
      simp only
      split <;> rfl

end Kept

section Entry

/-- The leg row of a fill is for the contract of the fill, with the type of a leg of the intent. -/
theorem legRow_contract (tradeId : Nat) (intent : Intent) (sizing : SizingResult) (fill : LegFill)
    (row : Leg) (h : legRow tradeId intent sizing fill = .ok row) :
    ∃ leg ∈ intent.legs, row.contract = (fill.symbol, some leg.optionType) := by
  unfold legRow at h
  simp only at h
  split_ifs at h
  · rcases hi : index intent.legs fill.legIdx with e | leg
    · rw [hi] at h
      cases h
    · rw [hi] at h
      cases h
      exact ⟨leg, mem_of_index _ _ _ hi, rfl⟩
  · rcases hi : last intent.legs with e | leg
    · rw [hi] at h
      cases h
    · rw [hi] at h
      cases h
      exact ⟨leg, mem_of_last _ _ hi, rfl⟩

/-- The rows of fills of the one leg of an intent are for that leg. -/
theorem legRows_contract (tradeId : Nat) (intent : Intent) (sizing : SizingResult) (leg : LegIntent)
    (fills : List LegFill) (rows : List Leg) (hlegs : intent.legs = [leg])
    (hfills : fills.map LegFill.symbol = intent.legs.map LegIntent.symbol)
    (h : fills.mapM (legRow tradeId intent sizing) = .ok rows) :
    (∀ row ∈ rows, row.contract = (leg.symbol, some leg.optionType)) ∧ rows ≠ [] := by
  -- There is one leg, so there is one fill, and it is for the symbol of the leg.
  rw [hlegs, List.map_singleton] at hfills
  rcases List.map_eq_singleton_iff.mp hfills with ⟨fill, rfl, hsymbol⟩
  rcases mapM_ok_mem _ _ _ h fill (List.mem_singleton_self fill) with ⟨first, hfirst, _⟩
  refine ⟨fun row hrow => ?_, List.ne_nil_of_mem hfirst⟩
  rcases mem_mapM_ok _ _ _ h row hrow with ⟨fill', hfill, hrowOf⟩
  rcases legRow_contract _ _ _ _ _ hrowOf with ⟨leg', hleg, hcontract⟩
  rw [hlegs, List.mem_singleton] at hleg
  rw [List.mem_singleton] at hfill
  rw [hcontract, hleg, hfill, hsymbol]

theorem entryRecord_signal (a : EntryInput) (market : MarketState)
    (lastTs : Underlying → Timeframe → DateTime) (trade : Trade) :
    (entryRecord a market lastTs trade).signal = a.intent.legs.head?.map (fun first =>
      { intendedSymbol := first.symbol, intendedStrike := some first.strike,
        intendedExpiry := some first.expiry,
        intendedPremiumInr := a.intent.targetPremiumInr.or a.intent.targetCreditInr,
        featureVector := a.intent.featureVector }) := by
  unfold entryRecord
  simp only
  split
  · split_ifs <;> rfl
  · rfl

/-- What a paid premium is of. -/
theorem paid_of_net (net : ℚ) (lots : Int) (premium : ℚ)
    (h : (perLotPremiumFromNet net lots).1 = some premium) : 0 < premium := by
  unfold perLotPremiumFromNet at h
  simp only at h
  generalize net / ((if lots < 1 then 1 else lots : Int) : ℚ) = perLot at h
  by_cases hpaid : 0 < perLot
  · rw [if_pos hpaid] at h
    cases h
    exact hpaid
  · rw [if_neg hpaid] at h
    split_ifs at h

/-- The row of an opened trade is the new row with the legs and the columns of its fills. -/
theorem opened_cases (a : EntryInput) (tradeId : Nat) (market : MarketState)
    (opened : Trade × List Leg)
    (h : opened ∈ (openTrade a.outcome tradeId a.intent a.sizing market (some market.quoteFor)
      (some a.chain)).rows) :
    ∃ first rest, a.intent.legs = first :: rest ∧
      opened.1.strategyId = a.intent.strategyId ∧ opened.1.underlying = a.intent.underlying ∧
      opened.1.expiry = some (latestExpiry first rest) ∧
      opened.1.notes.entryUnderlyingPrice = market.spot a.intent.underlying ∧
      opened.1.notes.entryAtr = atrGuess a.intent.featureVector ∧
      (opened.1.premiumPaidInr = none ∧ opened.2 = [] ∨
        ∃ result raises, a.outcome = .answered result raises ∧ result.success = true ∧
          opened.1.premiumPaidInr =
            (perLotPremiumFromNet result.totalPremiumInr a.sizing.sizedLots).1 ∧
          result.fills.mapM (legRow tradeId a.intent a.sizing) = .ok opened.2) := by
  unfold openTrade at h
  split at h
  · cases h
  · next first rest hlegs =>
    simp only at h
    split at h
    · cases h
    · rw [List.mem_singleton] at h
      rw [h]
      exact ⟨first, rest, hlegs, rfl, rfl, rfl, rfl, rfl, Or.inl ⟨rfl, rfl⟩⟩
    · next result raises houtcome =>
      split at h
      · rw [List.mem_singleton] at h
        rw [h]
        exact ⟨first, rest, hlegs, rfl, rfl, rfl, rfl, rfl, Or.inl ⟨rfl, rfl⟩⟩
      · next row hrow =>
        rw [List.mem_singleton] at h
        rw [h]
        rcases recordEntry_cases _ _ _ _ _ _ row hrow with
          ⟨_, rfl⟩ | ⟨hsuccess, ⟨greeks, htrade⟩, hfills⟩
        · exact ⟨first, rest, hlegs, rfl, rfl, rfl, rfl, rfl, Or.inl ⟨rfl, rfl⟩⟩
        · rw [htrade]
          exact ⟨first, rest, hlegs, rfl, rfl, rfl, rfl, rfl,
            Or.inr ⟨result, raises, houtcome, hsuccess, rfl, hfills⟩⟩

/-- The legs of an opened trade with one leg are for it, and a premium was paid for some. -/
theorem opened_legs (a : EntryInput) (tradeId : Nat) (opened : Trade × List Leg) (leg : LegIntent)
    (hleg : a.intent.legs = [leg])
    (hbought : ∀ result raises, a.outcome = .answered result raises → result.success = true →
      result.fills.map LegFill.symbol = a.intent.legs.map LegIntent.symbol)
    (hfilled : opened.1.premiumPaidInr = none ∧ opened.2 = [] ∨
      ∃ result raises, a.outcome = .answered result raises ∧ result.success = true ∧
        opened.1.premiumPaidInr =
          (perLotPremiumFromNet result.totalPremiumInr a.sizing.sizedLots).1 ∧
        result.fills.mapM (legRow tradeId a.intent a.sizing) = .ok opened.2) :
    (∀ row ∈ opened.2, row.contract = (leg.symbol, some leg.optionType)) ∧
      ∀ premium ∈ opened.1.premiumPaidInr, 0 < premium ∧ opened.2 ≠ [] := by
  rcases hfilled with ⟨hnone, hnil⟩ | ⟨result, raises, houtcome, hsuccess, hpaid, hrows⟩
  · rw [hnone, hnil]
    exact ⟨fun row hrow => (List.not_mem_nil hrow).elim,
      fun premium hpremium => (Option.not_mem_none premium hpremium).elim⟩
  · have hcontract := legRows_contract _ _ _ leg _ _ hleg (hbought result raises houtcome hsuccess)
      hrows
    exact ⟨hcontract.1,
      fun premium hpremium => ⟨paid_of_net _ _ premium (hpaid.symm.trans hpremium), hcontract.2⟩⟩

/-- The row of an entry has an expiry, and if the strategy has decided on it, it is explained. -/
theorem openTrade_explained (a : EntryInput) (t : DeskTick) (tradeId : Nat)
    (opened : Trade × List Leg)
    (h : opened ∈ (openTrade a.outcome tradeId a.intent a.sizing t.market (some t.market.quoteFor)
      (some a.chain)).rows)
    (hdecided : a.intent.strategyId = .directional → a.DecidedAt t.market) :
    (enteredRow a t opened).atEntry.Sound := by
  rcases opened_cases a tradeId t.market opened h with
    ⟨first, rest, hlegs, hid, hund, hexpiry, hspot, hatr, hfilled⟩
  -- What the journal gets is written to the record, and none of it is a column of the trade.
  have hrecord := entryRecord_trade a t.market t.lastTs opened.1
  have hfacts : (enteredRow a t opened).atEntry =
      TradeRecord.atEntry { (entryRecord a t.market t.lastTs opened.1) with trade := opened.1 }
        opened.2 := by
    unfold enteredRow DeskRow.atEntry TradeRecord.atEntry
    simp only [hrecord]
  rw [hfacts]
  refine ⟨?_, fun hdirectional => ?_⟩
  · change opened.1.expiry ≠ none
    rw [hexpiry]
    exact Option.some_ne_none _
  · rcases hdecided (hid.symm.trans hdirectional) with
      ⟨⟨strategy, chain, u, d, hd, hintent⟩, hbought⟩
    rcases strategy.evaluateOne_noted _ u d a.intent hd hintent with
      ⟨_, hu, ⟨spot, hmarket, hspotNoted⟩, ⟨atr, hatrNoted⟩, leg, p, hleg, hparsed, htype, hpund⟩
    have hsignal : ∃ signal, (entryRecord a t.market t.lastTs opened.1).signal = some signal ∧
        signal.intendedSymbol = leg.symbol ∧ signal.featureVector = a.intent.featureVector := by
      rw [entryRecord_signal, hleg]
      exact ⟨_, rfl, rfl, rfl⟩
    rcases hsignal with ⟨signal, hsignal, hsymbol, hfeatures⟩
    have hopenedLegs := opened_legs a tradeId opened leg hleg hbought hfilled
    -- The notes are of the market of the tick, which is the one the decision was made at.
    refine ⟨signal, p, spot, atr, ⟨hsignal, hsymbol ▸ hparsed, ?_, ⟨hfeatures ▸ hspotNoted, ?_⟩,
      ⟨hfeatures ▸ hatrNoted, ?_⟩, ?_, ?_⟩⟩
    · exact hund.trans (hu.trans hpund.symm)
    · refine hspot.trans ?_
      rw [hu]
      exact hmarket
    · refine hatr.trans ?_
      unfold atrGuess
      rw [hatrNoted]
    · intro contract hcontract
      rcases List.mem_map.mp hcontract with ⟨row, hrow, rfl⟩
      rw [hopenedLegs.1 row hrow, htype, hsymbol]
    · intro premium hpremium
      rcases hopenedLegs.2 premium hpremium with ⟨hpositive, hne⟩
      exact ⟨hpositive, fun hnil => hne (List.map_eq_nil_iff.mp hnil)⟩

end Entry

variable (s : MainLoop)

/-- Every row is explained, if it is one of the strategy, and ids are distinct. -/
structure EntriesSound (s : MainLoop) : Prop where
  ids : (s.rows.map DeskRow.id).Nodup
  sound : ∀ row ∈ s.rows, row.atEntry.Sound

theorem entriesSound_nil (h : s.rows = []) : EntriesSound s := by
  refine ⟨?_, fun row hrow => ?_⟩
  · rw [h]
    exact List.nodup_nil
  · rw [h] at hrow
    cases hrow

theorem explained_live (h : EntriesSound s) (e : LifeEvent) (hdecided : s.Decided e) :
    EntriesSound (s.live e) := by
  cases e with
  | restart => exact ⟨h.ids, h.sound⟩
  | desk e =>
      refine ⟨s.ids_step h.ids e, fun row hrow => ?_⟩
      rcases s.step_atEntry e row hrow with
        ⟨old, hold, hsame⟩ | ⟨a, t, opened, rfl, hphase, hopened, rfl⟩
      · rw [hsame]
        exact h.sound old hold
      · exact openTrade_explained a t s.nextId opened hopened (hdecided t hphase)

/-- Every row of the strategy, in every state of every run, says the same in its notes and in its
    signal. -/
theorem explained_run (h : EntriesSound s) (events : List LifeEvent)
    (hdecided : Along live Decided s events) : EntriesSound (events.foldl live s) := by
  induction events generalizing s with
  | nil => exact h
  | cons e rest ih => exact ih (s.live e) (s.explained_live h e hdecided.1) hdecided.2

end MainLoop

end OptionsBot
