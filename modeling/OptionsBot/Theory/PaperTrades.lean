import Mathlib.Algebra.BigOperators.Ring.List
import OptionsBot.Core.DryExecutor
import OptionsBot.Lib.Rounding
import OptionsBot.Theory.BookedNav
import OptionsBot.Theory.RiskBudget

/-!
# What a Dry Run May Earn

A dry run trades against the middle prices of the chain, with a random slippage against each
order. It is what a strategy is promoted on, so it should not flatter: no trade may book more than
it would have at the middle prices themselves.

That is so for each trade of each run, whatever the draws. The slippage is drawn from both signs
and taken by its size, and rounding keeps the order of prices. In the other direction a trade
books no less than it would have with all of the slippage of its strategy on each order. The
account is between the sums of both, as long as the sessions of the closes commit.

A leg without a price is not filled. An entry then fails, and an exit does not: it closes the trade
and counts the leg for nothing. So the bounds of an exit count it for nothing too.

## Main definitions

* `DryExecutor.costWith`: What a lot of legs costs with a share of slippage on each.
* `PaperTrip`: An entry and an exit, with what they may come to.
* `BookingEvent.Paper`: An event of a dry run.
* `PaperOpen`, `PaperClosed`: What holds of the rows.

## Theorems

* `fillLegs_cost`: What the fills cost.
* `paperRows_step`: An event keeps what holds of the rows.
* `paper_never_flatters`: The trades and the account after any dry run.
-/

namespace OptionsBot

-- The sample run below computes with rationals.
attribute [local semireducible] Rat.add Rat.sub Rat.mul Rat.inv

/-- What a generator draws from the range around zero that it is asked for. -/
def Draws (uniform : Nat → Nat → ℚ) : Prop := ∀ bps idx, |uniform bps idx| ≤ bps

/-- The contract and the side of a leg. -/
def LegIntent.stake (leg : LegIntent) : String × Side := (leg.symbol, leg.side)

def Leg.stake (leg : Leg) : String × Side := (leg.symbol, leg.side)

/-- The legs, each on the other side. -/
def turned (legs : List (String × Side)) : List (String × Side) :=
  legs.map (fun leg => (leg.1, leg.2.flip))

namespace DryExecutor

variable (self : DryExecutor)

/-- The price of a fill that is a share above the middle, if there is one. -/
def priceWith (share : ℚ) (symbol : String) : ℚ :=
  match (self.chain.getQuote symbol).bind QuoteSnapshot.mid with
  | none => 0
  | some mid => if mid ≤ 0 then 0 else roundDigits (mid * (1 + share)) 4

/-- What a lot of a leg costs, with a share of slippage against it. -/
def legCost (share : ℚ) (leg : String × Side) : ℚ :=
  leg.2.sign * self.priceWith (leg.2.sign * share) leg.1

/-- What a lot of each leg costs. -/
def costWith (share : ℚ) (legs : List (String × Side)) : ℚ := (legs.map (self.legCost share)).sum

theorem priceWith_mono (a b : ℚ) (h : a ≤ b) (symbol : String) :
    self.priceWith a symbol ≤ self.priceWith b symbol := by
  unfold priceWith
  cases (self.chain.getQuote symbol).bind QuoteSnapshot.mid with
  | none => exact le_rfl
  | some mid =>
      simp only
      split_ifs with hmid
      · exact le_rfl
      · refine roundDigits_mono _ _ 4 (mul_le_mul_of_nonneg_left ?_ (not_le.mp hmid).le)
        exact add_le_add_right h 1

/-- More slippage costs more, on either side. -/
theorem legCost_mono (a b : ℚ) (h : a ≤ b) (leg : String × Side) :
    self.legCost a leg ≤ self.legCost b leg := by
  unfold legCost
  cases leg.2 with
  | buy =>
      simp only [Side.sign, one_mul]
      exact self.priceWith_mono a b h leg.1
  | sell =>
      simp only [Side.sign, neg_mul, one_mul]
      exact neg_le_neg (self.priceWith_mono _ _ (neg_le_neg h) leg.1)

theorem fillLeg_cost (strategyId : StrategyId) (tradeId lots : Nat) (purpose : String) (draw : ℚ)
    (idx : Nat) (leg : LegIntent) :
    (self.fillLeg strategyId tradeId lots purpose draw idx leg).cost =
      lots * self.legCost |draw / 10000| leg.stake := by
  unfold fillLeg legCost priceWith LegIntent.stake
  simp only
  cases (self.chain.getQuote leg.symbol).bind QuoteSnapshot.mid with
  | none => simp only [LegFill.cost, mul_zero]
  | some mid =>
      simp only
      split_ifs with hmid
      · simp only [LegFill.cost, mul_zero]
      · simp only [LegFill.cost]
        ring

/-- Fills that each cost no less than one bound and no more than another. -/
theorem sum_cost_between (low high : LegIntent → ℚ) (legs : List LegIntent)
    (fill : Nat → LegIntent → LegFill)
    (h : ∀ idx leg, low leg ≤ (fill idx leg).cost ∧ (fill idx leg).cost ≤ high leg) :
    (legs.map low).sum ≤ ((legs.mapIdx fill).map LegFill.cost).sum ∧
      ((legs.mapIdx fill).map LegFill.cost).sum ≤ (legs.map high).sum := by
  induction legs generalizing fill with
  | nil => exact ⟨le_rfl, le_rfl⟩
  | cons leg rest ih =>
      rw [List.mapIdx_cons, List.map_cons, List.map_cons, List.map_cons, List.sum_cons,
        List.sum_cons, List.sum_cons]
      have hrest := ih (fun idx => fill (idx + 1)) (fun idx => h (idx + 1))
      exact ⟨add_le_add (h 0 leg).1 hrest.1, add_le_add (h 0 leg).2 hrest.2⟩

/-- The fills cost no less than at the middle prices, and no more than with all of the slippage. -/
theorem fillLegs_cost (strategyId : StrategyId) (tradeId : Nat) (legs : List LegIntent)
    (lots : Nat) (purpose : String) (uniform : Nat → Nat → ℚ) (hdraws : Draws uniform) :
    lots * self.costWith 0 (legs.map LegIntent.stake) ≤
        ((self.fillLegs strategyId tradeId legs lots purpose uniform).map LegFill.cost).sum ∧
      ((self.fillLegs strategyId tradeId legs lots purpose uniform).map LegFill.cost).sum ≤
        lots * self.costWith (self.slipBps strategyId / 10000) (legs.map LegIntent.stake) := by
  have hsum : ∀ share, (legs.map (fun leg => lots * self.legCost share leg.stake)).sum =
      lots * self.costWith share (legs.map LegIntent.stake) := by
    intro share
    rw [costWith, List.map_map, List.sum_map_mul_left]
    rfl
  rw [← hsum, ← hsum]
  refine sum_cost_between _ _ legs _ (fun idx leg => ?_)
  have hlots : (0 : ℚ) ≤ lots := Nat.cast_nonneg lots
  have hdraw : |uniform (self.slipBps strategyId) idx / 10000| ≤
      self.slipBps strategyId / 10000 := by
    rw [abs_div, abs_of_pos (by norm_num : (0 : ℚ) < 10000)]
    exact div_le_div_of_nonneg_right (hdraws _ idx) (by norm_num)
  rw [fillLeg_cost]
  exact ⟨mul_le_mul_of_nonneg_left (self.legCost_mono _ _ (abs_nonneg _) _) hlots,
    mul_le_mul_of_nonneg_left (self.legCost_mono _ _ hdraw _) hlots⟩

/-- The row of a fill has the contract and the side of the leg. -/
theorem legRow_stake (strategyId : StrategyId) (tradeId lots : Nat) (purpose : String) (draw : ℚ)
    (intent : Intent) (sizing : SizingResult) (idx : Nat) (hidx : idx < intent.legs.length)
    (row : Leg) (h : legRow tradeId intent sizing (self.fillLeg strategyId tradeId lots purpose
      draw idx intent.legs[idx]) = .ok row) : row.stake = intent.legs[idx].stake := by
  generalize hfill : self.fillLeg strategyId tradeId lots purpose draw idx intent.legs[idx] = fill
    at h
  have hfacts : fill.legIdx = idx ∧ fill.symbol = intent.legs[idx].symbol := by
    rw [← hfill]
    unfold fillLeg
    simp only
    split
    · exact ⟨rfl, rfl⟩
    · split_ifs <;> exact ⟨rfl, rfl⟩
  unfold legRow index at h
  rw [hfacts.1] at h
  simp only [Nat.cast_lt, hidx, if_true, Int.natCast_nonneg, not_lt.mpr, if_false, Int.toNat_natCast,
    List.getElem?_eq_getElem, Except.map, Except.ok.injEq] at h
  rw [← h]
  exact Prod.ext hfacts.2 rfl

/-- The rows of an entry are those of the legs it was sent for. -/
theorem legRows_stakes (strategyId : StrategyId) (tradeId lots : Nat) (purpose : String)
    (uniform : Nat → Nat → ℚ) (intent : Intent) (sizing : SizingResult) (rows : List Leg)
    (h : (self.fillLegs strategyId tradeId intent.legs lots purpose uniform).mapM
      (legRow tradeId intent sizing) = .ok rows) :
    rows.map Leg.stake = intent.legs.map LegIntent.stake := by
  have hall := (mapM_ok_iff _ _ _).mp h
  have hlength := hall.length_eq
  rw [fillLegs_length] at hlength
  refine List.ext_getElem ?_ (fun idx hrow hleg => ?_)
  · rw [List.length_map, List.length_map, hlength]
  · rw [List.length_map] at hrow hleg
    rw [List.getElem_map, List.getElem_map]
    have hrowOf := List.Forall₂.get hall (i := idx) (by rw [fillLegs_length]; exact hleg) hrow
    simp only [fillLegs, List.get_eq_getElem, List.getElem_mapIdx] at hrowOf
    exact self.legRow_stake _ _ _ _ _ intent sizing idx hleg _ hrowOf

end DryExecutor

/-- An entry and an exit on the same legs. -/
structure PaperTrip where
  strategyId : StrategyId
  lots : Int
  legs : List (String × Side)
  entry : DryExecutor
  exit : DryExecutor

namespace PaperTrip

variable (t : PaperTrip)

/-- What the trip earns with a share of slippage at its entry and another at its exit. -/
def pnl (entryShare exitShare : ℚ) : ℚ :=
  -(t.lots * (t.entry.costWith entryShare t.legs + t.exit.costWith exitShare (turned t.legs)))

/-- What it earns at the middle prices. -/
def best : ℚ := t.pnl 0 0

/-- What it earns with all of the slippage. -/
def worst : ℚ :=
  t.pnl (t.entry.slipBps t.strategyId / 10000) (t.exit.slipBps t.strategyId / 10000)

end PaperTrip

namespace BookingEvent

/-- Every request is answered by the simulator. -/
def Paper : BookingEvent → Prop
  | .exit _ execute _ _ | .other (.exit execute _ _) =>
    ∃ self uniform, Draws uniform ∧ execute = DryExecutor.submitExit self uniform
  | .other (.entry execute _ _ _) =>
    ∃ self uniform, Draws uniform ∧ execute = DryExecutor.submitEntry self uniform
  | _ => True

/-- An entry is sent for the legs. -/
def Enters (e : BookingEvent) (t : PaperTrip) : Prop :=
  ∃ uniform intent input market,
    e = .other (.entry (t.entry.submitEntry uniform) intent input market) ∧
      intent.strategyId = t.strategyId ∧ intent.legs.map LegIntent.stake = t.legs

/-- An exit is sent for the trade, and its session commits. -/
def Leaves (e : BookingEvent) (t : PaperTrip) (tradeId : Nat) : Prop :=
  ∃ uniform trigger, e = .exit .committed (t.exit.submitExit uniform) tradeId trigger ∨
    e = .other (.exit (t.exit.submitExit uniform) tradeId trigger)

end BookingEvent

/-- What holds of an open row: it is of an entry that was sent, and its columns are between what
    the legs cost at the middle prices and what they cost with all of the slippage. -/
structure PaperOpen (events : List BookingEvent) (row : Trade × List Leg) (t : PaperTrip) :
    Prop where
  sent : ∃ before e after, events = before ++ e :: after ∧ e.Enters t
  strategy : row.1.strategyId = t.strategyId
  lots : row.1.lots = t.lots ∧ 1 ≤ t.lots
  stakes : row.2.map Leg.stake = t.legs
  paid : t.lots * t.entry.costWith 0 t.legs ≤
      -entryCashflowInr row.1.premiumPaidInr row.1.creditReceivedInr row.1.lots ∧
    -entryCashflowInr row.1.premiumPaidInr row.1.creditReceivedInr row.1.lots ≤
      t.lots * t.entry.costWith (t.entry.slipBps t.strategyId / 10000) t.legs

/-- What holds of a closed row: it is of an entry that was sent and an exit after it, and books
    what these may come to. -/
structure PaperClosed (events : List BookingEvent) (row : Trade × List Leg) (t : PaperTrip) :
    Prop where
  sent : ∃ before e between e' after, events = before ++ e :: (between ++ e' :: after) ∧
    e.Enters t ∧ e'.Leaves t row.1.id
  strategy : row.1.strategyId = t.strategyId
  lots : row.1.lots = t.lots
  booked : ∃ pnl, row.1.realisedPnlInr = some pnl ∧ t.worst ≤ pnl ∧ pnl ≤ t.best

/-- What holds of all rows. -/
def PaperRows (events : List BookingEvent) (rows : List (Trade × List Leg)) : Prop :=
  ∀ row ∈ rows, (row.1.status = .«open» → ∃ t, PaperOpen events row t) ∧
    (row.1.status = .closed → ∃ t, PaperClosed events row t)

theorem paperRows_concat (events : List BookingEvent) (e : BookingEvent)
    (rows : List (Trade × List Leg)) (h : PaperRows events rows) :
    PaperRows (events ++ [e]) rows := by
  intro row hrow
  refine ⟨fun hopen => ?_, fun hclosed => ?_⟩
  · rcases (h row hrow).1 hopen with ⟨t, ht⟩
    rcases ht.sent with ⟨before, enter, after, heq, henter⟩
    refine ⟨t, { ht with sent := ⟨before, enter, after ++ [e], ?_, henter⟩ }⟩
    rw [heq, List.append_assoc, List.cons_append]
  · rcases (h row hrow).2 hclosed with ⟨t, ht⟩
    rcases ht.sent with ⟨before, enter, between, leave, after, heq, hsent⟩
    refine ⟨t, { ht with sent := ⟨before, enter, between, leave, after ++ [e], ?_, hsent⟩ }⟩
    rw [heq, List.append_assoc, List.cons_append, List.append_assoc, List.cons_append]

section Entry

variable (self : DryExecutor) (uniform : Nat → Nat → ℚ) (hdraws : Draws uniform) (tradeId : Nat)
  (intent : Intent) (sizing : SizingResult) (market : MarketState)
  (quoteFor : Option (String → Option QuoteSnapshot)) (chain : Option ChainCache) (timeout : ℚ)

include hdraws in
/-- A row that an entry has opened. -/
theorem entry_paper (hlots : 1 ≤ sizing.sizedLots) (row : Trade × List Leg)
    (h : persistEntryAndExecute (self.submitEntry uniform) tradeId intent sizing market quoteFor
      chain timeout = .ok row) (hopen : row.1.status = .«open») (before : List BookingEvent)
    (input : GateInput) :
    PaperOpen (before ++ [.other (.entry (self.submitEntry uniform) intent input market)]) row
      { strategyId := intent.strategyId, lots := sizing.sizedLots,
        legs := intent.legs.map LegIntent.stake, entry := self, exit := self } := by
  rcases persistEntryAndExecute_ok _ _ _ _ _ _ _ _ row h with ⟨first, rest, _, hrecord⟩
  rcases recordEntry_cases _ _ _ _ _ _ row hrecord with
    ⟨_, hrow⟩ | ⟨hsuccess, ⟨greeks, htrade⟩, hlegs⟩
  · rw [hrow] at hopen
    cases hopen
  · have hfills : ((self.submitEntry uniform (entryRequest tradeId intent sizing timeout)).fills =
        self.fillLegs intent.strategyId tradeId intent.legs sizing.sizedLots.toNat "entry"
          uniform) := by
      unfold DryExecutor.submitEntry
      simp only
      split_ifs <;> rfl
    rw [hfills] at hlegs
    have hcash : -entryCashflowInr row.1.premiumPaidInr row.1.creditReceivedInr row.1.lots =
        ((self.fillLegs intent.strategyId tradeId intent.legs sizing.sizedLots.toNat "entry"
          uniform).map LegFill.cost).sum := by
      rw [htrade, ← hfills]
      exact neg_eq_iff_eq_neg.mpr (entryCashflow_perLot _ _ hlots)
    have hcast : ((sizing.sizedLots.toNat : Nat) : ℚ) = sizing.sizedLots := by
      exact_mod_cast Int.toNat_of_nonneg (by omega)
    have hcost := self.fillLegs_cost intent.strategyId tradeId intent.legs sizing.sizedLots.toNat
      "entry" uniform hdraws
    rw [← hcash, hcast] at hcost
    refine ⟨⟨before, _, [], rfl, uniform, intent, input, market, rfl, rfl, rfl⟩, ?_, ⟨?_, hlots⟩,
      self.legRows_stakes _ _ _ _ _ intent sizing row.2 hlegs, hcost⟩
    · rw [htrade]
      rfl
    · rw [htrade]
      rfl

end Entry

/-- The request is for the legs of the rows, in some order. -/
theorem exitRequest_stakes (trade : Trade) (legs : List Leg) (trigger : ExitTrigger)
    (now : DateTime) (request : ExitRequest)
    (h : exitRequest trade legs trigger now = .ok request) :
    request.strategyId = trade.strategyId ∧ request.lots = trade.lots.toNat ∧
      (request.legs.map LegIntent.stake).Perm (legs.map Leg.stake) := by
  unfold exitRequest at h
  split at h
  · cases h
  · next intents hmap =>
    cases h
    have hstakes := map_mapM_ok _ LegIntent.stake Leg.stake (fun row leg hleg => ?_) _ _ hmap
    · refine ⟨rfl, rfl, ?_⟩
      change (intents.map LegIntent.stake).Perm _
      rw [hstakes]
      exact (List.perm_insertionSort _ legs).map _
    · unfold exitLeg at hleg
      split at hleg
      · cases hleg
        rfl
      · cases hsymbol : expiryFromLegSymbol row.symbol now with
        | error e =>
            rw [hsymbol] at hleg
            cases hleg
        | ok expiry =>
            rw [hsymbol] at hleg
            cases hleg
            rfl

theorem costWith_perm (self : DryExecutor) (share : ℚ) (legs legs' : List (String × Side))
    (h : legs.Perm legs') : self.costWith share legs = self.costWith share legs' :=
  (h.map _).sum_eq

theorem stakes_flipped (legs : List LegIntent) :
    (DryExecutor.flipped legs).map LegIntent.stake = turned (legs.map LegIntent.stake) := by
  rw [DryExecutor.flipped, turned, List.map_map, List.map_map]
  rfl

theorem exitCashflow_cost (fills : List LegFill) :
    exitCashflowInr fills = -(fills.map LegFill.cost).sum := by
  rw [exitCashflowInr, List.sum_neg, List.map_map]
  rfl

/-- An exit that is simulated books no more than at the middle prices, and no less than with all of
    the slippage. -/
theorem exit_paper (events : List BookingEvent) (row : Trade × List Leg) (t : PaperTrip)
    (h : PaperOpen events row t) (exit : DryExecutor) (uniform : Nat → Nat → ℚ)
    (hdraws : Draws uniform) (trigger : ExitTrigger) (now : DateTime) (request : ExitRequest)
    (hrequest : exitRequest row.1 row.2 trigger now = .ok request) :
    PaperTrip.worst { t with exit := exit } ≤
        tradeRealisedPnl row.1 (exit.submitExit uniform request) ∧
      tradeRealisedPnl row.1 (exit.submitExit uniform request) ≤
        PaperTrip.best { t with exit := exit } := by
  rcases exitRequest_stakes row.1 row.2 trigger now request hrequest with
    ⟨hstrategy, hlots, hstakes⟩
  rw [h.stakes] at hstakes
  have hturned : ∀ share, exit.costWith share
      ((DryExecutor.flipped request.legs).map LegIntent.stake) =
        exit.costWith share (turned t.legs) := by
    intro share
    rw [stakes_flipped]
    exact costWith_perm exit share _ _ (hstakes.map _)
  have hcast : (request.lots : ℚ) = t.lots := by
    rw [hlots, h.lots.1]
    exact_mod_cast Int.toNat_of_nonneg (by have := h.lots.2; omega)
  have hcost := exit.fillLegs_cost request.strategyId request.tradeId
    (DryExecutor.flipped request.legs) request.lots ("exit_" ++ request.trigger.value) uniform
    hdraws
  rw [hturned, hturned, hcast, hstrategy, h.strategy] at hcost
  have hpnl : tradeRealisedPnl row.1 (exit.submitExit uniform request) =
      entryCashflowInr row.1.premiumPaidInr row.1.creditReceivedInr row.1.lots -
        ((exit.fillLegs t.strategyId request.tradeId (DryExecutor.flipped request.legs)
          request.lots ("exit_" ++ request.trigger.value) uniform).map LegFill.cost).sum := by
    rw [tradeRealisedPnl, realisedPnlInr, exitCashflow_cost, ← sub_eq_add_neg,
      DryExecutor.submitExit, hstrategy, h.strategy]
  have hpaid := h.paid
  rw [hpnl]
  simp only [PaperTrip.worst, PaperTrip.best, PaperTrip.pnl, mul_add]
  constructor <;> linarith

section Steps

variable (events : List BookingEvent) (s : EngineState) (h : PaperRows events s.trades)

include h in
/-- An exit closes a row that is open, or leaves all of them. -/
theorem exit_paperRows (exit : DryExecutor) (uniform : Nat → Nat → ℚ) (hdraws : Draws uniform)
    (tradeId : Nat) (trigger : ExitTrigger) (e : BookingEvent)
    (he : e = .exit .committed (exit.submitExit uniform) tradeId trigger ∨
      e = .other (.exit (exit.submitExit uniform) tradeId trigger)) :
    PaperRows (events ++ [e]) (s.exit (exit.submitExit uniform) tradeId trigger).trades := by
  rcases EngineState.exit_booked (s := s) (exit.submitExit uniform) tradeId trigger with
    hsame | ⟨row, hrow, hid, hopen, request, hrequest, ⟨hfailed, _⟩ | ⟨_, heq⟩⟩
  · rw [hsame]
    exact paperRows_concat events e s.trades h
  · -- A simulated exit does not fail.
    cases hfailed
  · rcases (h row hrow).1 hopen with ⟨t, ht⟩
    have hpnl := exit_paper events row t ht exit uniform hdraws trigger s.now request hrequest
    rcases ht.sent with ⟨before, enter, after, hevents, henter⟩
    have hclosed : PaperClosed (events ++ [e])
        ({ row.1 with
            status := .closed
            exitTs := some ((exit.submitExit uniform request).completedAt.getD s.now)
            realisedPnlInr := some (tradeRealisedPnl row.1 (exit.submitExit uniform request))
            exitReason := some trigger },
          row.2.map (closedLeg (exit.submitExit uniform request)))
        { t with exit := exit } := by
      refine ⟨⟨before, enter, after, e, [], ?_, henter, uniform, trigger, ?_⟩, ht.strategy,
        ht.lots.1, _, rfl, hpnl⟩
      · rw [hevents, List.append_assoc, List.cons_append]
      · rw [hid]
        exact he
    intro row' hrow'
    rw [heq] at hrow'
    rcases Table.mem_upsert _ _ _ _ _ hrow' with hold | rfl | ⟨_, _, _, rfl⟩
    · exact paperRows_concat events e s.trades h row' hold
    · exact ⟨fun hstatus => (nomatch hstatus), fun _ => ⟨_, hclosed⟩⟩
    · exact ⟨fun hstatus => (nomatch hstatus), fun _ => ⟨_, hclosed⟩⟩

include h in
/-- An entry adds a row that is open or errored, or none. -/
theorem entry_paperRows (self : DryExecutor) (uniform : Nat → Nat → ℚ) (hdraws : Draws uniform)
    (intent : Intent) (input : GateInput) (market : MarketState) :
    PaperRows (events ++ [.other (.entry (self.submitEntry uniform) intent input market)])
      (s.entry (self.submitEntry uniform) intent input market).trades := by
  have hbefore := paperRows_concat events
    (.other (.entry (self.submitEntry uniform) intent input market)) s.trades h
  unfold EngineState.entry
  split
  · exact hbefore
  · next sizing hgate =>
    split_ifs with happroved
    · split
      · exact hbefore
      · next row hrow =>
        rcases s.risk.gate_approved intent input sizing hgate happroved with
          ⟨_, _, strategy, _, hsizing⟩
        have hlots : 1 ≤ sizing.sizedLots := by
          rw [hsizing] at happroved ⊢
          rcases s.risk.sizeIntent_approved intent strategy.base input happroved with
            ⟨_, _, _, hlots, _⟩
          exact hlots
        intro row' hrow'
        rcases List.mem_append.mp hrow' with hold | hnew
        · exact hbefore row' hold
        · rw [List.mem_singleton.mp hnew]
          refine ⟨fun hopen => ⟨_, entry_paper self uniform hdraws _ intent sizing market _ _ _
            hlots row hrow hopen events input⟩, fun hclosed => ?_⟩
          exact absurd hclosed (persistEntryAndExecute_row _ _ _ _ _ _ _ _ row hrow).2
    · exact hbefore

include h in
/-- Any event of a dry run keeps what holds of the rows. -/
theorem paperRows_step (e : BookingEvent) (he : e.Paper) :
    PaperRows (events ++ [e]) (s.bookStep e).trades := by
  have hkept := paperRows_concat events e s.trades h
  cases e with
  | exit outcome execute tradeId trigger =>
      rcases he with ⟨self, uniform, hdraws, rfl⟩
      cases outcome with
      | committed =>
          exact exit_paperRows events s h self uniform hdraws tradeId trigger _ (Or.inl rfl)
      | raised => exact hkept
      | missing => exact fun row hrow => hkept row (List.mem_of_mem_filter hrow)
  | other e =>
      cases e with
      | exit execute tradeId trigger =>
          rcases he with ⟨self, uniform, hdraws, rfl⟩
          exact exit_paperRows events s h self uniform hdraws tradeId trigger _ (Or.inr rfl)
      | entry execute intent input market =>
          rcases he with ⟨self, uniform, hdraws, rfl⟩
          exact entry_paperRows events s h self uniform hdraws intent input market
      | _ =>
          rw [EngineState.bookStep, EngineState.step_rows]
          · exact hkept
          · exact id

end Steps

/-- What some value of the closed trades adds up to. -/
def closedTotal (value : Trade × List Leg → ℚ) (trades : List (Trade × List Leg)) : ℚ :=
  ((trades.filter (fun row => row.1.status = .closed)).map value).sum

/-- Closed trades that each book between two values book between the sums of them. -/
theorem closedPnl_between (low high : Trade × List Leg → ℚ) (trades : List (Trade × List Leg))
    (h : ∀ row ∈ trades, row.1.status = .closed →
      ∃ pnl, row.1.realisedPnlInr = some pnl ∧ low row ≤ pnl ∧ pnl ≤ high row) :
    closedTotal low trades ≤ closedPnl (fun _ => true) trades ∧
      closedPnl (fun _ => true) trades ≤ closedTotal high trades := by
  induction trades with
  | nil => exact ⟨le_rfl, le_rfl⟩
  | cons row rest ih =>
      have hrest := ih (fun r hr => h r (List.mem_cons_of_mem row hr))
      unfold closedTotal at hrest ⊢
      rw [closedPnl_cons]
      by_cases hclosed : row.1.status = .closed
      · rcases h row List.mem_cons_self hclosed with ⟨pnl, hpnl, hlow, hhigh⟩
        rw [List.filter_cons_of_pos (by simpa only [decide_eq_true_eq] using hclosed),
          if_pos ⟨hclosed, rfl⟩, hpnl, Option.getD_some, List.map_cons, List.sum_cons, List.map_cons,
          List.sum_cons]
        exact ⟨add_le_add hlow hrest.1, add_le_add hhigh hrest.2⟩
      · rw [List.filter_cons_of_neg (by simpa only [decide_eq_true_eq] using hclosed),
          if_neg (fun hboth => hclosed hboth.1), zero_add]
        exact hrest

section Runs

variable (s₀ : EngineState) (events : List BookingEvent) (hpaper : ∀ e ∈ events, e.Paper)

include hpaper in
theorem paperRows_run (hrows : PaperRows [] s₀.trades) :
    PaperRows events (events.foldl EngineState.bookStep s₀).trades := by
  induction events using List.reverseRecOn with
  | nil => exact hrows
  | append_singleton before e ih =>
      rw [List.foldl_concat]
      exact paperRows_step before _ (ih fun x hx => hpaper x (List.mem_append_left _ hx)) e
        (hpaper e (List.mem_append_right _ List.mem_cons_self))

/-- The account and the rows agree after a run whose sessions book what there is to book. -/
theorem navBooked_along (hids : TradeIds s₀.trades) (hbooked : NavBooked s₀)
    (halong : Along EngineState.bookStep (fun s e => ¬ e.IsUpdateNav ∧ SessionBooked s e) s₀
      events) : NavBooked (events.foldl EngineState.bookStep s₀) := by
  induction events generalizing s₀ with
  | nil => exact hbooked
  | cons e rest ih =>
      exact ih (s₀.bookStep e) (bookStep_tradeIds s₀ e hids)
        ((bookStep_navBooked_iff s₀ e hids halong.1.1 hbooked).mpr halong.1.2) halong.2

end Runs

theorem boot_navBooked (app : AppConfig) (table : NavTable) (dir : RuntimeDir) (now : DateTime) :
    NavBooked (boot app [] table dir now) := by
  have hboot := (EngineState.boot_value app [] table dir now).1
  rw [navBooked_iff, EngineState.unbooked, hboot, closedPnl_all, sub_eq_zero]
  rfl

/-- In any dry run, every closed trade comes from an entry and a later exit of the run, and books no
    more than these would have at the middle prices, and no less than with all of the slippage. The
    account of a run whose sessions book what there is to book is between the sums of both. -/
theorem paper_never_flatters (app : AppConfig) (table : NavTable) (dir : RuntimeDir)
    (now : DateTime) (events : List BookingEvent) (hpaper : ∀ e ∈ events, e.Paper) :
    ∃ trip : Trade × List Leg → PaperTrip,
      (∀ row ∈ (events.foldl EngineState.bookStep (boot app [] table dir now)).trades,
        row.1.status = .closed → PaperClosed events row (trip row)) ∧
      (Along EngineState.bookStep (fun s e => ¬ e.IsUpdateNav ∧ SessionBooked s e)
          (boot app [] table dir now) events →
        (events.foldl EngineState.bookStep (boot app [] table dir now)).app.effectiveNavInr +
            closedTotal (fun row => (trip row).worst)
              (events.foldl EngineState.bookStep (boot app [] table dir now)).trades ≤
          (events.foldl EngineState.bookStep (boot app [] table dir now)).nav.navNow ∧
        (events.foldl EngineState.bookStep (boot app [] table dir now)).nav.navNow ≤
          (events.foldl EngineState.bookStep (boot app [] table dir now)).app.effectiveNavInr +
            closedTotal (fun row => (trip row).best)
              (events.foldl EngineState.bookStep (boot app [] table dir now)).trades) := by
  have hrows := paperRows_run (boot app [] table dir now) events hpaper
    (fun _ hrow => absurd hrow List.not_mem_nil)
  have hbooked := navBooked_along (boot app [] table dir now) events List.nodup_nil
    (boot_navBooked app table dir now)
  generalize events.foldl EngineState.bookStep (boot app [] table dir now) = s at hrows hbooked ⊢
  have hsome : ∀ row, ∃ t : PaperTrip, row ∈ s.trades → row.1.status = .closed →
      PaperClosed events row t := by
    intro row
    by_cases hclosed : row ∈ s.trades ∧ row.1.status = .closed
    · rcases (hrows row hclosed.1).2 hclosed.2 with ⟨t, ht⟩
      exact ⟨t, fun _ _ => ht⟩
    · exact ⟨{ strategyId := .directional, lots := 0, legs := [],
               entry := { chain := ChainCache.empty }, exit := { chain := ChainCache.empty } },
        fun hrow hstatus => absurd ⟨hrow, hstatus⟩ hclosed⟩
  rcases Classical.skolem.mp hsome with ⟨trip, htrip⟩
  refine ⟨trip, htrip, fun halong => ?_⟩
  have hvalue := (hbooked halong).value
  rw [closedPnl_all] at hvalue
  rw [hvalue]
  have hbetween := closedPnl_between (fun row => (trip row).worst) (fun row => (trip row).best)
    s.trades (fun row hrow hclosed => (htrip row hrow hclosed).booked)
  exact ⟨add_le_add_right hbetween.1 _, add_le_add_right hbetween.2 _⟩

/-- A generator that draws half of what it is asked for. -/
def halfDraws (bps _idx : Nat) : ℚ := bps / 2

theorem halfDraws_draws : Draws halfDraws := by
  intro bps idx
  have hbps : (0 : ℚ) ≤ bps := Nat.cast_nonneg bps
  rw [halfDraws, abs_of_nonneg (by linarith)]
  linarith

/-- A lot of the call is bought at 400 and sold at 450, with half of the slippage against each. -/
def paperEvents : List BookingEvent :=
  [.other (.entry (DryExecutor.submitEntry { chain := callChain } halfDraws) callIntent callInput
      callMarket),
    .exit .committed (DryExecutor.submitExit
      { chain := callChain.upsertQuote "C-BTC-97000-130526" { markPrice := some 450 } }
      halfDraws) 1 .target]

theorem paperEvents_paper : ∀ e ∈ paperEvents, e.Paper := by
  intro e he
  rcases List.mem_pair.mp he with rfl | rfl
  · exact ⟨_, halfDraws, halfDraws_draws, rfl⟩
  · exact ⟨_, halfDraws, halfDraws_draws, rfl⟩

/-- The trade books 47.875, which is less than the 50 of the middle prices. -/
theorem paper_never_flatters_call :
    ∃ row ∈ (paperEvents.foldl EngineState.bookStep
        (boot shippedConfig [] {} {} callMarket.now)).trades,
      row.1.realisedPnlInr = some (383 / 8) ∧ ∃ t, PaperClosed paperEvents row t := by
  have hrow : ∃ row ∈ (paperEvents.foldl EngineState.bookStep
      (boot shippedConfig [] {} {} callMarket.now)).trades,
      row.1.status = .closed ∧ row.1.realisedPnlInr = some (383 / 8) := by decide +kernel
  rcases hrow with ⟨row, hrow, hclosed, hpnl⟩
  rcases paper_never_flatters shippedConfig {} {} callMarket.now paperEvents paperEvents_paper with
    ⟨trip, htrip, _⟩
  exact ⟨row, hrow, hpnl, trip row, htrip row hrow hclosed⟩

end OptionsBot
