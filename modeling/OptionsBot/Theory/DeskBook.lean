import OptionsBot.Theory.ConcurrencyLimits

/-!
# The Book an Intent Is Gated Against

Within a tick every intent should be gated against all that was opened before it, for
the desk's limits on the book's greeks as for the limits on open trades.

The counts of open trades keep up: they are taken again after every entry. The book does
not. It is added up before the first intent, from the rows loaded when the tick began,
and every intent is given that one. So an intent that follows an opened trade in its tick
is gated against a book without it, and the book is right just when the first intent that
opens a trade is the last of its tick.

## Main definitions

* `GateCall.BookCurrent`: The book has every trade opened before the call.
* `GatesCurrent`: What each call of the gate in a tick should be given.
* `OpensLast`: A trade that is opened is opened by the last intent.

## Theorems

* `gateIntents_calls`: What the loop hands to every call.
* `bookCurrent_iff`: Exactly when every call has a current book.
* `gatesCurrent_iff`: The same, for a tick.
-/

namespace OptionsBot

-- The sample runs below compute with rationals.
attribute [local semireducible] Rat.add Rat.sub Rat.mul Rat.inv

namespace EngineState

variable (t : EntryTick) (book : Option PortfolioGreeks)

/-- The intent opens a trade. -/
def opensTrade (s : EngineState) (a : EntryAttempt) : Bool :=
  match s.risk.gate a.intent (gateInput t book (accountingSnapshot s.trades) a) with
  | .error _ => false
  | .ok sizing => sizing.approved &&
    (openTrade a.outcome s.nextTradeId a.intent sizing t.market (some t.market.quoteFor)
      (some a.chain)).rows.any (fun row => row.1.status = .«open»)

/-- The gate or the entry raises, which ends the tick. -/
def endsLoop (s : EngineState) (a : EntryAttempt) : Bool :=
  match s.risk.gate a.intent (gateInput t book (accountingSnapshot s.trades) a) with
  | .error _ => true
  | .ok sizing => sizing.approved &&
    (openTrade a.outcome s.nextTradeId a.intent sizing t.market (some t.market.quoteFor)
      (some a.chain)).raised

/-- The state after the intent. -/
def attempted (s : EngineState) (a : EntryAttempt) : EngineState :=
  match s.risk.gate a.intent (gateInput t book (accountingSnapshot s.trades) a) with
  | .error _ => s
  | .ok sizing =>
    if sizing.approved then
      { s with trades := s.trades ++
          (openTrade a.outcome s.nextTradeId a.intent sizing t.market (some t.market.quoteFor)
            (some a.chain)).rows }
    else s

/-- The loop over the intents, one intent at a time. -/
theorem gateIntents_cons (openRows : List (Trade × List Leg)) (s : EngineState)
    (a : EntryAttempt) (rest : List EntryAttempt) :
    gateIntents t openRows book s (accountingSnapshot s.trades) (a :: rest) =
      let call : GateCall :=
        { trades := s.trades, bookRows := openRows
          input := gateInput t book (accountingSnapshot s.trades) a }
      if s.endsLoop t book a then (s.attempted t book a, [call])
      else
        let later := gateIntents t openRows book (s.attempted t book a)
          (accountingSnapshot (s.attempted t book a).trades) rest
        (later.1, call :: later.2) := by
  unfold endsLoop attempted
  rw [gateIntents]
  rcases s.risk.gate a.intent (gateInput t book (accountingSnapshot s.trades) a) with e | sizing
  · rfl
  · by_cases happroved : sizing.approved = true
    · simp only [happroved, if_true, Bool.true_and]
    · simp only [happroved, if_false, Bool.false_and, Bool.false_eq_true]

end EngineState

/-- The book of the call has every open trade that was not there when the tick began. -/
def GateCall.BookCurrent (before : List (Trade × List Leg)) (call : GateCall) : Prop :=
  ∀ row ∈ call.trades, row.1.status = .«open» → row.1.id ∉ before.map (fun r => r.1.id) →
    row ∈ call.bookRows

instance (before : List (Trade × List Leg)) (call : GateCall) :
    Decidable (call.BookCurrent before) :=
  inferInstanceAs (Decidable (∀ row ∈ call.trades, row.1.status = .«open» →
    row.1.id ∉ before.map (fun r => r.1.id) → row ∈ call.bookRows))

/-- Every call of the gate in a tick is given the counts of the trades there are, and a
    book with every trade opened before it in the tick. -/
def GatesCurrent (s : EngineState) (t : EntryTick) : Prop :=
  ∀ call ∈ (s.enterTick t).2,
    call.input.accounting = accountingSnapshot call.trades ∧
      call.input.portfolioGreeks = some (PortfolioGreeks.fromOpenTrades call.bookRows
        t.market.quoteFor (some t.bookChain)) ∧
      call.BookCurrent s.trades

/-- No intent but the last opens a trade, up to one that ends the tick. -/
def OpensLast (t : EntryTick) (book : Option PortfolioGreeks) :
    EngineState → List EntryAttempt → Prop
  | _, [] => True
  | s, a :: rest => rest = [] ∨ s.endsLoop t book a = true ∨
    (s.opensTrade t book a = false ∧ OpensLast t book (s.attempted t book a) rest)

section Calls

variable (t : EntryTick) (openRows : List (Trade × List Leg)) (book : Option PortfolioGreeks)

/-- Every call is given the counts of the trades there are, and the one book. -/
theorem gateIntents_calls (attempts : List EntryAttempt) (s : EngineState) :
    ∀ call ∈ (EngineState.gateIntents t openRows book s (accountingSnapshot s.trades) attempts).2,
      call.input.accounting = accountingSnapshot call.trades ∧
        call.input.portfolioGreeks = book ∧ call.bookRows = openRows := by
  induction attempts generalizing s with
  | nil => exact fun call hcall => absurd hcall List.not_mem_nil
  | cons a rest ih =>
      intro call hcall
      rw [EngineState.gateIntents_cons] at hcall
      simp only at hcall
      split_ifs at hcall
      · rw [List.mem_singleton] at hcall
        rw [hcall]
        exact ⟨rfl, rfl, rfl⟩
      · rcases List.mem_cons.mp hcall with rfl | hlater
        · exact ⟨rfl, rfl, rfl⟩
        · exact ih (s.attempted t book a) call hlater

/-- An intent that opens a trade adds an open row under the next id, and one that does
    not adds no open row. -/
theorem attempted_open (s : EngineState) (a : EntryAttempt) :
    (s.opensTrade t book a = true → ∃ row ∈ (s.attempted t book a).trades,
        row.1.status = .«open» ∧ row.1.id = s.nextTradeId) ∧
      (s.opensTrade t book a = false → ∀ row ∈ (s.attempted t book a).trades,
        row.1.status = .«open» → row ∈ s.trades) := by
  unfold EngineState.opensTrade EngineState.attempted
  rcases s.risk.gate a.intent (EngineState.gateInput t book (accountingSnapshot s.trades) a) with
    e | sizing
  · exact ⟨Bool.noConfusion, fun _ row hrow _ => hrow⟩
  · by_cases happroved : sizing.approved = true
    · simp only [happroved, if_true, Bool.true_and]
      refine ⟨fun hany => ?_, fun hnone row hrow hopen => ?_⟩
      · rcases List.any_eq_true.mp hany with ⟨row, hrow, hopen⟩
        refine ⟨row, List.mem_append_right _ hrow, of_decide_eq_true hopen, ?_⟩
        rcases openTrade_row s.nextTradeId a.intent sizing t.market (some t.market.quoteFor)
          (some a.chain) a.outcome with hnil | ⟨row', hsingle, hid, _⟩
        · rw [hnil] at hrow
          exact absurd hrow List.not_mem_nil
        · rw [hsingle, List.mem_singleton] at hrow
          rw [hrow, hid]
      · refine (List.mem_append.mp hrow).resolve_right (fun hnew => ?_)
        exact List.any_eq_false.mp hnone row hnew (decide_eq_true hopen)
    · simp only [happroved, if_false, Bool.false_and, Bool.false_eq_true, false_implies, true_and]
      exact fun _ row hrow _ => hrow

/-- No row goes away at the gate. -/
theorem attempted_mem (s : EngineState) (a : EntryAttempt) (row : Trade × List Leg)
    (h : row ∈ s.trades) : row ∈ (s.attempted t book a).trades := by
  unfold EngineState.attempted
  split
  · exact h
  · split_ifs
    · exact List.mem_append_left _ h
    · exact h

/-- The first call of a loop sees the trades the loop starts with. -/
theorem gateIntents_first (s : EngineState) (a : EntryAttempt) (rest : List EntryAttempt) :
    ∃ call ∈ (EngineState.gateIntents t openRows book s (accountingSnapshot s.trades)
      (a :: rest)).2, call.trades = s.trades ∧ call.bookRows = openRows := by
  rw [EngineState.gateIntents_cons]
  simp only
  split_ifs
  · exact ⟨_, List.mem_singleton_self _, rfl, rfl⟩
  · exact ⟨_, List.mem_cons_self, rfl, rfl⟩

/-- If nothing was opened before the loop and the book has only rows from then, every
    call has a current book just when no intent but the last opens a trade. -/
theorem bookCurrent_iff (before : List (Trade × List Leg))
    (hbook : ∀ row ∈ openRows, row.1.id ∈ before.map (fun r => r.1.id))
    (attempts : List EntryAttempt) (s : EngineState)
    (hthere : ∀ id ∈ before.map (fun r => r.1.id), ∃ row ∈ s.trades, row.1.id = id)
    (hnone : ∀ row ∈ s.trades, row.1.status = .«open» →
      row.1.id ∈ before.map (fun r => r.1.id)) :
    (∀ call ∈ (EngineState.gateIntents t openRows book s (accountingSnapshot s.trades)
        attempts).2, call.BookCurrent before) ↔ OpensLast t book s attempts := by
  induction attempts generalizing s with
  | nil => exact iff_of_true (fun call hcall => absurd hcall List.not_mem_nil) trivial
  | cons a rest ih =>
      have hhead : GateCall.BookCurrent before
          { trades := s.trades, bookRows := openRows
            input := EngineState.gateInput t book (accountingSnapshot s.trades) a } :=
        fun row hrow hopen hnew => absurd (hnone row hrow hopen) hnew
      rw [EngineState.gateIntents_cons, OpensLast]
      cases hends : s.endsLoop t book a with
      | true =>
          simp only [if_true, List.mem_singleton, forall_eq, true_or, or_true, iff_true]
          exact hhead
      | false =>
          simp only [Bool.false_eq_true, if_false, List.forall_mem_cons, hhead, true_and,
            false_or]
          rcases attempted_open t book s a with ⟨hopened, hkept⟩
          have hthere' : ∀ id ∈ before.map (fun r => r.1.id),
              ∃ row ∈ (s.attempted t book a).trades, row.1.id = id := by
            intro id hid
            rcases hthere id hid with ⟨row, hrow, heq⟩
            exact ⟨row, attempted_mem t book s a row hrow, heq⟩
          cases hopens : s.opensTrade t book a with
          | false =>
              -- Nothing is opened yet, so the rest of the tick decides.
              rw [ih (s.attempted t book a) hthere'
                (fun row hrow hopen => hnone row (hkept hopens row hrow hopen) hopen)]
              refine ⟨fun h => Or.inr ⟨rfl, h⟩, fun h => ?_⟩
              rcases h with rfl | ⟨_, h⟩
              · exact trivial
              · exact h
          | true =>
              simp only [Bool.true_eq_false, false_and, or_false]
              constructor
              · intro hall
                cases rest with
                | nil => rfl
                | cons b rest =>
                    -- The next call has the new trade, and its book cannot have it.
                    rcases gateIntents_first t openRows book (s.attempted t book a) b rest with
                      ⟨call, hcall, htrades, hrows⟩
                    rcases hopened hopens with ⟨row, hrow, hopen, hid⟩
                    have hnew : row.1.id ∉ before.map (fun r => r.1.id) := by
                      intro hold
                      rcases hthere _ hold with ⟨old, hold, heq⟩
                      exact absurd (heq.trans hid) (EngineState.lt_nextTradeId old hold).ne
                    have hmem := hall call hcall row (htrades ▸ hrow) hopen hnew
                    rw [hrows] at hmem
                    exact absurd (hbook row hmem) hnew
              · rintro rfl
                exact fun call hcall => absurd hcall List.not_mem_nil

end Calls

/-- Exits change no ids. -/
theorem exitAll_ids (exits : List ((ExitRequest → ExitResult) × Nat × ExitTrigger))
    (s : EngineState) :
    (s.exitAll exits).trades.map (fun r => r.1.id) = s.trades.map (fun r => r.1.id) := by
  refine EngineState.exitAll_induct
    (fun now => now.trades.map (fun r => r.1.id) = s.trades.map (fun r => r.1.id)) ?_ exits s rfl
  intro now execute tradeId trigger hnow
  rcases EngineState.exit_booked (s := now) execute tradeId trigger with
    hsame | ⟨row, hrow, hid, _, _, _, ⟨_, heq⟩ | ⟨_, heq⟩⟩
  · rw [hsame]
    exact hnow
  · rw [heq]
    refine (Table.map_key_upsert (fun r : Trade × List Leg => r.1.id) tradeId _ (fun _ => ?_)
      now.trades row hrow hid).trans hnow
    exact hid
  · rw [heq]
    refine (Table.map_key_upsert (fun r : Trade × List Leg => r.1.id) tradeId _ (fun _ => ?_)
      now.trades row hrow hid).trans hnow
    exact hid

/-- The book of a tick, while the desk's gates are on. -/
def tickBook (s : EngineState) (t : EntryTick) : PortfolioGreeks :=
  PortfolioGreeks.fromOpenTrades (loadOpenTrades s.trades) t.market.quoteFor (some t.bookChain)

/-- With the desk's gates on, every call of the gate in a tick is given what it should
    be just when the first intent that opens a trade is the last of the tick. -/
theorem gatesCurrent_iff (s : EngineState) (t : EntryTick)
    (hdesk : s.app.globalConfig.desk.enabled = true) :
    GatesCurrent s t ↔ OpensLast t (some (tickBook s t)) (s.exitAll t.exits) t.attempts := by
  have happ : (s.exitAll t.exits).app = s.app := EngineState.exitAll_app s t.exits
  have hbook : (s.exitAll t.exits).portfolioBook t (loadOpenTrades s.trades) =
      some (tickBook s t) := by
    rw [EngineState.portfolioBook, happ, if_pos hdesk]
    rfl
  have hids := exitAll_ids t.exits s
  have hloaded : ∀ row ∈ loadOpenTrades s.trades, row.1.id ∈ s.trades.map (fun r => r.1.id) :=
    fun row hrow => List.mem_map_of_mem ((mem_loadOpenTrades s.trades row).mp hrow).1
  have hcurrent := bookCurrent_iff t (loadOpenTrades s.trades) (some (tickBook s t)) s.trades
    hloaded t.attempts (s.exitAll t.exits)
    (fun id hid => List.mem_map.mp (hids ▸ hid))
    (fun row hrow _ => hids ▸ List.mem_map_of_mem hrow)
  rw [← hcurrent]
  unfold GatesCurrent EngineState.enterTick
  simp only [hbook]
  refine ⟨fun h call hcall => (h call hcall).2.2, fun h call hcall => ?_⟩
  rcases gateIntents_calls t _ _ t.attempts _ call hcall with ⟨hcounts, hgiven, hrows⟩
  refine ⟨hcounts, ?_, h call hcall⟩
  rw [hgiven, hrows]
  rfl

/-- The desk's gates on, and room for two trades of a strategy. -/
def deskConfig : AppConfig :=
  { shippedConfig with
    globalConfig := { shippedGlobalConfig with
      concurrency := { shippedGlobalConfig.concurrency with
        maxPerStrategy := 2, maxPerStrategy_pos := by norm_num }
      desk := { shippedGlobalConfig.desk with enabled := true } } }

/-- The call with a delta of a half. -/
def deskChain : ChainCache :=
  callChain.upsertQuote "C-BTC-97000-130526"
    { markPrice := some 400, delta := some (1 / 2), openInterest := some 100 }

/-- A tick of intents for ten calls each, and what becomes of them. -/
def deskTick (outcomes : List EntryOutcome) : EntryTick :=
  { market := callMarket, bookChain := deskChain
    attempts := outcomes.map (fun outcome =>
      { intent := callIntent, chain := deskChain, marks := callMarket.underlyingMarks
        outcome := outcome }) }

/-- The entry is filled. -/
def callFilled : EntryOutcome :=
  .answered
    { success := true, tradeId := 1
      fills := [{ symbol := "C-BTC-97000-130526", side := .buy, qtyRequested := 10
                  qtyFilled := 10, avgFillPrice := some 400, legIdx := 0
                  clientOrderId := .generated "directional" 1 0 "entry" }] } false

/-- The first entry fails, and the second is filled. -/
theorem gatesCurrent_iff_failed :
    GatesCurrent (boot deskConfig [] {} {} callMarket.now)
      (deskTick [.answered { success := false, tradeId := 1 } false, callFilled]) :=
  (gatesCurrent_iff _ _ rfl).mpr (Or.inr (Or.inr ⟨by decide, Or.inl rfl⟩))

/-- Both entries are filled. The first one has a delta of 41225 rupees, past the limit of
    15000, and the second is still gated against an empty book. -/
theorem second_gate_stale : ¬ ∀ (s : EngineState) (t : EntryTick),
    s.app.globalConfig.desk.enabled = true → GatesCurrent s t := by
  intro hall
  have hgates := hall (boot deskConfig [] {} {} callMarket.now)
    (deskTick [callFilled, callFilled]) rfl
  have hcurrent : ∀ call ∈ ((boot deskConfig [] {} {} callMarket.now).enterTick
      (deskTick [callFilled, callFilled])).2, call.BookCurrent [] :=
    fun call hcall => (hgates call hcall).2.2
  revert hcurrent
  decide

end OptionsBot
