import OptionsBot.Core.MainRun
import OptionsBot.Theory.CrashedEntry
import OptionsBot.Theory.PeakColumn

/-!
# Rows After Their Close

The main loop loads the open rows at the start of a tick and refreshes the notes of all of
them at its end, also of those that the tick has closed. So a row is written once more after
its close: with the tick's indicators, its wallet, its unrealised profit and its peak. Nothing
else writes to a closed row, at any point of any run, and a run leaves the closed rows alone
exactly if each such refresh finds in the notes what it would write.

The journal of a trade is written by its close, before that refresh. It shows none of what the
refresh writes, so it stays what the database would give.

## Main definitions

* `DeskRow.Filed`: A journal file is that of a closed row, and current.
* `Frozen`, `JournalsCurrent`: The closed rows are still there, and their journals current.
* `ClosedRowsStay`: Both, along a run.
* `NotesCurrent`, `Settled`: A refresh finds what it would write.
* `Manageable`, `Fits`: What holds of the loop between any two writes.
* `Stepped`: What a step can do.
* `ClosesNothing`, `RefreshesOpen`: A step that closes no trade, and a tick that has closed none.

## Theorems

* `refresh_eq_iff`: When a refresh changes nothing.
* `step_cases`: What a step can do, for every event in every phase.
* `fits_step`: Every step keeps the invariant.
* `frozen_step_iff`: When a step leaves the closed rows alone.
* `journal_current`: The journals of closed trades are always current.
* `closed_rows_stay_iff`: When a run leaves the closed rows alone.
* `settled_of_calm`: A run that closes no trade does.
-/

namespace OptionsBot

-- The sample runs below compute with rationals.
attribute [local semireducible] Rat.add Rat.sub Rat.mul Rat.inv

/-- The row has no journal file, or it is closed and its file shows what it would show if it was
    written now. -/
def DeskRow.Filed (row : DeskRow) : Prop :=
  row.file = none ∨ row.isClosed ∧ row.file = some row.page

/-- The positions that are still to be managed. -/
def LoopPhase.pending : LoopPhase → List (LoadedRow × PositionState)
  | .managing _ _ pending _ => pending
  | _ => []

/-- The loaded rows that are still to be refreshed. -/
def LoopPhase.unrefreshed : LoopPhase → List LoadedRow
  | .managing _ loaded _ _ => loaded
  | .refreshing _ pending _ => pending
  | _ => []

namespace MainLoop

/-- The closed rows of a state are rows of another, as they were. -/
def Frozen (s t : MainLoop) : Prop := ∀ row ∈ s.rows, row.isClosed → row ∈ t.rows

/-- The journals of the closed trades show what they would show if they were written now. -/
def JournalsCurrent (s : MainLoop) : Prop :=
  ∀ row ∈ s.rows, row.isClosed → ∀ page ∈ row.file, page = row.page

/-- Once a row is closed at some point of the run, it is the same at every later point, and its
    journal is what the database would give. -/
structure ClosedRowsStay (s : MainLoop) (events : List DeskEvent) : Prop where
  rows : Steadily step Frozen s events
  journals : Throughout (fun before => JournalsCurrent (before.foldl step s)) events

/-- The notes of a row have what a refresh would write: the indicators, the wallet and the
    unrealised profit if there is one, and a peak that is no lower. -/
structure NotesCurrent (loaded : LoadedRow) (t : DeskTick) (peak : Option ℚ) (r : TradeRecord) :
    Prop where
  indicators : r.notes.lastIndicatorSnapshot =
    some (indicatorSnapshotForTrade loaded.trade t.market t.lastTs)
  wallet : ∀ wallet ∈ t.wallet, r.notes.walletLastTick = some wallet
  unrealized : ∀ pnl ∈ estimateUnrealizedPnlInr loaded.trade loaded.legs t.market.chain,
    r.notes.unrealizedPnlInr = some pnl
  peak : ∀ p ∈ peak.or (estimateUnrealizedPnlInr loaded.trade loaded.legs t.market.chain),
    ∃ noted ∈ r.trade.notes.peakPnlInr, p ≤ noted

/-- The peak that a tick has for a trade. -/
def peakFor (id : Nat) (peakByTrade : List (Nat × ℚ)) : Option ℚ :=
  (Table.lookup Prod.fst id peakByTrade).map Prod.snd

/-- If the step refreshes a row that is closed by now, its notes have what the refresh would
    write. -/
def Settled (s : MainLoop) (e : DeskEvent) : Prop :=
  ∀ t loaded pending peaks chain, s.phase = .refreshing t (loaded :: pending) peaks →
    e = .refresh chain true → ∀ row ∈ s.rows, row.id = loaded.trade.id → row.isClosed →
      NotesCurrent loaded (t.withChain chain) (peakFor loaded.trade.id peaks) row.record

/-- Some positions are of different rows, none of which is closed. -/
structure Manageable (rows : List DeskRow) (pending : List (LoadedRow × PositionState)) : Prop where
  distinct : (pending.map (fun p => p.1.trade.id)).Nodup
  unclosed : ∀ p ∈ pending, ∀ row ∈ rows, row.id = p.1.trade.id → ¬row.isClosed

/-- What holds of the loop between any two writes: ids are distinct, journals are current, and
    no position that is still to be managed is of a closed row. -/
structure Fits (s : MainLoop) : Prop where
  ids : (s.rows.map DeskRow.id).Nodup
  filed : ∀ row ∈ s.rows, row.Filed
  pending : Manageable s.rows s.phase.pending

section Notes

/-- A choice of a value that is there, or of the old one, is the old one exactly if the value
    that is there is the old one. -/
theorem or_eq_right_iff {α : Type} (x old : Option α) :
    x.or old = old ↔ ∀ v ∈ x, old = some v := by
  cases x with
  | none => exact iff_of_true rfl (fun _ hv => nomatch hv)
  | some v =>
      rw [Option.some_or]
      exact ⟨fun h v' hv' => by rw [← h]; exact hv', fun h => (h v rfl).symm⟩

/-- A peak that is noted stays if it is no lower. -/
theorem some_max_eq_iff (noted : Option ℚ) (p : ℚ) :
    some (max (noted.getD p) p) = noted ↔ ∃ q ∈ noted, p ≤ q := by
  cases noted with
  | none => exact iff_of_false (fun h => nomatch h) (fun ⟨_, hq, _⟩ => nomatch hq)
  | some q =>
      rw [Option.getD_some, Option.some.injEq, max_eq_left_iff]
      constructor
      · intro h
        exact ⟨q, rfl, h⟩
      · rintro ⟨q', hq, h⟩
        rw [Option.some.inj hq]
        exact h

variable (loaded : Trade) (legs : List Leg) (chain : ChainCache) (snapshot : IndicatorSnapshot)
  (wallet : Option WalletSnapshot) (peak : Option ℚ) (r : TradeRecord)

/-- A refresh leaves the columns and notes that decisions read, if the peak is noted. -/
theorem refresh_trade_eq_iff :
    (refreshOpenTradeRecord loaded legs chain snapshot wallet peak r).trade = r.trade ↔
      ∀ p ∈ peak.or (estimateUnrealizedPnlInr loaded legs chain),
        ∃ q ∈ r.trade.notes.peakPnlInr, p ≤ q := by
  unfold refreshOpenTradeRecord
  dsimp only
  cases peak.or (estimateUnrealizedPnlInr loaded legs chain) with
  | none => exact iff_of_true rfl (fun _ hp => nomatch hp)
  | some p =>
      -- The peak is the only one of these columns that a refresh writes.
      simp only [Option.mem_some, forall_eq']
      rw [← some_max_eq_iff]
      constructor
      · intro h
        exact congrArg (fun t : Trade => t.notes.peakPnlInr) h
      · intro h
        rw [h]

/-- It leaves the other notes, if they have what it writes. -/
theorem refresh_notes_eq_iff :
    (refreshOpenTradeRecord loaded legs chain snapshot wallet peak r).notes = r.notes ↔
      r.notes.lastIndicatorSnapshot = some snapshot ∧
        (∀ w ∈ wallet, r.notes.walletLastTick = some w) ∧
        ∀ pnl ∈ estimateUnrealizedPnlInr loaded legs chain,
          r.notes.unrealizedPnlInr = some pnl := by
  unfold refreshOpenTradeRecord
  simp only
  rw [← or_eq_right_iff, ← or_eq_right_iff]
  constructor
  · intro h
    exact ⟨(congrArg JournalNotes.lastIndicatorSnapshot h).symm,
      congrArg JournalNotes.walletLastTick h, congrArg JournalNotes.unrealizedPnlInr h⟩
  · rintro ⟨hsnapshot, hwallet, hpnl⟩
    rw [hwallet, hpnl, ← hsnapshot]

end Notes

/-- A refresh changes nothing exactly if the notes have what it would write. -/
theorem refresh_eq_iff (loaded : LoadedRow) (t : DeskTick) (peak : Option ℚ) (row : DeskRow) :
    row.refresh loaded t peak = row ↔ NotesCurrent loaded t peak row.record := by
  have htrade := refresh_trade_eq_iff loaded.trade loaded.legs t.market.chain
    (indicatorSnapshotForTrade loaded.trade t.market t.lastTs) t.wallet peak row.record
  have hnotes := refresh_notes_eq_iff loaded.trade loaded.legs t.market.chain
    (indicatorSnapshotForTrade loaded.trade t.market t.lastTs) t.wallet peak row.record
  constructor
  · intro h
    have hrecord := congrArg DeskRow.record h
    rcases hnotes.mp (congrArg TradeRecord.notes hrecord) with ⟨hind, hwallet, hpnl⟩
    exact ⟨hind, hwallet, hpnl, htrade.mp (congrArg TradeRecord.trade hrecord)⟩
  · intro h
    -- The refresh writes these two fields of the record, and no other.
    have hrecord : ∀ r r' : TradeRecord, r'.trade = r.trade → r'.notes = r.notes →
        r' = { r with trade := r'.trade, notes := r'.notes } → r' = r := by
      intro r r' ht hn hr
      rw [hr, ht, hn]
    unfold DeskRow.refresh
    rw [hrecord row.record _ (htrade.mpr h.peak)
      (hnotes.mpr ⟨h.indicators, h.wallet, h.unrealized⟩) rfl]

theorem refresh_columns (loaded : LoadedRow) (t : DeskTick) (peak : Option ℚ) (row : DeskRow) :
    (row.refresh loaded t peak).id = row.id ∧
      ((row.refresh loaded t peak).isClosed ↔ row.isClosed) := by
  unfold DeskRow.refresh DeskRow.id DeskRow.isClosed refreshOpenTradeRecord
  dsimp only
  split
  · exact ⟨rfl, Iff.rfl⟩
  · exact ⟨rfl, Iff.rfl⟩

/-- A refresh leaves the journal current. -/
theorem refresh_filed (loaded : LoadedRow) (t : DeskTick) (peak : Option ℚ) (row : DeskRow)
    (h : row.Filed) : (row.refresh loaded t peak).Filed := by
  rcases h with hnone | ⟨hclosed, hfile⟩
  · exact Or.inl hnone
  · refine Or.inr ⟨(refresh_columns loaded t peak row).2.mpr hclosed, hfile.trans ?_⟩
    exact congrArg some (render_refresh _ _ _ _ _ _ _ _ _).symm

/-- What managing a position may do to its row: the id stays, and a journal file that is new
    is that of a row that is closed. -/
structure ManageWrite (f : DeskRow → DeskRow) : Prop where
  id : ∀ row, (f row).id = row.id
  filed : ∀ row, row.file = none → (f row).Filed

/-- What a step can do: at most the phase changes, or the open rows are loaded, a position is
    managed, a row is refreshed, or a trade is opened. -/
inductive Stepped (s : MainLoop) (e : DeskEvent) (next : MainLoop) : Prop
  | quiet (hrows : next.rows = s.rows)
      (hpending : next.phase.pending = [] ∨ next.phase.pending = s.phase.pending)
  | loaded (hrows : next.rows = s.rows) (hpending : next.phase.pending.map Prod.fst = s.loadOpen)
  | managed (p : LoadedRow × PositionState) (pending : List (LoadedRow × PositionState))
      (hs : s.phase.pending = p :: pending) (f : DeskRow → DeskRow) (hf : ManageWrite f)
      (hrows : next.rows = modifyRow p.1.trade.id f s.rows)
      (hpending : next.phase.pending = [] ∨ next.phase.pending = pending)
  | refreshed (t : DeskTick) (loaded : LoadedRow) (pending : List LoadedRow)
      (peaks : List (Nat × ℚ)) (chain : ChainCache)
      (hs : s.phase = .refreshing t (loaded :: pending) peaks) (he : e = .refresh chain true)
      (hrows : next.rows = modifyRow loaded.trade.id
        (DeskRow.refresh loaded (t.withChain chain) (peakFor loaded.trade.id peaks)) s.rows)
      (hpending : next.phase.pending = [])
  | entered (row : DeskRow) (hid : row.id = s.nextId) (hopen : ¬row.isClosed)
      (hfile : row.file = none) (hrows : next.rows = s.rows ++ [row])
      (hpending : next.phase.pending = [])

theorem modifyRow_same (id : Nat) (rows : List DeskRow) :
    modifyRow id (fun row => row) rows = rows := by
  unfold modifyRow
  simp only [ite_self, List.map_id']

theorem map_id_modifyRow (id : Nat) (f : DeskRow → DeskRow) (hf : ∀ row, (f row).id = row.id)
    (rows : List DeskRow) : (modifyRow id f rows).map DeskRow.id = rows.map DeskRow.id := by
  rw [modifyRow, List.map_map]
  refine List.map_congr_left (fun row _ => ?_)
  dsimp only [Function.comp_apply]
  split_ifs with hid
  · exact hf row
  · rfl

theorem manageWrite_same : ManageWrite (fun row => row) :=
  ⟨fun _ => rfl, fun _ h => Or.inl h⟩

theorem manageWrite_trail (newStopPrice : ℚ) (now : DateTime) (wallet : Option WalletSnapshot) :
    ManageWrite (fun row =>
      { row with record := persistTrailStopRecord newStopPrice now wallet row.record }) :=
  ⟨fun _ => rfl, fun _ h => Or.inl h⟩

/-- A close writes the journal from the row it has committed, or not at all. -/
theorem manageWrite_close (loaded : LoadedRow) (c : ExitContext) (written : Bool) :
    ManageWrite (DeskRow.close loaded c written) := by
  refine ⟨fun _ => rfl, fun row h => ?_⟩
  cases written with
  | true => exact Or.inr ⟨rfl, rfl⟩
  | false => exact Or.inl h

section Step

variable (s : MainLoop)

theorem load_stepped (e : DeskEvent) (t : DeskTick) : Stepped s e (s.load t) := by
  unfold load
  simp only
  split
  · exact .quiet rfl (Or.inl rfl)
  · next pending hpending =>
    refine .loaded rfl ?_
    -- Each position comes with the row it is the view of.
    have hfst := map_mapM_ok _ Prod.fst id (fun x y hxy => ?_) s.loadOpen pending hpending
    · rw [List.map_id] at hfst
      exact hfst
    · cases hview : tradeToPositionState x.trade x.legs t.market.chain t.market.now with
      | error err =>
          rw [hview] at hxy
          cases hxy
      | ok position =>
          rw [hview] at hxy
          cases hxy
          rfl

/-- A directive writes to the row of the position at most. -/
theorem carryOut_write (t : DeskTick) (loaded : LoadedRow) (answer : ManageAnswer)
    (acc : CarriedOut) (d : ExitDirective) :
    ∃ f, ManageWrite f ∧
      (carryOut t loaded answer acc d).rows = modifyRow loaded.trade.id f acc.rows := by
  have hsame : ∀ done : CarriedOut, done.rows = acc.rows →
      ∃ f, ManageWrite f ∧ done.rows = modifyRow loaded.trade.id f acc.rows := by
    intro done hdone
    refine ⟨fun row => row, manageWrite_same, ?_⟩
    rw [hdone, modifyRow_same]
  unfold carryOut
  split
  · exact hsame _ rfl
  · split
    · split
      · exact hsame _ rfl
      · split
        · exact hsame _ rfl
        · split_ifs
          · exact hsame _ rfl
          · exact hsame _ rfl
          · exact ⟨_, manageWrite_close _ _ _, rfl⟩
    · split_ifs
      · exact hsame _ rfl
      · exact hsame _ rfl
      · exact ⟨_, manageWrite_trail _ _ _, rfl⟩
    · exact hsame _ rfl

theorem manage_stepped (e : DeskEvent) (answer : ManageAnswer) : Stepped s e (s.manage answer) := by
  unfold manage
  split
  · exact .quiet rfl (Or.inl rfl)
  · next t loaded row position pending peaks hphase =>
    have hs : s.phase.pending = (row, position) :: pending := by rw [hphase]; rfl
    simp only
    split
    · exact .quiet rfl (Or.inl rfl)
    · next next directives hstep =>
      -- The exit engine gives one directive at most.
      have hwrite : ∃ f, ManageWrite f ∧
          (directives.foldl (carryOut (t.withChain answer.chain) row answer)
            { rows := s.rows, runtime := some next }).rows =
            modifyRow row.trade.id f s.rows := by
        rcases t.engine.step_single _ _ _ _ hstep with rfl | ⟨d, rfl⟩
        · exact ⟨fun row => row, manageWrite_same, (modifyRow_same _ _).symm⟩
        · exact carryOut_write (t.withChain answer.chain) row answer
            { rows := s.rows, runtime := some next } d
      rcases hwrite with ⟨f, hf, hrows⟩
      refine .managed _ pending hs f hf hrows ?_
      dsimp only
      split_ifs
      · exact Or.inl rfl
      · exact Or.inr rfl
  · exact .quiet rfl (Or.inr rfl)

theorem refresh_stepped (chain : ChainCache) (commits : Bool) :
    Stepped s (.refresh chain commits) (s.refresh chain commits) := by
  unfold refresh
  split
  · exact .quiet rfl (Or.inl rfl)
  · next t loaded pending peaks hphase =>
    cases commits with
    | true => exact .refreshed t loaded pending peaks chain hphase rfl rfl rfl
    | false => exact .quiet rfl (Or.inl rfl)
  · exact .quiet rfl (Or.inr rfl)

theorem enter_stepped (e : DeskEvent) (a : EntryInput) : Stepped s e (s.enter a) := by
  unfold enter
  split
  · next t hphase =>
    simp only
    have hpending : ∀ raised : Bool,
        (if raised then LoopPhase.ended else s.phase).pending = [] := by
      intro raised
      cases raised with
      | true => rfl
      | false => rw [hphase]; rfl
    rcases openTrade_row s.nextId a.intent a.sizing t.market (some t.market.quoteFor)
      (some a.chain) a.outcome with hnone | ⟨row, hone, hid, -⟩
    · refine .quiet ?_ (Or.inl (hpending _))
      rw [hnone, List.map_nil, List.append_nil]
    · have hopen := openTrade_not_closed a.outcome s.nextId a.intent a.sizing t.market
        (some t.market.quoteFor) (some a.chain) row
        (by rw [hone]; exact List.mem_singleton_self row)
      have hrecord := entryRecord_trade a t.market t.lastTs row.1
      refine .entered
        { record := entryRecord a t.market t.lastTs row.1, legs := row.2,
          orders := entryOrders a t.market.now } ?_ ?_ rfl ?_ (hpending _)
      · exact (congrArg Trade.id hrecord).trans hid
      · unfold DeskRow.isClosed
        rw [hrecord]
        exact hopen
      · rw [hone]
        rfl
  · exact .quiet rfl (Or.inr rfl)

theorem step_cases (e : DeskEvent) : Stepped s e (s.step e) := by
  cases e with
  | load t =>
      dsimp only [step]
      split
      · exact s.load_stepped _ t
      · exact .quiet rfl (Or.inr rfl)
  | manage answer => exact s.manage_stepped _ answer
  | refresh chain commits => exact s.refresh_stepped chain commits
  | enter a => exact s.enter_stepped _ a
  | sleep =>
      dsimp only [step]
      split
      · exact .quiet rfl (Or.inl rfl)
      · exact .quiet rfl (Or.inr rfl)

end Step

section Invariant

variable (s : MainLoop) (e : DeskEvent)

/-- A row of a state has its id to itself. -/
theorem Fits.eq_of_id (h : Fits s) (row row' : DeskRow) (hrow : row ∈ s.rows)
    (hrow' : row' ∈ s.rows) (hid : row.id = row'.id) : row = row' :=
  List.inj_on_of_nodup_map h.ids hrow hrow' hid

theorem manageable_nil (rows : List DeskRow) : Manageable rows [] :=
  ⟨List.nodup_nil, fun _ hp => absurd hp List.not_mem_nil⟩

/-- What a tick loads is manageable. -/
theorem Fits.loaded (h : Fits s) (pending : List (LoadedRow × PositionState))
    (hpending : pending.map Prod.fst = s.loadOpen) : Manageable s.rows pending := by
  constructor
  · have hids : (s.loadOpen.map (fun row => row.trade.id)).Nodup := by
      rw [loadOpen, List.map_map]
      exact (List.filter_sublist.map DeskRow.id).nodup h.ids
    rw [← hpending, List.map_map] at hids
    exact hids
  · intro p hp row hrow hid hclosed
    have hloaded : p.1 ∈ s.loadOpen := by
      rw [← hpending]
      exact List.mem_map_of_mem hp
    rcases List.mem_map.mp hloaded with ⟨old, hold, heq⟩
    rcases List.mem_filter.mp hold with ⟨hmem, hopen⟩
    rw [← heq] at hid
    -- Ids are distinct, so the row is the one that was loaded, which is open.
    have hstatus := of_decide_eq_true hopen
    rw [← h.eq_of_id s row old hrow hmem hid, hclosed] at hstatus
    cases hstatus

/-- The other positions stay manageable when one has been managed. -/
theorem Manageable.tail (rows : List DeskRow) (p : LoadedRow × PositionState)
    (pending : List (LoadedRow × PositionState)) (h : Manageable rows (p :: pending))
    (f : DeskRow → DeskRow) (hf : ManageWrite f) :
    Manageable (modifyRow p.1.trade.id f rows) pending := by
  have hdistinct := List.nodup_cons.mp h.distinct
  refine ⟨hdistinct.2, fun p' hp' row hrow hid => ?_⟩
  rcases (mem_modifyRow _ _ _ _).mp hrow with ⟨old, -, holdId, rfl⟩ | ⟨hrow, -⟩
  · -- The row that was written has the id of another position.
    rw [hf.id, holdId] at hid
    exact absurd (List.mem_map.mpr ⟨p', hp', hid.symm⟩) hdistinct.1
  · exact h.unclosed p' (List.mem_cons_of_mem _ hp') row hrow hid

/-- A write to the row of an id keeps the ids and the journals, if it keeps those of that row. -/
theorem Fits.modify (h : Fits s) (id : Nat) (f : DeskRow → DeskRow)
    (hid : ∀ row, (f row).id = row.id)
    (hfiled : ∀ row ∈ s.rows, row.id = id → row.Filed → (f row).Filed) :
    ((modifyRow id f s.rows).map DeskRow.id).Nodup ∧ ∀ row ∈ modifyRow id f s.rows, row.Filed := by
  constructor
  · rw [map_id_modifyRow _ f hid]
    exact h.ids
  · intro row hrow
    rcases (mem_modifyRow _ _ _ _).mp hrow with ⟨old, hold, holdId, rfl⟩ | ⟨hrow, -⟩
    · exact hfiled old hold holdId (h.filed old hold)
    · exact h.filed row hrow

/-- So does a new row without a journal. -/
theorem Fits.append (h : Fits s) (row : DeskRow) (hid : row.id = s.nextId)
    (hfile : row.file = none) :
    ((s.rows ++ [row]).map DeskRow.id).Nodup ∧ ∀ row' ∈ s.rows ++ [row], row'.Filed := by
  constructor
  · rw [List.map_append, List.map_singleton, List.nodup_append]
    refine ⟨h.ids, List.nodup_singleton _, ?_⟩
    intro id hold id' hnew
    rcases List.mem_map.mp hold with ⟨old, hmem, rfl⟩
    rw [List.mem_singleton.mp hnew, hid]
    exact (s.lt_nextId old hmem).ne
  · intro row' hrow'
    rcases List.mem_append.mp hrow' with hold | hnew
    · exact h.filed row' hold
    · rw [List.mem_singleton.mp hnew]
      exact Or.inl hfile

/-- Every step keeps the invariant. -/
theorem fits_step (h : Fits s) : Fits (s.step e) := by
  cases s.step_cases e with
  | quiet hrows hpending =>
      refine ⟨by rw [hrows]; exact h.ids, by rw [hrows]; exact h.filed, ?_⟩
      rcases hpending with hnil | hsame
      · rw [hnil]
        exact manageable_nil _
      · rw [hsame, hrows]
        exact h.pending
  | loaded hrows hpending =>
      refine ⟨by rw [hrows]; exact h.ids, by rw [hrows]; exact h.filed, ?_⟩
      rw [hrows]
      exact h.loaded s _ hpending
  | managed p pending hs f hf hrows hpending =>
      have hmanageable := h.pending
      rw [hs] at hmanageable
      have hmodify := h.modify s p.1.trade.id f hf.id (fun row hrow hid hfiled => by
        -- The row was not closed, so it has no journal yet.
        rcases hfiled with hfile | ⟨hclosed, -⟩
        · exact hf.filed row hfile
        · exact absurd hclosed (hmanageable.unclosed p List.mem_cons_self row hrow hid))
      rw [← hrows] at hmodify
      refine ⟨hmodify.1, hmodify.2, ?_⟩
      rcases hpending with hnil | htail
      · rw [hnil]
        exact manageable_nil _
      · rw [htail, hrows]
        exact hmanageable.tail _ _ _ f hf
  | refreshed t loaded pending peaks chain hs he hrows hpending =>
      have hmodify := h.modify s loaded.trade.id
        (DeskRow.refresh loaded (t.withChain chain) (peakFor loaded.trade.id peaks))
        (fun row => (refresh_columns _ _ _ row).1) (fun row _ _ => refresh_filed _ _ _ row)
      rw [← hrows] at hmodify
      refine ⟨hmodify.1, hmodify.2, ?_⟩
      rw [hpending]
      exact manageable_nil _
  | entered row hid hopen hfile hrows hpending =>
      have happend := h.append s row hid hfile
      rw [← hrows] at happend
      refine ⟨happend.1, happend.2, ?_⟩
      rw [hpending]
      exact manageable_nil _

/-- A state that fits has current journals. -/
theorem Fits.journals (h : Fits s) : JournalsCurrent s := by
  intro row hrow _ page hpage
  rcases h.filed row hrow with hnone | ⟨-, hfile⟩
  · rw [hnone] at hpage
    cases hpage
  · rw [hfile] at hpage
    exact (Option.some.inj hpage).symm

theorem fits_run (h : Fits s) (events : List DeskEvent) : Fits (events.foldl step s) := by
  induction events generalizing s with
  | nil => exact h
  | cons e rest ih => exact ih (s.step e) (s.fits_step e h)

/-- A write to the row of an id leaves the closed rows alone, if the closed row of that id is as
    the write would leave it. -/
theorem Fits.frozen_iff (h : Fits s) (next : MainLoop) (id : Nat) (f : DeskRow → DeskRow)
    (hrows : next.rows = modifyRow id f s.rows) :
    Frozen s next ↔ ∀ row ∈ s.rows, row.id = id → row.isClosed → f row = row := by
  constructor
  · intro hfrozen row hrow hid hclosed
    have hmem := hfrozen row hrow hclosed
    rw [hrows, mem_modifyRow] at hmem
    rcases hmem with ⟨old, hold, holdId, hwritten⟩ | ⟨-, hne⟩
    · rw [← h.eq_of_id s row old hrow hold (hid.trans holdId.symm)] at hwritten
      exact hwritten.symm
    · exact absurd hid hne
  · intro hsame row hrow hclosed
    rw [hrows, mem_modifyRow]
    by_cases hid : row.id = id
    · exact Or.inl ⟨row, hrow, hid, (hsame row hrow hid hclosed).symm⟩
    · exact Or.inr ⟨hrow, hid⟩

/-- A step leaves the closed rows alone exactly if it finds in the notes what it would write. -/
theorem frozen_step_iff (h : Fits s) : Frozen s (s.step e) ↔ Settled s e := by
  constructor
  · intro hfrozen t loaded pending peaks chain hphase he row hrow hid hclosed
    have hrows : (s.step e).rows = modifyRow loaded.trade.id
        (DeskRow.refresh loaded (t.withChain chain) (peakFor loaded.trade.id peaks)) s.rows := by
      rw [he]
      dsimp only [step]
      unfold refresh
      rw [hphase]
      rfl
    exact (refresh_eq_iff _ _ _ row).mp
      ((h.frozen_iff s _ _ _ hrows).mp hfrozen row hrow hid hclosed)
  · intro hsettled
    cases s.step_cases e with
    | quiet hrows hpending =>
        intro row hrow _
        rw [hrows]
        exact hrow
    | loaded hrows hpending =>
        intro row hrow _
        rw [hrows]
        exact hrow
    | managed p pending hs f hf hrows hpending =>
        -- A position is not managed after its row was closed.
        have hmanageable := h.pending
        rw [hs] at hmanageable
        refine (h.frozen_iff s _ _ f hrows).mpr (fun row hrow hid hclosed => ?_)
        exact absurd hclosed (hmanageable.unclosed p List.mem_cons_self row hrow hid)
    | refreshed t loaded pending peaks chain hs he hrows hpending =>
        refine (h.frozen_iff s _ _ _ hrows).mpr (fun row hrow hid hclosed => ?_)
        exact (refresh_eq_iff _ _ _ row).mpr
          (hsettled t loaded pending peaks chain hs he row hrow hid hclosed)
    | entered row hid hopen hfile hrows hpending =>
        intro old hold _
        rw [hrows]
        exact List.mem_append_left _ hold

/-- The journals of closed trades are current at every point of every run. -/
theorem journal_current (h : Fits s) (events : List DeskEvent) :
    Throughout (fun before => JournalsCurrent (before.foldl step s)) events := by
  intro before after _
  exact (s.fits_run h before).journals

/-- A run leaves its closed rows alone, and their journals current, exactly if every refresh of
    a row that is closed by then finds in the notes what it would write. -/
theorem closed_rows_stay_iff (h : Fits s) (events : List DeskEvent) :
    ClosedRowsStay s events ↔ Along step Settled s events := by
  have hsteps : Along step (fun a e => Frozen a (a.step e)) s events ↔
      Along step Settled s events :=
    along_iff step _ _ Fits (fun a e ha => a.frozen_step_iff e ha)
      (fun a e ha _ => a.fits_step e ha) s h events
  have hsteady := steadily_iff_along step Frozen (fun a row hrow _ => hrow)
    (fun a b c hab hbc row hrow hclosed => hbc row (hab row hrow hclosed) hclosed) s events
  rw [← hsteps, ← hsteady]
  constructor
  · intro hstay
    exact hstay.rows
  · intro hrows
    exact ⟨hrows, s.journal_current h events⟩

/-- The step closes no trade. -/
def ClosesNothing : Prop :=
  ∀ row ∈ (s.step e).rows, row.isClosed → ∃ old ∈ s.rows, old.id = row.id ∧ old.isClosed

/-- No row that is still to be refreshed is closed. -/
def RefreshesOpen : Prop :=
  ∀ loaded ∈ s.phase.unrefreshed, ∀ row ∈ s.rows, row.id = loaded.trade.id → ¬row.isClosed

/-- A step leaves no more rows to refresh than there were, or has just loaded them. -/
theorem unrefreshed_step (loaded : LoadedRow) (h : loaded ∈ (s.step e).phase.unrefreshed) :
    loaded ∈ s.phase.unrefreshed ∨ (s.step e).rows = s.rows ∧ loaded ∈ s.loadOpen := by
  have hnone : ∀ {P : Prop}, loaded ∈ ([] : List LoadedRow) → P :=
    fun hmem => absurd hmem List.not_mem_nil
  cases e with
  | load t =>
      dsimp only [step] at h ⊢
      split at h
      · unfold load at h ⊢
        dsimp only at h ⊢
        split at h
        · exact hnone h
        · exact Or.inr ⟨rfl, h⟩
      · exact Or.inl h
  | manage answer =>
      dsimp only [step] at h
      unfold manage at h
      split at h
      · next hphase =>
        rw [hphase]
        exact Or.inl h
      · next hphase =>
        rw [hphase]
        dsimp only at h
        split at h
        · exact hnone h
        · dsimp only at h
          split_ifs at h
          · exact hnone h
          · exact Or.inl h
      · exact Or.inl h
  | refresh chain commits =>
      dsimp only [step] at h
      unfold refresh at h
      split at h
      · exact hnone h
      · next hphase =>
        rw [hphase]
        split_ifs at h
        · exact hnone h
        · exact Or.inl (List.mem_cons_of_mem _ h)
      · exact Or.inl h
  | enter a =>
      dsimp only [step] at h
      unfold enter at h
      split at h
      · dsimp only at h
        split_ifs at h
        · exact hnone h
        · exact Or.inl h
      · exact Or.inl h
  | sleep =>
      dsimp only [step] at h
      split at h
      · exact hnone h
      · exact Or.inl h

theorem refreshesOpen_step (hfits : Fits s) (h : RefreshesOpen s) (hcalm : ClosesNothing s e) :
    RefreshesOpen (s.step e) := by
  intro loaded hloaded row hrow hid hclosed
  rcases s.unrefreshed_step e loaded hloaded with hbefore | ⟨hrows, hopen⟩
  · rcases hcalm row hrow hclosed with ⟨old, hold, holdId, holdClosed⟩
    exact h loaded hbefore old hold (holdId.trans hid) holdClosed
  · rw [hrows] at hrow
    rcases List.mem_map.mp hopen with ⟨old, hold, rfl⟩
    rcases List.mem_filter.mp hold with ⟨hmem, hstatus⟩
    rw [← hfits.eq_of_id s row old hrow hmem hid, decide_eq_true_eq] at hstatus
    rw [DeskRow.isClosed, hstatus] at hclosed
    cases hclosed

/-- In a run that closes no trade, no refresh meets a closed row. -/
theorem settled_of_calm (hfits : Fits s) (h : RefreshesOpen s) (events : List DeskEvent)
    (hcalm : Along step ClosesNothing s events) : Along step Settled s events := by
  induction events generalizing s with
  | nil => trivial
  | cons e rest ih =>
      refine ⟨?_, ih (s.step e) (s.fits_step e hfits) (s.refreshesOpen_step e hfits h hcalm.1)
        hcalm.2⟩
      intro t loaded pending peaks chain hphase _ row hrow hid hclosed
      have hmem : loaded ∈ s.phase.unrefreshed := by
        rw [hphase]
        exact List.mem_cons_self
      exact absurd hclosed (h loaded hmem row hrow hid)

end Invariant

/-- A trade that was closed with a journal. -/
def soldRow : DeskRow :=
  let row : DeskRow :=
    { record := { trade := { TradeTrack.putTrade.trade with id := 2, status := .closed }
                  mode := .live }
      legs := [] }
  { row with file := some row.page }

/-- The loop between two ticks, with a closed trade and the three puts. -/
def putLoop : MainLoop :=
  { rows := [soldRow, { record := putRecord.record, legs := putRecord.legs }] }

/-- A tick up to the first refresh, with a day left for the puts or an hour, and an exchange that
    fills every exit. -/
def putEvents (day : Nat) : List DeskEvent :=
  let answer : ManageAnswer :=
    { chain := ChainCache.empty
      exit := fun req => .ok { success := true, tradeId := req.tradeId } }
  [.load { engine := trailEngine, market := (soldTick 110 day).market,
           lastTs := (soldTick 110 day).lastTs },
    .manage answer, .manage answer, .refresh ChainCache.empty true]

theorem putLoop_fits : Fits putLoop where
  ids := by decide
  filed := by
    intro row hrow
    rcases List.mem_pair.mp hrow with rfl | rfl
    · exact Or.inr ⟨rfl, rfl⟩
    · exact Or.inl rfl
  pending := manageable_nil _

/-- A tick that closes no trade does not touch the one that is closed. -/
theorem closed_row_stays : ClosedRowsStay putLoop (putEvents 12) := by
  refine (closed_rows_stay_iff putLoop putLoop_fits (putEvents 12)).mpr
    ⟨fun _ _ _ _ _ _ he => (nomatch he), fun _ _ _ _ _ _ he => (nomatch he),
      fun _ _ _ _ _ _ he => (nomatch he), ?_, trivial⟩
  intro t loaded pending peaks chain hphase _ row hrow hid hclosed
  -- The row that is refreshed is that of the puts, which are open.
  have hloaded := congrArg (fun phase => phase.unrefreshed.head?.map (fun l => l.trade.id)) hphase
  have hopen : ∀ row ∈ (((putEvents 12).take 3).foldl step putLoop).rows, row.id = 1 →
      ¬row.isClosed := by
    decide +kernel
  have hone : (((putEvents 12).take 3).foldl step putLoop).phase.unrefreshed.head?.map
      (fun l => l.trade.id) = some 1 := by
    decide +kernel
  exact absurd hclosed (hopen row hrow (hid.trans (Option.some.inj (hloaded.symm.trans hone))))

/-- With an hour left the puts are closed, and the refresh notes the spot afterwards. -/
theorem closed_row_noted :
    (∃ row ∈ (((putEvents 13).take 3).foldl step putLoop).rows, row.id = 1 ∧ row.isClosed ∧
      row.record.notes.lastIndicatorSnapshot = none) ∧
      (∀ row ∈ ((putEvents 13).foldl step putLoop).rows, row.id = 1 → row.isClosed ∧
        row.record.notes.lastIndicatorSnapshot.bind IndicatorSnapshot.spot = some 100000) ∧
      ¬ ∀ (s : MainLoop) (events : List DeskEvent), Fits s → ClosedRowsStay s events := by
  have hbefore : ∃ row ∈ (((putEvents 13).take 3).foldl step putLoop).rows, row.id = 1 ∧
      row.isClosed ∧ row.record.notes.lastIndicatorSnapshot = none := by
    decide +kernel
  have hafter : ∀ row ∈ ((putEvents 13).foldl step putLoop).rows, row.id = 1 → row.isClosed ∧
      row.record.notes.lastIndicatorSnapshot.bind IndicatorSnapshot.spot = some 100000 := by
    decide +kernel
  refine ⟨hbefore, hafter, fun h => ?_⟩
  rcases hbefore with ⟨row, hrow, hid, hclosed, hnone⟩
  have hstays := (h putLoop (putEvents 13) putLoop_fits).rows ((putEvents 13).take 3)
    ((putEvents 13).drop 3) [] rfl row hrow hclosed
  have hspot := (hafter row hstays hid).2
  rw [hnone] at hspot
  cases hspot

end MainLoop

end OptionsBot
