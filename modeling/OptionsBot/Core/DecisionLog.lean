import OptionsBot.Lib.Chunks
import OptionsBot.Lib.Clock
import OptionsBot.Lib.JsonTree

/-!
# The Decision Log

The writer of the `decisions` table and of the file that mirrors it. The records of a tick
are normalised, cut into batches, and each batch is committed in a session of its own. The
mirror is written at the end, from the normalised records.

Whether a commit fails is up to the database, and whether the file can be written is up to
the disk. Both are parameters, as are the clocks that stamp a record which brings no time.

## Main definitions

* `DecisionRecord`, `DecisionRecord.fromDict`: A record, and how a dictionary becomes one.
* `DecisionRow`, `MirrorLine`: What the table and the file keep of a record.
* `chunked`: The batches.
* `DecisionStore`, `WriteEnv`: The table and the file, and what a write meets.
* `DecisionLogWriter.write`: The write.

## Theorems

* `fromDict_known`: A record from a dictionary has a known kind and a known reason.
* `chunked_pos`: With a positive batch size, the batches are the chunks of the list.
* `writeChunks_spec`, `mirrorJsonl_spec`: What the two loops leave.
* `write_of_chunks`: What a write of some batches leaves.
-/

namespace OptionsBot

/-- `DecisionKind`. -/
inductive DecisionKind where
  | evaluate
  | manage
  | risk
  deriving DecidableEq, Repr

def DecisionKind.value : DecisionKind → String
  | evaluate => "evaluate"
  | manage => "manage"
  | risk => "risk"

/-- `DecisionReason`. -/
inductive DecisionReason where
  | passed
  | filterFailed
  | spreadTooWide
  | premiumAboveRiskBudget
  | zeroLotsAfterFloor
  | creditTooThin
  | condorMaxLossAboveBudget
  | condorDeltaBandUnfillable
  | stranglePremiumAboveRiskBudget
  | noAcceptableStrike
  | outsideTradingWindow
  | missingSpot
  | strategyMaxConcurrent
  | globalMaxConcurrent
  | dailyCapTripped
  | weeklyCapTripped
  | circuitBreaker
  | cooldownActive
  | antiRevengeBlock
  | dteTooShort
  | strategyDisabled
  | lowOpenInterest
  | missingGreeks
  | portfolioDeltaLimit
  | portfolioVegaLimit
  | other
  deriving DecidableEq, Repr

def DecisionReason.value : DecisionReason → String
  | passed => "passed"
  | filterFailed => "filter_failed"
  | spreadTooWide => "spread_too_wide"
  | premiumAboveRiskBudget => "premium_above_risk_budget"
  | zeroLotsAfterFloor => "zero_lots_after_floor"
  | creditTooThin => "credit_too_thin"
  | condorMaxLossAboveBudget => "condor_max_loss_above_budget"
  | condorDeltaBandUnfillable => "condor_delta_band_unfillable"
  | stranglePremiumAboveRiskBudget => "strangle_premium_above_risk_budget"
  | noAcceptableStrike => "no_acceptable_strike"
  | outsideTradingWindow => "outside_trading_window"
  | missingSpot => "missing_spot"
  | strategyMaxConcurrent => "strategy_max_concurrent"
  | globalMaxConcurrent => "global_max_concurrent"
  | dailyCapTripped => "daily_cap_tripped"
  | weeklyCapTripped => "weekly_cap_tripped"
  | circuitBreaker => "circuit_breaker"
  | cooldownActive => "cooldown_active"
  | antiRevengeBlock => "anti_revenge_block"
  | dteTooShort => "dte_too_short"
  | strategyDisabled => "strategy_disabled"
  | lowOpenInterest => "low_open_interest"
  | missingGreeks => "missing_greeks"
  | portfolioDeltaLimit => "portfolio_delta_limit"
  | portfolioVegaLimit => "portfolio_vega_limit"
  | other => "other"

/-- `_KNOWN_KINDS`. -/
def knownKinds : List String :=
  [DecisionKind.evaluate, .manage, .risk].map DecisionKind.value

/-- `_KNOWN_REASONS`. -/
def knownReasons : List String :=
  [DecisionReason.passed, .filterFailed, .spreadTooWide, .premiumAboveRiskBudget,
    .zeroLotsAfterFloor, .creditTooThin, .condorMaxLossAboveBudget, .condorDeltaBandUnfillable,
    .stranglePremiumAboveRiskBudget, .noAcceptableStrike, .outsideTradingWindow, .missingSpot,
    .strategyMaxConcurrent, .globalMaxConcurrent, .dailyCapTripped, .weeklyCapTripped,
    .circuitBreaker, .cooldownActive, .antiRevengeBlock, .dteTooShort, .strategyDisabled,
    .lowOpenInterest, .missingGreeks, .portfolioDeltaLimit, .portfolioVegaLimit,
    .other].map DecisionReason.value

/-- The values of a feature vector by name. -/
abbrev FeatureVector := JsonFields

/-- A normalised record. -/
structure DecisionRecord where
  strategyId : String
  kind : String
  underlying : Option String := none
  symbol : Option String := none
  passed : Bool := false
  reason : String := DecisionReason.other.value
  featureVector : FeatureVector := []
  ts : Option DateTime := none

/-- What a dictionary has under `feature_vector`: nothing that is true, a mapping, or
    something no dictionary can be made of. -/
inductive FeatureField where
  | falsy
  | mapping (fields : FeatureVector)
  | other (error : PyError)

/-- `dict(x or {})`. -/
def FeatureField.toDict : FeatureField → Except PyError FeatureVector
  | falsy => .ok []
  | mapping fields => .ok fields
  | other error => .error error

/-- A decision as strategies and risk emit it, the fields it has as text or as truth. -/
structure DecisionDict where
  strategyId : Option String
  kind : Option String := none
  underlying : Option String := none
  symbol : Option String := none
  passed : Option Bool := none
  reason : Option String := none
  featureVector : FeatureField := .falsy
  ts : Option DateTime := none

/-- A text that is known, or the default. -/
def knownOr (known : List String) (default : String) (text : Option String) : String :=
  if text.getD default ∈ known then text.getD default else default

/-- `DecisionRecord.from_dict`: kinds and reasons that are not known become the defaults. -/
def DecisionRecord.fromDict (d : DecisionDict) : Except PyError DecisionRecord :=
  match d.strategyId with
  | none => .error (.keyError "strategy_id")
  | some strategyId =>
    match d.featureVector.toDict with
    | .error e => .error e
    | .ok featureVector =>
      .ok { strategyId := strategyId
            kind := knownOr knownKinds DecisionKind.evaluate.value d.kind
            underlying := d.underlying
            symbol := d.symbol
            passed := d.passed.getD false
            reason := knownOr knownReasons DecisionReason.other.value d.reason
            featureVector := featureVector
            ts := d.ts }

theorem knownOr_mem (known : List String) (default : String) (text : Option String)
    (h : default ∈ known) : knownOr known default text ∈ known := by
  unfold knownOr
  split_ifs with hknown
  · exact hknown
  · exact h

/-- Whatever the dictionary says, the record's kind and reason are known ones. -/
theorem DecisionRecord.fromDict_known (d : DecisionDict) (r : DecisionRecord)
    (h : fromDict d = .ok r) : r.kind ∈ knownKinds ∧ r.reason ∈ knownReasons := by
  unfold fromDict at h
  split at h
  · cases h
  · split at h
    · cases h
    · cases h
      exact ⟨knownOr_mem knownKinds _ d.kind (by decide),
        knownOr_mem knownReasons _ d.reason (by decide)⟩

/-- What a write is given: records, dictionaries, or anything else. -/
inductive DecisionInput where
  | record (r : DecisionRecord)
  | dict (d : DecisionDict)
  | other

/-- A record is taken as it is, anything else is asked for its fields. -/
def DecisionInput.normalise : DecisionInput → Except PyError DecisionRecord
  | record r => .ok r
  | dict d => DecisionRecord.fromDict d
  | other => .error (.attributeError "get")

/-- A row of `decisions`. -/
structure DecisionRow where
  ts : DateTime
  strategyId : String
  kind : String
  symbol : Option String
  underlying : Option String
  passed : Bool
  reason : String
  featureVector : Option FeatureVector

/-- The row of a record. It is stamped if the record has no time, and has no feature vector
    if the record's is empty. -/
def DecisionRow.ofRecord (now : DateTime) (rec : DecisionRecord) : DecisionRow :=
  { ts := rec.ts.getD now
    strategyId := rec.strategyId
    kind := rec.kind
    symbol := rec.symbol
    underlying := rec.underlying
    passed := rec.passed
    reason := rec.reason
    featureVector := if rec.featureVector.isEmpty then none else some rec.featureVector }

/-- A line of the mirror. -/
structure MirrorLine where
  ts : DateTime
  strategyId : String
  kind : String
  underlying : Option String
  symbol : Option String
  passed : Bool
  reason : String
  featureVector : FeatureVector

/-- The line of a record, stamped if the record has no time. -/
def MirrorLine.ofRecord (now : DateTime) (rec : DecisionRecord) : MirrorLine :=
  { ts := rec.ts.getD now
    strategyId := rec.strategyId
    kind := rec.kind
    underlying := rec.underlying
    symbol := rec.symbol
    passed := rec.passed
    reason := rec.reason
    featureVector := rec.featureVector }

/-- `range(0, stop, step)`. -/
def rangeByStep (stop : Nat) (step : Int) : Except PyError (List Int) :=
  if step = 0 then .error (.valueError "range() arg 3 must not be zero")
  -- Downwards from zero there is nothing before the stop.
  else if step < 0 then .ok []
  else
    .ok ((List.range ((stop + step.toNat - 1) / step.toNat)).map
      (fun (i : Nat) => (i : Int) * step))

/-- `_chunked`. -/
def chunked {α : Type} (seq : List α) (n : Int) : Except PyError (List (List α)) :=
  (rangeByStep seq.length n).map (fun starts => starts.map (fun i => slice seq i (i + n)))

theorem slice_of_nonneg {α : Type} (xs : List α) (i n : Nat) :
    slice xs (i : Int) ((i : Int) + (n : Int)) = (xs.drop i).take n := by
  have hi : ¬ (i : Int) < 0 := by omega
  have hin : ¬ ((i + n : Nat) : Int) < 0 := by omega
  rw [slice, ← Int.natCast_add, sliceIndex, sliceIndex, if_neg hi, if_neg hin, Int.toNat_natCast,
    Int.toNat_natCast]
  -- A start behind the end of the list is cut back to it.
  rcases Nat.le_total i xs.length with hle | hge
  · rw [Nat.min_eq_left hle, ← List.take_eq_take_min, List.drop_take, Nat.add_sub_cancel_left]
  · rw [Nat.min_eq_right hge, List.drop_eq_nil_of_le hge, List.take_nil, List.drop_eq_nil_iff,
      List.length_take]
    exact (Nat.min_le_right _ _)

/-- With a positive batch size, the batches are the chunks of the list. -/
theorem chunked_pos {α : Type} (seq : List α) (n : Nat) (hn : 0 < n) :
    chunked seq (n : Int) = .ok (Batched.chunks n seq) := by
  have hzero : (n : Int) ≠ 0 := by omega
  have hneg : ¬ (n : Int) < 0 := by omega
  rw [chunked, rangeByStep, if_neg hzero, if_neg hneg, Int.toNat_natCast, Except.map, List.map_map,
    Batched.chunks]
  congr 1
  refine List.map_congr_left (fun i _ => ?_)
  rw [Function.comp_apply, ← Int.natCast_mul, slice_of_nonneg]

/-- The table and the file, in the order they were written. -/
structure DecisionStore where
  decisions : List DecisionRow := []
  mirror : List MirrorLine := []

/-- Why a write raises: an error of the language, or one of the database at a commit. -/
inductive WriteError where
  | python (e : PyError)
  | database (message : String)
  deriving DecidableEq, Repr

/-- What a write meets: how the nth commit fails, if it does, after how many lines the file
    fails, if it does, and the clocks of a commit and of a line. -/
structure WriteEnv where
  commitError : Nat → Option WriteError := fun _ => none
  mirrorError : Option Nat := none
  commitClock : Nat → DateTime
  lineClock : Nat → DateTime

structure DecisionLogWriter where
  /-- There is a `mirror_path`. -/
  mirrored : Bool := false
  maxBatch : Int := 500

/-- How many of some lines reach the file. -/
def WriteEnv.mirrorTakes (env : WriteEnv) (n : Nat) : Nat :=
  match env.mirrorError with
  | none => n
  | some k => min k n

/-- The row is the record's, stamped at some time. -/
def DecisionRow.IsOf (rec : DecisionRecord) (row : DecisionRow) : Prop :=
  ∃ now, row = DecisionRow.ofRecord now rec

/-- The line is the record's, stamped at some time. -/
def MirrorLine.IsOf (rec : DecisionRecord) (line : MirrorLine) : Prop :=
  ∃ now, line = MirrorLine.ofRecord now rec

namespace DecisionLogWriter

/-- `_write_chunk` for one chunk after the other, from the chunk with number `i` on. What is
    committed before a commit fails stays. -/
def writeChunks (env : WriteEnv) :
    Nat → List (List DecisionRecord) → List DecisionRow → Except WriteError Nat × List DecisionRow
  | _, [], decisions => (.ok 0, decisions)
  | i, chunk :: rest, decisions =>
    match env.commitError i with
    -- The session rolls back this chunk, and the ones before have been committed.
    | some e => (.error e, decisions)
    | none =>
      let later := writeChunks env (i + 1) rest
        (decisions ++ chunk.map (DecisionRow.ofRecord (env.commitClock i)))
      (later.1.map (chunk.length + ·), later.2)

/-- `_mirror_jsonl`: an error of the file is logged and swallowed. -/
def mirrorJsonl (env : WriteEnv) (records : List DecisionRecord) (mirror : List MirrorLine) :
    List MirrorLine :=
  let lines := records.mapIdx (fun i rec => MirrorLine.ofRecord (env.lineClock i) rec)
  mirror ++ (match env.mirrorError with
    | none => lines
    | some k => lines.take k)

/-- `write`. The mirror comes last, once every chunk is committed. -/
def write (self : DecisionLogWriter) (env : WriteEnv) (records : List DecisionInput)
    (store : DecisionStore) : Except WriteError Nat × DecisionStore :=
  match records.mapM DecisionInput.normalise with
  -- Every record is normalised before the first session.
  | .error e => (.error (.python e), store)
  | .ok normalised =>
    if normalised.isEmpty then (.ok 0, store)
    else
      match chunked normalised self.maxBatch with
      | .error e => (.error (.python e), store)
      | .ok chunks =>
        let (total, decisions) := writeChunks env 0 chunks store.decisions
        match total with
        | .error e => (.error e, { store with decisions := decisions })
        | .ok n =>
          (.ok n,
            { decisions := decisions
              mirror := if self.mirrored then mirrorJsonl env normalised store.mirror
                else store.mirror })

/-- The rows a write of chunks leaves are those of the chunks committed before the first
    failure. -/
theorem writeChunks_spec (env : WriteEnv) (i : Nat) (chunks : List (List DecisionRecord))
    (decisions : List DecisionRow) :
    ∃ rows, (writeChunks env i chunks decisions).2 = decisions ++ rows ∧
      List.Forall₂ DecisionRow.IsOf
        (Batched.committed env.commitError i chunks).flatten rows ∧
      (writeChunks env i chunks decisions).1 =
        (Batched.failure env.commitError i chunks).elim (.ok chunks.flatten.length) .error := by
  induction chunks generalizing i decisions with
  | nil => exact ⟨[], (List.append_nil decisions).symm, List.Forall₂.nil, rfl⟩
  | cons chunk rest ih =>
      unfold writeChunks Batched.committed Batched.failure
      cases hcommit : env.commitError i with
      | some e =>
          exact ⟨[], (List.append_nil decisions).symm, List.Forall₂.nil, rfl⟩
      | none =>
          rcases ih (i + 1) (decisions ++ chunk.map (DecisionRow.ofRecord (env.commitClock i)))
            with ⟨rows, hrows, hof, htotal⟩
          have hchunk : List.Forall₂ DecisionRow.IsOf chunk
              (chunk.map (DecisionRow.ofRecord (env.commitClock i))) := by
            rw [List.forall₂_map_right_iff, List.forall₂_same]
            exact fun rec _ => ⟨_, rfl⟩
          -- The rows of this chunk, and then those that the induction gives for the others.
          refine ⟨chunk.map (DecisionRow.ofRecord (env.commitClock i)) ++ rows, ?_, ?_, ?_⟩
          · rw [← List.append_assoc]
            exact hrows
          · rw [Option.isSome_none, if_neg Bool.false_ne_true, List.flatten_cons]
            exact List.rel_append hchunk hof
          · rw [Option.none_or, List.flatten_cons, List.length_append]
            simp only [htotal]
            cases Batched.failure env.commitError (i + 1) rest with
            | none => rfl
            | some e => rfl

/-- The lines a write leaves in the mirror are those of the records the file takes. -/
theorem mirrorJsonl_spec (env : WriteEnv) (records : List DecisionRecord)
    (mirror : List MirrorLine) :
    ∃ lines, mirrorJsonl env records mirror = mirror ++ lines ∧
      List.Forall₂ MirrorLine.IsOf (records.take (env.mirrorTakes records.length)) lines := by
  have hall : List.Forall₂ MirrorLine.IsOf records
      (records.mapIdx (fun i rec => MirrorLine.ofRecord (env.lineClock i) rec)) := by
    refine List.forall₂_iff_get.mpr ⟨List.length_mapIdx.symm, fun i _ _ => ?_⟩
    exact ⟨env.lineClock i, List.getElem_mapIdx⟩
  unfold mirrorJsonl WriteEnv.mirrorTakes
  cases env.mirrorError with
  | none => exact ⟨_, rfl, by rw [List.take_length]; exact hall⟩
  | some k =>
      refine ⟨_, rfl, ?_⟩
      rw [← List.take_eq_take_min]
      exact List.forall₂_take k hall

/-- A write of records that are cut into chunks adds the rows of the chunks committed before
    the first failure and, if there is none, the lines that the file takes. -/
theorem write_of_chunks (self : DecisionLogWriter) (env : WriteEnv) (records : List DecisionInput)
    (store : DecisionStore) (normalised : List DecisionRecord)
    (chunks : List (List DecisionRecord))
    (hnorm : records.mapM DecisionInput.normalise = .ok normalised) (hne : normalised ≠ [])
    (hchunks : chunked normalised self.maxBatch = .ok chunks) :
    ∃ rows lines, (self.write env records store).2.decisions = store.decisions ++ rows ∧
      (self.write env records store).2.mirror = store.mirror ++ lines ∧
      List.Forall₂ DecisionRow.IsOf (Batched.committed env.commitError 0 chunks).flatten rows ∧
      List.Forall₂ MirrorLine.IsOf
        (if self.mirrored = true ∧ Batched.failure env.commitError 0 chunks = none then
          normalised.take (env.mirrorTakes normalised.length) else []) lines := by
  rcases writeChunks_spec env 0 chunks store.decisions with ⟨rows, hrows, hof, htotal⟩
  rcases mirrorJsonl_spec env normalised store.mirror with ⟨lines, hlines, hofl⟩
  have hempty : normalised.isEmpty = false := List.isEmpty_eq_false_iff.mpr hne
  unfold write
  simp only [hnorm, hempty, Bool.false_eq_true, if_false, hchunks, htotal, hrows]
  cases hfail : Batched.failure env.commitError 0 chunks with
  | some e =>
      -- The exception leaves the write before the mirror.
      refine ⟨rows, [], rfl, (List.append_nil _).symm, hof, ?_⟩
      rw [if_neg (fun h => nomatch h.2)]
      exact List.Forall₂.nil
  | none =>
      simp only [Option.elim_none, and_true]
      split_ifs with hmirrored
      · exact ⟨rows, lines, rfl, hlines, hof, hofl⟩
      · exact ⟨rows, [], rfl, (List.append_nil _).symm, hof, List.Forall₂.nil⟩

end DecisionLogWriter

end OptionsBot
