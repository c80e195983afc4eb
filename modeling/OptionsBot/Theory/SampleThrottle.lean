import OptionsBot.Core.IvHistory
import OptionsBot.Lib.Run

/-!
# Sample Throttle

When a sample is recorded, over all calls of a store.

The store keeps the time of the last sample of a key, and sets it where it sees that it
is time for the next one. That is before it knows whether the chain has a volatility,
and before the rows are written. So a call that records nothing for a key can still put
off the next sample of it by a whole interval.

What is kept is thus the time of the last try, which is no earlier than that of the last
row. A call is as it should be where the two make no difference to it.

## Main definitions

* `Due`: It is time for a sample.
* `Sampled`: What a part of the loop does.
* `SampledStore`: A store, and when the last row of each key was recorded.
* `Recorded`: A call has recorded a row of a key.
* `SampledRight`: A call records a row exactly where there is one to record and it is time.
* `Undelayed`: A try that holds up a sample has recorded one.

## Theorems

* `pass_spec`: What the loop over the keys does to each of them.
* `recorded_iff`: When a row is recorded.
* `sampledRight_iff`: Exactly a try that recorded nothing holds up a sample.
* `sampled_right_iff`: The same for every call of a store.
-/

namespace OptionsBot

/-- At least an interval has passed since some time, or there was none. -/
def Due (interval : ℚ) (last : Option ℚ) (mono : ℚ) : Prop := ∀ t ∈ last, interval ≤ mono - t

namespace IvHistoryStore

/-- There is a spot of the key's underlying and a volatility at the money. -/
def Available (call : ChainCall) (key : IvKey) : Prop :=
  ∃ spot sample, call.underlyingMarks key.underlying = some spot ∧
    atmIvSample call.chain key spot call.now = some sample

/-- The store looks for a sample of the key. -/
def Tries (store : IvHistoryStore) (call : ChainCall) (key : IvKey) : Prop :=
  (∃ spot, call.underlyingMarks key.underlying = some spot) ∧
    Due store.sampleIntervalS (store.lastSampleMono key) (call.monotonic key)

/-- The call has recorded a row of the key. -/
def Recorded (store : IvHistoryStore) (call : ChainCall) (key : IvKey) : Prop :=
  ∃ row ∈ (store.recordFromChain call).1.rows.drop store.rows.length, row.key = key

instance (store : IvHistoryStore) (call : ChainCall) (key : IvKey) :
    Decidable (Recorded store call key) :=
  inferInstanceAs (Decidable (∃ row ∈ (store.recordFromChain call).1.rows.drop store.rows.length,
    row.key = key))

/-- What a part of the loop does to the store and the rows: it takes the time of the keys it
    tries, and adds a row for those that have one. -/
structure Sampled (call : ChainCall) (store : IvHistoryStore) (rows : List IvSnapshot)
    (keys : List IvKey) (pass : IvHistoryStore × List IvSnapshot) : Prop where
  interval : pass.1.sampleIntervalS = store.sampleIntervalS
  table : pass.1.rows = store.rows
  tried : ∀ key ∈ keys, Tries store call key →
    pass.1.lastSampleMono key = some (call.monotonic key)
  untried : ∀ key, ¬ (key ∈ keys ∧ Tries store call key) →
    pass.1.lastSampleMono key = store.lastSampleMono key
  added : ∃ new, pass.2 = rows ++ new ∧ ∀ key, (∃ row ∈ new, row.key = key) ↔
    key ∈ keys ∧ Tries store call key ∧ Available call key

section Pass

variable (call : ChainCall)

theorem shouldSample_spec (store : IvHistoryStore) (key : IvKey) (mono : ℚ) :
    ((store.shouldSample key mono).1 = true ↔
      Due store.sampleIntervalS (store.lastSampleMono key) mono) ∧
    (store.shouldSample key mono).2.sampleIntervalS = store.sampleIntervalS ∧
    (store.shouldSample key mono).2.rows = store.rows ∧
    ∀ k, (store.shouldSample key mono).2.lastSampleMono k =
      if k = key ∧ (store.shouldSample key mono).1 = true then some mono
      else store.lastSampleMono k := by
  unfold shouldSample Due
  cases hlast : store.lastSampleMono key with
  | none => simp
  | some last =>
      by_cases hsoon : mono - last < store.sampleIntervalS
      · simp [hsoon]
      · simp [hsoon, not_lt.mp hsoon]

/-- What does nothing has tried nothing and adds nothing. -/
theorem sampled_untried (store : IvHistoryStore) (rows : List IvSnapshot) (key : IvKey)
    (h : ¬ Tries store call key) : Sampled call store rows [key] (store, rows) where
  interval := rfl
  table := rfl
  tried := fun k hk htries => absurd (List.mem_singleton.mp hk ▸ htries) h
  untried := fun _ _ => rfl
  added := by
    refine ⟨[], (List.append_nil rows).symm, fun k => iff_of_false (by simp) ?_⟩
    rintro ⟨hk, htries, -⟩
    exact h (List.mem_singleton.mp hk ▸ htries)

/-- One round of the loop. -/
theorem sampled_key (store : IvHistoryStore) (rows : List IvSnapshot) (key : IvKey) :
    Sampled call store rows [key] (sampleKey call (store, rows) key) := by
  rcases store.shouldSample_spec key (call.monotonic key) with ⟨hdue, hinterval, htable, hlast⟩
  unfold sampleKey
  cases hspot : call.underlyingMarks key.underlying with
  | none =>
      refine sampled_untried call store rows key ?_
      rintro ⟨⟨spot, hsome⟩, -⟩
      rw [hspot] at hsome
      cases hsome
  | some spot =>
      by_cases hsampling : (store.shouldSample key (call.monotonic key)).1 = true
      · have htries : Tries store call key := ⟨⟨spot, hspot⟩, hdue.mp hsampling⟩
        have htried : ∀ k ∈ [key], Tries store call k →
            (store.shouldSample key (call.monotonic key)).2.lastSampleMono k =
              some (call.monotonic k) := by
          intro k hk _
          rw [List.mem_singleton.mp hk, hlast, if_pos ⟨rfl, hsampling⟩]
        have huntried : ∀ k, ¬ (k ∈ [key] ∧ Tries store call k) →
            (store.shouldSample key (call.monotonic key)).2.lastSampleMono k =
              store.lastSampleMono k := by
          intro k hk
          rw [hlast, if_neg]
          rintro ⟨rfl, -⟩
          exact hk ⟨List.mem_singleton.mpr rfl, htries⟩
        simp only [hsampling, if_true]
        cases hsample : atmIvSample call.chain key spot call.now with
        | none =>
            refine ⟨hinterval, htable, htried, huntried, [], (List.append_nil rows).symm,
              fun k => ?_⟩
            refine iff_of_false (by simp) ?_
            rintro ⟨hk, -, spot', sample, hspot', hsome⟩
            rw [List.mem_singleton.mp hk] at hspot' hsome
            rw [hspot] at hspot'
            cases hspot'
            rw [hsample] at hsome
            cases hsome
        | some sample =>
            refine ⟨hinterval, htable, htried, huntried, _, rfl, fun k => ?_⟩
            have havailable : Available call key := ⟨spot, sample, hspot, hsample⟩
            simp only [List.mem_singleton, exists_eq_left]
            constructor
            · rintro rfl
              exact ⟨rfl, htries, havailable⟩
            · exact fun h => h.1.symm
      · simp only [hsampling]
        exact sampled_untried call store rows key (fun htries => hsampling (hdue.mpr htries.2))

/-- The loop, whose rounds do not see what the others do. -/
theorem pass_spec (store : IvHistoryStore) (rows : List IvSnapshot) (keys : List IvKey)
    (hnodup : keys.Nodup) :
    Sampled call store rows keys (keys.foldl (sampleKey call) (store, rows)) := by
  induction keys generalizing store rows with
  | nil =>
      refine ⟨rfl, rfl, fun _ h => absurd h List.not_mem_nil, fun _ _ => rfl, [],
        (List.append_nil rows).symm, fun key => by simp⟩
  | cons key rest ih =>
      rw [List.nodup_cons] at hnodup
      rw [List.foldl_cons]
      have hfirst := sampled_key call store rows key
      generalize sampleKey call (store, rows) key = pass at hfirst
      rcases pass with ⟨store', rows'⟩
      have hrest := ih store' rows' hnodup.2
      -- The first round leaves the other keys as they are.
      have hother : ∀ k ∈ rest, (Tries store' call k ↔ Tries store call k) := by
        intro k hk
        have hne : ¬ (k ∈ [key] ∧ Tries store call k) := by
          rintro ⟨hsame, -⟩
          exact hnodup.1 (List.mem_singleton.mp hsame ▸ hk)
        unfold Tries
        rw [hfirst.interval, hfirst.untried k hne]
      rcases hfirst.added with ⟨new, hnew, hnewKeys⟩
      rcases hrest.added with ⟨more, hmore, hmoreKeys⟩
      refine ⟨hrest.interval.trans hfirst.interval, hrest.table.trans hfirst.table, ?_, ?_,
        new ++ more, ?_, ?_⟩
      · intro k hk htries
        rcases List.mem_cons.mp hk with rfl | hin
        · rw [hrest.untried k (fun h => hnodup.1 h.1)]
          exact hfirst.tried k List.mem_cons_self htries
        · exact hrest.tried k hin ((hother k hin).mpr htries)
      · intro k hk
        rw [hrest.untried k (fun h => hk ⟨List.mem_cons_of_mem _ h.1, (hother k h.1).mp h.2⟩)]
        refine hfirst.untried k (fun h => hk ⟨?_, h.2⟩)
        rw [List.mem_singleton.mp h.1]
        exact List.mem_cons_self
      · have hrows : rows' = rows ++ new := hnew
        rw [hmore, hrows, List.append_assoc]
      · intro k
        simp only [List.mem_append, or_and_right, exists_or, hnewKeys, hmoreKeys]
        rw [List.mem_singleton, List.mem_cons, or_and_right]
        refine or_congr_right ?_
        exact and_congr_right (fun hk => and_congr_left' (hother k hk))

/-- A row is recorded where the store tries, there is one, and the write does not fail. -/
theorem recorded_iff (store : IvHistoryStore) (key : IvKey) : Recorded store call key ↔
    (key ∈ ivKeys ∧ Tries store call key ∧ Available call key) ∧ call.raises = none := by
  have hpass := pass_spec call store [] ivKeys (by decide)
  rcases hpass.added with ⟨new, hnew, hkeys⟩
  rw [List.nil_append] at hnew
  rw [← hkeys key]
  unfold Recorded recordFromChain
  simp only [hnew]
  -- A call adds the rows of its loop, all of them or, where the write fails, none.
  by_cases hempty : new = []
  · rw [if_pos hempty, hpass.table, List.drop_length, hempty]
    simp
  · rw [if_neg hempty]
    cases hraises : call.raises with
    | none => simp [hpass.table]
    | some e => simp [hpass.table]

/-- What a call does to the times of the tries, its loop does. -/
theorem recordFromChain_tries (store : IvHistoryStore) :
    (store.recordFromChain call).1.sampleIntervalS = store.sampleIntervalS ∧
      (store.recordFromChain call).1.lastSampleMono =
        (ivKeys.foldl (sampleKey call) (store, [])).1.lastSampleMono := by
  have hinterval := (pass_spec call store [] ivKeys (by decide)).interval
  simp only [recordFromChain]
  split_ifs
  · exact ⟨hinterval, rfl⟩
  · cases call.raises with
    | none => exact ⟨hinterval, rfl⟩
    | some e => exact ⟨hinterval, rfl⟩

end Pass

end IvHistoryStore

/-- A store, and when the last row of each key was recorded. -/
structure SampledStore where
  store : IvHistoryStore
  recordedAt : IvKey → Option ℚ

namespace SampledStore

open IvHistoryStore (Available Tries Recorded recorded_iff pass_spec recordFromChain_tries)

/-- A call, after which the last row of a key is the one it has recorded, if it has. -/
def step (self : SampledStore) (call : ChainCall) : SampledStore :=
  { store := (self.store.recordFromChain call).1
    recordedAt := fun key =>
      if Recorded self.store call key then some (call.monotonic key) else self.recordedAt key }

/-- A store that has recorded nothing, and its settings. -/
def fresh (sampleIntervalS : ℚ) (rows : List IvSnapshot) : SampledStore :=
  { store := { sampleIntervalS := sampleIntervalS, rows := rows }, recordedAt := fun _ => none }

/-- A call records a row of a key exactly where the chain has one, the write does not fail
    and it is time since the last row. -/
def SampledRight (self : SampledStore) (call : ChainCall) : Prop :=
  ∀ key ∈ ivKeys, Recorded self.store call key ↔ Available call key ∧ call.raises = none ∧
    Due self.store.sampleIntervalS (self.recordedAt key) (call.monotonic key)

/-- Where the chain has a row and the write does not fail, the last try of the key has
    recorded one, or it was at least an interval ago. -/
def Undelayed (self : SampledStore) (call : ChainCall) : Prop :=
  ∀ key ∈ ivKeys, Available call key → call.raises = none →
    ∀ t ∈ self.store.lastSampleMono key, call.monotonic key - t < self.store.sampleIntervalS →
      self.recordedAt key = some t

/-- The last row of a key was recorded by the last try, or an interval before it. -/
def Kept (self : SampledStore) : Prop :=
  ∀ key, ∀ r ∈ self.recordedAt key, ∃ t ∈ self.store.lastSampleMono key,
    r = t ∨ self.store.sampleIntervalS ≤ t - r

/-- No key was tried after it is looked for now. -/
def NotAhead (self : SampledStore) (call : ChainCall) : Prop :=
  ∀ key, ∀ t ∈ self.store.lastSampleMono key, t ≤ call.monotonic key

theorem sampledRight_iff (self : SampledStore) (call : ChainCall) (hkept : self.Kept)
    (hclock : self.NotAhead call) : self.SampledRight call ↔ self.Undelayed call := by
  unfold SampledRight Undelayed
  refine forall₂_congr (fun key hkey => ?_)
  rw [recorded_iff call self.store key, and_iff_right hkey, and_assoc]
  constructor
  · intro hright havailable hwritten t ht hsoon
    by_contra hother
    -- A try that held the sample up has recorded nothing, and the last row is long ago.
    have hdue : Due self.store.sampleIntervalS (self.recordedAt key) (call.monotonic key) := by
      intro r hr
      rcases hkept key r hr with ⟨t', ht', hsame | hlong⟩
      · rw [ht] at ht'
        cases ht'
        exact absurd (hsame ▸ hr) hother
      · rw [ht] at ht'
        cases ht'
        linarith [hclock key t ht]
    have htries := (hright.mpr ⟨havailable, hwritten, hdue⟩).1
    exact absurd (htries.2 t ht) (not_le.mpr hsoon)
  · intro hundelayed
    constructor
    · rintro ⟨htries, havailable, hwritten⟩
      refine ⟨havailable, hwritten, fun r hr => ?_⟩
      rcases hkept key r hr with ⟨t, ht, rfl | hlong⟩
      · exact htries.2 r ht
      · linarith [hclock key t ht]
    · -- A try that is too close has recorded the last row, which is then too close as well.
      rintro ⟨havailable, hwritten, hdue⟩
      refine ⟨⟨?_, fun t ht => ?_⟩, havailable, hwritten⟩
      · rcases havailable with ⟨spot, sample, hspot, -⟩
        exact ⟨spot, hspot⟩
      · by_contra hsoon
        exact hsoon (hdue t (hundelayed havailable hwritten t ht (not_le.mp hsoon)))

/-- What a call does to the times of the keys. -/
theorem step_times (self : SampledStore) (call : ChainCall) (key : IvKey) :
    (self.step call).store.sampleIntervalS = self.store.sampleIntervalS ∧
      (Recorded self.store call key → (self.step call).recordedAt key =
          some (call.monotonic key) ∧
        (self.step call).store.lastSampleMono key = some (call.monotonic key)) ∧
      (¬ Recorded self.store call key → (self.step call).recordedAt key = self.recordedAt key) ∧
      ((self.step call).store.lastSampleMono key = self.store.lastSampleMono key ∨
        Due self.store.sampleIntervalS (self.store.lastSampleMono key) (call.monotonic key) ∧
          (self.step call).store.lastSampleMono key = some (call.monotonic key)) := by
  have hpass := pass_spec call self.store [] ivKeys (by decide)
  have htimes := recordFromChain_tries call self.store
  simp only [step, htimes.2]
  refine ⟨htimes.1, fun h => ⟨if_pos h, ?_⟩, fun h => if_neg h, ?_⟩
  · have hadded := ((recorded_iff call self.store key).mp h).1
    exact hpass.tried key hadded.1 hadded.2.1
  · by_cases htries : key ∈ ivKeys ∧ Tries self.store call key
    · exact Or.inr ⟨htries.2.2, hpass.tried key htries.1 htries.2⟩
    · exact Or.inl (hpass.untried key htries)

/-- A call keeps the order of tries and rows, if the clock has not gone back. -/
theorem kept_step (self : SampledStore) (call : ChainCall) (hkept : self.Kept)
    (hclock : self.NotAhead call) : (self.step call).Kept := by
  intro key r hr
  rcases self.step_times call key with ⟨hinterval, hrecorded, hunrecorded, htried⟩
  rw [hinterval]
  by_cases h : Recorded self.store call key
  · rw [(hrecorded h).1] at hr
    cases hr
    exact ⟨_, (hrecorded h).2, Or.inl rfl⟩
  · rw [hunrecorded h] at hr
    rcases hkept key r hr with ⟨t, ht, horder⟩
    rcases htried with hsame | ⟨hdue, htook⟩
    · exact ⟨t, by rw [hsame]; exact ht, horder⟩
    · -- A try that recorded nothing comes an interval after the one before it.
      refine ⟨_, htook, Or.inr ?_⟩
      have hlong := hdue t ht
      have hlater := hclock key t ht
      rcases horder with rfl | horder
      · exact hlong
      · linarith

/-- What is looked for later is not behind a call. -/
theorem notAhead_step (self : SampledStore) (call later : ChainCall)
    (hclock : self.NotAhead later) (horder : ∀ key, call.monotonic key ≤ later.monotonic key) :
    (self.step call).NotAhead later := by
  intro key t ht
  rcases (self.step_times call key).2.2.2 with hsame | ⟨-, htook⟩
  · rw [hsame] at ht
    exact hclock key t ht
  · rw [htook] at ht
    cases ht
    exact horder key

theorem sampled_run_iff (self : SampledStore) (hkept : self.Kept) (calls : List ChainCall)
    (hahead : ∀ call ∈ calls, self.NotAhead call)
    (horder : calls.Pairwise (fun a b => ∀ key, a.monotonic key ≤ b.monotonic key)) :
    Along step SampledRight self calls ↔ Along step Undelayed self calls := by
  induction calls generalizing self with
  | nil => exact Iff.rfl
  | cons call rest ih =>
      rw [List.pairwise_cons] at horder
      have hclock := hahead call List.mem_cons_self
      unfold Along
      rw [self.sampledRight_iff call hkept hclock]
      refine and_congr_right (fun _ => ih (self.step call) (self.kept_step call hkept hclock) ?_
        horder.2)
      exact fun later hlater => self.notAhead_step call later
        (hahead later (List.mem_cons_of_mem _ hlater)) (horder.1 later hlater)

end SampledStore

open SampledStore (fresh SampledRight Undelayed)

/-- All calls of a store record what they are to record, exactly if no try that recorded
    nothing holds up a sample. -/
theorem sampled_right_iff (sampleIntervalS : ℚ) (rows : List IvSnapshot) (calls : List ChainCall)
    (horder : calls.Pairwise (fun a b => ∀ key, a.monotonic key ≤ b.monotonic key)) :
    Along SampledStore.step SampledRight (fresh sampleIntervalS rows) calls ↔
      Along SampledStore.step Undelayed (fresh sampleIntervalS rows) calls :=
  SampledStore.sampled_run_iff _ (fun _ _ hr => by cases hr) calls
    (fun _ _ _ _ ht => by cases ht) horder

/-- One option at the money, quoted with its volatility. -/
def atmChain : ChainCache :=
  (ChainCache.empty.refreshInstruments
    [{ contractType := some "call_options", symbol := some "C-BTC-97000-120526", id := some 1,
       contractValue := some (1 / 1000), lotSize := none, tickSize := none,
       state := none }]).upsertQuote
    "C-BTC-97000-120526" { markPrice := some 900, iv := some (1 / 2) }

/-- A call on the day the option expires, at some reading of the clock. -/
def sampleCall (chain : ChainCache) (mono : ℚ) : ChainCall :=
  { chain := chain
    underlyingMarks := fun underlying => if underlying = .btc then some 97000 else none
    now := combine (ymdToOrdinal 2026 5 12) (hourMinute 10 0)
    monotonic := fun _ => mono
    raises := none }

/-- Two calls a minute apart, the first of which finds nothing listed. -/
def lateCalls : List ChainCall := [sampleCall ChainCache.empty 0, sampleCall atmChain 60]

theorem lateCalls_order :
    lateCalls.Pairwise (fun a b => ∀ key, a.monotonic key ≤ b.monotonic key) := by
  simp [lateCalls, sampleCall]

/-- The first call has taken the time of a key without a row, a minute before the second, so the
    calls do not sample as they should. -/
theorem sampled_right_iff_late :
    ¬ Along SampledStore.step SampledRight (fresh 300 []) lateCalls := by
  rw [sampled_right_iff 300 [] lateCalls lateCalls_order]
  intro hundelayed
  have hquoted : (atmIvSample atmChain ⟨.btc, .d1⟩ 97000 (sampleCall atmChain 60).now).isSome := by
    decide
  rcases Option.isSome_iff_exists.mp hquoted with ⟨sample, hsample⟩
  have htook : ((fresh 300 []).step (sampleCall ChainCache.empty 0)).store.lastSampleMono
      ⟨.btc, .d1⟩ = some 0 := by
    decide
  have hsoon : (60 : ℚ) - 0 < 300 := by norm_num
  have hrow := hundelayed.2.1 ⟨.btc, .d1⟩ (by decide) ⟨97000, sample, rfl, hsample⟩ rfl 0 htook
    hsoon
  exact absurd hrow (by decide)

/-- The second call has a volatility to record and no row before it, and records none. -/
theorem sample_held_up : ¬ ∀ (sampleIntervalS : ℚ) (rows : List IvSnapshot)
    (calls : List ChainCall),
    calls.Pairwise (fun a b => ∀ key, a.monotonic key ≤ b.monotonic key) →
      Along SampledStore.step SampledRight (fresh sampleIntervalS rows) calls := by
  intro h
  have hlate := (h 300 [] lateCalls lateCalls_order).2.1 ⟨.btc, .d1⟩ (by decide)
  have hquoted : (atmIvSample atmChain ⟨.btc, .d1⟩ 97000 (sampleCall atmChain 60).now).isSome := by
    decide
  rcases Option.isSome_iff_exists.mp hquoted with ⟨sample, hsample⟩
  have havailable : IvHistoryStore.Available (sampleCall atmChain 60) ⟨.btc, .d1⟩ :=
    ⟨97000, sample, rfl, hsample⟩
  have hnew : ∀ t ∈ ((fresh 300 []).step (sampleCall ChainCache.empty 0)).recordedAt ⟨.btc, .d1⟩,
      (300 : ℚ) ≤ 60 - t := by
    decide
  -- The first call has taken the time of the key, a minute ago.
  have htook : ((fresh 300 []).step (sampleCall ChainCache.empty 0)).store.lastSampleMono
      ⟨.btc, .d1⟩ = some 0 := by
    decide
  have hrecorded := hlate.mpr ⟨havailable, rfl, hnew⟩
  have htries := ((IvHistoryStore.recorded_iff _ _ _).mp hrecorded).1.2.1
  have hlong : (300 : ℚ) ≤ 60 - 0 := htries.2 0 htook
  norm_num at hlong

end OptionsBot
