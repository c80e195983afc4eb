import OptionsBot.Core.DecisionLog
import OptionsBot.Lib.Run

/-!
# Decisions Written in Batches

A write of the decision log normalises all its records first, so a malformed one stops it
before anything is written. The batches are committed one by one and the mirror comes last.
A commit that fails after another has not failed leaves the rows of the batches before it,
and no line in the mirror.

So a write adds everything or nothing, and the same to the table and to the mirror, exactly
if no commit fails but the first and the file takes every line. With a batch size below
zero there are no batches at all, and the mirror gets what the table does not.

## Main definitions

* `AllOrNothing`: A write adds all its records or none, to the table and to the mirror.
* `NothingHalfway`: Nothing fails after something is written.
* `MirrorAgrees`: The mirror has the records of the table, in order.

## Theorems

* `counts_of_allOrNothing`, `allOrNothing_of_counts`: It is decided by how many records the two get.
* `allOrNothing_iff`: When a write adds everything or nothing.
* `mirrorAgrees_of_run`: The mirror agrees with the table after writes like that.
-/

namespace OptionsBot

namespace DecisionLogWriter

/-- A write adds all of its records to the table or none, and the same to the mirror, if there
    is one. -/
def AllOrNothing (self : DecisionLogWriter) (env : WriteEnv) (records : List DecisionInput) :
    Prop :=
  ∀ store, ∃ added rows lines,
    (added = [] ∨ records.mapM DecisionInput.normalise = .ok added) ∧
    (self.write env records store).2.decisions = store.decisions ++ rows ∧
    (self.write env records store).2.mirror = store.mirror ++ lines ∧
    List.Forall₂ DecisionRow.IsOf added rows ∧
    List.Forall₂ MirrorLine.IsOf (if self.mirrored then added else []) lines

/-- The number of batches that some records are cut into. -/
def batchCount (self : DecisionLogWriter) (n : Nat) : Nat :=
  (n + self.maxBatch.toNat - 1) / self.maxBatch.toNat

/-- Nothing fails after something is written: no commit but the first, and the file takes
    every line. A batch size below zero leaves the table alone, so the file may take none. -/
def NothingHalfway (self : DecisionLogWriter) (env : WriteEnv) (records : List DecisionInput) :
    Prop :=
  ∀ normalised, records.mapM DecisionInput.normalise = .ok normalised → normalised ≠ [] →
    (self.maxBatch < 0 → self.mirrored = true → env.mirrorTakes normalised.length = 0) ∧
    (0 < self.maxBatch → env.commitError 0 = none →
      (∀ j, 0 < j → j < self.batchCount normalised.length → env.commitError j = none) ∧
      (self.mirrored = true → env.mirrorTakes normalised.length = normalised.length))

section Counts

variable (self : DecisionLogWriter) (env : WriteEnv) (records : List DecisionInput)
  (normalised : List DecisionRecord) (chunks : List (List DecisionRecord))

/-- How many of the records that a write gets the file takes. -/
def taken : Nat :=
  if Batched.failure env.commitError 0 chunks = none then env.mirrorTakes normalised.length else 0

/-- If a write adds everything or nothing, so does the number of committed records, and the file
    takes as many. -/
theorem counts_of_allOrNothing
    (hnorm : records.mapM DecisionInput.normalise = .ok normalised) (hne : normalised ≠ [])
    (hchunks : chunked normalised self.maxBatch = .ok chunks)
    (htakes : env.mirrorTakes normalised.length ≤ normalised.length)
    (h : self.AllOrNothing env records) :
    ((Batched.committed env.commitError 0 chunks).flatten.length = 0 ∨
      (Batched.committed env.commitError 0 chunks).flatten.length = normalised.length) ∧
    (self.mirrored = true →
      taken env normalised chunks =
        (Batched.committed env.commitError 0 chunks).flatten.length) := by
  rcases h {} with ⟨added, rows, lines, hadded, hrows, hlines, hof, hofl⟩
  rcases self.write_of_chunks env records {} normalised chunks hnorm hne hchunks with
    ⟨rows', lines', hrows', hlines', hof', hofl'⟩
  -- A write has one result, so the rows and lines are the same.
  have hsame : rows = rows' := List.append_cancel_left (hrows.symm.trans hrows')
  have hsamel : lines = lines' := List.append_cancel_left (hlines.symm.trans hlines')
  subst hsame hsamel
  have hcount := hof'.length_eq.trans hof.length_eq.symm
  have hcountl := hofl'.length_eq.trans hofl.length_eq.symm
  constructor
  · rcases hadded with rfl | hall
    · exact Or.inl hcount
    · cases hnorm.symm.trans hall
      exact Or.inr hcount
  · intro hmirrored
    rw [if_pos hmirrored, ← hcount] at hcountl
    rw [← hcountl]
    unfold taken
    by_cases hfail : Batched.failure env.commitError 0 chunks = none
    · rw [if_pos hfail, if_pos ⟨hmirrored, hfail⟩, List.length_take, Nat.min_eq_left htakes]
    · rw [if_neg hfail, if_neg (fun h => hfail h.2), List.length_nil]

/-- If all records were committed or none, and the file takes as many, a write adds everything
    or nothing. -/
theorem allOrNothing_of_counts
    (hnorm : records.mapM DecisionInput.normalise = .ok normalised) (hne : normalised ≠ [])
    (hchunks : chunked normalised self.maxBatch = .ok chunks)
    (hcount : (Batched.committed env.commitError 0 chunks).flatten = [] ∨
      (Batched.committed env.commitError 0 chunks).flatten = normalised)
    (hmirror : self.mirrored = true →
      taken env normalised chunks = (Batched.committed env.commitError 0 chunks).flatten.length) :
    self.AllOrNothing env records := by
  intro store
  rcases self.write_of_chunks env records store normalised chunks hnorm hne hchunks with
    ⟨rows, lines, hrows, hlines, hof, hofl⟩
  refine ⟨_, rows, lines, ?_, hrows, hlines, hof, ?_⟩
  · rcases hcount with hnone | hall
    · exact Or.inl hnone
    · exact Or.inr (by rw [hall, hnorm])
  · cases hm : self.mirrored with
    | false =>
        rw [hm, if_neg (fun h => Bool.false_ne_true h.1)] at hofl
        exact hofl
    | true =>
        have htaken := hmirror hm
        unfold taken at htaken
        rw [if_pos rfl]
        by_cases hfail : Batched.failure env.commitError 0 chunks = none
        · rw [if_pos ⟨hm, hfail⟩] at hofl
          rw [if_pos hfail] at htaken
          -- The file takes as many as were committed, which is none of them or all.
          rcases hcount with hnone | hall
          · rw [hnone, List.length_nil] at htaken
            rw [htaken, List.take_zero] at hofl
            rw [hnone]
            exact hofl
          · rw [htaken, hall, List.take_length] at hofl
            rw [hall]
            exact hofl
        · rw [if_neg (fun h => hfail h.2)] at hofl
          rw [if_neg hfail] at htaken
          rw [List.length_eq_zero_iff.mp htaken.symm]
          exact hofl

/-- A write of chunks adds everything or nothing exactly if the number of committed records
    says so, and the file takes as many. -/
theorem allOrNothing_iff_counts
    (hnorm : records.mapM DecisionInput.normalise = .ok normalised) (hne : normalised ≠ [])
    (hchunks : chunked normalised self.maxBatch = .ok chunks)
    (hbegins : (Batched.committed env.commitError 0 chunks).flatten.length = normalised.length →
      (Batched.committed env.commitError 0 chunks).flatten = normalised)
    (htakes : env.mirrorTakes normalised.length ≤ normalised.length) :
    self.AllOrNothing env records ↔
      ((Batched.committed env.commitError 0 chunks).flatten.length = 0 ∨
        (Batched.committed env.commitError 0 chunks).flatten.length = normalised.length) ∧
      (self.mirrored = true →
        taken env normalised chunks =
          (Batched.committed env.commitError 0 chunks).flatten.length) := by
  constructor
  · exact counts_of_allOrNothing self env records normalised chunks hnorm hne hchunks htakes
  · rintro ⟨hcount, hmirror⟩
    exact allOrNothing_of_counts self env records normalised chunks hnorm hne hchunks
      (hcount.imp List.length_eq_zero_iff.mp hbegins) hmirror

theorem mirrorTakes_le (n : Nat) : env.mirrorTakes n ≤ n := by
  unfold WriteEnv.mirrorTakes
  split
  · exact Nat.le_refl n
  · exact Nat.min_le_right _ n

/-- With a batch size below zero nothing is committed, and the mirror is written all the same. -/
theorem allOrNothing_iff_of_neg
    (hnorm : records.mapM DecisionInput.normalise = .ok normalised) (hne : normalised ≠ [])
    (hneg : self.maxBatch < 0) :
    self.AllOrNothing env records ↔
      (self.mirrored = true → env.mirrorTakes normalised.length = 0) := by
  have hchunks : chunked normalised self.maxBatch = .ok [] := by
    rw [chunked, rangeByStep, if_neg hneg.ne, if_pos hneg]
    rfl
  rw [allOrNothing_iff_counts self env records normalised [] hnorm hne hchunks
    (fun h => absurd (List.length_eq_zero_iff.mp h.symm) hne) (mirrorTakes_le env _)]
  exact and_iff_right (Or.inl rfl)

/-- With a batch size above zero the batches are not empty and together are the records. -/
theorem exists_chunks (hpos : 0 < self.maxBatch) :
    ∃ chunks, chunked normalised self.maxBatch = .ok chunks ∧ chunks.flatten = normalised ∧
      (∀ c ∈ chunks, c ≠ []) ∧ chunks.length = self.batchCount normalised.length := by
  have hsize : 0 < self.maxBatch.toNat := Int.lt_toNat.mpr hpos
  refine ⟨Batched.chunks self.maxBatch.toNat normalised, ?_,
    Batched.flatten_chunks _ hsize normalised, Batched.ne_nil_of_mem_chunks _ hsize normalised,
    Batched.length_chunks _ normalised⟩
  rw [← chunked_pos normalised self.maxBatch.toNat hsize, Int.toNat_of_nonneg hpos.le]

/-- What is committed of some batches that are not empty: with all commits everything, and
    everything only with all of them. -/
theorem committed_eq_iff (hflat : chunks.flatten = normalised) (hchunk : ∀ c ∈ chunks, c ≠ []) :
    (Batched.committed env.commitError 0 chunks).flatten.length = normalised.length ↔
      Batched.failure env.commitError 0 chunks = none := by
  constructor
  · intro h
    by_contra hfail
    have hlt := Batched.length_flatten_committed_lt env.commitError chunks hchunk hfail
    rw [h, hflat] at hlt
    exact absurd hlt (Nat.lt_irrefl _)
  · intro hfail
    rw [Batched.committed_of_failure_none env.commitError 0 chunks hfail, hflat]

/-- With a batch size above zero, if the first commit does not fail then no other may, nor the
    mirror. -/
theorem allOrNothing_iff_of_pos
    (hnorm : records.mapM DecisionInput.normalise = .ok normalised) (hne : normalised ≠ [])
    (hpos : 0 < self.maxBatch) :
    self.AllOrNothing env records ↔ (env.commitError 0 = none →
      (∀ j, 0 < j → j < self.batchCount normalised.length → env.commitError j = none) ∧
      (self.mirrored = true → env.mirrorTakes normalised.length = normalised.length)) := by
  rcases exists_chunks self normalised hpos with ⟨chunks, hchunks, hflat, hchunk, hlength⟩
  have hcs : chunks ≠ [] := fun h => hne (by rw [← hflat, h, List.flatten_nil])
  have hfailure := Batched.failure_none_iff env.commitError 0 chunks
  have hwhole := Batched.committed_whole_iff env.commitError chunks hchunk hcs
  have hall : Batched.failure env.commitError 0 chunks = none →
      (Batched.committed env.commitError 0 chunks).flatten = normalised := fun hfail => by
    rw [Batched.committed_of_failure_none env.commitError 0 chunks hfail, hflat]
  have hcommitted := committed_eq_iff env normalised chunks hflat hchunk
  rw [hflat] at hwhole
  rw [hlength] at hfailure
  rw [allOrNothing_iff_counts self env records normalised chunks hnorm hne hchunks
    (fun h => hall (hcommitted.mp h)) (mirrorTakes_le env _), hwhole, taken]
  constructor
  · rintro ⟨hcommits, hmirror⟩ hfirst
    have hfail : Batched.failure env.commitError 0 chunks = none := by
      rcases hcommits with hsome | hfail
      · rw [hfirst] at hsome
        cases hsome
      · exact hfail
    rw [if_pos hfail, hall hfail] at hmirror
    refine ⟨fun j _ hj => ?_, hmirror⟩
    rw [← Nat.zero_add j]
    exact hfailure.mp hfail j hj
  · intro h
    cases hfirst : env.commitError 0 with
    | some e =>
        -- Nothing is committed, so something has failed, and the file is not written.
        have hnil := (Batched.flatten_committed_nil_iff env.commitError chunks hchunk hcs).mpr
          (by rw [hfirst]; rfl)
        have hfail : Batched.failure env.commitError 0 chunks ≠ none := by
          intro hfail
          rw [hall hfail] at hnil
          exact hne hnil
        refine ⟨Or.inl rfl, fun _ => ?_⟩
        rw [if_neg hfail, hnil, List.length_nil]
    | none =>
        rcases h hfirst with ⟨hrest, hmirror⟩
        have hfail : Batched.failure env.commitError 0 chunks = none := by
          refine hfailure.mpr (fun j hj => ?_)
          rw [Nat.zero_add]
          rcases Nat.eq_zero_or_pos j with rfl | hj0
          · exact hfirst
          · exact hrest j hj0 hj
        rw [if_pos hfail, hall hfail]
        exact ⟨Or.inr hfail, hmirror⟩

end Counts

/-- A write that adds nothing to the table or to the mirror. -/
theorem allOrNothing_of_unwritten (self : DecisionLogWriter) (env : WriteEnv)
    (records : List DecisionInput) (h : ∀ store, (self.write env records store).2 = store) :
    self.AllOrNothing env records := by
  intro store
  refine ⟨[], [], [], Or.inl rfl, ?_, ?_, List.Forall₂.nil, ?_⟩
  · rw [h, List.append_nil]
  · rw [h, List.append_nil]
  · rw [ite_self]
    exact List.Forall₂.nil

/-- A write adds everything or nothing exactly if nothing fails after something is written. -/
theorem allOrNothing_iff (self : DecisionLogWriter) (env : WriteEnv)
    (records : List DecisionInput) :
    self.AllOrNothing env records ↔ self.NothingHalfway env records := by
  cases hnorm : records.mapM DecisionInput.normalise with
  | error e =>
      refine iff_of_true (allOrNothing_of_unwritten self env records (fun store => ?_)) ?_
      · unfold write
        simp only [hnorm]
      · intro normalised hnorm'
        cases hnorm.symm.trans hnorm'
  | ok normalised =>
      rcases eq_or_ne normalised [] with rfl | hne
      · refine iff_of_true (allOrNothing_of_unwritten self env records (fun store => ?_)) ?_
        · unfold write
          simp only [hnorm, List.isEmpty_nil, if_true]
        · intro normalised hnorm' hne
          cases hnorm.symm.trans hnorm'
          exact absurd rfl hne
      · have hcase : self.NothingHalfway env records ↔
            (self.maxBatch < 0 → self.mirrored = true →
              env.mirrorTakes normalised.length = 0) ∧
            (0 < self.maxBatch → env.commitError 0 = none →
              (∀ j, 0 < j → j < self.batchCount normalised.length → env.commitError j = none) ∧
              (self.mirrored = true →
                env.mirrorTakes normalised.length = normalised.length)) := by
          constructor
          · exact fun h => h normalised hnorm hne
          · intro h normalised' hnorm' _
            cases hnorm.symm.trans hnorm'
            exact h
        rw [hcase]
        rcases lt_trichotomy self.maxBatch 0 with hneg | hzero | hpos
        · rw [allOrNothing_iff_of_neg self env records normalised hnorm hne hneg]
          exact ⟨fun h => ⟨fun _ => h, fun hpos => absurd hpos hneg.not_gt⟩, fun h => h.1 hneg⟩
        · -- A batch size of zero raises before the first batch.
          refine iff_of_true (allOrNothing_of_unwritten self env records (fun store => ?_))
            ⟨fun h => absurd hzero h.ne, fun h => absurd hzero h.ne'⟩
          unfold write chunked rangeByStep
          simp only [hnorm, List.isEmpty_eq_false_iff.mpr hne, hzero, if_true, Except.map]
          rfl
        · rw [allOrNothing_iff_of_pos self env records normalised hnorm hne hpos]
          exact ⟨fun h => ⟨fun hneg => absurd hneg hpos.not_gt, fun _ => h⟩, fun h => h.2 hpos⟩

/-- A mirrored writer with batches of three. -/
def threes : DecisionLogWriter := { mirrored := true, maxBatch := 3 }

/-- Four records of a tick. -/
def fourDecisions : List DecisionInput :=
  List.replicate 4 (.dict { strategyId := some "directional", kind := some "evaluate" })

/-- A database that is locked at the second commit. -/
def lockedSecond : WriteEnv :=
  { commitError := fun i => if i = 1 then some (.database "database is locked") else none
    commitClock := fun _ => combine 0 0
    lineClock := fun _ => combine 0 0 }

/-- The write of four records raises, with three of them in the table and none in the mirror. -/
theorem first_batch_stays :
    ((threes.write lockedSecond fourDecisions {}).2.decisions.length = 3 ∧
      (threes.write lockedSecond fourDecisions {}).2.mirror.length = 0) ∧
      ¬ ∀ (self : DecisionLogWriter) (env : WriteEnv) (records : List DecisionInput),
        self.AllOrNothing env records := by
  refine ⟨by decide, fun h => ?_⟩
  rcases h threes lockedSecond fourDecisions {} with ⟨added, rows, lines, hadded, hrows, _, hof, _⟩
  have hlength : rows.length = 3 := by
    rw [← List.nil_append rows, ← hrows]
    decide
  rw [← hof.length_eq] at hlength
  rcases hadded with rfl | hall
  · cases hlength
  · cases hall
    cases hlength

/-- The mirror has the records of the table, in order. -/
def MirrorAgrees (store : DecisionStore) : Prop :=
  ∃ added, List.Forall₂ DecisionRow.IsOf added store.decisions ∧
    List.Forall₂ MirrorLine.IsOf added store.mirror

/-- A write that adds everything or nothing keeps the mirror with the table. -/
theorem AllOrNothing.mirrorAgrees (self : DecisionLogWriter) (env : WriteEnv)
    (records : List DecisionInput) (store : DecisionStore) (h : self.AllOrNothing env records)
    (hmirrored : self.mirrored = true) (hagrees : MirrorAgrees store) :
    MirrorAgrees (self.write env records store).2 := by
  rcases h store with ⟨added, rows, lines, _, hrows, hlines, hof, hofl⟩
  rcases hagrees with ⟨before, hdecisions, hmirror⟩
  rw [if_pos hmirrored] at hofl
  refine ⟨before ++ added, ?_, ?_⟩
  · rw [hrows]
    exact List.rel_append hdecisions hof
  · rw [hlines]
    exact List.rel_append hmirror hofl

/-- After any writes in which nothing fails halfway, the mirror has the records of the table. -/
theorem mirrorAgrees_of_run (self : DecisionLogWriter) (hmirrored : self.mirrored = true)
    (store later : DecisionStore)
    (hrun : Run (fun s (e : WriteEnv × List DecisionInput) => (self.write e.1 e.2 s).2)
      (fun _ e => self.NothingHalfway e.1 e.2) store later)
    (hagrees : MirrorAgrees store) : MirrorAgrees later :=
  Run.invariant MirrorAgrees
    (fun s e hwhole hs => AllOrNothing.mirrorAgrees self e.1 e.2 s
      ((self.allOrNothing_iff e.1 e.2).mpr hwhole) hmirrored hs) hrun hagrees

end DecisionLogWriter

end OptionsBot
