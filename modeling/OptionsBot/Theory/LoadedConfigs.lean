import OptionsBot.Lib.Listing
import OptionsBot.Theory.Promotion

/-!
# What a Promotion Does to a Configuration

The loader reads a directory as a set of files. The order in which the file system lists them does
not show, in the strategies or in the error.

What the go-live gate writes is one file of that set. So the loader accepts the directory after a
promotion if it has accepted it before, and gives the same strategies in the same order, with the
flag of the promoted one set and everything else as it was. In particular the weights still sum to
one, which is checked at the next start.

## Main definitions

* `StrategyConfig.promote`: A configuration with the flag set.
* `ConfigModels.Separate`: Models that read each field on its own.

## Theorems

* `yamlFiles_write`: The files after one is written over.
* `evaluate_writes`: What an evaluation does to the files.
* `loader_reads_a_set`: The order of a listing does not show.
* `promotion_flips_one_flag`: The strategies after a promotion.
-/

namespace OptionsBot

-- The sample evaluation below computes with rationals.
attribute [local semireducible] Rat.add Rat.sub Rat.mul Rat.inv

/-- What the strategies' configurations have in common, with the flag set. -/
def BaseStrategyConfig.promote (base : BaseStrategyConfig) : BaseStrategyConfig :=
  { base with enabledLive := true }

/-- The configuration with the flag set. -/
def StrategyConfig.promote : StrategyConfig → StrategyConfig
  | .directional cfg =>
    .directional { cfg with toBaseStrategyConfig := cfg.toBaseStrategyConfig.promote }
  | .creditVertical cfg =>
    .creditVertical { cfg with toBaseStrategyConfig := cfg.toBaseStrategyConfig.promote }
  | .longStraddle cfg =>
    .longStraddle { cfg with toBaseStrategyConfig := cfg.toBaseStrategyConfig.promote }

/-- No model makes another field depend on the flag, or refuses it when it is true. -/
structure ConfigModels.Separate (models : ConfigModels) : Prop where
  directional : ∀ raw cfg, models.directional raw = .ok cfg →
    models.directional (raw.set "enabled_live" (.flag true)) = .ok { cfg with enabledLive := true }
  creditVertical : ∀ raw cfg, models.creditVertical raw = .ok cfg →
    models.creditVertical (raw.set "enabled_live" (.flag true)) =
      .ok { cfg with enabledLive := true }
  longStraddle : ∀ raw cfg, models.longStraddle raw = .ok cfg →
    models.longStraddle (raw.set "enabled_live" (.flag true)) = .ok { cfg with enabledLive := true }

theorem promote_id (cfg : StrategyConfig) : cfg.promote.id = cfg.id := by
  cases cfg <;> rfl

theorem promote_weight (cfg : StrategyConfig) :
    cfg.promote.base.riskWeight = cfg.base.riskWeight := by
  cases cfg <;> rfl

/-- Setting the flag of one strategy changes no id. -/
theorem flagged_id (id : StrategyId) (cfg : StrategyConfig) :
    (StrategyConfig.id ∘ fun cfg => if cfg.id = id then cfg.promote else cfg) cfg = cfg.id := by
  rw [Function.comp_apply]
  split_ifs
  · exact promote_id cfg
  · rfl

/-- It changes no weight. -/
theorem flagged_weight (id : StrategyId) (cfg : StrategyConfig) :
    ((fun cfg : StrategyConfig => cfg.base.riskWeight) ∘
      fun cfg => if cfg.id = id then cfg.promote else cfg) cfg = cfg.base.riskWeight := by
  rw [Function.comp_apply]
  split_ifs
  · exact promote_weight cfg
  · rfl

theorem value_injective (a b : StrategyId) (h : a.value = b.value) : a = b := by
  cases a <;> cases b <;> first | rfl | exact absurd h (by decide)

theorem validate_set (models : ConfigModels) (h : models.Separate) (id : StrategyId)
    (raw : JsonFields) (cfg : StrategyConfig) (hvalid : models.validate id raw = .ok cfg) :
    models.validate id (raw.set "enabled_live" (.flag true)) = .ok cfg.promote := by
  unfold ConfigModels.validate at hvalid ⊢
  cases id with
  | directional =>
      simp only at hvalid ⊢
      cases hraw : models.directional raw with
      | error e =>
          rw [hraw] at hvalid
          cases hvalid
      | ok c =>
          rw [hraw] at hvalid
          cases hvalid
          rw [h.directional raw c hraw]
          rfl
  | creditVertical =>
      simp only at hvalid ⊢
      cases hraw : models.creditVertical raw with
      | error e =>
          rw [hraw] at hvalid
          cases hvalid
      | ok c =>
          rw [hraw] at hvalid
          cases hvalid
          rw [h.creditVertical raw c hraw]
          rfl
  | longStraddle =>
      simp only at hvalid ⊢
      cases hraw : models.longStraddle raw with
      | error e =>
          rw [hraw] at hvalid
          cases hvalid
      | ok c =>
          rw [hraw] at hvalid
          cases hvalid
          rw [h.longStraddle raw c hraw]
          rfl

/-- A write over a file of a directory. -/
def overwrite (new file : ConfigFile) : ConfigFile := if file.name = new.name then new else file

theorem overwrite_name (new file : ConfigFile) : (overwrite new file).name = file.name := by
  unfold overwrite
  by_cases hname : file.name = new.name
  · rw [if_pos hname, hname]
  · rw [if_neg hname]

/-- The YAML files after one of the files is written over. -/
theorem yamlFiles_write (files : List ConfigFile) (new : ConfigFile)
    (hnames : (files.map ConfigFile.name).Nodup) (hmem : new.name ∈ files.map ConfigFile.name) :
    yamlFiles (Table.upsert ConfigFile.name new.name (fun _ => new) files) =
      (yamlFiles files).map (overwrite new) := by
  have hyaml : ((fun file : ConfigFile => decide file.IsYaml) ∘ overwrite new) =
      fun file => decide file.IsYaml := by
    funext file
    rw [Function.comp_apply]
    refine decide_eq_decide.mpr ?_
    unfold ConfigFile.IsYaml
    rw [overwrite_name]
  unfold yamlFiles
  rw [Listing.upsert_eq_map ConfigFile.name new files hnames hmem]
  change ((files.map (overwrite new)).filter _).insertionSort _ = _
  rw [List.filter_map, hyaml]
  exact Listing.sorted_map ConfigFile.name (overwrite new) (overwrite_name new) _

section Evaluate

variable (yaml : Yaml) (parseFloat : String → Option ℚ) (parseInt : String → Option Int)

/-- A check does not say that anything was written. -/
theorem act_written (run : GateRun) (w : GateWorld) (stage : GateStage) (report : GateReport)
    (dir : ConfigDir) (h : run.act yaml parseFloat parseInt w stage = .ok (report, dir))
    (hstage : ¬ .write = stage) : report.written = run.report.written := by
  cases stage with
  | integrity =>
      cases h
      unfold GoLiveGate.checkDbIntegrity
      split <;> rfl
  | breaker =>
      cases h
      rfl
  | minDays =>
      cases h
      rfl
  | minTrades =>
      cases h
      rfl
  | entryIv =>
      unfold GateRun.act GoLiveGate.checkEntryIvCoverage at h
      simp only at h
      split at h
      · cases h
      · cases h
        rfl
      · split_ifs at h
        · cases h
          rfl
        · cases h
          rfl
  | write => exact absurd rfl hstage

/-- The checks leave the files alone, and what is written comes last. -/
theorem finish_write (checks : List GateStage) (hchecks : .write ∉ checks) (run : GateRun)
    (w : GateWorld) (result : GateReport × ConfigDir)
    (h : run.finish yaml parseFloat parseInt w (checks ++ [.write]) = .ok result) :
    ∃ report, report.written = run.report.written ∧
      { run with report := report }.act yaml parseFloat parseInt w .write = .ok result := by
  induction checks generalizing run w with
  | nil =>
      refine ⟨run.report, rfl, ?_⟩
      rw [List.nil_append, GateRun.finish] at h
      split at h
      · cases h
      · next report dir hact =>
        rw [GateRun.finish] at h
        cases h
        exact hact
  | cons stage rest ih =>
      rw [List.mem_cons, not_or] at hchecks
      rw [List.cons_append, GateRun.finish] at h
      split at h
      · cases h
      · next report dir hact =>
        have hdir : dir = w.dir := by
          rcases (act_found yaml parseFloat parseInt run w stage report dir hact).2 with
            hsame | ⟨hwrite, _⟩
          · exact hsame
          · exact absurd hwrite.symm hchecks.1
        have hwritten := act_written yaml parseFloat parseInt run w stage report dir hact hchecks.1
        rcases ih hchecks.2 _ _ h with ⟨last, hlast, hact'⟩
        refine ⟨last, hlast.trans hwritten, ?_⟩
        rw [hdir] at hact'
        exact hact'

/-- An evaluation writes nothing, or it writes the file of its strategy with the flag set. -/
theorem evaluate_writes (w : GateWorld) (strategyId : String) (dryRun : Bool) (report : GateReport)
    (dir : ConfigDir)
    (h : GoLiveGate.evaluate yaml parseFloat parseInt w strategyId dryRun = .ok (report, dir)) :
    (report.written = false ∧ dir = w.dir) ∨
      (report.written = true ∧ ∃ (id : StrategyId) (file : ConfigFile) (tree : JsonTree)
        (fields : JsonFields), id.value = strategyId ∧
        GoLiveGate.fileOf w.dir id.fileName = some file ∧ yaml.load file.text = .ok tree ∧
        tree.or (.object []) = .object fields ∧
        dir = w.dir.write id.fileName
          (yaml.dump (.object (fields.set "enabled_live" (.flag true))))) := by
  unfold GoLiveGate.evaluate at h
  split at h
  · cases h
  · next ended hbegin =>
    cases h
    refine Or.inl ⟨?_, rfl⟩
    unfold GoLiveGate.begin at hbegin
    simp only at hbegin
    split at hbegin
    · cases hbegin
      rfl
    · split at hbegin
      · cases hbegin
        rfl
      · split at hbegin
        · cases hbegin
          rfl
        · split at hbegin
          · cases hbegin
          · cases hbegin
  · next run hbegin =>
    have hbegun : run.report.written = false ∧
        run.left = [GateStage.integrity, .breaker, .minDays, .minTrades, .entryIv] ++ [.write] ∧
        ∃ file tree, run.strategy.value = strategyId ∧
          GoLiveGate.fileOf w.dir run.strategy.fileName = some file ∧
          yaml.load file.text = .ok tree ∧ tree.or (.object []) = .object run.payload := by
      unfold GoLiveGate.begin at hbegin
      simp only at hbegin
      split at hbegin
      · cases hbegin
      · next id hid =>
        split at hbegin
        · cases hbegin
        · next file hfile =>
          split at hbegin
          · cases hbegin
          · next tree htree =>
            split at hbegin
            · cases hbegin
            · next payload hpayload =>
              cases hbegin
              refine ⟨rfl, rfl, file, tree, ofName_value _ _ hid, hfile, htree, ?_⟩
              exact object_of_fields _ _ hpayload
    rcases hbegun with ⟨hunwritten, hleft, file, tree, hid, hfile, htree, hobject⟩
    rw [hleft] at h
    rcases finish_write yaml parseFloat parseInt _ (by decide) run w _ h with
      ⟨last, hlast, hact⟩
    unfold GateRun.act at hact
    simp only at hact
    split_ifs at hact
    · cases hact
      exact Or.inr ⟨rfl, run.strategy, file, tree, run.payload, hid, hfile, htree, hobject, rfl⟩
    · cases hact
      exact Or.inl ⟨hlast.trans hunwritten, rfl⟩

end Evaluate

section Loader

variable (yaml : Yaml) (models : ConfigModels)

/-- The loader reads a set of files: two listings of the same files give the same strategies or
    the same error, and the error is that of the first refused file by name. -/
theorem loader_reads_a_set (globalYaml : Option String) (files listing : List ConfigFile)
    (hperm : files.Perm listing) (hnames : (files.map ConfigFile.name).Nodup) :
    loadStrategyConfigs yaml models ⟨globalYaml, some files⟩ =
        loadStrategyConfigs yaml models ⟨globalYaml, some listing⟩ ∧
      ∀ file ∈ files, file.IsYaml → ∀ e, loadStrategyConfig yaml models file = .error e →
        (∀ other ∈ files, other.IsYaml → other.name < file.name →
          ∃ cfg, loadStrategyConfig yaml models other = .ok cfg) →
        loadStrategyConfigs yaml models ⟨globalYaml, some files⟩ = .error e := by
  have hnames' : ((files.filter ConfigFile.IsYaml).map ConfigFile.name).Nodup :=
    (List.filter_sublist.map ConfigFile.name).nodup hnames
  have hyaml : ∀ file : ConfigFile, file ∈ files.filter ConfigFile.IsYaml ↔
      file ∈ files ∧ file.IsYaml := by
    intro file
    rw [List.mem_filter, decide_eq_true_iff]
  constructor
  · have hsorted : yamlFiles files = yamlFiles listing :=
      Listing.sorted_perm ConfigFile.name _ _ (hperm.filter _) hnames'
    unfold loadStrategyConfigs
    simp only [hsorted]
  · intro file hfile hisYaml e herror hbefore
    have hloop : (yamlFiles files).mapM (loadStrategyConfig yaml models) = .error e := by
      refine Listing.mapM_sorted_error ConfigFile.name _ _ file e ((hyaml file).mpr
        ⟨hfile, hisYaml⟩) hnames' (fun other hother hless => ?_) herror
      rcases (hyaml other).mp hother with ⟨hmem, hother'⟩
      exact hbefore other hmem hother' hless
    unfold loadStrategyConfigs
    simp only [hloop]

/-- A file that is no YAML is refused wherever it is listed. -/
theorem loader_reads_a_set_broken :
    loadStrategyConfigs straddleYaml straddleModels
        ⟨none, some [{ name := "long_straddle.yaml", text := straddleText },
          { name := "broken.yaml", text := "[" }]⟩ =
      .error (.yamlError "not a file of the sample") := by
  have hboth := loader_reads_a_set straddleYaml straddleModels none
    [{ name := "long_straddle.yaml", text := straddleText },
      { name := "broken.yaml", text := "[" }]
    [{ name := "broken.yaml", text := "[" },
      { name := "long_straddle.yaml", text := straddleText }]
    (List.Perm.swap _ _ _) (by decide)
  refine hboth.2 { name := "broken.yaml", text := "[" } (by decide) (by decide) _ rfl
    fun other hother _ hless => ?_
  rcases List.mem_cons.mp hother with rfl | hlast
  · exact absurd hless (by decide)
  · rw [List.mem_singleton.mp hlast] at hless
    exact absurd hless (lt_irrefl _)

/-- What is loaded of the file that a promotion has written, and of any other. -/
theorem load_overwrite (hdump : yaml.ReadsBack) (hmodels : models.Separate) (files : List ConfigFile)
    (hnames : (files.map ConfigFile.name).Nodup) (dir : ConfigDir)
    (hfiles : dir.strategies = some files) (hnamed : PromotionDesk.Named yaml dir)
    (id : StrategyId) (promoted : ConfigFile) (tree : JsonTree) (fields : JsonFields)
    (hfound : GoLiveGate.fileOf dir id.fileName = some promoted)
    (htree : yaml.load promoted.text = .ok tree)
    (hobject : tree.or (.object []) = .object fields) (file : ConfigFile) (hfile : file ∈ files)
    (hisYaml : file.IsYaml) (cfg : StrategyConfig)
    (hload : loadStrategyConfig yaml models file = .ok cfg) :
    loadStrategyConfig yaml models (overwrite
        { name := id.fileName
          text := yaml.dump (.object (fields.set "enabled_live" (.flag true))) } file) =
      .ok (if cfg.id = id then cfg.promote else cfg) := by
  rcases loadStrategyConfig_class yaml models file cfg hload with ⟨raw, hread, hclass, hvalid⟩
  have hname := hnamed files hfiles file hfile hisYaml raw cfg.id hread hclass
  unfold overwrite
  by_cases hsame : file.name = id.fileName
  · have hid : cfg.id = id := fileName_injective _ _ (hname.symm.trans hsame)
    rw [if_pos hsame, if_pos hid]
    -- The file is the one that the gate has found, so its fields are the ones it has read.
    have hone : promoted = file := by
      unfold GoLiveGate.fileOf at hfound
      rw [hfiles] at hfound
      rcases Table.mem_of_lookup ConfigFile.name _ files promoted hfound with ⟨hmem, hkey⟩
      exact List.inj_on_of_nodup_map hnames hmem hfile (hkey.trans hsame.symm)
    have hfields : fields = raw := by
      rw [hone] at htree
      unfold readYaml at hread
      simp only [htree] at hread
      cases tree with
      | object fields' =>
          cases hread
          cases raw with
          | nil => cases hclass
          | cons field rest =>
              cases hobject
              rfl
      | null =>
          cases hread
          cases hclass
      | _ => cases hread
    have hback := hdump promoted.text tree fields htree hobject
    rw [hfields] at hback ⊢
    rw [hid] at hclass hvalid
    unfold loadStrategyConfig readYaml
    simp only [hback, (classOf_set id.fileName file.name raw (.flag true) id).mpr hclass,
      validate_set models hmodels id raw cfg hvalid]
    rfl
  · have hid : cfg.id ≠ id := fun hid => hsame (hid ▸ hname)
    rw [if_neg hsame, if_neg hid]
    exact hload

/-- After an evaluation the loader gives the strategies it has given before, in their order, with
    the flag of the one that was promoted, if it was. -/
theorem promotion_flips_one_flag (parseFloat : String → Option ℚ) (parseInt : String → Option Int)
    (hdump : yaml.ReadsBack) (hmodels : models.Separate) (w : GateWorld) (strategyId : String)
    (dryRun : Bool) (report : GateReport) (dir : ConfigDir)
    (h : GoLiveGate.evaluate yaml parseFloat parseInt w strategyId dryRun = .ok (report, dir))
    (files : List ConfigFile) (hfiles : w.dir.strategies = some files)
    (hnames : (files.map ConfigFile.name).Nodup) (hnamed : PromotionDesk.Named yaml w.dir)
    (configs : List StrategyConfig) (hload : loadStrategyConfigs yaml models w.dir = .ok configs) :
    loadStrategyConfigs yaml models dir =
      .ok (configs.map (fun cfg =>
        if report.written = true ∧ cfg.id.value = strategyId then cfg.promote else cfg)) := by
  rcases evaluate_writes yaml parseFloat parseInt w strategyId dryRun report dir h with
    ⟨hunwritten, hsame⟩ | ⟨hwritten, id, promoted, tree, fields, hid, hfound, htree, hobject, hdir⟩
  · have hkept : ∀ cfg : StrategyConfig,
        (if report.written = true ∧ cfg.id.value = strategyId then cfg.promote else cfg) = cfg := by
      intro cfg
      rw [if_neg fun h => absurd (hunwritten.symm.trans h.1) (by decide)]
    rw [hsame, List.map_congr_left fun cfg _ => hkept cfg, List.map_id']
    exact hload
  · have hpromotes : ∀ cfg : StrategyConfig,
        (if report.written = true ∧ cfg.id.value = strategyId then cfg.promote else cfg) =
          if cfg.id = id then cfg.promote else cfg := by
      intro cfg
      refine if_congr ?_ rfl rfl
      rw [← hid]
      constructor
      · intro h
        exact value_injective _ _ h.2
      · intro h
        exact ⟨hwritten, by rw [h]⟩
    rw [List.map_congr_left fun cfg _ => hpromotes cfg]
    rcases (loadStrategyConfigs_ok_iff yaml models w.dir configs).mp hload with
      ⟨files', hfiles', hloop, hne, hids, hweights⟩
    rw [hfiles] at hfiles'
    cases hfiles'
    let new : ConfigFile :=
      { name := id.fileName, text := yaml.dump (.object (fields.set "enabled_live" (.flag true))) }
    have hmem : new.name ∈ files.map ConfigFile.name := by
      unfold GoLiveGate.fileOf at hfound
      rw [hfiles] at hfound
      rcases Table.mem_of_lookup ConfigFile.name _ files promoted hfound with ⟨hin, hkey⟩
      change id.fileName ∈ files.map ConfigFile.name
      rw [← hkey]
      exact List.mem_map_of_mem hin
    rw [loadStrategyConfigs_ok_iff]
    refine ⟨Table.upsert ConfigFile.name new.name (fun _ => new) files, ?_, ?_, ?_, ?_, ?_⟩
    · rw [hdir]
      unfold ConfigDir.write
      simp only [hfiles, Option.map_some]
      rfl
    · rw [yamlFiles_write files new hnames hmem]
      refine Listing.mapM_map _ _ _ _ _ hloop fun file hfile cfg hcfg => ?_
      rcases List.mem_filter.mp ((List.mem_insertionSort _).mp hfile) with ⟨hin, hisYaml⟩
      exact load_overwrite yaml models hdump hmodels files hnames w.dir hfiles hnamed id promoted
        tree fields hfound htree hobject file hin (of_decide_eq_true hisYaml) cfg hcfg
    · rw [ne_eq, List.map_eq_nil_iff]
      exact hne
    · -- The flag changes neither the ids nor the weights.
      rw [List.map_map, List.map_congr_left fun cfg _ => flagged_id id cfg]
      exact hids
    · rw [List.map_map, List.map_congr_left fun cfg _ => flagged_weight id cfg]
      exact hweights

end Loader

section Sample

/-- What the gate reads of the sample. -/
def straddleWorld : GateWorld :=
  { dir := straddleDesk.dir, trades := straddleDesk.loop.rows.map DeskRow.record, navHistory := {}
    integrity := .ok (some "ok") }

/-- Setting the flag adds a field that is allowed, and leaves the others as they are. -/
theorem straddleModel_set (raw : JsonFields) (cfg : LongStraddleConfig)
    (h : straddleModel raw = .ok cfg) :
    straddleModel (raw.set "enabled_live" (.flag true)) = .ok { cfg with enabledLive := true } := by
  have hother : ∀ key, key ≠ "enabled_live" →
      (raw.set "enabled_live" (.flag true)).get key = raw.get key :=
    fun key hne => raw.get_set_of_ne "enabled_live" key (.flag true) hne
  have hflag : (raw.set "enabled_live" (.flag true)).getOr "enabled_live" (.flag false) =
      .flag true := by
    unfold JsonFields.getOr JsonFields.set
    rw [Table.lookup_upsert_self Prod.fst "enabled_live" _ raw rfl]
    rfl
  have hknown : raw.all (fun field => decide (field.1 ∈ straddleFields)) = true →
      (raw.set "enabled_live" (.flag true)).all
        (fun field => decide (field.1 ∈ straddleFields)) = true := by
    simp only [List.all_eq_true, decide_eq_true_eq]
    intro hall field hfield
    rcases Table.mem_upsert Prod.fst "enabled_live" _ raw field hfield with
      hold | rfl | ⟨_, _, _, rfl⟩
    · exact hall field hold
    · exact List.mem_of_elem_eq_true rfl
    · exact List.mem_of_elem_eq_true rfl
  unfold straddleModel at h ⊢
  rw [hother "risk_weight" (by decide), hother "risk_per_trade_pct" (by decide),
    hother "max_lots_cap" (by decide), hflag]
  split at h
  · next hlive hweight hpct hcap =>
    split_ifs at h with hbounds hfields
    cases h
    rw [hweight, hpct, hcap]
    simp only
    rw [dif_pos hbounds, if_pos (hknown hfields)]
  · cases h

theorem straddleModels_separate : straddleModels.Separate where
  directional := fun _ _ h => by cases h
  creditVertical := fun _ _ h => by cases h
  longStraddle := straddleModel_set

/-- The sample is promoted, and loaded with the flag. -/
theorem promotion_flips_straddle :
    ∃ report dir configs,
      GoLiveGate.evaluate straddleYaml (fun _ => none) (fun _ => none) straddleWorld
        "long_straddle" false = .ok (report, dir) ∧ report.written = true ∧
      loadStrategyConfigs straddleYaml straddleModels dir = .ok configs ∧
      ∀ cfg ∈ configs, cfg.base.enabledLive = true := by
  have hwrites : (GoLiveGate.evaluate straddleYaml (fun _ => none) (fun _ => none) straddleWorld
      "long_straddle" false).toOption.any (fun r => r.1.written) = true := by decide +kernel
  have hloads : (loadStrategyConfigs straddleYaml straddleModels straddleWorld.dir).toOption.any
      (fun configs => configs.all (fun cfg => decide (cfg.id = .longStraddle))) = true := by
    decide +kernel
  rcases hevaluate : GoLiveGate.evaluate straddleYaml (fun _ => none) (fun _ => none) straddleWorld
    "long_straddle" false with e | ⟨report, dir⟩
  · rw [hevaluate] at hwrites
    cases hwrites
  · rcases hload : loadStrategyConfigs straddleYaml straddleModels straddleWorld.dir with
      e | configs
    · rw [hload] at hloads
      cases hloads
    · rw [hevaluate] at hwrites
      rw [hload] at hloads
      have hwritten : report.written = true := hwrites
      refine ⟨report, dir, _, rfl, hwritten,
        promotion_flips_one_flag straddleYaml straddleModels (fun _ => none) (fun _ => none)
          straddleYaml_readsBack straddleModels_separate straddleWorld "long_straddle" false report
          dir hevaluate _ rfl (by decide) straddleDesk_unpromoted.named configs hload, ?_⟩
      intro cfg hcfg
      rcases List.mem_map.mp hcfg with ⟨old, hold, rfl⟩
      have hid : old.id = .longStraddle := of_decide_eq_true (List.all_eq_true.mp hloads old hold)
      rw [if_pos ⟨hwritten, by rw [hid]; rfl⟩]
      cases old <;> rfl

end Sample

end OptionsBot
