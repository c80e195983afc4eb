import OptionsBot.Core.Config
import OptionsBot.Lib.JsonTree
import OptionsBot.Lib.Table
import Mathlib.Data.List.Sort
import Mathlib.Data.String.Basic

/-!
# Configuration Files

The directory of YAML files the bot is configured by, and the loader that makes a configuration
of it at a start. There is one file for the global section, and one for each strategy.

The loader takes the strategy files in the order of their names and stops at the first that it
refuses. What a file is named after does not matter to it: the strategy is the one that the field
`id` names. The ids have to be distinct, and the weights to sum to one up to `1e-6`.

The YAML library and the validated models are not part of the repository. They are given, the
models as one validator for each class.

## Main definitions

* `Yaml`, `ConfigModels`: The library, and the validated models.
* `ConfigDir`: The files.
* `ConfigError`: What the loader raises.
* `loadStrategyConfig`: One strategy file.
* `loadStrategyConfigs`: All of them.
* `loadAll`: The configuration of a start.

## Theorems

* `get_set_of_ne`: The other fields after one is set.
* `checkUniqueIds_ok_iff`, `checkRiskWeightsSumToOne_ok_iff`: What the two checks ask for.
* `loadStrategyConfigs_ok_iff`: When the loader accepts the strategy files.
* `loadAll_strategies`: The strategies of a configuration.
-/

namespace OptionsBot

/-- The YAML library: `safe_load`, and `safe_dump` in the order of the keys. -/
structure Yaml where
  load : String → Except String JsonTree
  dump : JsonTree → String

/-- The validated models, each from the fields of a file. -/
structure ConfigModels where
  globalConfig : JsonFields → Except String GlobalConfig
  directional : JsonFields → Except String DirectionalConfig
  creditVertical : JsonFields → Except String CreditVerticalConfig
  longStraddle : JsonFields → Except String LongStraddleConfig

/-- `d[key] = value`. -/
def JsonFields.set (o : JsonFields) (key : String) (value : JsonTree) : JsonFields :=
  Table.upsert Prod.fst key (fun _ => (key, value)) o

/-- `d.get(key, default)`. A field that is there and null is null. -/
def JsonFields.getOr (o : JsonFields) (key : String) (default : JsonTree) : JsonTree :=
  ((Table.lookup Prod.fst key o).map Prod.snd).getD default

/-- A file, by its name in its directory. -/
structure ConfigFile where
  name : String
  text : String
  deriving DecidableEq

/-- `global.yaml`, if it is there, and the files of `strategies`, if that is there, in the order
    that the file system lists them. -/
structure ConfigDir where
  globalYaml : Option String
  strategies : Option (List ConfigFile)

inductive ConfigError where
  /-- config file not found -/
  | fileNotFound
  /-- config file must be a YAML mapping, got another type -/
  | notMapping (data : JsonTree)
  /-- strategy config dir not found -/
  | dirNotFound
  /-- missing required field 'id' -/
  | missingId (file : String)
  /-- unknown strategy id -/
  | unknownId (file : String) (id : JsonTree)
  /-- no strategy configs found -/
  | noConfigs
  /-- duplicate strategy id -/
  | duplicateId (id : StrategyId)
  /-- strategy risk_weights must sum to 1.0, with the weights there are -/
  | weights (total : ℚ) (weights : List (StrategyId × ℚ))
  /-- The library's own error. -/
  | yamlError (message : String)
  /-- A field that its model refuses. -/
  | validationError (message : String)
  /-- An id that is a list or a mapping, which no dictionary has as a key. -/
  | unhashable

section Loader

variable (yaml : Yaml) (models : ConfigModels)

/-- The fields of a file. An empty file has none. -/
def readYaml (text : Option String) : Except ConfigError JsonFields :=
  match text with
  | none => .error .fileNotFound
  | some text =>
    match yaml.load text with
    | .error e => .error (.yamlError e)
    | .ok .null => .ok []
    | .ok (.object fields) => .ok fields
    | .ok data => .error (.notMapping data)

/-- The strategy of a name. -/
def StrategyId.ofName (name : String) : Option StrategyId :=
  [StrategyId.directional, .creditVertical, .longStraddle].find? (fun id => id.value = name)

def loadGlobalConfig (dir : ConfigDir) : Except ConfigError GlobalConfig :=
  match readYaml yaml dir.globalYaml with
  | .error e => .error e
  | .ok raw => (models.globalConfig raw).mapError .validationError

/-- The model of a strategy on the fields of its file. -/
def ConfigModels.validate (id : StrategyId) (raw : JsonFields) : Except String StrategyConfig :=
  match id with
  | .directional => (models.directional raw).map .directional
  | .creditVertical => (models.creditVertical raw).map .creditVertical
  | .longStraddle => (models.longStraddle raw).map .longStraddle

/-- The class of a file, by its field `id`. -/
def classOf (name : String) (raw : JsonFields) : Except ConfigError StrategyId :=
  match JsonFields.get raw "id" with
  | .null => .error (.missingId name)
  | .array _ | .object _ => .error .unhashable
  | .text id =>
    match StrategyId.ofName id with
    | none => .error (.unknownId name (.text id))
    | some id => .ok id
  | id => .error (.unknownId name id)

/-- One turn of the loader's loop. -/
def loadStrategyConfig (file : ConfigFile) : Except ConfigError StrategyConfig :=
  match readYaml yaml (some file.text) with
  | .error e => .error e
  | .ok raw =>
    match classOf file.name raw with
    | .error e => .error e
    | .ok id => (models.validate id raw).mapError .validationError

/-- Whether the name is one of `*.yaml`. -/
def ConfigFile.IsYaml (file : ConfigFile) : Prop := ".yaml".toList <:+ file.name.toList

instance (file : ConfigFile) : Decidable file.IsYaml :=
  inferInstanceAs (Decidable (".yaml".toList <:+ file.name.toList))

/-- The YAML files by their names. -/
def yamlFiles (files : List ConfigFile) : List ConfigFile :=
  (files.filter ConfigFile.IsYaml).insertionSort (fun a b => a.name ≤ b.name)

/-- The loop over the ids, with the ones seen so far. -/
def checkUniqueIds (seen : List StrategyId) : List StrategyConfig → Except ConfigError Unit
  | [] => .ok ()
  | c :: rest =>
    if c.id ∈ seen then .error (.duplicateId c.id) else checkUniqueIds (c.id :: seen) rest

def checkRiskWeightsSumToOne (configs : List StrategyConfig) : Except ConfigError Unit :=
  let total := (configs.map (fun c => c.base.riskWeight)).sum
  if 1 / 1000000 < |total - 1| then
    .error (.weights total (configs.map (fun c => (c.id, c.base.riskWeight))))
  else .ok ()

def loadStrategyConfigs (dir : ConfigDir) : Except ConfigError (List StrategyConfig) :=
  match dir.strategies with
  | none => .error .dirNotFound
  | some files =>
    match (yamlFiles files).mapM (loadStrategyConfig yaml models) with
    | .error e => .error e
    | .ok [] => .error .noConfigs
    | .ok configs =>
      match checkUniqueIds [] configs with
      | .error e => .error e
      | .ok () =>
        match checkRiskWeightsSumToOne configs with
        | .error e => .error e
        | .ok () => .ok configs

end Loader

/-- What the environment says, as far as the configuration depends on it. -/
structure Settings where
  isLive : Bool := false
  navInrOverride : Option ℚ := none

theorem checkUniqueIds_ok_iff (seen : List StrategyId) (configs : List StrategyConfig) :
    checkUniqueIds seen configs = .ok () ↔
      (configs.map StrategyConfig.id).Nodup ∧ ∀ c ∈ configs, c.id ∉ seen := by
  induction configs generalizing seen with
  | nil => simp only [checkUniqueIds, List.map_nil, List.nodup_nil, List.not_mem_nil, false_imp_iff,
      implies_true, and_self]
  | cons c rest ih =>
      rw [checkUniqueIds, List.map_cons, List.nodup_cons, List.forall_mem_cons]
      by_cases hseen : c.id ∈ seen
      · rw [if_pos hseen]
        exact iff_of_false (fun h => nomatch h) (fun h => h.2.1 hseen)
      · rw [if_neg hseen, ih]
        -- The ids behind a file are not its own, and none of those before it.
        constructor
        · rintro ⟨hnodup, hrest⟩
          refine ⟨⟨fun hmem => ?_, hnodup⟩, hseen, fun c' hc' hold => ?_⟩
          · rcases List.mem_map.mp hmem with ⟨c', hc', hid⟩
            exact hrest c' hc' (hid ▸ List.mem_cons_self)
          · exact hrest c' hc' (List.mem_cons_of_mem _ hold)
        · rintro ⟨⟨hfresh, hnodup⟩, -, hrest⟩
          refine ⟨hnodup, fun c' hc' hmem => ?_⟩
          rcases List.mem_cons.mp hmem with hsame | hold
          · exact hfresh (hsame ▸ List.mem_map_of_mem hc')
          · exact hrest c' hc' hold

theorem checkRiskWeightsSumToOne_ok_iff (configs : List StrategyConfig) :
    checkRiskWeightsSumToOne configs = .ok () ↔
      1 - 1 / 1000000 ≤ (configs.map (fun c => c.base.riskWeight)).sum ∧
        (configs.map (fun c => c.base.riskWeight)).sum ≤ 1 + 1 / 1000000 := by
  unfold checkRiskWeightsSumToOne
  simp only
  generalize (configs.map (fun c => c.base.riskWeight)).sum = total
  have hclose : |total - 1| ≤ 1 / 1000000 ↔ 1 - 1 / 1000000 ≤ total ∧ total ≤ 1 + 1 / 1000000 := by
    rw [abs_le]
    constructor
    · intro h
      constructor <;> linarith [h.1, h.2]
    · intro h
      constructor <;> linarith [h.1, h.2]
  rw [← hclose]
  by_cases hfar : 1 / 1000000 < |total - 1|
  · rw [if_pos hfar]
    exact iff_of_false (fun h => nomatch h) (not_le.mpr hfar)
  · rw [if_neg hfar]
    exact iff_of_true rfl (not_lt.mp hfar)

section Loaded

variable (yaml : Yaml) (models : ConfigModels) (dir : ConfigDir)

/-- The loader accepts the strategy files exactly if it accepts each of them, and there are some,
    of different strategies, whose weights sum to one. -/
theorem loadStrategyConfigs_ok_iff (configs : List StrategyConfig) :
    loadStrategyConfigs yaml models dir = .ok configs ↔
      ∃ files, dir.strategies = some files ∧
        (yamlFiles files).mapM (loadStrategyConfig yaml models) = .ok configs ∧ configs ≠ [] ∧
        (configs.map StrategyConfig.id).Nodup ∧
        1 - 1 / 1000000 ≤ (configs.map (fun c => c.base.riskWeight)).sum ∧
        (configs.map (fun c => c.base.riskWeight)).sum ≤ 1 + 1 / 1000000 := by
  have hunique := checkUniqueIds_ok_iff [] configs
  rw [← checkRiskWeightsSumToOne_ok_iff]
  unfold loadStrategyConfigs
  rcases dir.strategies with _ | files
  · exact iff_of_false (fun h => nomatch h) (fun ⟨_, h, _⟩ => nomatch h)
  · simp only [Option.some.injEq, exists_eq_left']
    rcases (yamlFiles files).mapM (loadStrategyConfig yaml models) with e | ⟨_ | ⟨c, rest⟩⟩
    · exact iff_of_false (fun h => nomatch h) (fun ⟨h, _⟩ => nomatch h)
    · refine iff_of_false (fun h => nomatch h) ?_
      rintro ⟨h, hne, -⟩
      cases h
      exact hne rfl
    · simp only [Except.ok.injEq]
      constructor
      · intro h
        split at h
        · cases h
        · next hids =>
          split at h
          · cases h
          · next hweights =>
            cases h
            exact ⟨rfl, List.cons_ne_nil _ _, (hunique.mp hids).1, hweights⟩
      · rintro ⟨rfl, -, hids, hweights⟩
        rw [hunique.mpr ⟨hids, fun c _ hc => nomatch hc⟩]
        simp only [hweights]

/-- The configuration of a start. What the two checks have found goes with it. -/
def loadAll (settings : Settings) : Except ConfigError AppConfig :=
  match loadGlobalConfig yaml models dir with
  | .error e => .error e
  | .ok globalConfig =>
    match h : loadStrategyConfigs yaml models dir with
    | .error e => .error e
    | .ok strategies =>
      have hchecks := (loadStrategyConfigs_ok_iff yaml models dir strategies).mp h
      .ok
        { isLive := settings.isLive
          navInrOverride := settings.navInrOverride
          globalConfig := globalConfig
          strategies := strategies
          unique_ids := by
            rcases hchecks with ⟨_, _, _, _, hids, _⟩
            exact hids
          weights_sum := by
            rcases hchecks with ⟨_, _, _, _, _, hweights⟩
            exact hweights }

theorem loadAll_strategies (settings : Settings) (app : AppConfig)
    (h : loadAll yaml models dir settings = .ok app) :
    loadStrategyConfigs yaml models dir = .ok app.strategies ∧ app.isLive = settings.isLive := by
  unfold loadAll at h
  split at h
  · cases h
  · split at h
    · cases h
    · next hstrategies =>
      cases h
      exact ⟨hstrategies, rfl⟩

end Loaded

/-- Setting a field leaves the others. -/
theorem JsonFields.get_set_of_ne (o : JsonFields) (key other : String) (value : JsonTree)
    (h : other ≠ key) : (o.set key value).get other = o.get other := by
  change ((Table.lookup Prod.fst other (o.set key value)).map Prod.snd).getD .null =
    ((Table.lookup Prod.fst other o).map Prod.snd).getD .null
  rw [JsonFields.set, Table.lookup_upsert_of_ne Prod.fst key (fun _ => (key, value)) o rfl
    other h]

end OptionsBot
