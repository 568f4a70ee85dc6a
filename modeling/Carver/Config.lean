import Carver.Job

/-!
# Configurations

What to split, into which modules, with which import lines, and how to log. The built-in
configuration splits a tile game into its parts.
-/

namespace Carver

/-- The source and how it is split. -/
structure SourceSettings where
  path : Path
  anchor : String
  backupSuffix : String
  outputDirectory : Option Path
  deriving DecidableEq, Repr

/-- How log records are written. -/
inductive LogFormat where
  | pretty
  | json
  deriving DecidableEq, Repr

/-- The word for a format. -/
def LogFormat.name : LogFormat → String
  | .pretty => "pretty"
  | .json => "json"

/-- What is logged and how. -/
structure LogSettings where
  level : String
  format : LogFormat
  deriving DecidableEq, Repr

/-- A whole configuration. -/
structure Config where
  source : SourceSettings
  imports : ImportTable
  modules : Plan
  logging : LogSettings
  deriving DecidableEq, Repr

/-- The file of a module. -/
def SourceSettings.modulePath (source : SourceSettings) (name : String) : Path :=
  let directory :=
    match source.outputDirectory with
    | some directory => directory
    | none => source.path.parent.getD ⟨""⟩
  directory.join (name ++ ".rs")

/-- The job that a configuration describes. -/
def Job.ofConfig (config : Config) : Job where
  source := config.source.path
  anchor := config.source.anchor
  backupSuffix := config.source.backupSuffix
  outputDirectory := config.source.outputDirectory
  dryRun := false

namespace Defaults

/-- The source. -/
def sourcePath : String := "src/main.rs"

/-- The anchor. -/
def anchor : String := "mod test;"

/-- What is written behind the source's path to name the copy. -/
def backupSuffix : String := ".backup"

/-- Where a configuration file is looked for; the first one that is there counts. -/
def configPaths : List String :=
  ["modsplit.toml", ".modsplit/config.toml"]

/-- How the names of environment variables with settings begin. -/
def environmentMark : String := "MODSPLIT__"

/-- An entry with functions and structs alone. -/
def entry (name : String) (functions structs : List String) : ModulePlan :=
  ⟨name, functions, structs, []⟩

/-- The plan. -/
def plan : Plan := [
  entry "game" [
    "create_plateau_empty", "create_shuffle_deck", "is_plateau_full", "get_legal_moves",
    "generate_tile_image_names", "is_game_over", "apply_move", "placer_tile"] [],
  entry "scoring" [
    "result", "calculate_line_completion_bonus", "enhanced_position_evaluation",
    "compute_alignment_score", "compute_potential_scores"] [],
  entry "mcts" [
    "mcts_find_best_position_for_tile_with_nn", "simulate_games", "local_lookahead"]
    ["MCTSResult"],
  entry "neural" [
    "convert_plateau_to_tensor", "enhanced_gradient_clipping", "robust_state_normalization",
    "train_network_with_game_data", "compute_global_stats", "normalize_input",
    "calculate_n_step_returns", "huber_loss", "calculate_prediction_accuracy"] [],
  entry "utils" [
    "random_index", "load_game_data", "save_game_data", "serialize_tensor", "tensor_to_vec",
    "deserialize_game_data", "append_to_results_file"] []]

/-- The import lines. -/
def imports : ImportTable where
  common := ["use crate::test::\x7bDeck, Plateau, Tile\x7d;"]
  byModule := [
    ("game", ["use rand::Rng;"]),
    ("mcts", [
      "use std::collections::HashMap;",
      "use tch::Tensor;",
      "use rand::Rng;",
      "use crate::policy_value_net::\x7bPolicyNet, ValueNet\x7d;"]),
    ("neural", [
      "use tch::\x7bnn, Tensor\x7d;",
      "use tch::nn::\x7bOptimizer, OptimizerConfig\x7d;",
      "use std::collections::HashMap;",
      "use crate::policy_value_net::\x7bPolicyNet, ValueNet\x7d;"]),
    ("scoring", ["use std::collections::HashMap;"]),
    ("utils", ["use rand::Rng;"])]

/-- The source settings. -/
def source : SourceSettings :=
  ⟨⟨sourcePath⟩, anchor, backupSuffix, none⟩

/-- The log settings. -/
def logging : LogSettings :=
  ⟨"info", .pretty⟩

/-- The whole configuration. -/
def config : Config :=
  ⟨source, imports, plan, logging⟩

end Defaults

end Carver
