import Carver.Command
import Carver.Main
import Carver.Pattern.Derivation
import Carver.Pattern.Scan.Lemmas
import Carver.Proofs.Conservation
import Carver.Proofs.RepeatedRuns
import Carver.Proofs.ExactExtraction
import Carver.Proofs.DryRun
import Carver.Proofs.ExactLocation
import Carver.Proofs.OverwriteGuard
import Carver.Proofs.BackupSurvival
import Carver.Proofs.FailedRuns
import Carver.Proofs.LineEndings
import Carver.Proofs.IdleRerun
import Carver.Proofs.SavedConfigs
import Carver.Proofs.WholeFunctions
import Carver.Proofs.ReportDocuments
import Carver.Proofs.StructSource
import Carver.Proofs.ExactStructs
import Carver.Proofs.MergedTables
import Carver.Proofs.ProperDocuments
import Carver.Proofs.EnvironmentLayer
import Carver.Proofs.ConfigSettings
import Carver.Proofs.LayerPrecedence
import Carver.Proofs.LoadedConfigs
import Carver.Proofs.MeantDocuments
import Carver.Proofs.FieldLists
import Carver.Proofs.LinesAbove
import Carver.Proofs.ImplLocation
import Carver.Proofs.SpanRemoval
import Carver.Proofs.BalancedBlocks
import Carver.Proofs.EffectlessMisses
import Carver.Proofs.Accounts
import Carver.Proofs.TruthfulReport
import Carver.Proofs.CheckedConfigs
import Carver.Proofs.ImportSets
import Carver.Proofs.CheckedCuts
