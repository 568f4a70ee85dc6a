import Carver.Report
import Carver.Terminal.Style

/-!
# Reports for people
-/

namespace Carver

open Terminal (Style)

/-- The line on a request. -/
def ItemOutcome.line (styled : Bool) (outcome : ItemOutcome) : String :=
  let about := " " ++ outcome.kind.name ++ " " ++ outcome.name
  let taken := (Style.of .green).paint styled "✓" ++ about
  let warned := (Style.of .yellow).paint styled "⚠" ++ about
  match outcome.status with
  | .extracted blocks => if 1 < blocks then s!"{taken} ({blocks} blocks)" else taken
  | .notFound => warned ++ " not found"
  | .truncated => warned ++ " truncated"

/-- The lines on a module. -/
def ModuleReport.lines (styled : Bool) (entry : ModuleReport) : List String :=
  let title := Style.strong.paint styled "module" ++ " " ++ (Style.of .cyan).paint styled entry.name
  let found := toString entry.found
  let requested := toString entry.requested
  let fragments := toString entry.fragments
  s!"{title} ({found}/{requested} found, {fragments} fragments)"
    :: entry.outcomes.map fun outcome => "  " ++ outcome.line styled

/-- The line on a file. -/
def FileWrite.line (styled : Bool) (file : FileWrite) : String :=
  let about := " " ++ file.role.name ++ " " ++ file.path.text
  match file.status with
  | .written => (Style.of .green).paint styled "✓" ++ about
  | .planned => (Style.of .blue).paint styled "•" ++ about ++ " (planned)"
  | .failed error => (Style.of .red).paint styled "✗" ++ about ++ " failed: " ++ error
  | .skipped reason => (Style.of .yellow).paint styled "⚠" ++ about ++ " skipped: " ++ reason

namespace Report

/-- The last lines: how it ended and what to do next. -/
def closingLines (styled : Bool) (report : Report) : List String :=
  if !report.isSuccess then
    [(Style.strongly .red).paint styled "Split finished with errors"]
  else
    (Style.strongly .green).paint styled "🎯 Split complete!" ::
      if report.dryRun then []
      else
        "🔧 Verify with: cargo check" ::
          report.backup.toList.map fun path => "📁 Original saved as " ++ path.text

/-- All lines. -/
def lines (styled : Bool) (report : Report) : List String :=
  let found := toString report.totalFound
  let requested := toString report.totalRequested
  (if report.dryRun then
      [(Style.strongly .yellow).paint styled "Dry run: no files were changed"]
    else [])
    ++ report.modules.flatMap (·.lines styled) ++ [""] ++ report.files.map (·.line styled)
    ++ ["", s!"{found} of {requested} definitions extracted"] ++ report.closingLines styled

/-- The report as text, each line with its line feed. -/
def summary (styled : Bool) (report : Report) : String :=
  String.join ((report.lines styled).map (· ++ "\n"))

end Report

end Carver
