import AssetLift.Migration
import AssetLift.Sink

/-!
# Runs with a sink

A run hands its diagnostics to a sink as it goes on: what it says before the first file, then what
it says of each file as soon as the file is done, then its last message. The report gets the same.

* `Publication` — a report, and what the sink holds.
* `Migration.runTo` — a run with a sink.
-/

namespace AssetLift

/-- A report, and what the sink of its run holds. -/
structure Publication (σ : Type) where
  report : Report
  held : σ

namespace Publication

/-- Diagnostics go to the sink, then to the report. -/
def publish (sink : Option (Sink σ)) (p : Publication σ) (ds : List Diagnostic) : Publication σ :=
  { report := p.report.publish ds, held := Sink.take sink p.held ds }

/-- The report gets an outcome more. -/
def conclude (p : Publication σ) (o : Outcome) : Publication σ :=
  { p with report := { p.report with outcomes := p.report.outcomes ++ [o] } }

end Publication

namespace Migration

/-- Works on files in order and says so. -/
def processAllTo (setup : Setup) (sink : Option (Sink σ)) :
    FileTree → List Path → Publication σ → Publication σ × FileTree
  | t, [], p => (p, t)
  | t, path :: rest, p =>
    let (o, t') := processUnit setup t path
    processAllTo setup sink t' rest ((p.conclude o).publish sink o.diagnostics)

/-- Migrates every candidate below a root and says so. -/
def runTo (setup : Setup) (sink : Option (Sink σ)) (held : σ) (t : FileTree) (root : Path) :
    Except Discovery.Fault (Publication σ × FileTree) :=
  let start : Publication σ := { report := { root }, held }
  let opening : Diagnostic :=
    ⟨.info, "Looking for components with inline templates and styles under " ++ root.text,
      none, none⟩
  match Discovery.candidates t root setup.settings.candidateSuffix setup.settings.skipDirs
      setup.outages.listing setup.levels with
  | .error f =>
    if f.isEnumeration then
      let fatal : Diagnostic :=
        ⟨.fatal, "Candidate discovery failed, aborting: " ++ f.message, some root,
          some .enumerationFault⟩
      let aborted := { start with report.aborted := true }
      .ok (aborted.publish sink [opening, fatal], t)
    else .error f
  | .ok paths =>
    let found : Diagnostic := ⟨.debug, s!"{paths.length} candidate file(s) found", none, none⟩
    let (p, t') := processAllTo setup sink t paths (start.publish sink [opening, found])
    .ok (p.publish sink [closing p.report], t')

end Migration

end AssetLift
