import AssetLift.Console
import AssetLift.Migration
import AssetLift.Terminal.Table

/-!
# The summary of a run

A table of what became of each file, and the counts of each state below it. Files that a run had
nothing to do with are left out of the table on request.

* `Summary.table` — the table of a report.
* `Summary.render` — all that is printed of a report.
-/

namespace AssetLift

namespace Summary

/-- Whether a file with the state is of interest: it was changed, or was to be. -/
def isNotable : UnitState → Bool
  | .committed => true
  | .failed => true
  | _ => false

/-- A path as the table shows it: below the root, if it is there. -/
def shownPath (root path : Path) : String := ((path.relativeTo? root).getD path).shown

/-- The state of a concern, or a dash. -/
def concernText (o : Outcome) (c : Concern) : String :=
  match o.concern? c with
  | some s => s.name
  | none => "-"

/-- The cells of an outcome. -/
def row (root : Path) (o : Outcome) : Except Markup.Fault (List String) := do
  let path ← Markup.plain (Markup.escape (shownPath root o.path))
  return [path, o.state.name, concernText o .template, concernText o .styles,
    toString o.created.length]

/-- The table of a report. -/
def table (r : Report) (all : Bool) : Except Markup.Fault Table := do
  let title ← Markup.plain s!"Components under {r.root.shown}"
  let rows ← (r.outcomes.filter fun o => all || isNotable o.state).mapM (row r.root)
  return {
    title
    columns :=
      [{ header := "File", overflow := .fold }, { header := "Outcome" },
        { header := "template" }, { header := "styles" },
        { header := "Files created", alignment := .right }]
    rows }

/-- The counts of a report. -/
def counts (r : Report) : String :=
  s!"{r.count .committed} updated, {r.count .failed} failed, " ++
    s!"{r.count .alreadyMigrated} already migrated, " ++
    s!"{r.count .noLiteral} without inline literals, {r.count .notCandidate} not components"

/-- All that is printed of a report. -/
def render (c : Console) (r : Report) (all : Bool) : Except Markup.Fault String := do
  if r.aborted then c.print "Run aborted: candidate discovery failed."
  else
    let t ← table r all
    return Console.unlines (t.render c.width) ++ (← c.print (counts r))

end Summary

end AssetLift
