import AssetLift.FaultKind

/-!
# Migrating components

For each candidate below a root: read it, find its block, and for the template and for the styles
decide whether to move them to files. All changes of a file are committed together, and a fault
leaves the file as it was.

* `Concern` — what can be moved, and the entry that refers to it afterwards.
* `Migration.stageConcern` — the decision on one concern of a file.
* `Migration.processUnit` — one file.
* `Migration.run` — every candidate below a root.
-/

namespace AssetLift

/-! ## Concerns -/

/-- What a component can hold inline. -/
inductive Concern where
  | template
  | styles
  deriving DecidableEq

namespace Concern

/-- Every concern, in the order they are looked at. -/
def all : List Concern := [template, styles]

/-- The key of the inline entry. -/
def name : Concern → String
  | template => "template"
  | styles => "styles"

/-- The key of the entry written in its place. -/
def referenceKey : Concern → String
  | template => "templateUrl"
  | styles => "styleUrls"

/-- The keys that show that nothing is inline any more. -/
def referenceKeys : Concern → List String
  | template => ["templateUrl"]
  | styles => ["styleUrls", "styleUrl"]

/-- Whether the entry may hold a list. -/
def allowList : Concern → Bool
  | template => false
  | styles => true

end Concern

/-- What became of a concern of a file. -/
inductive ConcernState where
  | alreadyMigrated
  | noLiteral
  | unusableLiteral
  | missingNode
  | migrated
  deriving DecidableEq

/-- Every state of a concern. -/
def ConcernState.all : List ConcernState :=
  [alreadyMigrated, noLiteral, unusableLiteral, missingNode, migrated]

/-- The name of a concern's state. -/
def ConcernState.name : ConcernState → String
  | alreadyMigrated => "already_migrated"
  | noLiteral => "no_literal"
  | unusableLiteral => "unusable_literal"
  | missingNode => "missing_node"
  | migrated => "migrated"

/-- What became of a file. -/
inductive UnitState where
  | notCandidate
  | alreadyMigrated
  | noLiteral
  | committed
  | failed
  deriving DecidableEq

namespace UnitState

/-- Every state of a file. -/
def all : List UnitState := [notCandidate, alreadyMigrated, noLiteral, committed, failed]

/-- The name of a file's state. -/
def name : UnitState → String
  | notCandidate => "not_candidate"
  | alreadyMigrated => "already_migrated"
  | noLiteral => "no_literal"
  | committed => "committed"
  | failed => "failed"

end UnitState

/-! ## Outcomes and reports -/

/-- What is known of a file after it was looked at. -/
structure Outcome where
  path : Path
  state : UnitState := .notCandidate
  concerns : List (Concern × ConcernState) := []
  /-- The files made. -/
  created : List Path := []
  /-- The files that stood in the way and were left alone. -/
  existing : List Path := []
  diagnostics : List Diagnostic := []

namespace Outcome

/-- What became of a concern, if it was reached. -/
def concern? (o : Outcome) (c : Concern) : Option ConcernState := o.concerns.lookup c

/-- The concerns moved to files. -/
def migrated (o : Outcome) : List Concern := Concern.all.filter (o.concern? · = some .migrated)

/-- The outcome with a message more. -/
def tell (o : Outcome) (d : Diagnostic) : Outcome := { o with diagnostics := o.diagnostics ++ [d] }

/-- The state of a file without an edit. -/
def idleState (o : Outcome) : UnitState :=
  let states := o.concerns.map (·.2)
  if .alreadyMigrated ∈ states ∧
      states.all (fun s => s = .alreadyMigrated || s = .noLiteral) then .alreadyMigrated
  else .noLiteral

end Outcome

/-- What a whole run has to tell. -/
structure Report where
  root : Path
  outcomes : List Outcome := []
  diagnostics : List Diagnostic := []
  /-- The candidates could not be told. -/
  aborted : Bool := false

namespace Report

/-- Whether the run came to its end. -/
def succeeded (r : Report) : Bool := !r.aborted

/-- How many files ended in a state. -/
def count (r : Report) (s : UnitState) : Nat := (r.outcomes.filter (·.state = s)).length

/-- The outcome of the file at a path. -/
def outcomeFor? (r : Report) (path : Path) : Option Outcome := r.outcomes.find? (·.path = path)

/-- The report with messages more. -/
def publish (r : Report) (ds : List Diagnostic) : Report :=
  { r with diagnostics := r.diagnostics ++ ds }

end Report

namespace Migration

/-! ## One file -/

/-- What goes wrong of its own accord. -/
structure Outages where
  commit : Outage := {}
  listing : Option Discovery.Outage := none
  /-- The entries that cannot be found a second time. -/
  vanished : List String := []

/-- What a migration works with. -/
structure Setup where
  settings : Settings := {}
  grammar : Source.Grammar
  outages : Outages := {}
  /-- How many levels the search for candidates can go down. -/
  levels : Nat := 900

/-- Why a file is left as it was. -/
inductive Fault where
  | io (fault : IoFault)
  | source (fault : Source.Fault)
  | block (fault : Block.Fault)
  | entry (fault : Entry.Fault)
  | conflict (fault : Patch.Conflict)
  | removal (fault : Removal.Fault)
  deriving DecidableEq

instance : Reportable Fault where
  kind
    | .io f => Reportable.kind f
    | .source f => Reportable.kind f
    | .block f => Reportable.kind f
    | .entry f => Reportable.kind f
    | .conflict f => Reportable.kind f
    | .removal f => Reportable.kind f
  message
    | .io f => Reportable.message f
    | .source f => Reportable.message f
    | .block f => Reportable.message f
    | .entry f => Reportable.message f
    | .conflict f => Reportable.message f
    | .removal f => Reportable.message f

/-- What is said of a fault. A fault that files do not explain is given with its kind. -/
def Fault.text (f : Fault) : Text :=
  let kind := Reportable.kind f
  if kind.isExpected then "Failed, file left unchanged: " ++ Reportable.message f
  else s!"Unexpected error, file left unchanged: {kind.name}: " ++ Reportable.message f

/-- A file while it is looked at. -/
structure Draft where
  outcome : Outcome
  patch : Patch

/-- An activity on a draft: it may fail, and what it noted before it failed stays noted. -/
abbrev Drafting := ExceptT Fault (StateM Draft)

/-- The value of a computation; its fault becomes one of the file. -/
def attempt (cause : ε → Fault) : Except ε α → Drafting α
  | .ok a => return a
  | .error f => throw (cause f)

/-- Notes a message about the file. -/
def tell (severity : Severity) (message : Text) (kind : Option DiagnosticKind := none) :
    Drafting Unit :=
  modify fun d =>
    { d with outcome := d.outcome.tell ⟨severity, message, some d.outcome.path, kind⟩ }

/-- Notes a file that stands in the way. -/
def noteExisting (p : Path) : Drafting Unit := do
  tell .warn ("File already exists, creation skipped: " ++ p.text) (some .targetFileExists)
  modify fun d => { d with outcome.existing := d.outcome.existing ++ [p] }

/-- Stages a file, unless something stands at its path. -/
def stageFile (t : FileTree) (f : PlannedFile) : Drafting Unit := do
  if ← attempt .io (t.pathExists f.path) then noteExisting f.path
  else
    let d ← get
    let patch ← attempt .conflict (d.patch.stageFile f)
    set { d with patch }

/-- Stages files in order. -/
def stageFiles (t : FileTree) : List PlannedFile → Drafting Unit
  | [] => return ()
  | f :: rest => do
    stageFile t f
    stageFiles t rest

/-- The files planned for the literals of a concern. -/
def planned (s : Settings) (path : Path) (texts : List String) : Concern → List PlannedFile
  | .template => (texts.take 1).map fun t => Target.template s path (CodePoint.ofString t)
  | .styles => Target.styles s path (texts.map CodePoint.ofString)

/-- The entry that refers to the files of a concern. -/
def reference (s : Settings) (files : List PlannedFile) : Concern → Text
  | .template =>
    match files with
    | f :: _ => Target.scalarReference s Concern.template.referenceKey f
    | [] => Target.listReference s Concern.template.referenceKey []
  | .styles => Target.listReference s Concern.styles.referenceKey files

/-- Finds an entry a second time. -/
def relocate (setup : Setup) (b : Block) (e : Entry) : Except Entry.Missing Block.Property :=
  if e.name ∈ setup.outages.vanished then .error ⟨s!"property '{e.name}' vanished"⟩
  else e.relocate b

/-- Stages the edit that puts a replacement in the place of an entry. -/
def stageEdit (b : Block) (e : Entry) (replacement : List CodePoint) : Drafting Unit := do
  let d ← get
  let source := d.patch.staging.source
  let plan ← attempt .removal
    (Removal.plan e b.properties.length source d.patch.staging.spans)
  let edit ← attempt .removal (plan.edit e source replacement)
  let patch ← attempt .conflict (d.patch.stage edit)
  set { d with patch }

/-- Moves the literals of an entry: stages the files, then the reference to them. -/
def stageLiterals (setup : Setup) (t : FileTree) (b : Block) (c : Concern) (e : Entry) :
    Drafting ConcernState := do
  match relocate setup b e with
  | .error f =>
    tell .error s!"Internal inconsistency, {c.name} not rewritten: {f.detail}" (some .missingNode)
    return .missingNode
  | .ok _ =>
    let files := planned setup.settings (← get).outcome.path e.value.texts c
    stageFiles t files
    let replacement := reference setup.settings files c
    stageEdit b e replacement
    tell .debug (s!"Staged {c.name} -> " ++ replacement)
    return .migrated

/-- Decides on one concern of a file. -/
def stageConcern (setup : Setup) (t : FileTree) (b : Block) (c : Concern) :
    Drafting ConcernState := do
  match c.referenceKeys.find? b.has with
  | some key =>
    tell .debug s!"Skipping {c.name}: already has {key}" (some .alreadyMigrated)
    return .alreadyMigrated
  | none =>
    match b.property? c.name with
    | none =>
      tell .debug s!"Skipping {c.name}: no inline {c.name} found" (some .noLiteral)
      return .noLiteral
    | some p =>
      let e ← attempt .entry (Entry.ofProperty c.allowList p)
      if !e.value.usable then
        tell .warn
          s!"Skipping {c.name}: value is a {Node.describe p.value}, not a literal; left untouched"
          (some .unusableLiteral)
        return .unusableLiteral
      else if e.value.texts.isEmpty then
        tell .debug s!"Skipping {c.name}: empty list, nothing to extract" (some .noLiteral)
        return .noLiteral
      else stageLiterals setup t b c e

/-- Decides on concerns in order. -/
def stageConcerns (setup : Setup) (t : FileTree) (b : Block) : List Concern → Drafting Unit
  | [] => return ()
  | c :: rest => do
    let state ← stageConcern setup t b c
    modify fun d => { d with outcome.concerns := d.outcome.concerns ++ [(c, state)] }
    stageConcerns setup t b rest

/-- The outcome of a commit that succeeded. -/
def committed (o : Outcome) (r : Commit.Result) : Outcome :=
  let about (severity : Severity) (message : Text) (kind : Option DiagnosticKind) : Diagnostic :=
    ⟨severity, message, some o.path, kind⟩
  let appeared := r.existing.map fun p =>
    about .warn ("File appeared before it could be created, left untouched: " ++ p.text)
      (some .targetFileExists)
  let made := r.created.map fun p => about .debug ("Created " ++ p.text) none
  let what := " and ".intercalate (o.migrated.map (·.name))
  let updated := about .info s!"Updated: replaced inline {what} with file references" none
  { o with
    state := .committed
    created := o.created ++ r.created
    existing := o.existing ++ r.existing
    diagnostics := o.diagnostics ++ appeared ++ made ++ [updated] }

/-- The outcome of a file that a fault was met with. -/
def failed (o : Outcome) (f : Fault) : Outcome :=
  { o.tell ⟨.error, f.text, some o.path, some .perUnitFault⟩ with state := .failed }

/-- The block of the file at a path, with the bytes of the file. -/
def readBlock (setup : Setup) (t : FileTree) (path : Path) :
    Except Fault (Bytes × Option Block) := do
  let source ← (t.read path).mapError .io
  let root ← (Source.node source (setup.grammar source)).mapError .source
  let block ← (Block.find? setup.settings.decoratorName root).mapError .block
  return (source, block)

/-- Works on a file whose block is known. -/
def processBlock (setup : Setup) (t : FileTree) (path : Path) (source : Bytes) (b : Block) :
    Outcome × FileTree :=
  let start : Draft := ⟨{ path }, .ofSource path source⟩
  let (result, draft) := (stageConcerns setup t b Concern.all).run start
  match result with
  | .error f => (failed draft.outcome f, t)
  | .ok () =>
    if draft.patch.staging.edits.isEmpty then
      ({ draft.outcome with state := draft.outcome.idleState }, t)
    else
      match (draft.patch.commit setup.outages.commit).runOn t with
      | (.ok r, t') => (committed draft.outcome r, t')
      | (.error f, t') => (failed draft.outcome (.io f), t')

/-- Works on the file at a path. -/
def processUnit (setup : Setup) (t : FileTree) (path : Path) : Outcome × FileTree :=
  match readBlock setup t path with
  | .error f => (failed { path } f, t)
  | .ok (_, none) =>
    let message := s!"Skipping: no @{setup.settings.decoratorName}(\x7b...\x7d) block"
    (({ path } : Outcome).tell ⟨.debug, message, some path, some .notCandidate⟩, t)
  | .ok (source, some b) => processBlock setup t path source b

/-! ## A whole run -/

/-- Works on files in order. -/
def processAll (setup : Setup) : FileTree → List Path → Report → Report × FileTree
  | t, [], r => (r, t)
  | t, path :: rest, r =>
    let (o, t') := processUnit setup t path
    processAll setup t' rest ({ r with outcomes := r.outcomes ++ [o] }.publish o.diagnostics)

/-- The message a run ends with. -/
def closing (r : Report) : Diagnostic :=
  let updated := r.count .committed
  let failed := r.count .failed
  let inspected := r.outcomes.length
  { severity := .info
    message := s!"Inline migration finished: {updated} updated, {failed} failed, {inspected} inspected" }

/-- Migrates every candidate below a root. A run whose candidates cannot be told is aborted. -/
def run (setup : Setup) (t : FileTree) (root : Path) :
    Except Discovery.Fault (Report × FileTree) :=
  let opening : Diagnostic :=
    ⟨.info, "Looking for components with inline templates and styles under " ++ root.text,
      none, none⟩
  match Discovery.candidates t root setup.settings.candidateSuffix setup.settings.skipDirs
      setup.outages.listing setup.levels with
  | .error f =>
    if f.isEnumeration then
      let fatal : Diagnostic :=
        ⟨.fatal, "Candidate discovery failed, aborting: " ++ f.message, some root,
          some .enumerationFault⟩
      .ok ({ root, aborted := true, diagnostics := [opening, fatal] }, t)
    else .error f
  | .ok paths =>
    let found : Diagnostic := ⟨.debug, s!"{paths.length} candidate file(s) found", none, none⟩
    let (r, t') := processAll setup t paths { root, diagnostics := [opening, found] }
    .ok (r.publish [closing r], t')

end Migration

end AssetLift
