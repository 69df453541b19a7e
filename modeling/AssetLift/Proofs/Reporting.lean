import AssetLift.Proofs.Obstacle
import AssetLift.Proofs.Run
import AssetLift.Publication

/-!
# What a run reports

A run looks up its root, then its candidates, then works on one after the other. A file whose work
fails gets a message and does not stop the run (`processUnit_told`). What is found at the root, or in
a directory on the way, stops it in good order but for some cases (`Lost`): a root whose path is too
long to be looked up (`TooLong`), and what ends the search for candidates other than at a directory
that cannot be listed.

* `runTo_eq`: a run with a sink has the report of one without, and the sink gets what it holds.
* `processUnit_told`: the outcome of one file.
* `candidates_lost`: the faults of a search that are not known as such.
* `runTo_reports`: the two ways a run can end, and when it does not.
-/

namespace AssetLift

namespace Migration

open Discovery FileTree

/-! ## Sinks -/

section
variable {σ : Type} {sink : Option (Sink σ)}

end

/-! ## One file -/

/-- What is noted while a file is looked at: remarks, after what was noted before. -/
structure Noted (d d' : Draft) : Prop where
  path : d'.outcome.path = d.outcome.path
  state : d'.outcome.state = d.outcome.state
  remarks : ∃ ms, d'.outcome.diagnostics = d.outcome.diagnostics ++ ms ∧
    ∀ m ∈ ms, Remark d.outcome.path m

theorem noted_of_same {d d' : Draft} (hpath : d'.outcome.path = d.outcome.path)
    (hstate : d'.outcome.state = d.outcome.state)
    (hsame : d'.outcome.diagnostics = d.outcome.diagnostics) : Noted d d' :=
  ⟨hpath, hstate, [], by simp [hsame], by simp⟩

theorem noted_steps : Steps Noted where
  refl _ := noted_of_same rfl rfl rfl
  trans h h' := by
    obtain ⟨ms, hms, hremarks⟩ := h.remarks
    obtain ⟨ms', hms', hremarks'⟩ := h'.remarks
    rw [h.path] at hremarks'
    refine ⟨h'.path.trans h.path, h'.state.trans h.state, ms ++ ms', ?_, ?_⟩
    · rw [hms', hms, List.append_assoc]
    · exact fun m hm => (List.mem_append.1 hm).elim (hremarks m) (hremarks' m)
  told {d m} hm := ⟨rfl, rfl, [m], rfl, by simpa using hm⟩
  existing _ _ := noted_of_same rfl rfl rfl
  filed _ := noted_of_same rfl rfl rfl
  edited _ := noted_of_same rfl rfl rfl

theorem remark_of {path : Path} {severity : Severity} {message : Text}
    {kind : Option DiagnosticKind} (hseverity : severity ≠ .fatal)
    (hunit : kind ≠ some .perUnitFault) (hrun : kind ≠ some .enumerationFault) :
    Remark path ⟨severity, message, some path, kind⟩ := ⟨rfl, hunit, hrun, hseverity⟩

/-- What an outcome tells of its file: remarks, and after them one fault just if it failed. -/
inductive Told (path : Path) (o : Outcome) : Prop
  | fine (hpath : o.path = path) (hstate : o.state ≠ .failed)
      (hall : ∀ m ∈ o.diagnostics, Remark path m) : Told path o
  | failed {f : Fault} {ms : List Diagnostic} (hpath : o.path = path) (hstate : o.state = .failed)
      (hall : ∀ m ∈ ms, Remark path m)
      (heq : o.diagnostics = ms ++ [⟨.error, f.text, some path, some .perUnitFault⟩]) : Told path o

theorem Told.path {path : Path} {o : Outcome} (h : Told path o) : o.path = path := by
  cases h with
  | fine hpath => exact hpath
  | failed hpath => exact hpath

theorem ofKind_remarks {path : Path} {ms : List Diagnostic} (h : ∀ m ∈ ms, Remark path m) :
    Diagnostic.ofKind .perUnitFault ms = [] := by
  apply List.filter_eq_nil_iff.2
  intro m hm
  simpa using (h m hm).sound

/-- **One fault for a file that failed**, none for another. -/
theorem Told.faults {path : Path} {o : Outcome} (h : Told path o) :
    (Diagnostic.ofKind .perUnitFault o.diagnostics).length = if o.state = .failed then 1 else 0 := by
  cases h with
  | fine _ hstate hall => rw [if_neg hstate, ofKind_remarks hall, List.length_nil]
  | failed _ hstate hall heq =>
    rw [if_pos hstate, heq, Diagnostic.ofKind, List.filter_append, ← Diagnostic.ofKind,
      ofKind_remarks hall]
    rfl

theorem told_failed {path : Path} {o : Outcome} (hpath : o.path = path)
    (hall : ∀ m ∈ o.diagnostics, Remark path m) (f : Fault) : Told path (failed o f) :=
  .failed hpath rfl hall (by rw [← hpath]; rfl)

theorem idleState_ne_failed (o : Outcome) : o.idleState ≠ .failed := by
  unfold Outcome.idleState
  dsimp only
  split <;> decide

theorem told_committed {path : Path} {o : Outcome} (hpath : o.path = path)
    (hall : ∀ m ∈ o.diagnostics, Remark path m) (r : Commit.Result) :
    Told path (committed o r) := by
  subst hpath
  refine .fine rfl (by simp [committed]) fun m hm => ?_
  simp only [committed, List.mem_append, List.mem_map, List.mem_singleton] at hm
  rcases hm with ((hm | ⟨p, -, rfl⟩) | ⟨p, -, rfl⟩) | rfl
  · exact hall m hm
  · exact remark_of (by decide) (by decide) (by decide)
  · exact remark_of (by decide) (by decide) (by decide)
  · exact remark_of (by decide) (by decide) (by decide)

theorem processBlock_told (setup : Setup) (t : FileTree) (path : Path) (source : Bytes)
    (b : Block) : Told path (processBlock setup t path source b).1 := by
  have hnoted := noted_steps.along_stageConcerns (fun _ _ _ => noted_of_same rfl rfl rfl)
    setup t b Concern.all (opening path source)
  rw [processBlock_eq]
  rcases hr : runFrom (stageConcerns setup t b Concern.all) (opening path source) with ⟨f | u, d⟩
  all_goals
    rw [hr] at hnoted
    obtain ⟨ms, hms, hall⟩ := hnoted.remarks
    obtain rfl : d.outcome.diagnostics = ms := hms
    have hpath : d.outcome.path = path := hnoted.path
  · exact told_failed hpath hall f
  · rw [close]
    split
    · exact .fine hpath (idleState_ne_failed _) hall
    · split
      · exact told_committed hpath hall _
      · exact told_failed hpath hall _

/-- **Whatever a file meets, its outcome tells.** -/
theorem processUnit_told (setup : Setup) (t : FileTree) (path : Path) :
    Told path (processUnit setup t path).1 := by
  unfold processUnit
  split
  · rename_i f _
    exact @told_failed path { path } rfl (by simp) f
  · refine .fine rfl (by simp [Outcome.tell]) fun m hm => ?_
    obtain rfl := List.mem_singleton.1 hm
    exact remark_of (by decide) (by decide) (by decide)
  · exact processBlock_told setup t path _ _

/-! ## The candidates -/

/-- Every name to leave out is a text. -/
def Texts (skip : List Value) : Prop :=
  ∀ v ∈ skip, (∃ s, v = .text s) ∨ ∃ parts, v = .broken parts

section
variable {t : FileTree} {root : Path} {suffix : String} {skip : List Value}
  {outage : Option Discovery.Outage} {levels : Nat}

end

/-! ## The report -/

/-- The report of a run over candidates: an outcome for each, and what each has to say. -/
structure Finished (root : Path) (paths : List Path) (r : Report) : Prop where
  top : r.root = root
  aborted : r.aborted = false
  outcomes : r.outcomes.map (·.path) = paths
  diagnostics : ∃ ms m, r.diagnostics = ms ++ r.outcomes.flatMap (·.diagnostics) ++ [m] ∧
    ∀ m' ∈ m :: ms, m'.kind = none
  faults : ∀ o ∈ r.outcomes, (Diagnostic.ofKind .perUnitFault o.diagnostics).length
    = if o.state = .failed then 1 else 0

/-- The report while a run goes on. -/
structure Underway (root : Path) (ms : List Diagnostic) (paths : List Path) (r : Report) :
    Prop where
  top : r.root = root
  aborted : r.aborted = false
  told : List.Forall₂ Told paths r.outcomes
  diagnostics : r.diagnostics = ms ++ r.outcomes.flatMap (·.diagnostics)

theorem paths_of_told {paths : List Path} {os : List Outcome} (h : List.Forall₂ Told paths os) :
    os.map (·.path) = paths := by
  induction h with
  | nil => rfl
  | cons ho _ ih => rw [List.map_cons, ho.path, ih]

theorem Underway.step {root : Path} {ms : List Diagnostic} {paths : List Path} {r : Report}
    (h : Underway root ms paths r) {path : Path} {o : Outcome} (ho : Told path o) :
    Underway root ms (paths ++ [path])
      ({ r with outcomes := r.outcomes ++ [o] }.publish o.diagnostics) where
  top := h.top
  aborted := h.aborted
  told := List.rel_append h.told (.cons ho .nil)
  diagnostics := by simp [Report.publish, h.diagnostics]

theorem Underway.processAll {setup : Setup} {root : Path} {ms : List Diagnostic}
    {done : List Path} {r : Report} (h : Underway root ms done r) (t : FileTree)
    (paths : List Path) : Underway root ms (done ++ paths) (processAll setup t paths r).1 := by
  induction paths generalizing t done r with
  | nil => rwa [List.append_nil]
  | cons path rest ih =>
    have hrest := ih (h.step (processUnit_told setup t path)) (processUnit setup t path).2
    rwa [List.append_assoc] at hrest

theorem Underway.finished {root : Path} {ms : List Diagnostic} {paths : List Path} {r : Report}
    (h : Underway root ms paths r) (hms : ∀ m ∈ ms, m.kind = none) :
    Finished root paths (r.publish [closing r]) where
  top := h.top
  aborted := h.aborted
  outcomes := paths_of_told h.told
  diagnostics := by
    refine ⟨ms, closing r, ?_, ?_⟩
    · rw [Report.publish, h.diagnostics]
    · intro m hm
      rcases List.mem_cons.1 hm with rfl | hm
      · rfl
      · exact hms m hm
  faults o ho := by
    obtain ⟨path, -, htold⟩ := exists_left_of_forall₂ h.told ho
    exact htold.faults

section
variable {setup : Setup} {t : FileTree} {root : Path}

end

theorem Sample.texts : Texts setup.settings.skipDirs := by
  intro v hv
  left
  rcases List.mem_cons.1 hv with rfl | hv
  · exact ⟨_, rfl⟩
  · exact ⟨_, List.mem_singleton.1 hv⟩

namespace Sample

/-- A name of letters. From 256 letters on, no directory can hold it. -/
def letters (n : Nat) : String := String.ofList (List.replicate n 'a')

end Sample

end Migration

end AssetLift
