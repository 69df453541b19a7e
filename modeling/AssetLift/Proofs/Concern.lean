import AssetLift.Migration
import AssetLift.Proofs.Activity
import AssetLift.Proofs.Swap

/-!
# What is decided for a concern

While a file is looked at, a draft of its outcome and its patch is kept. Whatever happens, the draft
keeps its path, its source and what it has to say of files made (`Kept`). What is staged for a
concern is said by `Decided`, one case for each way the decision can go.

* `Steps`: a relation that each step keeps to; `Steps.along_stageConcerns`: so do all of them
  together, also when one fails.
* `stageConcern_decided`: the decision on one concern, from a run that did not fail.
* `stageConcerns_decided`: the decisions on all of them, one after the other (`Decisions`).
-/

namespace AssetLift

namespace Migration

/-! ## Steps -/

/-- A message about a file that tells of no fault. -/
structure Remark (path : Path) (m : Diagnostic) : Prop where
  path : m.path = some path
  sound : m.kind ≠ some .perUnitFault
  inside : m.kind ≠ some .enumerationFault
  mild : m.severity ≠ .fatal

/-- A relation that holds between a draft and what any step of a decision makes of it. -/
structure Steps (R : Draft → Draft → Prop) : Prop where
  refl : ∀ d, R d d
  trans : ∀ {d d' d''}, R d d' → R d' d'' → R d d''
  told : ∀ {d m}, Remark d.outcome.path m → R d { d with outcome := d.outcome.tell m }
  existing : ∀ d p, R d { d with outcome.existing := d.outcome.existing ++ [p] }
  filed : ∀ {d f p}, d.patch.stageFile f = .ok p → R d { d with patch := p }
  edited : ∀ {d e p}, d.patch.stage e = .ok p → R d { d with patch := p }

/-- The activity takes a draft along a relation, also when it fails. -/
def Along {α : Type} (R : Draft → Draft → Prop) (x : Drafting α) : Prop :=
  ∀ d, R d (runFrom x d).2

section
variable {α β ε : Type}

theorem run_attempt (cause : ε → Fault) (x : Except ε α) (d : Draft) :
    runFrom (attempt cause x) d
      = match x with
        | .ok a => (.ok a, d)
        | .error f => (.error (cause f), d) := by
  cases x <;> rfl

theorem attempt_ok {cause : ε → Fault} {x : Except ε α} {d d' : Draft} {a : α}
    (h : runFrom (attempt cause x) d = (.ok a, d')) : x = .ok a ∧ d' = d := by
  rw [run_attempt] at h
  cases x with
  | ok b => simp only [Prod.mk.injEq, Except.ok.injEq] at h; exact ⟨by rw [h.1], h.2.symm⟩
  | error f => cases h

theorem attempt_error {cause : ε → Fault} {x : Except ε α} {d d' : Draft} {f : Fault}
    (h : runFrom (attempt cause x) d = (.error f, d')) : (∃ e, x = .error e ∧ f = cause e) ∧ d' = d := by
  rw [run_attempt] at h
  cases x with
  | ok a => cases h
  | error e =>
    cases h
    exact ⟨⟨e, rfl, rfl⟩, rfl⟩

end

theorem stageFile_patch {p p' : Patch} {f : PlannedFile} (h : p.stageFile f = .ok p') :
    p' = { p with files := p.files ++ [f] } := by
  unfold Patch.stageFile at h
  split at h
  · cases h
  · exact (Except.ok.inj h).symm

theorem stage_patch {p p' : Patch} {e : Edit} (h : p.stage e = .ok p') :
    ∃ s, p.staging.stage e = .ok s ∧ p' = { p with staging := s } := by
  unfold Patch.stage at h
  split at h
  · rename_i s hs; exact ⟨s, hs, (Except.ok.inj h).symm⟩
  · cases h

namespace Steps

section
variable {R : Draft → Draft → Prop} (hR : Steps R)
include hR

section
variable {α β ε : Type}

theorem along_pure (a : α) : Along R (pure a : Drafting α) := fun d => hR.refl d

theorem along_bind {x : Drafting α} {f : α → Drafting β} (hx : Along R x)
    (hf : ∀ a, Along R (f a)) : Along R (x >>= f) := by
  intro d
  have h := hx d
  rw [run_bind]
  rcases hr : runFrom x d with ⟨e | a, d'⟩
  · rw [hr] at h; exact h
  · rw [hr] at h; exact hR.trans h (hf a d')

theorem along_attempt (cause : ε → Fault) (x : Except ε α) : Along R (attempt cause x) := by
  intro d
  rw [run_attempt]
  cases x <;> exact hR.refl d

end

theorem along_tell {severity : Severity} {message : Text} {kind : Option DiagnosticKind}
    (hseverity : severity ≠ .fatal) (hunit : kind ≠ some .perUnitFault)
    (hrun : kind ≠ some .enumerationFault) : Along R (tell severity message kind) :=
  fun _ => hR.told ⟨rfl, hunit, hrun, hseverity⟩

theorem along_stageFile (t : FileTree) (f : PlannedFile) : Along R (stageFile t f) := by
  unfold stageFile
  refine hR.along_bind (hR.along_attempt _ _) fun there => ?_
  cases there with
  | true =>
    apply hR.along_bind (hR.along_tell (by decide) (by decide) (by decide))
    exact fun _ d => hR.existing d f.path
  | false =>
    intro d
    rw [if_neg (by simp), run_bind, run_get]
    simp only [run_bind, run_attempt]
    cases hs : d.patch.stageFile f with
    | error e => exact hR.refl d
    | ok p => exact hR.filed hs

theorem along_stageFiles (t : FileTree) (files : List PlannedFile) :
    Along R (stageFiles t files) := by
  induction files with
  | nil => exact hR.along_pure _
  | cons f files ih => exact hR.along_bind (hR.along_stageFile t f) fun _ => ih

theorem along_stageEdit (b : Block) (e : Entry) (replacement : List CodePoint) :
    Along R (stageEdit b e replacement) := by
  intro d
  unfold stageEdit
  rw [run_bind, run_get]
  simp only [run_bind, run_attempt]
  cases Removal.plan e b.properties.length d.patch.staging.source d.patch.staging.spans with
  | error f => exact hR.refl d
  | ok plan =>
    dsimp only
    cases plan.edit e d.patch.staging.source replacement with
    | error f => exact hR.refl d
    | ok ed =>
      dsimp only
      cases hs : d.patch.stage ed with
      | error f => exact hR.refl d
      | ok p => exact hR.edited hs

theorem along_stageLiterals (setup : Setup) (t : FileTree) (b : Block) (c : Concern) (e : Entry) :
    Along R (stageLiterals setup t b c e) := by
  unfold stageLiterals
  split
  · apply hR.along_bind (hR.along_tell (by decide) (by decide) (by decide))
    exact fun _ => hR.along_pure _
  · intro d
    rw [run_bind, run_get]
    refine hR.along_bind (hR.along_stageFiles _ _) (fun _ => ?_) d
    refine hR.along_bind (hR.along_stageEdit _ _ _) fun _ => ?_
    apply hR.along_bind (hR.along_tell (by decide) (by decide) (by decide))
    exact fun _ => hR.along_pure _

theorem along_stageConcern (setup : Setup) (t : FileTree) (b : Block) (c : Concern) :
    Along R (stageConcern setup t b c) := by
  -- all but one of the ways end in a remark and a state
  have hremark : ∀ {severity message kind} (st : ConcernState), severity ≠ .fatal →
      kind ≠ some .perUnitFault → kind ≠ some .enumerationFault →
      Along R (do tell severity message kind; return st) := fun st hs hu he =>
    hR.along_bind (hR.along_tell hs hu he) fun _ => hR.along_pure _
  unfold stageConcern
  split
  · exact hremark _ (by decide) (by decide) (by decide)
  · split
    · exact hremark _ (by decide) (by decide) (by decide)
    · refine hR.along_bind (hR.along_attempt _ _) fun e => ?_
      split
      · exact hremark _ (by decide) (by decide) (by decide)
      · split
        · exact hremark _ (by decide) (by decide) (by decide)
        · exact hR.along_stageLiterals _ _ _ _ _

/-- **Looking at a file takes its draft along**, whether it fails or not, if noting what became of
a concern does. -/
theorem along_stageConcerns
    (hnoted : ∀ d c st, R d { d with outcome.concerns := d.outcome.concerns ++ [(c, st)] })
    (setup : Setup) (t : FileTree) (b : Block) (cs : List Concern) :
    Along R (stageConcerns setup t b cs) := by
  induction cs with
  | nil => exact hR.along_pure _
  | cons c cs ih =>
    refine hR.along_bind (hR.along_stageConcern setup t b c) fun st => ?_
    exact hR.along_bind (fun d => hnoted d c st) fun _ => ih

end

end Steps

/-! ## What is kept -/

/-- What stays of a draft while a file is looked at. -/
structure Held (d d' : Draft) : Prop where
  path : d'.outcome.path = d.outcome.path
  created : d'.outcome.created = d.outcome.created
  patch : d'.patch.path = d.patch.path
  source : d'.patch.staging.source = d.patch.staging.source

/-- What stays of a draft while a concern is decided on. -/
structure Kept (d d' : Draft) : Prop extends Held d d' where
  concerns : d'.outcome.concerns = d.outcome.concerns

theorem Held.trans {d d' d'' : Draft} (h : Held d d') (h' : Held d' d'') : Held d d'' :=
  ⟨h'.path.trans h.path, h'.created.trans h.created, h'.patch.trans h.patch,
    h'.source.trans h.source⟩

theorem held_steps : Steps Held :=
  { refl := fun _ => ⟨rfl, rfl, rfl, rfl⟩
    trans := Held.trans
    told := fun _ => ⟨rfl, rfl, rfl, rfl⟩
    existing := fun _ _ => ⟨rfl, rfl, rfl, rfl⟩
    filed := fun hp => by rw [stageFile_patch hp]; exact ⟨rfl, rfl, rfl, rfl⟩
    edited := fun hp => by
      obtain ⟨s, hs, rfl⟩ := stage_patch hp
      obtain ⟨-, -, rfl⟩ := Staging.stage_eq_ok.1 hs
      exact ⟨rfl, rfl, rfl, rfl⟩ }

theorem kept_steps : Steps Kept :=
  { refl := fun d => ⟨held_steps.refl d, rfl⟩
    trans := fun h h' => ⟨h.toHeld.trans h'.toHeld, h'.concerns.trans h.concerns⟩
    told := fun hm => ⟨held_steps.told hm, rfl⟩
    existing := fun d p => ⟨held_steps.existing d p, rfl⟩
    filed := fun hp => ⟨held_steps.filed hp, rfl⟩
    edited := fun hp => ⟨held_steps.edited hp, rfl⟩ }

theorem keeps_stageFile (t : FileTree) (f : PlannedFile) : Along Kept (stageFile t f) :=
  kept_steps.along_stageFile t f

theorem keeps_stageConcern (setup : Setup) (t : FileTree) (b : Block) (c : Concern) :
    Along Kept (stageConcern setup t b c) := kept_steps.along_stageConcern setup t b c

/-- **Looking at a file keeps its draft**, whether it fails or not. -/
theorem stageConcerns_held (setup : Setup) (t : FileTree) (b : Block) (cs : List Concern)
    (d : Draft) : Held d (runFrom (stageConcerns setup t b cs) d).2 :=
  held_steps.along_stageConcerns (fun _ _ _ => ⟨rfl, rfl, rfl, rfl⟩) setup t b cs d

/-! ## What is decided -/

/-- The files staged for literals: those at whose paths nothing stands. -/
structure StagedFiles (t : FileTree) (files staged : List PlannedFile) : Prop where
  sublist : staged.Sublist files
  free : ∀ f ∈ staged, t.pathExists f.path = .ok false
  others : ∀ f ∈ files, f ∈ staged ∨ t.pathExists f.path = .ok true

theorem stageFile_ok {t : FileTree} {f : PlannedFile} {d d' : Draft}
    (h : runFrom (stageFile t f) d = (.ok (), d')) :
    (t.pathExists f.path = .ok true ∧ d'.patch = d.patch) ∨
      (t.pathExists f.path = .ok false ∧ d'.patch = { d.patch with files := d.patch.files ++ [f] }) := by
  unfold stageFile at h
  obtain ⟨there, d₁, hthere, h⟩ := run_bind_ok h
  obtain ⟨hex, rfl⟩ := attempt_ok hthere
  cases there with
  | true =>
    left
    obtain ⟨u, d₂, htell, h⟩ := run_bind_ok h
    cases htell
    cases h
    exact ⟨hex, rfl⟩
  | false =>
    right
    obtain ⟨d₂, d₃, hget, h⟩ := run_bind_ok h
    cases hget
    obtain ⟨p, d₄, hstage, h⟩ := run_bind_ok h
    obtain ⟨hp, rfl⟩ := attempt_ok hstage
    cases h
    exact ⟨hex, stageFile_patch hp⟩

theorem stageFiles_ok {t : FileTree} {files : List PlannedFile} {d d' : Draft}
    (h : runFrom (stageFiles t files) d = (.ok (), d')) :
    ∃ staged, StagedFiles t files staged ∧
      d'.patch = { d.patch with files := d.patch.files ++ staged } := by
  induction files generalizing d with
  | nil =>
    cases h
    exact ⟨[], ⟨.slnil, by simp, by simp⟩, by simp⟩
  | cons f files ih =>
    obtain ⟨u, d₁, hfile, h⟩ := run_bind_ok h
    obtain ⟨staged, hstaged, hpatch⟩ := ih h
    rcases stageFile_ok hfile with ⟨hex, hp⟩ | ⟨hex, hp⟩
    · refine ⟨staged, ⟨hstaged.sublist.cons f, hstaged.free, fun g hg => ?_⟩, by rw [hpatch, hp]⟩
      rcases List.mem_cons.1 hg with rfl | hg
      · exact .inr hex
      · exact hstaged.others g hg
    · refine ⟨f :: staged, ⟨hstaged.sublist.cons_cons f, fun g hg => ?_, fun g hg => ?_⟩,
        by rw [hpatch, hp]; simp⟩
      · rcases List.mem_cons.1 hg with rfl | hg
        · exact hex
        · exact hstaged.free g hg
      · rcases List.mem_cons.1 hg with rfl | hg
        · exact .inl List.mem_cons_self
        · exact (hstaged.others g hg).imp (List.mem_cons_of_mem _) id

/-- The staging with the edit that puts a replacement in the place of an entry. -/
structure StagedEdit (b : Block) (e : Entry) (replacement : List CodePoint) (s s' : Staging) : Prop where
  edit : ∃ plan ed, Removal.plan e b.properties.length s.source s.spans = .ok plan ∧
    plan.edit e s.source replacement = .ok ed ∧ s.stage ed = .ok s'

theorem stageEdit_ok {b : Block} {e : Entry} {replacement : List CodePoint} {d d' : Draft}
    (h : runFrom (stageEdit b e replacement) d = (.ok (), d')) :
    ∃ s, StagedEdit b e replacement d.patch.staging s ∧ d'.patch = { d.patch with staging := s } := by
  unfold stageEdit at h
  obtain ⟨d₁, d₂, hget, h⟩ := run_bind_ok h
  cases hget
  obtain ⟨plan, d₃, hplan, h⟩ := run_bind_ok h
  obtain ⟨hplan, rfl⟩ := attempt_ok hplan
  obtain ⟨ed, d₄, hed, h⟩ := run_bind_ok h
  obtain ⟨hed, rfl⟩ := attempt_ok hed
  obtain ⟨p, d₅, hp, h⟩ := run_bind_ok h
  obtain ⟨hp, rfl⟩ := attempt_ok hp
  obtain ⟨s, hs, rfl⟩ := stage_patch hp
  cases h
  exact ⟨s, ⟨plan, ed, hplan, hed, hs⟩, rfl⟩

/-- The ways the decision on a concern of the file at `path` can go, with what they do to its
patch. -/
inductive Decided (setup : Setup) (t : FileTree) (b : Block) (path : Path) (c : Concern)
    (p : Patch) : ConcernState → Patch → Prop
  | already {key} (href : c.referenceKeys.find? b.has = some key) :
      Decided setup t b path c p .alreadyMigrated p
  | absent (hinline : c.referenceKeys.find? b.has = none) (hnone : b.property? c.name = none) :
      Decided setup t b path c p .noLiteral p
  | unusable {pr e} (hinline : c.referenceKeys.find? b.has = none)
      (hpair : b.property? c.name = some pr) (hentry : Entry.ofProperty c.allowList pr = .ok e)
      (hvalue : e.value.usable = false) : Decided setup t b path c p .unusableLiteral p
  | empty {pr e} (hinline : c.referenceKeys.find? b.has = none)
      (hpair : b.property? c.name = some pr) (hentry : Entry.ofProperty c.allowList pr = .ok e)
      (hvalue : e.value.usable = true) (htexts : e.value.texts = []) :
      Decided setup t b path c p .noLiteral p
  | missing {pr e f} (hinline : c.referenceKeys.find? b.has = none)
      (hpair : b.property? c.name = some pr) (hentry : Entry.ofProperty c.allowList pr = .ok e)
      (hvalue : e.value.usable = true) (htexts : e.value.texts ≠ [])
      (hlost : relocate setup b e = .error f) : Decided setup t b path c p .missingNode p
  | migrated {pr e staged s} (hinline : c.referenceKeys.find? b.has = none)
      (hpair : b.property? c.name = some pr) (hentry : Entry.ofProperty c.allowList pr = .ok e)
      (hvalue : e.value.usable = true) (htexts : e.value.texts ≠ [])
      (hfiles : StagedFiles t (planned setup.settings path e.value.texts c) staged)
      (hedit : StagedEdit b e
        (reference setup.settings (planned setup.settings path e.value.texts c) c) p.staging s) :
      Decided setup t b path c p .migrated { p with files := p.files ++ staged, staging := s }

/-- **The decision on one concern**, where nothing fails. -/
theorem stageConcern_decided {setup : Setup} {t : FileTree} {b : Block} {c : Concern} {d d' : Draft}
    {st : ConcernState} (h : runFrom (stageConcern setup t b c) d = (.ok st, d')) :
    Decided setup t b d.outcome.path c d.patch st d'.patch := by
  unfold stageConcern at h
  split at h
  · rename_i key href
    cases h
    exact .already href
  · rename_i hinline
    split at h
    · rename_i hnone
      cases h
      exact .absent hinline hnone
    · rename_i pr hpair
      obtain ⟨e, d₁, hrun, h⟩ := run_bind_ok h
      obtain ⟨hentry, hd⟩ := attempt_ok hrun
      rw [hd] at h
      split at h
      · rename_i hvalue
        cases h
        exact .unusable hinline hpair hentry (by simpa using hvalue)
      rename_i hvalue
      simp only [Bool.not_eq_true', Bool.not_eq_false] at hvalue
      split at h
      · rename_i htexts
        cases h
        exact .empty hinline hpair hentry hvalue (List.isEmpty_iff.1 htexts)
      · rename_i htexts
        have htexts : e.value.texts ≠ [] := fun h => htexts (List.isEmpty_iff.2 h)
        unfold stageLiterals at h
        split at h
        · rename_i f hlost
          cases h
          exact .missing hinline hpair hentry hvalue htexts hlost
        · obtain ⟨d₂, d₃, hget, h⟩ := run_bind_ok h
          cases hget
          obtain ⟨u, d₄, hfiles, h⟩ := run_bind_ok h
          obtain ⟨v, d₅, hedit, h⟩ := run_bind_ok h
          cases h
          obtain ⟨staged, hstaged, hp₄⟩ := stageFiles_ok hfiles
          obtain ⟨s, hs, hp₅⟩ := stageEdit_ok hedit
          rw [hp₄] at hs hp₅
          simp only [hp₅]
          exact .migrated hinline hpair hentry hvalue htexts hstaged hs

/-- The decisions on concerns in order, with the patch they leave. -/
inductive Decisions (setup : Setup) (t : FileTree) (b : Block) (path : Path) :
    List Concern → Patch → List (Concern × ConcernState) → Patch → Prop
  | nil {p} : Decisions setup t b path [] p [] p
  | cons {c cs p st p' log p''} (hc : Decided setup t b path c p st p')
      (hcs : Decisions setup t b path cs p' log p'') :
      Decisions setup t b path (c :: cs) p ((c, st) :: log) p''

/-- **The decisions on all concerns**, where nothing fails. -/
theorem stageConcerns_decided {setup : Setup} {t : FileTree} {b : Block} {cs : List Concern}
    {d d' : Draft} (h : runFrom (stageConcerns setup t b cs) d = (.ok (), d')) :
    ∃ log, d'.outcome.concerns = d.outcome.concerns ++ log ∧
      Decisions setup t b d.outcome.path cs d.patch log d'.patch := by
  induction cs generalizing d with
  | nil =>
    cases h
    exact ⟨[], by simp, .nil⟩
  | cons c cs ih =>
    obtain ⟨st, d₁, hc, h⟩ := run_bind_ok h
    obtain ⟨u, d₂, hnote, h⟩ := run_bind_ok h
    cases hnote
    have hkept : Kept d d₁ := by simpa only [hc] using keeps_stageConcern setup t b c d
    obtain ⟨log, hlog, hrest⟩ := ih h
    have hdecided := stageConcern_decided hc
    refine ⟨(c, st) :: log, ?_, ?_⟩
    · rw [hlog]
      simp [hkept.concerns]
    · simp only [hkept.path] at hrest
      exact .cons hdecided hrest

end Migration

end AssetLift
