import AssetLift.Proofs.Run
import AssetLift.Proofs.Tandem

/-!
# One file looked at in two trees

A file is looked at in two trees that agree on what it can depend on. The same is decided, the same
becomes of the file, and the trees change in the same way (`tandem_processUnit`). What can differ is
which files were in the way: a link at a target's path may lead to something in the one tree and to
nothing in the other. Then the target is planned for the second tree only, and there the link is found
in the way when the file is made.

* `pathExists_alike`: only a link at a path can make a difference.
* `Twins`: an activity on two drafts at once.
* `twins_stageConcern`: the decision on one concern, in both trees.
* `Site`, `tandem_processUnit`: a file with the locations it takes up, and what becomes of it.
-/

namespace AssetLift

namespace FileTree

/-- A name that is too long is met in every tree of one frame. -/
theorem resolveFrom_nameTooLong {t t' : FileTree} (h : SameFrame t t') (follow : Bool) (links : Nat)
    (dir : Location) (names : List Bytes)
    (hr : t.resolveFrom follow links dir names = .error .nameTooLong) :
    t'.resolveFrom follow links dir names = .error .nameTooLong := by
  -- what leads on in the one tree does so in the other
  have hon : ∀ {loc n}, t.find? loc = some n → isEnd (some n) = false → t'.find? loc = some n := by
    intro loc n hf hn
    rcases h.find? loc with ⟨he, -⟩ | ⟨he, -⟩
    · rw [hf, hn] at he
      cases he
    · rw [he, hf]
  induction links, dir, names using resolveFrom.induct t follow with
  | case1 links dir =>
    rw [resolveFrom] at hr
    cases hr
  | case2 links dir rest ih =>
    rw [resolveFrom, if_pos rfl] at hr ⊢
    exact ih hr
  | case3 links dir name rest hup hlen => rw [resolveFrom, if_neg hup, if_pos hlen]
  | case4 links dir name rest hup hlen hf hrest =>
    rw [resolveFrom, if_neg hup, if_neg hlen, hf] at hr
    simp [hrest] at hr
  | case5 links dir name rest hup hlen hf hrest =>
    rw [resolveFrom, if_neg hup, if_neg hlen, hf] at hr
    simp [hrest] at hr
  | case6 links dir name rest hup hlen hf ih =>
    rw [resolveFrom, if_neg hup, if_neg hlen, hf] at hr
    rw [resolveFrom, if_neg hup, if_neg hlen, hon hf rfl]
    exact ih hr
  | case7 links dir name rest hup hlen c m hf hrest =>
    rw [resolveFrom, if_neg hup, if_neg hlen, hf] at hr
    simp [hrest] at hr
  | case8 links dir name rest hup hlen c m hf hrest =>
    rw [resolveFrom, if_neg hup, if_neg hlen, hf] at hr
    simp [hrest] at hr
  | case9 links dir name rest hup hlen target hf hlast =>
    rw [resolveFrom, if_neg hup, if_neg hlen, hf] at hr
    simp [hlast] at hr
  | case10 dir name rest hup hlen target hf hlast =>
    rw [resolveFrom, if_neg hup, if_neg hlen, hf] at hr
    simp [hlast] at hr
  | case11 dir name rest hup hlen target hf hlast more ih =>
    rw [resolveFrom, if_neg hup, if_neg hlen, hf] at hr
    rw [resolveFrom, if_neg hup, if_neg hlen, hon hf rfl]
    simp only [hlast, Bool.false_eq_true, ↓reduceIte] at hr ⊢
    exact ih hr

theorem resolve_nameTooLong {t t' : FileTree} (h : SameFrame t t') {follow : Bool} {p : Path}
    (hr : t.resolve follow p = .error .nameTooLong) : t'.resolve follow p = .error .nameTooLong := by
  by_cases hlen : isTooLong p.text = true
  · rw [resolve, if_pos hlen]
  · rw [resolve, if_neg hlen] at hr
    rw [resolve, if_neg hlen, base_frame h]
    exact resolveFrom_nameTooLong h follow maxLinks _ _ hr

section
variable {base : FileTree} {own : Location → Prop} {t u : FileTree}

theorem resolve_alike (h : Alike base own t u) {p : Path} {loc : Location}
    (hplain : Discovery.Plain base p loc) (hloc : own loc) :
    (∃ e e', t.resolve true p = .error e ∧ u.resolve true p = .error e') ∨
      t.resolve true p = .ok (t.seat loc) ∧ u.resolve true p = t.resolve true p := by
  cases hr : base.resolve true p with
  | error e =>
    obtain ⟨e₁, h₁⟩ := resolve_error_frame h.left hr
    obtain ⟨e₂, h₂⟩ := resolve_error_frame h.right hr
    exact .inl ⟨e₁, e₂, h₁, h₂⟩
  | ok place =>
    obtain ⟨c, m, rfl⟩ := hplain.leads true _ hr
    have ht := resolve_frame h.left hr
    have hu := resolve_frame h.right hr
    rw [Place.reseat] at ht hu
    rw [hu, ht, seat, seat, h.same loc hloc]
    exact .inr ⟨rfl, rfl⟩

/-- Whether something stands at a place. -/
def Place.taken : Place → Bool
  | .present _ _ => true
  | .absent _ => false

theorem pathExists_of_resolve {p : Path} (hfault : p.fault? = none) {place : Place}
    (hr : t.resolve true p = .ok place) :
    t.pathExists p = .ok place.taken := by
  rw [pathExists, status, hfault, hr]
  cases place <;> rfl

theorem pathExists_of_error {p : Path} (hfault : p.fault? = none) {e : Errno}
    (hr : t.resolve true p = .error e) :
    t.pathExists p
      = if e = .nameTooLong then .error (.errno .nameTooLong p.text) else .ok false := by
  rw [pathExists, status, hfault, hr]
  cases e <;> rfl

/-- Whether something stands at a path is the same in both trees, unless a link stands there. -/
theorem pathExists_alike {mine : Location → Prop} (hown : ∀ loc, mine loc → own loc)
    (h : Alike base own t u) {p : Path} (haims : Commit.Aims base mine p) :
    (∃ e e', t.pathExists p = .error e ∧ u.pathExists p = .error e') ∨
      ∃ x y, t.pathExists p = .ok x ∧ u.pathExists p = .ok y ∧ (x ≠ y → Commit.Barred base p) := by
  cases hfault : p.fault? with
  | some f => exact .inr ⟨false, false, by simp [pathExists, status, hfault],
      by simp [pathExists, status, hfault], by simp⟩
  | none =>
    cases hr : base.resolve true p with
    | error e =>
      obtain ⟨e₁, h₁⟩ := resolve_error_frame h.left hr
      obtain ⟨e₂, h₂⟩ := resolve_error_frame h.right hr
      rw [pathExists_of_error hfault h₁, pathExists_of_error hfault h₂]
      by_cases hlong : e₁ = .nameTooLong
      · subst hlong
        obtain rfl := Except.error.inj ((resolve_nameTooLong (h.left.symm.trans h.right) h₁).symm.trans h₂)
        exact .inl ⟨_, _, rfl, rfl⟩
      · have hlong' : e₂ ≠ .nameTooLong := by
          rintro rfl
          rw [resolve_nameTooLong (h.right.symm.trans h.left) h₂] at h₁
          exact hlong (Except.error.inj h₁).symm
        rw [if_neg hlong, if_neg hlong']
        exact .inr ⟨false, false, rfl, rfl, by simp⟩
    | ok place =>
      have ht := pathExists_of_resolve hfault (resolve_frame h.left hr)
      have hu := pathExists_of_resolve hfault (resolve_frame h.right hr)
      refine .inr ⟨_, _, ht, hu, fun hne => ?_⟩
      rcases resolve_stay hr with hstay | hlink
      · obtain ⟨loc, rfl, hloc⟩ := haims _ hstay
        rw [h.left.reseat_seat, h.right.reseat_seat, seat, seat, h.same loc (hown loc hloc)] at hne
        exact absurd rfl hne
      · exact ⟨hlink, hfault⟩

end

end FileTree

/-- What is told of a file, without messages and without the files that were in the way. -/
structure Gist where
  path : Path
  state : UnitState
  concerns : List (Concern × ConcernState)
  created : List Path
  deriving DecidableEq

def Outcome.gist (o : Outcome) : Gist := ⟨o.path, o.state, o.concerns, o.created⟩

/-! ## The slots of a concern -/

/-- The concern that a slot belongs to. -/
def Target.Slot.concern : Target.Slot → Concern
  | template => .template
  | style _ => .styles

namespace Migration

open FileTree Target

/-- The files planned for a concern have slots of that concern, each another one. -/
theorem planned_slots (s : Settings) (path : Path) (texts : List String) (c : Concern) :
    ∃ slots : List Slot, slots.Nodup ∧ (∀ k ∈ slots, k.concern = c) ∧
      List.Forall₂ (fun f k => f.path = k.path s path) (planned s path texts c) slots := by
  have hmap : ∀ {files : List PlannedFile} {slots : List Slot},
      files.map (·.path) = slots.map (·.path s path) →
      List.Forall₂ (fun f k => f.path = k.path s path) files slots := by
    intro files slots h
    rw [← List.forall₂_eq_eq_eq, List.forall₂_map_left_iff, List.forall₂_map_right_iff] at h
    exact h
  cases c with
  | template =>
    cases texts with
    | nil => exact ⟨[], .nil, by simp, .nil⟩
    | cons text texts => exact ⟨[.template], List.nodup_singleton _, by simp [Slot.concern], hmap rfl⟩
  | styles =>
    refine ⟨(List.range (texts.map CodePoint.ofString).length).map .style,
      List.nodup_range.map fun i j h => Slot.style.inj h, ?_, hmap ?_⟩
    · simp [Slot.concern]
    · rw [planned, Slot.styles_paths, List.map_map]
      rfl

/-! ## Two drafts -/

/-- What two drafts of a file tell is the same, up to messages and to files that were in the way. -/
structure Kin (d d' : Draft) : Prop where
  path : d'.outcome.path = d.outcome.path
  concerns : d'.outcome.concerns = d.outcome.concerns
  created : d'.outcome.created = d.outcome.created

theorem Kin.kept {d d₁ d' d₁' : Draft} (h : Kin d d') (hd : Kept d d₁) (hd' : Kept d' d₁') :
    Kin d₁ d₁' where
  path := by rw [hd'.path, hd.path, h.path]
  concerns := by rw [hd'.concerns, hd.concerns, h.concerns]
  created := by rw [hd'.created, hd.created, h.created]

/-- Whether nothing stands at the path of a planned file. -/
def vacant (t : FileTree) (f : PlannedFile) : Bool :=
  match t.pathExists f.path with
  | .ok there => !there
  | .error _ => false

/-- Drafts of one file, looked at in two trees. The same edits are staged in both, and of the files
planned for some slots those at whose paths nothing stands. -/
structure Twin (t u : FileTree) (s : Settings) (path : Path) (done : Slot → Prop) (d d' : Draft) :
    Prop where
  kin : Kin d d'
  own : d.outcome.path = path
  patches : ∃ (staging : Staging) (files : List PlannedFile),
    d.patch = ⟨path, staging, files.filter (vacant t)⟩ ∧
    d'.patch = ⟨path, staging, files.filter (vacant u)⟩ ∧
    ∀ f ∈ files, ∃ k : Slot, done k ∧ f.path = k.path s path

/-- Two runs that failed both or gave the same value. -/
inductive Paired {α : Type} (E : Draft → Draft → Prop) :
    Except Fault α × Draft → Except Fault α × Draft → Prop
  | ok {a d d'} (h : E d d') : Paired E (.ok a, d) (.ok a, d')
  | error {f f' d d'} (h : Kin d d') : Paired E (.error f, d) (.error f', d')

def Twins {α : Type} (D : Draft → Draft → Prop) (x y : Drafting α) (E : Draft → Draft → Prop) :
    Prop :=
  ∀ d d', D d d' → Paired E (runFrom x d) (runFrom y d')

section
variable {α β ε : Type} {D E F : Draft → Draft → Prop}

theorem twins_pure (a : α) : Twins D (pure a) (pure a) D := fun _ _ h => .ok h

theorem twins_bind {x y : Drafting α} {f g : α → Drafting β} (hx : Twins D x y E)
    (hf : ∀ a, Twins E (f a) (g a) F) : Twins D (x >>= f) (y >>= g) F := by
  intro d d' h
  have hpair := hx d d' h
  rw [run_bind, run_bind]
  generalize runFrom x d = r at hpair ⊢
  generalize runFrom y d' = r' at hpair ⊢
  cases hpair with
  | ok hE => exact hf _ _ _ hE
  | error hkin => exact .error hkin

theorem twins_modify {f g : Draft → Draft} (h : ∀ d d', D d d' → E (f d) (g d')) :
    Twins D (modify f : Drafting PUnit) (modify g) E := fun d d' hD => .ok (h d d' hD)

theorem twins_attempt (hkin : ∀ d d', D d d' → Kin d d') (cause : ε → Fault) (x : Except ε α) :
    Twins D (attempt cause x) (attempt cause x) D := by
  intro d d' h
  rw [run_attempt, run_attempt]
  cases x with
  | ok a => exact .ok h
  | error f => exact .error (hkin d d' h)

theorem Twins.weaken {x y : Drafting α} (h : Twins D x y E) (hEF : ∀ d d', E d d' → F d d') :
    Twins D x y F := by
  intro d d' hD
  have hpair := h d d' hD
  generalize runFrom x d = r at hpair ⊢
  generalize runFrom y d' = r' at hpair ⊢
  cases hpair with
  | ok hE => exact .ok (hEF _ _ hE)
  | error hkin => exact .error hkin

end

/-! ## Staging in both trees -/

section
variable {t u : FileTree} {s : Settings} {path : Path} {done : Slot → Prop}

theorem Twin.mono {d d' : Draft} (h : Twin t u s path done d d') {done' : Slot → Prop}
    (hsub : ∀ k, done k → done' k) : Twin t u s path done' d d' := by
  obtain ⟨staging, files, hd, hd', hslots⟩ := h.patches
  refine ⟨h.kin, h.own, staging, files, hd, hd', fun f hf => ?_⟩
  obtain ⟨k, hk, hpath⟩ := hslots f hf
  exact ⟨k, hsub k hk, hpath⟩

theorem twins_tell (severity : Severity) (message : Text) (kind : Option DiagnosticKind) :
    Twins (Twin t u s path done) (tell severity message kind) (tell severity message kind)
      (Twin t u s path done) :=
  twins_modify fun _ _ h => ⟨⟨h.kin.path, h.kin.concerns, h.kin.created⟩, h.own, h.patches⟩

/-- Looking at a path fails in both trees or in neither. -/
def Seen (t u : FileTree) (p : Path) : Prop :=
  (∃ e e', t.pathExists p = .error e ∧ u.pathExists p = .error e') ∨
    ∃ x y, t.pathExists p = .ok x ∧ u.pathExists p = .ok y

theorem run_stageFile_error {f : PlannedFile} {e : IoFault} (h : t.pathExists f.path = .error e)
    (d : Draft) : runFrom (stageFile t f) d = (.error (.io e), d) := by
  rw [stageFile, run_bind, run_attempt, h]

/-- A file of a new path is staged, unless something stands there. -/
theorem run_stageFile {f : PlannedFile} {there : Bool} (h : t.pathExists f.path = .ok there)
    {d : Draft} (hnew : ∀ g ∈ d.patch.files, g.path ≠ f.path) :
    ∃ d', runFrom (stageFile t f) d = (.ok (), d') ∧
      d'.patch = { d.patch with files := d.patch.files ++ [f].filter (vacant t) } := by
  cases there with
  | true =>
    have hnone : [f].filter (vacant t) = [] := by simp [vacant, h]
    rw [stageFile, run_bind, run_attempt, h, hnone, List.append_nil]
    exact ⟨_, rfl, rfl⟩
  | false =>
    have hone : [f].filter (vacant t) = [f] := by simp [vacant, h]
    have hstage : d.patch.stageFile f = .ok { d.patch with files := d.patch.files ++ [f] } := by
      rw [Patch.stageFile, if_neg (by simpa using hnew)]
    rw [stageFile, run_bind, run_attempt, h, hone]
    dsimp only
    rw [if_neg Bool.false_ne_true, run_bind, run_get]
    dsimp only
    rw [run_bind, run_attempt, hstage]
    exact ⟨_, rfl, rfl⟩

variable (hinj : ∀ k k' : Slot, k.path s path = k'.path s path → k = k')
include hinj

theorem twins_stageFile {f : PlannedFile} {k : Slot} (hf : f.path = k.path s path) (hk : ¬ done k)
    (hseen : Seen t u f.path) : Twins (Twin t u s path done) (stageFile t f) (stageFile u f)
      (Twin t u s path fun k' => done k' ∨ k' = k) := by
  intro d d' h
  rcases hseen with ⟨e, e', ht, hu⟩ | ⟨x, y, ht, hu⟩
  · rw [run_stageFile_error ht, run_stageFile_error hu]
    exact .error h.kin
  obtain ⟨staging, files, hd, hd', hslots⟩ := h.patches
  -- a new slot has a new path, so no conflict is met
  have hnew : ∀ g ∈ files, g.path ≠ f.path := by
    intro g hg heq
    obtain ⟨k', hk', hpath⟩ := hslots g hg
    obtain rfl := hinj k' k (hpath.symm.trans (heq.trans hf))
    exact hk hk'
  obtain ⟨d₁, hrun, hpatch⟩ := run_stageFile ht (d := d)
    (by rw [hd]; exact fun g hg => hnew g (List.mem_of_mem_filter hg))
  obtain ⟨d₁', hrun', hpatch'⟩ := run_stageFile hu (d := d')
    (by rw [hd']; exact fun g hg => hnew g (List.mem_of_mem_filter hg))
  have hkept : Kept d d₁ := by simpa only [hrun] using keeps_stageFile t f d
  have hkept' : Kept d' d₁' := by simpa only [hrun'] using keeps_stageFile u f d'
  rw [hrun, hrun']
  refine .ok ⟨h.kin.kept hkept hkept', hkept.path.trans h.own, staging, files ++ [f], ?_, ?_, ?_⟩
  · rw [hpatch, hd, List.filter_append]
  · rw [hpatch', hd', List.filter_append]
  · intro g hg
    rcases List.mem_append.1 hg with hg | hg
    · obtain ⟨k', hk', hpath⟩ := hslots g hg
      exact ⟨k', .inl hk', hpath⟩
    · exact ⟨k, .inr rfl, by rw [List.mem_singleton.1 hg, hf]⟩

/-- **Planned files are staged in both trees**, those at whose paths nothing stands. -/
theorem twins_stageFiles (hseen : ∀ k : Slot, Seen t u (k.path s path)) {files : List PlannedFile}
    {slots : List Slot} (hfiles : List.Forall₂ (fun f k => f.path = k.path s path) files slots)
    (hnodup : slots.Nodup) (hfresh : ∀ k ∈ slots, ¬ done k) :
    Twins (Twin t u s path done) (stageFiles t files) (stageFiles u files)
      (Twin t u s path fun k => done k ∨ k ∈ slots) := by
  induction hfiles generalizing done with
  | nil => exact (twins_pure ()).weaken fun _ _ h => h.mono fun k hk => .inl hk
  | @cons f k files slots hf _ ih =>
    rw [List.nodup_cons] at hnodup
    refine (twins_bind (twins_stageFile hinj hf (hfresh k List.mem_cons_self) (hf ▸ hseen k))
      fun _ => ih hnodup.2 fun k' hk' hdone => ?_).weaken fun _ _ h => h.mono fun k' hk' => ?_
    · rcases hdone with hdone | rfl
      · exact hfresh k' (List.mem_cons_of_mem _ hk') hdone
      · exact hnodup.1 hk'
    · rcases hk' with (hdone | rfl) | hk'
      · exact .inl hdone
      · exact .inr List.mem_cons_self
      · exact .inr (List.mem_cons_of_mem _ hk')

omit hinj in
theorem twins_stageEdit (b : Block) (e : Entry) (replacement : List CodePoint) :
    Twins (Twin t u s path done) (stageEdit b e replacement) (stageEdit b e replacement)
      (Twin t u s path done) := by
  intro d d' h
  obtain ⟨staging, files, hd, hd', hslots⟩ := h.patches
  unfold stageEdit
  rw [run_bind, run_get, run_bind, run_get]
  simp only [run_bind, run_attempt, hd, hd']
  cases Removal.plan e b.properties.length staging.source staging.spans with
  | error f => exact .error h.kin
  | ok plan =>
    dsimp only
    cases plan.edit e staging.source replacement with
    | error f => exact .error h.kin
    | ok edit =>
      simp only [Patch.stage]
      cases staging.stage edit with
      | error f => exact .error h.kin
      | ok staging' =>
        exact .ok ⟨⟨h.kin.path, h.kin.concerns, h.kin.created⟩, h.own, staging', files, rfl, rfl, hslots⟩

end

/-! ## Deciding in both trees -/

section
variable {setup : Setup} {t u : FileTree} {path : Path} {done : Slot → Prop}
  (hinj : ∀ k k' : Slot, k.path setup.settings path = k'.path setup.settings path → k = k')
  (hseen : ∀ k : Slot, Seen t u (k.path setup.settings path)) (b : Block)
include hinj hseen

theorem twins_stageLiterals {c : Concern} (hfresh : ∀ k, done k → k.concern ≠ c) (e : Entry) :
    Twins (Twin t u setup.settings path done) (stageLiterals setup t b c e)
      (stageLiterals setup u b c e)
      (Twin t u setup.settings path fun k => done k ∨ k.concern = c) := by
  unfold stageLiterals
  cases relocate setup b e with
  | error f =>
    exact (twins_bind (twins_tell _ _ _) fun _ => twins_pure _).weaken fun _ _ h =>
      h.mono fun k hk => .inl hk
  | ok p =>
    intro d d' h
    rw [run_bind, run_get, run_bind, run_get]
    dsimp only
    rw [h.kin.path, h.own]
    obtain ⟨slots, hnodup, hconcern, hfiles⟩ := planned_slots setup.settings path e.value.texts c
    refine twins_bind ((twins_stageFiles hinj hseen hfiles hnodup fun k hk hdone =>
        hfresh k hdone (hconcern k hk)).weaken fun _ _ h => h.mono fun k hk => ?_)
      (fun _ => twins_bind (twins_stageEdit b e _) fun _ => twins_bind (twins_tell _ _ _) fun _ =>
        twins_pure _) d d' h
    exact hk.imp id (hconcern k)

/-- **The decision on one concern is the same in both trees.** -/
theorem twins_stageConcern {c : Concern} (hfresh : ∀ k, done k → k.concern ≠ c) :
    Twins (Twin t u setup.settings path done) (stageConcern setup t b c) (stageConcern setup u b c)
      (Twin t u setup.settings path fun k => done k ∨ k.concern = c) := by
  have hstill : ∀ d d', Twin t u setup.settings path done d d' →
      Twin t u setup.settings path (fun k => done k ∨ k.concern = c) d d' :=
    fun _ _ h => h.mono fun k hk => .inl hk
  have htold : ∀ severity message kind (state : ConcernState),
      Twins (Twin t u setup.settings path done) (do tell severity message kind; return state)
        (do tell severity message kind; return state)
        (Twin t u setup.settings path fun k => done k ∨ k.concern = c) := fun _ _ _ _ =>
    (twins_bind (twins_tell _ _ _) fun _ => twins_pure _).weaken hstill
  unfold stageConcern
  cases c.referenceKeys.find? b.has with
  | some key => exact htold _ _ _ _
  | none =>
    dsimp only
    cases b.property? c.name with
    | none => exact htold _ _ _ _
    | some p =>
      dsimp only
      refine twins_bind (twins_attempt (fun _ _ h => h.kin) _ _) fun e => ?_
      split
      · exact htold _ _ _ _
      split
      · exact htold _ _ _ _
      exact twins_stageLiterals hinj hseen b hfresh e

theorem twins_stageConcerns {cs : List Concern} (hnodup : cs.Nodup)
    (hfresh : ∀ k, done k → k.concern ∉ cs) :
    Twins (Twin t u setup.settings path done) (stageConcerns setup t b cs)
      (stageConcerns setup u b cs) (Twin t u setup.settings path fun _ => True) := by
  induction cs generalizing done with
  | nil => exact (twins_pure ()).weaken fun _ _ h => h.mono fun _ _ => trivial
  | cons c cs ih =>
    rw [List.nodup_cons] at hnodup
    refine twins_bind (twins_stageConcern hinj hseen b fun k hk heq =>
      hfresh k hk (heq ▸ List.mem_cons_self)) fun state => ?_
    refine twins_bind (twins_modify fun d d' h => ?_)
      fun _ => @ih (fun k => done k ∨ k.concern = c) hnodup.2 fun k hk => ?_
    · exact ⟨⟨h.kin.path, congrArg (· ++ [(c, state)]) h.kin.concerns, h.kin.created⟩, h.own,
        h.patches⟩
    · rcases hk with hk | rfl
      · exact fun hmem => hfresh k hk (List.mem_cons_of_mem _ hmem)
      · exact hnodup.1

end

/-! ## One file in both trees -/

/-- A file at a location, with other locations at which its targets are made if at all. -/
structure Site (s : Settings) (base : FileTree) (path : Path) (loc : Location)
    (targets : Location → Prop) : Prop where
  plain : Discovery.Plain base path loc
  apart : ¬ targets loc
  aims : ∀ k : Slot, Commit.Aims base targets (k.path s path)
  distinct : ∀ k k' : Slot, k.path s path = k'.path s path → k = k'

theorem Kin.gist {d d' : Draft} (h : Kin d d') (f f' : Fault) :
    (failed d'.outcome f').gist = (failed d.outcome f).gist := by
  simp only [Outcome.gist, failed, Outcome.tell, h.path, h.concerns, h.created]

theorem Kin.idle {d d' : Draft} (h : Kin d d') :
    ({ d'.outcome with state := d'.outcome.idleState } : Outcome).gist
      = ({ d.outcome with state := d.outcome.idleState } : Outcome).gist := by
  simp only [Outcome.gist, Outcome.idleState, h.path, h.concerns, h.created]

theorem Kin.committed {d d' : Draft} (h : Kin d d') {r r' : Commit.Result}
    (hr : r'.created = r.created) :
    (committed d'.outcome r').gist = (committed d.outcome r).gist := by
  simp only [Outcome.gist, Migration.committed, h.path, h.concerns, h.created, hr]

theorem readBlock_error {setup : Setup} {t : FileTree} {path : Path} {e : Errno}
    (h : t.resolve true path = .error e) : ∃ f, readBlock setup t path = .error f := by
  unfold readBlock FileTree.read
  rw [h]
  split <;> exact ⟨_, rfl⟩

section
variable {setup : Setup} {base : FileTree} {path : Path} {loc : Location} {targets : Location → Prop}
  (hsite : Site setup.settings base path loc targets) {own : Location → Prop}
  (hown : ∀ l, l = loc ∨ targets l → own l) (htemps : Commit.Temps own path) {t u : FileTree}
  (h : Alike base own t u)
include hsite hown htemps h

theorem tandem_close {old : Bytes} {mode : Nat}
    (hread : t.resolve true path = .ok (.present loc (.file old mode)))
    {r r' : Except Fault Unit × Draft}
    (hpair : Paired (Twin t u setup.settings path fun _ => True) r r') :
    (close setup u r').1.gist = (close setup t r).1.gist ∧
      Tandem base own (fun l => l = loc ∨ targets l) t u (close setup t r).2 (close setup u r').2 := by
  cases hpair with
  | error hkin => exact ⟨hkin.gist _ _, h.tandem⟩
  | @ok _ d d' htwin =>
    obtain ⟨staging, files, hd, hd', hslots⟩ := htwin.patches
    rw [close, close, hd, hd']
    dsimp only
    by_cases hedits : staging.edits.isEmpty = true
    · rw [if_pos hedits, if_pos hedits]
      exact ⟨htwin.kin.idle, h.tandem⟩
    rw [if_neg hedits, if_neg hedits]
    have haims : ∀ f ∈ files, Commit.Aims base targets f.path := by
      intro f hf
      obtain ⟨k, -, hk⟩ := hslots f hf
      exact hk ▸ hsite.aims k
    have hbarred : ∀ f ∈ files, vacant t f ≠ vacant u f → Commit.Barred base f.path := by
      intro f hf hne
      rcases pathExists_alike (fun l hl => hown l (.inr hl)) h (haims f hf) with
        ⟨e, e', ht, hu⟩ | ⟨x, y, ht, hu, hbarred⟩
      · rw [vacant, vacant, ht, hu] at hne
        exact absurd rfl hne
      · rw [vacant, vacant, ht, hu] at hne
        exact hbarred fun hxy => hne (congrArg (!·) hxy)
    obtain ⟨r, r', t', u', hleft, hright, hcreated, htandem⟩ :=
      Commit.tandem_commit hown hsite.plain (.inl rfl) htemps setup.outages.commit h hread (vacant t)
        (vacant u) (fun l hl => .inr hl) hsite.apart haims hbarred staging
    rw [hleft.runOn, hright.runOn]
    rcases r with e | r <;> rcases r' with e' | r'
    · exact ⟨htwin.kin.gist _ _, htandem⟩
    · cases hcreated
    · cases hcreated
    · exact ⟨htwin.kin.committed (Option.some.inj hcreated), htandem⟩

/-- **One file is dealt with alike in two trees** that agree on the locations it takes up and on those
of its temporary files. It changes no others than its own and those of its targets. -/
theorem tandem_processUnit :
    (processUnit setup u path).1.gist = (processUnit setup t path).1.gist ∧
      Tandem base own (fun l => l = loc ∨ targets l) t u (processUnit setup t path).2
        (processUnit setup u path).2 := by
  rcases resolve_alike h hsite.plain (hown loc (.inl rfl)) with ⟨e, e', ht, hu⟩ | ⟨ht, hu⟩
  · obtain ⟨f, hf⟩ := @readBlock_error setup _ _ _ ht
    obtain ⟨f', hf'⟩ := @readBlock_error setup _ _ _ hu
    rw [processUnit, processUnit, hf, hf']
    exact ⟨rfl, h.tandem⟩
  rw [processUnit, processUnit, readBlock_congr hu]
  rcases hr : readBlock setup t path with f | ⟨source, _ | b⟩
  · exact ⟨rfl, h.tandem⟩
  · exact ⟨rfl, h.tandem⟩
  · dsimp only
    rw [processBlock_eq, processBlock_eq]
    obtain ⟨l, mode, hl⟩ := leads_of_read (readBlock_eq_ok.1 hr).1
    obtain rfl : l = loc := by
      have hseat := Except.ok.inj (hl.symm.trans ht)
      rw [seat] at hseat
      split at hseat
      · exact (Place.present.inj hseat).1
      · cases hseat
    have hseen : ∀ k : Slot, Seen t u (k.path setup.settings path) := by
      intro k
      rcases pathExists_alike (fun l hl => hown l (.inr hl)) h (hsite.aims k) with
        hfail | ⟨x, y, hx, hy, -⟩
      · exact .inl hfail
      · exact .inr ⟨x, y, hx, hy⟩
    refine tandem_close hsite hown htemps h hl
      (@twins_stageConcerns _ _ _ _ (fun _ => False) hsite.distinct hseen b _ (by decide)
        (fun _ hk => hk.elim) _ _ ⟨⟨rfl, rfl, rfl⟩, rfl, ⟨source, []⟩, [], rfl, rfl, by simp⟩)

end

end Migration

end AssetLift
