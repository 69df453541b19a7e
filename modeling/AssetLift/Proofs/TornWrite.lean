import AssetLift.Proofs.Commit

/-!
# Files that are opened and not written

A planned file is made in two steps: it is opened where nothing stands, then its content is written.
If the second step fails, because the content has no bytes or the device refuses, the empty file is
left behind. A commit takes away only the files that were written before: the one left behind stays,
and whoever writes to its path later takes it for a file that was already there.

* `Landed.goesOn`: files that land one after the other, whatever comes behind them.
* `does_commit_fault`: what a commit does once a file cannot be written.
* `write_fault_torn`: a fault leaves the very tree just when the file could not be opened.
-/

namespace AssetLift

/-- An activity does only one thing on a tree. -/
theorem Disk.Does.unique {α : Type} {x : Disk α} {t t' t'' : FileTree} {r r' : Except IoFault α}
    (h : x.Does t r t') (hrun : x.runOn t = (r', t'')) : r = r' ∧ t' = t'' := by
  rw [h.runOn] at hrun
  exact Prod.mk.inj hrun

namespace Commit

open Disk FileTree

/-- An empty file has been left behind at the path of a planned file. -/
structure LeftBehind (f : PlannedFile) (t t' : FileTree) : Prop where
  empty : ∃ loc, t.resolve false f.path = .ok (.absent loc) ∧
    t' = t.insert loc (.file [] defaultMode)
  changed : t' ≠ t
  /-- It is taken for a file that was there before. -/
  kept : ∀ outage g, g.path = f.path → (writeNew outage g).runOn t' = (.ok false, t')

theorem insert_ne (t : FileTree) (loc : Location) (n : FileNode) : t.insert loc n ≠ t := by
  intro h
  have := congrArg (·.nodes.length) h
  simp [FileTree.insert] at this

/-- A path that cannot be looked up opens nothing. -/
theorem fault?_of_createNew {q : Path} {t : FileTree} {made : Location × FileTree}
    (h : createNew q t = .ok made) : q.fault? = none := by
  unfold createNew at h
  split at h
  · cases h
  · assumption

theorem leftBehind {f : PlannedFile} {t : FileTree} {loc : Location}
    (hfault : f.path.fault? = none) (hfree : t.resolve false f.path = .ok (.absent loc)) :
    LeftBehind f t (t.insert loc (.file [] defaultMode)) := by
  have hnone := find?_of_absent hfree
  refine ⟨⟨loc, hfree, rfl⟩, insert_ne _ _ _, fun outage g hg => ?_⟩
  have hthere : (t.insert loc (.file [] defaultMode)).resolve false g.path
      = .ok (.present loc (.file [] defaultMode)) := by
    rw [hg]
    exact resolve_made (sameFrame_insert hnone _ _) hfree (by rw [find?_insert _ hnone, if_pos rfl])
  have hopen : createNew g.path (t.insert loc (.file [] defaultMode))
      = .error (.errno .fileExists g.path.text) := by
    rw [createNew, hthere, hg, hfault]
  exact (writeNew_kept hopen rfl).runOn

/-- A file that cannot be made was not opened, or stays as it was opened. -/
theorem opened_of_fault {outage : Outage} {f : PlannedFile} {t t' : FileTree} {e : IoFault}
    (h : (writeNew outage f).runOn t = (.error e, t')) : (writeNew outage f).Does t (.error e) t' ∧
      (createNew f.path t = .error e ∧ t' = t ∨ ∃ loc, createNew f.path t = .ok (loc, t')) := by
  cases hopen : createNew f.path t with
  | error e' =>
    cases hocc : isOccupied e' with
    | true =>
      obtain ⟨heq, -⟩ := (writeNew_kept hopen hocc).unique h
      cases heq
    | false =>
      have hdoes := @writeNew_refused outage f t e' hopen hocc
      obtain ⟨heq, rfl⟩ := hdoes.unique h
      cases heq
      exact ⟨hdoes, .inl ⟨rfl, rfl⟩⟩
  | ok made =>
    obtain ⟨loc, t₁⟩ := made
    cases hfill : fill outage f loc t₁ with
    | error e' =>
      have hdoes := writeNew_torn hopen hfill
      obtain ⟨heq, rfl⟩ := hdoes.unique h
      cases heq
      exact ⟨hdoes, .inr ⟨loc, rfl⟩⟩
    | ok filled =>
      obtain ⟨heq, -⟩ := (writeNew_made hopen hfill).unique h
      cases heq

/-! ## Files that land before -/

/-- Begun where `seen` have landed, `files` are made in turn; if all of them land, what comes behind
them goes on from there. -/
def GoesOn (outage : Outage) (base : FileTree) (seen files : List PlannedFile) (done : Result)
    (new : List (Location × FileNode)) : Prop :=
  ∃ done' failed t',
    (landFiles outage files done).Does (base.extend new) (.ok (done', failed)) t' ∧
    (failed = none → ∃ new', Landed base (seen ++ files) done' new' ∧ t' = base.extend new' ∧
      ∀ {post r t''}, (landFiles outage post done').Does t' r t'' →
        (landFiles outage (files ++ post) done).Does (base.extend new) r t'')

section
variable {outage : Outage} {base : FileTree} {seen : List PlannedFile} {done : Result}
  {new : List (Location × FileNode)}

/-- One file more in front that lands. -/
theorem GoesOn.cons {f : PlannedFile} {files : List PlannedFile} {done₁ : Result}
    {new₁ : List (Location × FileNode)} (h : GoesOn outage base (seen ++ [f]) files done₁ new₁)
    (hstep : ∀ {rest r t''}, (landFiles outage rest done₁).Does (base.extend new₁) r t'' →
      (landFiles outage (f :: rest) done).Does (base.extend new) r t'') :
    GoesOn outage base seen (f :: files) done new := by
  obtain ⟨done', failed, t', hgo, hend⟩ := h
  refine ⟨done', failed, t', hstep hgo, fun hnone => ?_⟩
  obtain ⟨new', hland, ht', hon⟩ := hend hnone
  exact ⟨new', by simpa using hland, ht', fun hpost => hstep (hon hpost)⟩

theorem Landed.goesOn {files : List PlannedFile} (h : Landed base seen done new) :
    GoesOn outage base seen files done new := by
  induction files generalizing seen done new with
  | nil =>
    refine ⟨done, none, base.extend new, landFiles_nil, fun _ => ?_⟩
    exact ⟨new, by rwa [List.append_nil], rfl, fun hpost => hpost⟩
  | cons f files ih =>
    obtain ⟨r, t', hdoes, hwrote⟩ := does_writeNew outage f (base.extend new)
    cases hwrote with
    | made hfree hbytes =>
      rw [insert_extend] at hdoes
      exact (ih (h.made hfree hbytes)).cons fun hrest => landFiles_cons hdoes hrest
    | kept hthere =>
      exact (ih (h.kept hthere)).cons fun hrest => landFiles_cons hdoes hrest
    | @refused e _ _ | @unfilled loc e _ _ =>
      exact ⟨done, some e, _, landFiles_cons_error hdoes, fun hnone => by cases hnone⟩

end

/-- **A commit whose file cannot be written** fails with the same fault, once the files made before
are taken away. -/
theorem does_commit_fault {outage : Outage} {p : Patch} {pre post : List PlannedFile}
    {f : PlannedFile} (hp : p.files = pre ++ f :: post) {t t₁ t₂ t' : FileTree} {done : Result}
    {e : IoFault}
    (hon : ∀ {rest r t''}, (landFiles outage rest done).Does t₁ r t'' →
      (landFiles outage (pre ++ rest) {}).Does t r t'')
    (hfault : (writeNew outage f).Does t₁ (.error e) t₂)
    (hundo : (removeAll done.created).Does t₂ (.ok ()) t') :
    (p.commit outage).Does t (.error e) t' := by
  have hfiles : (landFiles outage p.files {}).Does t (.ok (done, some e)) t₂ := by
    rw [hp]
    exact hon (landFiles_cons_error hfault)
  exact hfiles.bind (hundo.bind (does_throw e))

/-- **A fault leaves the very tree just when the file could not be opened.** A file that was opened
stays behind, empty: when it is written alone, and when it is one of the files of a commit, where
those made before it are taken away and it is not, however much of its content had been written. -/
theorem write_fault_torn (outage : Outage) (t : FileTree) :
    (∀ f e t', (writeNew outage f).runOn t = (.error e, t') →
      createNew f.path t = .error e ∧ t' = t ∨
      (∃ made, createNew f.path t = .ok made) ∧ LeftBehind f t t') ∧
    ∀ (p : Patch) pre f post done t₁ e t₂, p.files = pre ++ f :: post →
      (landFiles outage pre {}).runOn t = (.ok (done, none), t₁) →
      (writeNew outage f).runOn t₁ = (.error e, t₂) →
      ∃ t', (p.commit outage).runOn t = (.error e, t') ∧
        (createNew f.path t₁ = .error e ∧ t' = t ∨
        (∃ made, createNew f.path t₁ = .ok made) ∧ LeftBehind f t t' ∧
          ∀ loc c, t₁.resolve false f.path = .ok (.absent loc) →
            (removeAll done.created).runOn (t₁.insert loc (.file c defaultMode))
              = (.ok (), t.insert loc (.file c defaultMode))) := by
  constructor
  · intro f e t' hrun
    rcases (opened_of_fault hrun).2 with hopen | ⟨loc, hopen⟩
    · exact .inl hopen
    · obtain ⟨hfree, rfl⟩ := createNew_ok hopen
      exact .inr ⟨⟨_, hopen⟩, leftBehind (fault?_of_createNew hopen) hfree⟩
  · intro p pre f post done t₁ e t₂ hp hland hrun
    obtain ⟨done', failed, t', hdoes, hend⟩ := @Landed.goesOn outage t _ _ _ pre .nil
    rw [extend_nil] at hdoes hend
    obtain ⟨hresult, rfl⟩ := hdoes.unique hland
    obtain ⟨rfl, rfl⟩ := Prod.mk.inj (Except.ok.inj hresult)
    obtain ⟨new, hlanded, rfl, hon⟩ := hend rfl
    obtain ⟨hfault, hopened⟩ := opened_of_fault hrun
    -- taking away what was made leaves a file that stands where nothing was
    have hleaves : ∀ loc c, (t.extend new).resolve false f.path = .ok (.absent loc) →
        (removeAll done'.created).Does ((t.extend new).insert loc (.file c defaultMode)) (.ok ())
          (t.insert loc (.file c defaultMode)) := by
      intro loc c hfree
      have h := removeAll_leaves hlanded.created
        (hlanded.fresh.snoc (find?_of_absent hfree) c defaultMode)
      rw [← insert_extend] at h
      exact h
    rcases hopened with ⟨hopen, rfl⟩ | ⟨loc, hopen⟩
    · have hundo := removeAll_undoes hlanded.created hlanded.fresh
      exact ⟨t, (does_commit_fault hp hon hfault hundo).runOn, .inl ⟨hopen, rfl⟩⟩
    · obtain ⟨hfree, rfl⟩ := createNew_ok hopen
      exact ⟨_, (does_commit_fault hp hon hfault (hleaves loc [] hfree)).runOn, .inr ⟨⟨_, hopen⟩,
        leftBehind (fault?_of_createNew hopen) (hlanded.free hfree),
        fun loc c hfree => (hleaves loc c hfree).runOn⟩⟩

namespace Sample

/-- A file whose content is half of a surrogate pair. -/
def half : PlannedFile := ⟨⟨.workDir, ["a.html"]⟩, [⟨0xD800, by decide⟩]⟩

/-- What is said of a content that has no bytes. -/
def halfFault : IoFault := .unencodable ⟨0, 1, ⟨0xD800, by decide⟩⟩

def halfPatch : Patch := { patch with files := [half] }

def torn : FileTree := tree.insert ["a.html"] (.file [] defaultMode)

theorem half_opens : createNew half.path tree = .ok (["a.html"], torn) := by
  have hfault : half.path.fault? = none := by decide
  rw [createNew, hfault, show half.path = ⟨.workDir, ["a.html"]⟩ from rfl, resolve_html]
  rfl

theorem half_torn : (writeNew {} half).Does tree (.error halfFault) torn :=
  writeNew_torn half_opens rfl

theorem half_commit : (halfPatch.commit {}).Does tree (.error halfFault) torn :=
  @does_commit_fault {} halfPatch [] [] half rfl tree tree torn torn {} halfFault
    (fun h => h) half_torn (does_pure ())

end Sample

open Sample in
/-- The commit of that file alone. -/
theorem write_fault_torn_half : ∃ t', (halfPatch.commit {}).runOn tree = (.error halfFault, t') ∧
    LeftBehind half tree t' := by
  obtain ⟨t', hrun, ⟨hopen, -⟩ | ⟨-, hleft, -⟩⟩ := (write_fault_torn {} tree).2 halfPatch [] half []
    {} tree halfFault torn rfl rfl half_torn.runOn
  · rw [half_opens] at hopen
    cases hopen
  · exact ⟨t', hrun, hleft⟩

open Sample in
/-- **An empty file stays behind** when a content has no bytes, in a commit as well. -/
theorem half_left_behind : (writeNew {} half).runOn tree = (.error halfFault, torn) ∧
    (halfPatch.commit {}).runOn tree = (.error halfFault, torn) ∧ torn ≠ tree :=
  ⟨half_torn.runOn, half_commit.runOn, insert_ne _ _ _⟩

open Sample in
/-- **A commit of a content without bytes does neither all nor nothing**, though the source stands
and the planned file has a place of its own. -/
theorem half_commit_neither :
    tree.resolve false halfPatch.path
      = .ok (.present ["a.ts"] (.file (Bytes.ofString "ab") 0o600)) ∧
    Distinct tree halfPatch.files ∧
    ¬ ((∃ r t', (halfPatch.commit {}).runOn tree = (.ok r, t') ∧
        Lands halfPatch tree ["a.ts"] (Bytes.ofString "ab") 0o600 r t') ∨
      ∃ e, (halfPatch.commit {}).runOn tree = (.error e, tree)) := by
  refine ⟨resolve_source, List.pairwise_singleton _ _, ?_⟩
  rw [half_commit.runOn]
  rintro (⟨r, t', hrun, -⟩ | ⟨e, hrun⟩)
  · cases (Prod.mk.inj hrun).1
  · exact insert_ne _ _ _ (Prod.mk.inj hrun).2

end Commit

end AssetLift
