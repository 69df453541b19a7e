import AssetLift.Proofs.Idempotence
import AssetLift.Proofs.Landing

/-!
# Rewriting does not look at the targets

How a component is rewritten is decided from its own bytes. What stands at the paths of its targets
decides only which files are made: a target that exists is noted when the file is staged, one where a
link leads nowhere when it would be made, and one that is free gets its literal. The edits, the
references among them, are the same each time. So a component in a tree where some targets were made
before is rewritten as it is in a clean one.

* `Decided.agree`: a decision is the same in whatever trees it is made.
* `stageConcern_abreast`, `stageConcerns_abreast`: so two runs that look at the same block note the
  same states and stage the same edits, as far as both go.
* `processUnit_oblivious`: two trees with the same component, and whatever at its targets.
-/

namespace AssetLift

namespace Migration

open FileTree

/-! ## Two runs on one block -/

/-- An entry is replaced in one way. -/
theorem StagedEdit.agree {b : Block} {e : Entry} {replacement : List CodePoint} {s s₁ s₂ : Staging}
    (h₁ : StagedEdit b e replacement s s₁) (h₂ : StagedEdit b e replacement s s₂) : s₂ = s₁ := by
  obtain ⟨plan, ed, hplan, hed, hstage⟩ := h₁.edit
  obtain ⟨plan', ed', hplan', hed', hstage'⟩ := h₂.edit
  rw [hplan] at hplan'
  cases hplan'
  rw [hed] at hed'
  cases hed'
  rw [hstage] at hstage'
  cases hstage'
  rfl

section
variable {setup : Setup} {t u : FileTree} {b : Block} {path : Path} {c : Concern}

/-- The entry of a concern, if there is one, is found a second time. -/
def Found (setup : Setup) (b : Block) (c : Concern) : Prop :=
  ∀ pr e, b.property? c.name = some pr → Entry.ofProperty c.allowList pr = .ok e →
    ∃ found, relocate setup b e = .ok found

/-- Only a concern whose entry is found is moved. -/
theorem stageConcern_found {d d' : Draft}
    (h : runFrom (stageConcern setup t b c) d = (.ok .migrated, d')) : Found setup b c := by
  intro pr e hpair hentry
  unfold stageConcern at h
  split at h
  · cases h
  rw [hpair] at h
  obtain ⟨e', d₁, hrun, h⟩ := run_bind_ok h
  obtain ⟨hentry', -⟩ := attempt_ok hrun
  obtain rfl := Except.ok.inj (hentry.symm.trans hentry')
  split at h
  · cases h
  split at h
  · cases h
  unfold stageLiterals at h
  split at h
  · cases h
  · exact ⟨_, ‹_›⟩

/-- **A decision looks at the block and at the edits staged so far**, not at the tree. -/
theorem Decided.agree {p p' q q' : Patch} {st st' : ConcernState}
    (h : Decided setup t b path c p st p') (h' : Decided setup u b path c q st' q')
    (hfound : st = .migrated → Found setup b c) (hfound' : st' = .migrated → Found setup b c)
    (hsame : q.staging = p.staging) : st' = st ∧ q'.staging = p'.staging := by
  cases h with
  | already | absent | unusable | empty => cases h' <;> simp_all
  | missing _ hpair hentry _ _ hlost =>
    cases h' with
    | migrated =>
      obtain ⟨found, hok⟩ := hfound' rfl _ _ hpair hentry
      rw [hlost] at hok
      cases hok
    | already | absent | unusable | empty | missing => simp_all
  | migrated _ hpair hentry _ _ _ hedit =>
    cases h' with
    | missing _ hpair' hentry' _ _ hlost =>
      obtain ⟨found, hok⟩ := hfound rfl _ _ hpair' hentry'
      rw [hlost] at hok
      cases hok
    | migrated _ hpair' hentry' _ _ _ hedit' =>
      obtain rfl := Option.some.inj (hpair.symm.trans hpair')
      obtain rfl := Except.ok.inj (hentry.symm.trans hentry')
      rw [hsame] at hedit'
      exact ⟨rfl, hedit.agree hedit'⟩
    | already | absent | unusable | empty => simp_all

/-- Two drafts that tell the same of the concerns of a file and hold the same edits. -/
structure Abreast (d d' : Draft) : Prop extends Kin d d' where
  staging : d'.patch.staging = d.patch.staging

/-- One concern: the states are the same, and so are the edits. -/
theorem stageConcern_abreast {d d₁ d' d₁' : Draft} {st st' : ConcernState} (hd : Abreast d d')
    (h : runFrom (stageConcern setup t b c) d = (.ok st, d₁))
    (h' : runFrom (stageConcern setup u b c) d' = (.ok st', d₁')) : st' = st ∧ Abreast d₁ d₁' := by
  have hdecided := stageConcern_decided h
  have hdecided' := stageConcern_decided h'
  rw [hd.path] at hdecided'
  have hkept := keeps_stageConcern setup t b c d
  have hkept' := keeps_stageConcern setup u b c d'
  rw [h] at hkept
  rw [h'] at hkept'
  obtain ⟨hst, hstaging⟩ := hdecided.agree hdecided' (fun hst => stageConcern_found (hst ▸ h))
    (fun hst => stageConcern_found (hst ▸ h')) hd.staging
  exact ⟨hst, hd.toKin.kept hkept hkept', hstaging⟩

/-- **All concerns**, where neither run fails. -/
theorem stageConcerns_abreast {cs : List Concern} {d d₁ d' d₁' : Draft} (hd : Abreast d d')
    (h : runFrom (stageConcerns setup t b cs) d = (.ok (), d₁))
    (h' : runFrom (stageConcerns setup u b cs) d' = (.ok (), d₁')) : Abreast d₁ d₁' := by
  induction cs generalizing d d' with
  | nil =>
    cases h
    cases h'
    exact hd
  | cons c cs ih =>
    obtain ⟨st, d₂, hc, h⟩ := run_bind_ok h
    obtain ⟨st', d₂', hc', h'⟩ := run_bind_ok h'
    obtain ⟨v, d₃, hnote, hrest⟩ := run_bind_ok h
    obtain ⟨v', d₃', hnote', hrest'⟩ := run_bind_ok h'
    cases hnote
    cases hnote'
    obtain ⟨rfl, hboth⟩ := stageConcern_abreast hd hc hc'
    refine ih ?_ hrest hrest'
    exact ⟨⟨hboth.path, by simp [hboth.concerns], hboth.created⟩, hboth.staging⟩

end

/-- **Rewriting does not look at the targets.** Let two trees hold the same bytes at the path of a
component, whatever stands in either at the paths of its targets or anywhere else, and let the
component end up committed in both. Then it is rewritten to the same bytes, and its concerns have the
same states. In each tree, every target of a concern moved was free and holds its literal now, or was
occupied, by a file, a directory or a link, and is as it was unless it is the component itself. The
extensions have no slash, and neither has the name of a path that was read from a text
(`Target.slash_notMem_name`). -/
theorem processUnit_oblivious {setup : Setup} {path : Path}
    (htemplate : '/' ∉ setup.settings.templateExtension.toList)
    (hstyle : '/' ∉ setup.settings.styleExtension.toList) (hname : Path.slash ∉ path.name)
    {t u t' u' : FileTree} (hsame : u.read path = t.read path) {o o' : Outcome}
    (ht : processUnit setup t path = (o, t')) (hu : processUnit setup u path = (o', u'))
    (hstate : o.state = .committed) (hstate' : o'.state = .committed) :
    (∃ rewritten, t'.read path = .ok rewritten ∧ u'.read path = .ok rewritten) ∧
    o'.concerns = o.concerns ∧
    ∃ source b, readBlock setup t path = .ok (source, some b) ∧
      readBlock setup u path = .ok (source, some b) ∧
      (∃ own, Settled setup.settings path b o.migrated t t' own) ∧
      ∃ own, Settled setup.settings path b o'.migrated u u' own := by
  obtain ⟨source, b, d, r, hcommits, rfl⟩ := commits_of_state ht hstate
  obtain ⟨source', b', d', r', hcommits', rfl⟩ := commits_of_state hu hstate'
  have hread' : readBlock setup u path = .ok (source, some b) := by
    rw [readBlock, hsame, ← readBlock, hcommits.read]
  obtain ⟨rfl, rfl⟩ : source = source' ∧ b = b' := by
    simpa [hread'] using hcommits'.read
  have hboth := stageConcerns_abreast ⟨⟨rfl, rfl, rfl⟩, rfl⟩ hcommits.staged hcommits'.staged
  have hrender : d'.patch.render = d.patch.render := by
    rw [Patch.render, Patch.render, hboth.staging]
  have hback' := hcommits'.read_back
  rw [hrender] at hback'
  exact ⟨⟨_, hcommits.read_back, hback'⟩, hboth.concerns, source, b, hcommits.read, hread',
    hcommits.settled htemplate hstyle hname, hcommits'.settled htemplate hstyle hname⟩

/-! ### A free target, and one behind a dangling link -/

namespace Sample

open Commit Disk Splice.Sample

/-- The component, with a link that leads nowhere where its target is to be. -/
def dangling : FileTree := files.extend [(["w", "x.component.html"], .link "nowhere")]

theorem dangling_path (follow : Bool) : dangling.resolve follow path
    = .ok (.present ["w", "x.component.ts"] (.file inlined 0o600)) := by
  rw [resolve, if_neg (by decide)]
  exact (@Leads.ending dangling follow maxLinks ["w"] "x.component.ts" (by decide) (by decide)
    (by decide)).eq

theorem dangling_read : dangling.read path = files.read path := by
  rw [FileTree.read, FileTree.read, dangling_path, resolve_path]

theorem dangling_target : dangling.resolve false target.path
    = .ok (.present ["w", "x.component.html"] (.link "nowhere")) := by
  rw [resolve, if_neg (by decide)]
  exact (@Leads.link dangling false maxLinks ["w"] "x.component.html" "nowhere" (by decide)
    (by decide) (by decide) rfl).eq

theorem vacant_dangling : dangling.pathExists target.path = .ok false := by
  have hnowhere : dangling.resolve true target.path = .ok (.absent ["w", "nowhere"]) := by
    rw [resolve, if_neg (by decide)]
    exact (@Leads.through dangling true 39 ["w"] "x.component.html" [] "nowhere" _ (by decide)
      (by decide) (by decide) rfl (@Leads.ending dangling true 39 ["w"] "nowhere" (by decide)
        (by decide) (by decide))).eq
  rw [pathExists, status, fault?_target, hnowhere]
  rfl

theorem processUnit_dangling : ∃ o u', processUnit setup dangling path = (o, u') ∧
    o.state = .committed := by
  obtain ⟨d, hrun, -, hfiles, hedits⟩ := stageConcerns_component vacant_dangling
  have hheld := stageConcerns_held setup dangling (block reads) Concern.all (opening path inlined)
  rw [hrun] at hheld
  have hpath : d.patch.path = path := hheld.patch
  -- the file is passed over when it would be made
  have hthere : createNew target.path dangling = .error (.errno .fileExists target.path.text) := by
    rw [createNew, fault?_target, dangling_target]
  have hland : (landFiles {} d.patch.files {}).Does dangling
      (.ok (({ existing := [target.path] } : Result), none)) dangling := by
    rw [hfiles]
    exact landFiles_cons (writeNew_kept hthere rfl) landFiles_nil
  obtain ⟨⟨temp, t₁⟩, htemp⟩ := @createTemp_path dangling (by decide) (by decide) rfl
  obtain ⟨loc, n, -, -, hdoes⟩ := @replaceSource_moved {} path dangling t₁ temp _ _ _
    (dangling_path true) htemp d.patch.render rfl
  have hcommit : (d.patch.commit {}).Does dangling (.ok { existing := [target.path] })
      (dangling.set loc (.file d.patch.render 0o600)) := by
    unfold Patch.commit
    refine hland.bind ?_
    simp only [List.isEmpty_eq_false_iff.2 hedits, Bool.false_eq_true, ↓reduceIte, hpath]
    exact (orElseUndo_ok hdoes).bind (does_pure _)
  have hread : readBlock setup dangling path = .ok (inlined, some (block reads)) := by
    rw [readBlock, dangling_read, ← readBlock, readBlock_files]
  have hunit : processUnit setup dangling path = close setup dangling (.ok (), d) := by
    rw [processUnit, hread]
    exact (processBlock_eq ..).trans (by rw [hrun])
  rw [close, List.isEmpty_eq_false_iff.2 hedits, show setup.outages.commit = {} from rfl,
    hcommit.runOn] at hunit
  exact ⟨_, _, hunit, rfl⟩

theorem template_moved {o : Outcome}
    (h : o.concerns = [(.template, .migrated), (.styles, .noLiteral)]) : .template ∈ o.migrated := by
  rw [Outcome.migrated, List.mem_filter]
  refine ⟨by decide, ?_⟩
  rw [Outcome.concern?, h]
  decide

end Sample

open Sample in
/-- The component with its target free, and with a link there that leads nowhere. It is rewritten to
the same bytes; the free target is made, and the link is kept. -/
theorem processUnit_oblivious_dangling : ∃ o t' o' u' rewritten,
    processUnit setup files path = (o, t') ∧ processUnit setup dangling path = (o', u') ∧
    o.state = .committed ∧ o'.state = .committed ∧ o'.concerns = o.concerns ∧
    t'.read path = .ok rewritten ∧ u'.read path = .ok rewritten ∧
    t'.resolve false target.path
      = .ok (.present ["w", "x.component.html"] (.file (Bytes.ofString "t") defaultMode)) ∧
    u'.resolve false target.path = .ok (.present ["w", "x.component.html"] (.link "nowhere")) := by
  obtain ⟨o, t', ht, hstate, hconcerns⟩ := processUnit_component
  obtain ⟨o', u', hu, hstate'⟩ := processUnit_dangling
  obtain ⟨⟨rewritten, hread, hread'⟩, hsame, source, b, hblock, -, ⟨own, hsettled⟩, own', hsettled'⟩ :=
    @processUnit_oblivious setup path (by decide) (by decide) (by decide) _ _ _ _ dangling_read _ _ ht
      hu hstate hstate'
  obtain ⟨rfl, rfl⟩ : inlined = source ∧ Splice.Sample.block reads = b := by
    simpa [readBlock_files] using hblock
  have htarget : target ∈ targets setup.settings path (Splice.Sample.block reads) .template := by
    decide
  refine ⟨o, t', o', u', rewritten, ht, hu, hstate, hstate', hsame, hread, hread', ?_, ?_⟩
  · cases hsettled.targets .template (template_moved hconcerns) target htarget with
    | kept hthere =>
      rw [resolve_target] at hthere
      cases hthere
    | made hfree htext hcontent hthere =>
      rw [resolve_target] at hfree
      cases hfree
      rw [hthere, List.mem_singleton.1 htext]
  · cases hsettled'.targets .template (template_moved (hsame.trans hconcerns)) target htarget with
    | kept hthere hstill =>
      rw [dangling_target] at hthere
      cases hthere
      refine hstill ?_
      rintro rfl
      obtain ⟨n, hplace⟩ := hsettled'.place
      rw [dangling_path] at hplace
      exact absurd (Place.present.inj (Except.ok.inj hplace)).1 (by decide)
    | made hfree =>
      rw [dangling_target] at hfree
      cases hfree

end Migration

end AssetLift
