import AssetLift.Proofs.ReadBack
import AssetLift.Proofs.TornWrite
import AssetLift.Proofs.Twins

/-!
# What a committed file leaves at its targets

A target is free when nothing stands at its path, not even a link that leads nowhere; else it is
occupied. Once a file is committed, every target that was free holds its literal, and every target
that was occupied is as it was, unless the target is the file itself. It does not matter by which
step an occupied target is passed over: when the file is staged, because its path leads to something,
or when it is made, because a link stands there that leads nowhere.

* `Target.Slot.free_inj`: with any extensions that are parts of names, two free targets of a
  component that would stand at one place have one path.
* `Commit.Landed.filled`: so each of them is made, with its own content.
* `Commit.committed_of_ok`: a commit that succeeds has made its files, whatever the device can do.
* `Migration.unrepeated_steps`: no two staged files have one path.
* `Migration.Commits.settled`: what has become of every target of a file that was committed.
* `Migration.encodable_of_committed`: no file is committed whose targets cannot be referred to.
-/

namespace AssetLift

namespace FileTree

/-! ## Paths that go up, and paths that exist -/

/-- A path that goes up at its end leads to a directory. -/
theorem Leads.climbs {t : FileTree} {follow : Bool} {links : Nat} {dir : Location}
    {names : List Bytes} {place : Place}
    (h : Leads t follow links dir (names ++ [upName]) (.ok place)) :
    ∃ d, place = .present d .directory := by
  obtain ⟨more, d, -, hlast⟩ := h.split (by simp)
  cases hlast with
  | up hrest =>
    cases hrest
    exact ⟨_, rfl⟩
  | ending hup | into hup | link hup | through hup => exact absurd rfl hup

/-- Where something is said to exist, the path leads to it, or to a link that leads to it. -/
theorem resolve_of_pathExists {t : FileTree} {p : Path} (h : t.pathExists p = .ok true) :
    ∃ loc n, t.resolve false p = .ok (.present loc n) := by
  unfold pathExists status at h
  split at h
  · cases h
  · split at h
    · rename_i loc n hr
      rcases resolve_stay hr with hr | ⟨k, target, hr⟩
      · exact ⟨loc, n, hr⟩
      · exact ⟨k, _, hr⟩
    · cases h
    · cases h
    · cases h

end FileTree

namespace Target

open FileTree

/-! ## Free targets -/

/-- A name without a slash is next to a path under that name, unless it is no name at all. -/
theorem beside_cases (component : Path) {name : Text} (hslash : Path.slash ∉ name) :
    beside component name = component.parent ∨
      beside component name = ⟨component.anchor, component.parts.dropLast ++ [name]⟩ := by
  have hdropped : ∀ text : Text, Path.Anchor.ofText text = .workDir → Path.names text = [] →
      beside component text = component.parent := by
    intro text hanchor hnames
    rw [beside, Path.join, Path.ofText, hanchor, hnames]
    simp
  by_cases hempty : name = []
  · subst hempty
    exact .inl (hdropped [] rfl rfl)
  · by_cases hdot : name = [Path.dot]
    · subst hdot
      exact .inl (hdropped [Path.dot] (by decide) (by decide))
    · exact .inr (beside_eq component hslash hempty hdot)

/-- The bytes of a slot's name tell the name, once the component is known. -/
theorem Slot.nameIn_inj {s : Settings} {component : Path} {slot slot' : Slot}
    (h : FileName.bytes (slot.nameIn s component) = FileName.bytes (slot'.nameIn s component)) :
    slot.nameIn s component = slot'.nameIn s component := by
  simp only [nameIn, List.append_assoc, ← CodePoint.ofString_append] at h ⊢
  rw [FileName.bytes_append, FileName.bytes_append, List.append_cancel_left_eq,
    FileName.bytes_ofString, FileName.bytes_ofString] at h
  rw [FileName.ofString_injective h]

section
variable {s : Settings} {component : Path} {t : FileTree} {l loc : Location} {c : Bytes} {m : Nat}
  (hread : t.resolve true component = .ok (.present l (.file c m)))
include hread

/-- **A free target stands under its last name**, in the directory of its component. -/
theorem Slot.free_beside {slot : Slot} (hslash : Path.slash ∉ slot.nameIn s component)
    (hfree : t.resolve false (slot.path s component) = .ok (.absent loc)) :
    (∃ d, loc = d ++ [FileName.bytes (slot.nameIn s component)]) ∧ slot.path s component
      = ⟨component.anchor, component.parts.dropLast ++ [slot.nameIn s component]⟩ := by
  have hleads := leads_of_resolve hfree (length_of_resolve hfree)
  rw [path_eq_beside] at hfree hleads ⊢
  rcases beside_cases component hslash with hpath | hpath
  · -- the component is in that directory, so something stands there
    have hcomponent := leads_of_resolve hread (length_of_resolve hread)
    have hstays := hleads.follow fun _ _ h => by cases h
    rw [hpath] at hstays
    rcases List.eq_nil_or_concat component.parts with hparts | ⟨names, last, hparts⟩
    · rw [hparts] at hcomponent
      cases hcomponent
    · rw [hparts, List.concat_eq_append, List.map_append, List.map_singleton] at hcomponent
      obtain ⟨more, d, hd, -⟩ := hcomponent.split (by simp)
      rw [Path.parent, hparts, List.concat_eq_append, List.dropLast_concat] at hstays
      have hboth := hstays.eq.symm.trans hd.eq
      cases hboth
  · rw [hpath] at hfree hleads ⊢
    have hup : FileName.bytes (slot.nameIn s component) ≠ upName := by
      intro hup
      rw [List.map_append, List.map_singleton, hup] at hleads
      obtain ⟨d, hd⟩ := hleads.climbs
      cases hd
    obtain ⟨d, hd⟩ := resolve_seated rfl hup hfree
    refine ⟨⟨d, ?_⟩, rfl⟩
    rw [seat] at hd
    split at hd
    · cases hd
    · cases hd
      rfl

/-- **Two free targets at one place have one path.** -/
theorem Slot.free_inj {slot slot' : Slot} (hslash : Path.slash ∉ slot.nameIn s component)
    (hslash' : Path.slash ∉ slot'.nameIn s component)
    (hfree : t.resolve false (slot.path s component) = .ok (.absent loc))
    (hfree' : t.resolve false (slot'.path s component) = .ok (.absent loc)) :
    slot.path s component = slot'.path s component := by
  obtain ⟨⟨d, hloc⟩, hpath⟩ := free_beside hread hslash hfree
  obtain ⟨⟨d', hloc'⟩, hpath'⟩ := free_beside hread hslash' hfree'
  have hname := nameIn_inj (List.append_singleton_inj.1 (hloc.symm.trans hloc')).2
  rw [hpath, hpath', hname]

end

end Target

namespace Commit

open Disk FileTree

/-! ## Commits that succeed -/

section
variable {base : FileTree} {seen : List PlannedFile} {done : Result}
  {new : List (Location × FileNode)}

/-- A planned file that was tried has a path that leads to a place, free or not. -/
theorem Landed.resolves (h : Landed base seen done new) :
    ∀ f ∈ seen, ∃ place, base.resolve false f.path = .ok place := by
  induction h with
  | nil => simp
  | made h hfree _ ih =>
    refine List.forall_mem_append.2 ⟨ih, List.forall_mem_singleton.2 ⟨_, h.free hfree⟩⟩
  | kept h hthere ih =>
    refine List.forall_mem_append.2 ⟨ih, List.forall_mem_singleton.2 ?_⟩
    exact ⟨_, resolve_frame (sameFrame_extend h.fresh).symm hthere⟩

/-- **A file planned for a free place is made there**, with its content, if no other one is planned
for the place. -/
theorem Landed.filled (h : Landed base seen done new)
    (honce : seen.Pairwise fun f g => ∀ loc, base.resolve false f.path = .ok (.absent loc) →
      base.resolve false g.path ≠ .ok (.absent loc)) {f : PlannedFile} (hf : f ∈ seen)
    {loc : Location} (hfree : base.resolve false f.path = .ok (.absent loc)) :
    ∃ bytes, Utf8.encode f.content = .ok bytes ∧ (loc, .file bytes defaultMode) ∈ new := by
  induction h with
  | nil => simp at hf
  | @made seen done new g place bytes h hgone hbytes ih =>
    obtain ⟨hseen, -, -⟩ := List.pairwise_append.1 honce
    rcases List.mem_append.1 hf with hf | hf
    · obtain ⟨bytes', hbytes', hmem⟩ := ih hseen hf
      exact ⟨bytes', hbytes', List.mem_append_left _ hmem⟩
    · obtain rfl := List.mem_singleton.1 hf
      have hplace := h.free hgone
      rw [hfree] at hplace
      cases hplace
      exact ⟨bytes, hbytes, by simp⟩
  | @kept seen done new g place n h hthere ih =>
    obtain ⟨hseen, -, hapart⟩ := List.pairwise_append.1 honce
    rcases List.mem_append.1 hf with hf | hf
    · exact ih hseen hf
    · obtain rfl := List.mem_singleton.1 hf
      -- what stands there now was made for an earlier one
      rw [resolve_frame (sameFrame_extend h.fresh) hfree, Place.reseat, seat] at hthere
      cases hfind : (base.extend new).find? loc with
      | none => rw [hfind] at hthere; cases hthere
      | some n' =>
        obtain ⟨g, hg, hfree'⟩ := h.maker (find?_of_absent hfree) hfind
        exact absurd hfree (hapart g hg f List.mem_cons_self loc hfree')

end

/-- **A commit that succeeds** has made its files in turn and replaced its source, whatever the device
can do. -/
theorem committed_of_ok {outage : Outage} {p : Patch} {t t' : FileTree} {l : Location} {old : Bytes}
    {mode : Nat} (hread : t.resolve true p.path = .ok (.present l (.file old mode))) {r : Result}
    (hrun : (p.commit outage).runOn t = (.ok r, t')) : Committed outage p t (.ok r) t' := by
  obtain ⟨done, failed, t₁, hfiles, hend⟩ := @Landed.goesOn outage t [] {} [] p.files .nil
  rw [extend_nil] at hfiles hend
  cases failed with
  | none =>
    obtain ⟨new, hland, rfl, -⟩ := hend rfl
    obtain ⟨r', t₂, hdoes, hcommitted⟩ := does_commit_landed hread hland hfiles
    obtain ⟨rfl, rfl⟩ := hdoes.unique hrun
    exact hcommitted
  | some e =>
    -- what was made is taken away, and the fault is thrown
    obtain ⟨past, hpast⟩ := hfiles []
    have hresult : (runFrom (p.commit outage) ⟨t, []⟩).1 = .ok r := congrArg (·.1) hrun
    obtain ⟨j, hj⟩ : ∃ j, runFrom (p.commit outage) ⟨t, []⟩ = (.ok r, j) := ⟨_, Prod.ext hresult rfl⟩
    obtain ⟨made, j₁, hmade, hrest⟩ := run_bind_ok hj
    rw [hpast] at hmade
    cases hmade
    obtain ⟨u, j₂, -, hthrow⟩ := run_bind_ok hrest
    cases hthrow

end Commit

namespace Migration

open FileTree Target

/-! ## Files staged for a file -/

/-- No two staged files have one path. -/
def Unrepeated (d : Draft) : Prop := (d.patch.files.map (·.path)).Nodup

theorem unrepeated_steps : Steps fun d d' => Unrepeated d → Unrepeated d' where
  refl _ h := h
  trans h h' hd := h' (h hd)
  told _ h := h
  existing _ _ h := h
  filed {d f p} hp hd := by
    have hpatch := stageFile_patch hp
    unfold Patch.stageFile at hp
    split at hp
    · cases hp
    rename_i hnew
    rw [List.any_eq_true] at hnew
    rw [Unrepeated, hpatch, List.map_append, List.map_singleton]
    refine List.nodup_append.2 ⟨hd, List.nodup_singleton _, fun q hq q' hq' => ?_⟩
    obtain ⟨g, hg, rfl⟩ := List.mem_map.1 hq
    rw [List.mem_singleton.1 hq']
    exact fun heq => hnew ⟨g, hg, decide_eq_true heq⟩
  edited hp hd := by
    obtain ⟨staging, -, rfl⟩ := stage_patch hp
    exact hd

theorem StagedFiles.append {t : FileTree} {files files' staged staged' : List PlannedFile}
    (h : StagedFiles t files staged) (h' : StagedFiles t files' staged') :
    StagedFiles t (files ++ files') (staged ++ staged') where
  sublist := h.sublist.append h'.sublist
  free := List.forall_mem_append.2 ⟨h.free, h'.free⟩
  others := List.forall_mem_append.2
    ⟨fun f hf => (h.others f hf).imp (List.mem_append_left _) id,
      fun f hf => (h'.others f hf).imp (List.mem_append_right _) id⟩

/-- The files planned for concerns. -/
def plannedFor (s : Settings) (path : Path) (b : Block) (cs : List Concern) : List PlannedFile :=
  cs.flatMap (targets s path b)

section
variable {setup : Setup} {t : FileTree} {b : Block} {path : Path}

theorem Decided.files {c : Concern} {p p' : Patch} {st : ConcernState}
    (h : Decided setup t b path c p st p') : ∃ staged, p'.files = p.files ++ staged ∧
      StagedFiles t (plannedFor setup.settings path b (migratedIn [(c, st)])) staged := by
  cases h with
  | already | absent | unusable | empty | missing =>
    exact ⟨[], by simp, ⟨by simp [migratedIn, plannedFor], by simp, by simp [migratedIn, plannedFor]⟩⟩
  | @migrated pr e staged _ _ hpair hentry _ _ hfiles =>
    have htexts : literals b c = e.value.texts := by
      simp only [literals, hpair, (Entry.ofProperty_eq hentry).1]
    exact ⟨staged, rfl, by simpa [migratedIn, plannedFor, targets, htexts] using hfiles⟩

/-- **The files staged are those planned** for the concerns moved, less those whose paths lead to
something. -/
theorem Decisions.files {cs : List Concern} {p p' : Patch} {log : List (Concern × ConcernState)}
    (h : Decisions setup t b path cs p log p') : ∃ staged, p'.files = p.files ++ staged ∧
      StagedFiles t (plannedFor setup.settings path b (migratedIn log)) staged := by
  induction h with
  | nil => exact ⟨[], by simp, ⟨.slnil, by simp, by simp [migratedIn, plannedFor]⟩⟩
  | @cons c cs p st p' log p'' hc _ ih =>
    obtain ⟨staged, hfiles, hstaged⟩ := hc.files
    obtain ⟨staged', hfiles', hstaged'⟩ := ih
    have hmoved : migratedIn ((c, st) :: log) = migratedIn [(c, st)] ++ migratedIn log := by
      rw [migratedIn, migratedIn, migratedIn, ← List.map_append, ← List.filter_append]
      rfl
    refine ⟨staged ++ staged', by rw [hfiles', hfiles, List.append_assoc], ?_⟩
    rw [hmoved, plannedFor, List.flatMap_append]
    exact hstaged.append hstaged'

end

/-- Every planned file has the path of a slot. -/
theorem slot_of_planned {s : Settings} {path : Path} {b : Block} {cs : List Concern} {f : PlannedFile}
    (h : f ∈ plannedFor s path b cs) : ∃ slot : Slot, f.path = slot.path s path := by
  obtain ⟨c, -, hf⟩ := List.mem_flatMap.1 h
  obtain ⟨slots, -, -, hslots⟩ := planned_slots s path (literals b c) c
  obtain ⟨slot, -, hpath⟩ := exists_right_of_forall₂ hslots hf
  exact ⟨slot, hpath⟩

/-! ## A file that was committed -/

/-- What a target has become, where `own` is the place of the component. -/
inductive Met (b : Block) (c : Concern) (own : Location) (t t' : FileTree) (f : PlannedFile) : Prop
  /-- It was occupied, and what stood there stands there still. -/
  | kept {loc n} (hthere : t.resolve false f.path = .ok (.present loc n))
      (hstill : loc ≠ own → t'.resolve false f.path = .ok (.present loc n))
  /-- It was free, and its literal is there now. -/
  | made {loc text} (hfree : t.resolve false f.path = .ok (.absent loc)) (htext : text ∈ literals b c)
      (hcontent : f.content = CodePoint.ofString text)
      (hthere : t'.resolve false f.path
        = .ok (.present loc (.file (Bytes.ofString text) defaultMode)))

/-- What a file that was committed leaves around it, where `cs` are the concerns moved. -/
structure Settled (s : Settings) (path : Path) (b : Block) (cs : List Concern) (t t' : FileTree)
    (own : Location) : Prop where
  place : ∃ n, t.resolve false path = .ok (.present own n)
  /-- Whatever stood anywhere else stands there still. -/
  others : ∀ loc n, loc ≠ own → t.find? loc = some n → t'.find? loc = some n
  targets : ∀ c ∈ cs, ∀ f ∈ targets s path b c, Met b c own t t' f

/-- A file with the block `b` is committed: its concerns leave the draft `d`, and the commit of the
patch tells `r`. -/
structure Commits (setup : Setup) (t : FileTree) (path : Path) (source : Bytes) (b : Block) (d : Draft)
    (r : Commit.Result) (t' : FileTree) : Prop where
  read : readBlock setup t path = .ok (source, some b)
  staged : runFrom (stageConcerns setup t b Concern.all) (opening path source) = (.ok (), d)
  edits : d.patch.staging.edits.isEmpty = false
  commit : (d.patch.commit setup.outages.commit).runOn t = (.ok r, t')

/-- A file ends up committed in this way only. -/
theorem commits_of_state {setup : Setup} {t t' : FileTree} {path : Path} {o : Outcome}
    (hrun : processUnit setup t path = (o, t')) (hstate : o.state = .committed) :
    ∃ source b d r, Commits setup t path source b d r t' ∧ o = committed d.outcome r := by
  unfold processUnit at hrun
  split at hrun
  · cases hrun
    cases hstate
  · cases hrun
    cases hstate
  rename_i source b hread
  rw [processBlock_eq] at hrun
  rcases hstaged : runFrom (stageConcerns setup t b Concern.all) (opening path source) with ⟨f | u, d⟩
  · rw [hstaged] at hrun
    cases hrun
    cases hstate
  rw [hstaged, close] at hrun
  split at hrun
  · cases hrun
    exact absurd hstate (idleState_ne_committed _)
  rename_i hedits
  split at hrun
  · rename_i r t₁ hcommit
    cases hrun
    exact ⟨source, b, d, r, ⟨hread, hstaged, by simpa using hedits, hcommit⟩, rfl⟩
  · cases hrun
    cases hstate

namespace Commits

variable {setup : Setup} {t t' : FileTree} {path : Path} {source : Bytes} {b : Block} {d : Draft}
  {r : Commit.Result} (h : Commits setup t path source b d r t')
include h

theorem decided :
    Decisions setup t b path Concern.all (.ofSource path source) d.outcome.concerns d.patch := by
  obtain ⟨log, hlog, hdecided⟩ := stageConcerns_decided h.staged
  obtain rfl : d.outcome.concerns = log := hlog
  exact hdecided

theorem path_eq : d.patch.path = path := by
  have hheld := stageConcerns_held setup t b Concern.all (opening path source)
  rw [h.staged] at hheld
  exact hheld.patch

/-- The files are made and the source is replaced. -/
theorem replaced : ∃ new own n l mode, Commit.Landed t d.patch.files r new ∧
    t.resolve false path = .ok (.present own n) ∧ n ≠ .directory ∧
    t.resolve true path = .ok (.present l (.file source mode)) ∧
    t' = (t.set own (.file d.patch.render mode)).extend new := by
  obtain ⟨l, mode, hl⟩ := leads_of_read (readBlock_eq_ok.1 h.read).1
  have hpath := h.path_eq
  cases Commit.committed_of_ok (hpath.symm ▸ hl) h.commit with
  | landed _ hnone =>
    rw [h.edits] at hnone
    cases hnone
  | @replaced _ new own n l' old mode' hland _ hplace _ hfile hread =>
    rw [hpath] at hplace hread
    rw [hl] at hread
    cases hread
    exact ⟨new, own, n, l, mode, hland, hplace, hfile, hl, rfl⟩

/-- **The new source** is read from the path of the file. -/
theorem read_back : t'.read path = .ok d.patch.render := by
  obtain ⟨new, own, n, l, mode, hland, hplace, hfile, hl, rfl⟩ := h.replaced
  exact read_replaced (readBlock_eq_ok.1 h.read).1 hl hplace hfile hland.fresh _ _

theorem stagedFiles :
    StagedFiles t (plannedFor setup.settings path b d.outcome.migrated) d.patch.files := by
  obtain ⟨staged, hfiles, hstaged⟩ := h.decided.files
  obtain rfl : d.patch.files = staged := by simpa [Patch.ofSource] using hfiles
  rwa [h.decided.migrated] at hstaged

/-- No two staged files have one path. -/
theorem unrepeated : Unrepeated d := by
  have hkeeps := unrepeated_steps.along_stageConcerns (fun _ _ _ hd => hd) setup t b Concern.all
    (opening path source)
  rw [h.staged] at hkeeps
  exact hkeeps List.nodup_nil

section
variable (htemplate : '/' ∉ setup.settings.templateExtension.toList)
  (hstyle : '/' ∉ setup.settings.styleExtension.toList) (hname : Path.slash ∉ path.name)
include htemplate hstyle hname

/-- No two staged files are for one free place. -/
theorem once : d.patch.files.Pairwise fun f g => ∀ loc,
    t.resolve false f.path = .ok (.absent loc) → t.resolve false g.path ≠ .ok (.absent loc) := by
  obtain ⟨new, own, n, l, mode, -, -, -, hl, -⟩ := h.replaced
  have hslot : ∀ f ∈ d.patch.files, ∃ slot : Slot, f.path = slot.path setup.settings path ∧
      Path.slash ∉ slot.nameIn setup.settings path := by
    intro f hf
    obtain ⟨slot, hpath⟩ := slot_of_planned (h.stagedFiles.sublist.subset hf)
    refine ⟨slot, hpath, Slot.slash_notMem_nameIn hname ?_⟩
    cases slot with
    | template => exact htemplate
    | style => exact hstyle
  refine (List.pairwise_map.1 h.unrepeated).imp_of_mem fun {f g} hf hg hne loc hfree hfree' => ?_
  obtain ⟨slot, hpath, hslash⟩ := hslot f hf
  obtain ⟨slot', hpath', hslash'⟩ := hslot g hg
  rw [hpath] at hfree
  rw [hpath'] at hfree'
  apply hne
  rw [hpath, hpath']
  exact Slot.free_inj hl hslash hslash' hfree hfree'

/-- **What a committed file leaves at its targets and around them.** -/
theorem settled : ∃ own, Settled setup.settings path b d.outcome.migrated t t' own := by
  have honce := h.once htemplate hstyle hname
  have hstaged := h.stagedFiles
  obtain ⟨new, own, n, l, mode, hland, hplace, hfile, hl, rfl⟩ := h.replaced
  obtain ⟨hne, hfind⟩ := find?_of_stands hplace hfile
  have hfresh := hland.fresh
  -- first the files are made, then the source is replaced
  rw [← set_extend hfresh (by rw [hfind]; simp)]
  have hset := find?_set (.file d.patch.render mode) hne (hfresh.find?_old hfind)
  have hkeep : ∀ {k m}, k ≠ own → (t.extend new).find? k = some m →
      ((t.extend new).set own (.file d.patch.render mode)).find? k = some m := fun hk hm => by
    rw [hset, if_neg hk, hm]
  have hbeyond : ∀ {q k m}, (t.extend new).resolve false q = .ok (.present k m) → k ≠ own →
      ((t.extend new).set own (.file d.patch.render mode)).resolve false q = .ok (.present k m) := by
    intro q k m hq hk
    refine resolve_beyond (hfresh.resolve_old hl) (hfresh.resolve_old hplace) hfile ?_ hkeep hq hk
    rfl
  refine ⟨own, ⟨n, hplace⟩, fun loc m hloc hm => hkeep hloc (hfresh.find?_old hm), fun c hc f hf => ?_⟩
  rcases hstaged.others f (List.mem_flatMap.2 ⟨c, hc, hf⟩) with hmem | hexists
  · obtain ⟨place, hr⟩ := hland.resolves f hmem
    cases place with
    | present k m => exact .kept hr (hbeyond (hfresh.resolve_old hr))
    | absent k =>
      obtain ⟨text, htext, hcontent⟩ := mem_planned hf
      obtain ⟨bytes, hbytes, hnew⟩ := hland.filled honce hmem hr
      rw [hcontent, Utf8.encode_ofString] at hbytes
      cases hbytes
      refine .made hr htext hcontent (hbeyond (resolve_made (sameFrame_extend hfresh) hr ?_) ?_)
      · exact hfresh.find?_new hnew
      · rintro rfl
        rw [find?_of_absent hr] at hfind
        cases hfind
  · obtain ⟨k, m, hr⟩ := resolve_of_pathExists hexists
    exact .kept hr (hbeyond (hfresh.resolve_old hr))

end

end Commits

/-! ## Names that have no bytes in a source -/

/-- The first file of a reference that can be written has a name that can be written. -/
theorem encodable_of_reference {s : Settings} (hquote : Settings.Accepted s.quote) {f : PlannedFile}
    {files : List PlannedFile} {c : Concern} (h : Utf8.Encodable (reference s (f :: files) c)) :
    Utf8.Encodable f.path.name := by
  obtain ⟨q, hs, hq⟩ := Settings.accepted_char hquote
  have hliteral : Utf8.Encodable (Target.literal s f) := by
    cases c with
    | template => exact (Utf8.encodable_append.1 h).2
    | styles =>
      have hlist := (Utf8.encodable_append.1 (Utf8.encodable_append.1 h).1).2
      rw [List.map_cons] at hlist
      cases files with
      | nil => simpa using hlist
      | cons g files =>
        rw [List.map_cons, List.intercalate_cons_cons, List.append_assoc] at hlist
        exact (Utf8.encodable_append.1 hlist).1
  rw [Target.literal, hs] at hliteral
  exact (Utf8.encodable_append.1 (Target.encodable_of_quoted (Target.quote_ne_slash hq) hliteral)).2

section
variable {setup : Setup} (hquote : Settings.Accepted setup.settings.quote)
  (htemplate : Extension setup.settings.templateExtension)
  (hstyle : Extension setup.settings.styleExtension) {text : Text}
  (hname : (Path.ofText text).name ≠ []) {t : FileTree}
include hquote htemplate hstyle hname

/-- A concern is moved only where the base name can be written. -/
theorem Decided.encodable {b : Block} {c : Concern} {p p' : Patch} {st : ConcernState}
    (h : Decided setup t b (Path.ofText text) c p st p') :
    p' = p ∨ Utf8.Encodable (baseName setup.settings (Path.ofText text)) := by
  cases h with
  | already | absent | unusable | empty | missing => exact .inl rfl
  | @migrated pr e staged s _ _ _ _ htexts _ hedit =>
    right
    obtain ⟨f, files, hplanned⟩ : ∃ f files,
        planned setup.settings (Path.ofText text) e.value.texts c = f :: files := by
      refine List.exists_cons_of_ne_nil fun hnil => htexts ?_
      cases c <;> simpa [planned, styles] using hnil
    obtain ⟨slots, -, -, hslots⟩ :=
      planned_slots setup.settings (Path.ofText text) e.value.texts c
    rw [hplanned] at hslots
    obtain ⟨slot, -, hpath, -, -⟩ := List.forall₂_cons_left_iff.1 hslots
    obtain ⟨plan, ed, -, hed, -⟩ := hedit.edit
    obtain ⟨written, hwritten, -⟩ := bind_eq_ok.1 hed
    have hreference := (Utf8.encode_eq_ok.1 (mapError_eq_ok.1 hwritten)).1
    rw [hplanned] at hreference
    have hchars := encodable_of_reference hquote hreference
    have hext : Extension (slot.extensionIn setup.settings) := by cases slot <;> assumption
    rw [hpath, slot.name_path hname hext, Slot.nameIn, List.append_assoc] at hchars
    exact (Utf8.encodable_append.1 hchars).1

theorem Decisions.encodable {b : Block} {cs : List Concern} {p p' : Patch}
    {log : List (Concern × ConcernState)} (h : Decisions setup t b (Path.ofText text) cs p log p') :
    p' = p ∨ Utf8.Encodable (baseName setup.settings (Path.ofText text)) := by
  induction h with
  | nil => exact .inl rfl
  | cons hc _ ih =>
    rcases hc.encodable hquote htemplate hstyle hname with rfl | hchars
    · exact ih
    · exact .inr hchars

/-- **A component is rewritten only under a name of characters.** A name can be bytes that are not
those of a text. A target keeps the base name, and no source can refer to a target whose name has no
bytes of its own: the edit fails, and with it the component. -/
theorem encodable_of_committed {t' : FileTree} {o : Outcome}
    (hrun : processUnit setup t (Path.ofText text) = (o, t')) (hstate : o.state = .committed) :
    Utf8.Encodable (baseName setup.settings (Path.ofText text)) := by
  obtain ⟨source, b, d, r, hcommits, rfl⟩ := commits_of_state hrun hstate
  refine (hcommits.decided.encodable hquote htemplate hstyle hname).resolve_left fun hsame => ?_
  have hedits := hcommits.edits
  rw [hsame] at hedits
  cases hedits

end

/-- A name with a byte in it that belongs to no character. -/
example : Utf8.encode (reference {} (planned {} ⟨.workDir,
      [FileName.text (Bytes.ofString "x" ++ 0xFF :: Bytes.ofString ".component.ts")]⟩ ["t"]
      .template) .template) = .error ⟨17, 1, ⟨0xDCFF, by decide⟩⟩ := by decide

end Migration

end AssetLift
