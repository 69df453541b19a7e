import AssetLift.Proofs.Twins

/-!
# Candidates do not get in each other's way

With the default settings, no target of one candidate is a target of another, and none is a candidate
(`Lodged.apart`). So what is done for a candidate does not depend on what has been done for others, and
it makes no difference in which order the candidates are worked on, or whether each is worked on alone.

* `Lodged`: a candidate below a root, with the locations of its targets.
* `Merged.step`, `Merged.visits`: one candidate more keeps the changes of the others.
* `units_independent`: the candidates in any order, against each one alone.
-/

namespace AssetLift

namespace FileTree

/-- No name holds a slash. -/
def Slashless (t : FileTree) : Prop := ∀ e ∈ t.nodes, ∀ name ∈ e.1, (0x2F : UInt8) ∉ name

instance (t : FileTree) : Decidable t.Slashless :=
  inferInstanceAs (Decidable (∀ e ∈ t.nodes, ∀ name ∈ e.1, (0x2F : UInt8) ∉ name))

theorem Slashless.name {t : FileTree} (h : t.Slashless) {loc : Location} {n : FileNode}
    (hne : loc ≠ []) (hfind : t.find? loc = some n) {name : Bytes} (hname : name ∈ loc) :
    (0x2F : UInt8) ∉ name := by
  rw [find?, if_neg hne] at hfind
  exact h _ (mem_of_lookup hfind) name hname

/-- The changes that some trees make to a first one, all of them in one tree. No two of the trees
change the same location. -/
structure Merges (t : FileTree) (others : List FileTree) (t' : FileTree) : Prop where
  workDir : t'.workDir = t.workDir
  apart : others.Pairwise fun u v => ∀ loc, u.find? loc = t.find? loc ∨ v.find? loc = t.find? loc
  changed : ∀ u ∈ others, ∀ loc, u.find? loc ≠ t.find? loc → t'.find? loc = u.find? loc
  kept : ∀ loc, (∀ u ∈ others, u.find? loc = t.find? loc) → t'.find? loc = t.find? loc
  nodup : (t.nodes.map (·.1)).Nodup → (t'.nodes.map (·.1)).Nodup

/-- A file that two trees agree on is read alike. -/
theorem read_alike {base : FileTree} {own : Location → Prop} {t u : FileTree}
    (h : Alike base own t u) {p : Path} {loc : Location} (hplain : Discovery.Plain base p loc)
    (hloc : own loc) : (u.read p).toOption = (t.read p).toOption := by
  unfold read
  rcases resolve_alike h hplain hloc with ⟨e, e', ht, hu⟩ | ⟨-, hu⟩
  · rw [ht, hu]
    split <;> rfl
  · rw [hu]

end FileTree

namespace Migration

open Discovery FileTree Target

/-! ## Where the targets of candidates are -/

/-- The location of a path below a root, where the root leads to `top`. -/
def locate (root : Path) (top : Location) (p : Path) : Location :=
  top ++ (p.parts.drop root.parts.length).map FileName.bytes

/-- The path goes on from a root, by names that can stand in a directory. -/
def Under (root p : Path) : Prop :=
  ∃ names : List Bytes, p = { root with parts := root.parts ++ names.map FileName.text }

theorem locate_under (root : Path) (top : Location) (names : List Bytes) :
    locate root top { root with parts := root.parts ++ names.map FileName.text }
      = top ++ names := by
  rw [locate, List.drop_left, FileName.map_bytes_text]

theorem locate_inj {root : Path} {top : Location} {p q : Path} (hp : Under root p)
    (hq : Under root q) (h : locate root top p = locate root top q) : p = q := by
  obtain ⟨names, rfl⟩ := hp
  obtain ⟨names', rfl⟩ := hq
  rw [locate_under, locate_under, List.append_cancel_left_eq] at h
  rw [h]

/-- A component below a root, that stands where its path says. So do its targets. -/
structure Lodged (t : FileTree) (root : Path) (top : Location) (p : Path) : Prop where
  under : Under root p
  named : ∃ (dir : List Bytes) (stem : Bytes),
    Target.Component p (root.parts ++ dir.map FileName.text) (FileName.text stem)
  plain : Plain t p (locate root top p)
  aims : ∀ k : Slot, Commit.Aims t (· = locate root top (k.path {} p)) (k.path {} p)

/-- A stem of bytes with what follows it in the name for a slot. -/
theorem text_ending (stem : Bytes) (k : Slot) : FileName.text (stem ++ Bytes.ofString k.ending)
    = FileName.text stem ++ CodePoint.ofString k.ending :=
  FileName.text_append_ofString stem (c := '.') (by simp [Slot.ending]; rfl) (by decide)

theorem component_of_endsIn {root : Path} {dir : List Bytes} {name : Bytes}
    (hsuffix : endsIn ".component.ts" (FileName.text name) = true)
    (hslash : (0x2F : UInt8) ∉ name) :
    ∃ stem, Target.Component
      { root with parts := root.parts ++ (dir ++ [name]).map FileName.text }
      (root.parts ++ dir.map FileName.text) (FileName.text stem) := by
  obtain ⟨start, hstart⟩ := List.isSuffixOf_iff_suffix.1 hsuffix
  obtain ⟨stem, suffix, rfl, rfl, -⟩ := FileName.text_split hstart.symm
  refine ⟨stem, ⟨by rw [hstart, List.map_append, List.append_assoc]; rfl, fun hmem => hslash ?_⟩⟩
  exact List.mem_append_left _ ((FileName.mem_text_iff (c := '/') (by decide)).1 hmem)

/-- The path for a slot of a component below a root. -/
theorem path_of_component {root p : Path} {dir : List Bytes} {stem : Bytes}
    (h : Target.Component p (root.parts ++ dir.map FileName.text) (FileName.text stem)) (k : Slot) :
    k.path {} p = { p with
      parts := root.parts ++ (dir ++ [stem ++ Bytes.ofString k.ending]).map FileName.text } := by
  rw [Slot.path_eq h, List.map_append, List.append_assoc, List.map_singleton, text_ending]

/-- **Candidates are components that stand where their paths say.** -/
theorem lodged_of_candidates {t : FileTree} (hw : t.WellFormed) (hnames : t.Slashless) {root : Path}
    {skip : List Value} {outage : Option Discovery.Outage} {levels : Nat} {paths : List Path}
    (h : candidates t root ".component.ts" skip outage levels = .ok paths) :
    paths.Nodup ∧ ∃ top, ∀ p ∈ paths, Lodged t root top p := by
  obtain ⟨top, skip, hroot, hnodup, hbeneath⟩ := candidates_beneath hw h
  refine ⟨hnodup, top, fun p hp => ?_⟩
  obtain ⟨names, rfl, hnames'⟩ := hbeneath p hp
  obtain ⟨dir, name, rfl⟩ := (List.eq_nil_or_concat names).resolve_left hnames'.found.1
  rw [List.concat_eq_append] at hnames' ⊢
  obtain ⟨-, c, m, hfind⟩ := hnames'.found
  obtain ⟨stem, hcomponent⟩ := @component_of_endsIn root dir name hnames'.endsIn
    (hnames.name (by simp) hfind (by simp))
  refine ⟨⟨_, rfl⟩, ⟨dir, stem, hcomponent⟩, ?_, fun k place hr => ?_⟩
  · rw [locate_under]
    exact hnames'.plain hroot
  · have hpath := path_of_component hcomponent k
    rw [hpath] at hr ⊢
    obtain ⟨links, hlinks⟩ := resolve_onward hroot (by simp) hr
    have hup : stem ++ Bytes.ofString k.ending ≠ upName := by
      intro heq
      have htext := congrArg List.length (text_ending stem k)
      rw [heq] at htext
      have hshort : (FileName.text upName).length = 2 := rfl
      simp [Slot.ending, CodePoint.ofString, hshort] at htext
      omega
    exact ⟨_, hnames'.sibling hup hlinks, (locate_under root top _).symm⟩

/-- The locations of a component and its targets. -/
def Mine (root : Path) (top : Location) (p : Path) (loc : Location) : Prop :=
  loc = locate root top p ∨ ∃ k : Slot, loc = locate root top (k.path {} p)

/-- The locations of temporary files. -/
def Temporary (loc : Location) : Prop :=
  ∃ dir name token, loc = dir ++ [FileName.bytes (Commit.tempName name token)]

/-- What is done for a component can depend on these locations, besides directories and links. -/
def Own (root : Path) (top : Location) (p : Path) (loc : Location) : Prop :=
  Mine root top p loc ∨ Temporary loc

section
variable {t : FileTree} {root : Path} {top : Location} {p q : Path} (hp : Lodged t root top p)
include hp

theorem Lodged.under_path (k : Slot) : Under root (k.path {} p) := by
  obtain ⟨names, rfl⟩ := hp.under
  obtain ⟨dir, stem, hcomponent⟩ := hp.named
  exact ⟨_, path_of_component hcomponent k⟩

theorem Lodged.not_temporary {loc : Location} (h : Mine root top p loc) : ¬ Temporary loc := by
  rintro ⟨dir, name, token, rfl⟩
  obtain ⟨dir', stem, hcomponent⟩ := hp.named
  obtain ⟨front, hfront⟩ := Commit.tempName_eq name token
  have hlast : ∀ {x : Path} {last : Bytes},
      x.parts = root.parts ++ (dir' ++ [last]).map FileName.text →
      dir ++ [FileName.bytes (Commit.tempName name token)] = locate root top x →
      FileName.text last = FileName.text front ++ CodePoint.ofString ".tmp" := by
    intro x last hx heq
    rw [locate, hx, List.drop_left, FileName.map_bytes_text, ← List.append_assoc] at heq
    rw [← (List.append_singleton_inj.1 heq).2, hfront]
    exact FileName.text_append_ofString front (c := '.') rfl (by decide)
  rcases h with h | ⟨k, h⟩
  · have hname : FileName.text (stem ++ Bytes.ofString ".component.ts")
        = FileName.text stem ++ CodePoint.ofString ".component.ts" :=
      FileName.text_append_ofString stem (c := '.') rfl (by decide)
    have hparts : p.parts
        = root.parts ++ (dir' ++ [stem ++ Bytes.ofString ".component.ts"]).map FileName.text := by
      rw [hcomponent.parts, ← hname, List.map_append, List.append_assoc]
      rfl
    have hends := hlast hparts h
    have hback := congrArg List.reverse (hname.symm.trans hends)
    simp [CodePoint.ofString, CodePoint.ofChar_injective.eq_iff] at hback
  · refine k.fileName_ne (.inr rfl) ((text_ending stem k).symm.trans (hlast ?_ h))
    rw [path_of_component hcomponent]

theorem Lodged.site : Site {} t p (locate root top p)
    (fun loc => ∃ k : Slot, loc = locate root top (k.path {} p)) where
  plain := hp.plain
  apart := by
    rintro ⟨k, hk⟩
    obtain ⟨dir, stem, hcomponent⟩ := hp.named
    exact Slot.path_ne hcomponent hcomponent k (locate_inj (hp.under_path k) hp.under hk.symm)
  aims k place hr := by
    obtain ⟨loc, hplace, hloc⟩ := hp.aims k place hr
    exact ⟨loc, hplace, k, hloc⟩
  distinct k k' h := by
    obtain ⟨dir, stem, hcomponent⟩ := hp.named
    exact (Slot.path_inj hcomponent hcomponent h).2

/-- **What is done for one component does not touch what another depends on.** -/
theorem Lodged.apart (hq : Lodged t root top q) (hne : p ≠ q) {loc : Location}
    (h : Own root top p loc) : ¬ Mine root top q loc := by
  obtain ⟨dir, stem, hcomponent⟩ := hp.named
  obtain ⟨dir', stem', hcomponent'⟩ := hq.named
  intro hmine
  rcases h with h | h
  swap
  · exact hq.not_temporary hmine h
  -- a component or a target of the one, against a component or a target of the other
  rcases h with rfl | ⟨k, rfl⟩ <;> rcases hmine with hmine | ⟨k', hmine⟩
  · exact hne (locate_inj hp.under hq.under hmine)
  · exact Slot.path_ne hcomponent' hcomponent k'
      (locate_inj (hq.under_path k') hp.under hmine.symm)
  · exact Slot.path_ne hcomponent hcomponent' k (locate_inj (hp.under_path k) hq.under hmine)
  · exact hne (Slot.path_inj hcomponent hcomponent'
      (locate_inj (hp.under_path k) (hq.under_path k') hmine)).1

/-! ## One component after others -/

section
variable {setup : Setup} (hdefault : setup.settings = {})
include hdefault

/-- A component is dealt with as on the first tree, if that is still what it depends on. -/
theorem Lodged.tandem {t' : FileTree} (h : Alike t (Own root top p) t t') :
    (processUnit setup t' p).1.gist = (processUnit setup t p).1.gist ∧
      Tandem t (Own root top p) (Mine root top p) t t' (processUnit setup t p).2
        (processUnit setup t' p).2 :=
  tandem_processUnit (hdefault ▸ hp.site) (fun _ hl => .inl hl)
    (fun dir token => .inr ⟨dir, p.name, token, rfl⟩) h

theorem Lodged.alone : Within (Mine root top p) t (processUnit setup t p).2 :=
  (hp.tandem hdefault ⟨.refl t, .refl t, fun _ _ => rfl⟩).2.left

end

end

/-- The tree has the changes that some components make to a first one, each worked on alone. -/
structure Merged (setup : Setup) (t : FileTree) (root : Path) (top : Location) (done : List Path)
    (t' : FileTree) : Prop where
  frame : SameFrame t t'
  mine : ∀ p ∈ done, ∀ loc, Mine root top p loc →
    t'.find? loc = (processUnit setup t p).2.find? loc
  kept : ∀ loc, (∀ p ∈ done, ¬ Mine root top p loc) → t'.find? loc = t.find? loc
  nodup : (t.nodes.map (·.1)).Nodup → (t'.nodes.map (·.1)).Nodup

section
variable {setup : Setup} (hdefault : setup.settings = {}) {t : FileTree} {root : Path}
  {top : Location} {t' : FileTree} {done : List Path}
include hdefault

/-- **One component more** is dealt with as if it were worked on alone, and the others keep their
changes. -/
theorem Merged.step (h : Merged setup t root top done t') {q : Path}
    (hlodged : ∀ p ∈ q :: done, Lodged t root top p) (hnew : q ∉ done) :
    (processUnit setup t' q).1.gist = (processUnit setup t q).1.gist ∧
      Merged setup t root top (done ++ [q]) (processUnit setup t' q).2 := by
  have hq := hlodged q List.mem_cons_self
  have hapart : ∀ p ∈ done, ∀ {loc}, Own root top q loc → ¬ Mine root top p loc := fun p hp _ =>
    hq.apart (hlodged p (List.mem_cons_of_mem _ hp)) fun heq => hnew (heq ▸ hp)
  -- the others have changed nothing that `q` depends on
  obtain ⟨hgist, htandem⟩ := hq.tandem hdefault
    ⟨.refl t, h.frame, fun loc hloc => h.kept loc fun p hp => hapart p hp hloc⟩
  refine ⟨hgist, htandem.alike.right, fun p hp loc hloc => ?_, fun loc hloc => ?_,
    fun hnodup => htandem.right.nodup (h.nodup hnodup)⟩
  · rcases List.mem_append.1 hp with hp | hp
    · rw [htandem.right.kept loc fun hmine => hapart p hp (.inl hmine) hloc, h.mine p hp loc hloc]
    · obtain rfl := List.mem_singleton.1 hp
      exact htandem.alike.same loc (.inl hloc)
  · rw [htandem.right.kept loc (hloc q (by simp)),
      h.kept loc fun p hp => hloc p (List.mem_append_left _ hp)]

/-- **Components in order** are each dealt with as if they were worked on alone. -/
theorem Merged.visits (h : Merged setup t root top done t') {rest : List Path}
    (hlodged : ∀ p ∈ done ++ rest, Lodged t root top p) (hnodup : (done ++ rest).Nodup) :
    (visits setup t' rest).map (·.outcome.gist) = rest.map (fun p => (processUnit setup t p).1.gist) ∧
      Merged setup t root top (done ++ rest) (lastTree setup t' rest) := by
  induction rest generalizing done t' with
  | nil => exact ⟨rfl, by rwa [List.append_nil]⟩
  | cons q rest ih =>
    have hnew : q ∉ done := fun hq =>
      List.disjoint_of_nodup_append hnodup hq List.mem_cons_self
    obtain ⟨hgist, hstep⟩ := h.step hdefault
      (fun p hp => hlodged p (by rcases List.mem_cons.1 hp with rfl | hp <;> simp [*])) hnew
    rw [List.append_cons] at hlodged hnodup ⊢
    obtain ⟨hgists, hmerged⟩ := ih hstep hlodged hnodup
    exact ⟨by rw [visits_cons, List.map_cons, List.map_cons, hgists, hgist], hmerged⟩

theorem Merged.merges (h : Merged setup t root top done t')
    (hlodged : ∀ p ∈ done, Lodged t root top p) (hnodup : done.Nodup) :
    Merges t (done.map fun p => (processUnit setup t p).2) t' where
  workDir := h.frame.workDir
  apart := by
    refine List.pairwise_map.2 (hnodup.imp_of_mem fun {p q} hp hq hne loc => ?_)
    by_cases hmine : Mine root top p loc
    · exact .inr (((hlodged q hq).alone hdefault).kept loc
        ((hlodged p hp).apart (hlodged q hq) hne (.inl hmine)))
    · exact .inl (((hlodged p hp).alone hdefault).kept loc hmine)
  changed u hu loc hne := by
    obtain ⟨p, hp, rfl⟩ := List.mem_map.1 hu
    refine h.mine p hp loc (Classical.by_contradiction fun hmine => hne ?_)
    exact ((hlodged p hp).alone hdefault).kept loc hmine
  kept loc hsame := by
    by_cases hmine : ∃ p ∈ done, Mine root top p loc
    · obtain ⟨p, hp, hmine⟩ := hmine
      rw [h.mine p hp loc hmine]
      exact hsame _ (List.mem_map.2 ⟨p, hp, rfl⟩)
    · exact h.kept loc fun p hp hm => hmine ⟨p, hp, hm⟩
  nodup := h.nodup

end

/-! ## All candidates -/

/-- A planned file, for a template or one of some styles, is one for a slot. -/
theorem slot_of_mem {s : Settings} {p : Path} {content : List CodePoint}
    {contents : List (List CodePoint)} {f : PlannedFile}
    (h : f ∈ Target.template s p content :: Target.styles s p contents) :
    ∃ k : Slot, f.path = k.path s p := by
  rcases List.mem_cons.1 h with rfl | h
  · exact ⟨.template, Slot.template_path s p content⟩
  · obtain ⟨i, hi⟩ := Slot.style_of_mem h
    exact ⟨.style i, hi⟩

/-- **Candidates are independent** under the default settings, in a tree in which every location is
taken once and names are without slashes. No file planned for a candidate has the path of one planned
for another, or of a candidate. Worked on in any order, each candidate has the state, the states of
its concerns and the files made that it has when it is worked on alone, its source ends up the same,
and the last tree is the first with the changes made for each candidate alone. -/
theorem units_independent {setup : Setup} (hdefault : setup.settings = {}) {t : FileTree}
    (hw : t.WellFormed) (hnames : t.Slashless) {root : Path} {paths : List Path}
    (hpaths : candidates t root setup.settings.candidateSuffix setup.settings.skipDirs
      setup.outages.listing setup.levels = .ok paths) :
    (∀ p ∈ paths, ∀ content contents,
      ∀ f ∈ Target.template setup.settings p content :: Target.styles setup.settings p contents,
        f.path ∉ paths ∧
        ∀ q ∈ paths, q ≠ p → ∀ content' contents',
          ∀ g ∈ Target.template setup.settings q content' :: Target.styles setup.settings q contents',
            g.path ≠ f.path) ∧
    ∀ order, order.Perm paths → ∀ r,
      (processAll setup t order r).1.outcomes.map Outcome.gist
        = r.outcomes.map Outcome.gist ++ order.map (fun p => (processUnit setup t p).1.gist) ∧
      (∀ p ∈ paths, ((processAll setup t order r).2.read p).toOption
        = ((processUnit setup t p).2.read p).toOption) ∧
      Merges t (order.map fun p => (processUnit setup t p).2) (processAll setup t order r).2 := by
  have hfound := hpaths
  rw [hdefault] at hfound
  obtain ⟨hnodup, top, hlodged⟩ := lodged_of_candidates hw hnames hfound
  refine ⟨fun p hp content contents f hf => ?_, fun order hperm r => ?_⟩
  · obtain ⟨k, hk⟩ := slot_of_mem hf
    obtain ⟨dir, stem, hcomponent⟩ := (hlodged p hp).named
    rw [hk, hdefault]
    refine ⟨fun hmem => ?_, fun q hq hne content' contents' g hg heq => ?_⟩
    · obtain ⟨dir', stem', hcomponent'⟩ := (hlodged _ hmem).named
      exact Slot.path_ne hcomponent hcomponent' k rfl
    · obtain ⟨k', hk'⟩ := slot_of_mem hg
      obtain ⟨dir', stem', hcomponent'⟩ := (hlodged q hq).named
      rw [hk'] at heq
      exact hne (Slot.path_inj hcomponent' hcomponent heq).1
  · have hlodged' : ∀ p ∈ order, Lodged t root top p := fun p hp => hlodged p (hperm.mem_iff.1 hp)
    have hnodup' := hperm.nodup_iff.2 hnodup
    have hnone : Merged setup t root top [] t :=
      ⟨.refl t, by simp, fun _ _ => rfl, id⟩
    obtain ⟨hgists, hmerged⟩ := hnone.visits hdefault hlodged' hnodup'
    obtain ⟨houtcomes, htree⟩ := processAll_eq setup t order r
    rw [htree, houtcomes]
    refine ⟨?_, fun p hp => ?_, hmerged.merges hdefault hlodged' hnodup'⟩
    · rw [List.map_append, List.map_map]
      exact congrArg _ hgists
    · have halike : Alike t (Mine root top p) (processUnit setup t p).2 (lastTree setup t order) :=
        ⟨((hlodged p hp).tandem hdefault ⟨.refl t, .refl t, fun _ _ => rfl⟩).2.alike.left,
          hmerged.frame, hmerged.mine p (hperm.mem_iff.2 hp)⟩
      exact read_alike halike (hlodged p hp).plain (.inl rfl)

/-! ### Two components, one with a link to a target of the other -/

namespace Sample

def neighbours : FileTree :=
  ⟨["w"], [(["w"], .directory), (["w", "x.component.ts"], .file inlined 0o600),
    (["w", "x.component.html"], .link "y.component.html"),
    (["w", "y.component.ts"], .file inlined 0o600)]⟩

def neighbour : Path := ⟨.workDir, ["y.component.ts"]⟩

/-- The link leads nowhere. -/
theorem isDoor_dangling : (Dir.ofRoot ["w"] ⟨.workDir, []⟩).isDoor neighbours
    ("x.component.html", .link "y.component.html") = false := by
  have hresolve : neighbours.resolve true (Path.child ⟨.workDir, []⟩ "x.component.html")
      = .ok (.absent ["w", "y.component.html"]) := by
    rw [resolve, if_neg (by decide)]
    exact (Leads.through (by decide) (by decide) rfl (by decide)
      (.ending (by decide) (by decide) rfl)).eq
  refine isDoor_link (by decide) ?_
  show neighbours.isDirectory (Path.child ⟨.workDir, []⟩ "x.component.html") = _
  have hfault : (Path.child ⟨.workDir, []⟩ "x.component.html").fault? = none := by decide
  rw [isDirectory, status, hfault, hresolve]
  rfl

theorem candidates_neighbours : candidates neighbours ⟨.workDir, []⟩ setup.settings.candidateSuffix
    setup.settings.skipDirs setup.outages.listing setup.levels = .ok [path, neighbour] := by
  have hroot : neighbours.resolve true ⟨.workDir, []⟩ = .ok (.present ["w"] .directory) := by
    rw [resolve, if_neg (by decide), List.map_nil, resolveFrom]
    rfl
  have hbelow : below neighbours ".component.ts" ["node_modules", ".git"] 900
      (.ofRoot ["w"] ⟨.workDir, []⟩) = .ok [path, neighbour] := by
    have hentries : neighbours.entries (Dir.ofRoot ["w"] ⟨.workDir, []⟩).loc
        = ([("x.component.ts", .file inlined 0o600), ("x.component.html", .link "y.component.html"),
          ("y.component.ts", .file inlined 0o600)] : List (Bytes × FileNode)) := by decide
    refine below_leaf (files_of_visit (neighbours.entries ["w"]) (by decide) ?_ (by decide))
      (ways_of_doors [] ?_ (by decide))
    · show _ = neighbours.entries (Dir.ofRoot ["w"] ⟨.workDir, []⟩).loc
      rw [hentries]
      simp [isDoor_dangling]
    · rw [hentries]
      simp [isDoor_dangling]
  refine (candidates_of_root rfl hroot rfl).trans ?_
  rw [show setup.settings.candidateSuffix = ".component.ts" from rfl,
    show setup.levels = 900 from rfl, hbelow, Except.map, List.mergeSort_of_pairwise (by decide)]

end Sample

theorem units_independent_neighbours :
    (processAll Sample.setup Sample.neighbours [Sample.neighbour, Sample.path]
        { root := ⟨.workDir, []⟩ }).1.outcomes.map Outcome.gist
      = [(processUnit Sample.setup Sample.neighbours Sample.neighbour).1.gist,
        (processUnit Sample.setup Sample.neighbours Sample.path).1.gist] ∧
    Merges Sample.neighbours [(processUnit Sample.setup Sample.neighbours Sample.neighbour).2,
        (processUnit Sample.setup Sample.neighbours Sample.path).2]
      (processAll Sample.setup Sample.neighbours [Sample.neighbour, Sample.path]
        { root := ⟨.workDir, []⟩ }).2 := by
  obtain ⟨hgists, -, hmerges⟩ := (units_independent rfl (by decide) (by decide)
    Sample.candidates_neighbours).2 [Sample.neighbour, Sample.path] (.swap _ _ _)
    { root := ⟨.workDir, []⟩ }
  exact ⟨hgists, hmerges⟩

end Migration

end AssetLift
