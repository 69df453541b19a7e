import AssetLift.Proofs.Discovery
import AssetLift.Proofs.Unit

/-!
# What a run does to the tree

A run works on one candidate after the other, and each finds the tree that the ones before it have
left (`visits`). What the whole run does is told by its report (`Faithful`): the files that changed
are those of committed outcomes, the files that are new are listed in exactly one of them, and
everything else is as before.

* `Faithful.untouched`, `Faithful.rewritten`: what one visit more keeps.
* `visits_faithful`: hence what all of them keep.
* `run_faithful`: a run whose candidates can be told is faithful to its report.
-/

namespace AssetLift

namespace Migration

open Discovery FileTree

/-! ## Visits -/

/-- One file of a run, with the tree it was met in and the tree it was left in. -/
structure Visit where
  before : FileTree
  outcome : Outcome
  after : FileTree

/-- The files of a run in order. -/
def visits (setup : Setup) : FileTree → List Path → List Visit
  | _, [] => []
  | t, path :: rest =>
    let (o, t') := processUnit setup t path
    ⟨t, o, t'⟩ :: visits setup t' rest

theorem visits_cons (setup : Setup) (t : FileTree) (path : Path) (rest : List Path) :
    visits setup t (path :: rest)
      = ⟨t, (processUnit setup t path).1, (processUnit setup t path).2⟩
        :: visits setup (processUnit setup t path).2 rest := rfl

/-- The tree after a run. -/
def lastTree (setup : Setup) : FileTree → List Path → FileTree
  | t, [] => t
  | t, path :: rest => lastTree setup (processUnit setup t path).2 rest

theorem processAll_eq (setup : Setup) (t : FileTree) (paths : List Path) (r : Report) :
    (processAll setup t paths r).1.outcomes = r.outcomes ++ (visits setup t paths).map (·.outcome) ∧
      (processAll setup t paths r).2 = lastTree setup t paths := by
  induction paths generalizing t r with
  | nil => simp [processAll, visits, lastTree]
  | cons path rest ih =>
    obtain ⟨houtcomes, htree⟩ := ih (processUnit setup t path).2
      ({ r with outcomes := r.outcomes ++ [(processUnit setup t path).1] }.publish
        (processUnit setup t path).1.diagnostics)
    refine ⟨?_, htree⟩
    rw [processAll, houtcomes]
    simp [Report.publish, visits]

/-! ## What a report tells -/

/-- The file at a location is that of a committed outcome. -/
def Rewrote (t : FileTree) (o : Outcome) (loc : Location) : Prop :=
  o.state = .committed ∧ ∃ n, t.resolve true o.path = .ok (.present loc n)

/-- The path is to a file that was not there, and that holds a literal moved. -/
structure Lists (setup : Setup) (t t' : FileTree) (o : Outcome) (p : Path) (loc : Location)
    (n : FileNode) : Prop where
  free : t.resolve false p = .ok (.absent loc)
  there : t'.resolve true p = .ok (.present loc n)
  literal : ∃ source b, readBlock setup t o.path = .ok (source, some b) ∧
    ∃ c ∈ o.migrated, ∃ text ∈ literals b c,
      ⟨p, CodePoint.ofString text⟩ ∈ targets setup.settings o.path b c ∧
        n = .file (Bytes.ofString text) defaultMode

/-- What the outcomes of a run tell of the trees before and after it. -/
structure Faithful (setup : Setup) (t t' : FileTree) (os : List Outcome) : Prop where
  /-- Directories and links are the same. -/
  frame : SameFrame t t'
  /-- What is not the file of a committed outcome is as before. -/
  kept : ∀ {loc n}, t.find? loc = some n → (∀ o ∈ os, ¬ Rewrote t o loc) → t'.find? loc = some n
  /-- The file of a committed outcome has the entries moved swapped for references, and its
  permission bits. -/
  rewritten : ∀ o ∈ os, o.state = .committed → ∃ loc source mode b,
    t.resolve true o.path = .ok (.present loc (.file source mode)) ∧
    readBlock setup t o.path = .ok (source, some b) ∧
    t'.find? loc = some (.file (rewritten setup.settings o.path b o.migrated source) mode)
  /-- What is listed as made is new, and its outcome is committed. -/
  listed : ∀ o ∈ os, ∀ p ∈ o.created, o.state = .committed ∧ ∃ loc n, Lists setup t t' o p loc n
  /-- What is new is listed by exactly one outcome. -/
  new : ∀ {loc n}, t.find? loc = none → t'.find? loc = some n → ∃ pre o post, os = pre ++ o :: post ∧
    (∃ p ∈ o.created, Lists setup t t' o p loc n) ∧
    ∀ d ∈ pre ++ post, ∀ p ∈ d.created, t.resolve false p ≠ .ok (.absent loc)

theorem readBlock_congr {setup : Setup} {t t' : FileTree} {p : Path}
    (h : t'.resolve true p = t.resolve true p) : readBlock setup t' p = readBlock setup t p := by
  unfold readBlock FileTree.read
  rw [h]

/-! ## One visit -/

/-- The file at a location has become another, files have been made, and nothing else is
different. -/
structure Changed (t t' : FileTree) (loc : Location) (n : FileNode)
    (new : List (Location × FileNode)) : Prop where
  frame : SameFrame t t'
  here : t'.find? loc = some n
  old : ∀ {k m}, k ≠ loc → t.find? k = some m → t'.find? k = some m
  fresh : t.Fresh new
  made : ∀ e ∈ new, t'.find? e.1 = some e.2
  free : ∀ {k}, t.find? k = none → (∀ e ∈ new, e.1 ≠ k) → t'.find? k = none

theorem changed_of_set {t : FileTree} {loc : Location} {c c' : Bytes} {m m' : Nat}
    (hfind : t.find? loc = some (.file c m)) (hne : loc ≠ []) {new : List (Location × FileNode)}
    (hfresh : t.Fresh new) :
    Changed t ((t.set loc (.file c' m')).extend new) loc (.file c' m') new := by
  have hset := find?_set (.file c' m') hne hfind
  have hfresh' := hfresh.set hne hfind (.file c' m')
  refine ⟨(sameFrame_set hne hfind).trans (sameFrame_extend hfresh'), ?_, fun {k n} hk hf => ?_,
    hfresh, fun e he => hfresh'.find?_new he, fun {k} hf hk => ?_⟩
  · exact hfresh'.find?_old (by rw [hset, if_pos rfl])
  · exact hfresh'.find?_old (by rw [hset, if_neg hk, hf])
  · have hkl : k ≠ loc := by
      rintro rfl
      rw [hf] at hfind
      cases hfind
    rw [find?_extend hfresh', lookup_eq_none.2 hk, Option.none_or, hset, if_neg hkl, hf]

/-- **A commit changes the file of its path**, where that is a regular file. -/
theorem Rewrites.changed {setup : Setup} {t t' : FileTree} {path : Path} {o : Outcome} {ch : Change}
    (h : Rewrites setup t path o t' ch) {loc : Location} (hp : Plain t path loc) :
    t.resolve true path = .ok (.present loc (.file ch.source ch.mode)) ∧
      Changed t t' loc
        (.file (rewritten setup.settings path ch.block o.migrated ch.source) ch.mode) ch.new := by
  obtain ⟨l, hl⟩ := h.leads
  obtain ⟨n, hn, hnode, -⟩ := h.stands
  obtain ⟨c, m, heq⟩ := hp.leads true _ hl
  obtain ⟨c', m', heq'⟩ := hp.leads false _ hn
  cases heq
  cases heq'
  obtain ⟨hne, hfind⟩ := find?_of_file hl
  refine ⟨hl, ?_⟩
  rw [h.tree]
  exact changed_of_set hfind hne h.fresh

section
variable {setup : Setup} {t t₁ t' : FileTree} {o : Outcome} {os : List Outcome}

theorem Faithful.nil (setup : Setup) (t : FileTree) : Faithful setup t t [] :=
  ⟨.refl t, fun h _ => h, by simp, by simp, fun h h' => by rw [h] at h'; cases h'⟩

/-- **A visit that leaves the file alone** adds nothing to what is told. -/
theorem Faithful.untouched (h : Faithful setup t t' os) (hstate : o.state ≠ .committed)
    (hcreated : o.created = []) : Faithful setup t t' (o :: os) where
  frame := h.frame
  kept hfind hno := h.kept hfind fun d hd => hno d (List.mem_cons_of_mem _ hd)
  rewritten d hd hcommitted := by
    rcases List.mem_cons.1 hd with rfl | hd
    · exact absurd hcommitted hstate
    · exact h.rewritten d hd hcommitted
  listed d hd p hp := by
    rcases List.mem_cons.1 hd with rfl | hd
    · rw [hcreated] at hp; simp at hp
    · exact h.listed d hd p hp
  new hfree hthere := by
    obtain ⟨pre, d, post, rfl, hlists, hothers⟩ := h.new hfree hthere
    refine ⟨o :: pre, d, post, rfl, hlists, fun e he p hp => ?_⟩
    rcases List.mem_cons.1 he with rfl | he
    · rw [hcreated] at hp; simp at hp
    · exact hothers e he p hp

namespace Changed

variable {loc k : Location} {n : FileNode} {new : List (Location × FileNode)}
  (hc : Changed t t₁ loc n new)
include hc

/-- A place that is free after a visit was free before it. -/
theorem free_before {p : Path} (hr : t₁.resolve false p = .ok (.absent k)) :
    t.resolve false p = .ok (.absent k) := by
  have hnone := find?_of_absent hr
  have hbefore : t.find? k = none := by
    cases hf : t.find? k with
    | none => rfl
    | some m =>
      by_cases hk : k = loc
      · rw [hk, hc.here] at hnone
        cases hnone
      · rw [hc.old hk hf] at hnone
        cases hnone
  rw [resolve_frame hc.frame.symm hr, Place.reseat, seat, hbefore]

/-- A path to a file that the visit was not for leads where it led. -/
theorem leads {p : Path} (hp : Plain t p k) (hk : k ≠ loc) {follow : Bool} {place : Place}
    (hr : t₁.resolve follow p = .ok place) : t.resolve follow p = .ok place ∧
      ∃ c m, place = .present k (.file c m) := by
  have hback := resolve_frame hc.frame.symm hr
  obtain ⟨c, m, hplace⟩ := hp.leads follow _ hback
  rw [hplace] at hback
  have hsame := resolve_file hc.frame hback (hc.old hk (find?_of_file hback).2)
  obtain rfl := Except.ok.inj (hr.symm.trans hsame)
  exact ⟨hback, c, m, rfl⟩

/-- The other candidates stay candidates. -/
theorem plain {p : Path} (hp : Plain t p k) (hk : k ≠ loc) : Plain t₁ p k := by
  obtain ⟨c, m, hfind⟩ := hp.found
  exact ⟨⟨c, m, hc.old hk hfind⟩, fun follow place hr => (hc.leads hp hk hr).2⟩

theorem rewrote {d : Outcome} (hp : Plain t d.path k) (hk : k ≠ loc) {l : Location}
    (hw : Rewrote t₁ d l) : Rewrote t d l ∧ l = k := by
  obtain ⟨hcommitted, n, hn⟩ := hw
  obtain ⟨hback, c, m, hplace⟩ := hc.leads hp hk hn
  cases hplace
  exact ⟨⟨hcommitted, _, hback⟩, rfl⟩

/-- What later visits rewrite is neither the file of this one nor any that it has made. -/
theorem later (hothers : ∀ d ∈ os, ∃ k, k ≠ loc ∧ Plain t d.path k) {d : Outcome} (hd : d ∈ os)
    (hw : Rewrote t₁ d k) : k ≠ loc ∧ t.find? k ≠ none := by
  obtain ⟨l, hl, hplain⟩ := hothers d hd
  obtain ⟨-, rfl⟩ := hc.rewrote hplain hl hw
  obtain ⟨c, m, hfind⟩ := hplain.found
  exact ⟨hl, by rw [hfind]; simp⟩

theorem readBlock {p : Path} (hp : Plain t p k) (hk : k ≠ loc) {source : Bytes} {b : Option Block}
    (h : readBlock setup t₁ p = .ok (source, b)) : readBlock setup t p = .ok (source, b) := by
  obtain ⟨l, mode, hl⟩ := leads_of_read (readBlock_eq_ok.1 h).1
  rw [← h]
  exact readBlock_congr ((hc.leads hp hk hl).1.trans hl.symm)

theorem lists {d : Outcome} (hp : Plain t d.path k) (hk : k ≠ loc) {p : Path} {l : Location}
    {m : FileNode} (h : Lists setup t₁ t' d p l m) : Lists setup t t' d p l m := by
  obtain ⟨hfree, hthere, source, b, hread, hliteral⟩ := h
  exact ⟨hc.free_before hfree, hthere, source, b, hc.readBlock hp hk hread, hliteral⟩

end Changed

/-- **A visit that rewrites its file** adds its own file and the files it has made. -/
theorem Faithful.rewriting (h : Faithful setup t₁ t' os) {loc : Location} {ch : Change}
    (hstate : o.state = .committed) (hr : Rewrites setup t o.path o t₁ ch)
    (hplain : Plain t o.path loc) (hothers : ∀ d ∈ os, ∃ k, k ≠ loc ∧ Plain t d.path k) :
    Faithful setup t t' (o :: os) := by
  obtain ⟨hsource, hc⟩ := hr.changed hplain
  have hframe := hc.frame.trans h.frame
  have hthere : ∀ e ∈ ch.new, t'.find? e.1 = some e.2 := fun e he =>
    h.kept (hc.made e he) fun d hd hw => (hc.later hothers hd hw).2 (hr.fresh.absent e he)
  have hmade : ∀ {p e}, e ∈ ch.new → MadeFor setup t o.path ch.block o.migrated p e →
      Lists setup t t' o p e.1 e.2 := by
    intro p e he hfor
    obtain ⟨c, m, hfile⟩ := hr.fresh.files e he
    refine ⟨hfor.free, ?_, _, _, hr.read, hfor.content⟩
    exact resolve_follow (resolve_made hframe hfor.free (hthere e he)) (by simp [hfile])
  refine
    { frame := hframe
      kept := fun {k n} hfind hno => ?kept
      rewritten := fun d hd hcommitted => ?rewritten
      listed := fun d hd p hp => ?listed
      new := fun {k n} hfree hk => ?new }
  case kept =>
    have hk : k ≠ loc := by
      rintro rfl
      exact hno o List.mem_cons_self ⟨hstate, _, hsource⟩
    refine h.kept (hc.old hk hfind) fun d hd hw => hno d (List.mem_cons_of_mem _ hd) ?_
    obtain ⟨l, hl, hd⟩ := hothers d hd
    exact (hc.rewrote hd hl hw).1
  case rewritten =>
    rcases List.mem_cons.1 hd with rfl | hd
    · exact ⟨loc, ch.source, ch.mode, ch.block, hsource, hr.read,
        h.kept hc.here fun e he hw => (hc.later hothers he hw).1 rfl⟩
    · obtain ⟨k, source, mode, b, hk, hread, hnew⟩ := h.rewritten d hd hcommitted
      obtain ⟨l, hl, hd⟩ := hothers d hd
      exact ⟨k, source, mode, b, (hc.leads hd hl hk).1, hc.readBlock hd hl hread, hnew⟩
  case listed =>
    rcases List.mem_cons.1 hd with rfl | hd
    · obtain ⟨e, he, hfor⟩ := exists_right_of_forall₂ hr.made hp
      exact ⟨hstate, e.1, e.2, hmade he hfor⟩
    · obtain ⟨hcommitted, k, n, hk⟩ := h.listed d hd p hp
      obtain ⟨l, hl, hd⟩ := hothers d hd
      exact ⟨hcommitted, k, n, hc.lists hd hl hk⟩
  case new =>
    by_cases hnew : ∃ e ∈ ch.new, e.1 = k
    · -- made by this visit: the place is taken when the later ones come
      obtain ⟨e, he, rfl⟩ := hnew
      obtain ⟨p, hp, hfor⟩ := exists_left_of_forall₂ hr.made he
      obtain rfl := Option.some.inj (hk.symm.trans (hthere e he))
      refine ⟨[], o, os, rfl, ⟨p, hp, hmade he hfor⟩, fun d hd q hq hfree' => ?_⟩
      obtain ⟨-, l, m, hlist⟩ := h.listed d hd q hq
      have := hlist.free.symm.trans (resolve_made hc.frame hfree' (hc.made e he))
      cases this
    · have hnone := hc.free hfree fun e he heq => hnew ⟨e, he, heq⟩
      obtain ⟨pre, d, post, rfl, ⟨p, hp, hlist⟩, hrest⟩ := h.new hnone hk
      obtain ⟨l, hl, hd⟩ := hothers d (by simp)
      refine ⟨o :: pre, d, post, rfl, ⟨p, hp, hc.lists hd hl hlist⟩, fun e he q hq hq' => ?_⟩
      rcases List.mem_cons.1 he with rfl | he
      · obtain ⟨e', he', hfor⟩ := exists_right_of_forall₂ hr.made hq
        rw [hfor.free] at hq'
        exact hnew ⟨e', he', by simpa using hq'⟩
      · refine hrest e he q hq ?_
        rw [resolve_frame hc.frame hq', Place.reseat, seat, hnone]

/-- **A path that existed leads where it led**, to what stood there, unless that is the file of a
committed outcome. -/
theorem Faithful.leads (h : Faithful setup t t' os) {follow : Bool} {p : Path} {loc : Location}
    {n : FileNode} (hr : t.resolve follow p = .ok (.present loc n))
    (hno : ∀ o ∈ os, ¬ Rewrote t o loc) : t'.resolve follow p = .ok (.present loc n) := by
  cases n with
  | directory => exact resolve_frame h.frame hr
  | link target => exact resolve_frame h.frame hr
  | file c m => exact resolve_file h.frame hr (h.kept (find?_of_file hr).2 hno)

end

/-! ## All visits -/

section
variable {setup : Setup} (hfill : setup.outages.commit.fill = none)
  (hsound : Source.Sound setup.grammar)
include hfill hsound

theorem visits_paths (t : FileTree) (paths : List Path) :
    (visits setup t paths).map (·.outcome.path) = paths := by
  induction paths generalizing t with
  | nil => rfl
  | cons path rest ih =>
    rw [visits_cons, List.map_cons, ih]
    exact congrArg (· :: rest) (processUnit_effect hfill hsound t path).1

/-- A visit that does not end up committed leaves the very tree. -/
theorem visits_idle (t : FileTree) (paths : List Path) :
    ∀ v ∈ visits setup t paths, v.outcome.state ≠ .committed → v.after = v.before := by
  induction paths generalizing t with
  | nil => simp [visits]
  | cons path rest ih =>
    intro v hv hstate
    rw [visits_cons] at hv
    rcases List.mem_cons.1 hv with rfl | hv
    · have heffect := (processUnit_effect hfill hsound t path).2
      generalize processUnit setup t path = u at hstate heffect
      cases heffect with
      | untouched => rfl
      | rewritten hcommitted => exact absurd hcommitted hstate
    · exact ih _ v hv hstate

/-- **All visits together are faithfully told**, where the candidates are files at different
locations. -/
theorem visits_faithful {t : FileTree} {paths : List Path} {locs : List Location}
    (hplain : List.Forall₂ (Plain t) paths locs) (hnodup : locs.Nodup) :
    Faithful setup t (lastTree setup t paths) ((visits setup t paths).map (·.outcome)) := by
  induction paths generalizing t locs with
  | nil => exact .nil setup t
  | cons path rest ih =>
    cases hplain with
    | @cons _ loc _ locs hp hrest =>
      obtain ⟨hpath, heffect⟩ := processUnit_effect hfill hsound t path
      rw [List.nodup_cons] at hnodup
      rw [visits_cons, List.map_cons, lastTree]
      generalize processUnit setup t path = u at hpath heffect ⊢
      obtain ⟨o, t₁⟩ := u
      dsimp only at hpath heffect ⊢
      subst hpath
      cases heffect with
      | untouched hstate hcreated => exact (ih hrest hnodup.2).untouched hstate hcreated
      | rewritten hstate hr =>
        obtain ⟨-, hc⟩ := hr.changed hp
        have hne : ∀ k ∈ locs, k ≠ loc := fun k hk heq => hnodup.1 (heq ▸ hk)
        have hrest' := forall₂_imp_mem hrest fun p _ k hk hplain => hc.plain hplain (hne k hk)
        refine (ih hrest' hnodup.2).rewriting hstate hr hp fun d hd => ?_
        have hmem : d.path ∈ rest := by
          rw [← visits_paths hfill hsound t₁ rest]
          obtain ⟨v, hv, rfl⟩ := List.mem_map.1 hd
          exact List.mem_map.2 ⟨v, hv, rfl⟩
        obtain ⟨k, hk, hplain⟩ := exists_right_of_forall₂ hrest hmem
        exact ⟨k, hne k hk, hplain⟩

end

/-- **A run does what its report tells.** In a well-formed tree, with a grammar whose trees lie in
their files and a device that writes what it is given, a run whose candidates can be told has one
outcome for each of them, and the outcomes tell what has become of the tree. A file that did not end
up committed was left with everything as it was. -/
theorem run_faithful {setup : Setup} (hfill : setup.outages.commit.fill = none)
    (hsound : Source.Sound setup.grammar) {t : FileTree} (hw : t.WellFormed) {root : Path}
    {paths : List Path} (hpaths : candidates t root setup.settings.candidateSuffix
      setup.settings.skipDirs setup.outages.listing setup.levels = .ok paths) :
    ∃ r t', run setup t root = .ok (r, t') ∧
      r.outcomes = (visits setup t paths).map (·.outcome) ∧ r.outcomes.map (·.path) = paths ∧
      Faithful setup t t' r.outcomes ∧
      (∀ {follow p loc n}, t.resolve follow p = .ok (.present loc n) →
        (∀ o ∈ r.outcomes, ¬ Rewrote t o loc) → t'.resolve follow p = .ok (.present loc n)) ∧
      ∀ v ∈ visits setup t paths, v.outcome.state ≠ .committed → v.after = v.before := by
  obtain ⟨locs, hplain, hnodup⟩ := candidates_plain hw hpaths
  have hfaithful := visits_faithful hfill hsound hplain hnodup
  have hlisted := visits_paths hfill hsound t paths
  have hidle := visits_idle hfill hsound t paths
  unfold run
  rw [hpaths]
  dsimp only
  generalize hr : ({ root, diagnostics := _ } : Report) = r
  obtain ⟨houtcomes, htree⟩ := processAll_eq setup t paths r
  have hnone : r.outcomes = [] := by rw [← hr]
  rw [hnone, List.nil_append] at houtcomes
  rw [← htree] at hfaithful
  rw [← houtcomes] at hfaithful
  refine ⟨_, _, rfl, houtcomes, ?_, hfaithful, fun hp hno => hfaithful.leads hp hno, hidle⟩
  rw [Report.publish, houtcomes, List.map_map]
  exact hlisted

/-! ### A component with an inline template -/

namespace Sample

open Splice.Sample

section
variable (k v : Nat)

def arguments : Cst :=
  .node { id := 26, kind := "arguments", start := 10, stop := v + 8, field := some "arguments" }
    [token 27 "(" 10 11, object 11 k v, token 28 ")" (v + 7) (v + 8)]

def decorator : Cst :=
  .node { id := 22, kind := "decorator", start := 0, stop := v + 8, field := some "decorator" }
    [token 23 "@" 0 1, .node { id := 24, kind := "call_expression", start := 1, stop := v + 8 }
      [leaf 25 "identifier" 1 10 "function", arguments k v]]

def body : Cst :=
  .node { id := 31, kind := "class_body", start := v + 17, stop := v + 19, field := some "body" }
    [token 32 "\x7b" (v + 17) (v + 18), token 33 "\x7d" (v + 18) (v + 19)]

def component : Cst :=
  .node { id := 21, kind := "class_declaration", start := 0, stop := v + 19 }
    [decorator k v, token 29 "class" (v + 9) (v + 14),
      leaf 30 "type_identifier" (v + 15) (v + 16) "name", body v]

/-- The key of the first entry ends at `k`, and the string after it at `v`. -/
def tree : Cst := .node { id := 20, kind := "program", start := 0, stop := v + 19 } [component k v]

end

def inlined : Bytes := Bytes.ofString "@Component(\x7btemplate: 't', a: 1\x7d) class A \x7b\x7d"

def referring : Bytes :=
  Bytes.ofString "@Component(\x7btemplateUrl: './x.component.html', a: 1\x7d) class A \x7b\x7d"

/-- Knows the component before and after its template is moved. -/
def grammar : Source.Grammar := fun source =>
  if source = inlined then tree 20 25
  else if source = referring then tree 23 45
  else .node { id := 0, kind := "ERROR", start := 0, stop := source.length } []

def setup : Setup := { grammar := grammar }

def files : FileTree := ⟨["w"], [(["w"], .directory), (["w", "x.component.ts"], .file inlined 0o600)]⟩

def path : Path := ⟨.workDir, ["x.component.ts"]⟩

theorem sound : Source.Sound grammar := by
  intro source
  have hplaced : ∀ {bytes : Bytes} {k v : Nat},
      (tree k v).all (fun n => decide (n.Placed bytes)) = true →
      ∀ n, Cst.Inside n (tree k v) → n.Placed bytes := fun h n hn =>
    of_decide_eq_true (Cst.all_of_inside hn h)
  unfold grammar
  split
  · subst source
    exact .inr (hplaced (by decide))
  split
  · subst source
    exact .inr (hplaced (by decide))
  · exact .inl (by simp [Cst.hasError])

theorem candidates_files : candidates files ⟨.workDir, []⟩ setup.settings.candidateSuffix
    setup.settings.skipDirs setup.outages.listing setup.levels = .ok [path] := by
  have hroot : files.resolve true ⟨.workDir, []⟩ = .ok (.present ["w"] .directory) := by
    rw [resolve, if_neg (by decide), List.map_nil, resolveFrom]
    rfl
  have hbelow : below files ".component.ts" ["node_modules", ".git"] 900
      (.ofRoot ["w"] ⟨.workDir, []⟩) = .ok [path] :=
    below_leaf (by decide) (ways_of_doors [] (by decide) (by decide))
  refine (candidates_of_root rfl hroot rfl).trans ?_
  rw [show setup.settings.candidateSuffix = ".component.ts" from rfl,
    show setup.levels = 900 from rfl, hbelow, Except.map, List.mergeSort_singleton]

end Sample

theorem run_faithful_component : ∃ r t', run Sample.setup Sample.files ⟨.workDir, []⟩ = .ok (r, t') ∧
    r.outcomes.map (·.path) = [Sample.path] ∧ Faithful Sample.setup Sample.files t' r.outcomes := by
  obtain ⟨r, t', hrun, -, hpaths, hfaithful, -⟩ :=
    run_faithful rfl Sample.sound (by decide) Sample.candidates_files
  exact ⟨r, t', hrun, hpaths, hfaithful⟩

end Migration

end AssetLift
