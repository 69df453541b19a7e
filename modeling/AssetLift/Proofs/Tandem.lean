import AssetLift.Proofs.Commit
import AssetLift.Proofs.Discovery
import AssetLift.Proofs.Naming
import Mathlib.Data.List.Perm.Subperm

/-!
# One commit on two trees

Two trees that have the same directories and links, and agree on the locations that a commit looks
at (`Alike`), are changed by it in the same way: it succeeds on both or fails on both, makes the same
files, and leaves trees that agree on these locations again. It changes no others (`Tandem`).

The planned files need not be the same ones. A file may be planned for one of the trees only, if a
link stands at its path: then it is not made.

* `FileTree.resolve_seated`: where a path that does not go up at its end leads.
* `Commit.freshToken_alike`: the temporary file is the same one.
* `Commit.tandem_writeNew`, `Commit.tandem_landFiles`, `Commit.tandem_removeAll`,
  `Commit.tandem_replaceSource`: the parts of a commit.
* `Commit.tandem_commit`: the whole.
-/

namespace AssetLift

namespace FileTree

/-! ## Paths that do not go up at their ends -/

/-- Such a path leads to a location with its last name, and finds what the tree has there. -/
theorem Leads.seated {t : FileTree} {links : Nat} {dir : Location} {names : List Bytes}
    {name : Bytes} {place : Place} (h : Leads t false links dir (names ++ [name]) (.ok place))
    (hup : name ≠ upName) : ∃ d, place = t.seat (d ++ [name]) := by
  obtain ⟨more, d, -, hlast⟩ := h.split (by simp)
  refine ⟨d, ?_⟩
  generalize hr : Except.ok place = r at hlast
  cases hlast with
  | up => exact absurd rfl hup
  | stuck => cases hr
  | ending => exact Except.ok.inj hr
  | into _ _ hfind hrest =>
    cases hrest
    cases hr
    rw [seat, hfind]
  | link _ _ hfind =>
    cases hr
    rw [seat, hfind]
  | through _ _ _ hgo => cases hgo

theorem resolve_seated {t : FileTree} {p : Path} {names : List Text} {name : Text}
    (hparts : p.parts = names ++ [name]) (hup : FileName.bytes name ≠ upName) {place : Place}
    (hr : t.resolve false p = .ok place) : ∃ d, place = t.seat (d ++ [FileName.bytes name]) := by
  have hleads := leads_of_resolve hr (length_of_resolve hr)
  rw [hparts, List.map_append, List.map_singleton] at hleads
  exact hleads.seated hup

theorem SameFrame.reseat_seat {t t' : FileTree} (h : SameFrame t t') (loc : Location) :
    (t.seat loc).reseat t' = t'.seat loc := by
  rcases h.find? loc with ⟨hend, -⟩ | ⟨hsame, hon⟩
  · rcases seat_of_end hend with ⟨-, hs⟩ | ⟨c, m, -, hs⟩ <;> rw [hs] <;> rfl
  · cases hf : t.find? loc with
    | none => exact absurd (frame_eq_none.2 (by rw [hf]; rfl)) hon
    | some n =>
      cases n with
      | file c m => exact absurd (frame_eq_none.2 (by rw [hf]; rfl)) hon
      | directory | link => rw [seat, seat, hsame, hf]; rfl

theorem resolve_seat {t t' : FileTree} (h : SameFrame t t') {follow : Bool} {p : Path}
    {loc : Location} (hr : t.resolve follow p = .ok (t.seat loc)) :
    t'.resolve follow p = .ok (t'.seat loc) := by
  rw [resolve_frame h hr, h.reseat_seat]

/-! ## Changes at one location -/

/-- A change of what stands at one location, which leaves no location taken twice. -/
structure Puts (t : FileTree) (loc : Location) (x : Option FileNode) (t' : FileTree) : Prop where
  workDir : t'.workDir = t.workDir
  find? : ∀ l, t'.find? l = if l = loc then x else t.find? l
  nodup : (t.nodes.map (·.1)).Nodup → (t'.nodes.map (·.1)).Nodup

theorem puts_refl {t : FileTree} {loc : Location} : Puts t loc (t.find? loc) t where
  workDir := rfl
  find? l := by
    split
    · subst_vars; rfl
    · rfl
  nodup := id

theorem puts_insert {t : FileTree} {loc : Location} (h : t.find? loc = none) (n : FileNode) :
    Puts t loc (some n) (t.insert loc n) where
  workDir := rfl
  find? := find?_insert n h
  nodup hnodup := by
    rw [insert, List.map_append, List.nodup_append]
    refine ⟨hnodup, List.nodup_singleton _, fun l hl k hk => ?_⟩
    obtain ⟨e, he, rfl⟩ := List.mem_map.1 hl
    rw [List.map_singleton, List.mem_singleton] at hk
    rw [hk]
    exact not_mem_of_find? h e he

theorem puts_set {t : FileTree} {loc : Location} {old : FileNode} (hne : loc ≠ [])
    (h : t.find? loc = some old) (n : FileNode) : Puts t loc (some n) (t.set loc n) where
  workDir := rfl
  find? := find?_set n hne h
  nodup hnodup := by
    have hkeys : (t.set loc n).nodes.map (·.1) = t.nodes.map (·.1) := by
      rw [set, List.map_map]
      refine List.map_congr_left fun e _ => ?_
      rw [Function.comp_apply]
      split <;> simp_all
    rw [hkeys]
    exact hnodup

theorem puts_erase {t : FileTree} {loc : Location} (hne : loc ≠ []) :
    Puts t loc none (t.erase loc) where
  workDir := rfl
  find? := find?_erase hne
  nodup hnodup := hnodup.sublist (List.filter_sublist.map _)

theorem Puts.sameFrame {t t' : FileTree} {loc : Location} {x : Option FileNode}
    (h : Puts t loc x t') (hend : isEnd (t.find? loc)) (hx : isEnd x) : SameFrame t t' := by
  refine sameFrame_of_ends h.workDir fun l => ?_
  rw [h.find?]
  by_cases hl : l = loc
  · subst hl
    exact .inr ⟨hend, by simpa using hx⟩
  · exact .inl (if_neg hl)

/-! ## Two trees side by side -/

theorem SameFrame.isEnd {t t' : FileTree} (h : SameFrame t t') {loc : Location}
    (hend : isEnd (t.find? loc)) : isEnd (t'.find? loc) := by
  rw [← frame_eq_none, h.frame, frame_eq_none]
  exact hend

/-- Two trees with the frame of a third that agree on some locations. -/
structure Alike (base : FileTree) (own : Location → Prop) (t u : FileTree) : Prop where
  left : SameFrame base t
  right : SameFrame base u
  same : ∀ loc, own loc → u.find? loc = t.find? loc

/-- The tree has changed at some locations only. -/
structure Within (mine : Location → Prop) (t t' : FileTree) : Prop where
  kept : ∀ loc, ¬ mine loc → t'.find? loc = t.find? loc
  nodup : (t.nodes.map (·.1)).Nodup → (t'.nodes.map (·.1)).Nodup

theorem Within.refl (mine : Location → Prop) (t : FileTree) : Within mine t t := ⟨fun _ _ => rfl, id⟩

theorem Within.trans {mine : Location → Prop} {t t' t'' : FileTree} (h : Within mine t t')
    (h' : Within mine t' t'') : Within mine t t'' :=
  ⟨fun loc hloc => (h'.kept loc hloc).trans (h.kept loc hloc), fun hn => h'.nodup (h.nodup hn)⟩

theorem Puts.within {mine : Location → Prop} {t t' : FileTree} {loc : Location}
    {x : Option FileNode} (h : Puts t loc x t') (hloc : mine loc) : Within mine t t' :=
  ⟨fun l hl => by rw [h.find?, if_neg (by rintro rfl; exact hl hloc)], h.nodup⟩

/-- Two trees after changes at some locations, made side by side. -/
structure Tandem (base : FileTree) (own mine : Location → Prop) (t u t' u' : FileTree) : Prop where
  alike : Alike base own t' u'
  left : Within mine t t'
  right : Within mine u u'

section
variable {base : FileTree} {own mine : Location → Prop} {t u t' u' : FileTree}

theorem Alike.tandem (h : Alike base own t u) : Tandem base own mine t u t u :=
  ⟨h, .refl mine t, .refl mine u⟩

theorem Tandem.trans (h : Tandem base own mine t u t' u') {t'' u'' : FileTree}
    (h' : Tandem base own mine t' u' t'' u'') : Tandem base own mine t u t'' u'' :=
  ⟨h'.alike, h.left.trans h'.left, h.right.trans h'.right⟩

theorem Tandem.mono (h : Tandem base own mine t u t' u') {mine' : Location → Prop}
    (hsub : ∀ loc, mine loc → mine' loc) : Tandem base own mine' t u t' u' where
  alike := h.alike
  left := ⟨fun l hl => h.left.kept l fun h => hl (hsub l h), h.left.nodup⟩
  right := ⟨fun l hl => h.right.kept l fun h => hl (hsub l h), h.right.nodup⟩

/-- **One change made on both sides.** -/
theorem Alike.puts (h : Alike base own t u) {loc : Location} {x : Option FileNode}
    (hloc : mine loc) (hend : isEnd (base.find? loc)) (hx : isEnd x) (ht : Puts t loc x t')
    (hu : Puts u loc x u') : Tandem base own mine t u t' u' where
  alike := {
    left := h.left.trans (ht.sameFrame (h.left.isEnd hend) hx)
    right := h.right.trans (hu.sameFrame (h.right.isEnd hend) hx)
    same := fun l hl => by rw [ht.find?, hu.find?, h.same l hl] }
  left := ht.within hloc
  right := hu.within hloc

end

end FileTree

namespace Discovery

open FileTree

/-- A path to a regular file is one in every tree of the frame that has a file there. -/
theorem Plain.frame {base t : FileTree} {p : Path} {loc : Location} (h : Plain base p loc)
    (hframe : SameFrame base t) (hfound : ∃ c m, t.find? loc = some (.file c m)) :
    Plain t p loc := by
  refine ⟨hfound, fun follow place hr => ?_⟩
  obtain ⟨c, m, hplace⟩ := h.leads follow _ (resolve_frame hframe.symm hr)
  obtain ⟨c', m', hfind⟩ := hfound
  have hback := resolve_frame hframe.symm hr
  rw [hplace] at hback
  exact ⟨c', m', Except.ok.inj (hr.symm.trans (resolve_file hframe hback hfind))⟩

end Discovery

namespace Commit

open Disk FileTree

/-! ## The temporary file -/

section
variable {base : FileTree} {own mine : Location → Prop} {t u : FileTree}

/-- The temporary files of a file are among the locations. -/
def Temps (own : Location → Prop) (p : Path) : Prop :=
  ∀ dir token, own (dir ++ [FileName.bytes (tempName p.name token)])

theorem tempName_ne_up (name : Text) (token : Nat) :
    FileName.bytes (tempName name token) ≠ upName := by
  intro h
  obtain ⟨front, hfront⟩ := tempName_eq name token
  have hup : upName.length = 2 := by decide
  have hend : (Bytes.ofString ".tmp").length = 4 := by decide
  have hlength := congrArg List.length (h.symm.trans hfront)
  rw [List.length_append] at hlength
  omega

theorem tempPath_frame (h : SameFrame base t) (p : Path) (token : Nat) :
    tempPath t p token = tempPath base p token := by
  rw [tempPath, tempPath, lexicalParent, lexicalParent, base_frame h]

theorem resolve_temp (h : Alike base own t u) {p : Path} (htemps : Temps own p) (token : Nat) :
    (∃ e e', t.resolve false (tempPath t p token) = .error e ∧
      u.resolve false (tempPath u p token) = .error e') ∨
    ∃ loc, t.resolve false (tempPath t p token) = .ok (t.seat loc) ∧
      u.resolve false (tempPath u p token) = .ok (u.seat loc) ∧ u.find? loc = t.find? loc ∧
      ∃ dir, loc = dir ++ [FileName.bytes (tempName p.name token)] := by
  rw [tempPath_frame h.left, tempPath_frame h.right]
  cases hr : base.resolve false (tempPath base p token) with
  | error e =>
    obtain ⟨e₁, h₁⟩ := resolve_error_frame h.left hr
    obtain ⟨e₂, h₂⟩ := resolve_error_frame h.right hr
    exact .inl ⟨e₁, e₂, h₁, h₂⟩
  | ok place =>
    obtain ⟨dir, rfl⟩ := resolve_seated rfl (tempName_ne_up p.name token) hr
    exact .inr ⟨_, resolve_seat h.left hr, resolve_seat h.right hr, h.same _ (htemps dir token), dir,
      rfl⟩

theorem tempTaken_alike (h : Alike base own t u) {p : Path} (htemps : Temps own p) (token : Nat) :
    tempTaken u p token = tempTaken t p token := by
  rw [tempTaken, tempTaken]
  rcases resolve_temp h htemps token with ⟨e, e', ht, hu⟩ | ⟨loc, ht, hu, hsame, -⟩
  · rw [ht, hu]
  · rw [ht, hu, seat, seat, hsame]

/-- The nodes are too few for all numbers up to theirs to be taken. -/
theorem exists_untaken (t : FileTree) (p : Path) :
    ∃ token < t.nodes.length + 1, tempTaken t p token = false := by
  by_contra hall
  push Not at hall
  let names : List (Option Bytes) := (List.range (t.nodes.length + 1)).map fun token =>
    some (FileName.bytes (tempName p.name token))
  have hnodup : names.Nodup := List.nodup_range.map fun _ _ h => tempName_inj (Option.some.inj h)
  -- a number that is taken is the last name of a node
  have hsub : names ⊆ (t.nodes.map (·.1)).map List.getLast? := by
    intro name hname
    obtain ⟨token, htoken, rfl⟩ := List.mem_map.1 hname
    have h := hall token (List.mem_range.1 htoken)
    unfold tempTaken at h
    split at h
    · rename_i loc n hr
      obtain ⟨dir, hplace⟩ := resolve_seated rfl (tempName_ne_up p.name token) hr
      rw [seat] at hplace
      split at hplace
      · rename_i m hfind
        rw [FileTree.find?, if_neg (by simp)] at hfind
        refine List.mem_map.2 ⟨_, List.mem_map.2 ⟨_, mem_of_lookup hfind, rfl⟩, ?_⟩
        rw [List.getLast?_concat]
      · cases hplace
    · exact absurd rfl h
  have hlength := (hnodup.subperm hsub).length_le
  simp only [names, List.length_map, List.length_range] at hlength
  omega

/-- **The first free number is the same one.** -/
theorem freshToken_alike (h : Alike base own t u) {p : Path} (htemps : Temps own p) :
    freshToken u p = freshToken t p := by
  have hfirst : ∀ s : FileTree, ∃ n, (List.range (s.nodes.length + 1)).find? (!tempTaken s p ·)
      = some n := by
    intro s
    obtain ⟨k, hk, hfree⟩ := exists_untaken s p
    refine Option.isSome_iff_exists.1 (List.find?_isSome.2 ⟨k, List.mem_range.2 hk, ?_⟩)
    rw [hfree]
    rfl
  obtain ⟨n, hn⟩ := hfirst t
  obtain ⟨m, hm⟩ := hfirst u
  rw [freshToken, freshToken, hn, hm]
  obtain ⟨hfree, -, hbefore⟩ := List.find?_range_eq_some.1 hn
  obtain ⟨hfree', -, hbefore'⟩ := List.find?_range_eq_some.1 hm
  simp only [tempTaken_alike h htemps] at hfree' hbefore'
  -- the smaller of the two would be taken, being met before the larger
  rcases Nat.lt_trichotomy n m with hlt | rfl | hlt
  · have htaken := hbefore' n hlt
    rw [hfree] at htaken
    cases htaken
  · rfl
  · have htaken := hbefore m hlt
    rw [hfree'] at htaken
    cases htaken

theorem createTemp_alike (h : Alike base own t u) {p : Path} (htemps : Temps own p) :
    (∃ e e', createTemp p t = .error e ∧ createTemp p u = .error e') ∨
    ∃ temp temp' t' u', createTemp p t = .ok (temp, t') ∧ createTemp p u = .ok (temp', u') := by
  unfold createTemp
  cases p.fault? with
  | some f => exact .inl ⟨f, f, rfl, rfl⟩
  | none =>
    rw [freshToken_alike h htemps]
    dsimp only
    rcases resolve_temp h htemps (freshToken t p) with ⟨e, e', ht, hu⟩ | ⟨loc, ht, hu, hsame, -⟩
    · rw [ht, hu]
      exact .inl ⟨_, _, rfl, rfl⟩
    · rw [ht, hu, seat, seat, hsame]
      cases t.find? loc with
      | none => exact .inr ⟨_, _, _, _, rfl, rfl⟩
      | some n => exact .inl ⟨_, _, rfl, rfl⟩

/-- Whether the device refuses a temporary file does not depend on the tree. -/
theorem unlessRefused_alike (refusal : Option String) (h : Alike base own t u) {p : Path}
    (htemps : Temps own p) :
    (∃ e e', unlessRefused refusal (createTemp p) t = .error e ∧
      unlessRefused refusal (createTemp p) u = .error e') ∨
    ∃ temp temp' t' u', unlessRefused refusal (createTemp p) t = .ok (temp, t') ∧
      unlessRefused refusal (createTemp p) u = .ok (temp', u') := by
  cases refusal with
  | some detail => exact .inl ⟨_, _, rfl, rfl⟩
  | none => exact createTemp_alike h htemps

/-! ## The parts of a commit -/

/-- A path that leads, if anywhere, to one of the locations that a commit may change. -/
def Aims (base : FileTree) (mine : Location → Prop) (p : Path) : Prop :=
  ∀ place, base.resolve false p = .ok place → ∃ loc, place = base.seat loc ∧ mine loc

/-- A path to such a location at which no directory and no link stands. -/
def Spare (base : FileTree) (mine : Location → Prop) (p : Path) : Prop :=
  ∃ loc, base.resolve false p = .ok (base.seat loc) ∧ isEnd (base.find? loc) ∧ mine loc

/-- Whether a content can be written does not depend on the tree. -/
theorem fill_cases (outage : Outage) (f : PlannedFile) (loc : Location) :
    (∃ bytes, ∀ s, fill outage f loc s = .ok ((), s.set loc (.file bytes defaultMode))) ∨
      ∃ e, ∀ s, fill outage f loc s = .error e := by
  have hwrite : (∃ bytes, ∀ s, fill.write f loc s = .ok ((), s.set loc (.file bytes defaultMode))) ∨
      ∃ e, ∀ s, fill.write f loc s = .error e := by
    unfold fill.write
    cases Utf8.encode f.content with
    | ok bytes => exact .inl ⟨bytes, fun _ => rfl⟩
    | error e => exact .inr ⟨_, fun _ => rfl⟩
  unfold fill
  split
  · split
    · exact .inr ⟨_, fun _ => rfl⟩
    · exact hwrite
  · exact hwrite

variable (hown : ∀ loc, mine loc → own loc)
include hown

theorem createNew_alike (h : Alike base own t u) {p : Path} (haims : Aims base mine p) :
    (∃ e e', createNew p t = .error e ∧ createNew p u = .error e' ∧
      isOccupied e' = isOccupied e) ∨
    ∃ loc, base.resolve false p = .ok (base.seat loc) ∧ mine loc ∧ t.find? loc = none ∧
      u.find? loc = none ∧ createNew p t = .ok (loc, t.insert loc (.file [] defaultMode)) ∧
      createNew p u = .ok (loc, u.insert loc (.file [] defaultMode)) := by
  unfold createNew
  cases p.fault? with
  | some f => exact .inl ⟨f, f, rfl, rfl, rfl⟩
  | none =>
    dsimp only
    cases hr : base.resolve false p with
    | error e =>
      obtain ⟨e₁, h₁⟩ := resolve_error_frame h.left hr
      obtain ⟨e₂, h₂⟩ := resolve_error_frame h.right hr
      rw [h₁, h₂]
      refine .inl ⟨_, _, rfl, rfl, ?_⟩
      have hne₁ := resolve_ne_fileExists h₁
      have hne₂ := resolve_ne_fileExists h₂
      cases e₁ <;> cases e₂ <;> simp_all [isOccupied]
    | ok place =>
      obtain ⟨loc, rfl, hloc⟩ := haims _ hr
      rw [resolve_seat h.left hr, resolve_seat h.right hr, seat, seat, h.same loc (hown loc hloc)]
      cases hfind : t.find? loc with
      | none =>
        refine .inr ⟨loc, rfl, hloc, hfind, ?_, rfl, rfl⟩
        rw [h.same loc (hown loc hloc), hfind]
      | some n => exact .inl ⟨_, _, rfl, rfl, rfl⟩

/-- **One planned file on both trees.** If it is made, its path was free. -/
theorem tandem_writeNew (outage : Outage) (h : Alike base own t u) {f : PlannedFile}
    (haims : Aims base mine f.path) :
    ∃ r r' t' u', (writeNew outage f).Does t r t' ∧ (writeNew outage f).Does u r' u' ∧
      r'.toOption = r.toOption ∧ Tandem base own mine t u t' u' ∧
      (r = .ok true → Spare base mine f.path) := by
  rcases createNew_alike hown h haims with ⟨e, e', ht, hu, hocc⟩ | ⟨loc, hr, hloc, ht, hu, hnew, hnew'⟩
  · cases he : isOccupied e with
    | true =>
      rw [he] at hocc
      exact ⟨_, _, t, u, writeNew_kept ht he, writeNew_kept hu hocc, rfl, h.tandem, by simp⟩
    | false =>
      rw [he] at hocc
      exact ⟨_, _, t, u, writeNew_refused ht he, writeNew_refused hu hocc, rfl, h.tandem, by simp⟩
  · have hend : isEnd (base.find? loc) := h.left.symm.isEnd (by rw [ht]; rfl)
    have hputs : ∀ bytes, Tandem base own mine t u (t.insert loc (.file bytes defaultMode))
        (u.insert loc (.file bytes defaultMode)) := fun bytes =>
      h.puts hloc hend rfl (puts_insert ht _) (puts_insert hu _)
    rcases fill_cases outage f loc with ⟨bytes, hfill⟩ | ⟨e, hfill⟩
    · refine ⟨_, _, _, _, writeNew_made hnew (hfill _), writeNew_made hnew' (hfill _), rfl, ?_,
        fun _ => ⟨loc, hr, hend, hloc⟩⟩
      rw [set_insert ht, set_insert hu]
      exact hputs bytes
    · exact ⟨_, _, _, _, writeNew_torn hnew (hfill _), writeNew_torn hnew' (hfill _), rfl, hputs [],
        by simp⟩

/-- A file that is planned for one tree only is not made there: a link stands at its path. -/
structure Barred (base : FileTree) (p : Path) : Prop where
  link : ∃ loc target, base.resolve false p = .ok (.present loc (.link target))
  nameable : p.fault? = none

omit hown in
theorem Barred.kept (h : Barred base f.path) (hframe : SameFrame base t) (outage : Outage) :
    (writeNew outage f).Does t (.ok false) t := by
  obtain ⟨loc, target, hr⟩ := h.link
  have hopen : createNew f.path t = .error (.errno .fileExists f.path.text) := by
    rw [createNew, h.nameable, resolve_frame hframe hr]
    rfl
  exact writeNew_kept hopen rfl

variable (base own mine) in
/-- Planned files are made in turn on the trees `t` and `u`, `files` on the one and `files'` on the
other: the same ones are made, and all of them can be on both or on neither. -/
def LandAlike (outage : Outage) (files files' : List PlannedFile) (done done' : Result)
    (t u : FileTree) : Prop :=
  ∃ r r' failed failed' t' u',
    (landFiles outage files done).Does t (.ok (r, failed)) t' ∧
    (landFiles outage files' done').Does u (.ok (r', failed')) u' ∧
    r'.created = r.created ∧ failed'.isSome = failed.isSome ∧
    (∀ q ∈ r.created, Spare base mine q) ∧ Tandem base own mine t u t' u'

section
variable {outage : Outage} {f : PlannedFile} {files files' : List PlannedFile}
  {done done' : Result} {t u : FileTree}

omit hown in
/-- A link stands in the way of a file that is planned for the first tree only. -/
theorem LandAlike.left (hf : Barred base f.path) (hframe : SameFrame base t)
    (h : LandAlike base own mine outage files files' (done.note f.path false) done' t u) :
    LandAlike base own mine outage (f :: files) files' done done' t u := by
  obtain ⟨r, r', failed, failed', t', u', hleft, hright, hrest⟩ := h
  exact ⟨r, r', failed, failed', t', u', landFiles_cons (hf.kept hframe outage) hleft, hright, hrest⟩

omit hown in
/-- A link stands in the way of a file that is planned for the second tree only. -/
theorem LandAlike.right (hf : Barred base f.path) (hframe : SameFrame base u)
    (h : LandAlike base own mine outage files files' done (done'.note f.path false) t u) :
    LandAlike base own mine outage files (f :: files') done done' t u := by
  obtain ⟨r, r', failed, failed', t', u', hleft, hright, hrest⟩ := h
  exact ⟨r, r', failed, failed', t', u', hleft, landFiles_cons (hf.kept hframe outage) hright, hrest⟩

omit hown in
theorem LandAlike.both {made : Bool} {t₁ u₁ : FileTree}
    (hleft : (writeNew outage f).Does t (.ok made) t₁)
    (hright : (writeNew outage f).Does u (.ok made) u₁) (htandem : Tandem base own mine t u t₁ u₁)
    (h : LandAlike base own mine outage files files' (done.note f.path made)
      (done'.note f.path made) t₁ u₁) :
    LandAlike base own mine outage (f :: files) (f :: files') done done' t u := by
  obtain ⟨r, r', failed, failed', t', u', hl, hr, hcreated, hfailed, hspare, hrest⟩ := h
  exact ⟨r, r', failed, failed', t', u', landFiles_cons hleft hl, landFiles_cons hright hr, hcreated,
    hfailed, hspare, htandem.trans hrest⟩

end

/-- **The planned files on both trees**, where `a` and `b` tell those that are planned for either. -/
theorem tandem_landFiles (outage : Outage) (a b : PlannedFile → Bool) {files : List PlannedFile}
    (haims : ∀ f ∈ files, Aims base mine f.path)
    (hbarred : ∀ f ∈ files, a f ≠ b f → Barred base f.path) {t u : FileTree}
    (h : Alike base own t u) {done done' : Result} (hdone : done'.created = done.created)
    (hspare : ∀ q ∈ done.created, Spare base mine q) :
    LandAlike base own mine outage (files.filter a) (files.filter b) done done' t u := by
  induction files generalizing t u done done' with
  | nil =>
    exact ⟨done, done', none, none, t, u, landFiles_nil, landFiles_nil, hdone, rfl, hspare, h.tandem⟩
  | cons f files ih =>
    have haims' : ∀ g ∈ files, Aims base mine g.path := fun g hg => haims g (List.mem_cons_of_mem _ hg)
    have hbarred' : ∀ g ∈ files, a g ≠ b g → Barred base g.path := fun g hg =>
      hbarred g (List.mem_cons_of_mem _ hg)
    have hlink := hbarred f List.mem_cons_self
    cases ha : a f with
    | false =>
      rw [List.filter_cons_of_neg (by simp [ha])]
      cases hb : b f with
      | false =>
        rw [List.filter_cons_of_neg (by simp [hb])]
        exact ih haims' hbarred' h hdone hspare
      | true =>
        rw [List.filter_cons_of_pos hb]
        exact .right (hlink (by simp [ha, hb])) h.right (ih haims' hbarred' h hdone hspare)
    | true =>
      rw [List.filter_cons_of_pos ha]
      cases hb : b f with
      | false =>
        rw [List.filter_cons_of_neg (by simp [hb])]
        exact .left (hlink (by simp [ha, hb])) h.left (ih haims' hbarred' h hdone hspare)
      | true =>
        rw [List.filter_cons_of_pos hb]
        obtain ⟨s, s', t₁, u₁, hwrite, hwrite', hsame, htandem, hmade⟩ :=
          tandem_writeNew hown outage h (haims f List.mem_cons_self)
        rcases s with e | made <;> rcases s' with e' | made'
        · exact ⟨done, done', some e, some e', t₁, u₁, landFiles_cons_error hwrite,
            landFiles_cons_error hwrite', hdone, rfl, hspare, htandem⟩
        · cases hsame
        · cases hsame
        · obtain rfl : made = made' := (Option.some.inj hsame).symm
          cases made with
          | false =>
            exact .both hwrite hwrite' htandem (ih haims' hbarred' htandem.alike hdone hspare)
          | true =>
            refine .both hwrite hwrite' htandem
              (ih haims' hbarred' htandem.alike (congrArg (· ++ [f.path]) hdone) ?_)
            refine List.forall_mem_append.2 ⟨hspare, List.forall_mem_singleton.2 (hmade rfl)⟩

omit hown in
theorem puts_remove {q : Path} {loc : Location} (hr : base.resolve false q = .ok (base.seat loc))
    (hend : isEnd (base.find? loc)) (hframe : SameFrame base t) :
    ∃ t', remove q t = .ok ((), t') ∧ Puts t loc none t' := by
  have hne : loc ≠ [] := by
    rintro rfl
    simp [FileTree.find?, isEnd] at hend
  rw [remove, resolve_seat hframe hr, seat]
  cases hfind : t.find? loc with
  | none => exact ⟨t, rfl, hfind ▸ puts_refl⟩
  | some n => exact ⟨_, rfl, puts_erase hne⟩

omit hown in
/-- **Files are taken away from both trees.** -/
theorem tandem_removeAll {qs : List Path} (hspare : ∀ q ∈ qs, Spare base mine q) {t u : FileTree}
    (h : Alike base own t u) :
    ∃ t' u', (removeAll qs).Does t (.ok ()) t' ∧ (removeAll qs).Does u (.ok ()) u' ∧
      Tandem base own mine t u t' u' := by
  induction qs generalizing t u with
  | nil => exact ⟨t, u, does_pure _, does_pure _, h.tandem⟩
  | cons q qs ih =>
    obtain ⟨loc, hr, hend, hloc⟩ := hspare q List.mem_cons_self
    obtain ⟨t₁, hremove, hputs⟩ := puts_remove hr hend h.left
    obtain ⟨u₁, hremove', hputs'⟩ := puts_remove hr hend h.right
    have htandem := h.puts hloc hend rfl hputs hputs'
    obtain ⟨t', u', hleft, hright, hrest⟩ :=
      ih (fun p hp => hspare p (List.mem_cons_of_mem _ hp)) htandem.alike
    simp only [removeAll]
    exact ⟨t', u', (does_step hremove).bind hleft, (does_step hremove').bind hright,
      htandem.trans hrest⟩

section
variable {path : Path} {loc : Location} (hplain : Discovery.Plain base path loc) (hloc : mine loc)
  (htemps : Temps own path)
include hplain hloc htemps

/-- **The source is replaced in both trees**, or in neither. -/
theorem tandem_replaceSource (outage : Outage) (h : Alike base own t u) {old : Bytes} {mode : Nat}
    (hread : t.resolve true path = .ok (.present loc (.file old mode))) (content : Bytes) :
    ∃ r r' t' u', (replaceSource outage path content).Does t r t' ∧
      (replaceSource outage path content).Does u r' u' ∧ r'.toOption = r.toOption ∧
      Tandem base own mine t u t' u' := by
  have hfind := find?_of_file hread
  have hfind' : u.find? loc = some (.file old mode) := (h.same loc (hown loc hloc)).trans hfind.2
  have hread' := resolve_file (h.left.symm.trans h.right) hread hfind'
  rcases unlessRefused_alike outage.temp h htemps with
    ⟨e, e', ht, hu⟩ | ⟨temp, temp', t₁, u₁, ht, hu⟩
  · exact ⟨_, _, t, u, replaceSource_unopened ht, replaceSource_unopened hu, rfl, h.tandem⟩
  cases hrefused : refusal outage with
  | some detail =>
    exact ⟨_, _, t, u, replaceSource_refused hread ht content hrefused,
      replaceSource_refused hread' hu content hrefused, rfl, h.tandem⟩
  | none =>
    obtain ⟨l, n, hr, -, hdoes⟩ := replaceSource_moved hread ht content hrefused
    obtain ⟨l', n', hr', -, hdoes'⟩ := replaceSource_moved hread' hu content hrefused
    obtain ⟨c, m, hplace⟩ := (hplain.frame h.left ⟨old, mode, hfind.2⟩).leads false _ hr
    obtain ⟨c', m', hplace'⟩ := (hplain.frame h.right ⟨old, mode, hfind'⟩).leads false _ hr'
    cases hplace
    cases hplace'
    obtain ⟨d, k, hbase⟩ := hplain.found
    refine ⟨_, _, _, _, hdoes, hdoes', rfl, h.puts hloc (by rw [hbase]; rfl) rfl
      (puts_set hfind.1 hfind.2 _) (puts_set hfind.1 hfind' _)⟩

/-! ## The whole commit -/

/-- What a commit has made, if it has succeeded. -/
def createdBy (r : Except IoFault Result) : Option (List Path) := r.toOption.map (·.created)

/-- **One commit on two trees**: it makes the same files on both or fails on both. Files may be
planned for one of the trees only, if links stand at their paths. -/
theorem tandem_commit (outage : Outage) (h : Alike base own t u) {old : Bytes} {mode : Nat}
    (hread : t.resolve true path = .ok (.present loc (.file old mode))) {files : List PlannedFile}
    (a b : PlannedFile → Bool) {targets : Location → Prop} (htargets : ∀ l, targets l → mine l)
    (hapart : ¬ targets loc) (haims : ∀ f ∈ files, Aims base targets f.path)
    (hbarred : ∀ f ∈ files, a f ≠ b f → Barred base f.path) (staging : Staging) :
    ∃ r r' t' u', (Patch.commit outage ⟨path, staging, files.filter a⟩).Does t r t' ∧
      (Patch.commit outage ⟨path, staging, files.filter b⟩).Does u r' u' ∧
      createdBy r' = createdBy r ∧ Tandem base own mine t u t' u' := by
  have hown' : ∀ l, targets l → own l := fun l hl => hown l (htargets l hl)
  obtain ⟨done, done', failed, failed', t₁, u₁, hland, hland', hcreated, hfailed, hspare, htandem⟩ :=
    tandem_landFiles hown' outage a b haims hbarred h (@rfl _ ({} : Result).created) (by simp)
  have hmine := htandem.mono htargets
  unfold Patch.commit
  cases failed with
  | some e =>
    -- the same files have been made in both, so the same are taken away
    obtain ⟨e', rfl⟩ := Option.isSome_iff_exists.1 hfailed
    obtain ⟨t₂, u₂, hundo, hundo', hback⟩ := tandem_removeAll hspare htandem.alike
    rw [← hcreated] at hundo'
    exact ⟨.error e, .error e', t₂, u₂, hland.bind (hundo.bind (does_throw e)),
      hland'.bind (hundo'.bind (does_throw e')), rfl, hmine.trans (hback.mono htargets)⟩
  | none =>
    obtain rfl : failed' = none := by simpa using hfailed
    cases hedits : staging.edits.isEmpty with
    | true =>
      refine ⟨.ok done, .ok done', t₁, u₁, hland.bind ?_, hland'.bind ?_, congrArg some hcreated, hmine⟩
      · simp only [↓reduceIte]
        exact does_pure done
      · simp only [↓reduceIte]
        exact does_pure done'
    | false =>
      have hread₁ : t₁.resolve true path = .ok (.present loc (.file old mode)) :=
        resolve_file (h.left.symm.trans htandem.alike.left) hread
          ((htandem.left.kept loc hapart).trans (find?_of_file hread).2)
      obtain ⟨r, r', t₂, u₂, hreplace, hreplace', hsame, hsecond⟩ :=
        tandem_replaceSource hown hplain hloc htemps outage htandem.alike hread₁ staging.render
      have hboth := hmine.trans hsecond
      rcases r with e | ⟨⟩ <;> rcases r' with e' | ⟨⟩
      · obtain ⟨t₃, u₃, hundo, hundo', hback⟩ := tandem_removeAll hspare hsecond.alike
        rw [← hcreated] at hundo'
        refine ⟨.error e, .error e', t₃, u₃, hland.bind ?_, hland'.bind ?_, rfl,
          hboth.trans (hback.mono htargets)⟩
        · simp only [Bool.false_eq_true, ↓reduceIte]
          exact (orElseUndo_error hreplace hundo).bind_error
        · simp only [Bool.false_eq_true, ↓reduceIte]
          exact (orElseUndo_error hreplace' hundo').bind_error
      · cases hsame
      · cases hsame
      · refine ⟨.ok done, .ok done', t₂, u₂, hland.bind ?_, hland'.bind ?_, congrArg some hcreated,
          hboth⟩
        · simp only [Bool.false_eq_true, ↓reduceIte]
          exact (orElseUndo_ok hreplace).bind (does_pure done)
        · simp only [Bool.false_eq_true, ↓reduceIte]
          exact (orElseUndo_ok hreplace').bind (does_pure done')

end

end

end Commit

end AssetLift
