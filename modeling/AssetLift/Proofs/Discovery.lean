import AssetLift.Discovery
import AssetLift.Proofs.Activity
import AssetLift.Proofs.FileName
import AssetLift.Proofs.FileTree
import Mathlib.Data.List.Nodup

/-!
# Where candidates stand

In a tree in which every location is taken once and no name is `..` (`FileTree.WellFormed`), the
candidates of a root are regular files, no two of them at one location, and their paths pass no link
below the root (`candidates_plain`).

* `Beneath`: the names that lead from a directory down to a candidate.
* `Plain`: a path that leads to one regular file, however its last name is looked at.
-/

namespace AssetLift

namespace FileTree

/-- Every location is taken once, and no name stands for the directory above. -/
structure WellFormed (t : FileTree) : Prop where
  nodup : (t.nodes.map (·.1)).Nodup
  names : ∀ e ∈ t.nodes, upName ∉ e.1

instance (t : FileTree) : Decidable t.WellFormed :=
  decidable_of_iff ((t.nodes.map (·.1)).Nodup ∧ ∀ e ∈ t.nodes, upName ∉ e.1)
    ⟨fun ⟨h₁, h₂⟩ => ⟨h₁, h₂⟩, fun ⟨h₁, h₂⟩ => ⟨h₁, h₂⟩⟩

theorem nameIn?_eq_some {dir loc : Location} {name : Bytes} :
    nameIn? dir loc = some name ↔ loc = dir ++ [name] := by
  unfold nameIn?
  constructor
  · intro h
    obtain ⟨⟨hlen, hpre⟩, hlast⟩ := Option.ite_none_right_eq_some.1 h
    obtain ⟨rest, rfl⟩ := List.isPrefixOf_iff_prefix.1 hpre
    obtain ⟨a, rfl⟩ : ∃ a, rest = [a] := by
      rw [List.length_append] at hlen
      exact List.length_eq_one_iff.1 (by omega)
    simpa using hlast
  · rintro rfl
    simp

/-- The entries of a directory are what stands at the names in it. -/
theorem mem_entries {t : FileTree} {dir : Location} {e : Bytes × FileNode} :
    e ∈ t.entries dir ↔ (dir ++ [e.1], e.2) ∈ t.nodes := by
  unfold entries
  rw [List.mem_filterMap]
  constructor
  · rintro ⟨⟨loc, n⟩, hmem, hname⟩
    obtain ⟨name, hloc, rfl⟩ := Option.map_eq_some_iff.1 hname
    rw [← nameIn?_eq_some.1 hloc]
    exact hmem
  · intro hmem
    exact ⟨_, hmem, by rw [nameIn?_eq_some.2 rfl]; rfl⟩

theorem mem_of_find? {t : FileTree} {loc : Location} {n : FileNode} (hne : loc ≠ [])
    (h : t.find? loc = some n) : (loc, n) ∈ t.nodes := by
  rw [find?, if_neg hne] at h
  exact mem_of_lookup h

theorem mem_entries_of_find? {t : FileTree} {dir : Location} {name : Bytes} {n : FileNode}
    (h : t.find? (dir ++ [name]) = some n) : (name, n) ∈ t.entries dir :=
  mem_entries.2 (mem_of_find? (by simp) h)

namespace WellFormed

variable {t : FileTree} (hw : t.WellFormed)
include hw

theorem find?_of_mem {e : Location × FileNode} (he : e ∈ t.nodes) (hne : e.1 ≠ []) :
    t.find? e.1 = some e.2 := by
  rw [find?, if_neg hne]
  exact lookup_of_mem hw.nodup he

theorem find?_of_entry {dir : Location} {e : Bytes × FileNode} (he : e ∈ t.entries dir) :
    t.find? (dir ++ [e.1]) = some e.2 :=
  hw.find?_of_mem (mem_entries.1 he) (by simp)

theorem name_of_entry {dir : Location} {e : Bytes × FileNode} (he : e ∈ t.entries dir) :
    e.1 ≠ upName := by
  rintro heq
  exact hw.names _ (mem_entries.1 he) (by simp [heq])

/-- A directory has each of its names once. -/
theorem entries_nodup (dir : Location) : (t.entries dir).Pairwise fun d e => d.1 ≠ e.1 := by
  have hkeys : t.nodes.Pairwise fun d e => d.1 ≠ e.1 := List.pairwise_map.1 hw.nodup
  refine List.pairwise_filterMap.2 (hkeys.imp fun {d e} hde x hx y hy => ?_)
  obtain ⟨a, ha, rfl⟩ := Option.map_eq_some_iff.1 hx
  obtain ⟨b, hb, rfl⟩ := Option.map_eq_some_iff.1 hy
  rw [nameIn?_eq_some.1 ha, nameIn?_eq_some.1 hb] at hde
  exact fun hab => hde (by rw [show a = b from hab])

end WellFormed

/-! ## Going down from a directory -/

/-- **A path that goes on from a directory** is followed from there. -/
theorem Leads.append {t : FileTree} {links : Nat} {dir : Location} {xs : List Bytes}
    {loc : Location} (hl : Leads t true links dir xs (.ok (.present loc .directory)))
    (follow : Bool) {ys : List Bytes} (hys : ys ≠ []) :
    ∃ more, t.resolveFrom follow links dir (xs ++ ys) = t.resolveFrom follow more loc ys := by
  generalize hr : Except.ok (Place.present loc .directory) = r at hl
  induction hl with
  | here => cases hr; exact ⟨_, rfl⟩
  | up _ ih =>
    obtain ⟨more, hm⟩ := ih hr
    exact ⟨more, by rw [List.cons_append, resolveFrom, if_pos rfl, hm]⟩
  | stuck => cases hr
  | ending hup hlen hend =>
    rcases seat_of_end hend with ⟨-, hs⟩ | ⟨c, m, -, hs⟩ <;> rw [hs] at hr <;> cases hr
  | into hup hlen hf _ ih =>
    obtain ⟨more, hm⟩ := ih hr
    exact ⟨more, by rw [List.cons_append, resolveFrom, if_neg hup, if_neg hlen, hf]; exact hm⟩
  | link _ _ _ hstay => cases hstay
  | @through k dir name rest target r hup hlen hf _ _ ih =>
    obtain ⟨more, hm⟩ := ih hr
    have hne : ((rest ++ ys).isEmpty && !follow) = false := by simp [hys]
    refine ⟨more, ?_⟩
    rw [List.cons_append, resolveFrom, if_neg hup, if_neg hlen, hf]
    simp only [hne, Bool.false_eq_true, ↓reduceIte]
    rw [← List.append_assoc]
    exact hm

/-- **A path that leads somewhere passes directories**: what comes first leads to one, and the rest is
followed from there. -/
theorem Leads.split {t : FileTree} {follow : Bool} {links : Nat} {dir : Location}
    {xs ys : List Bytes} {place : Place} (h : Leads t follow links dir (xs ++ ys) (.ok place))
    (hys : ys ≠ []) : ∃ more loc, Leads t true links dir xs (.ok (.present loc .directory)) ∧
      Leads t follow more loc ys (.ok place) := by
  generalize hns : xs ++ ys = ns at h
  generalize hr : Except.ok place = r at h
  induction h generalizing xs with
  | here => exact absurd (List.append_eq_nil_iff.1 hns).2 hys
  | stuck => cases hr
  | up hrest ih =>
    cases xs with
    | nil =>
      obtain rfl : ys = _ := hns
      exact ⟨_, _, .here, .up hrest⟩
    | cons n xs =>
      obtain ⟨rfl, htail⟩ := List.cons.inj hns
      obtain ⟨more, loc, hfront, hlast⟩ := ih htail hr
      exact ⟨more, loc, .up hfront, hlast⟩
  | @ending k _ _ hup hlen hend =>
    cases xs with
    | nil =>
      obtain rfl : ys = _ := hns
      exact ⟨k, _, .here, .ending hup hlen hend⟩
    | cons n xs => exact absurd (List.append_eq_nil_iff.1 (List.cons.inj hns).2).2 hys
  | into hup hlen hfind hrest ih =>
    cases xs with
    | nil =>
      obtain rfl : ys = _ := hns
      exact ⟨_, _, .here, .into hup hlen hfind hrest⟩
    | cons n xs =>
      obtain ⟨rfl, htail⟩ := List.cons.inj hns
      obtain ⟨more, loc, hfront, hlast⟩ := ih htail hr
      exact ⟨more, loc, .into hup hlen hfind hfront, hlast⟩
  | @link k _ _ _ hup hlen hfind hstay =>
    cases xs with
    | nil =>
      obtain rfl : ys = _ := hns
      exact ⟨k, _, .here, .link hup hlen hfind hstay⟩
    | cons n xs => exact absurd (List.append_eq_nil_iff.1 (List.cons.inj hns).2).2 hys
  | through hup hlen hfind hgo hrest ih =>
    cases xs with
    | nil =>
      obtain rfl : ys = _ := hns
      exact ⟨_, _, .here, .through hup hlen hfind hgo hrest⟩
    | cons n xs =>
      obtain ⟨rfl, rfl⟩ := List.cons.inj hns
      obtain ⟨more, loc, hfront, hlast⟩ := ih (List.append_assoc _ _ _) hr
      exact ⟨more, loc, .through hup hlen hfind (by simp) hfront, hlast⟩

/-! ## Directories -/

theorem status_directory {t : FileTree} {p : Path} :
    t.status true p = .ok (some .directory) ↔
      p.fault? = none ∧ ∃ loc, t.resolve true p = .ok (.present loc .directory) := by
  unfold status
  constructor
  · intro h
    split at h
    · cases h
    rename_i hfault
    refine ⟨hfault, ?_⟩
    split at h
    · rename_i loc n hr
      obtain rfl : n = .directory := by simpa using h
      exact ⟨loc, hr⟩
    · cases h
    · cases h
    · cases h
  · rintro ⟨hfault, loc, hr⟩
    rw [hfault, hr]

theorem isDirectory_iff {t : FileTree} {p : Path} : t.isDirectory p = .ok true ↔
    p.fault? = none ∧ ∃ loc, t.resolve true p = .ok (.present loc .directory) := by
  rw [isDirectory, map_eq_ok, ← status_directory]
  simp

end FileTree

namespace Discovery

open FileTree

/-- The names that lead from a directory down to a candidate. -/
inductive Beneath (t : FileTree) (suffix : String) (skip : List Text) :
    Location → List Bytes → Prop
  | file {loc name c m} (hfind : t.find? (loc ++ [name]) = some (.file c m)) (hup : name ≠ upName)
      (hsuffix : endsIn suffix (FileName.text name) = true) : Beneath t suffix skip loc [name]
  | directory {loc name rest} (hfind : t.find? (loc ++ [name]) = some .directory)
      (hup : name ≠ upName) (hskip : FileName.text name ∉ skip)
      (hrest : Beneath t suffix skip (loc ++ [name]) rest) :
      Beneath t suffix skip loc (name :: rest)

/-- What lies beneath a directory is a file there. -/
theorem Beneath.found {t : FileTree} {suffix : String} {skip : List Text} {loc : Location}
    {names : List Bytes} (h : Beneath t suffix skip loc names) :
    names ≠ [] ∧ ∃ c m, t.find? (loc ++ names) = some (.file c m) := by
  induction h with
  | file hfind => exact ⟨by simp, _, _, hfind⟩
  | directory _ _ _ _ ih =>
    obtain ⟨-, c, m, hf⟩ := ih
    exact ⟨by simp, c, m, by simpa using hf⟩

/-- Its names lead nowhere else. -/
theorem Beneath.leads {t : FileTree} {suffix : String} {skip : List Text} {loc : Location}
    {names : List Bytes} (h : Beneath t suffix skip loc names) {follow : Bool} {links : Nat}
    {place : Place} (hr : t.resolveFrom follow links loc names = .ok place) :
    ∃ c m, place = .present (loc ++ names) (.file c m) := by
  induction h with
  | @file loc name c m hfind hup _ =>
    rw [resolveFrom, if_neg hup] at hr
    split at hr
    · cases hr
    · rw [hfind] at hr
      exact ⟨c, m, by simpa [eq_comm] using hr⟩
  | @directory loc name rest hfind hup _ _ ih =>
    rw [resolveFrom, if_neg hup] at hr
    split at hr
    · cases hr
    · rw [hfind] at hr
      obtain ⟨c, m, hp⟩ := ih hr
      exact ⟨c, m, by simpa using hp⟩

/-! ## Visits -/

section
variable {α β ε : Type} {look : α → Except ε (List β)} {as : List α} {found : List β}

theorem visit_cons_ok {a : α} : visit look (a :: as) = .ok found ↔
    ∃ xs ys, look a = .ok xs ∧ visit look as = .ok ys ∧ found = xs ++ ys := by
  rw [visit, bind_eq_ok]
  simp only [bind_eq_ok, pure_eq_ok]
  constructor
  · rintro ⟨xs, hxs, ys, hys, rfl⟩
    exact ⟨xs, ys, hxs, hys, rfl⟩
  · rintro ⟨xs, ys, hxs, hys, rfl⟩
    exact ⟨xs, hxs, ys, hys, rfl⟩

/-- What visits find is what one of them finds. -/
theorem mem_visit (h : visit look as = .ok found) {b : β} :
    b ∈ found ↔ ∃ a ∈ as, ∃ xs, look a = .ok xs ∧ b ∈ xs := by
  induction as generalizing found with
  | nil =>
    obtain rfl := Except.ok.inj h
    simp
  | cons a as ih =>
    obtain ⟨xs, ys, hxs, hys, rfl⟩ := visit_cons_ok.1 h
    rw [List.mem_append, ih hys, List.exists_mem_cons_iff]
    simp [hxs]

theorem visit_each (h : visit look as = .ok found) : ∀ a ∈ as, ∃ xs, look a = .ok xs := by
  induction as generalizing found with
  | nil => simp
  | cons a as ih =>
    obtain ⟨xs, ys, hxs, hys, -⟩ := visit_cons_ok.1 h
    exact List.forall_mem_cons.2 ⟨⟨xs, hxs⟩, ih hys⟩

/-- Visits that find different things find each thing once. -/
theorem visit_nodup (h : visit look as = .ok found)
    (heach : ∀ a ∈ as, ∀ xs, look a = .ok xs → xs.Nodup)
    (hapart : as.Pairwise fun a a' => ∀ xs ys, look a = .ok xs → look a' = .ok ys →
      List.Disjoint xs ys) : found.Nodup := by
  induction as generalizing found with
  | nil =>
    obtain rfl := Except.ok.inj h
    exact List.nodup_nil
  | cons a as ih =>
    obtain ⟨xs, ys, hxs, hys, rfl⟩ := visit_cons_ok.1 h
    obtain ⟨hfirst, hrest⟩ := List.pairwise_cons.1 hapart
    refine List.nodup_append'.2 ⟨heach a List.mem_cons_self xs hxs,
      ih hys (fun a' ha' => heach a' (List.mem_cons_of_mem _ ha')) hrest, fun b hbx hby => ?_⟩
    obtain ⟨a', ha', zs, hzs, hbz⟩ := (mem_visit hys).1 hby
    exact hfirst a' ha' xs zs hxs hzs hbx hbz

end

/-! ## One directory -/

section
variable {t : FileTree} {suffix : String} {skip : List Text} {d : Dir} {found : List Path}

theorem candidate?_eq_ok {e : Bytes × FileNode} (h : d.candidate? suffix e = .ok found) :
    found = [] ∨
      found = [d.child e.1] ∧ endsIn suffix (FileName.text e.1) = true ∧
        ∃ c m, e.2 = .file c m := by
  unfold Dir.candidate? at h
  dsimp only at h
  split at h
  · rename_i hsuffix
    split at h
    · cases h
    split at h
    · rename_i c m hnode
      exact .inr ⟨(Except.ok.inj h).symm, hsuffix, c, m, hnode⟩
    · exact .inl (Except.ok.inj h).symm
  · exact .inl (Except.ok.inj h).symm

theorem mem_candidate? {name : Bytes} {c : Bytes} {m : Nat}
    (h : d.candidate? suffix (name, .file c m) = .ok found)
    (hsuffix : endsIn suffix (FileName.text name) = true) : d.child name ∈ found := by
  unfold Dir.candidate? at h
  rw [if_pos hsuffix] at h
  split at h
  · cases h
  · cases h
    exact List.mem_singleton.2 rfl

/-- The candidates right in a directory are files of it. -/
theorem mem_files (h : d.files t suffix = .ok found) {p : Path} :
    p ∈ found ↔ ∃ name c m, (name, .file c m) ∈ t.entries d.loc ∧
      endsIn suffix (FileName.text name) = true ∧ p = d.child name := by
  unfold Dir.files at h
  split at h
  · cases h
  rw [mem_visit h]
  constructor
  · rintro ⟨⟨name, node⟩, hentry, xs, hxs, hp⟩
    rcases candidate?_eq_ok hxs with rfl | ⟨rfl, hsuffix, c, m, rfl⟩
    · simp at hp
    · exact ⟨name, c, m, (List.mem_filter.1 hentry).1, hsuffix, List.mem_singleton.1 hp⟩
  · rintro ⟨name, c, m, hentry, hsuffix, rfl⟩
    have hmem : (name, .file c m) ∈ (t.entries d.loc).filter fun e => !d.isDoor t e :=
      List.mem_filter.2 ⟨hentry, rfl⟩
    obtain ⟨xs, hxs⟩ := visit_each h _ hmem
    exact ⟨_, hmem, xs, hxs, mem_candidate? hxs hsuffix⟩

@[simp] theorem isDoor_directory {name : Bytes} : d.isDoor t (name, .directory) = true := rfl

@[simp] theorem isDoor_file {name : Bytes} {c : Bytes} {m : Nat} :
    d.isDoor t (name, .file c m) = false := rfl

/-- A link is listed as what it leads to. -/
theorem isDoor_link {name target : Bytes} {b : Bool}
    (hshort : isTooLong (d.textOf (FileName.text name)) = false)
    (hleads : t.isDirectory (d.child name) = .ok b) :
    d.isDoor t (name, .link target) = b := by
  rw [Dir.isDoor, hshort, hleads]
  cases b <;> rfl

/-- The candidates right in a directory, once it is known what is listed as directories. -/
theorem files_of_visit (others : List (Bytes × FileNode)) (hlist : isTooLong d.text = false)
    (hothers : ((t.entries d.loc).filter fun e => !d.isDoor t e) = others)
    (hvisit : visit (d.candidate? suffix) others = .ok found) : d.files t suffix = .ok found := by
  rw [Dir.files, hlist, hothers, hvisit]
  rfl

/-- The ways on, once it is known what is listed as directories and stands in the order of names. -/
theorem ways_of_doors (doors : List (Bytes × FileNode))
    (hdoors : ((t.entries d.loc).filter fun e =>
      d.isDoor t e && !skip.contains (FileName.text e.1)) = doors)
    (hsorted : doors.Pairwise fun e e' =>
      (!Path.nameBefore (FileName.text e'.1) (FileName.text e.1)) = true) :
    d.ways t skip = (doors.filter fun e => e.2 = .directory).map (·.1) := by
  have hskip : ∀ name, decide (name ∉ skip) = !skip.contains name := fun name => by
    rw [List.contains_eq_mem, decide_not]
  simp only [Dir.ways, Dir.doors, hskip, hdoors, List.mergeSort_of_pairwise hsorted]

theorem mem_doors {e : Bytes × FileNode} :
    e ∈ d.doors t skip ↔ e ∈ t.entries d.loc ∧ d.isDoor t e = true ∧ FileName.text e.1 ∉ skip := by
  simp [Dir.doors]

/-- The walk enters the directories without names to leave out. -/
theorem mem_ways {name : Bytes} : name ∈ d.ways t skip ↔
    (name, .directory) ∈ t.entries d.loc ∧ FileName.text name ∉ skip := by
  unfold Dir.ways
  simp only [List.mem_map, List.mem_filter, mem_doors, decide_eq_true_eq]
  constructor
  · rintro ⟨⟨name, node⟩, ⟨⟨hentry, -, hskip⟩, rfl⟩, rfl⟩
    exact ⟨hentry, hskip⟩
  · rintro ⟨hentry, hskip⟩
    exact ⟨(name, .directory), ⟨⟨hentry, rfl, hskip⟩, rfl⟩, rfl⟩

end

/-! ## The walk -/

theorem below_zero_ok {t : FileTree} {suffix : String} {skip : List Text} {d : Dir}
    {found : List Path} : below t suffix skip 0 d = .ok found ↔
      d.files t suffix = .ok found ∧ d.doors t skip = [] := by
  rw [below, bind_eq_ok]
  constructor
  · rintro ⟨here, hhere, h⟩
    split at h
    · obtain rfl := pure_eq_ok.1 h
      exact ⟨hhere, List.isEmpty_iff.1 ‹_›⟩
    · cases h
  · rintro ⟨hhere, hnone⟩
    exact ⟨found, hhere, by rw [hnone]; rfl⟩

theorem below_succ_ok {t : FileTree} {suffix : String} {skip : List Text} {levels : Nat} {d : Dir}
    {found : List Path} : below t suffix skip (levels + 1) d = .ok found ↔
      ∃ here deeper, d.files t suffix = .ok here ∧
        visit (fun name => below t suffix skip levels (d.down name)) (d.ways t skip) = .ok deeper ∧
        found = here ++ deeper := by
  rw [below, bind_eq_ok]
  simp only [bind_eq_ok, pure_eq_ok]
  constructor
  · rintro ⟨here, hhere, deeper, hdeeper, rfl⟩
    exact ⟨here, deeper, hhere, hdeeper, rfl⟩
  · rintro ⟨here, deeper, hhere, hdeeper, rfl⟩
    exact ⟨here, hhere, deeper, hdeeper, rfl⟩

/-- The candidates in a directory that the walk enters no directory from. -/
theorem below_leaf {t : FileTree} {suffix : String} {skip : List Text} {levels : Nat} {d : Dir}
    {found : List Path} (hfiles : d.files t suffix = .ok found) (hways : d.ways t skip = []) :
    below t suffix skip (levels + 1) d = .ok found :=
  below_succ_ok.2 ⟨found, [], hfiles, by rw [hways]; rfl, (List.append_nil found).symm⟩

section
variable {t : FileTree} (hw : t.WellFormed) {suffix : String} {skip : List Text}
include hw

theorem beneath_of_file {d : Dir} {name : Bytes} {c : Bytes} {m : Nat}
    (hentry : (name, .file c m) ∈ t.entries d.loc)
    (hsuffix : endsIn suffix (FileName.text name) = true) :
    Beneath t suffix skip d.loc [name] :=
  .file (hw.find?_of_entry hentry) (hw.name_of_entry hentry) hsuffix

/-- **The walk finds candidates alone.** -/
theorem mem_below {levels : Nat} {d : Dir} {found : List Path}
    (h : below t suffix skip levels d = .ok found) {p : Path} (hp : p ∈ found) :
    ∃ names, p = { d.path with parts := d.path.parts ++ names.map FileName.text } ∧
      Beneath t suffix skip d.loc names := by
  induction levels generalizing d found with
  | zero =>
    obtain ⟨name, c, m, hentry, hsuffix, rfl⟩ := (mem_files (below_zero_ok.1 h).1).1 hp
    exact ⟨[name], rfl, beneath_of_file hw hentry hsuffix⟩
  | succ levels ih =>
    obtain ⟨here, deeper, hhere, hdeeper, rfl⟩ := below_succ_ok.1 h
    rcases List.mem_append.1 hp with hp | hp
    · obtain ⟨name, c, m, hentry, hsuffix, rfl⟩ := (mem_files hhere).1 hp
      exact ⟨[name], rfl, beneath_of_file hw hentry hsuffix⟩
    · obtain ⟨name, hname, ps, hps, hp⟩ := (mem_visit hdeeper).1 hp
      obtain ⟨hentry, hskip⟩ := mem_ways.1 hname
      obtain ⟨names, rfl, hbelow⟩ := ih hps hp
      exact ⟨name :: names, by simp [Dir.down, Dir.child, Path.child],
        .directory (hw.find?_of_entry hentry) (hw.name_of_entry hentry) hskip hbelow⟩

/-- The name after those of the directory tells what is found below its entries apart. -/
theorem next_of_below {levels : Nat} {d : Dir} {name : Bytes} {found : List Path}
    (h : below t suffix skip levels (d.down name) = .ok found) {p : Path} (hp : p ∈ found) :
    p.parts[d.path.parts.length]? = some (FileName.text name) := by
  obtain ⟨names, rfl, -⟩ := mem_below hw h hp
  simp [Dir.down, Dir.child, Path.child]

/-- A directory has each candidate right in it once. -/
theorem files_nodup {d : Dir} {found : List Path} (h : d.files t suffix = .ok found) :
    found.Nodup := by
  unfold Dir.files at h
  split at h
  · cases h
  refine visit_nodup h (fun e _ xs hxs => ?_) (((hw.entries_nodup d.loc).filter _).imp ?_)
  · rcases candidate?_eq_ok hxs with rfl | ⟨rfl, -⟩ <;> simp
  · intro e e' hne xs ys hxs hys
    rcases candidate?_eq_ok hxs with rfl | ⟨rfl, -⟩
    · simp
    rcases candidate?_eq_ok hys with rfl | ⟨rfl, -⟩
    · simp
    · simpa [Dir.child, Path.child] using hne.symm

theorem ways_nodup (d : Dir) : (d.ways t skip).Nodup := by
  have hperm := List.mergeSort_perm
    ((t.entries d.loc).filter fun e => d.isDoor t e && decide (FileName.text e.1 ∉ skip))
    fun e e' => !Path.nameBefore (FileName.text e'.1) (FileName.text e.1)
  have hdoors : (d.doors t skip).Pairwise fun e e' => e.1 ≠ e'.1 :=
    (hperm.pairwise_iff fun h => h.symm).2 ((hw.entries_nodup d.loc).filter _)
  exact List.pairwise_map.2 (hdoors.filter _)

/-- **The walk finds each candidate once.** -/
theorem below_nodup {levels : Nat} {d : Dir} {found : List Path}
    (h : below t suffix skip levels d = .ok found) : found.Nodup := by
  induction levels generalizing d found with
  | zero => exact files_nodup hw (below_zero_ok.1 h).1
  | succ levels ih =>
    obtain ⟨here, deeper, hhere, hdeeper, rfl⟩ := below_succ_ok.1 h
    refine List.nodup_append'.2 ⟨files_nodup hw hhere, ?_, fun p hp hp' => ?_⟩
    · refine visit_nodup hdeeper (fun _ _ _ => ih) ((ways_nodup hw d).imp ?_)
      intro name name' hne xs ys hxs hys p hp hp'
      exact hne (FileName.text_injective
        (Option.some.inj ((next_of_below hw hxs hp).symm.trans (next_of_below hw hys hp'))))
    · -- what stands at the next name is a file on one side and a directory on the other
      obtain ⟨name, c, m, hfile, -, rfl⟩ := (mem_files hhere).1 hp
      obtain ⟨name', hname', ps, hps, hp'⟩ := (mem_visit hdeeper).1 hp'
      have hnext := next_of_below hw hps hp'
      obtain rfl : name = name' := by simpa [Dir.child, Path.child] using hnext
      have hdir := hw.find?_of_entry (mem_ways.1 hname').1
      rw [hw.find?_of_entry hfile] at hdir
      cases hdir

end

/-- A path leads to one regular file, however its last name is looked at. -/
structure Plain (t : FileTree) (p : Path) (loc : Location) : Prop where
  found : ∃ c m, t.find? loc = some (.file c m)
  leads : ∀ follow place, t.resolve follow p = .ok place → ∃ c m, place = .present loc (.file c m)

/-- The candidates of a root that leads to a directory are those that the walk finds. -/
theorem candidates_of_root {t : FileTree} {root : Path} {top : Location} {suffix : String}
    {skip : List Value} {names : List Text} {levels : Nat} (hfault : root.fault? = none)
    (hroot : t.resolve true root = .ok (.present top .directory))
    (hskip : skipNames skip = .ok names) : candidates t root suffix skip none levels
      = (below t suffix names levels (.ofRoot top root)).map (·.mergeSort Path.le) := by
  have hthere := status_directory.2 ⟨hfault, top, hroot⟩
  unfold candidates pathExists isDirectory
  rw [hthere, hskip, hroot]
  simp only [Functor.map, Except.map, Except.mapError, bind, Except.bind, pure, Except.pure,
    Option.isSome, decide_true, ↓reduceIte]

theorem candidates_eq {t : FileTree} {root : Path} {suffix : String} {skip : List Value}
    {outage : Option Outage} {levels : Nat} {paths : List Path}
    (h : candidates t root suffix skip outage levels = .ok paths) :
    ∃ loc names found, t.resolve true root = .ok (.present loc .directory) ∧
      below t suffix names levels (.ofRoot loc root) = .ok found ∧
      paths = found.mergeSort Path.le := by
  unfold candidates at h
  obtain ⟨there, -, h⟩ := bind_eq_ok.1 h
  cases there with
  | false => cases h
  | true =>
    obtain ⟨isDir, hdir, h⟩ := bind_eq_ok.1 h
    cases isDir with
    | false => cases h
    | true =>
      obtain ⟨names, -, h⟩ := bind_eq_ok.1 h
      obtain ⟨-, loc, hloc⟩ := isDirectory_iff.1 (mapError_eq_ok.1 hdir)
      cases outage with
      | some o => cases h
      | none =>
        rw [hloc] at h
        obtain ⟨found, hfound, h⟩ := bind_eq_ok.1 h
        exact ⟨loc, names, found, hloc, hfound, (pure_eq_ok.1 h).symm⟩

theorem Beneath.endsIn {t : FileTree} {suffix : String} {skip : List Text} {loc : Location}
    {dir : List Bytes} {name : Bytes} (h : Beneath t suffix skip loc (dir ++ [name])) :
    endsIn suffix (FileName.text name) = true := by
  generalize hnames : dir ++ [name] = names at h
  induction h generalizing dir with
  | file _ _ hsuffix =>
    obtain ⟨-, rfl⟩ := List.append_singleton_inj.1 (hnames.trans (List.nil_append _).symm)
    exact hsuffix
  | directory _ _ _ hrest ih =>
    cases dir with
    | nil => exact absurd (List.cons.inj hnames).2.symm hrest.found.1
    | cons d dir => exact ih (List.cons.inj hnames).2

/-- Whatever is right beneath a directory along with a candidate is found where it stands. -/
theorem Beneath.sibling {t : FileTree} {suffix : String} {skip : List Text} {loc : Location}
    {dir : List Bytes} {name : Bytes} (h : Beneath t suffix skip loc (dir ++ [name])) {x : Bytes}
    (hup : x ≠ upName) {links : Nat} {place : Place}
    (hr : t.resolveFrom false links loc (dir ++ [x]) = .ok place) :
    place = t.seat (loc ++ (dir ++ [x])) := by
  generalize hnames : dir ++ [name] = names at h
  induction h generalizing dir with
  | @file loc last c m hfind hlast hsuffix =>
    obtain rfl : dir = [] := (List.append_eq_singleton_iff.1 hnames).elim And.left (by simp)
    rw [List.nil_append, resolveFrom, if_neg hup] at hr
    split at hr
    · cases hr
    rw [List.nil_append, seat]
    cases hx : t.find? (loc ++ [x]) with
    | none => rw [hx] at hr; simpa [eq_comm] using hr
    | some n =>
      rw [hx] at hr
      cases n <;> simpa [resolveFrom, eq_comm] using hr
  | @directory loc first rest hfind hfirst hskip hrest ih =>
    cases dir with
    | nil => exact absurd (List.cons.inj hnames).2.symm hrest.found.1
    | cons d dir =>
      obtain ⟨rfl, hbelow⟩ := List.cons.inj hnames
      rw [List.cons_append, resolveFrom, if_neg hfirst] at hr
      split at hr
      · cases hr
      rw [hfind] at hr
      rw [ih hr hbelow, List.append_assoc]
      rfl

section
variable {t : FileTree} {root : Path} {top : Location}
  (hroot : t.resolve true root = .ok (.present top .directory))
include hroot

/-- A path that goes on from a root is followed from where the root leads. -/
theorem resolve_onward {follow : Bool} {names : List Bytes} (hne : names ≠ []) {place : Place}
    (hr : t.resolve follow { root with parts := root.parts ++ names.map FileName.text }
      = .ok place) :
    ∃ links, t.resolveFrom follow links top names = .ok place := by
  have hlen := length_of_resolve hr
  rw [resolve, if_neg (by simp [hlen]), List.map_append, FileName.map_bytes_text] at hr
  obtain ⟨links, hlinks⟩ :=
    (leads_of_resolve hroot (length_of_resolve hroot)).append follow hne
  exact ⟨links, hlinks.symm.trans hr⟩

/-- What lies beneath a root is found at the path that its names make. -/
theorem Beneath.plain {suffix : String} {skip : List Text} {names : List Bytes}
    (h : Beneath t suffix skip top names) :
    Plain t { root with parts := root.parts ++ names.map FileName.text } (top ++ names) := by
  refine ⟨h.found.2, fun follow place hr => ?_⟩
  obtain ⟨links, hlinks⟩ := resolve_onward hroot h.found.1 hr
  exact h.leads hlinks

end

/-- The candidates of a root, each found once, and the names that lead to them. -/
theorem candidates_beneath {t : FileTree} (hw : t.WellFormed) {root : Path} {suffix : String}
    {skip : List Value} {outage : Option Outage} {levels : Nat} {paths : List Path}
    (h : candidates t root suffix skip outage levels = .ok paths) :
    ∃ top skip, t.resolve true root = .ok (.present top .directory) ∧ paths.Nodup ∧
      ∀ p ∈ paths, ∃ names, p = { root with parts := root.parts ++ names.map FileName.text } ∧
        Beneath t suffix skip top names := by
  obtain ⟨top, skip, found, hroot, hfound, rfl⟩ := candidates_eq h
  have hperm := List.mergeSort_perm found Path.le
  exact ⟨top, skip, hroot, hperm.nodup_iff.2 (below_nodup hw hfound),
    fun p hp => mem_below hw hfound (hperm.mem_iff.1 hp)⟩

/-- **Candidates are regular files, no two of them at one location.** -/
theorem candidates_plain {t : FileTree} (hw : t.WellFormed) {root : Path} {suffix : String}
    {skip : List Value} {outage : Option Outage} {levels : Nat} {paths : List Path}
    (h : candidates t root suffix skip outage levels = .ok paths) :
    ∃ locs, List.Forall₂ (Plain t) paths locs ∧ locs.Nodup := by
  obtain ⟨top, skip, hroot, hnodup, hbeneath⟩ := candidates_beneath hw h
  refine ⟨paths.map fun p => top ++ (p.parts.drop root.parts.length).map FileName.bytes, ?_, ?_⟩
  · rw [List.forall₂_map_right_iff, List.forall₂_same]
    intro p hp
    obtain ⟨names, rfl, hnames⟩ := hbeneath p hp
    simp only [List.drop_left, FileName.map_bytes_text]
    exact hnames.plain hroot
  · refine (List.nodup_map_iff_inj_on hnodup).2 fun p hp q hq heq => ?_
    obtain ⟨names, rfl, -⟩ := hbeneath p hp
    obtain ⟨names', rfl, -⟩ := hbeneath q hq
    simp only [List.drop_left, FileName.map_bytes_text, List.append_cancel_left_eq] at heq
    rw [heq]

end Discovery

end AssetLift
