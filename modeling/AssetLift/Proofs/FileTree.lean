import AssetLift.FileTree.Resolve
import Mathlib.Data.List.Forall2

/-!
# Changes of a file tree

What stands where after a change, and where paths lead then. Paths are led by directories and links
alone, the *frame* of a tree: files only stand at their ends. So a path leads to the same location in
all trees of one frame (`resolve_frame`), and finds there what the tree has.

* `find?_insert`, `find?_set`, `find?_erase`: the three changes, location by location.
* `erase_insert`, `set_insert`: a file that is made and taken away leaves the very tree behind.
* `SameFrame`: two trees with the same directories and links.
* `Leads`: a path followed name by name, the relation that all about paths is proved on.
* `resolve_frame`, `resolve_follow`: where a path leads in the other tree, and when the last name is
  followed.
* `resolve_replaced`, `resolve_beyond`: where paths lead once a file is put in the place of another,
  or of a link to one.
-/

namespace AssetLift

namespace FileTree

/-! ## What stands at a location -/

theorem ne_nil_of_find? {t : FileTree} {loc : Location} (h : t.find? loc = none) : loc ≠ [] := by
  rintro rfl
  simp [find?] at h

theorem lookup_eq_none {α β : Type} [BEq α] [LawfulBEq α] {nodes : List (α × β)} {loc : α} :
    nodes.lookup loc = none ↔ ∀ e ∈ nodes, e.1 ≠ loc := by
  rw [List.lookup_eq_none_iff]
  constructor
  · intro h e he heq
    have := h e he
    simp [heq] at this
  · intro h e he
    simpa using Ne.symm (h e he)

theorem not_mem_of_find? {t : FileTree} {loc : Location} (h : t.find? loc = none) :
    ∀ e ∈ t.nodes, e.1 ≠ loc := by
  have hne := ne_nil_of_find? h
  rw [find?, if_neg hne] at h
  exact lookup_eq_none.1 h

theorem find?_insert {t : FileTree} {loc : Location} (n : FileNode) (h : t.find? loc = none)
    (l : Location) : (t.insert loc n).find? l = if l = loc then some n else t.find? l := by
  have hne := ne_nil_of_find? h
  by_cases hl : l = []
  · subst hl
    rw [if_neg (Ne.symm hne)]
    rfl
  · rw [find?, if_neg hl, insert, List.lookup_append]
    by_cases heq : l = loc
    · subst heq
      rw [find?, if_neg hl] at h
      simp [h]
    · have : (l == loc) = false := by simpa using heq
      simp [find?, hl, heq, List.lookup_cons, this]

/-- What stood somewhere stands there still. -/
theorem find?_insert_old {t : FileTree} {loc l : Location} {n m : FileNode}
    (h : t.find? loc = none) (hl : t.find? l = some m) : (t.insert loc n).find? l = some m := by
  rw [find?_insert n h, if_neg, hl]
  rintro rfl
  rw [h] at hl
  cases hl

theorem lookup_map_set {nodes : List (Location × FileNode)} {loc : Location} {n : FileNode}
    (l : Location) :
    (nodes.map fun e => if e.1 = loc then (loc, n) else e).lookup l
      = if l = loc then (nodes.lookup l).map fun _ => n else nodes.lookup l := by
  induction nodes with
  | nil => simp
  | cons e nodes ih =>
    obtain ⟨k, m⟩ := e
    by_cases hk : k = loc
    · subst hk
      by_cases hl : l = k
      · subst hl; simp
      · have : (l == k) = false := by simpa using hl
        simpa [List.lookup_cons, this, hl] using ih
    · by_cases hl : l = k
      · subst hl; simp [hk]
      · have : (l == k) = false := by simpa using hl
        simpa [List.lookup_cons, hk, this] using ih

theorem find?_set {t : FileTree} {loc : Location} (n : FileNode) {old : FileNode}
    (hne : loc ≠ []) (h : t.find? loc = some old) (l : Location) :
    (t.set loc n).find? l = if l = loc then some n else t.find? l := by
  by_cases hl : l = []
  · subst hl
    rw [if_neg (Ne.symm hne)]
    rfl
  · rw [find?, if_neg hl, set, lookup_map_set]
    by_cases heq : l = loc
    · subst heq
      rw [find?, if_neg hl] at h
      simp [h]
    · simp [find?, hl, heq]

theorem lookup_filter_ne {α β : Type} [BEq α] [LawfulBEq α] [DecidableEq α] {nodes : List (α × β)}
    {loc : α} (l : α) :
    (nodes.filter fun e => e.1 ≠ loc).lookup l = if l = loc then none else nodes.lookup l := by
  induction nodes with
  | nil => simp
  | cons e nodes ih =>
    obtain ⟨k, m⟩ := e
    by_cases hk : k = loc
    · subst hk
      by_cases hl : l = k
      · subst hl; simpa using ih
      · have : (l == k) = false := by simpa using hl
        simpa [List.lookup_cons, this, hl] using ih
    · by_cases hl : l = k
      · subst hl; simp [hk]
      · have : (l == k) = false := by simpa using hl
        simpa [List.lookup_cons, hk, this] using ih

theorem find?_erase {t : FileTree} {loc : Location} (hne : loc ≠ []) (l : Location) :
    (t.erase loc).find? l = if l = loc then none else t.find? l := by
  by_cases hl : l = []
  · subst hl
    rw [if_neg (Ne.symm hne)]
    rfl
  · rw [find?, if_neg hl, erase, lookup_filter_ne]
    by_cases heq : l = loc
    · simp [heq]
    · simp [find?, hl, heq]

/-! ## Changes that undo one another -/

theorem erase_of_absent {t : FileTree} {loc : Location} (h : t.find? loc = none) :
    t.erase loc = t := by
  have hall : t.nodes.filter (fun e => e.1 ≠ loc) = t.nodes :=
    List.filter_eq_self.2 fun e he => by simpa using not_mem_of_find? h e he
  rw [erase, hall]

/-- **A node that is put in and taken away** leaves the very tree behind. -/
theorem erase_insert {t : FileTree} {loc : Location} (h : t.find? loc = none) (n : FileNode) :
    (t.insert loc n).erase loc = t := by
  have := congrArg FileTree.nodes (erase_of_absent h)
  simp only [erase] at this
  simp only [erase, insert, List.filter_append, this]
  simp

theorem set_insert {t : FileTree} {loc : Location} (h : t.find? loc = none) (n m : FileNode) :
    (t.insert loc n).set loc m = t.insert loc m := by
  have hall : t.nodes.map (fun e => if e.1 = loc then (loc, m) else e) = t.nodes := by
    conv_rhs => rw [← List.map_id t.nodes]
    refine List.map_congr_left fun e he => ?_
    rw [if_neg (not_mem_of_find? h e he)]
    rfl
  simp [set, insert, hall]

/-! ## The frame of a tree -/

/-- What leads paths on from a location: a directory or a link. -/
def frame (t : FileTree) (loc : Location) : Option FileNode :=
  match t.find? loc with
  | some (.file _ _) => none
  | other => other

/-- Two trees with the same directories and links. -/
structure SameFrame (t t' : FileTree) : Prop where
  workDir : t'.workDir = t.workDir
  frame : ∀ loc, t'.frame loc = t.frame loc

theorem SameFrame.refl (t : FileTree) : SameFrame t t := ⟨rfl, fun _ => rfl⟩

theorem SameFrame.symm {t t' : FileTree} (h : SameFrame t t') : SameFrame t' t :=
  ⟨h.workDir.symm, fun loc => (h.frame loc).symm⟩

theorem SameFrame.trans {t t' t'' : FileTree} (h : SameFrame t t') (h' : SameFrame t' t'') :
    SameFrame t t'' :=
  ⟨h'.workDir.trans h.workDir, fun loc => (h'.frame loc).trans (h.frame loc)⟩

/-- A node that leads nowhere: none at all, or a file. -/
def isEnd : Option FileNode → Bool
  | none => true
  | some (.file _ _) => true
  | _ => false

theorem frame_eq_none {t : FileTree} {loc : Location} :
    t.frame loc = none ↔ isEnd (t.find? loc) := by
  unfold frame isEnd
  cases t.find? loc with
  | none => simp
  | some n => cases n <;> simp

theorem find?_of_frame {t : FileTree} {loc : Location} {n : FileNode}
    (h : t.frame loc = some n) : t.find? loc = some n := by
  unfold frame at h
  split at h
  · cases h
  · exact h

/-- Changing files only keeps the frame. -/
theorem sameFrame_of_ends {t t' : FileTree} (hw : t'.workDir = t.workDir)
    (h : ∀ loc, t'.find? loc = t.find? loc ∨ (isEnd (t.find? loc) ∧ isEnd (t'.find? loc))) :
    SameFrame t t' := by
  refine ⟨hw, fun loc => ?_⟩
  rcases h loc with h | ⟨h₁, h₂⟩
  · simp only [frame, h]
  · rw [frame_eq_none.2 h₁, frame_eq_none.2 h₂]

theorem sameFrame_insert {t : FileTree} {loc : Location} (h : t.find? loc = none) (c : Bytes)
    (m : Nat) : SameFrame t (t.insert loc (.file c m)) := by
  refine sameFrame_of_ends rfl fun l => ?_
  rw [find?_insert _ h]
  by_cases hl : l = loc
  · subst hl; right; simp [h, isEnd]
  · left; simp [hl]

theorem sameFrame_set {t : FileTree} {loc : Location} (hne : loc ≠ []) {c c' : Bytes} {m m' : Nat}
    (h : t.find? loc = some (.file c m)) : SameFrame t (t.set loc (.file c' m')) := by
  refine sameFrame_of_ends rfl fun l => ?_
  rw [find?_set _ hne h]
  by_cases hl : l = loc
  · subst hl; right; simp [h, isEnd]
  · left; simp [hl]

/-! ## Several files more -/

/-- The tree with nodes more. -/
def extend (t : FileTree) (new : List (Location × FileNode)) : FileTree :=
  { t with nodes := t.nodes ++ new }

/-- Files to stand where the tree has nothing, no two of them at one place. -/
structure Fresh (t : FileTree) (new : List (Location × FileNode)) : Prop where
  absent : ∀ e ∈ new, t.find? e.1 = none
  files : ∀ e ∈ new, ∃ c m, e.2 = .file c m
  nodup : (new.map (·.1)).Nodup

theorem extend_nil (t : FileTree) : t.extend [] = t := by simp [extend]

theorem insert_extend (t : FileTree) (new : List (Location × FileNode)) (loc : Location)
    (n : FileNode) : (t.extend new).insert loc n = t.extend (new ++ [(loc, n)]) := by
  simp [extend, insert]

theorem find?_extend {t : FileTree} {new : List (Location × FileNode)} (h : Fresh t new)
    (l : Location) : (t.extend new).find? l = (new.lookup l).or (t.find? l) := by
  by_cases hl : l = []
  · subst hl
    have : new.lookup [] = none := lookup_eq_none.2 fun e he => ne_nil_of_find? (h.absent e he)
    rw [this]
    rfl
  · rw [find?, if_neg hl, extend, List.lookup_append, find?, if_neg hl]
    cases ht : t.nodes.lookup l with
    | none => simp
    | some n =>
      have : new.lookup l = none := by
        rw [lookup_eq_none]
        rintro e he rfl
        have := h.absent e he
        rw [find?, if_neg hl, ht] at this
        cases this
      simp [this]

theorem lookup_of_mem {new : List (Location × FileNode)} (h : (new.map (·.1)).Nodup)
    {e : Location × FileNode} (he : e ∈ new) : new.lookup e.1 = some e.2 := by
  induction new with
  | nil => simp at he
  | cons d new ih =>
    obtain ⟨k, n⟩ := d
    rw [List.map_cons, List.nodup_cons] at h
    rcases List.mem_cons.1 he with rfl | hmem
    · exact List.lookup_cons_self
    · have hne : (e.1 == k) = false := by
        rw [beq_eq_false_iff_ne]
        intro heq
        exact h.1 (List.mem_map.2 ⟨e, hmem, heq⟩)
      rw [List.lookup_cons, hne]
      exact ih h.2 hmem

theorem mem_of_lookup {new : List (Location × FileNode)} {l : Location} {n : FileNode}
    (h : new.lookup l = some n) : (l, n) ∈ new := by
  obtain ⟨pre, post, rfl, -⟩ := List.lookup_eq_some_iff.1 h
  simp

theorem Fresh.find?_new {t : FileTree} {new : List (Location × FileNode)} (h : Fresh t new)
    {e : Location × FileNode} (he : e ∈ new) : (t.extend new).find? e.1 = some e.2 := by
  rw [find?_extend h, lookup_of_mem h.nodup he]
  rfl

theorem Fresh.find?_old {t : FileTree} {new : List (Location × FileNode)} (h : Fresh t new)
    {l : Location} {n : FileNode} (hl : t.find? l = some n) : (t.extend new).find? l = some n := by
  have : new.lookup l = none := lookup_eq_none.2 fun e he heq => by
    rw [← heq, h.absent e he] at hl
    cases hl
  rw [find?_extend h, this, hl]
  rfl

theorem sameFrame_extend {t : FileTree} {new : List (Location × FileNode)} (h : Fresh t new) :
    SameFrame t (t.extend new) := by
  refine sameFrame_of_ends rfl fun l => ?_
  rw [find?_extend h]
  cases hl : new.lookup l with
  | none => simp
  | some n =>
    have hmem := mem_of_lookup hl
    obtain ⟨c, m, rfl⟩ := h.files _ hmem
    right
    rw [h.absent _ hmem]
    exact ⟨rfl, rfl⟩

/-- A file more stands at a place that was free. -/
theorem Fresh.set {t : FileTree} {new : List (Location × FileNode)} (h : Fresh t new)
    {loc : Location} {old : FileNode} (hne : loc ≠ []) (hfind : t.find? loc = some old)
    (n : FileNode) : Fresh (t.set loc n) new := by
  refine ⟨fun e he => ?_, h.files, h.nodup⟩
  have hout : e.1 ≠ loc := by
    rintro rfl
    rw [h.absent e he] at hfind
    cases hfind
  rw [find?_set n hne hfind, if_neg hout]
  exact h.absent e he

theorem Fresh.snoc {t : FileTree} {new : List (Location × FileNode)} (h : Fresh t new)
    {loc : Location} (hfree : (t.extend new).find? loc = none) (c : Bytes) (m : Nat) :
    Fresh t (new ++ [(loc, .file c m)]) := by
  rw [find?_extend h, Option.or_eq_none_iff] at hfree
  obtain ⟨hnew, ht⟩ := hfree
  constructor
  · intro e he
    rcases List.mem_append.1 he with he | he
    · exact h.absent e he
    · rw [List.mem_singleton.1 he]; exact ht
  · intro e he
    rcases List.mem_append.1 he with he | he
    · exact h.files e he
    · rw [List.mem_singleton.1 he]; exact ⟨c, m, rfl⟩
  · rw [List.map_append, List.nodup_append]
    refine ⟨h.nodup, by simp, fun l hl k hk => ?_⟩
    obtain ⟨e, he, rfl⟩ := List.mem_map.1 hl
    rw [List.map_singleton, List.mem_singleton] at hk
    rw [hk]
    exact lookup_eq_none.1 hnew e he

theorem Fresh.tail {t : FileTree} {e : Location × FileNode} {new : List (Location × FileNode)}
    (h : Fresh t (e :: new)) : Fresh t new where
  absent d hd := h.absent d (List.mem_cons_of_mem _ hd)
  files d hd := h.files d (List.mem_cons_of_mem _ hd)
  nodup := (List.nodup_cons.1 h.nodup).2

/-- Taking the first of the files away. -/
theorem erase_extend {t : FileTree} {e : Location × FileNode} {new : List (Location × FileNode)}
    (h : Fresh t (e :: new)) : (t.extend (e :: new)).erase e.1 = t.extend new := by
  have hold := congrArg FileTree.nodes (erase_of_absent (h.absent e List.mem_cons_self))
  have hnew : new.filter (fun d => d.1 ≠ e.1) = new := by
    refine List.filter_eq_self.2 fun d hd => ?_
    rw [decide_eq_true_eq]
    exact fun heq => (List.nodup_cons.1 h.nodup).1 (List.mem_map.2 ⟨d, hd, heq⟩)
  simp only [erase] at hold
  rw [erase, extend, extend, List.filter_append, hold, List.filter_cons_of_neg (by simp), hnew]

/-- Setting what stood there before and then having files more, or the other way round. -/
theorem set_extend {t : FileTree} {new : List (Location × FileNode)} (h : Fresh t new)
    {loc : Location} (hthere : t.find? loc ≠ none) (n : FileNode) :
    (t.extend new).set loc n = (t.set loc n).extend new := by
  have hnew : new.map (fun e => if e.1 = loc then (loc, n) else e) = new := by
    conv_rhs => rw [← List.map_id new]
    refine List.map_congr_left fun e he => ?_
    rw [if_neg]
    · rfl
    · rintro rfl
      exact hthere (h.absent e he)
  simp [set, extend, hnew]

/-! ## Where paths lead -/

/-- The location a path leads to. -/
def Place.loc : Place → Location
  | .present loc _ => loc
  | .absent loc => loc

/-- A location with what a tree has there. -/
def seat (t : FileTree) (loc : Location) : Place :=
  match t.find? loc with
  | some n => .present loc n
  | none => .absent loc

/-- The place in another tree of the same frame. -/
def Place.reseat (t : FileTree) : Place → Place
  | .present loc (.file _ _) => t.seat loc
  | .absent loc => t.seat loc
  | other => other

theorem seat_of_end {t : FileTree} {loc : Location} (h : isEnd (t.find? loc)) :
    (t.find? loc = none ∧ t.seat loc = .absent loc) ∨
      ∃ c m, t.find? loc = some (.file c m) ∧ t.seat loc = .present loc (.file c m) := by
  unfold seat
  cases hf : t.find? loc with
  | none => exact .inl ⟨rfl, rfl⟩
  | some n =>
    cases n with
    | file c m => exact .inr ⟨c, m, rfl, rfl⟩
    | directory => rw [hf] at h; simp [isEnd] at h
    | link target => rw [hf] at h; simp [isEnd] at h

/-- One step of a path in the two trees: both find the same directory or link, or neither does. -/
theorem SameFrame.find? {t t' : FileTree} (h : SameFrame t t') (loc : Location) :
    (isEnd (t.find? loc) ∧ isEnd (t'.find? loc)) ∨ (t'.find? loc = t.find? loc ∧ t.frame loc ≠ none) := by
  cases hf : t.frame loc with
  | none =>
    have hf' := h.frame loc
    rw [hf] at hf'
    exact .inl ⟨frame_eq_none.1 hf, frame_eq_none.1 hf'⟩
  | some n =>
    have hf' := h.frame loc
    rw [hf] at hf'
    right
    rw [find?_of_frame hf, find?_of_frame hf']
    simp

/-- How a path is followed, name by name. -/
inductive Leads (t : FileTree) (follow : Bool) :
    Nat → Location → List Bytes → Except Errno Place → Prop
  | here {links dir} : Leads t follow links dir [] (.ok (.present dir .directory))
  | up {links dir rest r} (hrest : Leads t follow links dir.dropLast rest r) :
      Leads t follow links dir (upName :: rest) r
  | stuck {links dir name rest e} (he : e ≠ .fileExists) :
      Leads t follow links dir (name :: rest) (.error e)
  /-- Nothing or a file stands at the last name. -/
  | ending {links dir name} (hup : name ≠ upName) (hlen : ¬ maxNameBytes < name.length)
      (hend : isEnd (t.find? (dir ++ [name]))) :
      Leads t follow links dir [name] (.ok (t.seat (dir ++ [name])))
  | into {links dir name rest r} (hup : name ≠ upName) (hlen : ¬ maxNameBytes < name.length)
      (hfind : t.find? (dir ++ [name]) = some .directory)
      (hrest : Leads t follow links (dir ++ [name]) rest r) :
      Leads t follow links dir (name :: rest) r
  /-- The last name is a link and not followed. -/
  | link {links dir name target} (hup : name ≠ upName) (hlen : ¬ maxNameBytes < name.length)
      (hfind : t.find? (dir ++ [name]) = some (.link target)) (hstay : follow = false) :
      Leads t follow links dir [name] (.ok (.present (dir ++ [name]) (.link target)))
  | through {more dir name rest target r} (hup : name ≠ upName)
      (hlen : ¬ maxNameBytes < name.length)
      (hfind : t.find? (dir ++ [name]) = some (.link target))
      (hgo : (rest.isEmpty && !follow) = false)
      (hrest : Leads t follow more (linkBase dir target)
        (linkNames target ++ rest) r) :
      Leads t follow (more + 1) dir (name :: rest) r

theorem leads (t : FileTree) (follow : Bool) (links : Nat) (dir : Location) (names : List Bytes) :
    Leads t follow links dir names (t.resolveFrom follow links dir names) := by
  induction links, dir, names using resolveFrom.induct t follow with
  | case1 links dir => rw [resolveFrom]; exact .here
  | case2 links dir rest ih => rw [resolveFrom, if_pos rfl]; exact .up ih
  | case3 links dir name rest hup hlen =>
    rw [resolveFrom, if_neg hup, if_pos hlen]
    exact .stuck (by decide)
  | case4 links dir name rest hup hlen hf hrest =>
    obtain rfl := List.isEmpty_iff.1 hrest
    have hend : isEnd (t.find? (dir ++ [name])) := by rw [hf]; rfl
    have := @Leads.ending t follow links dir name hup hlen hend
    rw [resolveFrom, if_neg hup, if_neg hlen, hf]
    simpa [seat, hf] using this
  | case5 links dir name rest hup hlen hf hrest =>
    rw [resolveFrom, if_neg hup, if_neg hlen, hf]
    simp only [hrest, Bool.false_eq_true, ↓reduceIte]
    exact .stuck (by decide)
  | case6 links dir name rest hup hlen hf ih =>
    rw [resolveFrom, if_neg hup, if_neg hlen, hf]
    exact .into hup hlen hf ih
  | case7 links dir name rest hup hlen c m hf hrest =>
    obtain rfl := List.isEmpty_iff.1 hrest
    have hend : isEnd (t.find? (dir ++ [name])) := by rw [hf]; rfl
    have := @Leads.ending t follow links dir name hup hlen hend
    rw [resolveFrom, if_neg hup, if_neg hlen, hf]
    simpa [seat, hf] using this
  | case8 links dir name rest hup hlen c m hf hrest =>
    rw [resolveFrom, if_neg hup, if_neg hlen, hf]
    simp only [hrest, Bool.false_eq_true, ↓reduceIte]
    exact .stuck (by decide)
  | case9 links dir name rest hup hlen target hf hlast =>
    rw [resolveFrom, if_neg hup, if_neg hlen, hf]
    simp only [hlast, ↓reduceIte]
    simp only [Bool.and_eq_true, Bool.not_eq_true', List.isEmpty_iff] at hlast
    obtain ⟨rfl, hstay⟩ := hlast
    exact .link hup hlen hf hstay
  | case10 dir name rest hup hlen target hf hlast =>
    rw [resolveFrom, if_neg hup, if_neg hlen, hf]
    simp only [hlast, Bool.false_eq_true, ↓reduceIte]
    exact .stuck (by decide)
  | case11 dir name rest hup hlen target hf hlast more ih =>
    rw [resolveFrom, if_neg hup, if_neg hlen, hf]
    simp only [hlast, Bool.false_eq_true, ↓reduceIte]
    exact .through hup hlen hf (by simpa using hlast) ih

/-- The relation has one result. -/
theorem Leads.eq {t : FileTree} {follow : Bool} {links : Nat} {dir : Location} {names : List Bytes}
    {place : Place} (h : Leads t follow links dir names (.ok place)) :
    t.resolveFrom follow links dir names = .ok place := by
  generalize hr : Except.ok place = r at h
  induction h with
  | here => rw [resolveFrom]
  | up _ ih => rw [resolveFrom, if_pos rfl, ih hr]
  | stuck => cases hr
  | ending hup hlen hend =>
    rcases seat_of_end hend with ⟨hf, hs⟩ | ⟨c, m, hf, hs⟩
    · rw [resolveFrom, if_neg hup, if_neg hlen, hf, hs]; rfl
    · rw [resolveFrom, if_neg hup, if_neg hlen, hf, hs]; rfl
  | into hup hlen hf _ ih => rw [resolveFrom, if_neg hup, if_neg hlen, hf]; exact ih hr
  | link hup hlen hf hstay => rw [resolveFrom, if_neg hup, if_neg hlen, hf]; simp [hstay]
  | through hup hlen hf hgo _ ih =>
    rw [resolveFrom, if_neg hup, if_neg hlen, hf]
    simp only [hgo, Bool.false_eq_true, ↓reduceIte]
    exact ih hr

theorem leads_of_resolve {t : FileTree} {follow : Bool} {p : Path} {r : Except Errno Place}
    (hr : t.resolve follow p = r) (hlen : isTooLong p.text = false) :
    Leads t follow maxLinks (t.base p) (p.parts.map FileName.bytes) r := by
  rw [resolve, if_neg (by simp [hlen])] at hr
  exact hr ▸ leads t follow maxLinks (t.base p) (p.parts.map FileName.bytes)

theorem length_of_resolve {t : FileTree} {follow : Bool} {p : Path} {place : Place}
    (hr : t.resolve follow p = .ok place) : isTooLong p.text = false := by
  unfold resolve at hr
  split at hr
  · cases hr
  · exact Bool.eq_false_iff.2 ‹_›

/-! ### In another tree of the same frame -/

theorem Leads.frame {t t' : FileTree} (h : SameFrame t t') {follow : Bool} {links : Nat}
    {dir : Location} {names : List Bytes} {place : Place}
    (hl : Leads t follow links dir names (.ok place)) :
    Leads t' follow links dir names (.ok (place.reseat t')) := by
  -- what leads on in the one tree does so in the other
  have hon : ∀ {loc n}, t.find? loc = some n → isEnd (some n) = false → t'.find? loc = some n := by
    intro loc n hf hn
    rcases h.find? loc with ⟨he, -⟩ | ⟨he, -⟩
    · rw [hf, hn] at he; cases he
    · rw [he, hf]
  generalize hr : Except.ok place = r at hl
  induction hl with
  | here => cases hr; exact .here
  | up _ ih => exact .up (ih hr)
  | stuck => cases hr
  | @ending links dir name hup hlen hend =>
    obtain rfl := Except.ok.inj hr
    have hend' : isEnd (t'.find? (dir ++ [name])) := by
      rcases h.find? (dir ++ [name]) with ⟨-, he⟩ | ⟨-, hne⟩
      · exact he
      · exact absurd (frame_eq_none.2 hend) hne
    have hseat : (t.seat (dir ++ [name])).reseat t' = t'.seat (dir ++ [name]) := by
      rcases seat_of_end hend with ⟨-, hs⟩ | ⟨c, m, -, hs⟩ <;> rw [hs] <;> rfl
    rw [hseat]
    exact .ending hup hlen hend'
  | into hup hlen hf _ ih => exact .into hup hlen (hon hf rfl) (ih hr)
  | link hup hlen hf hstay => cases hr; exact .link hup hlen (hon hf rfl) hstay
  | through hup hlen hf hgo _ ih => exact .through hup hlen (hon hf rfl) hgo (ih hr)

theorem base_frame {t t' : FileTree} (h : SameFrame t t') (p : Path) : t'.base p = t.base p := by
  unfold base
  rw [h.workDir]

/-- **In trees of one frame a path leads to one location.** -/
theorem resolve_frame {t t' : FileTree} (h : SameFrame t t') {follow : Bool} {p : Path}
    {place : Place} (hr : t.resolve follow p = .ok place) :
    t'.resolve follow p = .ok (place.reseat t') := by
  have hlen := length_of_resolve hr
  rw [resolve, if_neg (by simp [hlen]), base_frame h]
  exact ((leads_of_resolve hr hlen).frame h).eq

/-- A path that leads nowhere leads nowhere in the other tree either. -/
theorem resolve_error_frame {t t' : FileTree} (h : SameFrame t t') {follow : Bool} {p : Path}
    {e : Errno} (hr : t.resolve follow p = .error e) : ∃ e', t'.resolve follow p = .error e' := by
  cases hr' : t'.resolve follow p with
  | error e' => exact ⟨e', rfl⟩
  | ok place =>
    rw [resolve_frame h.symm hr'] at hr
    cases hr

/-! ### What is found at the end -/

/-- A place is what the tree has there; a directory may be the one the path starts from. -/
def Place.Found (t : FileTree) : Place → Prop
  | .absent loc => t.find? loc = none
  | .present _ .directory => True
  | .present loc n => loc ≠ [] ∧ t.find? loc = some n

theorem Leads.found {t : FileTree} {follow : Bool} {links : Nat} {dir : Location}
    {names : List Bytes} {place : Place} (hl : Leads t follow links dir names (.ok place)) :
    place.Found t := by
  generalize hr : Except.ok place = r at hl
  induction hl with
  | here => cases hr; trivial
  | up _ ih => exact ih hr
  | stuck => cases hr
  | ending hup hlen hend =>
    obtain rfl := Except.ok.inj hr
    rcases seat_of_end hend with ⟨hf, hs⟩ | ⟨c, m, hf, hs⟩ <;> rw [hs]
    · exact hf
    · exact ⟨by simp, hf⟩
  | into _ _ _ _ ih => exact ih hr
  | link _ _ hf _ => cases hr; exact ⟨by simp, hf⟩
  | through _ _ _ _ _ ih => exact ih hr

theorem found_of_resolve {t : FileTree} {follow : Bool} {p : Path} {place : Place}
    (hr : t.resolve follow p = .ok place) : place.Found t :=
  (leads_of_resolve hr (length_of_resolve hr)).found

theorem find?_of_absent {t : FileTree} {follow : Bool} {p : Path} {loc : Location}
    (hr : t.resolve follow p = .ok (.absent loc)) : t.find? loc = none :=
  found_of_resolve hr

theorem find?_of_file {t : FileTree} {follow : Bool} {p : Path} {loc : Location} {c : Bytes}
    {m : Nat} (hr : t.resolve follow p = .ok (.present loc (.file c m))) :
    loc ≠ [] ∧ t.find? loc = some (.file c m) :=
  found_of_resolve hr

theorem Leads.ne_fileExists {t : FileTree} {follow : Bool} {links : Nat} {dir : Location}
    {names : List Bytes} {e : Errno} (hl : Leads t follow links dir names (.error e)) :
    e ≠ .fileExists := by
  generalize hr : Except.error e = r at hl
  induction hl with
  | here | ending | link => cases hr
  | stuck he => cases hr; exact he
  | up _ ih | into _ _ _ _ ih | through _ _ _ _ _ ih => exact ih hr

/-- The fault of a path is never that something stands at its end. -/
theorem resolve_ne_fileExists {t : FileTree} {follow : Bool} {p : Path} {e : Errno}
    (hr : t.resolve follow p = .error e) : e ≠ .fileExists := by
  cases hlen : isTooLong p.text with
  | false => exact (leads_of_resolve hr hlen).ne_fileExists
  | true =>
    rw [resolve, if_pos hlen] at hr
    cases hr
    decide

theorem Leads.follow {t : FileTree} {links : Nat} {dir : Location} {names : List Bytes}
    {place : Place} (hl : Leads t false links dir names (.ok place))
    (hn : ∀ loc target, place ≠ .present loc (.link target)) :
    Leads t true links dir names (.ok place) := by
  generalize hr : Except.ok place = r at hl ⊢
  induction hl with
  | here => exact .here
  | up _ ih => exact .up (ih hr)
  | stuck he => exact .stuck he
  | ending hup hlen hend => exact .ending hup hlen hend
  | into hup hlen hf _ ih => exact .into hup hlen hf (ih hr)
  | link => exact absurd (Except.ok.inj hr) (hn _ _)
  | through hup hlen hf _ _ ih => exact .through hup hlen hf (by simp) (ih hr)

/-- **Where no link stands at the end of a path, it does not matter whether one is followed.** -/
theorem resolve_follow {t : FileTree} {p : Path} {place : Place}
    (hr : t.resolve false p = .ok place) (hn : ∀ loc target, place ≠ .present loc (.link target)) :
    t.resolve true p = .ok place := by
  have hlen := length_of_resolve hr
  rw [resolve, if_neg (by simp [hlen])]
  exact ((leads_of_resolve hr hlen).follow hn).eq

theorem Leads.stay {t : FileTree} {links : Nat} {dir : Location} {names : List Bytes}
    {place : Place} (hl : Leads t true links dir names (.ok place)) :
    Leads t false links dir names (.ok place) ∨
      ∃ loc target, Leads t false links dir names (.ok (.present loc (.link target))) := by
  generalize hr : Except.ok place = r at hl ⊢
  induction hl with
  | here => exact .inl .here
  | up _ ih => exact (ih hr).imp .up fun ⟨loc, target, h⟩ => ⟨loc, target, .up h⟩
  | stuck he => cases hr
  | ending hup hlen hend => exact .inl (.ending hup hlen hend)
  | into hup hlen hf _ ih =>
    exact (ih hr).imp (.into hup hlen hf) fun ⟨loc, target, h⟩ => ⟨loc, target, .into hup hlen hf h⟩
  | link _ _ _ hstay => cases hstay
  | @through more dir name rest target r hup hlen hf _ _ ih =>
    cases rest with
    | nil => exact .inr ⟨_, _, .link hup hlen hf rfl⟩
    | cons a rest =>
      exact (ih hr).imp (.through hup hlen hf rfl)
        fun ⟨loc, target, h⟩ => ⟨loc, target, .through hup hlen hf rfl h⟩

/-- A path that leads somewhere with its last name followed leads there without, or to a link. -/
theorem resolve_stay {t : FileTree} {p : Path} {place : Place} (hr : t.resolve true p = .ok place) :
    t.resolve false p = .ok place ∨
      ∃ loc target, t.resolve false p = .ok (.present loc (.link target)) := by
  have hlen := length_of_resolve hr
  rw [resolve, if_neg (by simp [hlen])]
  exact (leads_of_resolve hr hlen).stay.imp Leads.eq fun ⟨loc, target, h⟩ => ⟨loc, target, h.eq⟩

/-- A file that stands in both trees is found by the path that finds it in one. -/
theorem resolve_file {t t' : FileTree} (h : SameFrame t t') {follow : Bool} {p : Path}
    {loc : Location} {c : Bytes} {m : Nat}
    (hr : t.resolve follow p = .ok (.present loc (.file c m))) {n : FileNode}
    (hn : t'.find? loc = some n) : t'.resolve follow p = .ok (.present loc n) := by
  rw [resolve_frame h hr, Place.reseat, seat, hn]

/-- A file that is made at the end of a path is found by the path. -/
theorem resolve_made {t t' : FileTree} (h : SameFrame t t') {follow : Bool} {p : Path}
    {loc : Location} (hr : t.resolve follow p = .ok (.absent loc)) {n : FileNode}
    (hn : t'.find? loc = some n) : t'.resolve follow p = .ok (.present loc n) := by
  rw [resolve_frame h hr, Place.reseat, seat, hn]

/-- Where files have been made, a path that led to something leads to it still. -/
theorem Fresh.resolve_old {t : FileTree} {new : List (Location × FileNode)} (h : Fresh t new)
    {follow : Bool} {p : Path} {loc : Location} {n : FileNode}
    (hr : t.resolve follow p = .ok (.present loc n)) :
    (t.extend new).resolve follow p = .ok (.present loc n) := by
  have hframe := sameFrame_extend h
  cases n with
  | file c m => exact resolve_file hframe hr (h.find?_old (find?_of_file hr).2)
  | directory | link => exact resolve_frame hframe hr

/-! ### A file in the place of another, or of a link -/

/-- Nothing is below a file: a path that leads to one does not lead on. -/
theorem Leads.stops {t : FileTree} {links : Nat} {dir : Location} {names : List Bytes}
    {loc : Location} {c : Bytes} {m : Nat}
    (hl : Leads t true links dir names (.ok (.present loc (.file c m)))) {follow : Bool} {links' : Nat}
    {rest : List Bytes} {place : Place} (hrest : rest ≠ []) :
    ¬ Leads t follow links' dir (names ++ rest) (.ok place) := by
  generalize hr : Except.ok (Place.present loc (.file c m)) = r at hl
  induction hl generalizing links' with
  | here | stuck => cases hr
  | @up _ _ rest₀ _ _ ih =>
    intro h
    rw [List.cons_append] at h
    generalize hmore : rest₀ ++ rest = more at h
    cases h with
    | up h => exact ih hr (hmore ▸ h)
    | ending hup | into hup | link hup | through hup => exact hup rfl
  | ending hup _ hend =>
    intro h
    rw [List.singleton_append] at h
    cases h with
    | up => exact hup rfl
    | ending | link => exact hrest rfl
    | into _ _ hf | through _ _ hf => rw [hf] at hend; cases hend
  | @into _ _ _ rest₀ _ hup _ hf _ ih =>
    intro h
    rw [List.cons_append] at h
    generalize hmore : rest₀ ++ rest = more at h
    cases h with
    | up => exact hup rfl
    | ending _ _ hend => rw [hf] at hend; cases hend
    | into _ _ _ h => exact ih hr (hmore ▸ h)
    | link _ _ hf' | through _ _ hf' => rw [hf] at hf'; cases hf'
  | link _ _ _ hstay => cases hstay
  | @through _ _ _ rest₀ _ _ hup _ hf _ _ ih =>
    intro h
    rw [List.cons_append] at h
    generalize hmore : rest₀ ++ rest = more at h
    cases h with
    | up => exact hup rfl
    | ending => exact hrest (List.append_eq_nil_iff.1 hmore).2
    | link => exact hrest (List.append_eq_nil_iff.1 hmore).2
    | into _ _ hf' => rw [hf] at hf'; cases hf'
    | through _ _ hf' _ h =>
      rw [hf] at hf'
      cases hf'
      rw [← hmore, ← List.append_assoc] at h
      exact ih hr h

/-- Where a link stands at the end of a path, the path leads where the link leads. -/
theorem Leads.of_link {t : FileTree} {links links' : Nat} {dir : Location} {names : List Bytes}
    {loc : Location} {target : Bytes} {place : Place}
    (hl : Leads t false links dir names (.ok (.present loc (.link target))))
    (hf : Leads t true links' dir names (.ok place)) :
    ∃ more dir name, loc = dir ++ [name] ∧
      Leads t true more (linkBase dir target)
        (linkNames target) (.ok place) := by
  generalize hr : Except.ok (Place.present loc (.link target)) = r at hl
  induction hl generalizing links' with
  | here | stuck => cases hr
  | up _ ih =>
    cases hf with
    | up hf => exact ih hf hr
    | ending hup | into hup | link hup | through hup => exact absurd rfl hup
  | ending _ _ hend =>
    rcases seat_of_end hend with ⟨-, hs⟩ | ⟨c, m, -, hs⟩ <;> rw [hs] at hr <;> cases hr
  | into hup _ hfind _ ih =>
    cases hf with
    | up => exact absurd rfl hup
    | ending _ _ hend => rw [hfind] at hend; cases hend
    | into _ _ _ hf => exact ih hf hr
    | link _ _ hfind' | through _ _ hfind' => rw [hfind] at hfind'; cases hfind'
  | @link _ dir name _ hup _ hfind _ =>
    cases hr
    cases hf with
    | up => exact absurd rfl hup
    | ending _ _ hend => rw [hfind] at hend; cases hend
    | into _ _ hfind' => rw [hfind] at hfind'; cases hfind'
    | link _ _ _ hstay => cases hstay
    | @through more _ _ _ _ _ _ _ hfind' _ hf =>
      rw [hfind] at hfind'
      cases hfind'
      rw [List.append_nil] at hf
      exact ⟨more, dir, name, rfl, hf⟩
  | through hup _ hfind _ _ ih =>
    cases hf with
    | up => exact absurd rfl hup
    | ending _ _ hend => rw [hfind] at hend; cases hend
    | into _ _ hfind' => rw [hfind] at hfind'; cases hfind'
    | link _ _ _ hstay => cases hstay
    | through _ _ hfind' _ hf =>
      rw [hfind] at hfind'
      cases hfind'
      exact ih hf hr

/-- A path that leads to something leads there also when a file is put at `loc`, where a file or a
link stood: to the file itself if it led to `loc`, and to what it led to before if not. -/
theorem Leads.kept {t t' : FileTree} {links : Nat} {dir : Location} {names : List Bytes}
    {loc k : Location} {n m m' : FileNode}
    (hl : Leads t false links dir names (.ok (.present k m)))
    (hfind : t.find? loc = some n) (hn : n ≠ .directory)
    (hkeep : ∀ {k m}, k ≠ loc → t.find? k = some m → t'.find? k = some m)
    (hpass : ∀ {target dir name more rest place}, n = .link target → loc = dir ++ [name] → rest ≠ [] →
      ¬ Leads t false more (linkBase dir target)
        (linkNames target ++ rest) (.ok place))
    (hm : (k ≠ loc ∧ m' = m) ∨
      (k = loc ∧ m ≠ .directory ∧ isEnd (some m') ∧ t'.find? loc = some m')) :
    Leads t' false links dir names (.ok (.present k m')) := by
  have hseat : t'.find? k = some m' → t'.seat k = .present k m' := fun hthere => by
    rw [seat, hthere]
  generalize hr : Except.ok (Place.present k m) = r at hl
  induction hl with
  | here =>
    cases hr
    rcases hm with ⟨-, rfl⟩ | ⟨-, hdir, -⟩
    · exact .here
    · exact absurd rfl hdir
  | stuck => cases hr
  | up _ ih => exact .up (ih hr)
  | @ending _ dir name hup hlen hends =>
    rcases seat_of_end hends with ⟨-, hs⟩ | ⟨c, mode, hold, hs⟩
    · rw [hs] at hr; cases hr
    · rw [hs] at hr
      cases hr
      have hthere : t'.find? (dir ++ [name]) = some m' ∧ isEnd (some m') := by
        rcases hm with ⟨hk, rfl⟩ | ⟨rfl, -, hend, hnew⟩
        · exact ⟨hkeep hk hold, rfl⟩
        · exact ⟨hnew, hend⟩
      rw [← hseat hthere.1]
      exact .ending hup hlen (by rw [hthere.1]; exact hthere.2)
  | into hup hlen hf _ ih =>
    refine .into hup hlen (hkeep ?_ hf) (ih hr)
    rintro rfl
    rw [hfind] at hf
    exact hn (Option.some.inj hf)
  | link hup hlen hf hstay =>
    cases hr
    rcases hm with ⟨hk, rfl⟩ | ⟨rfl, -, hend, hnew⟩
    · exact .link hup hlen (hkeep hk hf) hstay
    · rw [← hseat hnew]
      exact .ending hup hlen (by rw [hnew]; exact hend)
  | @through _ dir name rest target _ hup hlen hf hgo hrest ih =>
    have hne : rest ≠ [] := by
      rintro rfl
      simp at hgo
    refine .through hup hlen (hkeep ?_ hf) hgo (ih hr)
    rintro rfl
    rw [hfind] at hf
    rw [← hr] at hrest
    exact hpass (Option.some.inj hf) rfl hne hrest

/-- Where a path stands at a link to a file, no path leads on through that link. -/
theorem Leads.not_through {t : FileTree} {links links' : Nat} {dir dir' : Location}
    {names : List Bytes} {loc l : Location} {target name : Bytes} {c : Bytes} {m : Nat}
    (hs : Leads t false links dir names (.ok (.present loc (.link target))))
    (hr : Leads t true links' dir names (.ok (.present l (.file c m)))) (hloc : loc = dir' ++ [name])
    {follow : Bool} {more : Nat} {rest : List Bytes} {place : Place} (hrest : rest ≠ []) :
    ¬ Leads t follow more (linkBase dir' target)
      (linkNames target ++ rest) (.ok place) := by
  obtain ⟨more', dir'', name'', hloc', hleads⟩ := hs.of_link hr
  obtain ⟨rfl, -⟩ := List.append_inj' (hloc.symm.trans hloc') rfl
  exact hleads.stops hrest

/-- What stands at a location that a path leads to, if it is no directory. -/
theorem find?_of_stands {t : FileTree} {follow : Bool} {p : Path} {loc : Location} {n : FileNode}
    (hr : t.resolve follow p = .ok (.present loc n)) (hn : n ≠ .directory) :
    loc ≠ [] ∧ t.find? loc = some n := by
  have hfound := found_of_resolve hr
  cases n with
  | directory => exact absurd rfl hn
  | file | link => exact hfound

/-- **A file put where a path stands is found by the path**, also where a link to a file stood. -/
theorem resolve_replaced {t t' : FileTree} {p : Path} {l loc : Location} {c : Bytes} {m : Nat}
    {n n' : FileNode} (hr : t.resolve true p = .ok (.present l (.file c m)))
    (hs : t.resolve false p = .ok (.present loc n)) (hn : n ≠ .directory) (hend : isEnd (some n'))
    (hw : t'.workDir = t.workDir)
    (hkeep : ∀ {k m}, k ≠ loc → t.find? k = some m → t'.find? k = some m)
    (hnew : t'.find? loc = some n') : t'.resolve true p = .ok (.present loc n') := by
  have hlen := length_of_resolve hr
  have hlr := leads_of_resolve hr hlen
  have hls := leads_of_resolve hs hlen
  have hbase : t'.base p = t.base p := by rw [base, base, hw]
  have hstay : t'.resolve false p = .ok (.present loc n') := by
    rw [resolve, if_neg (by simp [hlen]), hbase]
    refine (hls.kept (find?_of_stands hs hn).2 hn hkeep (fun hlink hloc hrest => ?_)
      (.inr ⟨rfl, hn, hend, hnew⟩)).eq
    subst hlink
    exact hls.not_through hlr hloc hrest
  refine resolve_follow hstay fun k target heq => ?_
  cases heq
  cases hend

/-- A path that something is read from can be looked up. -/
theorem fault?_of_read {t : FileTree} {p : Path} {c : Bytes} (h : t.read p = .ok c) :
    p.fault? = none := by
  cases hfault : p.fault? with
  | none => rfl
  | some f =>
    rw [read, hfault] at h
    cases h

theorem read_of_file {t : FileTree} {p : Path} (hfault : p.fault? = none) {loc : Location}
    {c : Bytes} {m : Nat} (hr : t.resolve true p = .ok (.present loc (.file c m))) :
    t.read p = .ok c := by
  rw [read, hfault, hr]

/-- **The new content is read** from the path that was replaced, whatever files there are more. -/
theorem read_replaced {t : FileTree} {p : Path} {l loc : Location} {old : Bytes} {mode : Nat}
    {n : FileNode} (hread : t.read p = .ok old)
    (hr : t.resolve true p = .ok (.present l (.file old mode)))
    (hs : t.resolve false p = .ok (.present loc n)) (hn : n ≠ .directory)
    {new : List (Location × FileNode)} (hfresh : Fresh t new) (content : Bytes) (mode' : Nat) :
    ((t.set loc (.file content mode')).extend new).read p = .ok content := by
  obtain ⟨hne, hfind⟩ := find?_of_stands hs hn
  have hfresh' := hfresh.set hne hfind (.file content mode')
  have hset := find?_set (.file content mode') hne hfind
  have hplace : ((t.set loc (.file content mode')).extend new).resolve true p
      = .ok (.present loc (.file content mode')) := by
    refine resolve_replaced hr hs hn rfl rfl (fun hk hf => ?_) ?_
    · exact hfresh'.find?_old (by rw [hset, if_neg hk, hf])
    · exact hfresh'.find?_old (by rw [hset, if_pos rfl])
  exact read_of_file (fault?_of_read hread) hplace

/-- **What else stands is found as before** when a file is put where a path stands. -/
theorem resolve_beyond {t t' : FileTree} {p : Path} {l loc : Location} {c : Bytes} {m : Nat}
    {n : FileNode} (hr : t.resolve true p = .ok (.present l (.file c m)))
    (hs : t.resolve false p = .ok (.present loc n)) (hn : n ≠ .directory)
    (hw : t'.workDir = t.workDir)
    (hkeep : ∀ {k m}, k ≠ loc → t.find? k = some m → t'.find? k = some m) {q : Path} {k : Location}
    {m' : FileNode} (hq : t.resolve false q = .ok (.present k m')) (hk : k ≠ loc) :
    t'.resolve false q = .ok (.present k m') := by
  have hls := leads_of_resolve hs (length_of_resolve hs)
  have hlr := leads_of_resolve hr (length_of_resolve hr)
  have hlen := length_of_resolve hq
  obtain ⟨-, hfind⟩ := find?_of_stands hs hn
  rw [resolve, if_neg (by simp [hlen]), show t'.base q = t.base q by rw [base, base, hw]]
  refine ((leads_of_resolve hq hlen).kept hfind hn hkeep (fun hlink hloc hrest => ?_)
    (.inl ⟨hk, rfl⟩)).eq
  subst hlink
  exact hls.not_through hlr hloc hrest

end FileTree

end AssetLift
