import AssetLift.Proofs.Commit

/-!
# A commit step by step

A commit is a sequence of steps on a tree, each of which may also fail: a file cannot be opened, a
device tears the bytes that are being written, the last move is refused, even the cleaning up goes
wrong. Wherever the sequence ends, the source is as it was, or it is the new one and every file that
it refers to is there.

* `Step`: one step, done by the commit's own functions, or failing; `Reaches`: the trees of all
  beginnings of a commit.
* `Grows`, `Placed`: what the steps keep, and `step_invariant`, `reaches_invariant`: that they do.
* `commit_passes`: every tree that a commit goes through is one of a beginning.
* `Whole`, `commit_never_half_done`: what is found after every beginning.
-/

namespace AssetLift

namespace Commit

open Disk FileTree

/-! ## Steps -/

/-- How far a commit has come. -/
inductive Phase where
  /-- Files are to be made, then the source is to be replaced. -/
  | landing (todo : List PlannedFile) (done : Result)
  /-- A file has been made, and its content is being written. -/
  | filling (f : PlannedFile) (loc : Location) (todo : List PlannedFile) (done : Result)
  /-- A temporary file has been made, and the new source is being written. -/
  | drafting (temp : Temp) (done : Result)
  /-- The new source is written. -/
  | drafted (temp : Temp) (done : Result)
  /-- The new source has the permission bits of the old one. -/
  | ready (temp : Temp) (done : Result)
  /-- A step has failed, and the temporary file is to be taken away. -/
  | dropping (temp : Temp) (done : Result)
  /-- A step has failed, and the files at the given paths are to be taken away. -/
  | undoing (paths : List Path)
  /-- There is nothing more to do. -/
  | finished

/-- The temporary file that is there, with what was made before it. -/
def Phase.temp? : Phase → Option (Temp × Result)
  | .drafting temp done => some (temp, done)
  | .drafted temp done => some (temp, done)
  | .ready temp done => some (temp, done)
  | _ => none

/-- One step of a commit. Next to the steps of the commit itself there are those of a device that
refuses to go on or writes other bytes than it is given. -/
inductive Step (p : Patch) : Phase → FileTree → Phase → FileTree → Prop
  | create {f todo done loc t t'} (h : createNew f.path t = .ok (loc, t')) :
      Step p (.landing (f :: todo) done) t (.filling f loc todo done) t'
  | keep {f todo done e t} (h : createNew f.path t = .error e) (hthere : isOccupied e = true) :
      Step p (.landing (f :: todo) done) t
        (.landing todo { done with existing := done.existing ++ [f.path] }) t
  /-- The next file cannot be opened, be it a planned or the temporary one. -/
  | refuse {todo done t} : Step p (.landing todo done) t (.undoing done.created) t
  /-- Some bytes have been written, or others. -/
  | spill {f loc todo done t} (bytes : Bytes) :
      Step p (.filling f loc todo done) t (.filling f loc todo done)
        (t.set loc (.file bytes defaultMode))
  | fill {outage f loc todo done t t'} (h : fill outage f loc t = .ok ((), t')) :
      Step p (.filling f loc todo done) t
        (.landing todo { done with created := done.created ++ [f.path] }) t'
  /-- The content cannot be written. -/
  | tear {f loc todo done t} : Step p (.filling f loc todo done) t (.undoing done.created) t
  /-- No edit is staged, and the source stays. -/
  | finish {done t} (h : p.staging.edits.isEmpty = true) : Step p (.landing [] done) t .finished t
  | createTemp {done temp t t'} (hedits : p.staging.edits.isEmpty = false)
      (h : createTemp p.path t = .ok (temp, t')) :
      Step p (.landing [] done) t (.drafting temp done) t'
  | spillTemp {temp done t} (bytes : Bytes) :
      Step p (.drafting temp done) t (.drafting temp done)
        (t.set temp.loc (.file bytes privateMode))
  | fillTemp {temp done t t'} (h : fillTemp temp p.render t = .ok ((), t')) :
      Step p (.drafting temp done) t (.drafted temp done) t'
  | copyMode {temp done t t'} (h : copyMode p.path temp t = .ok ((), t')) :
      Step p (.drafted temp done) t (.ready temp done) t'
  | move {outage temp done t t'} (h : moveOver outage p.path temp t = .ok ((), t')) :
      Step p (.ready temp done) t .finished t'
  /-- The temporary file cannot be written, be given permission bits or be moved. -/
  | abandon {phase temp done t} (h : phase.temp? = some (temp, done)) :
      Step p phase t (.dropping temp done) t
  | drop {temp done t t'} (h : remove temp.path t = .ok ((), t')) :
      Step p (.dropping temp done) t (.undoing done.created) t'
  /-- The temporary file cannot be taken away. -/
  | leave {temp done t} : Step p (.dropping temp done) t (.undoing done.created) t
  | undo {q paths t t'} (h : remove q t = .ok ((), t')) :
      Step p (.undoing (q :: paths)) t (.undoing paths) t'
  /-- All is taken away, or something cannot be. -/
  | stop {paths t} : Step p (.undoing paths) t .finished t

/-- How far a commit of the tree `base` may have come, and the tree it has made by then. -/
inductive Reaches (p : Patch) (base : FileTree) : Phase → FileTree → Prop
  | start : Reaches p base (.landing p.files {}) base
  | step {phase t phase' t'} (h : Reaches p base phase t) (hs : Step p phase t phase' t') :
      Reaches p base phase' t'

/-! ## What is kept -/

/-- All that stood there stands there still, and there may be files more. -/
structure Grows (base t : FileTree) : Prop where
  workDir : t.workDir = base.workDir
  old : ∀ {l n}, base.find? l = some n → t.find? l = some n
  new : ∀ {l}, base.find? l = none → isEnd (t.find? l)

/-- A path that led to a free place when the commit was begun. -/
def Ours (base : FileTree) (q : Path) : Prop := ∃ l, base.resolve false q = .ok (.absent l)

namespace Grows

variable {base t : FileTree}

theorem refl (t : FileTree) : Grows t t := ⟨rfl, id, fun h => by rw [h]; rfl⟩

theorem frame (h : Grows base t) : SameFrame base t := by
  refine sameFrame_of_ends h.workDir fun l => ?_
  cases hl : base.find? l with
  | none => exact .inr ⟨rfl, h.new hl⟩
  | some n => exact .inl (h.old hl)

/-- A place that is free was free when the commit was begun. -/
theorem free (h : Grows base t) {l : Location} (hl : t.find? l = none) : base.find? l = none := by
  cases hb : base.find? l with
  | none => rfl
  | some n => rw [h.old hb] at hl; cases hl

/-- A path to a free place led to that free place when the commit was begun. -/
theorem free_path (h : Grows base t) {q : Path} {l : Location}
    (hq : t.resolve false q = .ok (.absent l)) : base.resolve false q = .ok (.absent l) := by
  rw [resolve_frame h.frame.symm hq, Place.reseat, seat, h.free (find?_of_absent hq)]

/-- A path of ours leads to where it led, whatever is there now. -/
theorem ours (h : Grows base t) {q : Path} {l : Location}
    (hq : base.resolve false q = .ok (.absent l)) : t.resolve false q = .ok (t.seat l) :=
  resolve_frame h.frame hq

theorem insert (h : Grows base t) {l : Location} (hl : t.find? l = none) (c : Bytes) (m : Nat) :
    Grows base (t.insert l (.file c m)) := by
  refine ⟨h.workDir, fun {k n} hk => ?_, fun {k} hk => ?_⟩
  · rw [find?_insert _ hl, if_neg]
    · exact h.old hk
    · rintro rfl
      rw [h.old hk] at hl
      cases hl
  · rw [find?_insert _ hl]
    split
    · rfl
    · exact h.new hk

theorem erase (h : Grows base t) {l : Location} (hl : base.find? l = none) :
    Grows base (t.erase l) := by
  have hne := ne_nil_of_find? hl
  refine ⟨h.workDir, fun {k n} hk => ?_, fun {k} hk => ?_⟩
  · rw [find?_erase hne, if_neg]
    · exact h.old hk
    · rintro rfl
      rw [hl] at hk
      cases hk
  · rw [find?_erase hne]
    split
    · rfl
    · exact h.new hk

/-- **Taking away what was made** takes nothing else away. -/
theorem remove (h : Grows base t) {q : Path} (hq : Ours base q) {t' : FileTree}
    (hrun : Commit.remove q t = .ok ((), t')) : Grows base t' := by
  obtain ⟨l, hl⟩ := hq
  have hfree := find?_of_absent hl
  rw [Commit.remove, h.ours hl, seat] at hrun
  cases ht : t.find? l with
  | none =>
    rw [ht] at hrun
    cases hrun
    exact h
  | some n =>
    rw [ht] at hrun
    cases hrun
    exact h.erase hfree

end Grows

/-- Every one of the planned files is there, and those made since `base` hold what was planned: at a
place that was free, the content of the first one planned for it. -/
structure Placed (base : FileTree) (files : List PlannedFile) (t : FileTree) : Prop where
  occupied : ∀ f ∈ files, ∃ l n, t.resolve false f.path = .ok (.present l n)
  full : ∀ {pre f post l}, files = pre ++ f :: post → base.resolve false f.path = .ok (.absent l) →
    (∀ g ∈ pre, base.resolve false g.path ≠ .ok (.absent l)) →
    ∃ bytes, Utf8.encode f.content = .ok bytes ∧
      t.resolve false f.path = .ok (.present l (.file bytes defaultMode))

namespace Placed

variable {base t t' : FileTree} {files : List PlannedFile}

/-- Files stay placed while what stands there stays, and what was made does not change. -/
theorem mono (h : Placed base files t) (hframe : SameFrame t t')
    (hthere : ∀ {l n}, t.find? l = some n → ∃ n', t'.find? l = some n')
    (hmade : ∀ {l n}, base.find? l = none → t.find? l = some n → t'.find? l = some n) :
    Placed base files t' := by
  refine ⟨fun f hf => ?_, fun {pre f post l} hfiles hfree hfirst => ?_⟩
  · obtain ⟨l, n, hr⟩ := h.occupied f hf
    cases n with
    | directory => exact ⟨l, _, resolve_frame hframe hr⟩
    | link target => exact ⟨l, _, resolve_frame hframe hr⟩
    | file c m =>
      obtain ⟨n', hn'⟩ := hthere (find?_of_file hr).2
      exact ⟨l, n', resolve_file hframe hr hn'⟩
  · obtain ⟨bytes, hbytes, hr⟩ := h.full hfiles hfree hfirst
    exact ⟨bytes, hbytes,
      resolve_file hframe hr (hmade (find?_of_absent hfree) (find?_of_file hr).2)⟩

theorem insert (h : Placed base files t) {l : Location} (hl : t.find? l = none) (c : Bytes)
    (m : Nat) : Placed base files (t.insert l (.file c m)) := by
  have hold : ∀ {k n}, t.find? k = some n → (t.insert l (.file c m)).find? k = some n := by
    intro k n hk
    rw [find?_insert _ hl, if_neg, hk]
    rintro rfl
    rw [hl] at hk
    cases hk
  exact h.mono (sameFrame_insert hl c m) (fun hk => ⟨_, hold hk⟩) fun _ => hold

/-- One file more has a place: it is occupied, and full if it is the first for a free place. -/
theorem snoc (h : Placed base files t) {f : PlannedFile}
    (hthere : ∃ l n, t.resolve false f.path = .ok (.present l n))
    (hfull : ∀ {l}, base.resolve false f.path = .ok (.absent l) →
      (∀ g ∈ files, base.resolve false g.path ≠ .ok (.absent l)) →
      ∃ bytes, Utf8.encode f.content = .ok bytes ∧
        t.resolve false f.path = .ok (.present l (.file bytes defaultMode))) :
    Placed base (files ++ [f]) t := by
  refine ⟨fun g hg => ?_, fun {pre g post l} hfiles hfree hfirst => ?_⟩
  · rcases List.mem_append.1 hg with hg | hg
    · exact h.occupied g hg
    · rw [List.mem_singleton.1 hg]
      exact hthere
  · rcases List.eq_nil_or_concat post with rfl | ⟨post, last, rfl⟩
    · obtain ⟨rfl, hg⟩ := List.append_inj' hfiles rfl
      cases hg
      exact hfull hfree hfirst
    · rw [List.concat_eq_append, ← List.cons_append, ← List.append_assoc] at hfiles
      exact h.full (List.append_inj' hfiles rfl).1 hfree hfirst

end Placed

/-! ## The invariant -/

/-- Planned files are being made: those in `seen` are placed, and nothing else is new. -/
structure Underway (base : FileTree) (seen : List PlannedFile) (done : Result) (t : FileTree) :
    Prop where
  grows : Grows base t
  placed : Placed base seen t
  only : ∀ {l n}, base.find? l = none → t.find? l = some n →
    ∃ g ∈ seen, base.resolve false g.path = .ok (.absent l)
  ours : ∀ q ∈ done.created, Ours base q

namespace Underway

variable {base t : FileTree} {seen : List PlannedFile} {done : Result} {f : PlannedFile}

theorem start (t : FileTree) : Underway t [] {} t where
  grows := .refl t
  placed := ⟨by simp, fun h => by simp at h⟩
  only hfree hl := by rw [hfree] at hl; cases hl
  ours := by simp

/-- The next file is made and its content written. -/
theorem made (h : Underway base seen done t) {loc : Location} {bytes : Bytes}
    (hfree : t.resolve false f.path = .ok (.absent loc))
    (hbytes : Utf8.encode f.content = .ok bytes) :
    Underway base (seen ++ [f]) { done with created := done.created ++ [f.path] }
      (t.insert loc (.file bytes defaultMode)) := by
  have hloc := find?_of_absent hfree
  have hbase := h.grows.free_path hfree
  have hthere : (t.insert loc (.file bytes defaultMode)).resolve false f.path
      = .ok (.present loc (.file bytes defaultMode)) :=
    resolve_made (sameFrame_insert hloc _ _) hfree (by rw [find?_insert _ hloc, if_pos rfl])
  refine ⟨h.grows.insert hloc _ _, ?_, fun {l n} hl hn => ?_, fun q hq => ?_⟩
  · refine (h.placed.insert hloc _ _).snoc ⟨_, _, hthere⟩ fun {l} hl _ => ⟨bytes, hbytes, ?_⟩
    rw [hbase] at hl
    cases hl
    exact hthere
  · rw [find?_insert _ hloc] at hn
    by_cases heq : l = loc
    · rw [heq]
      exact ⟨f, by simp, hbase⟩
    · rw [if_neg heq] at hn
      obtain ⟨g, hg, hr⟩ := h.only hl hn
      exact ⟨g, List.mem_append_left _ hg, hr⟩
  · rcases List.mem_append.1 hq with hq | hq
    · exact h.ours q hq
    · rw [List.mem_singleton.1 hq]
      exact ⟨loc, hbase⟩

/-- Something stands in the way of the next file. -/
theorem kept (h : Underway base seen done t) {loc : Location} {n : FileNode}
    (hthere : t.resolve false f.path = .ok (.present loc n)) :
    Underway base (seen ++ [f]) { done with existing := done.existing ++ [f.path] } t := by
  refine ⟨h.grows, h.placed.snoc ⟨loc, n, hthere⟩ fun {l} hl hfirst => ?_, fun hl hn => ?_, h.ours⟩
  · -- if the place was free, another planned file was made there
    rw [h.grows.ours hl, seat] at hthere
    cases hn : t.find? l with
    | none => rw [hn] at hthere; cases hthere
    | some n' =>
      obtain ⟨g, hg, hr⟩ := h.only (find?_of_absent hl) hn
      exact absurd hr (hfirst g hg)
  · obtain ⟨g, hg, hr⟩ := h.only hl hn
    exact ⟨g, List.mem_append_left _ hg, hr⟩

end Underway

section
variable (p : Patch) (base : FileTree) (loc : Location) (mode : Nat)

/-- The planned files are made, and a temporary file has been made then. -/
def Drafted (temp : Temp) (done : Result) (node : FileNode) (t : FileTree) : Prop :=
  ∃ t₁, Underway base p.files done t₁ ∧ t₁.resolve false temp.path = .ok (.absent temp.loc) ∧
    t = t₁.insert temp.loc node

/-- What holds at each point of a commit whose source is the file at `loc`. -/
def Invariant : Phase → FileTree → Prop
  | .landing todo done, t => ∃ seen, p.files = seen ++ todo ∧ Underway base seen done t
  | .filling f l todo done, t => ∃ seen t₁ c, p.files = seen ++ f :: todo ∧
      Underway base seen done t₁ ∧ t₁.resolve false f.path = .ok (.absent l) ∧
      t = t₁.insert l (.file c defaultMode)
  | .drafting temp done, t => ∃ c, Drafted p base temp done (.file c privateMode) t
  | .drafted temp done, t => Drafted p base temp done (.file p.render privateMode) t
  | .ready temp done, t => Drafted p base temp done (.file p.render mode) t
  | .dropping temp done, t =>
      Grows base t ∧ Ours base temp.path ∧ ∀ q ∈ done.created, Ours base q
  | .undoing paths, t => Grows base t ∧ ∀ q ∈ paths, Ours base q
  | .finished, t => Grows base t ∨ ∃ t₁, Grows base t₁ ∧ Placed base p.files t₁ ∧
      t = t₁.set loc (.file p.render mode)

end

/-- What is found when a commit is cut off, where the source was the file `old` at `loc`. -/
structure Whole (p : Patch) (base : FileTree) (loc : Location) (old : Bytes) (mode : Nat)
    (t : FileTree) : Prop where
  /-- The source is the old one, or it is the new one and what it refers to is there. -/
  source : t.resolve false p.path = .ok (.present loc (.file old mode)) ∨
    t.resolve false p.path = .ok (.present loc (.file p.render mode)) ∧ Placed base p.files t
  /-- Every path that led to something else leads to that still. -/
  others : ∀ {follow q l n}, l ≠ loc → base.resolve follow q = .ok (.present l n) →
    t.resolve follow q = .ok (.present l n)

section
variable {p : Patch} {base : FileTree} {loc : Location} {old : Bytes} {mode : Nat}
  (hsource : base.resolve false p.path = .ok (.present loc (.file old mode)))

theorem Drafted.grows {temp : Temp} {done : Result} {c : Bytes} {m : Nat} {t : FileTree}
    (h : Drafted p base temp done (.file c m) t) :
    Grows base t ∧ Ours base temp.path ∧ ∀ q ∈ done.created, Ours base q := by
  obtain ⟨t₁, hunder, hfree, rfl⟩ := h
  exact ⟨hunder.grows.insert (find?_of_absent hfree) c m, ⟨_, hunder.grows.free_path hfree⟩,
    hunder.ours⟩

/-- At every point either nothing that stood there has changed, or the source alone has been
replaced, with every planned file in its place. -/
theorem Invariant.grows_or_replaced {phase : Phase} {t : FileTree}
    (h : Invariant p base loc mode phase t) :
    Grows base t ∨ ∃ t₁, Grows base t₁ ∧ Placed base p.files t₁ ∧
      t = t₁.set loc (.file p.render mode) := by
  cases phase with
  | landing => obtain ⟨_, _, hunder⟩ := h; exact .inl hunder.grows
  | filling =>
    obtain ⟨_, _, _, _, hunder, hfree, rfl⟩ := h
    exact .inl (hunder.grows.insert (find?_of_absent hfree) _ _)
  | drafting => obtain ⟨_, h⟩ := h; exact .inl h.grows.1
  | drafted => exact .inl (Drafted.grows h).1
  | ready => exact .inl (Drafted.grows h).1
  | dropping => exact .inl h.1
  | undoing => exact .inl h.1
  | finished => exact h

/-- The temporary file becomes another. -/
theorem Drafted.stands {temp : Temp} {done : Result} {n : FileNode} {t : FileTree}
    (h : Drafted p base temp done n t) : t.find? temp.loc = some n := by
  obtain ⟨t₁, -, hfree, rfl⟩ := h
  rw [find?_insert _ (find?_of_absent hfree), if_pos rfl]

theorem Drafted.set {temp : Temp} {done : Result} {n n' : FileNode} {t : FileTree}
    (h : Drafted p base temp done n t) : Drafted p base temp done n' (t.set temp.loc n') := by
  obtain ⟨t₁, hunder, hfree, rfl⟩ := h
  exact ⟨t₁, hunder, hfree, set_insert (find?_of_absent hfree) n n'⟩

include hsource

/-- Up to the last move the source is what it was. -/
theorem Grows.source {t : FileTree} (h : Grows base t) (follow : Bool) :
    t.resolve follow p.path = .ok (.present loc (.file old mode)) := by
  have hthere := h.old (find?_of_file hsource).2
  cases follow with
  | false => exact resolve_file h.frame hsource hthere
  | true => exact resolve_file h.frame (resolve_follow hsource (by simp)) hthere

/-- **The last move** puts the new source in the place of the old one. -/
theorem Drafted.moved {temp : Temp} {done : Result} {t t' : FileTree} {outage : Outage}
    (h : Drafted p base temp done (.file p.render mode) t)
    (hrun : moveOver outage p.path temp t = .ok ((), t')) :
    ∃ t₁, Grows base t₁ ∧ Placed base p.files t₁ ∧ t' = t₁.set loc (.file p.render mode) := by
  have hplace := h.grows.1.source hsource false
  have hself := h.stands
  obtain ⟨t₁, hunder, hfree, rfl⟩ := h
  have hnone := find?_of_absent hfree
  refine ⟨t₁, hunder.grows, hunder.placed, ?_⟩
  rw [moveOver, hself, hplace, erase_insert hnone] at hrun
  split at hrun
  · cases hrun
  · cases ‹_ = none›
  · cases ‹some _ = some _›
    cases hrun
    rfl

/-- **Every step keeps the invariant.** -/
theorem step_invariant {phase phase' : Phase} {t t' : FileTree} (hs : Step p phase t phase' t')
    (h : Invariant p base loc mode phase t) : Invariant p base loc mode phase' t' := by
  cases hs with
  | create hrun =>
    obtain ⟨seen, hfiles, hunder⟩ := h
    obtain ⟨hfree, rfl⟩ := createNew_ok hrun
    exact ⟨seen, t, [], hfiles, hunder, hfree, rfl⟩
  | keep hrun hthere =>
    obtain ⟨seen, hfiles, hunder⟩ := h
    obtain ⟨l, n, hr⟩ := createNew_occupied hrun hthere
    exact ⟨_, by rw [hfiles, List.append_assoc]; rfl, hunder.kept hr⟩
  | refuse =>
    obtain ⟨seen, -, hunder⟩ := h
    exact ⟨hunder.grows, hunder.ours⟩
  | spill bytes =>
    obtain ⟨seen, t₁, c, hfiles, hunder, hfree, rfl⟩ := h
    exact ⟨seen, t₁, bytes, hfiles, hunder, hfree, set_insert (find?_of_absent hfree) _ _⟩
  | fill hrun =>
    obtain ⟨seen, t₁, c, hfiles, hunder, hfree, rfl⟩ := h
    obtain ⟨bytes, hbytes, rfl⟩ := fill_ok hrun
    rw [set_insert (find?_of_absent hfree)]
    exact ⟨_, by rw [hfiles, List.append_assoc]; rfl, hunder.made hfree hbytes⟩
  | tear =>
    obtain ⟨seen, t₁, c, -, hunder, hfree, rfl⟩ := h
    exact ⟨hunder.grows.insert (find?_of_absent hfree) _ _, hunder.ours⟩
  | finish =>
    obtain ⟨seen, -, hunder⟩ := h
    exact .inl hunder.grows
  | createTemp _ hrun =>
    obtain ⟨seen, hfiles, hunder⟩ := h
    obtain ⟨hfree, rfl⟩ := createTemp_ok hrun
    obtain rfl : p.files = seen := by simpa using hfiles
    exact ⟨[], t, hunder, hfree, rfl⟩
  | spillTemp bytes =>
    obtain ⟨c, h⟩ := h
    exact ⟨bytes, h.set⟩
  | fillTemp hrun =>
    obtain ⟨c, h⟩ := h
    cases hrun
    exact h.set
  | copyMode hrun =>
    have hplace := (Drafted.grows h).1.source hsource true
    rw [copyMode, hplace, Drafted.stands h] at hrun
    cases hrun
    exact Drafted.set h
  | move hrun => exact .inr (Drafted.moved hsource h hrun)
  | abandon htemp =>
    cases phase with
    | drafting temp done =>
      obtain ⟨c, h⟩ := h
      cases htemp
      exact h.grows
    | drafted temp done => cases htemp; exact Drafted.grows h
    | ready temp done => cases htemp; exact Drafted.grows h
    | _ => cases htemp
  | drop hrun => exact ⟨h.1.remove h.2.1 hrun, h.2.2⟩
  | leave => exact ⟨h.1, h.2.2⟩
  | undo hrun =>
    exact ⟨h.1.remove (h.2 _ List.mem_cons_self) hrun,
      fun q hq => h.2 q (List.mem_cons_of_mem _ hq)⟩
  | stop => exact .inl h.1

/-- **The invariant holds at every point of a commit.** -/
theorem reaches_invariant {phase : Phase} {t : FileTree} (h : Reaches p base phase t) :
    Invariant p base loc mode phase t := by
  induction h with
  | start => exact ⟨[], rfl, .start base⟩
  | step _ hs ih => exact step_invariant hsource hs ih

/-! ## What is found -/

theorem Grows.whole {t : FileTree} (h : Grows base t) : Whole p base loc old mode t := by
  refine ⟨.inl (h.source hsource false), fun {follow q l n} _ hq => ?_⟩
  cases n with
  | directory => exact resolve_frame h.frame hq
  | link target => exact resolve_frame h.frame hq
  | file c m => exact resolve_file h.frame hq (h.old (find?_of_file hq).2)

theorem replaced_whole {t : FileTree} (h : Grows base t) (hplaced : Placed base p.files t) :
    Whole p base loc old mode (t.set loc (.file p.render mode)) := by
  obtain ⟨hne, hthere⟩ := find?_of_file hsource
  have hold := h.old hthere
  have hframe : SameFrame t (t.set loc (.file p.render mode)) := sameFrame_set hne hold
  have hother : ∀ {l n}, l ≠ loc → t.find? l = some n →
      (t.set loc (.file p.render mode)).find? l = some n := by
    intro l n hl hn
    rw [find?_set _ hne hold, if_neg hl, hn]
  have hself : (t.set loc (.file p.render mode)).find? loc = some (.file p.render mode) := by
    rw [find?_set _ hne hold, if_pos rfl]
  constructor
  · refine .inr ⟨resolve_file (h.frame.trans hframe) hsource hself, hplaced.mono hframe ?_ ?_⟩
    · intro l n hn
      by_cases hl : l = loc
      · rw [hl]
        exact ⟨_, hself⟩
      · exact ⟨n, hother hl hn⟩
    · intro l n hfree hn
      refine hother ?_ hn
      rintro rfl
      rw [hthere] at hfree
      cases hfree
  · intro follow q l n hl hq
    have hq' := (h.whole hsource).others hl hq
    cases n with
    | directory => exact resolve_frame hframe hq'
    | link target => exact resolve_frame hframe hq'
    | file c m => exact resolve_file hframe hq' (hother hl (find?_of_file hq').2)

theorem reaches_whole {phase : Phase} {t : FileTree} (h : Reaches p base phase t) :
    Whole p base loc old mode t := by
  rcases (reaches_invariant hsource h).grows_or_replaced with hgrows | ⟨t₁, hgrows, hplaced, rfl⟩
  · exact hgrows.whole hsource
  · exact replaced_whole hsource hgrows hplaced

end

/-! ## The trees of a commit -/

end Commit

namespace Disk

/-- Every tree that an activity goes through, the last first. -/
def trees (x : Disk α) (t : FileTree) : List FileTree :=
  (runFrom x ⟨t, []⟩).2.tree :: (runFrom x ⟨t, []⟩).2.past

/-- Begun on a tree of which `P` holds, the activity goes through trees of which `S` holds, and `Q`
holds of how it ends. -/
def Tracks (S P : FileTree → Prop) (x : Disk α) (Q : Except IoFault α → FileTree → Prop) : Prop :=
  ∀ j : Journal, (∀ t ∈ j.past, S t) → P j.tree →
    (∀ t ∈ (runFrom x j).2.past, S t) ∧ Q (runFrom x j).1 (runFrom x j).2.tree

/-- What holds of an activity's end, with a result and without. -/
def Ends (ok : α → FileTree → Prop) (error : IoFault → FileTree → Prop) :
    Except IoFault α → FileTree → Prop
  | .ok a => ok a
  | .error e => error e

section
variable {α β : Type} {S P P' : FileTree → Prop} {Q Q' : Except IoFault α → FileTree → Prop}
  {R : Except IoFault β → FileTree → Prop}

theorem tracks_pure {a : α} (h : ∀ t, P t → Q (.ok a) t) : Tracks S P (pure a) Q :=
  fun j hpast ht => ⟨hpast, h j.tree ht⟩

theorem tracks_throw {e : IoFault} (h : ∀ t, P t → Q (.error e) t) :
    Tracks S P (throw e) Q := fun j hpast ht => ⟨hpast, h j.tree ht⟩

theorem Tracks.bind {x : Disk α} {f : α → Disk β} (hx : Tracks S P x Q)
    (hf : ∀ a, Tracks S (Q (.ok a)) (f a) R) (herror : ∀ e t, Q (.error e) t → R (.error e) t) :
    Tracks S P (x >>= f) R := by
  intro j hpast ht
  obtain ⟨hpast', hend⟩ := hx j hpast ht
  rw [run_bind]
  rcases hrun : runFrom x j with ⟨e | a, j'⟩
  · rw [hrun] at hpast' hend
    exact ⟨hpast', herror e _ hend⟩
  · rw [hrun] at hpast' hend
    exact hf a j' hpast' hend

theorem Tracks.map {x : Disk α} {f : α → β} (hx : Tracks S P x Q)
    (hf : ∀ a t, Q (.ok a) t → R (.ok (f a)) t) (herror : ∀ e t, Q (.error e) t → R (.error e) t) :
    Tracks S P (f <$> x) R := by
  rw [map_eq_pure_bind]
  exact hx.bind (fun a => tracks_pure fun t h => hf a t h) herror

theorem Tracks.catch {x : Disk α} {handle : IoFault → Disk α} (hx : Tracks S P x Q)
    (hok : ∀ a t, Q (.ok a) t → Q' (.ok a) t)
    (hh : ∀ e, Tracks S (Q (.error e)) (handle e) Q') : Tracks S P (tryCatch x handle) Q' := by
  intro j hpast ht
  obtain ⟨hpast', hend⟩ := hx j hpast ht
  rw [run_tryCatch]
  rcases hrun : runFrom x j with ⟨e | a, j'⟩
  · rw [hrun] at hpast' hend
    exact hh e j' hpast' hend
  · rw [hrun] at hpast' hend
    exact ⟨hpast', hok a _ hend⟩

theorem tracks_step {change : FileTree → Except IoFault (α × FileTree)} (hS : ∀ t, P t → S t)
    (hok : ∀ t a t', P t → change t = .ok (a, t') → Q (.ok a) t')
    (herror : ∀ t e, P t → change t = .error e → Q (.error e) t) :
    Tracks S P (Commit.step change) Q := by
  intro j hpast ht
  rw [Commit.step, run_bind, run_get]
  cases hrun : change j.tree with
  | ok made =>
    obtain ⟨a, t'⟩ := made
    simp only [hrun]
    exact ⟨List.forall_mem_cons.2 ⟨hS _ ht, hpast⟩, hok _ a t' ht hrun⟩
  | error e =>
    simp only [hrun]
    exact ⟨hpast, herror _ e ht hrun⟩

end

end Disk

namespace Commit

open Disk FileTree

section
variable (p : Patch) (base : FileTree)

/-- The tree of some beginning of the commit. -/
def Passes (t : FileTree) : Prop := ∃ phase, Reaches p base phase t

variable {p base}

/-- The phase after a planned file has been tried, by whether it was made or was there. -/
def tried (f : PlannedFile) (todo : List PlannedFile) (done : Result) : Bool → Phase
  | true => .landing todo { done with created := done.created ++ [f.path] }
  | false => .landing todo { done with existing := done.existing ++ [f.path] }

/-- The phase after a planned file has been opened, unless it was there. -/
def opened (f : PlannedFile) (todo : List PlannedFile) (done : Result) : Option Location → Phase
  | some loc => .filling f loc todo done
  | none => tried f todo done false

/-- The phase after the planned files, by whether one of them could not be written. -/
def landed : Result × Option IoFault → Phase
  | (done, none) => .landing [] done
  | (done, some _) => .undoing done.created

theorem tracks_writeNew (outage : Outage) (f : PlannedFile) (todo : List PlannedFile)
    (done : Result) : Tracks (Passes p base) (Reaches p base (.landing (f :: todo) done))
      (writeNew outage f) (Ends (fun made => Reaches p base (tried f todo done made))
        fun _ => Reaches p base (.undoing done.created)) := by
  have hopen : Tracks (Passes p base) (Reaches p base (.landing (f :: todo) done))
      (step (createNew f.path)) (Ends (fun loc => Reaches p base (.filling f loc todo done))
        fun e t => Reaches p base (.landing (f :: todo) done) t ∧ createNew f.path t = .error e) :=
    tracks_step (fun t h => ⟨_, h⟩) (fun t loc t' h hrun => h.step (.create hrun))
      fun t e h hrun => ⟨h, hrun⟩
  have hcatch : Tracks (Passes p base) (Reaches p base (.landing (f :: todo) done))
      (tryCatch (some <$> step (createNew f.path)) fun e =>
        if isOccupied e then pure none else throw e)
      (Ends (fun loc? => Reaches p base (opened f todo done loc?))
        fun _ => Reaches p base (.undoing done.created)) := by
    refine Tracks.catch (Q := Ends (fun loc? => Reaches p base (opened f todo done loc?))
        fun e t => Reaches p base (.landing (f :: todo) done) t ∧ createNew f.path t = .error e)
      (hopen.map (fun _ _ h => h) fun _ _ h => h) (fun _ _ h => h) fun e => ?_
    change Tracks _ (fun t => Reaches p base (.landing (f :: todo) done) t ∧
      createNew f.path t = .error e) _ _
    cases hocc : isOccupied e with
    | true => exact tracks_pure fun t h => h.1.step (.keep h.2 hocc)
    | false => exact tracks_throw fun t h => h.1.step .refuse
  unfold writeNew
  refine hcatch.bind (fun made => ?_) fun _ _ h => h
  cases made with
  | none => exact tracks_pure fun _ h => h
  | some loc =>
    refine Tracks.bind (Q := Ends (fun _ => Reaches p base (tried f todo done true))
        fun _ => Reaches p base (.undoing done.created))
      (tracks_step (fun t h => ⟨_, h⟩) (fun t _ t' h hrun => h.step (.fill hrun))
        fun t e h _ => h.step .tear)
      (fun _ => tracks_pure fun _ h => h) fun _ _ h => h

theorem tracks_landFiles (outage : Outage) (todo : List PlannedFile) (done : Result) :
    Tracks (Passes p base) (Reaches p base (.landing todo done)) (landFiles outage todo done)
      (Ends (fun r => Reaches p base (landed r)) fun _ _ => False) := by
  induction todo generalizing done with
  | nil => exact tracks_pure fun _ h => h
  | cons f todo ih =>
    have hfile : Tracks (Passes p base) (Reaches p base (.landing (f :: todo) done))
        (tryCatch (Except.ok <$> writeNew outage f) fun e => pure (.error e))
        (Ends (Ends (fun made => Reaches p base (tried f todo done made))
          fun _ => Reaches p base (.undoing done.created)) fun _ _ => False) :=
      Tracks.catch (Q := Ends (Ends (fun made => Reaches p base (tried f todo done made))
          fun _ => Reaches p base (.undoing done.created))
          fun _ => Reaches p base (.undoing done.created))
        ((tracks_writeNew outage f todo done).map (fun _ _ h => h) fun _ _ h => h)
        (fun _ _ h => h) fun e => tracks_pure fun _ h => h
    rw [landFiles]
    refine hfile.bind (fun made => ?_) fun _ _ h => h.elim
    rcases made with e | made
    · exact tracks_pure fun _ h => h
    · cases made with
      | true => exact ih _
      | false => exact ih _

theorem tracks_removeAll (paths : List Path) :
    Tracks (Passes p base) (Reaches p base (.undoing paths)) (removeAll paths)
      fun _ t => Passes p base t := by
  induction paths with
  | nil => exact tracks_pure fun _ h => ⟨_, h⟩
  | cons q paths ih =>
    rw [removeAll]
    exact Tracks.bind (Q := Ends (fun _ => Reaches p base (.undoing paths)) fun _ => Passes p base)
      (tracks_step (fun t h => ⟨_, h⟩) (fun t _ t' h hrun => h.step (.undo hrun))
        fun t e h _ => ⟨_, h⟩) (fun _ => ih) fun _ _ h => h

theorem tracks_replaceSource (outage : Outage) (hedits : p.staging.edits.isEmpty = false)
    (done : Result) : Tracks (Passes p base) (Reaches p base (.landing [] done))
      (replaceSource outage p.path p.render) (Ends (fun _ => Reaches p base .finished)
        fun _ => Reaches p base (.undoing done.created)) := by
  -- a failing step leaves the temporary file to be taken away
  have hfail : ∀ {phase temp t}, phase.temp? = some (temp, done) → Reaches p base phase t →
      Reaches p base (.dropping temp done) t := fun htemp h => h.step (.abandon htemp)
  have hbody : ∀ temp, Tracks (Passes p base) (Reaches p base (.drafting temp done))
      (install outage p.path p.render temp)
      (Ends (fun _ => Reaches p base .finished) fun _ => Reaches p base (.dropping temp done)) := by
    intro temp
    unfold install
    refine Tracks.bind (Q := Ends (fun _ => Reaches p base (.drafted temp done))
        fun _ => Reaches p base (.dropping temp done))
      (tracks_step (fun t h => ⟨_, h⟩) (fun t _ t' h hrun => h.step (.fillTemp (unlessRefused_ok hrun)))
        fun t e h _ => hfail rfl h) (fun _ => ?_) fun _ _ h => h
    refine Tracks.bind (Q := Ends (fun _ => Reaches p base (.ready temp done))
        fun _ => Reaches p base (.dropping temp done))
      (tracks_step (fun t h => ⟨_, h⟩) (fun t _ t' h hrun => h.step (.copyMode (unlessRefused_ok hrun)))
        fun t e h _ => hfail rfl h) (fun _ => ?_) fun _ _ h => h
    exact tracks_step (fun t h => ⟨_, h⟩) (fun t _ t' h hrun => h.step (.move hrun))
      fun t e h _ => hfail rfl h
  unfold replaceSource
  refine Tracks.bind (Q := Ends (fun temp => Reaches p base (.drafting temp done))
      fun _ => Reaches p base (.undoing done.created))
    (tracks_step (fun t h => ⟨_, h⟩)
      (fun t temp t' h hrun => h.step (.createTemp hedits (unlessRefused_ok hrun)))
      fun t e h _ => h.step .refuse) (fun temp => ?_) fun _ _ h => h
  refine Tracks.catch (hbody temp) (fun _ _ h => h) fun e => ?_
  exact Tracks.bind (Q := fun _ t => Reaches p base (.undoing done.created) t)
    (tracks_step (fun t h => ⟨_, h⟩) (fun t _ t' h hrun => h.step (.drop hrun))
      fun t e h _ => h.step .leave) (fun _ => tracks_throw fun _ h => h) fun _ _ h => h

/-- A commit passes no other trees than those of its beginnings. -/
theorem tracks_commit (outage : Outage) :
    Tracks (Passes p base) (Reaches p base (.landing p.files {})) (p.commit outage)
      fun _ t => Passes p base t := by
  unfold Patch.commit
  refine (tracks_landFiles outage p.files {}).bind (fun r => ?_) fun _ _ h => h.elim
  obtain ⟨done, failed⟩ := r
  cases failed with
  | some e =>
    exact (tracks_removeAll done.created).bind (fun _ => tracks_throw fun _ h => h) fun _ _ h => h
  | none =>
    dsimp only
    cases hedits : p.staging.edits.isEmpty with
    | true => exact tracks_pure fun _ h => ⟨_, h⟩
    | false =>
      refine Tracks.bind (Q := fun _ t => Passes p base t) ?_ (fun _ => tracks_pure fun _ h => h)
        fun _ _ h => h
      refine (tracks_replaceSource outage hedits done).catch (fun _ _ h => ⟨_, h⟩) fun e => ?_
      exact (tracks_removeAll done.created).bind (fun _ => tracks_throw fun _ h => h) fun _ _ h => h

/-- **Every tree that a commit goes through is that of one of its beginnings.** -/
theorem commit_passes (outage : Outage) : ∀ t ∈ (p.commit outage).trees base, Passes p base t := by
  obtain ⟨hpast, hend⟩ := @tracks_commit p base outage ⟨base, []⟩ (by simp) .start
  exact List.forall_mem_cons.2 ⟨hend, hpast⟩

end

/-- **A commit that is cut off anywhere has not half-edited its source.** Let the source be a
regular file. After every beginning of the commit, with any of its steps failing and any bytes
written by a step that fails, the path of the source leads to the old source or to the new one, with the old
permission bits. If it leads to the new one, every planned file is there, and those that the commit
made are full. Every other path that led to something leads to it still. The trees that the commit
itself goes through are such, whatever the device does. -/
theorem commit_never_half_done {p : Patch} {base : FileTree} {loc : Location} {old : Bytes}
    {mode : Nat} (hsource : base.resolve false p.path = .ok (.present loc (.file old mode))) :
    (∀ phase t, Reaches p base phase t → Whole p base loc old mode t) ∧
    ∀ outage, ∀ t ∈ (p.commit outage).trees base,
      (∃ phase, Reaches p base phase t) ∧ Whole p base loc old mode t := by
  refine ⟨fun _ _ => reaches_whole hsource, fun outage t ht => ?_⟩
  obtain ⟨phase, h⟩ := commit_passes outage t ht
  exact ⟨⟨phase, h⟩, reaches_whole hsource h⟩

/-- Two targets, one of them behind a dangling link, and a device that refuses the last step. -/
theorem commit_never_half_done_two_targets :
    (∀ phase t, Reaches Sample.patch Sample.tree phase t →
      Whole Sample.patch Sample.tree ["a.ts"] (Bytes.ofString "ab") 0o600 t) ∧
    ∀ t ∈ (Sample.patch.commit { move := some "no space left" }).trees Sample.tree,
      (∃ phase, Reaches Sample.patch Sample.tree phase t) ∧
        Whole Sample.patch Sample.tree ["a.ts"] (Bytes.ofString "ab") 0o600 t := by
  have h := commit_never_half_done Sample.resolve_source
  exact ⟨h.1, h.2 { move := some "no space left" }⟩

end Commit

end AssetLift
