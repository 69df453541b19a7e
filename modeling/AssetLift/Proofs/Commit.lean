import AssetLift.Commit
import AssetLift.Proofs.Activity
import AssetLift.Proofs.FileTree

/-!
# What a commit does to a tree

A commit goes through trees of one frame: it makes files, a temporary one among them, and changes
one. So every path it uses leads to one location throughout, and taking away what it has made leaves
the very tree it was begun on.

* `Disk.Does`: how an activity on a tree ends, whatever journal was kept before it.
* `Commit.Wrote`, `Commit.Landed`: the ways of making one planned file, and all of them in turn.
* `Commit.removeAll_undoes`: the files made are taken away again.
* `Commit.refusal`, `Commit.does_replaceSource`: the source is replaced, or the very tree is left at
  whichever step the device refuses.
* `Commit.commit_all_or_nothing`: the whole.
-/

namespace AssetLift

/-! ## Activities on a tree -/

namespace Disk

/-- Begun on the tree `t`, the activity ends with `r` and leaves `t'`. -/
def Does (x : Disk α) (t : FileTree) (r : Except IoFault α) (t' : FileTree) : Prop :=
  ∀ past, ∃ past', runFrom x ⟨t, past⟩ = (r, ⟨t', past'⟩)

section
variable {α β : Type} {t t' t'' : FileTree}

theorem does_pure (a : α) : Does (pure a) t (.ok a) t := fun past => ⟨past, rfl⟩

theorem does_throw (e : IoFault) : Does (throw e : Disk α) t (.error e) t := fun past => ⟨past, rfl⟩

theorem Does.bind {x : Disk α} {f : α → Disk β} {a : α} {r : Except IoFault β}
    (hx : x.Does t (.ok a) t') (hf : (f a).Does t' r t'') : (x >>= f).Does t r t'' := by
  intro past
  obtain ⟨past₁, h₁⟩ := hx past
  obtain ⟨past₂, h₂⟩ := hf past₁
  exact ⟨past₂, by rw [run_bind, h₁]; exact h₂⟩

theorem Does.bind_error {x : Disk α} {f : α → Disk β} {e : IoFault}
    (hx : x.Does t (.error e) t') : (x >>= f).Does t (.error e) t' := by
  intro past
  obtain ⟨past₁, h₁⟩ := hx past
  exact ⟨past₁, by rw [run_bind, h₁]⟩

theorem Does.map {x : Disk α} {f : α → β} {a : α} (hx : x.Does t (.ok a) t') :
    (f <$> x).Does t (.ok (f a)) t' := by
  rw [map_eq_pure_bind]
  exact hx.bind (does_pure _)

theorem Does.map_error {x : Disk α} {f : α → β} {e : IoFault} (hx : x.Does t (.error e) t') :
    (f <$> x).Does t (.error e) t' := by
  rw [map_eq_pure_bind]
  exact hx.bind_error

theorem Does.try_ok {x : Disk α} {h : IoFault → Disk α} {a : α} (hx : x.Does t (.ok a) t') :
    (tryCatch x h).Does t (.ok a) t' := by
  intro past
  obtain ⟨past₁, h₁⟩ := hx past
  exact ⟨past₁, by rw [run_tryCatch, h₁]⟩

theorem Does.try_error {x : Disk α} {h : IoFault → Disk α} {e : IoFault}
    {r : Except IoFault α} (hx : x.Does t (.error e) t') (hh : (h e).Does t' r t'') :
    (tryCatch x h).Does t r t'' := by
  intro past
  obtain ⟨past₁, h₁⟩ := hx past
  obtain ⟨past₂, h₂⟩ := hh past₁
  exact ⟨past₂, by rw [run_tryCatch, h₁]; exact h₂⟩

/-- An activity whose fault is handed on as a value. -/
theorem Does.attempted {x : Disk α} {r : Except IoFault α} (hx : x.Does t r t') :
    (tryCatch (Except.ok <$> x) fun e => return .error e : Disk (Except IoFault α)).Does t (.ok r)
      t' := by
  cases r with
  | ok a => exact (hx.map (f := Except.ok)).try_ok
  | error e => exact (hx.map_error (f := Except.ok)).try_error (does_pure _)

theorem Does.runOn {x : Disk α} {r : Except IoFault α} (hx : x.Does t r t') :
    x.runOn t = (r, t') := by
  obtain ⟨past', h⟩ := hx []
  simp only [Disk.runOn]
  rw [show x.run ⟨t, []⟩ = (r, ⟨t', past'⟩) from h]

end

end Disk

namespace Commit

open Disk FileTree

section
variable {α : Type} {change : FileTree → Except IoFault (α × FileTree)} {t t' : FileTree}

theorem does_step {a : α} (h : change t = .ok (a, t')) : (step change).Does t (.ok a) t' := by
  intro past
  refine ⟨t :: past, ?_⟩
  rw [step, run_bind, run_get]
  simp only [h]
  rfl

theorem does_step_error {e : IoFault} (h : change t = .error e) :
    (step change).Does t (.error e) t := by
  intro past
  refine ⟨past, ?_⟩
  rw [step, run_bind, run_get]
  simp only [h]
  rfl

end

/-! ## Making planned files -/

/-- The ways of making one planned file. -/
inductive Wrote (outage : Outage) (f : PlannedFile) (t : FileTree) :
    Except IoFault Bool → FileTree → Prop
  | made {loc bytes} (hfree : t.resolve false f.path = .ok (.absent loc))
      (hbytes : Utf8.encode f.content = .ok bytes) :
      Wrote outage f t (.ok true) (t.insert loc (.file bytes defaultMode))
  | kept {loc n} (hthere : t.resolve false f.path = .ok (.present loc n)) :
      Wrote outage f t (.ok false) t
  /-- The file cannot be opened. -/
  | refused {e} (hopen : createNew f.path t = .error e) (hfree : isOccupied e = false) :
      Wrote outage f t (.error e) t
  /-- The file is opened, and its content cannot be written. -/
  | unfilled {loc e} (hfree : t.resolve false f.path = .ok (.absent loc))
      (hfill : fill outage f loc (t.insert loc (.file [] defaultMode)) = .error e) :
      Wrote outage f t (.error e) (t.insert loc (.file [] defaultMode))

theorem fill_ok {outage : Outage} {f : PlannedFile} {loc : Location} {t t' : FileTree}
    (h : fill outage f loc t = .ok ((), t')) :
    ∃ bytes, Utf8.encode f.content = .ok bytes ∧ t' = t.set loc (.file bytes defaultMode) := by
  have hwrite : fill.write f loc t = .ok ((), t') := by
    unfold fill at h
    split at h
    · split at h
      · cases h
      · exact h
    · exact h
  unfold fill.write at hwrite
  split at hwrite
  · rename_i bytes hb
    simp only [Except.ok.injEq, Prod.mk.injEq, true_and] at hwrite
    exact ⟨bytes, hb, hwrite.symm⟩
  · cases hwrite

section
variable {outage : Outage} {f : PlannedFile} {t t₁ t₂ : FileTree} {loc : Location} {e : IoFault}

theorem opens_ok (h : createNew f.path t = .ok (loc, t₁)) :
    (tryCatch (some <$> step (createNew f.path)) fun e =>
      if isOccupied e then pure none else throw e : Disk (Option Location)).Does t (.ok (some loc)) t₁ :=
  ((does_step h).map (f := some)).try_ok

theorem writeNew_made (h : createNew f.path t = .ok (loc, t₁))
    (hfill : fill outage f loc t₁ = .ok ((), t₂)) : (writeNew outage f).Does t (.ok true) t₂ :=
  (opens_ok h).bind ((does_step hfill).bind (does_pure true))

theorem writeNew_torn (h : createNew f.path t = .ok (loc, t₁))
    (hfill : fill outage f loc t₁ = .error e) : (writeNew outage f).Does t (.error e) t₁ :=
  (opens_ok h).bind (does_step_error hfill).bind_error

theorem writeNew_kept (h : createNew f.path t = .error e) (hocc : isOccupied e = true) :
    (writeNew outage f).Does t (.ok false) t := by
  have hnone : (if isOccupied e then pure none else throw e : Disk (Option Location)).Does t
      (.ok none) t := by
    simpa [hocc] using does_pure none
  have hcatch : (tryCatch (some <$> step (createNew f.path)) fun e =>
      if isOccupied e then pure none else throw e : Disk (Option Location)).Does t (.ok none) t :=
    ((does_step_error h).map_error (f := some)).try_error hnone
  exact hcatch.bind (does_pure false)

theorem writeNew_refused (h : createNew f.path t = .error e) (hocc : isOccupied e = false) :
    (writeNew outage f).Does t (.error e) t := by
  refine Does.bind_error (((does_step_error h).map_error (f := some)).try_error ?_)
  simpa [hocc] using does_throw e

end

theorem createNew_ok {q : Path} {t t' : FileTree} {loc : Location}
    (h : createNew q t = .ok (loc, t')) : t.resolve false q = .ok (.absent loc) ∧
      t' = t.insert loc (.file [] defaultMode) := by
  unfold createNew at h
  split at h
  · cases h
  · split at h
    · rename_i l hr
      cases h
      exact ⟨hr, rfl⟩
    · cases h
    · cases h

/-- What keeps a path from being looked up is nothing that stands there. -/
theorem isOccupied_fault? {q : Path} {e : IoFault} (h : q.fault? = some e) :
    isOccupied e = false := by
  unfold Path.fault? at h
  split at h
  · cases h; rfl
  · split at h
    · cases h; rfl
    · cases h

theorem createNew_occupied {q : Path} {t : FileTree} {e : IoFault} (h : createNew q t = .error e)
    (hocc : isOccupied e = true) : ∃ loc n, t.resolve false q = .ok (.present loc n) := by
  unfold createNew at h
  split at h
  · rename_i hfault
    cases h
    rw [isOccupied_fault? hfault] at hocc
    cases hocc
  · split at h
    · cases h
    · rename_i loc n hr
      exact ⟨loc, n, hr⟩
    · rename_i e' hr
      cases h
      have := resolve_ne_fileExists hr
      cases e' <;> simp_all [isOccupied]

theorem does_writeNew (outage : Outage) (f : PlannedFile) (t : FileTree) :
    ∃ r t', (writeNew outage f).Does t r t' ∧ Wrote outage f t r t' := by
  cases hopen : createNew f.path t with
  | error e =>
    cases hocc : isOccupied e with
    | false => exact ⟨.error e, t, writeNew_refused hopen hocc, .refused hopen hocc⟩
    | true =>
      obtain ⟨loc, n, hr⟩ := createNew_occupied hopen hocc
      exact ⟨.ok false, t, writeNew_kept hopen hocc, .kept hr⟩
  | ok made =>
    obtain ⟨loc, t₁⟩ := made
    obtain ⟨hr, rfl⟩ := createNew_ok hopen
    cases hfill : fill outage f loc (t.insert loc (.file [] defaultMode)) with
    | error e => exact ⟨.error e, _, writeNew_torn hopen hfill, .unfilled hr hfill⟩
    | ok filled =>
      obtain ⟨u, t₂⟩ := filled
      obtain ⟨bytes, hb, rfl⟩ := fill_ok hfill
      have hwrote : Wrote outage f t (.ok true) _ := .made hr hb
      rw [← set_insert (find?_of_absent hr) (.file [] defaultMode)] at hwrote
      exact ⟨.ok true, _, writeNew_made hopen hfill, hwrote⟩

/-- What is reported with one planned file more, that was made or found there. -/
def Result.note (done : Result) (p : Path) : Bool → Result
  | true => { done with created := done.created ++ [p] }
  | false => { done with existing := done.existing ++ [p] }

section
variable {outage : Outage} {f : PlannedFile} {files : List PlannedFile} {done : Result}
  {t t₁ t₂ : FileTree}

theorem landFiles_nil : (landFiles outage [] done).Does t (.ok (done, none)) t := does_pure _

theorem landFiles_cons {made : Bool} (h : (writeNew outage f).Does t (.ok made) t₁)
    {r : Except IoFault (Result × Option IoFault)}
    (hrest : (landFiles outage files (done.note f.path made)).Does t₁ r t₂) :
    (landFiles outage (f :: files) done).Does t r t₂ := by
  rw [landFiles]
  refine h.attempted.bind ?_
  cases made with
  | true => exact hrest
  | false => exact hrest

theorem landFiles_cons_error {e : IoFault} (h : (writeNew outage f).Does t (.error e) t₁) :
    (landFiles outage (f :: files) done).Does t (.ok (done, some e)) t₁ := by
  rw [landFiles]
  exact h.attempted.bind (does_pure _)

end

/-- How planned files have been made in turn, begun on the tree `base`: what is reported, and the
nodes more that the tree has. -/
inductive Landed (base : FileTree) :
    List PlannedFile → Result → List (Location × FileNode) → Prop
  | nil : Landed base [] {} []
  | made {seen done new f loc bytes} (h : Landed base seen done new)
      (hfree : (base.extend new).resolve false f.path = .ok (.absent loc))
      (hbytes : Utf8.encode f.content = .ok bytes) :
      Landed base (seen ++ [f]) { done with created := done.created ++ [f.path] }
        (new ++ [(loc, .file bytes defaultMode)])
  | kept {seen done new f loc n} (h : Landed base seen done new)
      (hthere : (base.extend new).resolve false f.path = .ok (.present loc n)) :
      Landed base (seen ++ [f]) { done with existing := done.existing ++ [f.path] } new

/-- The content of a planned file can be written: the device lets it, and it has bytes. -/
structure Writable (outage : Outage) (f : PlannedFile) : Prop where
  device : outage.fill = none
  bytes : ∃ bytes, Utf8.encode f.content = .ok bytes

theorem Writable.fill_ne_error {outage : Outage} {f : PlannedFile} (h : Writable outage f)
    {loc : Location} {t : FileTree} {e : IoFault} : fill outage f loc t ≠ .error e := by
  obtain ⟨bytes, hb⟩ := h.bytes
  rw [fill, h.device]
  simp [fill.write, hb]

/-- Why a commit fails before the source is replaced. -/
structure Unopened (base : FileTree) (files : List PlannedFile) (e : IoFault) : Prop where
  file : ∃ f ∈ files, ∃ new, base.Fresh new ∧ createNew f.path (base.extend new) = .error e
  free : isOccupied e = false

theorem Unopened.cons {base : FileTree} {files : List PlannedFile} {e : IoFault}
    (h : Unopened base files e) (f : PlannedFile) : Unopened base (f :: files) e := by
  obtain ⟨⟨g, hg, hopen⟩, hfree⟩ := h
  exact ⟨⟨g, List.mem_cons_of_mem _ hg, hopen⟩, hfree⟩

theorem Landed.fresh {base : FileTree} {seen : List PlannedFile} {done : Result}
    {new : List (Location × FileNode)} (h : Landed base seen done new) : base.Fresh new := by
  induction h with
  | nil => exact ⟨by simp, by simp, by simp⟩
  | made _ hfree _ ih => exact ih.snoc (find?_of_absent hfree) _ _
  | kept _ _ ih => exact ih

/-- **Planned files are made in turn**, up to the first one that cannot be opened. -/
theorem does_landFiles {outage : Outage} {base : FileTree} {files : List PlannedFile}
    (hw : ∀ f ∈ files, Writable outage f) {seen : List PlannedFile} {done : Result}
    {new : List (Location × FileNode)} (h : Landed base seen done new) :
    ∃ seen' done' new' failed,
      (landFiles outage files done).Does (base.extend new) (.ok (done', failed)) (base.extend new') ∧
      Landed base seen' done' new' ∧
      match failed with
      | none => seen' = seen ++ files
      | some e => Unopened base files e := by
  induction files generalizing seen done new with
  | nil =>
    exact ⟨seen, done, new, none, landFiles_nil, h, by simp⟩
  | cons f files ih =>
    have hwf := hw f List.mem_cons_self
    have hrest : ∀ g ∈ files, Writable outage g := fun g hg => hw g (List.mem_cons_of_mem _ hg)
    obtain ⟨r, t', hdoes, hwrote⟩ := does_writeNew outage f (base.extend new)
    cases hwrote with
    | @made loc bytes hfree hbytes =>
      rw [insert_extend] at hdoes
      obtain ⟨seen', done', new', failed, hgo, hland, hend⟩ := ih hrest (h.made hfree hbytes)
      refine ⟨seen', done', new', failed, landFiles_cons hdoes hgo, hland, ?_⟩
      cases failed with
      | none => simpa using hend
      | some e => exact hend.cons f
    | kept hthere =>
      obtain ⟨seen', done', new', failed, hgo, hland, hend⟩ := ih hrest (h.kept hthere)
      refine ⟨seen', done', new', failed, landFiles_cons hdoes hgo, hland, ?_⟩
      cases failed with
      | none => simpa using hend
      | some e => exact hend.cons f
    | @refused e hopen hfree =>
      exact ⟨seen, done, new, some e, landFiles_cons_error hdoes, h,
        ⟨f, List.mem_cons_self, new, h.fresh, hopen⟩, hfree⟩
    | unfilled _ hfill => exact absurd hfill hwf.fill_ne_error

/-- A path to a file that has been made led to its free place before. -/
structure Made (base : FileTree) (seen : List PlannedFile) (p : Path)
    (e : Location × FileNode) : Prop where
  free : base.resolve false p = .ok (.absent e.1)
  content : ∃ f ∈ seen, f.path = p ∧ ∃ bytes, Utf8.encode f.content = .ok bytes ∧
    e.2 = .file bytes defaultMode

theorem Made.mono {base : FileTree} {seen seen' : List PlannedFile} {p : Path}
    {e : Location × FileNode} (h : Made base seen p e) (hsub : ∀ f ∈ seen, f ∈ seen') :
    Made base seen' p e := by
  obtain ⟨hfree, f, hf, hrest⟩ := h
  exact ⟨hfree, f, hsub f hf, hrest⟩

/-- A place that is free once files have been made was free before. -/
theorem Landed.free {base : FileTree} {seen : List PlannedFile} {done : Result}
    {new : List (Location × FileNode)} (h : Landed base seen done new) {q : Path} {loc : Location}
    (hfree : (base.extend new).resolve false q = .ok (.absent loc)) :
    base.resolve false q = .ok (.absent loc) := by
  have hbase : base.find? loc = none := by
    have := find?_of_absent hfree
    rw [find?_extend h.fresh, Option.or_eq_none_iff] at this
    exact this.2
  rw [resolve_frame (sameFrame_extend h.fresh).symm hfree, Place.reseat, seat, hbase]

theorem Landed.created {base : FileTree} {seen : List PlannedFile} {done : Result}
    {new : List (Location × FileNode)} (h : Landed base seen done new) :
    List.Forall₂ (Made base seen) done.created new := by
  induction h with
  | nil => exact .nil
  | @made seen done new f loc bytes h hfree hbytes ih =>
    refine List.rel_append (ih.imp fun p e hm => hm.mono fun g hg => List.mem_append_left _ hg)
      (.cons ⟨h.free hfree, f, by simp, rfl, bytes, hbytes, rfl⟩ .nil)
  | kept _ _ ih => exact ih.imp fun p e hm => hm.mono fun g hg => List.mem_append_left _ hg

/-- What stands where nothing stood before was made for one of the planned files. -/
theorem Landed.maker {base : FileTree} {seen : List PlannedFile} {done : Result}
    {new : List (Location × FileNode)} (h : Landed base seen done new) {loc : Location}
    {n : FileNode} (hnone : base.find? loc = none) (hthere : (base.extend new).find? loc = some n) :
    ∃ g ∈ seen, base.resolve false g.path = .ok (.absent loc) := by
  rw [find?_extend h.fresh, hnone, Option.or_none] at hthere
  obtain ⟨p, -, hmade⟩ := exists_left_of_forall₂ h.created (mem_of_lookup hthere)
  obtain ⟨g, hg, rfl, -⟩ := hmade.content
  exact ⟨g, hg, hmade.free⟩

/-- **The files made are taken away again**, and nothing else is. -/
theorem removeAll_leaves {base : FileTree} {seen : List PlannedFile} {ps : List Path}
    {new more : List (Location × FileNode)} (hmade : List.Forall₂ (Made base seen) ps new)
    (hfresh : base.Fresh (new ++ more)) :
    (removeAll ps).Does (base.extend (new ++ more)) (.ok ()) (base.extend more) := by
  induction hmade with
  | nil => exact does_pure ()
  | @cons p e ps new hp _ ih =>
    rw [List.cons_append] at hfresh ⊢
    have hthere := resolve_made (sameFrame_extend hfresh) hp.free
      (hfresh.find?_new List.mem_cons_self)
    have hremove : remove p (base.extend (e :: (new ++ more)))
        = .ok ((), base.extend (new ++ more)) := by
      rw [remove, hthere, ← erase_extend hfresh]
    rw [removeAll]
    exact (does_step hremove).bind (ih hfresh.tail)

/-- **The very tree is left** when nothing else has been made. -/
theorem removeAll_undoes {base : FileTree} {seen : List PlannedFile} {ps : List Path}
    {new : List (Location × FileNode)} (hmade : List.Forall₂ (Made base seen) ps new)
    (hfresh : base.Fresh new) : (removeAll ps).Does (base.extend new) (.ok ()) base := by
  have h := @removeAll_leaves base seen ps new [] hmade (by rwa [List.append_nil])
  rwa [List.append_nil, extend_nil] at h

/-! ## Replacing the source -/

/-- What the device refuses first, once a temporary file is made. -/
def refusal (outage : Outage) : Option String := outage.draft <|> outage.mode <|> outage.move

theorem refusal_eq_none {outage : Outage} :
    refusal outage = none ↔ outage.draft = none ∧ outage.mode = none ∧ outage.move = none := by
  simp [refusal]

/-- Why a source that can be read is not replaced. -/
inductive Unreplaced (outage : Outage) (p : Path) (t : FileTree) : IoFault → Prop
  /-- The temporary file cannot be made. -/
  | temp {e} (h : unlessRefused outage.temp (createTemp p) t = .error e) : Unreplaced outage p t e
  /-- The temporary file cannot be written, be given permission bits or be moved. -/
  | refused {detail} (h : refusal outage = some detail) : Unreplaced outage p t (.device detail)

theorem unlessRefused_ok {α : Type} {refusal : Option String}
    {change : FileTree → Except IoFault (α × FileTree)} {t : FileTree} {r : α × FileTree}
    (h : unlessRefused refusal change t = .ok r) : change t = .ok r := by
  cases refusal with
  | some detail => cases h
  | none => exact h

theorem orElseUndo_ok {body undo : Disk Unit} {t t' : FileTree} (h : body.Does t (.ok ()) t') :
    (orElseUndo body undo).Does t (.ok ()) t' := h.try_ok

theorem orElseUndo_error {body undo : Disk Unit} {t t' t'' : FileTree} {e : IoFault}
    (h : body.Does t (.error e) t') (hundo : undo.Does t' (.ok ()) t'') :
    (orElseUndo body undo).Does t (.error e) t'' :=
  h.try_error (hundo.bind (does_throw e))

theorem createTemp_ok {p : Path} {t t' : FileTree} {temp : Temp}
    (h : createTemp p t = .ok (temp, t')) : t.resolve false temp.path = .ok (.absent temp.loc) ∧
      t' = t.insert temp.loc (.file [] privateMode) := by
  unfold createTemp at h
  split at h
  · cases h
  · dsimp only at h
    split at h
    · rename_i loc hr
      simp only [Except.ok.injEq, Prod.mk.injEq] at h
      obtain ⟨rfl, rfl⟩ := h
      exact ⟨hr, rfl⟩
    · cases h
    · cases h

theorem replaceSource_unopened {outage : Outage} {p : Path} {content : Bytes} {t : FileTree}
    {e : IoFault} (h : unlessRefused outage.temp (createTemp p) t = .error e) :
    (replaceSource outage p content).Does t (.error e) t := (does_step_error h).bind_error

section
variable {t : FileTree} {temp : Temp} (hfree : t.resolve false temp.path = .ok (.absent temp.loc))
include hfree

theorem fillTemp_insert (content : Bytes) (n : FileNode) :
    fillTemp temp content (t.insert temp.loc n)
      = .ok ((), t.insert temp.loc (.file content privateMode)) := by
  rw [fillTemp, set_insert (find?_of_absent hfree)]

theorem copyMode_insert {p : Path} {l : Location} {old : Bytes} {mode : Nat}
    (hread : t.resolve true p = .ok (.present l (.file old mode))) (c : Bytes) (m : Nat) :
    copyMode p temp (t.insert temp.loc (.file c m))
      = .ok ((), t.insert temp.loc (.file c mode)) := by
  have hnone := find?_of_absent hfree
  rw [copyMode, resolve_file (sameFrame_insert hnone _ _) hread
    (find?_insert_old hnone (find?_of_file hread).2)]
  simp only [find?_insert _ hnone, ↓reduceIte, set_insert hnone, FileNode.withMode, FileNode.mode]

/-- Taking a temporary file away leaves the tree it was made in. -/
theorem remove_insert (content : Bytes) (mode : Nat) :
    remove temp.path (t.insert temp.loc (.file content mode)) = .ok ((), t) := by
  have hnone := find?_of_absent hfree
  have hself : (t.insert temp.loc (.file content mode)).find? temp.loc
      = some (.file content mode) := by
    rw [find?_insert _ hnone, if_pos rfl]
  rw [remove, resolve_made (sameFrame_insert hnone _ _) hfree hself]
  simp only [erase_insert hnone]

end

section
variable {outage : Outage} {p : Path} {t : FileTree} {temp : Temp} {l : Location} {old : Bytes}
  {mode : Nat} (hread : t.resolve true p = .ok (.present l (.file old mode)))
  (hfree : t.resolve false temp.path = .ok (.absent temp.loc)) (content : Bytes)
include hread hfree

/-- A step that the device refuses leaves no trace but the temporary file. -/
theorem does_install_refused {detail : String} (hrefused : refusal outage = some detail) :
    ∃ c m, (install outage p content temp).Does (t.insert temp.loc (.file [] privateMode))
      (.error (.device detail)) (t.insert temp.loc (.file c m)) := by
  have hfill := fillTemp_insert hfree content (.file [] privateMode)
  have hcopy := copyMode_insert hfree hread content privateMode
  unfold refusal at hrefused
  unfold install
  cases hdraft : outage.draft with
  | some d =>
    obtain rfl : d = detail := by simpa [hdraft] using hrefused
    exact ⟨_, _, (does_step_error rfl).bind_error⟩
  | none =>
    cases hmode : outage.mode with
    | some d =>
      obtain rfl : d = detail := by simpa [hdraft, hmode] using hrefused
      exact ⟨_, _, (does_step hfill).bind (does_step_error rfl).bind_error⟩
    | none =>
      have hmove : outage.move = some detail := by simpa [hdraft, hmode] using hrefused
      refine ⟨_, _, (does_step hfill).bind ((does_step hcopy).bind (does_step_error ?_))⟩
      rw [moveOver, hmove]

/-- If nothing is refused, the source has its new content, and the temporary file is gone. -/
theorem does_install (hrefused : refusal outage = none) :
    ∃ loc n, t.resolve false p = .ok (.present loc n) ∧ n ≠ .directory ∧
      (install outage p content temp).Does (t.insert temp.loc (.file [] privateMode)) (.ok ())
        (t.set loc (.file content mode)) := by
  obtain ⟨hdraft, hmode, hmove⟩ := refusal_eq_none.1 hrefused
  have hfill := fillTemp_insert hfree content (.file [] privateMode)
  have hcopy := copyMode_insert hfree hread content privateMode
  have hnone := find?_of_absent hfree
  have hframe := sameFrame_insert hnone content mode
  have hplace : ∃ loc n, t.resolve false p = .ok (.present loc n) ∧ n ≠ .directory ∧
      (t.insert temp.loc (.file content mode)).resolve false p = .ok (.present loc n) := by
    rcases resolve_stay hread with hr | ⟨loc, target, hr⟩
    · exact ⟨l, _, hr, by simp, resolve_file hframe hr (find?_insert_old hnone (find?_of_file hr).2)⟩
    · exact ⟨loc, _, hr, by simp, resolve_frame hframe hr⟩
  obtain ⟨loc, n, hr, hn, hr'⟩ := hplace
  have hdone : moveOver outage p temp (t.insert temp.loc (.file content mode))
      = .ok ((), t.set loc (.file content mode)) := by
    rw [moveOver, hmove, find?_insert _ hnone, if_pos rfl, hr']
    cases n with
    | directory => exact absurd rfl hn
    | file c m => simp [erase_insert hnone]
    | link target => simp [erase_insert hnone]
  refine ⟨loc, n, hr, hn, ?_⟩
  rw [install, hdraft, hmode]
  exact (does_step hfill).bind ((does_step hcopy).bind (does_step hdone))

end

section
variable {outage : Outage} {p : Path} {t t₁ : FileTree} {temp : Temp} {l : Location} {old : Bytes}
  {mode : Nat} (hread : t.resolve true p = .ok (.present l (.file old mode)))
  (htemp : unlessRefused outage.temp (createTemp p) t = .ok (temp, t₁)) (content : Bytes)
include hread htemp

theorem replaceSource_refused {detail : String} (hrefused : refusal outage = some detail) :
    (replaceSource outage p content).Does t (.error (.device detail)) t := by
  obtain ⟨hfree, rfl⟩ := createTemp_ok (unlessRefused_ok htemp)
  obtain ⟨c, m, hbody⟩ := does_install_refused hread hfree content hrefused
  exact (does_step htemp).bind (orElseUndo_error hbody (does_step (remove_insert hfree c m)))

theorem replaceSource_moved (hrefused : refusal outage = none) :
    ∃ loc n, t.resolve false p = .ok (.present loc n) ∧ n ≠ .directory ∧
      (replaceSource outage p content).Does t (.ok ()) (t.set loc (.file content mode)) := by
  obtain ⟨hfree, rfl⟩ := createTemp_ok (unlessRefused_ok htemp)
  obtain ⟨loc, n, hr, hn, hbody⟩ := does_install hread hfree content hrefused
  exact ⟨loc, n, hr, hn, (does_step htemp).bind (orElseUndo_ok hbody)⟩

end

/-- **A source that can be read is replaced, or the very tree is left.** -/
theorem does_replaceSource (outage : Outage) {p : Path} {t : FileTree} {l : Location} {old : Bytes}
    {mode : Nat} (hread : t.resolve true p = .ok (.present l (.file old mode))) (content : Bytes) :
    (∃ loc n, t.resolve false p = .ok (.present loc n) ∧ n ≠ .directory ∧
      (replaceSource outage p content).Does t (.ok ()) (t.set loc (.file content mode))) ∨
    ∃ e, (replaceSource outage p content).Does t (.error e) t ∧ Unreplaced outage p t e := by
  cases htemp : unlessRefused outage.temp (createTemp p) t with
  | error e => exact .inr ⟨e, replaceSource_unopened htemp, .temp htemp⟩
  | ok made =>
    obtain ⟨temp, t₁⟩ := made
    cases hrefused : refusal outage with
    | some detail =>
      exact .inr ⟨_, replaceSource_refused hread htemp content hrefused, .refused hrefused⟩
    | none => exact .inl (replaceSource_moved hread htemp content hrefused)

/-! ## The whole commit -/

/-- The ways a commit ends whose source can be read and whose files can be written. -/
inductive Committed (outage : Outage) (p : Patch) (t : FileTree) :
    Except IoFault Result → FileTree → Prop
  | landed {done new} (hland : Landed t p.files done new) (hedits : p.staging.edits.isEmpty = true) :
      Committed outage p t (.ok done) (t.extend new)
  | replaced {done new loc n l old mode} (hland : Landed t p.files done new)
      (hedits : p.staging.edits.isEmpty = false)
      (hplace : t.resolve false p.path = .ok (.present loc n)) (hnode : t.find? loc = some n)
      (hfile : n ≠ .directory)
      (hread : t.resolve true p.path = .ok (.present l (.file old mode))) :
      Committed outage p t (.ok done) ((t.set loc (.file p.render mode)).extend new)
  | unopened {e} (h : Unopened t p.files e) : Committed outage p t (.error e) t
  | unreplaced {e done new} (hland : Landed t p.files done new)
      (hedits : p.staging.edits.isEmpty = false) (h : Unreplaced outage p.path (t.extend new) e) :
      Committed outage p t (.error e) t

/-- Where the source stands: at a file, or at a link to one. -/
theorem source_place {p : Path} {t : FileTree} {l : Location} {old : Bytes} {mode : Nat}
    (hread : t.resolve true p = .ok (.present l (.file old mode))) :
    ∃ loc n, t.resolve false p = .ok (.present loc n) ∧ t.find? loc = some n ∧ n ≠ .directory := by
  rcases resolve_stay hread with hr | ⟨loc, target, hr⟩
  · exact ⟨l, _, hr, (find?_of_file hr).2, by simp⟩
  · exact ⟨loc, _, hr, (found_of_resolve hr).2, by simp⟩

/-- Once the planned files have been made, the source is replaced or everything is taken back. -/
theorem does_commit_landed {outage : Outage} {p : Patch} {t : FileTree} {l : Location} {old : Bytes}
    {mode : Nat} (hread : t.resolve true p.path = .ok (.present l (.file old mode))) {done : Result}
    {new : List (Location × FileNode)} (hland : Landed t p.files done new)
    (hfiles : (landFiles outage p.files {}).Does t (.ok (done, none)) (t.extend new)) :
    ∃ r t', (p.commit outage).Does t r t' ∧ Committed outage p t r t' := by
  have hfresh := hland.fresh
  unfold Patch.commit
  cases hedits : p.staging.edits.isEmpty with
  | true =>
    refine ⟨.ok done, t.extend new, hfiles.bind ?_, .landed hland hedits⟩
    simp only [↓reduceIte]
    exact does_pure done
  | false =>
    obtain ⟨loc, n, hplace, hnode, hfile⟩ := source_place hread
    rcases does_replaceSource outage (hfresh.resolve_old hread) p.render with
      ⟨loc', n', hr, -, hdoes⟩ | ⟨e, hdoes, hwhy⟩
    · rw [hfresh.resolve_old hplace] at hr
      obtain ⟨rfl, rfl⟩ : loc = loc' ∧ n = n' := by simpa using hr
      rw [set_extend hfresh (by rw [hnode]; simp)] at hdoes
      refine ⟨.ok done, _, hfiles.bind ?_, .replaced hland hedits hplace hnode hfile hread⟩
      simp only [Bool.false_eq_true, ↓reduceIte]
      exact (orElseUndo_ok hdoes).bind (does_pure done)
    · refine ⟨.error e, t, hfiles.bind ?_, .unreplaced hland hedits hwhy⟩
      simp only [Bool.false_eq_true, ↓reduceIte]
      exact (orElseUndo_error hdoes (removeAll_undoes hland.created hfresh)).bind_error

/-- **Every commit ends in one of these ways.** -/
theorem does_commit (outage : Outage) {p : Patch} {t : FileTree} {l : Location} {old : Bytes}
    {mode : Nat} (hread : t.resolve true p.path = .ok (.present l (.file old mode)))
    (hw : ∀ f ∈ p.files, Writable outage f) :
    ∃ r t', (p.commit outage).Does t r t' ∧ Committed outage p t r t' := by
  obtain ⟨seen, done, new, failed, hfiles, hland, hend⟩ := does_landFiles hw (@Landed.nil t)
  rw [extend_nil] at hfiles
  cases failed with
  | some e =>
    have hundo := removeAll_undoes hland.created hland.fresh
    exact ⟨.error e, t, hfiles.bind (hundo.bind (does_throw e)), .unopened hend⟩
  | none =>
    obtain rfl : seen = p.files := by simpa using hend
    exact does_commit_landed hread hland hfiles

/-! ## All or nothing -/

/-- No two of the planned files have one place. -/
def Distinct (t : FileTree) (files : List PlannedFile) : Prop :=
  files.Pairwise fun f g => ∀ a b, t.resolve false f.path = .ok a → t.resolve false g.path = .ok b →
    a.loc ≠ b.loc

/-- What was found in the way stood there before the commit, not made by it. -/
theorem Landed.existing {base : FileTree} {seen : List PlannedFile} {done : Result}
    {new : List (Location × FileNode)} (h : Landed base seen done new)
    (hd : Distinct base seen) :
    ∀ q ∈ done.existing, ∃ loc n, base.resolve false q = .ok (.present loc n) := by
  induction h with
  | nil => simp
  | made _ _ _ ih => exact ih (List.pairwise_append.1 hd).1
  | @kept seen done new f loc n h hthere ih =>
    intro q hq
    rcases List.mem_append.1 hq with hq | hq
    · exact ih (List.pairwise_append.1 hd).1 q hq
    rw [List.mem_singleton.1 hq]
    have hback := resolve_frame (sameFrame_extend h.fresh).symm hthere
    cases n with
    | directory => exact ⟨loc, _, hback⟩
    | link target => exact ⟨loc, _, hback⟩
    | file c m =>
      rw [Place.reseat, seat] at hback
      cases hf : base.find? loc with
      | some n => rw [hf] at hback; exact ⟨loc, n, hback⟩
      | none =>
        -- then another planned file was made there
        rw [hf] at hback
        obtain ⟨g, hg, hfree⟩ := h.maker hf (find?_of_file hthere).2
        exact absurd rfl ((List.pairwise_append.1 hd).2.2 g hg f (by simp) _ _ hfree hback)

/-- Every planned file is reported once. -/
theorem Landed.reported {base : FileTree} {seen : List PlannedFile} {done : Result}
    {new : List (Location × FileNode)} (h : Landed base seen done new) :
    (done.created ++ done.existing).Perm (seen.map (·.path)) := by
  induction h with
  | nil => exact .nil
  | made _ _ _ ih =>
    rw [List.map_append, List.append_assoc]
    exact (List.perm_append_comm.append_left _).trans (by simpa using ih.append_right _)
  | kept _ _ ih =>
    rw [List.map_append, ← List.append_assoc]
    exact ih.append_right _

/-- What a commit that succeeds makes of a tree, where the source is the file at `loc`. -/
structure Lands (p : Patch) (t : FileTree) (loc : Location) (old : Bytes) (mode : Nat) (r : Result)
    (t' : FileTree) : Prop where
  /-- The source has its new bytes and its old permission bits. -/
  source : t'.resolve false p.path
    = .ok (.present loc (.file (if p.staging.edits.isEmpty then old else p.render) mode))
  /-- What was made was not there, and holds what was planned. -/
  created : ∀ q ∈ r.created, ∃ l, t.resolve false q = .ok (.absent l) ∧
    ∃ f ∈ p.files, f.path = q ∧ ∃ bytes, Utf8.encode f.content = .ok bytes ∧
      t'.resolve false q = .ok (.present l (.file bytes defaultMode))
  /-- What stood in the way still stands there, unless it is the source. -/
  existing : ∀ q ∈ r.existing, ∃ l n, t.resolve false q = .ok (.present l n) ∧
    (l ≠ loc → t'.resolve false q = .ok (.present l n))
  reported : (r.created ++ r.existing).Perm (p.files.map (·.path))
  /-- Nothing else has changed. -/
  rest : ∀ l, l ≠ loc → (∀ q ∈ r.created, t.resolve false q ≠ .ok (.absent l)) →
    t'.find? l = t.find? l
  workDir : t'.workDir = t.workDir

section
variable {p : Patch} {t : FileTree} {loc : Location} {old : Bytes} {mode : Nat}
  (hsource : t.resolve false p.path = .ok (.present loc (.file old mode)))
  (hdistinct : Distinct t p.files)
include hsource hdistinct

/-- The tree `base` has the files of `t`, the one at `loc` with new content. -/
theorem lands_of_landed {base : FileTree} (hframe : SameFrame t base)
    (hfile : base.find? loc
      = some (.file (if p.staging.edits.isEmpty then old else p.render) mode))
    (hbase : ∀ l, l ≠ loc → base.find? l = t.find? l) {done : Result}
    {new : List (Location × FileNode)} (hland : Landed t p.files done new) :
    Lands p t loc old mode done (base.extend new) := by
  have hne : ∀ e ∈ new, e.1 ≠ loc := by
    rintro e he rfl
    have := (find?_of_file hsource).2
    rw [hland.fresh.absent e he] at this
    cases this
  have hfresh : base.Fresh new := by
    refine ⟨fun e he => ?_, hland.fresh.files, hland.fresh.nodup⟩
    rw [hbase _ (hne e he)]
    exact hland.fresh.absent e he
  have hall : SameFrame t (base.extend new) := hframe.trans (sameFrame_extend hfresh)
  constructor
  · exact resolve_file hall hsource (hfresh.find?_old hfile)
  · intro q hq
    obtain ⟨e, he, hfree, f, hf, hpath, bytes, hbytes, hnode⟩ :=
      exists_right_of_forall₂ hland.created hq
    exact ⟨e.1, hfree, f, hf, hpath, bytes, hbytes,
      resolve_made hall hfree (by rw [hfresh.find?_new he, hnode])⟩
  · intro q hq
    obtain ⟨l, n, hr⟩ := hland.existing hdistinct q hq
    refine ⟨l, n, hr, fun hl => ?_⟩
    cases n with
    | directory => exact resolve_frame hall hr
    | link target => exact resolve_frame hall hr
    | file c m =>
      exact resolve_file hall hr (hfresh.find?_old (by rw [hbase l hl]; exact (find?_of_file hr).2))
  · exact hland.reported
  · intro l hl hcreated
    have : new.lookup l = none := lookup_eq_none.2 fun e he heq => by
      obtain ⟨q, hq, hmade⟩ := exists_left_of_forall₂ hland.created he
      exact hcreated q hq (heq ▸ hmade.free)
    rw [find?_extend hfresh, this, Option.none_or, hbase l hl]
  · exact hall.workDir

/-- **A commit does all or nothing.** The source being a file, the planned files having places of
their own and contents that can be written, either the commit succeeds and the tree is as planned,
or some planned file cannot be opened or the source cannot be replaced, and the tree is the one from
before. -/
theorem commit_all_or_nothing {outage : Outage} (hwrite : ∀ f ∈ p.files, Writable outage f) :
    (∃ r t', (p.commit outage).runOn t = (.ok r, t') ∧ Lands p t loc old mode r t') ∨
    ∃ e, (p.commit outage).runOn t = (.error e, t) ∧
      (Unopened t p.files e ∨
        p.staging.edits.isEmpty = false ∧ ∃ new, t.Fresh new ∧
          Unreplaced outage p.path (t.extend new) e) := by
  have hread : t.resolve true p.path = .ok (.present loc (.file old mode)) :=
    resolve_follow hsource (by simp)
  obtain ⟨hne, hthere⟩ := find?_of_file hsource
  obtain ⟨r, t', hdoes, hend⟩ := does_commit outage hread hwrite
  have hrun := hdoes.runOn
  cases hend with
  | @landed done new hland hedits =>
    refine .inl ⟨done, _, hrun, ?_⟩
    exact lands_of_landed hsource hdistinct (.refl t) (by simpa [hedits] using hthere)
      (fun _ _ => rfl) hland
  | @replaced done new loc' n l old' mode' hland hedits hplace hnode hfile hread' =>
    refine .inl ⟨done, _, hrun, ?_⟩
    rw [hsource] at hplace
    rw [hread] at hread'
    cases hplace
    cases hread'
    refine lands_of_landed hsource hdistinct (sameFrame_set hne hthere) ?_ (fun l hl => ?_) hland
    · rw [find?_set _ hne hthere, if_pos rfl, hedits]
      rfl
    · rw [find?_set _ hne hthere, if_neg hl]
  | unopened h => exact .inr ⟨_, hrun, .inl h⟩
  | unreplaced hland hedits h => exact .inr ⟨_, hrun, .inr ⟨hedits, _, hland.fresh, h⟩⟩

end

/-! ### A source with one target free and one in the way -/

namespace Sample

def tree : FileTree where
  workDir := []
  nodes := [(["a.ts"], .file (Bytes.ofString "ab") 0o600), (["a.css"], .link "nowhere")]

def patch : Patch where
  path := ⟨.workDir, ["a.ts"]⟩
  staging :=
    { source := Bytes.ofString "ab"
      edits := [⟨⟨0, 1, Int.zero_le_ofNat 1⟩, 0, Bytes.ofString "xyz", Int.le_refl 0, Int.zero_le_ofNat 1⟩] }
  files :=
    [⟨⟨.workDir, ["a.html"]⟩, CodePoint.ofString "t"⟩, ⟨⟨.workDir, ["a.css"]⟩, CodePoint.ofString "s"⟩]

theorem resolve_source : tree.resolve false patch.path
    = .ok (.present ["a.ts"] (.file (Bytes.ofString "ab") 0o600)) := by
  rw [resolve, if_neg (by decide)]
  exact (@Leads.ending tree false maxLinks [] "a.ts" (by decide) (by decide) (by decide)).eq

theorem resolve_html : tree.resolve false ⟨.workDir, ["a.html"]⟩ = .ok (.absent ["a.html"]) := by
  rw [resolve, if_neg (by decide)]
  exact (@Leads.ending tree false maxLinks [] "a.html" (by decide) (by decide) (by decide)).eq

theorem resolve_css : tree.resolve false ⟨.workDir, ["a.css"]⟩
    = .ok (.present ["a.css"] (.link "nowhere")) := by
  rw [resolve, if_neg (by decide)]
  exact (@Leads.link tree false maxLinks [] "a.css" "nowhere" (by decide) (by decide) (by decide)
    rfl).eq

theorem distinct : Distinct tree patch.files := by
  refine List.pairwise_pair.2 fun a b ha hb => ?_
  obtain rfl := Except.ok.inj (ha.symm.trans resolve_html)
  obtain rfl := Except.ok.inj (hb.symm.trans resolve_css)
  decide

theorem writable : ∀ f ∈ patch.files, Writable { move := some "no space left" } f := by
  intro f hf
  refine ⟨rfl, ?_⟩
  rcases List.mem_pair.1 hf with rfl | rfl
  · exact ⟨Bytes.ofString "t", by decide⟩
  · exact ⟨Bytes.ofString "s", by decide⟩

end Sample

/-- With a device that refuses the last step, and a dangling link where the second file is to be. -/
theorem commit_all_or_nothing_two_targets :
    (∃ r t', (Sample.patch.commit { move := some "no space left" }).runOn Sample.tree = (.ok r, t') ∧
      Lands Sample.patch Sample.tree ["a.ts"] (Bytes.ofString "ab") 0o600 r t') ∨
    ∃ e, (Sample.patch.commit { move := some "no space left" }).runOn Sample.tree
        = (.error e, Sample.tree) ∧
      (Unopened Sample.tree Sample.patch.files e ∨
        Sample.patch.staging.edits.isEmpty = false ∧ ∃ new, Sample.tree.Fresh new ∧
          Unreplaced { move := some "no space left" } Sample.patch.path (Sample.tree.extend new) e) :=
  commit_all_or_nothing Sample.resolve_source Sample.distinct Sample.writable

end Commit

end AssetLift
