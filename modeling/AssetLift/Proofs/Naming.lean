import AssetLift.Commit
import AssetLift.Proofs.FileName
import Mathlib.Data.List.Basic

/-!
# The names of the files around a component

The names of a component's targets end in an extension that tells the place of the literal they hold
(`Target.Slot`). With the default settings a component's name ends in `.component.ts`, and nothing
that a number could be taken for stands before the extension of an unnumbered target. So a target's
name tells the component and the slot.

* `Target.Slot.path_inj`: two targets with one path are one target of one component.
* `Target.Slot.path_ne`: no target is a component.
* `Commit.tempName_inj`, `Commit.tempName_eq`: temporary files are told apart by their numbers, and
  their names end otherwise.

With other extensions this fails: if both extensions are `.html`, one path is that of two targets.
-/

namespace AssetLift

/-! ## Numbers in names -/

theorem ofDigitChars_toString (n : Nat) : Nat.ofDigitChars 10 (toString n).toList 0 = n := by
  rw [Nat.toString_eq_repr, Nat.toList_repr]
  exact Nat.ofDigitChars_toDigits (by decide) (by decide)

theorem toString_inj {n m : Nat} (h : toString n = toString m) : n = m := by
  rw [← ofDigitChars_toString n, h, ofDigitChars_toString]

theorem ofDigitChars_padded (width n : Nat) : Nat.ofDigitChars 10 (padded width n).toList 0 = n := by
  rw [padded, String.toList_append, String.toList_ofList, Nat.ofDigitChars_append,
    Nat.ofDigitChars_replicate_zero, Nat.mul_zero, ofDigitChars_toString]

theorem padded_inj {width n m : Nat} (h : padded width n = padded width m) : n = m := by
  rw [← ofDigitChars_padded width n, h, ofDigitChars_padded]

theorem isDigit_of_mem_toString {n : Nat} {c : Char} (h : c ∈ (toString n).toList) :
    c.isDigit = true := by
  rw [Nat.toString_eq_repr, Nat.toList_repr] at h
  exact Nat.isDigit_of_mem_toDigits (by decide) (by decide) h

/-- Two texts are one after their first separators if they are one before them. -/
theorem append_separator_inj {α : Type} {separator : α} {us vs xs ys : List α}
    (hu : separator ∉ us) (hv : separator ∉ vs)
    (h : us ++ separator :: xs = vs ++ separator :: ys) : us = vs ∧ xs = ys := by
  induction us generalizing vs with
  | nil =>
    cases vs with
    | nil => exact ⟨rfl, (List.cons.inj h).2⟩
    | cons v vs => exact absurd (List.cons.inj h).1 (List.ne_of_not_mem_cons hv)
  | cons u us ih =>
    cases vs with
    | nil => exact absurd (List.cons.inj h).1.symm (List.ne_of_not_mem_cons hu)
    | cons v vs =>
      obtain ⟨rfl, h'⟩ := List.cons.inj h
      obtain ⟨rfl, hrest⟩ := ih (List.not_mem_of_not_mem_cons hu) (List.not_mem_of_not_mem_cons hv) h'
      exact ⟨rfl, hrest⟩

/-- So they are after their last separators. -/
theorem separator_append_inj {α : Type} {separator : α} {us vs xs ys : List α}
    (hu : separator ∉ us) (hv : separator ∉ vs)
    (h : xs ++ separator :: us = ys ++ separator :: vs) : xs = ys ∧ us = vs := by
  have hback : us.reverse ++ separator :: xs.reverse = vs.reverse ++ separator :: ys.reverse := by
    simpa using congrArg List.reverse h
  obtain ⟨husvs, hxsys⟩ := append_separator_inj (mt List.mem_reverse.1 hu) (mt List.mem_reverse.1 hv)
    hback
  exact ⟨List.reverse_inj.1 hxsys, List.reverse_inj.1 husvs⟩

namespace Target

/-! ## Slots -/

/-- What a component can have a file for. -/
inductive Slot where
  | template
  | style (index : Nat)

namespace Slot

/-- The path of the file for a slot. -/
def path (s : Settings) (component : Path) : Slot → Path
  | template => beside component (baseName s component ++ s.templateExtension)
  | style index => beside component (styleName s component index)

theorem template_path (s : Settings) (component : Path) (content : List CodePoint) :
    (Target.template s component content).path = template.path s component := by
  rw [path, Target.template]

theorem styles_paths (s : Settings) (component : Path) (contents : List (List CodePoint)) :
    (Target.styles s component contents).map (·.path)
      = (List.range contents.length).map fun i => (style i).path s component := by
  rw [Target.styles, List.map_map, List.range_eq_range', ← List.zipIdx_map_snd 0 contents,
    List.map_map]
  rfl

/-- A file planned for a style has the path of its slot. -/
theorem style_of_mem {s : Settings} {component : Path} {contents : List (List CodePoint)}
    {f : PlannedFile} (h : f ∈ Target.styles s component contents) :
    ∃ i, f.path = (style i).path s component := by
  have hpath := List.mem_map_of_mem (f := (·.path)) h
  rw [styles_paths] at hpath
  obtain ⟨i, -, hi⟩ := List.mem_map.1 hpath
  exact ⟨i, hi.symm⟩

/-- The number of a slot, with a dash in front; the first slots have none. -/
def number : Slot → String
  | template => ""
  | style index => if index = 0 then "" else "-" ++ toString (index + 1)

/-- The default extension of the files for a slot. -/
def extension : Slot → String
  | template => ".html"
  | style _ => ".scss"

/-- The extension that the settings give to the files for a slot. -/
def extensionIn (s : Settings) : Slot → String
  | template => s.templateExtension
  | style _ => s.styleExtension

/-- The name of the file for a slot. -/
def nameIn (s : Settings) (component : Path) (slot : Slot) : Text :=
  Target.baseName s component ++ slot.number ++ slot.extensionIn s

theorem extensionIn_eq {s : Settings} (htemplate : s.templateExtension = ".html")
    (hstyle : s.styleExtension = ".scss") (slot : Slot) :
    slot.extensionIn s = slot.extension := by
  cases slot with
  | template => exact htemplate
  | style => exact hstyle

theorem path_eq_beside (s : Settings) (component : Path) (slot : Slot) :
    slot.path s component = beside component (slot.nameIn s component) := by
  cases slot with
  | template => simp [path, nameIn, number, extensionIn]
  | style index =>
    by_cases hindex : index = 0
    · simp [path, nameIn, number, extensionIn, styleName, hindex]
    · simp [path, nameIn, number, extensionIn, styleName, hindex]

/-- What follows the stem of a component in the name for a slot, with the default settings. -/
def ending (slot : Slot) : String := ".component" ++ slot.number ++ slot.extension

end Slot

/-! ## Components -/

/-- A path whose name is a stem with the default suffix of candidates. -/
structure Component (p : Path) (dir : List Text) (stem : Text) : Prop where
  parts : p.parts = dir ++ [stem ++ ".component.ts"]
  /-- The name is one name. -/
  plain : Path.slash ∉ stem

theorem splitChars_of_notMem {α : Type} [DecidableEq α] {separator : α} {cs : List α}
    (h : separator ∉ cs) : Blank.splitChars separator cs = [cs] := by
  induction cs with
  | nil => rfl
  | cons c cs ih =>
    obtain ⟨hc, hcs⟩ := List.ne_and_not_mem_of_not_mem_cons h
    rw [Blank.splitChars, if_neg (Ne.symm hc), ih hcs]

/-- A name without a slash is next to a path under that name. -/
theorem beside_eq (component : Path) {name : Text} (hslash : Path.slash ∉ name)
    (hempty : name ≠ []) (hdot : name ≠ [Path.dot]) :
    beside component name = ⟨component.anchor, component.parts.dropLast ++ [name]⟩ := by
  have hnames : Path.names name = [name] := by
    rw [Path.names, splitChars_of_notMem hslash]
    simp [hempty, hdot]
  have hanchor : Path.Anchor.ofText name = .workDir := by
    cases name with
    | nil => exact absurd rfl hempty
    | cons c cs =>
      have hc : c ≠ Path.slash := fun h => hslash (by simp [h])
      simp [Path.Anchor.ofText, hc]
  rw [beside, Path.join, Path.ofText, hanchor, hnames]
  rfl

/-- What is left of a name without the source suffix. -/
theorem baseName_of_suffix {s : Settings} {component : Path} {stem : Text}
    (hname : component.name = stem ++ s.sourceSuffix) (hstem : stem ≠ [])
    (hsuffix : s.sourceSuffix ≠ "") : baseName s component = stem := by
  have hpos := List.length_pos_iff.2 hstem
  have hne : CodePoint.ofString s.sourceSuffix ≠ [] := fun h =>
    hsuffix (CodePoint.ofString_injective h)
  have hends : (CodePoint.ofString s.sourceSuffix).isSuffixOf (stem ++ s.sourceSuffix) = true :=
    List.isSuffixOf_iff_suffix.2 ⟨stem, rfl⟩
  rw [baseName, hname, if_pos ⟨hne, hends, by rw [List.length_append]; omega⟩, List.length_append,
    Nat.add_sub_cancel, List.take_left]

namespace Component

variable {p : Path} {dir : List Text} {stem : Text} (h : Component p dir stem)
include h

theorem name : p.name = stem ++ ".component.ts" := by
  rw [Path.name, h.parts]
  simp

theorem baseName : baseName {} p = stem ++ ".component" := by
  have hname : p.name = (stem ++ ".component") ++ ({} : Settings).sourceSuffix := by
    rw [h.name, List.append_assoc, ← CodePoint.ofString_append]
    rfl
  exact baseName_of_suffix hname (by simp [CodePoint.ofString]) (by simp)

end Component

namespace Slot

theorem notMem_number {c : Char} (hdash : c ≠ '-') (hdigit : c.isDigit = false) (slot : Slot) :
    c ∉ slot.number.toList := by
  cases slot with
  | template => simp [number]
  | style index =>
    rw [number]
    split
    · simp
    · rw [String.toList_append, List.mem_append]
      rintro (h | h)
      · exact hdash (by simpa using h)
      · rw [isDigit_of_mem_toString h] at hdigit
        cases hdigit

theorem slash_notMem_ending (slot : Slot) : Path.slash ∉ CodePoint.ofString slot.ending := by
  have hextension : '/' ∉ slot.extension.toList := by cases slot <;> simp [extension]
  rw [Path.slash, CodePoint.ofChar_mem_ofString]
  simp [ending, notMem_number (c := '/') (by decide) (by decide) slot, hextension]

/-- **The path for a slot.** -/
theorem path_eq {p : Path} {dir : List Text} {stem : Text} (h : Component p dir stem)
    (slot : Slot) : slot.path {} p = ⟨p.anchor, dir ++ [stem ++ slot.ending]⟩ := by
  have hname : slot.nameIn {} p = stem ++ slot.ending := by
    rw [nameIn, h.baseName, extensionIn_eq rfl rfl]
    simp [ending]
  have hlong : 1 < (stem ++ CodePoint.ofString slot.ending).length := by
    simp [ending, CodePoint.ofString]
    omega
  rw [path_eq_beside, hname, beside_eq, h.parts, List.dropLast_concat]
  · exact List.not_mem_append h.plain (slash_notMem_ending slot)
  · intro hnil
    simp [hnil] at hlong
  · intro hdot
    simp [hdot] at hlong

theorem number_style {index : Nat} (h : index ≠ 0) : ∃ ds d,
    CodePoint.ofString (style index).number
      = .ofChar '-' :: (ds ++ [d]).map .ofChar ∧
    '-' ∉ ds ++ [d] ∧ d.isDigit = true ∧ ds ++ [d] = (toString (index + 1)).toList := by
  have hne : (toString (index + 1)).toList ≠ [] := by
    intro hnil
    have hvalue := ofDigitChars_toString (index + 1)
    rw [hnil] at hvalue
    simp at hvalue
  have hsplit := List.dropLast_append_getLast hne
  refine ⟨_, _, ?_, ?_, isDigit_of_mem_toString (List.getLast_mem hne), hsplit⟩
  · rw [hsplit, number, if_neg h, CodePoint.ofString_append]
    rfl
  · rw [hsplit]
    intro hdash
    exact absurd (isDigit_of_mem_toString hdash) (by decide)

theorem number_first : CodePoint.ofString (style 0).number = [] := rfl

/-- The text before a number does not end in a digit, so the number is told. -/
theorem number_inj {as bs : Text} {a : Char} (ha : a.isDigit = false) {i j : Nat}
    (h : as ++ [.ofChar a] ++ CodePoint.ofString (style i).number
      = bs ++ [.ofChar a] ++ CodePoint.ofString (style j).number) : as = bs ∧ i = j := by
  by_cases hi : i = 0
  · by_cases hj : j = 0
    · subst hi hj
      exact ⟨by simpa [number_first] using h, rfl⟩
    · -- the digit at the end of the one number would be the last character of the other text
      obtain ⟨ds, d, hnumber, -, hd, -⟩ := number_style hj
      rw [hnumber, hi, number_first, List.append_nil, List.map_append, List.map_singleton,
        ← List.cons_append, ← List.append_assoc] at h
      rw [CodePoint.ofChar_injective (List.append_singleton_inj.1 h).2, hd] at ha
      cases ha
  · obtain ⟨ds, d, hnumber, hdash, hd, hds⟩ := number_style hi
    by_cases hj : j = 0
    · rw [hnumber, hj, number_first, List.append_nil, List.map_append, List.map_singleton,
        ← List.cons_append, ← List.append_assoc] at h
      rw [← CodePoint.ofChar_injective (List.append_singleton_inj.1 h).2, hd] at ha
      cases ha
    · obtain ⟨es, e, hnumber', hdash', -, hes⟩ := number_style hj
      have hpoint : ∀ {xs : List Char}, '-' ∉ xs → CodePoint.ofChar '-' ∉ xs.map .ofChar :=
        fun h => mt (List.mem_map_of_injective CodePoint.ofChar_injective).1 h
      rw [hnumber, hnumber'] at h
      obtain ⟨hstem, hdigits⟩ := separator_append_inj (hpoint hdash) (hpoint hdash') h
      rw [hds, hes] at hdigits
      have hnumbers := toString_inj (CodePoint.ofString_injective hdigits)
      exact ⟨List.append_cancel_right hstem, by simpa using hnumbers⟩

/-- **What follows a stem tells the stem and the slot.** -/
theorem ending_inj {stem stem' : Text} {slot slot' : Slot}
    (h : stem ++ CodePoint.ofString slot.ending = stem' ++ CodePoint.ofString slot'.ending) :
    stem = stem' ∧ slot = slot' := by
  simp only [ending, CodePoint.ofString_append, ← List.append_assoc] at h
  have hlength : (CodePoint.ofString slot.extension).length
      = (CodePoint.ofString slot'.extension).length := by
    cases slot <;> cases slot' <;> simp [extension, CodePoint.ofString]
  obtain ⟨hfront, hextension⟩ := List.append_inj' h hlength
  have hcut : CodePoint.ofString ".component"
      = CodePoint.ofString ".componen" ++ [.ofChar 't'] := rfl
  rw [hcut, ← List.append_assoc, ← List.append_assoc] at hfront
  cases slot with
  | template =>
    cases slot' with
    | template =>
      have hstem := List.append_cancel_right (List.append_cancel_right hfront)
      exact ⟨List.append_cancel_right hstem, rfl⟩
    | style j => exact absurd (CodePoint.ofString_injective hextension) (by simp [extension])
  | style i =>
    cases slot' with
    | template => exact absurd (CodePoint.ofString_injective hextension) (by simp [extension])
    | style j =>
      obtain ⟨hstem, rfl⟩ := number_inj (by decide) hfront
      exact ⟨List.append_cancel_right hstem, rfl⟩

/-- **Two targets with one path are one target of one component.** -/
theorem path_inj {p q : Path} {dir dir' : List Text} {stem stem' : Text}
    (hp : Component p dir stem) (hq : Component q dir' stem') {slot slot' : Slot}
    (h : slot.path {} p = slot'.path {} q) : p = q ∧ slot = slot' := by
  rw [path_eq hp, path_eq hq, Path.mk.injEq] at h
  obtain ⟨hanchor, hparts⟩ := h
  obtain ⟨hdir, hname⟩ := List.append_singleton_inj.1 hparts
  obtain ⟨rfl, rfl⟩ := ending_inj hname
  have hpq : p.parts = q.parts := by rw [hp.parts, hq.parts, hdir]
  obtain ⟨anchor, parts⟩ := p
  obtain ⟨anchor', parts'⟩ := q
  exact ⟨by rw [show anchor = anchor' from hanchor, show parts = parts' from hpq], rfl⟩

/-- The name of a target ends otherwise than that of a component or of a temporary file. -/
theorem fileName_ne {stem : Text} (slot : Slot) {name : Text} {extension : String}
    (h : extension = ".ts" ∨ extension = ".tmp") :
    stem ++ CodePoint.ofString slot.ending ≠ name ++ CodePoint.ofString extension := by
  intro heq
  have hback := congrArg List.reverse heq
  rcases h with rfl | rfl <;> cases slot <;>
    simp [ending, Slot.extension, CodePoint.ofString, CodePoint.ofChar_injective.eq_iff] at hback

end Slot

/-- **No target is a component.** -/
theorem Slot.path_ne {p q : Path} {dir dir' : List Text} {stem stem' : Text}
    (hp : Component p dir stem) (hq : Component q dir' stem') (slot : Slot) :
    slot.path {} p ≠ q := by
  rintro rfl
  have hparts := hq.parts
  rw [path_eq hp] at hparts
  have hname := (List.append_singleton_inj.1 hparts).2
  refine @fileName_ne stem slot (stem' ++ ".component") _ (.inl rfl) (hname.trans ?_)
  rw [List.append_assoc, ← CodePoint.ofString_append]
  rfl

end Target

/-! ## Temporary files -/

namespace Commit

/-- **The number of a temporary file is told by its name.** -/
theorem tempName_inj {name : Text} {token token' : Nat}
    (h : FileName.bytes (tempName name token) = FileName.bytes (tempName name token')) :
    token = token' := by
  simp only [tempName, FileName.bytes_append, FileName.bytes_ofString, List.append_cancel_left_eq,
    List.append_cancel_right_eq] at h
  exact padded_inj (FileName.ofString_injective h)

theorem tempName_eq (name : Text) (token : Nat) :
    ∃ front, FileName.bytes (tempName name token) = front ++ Bytes.ofString ".tmp" :=
  ⟨_, by rw [tempName, FileName.bytes_append, FileName.bytes_ofString ".tmp"]⟩

end Commit

end AssetLift
