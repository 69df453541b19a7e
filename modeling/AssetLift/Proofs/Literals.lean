import AssetLift.Proofs.Discovery
import AssetLift.Proofs.ReadBack

/-!
# Which references are literals

A file name holds any character but a slash. Backslashes and quotes are escaped where a name is
written, line breaks are not, and no literal between quotes goes on in a second line.

* `Target.enclosed_escaped_iff`: what stands between the quotes is a literal's body just when the
  name is on one line.
* `references_legal_iff`: so it is for all references to planned files, and it is the name of the
  component that decides.
-/

namespace AssetLift

namespace Target

/-- No line ends in the text. -/
structure Unbroken (text : Text) : Prop where
  feed : .ofChar '\n' ∉ text
  return_ : .ofChar '\r' ∉ text

theorem unbroken_append {as bs : Text} : Unbroken (as ++ bs) ↔ Unbroken as ∧ Unbroken bs := by
  constructor
  · intro h
    obtain ⟨hfeed, hreturn⟩ := h
    rw [List.mem_append, not_or] at hfeed hreturn
    exact ⟨⟨hfeed.1, hreturn.1⟩, ⟨hfeed.2, hreturn.2⟩⟩
  · rintro ⟨ha, hb⟩
    exact ⟨List.not_mem_append ha.feed hb.feed, List.not_mem_append ha.return_ hb.return_⟩

theorem unbroken_cons {c : CodePoint} {cs : Text} :
    Unbroken (c :: cs) ↔ (c ≠ .ofChar '\n' ∧ c ≠ .ofChar '\r') ∧ Unbroken cs := by
  constructor
  · rintro ⟨hfeed, hreturn⟩
    rw [List.mem_cons, not_or] at hfeed hreturn
    exact ⟨⟨Ne.symm hfeed.1, Ne.symm hreturn.1⟩, hfeed.2, hreturn.2⟩
  · rintro ⟨⟨hfeed, hreturn⟩, h⟩
    exact ⟨List.not_mem_cons_of_ne_of_not_mem (Ne.symm hfeed) h.feed,
      List.not_mem_cons_of_ne_of_not_mem (Ne.symm hreturn) h.return_⟩

theorem unbroken_ofString {s : String} (hfeed : '\n' ∉ s.toList) (hreturn : '\r' ∉ s.toList) :
    Unbroken (CodePoint.ofString s) :=
  ⟨mt CodePoint.ofChar_mem_ofString.1 hfeed, mt CodePoint.ofChar_mem_ofString.1 hreturn⟩

theorem Unbroken.of_start {as bs : Text} (h : Unbroken bs) (hstart : as <+: bs) :
    Unbroken as := by
  obtain ⟨rest, rfl⟩ := hstart
  exact (unbroken_append.1 h).1

/-- What may stand between two quotes: no quote without a backslash before it, no backslash at the
end, no end of a line. -/
inductive Enclosed (q : CodePoint) : Text → Prop
  | nil : Enclosed q []
  | plain {c cs} : c ≠ q → c ≠ .ofChar '\\' → c ≠ .ofChar '\n' → c ≠ .ofChar '\r' →
      Enclosed q cs → Enclosed q (c :: cs)
  | escape {c cs} : c ≠ .ofChar '\n' → c ≠ .ofChar '\r' → Enclosed q cs →
      Enclosed q (.ofChar '\\' :: c :: cs)

/-- A text is a literal between quotes. -/
def Legal (quote : String) (text : Text) : Prop :=
  ∃ q body, quote = String.ofList [q] ∧ text = [.ofChar q] ++ body ++ [.ofChar q] ∧
    Enclosed (.ofChar q) body

theorem Enclosed.unbroken {q : CodePoint} {cs : Text} (h : Enclosed q cs) : Unbroken cs := by
  induction h with
  | nil => exact ⟨List.not_mem_nil, List.not_mem_nil⟩
  | plain _ _ hfeed hreturn _ ih => exact unbroken_cons.2 ⟨⟨hfeed, hreturn⟩, ih⟩
  | escape hfeed hreturn _ ih =>
    rw [unbroken_cons, unbroken_cons]
    exact ⟨⟨by decide, by decide⟩, ⟨hfeed, hreturn⟩, ih⟩

/-- **Only the ends of lines get past the escapes.** -/
theorem enclosed_escaped_iff {q : CodePoint} {cs : Text} :
    Enclosed q (cs.flatMap (escaped (.ofChar '\\') q)) ↔ Unbroken cs := by
  constructor
  · intro h
    have hall := h.unbroken
    clear h
    induction cs with
    | nil => exact hall
    | cons c cs ih =>
      rw [List.flatMap_cons, unbroken_append] at hall
      obtain ⟨hesc, -⟩ | ⟨hesc, -⟩ := escaped_cases (.ofChar '\\') q c
      · rw [hesc, unbroken_cons] at hall
        exact unbroken_cons.2 ⟨(unbroken_cons.1 hall.1.2).1, ih hall.2⟩
      · rw [hesc] at hall
        exact unbroken_cons.2 ⟨(unbroken_cons.1 hall.1).1, ih hall.2⟩
  · intro h
    induction cs with
    | nil => exact .nil
    | cons c cs ih =>
      obtain ⟨⟨hfeed, hreturn⟩, hcs⟩ := unbroken_cons.1 h
      rw [List.flatMap_cons]
      obtain ⟨hesc, -⟩ | ⟨hesc, hc, hq⟩ := escaped_cases (.ofChar '\\') q c
      · rw [hesc]
        exact .escape hfeed hreturn (ih hcs)
      · rw [hesc]
        exact .plain hq hc hfeed hreturn (ih hcs)

theorem legal_quoted_iff {q : Char} (hq : q ≠ '\\') {text : Text} :
    Legal (String.ofList [q]) (quoted (String.ofList [q]) text) ↔ Unbroken text := by
  rw [← @enclosed_escaped_iff (.ofChar q), quoted_eq hq]
  constructor
  · rintro ⟨q', body, hquote, htext, hbody⟩
    obtain rfl : q = q' := by simpa using String.ofList_injective hquote
    rw [List.append_cancel_right_eq, List.append_cancel_left_eq] at htext
    rwa [htext]
  · intro h
    exact ⟨q, _, rfl, rfl, h⟩

/-! ## References -/

/-- A file planned for a literal of a component. -/
inductive Planned (s : Settings) (component : Path) : PlannedFile → Prop
  | template (content) : Planned s component (template s component content)
  | style {contents file} : file ∈ styles s component contents → Planned s component file

theorem Planned.slot {s : Settings} {component : Path} {file : PlannedFile}
    (h : Planned s component file) : ∃ slot : Slot, file.path = slot.path s component := by
  cases h with
  | template content => exact ⟨.template, Slot.template_path s component content⟩
  | style hfile =>
    obtain ⟨i, hpath⟩ := Slot.style_of_mem hfile
    exact ⟨.style i, hpath⟩

theorem unbroken_number (slot : Slot) : Unbroken (CodePoint.ofString slot.number) :=
  unbroken_ofString (slot.notMem_number (by decide) (by decide))
    (slot.notMem_number (by decide) (by decide))

section
variable {s : Settings} (hquote : Settings.Accepted s.quote)
  (htemplate : s.templateExtension = ".html") (hstyle : s.styleExtension = ".scss")
  {text : Text} (hname : (Path.ofText text).name ≠ []) {file : PlannedFile}
  (hfile : Planned s (Path.ofText text) file)
include htemplate hstyle hname hfile

/-- The text of a reference, and the part of it that depends on the component. -/
theorem relative_spec : ∃ more, Unbroken more ∧
    relative file = "./" ++ baseName s (Path.ofText text) ++ more := by
  obtain ⟨slot, hpath⟩ := hfile.slot
  have hextension := slot.extensionIn_eq htemplate hstyle
  have hext : Extension (slot.extensionIn s) := by
    constructor <;> rw [hextension] <;> cases slot <;> simp [Slot.extension]
  refine ⟨slot.number ++ slot.extension, ?_, ?_⟩
  · refine unbroken_append.2 ⟨unbroken_number slot, ?_⟩
    cases slot <;> exact unbroken_ofString (by simp [Slot.extension]) (by simp [Slot.extension])
  · rw [relative, hpath, slot.name_path hname hext, Slot.nameIn, hextension]
    simp

include hquote in
/-- **When a reference is a literal.** For any component with a name and any quote that can be set,
the reference to a file planned for it is a literal if and only if the part of the component's name
that it takes over is on one line. So a name on one line makes literals, and one with a line break
before its suffix makes none. -/
theorem references_legal_iff :
    (Legal s.quote (literal s file) ↔ Unbroken (baseName s (Path.ofText text))) ∧
    (Unbroken (Path.ofText text).name → Legal s.quote (literal s file)) ∧
    (∀ stem : Text, stem ≠ [] → s.sourceSuffix = ".ts" → (Path.ofText text).name = stem ++ ".ts" →
      (Legal s.quote (literal s file) ↔ Unbroken (Path.ofText text).name)) := by
  obtain ⟨q, hs, hq⟩ := Settings.accepted_char hquote
  obtain ⟨more, hmore, hchars⟩ := relative_spec htemplate hstyle hname hfile
  have hbreaks : Unbroken (relative file) ↔ Unbroken (baseName s (Path.ofText text)) := by
    rw [hchars, unbroken_append, unbroken_append]
    have hlead : Unbroken (CodePoint.ofString "./") := unbroken_ofString (by decide) (by decide)
    exact ⟨fun h => h.1.2, fun h => ⟨⟨hlead, h⟩, hmore⟩⟩
  have hlegal : Legal s.quote (literal s file) ↔ Unbroken (baseName s (Path.ofText text)) := by
    rw [literal, hs, legal_quoted_iff (quote_ne_slash hq), hbreaks]
  have hstart := baseName_starts s (Path.ofText text)
  refine ⟨hlegal, fun h => hlegal.2 (h.of_start hstart), ?_⟩
  intro stem hstem hsuffix hends
  have hends' : (Path.ofText text).name = stem ++ s.sourceSuffix := by
    rw [hends, hsuffix]
  have hcut : Unbroken (CodePoint.ofString ".ts") := unbroken_ofString (by decide) (by decide)
  rw [hlegal, baseName_of_suffix hends' hstem (by simp [hsuffix]), hends, unbroken_append]
  exact (and_iff_left hcut).symm

end

open Sample in
theorem references_legal_iff_quotes :
    Legal "'" (literal {} (template {} (Path.ofText component) [])) := by
  have hquote : Settings.Accepted ({} : Settings).quote := ⟨0, [], {}, rfl, rfl⟩
  obtain ⟨-, hlegal, -⟩ := references_legal_iff (s := {}) hquote rfl rfl name_ne (.template [])
  exact hlegal ⟨by decide, by decide⟩

namespace Sample

/-- A line break in the name of a file. -/
def broken : String := "a\nb.component.ts"

def brokenFiles : FileTree := ⟨["w"], [(["w"], .directory), (["w", broken], .file [] 0o600)]⟩

end Sample

open Sample in
theorem reference_across_lines :
    Discovery.candidates brokenFiles ⟨.workDir, []⟩ ({} : Settings).candidateSuffix
      ({} : Settings).skipDirs none 900 = .ok [Path.ofText broken] ∧
    scalarReference {} "templateUrl" (template {} (Path.ofText broken) [0x74])
      = "templateUrl: './a\nb.component.html'" ∧
    ¬ Legal "'" (literal {} (template {} (Path.ofText broken) [0x74])) := by
  have hroot : brokenFiles.resolve true ⟨.workDir, []⟩ = .ok (.present ["w"] .directory) := by
    rw [FileTree.resolve, if_neg (by decide), List.map_nil, FileTree.resolveFrom]
    rfl
  have hbelow : Discovery.below brokenFiles ".component.ts" ["node_modules", ".git"] 900
      (.ofRoot ["w"] ⟨.workDir, []⟩) = .ok [Path.ofText broken] :=
    Discovery.below_leaf (by decide) (Discovery.ways_of_doors [] (by decide) (by decide))
  refine ⟨?_, by decide, ?_⟩
  · rw [Discovery.candidates_of_root rfl hroot rfl, hbelow, Except.map, List.mergeSort_singleton]
  · intro hlegal
    have hline := (@legal_quoted_iff '\'' (by decide) _).1 hlegal
    exact hline.feed (by decide)

end Target

end AssetLift
