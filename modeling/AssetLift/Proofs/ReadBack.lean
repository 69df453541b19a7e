import AssetLift.Proofs.Activity
import AssetLift.Proofs.Choices
import AssetLift.Proofs.Naming
import AssetLift.Proofs.Text
import Mathlib.Data.List.Nodup

/-!
# References are read back

A reference is written for planned files and read by whoever opens the component. The reader here
knows nothing of how references are written: a key ends at its colon, a literal at the first quote
with no backslash before it, a list at its bracket (`Reference.read?`).

* `Reference.body?_escaped`: a literal ends where it was closed, whatever text it holds.
* `Reference.read?_list`, `Reference.read?_single`: hence key and literals are read back.
* `Target.Slot.path_spec`: with any settings, a target stands next to its component, under a name
  that no other slot has.
* `references_read_back`: the literals lead to the files that were planned.
-/

namespace AssetLift

namespace Reference

/-! ## A reader -/

/-- The body of a literal up to the quote that closes it, and what follows. -/
def body? (q : Char) : List Char → Option (List Char × List Char)
  | [] => none
  | [c] => if c = q then some ([], []) else none
  | c :: d :: rest =>
    if c = q then some ([], d :: rest)
    else if c = '\\' then (body? q rest).map fun (body, after) => (c :: d :: body, after)
    else (body? q (d :: rest)).map fun (body, after) => (c :: body, after)

/-- The body of the literal that characters start with. -/
def literal? : List Char → Option (List Char × List Char)
  | [] => none
  | q :: rest => if q = '\'' ∨ q = '"' then body? q rest else none

theorem length_of_body? {q : Char} {cs body after : List Char} (h : body? q cs = some (body, after)) :
    after.length < cs.length := by
  induction cs using body?.induct q generalizing body after with
  | case1 => cases h
  | case2 =>
    rw [body?, if_pos rfl] at h
    cases h
    simp
  | case3 c hc =>
    rw [body?, if_neg hc] at h
    cases h
  | case4 d rest =>
    rw [body?, if_pos rfl] at h
    cases h
    simp
  | case5 d rest hq ih =>
    rw [body?, if_neg hq, if_pos rfl] at h
    obtain ⟨⟨body', after'⟩, hrest, heq⟩ := Option.map_eq_some_iff.1 h
    cases heq
    have := ih hrest
    simp only [List.length_cons]
    omega
  | case6 c d rest hq hslash ih =>
    rw [body?, if_neg hq, if_neg hslash] at h
    obtain ⟨⟨body', after'⟩, hrest, heq⟩ := Option.map_eq_some_iff.1 h
    cases heq
    have := ih hrest
    simp only [List.length_cons] at this ⊢
    omega

theorem length_of_literal? {cs body after : List Char} (h : literal? cs = some (body, after)) :
    after.length < cs.length := by
  cases cs with
  | nil => cases h
  | cons q rest =>
    obtain ⟨-, hbody⟩ := Option.ite_none_right_eq_some.1 h
    have := length_of_body? hbody
    simp only [List.length_cons]
    omega

/-- The bodies of the literals up to the end of a list, and what follows its bracket. -/
def elements? (cs : List Char) : Option (List String × List Char) :=
  match _h : literal? cs with
  | some (body, ',' :: ' ' :: more) =>
    (elements? more).map fun (bodies, after) => (String.ofList body :: bodies, after)
  | some (body, ']' :: after) => some ([String.ofList body], after)
  | _ => none
termination_by cs.length
decreasing_by
  have := length_of_literal? _h
  simp only [List.length_cons] at this
  omega

/-- The literals of a value. -/
inductive Value where
  | single (body : String)
  | list (bodies : List String)
  deriving DecidableEq

/-- The value that characters write. -/
def value? : List Char → Option Value
  | ['[', ']'] => some (.list [])
  | '[' :: inside =>
    match elements? inside with
    | some (bodies, []) => some (.list bodies)
    | _ => none
  | cs =>
    match literal? cs with
    | some (body, []) => some (.single (String.ofList body))
    | _ => none

/-- The key and the value of a pair; the key ends at the first colon. -/
def read? (text : String) : Option (String × Value) :=
  match text.toList.dropWhile (· ≠ ':') with
  | ':' :: ' ' :: rest =>
    (value? rest).map fun v => (String.ofList (text.toList.takeWhile (· ≠ ':')), v)
  | _ => none

/-! ## What was written -/

section
variable {q : Char} (hq : q = '\'' ∨ q = '"')
include hq

/-- **A literal is closed by the quote at its end**: every other one has a backslash before it. -/
theorem body?_escaped (cs rest : List Char) :
    body? q (cs.flatMap (Target.escaped '\\' q) ++ q :: rest)
      = some (cs.flatMap (Target.escaped '\\' q), rest) := by
  have hslash := (Target.quote_ne_slash hq).symm
  induction cs with
  | nil => cases rest <;> simp [body?]
  | cons c cs ih =>
    rw [List.flatMap_cons, List.append_assoc]
    obtain ⟨hesc, -⟩ | ⟨hesc, hc, hcq⟩ := Target.escaped_cases '\\' q c
    · rw [hesc, List.cons_append, List.singleton_append, body?, if_neg hslash, if_pos rfl, ih]
      rfl
    · rw [hesc, List.singleton_append]
      -- something follows, if only the quote at the end
      obtain ⟨d, more, hmore⟩ : ∃ d more,
          cs.flatMap (Target.escaped '\\' q) ++ q :: rest = d :: more :=
        List.exists_cons_of_ne_nil (by simp)
      rw [hmore] at ih ⊢
      rw [body?, if_neg hcq, if_neg hc, ih]
      rfl

theorem literal?_quoted (text : String) (rest : List Char) :
    literal? ((Target.quotedChars q text).toList ++ rest)
      = some (text.toList.flatMap (Target.escaped '\\' q), rest) := by
  rw [Target.quotedChars, String.toList_ofList, List.append_assoc, List.append_assoc,
    List.singleton_append, List.singleton_append, literal?, if_pos hq, body?_escaped hq]

/-- The body of the literal that a text is written as. -/
def bodyOf (q : Char) (text : String) : String :=
  String.ofList (text.toList.flatMap (Target.escaped '\\' q))

theorem elements?_quoted {texts : List String} (hne : texts ≠ []) (rest : List Char) :
    elements? ((", ".intercalate (texts.map (Target.quotedChars q))).toList
      ++ ']' :: rest) = some (texts.map (bodyOf q), rest) := by
  induction texts with
  | nil => exact absurd rfl hne
  | cons text texts ih =>
    cases texts with
    | nil =>
      rw [elements?, List.map_singleton, String.intercalate_singleton, literal?_quoted hq]
      rfl
    | cons next texts =>
      have hrest := ih (List.cons_ne_nil _ _)
      rw [List.map_cons, List.map_cons, String.intercalate_cons_cons, ← List.map_cons,
        String.toList_append, String.toList_append, List.append_assoc, List.append_assoc,
        show ", ".toList = [',', ' '] from rfl, List.cons_append, List.singleton_append, elements?,
        literal?_quoted hq]
      simp only [hrest]
      rfl

theorem value?_single (text : String) :
    value? (Target.quotedChars q text).toList = some (.single (bodyOf q text)) := by
  have hliteral := literal?_quoted hq text []
  rw [List.append_nil] at hliteral
  have hbracket : ∀ rest, (Target.quotedChars q text).toList ≠ '[' :: rest := by
    intro rest heq
    rw [heq] at hliteral
    cases hliteral
  unfold value?
  split
  · exact absurd ‹_› (hbracket _)
  · exact absurd ‹_› (hbracket _)
  · rw [hliteral]
    rfl

theorem value?_list (texts : List String) :
    value? ("[" ++ ", ".intercalate (texts.map (Target.quotedChars q)) ++ "]").toList
      = some (.list (texts.map (bodyOf q))) := by
  rw [String.toList_append, String.toList_append, show "[".toList = ['['] from rfl,
    show "]".toList = [']'] from rfl, List.append_assoc, List.singleton_append]
  by_cases hne : texts = []
  · subst hne
    rfl
  have helements := elements?_quoted hq hne []
  rw [value?, helements]
  -- the case of an empty list is that of no characters but the bracket
  intro hempty
  rw [hempty, elements?] at helements
  simp [literal?] at helements

end

/-! ## Pairs -/

theorem read?_pair {key : String} (hkey : ':' ∉ key.toList) {written : String} {v : Value}
    (hvalue : value? written.toList = some v) : read? (key ++ ": " ++ written) = some (key, v) := by
  have htext : (key ++ ": " ++ written).toList = key.toList ++ ':' :: ' ' :: written.toList := by
    simp
  have hbefore : ∀ c ∈ key.toList, decide (c ≠ ':') = true := by
    intro c hc
    rw [decide_eq_true_eq]
    rintro rfl
    exact hkey hc
  rw [read?, htext, List.dropWhile_append_of_pos hbefore, List.takeWhile_append_of_pos hbefore,
    List.dropWhile_cons_of_neg (by simp), List.takeWhile_cons_of_neg (by simp), List.append_nil]
  simp only [hvalue, String.ofList_toList]
  rfl

end Reference

/-! ## Quotes that can be set -/

/-- A configuration can set the quote. -/
def Settings.Accepted (quote : String) : Prop :=
  ∃ room c s, ofConfig room c = .ok s ∧ s.quote = quote

theorem Settings.accepted_iff {quote : String} : Accepted quote ↔ quote = "'" ∨ quote = "\"" := by
  constructor
  · rintro ⟨room, c, s, hs, rfl⟩
    exact quote_of_ofConfig hs
  · rintro (rfl | rfl)
    · exact ⟨0, [], {}, rfl, rfl⟩
    · exact ⟨0, [(.text "QUOTE", .text "\"")], { quote := "\"" }, rfl, rfl⟩

theorem Settings.accepted_char {quote : String} (h : Accepted quote) :
    ∃ q, quote = String.ofList [q] ∧ (q = '\'' ∨ q = '"') := by
  rcases accepted_iff.1 h with h | h
  · exact ⟨'\'', h, .inl rfl⟩
  · exact ⟨'"', h, .inr rfl⟩

namespace Target

/-! ## Targets with any settings -/

/-- An extension that makes a name of its own out of any base name. -/
structure Extension (extension : String) : Prop where
  long : 2 ≤ extension.toList.length
  plain : '/' ∉ extension.toList

theorem baseName_starts (s : Settings) (component : Path) :
    baseName s component <+: component.name := by
  rw [baseName]
  split
  · exact List.take_prefix _ _
  · exact List.take_prefix _ _

theorem baseName_ne_nil (s : Settings) {component : Path} (hname : component.name ≠ []) :
    baseName s component ≠ [] := by
  have hpos := List.length_pos_iff.2 hname
  rw [← List.length_pos_iff, baseName]
  split
  · rw [List.length_take]
    omega
  · rw [Path.stem, List.length_take, Path.stemLength]
    split <;> omega

theorem notMem_of_mem_splitChars {α : Type} [DecidableEq α] {separator : α} {cs piece : List α}
    (h : piece ∈ Blank.splitChars separator cs) : separator ∉ piece := by
  induction cs generalizing piece with
  | nil =>
    rw [Blank.splitChars, List.mem_singleton] at h
    simp [h]
  | cons c cs ih =>
    rw [Blank.splitChars] at h
    by_cases hc : c = separator
    · rw [if_pos hc, List.mem_cons] at h
      rcases h with rfl | h
      · simp
      · exact ih h
    · rw [if_neg hc] at h
      split at h
      · rename_i first others hsplit
        rcases List.mem_cons.1 h with rfl | h
        · have hfirst := ih (hsplit ▸ List.mem_cons_self)
          simpa [Ne.symm hc] using hfirst
        · exact ih (hsplit ▸ List.mem_cons_of_mem _ h)
      · rw [List.mem_singleton.1 h, List.mem_singleton]
        exact Ne.symm hc

/-- The last name of a path that was read is one name. -/
theorem slash_notMem_name (text : Text) : Path.slash ∉ (Path.ofText text).name := by
  rw [Path.name]
  cases hlast : (Path.ofText text).parts.getLast? with
  | none => simp
  | some name =>
    have hmem : name ∈ Path.names text := List.mem_of_getLast? hlast
    exact notMem_of_mem_splitChars (List.mem_filter.1 hmem).1

/-- A name after a dot and a slash leads to that name. -/
theorem join_dotted (dir : Path) {name : Text} (hslash : Path.slash ∉ name) (hempty : name ≠ [])
    (hdot : name ≠ [Path.dot]) : dir.join ("./" ++ name) = ⟨dir.anchor, dir.parts ++ [name]⟩ := by
  have hsplit : Blank.splitChars Path.slash (Path.dot :: Path.slash :: name)
      = [[Path.dot], name] := by
    have hne : Path.dot ≠ Path.slash := by decide
    simp [Blank.splitChars, splitChars_of_notMem hslash, hne]
  have hnames : Path.names ("./" ++ name) = [name] := by
    rw [show CodePoint.ofString "./" ++ name = Path.dot :: Path.slash :: name from rfl, Path.names,
      hsplit]
    simp [hempty, hdot]
  rw [Path.join, Path.ofText, hnames]
  rfl

namespace Slot

theorem number_style_inj {i j : Nat} (h : (style i).number = (style j).number) : i = j := by
  have hdot : ([] : Text) ++ [Path.dot] ++ CodePoint.ofString (style i).number
      = [] ++ [Path.dot] ++ CodePoint.ofString (style j).number := by
    rw [h]
  exact (number_inj (by decide) hdot).2

/-- The name for a slot is one name, if its parts are. -/
theorem slash_notMem_nameIn {s : Settings} {component : Path} {slot : Slot}
    (hname : Path.slash ∉ component.name) (hext : '/' ∉ (slot.extensionIn s).toList) :
    Path.slash ∉ slot.nameIn s component := by
  have hstart := (baseName_starts s component).subset
  simp only [nameIn, List.mem_append, not_or, Path.slash, CodePoint.ofChar_mem_ofString]
  exact ⟨⟨fun h => hname (hstart h), notMem_number (by decide) (by decide) slot⟩, hext⟩

section
variable {s : Settings} {text : Text} (hname : (Path.ofText text).name ≠ []) {slot : Slot}
  (hext : Extension (slot.extensionIn s))
include hname hext

/-- The name is one name: it is neither empty nor a dot, and has no slash. -/
theorem nameIn_proper : Path.slash ∉ slot.nameIn s (Path.ofText text) ∧
    2 < (slot.nameIn s (Path.ofText text)).length := by
  have hbase := List.length_pos_iff.2 (baseName_ne_nil s hname)
  have hlong := hext.long
  refine ⟨slash_notMem_nameIn (slash_notMem_name text) hext.plain, ?_⟩
  simp only [nameIn, List.length_append, CodePoint.ofString, List.length_map]
  omega

/-- **A target stands next to its component**, under its own name, and the name after a dot and a
slash leads there. -/
theorem path_spec : slot.path s (Path.ofText text)
      = ⟨(Path.ofText text).anchor, (Path.ofText text).parts.dropLast
        ++ [slot.nameIn s (Path.ofText text)]⟩ ∧
    (Path.ofText text).parent.join ("./" ++ slot.nameIn s (Path.ofText text))
      = slot.path s (Path.ofText text) := by
  obtain ⟨hslash, hlong⟩ := nameIn_proper hname hext
  have hempty : slot.nameIn s (Path.ofText text) ≠ [] := by
    intro h
    simp [h] at hlong
  have hdot : slot.nameIn s (Path.ofText text) ≠ [Path.dot] := by
    intro h
    simp [h] at hlong
  rw [path_eq_beside, beside_eq _ hslash hempty hdot, join_dotted _ hslash hempty hdot]
  exact ⟨rfl, rfl⟩

end

/-- The name that a target has. -/
theorem name_path {s : Settings} {text : Text} (hname : (Path.ofText text).name ≠ [])
    {slot : Slot} (hext : Extension (slot.extensionIn s)) :
    (slot.path s (Path.ofText text)).name = slot.nameIn s (Path.ofText text) := by
  rw [(path_spec hname hext).1, Path.name, List.getLast?_concat]
  rfl

/-- It is a text of characters if the name of the component is. -/
theorem encodable_nameIn {s : Settings} {component : Path} (slot : Slot)
    (hchars : Utf8.Encodable component.name) : Utf8.Encodable (slot.nameIn s component) := by
  rw [nameIn, Utf8.encodable_append, Utf8.encodable_append]
  exact ⟨⟨fun p hp => hchars p ((baseName_starts s component).subset hp),
    Utf8.encodable_ofString _⟩, Utf8.encodable_ofString _⟩

/-- Style files with different numbers have different paths. -/
theorem style_path_injective {s : Settings} {text : Text}
    (hname : (Path.ofText text).name ≠ []) (hext : Extension s.styleExtension) :
    Function.Injective fun i => (style i).path s (Path.ofText text) := by
  intro i j h
  have hi := (@path_spec s text hname (style i) hext).1
  have hj := (@path_spec s text hname (style j) hext).1
  simp only [hi, hj, Path.mk.injEq, true_and, List.append_cancel_left_eq, List.cons.injEq,
    and_true] at h
  simp only [nameIn, List.append_assoc, List.append_cancel_left_eq] at h
  exact number_style_inj (CodePoint.ofString_injective (List.append_cancel_right h))

end Slot

/-! ## References -/

theorem ofString_intercalate (separator : String) (texts : List String) :
    CodePoint.ofString (separator.intercalate texts)
      = (CodePoint.ofString separator).intercalate (texts.map CodePoint.ofString) := by
  induction texts with
  | nil => rfl
  | cons text texts ih =>
    cases texts with
    | nil => simp
    | cons next texts =>
      rw [String.intercalate_cons_cons, CodePoint.ofString_append, CodePoint.ofString_append, ih]
      simp only [List.map_cons, List.intercalate_cons_cons]

section
variable {s : Settings} {q : Char} (hquote : s.quote = String.ofList [q])
  (hq : q = '\'' ∨ q = '"')
include hquote hq

/-- The literals of files whose names are texts of characters. -/
theorem literals_eq {files : List PlannedFile} {names : List String}
    (hnames : files.map relative = names.map CodePoint.ofString) :
    files.map (literal s) = (names.map (quotedChars q)).map CodePoint.ofString := by
  have hmap : files.map (literal s) = (files.map relative).map (quoted s.quote) := by
    rw [List.map_map]
    rfl
  rw [hmap, hnames, List.map_map, List.map_map, hquote]
  exact List.map_congr_left fun n _ => quoted_ofString (quote_ne_slash hq) n

variable {key : String} (hkey : ':' ∉ key.toList)
include hkey

theorem read?_listReference {files : List PlannedFile} {names : List String}
    (hnames : files.map relative = names.map CodePoint.ofString) :
    ∃ written, listReference s key files = CodePoint.ofString written ∧
      Reference.read? written = some (key, .list (names.map (Reference.bodyOf q))) := by
  refine ⟨_, ?_, Reference.read?_pair hkey (Reference.value?_list hq names)⟩
  rw [listReference, literals_eq hquote hq hnames, ← ofString_intercalate]
  simp only [CodePoint.ofString_append, List.append_assoc]
  rfl

theorem read?_scalarReference {f : PlannedFile} {name : String}
    (hname : relative f = CodePoint.ofString name) :
    ∃ written, scalarReference s key f = CodePoint.ofString written ∧
      Reference.read? written = some (key, .single (Reference.bodyOf q name)) := by
  refine ⟨_, ?_, Reference.read?_pair hkey (Reference.value?_single hq name)⟩
  rw [scalarReference, literal, hname, hquote, quoted_ofString (quote_ne_slash hq)]
  simp only [CodePoint.ofString_append]

end

/-- A file stands in the directory of its component, and so does what the body of a literal leads
to from there: the file itself. -/
structure LedTo (component : Path) (file : PlannedFile) (body : String) : Prop where
  dir : file.path.parent = component.parent
  name : file.path.name ≠ []
  body : CodePoint.ofString <$> Literal.decode .quote body = .ok ("./" ++ file.path.name)
  leads : component.parent.join ("./" ++ file.path.name) = file.path

section
variable {s : Settings} {text : Text} (hname : (Path.ofText text).name ≠ [])
  (hchars : Utf8.Encodable (Path.ofText text).name)
include hname hchars

/-- A file for a slot has a name of characters, and the body that the name is written as leads to
the file. -/
theorem ledTo {slot : Slot} (hext : Extension (slot.extensionIn s)) {file : PlannedFile}
    (hpath : file.path = slot.path s (Path.ofText text)) {q : Char} (hq : q = '\'' ∨ q = '"') :
    ∃ name : String, relative file = CodePoint.ofString name ∧
      LedTo (Path.ofText text) file (Reference.bodyOf q name) := by
  obtain ⟨hplace, hjoin⟩ := slot.path_spec hname hext
  obtain ⟨-, hlong⟩ := slot.nameIn_proper hname hext
  have hlast := slot.name_path hname hext
  obtain ⟨n, hn⟩ := (slot.encodable_nameIn hchars (s := s)).exists_ofString
  rw [← hpath] at hplace hjoin hlast
  have hrelative : relative file = CodePoint.ofString ("./" ++ n) := by
    rw [relative, hlast, hn, CodePoint.ofString_append]
  refine ⟨_, hrelative, ?_, ?_, ?_, hlast ▸ hjoin⟩
  · rw [hplace, Path.parent, Path.parent, List.dropLast_concat]
  · rw [hlast]
    intro hempty
    simp [hempty] at hlong
  · rw [Reference.bodyOf, Literal.decode_escaped hq, ← relative, hrelative]
    rfl

/-- Files for slots have names of characters, and the bodies that they are written as lead there. -/
theorem ledTo_all {files : List PlannedFile} (hfiles : ∀ file ∈ files, ∃ slot : Slot,
      Extension (slot.extensionIn s) ∧ file.path = slot.path s (Path.ofText text)) {q : Char}
    (hq : q = '\'' ∨ q = '"') :
    ∃ names : List String, files.map relative = names.map CodePoint.ofString ∧
      List.Forall₂ (LedTo (Path.ofText text)) files (names.map (Reference.bodyOf q)) := by
  induction files with
  | nil => exact ⟨[], rfl, .nil⟩
  | cons file files ih =>
    obtain ⟨⟨slot, hext, hpath⟩, hrest⟩ := List.forall_mem_cons.1 hfiles
    obtain ⟨name, hrelative, hled⟩ := ledTo hname hchars hext hpath hq
    obtain ⟨names, hrelatives, hleds⟩ := ih hrest
    exact ⟨name :: names, by rw [List.map_cons, hrelative, hrelatives]; rfl, .cons hled hleds⟩

end

/-- **References lead to the files that were planned.** For any component with a name of characters
and any quote that can be set, a reader of a reference finds its key and a literal for each file, in
order; the styles are files of their own, one for each content. -/
theorem references_read_back {s : Settings} (hquote : Settings.Accepted s.quote) {text : Text}
    (hname : (Path.ofText text).name ≠ []) (hchars : Utf8.Encodable (Path.ofText text).name)
    {key : String} (hkey : ':' ∉ key.toList) :
    (Extension s.styleExtension → ∀ contents : List (List CodePoint),
      ((styles s (Path.ofText text) contents).map (·.path)).Nodup ∧
      (styles s (Path.ofText text) contents).map (·.content) = contents ∧
      ∃ written bodies,
        listReference s key (styles s (Path.ofText text) contents) = CodePoint.ofString written ∧
        Reference.read? written = some (key, .list bodies) ∧
        List.Forall₂ (LedTo (Path.ofText text)) (styles s (Path.ofText text) contents) bodies) ∧
    (Extension s.templateExtension → ∀ content : List CodePoint,
      (template s (Path.ofText text) content).content = content ∧
      ∃ written body,
        reference s key [template s (Path.ofText text) content] = .ok (CodePoint.ofString written) ∧
        Reference.read? written = some (key, .single body) ∧
        LedTo (Path.ofText text) (template s (Path.ofText text) content) body) := by
  obtain ⟨q, hs, hq⟩ := Settings.accepted_char hquote
  constructor
  · intro hext contents
    have hslots : ∀ file ∈ styles s (Path.ofText text) contents, ∃ slot : Slot,
        Extension (slot.extensionIn s) ∧ file.path = slot.path s (Path.ofText text) := by
      intro file hfile
      obtain ⟨i, hpath⟩ := Slot.style_of_mem hfile
      exact ⟨.style i, hext, hpath⟩
    obtain ⟨names, hnames, hled⟩ := ledTo_all hname hchars hslots hq
    obtain ⟨written, hwritten, hread⟩ := read?_listReference hs hq hkey hnames
    refine ⟨?_, ?_, written, _, hwritten, hread, hled⟩
    · rw [Slot.styles_paths]
      exact List.nodup_range.map (Slot.style_path_injective hname hext)
    · rw [styles, List.map_map]
      exact List.zipIdx_map_fst 0 contents
  · intro hext content
    obtain ⟨name, hrelative, hlead⟩ := @ledTo s text hname hchars .template hext _
      (Slot.template_path s _ content) q hq
    obtain ⟨written, hwritten, hread⟩ := read?_scalarReference hs hq hkey hrelative
    exact ⟨rfl, written, _, congrArg _ hwritten, hread, hlead⟩

namespace Sample

/-- A path with a quote, a bracket, a comma and a backslash in its name. -/
def component : String := "ui/it's [a, b]\\.component.ts"

theorem name_ne : (Path.ofText component).name ≠ [] := by decide

theorem encodable_name : Utf8.Encodable (Path.ofText component).name := by
  rw [show (Path.ofText component).name = CodePoint.ofString "it's [a, b]\\.component.ts" by decide]
  exact Utf8.encodable_ofString _

/-- The styles of a component with two literals. -/
def sheets : List PlannedFile := styles {} (Path.ofText component) [[], [.ofChar 'a']]

def written : String :=
  "styleUrls: ['./it\\'s [a, b]\\\\.component.scss', './it\\'s [a, b]\\\\.component-2.scss']"

end Sample

open Sample in
theorem references_read_back_punctuation : ∃ bodies,
    listReference {} "styleUrls" sheets = CodePoint.ofString written ∧
      Reference.read? written = some ("styleUrls", .list bodies) ∧
      List.Forall₂ (LedTo (Path.ofText component)) sheets bodies := by
  have hkey : ':' ∉ "styleUrls".toList := by decide
  have hext : Extension ({} : Settings).styleExtension := ⟨by decide, by decide⟩
  obtain ⟨-, -, w, bodies, hw, hread, hlead⟩ :=
    (references_read_back (s := {}) ⟨0, [], {}, rfl, rfl⟩ name_ne encodable_name hkey).1 hext
      [[], [.ofChar 'a']]
  have hwritten : listReference {} "styleUrls" sheets = CodePoint.ofString written := by decide
  obtain rfl : w = written := CodePoint.ofString_injective (hw.symm.trans hwritten)
  exact ⟨bodies, hwritten, hread, hlead⟩

end Target

end AssetLift
