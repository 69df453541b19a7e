import AssetLift.FileTree.Resolve
import AssetLift.Proofs.Text

/-!
# Names and their texts

Reading a name gives its characters, and for every byte between them the half of a surrogate pair
that stands for it (`FileName.induction`). So a name is written back as it was read, and different
names have different texts.

* `bytes_text`, `text_injective`: the text of a name gives the name.
* `fault?_text`: it can always be written.
* `text_ofString`, `bytes_ofString`: texts of characters are read and written as in UTF-8.
* `text_append`: the text of a name in two parts, where the second starts with an ASCII character.
* `text_split`: a text cut anywhere is that of a name cut somewhere.
* `Path.fault?_eq_none`: the paths that can be looked up, name by name.
-/

namespace AssetLift

namespace FileName

/-! ## One character -/

/-- A character is one ASCII byte, or bytes that are none. -/
theorem utf8EncodeChar_cases (c : Char) :
    (c.toNat < 0x80 ∧ String.utf8EncodeChar c = [UInt8.ofNat c.toNat]) ∨
      0x80 ≤ c.toNat ∧ ∀ x ∈ String.utf8EncodeChar c, 0x80 ≤ x := by
  have hlarge : ∀ k, 0x80 ≤ k → k < 256 → (0x80 : UInt8) ≤ UInt8.ofNat k := fun k h₁ h₂ => by
    rw [UInt8.le_iff_toNat_le, Utf8.toNat_byte h₂]
    exact h₁
  have hlt := c.valid
  simp only [UInt32.isValidChar, Nat.isValidChar] at hlt
  unfold String.utf8EncodeChar
  rw [show c.toNat = c.val.toNat from rfl]
  generalize c.val.toNat = v at hlt
  dsimp only
  split
  · exact .inl ⟨by omega, rfl⟩
  refine .inr ⟨by omega, ?_⟩
  split
  · simp only [List.forall_mem_cons, List.not_mem_nil, false_implies, implies_true, and_true]
    exact ⟨hlarge _ (by omega) (by omega), hlarge _ (by omega) (by omega)⟩
  split
  · simp only [List.forall_mem_cons, List.not_mem_nil, false_implies, implies_true, and_true]
    exact ⟨hlarge _ (by omega) (by omega), hlarge _ (by omega) (by omega),
      hlarge _ (by omega) (by omega)⟩
  · simp only [List.forall_mem_cons, List.not_mem_nil, false_implies, implies_true, and_true]
    exact ⟨hlarge _ (by omega) (by omega), hlarge _ (by omega) (by omega),
      hlarge _ (by omega) (by omega), hlarge _ (by omega) (by omega)⟩

/-- Bytes start with a character when they start with those of one. -/
theorem charAt?_eq_some {b : Bytes} {c : Char} :
    charAt? b = some c ↔ ∃ rest, b = String.utf8EncodeChar c ++ rest := by
  unfold charAt?
  constructor
  · intro h
    obtain ⟨rest, hrest⟩ := ByteArray.exists_of_utf8DecodeChar?_eq_some h
    exact ⟨rest.data.toList, by simpa using congrArg (·.data.toList) hrest⟩
  · rintro ⟨rest, rfl⟩
    rw [List.toByteArray_append]
    exact ByteArray.utf8DecodeChar?_utf8EncodeChar_append

/-- What starts with no character starts with none if less follows. -/
theorem charAt?_of_append {b rest : Bytes} (h : charAt? (b ++ rest) = none) : charAt? b = none := by
  rw [Option.eq_none_iff_forall_not_mem] at h ⊢
  intro c hc
  obtain ⟨more, rfl⟩ := charAt?_eq_some.1 hc
  exact h c (charAt?_eq_some.2 ⟨more ++ rest, List.append_assoc _ _ _⟩)

/-- What starts with no character is no ASCII character. -/
theorem le_of_charAt? {x : UInt8} {rest : Bytes} (h : charAt? (x :: rest) = none) : 0x80 ≤ x := by
  by_contra hx
  have hsmall : x.toNat < 0x80 := by
    rw [UInt8.le_iff_toNat_le] at hx
    exact Nat.lt_of_not_le hx
  have hvalid : x.toNat.isValidChar := .inl (by omega)
  have hnat : (Char.ofNat x.toNat).toNat = x.toNat := by
    rw [Char.ofNat, dif_pos hvalid]
    rfl
  obtain ⟨-, hc⟩ | ⟨hc, -⟩ := utf8EncodeChar_cases (Char.ofNat x.toNat)
  · rw [hnat, UInt8.ofNat_toNat] at hc
    rw [charAt?_eq_some.2 ⟨rest, by rw [hc]; rfl⟩] at h
    cases h
  · omega

/-! ## Reading -/

theorem textFrom_append (xs rest : Bytes) : textFrom xs.length (xs ++ rest) = text rest := by
  induction xs with
  | nil => rfl
  | cons x xs ih => rw [List.length_cons, List.cons_append, textFrom, ih]

@[simp] theorem text_nil : text [] = [] := rfl

theorem text_char (c : Char) (rest : Bytes) :
    text (String.utf8EncodeChar c ++ rest) = .ofChar c :: text rest := by
  have hlen := String.length_utf8EncodeChar c
  obtain ⟨x, xs, hx⟩ : ∃ x xs, String.utf8EncodeChar c = x :: xs :=
    List.exists_cons_of_ne_nil fun hnil => by
      have := c.utf8Size_pos
      rw [hnil] at hlen
      simp only [List.length_nil] at hlen
      omega
  have hchar : charAt? (x :: (xs ++ rest)) = some c := charAt?_eq_some.2 ⟨rest, by rw [hx]; rfl⟩
  rw [hx, List.length_cons] at hlen
  rw [hx, List.cons_append, text, textFrom, hchar]
  dsimp only
  rw [← hlen, Nat.add_sub_cancel, textFrom_append]

theorem text_byte {x : UInt8} {rest : Bytes} (h : charAt? (x :: rest) = none) :
    text (x :: rest) = escape x :: text rest := by
  rw [text, textFrom, h]
  rfl

/-- **A name is read character by character**, and byte by byte where no character is. -/
@[elab_as_elim]
theorem induction {motive : Bytes → Prop} (nil : motive [])
    (char : ∀ c rest, motive rest → motive (String.utf8EncodeChar c ++ rest))
    (byte : ∀ x rest, charAt? (x :: rest) = none → motive rest → motive (x :: rest)) (b : Bytes) :
    motive b := by
  induction hn : b.length using Nat.strongRecOn generalizing b with
  | ind n ih =>
    subst hn
    cases b with
    | nil => exact nil
    | cons x rest =>
      cases hchar : charAt? (x :: rest) with
      | none => exact byte x rest hchar (ih _ (Nat.lt_succ_self _) rest rfl)
      | some c =>
        obtain ⟨more, hmore⟩ := charAt?_eq_some.1 hchar
        have hlen := congrArg List.length hmore
        have hpos := c.utf8Size_pos
        rw [List.length_append, String.length_utf8EncodeChar] at hlen
        rw [hmore]
        exact char c more (ih _ (by omega) more rfl)

/-! ## Writing -/

theorem isHalf_of_isEscape {p : CodePoint} (h : isEscape p = true) : p.isHalf = true := by
  simp only [isEscape, CodePoint.isHalf, CodePoint.isHigh, CodePoint.isLow, Bool.and_eq_true,
    Bool.or_eq_true, decide_eq_true_eq] at h ⊢
  omega

theorem bytesOf_ofChar (c : Char) : bytesOf (.ofChar c) = String.utf8EncodeChar c := by
  have hhalf := CodePoint.isHalf_ofChar c
  have hescape : isEscape (.ofChar c) = false :=
    Bool.eq_false_iff.2 fun h => by rw [isHalf_of_isEscape h] at hhalf; cases hhalf
  rw [bytesOf, hescape, hhalf]
  exact congrArg String.utf8EncodeChar (Char.ofNat_toNat c)

theorem isEscape_escape {x : UInt8} (h : 0x80 ≤ x) : isEscape (escape x) = true := by
  have hlt := x.toNat_lt
  rw [UInt8.le_iff_toNat_le] at h
  simp only [UInt8.reduceToNat] at h
  have hval : (escape x).val = 0xDC00 + x.toNat := rfl
  rw [isEscape, hval, Bool.and_eq_true]
  exact ⟨decide_eq_true (by omega), decide_eq_true (by omega)⟩

theorem bytesOf_escape {x : UInt8} (h : 0x80 ≤ x) : bytesOf (escape x) = [x] := by
  rw [bytesOf, if_pos (isEscape_escape h), escape, Nat.add_sub_cancel_left, UInt8.ofNat_toNat]

theorem bytes_append (t u : Text) : bytes (t ++ u) = bytes t ++ bytes u := List.flatMap_append

theorem bytes_ofString (s : String) : bytes (CodePoint.ofString s) = Bytes.ofString s := by
  rw [bytes, CodePoint.ofString, List.flatMap_map]
  exact congrArg (List.flatMap · s.toList) (funext bytesOf_ofChar)

/-- **A name is written back as it was read.** -/
theorem bytes_text (b : Bytes) : bytes (text b) = b := by
  induction b using FileName.induction with
  | nil => rfl
  | char c rest ih => rw [text_char, bytes, List.flatMap_cons, bytesOf_ofChar]; exact congrArg _ ih
  | byte x rest h ih =>
    rw [text_byte h, bytes, List.flatMap_cons, bytesOf_escape (le_of_charAt? h)]
    exact congrArg _ ih

theorem map_bytes_text (names : List Bytes) : (names.map text).map bytes = names := by
  rw [List.map_map]
  exact (List.map_congr_left fun b _ => bytes_text b).trans (List.map_id names)

theorem text_injective : Function.Injective text := fun a b h => by
  rw [← bytes_text a, h, bytes_text]

@[simp] theorem text_inj {a b : Bytes} : text a = text b ↔ a = b := text_injective.eq_iff

@[simp] theorem text_ofString (s : String) : text (Bytes.ofString s) = CodePoint.ofString s := by
  have h : ∀ cs : List Char, text (cs.flatMap String.utf8EncodeChar) = cs.map CodePoint.ofChar := by
    intro cs
    induction cs with
    | nil => rfl
    | cons c cs ih => rw [List.flatMap_cons, text_char, ih]; rfl
  exact h s.toList

theorem ofString_injective : Function.Injective Bytes.ofString := fun s t h =>
  CodePoint.ofString_injective (by rw [← text_ofString, h, text_ofString])

/-! ## Texts without bytes -/

theorem faultFrom?_eq_none {position : Nat} {t : Text} : faultFrom? position t = none ↔
    ∀ p ∈ t, p.isHalf = true → isEscape p = true := by
  induction t generalizing position with
  | nil => simp [faultFrom?]
  | cons p t ih =>
    rw [faultFrom?, List.forall_mem_cons, ← @ih (position + 1)]
    split
    · rename_i h
      simp only [Bool.and_eq_true, Bool.not_eq_true'] at h
      simp [h]
    · rename_i h
      simp only [Bool.and_eq_true, Bool.not_eq_true', not_and, Bool.not_eq_false] at h
      exact (and_iff_right h).symm

theorem fault?_eq_none {t : Text} : fault? t = none ↔
    ∀ p ∈ t, p.isHalf = true → isEscape p = true := faultFrom?_eq_none

theorem fault?_append {t u : Text} :
    fault? (t ++ u) = none ↔ fault? t = none ∧ fault? u = none := by
  simp only [fault?_eq_none, List.forall_mem_append]

/-- **The text of a name in two parts**, the second of which starts with an ASCII character. -/
theorem text_append (b : Bytes) {x : UInt8} (hx : x < 0x80) (rest : Bytes) :
    text (b ++ x :: rest) = text b ++ text (x :: rest) := by
  induction b using FileName.induction with
  | nil => rfl
  | char c more ih => rw [List.append_assoc, text_char, text_char, ih]; rfl
  | byte y more h ih =>
    have hnone : charAt? (y :: (more ++ x :: rest)) = none := by
      rw [Option.eq_none_iff_forall_not_mem]
      intro c hc
      obtain ⟨tail, htail⟩ := charAt?_eq_some.1 hc
      rw [← List.cons_append] at htail
      rcases List.append_eq_append_iff.1 htail with ⟨as, hchar, hrest⟩ | ⟨as, hchar, -⟩
      · cases as with
        | nil =>
          rw [List.append_nil] at hchar
          rw [charAt?_eq_some.2 ⟨[], by rw [← hchar, List.append_nil]⟩] at h
          cases h
        | cons a as =>
          -- the ASCII character would stand inside the bytes of another
          obtain rfl : x = a := (List.cons.inj hrest).1
          obtain ⟨-, hone⟩ | ⟨-, hall⟩ := utf8EncodeChar_cases c
          · have := congrArg List.length (hone.symm.trans hchar)
            simp at this
          · have hle := hall x (by rw [hchar]; simp)
            exact absurd hx (UInt8.not_lt.2 hle)
      · rw [charAt?_eq_some.2 ⟨as, hchar⟩] at h
        cases h
    rw [List.cons_append, text_byte hnone, text_byte h, ih]
    rfl

theorem text_append_ofString (b : Bytes) {s : String} {c : Char} {cs : List Char}
    (hs : s.toList = c :: cs) (hc : c.toNat < 0x80) :
    text (b ++ Bytes.ofString s) = text b ++ CodePoint.ofString s := by
  have hbytes : Bytes.ofString s = UInt8.ofNat c.toNat :: cs.flatMap String.utf8EncodeChar := by
    obtain ⟨-, hone⟩ | ⟨hlarge, -⟩ := utf8EncodeChar_cases c
    · rw [Bytes.ofString, hs, List.flatMap_cons, hone]
      rfl
    · omega
  have hsmall : UInt8.ofNat c.toNat < 0x80 := by
    rw [UInt8.lt_iff_toNat_lt, Utf8.toNat_byte (by omega)]
    exact hc
  rw [← text_ofString s, hbytes]
  exact text_append b hsmall _

/-- **A text cut anywhere is that of a name cut somewhere.** -/
theorem text_split {b : Bytes} {t u : Text} (h : text b = t ++ u) :
    ∃ b₁ b₂, b = b₁ ++ b₂ ∧ t = text b₁ ∧ u = text b₂ := by
  induction b using FileName.induction generalizing t with
  | nil =>
    obtain ⟨rfl, rfl⟩ := List.append_eq_nil_iff.1 h.symm
    exact ⟨[], [], rfl, rfl, rfl⟩
  | char c rest ih =>
    cases t with
    | nil => exact ⟨[], _, rfl, rfl, h.symm⟩
    | cons p t =>
      rw [text_char] at h
      obtain ⟨rfl, hrest⟩ := List.cons.inj h
      obtain ⟨b₁, b₂, rfl, rfl, rfl⟩ := ih hrest
      exact ⟨_ ++ b₁, b₂, (List.append_assoc _ _ _).symm, (text_char c b₁).symm, rfl⟩
  | byte x rest hx ih =>
    cases t with
    | nil => exact ⟨[], _, rfl, rfl, h.symm⟩
    | cons p t =>
      rw [text_byte hx] at h
      obtain ⟨rfl, hrest⟩ := List.cons.inj h
      obtain ⟨b₁, b₂, rfl, rfl, rfl⟩ := ih hrest
      exact ⟨x :: b₁, b₂, rfl, (text_byte (@charAt?_of_append _ b₂ hx)).symm, rfl⟩

/-- An ASCII character is in the text of a name just if its byte is in the name. -/
theorem mem_text_iff {c : Char} (hc : c.toNat < 0x80) {b : Bytes} :
    CodePoint.ofChar c ∈ text b ↔ UInt8.ofNat c.toNat ∈ b := by
  have hsmall : ¬ (0x80 : UInt8) ≤ UInt8.ofNat c.toNat := by
    rw [UInt8.le_iff_toNat_le, Utf8.toNat_byte (by omega)]
    exact Nat.not_le.2 hc
  induction b using FileName.induction with
  | nil => simp
  | char d rest ih =>
    rw [text_char, List.mem_cons, List.mem_append]
    refine or_congr ?_ ih
    obtain ⟨hd, hone⟩ | ⟨hd, hall⟩ := utf8EncodeChar_cases d
    · rw [hone, List.mem_singleton, CodePoint.ofChar_injective.eq_iff, ← UInt8.toNat_inj,
        Utf8.toNat_byte (by omega), Utf8.toNat_byte (by omega), Char.toNat_inj]
    · refine iff_of_false (fun h => ?_) fun h => hsmall (hall _ h)
      rw [CodePoint.ofChar_injective h] at hc
      omega
  | byte x rest hx ih =>
    rw [text_byte hx, List.mem_cons, List.mem_cons]
    refine or_congr (iff_of_false (fun h => ?_) fun h => ?_) ih
    · have hhalf := CodePoint.isHalf_ofChar c
      rw [h, isHalf_of_isEscape (isEscape_escape (le_of_charAt? hx))] at hhalf
      cases hhalf
    · exact hsmall (h ▸ le_of_charAt? hx)

end FileName

/-! ## Paths -/

theorem FileName.fault?_intercalate {separator : Text} (h : fault? separator = none)
    {names : List Text} :
    fault? (separator.intercalate names) = none ↔ ∀ name ∈ names, fault? name = none := by
  induction names with
  | nil => simp [fault?, faultFrom?]
  | cons a names ih =>
    cases names with
    | nil => simp
    | cons b names =>
      rw [List.intercalate_cons_cons, fault?_append, fault?_append, ih, List.forall_mem_cons]
      simp [h]

theorem FileName.bytes_intercalate (separator : Text) (names : List Text) :
    bytes (separator.intercalate names) = (bytes separator).intercalate (names.map bytes) := by
  induction names with
  | nil => rfl
  | cons a names ih =>
    cases names with
    | nil => simp
    | cons b names =>
      rw [List.intercalate_cons_cons, bytes_append, bytes_append, ih, List.map_cons, List.map_cons]
      exact (List.intercalate_cons_cons ..).symm

namespace Path

/-- **A path can be looked up** just if each of its names can be written and none holds a NUL. -/
theorem fault?_eq_none {p : Path} : p.fault? = none ↔
    ∀ name ∈ p.parts, FileName.fault? name = none ∧ nul ∉ name := by
  have htext : FileName.fault? p.text = none ↔ ∀ name ∈ p.parts, FileName.fault? name = none := by
    unfold Path.text
    split
    · rename_i hempty
      rw [hempty.2]
      exact iff_of_true rfl (by simp)
    · rw [FileName.fault?_append, FileName.fault?_intercalate rfl]
      exact and_iff_right (by cases p.anchor <;> rfl)
  have hnul : p.parts.any (·.contains nul) = false ↔ ∀ name ∈ p.parts, nul ∉ name := by
    simp [List.any_eq_false]
  rw [fault?]
  simp only [forall_and, ← htext, ← hnul]
  cases FileName.fault? p.text with
  | some f => simp
  | none => simp

/-- The bytes of a path from the working directory. -/
theorem bytes_text {names : List Bytes} (hne : names ≠ []) :
    FileName.bytes (text ⟨.workDir, names.map FileName.text⟩)
      = ([0x2F] : Bytes).intercalate names := by
  rw [text, if_neg (by simp [hne]), FileName.bytes_append, FileName.bytes_intercalate,
    FileName.map_bytes_text]
  rfl

end Path

end AssetLift
