import AssetLift.Proofs.Text
import Mathlib.Data.List.Basic
import Mathlib.Data.Nat.Find

/-!
# Literals by the grammar of the language

The body of a literal is a sequence of elements: characters that stand for themselves, escapes, and
line breaks that are skipped. Read from left to right, each element gives code units, and the units
of all elements together are those of the literal's text (`Element.units`). Escapes may write a
surrogate half each, so the units need not be those of any text; if not, there is a first half
without its other half (`Unpaired`).

* `Reading`: a body divided into the elements that strict mode allows.
* `cookFrom_element`, `cook_reading`: one element, and then all of them, are read in turn.
* `decodeUnits_ok`, `decodeUnits_error`: units whose halves are all paired, and others.
* `decode_reading`: the text of a body, or the first half that stands alone.
-/

namespace AssetLift

namespace CodePoint

/-! ## Code units -/

/-- The code units of the code point with a number. -/
def utf16 (n : Nat) : List Nat :=
  if n < 0x10000 then [n]
  else [0xD800 + (n - 0x10000) / 0x400, 0xDC00 + (n - 0x10000) % 0x400]

/-- The unit with a number is half of a surrogate pair whose other half does not stand next to
it. -/
def Unpaired (us : List Nat) (i : Nat) : Prop :=
  (∃ u, us[i]? = some u ∧ isHigh u ∧ ∀ v, us[i + 1]? = some v → isLow v = false) ∨
  (∃ u, us[i]? = some u ∧ isLow u ∧ ∀ j v, i = j + 1 → us[j]? = some v → isHigh v = false)

/-- The first unit of all that is unpaired. -/
def FirstUnpaired (us : List Nat) (i : Nat) : Prop := Unpaired us i ∧ ∀ j < i, ¬ Unpaired us j

theorem exists_firstUnpaired {us : List Nat} (h : ∃ i, Unpaired us i) :
    ∃ i, FirstUnpaired us i := by
  classical
  exact ⟨Nat.find h, Nat.find_spec h, fun _ hj => Nat.find_min h hj⟩

theorem isLow_eq_false_of_isHigh {u : Nat} (h : isHigh u = true) : isLow u = false := by
  simp only [isHigh, isLow, Bool.and_eq_true, decide_eq_true_eq, Bool.and_eq_false_iff,
    decide_eq_false_iff_not] at h ⊢
  omega

theorem isHigh_eq_false_of_isLow {u : Nat} (h : isLow u = true) : isHigh u = false := by
  by_contra hhigh
  rw [isLow_eq_false_of_isHigh (by simpa using hhigh)] at h
  cases h

theorem not_unpaired_nil (i : Nat) : ¬ Unpaired [] i := by
  simp [Unpaired]

/-- After a unit that is no first half, the others are paired among themselves. -/
theorem unpaired_cons {u : Nat} (hu : isHigh u = false) (us : List Nat) (i : Nat) :
    Unpaired (u :: us) (i + 1) ↔ Unpaired us i := by
  have hback : (∀ j v, i + 1 = j + 1 → (u :: us)[j]? = some v → isHigh v = false) ↔
      ∀ j v, i = j + 1 → us[j]? = some v → isHigh v = false := by
    constructor
    · rintro h j v rfl hv
      exact h (j + 1) v rfl (by simpa using hv)
    · intro h j v hij hv
      cases j with
      | zero =>
        simp only [List.getElem?_cons_zero, Option.some.injEq] at hv
        rwa [← hv]
      | succ j => exact h j v (by omega) (by simpa using hv)
  simp only [Unpaired, List.getElem?_cons_succ, hback]

/-- A unit that is no half at all. -/
theorem not_unpaired_plain {u : Nat} (hhigh : isHigh u = false) (hlow : isLow u = false)
    (us : List Nat) : ¬ Unpaired (u :: us) 0 := by
  simp [Unpaired, hhigh, hlow]

/-- Two halves that stand next to one another. -/
theorem not_unpaired_pair {u v : Nat} (hu : isHigh u = true) (hv : isLow v = true) (us : List Nat)
    {i : Nat} (hi : i < 2) : ¬ Unpaired (u :: v :: us) i := by
  have hu' := isLow_eq_false_of_isHigh hu
  have hv' := isHigh_eq_false_of_isLow hv
  match i with
  | 0 => simp [Unpaired, hu', hv]
  | 1 =>
    rintro (⟨w, hw, hhigh, -⟩ | ⟨w, -, -, hback⟩)
    · simp only [List.getElem?_cons_succ, List.getElem?_cons_zero, Option.some.injEq] at hw
      rw [← hw, hv'] at hhigh
      cases hhigh
    · have := hback 0 u rfl rfl
      rw [hu] at this
      cases this

theorem unpaired_pair {u v : Nat} (hv : isLow v = true) (us : List Nat) (i : Nat) :
    Unpaired (u :: v :: us) (i + 2) ↔ Unpaired us i := by
  have hv' := isHigh_eq_false_of_isLow hv
  have hcons := unpaired_cons hv' us i
  rw [← hcons]
  constructor
  · rintro (h | ⟨w, hw, hlow, hback⟩)
    · exact .inl h
    · exact .inr ⟨w, hw, hlow, fun j x hj hx => hback (j + 1) x (by omega) hx⟩
  · rintro (h | ⟨w, hw, hlow, hback⟩)
    · exact .inl h
    · refine .inr ⟨w, hw, hlow, fun j x hj hx => ?_⟩
      obtain rfl : j = i + 1 := by omega
      exact hback i x rfl hx

/-- Two halves are the units of the character that they write. -/
theorem units_pair {u v : Nat} (hu : isHigh u = true) (hv : isLow v = true) :
    units (ofChar (pair u v)) = [u, v] := by
  simp only [isHigh, isLow, Bool.and_eq_true, decide_eq_true_eq] at hu hv
  rw [pair]
  generalize hn : 0x10000 + (u - 0xD800) * 0x400 + (v - 0xDC00) = n
  have hval : (ofChar (Char.ofNat n)).val = n := by
    refine toNat_ofNat ?_ ?_ (by omega) <;>
    · simp only [isHigh, isLow, Bool.and_eq_false_iff, decide_eq_false_iff_not]
      omega
  rw [units, hval, if_neg (by omega), show 0xD800 + (n - 0x10000) / 0x400 = u by omega,
    show 0xDC00 + (n - 0x10000) % 0x400 = v by omega]

theorem decodeUnitsFrom_plain {u : Nat} (hhigh : isHigh u = false) (hlow : isLow u = false)
    (index : Nat) (rest : List Nat) : decodeUnitsFrom index (u :: rest)
      = (Char.ofNat u :: ·) <$> decodeUnitsFrom (index + 1) rest := by
  rw [decodeUnitsFrom.eq_def]
  simp only [hhigh, hlow, Bool.false_eq_true, ↓reduceIte]

/-- **Units whose halves are all paired** are those of the text that they are read as. -/
theorem decodeUnits_ok {us : List Nat} (hunits : ∀ u ∈ us, u < 0x10000)
    (hpaired : ∀ i, ¬ Unpaired us i) (index : Nat) :
    ∃ cs, decodeUnitsFrom index us = .ok cs ∧ (cs.map ofChar).flatMap units = us := by
  induction index, us using decodeUnitsFrom.induct with
  | case1 index => exact ⟨[], by rw [decodeUnitsFrom], rfl⟩
  | case2 index u rest hlow =>
    refine absurd ?_ (hpaired 0)
    exact .inr ⟨u, rfl, hlow, fun j v hj => by omega⟩
  | case3 index u hlow hhigh =>
    refine absurd ?_ (hpaired 0)
    exact .inl ⟨u, rfl, hhigh, fun v hv => by simp at hv⟩
  | case4 index u hlow hhigh v more hv ih =>
    obtain ⟨cs, hcs, hback⟩ := ih (fun w hw => hunits w (by simp [hw]))
      fun i hi => hpaired (i + 2) ((unpaired_pair hv more i).2 hi)
    refine ⟨pair u v :: cs, ?_, ?_⟩
    · rw [decodeUnitsFrom, if_neg hlow, if_pos hhigh]
      simp only [hv, ↓reduceIte, hcs]
      rfl
    · rw [List.map_cons, List.flatMap_cons, hback, units_pair hhigh hv]
      rfl
  | case5 index u hlow hhigh v more hv =>
    refine absurd ?_ (hpaired 0)
    exact .inl ⟨u, rfl, hhigh, fun w hw => by simp_all⟩
  | case6 index u rest hlow hhigh ih =>
    have hlow : isLow u = false := by simpa using hlow
    have hhigh : isHigh u = false := by simpa using hhigh
    have hu := hunits u List.mem_cons_self
    obtain ⟨cs, hcs, hback⟩ := ih (fun w hw => hunits w (List.mem_cons_of_mem _ hw))
      fun i hi => hpaired (i + 1) ((unpaired_cons hhigh rest i).2 hi)
    refine ⟨Char.ofNat u :: cs, ?_, ?_⟩
    · rw [decodeUnitsFrom_plain hhigh hlow, hcs]
      rfl
    · have hval : (ofChar (Char.ofNat u)).val = u := toNat_ofNat hhigh hlow (by omega)
      rw [List.map_cons, List.flatMap_cons, hback, units, hval, if_pos hu]
      rfl

/-- **Reading stops at the first unit that is unpaired.** -/
theorem decodeUnits_error {us : List Nat} {i : Nat} (h : FirstUnpaired us i) (index : Nat) :
    ∃ defect, decodeUnitsFrom index us = .error ⟨index + i, defect⟩ := by
  induction index, us using decodeUnitsFrom.induct generalizing i with
  | case1 index => exact absurd h.1 (not_unpaired_nil i)
  | case2 index u rest hlow =>
    obtain rfl : i = 0 := by
      by_contra hi
      exact h.2 0 (by omega) (.inr ⟨u, rfl, hlow, fun j v hj => by omega⟩)
    refine ⟨.strayLow, ?_⟩
    rw [decodeUnitsFrom.eq_def]
    simp only [hlow, ↓reduceIte, Nat.add_zero]
  | case3 index u hlow hhigh =>
    obtain rfl : i = 0 := by
      by_contra hi
      exact h.2 0 (by omega) (.inl ⟨u, rfl, hhigh, fun v hv => by simp at hv⟩)
    exact ⟨.cutPair, by rw [decodeUnitsFrom, if_neg hlow, if_pos hhigh]; rfl⟩
  | case4 index u hlow hhigh v more hv ih =>
    obtain ⟨i, rfl⟩ : ∃ k, i = k + 2 := by
      by_contra hi
      exact not_unpaired_pair hhigh hv more
        (Nat.lt_of_not_le fun h => hi ⟨i - 2, by omega⟩) h.1
    have hmore : FirstUnpaired more i :=
      ⟨(unpaired_pair hv more i).1 h.1,
        fun j hj hun => h.2 (j + 2) (by omega) ((unpaired_pair hv more j).2 hun)⟩
    obtain ⟨defect, hstop⟩ := ih hmore
    refine ⟨defect, ?_⟩
    rw [decodeUnitsFrom, if_neg hlow, if_pos hhigh]
    simp only [hv, ↓reduceIte, hstop]
    rw [show index + 2 + i = index + (i + 2) by omega]
    rfl
  | case5 index u hlow hhigh v more hv =>
    obtain rfl : i = 0 := by
      by_contra hi
      exact h.2 0 (by omega) (.inl ⟨u, rfl, hhigh, fun w hw => by simp_all⟩)
    refine ⟨.brokenPair, ?_⟩
    rw [decodeUnitsFrom, if_neg hlow, if_pos hhigh]
    simp only [hv]
    rfl
  | case6 index u rest hlow hhigh ih =>
    have hlow : isLow u = false := by simpa using hlow
    have hhigh : isHigh u = false := by simpa using hhigh
    obtain ⟨i, rfl⟩ : ∃ k, i = k + 1 := by
      cases i with
      | zero => exact absurd h.1 (not_unpaired_plain hhigh hlow rest)
      | succ k => exact ⟨k, rfl⟩
    have hrest : FirstUnpaired rest i :=
      ⟨(unpaired_cons hhigh rest i).1 h.1,
        fun j hj hun => h.2 (j + 1) (by omega) ((unpaired_cons hhigh rest j).2 hun)⟩
    obtain ⟨defect, hstop⟩ := ih hrest
    refine ⟨defect, ?_⟩
    rw [decodeUnitsFrom_plain hhigh hlow, hstop, show index + 1 + i = index + (i + 1) by omega]
    rfl

theorem utf16_lt {n : Nat} (hn : n < 0x110000) : ∀ u ∈ utf16 n, u < 0x10000 := by
  intro u hu
  unfold utf16 at hu
  split at hu
  · rwa [List.mem_singleton.1 hu]
  · rcases List.mem_pair.1 hu with hu | hu <;> omega

end CodePoint

namespace Literal

open CodePoint

/-! ## Elements -/

/-- The value of a hexadecimal digit, of either case. -/
def digit? (c : Char) : Option Nat :=
  ("0123456789abcdefABCDEF".toList.idxOf? c).map fun i => if i < 16 then i else i - 6

/-- The number that hexadecimal digits write. -/
def value (digits : List Char) : Nat := digits.foldl (fun n c => 16 * n + (digit? c).getD 0) 0

/-- What ends a line. -/
inductive LineBreak where
  | lf
  | cr
  | crlf
  | ls
  | ps
  deriving DecidableEq

/-- The characters of a line break. -/
def LineBreak.text : LineBreak → List Char
  | lf => ['\n']
  | cr => ['\r']
  | crlf => ['\r', '\n']
  | ls => ['\u2028']
  | ps => ['\u2029']

/-- An element of a body. -/
inductive Element where
  /-- A character that stands for itself. -/
  | plain (c : Char)
  /-- A line break that is read as a line feed. -/
  | newline (b : LineBreak)
  /-- A backslash and one character. -/
  | single (c : Char)
  /-- A backslash and a zero. -/
  | zero
  /-- A code unit by two digits. -/
  | hex (a b : Char)
  /-- A code unit by four digits. -/
  | unicode (a b c d : Char)
  /-- A code point by digits in braces. -/
  | braced (digits : List Char)
  /-- A line break that is skipped. -/
  | continuation (b : LineBreak)
  deriving DecidableEq

namespace Element

/-- How an element is written. -/
def text : Element → List Char
  | plain c => [c]
  | newline b => b.text
  | single c => ['\\', c]
  | zero => ['\\', '0']
  | hex a b => ['\\', 'x', a, b]
  | unicode a b c d => ['\\', 'u', a, b, c, d]
  | braced digits => '\\' :: 'u' :: '\x7b' :: (digits ++ ['\x7d'])
  | continuation b => '\\' :: b.text

/-- The code units that an element stands for. -/
def units : Element → List Nat
  | plain c => utf16 c.toNat
  | newline _ => [10]
  | single 'b' => [8]
  | single 't' => [9]
  | single 'n' => [10]
  | single 'v' => [11]
  | single 'f' => [12]
  | single 'r' => [13]
  | single c => utf16 c.toNat
  | zero => [0]
  | hex a b => [value [a, b]]
  | unicode a b c d => [value [a, b, c, d]]
  | braced digits => utf16 (value digits)
  | continuation _ => []

/-- Whether an element may stand in a literal between such delimiters. Between quotes no line ends;
between backticks a carriage return, with a line feed or without, is read as a line feed. A single
escaped character is no digit, opens no longer escape and ends no line. -/
def Legal (d : Delimiter) : Element → Prop
  | plain c => c ≠ '\\' ∧ c ≠ '\r' ∧ (d = .quote → c ≠ '\n')
  | newline b => d = .backtick ∧ (b = .cr ∨ b = .crlf)
  | single c => c.isDigit = false ∧ c ∉ ['x', 'u', '\n', '\r', '\u2028', '\u2029']
  | zero => True
  | hex a b => ∀ c ∈ [a, b], (digit? c).isSome
  | unicode a b c d => ∀ x ∈ [a, b, c, d], (digit? x).isSome
  | braced digits => digits ≠ [] ∧ (∀ c ∈ digits, (digit? c).isSome) ∧ value digits ≤ 0x10FFFF
  | continuation _ => True

instance (d : Delimiter) (e : Element) : Decidable (e.Legal d) :=
  match e with
  | plain _ => inferInstanceAs (Decidable (_ ∧ _ ∧ _))
  | newline _ => inferInstanceAs (Decidable (_ ∧ (_ ∨ _)))
  | single _ => inferInstanceAs (Decidable (_ ∧ _))
  | zero => inferInstanceAs (Decidable True)
  | hex a b => List.decidableBAll _ [a, b]
  | unicode a b c d => List.decidableBAll _ [a, b, c, d]
  | braced digits =>
    have : Decidable (∀ c ∈ digits, (digit? c).isSome) := List.decidableBAll _ digits
    inferInstanceAs (Decidable (_ ∧ _ ∧ _))
  | continuation _ => inferInstanceAs (Decidable True)

/-- Whether an element ends before such characters: a zero that a digit follows is none, and a
carriage return that a line feed follows is one line break with it. -/
def Before (rest : List Char) : Element → Prop
  | zero => ∀ c, rest.head? = some c → c.isDigit = false
  | newline .cr => rest.head? ≠ some '\n'
  | continuation .cr => rest.head? ≠ some '\n'
  | _ => True

end Element

/-- **The elements of a body**, read from left to right. -/
inductive Reading (d : Delimiter) : List Char → List Element → Prop
  | nil : Reading d [] []
  | cons {e rest es} (legal : e.Legal d) (before : e.Before rest) (h : Reading d rest es) :
      Reading d (e.text ++ rest) (e :: es)

/-! ## Digits -/

theorem hexValue?_eq (c : Char) : Bytes.hexValue? c = digit? c := by
  by_cases hc : c.toNat < 128
  · have h : ∀ n < 128, Bytes.hexValue? (Char.ofNat n) = digit? (Char.ofNat n) := by decide +kernel
    have := h c.toNat hc
    rwa [Char.ofNat_toNat] at this
  · have hout : ∀ d : Char, d.toNat < 128 → ¬ c ≤ d := by
      intro d hd hle
      rw [Char.le_def, UInt32.le_iff_toNat_le] at hle
      exact hc (Nat.lt_of_le_of_lt hle hd)
    have hnone : "0123456789abcdefABCDEF".toList.idxOf? c = none := by
      refine List.idxOf?_eq_none_iff.2 fun hmem => hc ?_
      have hall : "0123456789abcdefABCDEF".toList.all (·.toNat < 128) := by decide
      exact of_decide_eq_true (List.all_eq_true.1 hall c hmem)
    rw [digit?, hnone, Bytes.hexValue?, if_neg fun h => hout _ (by decide) h.2,
      if_neg fun h => hout _ (by decide) h.2, if_neg fun h => hout _ (by decide) h.2]
    rfl

theorem isHex_eq (c : Char) : isHex c = (digit? c).isSome := by
  rw [isHex, hexValue?_eq]

theorem hexNumber_eq (digits : List Char) : Bytes.hexNumber digits = value digits := by
  rw [Bytes.hexNumber, value]
  congr 1
  funext n c
  rw [hexValue?_eq, Nat.mul_comm]

theorem digit_lt (c : Char) : (digit? c).getD 0 < 16 := by
  cases h : "0123456789abcdefABCDEF".toList.idxOf? c with
  | none =>
    rw [digit?, h]
    decide
  | some i =>
    have hi : i < "0123456789abcdefABCDEF".toList.length := by
      rw [List.idxOf?_eq_some_iff] at h
      exact h.1
    have hlen : "0123456789abcdefABCDEF".toList.length = 22 := by decide
    rw [digit?, h]
    simp only [Option.map_some, Option.getD_some]
    split <;> omega

theorem numbered_eq {digits : List Char} (h : value digits < 0x110000) (width : Nat) :
    Escape.numbered digits width = ⟨.ok [⟨value digits, h⟩], width⟩ := by
  rw [Escape.numbered, hexNumber_eq, codePoint, dif_pos h]
  rfl

/-! ## Line breaks of a template -/

theorem unifyLineBreaks_cons {c : Char} (hc : c ≠ '\r') (rest : List Char) :
    unifyLineBreaks (c :: rest) = c :: unifyLineBreaks rest := by
  rw [unifyLineBreaks.eq_def]
  split
  · rename_i heq
    cases heq
  · rename_i heq
    exact absurd (List.cons.inj heq).1 hc
  · rename_i heq
    obtain ⟨rfl, rfl⟩ := List.cons.inj heq
    rw [if_neg hc]

theorem unifyLineBreaks_cr {rest : List Char} (h : rest.head? ≠ some '\n') :
    unifyLineBreaks ('\r' :: rest) = '\n' :: unifyLineBreaks rest := by
  rw [unifyLineBreaks.eq_def]
  split
  · rename_i heq
    cases heq
  · rename_i heq
    rw [(List.cons.inj heq).2] at h
    exact absurd rfl h
  · rename_i heq
    obtain ⟨rfl, rfl⟩ := List.cons.inj heq
    rw [if_pos rfl]

theorem unifyLineBreaks_append {cs : List Char} (h : '\r' ∉ cs) (rest : List Char) :
    unifyLineBreaks (cs ++ rest) = cs ++ unifyLineBreaks rest := by
  induction cs with
  | nil => rfl
  | cons c cs ih =>
    rw [List.mem_cons, not_or] at h
    rw [List.cons_append, unifyLineBreaks_cons (Ne.symm h.1), ih h.2, List.cons_append]

theorem ne_cr_of_digit {c : Char} (h : (digit? c).isSome) : c ≠ '\r' := by
  rintro rfl
  revert h
  decide

/-- How an element stands in the body that is cooked. -/
def Element.cooked (d : Delimiter) : Element → List Char
  | newline _ => ['\n']
  | continuation b => '\\' :: match d, b with
    | .backtick, .cr => ['\n']
    | .backtick, .crlf => ['\n']
    | _, b => b.text
  | e => e.text

/-- The body that is cooked. -/
def prepared (d : Delimiter) (body : List Char) : List Char :=
  match d with
  | .quote => body
  | .backtick => unifyLineBreaks body

/-- **Elements are kept apart** when the line breaks of a template are unified. -/
theorem prepared_append {d : Delimiter} {e : Element} {rest : List Char} (legal : e.Legal d)
    (before : e.Before rest) : prepared d (e.text ++ rest) = e.cooked d ++ prepared d rest := by
  cases d with
  | quote =>
    cases e with
    | newline b => exact absurd legal.1 (by decide)
    | _ => rfl
  | backtick =>
    -- only line breaks have carriage returns
    have hplain : ∀ {e : Element}, e.cooked .backtick = e.text → '\r' ∉ e.text →
        prepared .backtick (e.text ++ rest) = e.cooked .backtick ++ prepared .backtick rest := by
      intro e hsame hno
      rw [hsame]
      exact unifyLineBreaks_append hno rest
    cases e with
    | plain c => exact hplain rfl (by simpa [Element.text] using Ne.symm legal.2.1)
    | newline b =>
      rcases legal.2 with rfl | rfl
      · exact unifyLineBreaks_cr before
      · rfl
    | single c =>
      refine hplain rfl ?_
      have := legal.2
      simp only [Element.text, List.mem_cons] at this ⊢
      grind
    | zero => exact hplain rfl (by decide)
    | hex a b =>
      have ha := ne_cr_of_digit (legal a (by simp))
      have hb := ne_cr_of_digit (legal b (by simp))
      exact hplain rfl (by simp [Element.text, ha.symm, hb.symm])
    | unicode a b c d =>
      have hne : ∀ x ∈ [a, b, c, d], '\r' ≠ x := fun x hx => (ne_cr_of_digit (legal x hx)).symm
      refine hplain rfl ?_
      simp only [Element.text, List.mem_cons] at hne ⊢
      grind
    | braced digits =>
      have hne : ∀ x ∈ digits, '\r' ≠ x := fun x hx => (ne_cr_of_digit (legal.2.1 x hx)).symm
      refine hplain rfl ?_
      simp only [Element.text, List.mem_cons, List.mem_append] at hne ⊢
      grind
    | continuation b =>
      rw [Element.text, List.cons_append]
      refine (unifyLineBreaks_cons (by decide) _).trans (congrArg ('\\' :: ·) ?_)
      cases b with
      | cr => exact unifyLineBreaks_cr before
      | crlf => rfl
      | lf => exact unifyLineBreaks_append (by decide) rest
      | ls => exact unifyLineBreaks_append (by decide) rest
      | ps => exact unifyLineBreaks_append (by decide) rest

/-! ## Elements in turn -/

theorem cookFrom_skip (cs rest : List Char) :
    cookFrom cs.length (cs ++ rest) = cookFrom 0 rest := by
  induction cs with
  | nil => rfl
  | cons c cs ih => rw [List.cons_append, List.length_cons, cookFrom, ih]

/-- What follows a backslash is cooked as the one escape that it starts with. -/
theorem cookFrom_escape (cs : List Char) {rest : List Char} {ps : List CodePoint}
    (h : escapeAt (cs ++ rest) = some ⟨.ok ps, cs.length⟩) :
    cookFrom 0 ('\\' :: (cs ++ rest)) = (ps ++ ·) <$> cookFrom 0 rest := by
  rw [cookFrom, if_pos rfl, h]
  simp only [cookFrom_skip]
  rfl

theorem escapeAt_char {c : Char} (hu : c ≠ 'u') (hx : c ≠ 'x') (hr : c ≠ '\r') (rest : List Char) :
    escapeAt (c :: rest) = some ⟨.ok (single c), 1⟩ := by
  unfold escapeAt
  split
  · rename_i heq
    cases heq
  · exact absurd (List.cons.inj ‹c :: rest = _›).1 hu
  · exact absurd (List.cons.inj ‹c :: rest = _›).1 hx
  · exact absurd (List.cons.inj ‹c :: rest = _›).1 hr
  · rename_i heq
    rw [(List.cons.inj heq).1]
    rfl

theorem escapeAt_cr {rest : List Char} (h : rest.head? ≠ some '\n') :
    escapeAt ('\r' :: rest) = some ⟨.ok [], 1⟩ := by
  cases rest with
  | nil => rfl
  | cons c rest =>
    have hc : c ≠ '\n' := fun heq => h (by rw [heq]; rfl)
    unfold escapeAt
    split
    · rename_i heq
      cases heq
    · rename_i heq
      cases heq
    · rename_i heq
      cases heq
    · rename_i heq
      exact absurd (List.cons.inj (List.cons.inj heq).2).1 hc
    · rename_i heq
      rw [← (List.cons.inj heq).1]
      rfl

theorem units_single {d : Delimiter} {c : Char} (h : (Element.single c).Legal d) :
    (single c).flatMap CodePoint.units = (Element.single c).units := by
  obtain ⟨hdigit, hc⟩ := h
  by_cases hletter : c ∈ ['b', 't', 'n', 'v', 'f', 'r']
  · simp only [List.mem_cons, List.not_mem_nil, or_false] at hletter
    rcases hletter with rfl | rfl | rfl | rfl | rfl | rfl <;> rfl
  · simp only [List.mem_cons, List.not_mem_nil, or_false, not_or] at hletter hc
    have hself : single c = [ofChar c] := by
      unfold single
      split <;> simp_all
    have hunits : (Element.single c).units = utf16 c.toNat := by
      unfold Element.units
      split <;> simp_all
    rw [hself, hunits, List.flatMap_singleton]
    rfl

/-- An escape that names a code point is cooked to that code point's units. -/
theorem cookFrom_numbered (cs : List Char) {digits tail : List Char} (hlt : value digits < 0x110000)
    (h : escapeAt (cs ++ tail) = some (.numbered digits cs.length)) :
    ∃ ps, cookFrom 0 ('\\' :: (cs ++ tail)) = (ps ++ ·) <$> cookFrom 0 tail ∧
      ps.flatMap CodePoint.units = utf16 (value digits) := by
  rw [numbered_eq hlt] at h
  refine ⟨_, cookFrom_escape cs h, ?_⟩
  rw [List.flatMap_singleton]
  rfl

theorem escapeAt_hex {a b : Char} (h : ∀ c ∈ [a, b], (digit? c).isSome) (tail : List Char) :
    escapeAt ('x' :: a :: b :: tail) = some (.numbered [a, b] 3) := by
  have hhex : (isHex a && isHex b) = true := by
    rw [isHex_eq, isHex_eq, h a (by simp), h b (by simp)]
    rfl
  change some (hexEscape (a :: b :: tail)) = _
  rw [hexEscape, if_pos hhex]

theorem escapeAt_unicode {a b c d : Char} (h : ∀ x ∈ [a, b, c, d], (digit? x).isSome)
    (tail : List Char) :
    escapeAt ('u' :: a :: b :: c :: d :: tail) = some (.numbered [a, b, c, d] 5) := by
  have hhex : (isHex a && isHex b && isHex c && isHex d) = true := by
    rw [isHex_eq, isHex_eq, isHex_eq, isHex_eq, h a (by simp), h b (by simp), h c (by simp),
      h d (by simp)]
    rfl
  have hbrace : a ≠ '\x7b' := by
    rintro rfl
    have := h '\x7b' (by simp)
    revert this
    decide
  change some (unicodeEscape (a :: b :: c :: d :: tail)) = _
  rw [unicodeEscape.eq_def]
  split
  · exact absurd (List.cons.inj ‹a :: b :: c :: d :: tail = _›).1 hbrace
  · rename_i heq
    simp only [List.cons.injEq] at heq
    obtain ⟨rfl, rfl, rfl, rfl, rfl⟩ := heq
    rw [if_pos hhex]
  · rename_i hno
    exact absurd rfl (hno a b c d tail)

theorem escapeAt_braced {digits : List Char} (hne : digits ≠ [])
    (h : ∀ c ∈ digits, (digit? c).isSome) (tail : List Char) :
    escapeAt ('u' :: '\x7b' :: (digits ++ '\x7d' :: tail))
      = some (.numbered digits (digits.length + 3)) := by
  have hhex : ∀ c ∈ digits, isHex c = true := fun c hc => by rw [isHex_eq, h c hc]
  have hstop : isHex '\x7d' = false := by decide
  have htake : (digits ++ '\x7d' :: tail).takeWhile isHex = digits := by
    rw [List.takeWhile_append_of_pos hhex, List.takeWhile_cons_of_neg (by simp [hstop]),
      List.append_nil]
  have hdrop : (digits ++ '\x7d' :: tail).dropWhile isHex = '\x7d' :: tail := by
    rw [List.dropWhile_append_of_pos hhex, List.dropWhile_cons_of_neg (by simp [hstop])]
  change some (unicodeEscape ('\x7b' :: (digits ++ '\x7d' :: tail))) = _
  rw [unicodeEscape]
  simp only [htake, hdrop]
  cases digits with
  | nil => exact absurd rfl hne
  | cons c digits => rfl

theorem utf16_of_lt {n : Nat} (h : n < 0x10000) : utf16 n = [n] := if_pos h

/-- **One element is cooked to its code units**, whatever follows it. -/
theorem cookFrom_element {d : Delimiter} {e : Element} {rest : List Char} (legal : e.Legal d)
    (before : e.Before rest) :
    ∃ ps, cookFrom 0 (e.cooked d ++ prepared d rest) = (ps ++ ·) <$> cookFrom 0 (prepared d rest) ∧
      ps.flatMap CodePoint.units = e.units := by
  generalize hrest : prepared d rest = tail
  cases e with
  | plain c =>
    refine ⟨[ofChar c], ?_, by rw [List.flatMap_singleton]; rfl⟩
    change cookFrom 0 (c :: tail) = _
    rw [cookFrom, if_neg legal.1]
    rfl
  | newline b => exact ⟨[10], rfl, rfl⟩
  | single c =>
    refine ⟨single c, cookFrom_escape [c] ?_, units_single legal⟩
    have := legal.2
    exact escapeAt_char (by grind) (by grind) (by grind) tail
  | zero => exact ⟨[0], cookFrom_escape ['0'] rfl, rfl⟩
  | hex a b =>
    have hlt : value [a, b] < 0x100 := by
      have := digit_lt a
      have := digit_lt b
      simp only [value, List.foldl]
      omega
    obtain ⟨ps, hcook, hunits⟩ := cookFrom_numbered ['x', a, b] (by omega)
      (escapeAt_hex legal tail)
    exact ⟨ps, hcook, by rw [hunits, utf16_of_lt (by omega)]; rfl⟩
  | unicode a b c d =>
    have hlt : value [a, b, c, d] < 0x10000 := by
      have := digit_lt a
      have := digit_lt b
      have := digit_lt c
      have := digit_lt d
      simp only [value, List.foldl]
      omega
    obtain ⟨ps, hcook, hunits⟩ := cookFrom_numbered ['u', a, b, c, d] (by omega)
      (escapeAt_unicode legal tail)
    exact ⟨ps, hcook, by rw [hunits, utf16_of_lt hlt]; rfl⟩
  | braced digits =>
    obtain ⟨hne, hdigits, hlt⟩ := legal
    refine cookFrom_numbered ('u' :: '\x7b' :: (digits ++ ['\x7d'])) (by omega) ?_
    have := escapeAt_braced hne hdigits tail
    simpa using this
  | continuation b =>
    refine ⟨[], ?_, rfl⟩
    cases d with
    | backtick => cases b <;> exact cookFrom_escape _ rfl
    | quote =>
      cases b with
      | cr => exact cookFrom_escape ['\r'] (escapeAt_cr (hrest ▸ before))
      | _ => exact cookFrom_escape _ rfl

/-- **A body is cooked to the code units of its elements.** -/
theorem cook_reading {d : Delimiter} {body : List Char} {es : List Element}
    (h : Reading d body es) : ∃ ps, cook (prepared d body) = .ok ps ∧
      ps.flatMap CodePoint.units = es.flatMap Element.units := by
  induction h with
  | nil => exact ⟨[], by cases d <;> rfl, rfl⟩
  | @cons e rest es legal before _ ih =>
    obtain ⟨ps, hrest, hunits⟩ := ih
    obtain ⟨qs, hcook, hfirst⟩ := cookFrom_element legal before
    rw [cook] at hrest ⊢
    refine ⟨qs ++ ps, ?_, ?_⟩
    · rw [prepared_append legal before, hcook, hrest]
      rfl
    · rw [List.flatMap_append, hfirst, hunits, List.flatMap_cons]

theorem decode_eq (d : Delimiter) (body : String) :
    decode d body = (cook (prepared d body.toList) >>= fun ps => (join ps).mapError .unpaired) := by
  cases d <;> rfl

/-- **The text of a literal is the one its grammar gives.** Let a body be a sequence of elements
that strict mode allows. If every surrogate half among the elements' code units has its other half, the
body has a text, and these are its code units. Otherwise the body has none, and the fault is at the
first half that stands alone. -/
theorem decode_reading {d : Delimiter} {body : String} {es : List Element}
    (h : Reading d body.toList es) :
    ((∀ i, ¬ Unpaired (es.flatMap Element.units) i) →
      ∃ text, decode d body = .ok text ∧
        (ofString text).flatMap CodePoint.units = es.flatMap Element.units) ∧
    ∀ i, (∃ defect, decode d body = .error (.unpaired ⟨i, defect⟩)) ↔
      FirstUnpaired (es.flatMap Element.units) i := by
  obtain ⟨ps, hcook, hunits⟩ := cook_reading h
  have hlt : ∀ u ∈ es.flatMap Element.units, u < 0x10000 := by
    rw [← hunits]
    intro u hu
    obtain ⟨p, -, hp⟩ := List.mem_flatMap.1 hu
    exact utf16_lt p.isLt u hp
  have hdecode : decode d body
      = ((String.ofList <$> decodeUnitsFrom 0 (es.flatMap Element.units)).mapError .unpaired) := by
    rw [decode_eq, hcook, ← hunits]
    rfl
  have hok : (∀ i, ¬ Unpaired (es.flatMap Element.units) i) →
      ∃ text, decode d body = .ok text ∧
        (ofString text).flatMap CodePoint.units = es.flatMap Element.units := by
    intro hpaired
    obtain ⟨cs, hcs, hback⟩ := decodeUnits_ok hlt hpaired 0
    refine ⟨String.ofList cs, by rw [hdecode, hcs]; rfl, ?_⟩
    rw [ofString, String.toList_ofList, hback]
  have hstop : ∀ i, FirstUnpaired (es.flatMap Element.units) i →
      ∃ defect, decode d body = .error (.unpaired ⟨i, defect⟩) := by
    intro i hfirst
    obtain ⟨defect, hstop⟩ := decodeUnits_error hfirst 0
    refine ⟨defect, ?_⟩
    rw [hdecode, hstop, Nat.zero_add]
    rfl
  refine ⟨hok, fun i => ⟨?_, hstop i⟩⟩
  rintro ⟨defect, hfault⟩
  have hun : ∃ j, Unpaired (es.flatMap Element.units) j := by
    by_contra hnone
    obtain ⟨text, htext, -⟩ := hok (not_exists.1 hnone)
    rw [htext] at hfault
    cases hfault
  obtain ⟨j, hfirst⟩ := exists_firstUnpaired hun
  obtain ⟨defect', hfault'⟩ := hstop j hfirst
  rw [hfault'] at hfault
  cases hfault
  exact hfirst

/-! ### A character in two halves -/

namespace Sample

def body : String := "\uFEFF\\uD83D\\u\x7bDE00\x7d\r\n"

def elements : List Element :=
  [.plain '\uFEFF', .unicode 'D' '8' '3' 'D', .braced ['D', 'E', '0', '0'], .newline .crlf]

theorem reading : Reading .backtick body.toList elements :=
  .cons (e := .plain '\uFEFF') (by decide) trivial
    (.cons (e := .unicode 'D' '8' '3' 'D') (by decide) trivial
      (.cons (e := .braced ['D', 'E', '0', '0']) (by decide) trivial
        (.cons (e := .newline .crlf) (by decide) trivial .nil)))

theorem paired (i : Nat) : ¬ Unpaired [0xFEFF, 0xD83D, 0xDE00, 10] i := by
  cases i with
  | zero => exact not_unpaired_plain (by decide) (by decide) _
  | succ i =>
    rw [unpaired_cons (by decide)]
    rcases Nat.lt_or_ge i 2 with hi | hi
    · exact not_unpaired_pair (by decide) (by decide) _ hi
    · obtain ⟨k, rfl⟩ := Nat.exists_eq_add_of_le' hi
      rw [unpaired_pair (by decide)]
      cases k with
      | zero => exact not_unpaired_plain (by decide) (by decide) _
      | succ k =>
        rw [unpaired_cons (by decide)]
        exact not_unpaired_nil k

end Sample

/-- A template that opens with a byte-order mark and writes the two halves of one character in two
ways, before a line break. -/
theorem decode_reading_halves : ∃ text, decode .backtick Sample.body = .ok text ∧
    (ofString text).flatMap CodePoint.units = [0xFEFF, 0xD83D, 0xDE00, 10] := by
  have hunits : Sample.elements.flatMap Element.units = [0xFEFF, 0xD83D, 0xDE00, 10] := by
    decide
  have htext := (decode_reading Sample.reading).1
  rw [hunits] at htext
  exact htext Sample.paired

end Literal

end AssetLift
