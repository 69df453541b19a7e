import AssetLift.Literal
import AssetLift.Proofs.Activity
import AssetLift.Target
import AssetLift.Text.Utf8

/-!
# Texts and their bytes

A sequence of code points has bytes unless it holds half of a surrogate pair (`Utf8.encode_eq_ok`).
A text of characters holds none, so its bytes can always be written (`Utf8.encode_ofString`), and it
is read back from them (`Utf8.decode_ofString`). The same holds for the string literal that a text
is written as (`Literal.read_quoted`).
-/

namespace AssetLift

namespace CodePoint

/-! ## Code points -/

theorem isHalf_ofChar (c : Char) : (ofChar c).isHalf = false := by
  have h := c.valid
  simp only [UInt32.isValidChar, Nat.isValidChar] at h
  have hval : (ofChar c).val = c.val.toNat := rfl
  simp only [isHalf, isHigh, isLow, hval, Bool.or_eq_false_iff, Bool.and_eq_false_iff,
    decide_eq_false_iff_not]
  omega

theorem ofChar_injective : Function.Injective ofChar := fun _ _ h =>
  Char.toNat_inj.1 (Fin.mk.inj_iff.1 h)

theorem ofString_injective : Function.Injective ofString := fun _ _ h =>
  String.toList_injective (List.map_injective_iff.2 ofChar_injective h)

@[simp] theorem ofString_inj {s t : String} : ofString s = ofString t ↔ s = t :=
  ofString_injective.eq_iff

@[simp] theorem ofString_empty : ofString "" = [] := rfl

@[simp] theorem ofString_ofList (cs : List Char) : ofString (String.ofList cs) = cs.map ofChar := by
  rw [ofString, String.toList_ofList]

@[simp] theorem ofString_append (s t : String) : ofString (s ++ t) = ofString s ++ ofString t := by
  simp [ofString]

theorem toNat_ofNat {u : Nat} (hhigh : isHigh u = false) (hlow : isLow u = false)
    (hu : u < 0x110000) : (Char.ofNat u).toNat = u := by
  have hvalid : u.isValidChar := by
    simp only [isHigh, isLow, Bool.and_eq_false_iff, decide_eq_false_iff_not] at hhigh hlow
    unfold Nat.isValidChar
    omega
  rw [Char.ofNat, dif_pos hvalid]
  rfl

theorem ofChar_mem_ofString {c : Char} {s : String} : ofChar c ∈ ofString s ↔ c ∈ s.toList :=
  List.mem_map_of_injective ofChar_injective

/-- A code point that is no half of a surrogate pair is a character. -/
theorem exists_ofChar {p : CodePoint} (h : p.isHalf = false) : ∃ c, p = ofChar c := by
  rw [isHalf, Bool.or_eq_false_iff] at h
  exact ⟨Char.ofNat p.val, Fin.ext (toNat_ofNat h.1 h.2 p.isLt).symm⟩

/-- A text of characters is shown as it is. -/
theorem shown_ofString (s : String) : shown (ofString s) = s := by
  have hchar : ∀ c : Char, (toChar? (ofChar c)).getD replacement = c := fun c => by
    rw [toChar?, isHalf_ofChar, if_neg Bool.false_ne_true]
    exact Char.ofNat_toNat c
  rw [shown, chars, ofString, List.map_map]
  exact (congrArg String.ofList ((List.map_congr_left fun c _ => hchar c).trans
    (List.map_id s.toList))).trans String.ofList_toList

/-- A character is read back from its code units. -/
theorem decodeUnitsFrom_char (index : Nat) (c : Char) (rest : List Nat) :
    ∃ next, decodeUnitsFrom index (units (ofChar c) ++ rest)
      = (c :: ·) <$> decodeUnitsFrom next rest := by
  have hhalf := isHalf_ofChar c
  have hval : (ofChar c).val = c.val.toNat := rfl
  have hc : Char.ofNat c.val.toNat = c := Char.ofNat_toNat c
  have hlt := (ofChar c).isLt
  simp only [isHalf, Bool.or_eq_false_iff] at hhalf
  rw [hval] at hhalf hlt
  unfold units
  rw [hval]
  generalize c.val.toNat = v at hhalf hc hlt
  split
  · refine ⟨index + 1, ?_⟩
    rw [List.singleton_append, decodeUnitsFrom.eq_def]
    simp only [hhalf, Bool.false_eq_true, ↓reduceIte, hc]
  · have hhigh : isHigh (0xD800 + (v - 0x10000) / 0x400) = true := by
      simp only [isHigh, Bool.and_eq_true, decide_eq_true_eq]; omega
    have hnot : isLow (0xD800 + (v - 0x10000) / 0x400) = false := by
      simp only [isLow, Bool.and_eq_false_iff, decide_eq_false_iff_not]; omega
    have hlow : isLow (0xDC00 + (v - 0x10000) % 0x400) = true := by
      simp only [isLow, Bool.and_eq_true, decide_eq_true_eq]; omega
    refine ⟨index + 2, ?_⟩
    rw [List.cons_append, List.singleton_append, decodeUnitsFrom.eq_def]
    simp only [hnot, hhigh, hlow, Bool.false_eq_true, ↓reduceIte, pair]
    rw [show 0x10000 + (0xD800 + (v - 0x10000) / 0x400 - 0xD800) * 0x400
      + (0xDC00 + (v - 0x10000) % 0x400 - 0xDC00) = v by omega, hc]

/-- **A text is read back from its code points.** -/
theorem join_ofString (s : String) : join (ofString s) = .ok s := by
  have h : ∀ (cs : List Char) (index : Nat),
      decodeUnitsFrom index ((cs.map ofChar).flatMap units) = .ok cs := by
    intro cs
    induction cs with
    | nil => intro index; rw [List.map_nil, List.flatMap_nil, decodeUnitsFrom]
    | cons c cs ih =>
      intro index
      obtain ⟨next, hnext⟩ := decodeUnitsFrom_char index c ((cs.map ofChar).flatMap units)
      rw [List.map_cons, List.flatMap_cons, hnext, ih]
      rfl
  rw [join, decodeUnits, ofString, h]
  exact congrArg Except.ok String.ofList_toList

end CodePoint

namespace Utf8

/-! ## Writing -/

/-- No code point of the text is half of a surrogate pair. -/
def Encodable (ps : List CodePoint) : Prop := ∀ p ∈ ps, p.isHalf = false

instance (ps : List CodePoint) : Decidable (Encodable ps) :=
  inferInstanceAs (Decidable (∀ p ∈ ps, p.isHalf = false))

/-- The bytes of a text, code point by code point. -/
def written (ps : List CodePoint) : Bytes :=
  ps.flatMap fun p => String.utf8EncodeChar (Char.ofNat p.val)

theorem encodeFrom_eq_ok {position : Nat} {ps : List CodePoint} {b : Bytes} :
    encodeFrom position ps = .ok b ↔ Encodable ps ∧ b = written ps := by
  induction ps generalizing position b with
  | nil =>
    simp only [encodeFrom, Except.ok.injEq, Encodable, List.not_mem_nil, false_implies,
      implies_true, true_and]
    exact eq_comm
  | cons p rest ih =>
    rw [encodeFrom]
    cases hp : p.isHalf with
    | true =>
      refine iff_of_false (by simp) fun h => ?_
      have := h.1 p List.mem_cons_self
      rw [hp] at this
      cases this
    | false =>
      have hrest : Encodable (p :: rest) ↔ Encodable rest := by simp [Encodable, hp]
      simp only [Bool.false_eq_true, ↓reduceIte, map_eq_ok, ih, hrest]
      constructor
      · rintro ⟨_, ⟨h, rfl⟩, rfl⟩
        exact ⟨h, rfl⟩
      · rintro ⟨h, rfl⟩
        exact ⟨_, ⟨h, rfl⟩, rfl⟩

/-- **A text has bytes exactly when it holds no half of a surrogate pair.** -/
theorem encode_eq_ok {ps : List CodePoint} {b : Bytes} :
    encode ps = .ok b ↔ Encodable ps ∧ b = written ps := encodeFrom_eq_ok

theorem Encodable.encode {ps : List CodePoint} (h : Encodable ps) :
    encode ps = .ok (written ps) := encode_eq_ok.2 ⟨h, rfl⟩

theorem encodable_ofString (s : String) : Encodable (CodePoint.ofString s) := by
  intro p hp
  obtain ⟨c, -, rfl⟩ := List.mem_map.1 hp
  exact CodePoint.isHalf_ofChar c

theorem written_ofString (s : String) : written (CodePoint.ofString s) = Bytes.ofString s := by
  rw [written, CodePoint.ofString, List.flatMap_map]
  exact congrArg (List.flatMap · s.toList) (funext fun c =>
    congrArg String.utf8EncodeChar (Char.ofNat_toNat c))

/-- A text that has bytes is one of characters. -/
theorem Encodable.exists_ofString {ps : Text} (h : Encodable ps) :
    ∃ s, ps = CodePoint.ofString s := by
  induction ps with
  | nil => exact ⟨"", rfl⟩
  | cons p ps ih =>
    obtain ⟨c, rfl⟩ := CodePoint.exists_ofChar (h p List.mem_cons_self)
    obtain ⟨s, rfl⟩ := ih fun q hq => h q (List.mem_cons_of_mem _ hq)
    exact ⟨String.ofList (c :: s.toList), by simp [CodePoint.ofString]⟩

theorem encodable_append {ps qs : Text} :
    Encodable (ps ++ qs) ↔ Encodable ps ∧ Encodable qs := List.forall_mem_append

/-- **Every text of characters has its bytes.** -/
theorem encode_ofString (s : String) :
    encode (CodePoint.ofString s) = .ok (Bytes.ofString s) :=
  written_ofString s ▸ (encodable_ofString s).encode

/-! ## Reading -/

theorem toNat_byte {k : Nat} (h : k < 256) : (UInt8.ofNat k).toNat = k := by
  rw [UInt8.toNat_ofNat', Nat.mod_eq_of_lt h]

theorem isContinuation_byte {k : Nat} (h₁ : 0x80 ≤ k) (h₂ : k ≤ 0xBF) :
    isContinuation (UInt8.ofNat k) = true := by
  simp only [isContinuation, Bool.and_eq_true, decide_eq_true_eq, UInt8.le_iff_toNat_le,
    toNat_byte (show k < 256 by omega)]
  exact ⟨h₁, h₂⟩

theorem payload_byte {k : Nat} (h : k < 0x40) : payload (UInt8.ofNat (k + 0x80)) = k := by
  rw [payload, toNat_byte (by omega)]
  omega

theorem secondFits_byte {lead k : Nat} (hlead : lead < 256) (h₁ : 0x80 ≤ k) (h₂ : k ≤ 0xBF)
    (hE0 : lead = 0xE0 → 0xA0 ≤ k) (hED : lead = 0xED → k < 0xA0) (hF0 : lead = 0xF0 → 0x90 ≤ k)
    (hF4 : lead = 0xF4 → k < 0x90) : secondFits (UInt8.ofNat lead) (UInt8.ofNat k) = true := by
  simp only [secondFits, isContinuation_byte h₁ h₂, Bool.true_and, ← UInt8.toNat_inj,
    toNat_byte hlead, UInt8.le_iff_toNat_le, UInt8.lt_iff_toNat_lt,
    toNat_byte (show k < 256 by omega), UInt8.reduceToNat]
  split
  · simpa using hE0 ‹_›
  split
  · simpa using hED ‹_›
  split
  · simpa using hF0 ‹_›
  split
  · simpa using hF4 ‹_›
  · rfl

theorem lead_byte {k : Nat} {lo hi : UInt8} (hk : k < 256) (h₁ : lo.toNat ≤ k) (h₂ : k ≤ hi.toNat) :
    (lo ≤ UInt8.ofNat k && UInt8.ofNat k ≤ hi) = true := by
  simp only [Bool.and_eq_true, decide_eq_true_eq, UInt8.le_iff_toNat_le, toNat_byte hk]
  exact ⟨h₁, h₂⟩

theorem not_lead_byte {k : Nat} {lo hi : UInt8} (hk : k < 256) (h : hi.toNat < k) :
    ¬ (lo ≤ UInt8.ofNat k && UInt8.ofNat k ≤ hi) = true := by
  simp only [Bool.and_eq_true, decide_eq_true_eq, UInt8.le_iff_toNat_le, toNat_byte hk]
  omega

/-- A character is read back from its bytes. -/
theorem decodeFrom_char (c : Char) (position : Nat) (rest : Bytes) :
    decodeFrom position (String.utf8EncodeChar c ++ rest)
      = (c :: ·) <$> decodeFrom (position + (String.utf8EncodeChar c).length) rest := by
  have hv := c.valid
  simp only [UInt32.isValidChar, Nat.isValidChar] at hv
  have hc : Char.ofNat c.val.toNat = c := Char.ofNat_toNat c
  have hlarge : ∀ k, 0x80 ≤ k → k < 256 → ¬ UInt8.ofNat k < 0x80 := by
    intro k h₁ h₂
    rw [UInt8.lt_iff_toNat_lt, toNat_byte h₂]
    simpa using h₁
  unfold String.utf8EncodeChar
  generalize c.val.toNat = v at hv hc
  dsimp only
  split
  · have h : UInt8.ofNat v < 0x80 := by
      rw [UInt8.lt_iff_toNat_lt, toNat_byte (by omega)]
      simpa using (by omega : v < 128)
    rw [List.singleton_append, decodeFrom.eq_def]
    dsimp only
    rw [if_pos h, toNat_byte (by omega), hc]
    rfl
  split
  · rw [List.cons_append, List.singleton_append, decodeFrom.eq_def]
    dsimp only
    rw [if_neg (hlarge _ (by omega) (by omega)),
      if_pos (lead_byte (by omega) (by simp only [UInt8.reduceToNat]; omega)
        (by simp only [UInt8.reduceToNat]; omega)),
      if_pos (isContinuation_byte (by omega) (by omega)), payload_byte (by omega),
      toNat_byte (by omega),
      show (v / 64 % 0x20 + 0xc0) % 0x20 * 0x40 + v % 0x40 = v by omega, hc]
    rfl
  split
  · rw [List.cons_append, List.cons_append, List.singleton_append, decodeFrom.eq_def]
    dsimp only
    rw [if_neg (hlarge _ (by omega) (by omega)),
      if_neg (not_lead_byte (by omega) (by simp only [UInt8.reduceToNat]; omega)),
      if_pos (lead_byte (by omega) (by simp only [UInt8.reduceToNat]; omega)
        (by simp only [UInt8.reduceToNat]; omega)),
      if_pos (secondFits_byte (by omega) (by omega) (by omega) (by omega) (by omega) (by omega)
        (by omega)),
      if_pos (isContinuation_byte (by omega) (by omega)), payload_byte (by omega),
      payload_byte (by omega), toNat_byte (by omega),
      show ((v / 4096 % 0x10 + 0xe0) % 0x10 * 0x40 + v / 64 % 0x40) * 0x40 + v % 0x40 = v by omega,
      hc]
    rfl
  · rw [List.cons_append, List.cons_append, List.cons_append, List.singleton_append, decodeFrom.eq_def]
    dsimp only
    rw [if_neg (hlarge _ (by omega) (by omega)),
      if_neg (not_lead_byte (by omega) (by simp only [UInt8.reduceToNat]; omega)),
      if_neg (not_lead_byte (by omega) (by simp only [UInt8.reduceToNat]; omega)),
      if_pos (lead_byte (by omega) (by simp only [UInt8.reduceToNat]; omega)
        (by simp only [UInt8.reduceToNat]; omega)),
      if_pos (secondFits_byte (by omega) (by omega) (by omega) (by omega) (by omega) (by omega)
        (by omega)),
      if_pos (isContinuation_byte (by omega) (by omega)),
      if_pos (isContinuation_byte (by omega) (by omega)), payload_byte (by omega),
      payload_byte (by omega), payload_byte (by omega), toNat_byte (by omega),
      show (((v / 262144 % 0x08 + 0xf0) % 8 * 0x40 + v / 4096 % 0x40) * 0x40 + v / 64 % 0x40) * 0x40
        + v % 0x40 = v by omega, hc]
    rfl

theorem decodeFrom_chars (position : Nat) (cs : List Char) :
    decodeFrom position (cs.flatMap String.utf8EncodeChar) = .ok cs := by
  induction cs generalizing position with
  | nil => rw [List.flatMap_nil, decodeFrom]
  | cons c cs ih => rw [List.flatMap_cons, decodeFrom_char, ih]; rfl

/-- **A text is read back from its bytes.** -/
theorem decode_ofString (s : String) : decode (Bytes.ofString s) = .ok s := by
  rw [decode, Bytes.ofString, decodeFrom_chars]
  exact congrArg Except.ok (String.ofList_toList)

end Utf8

/-! ## Literals -/

namespace Target

section
variable {α : Type} [DecidableEq α]

theorem replaceChars_single (p : α) (by_ cs : List α) :
    replaceChars [p] by_ 0 cs = cs.flatMap fun c => if c = p then by_ else [c] := by
  induction cs with
  | nil => rfl
  | cons c cs ih =>
    rw [replaceChars, List.flatMap_cons]
    by_cases h : c = p
    · subst h
      simp [ih]
    · simp [h, Ne.symm h, ih]

/-- How a character is written in a literal between quotes. -/
def escaped (slash quote c : α) : List α :=
  if c = slash then [slash, slash] else if c = quote then [slash, quote] else [c]

theorem escaped_cases (slash quote c : α) :
    escaped slash quote c = [slash, c] ∧ (c = slash ∨ c = quote) ∨
      escaped slash quote c = [c] ∧ c ≠ slash ∧ c ≠ quote := by
  unfold escaped
  by_cases hc : c = slash
  · simp [hc]
  by_cases hq : c = quote
  · subst hq
    simp [hc]
  · simp [hc, hq]

theorem map_escaped {β : Type} [DecidableEq β] {f : α → β} (hf : Function.Injective f)
    (slash quote c : α) :
    (escaped slash quote c).map f = escaped (f slash) (f quote) (f c) := by
  simp only [escaped, hf.eq_iff, apply_ite (List.map f), List.map_cons, List.map_nil]

end

theorem quote_ne_slash {q : Char} (hq : q = '\'' ∨ q = '"') : q ≠ '\\' := by
  rcases hq with rfl | rfl <;> decide

/-- A literal is its text between quotes, code point by code point. -/
theorem quoted_eq {q : Char} (hq : q ≠ '\\') (text : Text) :
    quoted (String.ofList [q]) text
      = [.ofChar q] ++ text.flatMap (escaped (.ofChar '\\') (.ofChar q)) ++ [.ofChar q] := by
  have hne : CodePoint.ofChar q ≠ CodePoint.ofChar '\\' :=
    fun h => hq (CodePoint.ofChar_injective h)
  rw [quoted, CodePoint.ofString_ofList, List.map_singleton]
  generalize CodePoint.ofChar q = quote, CodePoint.ofChar '\\' = slash at hne ⊢
  rw [substitute, if_neg (List.cons_ne_nil _ _), substitute, if_neg (List.cons_ne_nil _ _),
    replaceChars_single, replaceChars_single, List.flatMap_assoc]
  refine congrArg (fun body => [quote] ++ body ++ [quote])
    (congrArg (List.flatMap · text) (funext fun c => ?_))
  unfold escaped
  by_cases hc : c = slash
  · simp [hc, hne.symm]
  · simp [hc]

/-- A literal has bytes only if its text has. -/
theorem encodable_of_quoted {q : Char} (hq : q ≠ '\\') {text : Text}
    (h : Utf8.Encodable (quoted (String.ofList [q]) text)) : Utf8.Encodable text := by
  rw [quoted_eq hq, Utf8.encodable_append, Utf8.encodable_append] at h
  intro p hp
  have hmem : p ∈ text.flatMap (escaped (.ofChar '\\') (.ofChar q)) :=
    List.mem_flatMap.2 ⟨p, hp, by
      obtain ⟨hesc, -⟩ | ⟨hesc, -⟩ := escaped_cases (CodePoint.ofChar '\\') (.ofChar q) p <;>
        simp [hesc]⟩
  exact h.1.2 p hmem

/-- The characters of a literal that has a text of characters. -/
def quotedChars (q : Char) (text : String) : String :=
  String.ofList ([q] ++ text.toList.flatMap (escaped '\\' q) ++ [q])

theorem quoted_ofString {q : Char} (hq : q ≠ '\\') (text : String) :
    quoted (String.ofList [q]) (CodePoint.ofString text)
      = CodePoint.ofString (quotedChars q text) := by
  have hbody : (CodePoint.ofString text).flatMap (escaped (.ofChar '\\') (.ofChar q))
      = (text.toList.flatMap (escaped '\\' q)).map CodePoint.ofChar := by
    rw [CodePoint.ofString, List.flatMap_map, List.map_flatMap]
    exact congrArg (List.flatMap · text.toList)
      (funext fun c => (map_escaped CodePoint.ofChar_injective _ _ _).symm)
  rw [quoted_eq hq, hbody, quotedChars, CodePoint.ofString_ofList, List.map_append,
    List.map_append, List.map_singleton]

end Target

namespace Literal

/-- What an escape writes is read back. -/
theorem cookFrom_escaped {q : Char} (hq : q = '\'' ∨ q = '"') (c : Char) (rest : List Char) :
    cookFrom 0 (Target.escaped '\\' q c ++ rest)
      = (CodePoint.ofChar c :: ·) <$> cookFrom 0 rest := by
  have hescape : ∀ d rest, d = '\\' ∨ d = q → cookFrom 0 ('\\' :: d :: rest)
      = (CodePoint.ofChar d :: ·) <$> cookFrom 0 rest := by
    intro d rest hd
    have hat : escapeAt (d :: rest) = some ⟨.ok [CodePoint.ofChar d], 1⟩ := by
      rcases hd with rfl | rfl
      · rfl
      · rcases hq with rfl | rfl <;> rfl
    rw [cookFrom, if_pos rfl, hat]
    rfl
  unfold Target.escaped
  split
  · subst c; exact hescape _ _ (.inl rfl)
  split
  · subst c; exact hescape _ _ (.inr rfl)
  · rw [List.singleton_append, cookFrom, if_neg ‹_›]

/-- **A text is read back from the literal it is written as.** -/
theorem decode_escaped {q : Char} (hq : q = '\'' ∨ q = '"') (text : String) :
    decode .quote (String.ofList (text.toList.flatMap (Target.escaped '\\' q))) = .ok text := by
  have hcook : ∀ cs : List Char,
      cook (cs.flatMap (Target.escaped '\\' q)) = .ok (cs.map CodePoint.ofChar) := by
    intro cs
    induction cs with
    | nil => rfl
    | cons c cs ih =>
      rw [cook] at ih ⊢
      rw [List.flatMap_cons, cookFrom_escaped hq, ih]
      rfl
  have hjoin : CodePoint.join (text.toList.map CodePoint.ofChar) = .ok text :=
    CodePoint.join_ofString text
  rw [decode]
  simp only [String.toList_ofList, hcook, bind, Except.bind, hjoin]
  rfl

/-- What stands between two characters of one byte each. -/
theorem slice_quoted {q : Char} (hq : (String.utf8EncodeChar q).length = 1) (cs : List Char) :
    (Bytes.ofString (String.ofList ([q] ++ cs ++ [q]))).slice 1 (-1)
      = Bytes.ofString (String.ofList cs) := by
  obtain ⟨b, hb⟩ := List.length_eq_one_iff.1 hq
  simp only [Bytes.ofString, String.toList_ofList, List.flatMap_append, List.flatMap_cons,
    List.flatMap_nil, List.append_nil, hb]
  generalize cs.flatMap String.utf8EncodeChar = body
  rw [Bytes.slice]
  have hlen : ([b] ++ body ++ [b]).length = body.length + 2 := by simp
  have hstop : Bytes.place (body.length + 2) (-1) = body.length + 1 := by
    rw [Bytes.place, if_pos (by decide)]; omega
  have hstart : Bytes.place (body.length + 2) 1 = 1 := Bytes.place_of_le (Nat.le_add_left 1 _)
  rw [hlen, hstop, hstart, List.take_append_of_le_length (by simp),
    List.take_of_length_le (by simp)]
  rfl

/-- **A text is read back from the bytes of its literal**, if that has any. -/
theorem read_quoted {quote : String} (hq : quote = "'" ∨ quote = "\"") {text : Text} {b : Bytes}
    (hb : Utf8.encode (Target.quoted quote text) = .ok b) :
    ∃ body s, Utf8.decode (b.slice 1 (-1)) = .ok body ∧ decode .quote body = .ok s ∧
      text = CodePoint.ofString s := by
  obtain ⟨q, hchar, rfl⟩ : ∃ q, (q = '\'' ∨ q = '"') ∧ quote = String.ofList [q] := by
    rcases hq with rfl | rfl
    · exact ⟨'\'', .inl rfl, rfl⟩
    · exact ⟨'"', .inr rfl, rfl⟩
  have hbyte : (String.utf8EncodeChar q).length = 1 := by
    rcases hchar with rfl | rfl <;> decide
  have hslash := Target.quote_ne_slash hchar
  obtain ⟨s, rfl⟩ := (Target.encodable_of_quoted hslash (Utf8.encode_eq_ok.1 hb).1).exists_ofString
  rw [Target.quoted_ofString hslash, Utf8.encode_ofString] at hb
  cases hb
  refine ⟨_, s, ?_, decode_escaped hchar s, rfl⟩
  rw [Target.quotedChars, slice_quoted hbyte, Utf8.decode_ofString]

end Literal

end AssetLift
