import AssetLift.Proofs.Swap
import AssetLift.Proofs.Text
import AssetLift.Removal

/-!
# What a removal takes

An entry lies in its file when its full range does and ends where the pair ends (`Entry.Lies`; every
entry that is made from a pair ends there). For such an entry a plan always exists, and it is one of
three (`Removal.Planned`): the full range alone, the full range with the blanks and the comma after
it, or the comma and the blanks before it with the full range.

* `commaAfter?_eq_some`, `commaBefore?_spec`: the two searches find a comma with blanks alone
  between it and the offset.
* `plan_spec`: the plan exists and is one of the three.
* `edit_eq_ok`: the edit exists unless the replacement cannot be written.
* `widens_of_edit`: it swaps the pair alone: what else it takes, it puts back.
-/

namespace AssetLift

/-- Only blanks stand from offset `i` up to offset `j`. -/
def Bytes.BlankFrom (b : Bytes) (i j : Nat) : Prop :=
  ∀ k, i ≤ k → k < j → ∃ c, b[k]? = some c ∧ isBlank c = true

/-- The entry lies in the file, and ends where its pair ends. -/
structure Entry.Lies (e : Entry) (source : Bytes) : Prop where
  start_nonneg : 0 ≤ e.full.start
  stop_eq : e.core.stop = e.full.stop
  inside : e.full.stop ≤ source.length

theorem Span.ofEnds_of_le {i j : Int} (h : i ≤ j) : Span.ofEnds i j = .ok ⟨i, j, h⟩ := by
  simp [Span.ofEnds, h]

theorem Entry.full_start_le (e : Entry) : e.full.start ≤ e.core.start :=
  (Span.covers_iff.1 e.covered).1

namespace Bytes

theorem isBlank_comma : isBlank comma = false := by decide

/-! ## Blanks at the ends of a string -/

theorem leadingBlanks_blank (r : Bytes) : r.BlankFrom 0 r.leadingBlanks := by
  intro k _ hk
  have hlen : k < (r.takeWhile isBlank).length := hk
  refine ⟨(r.takeWhile isBlank)[k], ?_, ?_⟩
  · have hpre := List.takeWhile_prefix (l := r) isBlank
    have := (List.prefix_iff_getElem?.1 hpre) k hlen
    simpa using this
  · exact List.all_eq_true.1 List.all_takeWhile _ (List.getElem_mem hlen)

theorem leadingBlanks_eq {r : Bytes} {n : Nat} (hblank : r.BlankFrom 0 n)
    (hend : ∀ c, r[n]? = some c → isBlank c = false) : r.leadingBlanks = n := by
  induction r generalizing n with
  | nil =>
    cases n with
    | zero => rfl
    | succ n => obtain ⟨c, hc, -⟩ := hblank 0 (Nat.le_refl _) (by omega); simp at hc
  | cons a r ih =>
    cases n with
    | zero => simp [leadingBlanks, hend a rfl]
    | succ n =>
      obtain ⟨c, hc, hca⟩ := hblank 0 (Nat.le_refl _) (by omega)
      obtain rfl : a = c := by simpa using hc
      have := ih (n := n) (fun k _ hk => by simpa using hblank (k + 1) (by omega) (by omega))
        (by simpa using hend)
      simpa [leadingBlanks, hca] using this

theorem trimRight_eq (b : Bytes) : b.trimRight = b.take (b.length - leadingBlanks b.reverse) := by
  have hrev : b.trimRight ++ (b.reverse.takeWhile isBlank).reverse = b := by
    rw [trimRight, ← List.reverse_append, List.takeWhile_append_dropWhile, List.reverse_reverse]
  have hlen : b.length - leadingBlanks b.reverse = b.trimRight.length := by
    have := congrArg List.length hrev
    rw [List.length_append, List.length_reverse] at this
    simp only [leadingBlanks]
    omega
  rw [hlen]
  exact (List.prefix_iff_eq_take.1 ⟨_, hrev⟩)

end Bytes

namespace Removal

open Bytes

/-! ## The two searches -/

/-- **The search forward** finds the comma that follows an offset with blanks alone between. -/
theorem commaAfter?_eq_some {source : Bytes} {k : Int} (h0 : 0 ≤ k) (hk : k ≤ source.length)
    {a : Nat} : commaAfter? source k = some a ↔
      k < a ∧ source[a - 1]? = some comma ∧ source.BlankFrom k.toNat (a - 1) := by
  obtain ⟨k, rfl⟩ := Int.eq_ofNat_of_zero_le h0
  have hbase : min k source.length = k := by omega
  simp only [commaAfter?, Int.toNat_natCast, hbase, List.drop_drop, List.head?_drop,
    Option.ite_none_right_eq_some, Option.some.injEq]
  constructor
  · rintro ⟨hc, rfl⟩
    refine ⟨by omega, by simpa using hc, fun i hi hi' => ?_⟩
    obtain ⟨c, hc, hb⟩ := leadingBlanks_blank (source.drop k) (i - k) (by omega) (by omega)
    rw [List.getElem?_drop, show k + (i - k) = i by omega] at hc
    exact ⟨c, hc, hb⟩
  · rintro ⟨hka, hc, hblank⟩
    have hlead : leadingBlanks (source.drop k) = a - 1 - k := by
      apply leadingBlanks_eq
      · intro i _ hi
        simpa using hblank (k + i) (by omega) (by omega)
      · intro c hc'
        rw [List.getElem?_drop, show k + (a - 1 - k) = a - 1 by omega, hc, Option.some.injEq] at hc'
        rw [← hc', isBlank_comma]
    rw [hlead, show k + (a - 1 - k) = a - 1 by omega]
    exact ⟨hc, by omega⟩

/-- **The search backward** finds the comma before an offset with blanks alone between. -/
theorem commaBefore?_spec {source : Bytes} {k : Int} (h0 : 0 ≤ k) (hk : k ≤ source.length) {c : Nat}
    (h : commaBefore? source k = some c) :
    c < k ∧ source[c]? = some comma ∧ source.BlankFrom (c + 1) k.toNat := by
  obtain ⟨k, rfl⟩ := Int.eq_ofNat_of_zero_le h0
  simp only [commaBefore?, sliceTo, place_of_le (show k ≤ source.length by omega),
    Option.ite_none_right_eq_some, Option.some.injEq] at h
  obtain ⟨hlast, rfl⟩ := h
  rw [trimRight_eq] at hlast ⊢
  generalize hn : leadingBlanks (source.take k).reverse = n at hlast ⊢
  have hkl : (source.take k).length = k := by rw [List.length_take]; omega
  rw [hkl, List.take_take, show min (k - n) k = k - n by omega] at hlast ⊢
  have hlen : (source.take (k - n)).length = k - n := by rw [List.length_take]; omega
  rw [hlen]
  rw [List.getLast?_eq_getElem?, hlen, List.getElem?_take] at hlast
  have hpos : 0 < k - n := by
    by_contra hc
    rw [show k - n = 0 by omega] at hlast
    simp at hlast
  rw [if_pos (by omega)] at hlast
  refine ⟨by omega, hlast, fun i hi hi' => ?_⟩
  -- offset `i` is the `k - 1 - i`-th from the end
  obtain ⟨b, hb, hbb⟩ := leadingBlanks_blank (source.take k).reverse (k - 1 - i) (by omega)
    (by omega)
  rw [List.getElem?_reverse (by rw [hkl]; omega), hkl, List.getElem?_take,
    if_pos (by omega), show k - 1 - (k - 1 - i) = i by omega] at hb
  exact ⟨b, hb, hbb⟩

/-! ## Plans -/

/-- The plans for one of `count` entries: with no comma, with the comma after the entry, or with the
comma before it. -/
inductive Planned (e : Entry) (count : Int) (source : Bytes) (claimed : List Span) : Plan → Prop
  | bare : Planned e count source claimed (bare e)
  | after {a : Nat} (hle : e.full.start ≤ a) (hcount : 1 < count)
      (hafter : commaAfter? source e.full.stop = some a)
      (hfree : isClaimed claimed ((a : Int) - 1) = false) :
      Planned e count source claimed ⟨⟨e.full.start, a, hle⟩, e.core.start, false, true⟩
  | before {c : Nat} (hle : c ≤ e.full.stop) (hcount : 1 < count)
      (hafter : commaAfter? source e.full.stop = none)
      (hbefore : commaBefore? source e.full.start = some c) (hfree : isClaimed claimed c = false) :
      Planned e count source claimed ⟨⟨c, e.full.stop, hle⟩, e.core.start, true, false⟩

section
variable {e : Entry} {source : Bytes} (hl : e.Lies source)
include hl

theorem Lies.start_le_length : e.full.start ≤ source.length :=
  Int.le_trans e.full.start_le_stop hl.inside

theorem takeAfter_spec {count : Int} (hcount : 1 < count) {claimed : List Span} {a : Nat}
    (ha : commaAfter? source e.full.stop = some a) :
    ∃ p, takeAfter e claimed a = .ok p ∧ Planned e count source claimed p := by
  have hlt := ((commaAfter?_eq_some (Int.le_trans hl.start_nonneg e.full.start_le_stop)
    hl.inside).1 ha).1
  have hle : e.full.start ≤ a := by have := e.full.start_le_stop; omega
  unfold takeAfter
  split
  · exact ⟨_, rfl, .bare⟩
  · rename_i hfree
    refine ⟨⟨⟨e.full.start, a, hle⟩, e.core.start, false, true⟩, ?_,
      .after hle hcount ha (by simpa using hfree)⟩
    rw [Span.ofEnds_of_le hle]
    rfl

theorem takeBefore_spec {count : Int} (hcount : 1 < count) {claimed : List Span} {c : Nat}
    (ha : commaAfter? source e.full.stop = none)
    (hc : commaBefore? source e.full.start = some c) :
    ∃ p, takeBefore e claimed c = .ok p ∧ Planned e count source claimed p := by
  have hlt := (commaBefore?_spec hl.start_nonneg (Lies.start_le_length hl) hc).1
  have hle : c ≤ e.full.stop := by have := e.full.start_le_stop; omega
  unfold takeBefore
  split
  · exact ⟨_, rfl, .bare⟩
  · rename_i hfree
    refine ⟨⟨⟨c, e.full.stop, hle⟩, e.core.start, true, false⟩, ?_,
      .before hle hcount ha hc (by simpa using hfree)⟩
    rw [Span.ofEnds_of_le hle]
    rfl

/-- **An entry that lies in its file has a plan**, one of the three. -/
theorem plan_spec (count : Int) (claimed : List Span) :
    ∃ p, plan e count source claimed = .ok p ∧ Planned e count source claimed p := by
  unfold plan
  split
  · exact ⟨_, rfl, .bare⟩
  · rename_i hcount
    have hs : searchable source e.full.stop = true := by
      have h₁ := Int.le_trans hl.start_nonneg e.full.start_le_stop
      have h₂ := hl.inside
      simp [searchable, h₁, h₂]
    simp only [hs, Bool.not_true, Bool.false_eq_true, ↓reduceIte]
    split
    · rename_i a ha
      exact takeAfter_spec hl (by omega) ha
    · rename_i ha
      split
      · rename_i c hc
        exact takeBefore_spec hl (by omega) ha hc
      · exact ⟨_, rfl, .bare⟩

/-- What a plan removes lies in the file and holds the full range of the entry. -/
theorem Planned.bounds {count : Int} {claimed : List Span} {p : Plan}
    (hp : Planned e count source claimed p) :
    0 ≤ p.remove.start ∧ p.remove.start ≤ e.full.start ∧ e.full.stop ≤ p.remove.stop
      ∧ p.remove.stop ≤ source.length := by
  have h₀ := hl.start_nonneg
  have h₁ := hl.inside
  cases hp with
  | bare => exact ⟨h₀, Int.le_refl _, Int.le_refl _, h₁⟩
  | @after a _ _ ha _ =>
    obtain ⟨hlt, hc, -⟩ := (commaAfter?_eq_some
      (Int.le_trans h₀ e.full.start_le_stop) h₁).1 ha
    have := (List.getElem?_eq_some_iff.1 hc).1
    refine ⟨h₀, Int.le_refl _, ?_, ?_⟩ <;> simp only <;> omega
  | @before c _ _ _ hc _ =>
    have hlt := (commaBefore?_spec h₀ (Lies.start_le_length hl) hc).1
    refine ⟨by simp only; omega, ?_, Int.le_refl _, h₁⟩
    simp only; omega

omit hl in
theorem Planned.insertAt_eq {count : Int} {claimed : List Span} {p : Plan}
    (hp : Planned e count source claimed p) : p.insertAt = e.core.start := by
  cases hp <;> rfl

/-- The bytes put in are the replacement between the bytes that were taken around the pair. -/
theorem Planned.text_eq {count : Int} {claimed : List Span} {p : Plan}
    (hp : Planned e count source claimed p) (replacement : Bytes) :
    p.text e source replacement = source.slice p.remove.start e.core.start
      ++ replacement ++ source.slice e.core.stop p.remove.stop := by
  obtain ⟨h₀, h₁, h₂, h₃⟩ := hp.bounds hl
  have hfull := e.full_start_le
  have hcore := e.core.start_le_stop
  have hstop := hl.stop_eq
  cases hp with
  | bare =>
    simp only [Plan.text, Removal.bare, Bool.false_eq_true, ↓reduceIte, List.nil_append,
      List.append_nil]
    rw [hstop, slice_self source (by omega) hl.inside, List.append_nil]
  | after => simp only [Plan.text, Bool.false_eq_true, ↓reduceIte, List.nil_append, hstop]
  | before =>
    simp only [Plan.text, Bool.false_eq_true, ↓reduceIte, List.append_nil] at h₀ h₁ ⊢
    rw [slice_append h₀ h₁ hfull (by omega), hstop, slice_self source (by omega) hl.inside,
      List.append_nil]

theorem Planned.insertAt_mem {count : Int} {claimed : List Span} {p : Plan}
    (hp : Planned e count source claimed p) :
    p.remove.start ≤ p.insertAt ∧ p.insertAt ≤ p.remove.stop := by
  obtain ⟨-, h₁, h₂, -⟩ := hp.bounds hl
  have hfull := e.full_start_le
  have hcore := e.core.start_le_stop
  have hstop := hl.stop_eq
  rw [hp.insertAt_eq]
  constructor <;> omega

/-- **A plan has an edit exactly for the replacements that can be written.** -/
theorem edit_eq_ok {count : Int} {claimed : List Span} {p : Plan}
    (hp : Planned e count source claimed p) {replacement : List CodePoint} {ed : Edit} :
    p.edit e source replacement = .ok ed ↔ Utf8.Encodable replacement ∧
      ed = ⟨p.remove, p.insertAt, p.text e source (Utf8.written replacement), hp.insertAt_mem hl⟩ := by
  have hmake : ∀ text : Bytes, (Edit.make p.remove p.insertAt text).mapError Fault.edit
      = .ok ⟨p.remove, p.insertAt, text, hp.insertAt_mem hl⟩ := by
    intro text
    rw [Edit.make, dif_pos (hp.insertAt_mem hl)]
    rfl
  simp only [Plan.edit, bind_eq_ok, mapError_eq_ok, Utf8.encode_eq_ok, hmake, Except.ok.injEq]
  constructor
  · rintro ⟨_, ⟨h, rfl⟩, rfl⟩
    exact ⟨h, rfl⟩
  · rintro ⟨h, rfl⟩
    exact ⟨_, ⟨h, rfl⟩, rfl⟩

/-- **The edit of a plan swaps the pair alone**: what else it takes, it puts back. -/
theorem widens_of_edit {count : Int} {claimed : List Span} {p : Plan}
    (hp : Planned e count source claimed p) (hne : e.core.start < e.core.stop)
    {replacement : List CodePoint} {ed : Edit} (hed : p.edit e source replacement = .ok ed) :
    ed.remove = p.remove ∧
      Swap.Widens source ed.toSwap ⟨e.core, Utf8.written replacement⟩ := by
  obtain ⟨-, rfl⟩ := (edit_eq_ok hl hp).1 hed
  obtain ⟨h₀, h₁, h₂, h₃⟩ := hp.bounds hl
  have hfull := e.full_start_le
  have hstop := hl.stop_eq
  exact ⟨rfl, h₀, by simp only [Edit.toSwap]; omega, hne, by simp only [Edit.toSwap]; omega, h₃,
    hp.text_eq hl (Utf8.written replacement)⟩

end

end Removal

end AssetLift
