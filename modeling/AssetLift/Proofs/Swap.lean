import AssetLift.Edit
import Mathlib.Data.List.Forall2

/-!
# Swapping ranges of a file

`Swap.apply swaps source`: the file `source` with the range of every swap put out and the swap's
bytes put in. It is said offset by offset, so it knows no order of the swaps and no cursor: the
first offset of a range stands for the new bytes, the others of the range for nothing, and every
offset outside the ranges for its own byte (`Swap.image`).

* `apply_perm`: swaps whose ranges are apart may be taken in any order.
* `apply_widen`: a range may be widened by bytes that its text puts back (`Widens`).
* `moved_mono`: offsets keep their order when they move (`Swap.moved`).
* `stage_eq_ok`: when an edit, which swaps a range as well, is accepted next to others.
-/

namespace AssetLift

/-! ## Slices -/

namespace Bytes

theorem place_of_nonneg {n : Nat} {k : Int} (h : 0 ≤ k) (hn : k ≤ n) : place n k = k.toNat := by
  obtain ⟨m, rfl⟩ := Int.eq_ofNat_of_zero_le h
  rw [place_of_le (by omega)]; rfl

theorem slice_eq {b : Bytes} {i j : Int} (hi : 0 ≤ i) (hij : i ≤ j) (hj : j ≤ b.length) :
    b.slice i j = (b.take j.toNat).drop i.toNat := by
  rw [slice, place_of_nonneg (by omega) hj, place_of_nonneg hi (by omega)]

theorem length_slice {b : Bytes} {i j : Int} (hi : 0 ≤ i) (hij : i ≤ j) (hj : j ≤ b.length) :
    (b.slice i j).length = (j - i).toNat := by
  rw [slice_eq hi hij hj, List.length_drop, List.length_take]; omega

theorem slice_append {b : Bytes} {i j k : Int} (hi : 0 ≤ i) (hij : i ≤ j) (hjk : j ≤ k)
    (hk : k ≤ b.length) : b.slice i j ++ b.slice j k = b.slice i k := by
  rw [slice_eq hi hij (by omega), slice_eq (by omega) hjk hk, slice_eq hi (by omega) hk]
  have hj : b.take j.toNat = (b.take k.toNat).take j.toNat := by
    rw [List.take_take]; congr 1; omega
  rw [hj]
  generalize b.take k.toNat = c
  conv_rhs => rw [← List.take_append_drop j.toNat c]
  rw [List.drop_append]
  by_cases h : c.length ≤ j.toNat
  · rw [List.take_of_length_le h, List.drop_of_length_le h]; simp
  · have : i.toNat - (c.take j.toNat).length = 0 := by rw [List.length_take]; omega
    rw [this, List.drop_zero]

theorem slice_self (b : Bytes) {i : Int} (hi : 0 ≤ i) (hb : i ≤ b.length) : b.slice i i = [] := by
  have := length_slice hi (Int.le_refl i) hb
  rw [Int.sub_self] at this
  exact List.eq_nil_of_length_eq_zero this

theorem slice_sliceFrom {b : Bytes} {i j : Int} (hi : 0 ≤ i) (hij : i ≤ j) (hj : j ≤ b.length) :
    b.slice i j ++ b.sliceFrom j = b.sliceFrom i := by
  have h : ∀ k : Int, 0 ≤ k → k ≤ b.length → b.sliceFrom k = b.slice k b.length := by
    intro k h0 hk
    rw [slice_eq h0 hk (Int.le_refl _), sliceFrom, place_of_nonneg h0 hk, Int.toNat_natCast,
      List.take_length]
  rw [h j (by omega) hj, h i hi (by omega), slice_append hi hij hj (Int.le_refl _)]

end Bytes

/-- A range of a file with the bytes to put in its place. -/
structure Swap where
  span : Span
  text : Bytes

namespace Swap

/-- What stands for the byte at an offset once the ranges are swapped. -/
def image (swaps : List Swap) (offset : Nat) (byte : UInt8) : Bytes :=
  match swaps.find? (·.span.contains offset) with
  | none => [byte]
  | some s => if s.span.start = offset then s.text else []

/-- Bytes whose first one stands at offset `first`, with the ranges swapped. -/
def applyFrom (swaps : List Swap) (first : Nat) : Bytes → Bytes
  | [] => []
  | byte :: rest => image swaps first byte ++ applyFrom swaps (first + 1) rest

/-- A file with the ranges swapped. -/
def apply (swaps : List Swap) (source : Bytes) : Bytes := applyFrom swaps 0 source

/-- Where an offset of the file stands once the ranges are swapped. -/
def moved (swaps : List Swap) (source : Bytes) (offset : Nat) : Nat :=
  (apply swaps (source.take offset)).length

/-- The ranges have no offset in common. -/
def Apart (swaps : List Swap) : Prop :=
  swaps.Pairwise fun s r => ∀ i : Nat, s.span.contains i → r.span.contains i = false

/-- That two ranges are apart may be said from either side. -/
theorem clear_of_clear {s r : Swap} (h : ∀ i : Nat, s.span.contains i → r.span.contains i = false)
    (i : Nat) (hi : r.span.contains i) : s.span.contains i = false := by
  by_contra hc
  rw [h i (by simpa using hc)] at hi
  cases hi

/-! ## Stretches of a file -/

theorem applyFrom_append (swaps : List Swap) (first : Nat) (as bs : Bytes) :
    applyFrom swaps first (as ++ bs)
      = applyFrom swaps first as ++ applyFrom swaps (first + as.length) bs := by
  induction as generalizing first with
  | nil => simp [applyFrom]
  | cons a as ih =>
    simp only [List.cons_append, applyFrom, ih, List.length_cons, List.append_assoc]
    rw [show first + 1 + as.length = first + (as.length + 1) by omega]

theorem applyFrom_congr {swaps swaps' : List Swap} {first : Nat} {bs : Bytes}
    (h : ∀ i, first ≤ i → i < first + bs.length → ∀ b, image swaps i b = image swaps' i b) :
    applyFrom swaps first bs = applyFrom swaps' first bs := by
  induction bs generalizing first with
  | nil => rfl
  | cons b bs ih =>
    simp only [applyFrom]
    rw [h first (Nat.le_refl _) (by simp) b,
      ih fun i hi hi' c => h i (by omega) (by simp only [List.length_cons]; omega) c]

theorem image_of_clear {swaps : List Swap} {i : Nat}
    (h : ∀ s ∈ swaps, s.span.contains i = false) (b : UInt8) : image swaps i b = [b] := by
  have : swaps.find? (·.span.contains i) = none := by
    rw [List.find?_eq_none]; intro s hs; simp [h s hs]
  simp [image, this]

/-- **A stretch that no range meets** stays as it is. -/
theorem applyFrom_clear {swaps : List Swap} {first : Nat} {bs : Bytes}
    (h : ∀ s ∈ swaps, ∀ i, first ≤ i → i < first + bs.length → s.span.contains i = false) :
    applyFrom swaps first bs = bs := by
  induction bs generalizing first with
  | nil => rfl
  | cons b bs ih =>
    rw [applyFrom, image_of_clear (fun s hs => h s hs first (Nat.le_refl _) (by simp)) b,
      ih fun s hs i hi hi' => h s hs i (by omega) (by simp only [List.length_cons]; omega)]
    rfl

theorem find?_eq_some {swaps : List Swap} (hd : Apart swaps) {s : Swap} (hs : s ∈ swaps) {i : Nat}
    (hi : s.span.contains i) : swaps.find? (·.span.contains i) = some s := by
  induction swaps with
  | nil => simp at hs
  | cons r rest ih =>
    rw [Apart, List.pairwise_cons] at hd
    rcases List.mem_cons.1 hs with rfl | hs
    · simp [hi]
    · rw [List.find?_cons, clear_of_clear (hd.1 s hs) i hi]
      exact ih hd.2 hs

/-- **The stretch of one range** turns into the text of its swap. -/
theorem applyFrom_span {swaps : List Swap} (hd : Apart swaps) {s : Swap} (hs : s ∈ swaps)
    {first : Nat} {bs : Bytes} (hfirst : s.span.start = first) (hne : bs ≠ [])
    (hstop : s.span.stop = first + bs.length) : applyFrom swaps first bs = s.text := by
  have himage : ∀ i, first ≤ i → i < first + bs.length → ∀ b,
      image swaps i b = if first = i then s.text else [] := by
    intro i hi hi' b
    have hc : s.span.contains i = true := Span.contains_iff.2 ⟨by omega, by omega⟩
    rw [image, find?_eq_some hd hs hc]
    by_cases h : first = i
    · simp [h, hfirst]
    · simp only [h, ↓reduceIte]
      rw [if_neg (by omega)]
  have hrest : ∀ (k : Nat) (cs : Bytes), first < k → k + cs.length ≤ first + bs.length →
      applyFrom swaps k cs = [] := by
    intro k cs
    induction cs generalizing k with
    | nil => intros; rfl
    | cons c cs ih =>
      intro hk hl
      simp only [List.length_cons] at hl
      rw [applyFrom, himage k (by omega) (by omega), if_neg (by omega),
        ih (k + 1) (by omega) (by omega)]
      rfl
  cases bs with
  | nil => exact absurd rfl hne
  | cons b bs =>
    rw [applyFrom, himage first (Nat.le_refl _) (by simp), if_pos rfl,
      hrest (first + 1) bs (by omega) (by simp only [List.length_cons]; omega), List.append_nil]

/-! ## The order of the swaps -/

theorem Apart.perm {swaps swaps' : List Swap} (hd : Apart swaps) (hp : swaps.Perm swaps') :
    Apart swaps' := hp.pairwise hd clear_of_clear

theorem image_perm {swaps swaps' : List Swap} (hd : Apart swaps) (hp : swaps.Perm swaps') (i : Nat)
    (b : UInt8) : image swaps i b = image swaps' i b := by
  by_cases h : ∃ s ∈ swaps, s.span.contains i
  · obtain ⟨s, hs, hi⟩ := h
    rw [image, image, find?_eq_some hd hs hi, find?_eq_some (hd.perm hp) (hp.mem_iff.1 hs) hi]
  · have hno : ∀ s ∈ swaps, s.span.contains i = false := by
      intro s hs
      by_contra hc
      exact h ⟨s, hs, by simpa using hc⟩
    rw [image_of_clear hno, image_of_clear fun s hs => hno s (hp.mem_iff.2 hs)]

/-- **Swaps that are apart may be taken in any order.** -/
theorem apply_perm {swaps swaps' : List Swap} (hd : Apart swaps) (hp : swaps.Perm swaps')
    (source : Bytes) : apply swaps source = apply swaps' source :=
  applyFrom_congr fun i _ _ b => image_perm hd hp i b

/-! ## Cutting a file at offsets -/

/-- The bytes between two offsets of a file, with the ranges swapped. -/
def stretch (swaps : List Swap) (source : Bytes) (i j : Int) : Bytes :=
  applyFrom swaps i.toNat (source.slice i j)

theorem apply_eq_stretch (swaps : List Swap) (source : Bytes) :
    apply swaps source = stretch swaps source 0 source.length := by
  rw [stretch, Bytes.slice_eq (Int.le_refl 0) (by omega) (Int.le_refl _), Int.toNat_natCast,
    List.take_length]
  rfl

theorem stretch_append (swaps : List Swap) {source : Bytes} {i j k : Int} (hi : 0 ≤ i)
    (hij : i ≤ j) (hjk : j ≤ k) (hk : k ≤ source.length) :
    stretch swaps source i j ++ stretch swaps source j k = stretch swaps source i k := by
  rw [stretch, stretch, stretch, ← Bytes.slice_append hi hij hjk hk, applyFrom_append,
    Bytes.length_slice hi hij (by omega)]
  congr 2
  omega

/-- A file cut at two offsets. -/
theorem apply_cut (swaps : List Swap) {source : Bytes} {i j : Int} (hi : 0 ≤ i) (hij : i ≤ j)
    (hj : j ≤ source.length) : apply swaps source
      = stretch swaps source 0 i ++ stretch swaps source i j
        ++ stretch swaps source j source.length := by
  rw [apply_eq_stretch, stretch_append swaps (Int.le_refl 0) hi hij hj,
    stretch_append swaps (Int.le_refl 0) (by omega) hj (Int.le_refl _)]

theorem stretch_congr {swaps swaps' : List Swap} {source : Bytes} {i j : Int} (hi : 0 ≤ i)
    (hij : i ≤ j) (hj : j ≤ source.length)
    (h : ∀ k : Nat, i ≤ k → k < j → ∀ b, image swaps k b = image swaps' k b) :
    stretch swaps source i j = stretch swaps' source i j := by
  refine applyFrom_congr fun k hk hk' b => h k (by omega) ?_ b
  rw [Bytes.length_slice hi hij hj] at hk'
  omega

theorem stretch_clear {swaps : List Swap} {source : Bytes} {i j : Int} (hi : 0 ≤ i) (hij : i ≤ j)
    (hj : j ≤ source.length)
    (h : ∀ s ∈ swaps, ∀ k : Nat, i ≤ k → k < j → s.span.contains k = false) :
    stretch swaps source i j = source.slice i j := by
  refine applyFrom_clear fun s hs k hk hk' => h s hs k (by omega) ?_
  rw [Bytes.length_slice hi hij hj] at hk'
  omega

theorem stretch_span {swaps : List Swap} (hd : Apart swaps) {s : Swap} (hs : s ∈ swaps)
    {source : Bytes} (h0 : 0 ≤ s.span.start) (hne : s.span.start < s.span.stop)
    (hb : s.span.stop ≤ source.length) :
    stretch swaps source s.span.start s.span.stop = s.text := by
  have hl := Bytes.length_slice h0 (Int.le_of_lt hne) hb
  refine applyFrom_span hd hs (by omega) (fun he => ?_) (by omega)
  rw [he, List.length_nil] at hl
  omega

/-! ## Widening a range -/

/-- `w` swaps a range around that of `s`, and its text puts the bytes around that of `s` back. -/
structure Widens (source : Bytes) (w s : Swap) : Prop where
  start_nonneg : 0 ≤ w.span.start
  start_le : w.span.start ≤ s.span.start
  nonempty : s.span.start < s.span.stop
  stop_le : s.span.stop ≤ w.span.stop
  inside : w.span.stop ≤ source.length
  text : w.text = source.slice w.span.start s.span.start ++ s.text
    ++ source.slice s.span.stop w.span.stop

section
variable {source : Bytes} {w s : Swap} (h : Widens source w s) {pre post : List Swap}
include h

theorem Widens.contains {i : Int} (hi : s.span.contains i) : w.span.contains i := by
  have hi' := Span.contains_iff.1 hi
  have h₁ := h.start_le
  have h₂ := h.stop_le
  exact Span.contains_iff.2 ⟨by omega, by omega⟩

theorem Widens.clear {i : Int} (hi : w.span.contains i = false) : s.span.contains i = false := by
  by_contra hc
  rw [h.contains (by simpa using hc)] at hi
  cases hi

theorem Widens.apart (hd : Apart (pre ++ w :: post)) : Apart (pre ++ s :: post) := by
  rw [Apart, List.pairwise_append, List.pairwise_cons] at hd ⊢
  obtain ⟨hpre, ⟨hw, hpost⟩, hcross⟩ := hd
  refine ⟨hpre, ⟨fun r hr i hi => hw r hr i (h.contains hi), hpost⟩, fun a ha r hr i hi => ?_⟩
  rcases List.mem_cons.1 hr with rfl | hr
  · exact h.clear (hcross a ha w List.mem_cons_self i hi)
  · exact hcross a ha r (List.mem_cons_of_mem _ hr) i hi

/-- Outside the wide range both lists find the same swap. -/
theorem Widens.stretch_outside {i j : Int} (hi : 0 ≤ i) (hij : i ≤ j) (hj : j ≤ source.length)
    (hout : j ≤ w.span.start ∨ w.span.stop ≤ i) :
    stretch (pre ++ w :: post) source i j = stretch (pre ++ s :: post) source i j := by
  refine stretch_congr hi hij hj fun k hk hk' b => ?_
  have hclear : w.span.contains k = false := Span.contains_eq_false.2 (by omega)
  simp only [image, List.find?_append, List.find?_cons, hclear, h.clear hclear]

/-- Between the ends of the wide range and of the narrow one no swap has an offset. -/
theorem Widens.stretch_margin (hd : Apart (pre ++ w :: post)) {i j : Int} (hi : w.span.start ≤ i)
    (hij : i ≤ j) (hj : j ≤ w.span.stop) (hout : j ≤ s.span.start ∨ s.span.stop ≤ i) :
    stretch (pre ++ s :: post) source i j = source.slice i j := by
  have h₀ := h.start_nonneg
  have h₄ := h.inside
  rw [Apart, List.pairwise_append, List.pairwise_cons] at hd
  obtain ⟨-, ⟨hpost, -⟩, hpre⟩ := hd
  refine stretch_clear (by omega) hij (by omega) fun r hr k hk hk' => ?_
  have hwide : w.span.contains k = true := Span.contains_iff.2 ⟨by omega, by omega⟩
  rcases List.mem_append.1 hr with hr | hr
  · exact clear_of_clear (hpre r hr w List.mem_cons_self) k hwide
  rcases List.mem_cons.1 hr with rfl | hr
  · exact Span.contains_eq_false.2 (by omega)
  · exact hpost r hr k hwide

/-- Inside the wide range the narrow swap and the bytes beside it come to the text of the wide one. -/
theorem Widens.stretch_inside (hd : Apart (pre ++ w :: post)) :
    stretch (pre ++ w :: post) source w.span.start w.span.stop
      = stretch (pre ++ s :: post) source w.span.start w.span.stop := by
  have h₀ := h.start_nonneg
  have h₁ := h.start_le
  have h₂ := h.nonempty
  have h₃ := h.stop_le
  have h₄ := h.inside
  calc stretch (pre ++ w :: post) source w.span.start w.span.stop
      = source.slice w.span.start s.span.start ++ s.text
          ++ source.slice s.span.stop w.span.stop := by
        rw [stretch_span hd (by simp) h₀ (by omega) h₄, h.text]
    _ = stretch (pre ++ s :: post) source w.span.start s.span.start
          ++ stretch (pre ++ s :: post) source s.span.start s.span.stop
          ++ stretch (pre ++ s :: post) source s.span.stop w.span.stop := by
        rw [h.stretch_margin hd (Int.le_refl _) h₁ (by omega) (.inl (Int.le_refl _)),
          stretch_span (h.apart hd) (by simp) (by omega) h₂ (by omega),
          h.stretch_margin hd (by omega) h₃ (Int.le_refl _) (.inr (Int.le_refl _))]
    _ = stretch (pre ++ s :: post) source w.span.start w.span.stop := by
        rw [stretch_append _ h₀ h₁ (by omega) (by omega), stretch_append _ h₀ (by omega) h₃ h₄]

/-- One swap among others that are apart from it may be widened. -/
theorem Widens.apply_eq (hd : Apart (pre ++ w :: post)) :
    apply (pre ++ w :: post) source = apply (pre ++ s :: post) source := by
  have h₀ := h.start_nonneg
  have h₁ := h.start_le
  have h₂ := h.nonempty
  have h₃ := h.stop_le
  have h₄ := h.inside
  have hwide : w.span.start ≤ w.span.stop := by omega
  rw [apply_cut _ h₀ hwide h₄, apply_cut (pre ++ s :: post) h₀ hwide h₄, h.stretch_inside hd,
    h.stretch_outside (Int.le_refl 0) h₀ (by omega) (.inl (Int.le_refl _)),
    h.stretch_outside (by omega) h₄ (Int.le_refl _) (.inr (Int.le_refl _))]

end

/-- The swaps in `pre` stay as they are: they are the ones that have been narrowed already. -/
theorem apply_widen_append {source : Bytes} {ws ss : List Swap}
    (h : List.Forall₂ (Widens source) ws ss) : ∀ pre, Apart (pre ++ ws) →
      apply (pre ++ ws) source = apply (pre ++ ss) source ∧ Apart (pre ++ ss) := by
  induction h with
  | nil => intro pre hd; exact ⟨rfl, hd⟩
  | @cons w s ws ss hw _ ih =>
    intro pre hd
    have hrest := ih (pre ++ [s]) (by simpa using hw.apart hd)
    rw [hw.apply_eq hd]
    simpa using hrest

/-- **Ranges may be widened by bytes that their texts put back.** -/
theorem apply_widen {source : Bytes} {ws ss : List Swap} (h : List.Forall₂ (Widens source) ws ss)
    (hd : Apart ws) : apply ws source = apply ss source ∧ Apart ss := apply_widen_append h [] hd

/-! ## Where things stand afterwards -/

theorem moved_mono (swaps : List Swap) (source : Bytes) {i j : Nat} (hij : i ≤ j) :
    moved swaps source i ≤ moved swaps source j := by
  have hcut : source.take j = source.take i ++ (source.take j).drop i := by
    conv_lhs => rw [← List.take_append_drop i (source.take j)]
    rw [List.take_take, Nat.min_eq_left hij]
  rw [moved, moved, hcut, apply, apply, applyFrom_append, List.length_append]
  omega

end Swap

/-! ## Edits -/

/-- The swap that an edit makes. -/
def Edit.toSwap (e : Edit) : Swap := ⟨e.remove, e.text⟩

namespace Staging

open Swap

/-- The edit takes bytes of the file out, at least one. -/
structure Takes (source : Bytes) (e : Edit) : Prop where
  start_nonneg : 0 ≤ e.remove.start
  nonempty : e.remove.start < e.remove.stop
  inside : e.remove.stop ≤ source.length

theorem takes_of_widens {source : Bytes} {e : Edit} {s : Swap} (h : Widens source e.toSwap s) :
    Takes source e where
  start_nonneg := h.start_nonneg
  nonempty := Int.lt_of_le_of_lt h.start_le (Int.lt_of_lt_of_le h.nonempty h.stop_le)
  inside := h.inside

/-- **An edit is accepted** when it ends inside the file and neither crosses nor repeats an earlier
one. -/
theorem stage_eq_ok {s s' : Staging} {e : Edit} : s.stage e = .ok s' ↔
    e.remove.stop ≤ s.source.length ∧
      (∀ f ∈ s.edits, f.remove.overlaps e.remove = false ∧ f.sameInsertion e = false) ∧
      s' = { s with edits := s.edits ++ [e] } := by
  have hnone : s.conflict? e = none ↔ e.remove.stop ≤ s.source.length ∧
      ∀ f ∈ s.edits, f.remove.overlaps e.remove = false ∧ f.sameInsertion e = false := by
    unfold conflict? conflictWith
    by_cases h : (s.source.length : Int) < e.remove.stop
    · simp only [h, ↓reduceIte, reduceCtorEq, false_iff, not_and]
      intro hle; omega
    · simp only [h, ↓reduceIte, List.findSome?_eq_none_iff]
      refine ⟨fun hf => ⟨by omega, fun f hm => ?_⟩, fun hf f hm => ?_⟩
      · have := hf f hm
        grind
      · simp [hf.2 f hm]
  unfold stage
  cases hc : s.conflict? e with
  | some c =>
    have := mt hnone.2 (by rw [hc]; simp)
    simp only [reduceCtorEq, false_iff]
    exact fun h => this ⟨h.1, h.2.1⟩
  | none =>
    obtain ⟨h₁, h₂⟩ := hnone.1 hc
    simp only [Except.ok.injEq]
    exact ⟨fun h => ⟨h₁, h₂, h.symm⟩, fun h => h.2.2.symm⟩

end Staging

end AssetLift
