import AssetLift.Proofs.Swap
import Mathlib

/-!
# Rendering edits that may insert

Edits that take nothing out and only insert are accepted next to others, also at the offset where
another edit's range starts. What a rendering should be is said offset by offset and knows no order
of the edits (`weave`): at each offset stand the text inserted there, the text of the range that
starts there, and the byte of the file unless a range has it.

The renderer goes through the edits by their starts, and edits with one start in the order they were
accepted in. An insertion that comes after a longer edit with the same start sets it back to that
start, and the bytes of the range come out once more. So the rendering is as it should be just when
insertions are accepted first (`InsertionsFirst`).

* `renderFrom_eq_woven`: edits none of which starts before the end of one before it.
* `weave_perm`: the order of the edits does not matter to what should be.
* `length_renderFrom`: a rendering is too long by what the renderer goes back (`setback`).
* `render_eq_weave_iff`: which accepted sequences of edits are rendered as they should be.
* `render_eq_apply`: the rendering of edits that take some bytes each and do not cross is the file
  with their ranges swapped.
-/

namespace AssetLift

/-- Ranges that are not empty cross just when they have an offset in common. -/
theorem Span.overlaps_iff_share {r s : Span} (hr : r.start < r.stop) (hs : s.start < s.stop) :
    r.overlaps s = true ↔ ∃ i, r.contains i = true ∧ s.contains i = true := by
  rw [overlaps_iff]
  constructor
  · rintro ⟨h₁, h₂⟩
    exact ⟨max r.start s.start, contains_iff.2 ⟨by omega, by omega⟩,
      contains_iff.2 ⟨by omega, by omega⟩⟩
  · rintro ⟨i, hi, hi'⟩
    rw [contains_iff] at hi hi'
    omega

namespace Staging

/-! ## What a rendering should be -/

/-- The text that is inserted at an offset. -/
def inserted (es : List Edit) (i : Nat) : Bytes :=
  (es.filter fun e => e.remove.start = (i : Int) ∧ e.remove.stop = (i : Int)).flatMap (·.text)

/-- The text in the place of the range that starts at an offset. -/
def replaced (es : List Edit) (i : Nat) : Bytes :=
  (es.filter fun e => e.remove.start = (i : Int) ∧ (i : Int) < e.remove.stop).flatMap (·.text)

/-- The byte at an offset, if there is one and no range has it. -/
def spared (es : List Edit) (source : Bytes) (i : Nat) : Bytes :=
  if es.any (·.remove.contains i) then [] else source[i]?.toList

/-- All that stands for an offset once the edits are made. -/
def slot (es : List Edit) (source : Bytes) (i : Nat) : Bytes :=
  inserted es i ++ replaced es i ++ spared es source i

/-- The file with every edit made, offset by offset and with the end as the last. -/
def weave (es : List Edit) (source : Bytes) : Bytes :=
  (List.range (source.length + 1)).flatMap (slot es source)

/-- The offsets from `i` up to `j`, with every edit made. -/
def woven (es : List Edit) (source : Bytes) (i j : Nat) : Bytes :=
  (List.range' i (j - i)).flatMap (slot es source)

theorem weave_eq_woven (es : List Edit) (source : Bytes) :
    weave es source = woven es source 0 (source.length + 1) := by
  rw [weave, woven, List.range_eq_range', Nat.sub_zero]

theorem woven_append (es : List Edit) (source : Bytes) {i j k : Nat} (hij : i ≤ j) (hjk : j ≤ k) :
    woven es source i j ++ woven es source j k = woven es source i k := by
  rw [woven, woven, woven, ← List.flatMap_append]
  congr 1
  have := @List.range'_append_1 i (j - i) (k - j)
  rwa [show i + (j - i) = j by omega, show j - i + (k - j) = k - i by omega] at this

theorem woven_cons (es : List Edit) (source : Bytes) {i j : Nat} (hij : i < j) :
    woven es source i j = slot es source i ++ woven es source (i + 1) j := by
  rw [woven, woven, show j - i = (j - (i + 1)) + 1 by omega, List.range'_succ, List.flatMap_cons]

theorem woven_congr {es es' : List Edit} {source : Bytes} {i j : Nat}
    (h : ∀ k, i ≤ k → k < j → slot es source k = slot es' source k) :
    woven es source i j = woven es' source i j := by
  refine List.flatMap_congr fun k hk => ?_
  rw [List.mem_range'_1] at hk
  exact h k hk.1 (by omega)

/-! ## One edit more -/

section
variable {e : Edit} {es : List Edit} {source : Bytes} {i : Nat}

/-- An edit that neither has an offset nor starts there is not seen there. -/
theorem slot_cons_clear (hout : e.remove.contains i = false) (hstart : e.remove.start ≠ i) :
    slot (e :: es) source i = slot es source i := by
  simp [slot, inserted, replaced, spared, hout, hstart]

/-- An insertion comes first at its offset. -/
theorem slot_cons_insertion (hstart : e.remove.start = i) (hstop : e.remove.stop = i) :
    slot (e :: es) source i = e.text ++ slot es source i := by
  have hout : e.remove.contains i = false := Span.contains_eq_false.2 (.inr (by omega))
  simp [slot, inserted, replaced, spared, hout, hstart, hstop]

/-- In the range of an edit the text stands for the first offset, and nothing for the others, unless
another edit starts there. -/
theorem slot_cons_range (hin : e.remove.contains i) (hother : ∀ f ∈ es, f.remove.start ≠ i) :
    slot (e :: es) source i = if e.remove.start = i then e.text else [] := by
  have hstop := (Span.contains_iff.1 hin).2
  have hnone : ∀ p : Edit → Bool, (es.filter fun f => f.remove.start = (i : Int) ∧ p f) = [] := by
    intro p
    refine List.filter_eq_nil_iff.2 fun f hf => ?_
    simp [hother f hf]
  have hins : inserted (e :: es) i = [] := by
    have := hnone fun f => decide (f.remove.stop = i)
    simp only [decide_eq_true_eq] at this
    rw [inserted, List.filter_cons_of_neg (by simp only [decide_eq_true_eq]; omega), this]
    rfl
  have hrep : replaced (e :: es) i = if e.remove.start = i then e.text else [] := by
    have := hnone fun f => decide (i < f.remove.stop)
    simp only [decide_eq_true_eq] at this
    by_cases hs : e.remove.start = i
    · rw [if_pos hs, replaced, List.filter_cons_of_pos (by simp [hs, hstop]), this]
      simp
    · rw [if_neg hs, replaced, List.filter_cons_of_neg (by simp [hs]), this]
      rfl
  rw [slot, hins, hrep, spared, List.any_cons, hin]
  simp

end

/-! ## Edits in the order of the file -/

theorem flatMap_range'_image (swaps : List Swap) (source : Bytes) (i n : Nat) :
    (List.range' i n).flatMap (fun k => source[k]?.toList.flatMap (Swap.image swaps k))
      = Swap.applyFrom swaps i ((source.drop i).take n) := by
  induction n generalizing i with
  | zero => rw [List.take_zero]; rfl
  | succ n ih =>
    rw [List.range'_succ, List.flatMap_cons, ih]
    by_cases hi : i < source.length
    · rw [List.drop_eq_getElem_cons hi, List.getElem?_eq_getElem hi, List.take_succ_cons]
      simp [Swap.applyFrom]
    · rw [List.drop_of_length_le (by omega), List.drop_of_length_le (by omega),
        List.getElem?_eq_none (by omega)]
      simp [Swap.applyFrom]

theorem slot_nil (source : Bytes) (i : Nat) :
    slot [] source i = source[i]?.toList.flatMap (Swap.image [] i) :=
  (List.flatMap_singleton' _).symm

/-- Without edits the file stands as it is. -/
theorem woven_nil (source : Bytes) (i j : Nat) :
    woven [] source i j = (source.drop i).take (j - i) := by
  rw [woven, funext (slot_nil source), flatMap_range'_image, Swap.applyFrom_clear (by simp)]

/-- Before the start of all edits the file stands as it is. -/
theorem woven_before {es : List Edit} {source : Bytes} {i j : Nat} (hij : i ≤ j)
    (hj : j ≤ source.length) (h : ∀ e ∈ es, (j : Int) ≤ e.remove.start) :
    woven es source i j = source.slice i j := by
  have hslot : ∀ k, i ≤ k → k < j → slot es source k = slot [] source k := by
    intro k _ hk
    induction es with
    | nil => rfl
    | cons e es ih =>
      have := h e List.mem_cons_self
      rw [slot_cons_clear (Span.contains_eq_false.2 (.inl (by omega))) (by omega)]
      exact ih fun f hf => h f (List.mem_cons_of_mem _ hf)
  rw [woven_congr hslot, woven_nil, Bytes.slice_eq (by omega) (by omega) (by omega),
    Int.toNat_natCast, Int.toNat_natCast, List.drop_take]

/-- The edit lies in the file. -/
structure Inside (source : Bytes) (e : Edit) : Prop where
  start_nonneg : 0 ≤ e.remove.start
  stop_le : e.remove.stop ≤ source.length

/-- None of the edits starts before the end of one before it. -/
def InOrder (es : List Edit) : Prop := es.Pairwise fun e f => e.remove.stop ≤ f.remove.start

/-- The offsets of one edit before others, that edit's text put in. -/
theorem woven_cons_edit {source : Bytes} {e : Edit} {es : List Edit} (hin : Inside source e)
    (horder : ∀ f ∈ es, e.remove.stop ≤ f.remove.start) :
    woven (e :: es) source e.remove.start.toNat (source.length + 1)
      = e.text ++ woven es source e.remove.stop.toNat (source.length + 1) := by
  obtain ⟨h₀, h₁⟩ := hin
  have hle := e.remove.start_le_stop
  obtain ⟨a, ha⟩ := Int.eq_ofNat_of_zero_le h₀
  obtain ⟨b, hb⟩ := Int.eq_ofNat_of_zero_le (Int.le_trans h₀ hle)
  rw [ha, hb, Int.toNat_natCast, Int.toNat_natCast]
  -- past its start and its end, the edit is not seen
  have hrest : ∀ c, a < c → b ≤ c → woven (e :: es) source c (source.length + 1)
      = woven es source c (source.length + 1) := fun c hac hbc =>
    woven_congr fun k hk _ =>
      slot_cons_clear (Span.contains_eq_false.2 (.inr (by omega))) (by omega)
  rcases Nat.lt_or_eq_of_le (show a ≤ b by omega) with hab | hab
  · have hslot : ∀ k, a ≤ k → k < b →
        slot (e :: es) source k = if a = k then e.text else [] := by
      intro k hak hkb
      rw [slot_cons_range (Span.contains_iff.2 ⟨by omega, by omega⟩)
        fun f hf => by have := horder f hf; omega]
      simp only [ha, Int.natCast_inj]
    have hinner : woven (e :: es) source (a + 1) b = [] := by
      refine List.flatMap_eq_nil_iff.2 fun k hk => ?_
      rw [List.mem_range'_1] at hk
      rw [hslot k (by omega) (by omega), if_neg (by omega)]
    rw [← woven_append _ _ (show a ≤ b by omega) (by omega), woven_cons _ _ hab, hinner,
      hslot a (Nat.le_refl a) hab, if_pos rfl, List.append_nil, hrest b hab (Nat.le_refl b)]
  · subst hab
    rw [woven_cons _ _ (by omega), slot_cons_insertion ha hb, hrest (a + 1) (by omega) (by omega),
      List.append_assoc, ← woven_cons _ _ (by omega)]

/-- **Edits in the order of the file are rendered as they should be**, from a cursor on that none of
them starts before. -/
theorem renderFrom_eq_woven {source : Bytes} {es : List Edit} {cursor : Int} (h0 : 0 ≤ cursor)
    (hl : cursor ≤ source.length) (hin : ∀ e ∈ es, Inside source e)
    (hc : ∀ e ∈ es, cursor ≤ e.remove.start) (horder : InOrder es) :
    renderFrom source cursor es = woven es source cursor.toNat (source.length + 1) := by
  induction es generalizing cursor with
  | nil =>
    rw [renderFrom, Bytes.sliceFrom, Bytes.place_of_nonneg h0 hl, woven_nil,
      List.take_of_length_le (by rw [List.length_drop]; omega)]
  | cons e es ih =>
    rw [InOrder, List.pairwise_cons] at horder
    have hine := hin e List.mem_cons_self
    have h₀ := hine.start_nonneg
    have h₁ := hine.stop_le
    have hle := e.remove.start_le_stop
    have hce := hc e List.mem_cons_self
    have hrest := ih (by omega) h₁ (fun f hf => hin f (List.mem_cons_of_mem _ hf)) horder.1 horder.2
    have hbefore : woven (e :: es) source cursor.toNat e.remove.start.toNat
        = source.slice cursor e.remove.start := by
      rw [woven_before (by omega) (by omega)]
      · rw [Int.toNat_of_nonneg h0, Int.toNat_of_nonneg h₀]
      · intro f hf
        rcases List.mem_cons.1 hf with rfl | hf
        · omega
        · have := horder.1 f hf
          omega
    rw [renderFrom, hrest, ← woven_append _ _ (show cursor.toNat ≤ e.remove.start.toNat by omega)
      (by omega), hbefore, woven_cons_edit hine horder.1, List.append_assoc]

/-! ## The order of the edits -/

/-- The edits neither cross nor insert at one offset. -/
def Compatible (es : List Edit) : Prop :=
  es.Pairwise fun e f => e.remove.overlaps f.remove = false ∧ e.sameInsertion f = false

theorem sameInsertion_comm (e f : Edit) : e.sameInsertion f = f.sameInsertion e := by
  rw [Bool.eq_iff_iff]
  simp only [Edit.sameInsertion, Edit.isInsertion, Bool.and_eq_true, decide_eq_true_eq]
  omega

theorem Compatible.perm {es es' : List Edit} (h : Compatible es) (hp : es.Perm es') :
    Compatible es' :=
  hp.pairwise h fun hef => by rwa [Span.overlaps_comm, sameInsertion_comm]

/-- **A sequence of edits is accepted** just when each ends inside the file and they are
compatible. -/
theorem foldlM_stage_eq_ok {source : Bytes} {es : List Edit} {s : Staging} :
    es.foldlM stage ⟨source, []⟩ = .ok s ↔
      s = ⟨source, es⟩ ∧ (∀ e ∈ es, e.remove.stop ≤ source.length) ∧ Compatible es := by
  induction es using List.reverseRecOn generalizing s with
  | nil =>
    refine ⟨fun h => ⟨(Except.ok.inj h).symm, by simp, .nil⟩, ?_⟩
    rintro ⟨rfl, -, -⟩
    rfl
  | append_singleton es e ih =>
    rw [List.foldlM_append]
    simp only [List.foldlM_cons, List.foldlM_nil, bind_pure]
    have hlast : Compatible (es ++ [e]) ↔ Compatible es ∧
        ∀ f ∈ es, f.remove.overlaps e.remove = false ∧ f.sameInsertion e = false := by
      simp [Compatible, List.pairwise_append]
    constructor
    · intro h
      cases hes : es.foldlM stage ⟨source, []⟩ with
      | error c =>
        rw [hes] at h
        cases h
      | ok s₀ =>
        rw [hes] at h
        obtain ⟨rfl, hstop, hcomp⟩ := ih.1 hes
        obtain ⟨hinside, hnew, rfl⟩ := stage_eq_ok.1 h
        refine ⟨rfl, fun f hf => ?_, hlast.2 ⟨hcomp, hnew⟩⟩
        rcases List.mem_append.1 hf with hf | hf
        · exact hstop f hf
        · rw [List.mem_singleton.1 hf]
          exact hinside
    · rintro ⟨rfl, hstop, hcomp⟩
      obtain ⟨hcomp, hnew⟩ := hlast.1 hcomp
      rw [ih.2 ⟨rfl, fun f hf => hstop f (List.mem_append_left _ hf), hcomp⟩]
      exact stage_eq_ok.2 ⟨hstop e (by simp), hnew, rfl⟩

theorem filter_perm {es es' : List Edit} (hp : es.Perm es') {p : Edit → Bool}
    (h : es.Pairwise fun e f => ¬ (p e = true ∧ p f = true)) : es.filter p = es'.filter p := by
  have hperm := hp.filter p
  have hlone : (es.filter p).Pairwise fun e f => ¬ (p e = true ∧ p f = true) := h.filter p
  match hes : es.filter p with
  | [] =>
    rw [hes] at hperm
    exact hperm.nil_eq
  | [e] =>
    rw [hes] at hperm
    exact (List.perm_singleton.1 hperm.symm).symm
  | e :: f :: rest =>
    have hmem : ∀ g ∈ e :: f :: rest, p g = true := by
      rw [← hes]
      exact fun g hg => (List.mem_filter.1 hg).2
    rw [hes, List.pairwise_cons] at hlone
    exact absurd ⟨hmem e (by simp), hmem f (by simp)⟩ (hlone.1 f (by simp))

theorem slot_perm {es es' : List Edit} (h : Compatible es) (hp : es.Perm es') (source : Bytes)
    (i : Nat) : slot es source i = slot es' source i := by
  have hins : inserted es i = inserted es' i := by
    rw [inserted, inserted, filter_perm hp]
    refine h.imp fun {e f} hef => ?_
    have := hef.2
    simp only [Edit.sameInsertion, Edit.isInsertion, Bool.and_eq_false_iff,
      decide_eq_false_iff_not] at this
    simp only [decide_eq_true_eq]
    omega
  have hrep : replaced es i = replaced es' i := by
    rw [replaced, replaced, filter_perm hp]
    refine h.imp fun {e f} hef => ?_
    have := hef.1
    simp only [Span.overlaps, Bool.and_eq_false_iff, decide_eq_false_iff_not] at this
    simp only [decide_eq_true_eq]
    omega
  have hspared : spared es source i = spared es' source i := by
    have hany : es.any (·.remove.contains i) = es'.any (·.remove.contains i) := by
      rw [Bool.eq_iff_iff, List.any_eq_true, List.any_eq_true]
      simp only [hp.mem_iff]
    rw [spared, spared, hany]
  rw [slot, slot, hins, hrep, hspared]

/-- **What should be rendered does not depend on the order of the edits.** -/
theorem weave_perm {es es' : List Edit} (h : Compatible es) (hp : es.Perm es') (source : Bytes) :
    weave es source = weave es' source :=
  List.flatMap_congr fun i _ => slot_perm h hp source i

/-! ## Going back -/

/-- How far the renderer goes back over all edits: an edit that starts before the end of the last
one has it go back to that start. -/
def setback (cursor : Int) : List Edit → Nat
  | [] => 0
  | e :: rest => (cursor - e.remove.start).toNat + setback e.remove.stop rest

theorem setback_eq_zero {cursor : Int} {es : List Edit} :
    setback cursor es = 0 ↔ (∀ e ∈ es, cursor ≤ e.remove.start) ∧ InOrder es := by
  induction es generalizing cursor with
  | nil => simp [setback, InOrder]
  | cons e es ih =>
    have hle := e.remove.start_le_stop
    rw [setback, Nat.add_eq_zero_iff, ih, InOrder, InOrder, List.pairwise_cons,
      List.forall_mem_cons]
    refine ⟨fun ⟨hback, hlater, hes⟩ => ⟨⟨by omega, fun f hf => ?_⟩, hlater, hes⟩,
      fun ⟨⟨hback, _⟩, hlater, hes⟩ => ⟨by omega, hlater, hes⟩⟩
    have := hlater f hf
    omega

/-- How much longer an edit makes the file. -/
def growth (e : Edit) : Int := e.text.length - (e.remove.stop - e.remove.start)

theorem length_renderFrom {source : Bytes} {es : List Edit} {cursor : Int} (h0 : 0 ≤ cursor)
    (hl : cursor ≤ source.length) (hin : ∀ e ∈ es, Inside source e) :
    ((renderFrom source cursor es).length : Int)
      = source.length - cursor + (es.map growth).sum + setback cursor es := by
  induction es generalizing cursor with
  | nil =>
    rw [renderFrom, Bytes.sliceFrom, List.length_drop, Bytes.place_of_nonneg h0 hl]
    simp only [List.map_nil, List.sum_nil, setback]
    omega
  | cons e es ih =>
    obtain ⟨h₀, h₁⟩ := hin e List.mem_cons_self
    have hle := e.remove.start_le_stop
    have hrest := ih (by omega) h₁ fun f hf => hin f (List.mem_cons_of_mem _ hf)
    have hgap : (source.slice cursor e.remove.start).length = (e.remove.start - cursor).toNat := by
      rw [Bytes.slice, Bytes.place_of_nonneg h₀ (by omega), Bytes.place_of_nonneg h0 hl,
        List.length_drop, List.length_take]
      omega
    rw [renderFrom, List.length_append, List.length_append, hgap, List.map_cons, List.sum_cons,
      setback, growth]
    omega

/-! ## Insertions first -/

/-- The second edit inserts where the first, longer one starts. -/
def Spoils (e f : Edit) : Prop :=
  e.remove.start < e.remove.stop ∧ f.remove.start = e.remove.start ∧ f.remove.stop = e.remove.start

/-- No edit inserts where an earlier, longer one starts. -/
def InsertionsFirst (es : List Edit) : Prop := es.Pairwise fun e f => ¬ Spoils e f

instance (e f : Edit) : Decidable (Spoils e f) := inferInstanceAs (Decidable (_ ∧ _ ∧ _))

instance (es : List Edit) : Decidable (InsertionsFirst es) :=
  inferInstanceAs (Decidable (List.Pairwise _ _))

/-- Of two edits that do not cross, the one that starts later starts past the end of the other, or
it spoils it. -/
theorem stop_le_start {e f : Edit} (hcross : e.remove.overlaps f.remove = false)
    (hstart : e.remove.start ≤ f.remove.start) :
    e.remove.stop ≤ f.remove.start ↔ ¬ Spoils e f := by
  simp only [Span.overlaps, Bool.and_eq_false_iff, decide_eq_false_iff_not] at hcross
  have := f.remove.start_le_stop
  unfold Spoils
  omega

theorem inOrder_iff {es : List Edit} (h : Compatible es)
    (hsort : es.Pairwise fun e f => e.remove.start ≤ f.remove.start) :
    InOrder es ↔ InsertionsFirst es :=
  ⟨fun ho => (ho.and (h.and hsort)).imp fun hef => (stop_le_start hef.2.1.1 hef.2.2).1 hef.1,
    fun hi => (List.Pairwise.and hi (h.and hsort)).imp fun hef =>
      (stop_le_start hef.2.1.1 hef.2.2).2 hef.1⟩

/-- A relation that can only fail within one start may be looked at start by start. -/
theorem pairwise_iff_filter {R : Edit → Edit → Prop}
    (hR : ∀ e f, ¬ R e f → f.remove.start = e.remove.start) {es : List Edit} :
    es.Pairwise R ↔ ∀ a, (es.filter (·.remove.start = a)).Pairwise R := by
  refine ⟨fun h a => h.filter _, fun h => ?_⟩
  induction es with
  | nil => exact .nil
  | cons e es ih =>
    refine List.pairwise_cons.2 ⟨fun f hf => ?_, ih fun a => ?_⟩
    · by_contra hn
      have hsame := h e.remove.start
      rw [List.filter_cons_of_pos (by simp), List.pairwise_cons] at hsame
      exact hn (hsame.1 f (List.mem_filter.2 ⟨hf, by simpa using hR e f hn⟩))
    · exact (h a).sublist ((List.sublist_cons_self e es).filter _)

section
variable (s : Staging)

theorem sorted_perm : s.sorted.Perm s.edits := List.mergeSort_perm _ _

theorem sorted_pairwise : s.sorted.Pairwise fun e f => e.remove.start ≤ f.remove.start := by
  have := @List.pairwise_mergeSort Edit (fun e f => decide (e.remove.start ≤ f.remove.start))
    (by intro a b c; simp only [decide_eq_true_eq]; omega)
    (by intro a b; simp only [Bool.or_eq_true, decide_eq_true_eq]; omega) s.edits
  simpa [sorted] using this

/-- Edits with one start keep their order. -/
theorem sorted_filter (a : Int) :
    s.sorted.filter (·.remove.start = a) = s.edits.filter (·.remove.start = a) := by
  have hle : (s.edits.filter (·.remove.start = a)).Pairwise
      fun e f => decide (e.remove.start ≤ f.remove.start) = true := by
    refine List.pairwise_of_forall_mem_list fun e he f hf => ?_
    have he := (List.mem_filter.1 he).2
    have hf := (List.mem_filter.1 hf).2
    simp only [decide_eq_true_eq] at he hf ⊢
    omega
  have hsub : (s.edits.filter (·.remove.start = a)).Sublist s.sorted :=
    List.sublist_mergeSort (by intro a b c; simp only [decide_eq_true_eq]; omega)
      (by intro a b; simp only [Bool.or_eq_true, decide_eq_true_eq]; omega) hle
      List.filter_sublist
  have hsame := hsub.filter (·.remove.start = a)
  rw [List.filter_filter] at hsame
  simp only [Bool.and_self] at hsame
  exact (hsame.eq_of_length (s.sorted_perm.filter _).length_eq.symm).symm

theorem insertionsFirst_sorted : InsertionsFirst s.sorted ↔ InsertionsFirst s.edits := by
  have hR : ∀ e f : Edit, ¬ ¬ Spoils e f → f.remove.start = e.remove.start := by
    intro e f h
    exact (not_not.1 h).2.1
  rw [InsertionsFirst, InsertionsFirst, pairwise_iff_filter hR, pairwise_iff_filter hR]
  simp only [sorted_filter]

end

/-- Compatible edits can be put in the order of the file. -/
theorem exists_inOrder {es : List Edit} (h : Compatible es) : ∃ es', es'.Perm es ∧ InOrder es' := by
  let before (e f : Edit) : Bool :=
    decide (e.remove.start < f.remove.start ∨
      (e.remove.start = f.remove.start ∧ e.remove.stop ≤ f.remove.stop))
  have hp : (es.mergeSort before).Perm es := List.mergeSort_perm _ _
  have hsort := @List.pairwise_mergeSort Edit before
    (by intro a b c; simp only [before, decide_eq_true_eq]; omega)
    (by intro a b; simp only [before, Bool.or_eq_true, decide_eq_true_eq]; omega) es
  refine ⟨_, hp, ((h.perm hp.symm).and hsort).imp fun {e f} hef => ?_⟩
  have hbefore : e.remove.start < f.remove.start ∨
      (e.remove.start = f.remove.start ∧ e.remove.stop ≤ f.remove.stop) := by
    simpa [before] using hef.2
  refine (stop_le_start hef.1.1 (by omega)).2 fun hspoils => ?_
  obtain ⟨h₁, h₂, h₃⟩ := hspoils
  omega

theorem length_weave {source : Bytes} {es : List Edit} (hin : ∀ e ∈ es, Inside source e)
    (h : Compatible es) :
    ((weave es source).length : Int) = source.length + (es.map growth).sum := by
  obtain ⟨es', hp, horder⟩ := exists_inOrder h
  have hin' : ∀ e ∈ es', Inside source e := fun e he => hin e (hp.mem_iff.1 he)
  have hstart : ∀ e ∈ es', 0 ≤ e.remove.start := fun e he => (hin' e he).start_nonneg
  have hlen := length_renderFrom (Int.le_refl 0) (by omega) hin'
  rw [setback_eq_zero.2 ⟨hstart, horder⟩,
    renderFrom_eq_woven (Int.le_refl 0) (by omega) hin' hstart horder] at hlen
  rw [weave_perm h hp.symm, weave_eq_woven, ← (hp.map growth).sum_eq]
  simpa using hlen

/-- **Which edits are rendered as they should be.** -/
theorem render_eq_weave_iff {source : Bytes} {es : List Edit} (hin : ∀ e ∈ es, Inside source e)
    (h : Compatible es) :
    render ⟨source, es⟩ = weave es source ↔ InsertionsFirst es := by
  have hp := sorted_perm ⟨source, es⟩
  have hsort := sorted_pairwise ⟨source, es⟩
  have hin' : ∀ e ∈ sorted ⟨source, es⟩, Inside source e := fun e he => hin e (hp.mem_iff.1 he)
  have hcomp := h.perm hp.symm
  have hstart : ∀ e ∈ sorted ⟨source, es⟩, 0 ≤ e.remove.start :=
    fun e he => (hin' e he).start_nonneg
  rw [← insertionsFirst_sorted ⟨source, es⟩, ← inOrder_iff hcomp hsort, weave_perm h hp.symm]
  refine ⟨fun heq => ?_, fun horder => ?_⟩
  · have hlen := length_renderFrom (Int.le_refl 0) (by omega) hin'
    have hweave := length_weave hin' hcomp
    rw [← heq] at hweave
    change ((renderFrom source 0 (sorted ⟨source, es⟩)).length : Int) = _ at hweave
    have hback : setback 0 (sorted ⟨source, es⟩) = 0 := by omega
    exact (setback_eq_zero.1 hback).2
  · rw [render, weave_eq_woven]
    exact renderFrom_eq_woven (Int.le_refl 0) (by omega) hin' hstart horder

/-! ## Edits that take bytes out -/

/-- Of edits that take bytes out and are apart, at most one is seen at an offset, and it does there
what its swap does. -/
theorem slot_eq_image {source : Bytes} {es : List Edit} (ht : ∀ e ∈ es, Takes source e)
    (hd : Swap.Apart (es.map Edit.toSwap)) (i : Nat) :
    slot es source i = source[i]?.toList.flatMap (Swap.image (es.map Edit.toSwap) i) := by
  induction es with
  | nil => exact slot_nil source i
  | cons e es ih =>
    rw [Swap.Apart, List.map_cons, List.pairwise_cons] at hd
    obtain ⟨-, hne, hinside⟩ := ht e List.mem_cons_self
    have hbounds := @Span.contains_iff e.remove i
    cases hin : e.remove.contains i with
    | false =>
      have hstart : e.remove.start ≠ i := fun hs => by
        rw [hbounds.2 ⟨by omega, by omega⟩] at hin
        cases hin
      have himage : Swap.image ((e :: es).map Edit.toSwap) i
          = Swap.image (es.map Edit.toSwap) i := by
        funext b
        simp only [Swap.image, List.map_cons, List.find?_cons, Edit.toSwap, hin]
      rw [slot_cons_clear hin hstart, himage]
      exact ih (fun f hf => ht f (List.mem_cons_of_mem _ hf)) hd.2
    | true =>
      have hi := hbounds.1 hin
      have hother : ∀ f ∈ es, f.remove.start ≠ i := fun f hf hs => by
        have hclear : f.remove.contains i = false :=
          hd.1 f.toSwap (List.mem_map_of_mem hf) i hin
        have := (ht f (List.mem_cons_of_mem _ hf)).nonempty
        rw [Span.contains_iff.2 ⟨by omega, by omega⟩] at hclear
        cases hclear
      rw [slot_cons_range hin hother, List.getElem?_eq_getElem (by omega)]
      simp [Swap.image, Edit.toSwap, hin]

/-- **Rendering swaps the ranges of the edits**, whatever order they were accepted in. -/
theorem render_eq_apply {s : Staging} (ht : ∀ e ∈ s.edits, Takes s.source e)
    (hd : Swap.Apart (s.edits.map Edit.toSwap)) :
    s.render = Swap.apply (s.edits.map Edit.toSwap) s.source := by
  have hcomp : Compatible s.edits := by
    refine (List.pairwise_map.1 hd).imp_of_mem fun {e f} he hf hef => ?_
    obtain ⟨hstart, hne, -⟩ := ht e he
    have hne' := (ht f hf).nonempty
    have hclear : ∀ i : Nat, e.remove.contains i → f.remove.contains i = false := hef
    refine ⟨?_, by simp [Edit.sameInsertion, Edit.isInsertion]; omega⟩
    by_contra hcross
    obtain ⟨i, hi, hi'⟩ := (Span.overlaps_iff_share hne hne').1 (by simpa using hcross)
    obtain ⟨k, rfl⟩ := Int.eq_ofNat_of_zero_le (Int.le_trans hstart (Span.contains_iff.1 hi).1)
    rw [hclear k hi] at hi'
    cases hi'
  have hfirst : InsertionsFirst s.edits := hcomp.imp_of_mem fun {e f} _ hf _ hspoils => by
    obtain ⟨-, hstart, hstop⟩ := hspoils
    have := (ht f hf).nonempty
    omega
  rw [(render_eq_weave_iff (fun e he => ⟨(ht e he).start_nonneg, (ht e he).inside⟩) hcomp).2 hfirst,
    weave, funext (slot_eq_image ht hd), List.range_eq_range', flatMap_range'_image, List.drop_zero,
    List.take_of_length_le (Nat.le_succ _), Swap.apply]

/-! ## Accepted sequences -/

/-- **Rendering knows the order in which edits were accepted only by what is inserted at the start
of a longer edit.** For edits accepted one after the other, none from before the file, the rendering
is what it should be just when insertions were accepted first. If they were, another order in which
the edits are accepted renders the same just when it has insertions first, too. -/
theorem render_order_free {source : Bytes} {es : List Edit} {s : Staging}
    (hstaged : es.foldlM stage ⟨source, []⟩ = .ok s) (hstart : ∀ e ∈ es, 0 ≤ e.remove.start) :
    (s.render = weave es source ↔ InsertionsFirst es) ∧
    (InsertionsFirst es → ∀ es' s', es.Perm es' → es'.foldlM stage ⟨source, []⟩ = .ok s' →
      (s'.render = s.render ↔ InsertionsFirst es')) := by
  obtain ⟨rfl, hstop, hcomp⟩ := foldlM_stage_eq_ok.1 hstaged
  have hin : ∀ e ∈ es, Inside source e := fun e he => ⟨hstart e he, hstop e he⟩
  have hiff := render_eq_weave_iff hin hcomp
  refine ⟨hiff, fun hfirst es' s' hp hstaged' => ?_⟩
  obtain ⟨rfl, -, hcomp'⟩ := foldlM_stage_eq_ok.1 hstaged'
  have hin' : ∀ e ∈ es', Inside source e := fun e he => hin e (hp.mem_iff.2 he)
  rw [hiff.2 hfirst, weave_perm hcomp hp]
  exact render_eq_weave_iff hin' hcomp'

/-! ### An insertion at the start of a range -/

namespace Sample

def abc : Bytes := Bytes.ofString "abc"

/-- Puts `X` in the place of the first byte. -/
def exchange : Edit := ⟨⟨0, 1, by decide⟩, 0, Bytes.ofString "X", by decide⟩

/-- Inserts `Y` before the first byte. -/
def insertion : Edit := ⟨⟨0, 0, by decide⟩, 0, Bytes.ofString "Y", by decide⟩

end Sample

open Sample in
/-- The insertion accepted first. -/
theorem render_order_free_insertion :
    ∃ s, [insertion, exchange].foldlM stage ⟨abc, []⟩ = .ok s ∧
      s.render = Bytes.ofString "YXbc" := by
  have hstaged : [insertion, exchange].foldlM stage ⟨abc, []⟩
      = .ok ⟨abc, [insertion, exchange]⟩ := rfl
  refine ⟨_, hstaged, ?_⟩
  rw [(render_order_free hstaged (by decide)).1.2 (by decide)]
  decide

open Sample in
/-- **The byte that is taken out comes out once more** when the insertion is accepted last, and the
two orders are rendered differently. -/
theorem render_exchange_then_insertion :
    ∃ s s', [exchange, insertion].foldlM stage ⟨abc, []⟩ = .ok s ∧
      [insertion, exchange].foldlM stage ⟨abc, []⟩ = .ok s' ∧
      s.render = Bytes.ofString "XYabc" ∧ s'.render = Bytes.ofString "YXbc" := by
  refine ⟨_, _, rfl, rfl, ?_, ?_⟩
  · rw [render, sorted, List.mergeSort_of_pairwise (by decide)]
    decide
  · rw [render, sorted, List.mergeSort_of_pairwise (by decide)]
    decide

end Staging

end AssetLift
