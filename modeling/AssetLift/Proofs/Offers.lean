import AssetLift.Proofs.Weaving

/-!
# Edits offered one after the other

Edits that each take something out of a file are offered in any number and any order. An edit is
refused when it ends past the file or has an offset in common with an edit accepted before
(`stage_error_iff`), and then nothing changes. So at every moment the accepted ranges are apart and
inside the file (`offers_clear`), and the rendering can be taken to pieces again:

* `image`: where the text of an accepted edit stands in the rendering; `drift` says by how much the
  edits before it have moved the place.
* `cut_renderFrom`: cut at these places, the rendering falls into the bytes that stood between the
  ranges, and at the places stand the texts.
-/

namespace AssetLift

/-- The bytes before, between and behind ranges, from `cursor` on. -/
def Bytes.cutFrom (b : Bytes) (cursor : Int) : List Span → List Bytes
  | [] => [b.sliceFrom cursor]
  | r :: rest => b.slice cursor r.start :: cutFrom b r.stop rest

/-- A file cut at ranges that follow one another. -/
def Bytes.cut (b : Bytes) (rs : List Span) : List Bytes := b.cutFrom 0 rs

namespace Staging

/-! ## Offers -/

/-- What is staged once an edit has been offered. -/
def offer (s : Staging) (e : Edit) : Staging :=
  match s.stage e with
  | .ok s' => s'
  | .error _ => s

/-- What is staged of the edits offered for a file. -/
def offers (source : Bytes) (es : List Edit) : Staging := es.foldl offer ⟨source, []⟩

theorem offers_snoc (source : Bytes) (es : List Edit) (e : Edit) :
    offers source (es ++ [e]) = (offers source es).offer e := by
  simp [offers]

/-- **An edit is refused** when it ends past the file or shares an offset with an accepted one. -/
theorem stage_error_iff {s : Staging} {e : Edit} (he : e.remove.start < e.remove.stop)
    (hs : ∀ f ∈ s.edits, f.remove.start < f.remove.stop) :
    (∃ c, s.stage e = .error c) ↔ (s.source.length : Int) < e.remove.stop ∨
      ∃ f ∈ s.edits, ∃ i, f.remove.contains i = true ∧ e.remove.contains i = true := by
  have hshare : ∀ f ∈ s.edits, f.remove.overlaps e.remove = true ↔
      ∃ i, f.remove.contains i = true ∧ e.remove.contains i = true :=
    fun f hf => Span.overlaps_iff_share (hs f hf) he
  constructor
  · rintro ⟨c, hc⟩
    by_contra hno
    push Not at hno
    obtain ⟨hinside, hclear⟩ := hno
    have hok : s.stage e = .ok { s with edits := s.edits ++ [e] } := by
      refine stage_eq_ok.2 ⟨hinside, fun f hf => ⟨?_, ?_⟩, rfl⟩
      · by_contra hcross
        obtain ⟨i, hi, hi'⟩ := (hshare f hf).1 (by simpa using hcross)
        exact hclear f hf i hi hi'
      · have := hs f hf
        simp only [Edit.sameInsertion, Edit.isInsertion, Bool.and_eq_false_iff,
          decide_eq_false_iff_not]
        omega
    rw [hc] at hok
    cases hok
  · intro h
    cases hstage : s.stage e with
    | error c => exact ⟨c, rfl⟩
    | ok s' =>
      obtain ⟨hinside, hclear, -⟩ := stage_eq_ok.1 hstage
      rcases h with hpast | ⟨f, hf, hi⟩
      · omega
      · have := (hclear f hf).1
        rw [(hshare f hf).2 hi] at this
        cases this

/-- Edits that each take something out, all inside the file and no two crossing. -/
structure Clear (source : Bytes) (es : List Edit) : Prop where
  takes : ∀ e ∈ es, Takes source e
  apart : es.Pairwise fun e f => e.remove.overlaps f.remove = false

theorem Clear.perm {source : Bytes} {es es' : List Edit} (h : Clear source es) (hp : es.Perm es') :
    Clear source es' where
  takes e he := h.takes e (hp.mem_iff.2 he)
  apart := hp.pairwise h.apart fun hef => by rwa [Span.overlaps_comm]

/-- **One offer more** keeps the accepted edits clear. -/
theorem offer_clear {source : Bytes} {s : Staging} (hs : s.source = source)
    (h : Clear source s.edits) {e : Edit} (h₀ : 0 ≤ e.remove.start)
    (he : e.remove.start < e.remove.stop) :
    (s.offer e).source = source ∧ Clear source (s.offer e).edits := by
  unfold offer
  cases hstage : s.stage e with
  | error c => exact ⟨hs, h⟩
  | ok s' =>
    obtain ⟨hinside, hnew, rfl⟩ := stage_eq_ok.1 hstage
    rw [hs] at hinside
    refine ⟨hs, fun f hf => ?_, ?_⟩
    · rcases List.mem_append.1 hf with hf | hf
      · exact h.takes f hf
      · rw [List.mem_singleton.1 hf]
        exact ⟨h₀, he, hinside⟩
    · refine List.pairwise_append.2 ⟨h.apart, List.pairwise_singleton _ _, fun f hf g hg => ?_⟩
      rw [List.mem_singleton.1 hg]
      exact (hnew f hf).1

/-- **The accepted edits are clear** after any number of offers. -/
theorem offers_clear {source : Bytes} {es : List Edit}
    (h : ∀ e ∈ es, 0 ≤ e.remove.start ∧ e.remove.start < e.remove.stop) :
    (offers source es).source = source ∧ Clear source (offers source es).edits := by
  induction es using List.reverseRecOn with
  | nil => exact ⟨rfl, by simp [offers], .nil⟩
  | append_singleton es e ih =>
    obtain ⟨hs, hclear⟩ := ih fun f hf => h f (List.mem_append_left _ hf)
    obtain ⟨h₀, he⟩ := h e (by simp)
    rw [offers_snoc]
    exact offer_clear hs hclear h₀ he

theorem offers_source (source : Bytes) (es : List Edit) : (offers source es).source = source := by
  induction es using List.reverseRecOn with
  | nil => rfl
  | append_singleton es e ih =>
    rw [offers_snoc, offer]
    cases hstage : (offers source es).stage e with
    | error c => exact ih
    | ok s' =>
      obtain ⟨-, -, rfl⟩ := stage_eq_ok.1 hstage
      exact ih

/-! ## Clear edits in the order of the file -/

section
variable {source : Bytes} {es : List Edit} (h : Clear source es)
include h

theorem Clear.inOrder (hsort : es.Pairwise fun e f => e.remove.start ≤ f.remove.start) :
    InOrder es := by
  refine (h.apart.and hsort).imp_of_mem fun {e f} he hf hef => ?_
  refine (stop_le_start hef.1 hef.2).2 fun hspoils => ?_
  obtain ⟨-, hstart, hstop⟩ := hspoils
  have := (h.takes f hf).nonempty
  omega

/-- There is only one such order. -/
theorem Clear.order_unique {es' : List Edit} (hp : es.Perm es') (ho : InOrder es)
    (ho' : InOrder es') : es = es' := by
  refine hp.eq_of_pairwise (fun e f he hf hef hfe => ?_) ho ho'
  have h₁ := (h.takes e he).nonempty
  have h₂ := (h.takes f (hp.mem_iff.2 hf)).nonempty
  omega

end

theorem Clear.render {source : Bytes} {s : Staging} (hs : s.source = source)
    (h : Clear source s.edits) {es : List Edit} (hp : es.Perm s.edits) (ho : InOrder es) :
    s.render = renderFrom source 0 es := by
  have hsorted := s.sorted_perm
  have hclear := h.perm hsorted.symm
  rw [Staging.render, hs,
    hclear.order_unique (hsorted.trans hp.symm) (hclear.inOrder s.sorted_pairwise) ho]

/-! ## Where texts stand -/

/-- By how much an offset moves once edits are made: by what the edits that end there or before
have brought. -/
def drift (es : List Edit) (i : Int) : Int := ((es.filter (·.remove.stop ≤ i)).map growth).sum

/-- Where the text of an edit stands once the edits `es` are made. -/
def image (es : List Edit) (e : Edit) : Span where
  start := e.remove.start + drift es e.remove.start
  stop := e.remove.start + drift es e.remove.start + e.text.length

theorem drift_perm {es es' : List Edit} (hp : es.Perm es') (i : Int) : drift es i = drift es' i :=
  ((hp.filter _).map _).sum_eq

theorem image_perm_edits {es es' : List Edit} (hp : es.Perm es') : image es = image es' := by
  funext e
  simp only [image, drift_perm hp]

/-- The places of the texts one after the other: `moved` is how far the edits before have moved the
first of them. -/
def imagesFrom (moved : Int) : List Edit → List Span
  | [] => []
  | e :: rest =>
    ⟨e.remove.start + moved, e.remove.start + moved + e.text.length,
        Int.le_add_of_nonneg_right (Int.natCast_nonneg _)⟩
      :: imagesFrom (moved + growth e) rest

theorem imagesFrom_eq {pre es : List Edit} (hwide : ∀ e ∈ es, e.remove.start < e.remove.stop)
    (ho : InOrder (pre ++ es)) :
    imagesFrom (pre.map growth).sum es = es.map (image (pre ++ es)) := by
  induction es generalizing pre with
  | nil => rfl
  | cons e es ih =>
    have hsplit := List.pairwise_append.1 ho
    have hlater := (List.pairwise_cons.1 hsplit.2.1).1
    have he := hwide e List.mem_cons_self
    have hbefore : (pre ++ e :: es).filter (·.remove.stop ≤ e.remove.start) = pre := by
      rw [List.filter_append, List.filter_eq_self.2, List.filter_eq_nil_iff.2, List.append_nil]
      · intro f hf
        simp only [decide_eq_true_eq]
        rcases List.mem_cons.1 hf with rfl | hf
        · omega
        · have := hlater f hf
          have := hwide f (List.mem_cons_of_mem _ hf)
          omega
      · intro f hf
        simpa using hsplit.2.2 f hf e List.mem_cons_self
    have hrest := @ih (pre ++ [e]) (fun f hf => hwide f (List.mem_cons_of_mem _ hf))
      (by simpa using ho)
    rw [List.map_append, List.map_singleton, List.sum_append, List.sum_singleton,
      List.append_assoc, List.singleton_append] at hrest
    have hdrift : drift (pre ++ e :: es) e.remove.start = (pre.map growth).sum := by
      unfold drift
      rw [hbefore]
    rw [imagesFrom, hrest, List.map_cons]
    simp only [image, hdrift]

/-! ## Taking a rendering to pieces -/

theorem slice_between {a b c : Bytes} :
    (a ++ (b ++ c)).slice (a.length : Int) ((a.length : Int) + b.length) = b := by
  rw [Bytes.slice_eq (by omega) (by omega) (by simp only [List.length_append]; omega),
    Int.toNat_natCast, show ((a.length : Int) + b.length).toNat = a.length + b.length by omega,
    List.take_length_add_append, List.drop_left, List.take_left]

/-- **A rendering falls into the bytes between the ranges** when it is cut where the texts stand,
and the texts stand there. `out` has been rendered already, from what stands before the cursor. -/
theorem cut_renderFrom {source : Bytes} {es : List Edit} {cursor : Int} (h₀ : 0 ≤ cursor)
    (hl : cursor ≤ source.length) (hin : ∀ e ∈ es, Inside source e)
    (hc : ∀ e ∈ es, cursor ≤ e.remove.start) (ho : InOrder es) (out : Bytes) :
    (out ++ renderFrom source cursor es).cutFrom out.length (imagesFrom (out.length - cursor) es)
        = source.cutFrom cursor (es.map (·.remove)) ∧
      (imagesFrom (out.length - cursor) es).map
          (fun r => (out ++ renderFrom source cursor es).slice r.start r.stop)
        = es.map (·.text) := by
  induction es generalizing cursor out with
  | nil =>
    refine ⟨?_, rfl⟩
    rw [imagesFrom, List.map_nil, Bytes.cutFrom, Bytes.cutFrom, renderFrom, Bytes.sliceFrom,
      Bytes.place_of_nonneg (by omega) (by simp), Int.toNat_natCast, List.drop_left]
  | cons e es ih =>
    obtain ⟨hlater, ho⟩ := List.pairwise_cons.1 ho
    obtain ⟨h₁, h₂⟩ := hin e List.mem_cons_self
    have hle := e.remove.start_le_stop
    have hce := hc e List.mem_cons_self
    have hgap := @Bytes.length_slice source _ _ h₀ hce (by omega)
    let gap := source.slice cursor e.remove.start
    -- the rest is rendered behind the gap and the text
    have hall : out ++ renderFrom source cursor (e :: es)
        = (out ++ gap ++ e.text) ++ renderFrom source e.remove.stop es := by
      rw [renderFrom]
      simp only [gap, List.append_assoc]
    have hlen : ((out ++ gap ++ e.text).length : Int)
        = out.length + (e.remove.start - cursor) + e.text.length := by
      simp only [List.length_append, gap]
      omega
    obtain ⟨hcut, htexts⟩ := ih (by omega) h₂ (fun f hf => hin f (List.mem_cons_of_mem _ hf)) hlater
      ho (out ++ gap ++ e.text)
    have hmoved : ((out ++ gap ++ e.text).length : Int) - e.remove.stop
        = out.length - cursor + growth e := by
      rw [hlen, growth]
      omega
    rw [← hall, hmoved] at hcut htexts
    have hstop : e.remove.start + (out.length - cursor) + (e.text.length : Int)
        = ((out ++ gap ++ e.text).length : Int) := by
      rw [hlen]
      omega
    have hstart : e.remove.start + ((out.length : Int) - cursor)
        = ((out ++ gap).length : Int) := by
      simp only [List.length_append, gap]
      omega
    have hfirst : (out ++ renderFrom source cursor (e :: es)).slice out.length
        (e.remove.start + (out.length - cursor)) = gap := by
      rw [hall, hstart, List.length_append, Nat.cast_add, List.append_assoc, List.append_assoc]
      exact slice_between
    have htext : (out ++ renderFrom source cursor (e :: es)).slice
        (e.remove.start + (out.length - cursor))
        (e.remove.start + (out.length - cursor) + e.text.length) = e.text := by
      rw [hall, hstart, List.append_assoc]
      exact slice_between
    constructor
    · rw [imagesFrom, List.map_cons, Bytes.cutFrom, Bytes.cutFrom]
      simp only [hfirst, hstop, hcut, gap]
    · rw [imagesFrom, List.map_cons, List.map_cons, htexts, htext]

/-! ## What has been accepted -/

/-- What is staged keeps the file and can be told from its rendering. -/
structure Exact (source : Bytes) (s : Staging) : Prop where
  /-- No two of the ranges have an offset in common. -/
  apart : s.edits.Pairwise fun e f => ∀ i, e.remove.contains i → f.remove.contains i = false
  inside : ∀ e ∈ s.edits, 0 ≤ e.remove.start ∧ e.remove.stop ≤ source.length
  length : (s.render.length : Int)
    = source.length + (s.edits.map fun e => (e.text.length : Int)
      - (e.remove.stop - e.remove.start)).sum
  /-- Cut where the texts stand, the rendering falls into the bytes between the ranges. -/
  between : ∀ es : List Edit, es.Perm s.edits →
    es.Pairwise (fun e f => e.remove.start ≤ f.remove.start) →
    s.render.cut (es.map (image s.edits)) = source.cut (es.map (fun e => e.remove))
  texts : ∀ e ∈ s.edits,
    s.render.slice (image s.edits e).start (image s.edits e).stop = e.text

theorem Clear.exact {source : Bytes} {s : Staging} (hs : s.source = source)
    (h : Clear source s.edits) : Exact source s := by
  have hin : ∀ {es : List Edit}, es.Perm s.edits → ∀ e ∈ es, Inside source e := fun hp e he =>
    have := h.takes e (hp.mem_iff.1 he)
    ⟨this.start_nonneg, this.inside⟩
  -- the accepted edits in the order of the file, and what the rendering falls into
  have hpieces : ∀ {es : List Edit}, es.Perm s.edits →
      es.Pairwise (fun e f => e.remove.start ≤ f.remove.start) →
      s.render.cut (es.map (image s.edits)) = source.cut (es.map (·.remove)) ∧
        (es.map (image s.edits)).map (fun r => s.render.slice r.start r.stop)
          = es.map (·.text) := by
    intro es hp hsort
    have hclear := h.perm hp.symm
    have ho := hclear.inOrder hsort
    have himages := @imagesFrom_eq [] es (fun e he => (hclear.takes e he).nonempty) ho
    rw [List.nil_append, image_perm_edits hp] at himages
    rw [h.render hs hp ho, ← himages]
    simpa [Bytes.cut] using cut_renderFrom (Int.le_refl 0) (by omega) (hin hp)
      (fun e he => (hclear.takes e he).start_nonneg) ho []
  have hsorted := s.sorted_perm
  constructor
  · refine h.apart.imp_of_mem fun {e f} he hf hef i hi => ?_
    by_contra hi'
    have hcross := (Span.overlaps_iff_share (h.takes e he).nonempty (h.takes f hf).nonempty).2
      ⟨i, hi, by simpa using hi'⟩
    rw [hef] at hcross
    cases hcross
  · intro e he
    exact ⟨(h.takes e he).start_nonneg, (h.takes e he).inside⟩
  · have hclear := h.perm hsorted.symm
    have ho := hclear.inOrder s.sorted_pairwise
    have hstart : ∀ e ∈ s.sorted, 0 ≤ e.remove.start :=
      fun e he => (hclear.takes e he).start_nonneg
    have hlen := length_renderFrom (Int.le_refl 0) (by omega) (hin hsorted)
    rw [setback_eq_zero.2 ⟨hstart, ho⟩, ← h.render hs hsorted ho,
      (hsorted.map growth).sum_eq] at hlen
    rw [Int.sub_zero, Nat.cast_zero, Int.add_zero] at hlen
    exact hlen
  · exact fun es hp hsort => (hpieces hp hsort).1
  · intro e he
    have htexts := (hpieces hsorted s.sorted_pairwise).2
    rw [List.map_map, List.map_inj_left] at htexts
    exact htexts e (hsorted.mem_iff.2 he)

/-- **Replacing edits are kept apart and exact.** Let each of the edits offered take something out,
none from before the file. An offer is refused just when the edit ends past the file or shares an
offset with an edit accepted before; refused, it changes nothing, and else it is added. What is
accepted is `Exact`, whatever was offered in between, and its rendering does not depend on the order
of the offers. -/
theorem offers_exact {source : Bytes} {es : List Edit}
    (h : ∀ e ∈ es, 0 ≤ e.remove.start ∧ e.remove.start < e.remove.stop) :
    (∀ pre e post, es = pre ++ e :: post →
      ((∃ c, (offers source pre).stage e = .error c) ↔ (source.length : Int) < e.remove.stop ∨
        ∃ f ∈ (offers source pre).edits, ∃ i,
          f.remove.contains i = true ∧ e.remove.contains i = true) ∧
      ((∃ c, (offers source pre).stage e = .error c) →
        offers source (pre ++ [e]) = offers source pre) ∧
      ((¬ ∃ c, (offers source pre).stage e = .error c) →
        (offers source (pre ++ [e])).edits = (offers source pre).edits ++ [e])) ∧
    Exact source (offers source es) ∧
    ∀ es', (offers source es').edits.Perm (offers source es).edits →
      (offers source es').render = (offers source es).render := by
  obtain ⟨hs, hclear⟩ := @offers_clear source es h
  refine ⟨fun pre e post hes => ⟨?_, ?_, ?_⟩, hclear.exact hs, fun es' hp => ?_⟩
  · have hpre := @offers_clear source pre fun f hf => h f (by simp [hes, hf])
    rw [stage_error_iff (h e (by simp [hes])).2 fun f hf => (hpre.2.takes f hf).nonempty, hpre.1]
  · rintro ⟨c, hc⟩
    rw [offers_snoc, offer, hc]
  · intro hno
    rw [offers_snoc, offer]
    cases hstage : (offers source pre).stage e with
    | error c => exact absurd ⟨c, hstage⟩ hno
    | ok s' =>
      obtain ⟨-, -, rfl⟩ := stage_eq_ok.1 hstage
      rfl
  · have hsorted := (offers source es).sorted_perm
    have ho := (hclear.perm hsorted.symm).inOrder (offers source es).sorted_pairwise
    rw [hclear.render hs hsorted ho,
      (hclear.perm hp.symm).render (offers_source source es') (hsorted.trans hp.symm) ho]

namespace Sample

def word : Bytes := Bytes.ofString "abcdef"

/-- Ends at the last byte. -/
def tail : Edit := ⟨⟨3, 6, by decide⟩, 3, Bytes.ofString "XY", by decide⟩

/-- Ends where `tail` starts. -/
def middle : Edit := ⟨⟨1, 3, by decide⟩, 1, [], by decide⟩

/-- Shares the offset 3 with `tail`. -/
def crossing : Edit := ⟨⟨2, 4, by decide⟩, 2, [], by decide⟩

def past : Edit := ⟨⟨0, 7, by decide⟩, 0, [], by decide⟩

end Sample

open Sample in
/-- Two of four offers are refused, and what the other two have brought is told from the file. -/
theorem offers_tail_crossing_middle_past :
    (∃ c, (offers word [tail]).stage crossing = .error c) ∧
      (offers word [tail, crossing]).edits = [tail] ∧
      (offers word [tail, crossing, middle, past]).edits = [tail, middle] ∧
      Exact word (offers word [tail, crossing, middle, past]) := by
  have h := @offers_exact word [tail, crossing, middle, past] (by decide)
  have hcross := ((h.1 [tail] crossing [middle, past] rfl).1).2
    (.inr ⟨tail, by decide, 3, by decide, by decide⟩)
  exact ⟨hcross, congrArg edits ((h.1 [tail] crossing [middle, past] rfl).2.1 hcross), by decide,
    h.2.1⟩

end Staging

end AssetLift
