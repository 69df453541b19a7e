import AssetLift.Proofs.Activity
import AssetLift.Proofs.Removal

/-!
# One removal in any surroundings

The source around an entry is arbitrary: commas in comments, commas in a row, the ends of the file. So
what the two searches find is said in bytes alone: a comma ahead with blanks alone before it
(`Bytes.CommaAhead`), a comma behind with blanks alone after it (`Bytes.CommaBehind`).

* `commaAfter?_iff`, `commaBefore?_iff`: the searches find just these commas.
* `plan_flags`: which comma goes with an entry, and when none does.
* `Plan.edit_restores`: what a plan takes besides the pair, its edit puts back on the same side.
* `removal_exact`: plan and edit for every entry that lies in its file.
-/

namespace AssetLift

namespace Bytes

/-- The bytes begin with blanks and then a comma. -/
structure CommaAhead (b blanks : Bytes) : Prop where
  blank : ∀ c ∈ blanks, isBlank c = true
  starts : blanks ++ [comma] <+: b

/-- The bytes end with a comma and then blanks. -/
structure CommaBehind (b blanks : Bytes) : Prop where
  blank : ∀ c ∈ blanks, isBlank c = true
  ends : comma :: blanks <:+ b

theorem leadingBlanks_append {blanks : Bytes} (h : ∀ c ∈ blanks, isBlank c = true) (rest : Bytes) :
    leadingBlanks (blanks ++ comma :: rest) = blanks.length := by
  rw [leadingBlanks, List.takeWhile_append_of_pos h,
    List.takeWhile_cons_of_neg (by simp [isBlank_comma]), List.append_nil]

theorem trimRight_append {blanks : Bytes} (h : ∀ c ∈ blanks, isBlank c = true) (head : Bytes) :
    trimRight (head ++ comma :: blanks) = head ++ [comma] := by
  have hrev : ∀ c ∈ blanks.reverse, isBlank c = true := by simpa using h
  rw [trimRight, List.reverse_append, List.reverse_cons, List.append_assoc,
    List.dropWhile_append_of_pos hrev, List.singleton_append,
    List.dropWhile_cons_of_neg (by simp [isBlank_comma])]
  simp

/-- The blanks that are trimmed. -/
theorem trimRight_blanks (b : Bytes) :
    ∃ blanks : Bytes, (∀ c ∈ blanks, isBlank c = true) ∧ b.trimRight ++ blanks = b := by
  refine ⟨(b.reverse.takeWhile isBlank).reverse, ?_, ?_⟩
  · intro c hc
    rw [List.mem_reverse] at hc
    exact List.all_eq_true.1 List.all_takeWhile c hc
  · rw [trimRight, ← List.reverse_append, List.takeWhile_append_dropWhile, List.reverse_reverse]

theorem sliceTo_append_slice {b : Bytes} {i j : Int} (hi : 0 ≤ i) (hij : i ≤ j)
    (hj : j ≤ b.length) : b.sliceTo i ++ b.slice i j = b.sliceTo j := by
  have h : ∀ k : Int, 0 ≤ k → k ≤ b.length → b.sliceTo k = b.slice 0 k := by
    intro k h₀ hk
    rw [slice_eq (Int.le_refl 0) h₀ hk, sliceTo, place_of_nonneg h₀ hk]
    rfl
  rw [h i hi (by omega), h j (by omega) hj, slice_append (Int.le_refl 0) hi hij hj]

end Bytes

namespace Removal

open Bytes

/-! ## The searches, in bytes -/

theorem commaAfter?_iff {source : Bytes} {k : Int} (h₀ : 0 ≤ k) (hk : k ≤ source.length) {a : Nat} :
    commaAfter? source k = some a ↔
      ∃ blanks, CommaAhead (source.sliceFrom k) blanks ∧ (a : Int) = k + blanks.length + 1 := by
  obtain ⟨k, rfl⟩ := Int.eq_ofNat_of_zero_le h₀
  have hplace : place source.length k = k := place_of_le (by omega)
  have hbase : min k source.length = k := by omega
  simp only [commaAfter?, Int.toNat_natCast, hbase, sliceFrom, hplace]
  generalize source.drop k = rest
  constructor
  · intro h
    obtain ⟨hhead, ha⟩ := Option.ite_none_right_eq_some.1 h
    have hdrop : rest.drop (leadingBlanks rest) = rest.dropWhile isBlank := by
      have hsplit := @List.takeWhile_append_dropWhile _ isBlank rest
      conv_lhs => arg 2; rw [← hsplit]
      exact List.drop_left
    rw [hdrop] at hhead
    obtain ⟨more, hmore⟩ := List.head?_eq_some_iff.1 hhead
    refine ⟨rest.takeWhile isBlank, ⟨?_, more, ?_⟩, ?_⟩
    · exact fun c hc => List.all_eq_true.1 List.all_takeWhile c hc
    · rw [List.append_assoc, List.singleton_append, ← hmore, List.takeWhile_append_dropWhile]
    · obtain rfl := Option.some.inj ha
      simp [leadingBlanks]
  · rintro ⟨blanks, ⟨hblank, more, rfl⟩, ha⟩
    rw [List.append_assoc, List.singleton_append, leadingBlanks_append hblank, List.drop_left]
    simp only [List.head?_cons, ↓reduceIte, Option.some.injEq]
    omega

theorem commaBefore?_iff {source : Bytes} {k : Int} (h₀ : 0 ≤ k) (hk : k ≤ source.length)
    {c : Nat} : commaBefore? source k = some c ↔
      ∃ blanks, CommaBehind (source.sliceTo k) blanks ∧ (c : Int) = k - 1 - blanks.length := by
  have hlength : ((source.sliceTo k).length : Int) = k := by
    rw [sliceTo, place_of_nonneg h₀ hk, List.length_take]
    omega
  rw [commaBefore?]
  generalize source.sliceTo k = head at hlength
  constructor
  · intro h
    obtain ⟨hlast, hc⟩ := Option.ite_none_right_eq_some.1 h
    obtain ⟨blanks, hblank, hhead⟩ := trimRight_blanks head
    obtain ⟨front, hfront⟩ := List.getLast?_eq_some_iff.1 hlast
    refine ⟨blanks, ⟨hblank, front, ?_⟩, ?_⟩
    · rw [← hhead, hfront]
      simp
    · have hsum := congrArg List.length hhead
      rw [hfront] at hsum hc
      simp only [List.length_append, List.length_cons, List.length_nil, Nat.zero_add,
        Nat.add_sub_cancel, Option.some.injEq] at hsum hc
      omega
  · rintro ⟨blanks, ⟨hblank, front, rfl⟩, hc⟩
    rw [trimRight_append hblank]
    simp only [List.length_append, List.length_cons, List.length_nil] at hlength ⊢
    rw [if_pos (by simp), Option.some.injEq]
    omega

/-! ## Which comma goes with an entry -/

/-- No earlier edit has taken the offset. -/
def Free (claimed : List Span) (offset : Int) : Prop := ∀ s ∈ claimed, s.contains offset = false

theorem isClaimed_eq_false {claimed : List Span} {offset : Int} :
    isClaimed claimed offset = false ↔ Free claimed offset := by
  simp [isClaimed, Free]

section
variable {e : Entry} {claimed : List Span} {p : Plan}

theorem takeAfter_flags {a : Nat} (h : takeAfter e claimed a = .ok p) :
    p.leading = false ∧ (p.trailing = true ↔ Free claimed ((a : Int) - 1)) := by
  rw [← isClaimed_eq_false]
  unfold takeAfter at h
  by_cases hclaimed : isClaimed claimed ((a : Int) - 1) = true
  · rw [if_pos hclaimed] at h
    cases h
    simp [bare, hclaimed]
  · rw [if_neg hclaimed] at h
    obtain ⟨remove, -, rfl⟩ := map_eq_ok.1 h
    simpa using hclaimed

theorem takeBefore_flags {c : Nat} (h : takeBefore e claimed c = .ok p) :
    p.trailing = false ∧ (p.leading = true ↔ Free claimed c) := by
  rw [← isClaimed_eq_false]
  unfold takeBefore at h
  by_cases hclaimed : isClaimed claimed c = true
  · rw [if_pos hclaimed] at h
    cases h
    simp [bare, hclaimed]
  · rw [if_neg hclaimed] at h
    obtain ⟨remove, -, rfl⟩ := map_eq_ok.1 h
    simpa using hclaimed

/-- **Which comma is taken**: the one ahead if there is one and it is free; the one behind if there
is none ahead, and it is free; none for a single entry. -/
theorem plan_flags {count : Int} {source : Bytes} (h : plan e count source claimed = .ok p) :
    (p.trailing = true ↔ 1 < count ∧
      ∃ a, commaAfter? source e.full.stop = some a ∧ Free claimed ((a : Int) - 1)) ∧
    (p.leading = true ↔ 1 < count ∧ commaAfter? source e.full.stop = none ∧
      ∃ c, commaBefore? source e.full.start = some c ∧ Free claimed c) := by
  unfold plan at h
  by_cases hcount : count ≤ 1
  · rw [if_pos hcount] at h
    cases h
    have hcount' : ¬ 1 < count := by omega
    simp [bare, hcount']
  have hcount' : 1 < count := by omega
  rw [if_neg hcount] at h
  by_cases hsearch : (!searchable source e.full.stop) = true
  · rw [if_pos hsearch] at h
    cases h
  rw [if_neg hsearch] at h
  cases hafter : commaAfter? source e.full.stop with
  | some a =>
    rw [hafter] at h
    obtain ⟨hleading, htrailing⟩ := takeAfter_flags h
    simp [hleading, htrailing, hcount']
  | none =>
    rw [hafter] at h
    cases hbefore : commaBefore? source e.full.start with
    | some c =>
      simp only [hbefore] at h
      obtain ⟨htrailing, hleading⟩ := takeBefore_flags h
      simp [htrailing, hleading, hcount']
    | none =>
      simp only [hbefore] at h
      cases h
      simp [bare]

end

/-! ## What a plan takes -/

/-- What a plan takes with one of `count` entries, and why. -/
structure Exact (e : Entry) (count : Int) (source : Bytes) (claimed : List Span) (p : Plan) :
    Prop where
  covers : p.remove.covers e.full = true
  one_side : ¬ (p.leading = true ∧ p.trailing = true)
  single : count ≤ 1 → p.leading = false ∧ p.trailing = false
  /-- Nothing is taken on a side that is not set. -/
  start_eq : p.leading = false → p.remove.start = e.full.start
  stop_eq : p.trailing = false → p.remove.stop = e.full.stop
  after : p.trailing = true → ∃ blanks, (∀ c ∈ blanks, isBlank c = true) ∧
    source.slice e.full.stop p.remove.stop = blanks ++ [comma] ∧ Free claimed (p.remove.stop - 1)
  before : p.leading = true → ∃ blanks, (∀ c ∈ blanks, isBlank c = true) ∧
    source.slice p.remove.start e.full.start = comma :: blanks ∧ Free claimed p.remove.start
  trailing_iff : p.trailing = true ↔ 1 < count ∧
    ∃ blanks, CommaAhead (source.sliceFrom e.full.stop) blanks ∧
      Free claimed (e.full.stop + blanks.length)
  leading_iff : p.leading = true ↔ 1 < count ∧
    (∀ blanks, ¬ CommaAhead (source.sliceFrom e.full.stop) blanks) ∧
    ∃ blanks, CommaBehind (source.sliceTo e.full.start) blanks ∧
      Free claimed (e.full.start - 1 - blanks.length)

section
variable {e : Entry} {source : Bytes} (hl : e.Lies source)
include hl

theorem Lies.stop_nonneg : 0 ≤ e.full.stop := Int.le_trans hl.start_nonneg e.full.start_le_stop

theorem commaAfter?_eq_none : commaAfter? source e.full.stop = none ↔
    ∀ blanks, ¬ CommaAhead (source.sliceFrom e.full.stop) blanks := by
  have hiff := fun a => @commaAfter?_iff source e.full.stop (Lies.stop_nonneg hl) hl.inside a
  constructor
  · intro hnone blanks hahead
    have hsome := (hiff (e.full.stop + blanks.length + 1).toNat).2
      ⟨blanks, hahead, by have := Lies.stop_nonneg hl; omega⟩
    rw [hnone] at hsome
    cases hsome
  · intro hno
    rw [Option.eq_none_iff_forall_ne_some]
    intro a ha
    obtain ⟨blanks, hahead, -⟩ := (hiff a).1 ha
    exact hno blanks hahead

/-- The bytes that a comma ahead adds to a removal. -/
theorem slice_of_ahead {blanks : Bytes} (h : CommaAhead (source.sliceFrom e.full.stop) blanks)
    {a : Int} (ha : a = e.full.stop + blanks.length + 1) :
    source.slice e.full.stop a = blanks ++ [comma] := by
  obtain ⟨hblank, rest, hrest⟩ := h
  have hstop := Lies.stop_nonneg hl
  have hin := hl.inside
  rw [sliceFrom, place_of_nonneg hstop hin] at hrest
  have hlength := congrArg List.length hrest
  simp only [List.length_append, List.length_cons, List.length_nil, List.length_drop] at hlength
  have htake : a.toNat = e.full.stop.toNat + (blanks ++ [comma]).length := by
    simp only [List.length_append, List.length_cons, List.length_nil]
    omega
  rw [slice_eq hstop (by omega) (by omega), List.drop_take, ← hrest, htake, Nat.add_sub_cancel_left,
    List.take_left]

/-- The bytes that a comma behind adds to a removal. -/
theorem slice_of_behind {blanks : Bytes} (h : CommaBehind (source.sliceTo e.full.start) blanks)
    {c : Int} (hc : c = e.full.start - 1 - blanks.length) :
    source.slice c e.full.start = comma :: blanks := by
  obtain ⟨hblank, head, hhead⟩ := h
  have hstart := hl.start_nonneg
  have hin := Lies.start_le_length hl
  rw [sliceTo, place_of_nonneg hstart hin] at hhead
  have hlength := congrArg List.length hhead
  simp only [List.length_append, List.length_cons, List.length_take] at hlength
  have hdrop : c.toNat = head.length := by omega
  rw [slice_eq (by omega) (by omega) hin, ← hhead, hdrop, List.drop_left]

/-- The search ahead finds a free comma just when there is one. -/
theorem free_ahead_iff {claimed : List Span} :
    (∃ a, commaAfter? source e.full.stop = some a ∧ Free claimed ((a : Int) - 1)) ↔
      ∃ blanks, CommaAhead (source.sliceFrom e.full.stop) blanks ∧
        Free claimed (e.full.stop + blanks.length) := by
  have hstop := Lies.stop_nonneg hl
  have hafter := fun a => @commaAfter?_iff source e.full.stop hstop hl.inside a
  constructor
  · rintro ⟨a, ha, hfree⟩
    obtain ⟨blanks, hahead, hplace⟩ := (hafter a).1 ha
    exact ⟨blanks, hahead, by rwa [hplace, Int.add_sub_cancel] at hfree⟩
  · rintro ⟨blanks, hahead, hfree⟩
    have hplace : ((e.full.stop + blanks.length + 1).toNat : Int)
        = e.full.stop + blanks.length + 1 := by omega
    exact ⟨_, (hafter _).2 ⟨blanks, hahead, hplace⟩, by rwa [hplace, Int.add_sub_cancel]⟩

/-- The search behind finds a free comma just when there is one. -/
theorem free_behind_iff {claimed : List Span} :
    (∃ c, commaBefore? source e.full.start = some c ∧ Free claimed c) ↔
      ∃ blanks, CommaBehind (source.sliceTo e.full.start) blanks ∧
        Free claimed (e.full.start - 1 - blanks.length) := by
  have hin := Lies.start_le_length hl
  have hbefore := fun c => @commaBefore?_iff source e.full.start hl.start_nonneg hin c
  constructor
  · rintro ⟨c, hc, hfree⟩
    obtain ⟨blanks, hbehind, hplace⟩ := (hbefore c).1 hc
    exact ⟨blanks, hbehind, hplace ▸ hfree⟩
  · rintro ⟨blanks, hbehind, hfree⟩
    -- the comma and the blanks stand in the file, so their place is an offset of it
    have hlength : (blanks.length : Int) + 1 ≤ e.full.start := by
      have := hbehind.ends.length_le
      rw [sliceTo, place_of_nonneg hl.start_nonneg hin, List.length_take, List.length_cons] at this
      omega
    have hplace : ((e.full.start - 1 - blanks.length).toNat : Int)
        = e.full.start - 1 - blanks.length := by omega
    exact ⟨_, (hbefore _).2 ⟨blanks, hbehind, hplace⟩, by rwa [hplace]⟩

section
variable {count : Int} {claimed : List Span} {p : Plan} (hp : Planned e count source claimed p)
include hp

theorem Planned.takes_after (htrailing : p.trailing = true) :
    ∃ blanks, (∀ c ∈ blanks, isBlank c = true) ∧
      source.slice e.full.stop p.remove.stop = blanks ++ [comma] ∧
      Free claimed (p.remove.stop - 1) := by
  cases hp with
  | bare => cases htrailing
  | before => cases htrailing
  | @after a _ _ ha hfree =>
    obtain ⟨blanks, hahead, hplace⟩ := (commaAfter?_iff (Lies.stop_nonneg hl) hl.inside).1 ha
    exact ⟨blanks, hahead.blank, slice_of_ahead hl hahead hplace, isClaimed_eq_false.1 hfree⟩

theorem Planned.takes_before (hleading : p.leading = true) :
    ∃ blanks, (∀ c ∈ blanks, isBlank c = true) ∧
      source.slice p.remove.start e.full.start = comma :: blanks ∧ Free claimed p.remove.start := by
  cases hp with
  | bare => cases hleading
  | after => cases hleading
  | @before c _ _ _ hc hfree =>
    obtain ⟨blanks, hbehind, hplace⟩ :=
      (commaBefore?_iff hl.start_nonneg (Lies.start_le_length hl)).1 hc
    exact ⟨blanks, hbehind.blank, slice_of_behind hl hbehind hplace, isClaimed_eq_false.1 hfree⟩

end

/-- **A plan takes exactly what it says**, and as much as it can. -/
theorem plan_takes {count : Int} {claimed : List Span} {p : Plan}
    (hp : plan e count source claimed = .ok p) (hplanned : Planned e count source claimed p) :
    Exact e count source claimed p := by
  obtain ⟨htrailing, hleading⟩ := plan_flags hp
  obtain ⟨-, hcover, hcover', -⟩ := hplanned.bounds hl
  refine
    { covers := Span.covers_iff.2 ⟨hcover, hcover'⟩
      one_side := ?_, single := ?_, start_eq := ?_, stop_eq := ?_
      after := hplanned.takes_after hl
      before := hplanned.takes_before hl
      trailing_iff := by rw [htrailing, free_ahead_iff hl]
      leading_iff := by rw [hleading, commaAfter?_eq_none hl, free_behind_iff hl] }
  · rintro ⟨hlead, htrail⟩
    obtain ⟨-, hnone, -⟩ := hleading.1 hlead
    obtain ⟨-, a, ha, -⟩ := htrailing.1 htrail
    rw [hnone] at ha
    cases ha
  · intro hcount
    have hno : ¬ 1 < count := by omega
    constructor
    · rw [← Bool.not_eq_true, hleading]
      exact fun h => hno h.1
    · rw [← Bool.not_eq_true, htrailing]
      exact fun h => hno h.1
  · intro hlead
    cases hplanned with
    | bare => rfl
    | after => rfl
    | before => cases hlead
  · intro htrail
    cases hplanned with
    | bare => rfl
    | after => cases htrail
    | before => rfl

/-! ## The edit -/

/-- **The file comes out with the pair alone replaced.** -/
theorem Plan.edit_restores {count : Int} {claimed : List Span} {p : Plan}
    (hp : Planned e count source claimed p) {replacement : List CodePoint} {ed : Edit}
    (hed : p.edit e source replacement = .ok ed) :
    ed.remove = p.remove ∧
      source.sliceTo ed.remove.start ++ ed.text ++ source.sliceFrom ed.remove.stop
        = source.sliceTo e.core.start ++ Utf8.written replacement
          ++ source.sliceFrom e.core.stop := by
  obtain ⟨-, rfl⟩ := (edit_eq_ok hl hp).1 hed
  obtain ⟨h₀, hstart, hstop, hend⟩ := hp.bounds hl
  have hfull := e.full_start_le
  have hcore := e.core.start_le_stop
  have hlies := hl.stop_eq
  refine ⟨rfl, ?_⟩
  calc source.sliceTo p.remove.start ++ p.text e source (Utf8.written replacement)
        ++ source.sliceFrom p.remove.stop
      = source.sliceTo p.remove.start ++ source.slice p.remove.start e.core.start
          ++ Utf8.written replacement
          ++ (source.slice e.core.stop p.remove.stop ++ source.sliceFrom p.remove.stop) := by
        rw [hp.text_eq hl]
        simp only [List.append_assoc]
    _ = source.sliceTo e.core.start ++ Utf8.written replacement
          ++ source.sliceFrom e.core.stop := by
        rw [sliceTo_append_slice h₀ (by omega) (by omega),
          slice_sliceFrom (by omega) (by omega) hend]

end

/-- **One removal, whatever stands around the entry.** An entry that lies in its file has a plan,
for any number of entries and any ranges claimed before, and an edit for any replacement that can be
written. The plan takes the full range and at most one comma with the blanks on the way to it, and
the file comes out with the pair alone replaced. -/
theorem removal_exact {e : Entry} {source : Bytes} (hl : e.Lies source) (count : Int)
    (claimed : List Span) {replacement : List CodePoint} (hr : Utf8.Encodable replacement) :
    ∃ p ed, plan e count source claimed = .ok p ∧ p.edit e source replacement = .ok ed ∧
      Exact e count source claimed p ∧ ed.remove = p.remove ∧
      source.sliceTo ed.remove.start ++ ed.text ++ source.sliceFrom ed.remove.stop
        = source.sliceTo e.core.start ++ Utf8.written replacement
          ++ source.sliceFrom e.core.stop := by
  obtain ⟨p, hp, hplanned⟩ := plan_spec hl count claimed
  obtain ⟨ed, hed⟩ : ∃ ed, p.edit e source replacement = .ok ed :=
    ⟨_, (edit_eq_ok hl hplanned).2 ⟨hr, rfl⟩⟩
  obtain ⟨hremove, hrestores⟩ := Plan.edit_restores hl hplanned hed
  exact ⟨p, ed, hp, hed, plan_takes hl hp hplanned, hremove, hrestores⟩

namespace Sample

def source : Bytes := Bytes.ofString "\x7ba: 1,\n /*,*/c: 3\x7d"

/-- The last of two entries, with a comment before it that holds a comma. -/
def last : Entry :=
  { name := "c", value := .other, full := ⟨8, 17, by decide⟩, core := ⟨13, 17, by decide⟩
    covered := by decide }

theorem last_lies : last.Lies source := ⟨by decide, by decide, by decide⟩

/-- The entry before it is taken, and its comma is not. -/
def claimed : List Span := [⟨1, 5, by decide⟩]

/-- The plan for the last entry: the comma before it goes with it. -/
def lastPlan : Plan := ⟨⟨5, 17, by decide⟩, 13, true, false⟩

end Sample

open Sample in
theorem removal_exact_last : last.Lies source ∧ Utf8.Encodable (CodePoint.ofString "d: 4") ∧
    ∃ p ed, plan last 2 source claimed = .ok p ∧
    p.edit last source (CodePoint.ofString "d: 4") = .ok ed ∧ Exact last 2 source claimed p ∧
    p.leading = true ∧ source.sliceTo ed.remove.start ++ ed.text ++ source.sliceFrom ed.remove.stop
      = Bytes.ofString "\x7ba: 1,\n /*,*/d: 4\x7d" := by
  have hr := Utf8.encodable_ofString "d: 4"
  obtain ⟨p, ed, hp, hed, hexact, -, hfile⟩ := removal_exact last_lies 2 claimed hr
  have hplan : plan last 2 source claimed = .ok lastPlan := by decide
  obtain rfl := Except.ok.inj (hplan.symm.trans hp)
  rw [Utf8.written_ofString] at hfile
  exact ⟨last_lies, hr, _, ed, hplan, hed, hexact, rfl, hfile.trans (by decide)⟩

open Sample in
/-- A replacement with half of a surrogate pair has no edit, wherever its entry lies. -/
theorem no_edit_for_half : last.Lies source ∧ plan last 2 source claimed = .ok lastPlan ∧
    lastPlan.edit last source [0xD800] = .error (.unwritable ⟨0, 1, 0xD800⟩) :=
  ⟨last_lies, by decide, by decide⟩

end Removal

end AssetLift
