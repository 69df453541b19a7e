/-!
# Spans

A span is a half-open range of offsets that never runs backwards. Offsets are integers: an offset
below zero is legal and counts from the end of a file when bytes are cut.

* `Span.ofEnds` — the only way to build a span from two offsets that may be in the wrong order.
* `Span.contains`, `Span.covers`, `Span.overlaps` — the tests that edits are checked with.
-/

namespace AssetLift

/-- The offsets from `start` up to, and without, `stop`. -/
structure Span where
  start : Int
  stop : Int
  start_le_stop : start ≤ stop := by omega
  deriving DecidableEq

namespace Span

/-- Two offsets of which the first comes after the second. -/
structure Backwards where
  start : Int
  stop : Int
  deriving DecidableEq

/-- The wording of the fault. -/
def Backwards.message (f : Backwards) : String :=
  s!"Span start {f.start} is after end {f.stop}"

/-- The span between two offsets. -/
def ofEnds (start stop : Int) : Except Backwards Span :=
  if h : start ≤ stop then .ok ⟨start, stop, h⟩ else .error ⟨start, stop⟩

/-- Whether an offset lies in the span. -/
def contains (s : Span) (offset : Int) : Bool := s.start ≤ offset && offset < s.stop

/-- Whether the span encloses another. -/
def covers (s other : Span) : Bool := s.start ≤ other.start && other.stop ≤ s.stop

/-- Whether the spans cross. An empty span crosses a longer one only strictly inside it. -/
def overlaps (s other : Span) : Bool := s.start < other.stop && other.start < s.stop

/-- How a span is written in messages. -/
def text (s : Span) : String := s!"Span(start={s.start}, end={s.stop})"

theorem ofEnds_eq_ok {start stop : Int} {s : Span} :
    ofEnds start stop = .ok s ↔ s.start = start ∧ s.stop = stop := by
  unfold ofEnds
  by_cases h : start ≤ stop
  · simp only [h, ↓reduceDIte, Except.ok.injEq]
    constructor
    · rintro rfl; exact ⟨rfl, rfl⟩
    · rintro ⟨h₁, h₂⟩; cases s; simp_all
  · simp only [h, ↓reduceDIte, reduceCtorEq, false_iff, not_and]
    rintro rfl rfl; exact h s.start_le_stop

theorem covers_iff {s other : Span} :
    s.covers other = true ↔ s.start ≤ other.start ∧ other.stop ≤ s.stop := by
  simp [covers]

theorem overlaps_iff {s other : Span} :
    s.overlaps other = true ↔ s.start < other.stop ∧ other.start < s.stop := by
  simp [overlaps]

theorem contains_iff {s : Span} {offset : Int} :
    s.contains offset = true ↔ s.start ≤ offset ∧ offset < s.stop := by
  simp [contains]

theorem contains_eq_false {s : Span} {offset : Int} :
    s.contains offset = false ↔ offset < s.start ∨ s.stop ≤ offset := by
  rw [← Bool.not_eq_true, contains_iff]
  omega

theorem overlaps_comm (s other : Span) : s.overlaps other = other.overlaps s := by
  simp only [overlaps, Bool.and_comm]

end Span

end AssetLift
