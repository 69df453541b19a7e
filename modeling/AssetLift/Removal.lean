import AssetLift.Edit
import AssetLift.Entry
import AssetLift.Text.Utf8

/-!
# Removing an entry

An entry of a block is removed together with exactly one neighbouring comma when it has neighbours,
and its replacement puts that comma back on the same side. A comma that an earlier edit has taken
is *claimed*: it belongs to that edit and is neither removed nor put back again.

* `Removal.plan` — the range to remove, and on which side a comma goes with it.
* `Removal.Plan.edit` — the edit that puts a replacement where the entry was.
-/

namespace AssetLift

namespace Removal

/-- What to remove for an entry. -/
structure Plan where
  remove : Span
  /-- Where the entry starts. -/
  insertAt : Int
  /-- The comma before the entry is removed with it. -/
  leading : Bool := false
  /-- The comma after the entry is removed with it. -/
  trailing : Bool := false
  deriving DecidableEq

/-- Why an entry cannot be removed. -/
inductive Fault where
  | span (fault : Span.Backwards)
  | edit (fault : Edit.Outside)
  /-- An offset outside the file of more than 63 bits cannot be searched from. -/
  | offsetTooLarge
  /-- The replacement cannot be written. -/
  | unwritable (fault : Utf8.BadText)
  deriving DecidableEq

/-- The wording of each fault. -/
def Fault.message : Fault → String
  | .span f => f.message
  | .edit f => f.message
  | .offsetTooLarge => "Python int too large to convert to C ssize_t"
  | .unwritable f => f.message

/-- Whether an earlier edit has taken an offset. -/
def isClaimed (claimed : List Span) (offset : Int) : Bool := claimed.any (·.contains offset)

/-- The offset just after the comma that follows an offset, with only blanks between. A search never
starts before the file. -/
def commaAfter? (source : Bytes) (offset : Int) : Option Nat :=
  let base := min offset.toNat source.length
  let rest := source.drop base
  let blanks := Bytes.leadingBlanks rest
  if (rest.drop blanks).head? = some Bytes.comma then some (base + blanks + 1) else none

/-- The offset of the comma that precedes an offset, with only blanks between. -/
def commaBefore? (source : Bytes) (offset : Int) : Option Nat :=
  let head := Bytes.trimRight (source.sliceTo offset)
  if head.getLast? = some Bytes.comma then some (head.length - 1) else none

/-- Whether a search can start at an offset: anywhere in the file, and elsewhere at offsets of at
most 63 bits. -/
def searchable (source : Bytes) (offset : Int) : Bool :=
  (0 ≤ offset && offset ≤ source.length)
    || (-0x8000000000000000 ≤ offset && offset < 0x8000000000000000)

/-- The plan that takes no comma. -/
def bare (e : Entry) : Plan := ⟨e.full, e.core.start, false, false⟩

/-- The plan that takes the comma before `after`, unless that is claimed. -/
def takeAfter (e : Entry) (claimed : List Span) (after : Nat) : Except Fault Plan :=
  if isClaimed claimed ((after : Int) - 1) then .ok (bare e)
  else (fun remove => ⟨remove, e.core.start, false, true⟩) <$>
    (Span.ofEnds e.full.start after).mapError Fault.span

/-- The plan that takes the comma at `comma`, unless that is claimed. -/
def takeBefore (e : Entry) (claimed : List Span) (comma : Nat) : Except Fault Plan :=
  if isClaimed claimed comma then .ok (bare e)
  else (fun remove => ⟨remove, e.core.start, true, false⟩) <$>
    (Span.ofEnds comma e.full.stop).mapError Fault.span

/-- The plan for one of `count` entries. A following comma is preferred to a preceding one; a single
entry has no comma of its own. -/
def plan (e : Entry) (count : Int) (source : Bytes) (claimed : List Span) : Except Fault Plan :=
  if count ≤ 1 then .ok (bare e)
  else if !searchable source e.full.stop then .error .offsetTooLarge
  else
    match commaAfter? source e.full.stop with
    | some after => takeAfter e claimed after
    | none =>
      match commaBefore? source e.full.start with
      | some comma => takeBefore e claimed comma
      | none => .ok (bare e)

/-- The bytes to put in: the comma before the entry if it was taken, the blanks and comments in
front of the entry, the replacement, and the comma after it if that was taken. -/
def Plan.text (p : Plan) (e : Entry) (source replacement : Bytes) : Bytes :=
  (if p.leading then source.slice p.remove.start e.full.start else [])
    ++ source.slice e.full.start e.core.start
    ++ replacement
    ++ (if p.trailing then source.slice e.full.stop p.remove.stop else [])

/-- The edit that puts a replacement where the entry was. -/
def Plan.edit (p : Plan) (e : Entry) (source : Bytes) (replacement : List CodePoint) :
    Except Fault Edit := do
  let written ← (Utf8.encode replacement).mapError .unwritable
  (Edit.make p.remove p.insertAt (p.text e source written)).mapError .edit

end Removal

end AssetLift
