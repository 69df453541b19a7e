import AssetLift.Bytes

/-!
# Concrete trees

What a parser makes of a source file: every token and every construct with its kind and its byte
range, comments and punctuation included.

* `Cst` — a node with its label and its children.
* `Cst.hasError`, `Cst.firstFault?` — whether a tree has faults, and the first of them.
* `Cst.check` — a tree is accepted only without faults.
-/

namespace AssetLift

namespace Cst

/-- What is known of a node apart from its children. -/
structure Label where
  /-- Tells the node from every other node of its tree. -/
  id : Nat
  kind : String
  start : Nat
  stop : Nat
  /-- The role the node plays in its parent. -/
  field : Option String := none
  /-- Constructs and values are named; keywords and punctuation are not. -/
  named : Bool := true
  /-- The parser put the node in without finding it in the source. -/
  missing : Bool := false
  /-- The parser marked the node as faulty. -/
  marked : Bool := false
  deriving DecidableEq, Inhabited

end Cst

/-- A node of a concrete tree. -/
inductive Cst where
  | node (label : Cst.Label) (children : List Cst)
  deriving Inhabited

namespace Cst

/-! ## Reading a node -/

/-- The label of a node. -/
def label : Cst → Label
  | node l _ => l

/-- The children of a node. -/
def children : Cst → List Cst
  | node _ cs => cs

/-- The number of a node. -/
def id (n : Cst) : Nat := n.label.id

/-- The kind of a node. -/
def kind (n : Cst) : String := n.label.kind

/-- Where a node starts. -/
def start (n : Cst) : Nat := n.label.start

/-- Where a node ends. -/
def stop (n : Cst) : Nat := n.label.stop

/-- Whether a node has a name of its own in the grammar. -/
def named (n : Cst) : Bool := n.label.named

/-- The first child that plays a role. -/
def child? (n : Cst) (role : String) : Option Cst :=
  n.children.find? fun c => c.label.field = some role

/-- The bytes the node spans. -/
def bytes (source : Bytes) (n : Cst) : Bytes := source.slice n.start n.stop

/-- Whether the node is a comment. -/
def isTrivia (n : Cst) : Bool := n.kind = "comment" || n.kind = "html_comment"

/-- The named children that are no comments. -/
def significant (n : Cst) : List Cst := n.children.filter fun c => c.named && !c.isTrivia

theorem child?_mem {n c : Cst} {role : String} (h : n.child? role = some c) : c ∈ n.children :=
  List.mem_of_find?_eq_some h

theorem mem_children_of_significant {n c : Cst} (h : c ∈ n.significant) : c ∈ n.children :=
  (List.mem_filter.1 h).1

/-! ## Size -/

mutual

/-- The number of nodes of a tree. -/
def size : Cst → Nat
  | node _ cs => 1 + sizeAll cs

/-- The number of nodes of a list of trees. -/
def sizeAll : List Cst → Nat
  | [] => 0
  | c :: cs => size c + sizeAll cs

end

theorem size_eq (n : Cst) : n.size = 1 + sizeAll n.children := by
  cases n; simp [size, children]

theorem size_pos (n : Cst) : 0 < n.size := by rw [size_eq]; omega

@[simp] theorem sizeAll_append (as bs : List Cst) :
    sizeAll (as ++ bs) = sizeAll as + sizeAll bs := by
  induction as with
  | nil => simp [sizeAll]
  | cons a as ih => simp [sizeAll, ih]; omega

theorem size_le_sizeAll {c : Cst} {cs : List Cst} (h : c ∈ cs) : c.size ≤ sizeAll cs := by
  induction cs with
  | nil => simp at h
  | cons a as ih =>
    simp only [sizeAll]
    rcases List.mem_cons.1 h with rfl | h
    · omega
    · have := ih h; omega

theorem size_lt_of_mem_children {n c : Cst} (h : c ∈ n.children) : c.size < n.size := by
  have := size_le_sizeAll h
  rw [size_eq n]; omega

/-- A child that a filter drops and the children that it keeps are different nodes. -/
theorem size_add_sizeAll_filter {c : Cst} {cs : List Cst} {p : Cst → Bool} (h : c ∈ cs)
    (hp : p c = false) : c.size + sizeAll (cs.filter p) ≤ sizeAll cs := by
  have filter_le : ∀ l : List Cst, sizeAll (l.filter p) ≤ sizeAll l := by
    intro l
    induction l with
    | nil => simp [sizeAll]
    | cons a as ih =>
      by_cases ha : p a
      · simp only [List.filter_cons, ha, ↓reduceIte, sizeAll]; omega
      · simp only [List.filter_cons, ha, Bool.false_eq_true, ↓reduceIte, sizeAll]; omega
  induction cs with
  | nil => simp at h
  | cons a as ih =>
    rcases List.mem_cons.1 h with rfl | h
    · have := filter_le as
      simp only [List.filter_cons, hp, Bool.false_eq_true, ↓reduceIte, sizeAll]; omega
    · have := ih h
      by_cases ha : p a
      · simp only [List.filter_cons, ha, ↓reduceIte, sizeAll]; omega
      · simp only [List.filter_cons, ha, Bool.false_eq_true, ↓reduceIte, sizeAll]; omega

/-! ## Faults -/

/-- Whether the node itself is a fault: unreadable source, or a token that is not there. -/
def isFault (n : Cst) : Bool := n.kind = "ERROR" || n.label.missing

mutual

/-- Whether a tree holds a fault or a mark of one. -/
def hasError : Cst → Bool
  | node l cs => l.marked || l.missing || l.kind = "ERROR" || anyError cs

/-- Whether one of a list of trees does. -/
def anyError : List Cst → Bool
  | [] => false
  | c :: cs => hasError c || anyError cs

end

theorem hasError_eq (n : Cst) : n.hasError =
    (n.label.marked || n.label.missing || n.kind = "ERROR" || anyError n.children) := by
  cases n; rfl

/-- The first fault of the trees on a stack. Trees without a fault are not entered. -/
def firstFaultOn : List Cst → Option Cst
  | [] => none
  | n :: rest =>
    if n.isFault then some n
    else if n.hasError then firstFaultOn (n.children ++ rest)
    else firstFaultOn rest
termination_by stack => sizeAll stack
decreasing_by
  · simp only [sizeAll_append, sizeAll]; rw [size_eq n]; omega
  · have := size_pos n; simp only [sizeAll]; omega

/-- The first fault of a tree. -/
def firstFault? (n : Cst) : Option Cst := firstFaultOn [n]

/-- A place in a source file, both numbers from zero. -/
structure Point where
  row : Nat
  column : Nat
  deriving DecidableEq

/-- The place of an offset: the line breaks before it, and the bytes since the last one. -/
def Point.ofOffset (source : Bytes) (offset : Nat) : Point :=
  let before := source.take offset
  ⟨before.count 10, (before.reverse.takeWhile (· ≠ 10)).length⟩

/-- A source file that does not parse; the place is known when the tree holds a fault. -/
structure Fault where
  point : Option Point
  deriving DecidableEq

/-- The wording of the fault. -/
def Fault.message (f : Fault) : String :=
  match f.point with
  | none => "syntax error"
  | some p => s!"syntax error at line {p.row + 1}, column {p.column + 1}"

/-- Accepts a tree without faults. -/
def check (source : Bytes) (root : Cst) : Except Fault Cst :=
  if root.hasError then
    .error ⟨root.firstFault?.map fun n => Point.ofOffset source n.start⟩
  else .ok root

/-! ## Numbering -/

mutual

/-- Numbers the nodes of a tree in reading order, from `next` on; also gives the next number. -/
def numberFrom (next : Nat) : Cst → Cst × Nat
  | node l cs =>
    let (cs', after) := numberAll (next + 1) cs
    (node { l with id := next } cs', after)

/-- Numbers the nodes of a list of trees. -/
def numberAll (next : Nat) : List Cst → List Cst × Nat
  | [] => ([], next)
  | c :: cs =>
    let (c', mid) := numberFrom next c
    let (cs', after) := numberAll mid cs
    (c' :: cs', after)

end

/-- The tree with its nodes numbered in reading order. -/
def numbered (n : Cst) : Cst := (numberFrom 0 n).1

/-! ## Listing -/

/-- A row of a tree's listing: a label, and how many children follow it. -/
structure Row where
  label : Label
  arity : Nat

/-- Reads `count` trees off a listing; short listings give fewer. -/
def readRows : Nat → Nat → List Row → List Cst × List Row
  | 0, _, rows => ([], rows)
  | _, 0, rows => ([], rows)
  | _, _, [] => ([], [])
  | fuel + 1, count + 1, row :: rows =>
    let (cs, rest) := readRows fuel row.arity rows
    let (siblings, rest') := readRows fuel count rest
    (node row.label cs :: siblings, rest')

/-- The tree of a listing in reading order. -/
def ofRows? (rows : List Row) : Option Cst :=
  (readRows (rows.length + 1) 1 rows).1.head?

end Cst

end AssetLift
