import Std.Data.HashMap
import AssetLift.Cst
import AssetLift.Node
import AssetLift.Text.Utf8
import AssetLift.Total

/-!
# From concrete trees to source nodes

Each node of a concrete tree is built from its *inputs*, which are built before it. The decorators
that stand in front of `export` are inputs of the exported class.

* `Lowering.Task.inputs` — the inputs of a node, in source order.
* `Lowering.build` — one node from the nodes built for its inputs.
* `Lowering.run` — the work list: the last input first, a node after its inputs.
* `Lowering.lower` — the whole tree.
-/

namespace AssetLift

namespace Lowering

/-- Why a tree cannot be lowered. -/
inductive Fault where
  /-- A name or a literal is not UTF-8. -/
  | bytes (fault : Utf8.BadBytes)
  | literal (fault : Literal.Fault)
  | span (fault : Span.Backwards)
  /-- An input has not been built. -/
  | unresolved (id : Nat)
  deriving DecidableEq

/-! ## Kinds of nodes -/

/-- Whether a node is a class. -/
def isClass (n : Cst) : Bool :=
  n.kind = "class_declaration" || n.kind = "abstract_class_declaration"

/-- Whether a node is a decorator. -/
def isDecorator (n : Cst) : Bool := n.kind = "decorator"

/-- Whether a node is an export. -/
def isExport (n : Cst) : Bool := n.kind = "export_statement"

/-- Whether a node is a string or a template. -/
def isString (n : Cst) : Bool := n.kind = "string" || n.kind = "template_string"

/-- The decorators among a node's children. -/
def decorators (n : Cst) : List Cst := n.children.filter isDecorator

/-- The members of a class. -/
def members (n : Cst) : List Cst :=
  match n.child? "body" with
  | none => []
  | some body => body.significant

/-- The call a decorator makes. -/
def call? (n : Cst) : Option Cst :=
  match n.significant with
  | c :: _ => if c.kind = "call_expression" then some c else none
  | [] => none

/-- The argument list of a decorator's call. -/
def argumentList? (n : Cst) : Option Cst := (call? n).bind (·.child? "arguments")

/-- The parts of a node that is kept by its kind alone. -/
def otherParts (n : Cst) : List Cst :=
  if isExport n then n.significant.filter (!isDecorator ·) else n.significant

/-! ## Tasks -/

/-- A node to build, with the decorators that the export statement around it holds for it. -/
structure Task where
  hoisted : List Cst
  node : Cst

namespace Task

/-- The task of a child: an exported class takes the decorators of the export statement. -/
def under (parent child : Cst) : Task :=
  ⟨if isExport parent && isClass child then decorators parent else [], child⟩

/-- All decorators of a class, those in front of `export` first. -/
def allDecorators (t : Task) : List Cst := t.hoisted ++ decorators t.node

/-- The inputs of a class: its decorators, then its members. -/
def classInputs (t : Task) : List Task :=
  t.allDecorators.map (⟨[], ·⟩) ++
    match t.node.child? "body" with
    | none => []
    | some body => body.significant.map (under body)

/-- The input that an object's entry gives: the value of a pair, or the entry itself. -/
def entryInput (object entry : Cst) : Option Task :=
  if entry.kind = "pair" then (entry.child? "value").map (under entry) else some (under object entry)

/-- The inputs of a decorator: the arguments of its call. -/
def decoratorInputs (n : Cst) : List Task :=
  match argumentList? n with
  | none => []
  | some arguments => arguments.significant.map (under arguments)

/-- The tasks whose nodes a task's node is built from, in source order. -/
def inputs (t : Task) : List Task :=
  if isClass t.node then t.classInputs
  else if t.node.kind = "object" then t.node.significant.filterMap (entryInput t.node)
  else if t.node.kind = "array" then t.node.significant.map (under t.node)
  else if isString t.node then []
  else if isDecorator t.node then decoratorInputs t.node
  else (otherParts t.node).map (under t.node)

/-! ### Tasks end -/

/-- A bound on the nodes a task reaches. -/
def reach (t : Task) : Nat := t.node.size + Cst.sizeAll t.hoisted

theorem reach_under {parent child : Cst} (h : child ∈ parent.children) :
    (under parent child).reach < parent.size := by
  unfold under reach
  rw [Cst.size_eq parent]
  by_cases hc : isExport parent && isClass child
  · have hd : isDecorator child = false := by
      simp only [Bool.and_eq_true, isClass, Bool.or_eq_true, decide_eq_true_eq] at hc
      rcases hc.2 with h | h <;> simp [isDecorator, h]
    have := Cst.size_add_sizeAll_filter h hd
    simp only [hc, ↓reduceIte, decorators]; omega
  · have := Cst.size_le_sizeAll h
    simp only [hc, Bool.false_eq_true, ↓reduceIte, Cst.sizeAll]; omega

theorem reach_under_lt {t : Task} {child : Cst} (h : child ∈ t.node.children) :
    (under t.node child).reach < t.reach := by
  have := reach_under h
  unfold reach at *; omega

theorem reach_under_child {t : Task} {mid child : Cst} (hm : mid ∈ t.node.children)
    (h : child ∈ mid.children) : (under mid child).reach < t.reach := by
  have h₁ := reach_under h
  have h₂ := Cst.size_lt_of_mem_children hm
  unfold reach at *; omega

theorem reach_classInputs {t s : Task} (h : s ∈ t.classInputs) : s.reach < t.reach := by
  simp only [classInputs, allDecorators, List.mem_append, List.mem_map] at h
  rcases h with ⟨d, hd, rfl⟩ | h
  · rcases hd with hd | hd
    · have := Cst.size_le_sizeAll hd
      have := Cst.size_pos t.node
      simp only [reach, Cst.sizeAll]; omega
    · have := Cst.size_lt_of_mem_children (List.mem_filter.1 hd).1
      simp only [reach, Cst.sizeAll]; omega
  · split at h
    · simp at h
    · rename_i body hb
      obtain ⟨c, hc, rfl⟩ := List.mem_map.1 h
      exact reach_under_child (Cst.child?_mem hb) (Cst.mem_children_of_significant hc)

theorem reach_entryInput {t s : Task} {e : Cst} (he : e ∈ t.node.children)
    (h : entryInput t.node e = some s) : s.reach < t.reach := by
  unfold entryInput at h
  split at h
  · obtain ⟨v, hv, rfl⟩ := Option.map_eq_some_iff.1 h
    exact reach_under_child he (Cst.child?_mem hv)
  · obtain rfl := Option.some.inj h
    exact reach_under_lt he

theorem reach_decoratorInputs {t s : Task} (h : s ∈ decoratorInputs t.node) :
    s.reach < t.reach := by
  unfold decoratorInputs at h
  split at h
  · simp at h
  · rename_i args hargs
    obtain ⟨c, hc, rfl⟩ := List.mem_map.1 h
    obtain ⟨call, hcall, hargs⟩ := Option.bind_eq_some_iff.1 hargs
    have hmem : call ∈ t.node.significant := by
      unfold call? at hcall
      split at hcall
      · rename_i c' rest heq
        split at hcall
        · obtain rfl := Option.some.inj hcall
          rw [heq]; exact List.mem_cons_self
        · simp at hcall
      · simp at hcall
    have h₁ := reach_under (Cst.mem_children_of_significant hc)
    have h₂ := Cst.size_lt_of_mem_children (Cst.child?_mem hargs)
    have h₃ := Cst.size_lt_of_mem_children (Cst.mem_children_of_significant hmem)
    unfold reach at *; omega

theorem mem_children_of_otherParts {n c : Cst} (h : c ∈ otherParts n) : c ∈ n.children := by
  unfold otherParts at h
  split at h
  · exact Cst.mem_children_of_significant (List.mem_filter.1 h).1
  · exact Cst.mem_children_of_significant h

/-- Every input of a task reaches fewer nodes than the task. -/
theorem reach_inputs {t s : Task} (h : s ∈ t.inputs) : s.reach < t.reach := by
  unfold inputs at h
  split at h
  · exact reach_classInputs h
  split at h
  · obtain ⟨e, he, hs⟩ := List.mem_filterMap.1 h
    exact reach_entryInput (Cst.mem_children_of_significant he) hs
  split at h
  · obtain ⟨c, hc, rfl⟩ := List.mem_map.1 h
    exact reach_under_lt (Cst.mem_children_of_significant hc)
  split at h
  · simp at h
  split at h
  · exact reach_decoratorInputs h
  · obtain ⟨c, hc, rfl⟩ := List.mem_map.1 h
    exact reach_under_lt (mem_children_of_otherParts hc)

/-- The number of tasks a task leads to, itself included. -/
def weight (t : Task) : Nat :=
  1 + total (t.inputs.attach.map fun s => weight s.val)
termination_by t.reach
decreasing_by exact reach_inputs s.property

theorem weight_eq (t : Task) : t.weight = 1 + total (t.inputs.map weight) := by
  rw [weight]
  congr 2
  exact List.attach_map_val (l := t.inputs) (f := weight)

end Task

/-! ## Building one node -/

/-- The nodes built so far, by the number of the concrete node. -/
abbrev Table := Std.HashMap Nat Node

/-- The node built for a concrete node. -/
def Table.resolve (table : Table) (n : Cst) : Except Fault Node :=
  match table[n.id]? with
  | some built => .ok built
  | none => .error (.unresolved n.id)

/-- The range of a concrete node. -/
def spanOf (n : Cst) : Except Fault Span := (Span.ofEnds n.start n.stop).mapError .span

/-- The text of a concrete node. -/
def textOf (source : Bytes) (n : Cst) : Except Fault String :=
  (Utf8.decode (n.bytes source)).mapError .bytes

/-- The text of a concrete node that may be absent. -/
def textOf? (source : Bytes) : Option Cst → Except Fault (Option String)
  | none => .ok none
  | some n => some <$> textOf source n

/-- A string or template. A template with substitutions keeps only its kind. -/
def buildString (source : Bytes) (n : Cst) : Except Fault Node := do
  let body ← (Utf8.decode ((n.bytes source).slice 1 (-1))).mapError .bytes
  if n.kind = "template_string" then
    if n.children.any fun c => c.named && c.kind = "template_substitution" then
      return .other n.kind [] (← spanOf n)
    else
      let value ← (Literal.decode .backtick body).mapError .literal
      return .literal value .backtick (← spanOf n)
  else
    let value ← (Literal.decode .quote body).mapError .literal
    return .literal value .quote (← spanOf n)

/-- The key of a pair, if it is a plain identifier. -/
def keyOf (source : Bytes) (pair : Cst) : Except Fault (Option String) :=
  match pair.child? "key" with
  | some key => if key.kind = "property_identifier" then some <$> textOf source key else .ok none
  | none => .ok none

/-- The value of a pair, if it has one. -/
def valueOf (table : Table) (pair : Cst) : Except Fault (Option Node) :=
  match pair.child? "value" with
  | some value => some <$> table.resolve value
  | none => .ok none

/-- A property: its key is kept when it is a plain identifier. -/
def buildProperty (source : Bytes) (table : Table) (fullStart : Nat) (pair : Cst) :
    Except Fault Node := do
  let key ← keyOf source pair
  let value ← valueOf table pair
  return .property key value (← spanOf pair) fullStart

/-- An entry of an object: a property, or what has been built for it. -/
def buildEntry (source : Bytes) (table : Table) (fullStart : Nat) (entry : Cst) :
    Except Fault Node :=
  if entry.kind = "pair" then buildProperty source table fullStart entry else table.resolve entry

/-- The properties and commas of an object's children. `last` is where the token before them ends;
comments do not move it. -/
def buildEntries (source : Bytes) (table : Table) (last : Nat) :
    List Cst → Except Fault (List Node × List Nat)
  | [] => .ok ([], [])
  | c :: rest =>
    if c.isTrivia then buildEntries source table last rest
    else if c.kind = "," then do
      let (properties, separators) ← buildEntries source table c.stop rest
      return (properties, c.start :: separators)
    else if c.named then do
      let property ← buildEntry source table last c
      let (properties, separators) ← buildEntries source table c.stop rest
      return (property :: properties, separators)
    else buildEntries source table c.stop rest

/-- An object literal. -/
def buildObject (source : Bytes) (table : Table) (n : Cst) : Except Fault Node := do
  let (properties, separators) ← buildEntries source table n.start n.children
  return .object properties separators (← spanOf n)

/-- The name a decorator calls, if it is a plain identifier. -/
def calleeOf (source : Bytes) (n : Cst) : Except Fault (Option String) :=
  match (call? n).bind (·.child? "function") with
  | some function =>
    if function.kind = "identifier" then some <$> textOf source function else .ok none
  | none => .ok none

/-- The arguments of a decorator's call. -/
def argumentsOf (table : Table) (n : Cst) : Except Fault (List Node) :=
  match argumentList? n with
  | some list => list.significant.mapM table.resolve
  | none => .ok []

/-- A decorator; its callee is kept when it calls a plain identifier. -/
def buildDecorator (source : Bytes) (table : Table) (n : Cst) : Except Fault Node := do
  let callee ← calleeOf source n
  let arguments ← argumentsOf table n
  return .decorator callee arguments (← spanOf n)

/-- A class with all its decorators. -/
def buildClass (source : Bytes) (table : Table) (t : Task) : Except Fault Node := do
  let name ← textOf? source (t.node.child? "name")
  let decorators ← t.allDecorators.mapM table.resolve
  let parts ← (members t.node).mapM table.resolve
  return .classDecl name decorators parts (← spanOf t.node)

/-- The node of a task, from the nodes of its inputs. -/
def build (source : Bytes) (table : Table) (t : Task) : Except Fault Node := do
  if isClass t.node then buildClass source table t
  else if t.node.kind = "object" then buildObject source table t.node
  else if t.node.kind = "array" then
    let elements ← t.node.significant.mapM table.resolve
    return .array elements (← spanOf t.node)
  else if isString t.node then buildString source t.node
  else if isDecorator t.node then buildDecorator source table t.node
  else
    let nodes ← (otherParts t.node).mapM table.resolve
    return .other t.node.kind nodes (← spanOf t.node)

/-! ## The work list -/

/-- A step of the work list: see to a task's inputs, or build its node. -/
inductive Job where
  | enter (task : Task)
  | leave (task : Task)

/-- The steps a job leads to. -/
def Job.cost : Job → Nat
  | enter t => 2 * t.weight
  | leave _ => 1

/-- The steps a work list leads to. -/
def cost (jobs : List Job) : Nat := total (jobs.map Job.cost)

theorem cost_enter_inputs (t : Task) (rest : List Job) :
    cost (t.inputs.reverse.map .enter ++ .leave t :: rest) < cost (.enter t :: rest) := by
  have h : ∀ ts : List Task, cost (ts.map .enter) = 2 * total (ts.map Task.weight) := by
    intro ts
    induction ts with
    | nil => rfl
    | cons a as ih =>
      simp only [cost, List.map_cons, total_cons, Job.cost] at ih ⊢
      rw [ih]; omega
  have happ : ∀ as bs : List Job, cost (as ++ bs) = cost as + cost bs := by
    intro as bs; simp [cost]
  have hrev : total (t.inputs.reverse.map Task.weight) = total (t.inputs.map Task.weight) := by
    rw [List.map_reverse, total_reverse]
  rw [happ, h, hrev]
  simp only [cost, List.map_cons, total_cons, Job.cost]
  rw [Task.weight_eq t]; omega

/-- Works a list of jobs off. A task's last input comes first, and its node after all inputs. -/
def run (source : Bytes) : List Job → Table → Except Fault Table
  | [], table => .ok table
  | .leave t :: rest, table => do
    let built ← build source table t
    run source rest (table.insert t.node.id built)
  | .enter t :: rest, table => run source (t.inputs.reverse.map .enter ++ .leave t :: rest) table
termination_by jobs => cost jobs
decreasing_by
  · simp only [cost, List.map_cons, total_cons, Job.cost]; omega
  · exact cost_enter_inputs t rest

/-- The source node of a concrete tree. -/
def lower (source : Bytes) (root : Cst) : Except Fault Node := do
  let table ← run source [.enter ⟨[], root⟩] ∅
  table.resolve root

end Lowering

end AssetLift
