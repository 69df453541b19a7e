import AssetLift.Block
import AssetLift.Node.Lowering
import AssetLift.Proofs.Activity

/-!
# Where lowered nodes come from

The work list of a lowering only ever holds nodes of the tree it was started on, and only ever builds
nodes from nodes it has built. So every object literal in a lowered tree was built from an object
node of the concrete tree (`Lowering.lower_object`).

* `Cst.Inside`, `Node.Part`: the nodes of a concrete tree, and of a lowered one.
* `Lowering.Built`: what a task's node is built to, from the nodes of the table; so a built node is
  no property, and its parts come from the table, or are properties whose values do (`Built.parts`).
* `Lowering.run_invariant`: what every step of the work list keeps.
* `Block.find?_part`: the block of a file is a part of it.
-/

namespace AssetLift

/-- The first node is the second, or one of the nodes below it. -/
inductive Cst.Inside : Cst → Cst → Prop
  | self (n : Cst) : Inside n n
  | deeper {n c m : Cst} : c ∈ m.children → Inside n c → Inside n m

/-- Whether a child of an object is an entry of it: it is neither a comment nor punctuation. -/
def Cst.isEntry (c : Cst) : Bool := c.named && !c.isTrivia && c.kind ≠ ","

/-- The first node is the second, or one of the nodes it is made of. -/
inductive Node.Part : Node → Node → Prop
  | self (n : Node) : Part n n
  | inner {n q m : Node} : some q ∈ m.parts → Part n q → Part n m

/-- Whether a node is a `key: value` pair. -/
def Node.isProperty : Node → Bool
  | property _ _ _ _ => true
  | _ => false

namespace Cst

/-- A string, or a template without substitutions. -/
def isLiteral (n : Cst) : Bool :=
  n.kind = "string" ||
    n.kind = "template_string" && !n.children.any fun c => c.named && c.kind = "template_substitution"

/-- The text of a string or a template: its body, cooked. -/
def Cooks (source : Bytes) (n : Cst) (text : String) : Prop :=
  ∃ body, Utf8.decode ((n.bytes source).slice 1 (-1)) = .ok body ∧
    Literal.decode (if n.kind = "template_string" then .backtick else .quote) body = .ok text

end Cst

theorem Cst.Inside.trans {a b c : Cst} (hab : Inside a b) (hbc : Inside b c) : Inside a c := by
  induction hbc with
  | self => exact hab
  | deeper hm _ ih => exact .deeper hm ih

theorem Cst.Inside.child {c n root : Cst} (hc : c ∈ n.children) (hn : Inside n root) :
    Inside c root :=
  Inside.trans (.deeper hc (.self c)) hn

mutual

/-- Whether every node of a tree passes a test. -/
def Cst.all (p : Cst → Bool) : Cst → Bool
  | node l cs => p (node l cs) && allIn p cs

/-- Whether every node of a list of trees passes a test. -/
def Cst.allIn (p : Cst → Bool) : List Cst → Bool
  | [] => true
  | c :: cs => all p c && allIn p cs

end

theorem Cst.all_of_mem {p : Cst → Bool} {c : Cst} {cs : List Cst} (h : allIn p cs) (hc : c ∈ cs) :
    c.all p := by
  induction cs with
  | nil => simp at hc
  | cons d ds ih =>
    simp only [allIn, Bool.and_eq_true] at h
    rcases List.mem_cons.1 hc with rfl | hc
    · exact h.1
    · exact ih h.2 hc

theorem Cst.all_of_inside {p : Cst → Bool} {n root : Cst} (hn : Inside n root) (h : root.all p) :
    p n := by
  induction hn with
  | self => cases n; simp only [all, Bool.and_eq_true] at h; exact h.1
  | @deeper c m hc _ ih =>
    cases m with
    | node l cs =>
      simp only [all, Bool.and_eq_true] at h
      exact ih (all_of_mem h.2 hc)

theorem Node.Part.trans {a b c : Node} (hab : Part a b) (hbc : Part b c) : Part a c := by
  induction hbc with
  | self => exact hab
  | inner hm _ ih => exact .inner hm ih

namespace Lowering

open Cst

/-! ## Tasks stay in the tree -/

/-- A task all of whose concrete nodes belong to a tree. -/
structure Task.Within (t : Task) (root : Cst) : Prop where
  node : Inside t.node root
  hoisted : ∀ d ∈ t.hoisted, Inside d root

theorem Task.within_plain {n root : Cst} (h : Inside n root) : Task.Within ⟨[], n⟩ root :=
  ⟨h, by simp⟩

theorem Task.within_under {parent child root : Cst} (hp : Inside parent root)
    (hc : child ∈ parent.children) : (Task.under parent child).Within root := by
  refine ⟨.child hc hp, fun d hd => ?_⟩
  unfold Task.under at hd
  split at hd
  · exact .child (List.mem_filter.1 hd).1 hp
  · simp at hd

theorem mem_of_call? {n c : Cst} (h : call? n = some c) : c ∈ n.children := by
  unfold call? at h
  split at h
  · rename_i c' rest heq
    split at h
    · obtain rfl := Option.some.inj h
      exact mem_children_of_significant (heq ▸ List.mem_cons_self)
    · simp at h
  · simp at h

/-- **Where the inputs of a task come from**: they are decorators of a class, or children of the
task's node or of a node below it. -/
theorem Task.mem_inputs {t s : Task} (hs : s ∈ t.inputs) :
    (∃ d ∈ t.allDecorators, s = ⟨[], d⟩) ∨
      ∃ p, Inside p t.node ∧ s.node ∈ p.children ∧ s = under p s.node := by
  have hunder : ∀ {p c}, Inside p t.node → c ∈ p.children → s = under p c →
      ∃ p, Inside p t.node ∧ s.node ∈ p.children ∧ s = under p s.node := by
    rintro p c hp hc rfl
    exact ⟨p, hp, hc, rfl⟩
  unfold inputs at hs
  split at hs
  · rcases List.mem_append.1 hs with hs | hs
    · obtain ⟨d, hd, rfl⟩ := List.mem_map.1 hs
      exact .inl ⟨d, hd, rfl⟩
    · split at hs
      · simp at hs
      · rename_i body hb
        obtain ⟨c, hc, hs⟩ := List.mem_map.1 hs
        exact .inr (hunder (.child (child?_mem hb) (.self _)) (mem_children_of_significant hc) hs.symm)
  right
  split at hs
  · obtain ⟨e, he, hes⟩ := List.mem_filterMap.1 hs
    have he := mem_children_of_significant he
    unfold entryInput at hes
    split at hes
    · obtain ⟨v, hv, hs⟩ := Option.map_eq_some_iff.1 hes
      exact hunder (.child he (.self _)) (child?_mem hv) hs.symm
    · exact hunder (.self _) he (Option.some.inj hes).symm
  split at hs
  · obtain ⟨c, hc, hs⟩ := List.mem_map.1 hs
    exact hunder (.self _) (mem_children_of_significant hc) hs.symm
  split at hs
  · simp at hs
  split at hs
  · unfold decoratorInputs at hs
    split at hs
    · simp at hs
    · rename_i args hargs
      obtain ⟨c, hc, hs⟩ := List.mem_map.1 hs
      obtain ⟨call, hcall, hargs⟩ := Option.bind_eq_some_iff.1 hargs
      exact hunder (.child (child?_mem hargs) (.child (mem_of_call? hcall) (.self _)))
        (mem_children_of_significant hc) hs.symm
  · obtain ⟨c, hc, hs⟩ := List.mem_map.1 hs
    exact hunder (.self _) (mem_children_of_otherParts hc) hs.symm

/-- **The inputs of a task belong to the tree that the task belongs to.** -/
theorem Task.within_inputs {t s : Task} {root : Cst} (ht : t.Within root) (hs : s ∈ t.inputs) :
    s.Within root := by
  rcases mem_inputs hs with ⟨d, hd, rfl⟩ | ⟨p, hp, hc, heq⟩
  · rcases List.mem_append.1 hd with hd | hd
    · exact within_plain (ht.hoisted d hd)
    · exact within_plain (.child (List.mem_filter.1 hd).1 ht.node)
  · rw [heq]
    exact within_under (hp.trans ht.node) hc

/-! ## Built nodes are made of built nodes -/

/-- The table holds a node. -/
def Table.Holds (table : Table) (m : Node) : Prop := ∃ id : Nat, table[id]? = some m

theorem Table.holds_of_resolve {table : Table} {n : Cst} {m : Node} (h : table.resolve n = .ok m) :
    table.Holds m := by
  unfold resolve at h
  split at h
  · rename_i built hb
    obtain rfl := Except.ok.inj h
    exact ⟨_, hb⟩
  · simp at h

theorem Table.holds_of_mapM {table : Table} {ns : List Cst} {ms : List Node}
    (h : ns.mapM table.resolve = .ok ms) : ∀ m ∈ ms, table.Holds m := by
  replace h := mapM_eq_ok.1 h
  induction h with
  | nil => simp
  | cons hx _ ih =>
    intro m hm
    rcases List.mem_cons.1 hm with rfl | hm
    · exact holds_of_resolve hx
    · exact ih m hm

/-- A node of the table, or a property whose value is one or absent. -/
def Table.Gives (table : Table) (q : Node) : Prop :=
  table.Holds q ∨ ∃ key value span fullStart, q = .property key value span fullStart ∧
    ∀ w, value = some w → table.Holds w

/-- What a string or a template is built to. -/
inductive Strung (source : Bytes) (n : Cst) : Node → Prop
  | literal {text span} (hliteral : n.isLiteral = true) (hcooks : n.Cooks source text)
      (hspan : spanOf n = .ok span) :
      Strung source n (.literal text (if n.kind = "template_string" then .backtick else .quote) span)
  | kept {body span} (hliteral : n.isLiteral = false)
      (hbody : Utf8.decode ((n.bytes source).slice 1 (-1)) = .ok body)
      (hspan : spanOf n = .ok span) : Strung source n (.other n.kind [] span)

theorem buildString_eq {source : Bytes} {n : Cst} (hn : isString n = true) :
    buildString source n = (Utf8.decode ((n.bytes source).slice 1 (-1))).mapError .bytes >>= fun body =>
      if n.isLiteral then do
        let text ← (Literal.decode (if n.kind = "template_string" then .backtick else .quote) body)
          |>.mapError .literal
        return .literal text (if n.kind = "template_string" then .backtick else .quote) (← spanOf n)
      else return .other n.kind [] (← spanOf n) := by
  simp only [isString, Bool.or_eq_true, decide_eq_true_eq] at hn
  unfold buildString isLiteral
  rcases hn with hn | hn
  · simp [hn]
  · simp only [hn, ↓reduceIte, String.reduceEq, decide_false, decide_true, Bool.false_or,
      Bool.true_and, Bool.not_eq_true']
    cases n.children.any fun c => c.named && c.kind = "template_substitution" <;> rfl

theorem buildString_eq_ok {source : Bytes} {n : Cst} (hn : isString n = true) {m : Node} :
    buildString source n = .ok m ↔ Strung source n m := by
  rw [buildString_eq hn]
  constructor
  · intro h
    obtain ⟨body, hbody, h⟩ := bind_eq_ok.1 h
    have hbody := mapError_eq_ok.1 hbody
    split at h <;> rename_i hliteral <;> simp only [bind_eq_ok, mapError_eq_ok, pure_eq_ok] at h
    · obtain ⟨text, htext, span, hspan, rfl⟩ := h
      exact .literal hliteral ⟨body, hbody, htext⟩ hspan
    · obtain ⟨span, hspan, rfl⟩ := h
      exact .kept (by simpa using hliteral) hbody hspan
  · intro h
    cases h with
    | literal hliteral hcooks hspan =>
      obtain ⟨body, hbody, htext⟩ := hcooks
      refine bind_eq_ok.2 ⟨body, mapError_eq_ok.2 hbody, ?_⟩
      rw [if_pos hliteral, htext, hspan]
      rfl
    | kept hliteral hbody hspan =>
      refine bind_eq_ok.2 ⟨_, mapError_eq_ok.2 hbody, ?_⟩
      rw [if_neg (by simp [hliteral]), hspan]
      rfl

theorem Strung.isProperty {source : Bytes} {n : Cst} {m : Node} (h : Strung source n m) :
    m.isProperty = false := by
  cases h <;> rfl

theorem Strung.parts {source : Bytes} {n : Cst} {m : Node} (h : Strung source n m) :
    m.parts = [] := by
  cases h <;> rfl

/-- What a property is built from. -/
theorem buildProperty_eq {source : Bytes} {table : Table} {last : Nat} {pair : Cst} {m : Node}
    (h : buildProperty source table last pair = .ok m) :
    ∃ key value span, m = .property key value span last ∧ spanOf pair = .ok span ∧
      (∀ w, value = some w → table.Holds w) := by
  simp only [buildProperty, bind_eq_ok, pure_eq_ok] at h
  obtain ⟨key, -, value, hv, span, hs, rfl⟩ := h
  refine ⟨key, value, span, rfl, hs, fun w hw => ?_⟩
  subst hw
  unfold valueOf at hv
  split at hv
  · obtain ⟨m, hm, hmw⟩ := map_eq_ok.1 hv
    obtain rfl := Option.some.inj hmw
    exact Table.holds_of_resolve hm
  · simp at hv

/-- How the children of an object are read one after the other. -/
inductive Entries (source : Bytes) (table : Table) : Nat → List Cst → List Node → List Nat → Prop
  | nil {last} : Entries source table last [] [] []
  | comment {last c cs ps seps} (htrivia : c.isTrivia = true)
      (hrest : Entries source table last cs ps seps) : Entries source table last (c :: cs) ps seps
  | comma {last c cs ps seps} (hsolid : c.isTrivia = false) (hkind : c.kind = ",")
      (hrest : Entries source table c.stop cs ps seps) :
      Entries source table last (c :: cs) ps (c.start :: seps)
  | entry {last c cs p ps seps} (hsolid : c.isTrivia = false) (hkind : c.kind ≠ ",")
      (hnamed : c.named = true) (hbuilt : buildEntry source table last c = .ok p)
      (hrest : Entries source table c.stop cs ps seps) :
      Entries source table last (c :: cs) (p :: ps) seps
  | token {last c cs ps seps} (hsolid : c.isTrivia = false) (hkind : c.kind ≠ ",")
      (hnamed : c.named = false) (hrest : Entries source table c.stop cs ps seps) :
      Entries source table last (c :: cs) ps seps

theorem entries_of_buildEntries {source : Bytes} {table : Table} {last : Nat} {cs : List Cst}
    {ps : List Node} {seps : List Nat} (h : buildEntries source table last cs = .ok (ps, seps)) :
    Entries source table last cs ps seps := by
  induction cs generalizing last ps seps with
  | nil =>
    simp only [buildEntries, Except.ok.injEq, Prod.mk.injEq] at h
    obtain ⟨rfl, rfl⟩ := h
    exact .nil
  | cons c cs ih =>
    unfold buildEntries at h
    split at h
    · exact .comment (by assumption) (ih h)
    rename_i hsolid
    simp only [Bool.not_eq_true] at hsolid
    split at h
    · obtain ⟨⟨ps', seps'⟩, hrest, h⟩ := bind_eq_ok.1 h
      simp only [pure_eq_ok, Prod.mk.injEq] at h
      obtain ⟨rfl, rfl⟩ := h
      exact .comma hsolid (by assumption) (ih hrest)
    split at h
    · obtain ⟨p, hp, h⟩ := bind_eq_ok.1 h
      obtain ⟨⟨ps', seps'⟩, hrest, h⟩ := bind_eq_ok.1 h
      simp only [pure_eq_ok, Prod.mk.injEq] at h
      obtain ⟨rfl, rfl⟩ := h
      exact .entry hsolid (by assumption) (by assumption) hp (ih hrest)
    · exact .token hsolid (by assumption) (by simpa using ‹¬ c.named = true›) (ih h)

theorem buildEntry_gives {source : Bytes} {table : Table} {last : Nat} {c : Cst} {p : Node}
    (h : buildEntry source table last c = .ok p) : table.Gives p := by
  unfold buildEntry at h
  split at h
  · obtain ⟨key, value, span, rfl, -, hv⟩ := buildProperty_eq h
    exact .inr ⟨key, value, span, last, rfl, hv⟩
  · exact .inl (Table.holds_of_resolve h)

theorem buildEntries_gives {source : Bytes} {table : Table} {last : Nat} {cs : List Cst}
    {ps : List Node} {seps : List Nat} (h : Entries source table last cs ps seps) :
    ∀ p ∈ ps, table.Gives p := by
  induction h with
  | nil => simp
  | comment _ _ ih => exact ih
  | comma _ _ _ ih => exact ih
  | token _ _ _ _ ih => exact ih
  | @entry last c cs p ps seps _ _ _ hp _ ih =>
    intro q hq
    rcases List.mem_cons.1 hq with rfl | hq
    · exact buildEntry_gives hp
    · exact ih q hq

/-- What an object is built from. -/
theorem buildObject_eq {source : Bytes} {table : Table} {n : Cst} {m : Node}
    (h : buildObject source table n = .ok m) :
    ∃ ps seps span, m = .object ps seps span ∧
      Entries source table n.start n.children ps seps ∧ spanOf n = .ok span := by
  simp only [buildObject, bind_eq_ok, pure_eq_ok] at h
  obtain ⟨⟨ps, seps⟩, he, span, hs, rfl⟩ := h
  exact ⟨ps, seps, span, rfl, entries_of_buildEntries he, hs⟩

/-- What a task's node is built to, from the nodes that the table has. -/
inductive Built (source : Bytes) (table : Table) (t : Task) : Node → Prop
  | classDecl {name ds ms span} (hds : t.allDecorators.mapM table.resolve = .ok ds)
      (hms : (members t.node).mapM table.resolve = .ok ms) :
      Built source table t (.classDecl name ds ms span)
  | object {ps seps span} (hkind : t.node.kind = "object")
      (h : buildObject source table t.node = .ok (.object ps seps span)) :
      Built source table t (.object ps seps span)
  | array {es span} (hes : t.node.significant.mapM table.resolve = .ok es) :
      Built source table t (.array es span)
  | string {m} (h : Strung source t.node m) : Built source table t m
  | decorator {callee as span} (has : argumentsOf table t.node = .ok as) :
      Built source table t (.decorator callee as span)
  | other {ns span} (hns : (otherParts t.node).mapM table.resolve = .ok ns) :
      Built source table t (.other t.node.kind ns span)

theorem built {source : Bytes} {table : Table} {t : Task} {m : Node}
    (h : build source table t = .ok m) : Built source table t m := by
  unfold build at h
  split at h
  · simp only [buildClass, bind_eq_ok, pure_eq_ok] at h
    obtain ⟨name, -, ds, hds, ms, hms, span, -, rfl⟩ := h
    exact .classDecl hds hms
  split at h
  · obtain ⟨ps, seps, span, rfl, -, -⟩ := buildObject_eq h
    exact .object (by assumption) h
  split at h
  · simp only [bind_eq_ok, pure_eq_ok] at h
    obtain ⟨es, hes, span, -, rfl⟩ := h
    exact .array hes
  split at h
  · rename_i hstring
    exact .string ((buildString_eq_ok hstring).1 h)
  split at h
  · simp only [buildDecorator, bind_eq_ok, pure_eq_ok] at h
    obtain ⟨callee, -, as, has, span, -, rfl⟩ := h
    exact .decorator has
  · simp only [bind_eq_ok, pure_eq_ok] at h
    obtain ⟨ns, hns, span, -, rfl⟩ := h
    exact .other hns

section
variable {source : Bytes} {table : Table} {t : Task} {m : Node} (h : Built source table t m)
include h

theorem Built.isProperty : m.isProperty = false := by
  cases h with
  | string h => exact h.isProperty
  | classDecl | object | array | decorator | other => rfl

/-- **The parts of a built node come from the table.** -/
theorem Built.parts : ∀ q, some q ∈ m.parts → table.Gives q := by
  intro q hq
  cases h with
  | string h => simp [h.parts] at hq
  | object _ hobject =>
    obtain ⟨_, _, _, heq, he, -⟩ := buildObject_eq hobject
    obtain ⟨rfl, -, -⟩ := Node.object.inj heq
    simp only [Node.parts, List.mem_map, Option.some.injEq, exists_eq_right] at hq
    exact buildEntries_gives he q hq
  | classDecl hds hms =>
    simp only [Node.parts, List.mem_map, List.mem_append, Option.some.injEq, exists_eq_right] at hq
    exact .inl (hq.elim (Table.holds_of_mapM hds q) (Table.holds_of_mapM hms q))
  | array hns | other hns =>
    simp only [Node.parts, List.mem_map, Option.some.injEq, exists_eq_right] at hq
    exact .inl (Table.holds_of_mapM hns q hq)
  | decorator has =>
    simp only [Node.parts, List.mem_map, Option.some.injEq, exists_eq_right] at hq
    unfold argumentsOf at has
    split at has
    · exact .inl (Table.holds_of_mapM has q hq)
    · obtain rfl := Except.ok.inj has
      simp at hq

end

/-! ## The work list -/

/-- The table holds no property: these are made on the way into an object. -/
def Table.Plain (table : Table) : Prop := ∀ m, table.Holds m → m.isProperty = false

/-- Every object in a node was built from an object node of the tree, with a plain table. -/
def FromObjects (source : Bytes) (root : Cst) (m : Node) : Prop :=
  ∀ ps seps span, Node.Part (.object ps seps span) m →
    ∃ n table, Inside n root ∧ n.kind = "object" ∧ Table.Plain table ∧
      buildObject source table n = .ok (.object ps seps span)

/-- What the work list keeps of its table. -/
structure Table.Sound (table : Table) (source : Bytes) (root : Cst) : Prop where
  plain : table.Plain
  objects : ∀ m, table.Holds m → FromObjects source root m

theorem Table.Sound.build {source : Bytes} {root : Cst} {table : Table}
    (hs : table.Sound source root) {t : Task} (ht : t.Within root) {m : Node}
    (h : build source table t = .ok m) : m.isProperty = false ∧ FromObjects source root m := by
  have hbuilt := built h
  refine ⟨hbuilt.isProperty, fun ps seps span hpart => ?_⟩
  cases hpart with
  | self =>
    cases hbuilt with
    | object hkind hobject => exact ⟨t.node, table, ht.node, hkind, hs.plain, hobject⟩
    | string hstring => cases hstring
  | inner hq hrest =>
    rcases hbuilt.parts _ hq with hq | ⟨key, value, sp, fs, rfl, hv⟩
    · exact hs.objects _ hq ps seps span hrest
    · cases hrest with
      | inner hw hrest =>
        simp only [Node.parts, List.mem_singleton] at hw
        exact hs.objects _ (hv _ hw.symm) ps seps span hrest

theorem Table.Sound.insert {source : Bytes} {root : Cst} {table : Table}
    (hs : table.Sound source root) {m : Node} (hp : m.isProperty = false)
    (ho : FromObjects source root m) (id : Nat) : Table.Sound (table.insert id m) source root := by
  have hold : ∀ k, Table.Holds (table.insert id m) k → k = m ∨ table.Holds k := by
    rintro k ⟨i, hi⟩
    rw [Std.HashMap.getElem?_insert] at hi
    split at hi
    · exact .inl (Option.some.inj hi).symm
    · exact .inr ⟨i, hi⟩
  constructor
  · intro k hk
    rcases hold k hk with rfl | hk
    · exact hp
    · exact hs.plain k hk
  · intro k hk
    rcases hold k hk with rfl | hk
    · exact ho
    · exact hs.objects k hk

/-- The task of a job. -/
def Job.task : Job → Task
  | enter t => t
  | leave t => t

/-- **What every step of the work list keeps**: the tasks belong to the tree, and the table is
sound. -/
theorem run_invariant {source : Bytes} {root : Cst} {jobs : List Job} {table out : Table}
    (hj : ∀ j ∈ jobs, j.task.Within root) (hs : table.Sound source root)
    (h : run source jobs table = .ok out) : out.Sound source root := by
  induction jobs, table using run.induct with
  | case1 table =>
    rw [run] at h
    obtain rfl := Except.ok.inj h
    exact hs
  | case2 t rest table ih =>
    rw [run] at h
    obtain ⟨built, hb, h⟩ := bind_eq_ok.1 h
    obtain ⟨hp, ho⟩ := hs.build (hj (.leave t) List.mem_cons_self) hb
    exact ih built (fun j hm => hj j (List.mem_cons_of_mem _ hm)) (hs.insert hp ho _) h
  | case3 t rest table ih =>
    rw [run] at h
    have ht : t.Within root := hj (.enter t) List.mem_cons_self
    refine ih (fun j hm => ?_) hs h
    rcases List.mem_append.1 hm with hm | hm
    · obtain ⟨s, hs, rfl⟩ := List.mem_map.1 hm
      exact t.within_inputs ht (List.mem_reverse.1 hs)
    · rcases List.mem_cons.1 hm with rfl | hm
      · exact ht
      · exact hj j (List.mem_cons_of_mem _ hm)

/-- **Every object literal in a lowered tree was built from an object node of the tree.** -/
theorem lower_object {source : Bytes} {root : Cst} {r : Node} (h : lower source root = .ok r) :
    FromObjects source root r := by
  unfold lower at h
  obtain ⟨table, hrun, hr⟩ := bind_eq_ok.1 h
  have hempty : Table.Sound ∅ source root := by
    constructor <;> rintro m ⟨id, hid⟩ <;> simp at hid
  refine (run_invariant (fun j hj => ?_) hempty hrun).objects r (Table.holds_of_resolve hr)
  rw [List.mem_singleton.1 hj]
  exact Task.within_plain (.self root)

end Lowering

/-! ## The block of a file -/

/-- A walk meets nothing but parts of the trees on the stack. -/
theorem Node.part_of_mem_walkStack {stack : List (Option Node)} {m : Node}
    (h : some m ∈ walkStack stack) : ∃ n, some n ∈ stack ∧ Part m n := by
  induction stack using walkStack.induct with
  | case1 => simp [walkStack] at h
  | case2 rest => simp [walkStack] at h
  | case3 n rest ih =>
    rw [walkStack] at h
    rcases List.mem_cons.1 h with h | h
    · obtain rfl := Option.some.inj h
      exact ⟨m, List.mem_cons_self, .self m⟩
    · obtain ⟨k, hk, hp⟩ := ih h
      rcases List.mem_append.1 hk with hk | hk
      · exact ⟨n, List.mem_cons_self, .inner hk hp⟩
      · exact ⟨k, List.mem_cons_of_mem _ hk, hp⟩

namespace Block

open Node

theorem part_of_ofDecorator? {name : String} {n : Node} {b : Block}
    (h : ofDecorator? name n = some b) : Part b.toNode n := by
  unfold ofDecorator? at h
  split at h
  · split at h
    · obtain rfl := Option.some.inj h
      exact .inner (by simp [parts, toNode]) (.self _)
    · simp at h
  · simp at h

theorem part_of_ofClass? {name : String} {n : Node} {b : Block} (h : ofClass? name n = some b) :
    Part b.toNode n := by
  unfold ofClass? at h
  split at h
  · obtain ⟨d, hd, hb⟩ := List.exists_of_findSome?_eq_some h
    exact .inner (by simp [parts, hd]) (part_of_ofDecorator? hb)
  · simp at h

theorem firstIn_eq_some {name : String} {nodes : List (Option Node)} {b : Block}
    (h : firstIn name nodes = .ok (some b)) : ∃ n, some n ∈ nodes ∧ ofClass? name n = some b := by
  induction nodes with
  | nil => simp [firstIn] at h
  | cons n rest ih =>
    cases n with
    | none => simp [firstIn] at h
    | some n =>
      rw [firstIn] at h
      split at h
      · rename_i b' hb
        obtain rfl := Option.some.inj (Except.ok.inj h)
        exact ⟨n, List.mem_cons_self, hb⟩
      · obtain ⟨m, hm, hb⟩ := ih h
        exact ⟨m, List.mem_cons_of_mem _ hm, hb⟩

/-- **The block of a file is a part of it.** -/
theorem find?_part {name : String} {root : Node} {b : Block} (h : find? name root = .ok (some b)) :
    Part b.toNode root := by
  obtain ⟨n, hn, hb⟩ := firstIn_eq_some h
  obtain ⟨r, hr, hp⟩ := part_of_mem_walkStack hn
  obtain rfl := Option.some.inj (List.mem_singleton.1 hr)
  exact (part_of_ofClass? hb).trans hp

end Block

end AssetLift
