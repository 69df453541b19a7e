import AssetLift.Proofs.Provenance
import Mathlib.Data.List.Nodup
import Mathlib.Data.List.Pairwise

/-!
# Lowering by structure

Where the numbers of a concrete tree tell its nodes apart (`Cst.Numbered`), the work list of a
lowering computes what the recursion over tasks computes: the inputs of a task are lowered from the
last to the first, then its node is built from them (`Lowering.value`). The two agree also on the
fault that is met first (`lower_eq_value`).

* `Numbered.parent_unique`: every node has one place in the tree.
* `Reached.unique`: hence every node comes with one task.
* `assemble_eq_ok`: what is assembled from the nodes of a task's inputs (`Assembled`).
* `build_eq_assemble`: a node is built from its inputs and from nothing else of the table.
* `settles`: what the work list does about a task.
-/

namespace AssetLift

namespace Cst

/-! ## Numbered trees -/

mutual

/-- The numbers of a tree's nodes, each before those of its children. -/
def ids : Cst → List Nat
  | node l cs => l.id :: idsAll cs

/-- The numbers of the nodes of a list of trees. -/
def idsAll : List Cst → List Nat
  | [] => []
  | c :: cs => ids c ++ idsAll cs

end

/-- No two nodes of the tree have one number. -/
def Numbered (n : Cst) : Prop := n.ids.Nodup

instance (n : Cst) : Decidable n.Numbered := inferInstanceAs (Decidable n.ids.Nodup)

theorem ids_eq (n : Cst) : n.ids = n.id :: idsAll n.children := by
  cases n; rfl

theorem idsAll_eq (cs : List Cst) : idsAll cs = cs.flatMap ids := by
  induction cs with
  | nil => rfl
  | cons c cs ih => rw [idsAll, ih, List.flatMap_cons]

theorem id_mem_of_inside {n m : Cst} (h : Inside n m) : n.id ∈ m.ids := by
  induction h with
  | self => rw [ids_eq]; exact List.mem_cons_self
  | deeper hc _ ih =>
    rw [ids_eq, idsAll_eq]
    exact List.mem_cons_of_mem _ (List.mem_flatMap.2 ⟨_, hc, ih⟩)

theorem Inside.size_le {n m : Cst} (h : Inside n m) : n.size ≤ m.size := by
  induction h with
  | self => exact Nat.le_refl _
  | deeper hc _ ih =>
    have := size_lt_of_mem_children hc
    omega

namespace Numbered

variable {n : Cst} (h : n.Numbered)
include h

theorem children : (n.children.flatMap ids).Nodup := by
  rw [Numbered, ids_eq, List.nodup_cons, idsAll_eq] at h
  exact h.2

theorem child {c : Cst} (hc : c ∈ n.children) : c.Numbered :=
  (List.nodup_flatMap.1 h.children).1 c hc

theorem id_ne {c m : Cst} (hc : c ∈ n.children) (hm : Inside m c) : m.id ≠ n.id := by
  rw [Numbered, ids_eq, List.nodup_cons, idsAll_eq] at h
  intro heq
  exact h.1 (List.mem_flatMap.2 ⟨c, hc, heq ▸ id_mem_of_inside hm⟩)

/-- What lies in two children of a node has different numbers. -/
theorem id_ne_of_ne {c d : Cst} (hc : c ∈ n.children) (hd : d ∈ n.children) (hne : c ≠ d) {a b : Cst}
    (ha : Inside a c) (hb : Inside b d) : a.id ≠ b.id := by
  have hpair := (List.nodup_flatMap.1 h.children).2
  have : Std.Symm (Function.onFun List.Disjoint ids) := ⟨fun _ _ h _ ha hb => h hb ha⟩
  intro heq
  exact hpair.forall hc hd hne (id_mem_of_inside ha) (heq ▸ id_mem_of_inside hb)

/-- **A number belongs to one node.** -/
theorem eq_of_id {a b : Cst} (ha : Inside a n) (hb : Inside b n) (heq : a.id = b.id) : a = b := by
  induction ha with
  | self =>
    cases hb with
    | self => rfl
    | deeper hc hb => exact absurd heq.symm (h.id_ne hc hb)
  | @deeper c m hc ha ih =>
    cases hb with
    | self => exact absurd heq (h.id_ne hc ha)
    | @deeper d _ hd hb =>
      by_cases hcd : c = d
      · subst hcd
        exact ih (h.child hc) hb
      · exact absurd heq (h.id_ne_of_ne hc hd hcd ha hb)

/-- **A node has one place in the tree.** -/
theorem parent_unique {a b x : Cst} (ha : Inside a n) (hb : Inside b n) (hxa : x ∈ a.children)
    (hxb : x ∈ b.children) : a = b := by
  -- a child of the root is not found again below one of the root's children
  have hroot : ∀ {m p d : Cst}, m.Numbered → x ∈ m.children → d ∈ m.children → Inside p d →
      x ∈ p.children → False := by
    intro m p d hm hx hd hp hxp
    have hlt := Nat.lt_of_lt_of_le (size_lt_of_mem_children hxp) hp.size_le
    have hne : x ≠ d := by
      rintro rfl
      exact Nat.lt_irrefl _ hlt
    exact hm.id_ne_of_ne hx hd hne (.self x) (.child hxp hp) rfl
  induction ha with
  | self =>
    cases hb with
    | self => rfl
    | deeper hd hb => exact (hroot h hxa hd hb hxb).elim
  | @deeper c m hc ha ih =>
    cases hb with
    | self => exact (hroot h hxb hc ha hxa).elim
    | @deeper d _ hd hb =>
      by_cases hcd : c = d
      · subst hcd
        exact ih (h.child hc) hb
      · exact absurd rfl (h.id_ne_of_ne hc hd hcd (.child hxa ha) (.child hxb hb))

end Numbered

end Cst

namespace Lowering

open Cst

/-! ## The tasks of a tree -/

/-- The tasks that the lowering of a tree comes to. -/
inductive Reached (root : Cst) : Task → Prop
  | root : Reached root ⟨[], root⟩
  | input {t s} (ht : Reached root t) (hs : s ∈ t.inputs) : Reached root s

/-- A task is that of a node in its place: it holds the decorators that stand there for the node. -/
def Task.Proper (root : Cst) (t : Task) : Prop :=
  (t.hoisted = [] ∧ (isClass t.node = false ∨ t.node = root)) ∨
    ∃ p, Inside p root ∧ t.node ∈ p.children ∧ t = under p t.node

theorem Reached.within {root : Cst} {t : Task} (h : Reached root t) : t.Within root := by
  induction h with
  | root => exact Task.within_plain (.self root)
  | input _ hs ih => exact Task.within_inputs ih hs

theorem isClass_of_isDecorator {d : Cst} (h : isDecorator d = true) : isClass d = false := by
  simp only [isDecorator, decide_eq_true_eq] at h
  simp [isClass, h]

/-- The decorators held for a node are decorators. -/
theorem Task.Proper.decorators {root : Cst} {t : Task} (h : t.Proper root) :
    ∀ d ∈ t.allDecorators, isDecorator d = true := by
  intro d hd
  rcases List.mem_append.1 hd with hd | hd
  · rcases h with ⟨hnone, -⟩ | ⟨p, -, -, heq⟩
    · rw [hnone] at hd
      simp at hd
    · rw [heq, under] at hd
      dsimp only at hd
      split at hd
      · exact (List.mem_filter.1 hd).2
      · simp at hd
  · exact (List.mem_filter.1 hd).2

theorem Reached.proper {root : Cst} {t : Task} (h : Reached root t) : t.Proper root := by
  induction h with
  | root => exact .inl ⟨rfl, .inr rfl⟩
  | @input t s ht hs ih =>
    rcases Task.mem_inputs hs with ⟨d, hd, rfl⟩ | ⟨p, hp, hc, heq⟩
    · exact .inl ⟨rfl, .inl (isClass_of_isDecorator (ih.decorators d hd))⟩
    · exact .inr ⟨p, hp.trans ht.within.node, hc, heq⟩

/-- **A node comes with one task.** -/
theorem Reached.unique {root : Cst} (hn : root.Numbered) {s t : Task} (hs : Reached root s)
    (ht : Reached root t) (hid : s.node.id = t.node.id) : s = t := by
  have hnode := hn.eq_of_id hs.within.node ht.within.node hid
  -- a task that holds nothing, and one made under a parent
  have hmixed : ∀ {s t : Task}, s.node = t.node → s.hoisted = [] →
      (isClass s.node = false ∨ s.node = root) → (∃ p, Inside p root ∧ t.node ∈ p.children ∧
        t = Task.under p t.node) → s = t := by
    rintro ⟨hoisted, n⟩ t heq hnone hplain ⟨p, hp, hc, ht⟩
    dsimp only at heq hnone hplain
    subst heq hnone
    rcases hplain with hclass | hroot
    · rw [ht, Task.under, hclass, Bool.and_false]
      rfl
    · have hlt := Nat.lt_of_lt_of_le (size_lt_of_mem_children hc) hp.size_le
      rw [hroot] at hlt
      exact absurd hlt (Nat.lt_irrefl _)
  rcases hs.proper with ⟨hsn, hsp⟩ | hsp
  · rcases ht.proper with ⟨htn, -⟩ | htp
    · cases s; cases t
      simp only at hnode hsn htn
      rw [hnode, hsn, htn]
    · exact hmixed hnode hsn hsp htp
  · rcases ht.proper with ⟨htn, htp⟩ | ⟨q, hq, hcq, heq⟩
    · exact (hmixed hnode.symm htn htp hsp).symm
    · obtain ⟨p, hp, hcp, hep⟩ := hsp
      obtain rfl := hn.parent_unique hp hq hcp (hnode ▸ hcq)
      rw [hep, heq, hnode]

/-! ## What a node is built from -/

/-- The inputs that one child of an object gives. -/
def Task.entryInputs (n c : Cst) : List Task :=
  if c.named && !c.isTrivia then (entryInput n c).toList else []

theorem Task.objectInputs_eq (n : Cst) :
    n.significant.filterMap (entryInput n) = n.children.flatMap (entryInputs n) := by
  unfold significant
  induction n.children with
  | nil => rfl
  | cons c cs ih =>
    rw [List.filter_cons, List.flatMap_cons, ← ih, entryInputs]
    by_cases h : c.named && !c.isTrivia
    · rw [if_pos h, if_pos h]
      cases he : entryInput n c <;> simp [he]
    · rw [if_neg h, if_neg h, List.nil_append]

/-- The entry of an object, from the node that was built for it or for its value. -/
def assembleEntry (source : Bytes) (last : Nat) (c : Cst) (x : Option Node) : Except Fault Node :=
  if c.kind = "pair" then do
    let key ← keyOf source c
    return .property key (if (c.child? "value").isSome then x else none) (← spanOf c) last
  else
    match x with
    | some x => .ok x
    | none => .error (.unresolved c.id)

/-- The entries that one child of an object gives. -/
def assembleChild (source : Bytes) (last : Nat) (c : Cst) (xs : List Node) :
    Except Fault (List Node) :=
  if c.isEntry then (fun p => [p]) <$> assembleEntry source last c xs.head? else .ok []

/-- Where the token before the next child ends. -/
def lastAfter (last : Nat) (c : Cst) : Nat := if c.isTrivia then last else c.stop

/-- The commas that one child of an object gives. -/
def commasOf (c : Cst) : List Nat := if !c.isTrivia && c.kind == "," then [c.start] else []

/-- The properties and commas of an object's children, each child taking the nodes of its inputs. -/
def assembleEntries (source : Bytes) (n : Cst) (last : Nat) :
    List Cst → List Node → Except Fault (List Node × List Nat)
  | [], _ => .ok ([], [])
  | c :: rest, xs => do
    let count := (Task.entryInputs n c).length
    let here ← assembleChild source last c (xs.take count)
    let (ps, seps) ← assembleEntries source n (lastAfter last c) rest (xs.drop count)
    return (here ++ ps, commasOf c ++ seps)

/-- The node of a task, from the nodes of its inputs in order. -/
def assemble (source : Bytes) (t : Task) (xs : List Node) : Except Fault Node := do
  if isClass t.node then
    let name ← textOf? source (t.node.child? "name")
    let count := t.allDecorators.length
    return .classDecl name (xs.take count) (xs.drop count) (← spanOf t.node)
  else if t.node.kind = "object" then
    let (ps, seps) ← assembleEntries source t.node t.node.start t.node.children xs
    return .object ps seps (← spanOf t.node)
  else if t.node.kind = "array" then return .array xs (← spanOf t.node)
  else if isString t.node then buildString source t.node
  else if isDecorator t.node then
    let callee ← calleeOf source t.node
    return .decorator callee xs (← spanOf t.node)
  else return .other t.node.kind xs (← spanOf t.node)

/-- Whether a task's node is of none of the kinds that are assembled in a way of their own. -/
def Task.isPlain (t : Task) : Bool :=
  !isClass t.node && t.node.kind ≠ "object" && t.node.kind ≠ "array" && !isString t.node &&
    !isDecorator t.node

/-- What a task's node is assembled to, from the nodes of its inputs. -/
inductive Assembled (source : Bytes) (t : Task) (xs : List Node) : Node → Prop
  | classDecl {name span} (hclass : isClass t.node = true)
      (hname : textOf? source (t.node.child? "name") = .ok name)
      (hspan : spanOf t.node = .ok span) :
      Assembled source t xs (.classDecl name (xs.take t.allDecorators.length)
        (xs.drop t.allDecorators.length) span)
  | object {ps seps span} (hkind : t.node.kind = "object")
      (hentries : assembleEntries source t.node t.node.start t.node.children xs = .ok (ps, seps))
      (hspan : spanOf t.node = .ok span) : Assembled source t xs (.object ps seps span)
  | array {span} (hkind : t.node.kind = "array") (hspan : spanOf t.node = .ok span) :
      Assembled source t xs (.array xs span)
  | string {m} (hstring : isString t.node = true) (hm : Strung source t.node m) :
      Assembled source t xs m
  | decorator {callee span} (hdecorator : isDecorator t.node = true)
      (hcallee : calleeOf source t.node = .ok callee) (hspan : spanOf t.node = .ok span) :
      Assembled source t xs (.decorator callee xs span)
  | other {span} (hplain : t.isPlain = true) (hspan : spanOf t.node = .ok span) :
      Assembled source t xs (.other t.node.kind xs span)

theorem assemble_eq_ok {source : Bytes} {t : Task} {xs : List Node} {m : Node} :
    assemble source t xs = .ok m ↔ Assembled source t xs m := by
  constructor
  · intro h
    unfold assemble at h
    split at h
    · rename_i hclass
      simp only [bind_eq_ok, pure_eq_ok] at h
      obtain ⟨name, hname, span, hspan, rfl⟩ := h
      exact .classDecl hclass hname hspan
    split at h
    · rename_i hkind
      simp only [bind_eq_ok, pure_eq_ok] at h
      obtain ⟨⟨ps, seps⟩, hentries, span, hspan, rfl⟩ := h
      exact .object hkind hentries hspan
    split at h
    · rename_i hkind
      simp only [bind_eq_ok, pure_eq_ok] at h
      obtain ⟨span, hspan, rfl⟩ := h
      exact .array hkind hspan
    split at h
    · rename_i hstring
      exact .string hstring ((buildString_eq_ok hstring).1 h)
    split at h
    · rename_i hdecorator
      simp only [bind_eq_ok, pure_eq_ok] at h
      obtain ⟨callee, hcallee, span, hspan, rfl⟩ := h
      exact .decorator hdecorator hcallee hspan
    · simp only [bind_eq_ok, pure_eq_ok] at h
      obtain ⟨span, hspan, rfl⟩ := h
      exact .other (by simp_all [Task.isPlain]) hspan
  · intro h
    cases h with
    | classDecl hclass hname hspan =>
      rw [assemble, if_pos hclass, hname, hspan]
      rfl
    | object hkind hentries hspan =>
      rw [assemble, if_neg (by simp [isClass, hkind]), if_pos hkind, hentries, hspan]
      rfl
    | array hkind hspan =>
      rw [assemble, if_neg (by simp [isClass, hkind]), if_neg (by simp [hkind]), if_pos hkind, hspan]
      rfl
    | string hstring hm =>
      have hkind := hstring
      simp only [isString, Bool.or_eq_true, decide_eq_true_eq] at hkind
      rw [assemble, if_neg (by rcases hkind with hk | hk <;> simp [isClass, hk]),
        if_neg (by rcases hkind with hk | hk <;> simp [hk]),
        if_neg (by rcases hkind with hk | hk <;> simp [hk]), if_pos hstring]
      exact (buildString_eq_ok hstring).2 hm
    | decorator hdecorator hcallee hspan =>
      have hkind : t.node.kind = "decorator" := by simpa [isDecorator] using hdecorator
      rw [assemble, if_neg (by simp [isClass, hkind]), if_neg (by simp [hkind]),
        if_neg (by simp [hkind]), if_neg (by simp [isString, hkind]), if_pos hdecorator, hcallee,
        hspan]
      rfl
    | other hplain hspan =>
      simp only [Task.isPlain, Bool.and_eq_true, Bool.not_eq_true', decide_eq_true_eq] at hplain
      obtain ⟨⟨⟨⟨hclass, hobject⟩, harray⟩, hstring⟩, hdecorator⟩ := hplain
      rw [assemble, if_neg (by simp [hclass]), if_neg hobject, if_neg harray,
        if_neg (by simp [hstring]), if_neg (by simp [hdecorator]), hspan]
      rfl

theorem Assembled.of_object {source : Bytes} {t : Task} {xs ps : List Node} {seps : List Nat}
    {span : Span} (h : Assembled source t xs (.object ps seps span)) : t.node.kind = "object" ∧
      assembleEntries source t.node t.node.start t.node.children xs = .ok (ps, seps) ∧
      spanOf t.node = .ok span := by
  cases h with
  | object hkind hentries hspan => exact ⟨hkind, hentries, hspan⟩
  | string _ hm => cases hm

/-- An object's node is assembled to an object. -/
theorem Assembled.object_of_kind {source : Bytes} {t : Task} {xs : List Node} {m : Node}
    (h : Assembled source t xs m) (hkind : t.node.kind = "object") :
    ∃ ps seps span, m = .object ps seps span ∧
      assembleEntries source t.node t.node.start t.node.children xs = .ok (ps, seps) ∧
      spanOf t.node = .ok span := by
  cases h with
  | object _ hentries hspan => exact ⟨_, _, _, rfl, hentries, hspan⟩
  | classDecl hclass => simp [isClass, hkind] at hclass
  | array harray => simp [hkind] at harray
  | string hstring => simp [isString, hkind] at hstring
  | decorator hdecorator => simp [isDecorator, hkind] at hdecorator
  | other hplain => simp [Task.isPlain, hkind] at hplain

theorem Task.inputs_of_object {t : Task} (h : t.node.kind = "object") :
    t.inputs = t.node.children.flatMap (Task.entryInputs t.node) := by
  rw [inputs, if_neg (by simp [isClass, h]), if_pos h, objectInputs_eq]

theorem Task.inputs_of_array {t : Task} (h : t.node.kind = "array") :
    t.inputs = t.node.significant.map (Task.under t.node) := by
  rw [inputs, if_neg (by simp [isClass, h]), if_neg (by simp [h]), if_pos h]

theorem Task.inputs_of_string {t : Task} (h : isString t.node = true) : t.inputs = [] := by
  have hkind := h
  simp only [isString, Bool.or_eq_true, decide_eq_true_eq] at hkind
  rw [inputs, if_neg (by rcases hkind with hk | hk <;> simp [isClass, hk]),
    if_neg (by rcases hkind with hk | hk <;> simp [hk]),
    if_neg (by rcases hkind with hk | hk <;> simp [hk]), if_pos h]

theorem Task.inputs_of_isPlain {t : Task} (h : t.isPlain = true) :
    t.inputs = (otherParts t.node).map (Task.under t.node) := by
  simp only [Task.isPlain, Bool.and_eq_true, Bool.not_eq_true', decide_eq_true_eq] at h
  obtain ⟨⟨⟨⟨hclass, hobject⟩, harray⟩, hstring⟩, hdecorator⟩ := h
  rw [inputs, if_neg (by simp [hclass]), if_neg hobject, if_neg harray, if_neg (by simp [hstring]),
    if_neg (by simp [hdecorator])]

section
variable {source : Bytes} {table : Table}

theorem buildEntry_eq {n c : Cst} {last : Nat} {xs : List Node} (hc : c.isEntry = true)
    (h : List.Forall₂ (fun s x => table.resolve s.node = .ok x) (Task.entryInputs n c) xs) :
    buildEntry source table last c = assembleEntry source last c xs.head? := by
  simp only [isEntry, Bool.and_eq_true] at hc
  rw [Task.entryInputs, if_pos (by simp [hc]), Task.entryInput] at h
  unfold buildEntry assembleEntry
  by_cases hpair : c.kind = "pair"
  · rw [if_pos hpair] at h ⊢
    rw [if_pos hpair, buildProperty, valueOf]
    cases hv : c.child? "value" with
    | none => rfl
    | some v =>
      rw [hv, Option.map_some, Option.toList_some] at h
      cases h with
      | cons hx hrest =>
        have hx : table.resolve v = .ok _ := hx
        dsimp only
        rw [hx]
        rfl
  · rw [if_neg hpair] at h ⊢
    rw [if_neg hpair]
    cases h with
    | cons hx hrest => exact hx

theorem buildEntries_eq {n : Cst} {last : Nat} {cs : List Cst} {xs : List Node}
    (h : List.Forall₂ (fun s x => table.resolve s.node = .ok x) (cs.flatMap (Task.entryInputs n)) xs) :
    buildEntries source table last cs = assembleEntries source n last cs xs := by
  induction cs generalizing last xs with
  | nil => rfl
  | cons c cs ih =>
    obtain ⟨hc, hrest⟩ := forall₂_append_left h
    unfold buildEntries assembleEntries
    dsimp only
    rw [← ih hrest, assembleChild, lastAfter, commasOf]
    by_cases htrivia : c.isTrivia
    · have hentry : c.isEntry = false := by simp [isEntry, htrivia]
      simp only [htrivia, hentry, ↓reduceIte, Bool.not_true, Bool.false_and, Bool.false_eq_true]
      cases buildEntries source table last cs <;> rfl
    by_cases hkind : c.kind = ","
    · have hentry : c.isEntry = false := by simp [isEntry, hkind]
      simp only [htrivia, hkind, hentry, Bool.false_eq_true, ↓reduceIte, beq_self_eq_true,
        Bool.not_false, Bool.and_self]
      cases buildEntries source table c.stop cs <;> rfl
    by_cases hnamed : c.named
    · have hentry : c.isEntry = true := by simp [isEntry, htrivia, hkind, hnamed]
      rw [if_neg htrivia, if_neg hkind, if_pos hnamed, if_pos hentry, buildEntry_eq hentry hc]
      simp only [htrivia, hkind, Bool.false_eq_true, ↓reduceIte, beq_iff_eq, Bool.and_eq_true,
        and_false]
      cases assembleEntry source last c (xs.take (Task.entryInputs n c).length).head? with
      | error f => rfl
      | ok p => cases buildEntries source table c.stop cs <;> rfl
    · have hentry : c.isEntry = false := by simp [isEntry, hnamed]
      simp only [htrivia, hkind, hnamed, hentry, Bool.false_eq_true, ↓reduceIte, beq_iff_eq,
        Bool.and_eq_true, and_false]
      cases buildEntries source table c.stop cs <;> rfl

/-- **A node is built from the nodes of its inputs** and from nothing else of the table. -/
theorem build_eq_assemble {t : Task} {xs : List Node}
    (h : List.Forall₂ (fun s x => table.resolve s.node = .ok x) t.inputs xs) :
    build source table t = assemble source t xs := by
  have hunder : ∀ {p : Cst} {cs : List Cst} {ys : List Node},
      List.Forall₂ (fun s x => table.resolve s.node = .ok x) (cs.map (Task.under p)) ys →
        cs.mapM table.resolve = .ok ys := fun hcs =>
    mapM_eq_ok.2 (List.forall₂_map_left_iff.1 hcs)
  unfold build assemble
  unfold Task.inputs at h
  by_cases hclass : isClass t.node
  · simp only [hclass, ↓reduceIte] at h ⊢
    unfold Task.classInputs at h
    obtain ⟨hds, hms⟩ := forall₂_append_left h
    rw [List.length_map] at hds hms
    have hdecorators := mapM_eq_ok.2 (List.forall₂_map_left_iff.1 hds)
    have hmembers : (members t.node).mapM table.resolve = .ok (xs.drop t.allDecorators.length) := by
      unfold members
      cases hb : t.node.child? "body" with
      | none =>
        rw [hb] at hms
        rw [List.forall₂_nil_left_iff.1 hms]
        rfl
      | some body =>
        rw [hb] at hms
        exact hunder hms
    rw [buildClass, hdecorators, hmembers]
    rfl
  by_cases hobject : t.node.kind = "object"
  · simp only [hclass, hobject, Bool.false_eq_true, ↓reduceIte] at h ⊢
    rw [Task.objectInputs_eq] at h
    rw [buildObject, buildEntries_eq h]
  by_cases harray : t.node.kind = "array"
  · simp only [hclass, if_neg hobject, if_pos harray, Bool.false_eq_true, ↓reduceIte] at h ⊢
    rw [hunder h]
    rfl
  by_cases hstring : isString t.node
  · simp only [hclass, hobject, harray, hstring, Bool.false_eq_true, ↓reduceIte]
  by_cases hdecorator : isDecorator t.node
  · simp only [hclass, hobject, harray, hstring, hdecorator, Bool.false_eq_true, ↓reduceIte] at h ⊢
    have harguments : argumentsOf table t.node = .ok xs := by
      unfold argumentsOf
      unfold Task.decoratorInputs at h
      cases hargs : argumentList? t.node with
      | none =>
        rw [hargs] at h
        cases h
        rfl
      | some list =>
        rw [hargs] at h
        exact hunder h
    rw [buildDecorator, harguments]
    rfl
  · simp only [hclass, hobject, harray, hstring, hdecorator, Bool.false_eq_true, ↓reduceIte] at h ⊢
    rw [hunder h]
    rfl

end

/-! ## The recursion -/

/-- The node of a task by recursion: the inputs from the last to the first, then the node. -/
def value (source : Bytes) (t : Task) : Except Fault Node := do
  let built ← t.inputs.reverse.attach.mapM fun s => value source s.val
  assemble source t built.reverse
termination_by t.reach
decreasing_by exact Task.reach_inputs (List.mem_reverse.1 s.property)

theorem value_eq (source : Bytes) (t : Task) :
    value source t = t.inputs.reverse.mapM (value source) >>= fun built =>
      assemble source t built.reverse := by
  rw [value, List.mapM_subtype (g := value source) fun _ _ => rfl, List.unattach_attach]

/-- **A node is assembled from the nodes of its inputs.** -/
theorem value_eq_ok {source : Bytes} {t : Task} {m : Node} : value source t = .ok m ↔
    ∃ xs, List.Forall₂ (fun s x => value source s = .ok x) t.inputs xs ∧
      assemble source t xs = .ok m := by
  rw [value_eq, bind_eq_ok]
  constructor
  · rintro ⟨built, hbuilt, hm⟩
    refine ⟨built.reverse, ?_, hm⟩
    rw [← List.forall₂_reverse_iff, List.reverse_reverse]
    exact mapM_eq_ok.1 hbuilt
  · rintro ⟨xs, hxs, hm⟩
    refine ⟨xs.reverse, mapM_eq_ok.2 (List.forall₂_reverse_iff.2 hxs), ?_⟩
    rw [List.reverse_reverse]
    exact hm

theorem Table.resolve_eq_ok {table : Table} {n : Cst} {m : Node} :
    table.resolve n = .ok m ↔ table[n.id]? = some m := by
  unfold resolve
  split <;> simp_all

/-! ## The work list -/

/-- What the table has for the tasks of a tree is what they are lowered to. -/
def Table.Agrees (table : Table) (source : Bytes) (root : Cst) : Prop :=
  ∀ s, Reached root s → ∀ m, table[s.node.id]? = some m → value source s = .ok m

/-- A table with all that another one has. -/
def Table.Extends (table' table : Table) : Prop :=
  ∀ i : Nat, table[i]?.isSome → table'[i]?.isSome

/-- What the work list does about tasks: it fails as the recursion does, or goes on with a table that
has them all. -/
def Settles (source : Bytes) (root : Cst) (ts : List Task) : Except Fault α → Prop
  | .error f => ∀ rest (table : Table), table.Agrees source root →
      run source (ts.map .enter ++ rest) table = .error f
  | .ok _ => ∀ rest (table : Table), table.Agrees source root → ∃ table' : Table,
      run source (ts.map .enter ++ rest) table = run source rest table' ∧
      table'.Agrees source root ∧ Table.Extends table' table ∧ ∀ s ∈ ts, table'[s.node.id]?.isSome

theorem settles_all {source : Bytes} {root : Cst} {ts : List Task}
    (h : ∀ s ∈ ts, Settles source root [s] (value source s)) :
    Settles source root ts (ts.mapM (value source)) := by
  induction ts with
  | nil =>
    intro rest table hagrees
    exact ⟨table, rfl, hagrees, fun _ hi => hi, by simp⟩
  | cons s ts ih =>
    have hs := h s List.mem_cons_self
    have hts := ih fun d hd => h d (List.mem_cons_of_mem _ hd)
    rw [List.mapM_cons]
    cases hv : value source s with
    | error f =>
      rw [hv] at hs
      intro rest table hagrees
      exact hs (ts.map .enter ++ rest) table hagrees
    | ok m =>
      rw [hv] at hs
      cases hvs : ts.mapM (value source) with
      | error f =>
        rw [hvs] at hts
        intro rest table hagrees
        obtain ⟨table₁, hrun, hagrees₁, -, -⟩ := hs (ts.map .enter ++ rest) table hagrees
        exact hrun.trans (hts rest table₁ hagrees₁)
      | ok built =>
        rw [hvs] at hts
        intro rest table hagrees
        obtain ⟨table₁, hrun, hagrees₁, hext₁, hin₁⟩ := hs (ts.map .enter ++ rest) table hagrees
        obtain ⟨table₂, hrun₂, hagrees₂, hext₂, hin₂⟩ := hts rest table₁ hagrees₁
        refine ⟨table₂, hrun.trans hrun₂, hagrees₂, fun i hi => hext₂ i (hext₁ i hi), fun d hd => ?_⟩
        rcases List.mem_cons.1 hd with rfl | hd
        · exact hext₂ _ (hin₁ d List.mem_cons_self)
        · exact hin₂ d hd

theorem Table.Agrees.insert {source : Bytes} {root : Cst} (hn : root.Numbered) {table : Table}
    (h : table.Agrees source root) {t : Task} (ht : Reached root t) {m : Node}
    (hm : value source t = .ok m) : Table.Agrees (table.insert t.node.id m) source root := by
  intro s hs w hw
  rw [Std.HashMap.getElem?_insert] at hw
  split at hw
  · rename_i hid
    obtain rfl := Reached.unique hn ht hs (by simpa using hid)
    rw [hm, Option.some.inj hw]
  · exact h s hs w hw

theorem Table.Extends.insert {table table' : Table} (h : Table.Extends table' table) (i : Nat)
    (m : Node) : Table.Extends (table'.insert i m) table := by
  intro j hj
  rw [Std.HashMap.getElem?_insert]
  split
  · rfl
  · exact h j hj

theorem run_enter {source : Bytes} {t : Task} (rest : List Job) (table : Table) :
    run source ([t].map .enter ++ rest) table
      = run source (t.inputs.reverse.map .enter ++ .leave t :: rest) table := by
  rw [List.map_singleton, List.singleton_append, run]

/-- Once the inputs of a task are in the table, its node is built from them. -/
theorem Settles.leave {source : Bytes} {root : Cst} {t : Task} (ht : Reached root t)
    {built : List Node} (h : Settles source root t.inputs.reverse (.ok built))
    (hbuilt : t.inputs.reverse.mapM (value source) = .ok built) (rest : List Job) {table : Table}
    (hagrees : table.Agrees source root) :
    ∃ table' : Table, run source ([t].map .enter ++ rest) table = run source (.leave t :: rest) table' ∧
      table'.Agrees source root ∧ Table.Extends table' table ∧
      build source table' t = assemble source t built.reverse := by
  have hvalues := mapM_eq_ok.1 hbuilt
  rw [← List.forall₂_reverse_iff, List.reverse_reverse] at hvalues
  obtain ⟨table', hrun, hagrees', hext, hin⟩ := h (.leave t :: rest) table hagrees
  refine ⟨table', (run_enter rest table).trans hrun, hagrees', hext,
    build_eq_assemble (forall₂_imp_mem hvalues fun s hs x _ hx => ?_)⟩
  obtain ⟨m, hm⟩ := Option.isSome_iff_exists.1 (hin s (List.mem_reverse.2 hs))
  have hsame := hagrees' s (.input ht hs) m hm
  rw [hx] at hsame
  rw [Table.resolve_eq_ok, hm, Except.ok.inj hsame]

/-- **The work list does about a task what the recursion does.** -/
theorem settles {source : Bytes} {root : Cst} (hn : root.Numbered) {t : Task}
    (ht : Reached root t) : Settles source root [t] (value source t) := by
  induction hk : t.reach using Nat.strongRecOn generalizing t with
  | ind k ih =>
    subst hk
    have hinputs := settles_all fun s hs =>
      ih s.reach (Task.reach_inputs (List.mem_reverse.1 hs)) (.input ht (List.mem_reverse.1 hs)) rfl
    have hvalue := value_eq source t
    cases hbuilt : t.inputs.reverse.mapM (value source) with
    | error f =>
      rw [hbuilt] at hinputs hvalue
      rw [hvalue]
      intro rest table hagrees
      exact (run_enter rest table).trans (hinputs (.leave t :: rest) table hagrees)
    | ok built =>
      rw [hbuilt] at hinputs hvalue
      replace hvalue : value source t = assemble source t built.reverse := hvalue
      cases hm : assemble source t built.reverse with
      | error f =>
        rw [hvalue, hm]
        intro rest table hagrees
        obtain ⟨table₁, hrun, -, -, hsame⟩ := hinputs.leave ht hbuilt rest hagrees
        rw [hrun, run, hsame, hm]
        rfl
      | ok m =>
        rw [hvalue, hm]
        intro rest table hagrees
        obtain ⟨table₁, hrun, hagrees₁, hext, hsame⟩ := hinputs.leave ht hbuilt rest hagrees
        refine ⟨table₁.insert t.node.id m, by rw [hrun, run, hsame, hm]; rfl,
          hagrees₁.insert hn ht (hvalue.trans hm), hext.insert _ _, by simp⟩

/-- **The work list computes the recursion**, faults included. -/
theorem lower_eq_value {source : Bytes} {root : Cst} (hn : root.Numbered) :
    lower source root = value source ⟨[], root⟩ := by
  have h := @settles source root hn _ .root
  have hempty : Table.Agrees ∅ source root := by
    intro s _ m hm
    simp at hm
  rw [lower]
  cases hv : value source ⟨[], root⟩ with
  | error f =>
    rw [hv] at h
    have hrun := h [] ∅ hempty
    rw [List.append_nil, List.map_singleton] at hrun
    rw [hrun]
    rfl
  | ok m =>
    rw [hv] at h
    obtain ⟨table, hrun, hagrees, -, hin⟩ := h [] ∅ hempty
    rw [List.append_nil, List.map_singleton, run.eq_1] at hrun
    obtain ⟨w, hw⟩ := Option.isSome_iff_exists.1 (hin _ List.mem_cons_self)
    have hwm := hagrees _ .root w hw
    rw [hv] at hwm
    rw [hrun, Except.ok.inj hwm]
    exact Table.resolve_eq_ok.2 hw

end Lowering

end AssetLift
