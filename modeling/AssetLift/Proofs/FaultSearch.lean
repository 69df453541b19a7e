import AssetLift.Proofs.Provenance
import AssetLift.Source

/-!
# The first fault of a tree

A source file is refused if some node of its tree is a fault or carries a mark of one, and the place
that is told is that of the first fault, a node standing before its children and these from left to
right. The search for it looks only into trees that hold a fault or a mark. What it passes by holds
no fault, so it finds what a search of the whole tree finds.

* `Cst.preorder`, `Cst.mem_preorder`: the nodes of a tree in order; these are the nodes in it.
* `Cst.hasError_iff`: a tree has an error just if a node in it is a fault or carries a mark.
* `Cst.firstFaultOn_eq`: the search finds the first fault of all.
* `Cst.Searches`, `Cst.searches_firstFaultOn`: the steps of the search, and what it looks at.
* `Source.node_refuses`: which files are refused, and with which message.
-/

namespace AssetLift

namespace Cst

/-! ## All nodes in order -/

mutual

/-- The nodes of a tree, a node before its children and these from left to right. -/
def preorder : Cst → List Cst
  | node l cs => node l cs :: preorderAll cs

/-- The nodes of a list of trees, one tree after the other. -/
def preorderAll : List Cst → List Cst
  | [] => []
  | c :: cs => preorder c ++ preorderAll cs

end

theorem preorder_eq (n : Cst) : n.preorder = n :: n.children.flatMap preorder := by
  have hall : ∀ cs, preorderAll cs = cs.flatMap preorder := by
    intro cs
    induction cs with
    | nil => rfl
    | cons c cs ih => rw [preorderAll, ih, List.flatMap_cons]
  cases n
  rw [preorder, hall]
  rfl

/-- **The nodes listed are the nodes of the tree.** -/
theorem mem_preorder {m n : Cst} : m ∈ n.preorder ↔ Inside m n := by
  constructor
  · intro h
    induction hk : n.size using Nat.strongRecOn generalizing n with
    | ind k ih =>
      subst hk
      rw [preorder_eq, List.mem_cons, List.mem_flatMap] at h
      rcases h with rfl | ⟨c, hc, hm⟩
      · exact .self m
      · exact .deeper hc (ih c.size (size_lt_of_mem_children hc) hm rfl)
  · intro h
    induction h with
    | self =>
      rw [preorder_eq]
      exact List.mem_cons_self
    | deeper hc _ ih =>
      rw [preorder_eq, List.mem_cons, List.mem_flatMap]
      exact .inr ⟨_, hc, ih⟩

/-! ## Faults and marks -/

theorem anyError_eq_true {cs : List Cst} : anyError cs = true ↔ ∃ c ∈ cs, c.hasError = true := by
  induction cs with
  | nil => simp [anyError]
  | cons c cs ih => simp [anyError, ih]

theorem hasError_iff_children {n : Cst} : n.hasError = true ↔
    (n.label.marked = true ∨ n.isFault = true) ∨ ∃ c ∈ n.children, c.hasError = true := by
  rw [hasError_eq, Bool.or_eq_true, anyError_eq_true]
  refine or_congr_left ?_
  simp only [isFault, Bool.or_eq_true]
  tauto

/-- **A tree has an error** just if a node in it is a fault or carries a mark of one. -/
theorem hasError_iff {n : Cst} :
    n.hasError = true ↔ ∃ m, Inside m n ∧ (m.label.marked = true ∨ m.isFault = true) := by
  constructor
  · intro h
    induction hk : n.size using Nat.strongRecOn generalizing n with
    | ind k ih =>
      subst hk
      rcases hasError_iff_children.1 h with hn | ⟨c, hc, herror⟩
      · exact ⟨n, .self n, hn⟩
      · obtain ⟨m, hm, hfault⟩ := ih c.size (size_lt_of_mem_children hc) herror rfl
        exact ⟨m, .deeper hc hm, hfault⟩
  · rintro ⟨m, hm, hfault⟩
    induction hm with
    | self => exact hasError_iff_children.2 (.inl hfault)
    | deeper hc _ ih => exact hasError_iff_children.2 (.inr ⟨_, hc, ih⟩)

theorem isFault_of_hasError {n m : Cst} (h : n.hasError = false) (hm : Inside m n) :
    m.isFault = false := by
  rw [Bool.eq_false_iff] at h ⊢
  exact fun hfault => h (hasError_iff.2 ⟨m, hm, .inr hfault⟩)

/-! ## The search -/

/-- What is passed by holds no fault. -/
theorem find?_preorder_of_hasError {n : Cst} (h : n.hasError = false) :
    n.preorder.find? isFault = none :=
  List.find?_eq_none.2 fun m hm => by simp [isFault_of_hasError h (mem_preorder.1 hm)]

/-- **The search finds the first fault of all** trees on the stack. -/
theorem firstFaultOn_eq (stack : List Cst) :
    firstFaultOn stack = (stack.flatMap preorder).find? isFault := by
  induction stack using firstFaultOn.induct with
  | case1 => rw [firstFaultOn]; rfl
  | case2 n rest hfault =>
    rw [firstFaultOn, if_pos hfault, List.flatMap_cons, preorder_eq, List.cons_append,
      List.find?_cons_of_pos hfault]
  | case3 n rest hclean herror ih =>
    rw [firstFaultOn, if_neg hclean, if_pos herror, ih, List.flatMap_append, List.flatMap_cons,
      preorder_eq, List.cons_append, List.find?_cons_of_neg hclean]
  | case4 n rest hclean herror ih =>
    rw [firstFaultOn, if_neg hclean, if_neg herror, ih, List.flatMap_cons, List.find?_append,
      find?_preorder_of_hasError (Bool.eq_false_iff.2 herror), Option.none_or]

/-- The steps of a search over a stack whose top is at the end, the nodes it looks at, and what it
finds. The top is taken away. A fault is found; a node with an error is entered, and its children
are put on the stack, the first of them last; any other node is passed by. -/
inductive Searches : List Cst → List Cst → Option Cst → Prop
  | exhausted : Searches [] [] none
  | found {stack n} (h : n.isFault = true) : Searches (stack ++ [n]) [n] (some n)
  | enter {stack n seen r} (hclean : n.isFault = false) (herror : n.hasError = true)
      (h : Searches (stack ++ n.children.reverse) seen r) : Searches (stack ++ [n]) (n :: seen) r
  | pass {stack n seen r} (hclean : n.isFault = false) (herror : n.hasError = false)
      (h : Searches stack seen r) : Searches (stack ++ [n]) (n :: seen) r

/-- **What the search looks at**: nodes in their order, each of them once, and of these only what
was on the stack and the children of nodes with an error. -/
theorem searches_firstFaultOn (stack : List Cst) :
    ∃ seen, Searches stack.reverse seen (firstFaultOn stack) ∧
      seen.Sublist (stack.flatMap preorder) ∧
      ∀ m ∈ seen, m ∈ stack ∨ ∃ p ∈ seen, p.hasError = true ∧ m ∈ p.children := by
  induction stack using firstFaultOn.induct with
  | case1 => exact ⟨[], by rw [firstFaultOn]; exact .exhausted, .slnil, by simp⟩
  | case2 n rest hfault =>
    refine ⟨[n], ?_, ?_, by simp⟩
    · rw [firstFaultOn, if_pos hfault, List.reverse_cons]
      exact .found hfault
    · rw [List.flatMap_cons, preorder_eq]
      simp
  | case3 n rest hclean herror ih =>
    obtain ⟨seen, hsearch, hsub, horigin⟩ := ih
    refine ⟨n :: seen, ?_, ?_, ?_⟩
    · rw [firstFaultOn, if_neg hclean, if_pos herror, List.reverse_cons]
      rw [List.reverse_append] at hsearch
      exact .enter (Bool.eq_false_iff.2 hclean) herror hsearch
    · rw [List.flatMap_cons, preorder_eq, List.cons_append, ← List.flatMap_append]
      exact hsub.cons_cons n
    · intro m hm
      rcases List.mem_cons.1 hm with rfl | hm
      · exact .inl List.mem_cons_self
      · rcases horigin m hm with hstack | ⟨p, hp, hentered⟩
        · rcases List.mem_append.1 hstack with hchild | hrest
          · exact .inr ⟨n, List.mem_cons_self, herror, hchild⟩
          · exact .inl (List.mem_cons_of_mem _ hrest)
        · exact .inr ⟨p, List.mem_cons_of_mem _ hp, hentered⟩
  | case4 n rest hclean herror ih =>
    obtain ⟨seen, hsearch, hsub, horigin⟩ := ih
    refine ⟨n :: seen, ?_, ?_, ?_⟩
    · rw [firstFaultOn, if_neg hclean, if_neg herror, List.reverse_cons]
      exact .pass (Bool.eq_false_iff.2 hclean) (Bool.eq_false_iff.2 herror) hsearch
    · rw [List.flatMap_cons, preorder_eq, List.cons_append]
      exact (hsub.trans (List.sublist_append_right _ _)).cons_cons n
    · intro m hm
      rcases List.mem_cons.1 hm with rfl | hm
      · exact .inl List.mem_cons_self
      · rcases horigin m hm with hrest | ⟨p, hp, hentered⟩
        · exact .inl (List.mem_cons_of_mem _ hrest)
        · exact .inr ⟨p, List.mem_cons_of_mem _ hp, hentered⟩

theorem firstFault?_eq (n : Cst) : n.firstFault? = n.preorder.find? isFault := by
  rw [firstFault?, firstFaultOn_eq, List.flatMap_singleton]

/-! ## What is told -/

/-- **The message has no place** just if the fault has none. -/
theorem Fault.message_eq_bare {f : Fault} : f.message = "syntax error" ↔ f.point = none := by
  unfold message
  cases f.point with
  | none => simp
  | some p =>
    refine iff_of_false (fun h => ?_) (by simp)
    have hlength := congrArg String.length h
    simp only [toString, String.length_append] at hlength
    change 21 + _ + 9 + _ = 12 at hlength
    omega

theorem check_of_hasError {source : Bytes} {root : Cst} (h : root.hasError = true) :
    check source root
      = .error ⟨(root.preorder.find? isFault).map fun n => Point.ofOffset source n.start⟩ := by
  rw [check, if_pos h, firstFault?_eq]

theorem check_of_not_hasError {source : Bytes} {root : Cst} (h : root.hasError = false) :
    check source root = .ok root := by
  rw [check, if_neg (by simp [h])]

end Cst

namespace Source

open Cst

theorem node_of_hasError {source : Bytes} {root : Cst} (h : root.hasError = true) :
    node source root = .error (.parse
      ⟨(root.preorder.find? isFault).map fun n => Point.ofOffset source n.start⟩) := by
  rw [node, check_of_hasError h]
  rfl

theorem node_of_not_hasError {source : Bytes} {root : Cst} (h : root.hasError = false) :
    node source root = (Lowering.lower source root).mapError .lowering := by
  rw [node, check_of_not_hasError h]
  rfl

theorem node_refused_iff {source : Bytes} {root : Cst} :
    (∃ f, node source root = .error (.parse f)) ↔ root.hasError = true := by
  constructor
  · rintro ⟨f, hf⟩
    by_contra h
    rw [node_of_not_hasError (Bool.eq_false_iff.2 h)] at hf
    cases hl : Lowering.lower source root <;> rw [hl] at hf <;> cases hf
  · exact fun h => ⟨_, node_of_hasError h⟩

/-- **Which files are refused, and with which message.** A file is refused if and only if a node of
its tree is a fault or carries a mark of one. The place that is told is that of the first fault of
the whole tree, though the search only enters nodes with an error, and there is none just if no node
is a fault. A file that is not refused is lowered, and no node of its tree is a fault. -/
theorem node_refuses (source : Bytes) (root : Cst) :
    (root.hasError = true ↔ ∃ m, Inside m root ∧ (m.label.marked = true ∨ m.isFault = true)) ∧
    ((∃ f, node source root = .error (.parse f)) ↔ root.hasError = true) ∧
    (∀ f, node source root = .error (.parse f) →
      f.point = (root.preorder.find? isFault).map (fun n => Point.ofOffset source n.start) ∧
      (f.message = "syntax error" ↔ ∀ m, Inside m root → m.isFault = false)) ∧
    (∃ seen, Searches [root] seen root.firstFault? ∧ seen.Sublist root.preorder ∧
      ∀ m ∈ seen, m = root ∨ ∃ p ∈ seen, p.hasError = true ∧ m ∈ p.children) ∧
    ((∀ f, node source root ≠ .error (.parse f)) →
      node source root = (Lowering.lower source root).mapError .lowering ∧
        ∀ m, Inside m root → m.isFault = false) := by
  refine ⟨hasError_iff, node_refused_iff, fun f hf => ?_, ?_, fun hf => ?_⟩
  · have hrefused := (node_of_hasError (node_refused_iff.1 ⟨f, hf⟩)).symm.trans hf
    obtain rfl : _ = f := Fault.parse.inj (Except.error.inj hrefused)
    refine ⟨rfl, ?_⟩
    rw [Fault.message_eq_bare, Option.map_eq_none_iff, List.find?_eq_none]
    simp only [mem_preorder, Bool.not_eq_true]
  · obtain ⟨seen, hsearch, hsub, horigin⟩ := searches_firstFaultOn [root]
    rw [List.flatMap_singleton] at hsub
    simp only [List.mem_singleton] at horigin
    exact ⟨seen, hsearch, hsub, horigin⟩
  · have herror : root.hasError = false :=
      Bool.eq_false_iff.2 fun h => (node_refused_iff.2 h).elim hf
    exact ⟨node_of_not_hasError herror, fun m hm => isFault_of_hasError herror hm⟩

-- A mark without a fault: the file is refused, and no place is told.
example : node [] (.node { id := 0, kind := "program", start := 0, stop := 0, marked := true } []) =
    .error (.parse ⟨none⟩) := node_of_hasError rfl

end Source

end AssetLift
