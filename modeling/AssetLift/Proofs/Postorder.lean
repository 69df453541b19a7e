import AssetLift.Proofs.Structure

/-!
# The order in which a tree is lowered

The tasks of a tree in post-order, inputs from the last to the first, and what of this order shows
in the result of a lowering.

* `run_steps`: the work list ends, after at most two steps for each task.
* `value_resolved`: no node is looked up that has not been built.
* `value_eq_error`: a lowering fails with the first fault that is met in post-order.
* `part_of_value`: what a lowered tree is made of are the nodes of tasks, and properties.
* `export_hoists`: an export statement keeps no decorator; its classes begin with them.
-/

namespace AssetLift

/-- Whether a node is a decorator. -/
def Node.isDecorator : Node → Bool
  | decorator _ _ _ => true
  | _ => false

namespace Lowering

open Cst

/-! ## The work list ends -/

/-- The steps of a work list: how many there are, and what they end with. -/
inductive Steps (source : Bytes) : Nat → List Job → Table → Except Fault Table → Prop
  | done {table} : Steps source 0 [] table (.ok table)
  | enter {k t rest table r}
      (h : Steps source k (t.inputs.reverse.map .enter ++ .leave t :: rest) table r) :
      Steps source (k + 1) (.enter t :: rest) table r
  | leave {k t rest table built r} (hb : build source table t = .ok built)
      (h : Steps source k rest (table.insert t.node.id built) r) :
      Steps source (k + 1) (.leave t :: rest) table r
  | fault {t rest table f} (hb : build source table t = .error f) :
      Steps source 1 (.leave t :: rest) table (.error f)

/-- **The work list ends**, after no more steps than its cost. -/
theorem run_steps (source : Bytes) (jobs : List Job) (table : Table) :
    ∃ k ≤ cost jobs, Steps source k jobs table (run source jobs table) := by
  induction jobs, table using run.induct with
  | case1 table =>
    rw [run]
    exact ⟨0, Nat.zero_le _, .done⟩
  | case2 t rest table ih =>
    have hcost : cost (.leave t :: rest) = 1 + cost rest := by
      simp only [cost, List.map_cons, total_cons, Job.cost]
    rw [run]
    cases hb : build source table t with
    | error f => exact ⟨1, by omega, .fault hb⟩
    | ok built =>
      obtain ⟨k, hk, hsteps⟩ := ih built
      exact ⟨k + 1, by omega, .leave hb hsteps⟩
  | case3 t rest table ih =>
    obtain ⟨k, hk, hsteps⟩ := ih
    have := cost_enter_inputs t rest
    rw [run]
    exact ⟨k + 1, by omega, .enter hsteps⟩

/-! ## Every node looked up has been built -/

/-- The computation does not fail for want of a node. -/
def Resolved (x : Except Fault α) : Prop := ∀ id, x ≠ .error (.unresolved id)

namespace Resolved

variable {α β : Type}

theorem ok (a : α) : Resolved (.ok a) := fun _ h => by cases h

theorem bind {x : Except Fault α} {f : α → Except Fault β} (hx : Resolved x)
    (hf : ∀ a, x = .ok a → Resolved (f a)) : Resolved (x >>= f) := by
  intro id h
  cases x with
  | error e => exact hx id (congrArg Except.error (Except.error.inj h))
  | ok a => exact hf a rfl id h

theorem map {x : Except Fault α} {f : α → β} (hx : Resolved x) : Resolved (f <$> x) := by
  intro id h
  cases x with
  | error e => exact hx id (congrArg Except.error (Except.error.inj h))
  | ok a => cases h

theorem mapError {ε : Type} {x : Except ε α} {f : ε → Fault} (hf : ∀ e id, f e ≠ .unresolved id) :
    Resolved (x.mapError f) := by
  intro id h
  cases x with
  | error e => exact hf e id (Except.error.inj h)
  | ok a => cases h

theorem mapM {f : α → Except Fault β} {xs : List α} (hf : ∀ x ∈ xs, Resolved (f x)) :
    Resolved (xs.mapM f) := by
  induction xs with
  | nil => exact ok _
  | cons x xs ih =>
    rw [List.mapM_cons]
    exact (hf x List.mem_cons_self).bind fun _ _ =>
      (ih fun y hy => hf y (List.mem_cons_of_mem _ hy)).bind fun _ _ => ok _

end Resolved

section
variable (source : Bytes) (n : Cst)

theorem resolved_spanOf : Resolved (spanOf n) := .mapError fun _ _ h => by cases h

theorem resolved_textOf : Resolved (textOf source n) := .mapError fun _ _ h => by cases h

theorem resolved_keyOf : Resolved (keyOf source n) := by
  unfold keyOf
  split
  · split
    · exact (resolved_textOf source _).map
    · exact .ok _
  · exact .ok _

theorem resolved_calleeOf : Resolved (calleeOf source n) := by
  unfold calleeOf
  split
  · split
    · exact (resolved_textOf source _).map
    · exact .ok _
  · exact .ok _

theorem resolved_buildString : Resolved (buildString source n) := by
  have hliteral : ∀ (d : Literal.Delimiter) (body : String),
      Resolved ((Literal.decode d body).mapError Fault.literal) :=
    fun _ _ => .mapError fun _ _ h => by cases h
  unfold buildString
  refine Resolved.bind (.mapError fun _ _ h => by cases h) fun body _ => ?_
  split
  · split
    · exact (resolved_spanOf n).bind fun _ _ => .ok _
    · exact (hliteral _ body).bind fun _ _ => (resolved_spanOf n).bind fun _ _ => .ok _
  · exact (hliteral _ body).bind fun _ _ => (resolved_spanOf n).bind fun _ _ => .ok _

end

/-- An entry that is no pair is the one input that the child gives. -/
theorem resolved_assembleChild (source : Bytes) (n : Cst) (last : Nat) {c : Cst} {xs : List Node}
    (hxs : xs.length = (Task.entryInputs n c).length) :
    Resolved (assembleChild source last c xs) := by
  unfold assembleChild
  split
  · rename_i hentry
    refine Resolved.map ?_
    unfold assembleEntry
    split
    · exact (resolved_keyOf source c).bind fun _ _ => (resolved_spanOf c).bind fun _ _ => .ok _
    · rename_i hpair
      simp only [isEntry, Bool.and_eq_true] at hentry
      rw [Task.entryInputs, if_pos (by simp [hentry]), Task.entryInput, if_neg hpair] at hxs
      obtain ⟨x, rfl⟩ := List.length_eq_one_iff.1 hxs
      exact .ok x
  · exact .ok _

theorem resolved_assembleEntries (source : Bytes) (n : Cst) (last : Nat) {cs : List Cst}
    {xs : List Node} (hxs : xs.length = (cs.flatMap (Task.entryInputs n)).length) :
    Resolved (assembleEntries source n last cs xs) := by
  induction cs generalizing last xs with
  | nil => exact .ok _
  | cons c cs ih =>
    rw [List.flatMap_cons, List.length_append] at hxs
    unfold assembleEntries
    refine (resolved_assembleChild source n last ?_).bind fun here _ =>
      (ih _ ?_).bind fun _ _ => .ok _
    · rw [List.length_take]
      omega
    · rw [List.length_drop]
      omega

/-- **A node that gets a node for each of its inputs** is not in want of any. -/
theorem resolved_assemble (source : Bytes) {t : Task} {xs : List Node}
    (hxs : xs.length = t.inputs.length) : Resolved (assemble source t xs) := by
  have hspan : ∀ f : Span → Node, Resolved (spanOf t.node >>= fun s => pure (f s)) :=
    fun f => (resolved_spanOf t.node).bind fun _ _ => .ok _
  unfold assemble
  split
  · refine Resolved.bind ?_ fun _ _ => hspan _
    unfold textOf?
    split
    · exact .ok _
    · exact (resolved_textOf source _).map
  rename_i hclass
  split
  · rename_i hobject
    rw [Task.inputs, if_neg hclass, if_pos hobject, Task.objectInputs_eq] at hxs
    exact (resolved_assembleEntries source _ _ hxs).bind fun _ _ => hspan _
  split
  · exact hspan _
  split
  · exact resolved_buildString source t.node
  split
  · exact (resolved_calleeOf source t.node).bind fun _ _ => hspan _
  · exact hspan _

/-- **No node is looked up that has not been built.** -/
theorem value_resolved (source : Bytes) (t : Task) : Resolved (value source t) := by
  induction hk : t.reach using Nat.strongRecOn generalizing t with
  | ind k ih =>
    subst hk
    rw [value_eq]
    refine (Resolved.mapM fun s hs =>
      ih s.reach (Task.reach_inputs (List.mem_reverse.1 hs)) s rfl).bind fun built hbuilt => ?_
    have hlen := (mapM_eq_ok.1 hbuilt).length_eq
    exact resolved_assemble source (by simpa using hlen.symm)

/-! ## Post-order -/

/-- The tasks that a task leads to: what its inputs lead to, the last of them first, then itself. -/
def postorder (t : Task) : List Task :=
  (t.inputs.reverse.attach.flatMap fun s => postorder s.val) ++ [t]
termination_by t.reach
decreasing_by exact Task.reach_inputs (List.mem_reverse.1 s.property)

theorem postorder_eq (t : Task) : postorder t = t.inputs.reverse.flatMap postorder ++ [t] := by
  rw [postorder, List.flatMap_subtype (g := postorder) fun _ _ => rfl, List.unattach_attach]

/-- The fault is that of the first of the tasks that has one: all its inputs are there, and the node
cannot be built from them. -/
inductive Meets (source : Bytes) (f : Fault) : List Task → Prop
  | here {s rest xs} (hxs : List.Forall₂ (fun i x => value source i = .ok x) s.inputs xs)
      (hf : assemble source s xs = .error f) : Meets source f (s :: rest)
  | later {s rest m} (hm : value source s = .ok m) (h : Meets source f rest) :
      Meets source f (s :: rest)

section
variable {source : Bytes} {f : Fault}

theorem assemble_of_inputs {t : Task} {xs : List Node}
    (hxs : List.Forall₂ (fun i x => value source i = .ok x) t.inputs xs) :
    value source t = assemble source t xs := by
  rw [value_eq, mapM_eq_ok.2 (List.forall₂_reverse_iff.2 hxs)]
  change assemble source t xs.reverse.reverse = _
  rw [List.reverse_reverse]

theorem meets_append {as bs : List Task} : Meets source f (as ++ bs) ↔
    Meets source f as ∨ (∀ a ∈ as, ∃ m, value source a = .ok m) ∧ Meets source f bs := by
  induction as with
  | nil =>
    constructor
    · exact fun h => .inr ⟨by simp, h⟩
    · rintro (h | ⟨-, h⟩)
      · cases h
      · exact h
  | cons a as ih =>
    constructor
    · intro h
      cases h with
      | here hxs hf => exact .inl (.here hxs hf)
      | later hm h =>
        rcases ih.1 h with h | ⟨hall, h⟩
        · exact .inl (.later hm h)
        · exact .inr ⟨List.forall_mem_cons.2 ⟨⟨_, hm⟩, hall⟩, h⟩
    · rintro (h | ⟨hall, h⟩)
      · cases h with
        | here hxs hf => exact .here hxs hf
        | later hm h => exact .later hm (ih.2 (.inl h))
      · obtain ⟨⟨m, hm⟩, hall⟩ := List.forall_mem_cons.1 hall
        exact .later hm (ih.2 (.inr ⟨hall, h⟩))

theorem meets_singleton {t : Task} : Meets source f [t] ↔
    ∃ xs, List.Forall₂ (fun i x => value source i = .ok x) t.inputs xs ∧
      assemble source t xs = .error f := by
  constructor
  · intro h
    cases h with
    | here hxs hf => exact ⟨_, hxs, hf⟩
    | later _ h => cases h
  · rintro ⟨xs, hxs, hf⟩
    exact .here hxs hf

/-- **A task has a node** just when all tasks have that it leads to. -/
theorem value_ok_iff {t : Task} :
    (∃ m, value source t = .ok m) ↔ ∀ u ∈ postorder t, ∃ m, value source u = .ok m := by
  induction hk : t.reach using Nat.strongRecOn generalizing t with
  | ind k ih =>
    subst hk
    rw [postorder_eq]
    constructor
    · intro h u hu
      rcases List.mem_append.1 hu with hu | hu
      · obtain ⟨s, hs, hu⟩ := List.mem_flatMap.1 hu
        have hs := List.mem_reverse.1 hs
        obtain ⟨m, hm⟩ := h
        obtain ⟨xs, hxs, -⟩ := value_eq_ok.1 hm
        obtain ⟨x, -, hx⟩ := exists_right_of_forall₂ hxs hs
        exact (ih s.reach (Task.reach_inputs hs) rfl).1 ⟨x, hx⟩ u hu
      · rw [List.mem_singleton.1 hu]
        exact h
    · exact fun h => h t (by simp)

/-- The first fault of tasks that are lowered one after the other. -/
theorem mapM_eq_error {ts : List Task}
    (h : ∀ s ∈ ts, value source s = .error f ↔ Meets source f (postorder s)) :
    ts.mapM (value source) = .error f ↔ Meets source f (ts.flatMap postorder) := by
  induction ts with
  | nil =>
    constructor <;> intro h <;> cases h
  | cons s ts ih =>
    have ih := ih fun d hd => h d (List.mem_cons_of_mem _ hd)
    rw [List.flatMap_cons, meets_append, ← h s List.mem_cons_self, ← value_ok_iff, ← ih,
      List.mapM_cons]
    cases value source s with
    | error e => simp [bind, Except.bind]
    | ok m => cases ts.mapM (value source) <;> simp [bind, Except.bind, pure, Except.pure]

/-- **A lowering fails with the fault that is met first** in post-order. -/
theorem value_eq_error {t : Task} :
    value source t = .error f ↔ Meets source f (postorder t) := by
  induction hk : t.reach using Nat.strongRecOn generalizing t with
  | ind k ih =>
    subst hk
    have hinputs : t.inputs.reverse.mapM (value source) = .error f ↔
        Meets source f (t.inputs.reverse.flatMap postorder) :=
      mapM_eq_error fun s hs => ih s.reach (Task.reach_inputs (List.mem_reverse.1 hs)) rfl
    rw [postorder_eq, meets_append, ← hinputs, meets_singleton]
    cases hbuilt : t.inputs.reverse.mapM (value source) with
    | error e =>
      have hvalue : value source t = .error e := by
        rw [value_eq, hbuilt]
        rfl
      rw [hvalue]
      constructor
      · exact fun h => .inl (congrArg Except.error (Except.error.inj h))
      · rintro (h | ⟨-, xs, hxs, -⟩)
        · exact congrArg Except.error (Except.error.inj h)
        · rw [mapM_eq_ok.2 (List.forall₂_reverse_iff.2 hxs)] at hbuilt
          cases hbuilt
    | ok built =>
      have hxs : List.Forall₂ (fun i x => value source i = .ok x) t.inputs built.reverse := by
        rw [← List.forall₂_reverse_iff, List.reverse_reverse]
        exact mapM_eq_ok.1 hbuilt
      constructor
      · intro h
        refine .inr ⟨fun u hu => ?_, built.reverse, hxs, (assemble_of_inputs hxs).symm.trans h⟩
        obtain ⟨s, hs, hu⟩ := List.mem_flatMap.1 hu
        obtain ⟨x, -, hx⟩ := exists_right_of_forall₂ hxs (List.mem_reverse.1 hs)
        exact value_ok_iff.1 ⟨x, hx⟩ u hu
      · rintro (h | ⟨-, ys, hys, hf⟩)
        · cases h
        · exact (assemble_of_inputs hys).trans hf

end

/-! ## What a lowered tree is made of -/

/-- The node is one of `xs`, or a property whose value is one of them or absent. -/
def MadeOf (xs : List Node) (q : Node) : Prop :=
  q ∈ xs ∨ ∃ key value span fullStart, q = .property key value span fullStart ∧
    ∀ w, value = some w → w ∈ xs

theorem MadeOf.mono {xs ys : List Node} {q : Node} (h : MadeOf xs q) (hsub : ∀ x ∈ xs, x ∈ ys) :
    MadeOf ys q := by
  rcases h with h | ⟨key, value, span, fs, rfl, hv⟩
  · exact .inl (hsub q h)
  · exact .inr ⟨key, value, span, fs, rfl, fun w hw => hsub w (hv w hw)⟩

theorem madeOf_assembleChild {source : Bytes} {last : Nat} {c : Cst} {xs here : List Node}
    (h : assembleChild source last c xs = .ok here) : ∀ q ∈ here, MadeOf xs q := by
  unfold assembleChild at h
  split at h
  · obtain ⟨p, hp, rfl⟩ := map_eq_ok.1 h
    intro q hq
    obtain rfl := List.mem_singleton.1 hq
    unfold assembleEntry at hp
    split at hp
    · obtain ⟨key, -, hp⟩ := bind_eq_ok.1 hp
      obtain ⟨s, -, hp⟩ := bind_eq_ok.1 hp
      obtain rfl := pure_eq_ok.1 hp
      refine .inr ⟨key, _, s, last, rfl, fun w hw => ?_⟩
      split at hw
      · exact List.mem_of_mem_head? hw
      · cases hw
    · split at hp
      · rename_i x hx
        obtain rfl := Except.ok.inj hp
        exact .inl (List.mem_of_mem_head? hx)
      · cases hp
  · obtain rfl := Except.ok.inj h
    simp

theorem madeOf_assembleEntries {source : Bytes} {n : Cst} {last : Nat} {cs : List Cst}
    {xs ps : List Node} {seps : List Nat}
    (h : assembleEntries source n last cs xs = .ok (ps, seps)) : ∀ q ∈ ps, MadeOf xs q := by
  induction cs generalizing last xs ps seps with
  | nil =>
    obtain ⟨rfl, -⟩ := Prod.mk.inj (Except.ok.inj h)
    simp
  | cons c cs ih =>
    unfold assembleEntries at h
    obtain ⟨here, hhere, h⟩ := bind_eq_ok.1 h
    obtain ⟨⟨ps', seps'⟩, hrest, h⟩ := bind_eq_ok.1 h
    obtain ⟨rfl, -⟩ := Prod.mk.inj (pure_eq_ok.1 h)
    intro q hq
    rcases List.mem_append.1 hq with hq | hq
    · exact (madeOf_assembleChild hhere q hq).mono fun x => List.mem_of_mem_take
    · exact (ih hrest q hq).mono fun x => List.mem_of_mem_drop

theorem Assembled.parts {source : Bytes} {t : Task} {xs : List Node} {m : Node}
    (h : Assembled source t xs m) : ∀ q, some q ∈ m.parts → MadeOf xs q := by
  intro q hq
  cases h with
  | classDecl =>
    simp only [Node.parts, List.take_append_drop, List.mem_map, Option.some.injEq,
      exists_eq_right] at hq
    exact .inl hq
  | object _ hentries =>
    simp only [Node.parts, List.mem_map, Option.some.injEq, exists_eq_right] at hq
    exact madeOf_assembleEntries hentries q hq
  | string _ hm => simp [hm.parts] at hq
  | array | decorator | other =>
    simp only [Node.parts, List.mem_map, Option.some.injEq, exists_eq_right] at hq
    exact .inl hq

/-- **What the node of a task is made of** are the nodes of tasks, and properties. -/
theorem part_of_value {source : Bytes} {root : Cst} {t : Task} (ht : Reached root t) {m q : Node}
    (hm : value source t = .ok m) (hq : Node.Part q m) (hplain : q.isProperty = false) :
    ∃ s, Reached root s ∧ value source s = .ok q := by
  induction hk : t.reach using Nat.strongRecOn generalizing t m with
  | ind k ih =>
    subst hk
    obtain ⟨xs, hxs, hassemble⟩ := value_eq_ok.1 hm
    have hinput : ∀ x ∈ xs, Node.Part q x → ∃ s, Reached root s ∧ value source s = .ok q := by
      intro x hx hqx
      obtain ⟨s, hs, hsx⟩ := exists_left_of_forall₂ hxs hx
      exact ih s.reach (Task.reach_inputs hs) (.input ht hs) hsx hqx rfl
    cases hq with
    | self => exact ⟨t, ht, hm⟩
    | inner hp hqp =>
      rcases (assemble_eq_ok.1 hassemble).parts _ hp with hp | ⟨key, value, span, fs, rfl, hv⟩
      · exact hinput _ hp hqp
      · cases hqp with
        | self => cases hplain
        | inner hw hqw =>
          simp only [Node.parts, List.mem_singleton] at hw
          exact hinput _ (hv _ hw.symm) hqw

/-! ## Decorators in front of an export -/

/-- What a child of an export statement is lowered to: no decorator, and the decorators of a class
begin with those of the statement. -/
structure Hoists (source : Bytes) (p c : Cst) (n : Node) : Prop where
  lowered : value source (Task.under p c) = .ok n
  plain : n.isDecorator = false
  decorators : isClass c = true → ∃ name ds own ms span, n = .classDecl name (ds ++ own) ms span ∧
    List.Forall₂ (fun d x => value source ⟨[], d⟩ = .ok x) (decorators p) ds ∧
    List.Forall₂ (fun d x => value source ⟨[], d⟩ = .ok x) (Lowering.decorators c) own

theorem value_isDecorator {source : Bytes} {t : Task} {m : Node} (h : value source t = .ok m)
    (hm : m.isDecorator = true) : isDecorator t.node = true := by
  obtain ⟨xs, -, h⟩ := value_eq_ok.1 h
  cases assemble_eq_ok.1 h with
  | decorator hdecorator => exact hdecorator
  | string _ hstring => cases hstring <;> cases hm
  | classDecl | object | array | other => cases hm

/-- The decorators of a class are the nodes of its decorators, in order. -/
theorem value_class {source : Bytes} {t : Task} {m : Node} (h : value source t = .ok m)
    (hclass : isClass t.node = true) : ∃ name ds ms span, m = .classDecl name ds ms span ∧
      List.Forall₂ (fun d x => value source ⟨[], d⟩ = .ok x) t.allDecorators ds := by
  obtain ⟨xs, hxs, h⟩ := value_eq_ok.1 h
  rw [Task.inputs, if_pos hclass, Task.classInputs] at hxs
  have hds := (forall₂_append_left hxs).1
  rw [List.length_map] at hds
  rw [assemble, if_pos hclass] at h
  simp only [bind_eq_ok, pure_eq_ok] at h
  obtain ⟨name, -, s, -, rfl⟩ := h
  exact ⟨name, _, _, s, rfl, List.forall₂_map_left_iff.1 hds⟩

/-- **An export statement keeps no decorator**, and its classes begin with them. -/
theorem export_hoists {source : Bytes} {t : Task} {ns : List Node} {span : Span}
    (h : value source t = .ok (.other "export_statement" ns span)) :
    isExport t.node = true ∧
      List.Forall₂ (Hoists source t.node) (otherParts t.node) ns := by
  obtain ⟨xs, hxs, h⟩ := value_eq_ok.1 h
  have hshape := assemble_eq_ok.1 h
  generalize hm : Node.other "export_statement" ns span = m at hshape
  cases hshape with
  | string hstring hkept =>
    cases hkept with
    | literal => cases hm
    | kept =>
      have hkind := (Node.other.inj hm).1
      simp [isString, ← hkind] at hstring
  | other hplain =>
    have hinputs := Task.inputs_of_isPlain hplain
    obtain ⟨hkind, rfl, rfl⟩ := Node.other.inj hm
    have hexport : isExport t.node = true := by simp [isExport, ← hkind]
    rw [hinputs, List.forall₂_map_left_iff] at hxs
    refine ⟨hexport, forall₂_imp_mem hxs fun c hc x _ hx => ⟨hx, ?_, fun hclass => ?_⟩⟩
    · rw [otherParts, if_pos hexport, List.mem_filter] at hc
      by_contra hdecorator
      have := value_isDecorator hx (by simpa using hdecorator)
      simp only [Task.under] at this
      simp [this] at hc
    · obtain ⟨name, ds, ms, s, rfl, hds⟩ := value_class hx hclass
      have hall : (Task.under t.node c).allDecorators = decorators t.node ++ decorators c := by
        simp only [Task.under, Task.allDecorators, hexport, hclass, Bool.and_self, if_true]
      rw [hall] at hds
      obtain ⟨hfirst, hown⟩ := forall₂_append_left hds
      refine ⟨name, _, _, ms, s, ?_, hfirst, hown⟩
      rw [List.take_append_drop]
  | classDecl | object | array | decorator => cases hm

/-- **The work list is the recursion.** It ends, and looks up no node that has not been built. The
tree it gives is that of the recursion over tasks; its fault is the first one in post-order. In the
tree, no export statement keeps a decorator among its parts, and the decorators in front of an
exported class are its first ones. -/
theorem lower_structural {source : Bytes} {root : Cst} (hn : root.Numbered) :
    (∃ k ≤ 2 * Task.weight ⟨[], root⟩, ∃ r, Steps source k [.enter ⟨[], root⟩] ∅ r ∧
      lower source root = r >>= fun table => table.resolve root) ∧
    (∀ id, lower source root ≠ .error (.unresolved id)) ∧
    lower source root = value source ⟨[], root⟩ ∧
    (∀ f, lower source root = .error f ↔ Meets source f (postorder ⟨[], root⟩)) ∧
    ∀ r ns span, lower source root = .ok r → Node.Part (.other "export_statement" ns span) r →
      ∃ t, Reached root t ∧ value source t = .ok (.other "export_statement" ns span) ∧
        isExport t.node = true ∧ List.Forall₂ (Hoists source t.node) (otherParts t.node) ns := by
  have hvalue := @lower_eq_value source root hn
  refine ⟨?_, ?_, hvalue, fun f => ?_, fun r ns span hr hpart => ?_⟩
  · obtain ⟨k, hk, hsteps⟩ := run_steps source [.enter ⟨[], root⟩] ∅
    refine ⟨k, ?_, _, hsteps, rfl⟩
    simpa [cost, Job.cost] using hk
  · rw [hvalue]
    exact value_resolved source _
  · rw [hvalue]
    exact value_eq_error
  · rw [hvalue] at hr
    obtain ⟨t, ht, hm⟩ := part_of_value .root hr hpart rfl
    exact ⟨t, ht, hm, export_hoists hm⟩

namespace Sample

def token (id : Nat) (kind : String) (start stop : Nat) : Cst :=
  .node { id, kind, start, stop, named := false } []

/-- A decorator that calls nothing. -/
def decorator (id start stop : Nat) : Cst := .node { id, kind := "decorator", start, stop } []

def classNode : Cst :=
  .node { id := 3, kind := "class_declaration", start := 10, stop := 20 }
    [decorator 4 10 12, token 5 "class" 13 18,
      .node { id := 6, kind := "type_identifier", start := 19, stop := 20, field := some "name" } []]

/-- A class with a decorator of its own, and one in front of `export`. -/
def exported : Cst :=
  .node { id := 0, kind := "export_statement", start := 0, stop := 20 }
    [decorator 1 0 2, token 2 "export" 3 9, classNode]

def exportedText : Bytes := Bytes.ofString "@A export @B class C"

def hoisted : Node :=
  .classDecl (some "C")
    [.decorator none [] ⟨0, 2, by decide⟩, .decorator none [] ⟨10, 12, by decide⟩] []
    ⟨10, 20, by decide⟩

end Sample

open Sample in
/-- The decorator in front of `export` is the first one of the class, and no part of the export. -/
theorem lower_exported :
    lower exportedText exported = .ok (.other "export_statement" [hoisted] ⟨0, 20, by decide⟩) := by
  have hdecorator : ∀ (id start stop : Nat) (h : (start : Int) ≤ stop),
      value exportedText ⟨[], decorator id start stop⟩
        = .ok (.decorator none [] ⟨start, stop, h⟩) := by
    intro id start stop h
    refine value_eq_ok.2 ⟨[], .nil, ?_⟩
    change (Span.ofEnds start stop).mapError Fault.span >>=
      (fun s => pure (Node.decorator none [] s)) = _
    rw [Span.ofEnds, dif_pos h]
    rfl
  have hname : textOf? exportedText (classNode.child? "name") = .ok (some "C") := by decide +kernel
  have hclass : value exportedText (Task.under exported classNode) = .ok hoisted := by
    refine value_eq_ok.2 ⟨_, .cons (hdecorator 1 0 2 (by decide))
      (.cons (hdecorator 4 10 12 (by decide)) .nil), ?_⟩
    change textOf? exportedText (classNode.child? "name") >>= (fun name =>
      spanOf classNode >>= fun s => pure (Node.classDecl name _ _ s)) = _
    rw [hname]
    rfl
  rw [(@lower_structural exportedText exported (by decide)).2.2.1]
  exact value_eq_ok.2 ⟨[hoisted], .cons hclass .nil, rfl⟩

end Lowering

end AssetLift
