import AssetLift.Proofs.Provenance
import Mathlib.Data.List.Basic
import Mathlib.Order.RelClasses

/-!
# The order of a walk

A place in a tree is the list of the indices of the parts that lead to it (`Node.at?`). A walk whose
stack holds no absent part visits every place once, in the order of the recursion: a node before its
parts, and the parts from left to right (`Node.walk_eq`). Places are in this order just when they are
in the order of lists, so the block that is met first is the one at the least place.

* `Node.positions`: the places of a tree by recursion; `positions_sorted`, `mem_positions`.
* `Node.Walks`: the steps of a walk, the top of its stack at the end.
* `Block.Carries`, `Block.First`: a class with a matching decorator, and the first of them.
* `Block.find?_first`: the walk and the block it finds.
-/

namespace AssetLift

namespace Node

/-! ## Places -/

/-- A place in a tree: the indices of the parts to go down to, from the root. -/
abbrev Position := List Nat

/-- The node at a place, if the place is in the tree. -/
def at? : Node → Position → Option Node
  | n, [] => some n
  | n, i :: p => n.parts[i]?.join.bind (at? · p)

mutual

/-- The places of a tree: a node's own, then those of its parts from left to right. The decorators
of a class stand before its members. -/
def positions : Node → List Position
  | literal _ _ _ => [[]]
  | array es _ => [] :: positionsFrom 0 es
  | property _ v _ _ => [] :: positionsOpt v
  | object ps _ _ => [] :: positionsFrom 0 ps
  | decorator _ as _ => [] :: positionsFrom 0 as
  | classDecl _ ds ms _ => [] :: (positionsFrom 0 ds ++ positionsFrom ds.length ms)
  | other _ ns _ => [] :: positionsFrom 0 ns

/-- The places of trees that are parts of one node, from the part with index `i` on. -/
def positionsFrom (i : Nat) : List Node → List Position
  | [] => []
  | n :: ns => (positions n).map (i :: ·) ++ positionsFrom (i + 1) ns

/-- The places of a tree that may be absent. -/
def positionsOpt : Option Node → List Position
  | none => []
  | some n => (positions n).map (0 :: ·)

end

/-- The places in the parts of a node, from the part with index `i` on. -/
def positionsIn (i : Nat) : List (Option Node) → List Position
  | [] => []
  | none :: ns => positionsIn (i + 1) ns
  | some n :: ns => n.positions.map (i :: ·) ++ positionsIn (i + 1) ns

theorem positionsFrom_eq (i : Nat) (ns : List Node) :
    positionsFrom i ns = positionsIn i (ns.map some) := by
  induction ns generalizing i with
  | nil => rfl
  | cons n ns ih => rw [positionsFrom, ih]; rfl

theorem positionsIn_append (i : Nat) (as bs : List (Option Node)) :
    positionsIn i (as ++ bs) = positionsIn i as ++ positionsIn (i + as.length) bs := by
  induction as generalizing i with
  | nil => rfl
  | cons a as ih =>
    have hlength : i + 1 + as.length = i + (a :: as).length := by rw [List.length_cons]; omega
    cases a with
    | none => rw [List.cons_append, positionsIn, positionsIn, ih, hlength]
    | some n => rw [List.cons_append, positionsIn, positionsIn, ih, hlength, List.append_assoc]

/-- **The places of a node** are its own, then those in its parts. -/
theorem positions_eq (n : Node) : n.positions = [] :: positionsIn 0 n.parts := by
  cases n with
  | literal => rfl
  | property _ v => cases v <;> simp [positions, positionsOpt, parts, positionsIn]
  | classDecl _ ds ms =>
    rw [positions, parts, List.map_append, positionsIn_append, positionsFrom_eq, positionsFrom_eq]
    simp
  | array | object | decorator | other => rw [positions, positionsFrom_eq]; rfl

/-! ## Which places there are, and in what order -/

theorem mem_positionsIn {i : Nat} {ns : List (Option Node)} {p : Position} :
    p ∈ positionsIn i ns ↔
      ∃ j n q, ns[j]? = some (some n) ∧ q ∈ n.positions ∧ p = (i + j) :: q := by
  induction ns generalizing i with
  | nil => simp [positionsIn]
  | cons a ns ih =>
    -- the places in the later parts, their indices one less
    have hlater : p ∈ positionsIn (i + 1) ns ↔
        ∃ j n q, (a :: ns)[j + 1]? = some (some n) ∧ q ∈ n.positions ∧ p = (i + (j + 1)) :: q := by
      rw [ih]
      simp only [List.getElem?_cons_succ, Nat.add_comm, Nat.add_left_comm]
    cases a with
    | none =>
      rw [positionsIn, hlater]
      constructor
      · rintro ⟨j, h⟩
        exact ⟨j + 1, h⟩
      · rintro ⟨_ | j, n, q, hn, hq, hp⟩
        · simp at hn
        · exact ⟨j, n, q, hn, hq, hp⟩
    | some m =>
      rw [positionsIn, List.mem_append, hlater, List.mem_map]
      constructor
      · rintro (⟨q, hq, rfl⟩ | ⟨j, h⟩)
        · exact ⟨0, m, q, rfl, hq, rfl⟩
        · exact ⟨j + 1, h⟩
      · rintro ⟨_ | j, n, q, hn, hq, hp⟩
        · obtain rfl := Option.some.inj (Option.some.inj hn)
          exact .inl ⟨q, hq, hp.symm⟩
        · exact .inr ⟨j, n, q, hn, hq, hp⟩

/-- **The places listed are the places of the tree.** -/
theorem mem_positions {n : Node} {p : Position} : p ∈ n.positions ↔ (n.at? p).isSome := by
  induction p generalizing n with
  | nil => simp [positions_eq, at?]
  | cons i p ih =>
    rw [positions_eq, List.mem_cons, mem_positionsIn, at?]
    constructor
    · rintro (h | ⟨j, m, q, hm, hq, hp⟩)
      · cases h
      · obtain ⟨rfl, rfl⟩ := List.cons.inj hp
        rw [Nat.zero_add, hm]
        exact ih.1 hq
    · intro h
      rcases hm : n.parts[i]? with _ | _ | m
      · rw [hm] at h; cases h
      · rw [hm] at h; cases h
      · rw [hm] at h
        exact .inr ⟨i, m, p, hm, ih.2 h, by rw [Nat.zero_add]⟩

/-- A node has more places than each of its parts. -/
theorem size_lt_of_mem_parts {n m : Node} (h : some m ∈ n.parts) : m.size < n.size := by
  have hstack : ∀ ns : List (Option Node), some m ∈ ns → m.size ≤ stackSize ns := by
    intro ns hm
    obtain ⟨as, bs, rfl⟩ := List.append_of_mem hm
    simp only [stackSize_append, stackSize, sizeOpt]
    omega
  have := hstack n.parts h
  rw [size_eq_succ_parts n]
  omega

theorem positionsIn_sorted {i : Nat} {ns : List (Option Node)}
    (h : ∀ n, some n ∈ ns → n.positions.Pairwise (· < ·)) :
    (positionsIn i ns).Pairwise (· < ·) := by
  induction ns generalizing i with
  | nil => exact .nil
  | cons a ns ih =>
    have hlater := @ih (i + 1) fun n hn => h n (List.mem_cons_of_mem _ hn)
    cases a with
    | none => exact hlater
    | some n =>
      rw [positionsIn, List.pairwise_append]
      refine ⟨List.pairwise_map.2 ((h n List.mem_cons_self).imp fun hpq => ?_), hlater,
        fun p hp q hq => ?_⟩
      · exact List.cons_lt_cons_self.2 hpq
      · obtain ⟨p, -, rfl⟩ := List.mem_map.1 hp
        obtain ⟨j, -, q, -, -, rfl⟩ := mem_positionsIn.1 hq
        exact List.cons_lt_cons_iff.2 (.inl (by omega))

/-- **The recursion lists the places in increasing order**, so each of them once. -/
theorem positions_sorted (n : Node) : n.positions.Pairwise (· < ·) := by
  induction hk : n.size using Nat.strongRecOn generalizing n with
  | ind k ih =>
    subst hk
    rw [positions_eq, List.pairwise_cons]
    refine ⟨fun p hp => ?_, positionsIn_sorted fun m hm => ih _ (size_lt_of_mem_parts hm) m rfl⟩
    obtain ⟨j, -, q, -, -, rfl⟩ := mem_positionsIn.1 hp
    exact List.nil_lt_cons _ _

/-! ## Trees without absent parts -/

/-- Every property in the tree has a value. -/
def Complete (n : Node) : Prop := ∀ key span fs, ¬ Part (.property key none span fs) n

/-- What a node is made of is what stands at its places. -/
theorem part_iff {m n : Node} : Part m n ↔ ∃ p, n.at? p = some m := by
  constructor
  · intro h
    induction h with
    | self => exact ⟨[], rfl⟩
    | inner hq _ ih =>
      obtain ⟨p, hp⟩ := ih
      obtain ⟨i, hi⟩ := List.mem_iff_getElem?.1 hq
      exact ⟨i :: p, by rw [at?, hi]; exact hp⟩
  · rintro ⟨p, hp⟩
    induction p generalizing n with
    | nil =>
      obtain rfl := Option.some.inj hp
      exact .self n
    | cons i p ih =>
      rw [at?] at hp
      rcases hq : n.parts[i]? with _ | _ | q
      · rw [hq] at hp; cases hp
      · rw [hq] at hp; cases hp
      · rw [hq] at hp
        exact .inner (List.mem_of_getElem? hq) (ih hp)

/-- A property without a value is the one node with an absent part. -/
theorem none_mem_parts {n : Node} :
    none ∈ n.parts ↔ ∃ key span fs, n = .property key none span fs := by
  cases n with
  | property key v span fs => cases v <;> simp [parts]
  | literal | array | object | decorator | classDecl | other => simp [parts]

instance (n : Node) : Decidable n.Complete :=
  decidable_of_iff (∀ p ∈ n.positions, ∀ m ∈ n.at? p, m.parts.all Option.isSome) <| by
    constructor
    · intro h key span fs hpart
      obtain ⟨p, hp⟩ := part_iff.1 hpart
      have := h p (mem_positions.2 (by rw [hp]; rfl)) _ hp
      simp [parts] at this
    · intro h p _ m hm
      rw [List.all_eq_true]
      rintro (_ | q) hq
      · obtain ⟨key, span, fs, rfl⟩ := none_mem_parts.1 hq
        exact absurd (part_iff.2 ⟨p, hm⟩) (h key span fs)
      · rfl

theorem Complete.none_notMem {n : Node} (h : n.Complete) : none ∉ n.parts := by
  intro hnone
  obtain ⟨key, span, fs, rfl⟩ := none_mem_parts.1 hnone
  exact h key span fs (.self _)

theorem Complete.part {n m : Node} (h : n.Complete) (hm : some m ∈ n.parts) : m.Complete :=
  fun key span fs hpart => h key span fs (.inner hm hpart)

/-! ## The walk -/

/-- The steps of a walk over a stack whose top is at the end, and the nodes met: the top is taken
away, and its parts are put there, the first of them last. -/
inductive Walks : Nat → List (Option Node) → List (Option Node) → Prop
  | done : Walks 0 [] []
  | visit {k stack n met} (h : Walks k (stack ++ n.parts.reverse) met) :
      Walks (k + 1) (stack ++ [some n]) (some n :: met)

/-- The nodes at the places of the trees on a stack, the top in front. -/
def nodesOn : List (Option Node) → List (Option Node)
  | [] => []
  | none :: rest => none :: nodesOn rest
  | some n :: rest => n.positions.map n.at? ++ nodesOn rest

theorem nodesOn_append (as bs : List (Option Node)) : nodesOn (as ++ bs) = nodesOn as ++ nodesOn bs := by
  induction as with
  | nil => rfl
  | cons a as ih => cases a <;> simp [nodesOn, ih]

/-- The nodes at the places in the parts are those of the parts, one after the other. -/
theorem map_at?_positionsIn {n : Node} (hc : none ∉ n.parts) :
    (positionsIn 0 n.parts).map n.at? = nodesOn n.parts := by
  have hfrom : ∀ (as bs : List (Option Node)), n.parts = as ++ bs →
      (positionsIn as.length bs).map n.at? = nodesOn bs := by
    intro as bs
    induction bs generalizing as with
    | nil => intro; rfl
    | cons b bs ih =>
      intro hsplit
      cases b with
      | none => exact absurd (by simp [hsplit]) hc
      | some m =>
        have hm : n.parts[as.length]? = some (some m) := by simp [hsplit]
        have hrest := ih (as ++ [some m]) (by simp [hsplit])
        rw [List.length_append, List.length_singleton] at hrest
        rw [positionsIn, List.map_append, List.map_map, hrest, nodesOn]
        congr 1
        refine List.map_congr_left fun p _ => ?_
        rw [Function.comp_apply, at?, hm]
        rfl
  exact hfrom [] n.parts rfl

/-- **One step of a walk**: the node on top, then what it is made of. -/
theorem nodesOn_cons {n : Node} (hc : n.Complete) (rest : List (Option Node)) :
    nodesOn (some n :: rest) = some n :: nodesOn (n.parts ++ rest) := by
  rw [nodesOn, positions_eq, List.map_cons, map_at?_positionsIn hc.none_notMem, nodesOn_append]
  rfl

/-- A stack of trees that hold no absent part. -/
def CompleteOn (stack : List (Option Node)) : Prop := ∀ a ∈ stack, ∃ n, a = some n ∧ n.Complete

theorem CompleteOn.step {n : Node} {rest : List (Option Node)} (h : CompleteOn (some n :: rest)) :
    n.Complete ∧ CompleteOn (n.parts ++ rest) := by
  obtain ⟨_, heq, hn⟩ := h _ List.mem_cons_self
  obtain rfl := Option.some.inj heq
  refine ⟨hn, fun a ha => ?_⟩
  rcases List.mem_append.1 ha with ha | ha
  · cases a with
    | none => exact absurd ha hn.none_notMem
    | some m => exact ⟨m, rfl, hn.part ha⟩
  · exact h a (List.mem_cons_of_mem _ ha)

/-- **A walk visits the places of the trees on its stack in order**, and takes one step for each. -/
theorem walkStack_complete {stack : List (Option Node)} (h : CompleteOn stack) :
    walkStack stack = nodesOn stack ∧
      Walks (stackSize stack) stack.reverse (walkStack stack) := by
  induction stack using walkStack.induct with
  | case1 =>
    rw [walkStack]
    exact ⟨rfl, .done⟩
  | case2 rest =>
    obtain ⟨_, hnone, -⟩ := h none List.mem_cons_self
    cases hnone
  | case3 n rest ih =>
    obtain ⟨hn, hrest⟩ := h.step
    obtain ⟨hnodes, hwalks⟩ := ih hrest
    rw [walkStack, nodesOn_cons hn, hnodes]
    refine ⟨rfl, ?_⟩
    have hsize : stackSize (some n :: rest) = stackSize (n.parts ++ rest) + 1 := by
      rw [stackSize, sizeOpt, size_eq_succ_parts, stackSize_append]
      omega
    rw [List.reverse_append, hnodes] at hwalks
    rw [hsize, List.reverse_cons]
    exact .visit hwalks

/-- **The walk over a tree** visits its places in order, in as many steps as there are. -/
theorem walk_eq {n : Node} (h : n.Complete) :
    n.walk = n.positions.map n.at? ∧ Walks n.size [some n] n.walk := by
  have hstack : CompleteOn [some n] := fun a ha => ⟨n, List.mem_singleton.1 ha, h⟩
  obtain ⟨hnodes, hwalks⟩ := walkStack_complete hstack
  refine ⟨hnodes.trans (by simp [nodesOn]), ?_⟩
  have hsize : stackSize [some n] = n.size := by simp [stackSize, sizeOpt]
  rwa [hsize] at hwalks

end Node

namespace Block

open Node

/-! ## The first block -/

/-- A decorator matches if it is called by `name` with one argument, and that is an object. -/
theorem ofDecorator?_eq_some {name : String} {d : Node} {b : Block} :
    ofDecorator? name d = some b ↔ ∃ span, d = .decorator (some name) [b.toNode] span := by
  unfold ofDecorator?
  constructor
  · intro h
    split at h
    · rename_i callee ps seps span span'
      split at h
      · rename_i hname
        obtain rfl := Option.some.inj h
        exact ⟨span', by rw [hname]; rfl⟩
      · cases h
    · cases h
  · rintro ⟨span, rfl⟩
    simp [toNode]

/-- A class stands at `p` whose decorator with index `i` is called by `name` with the block alone. -/
def Carries (name : String) (root : Node) (p : Position) (i : Nat) (b : Block) : Prop :=
  ∃ cls ds ms span span', root.at? p = some (.classDecl cls ds ms span) ∧
    ds[i]? = some (.decorator (some name) [b.toNode] span')

/-- No class stands at an earlier place and carries a block, and no earlier decorator of the class
does. -/
structure First (name : String) (root : Node) (p : Position) (i : Nat) (b : Block) : Prop where
  carries : Carries name root p i b
  least : ∀ q j c, Carries name root q j c → p < q ∨ p = q ∧ i ≤ j

/-- The first of some elements that a function is defined for. -/
theorem findSome?_eq_some_least {α β : Type} {f : α → Option β} {xs : List α} {y : β} :
    xs.findSome? f = some y ↔ ∃ (i : Nat) (x : α), xs[i]? = some x ∧ f x = some y ∧
      ∀ j x', xs[j]? = some x' → (f x').isSome → i ≤ j := by
  rw [List.findSome?_eq_some_iff]
  constructor
  · rintro ⟨as, x, bs, rfl, hx, hnone⟩
    refine ⟨as.length, x, by simp, hx, fun j x' hj hsome => ?_⟩
    by_contra hlt
    rw [List.getElem?_append_left (by omega)] at hj
    rw [hnone x' (List.mem_of_getElem? hj)] at hsome
    cases hsome
  · rintro ⟨i, x, hi, hx, hleast⟩
    obtain ⟨hlt, rfl⟩ := List.getElem?_eq_some_iff.1 hi
    refine ⟨xs.take i, xs[i], xs.drop (i + 1), ?_, hx, fun x' hx' => ?_⟩
    · rw [List.getElem_cons_drop hlt, List.take_append_drop]
    · obtain ⟨j, hj⟩ := List.mem_iff_getElem?.1 hx'
      have hji : j < i := by
        have := (List.getElem?_eq_some_iff.1 hj).1
        rw [List.length_take] at this
        omega
      rw [List.getElem?_take_of_lt hji] at hj
      by_contra hsome
      have := hleast j x' hj (Option.isSome_iff_ne_none.2 hsome)
      omega

theorem firstIn_map {name : String} {ps : List Position} {f : Position → Option Node}
    (h : ∀ p ∈ ps, (f p).isSome) :
    firstIn name (ps.map f) = .ok (ps.findSome? fun p => (f p).bind (ofClass? name)) := by
  induction ps with
  | nil => rfl
  | cons p ps ih =>
    obtain ⟨n, hn⟩ := Option.isSome_iff_exists.1 (h p List.mem_cons_self)
    have hrest := ih fun q hq => h q (List.mem_cons_of_mem _ hq)
    rw [List.map_cons, hn, firstIn, List.findSome?_cons, hn, hrest, Option.bind_some]
    cases ofClass? name n <;> rfl

theorem ofClass?_eq_some {name : String} {n : Node} {b : Block} :
    ofClass? name n = some b ↔ ∃ cls ds ms span, n = .classDecl cls ds ms span ∧
      ds.findSome? (ofDecorator? name) = some b := by
  unfold ofClass?
  constructor
  · intro h
    split at h
    · exact ⟨_, _, _, _, rfl, h⟩
    · cases h
  · rintro ⟨cls, ds, ms, span, rfl, h⟩
    exact h

section
variable {name : String} {root : Node} {p q : Position} {i j : Nat} {b c : Block}

/-- The block of a class is that of its first matching decorator. -/
theorem carries_of_ofClass? (h : (root.at? p).bind (ofClass? name) = some b) :
    ∃ i, Carries name root p i b ∧ ∀ j c, Carries name root p j c → i ≤ j := by
  obtain ⟨n, hn, hclass⟩ := Option.bind_eq_some_iff.1 h
  obtain ⟨cls, ds, ms, span, rfl, hds⟩ := ofClass?_eq_some.1 hclass
  obtain ⟨i, d, hi, hd, hleast⟩ := findSome?_eq_some_least.1 hds
  obtain ⟨span', rfl⟩ := ofDecorator?_eq_some.1 hd
  refine ⟨i, ⟨cls, ds, ms, span, span', hn, hi⟩, ?_⟩
  rintro j c ⟨_, ds', _, _, span'', hn', hj⟩
  obtain ⟨-, rfl, -, -⟩ := Node.classDecl.inj (Option.some.inj (hn.symm.trans hn'))
  exact hleast j _ hj (by rw [ofDecorator?_eq_some.2 ⟨span'', rfl⟩]; rfl)

theorem Carries.ofClass?_isSome (h : Carries name root p i b) :
    ((root.at? p).bind (ofClass? name)).isSome := by
  obtain ⟨cls, ds, ms, span, span', hn, hi⟩ := h
  rw [hn, Option.bind_some, ofClass?, List.findSome?_isSome_iff]
  exact ⟨_, List.mem_of_getElem? hi, by rw [ofDecorator?_eq_some.2 ⟨span', rfl⟩]; rfl⟩

/-- A decorator is called with one block. -/
theorem Carries.unique (h : Carries name root p i b) (h' : Carries name root p i c) : b = c := by
  obtain ⟨_, ds, _, _, _, hn, hi⟩ := h
  obtain ⟨_, ds', _, _, _, hn', hi'⟩ := h'
  obtain ⟨-, rfl, -, -⟩ := Node.classDecl.inj (Option.some.inj (hn.symm.trans hn'))
  have hd := Node.decorator.inj (Option.some.inj (hi.symm.trans hi'))
  obtain ⟨hps, hseps, hspan⟩ := Node.object.inj (List.cons.inj hd.2.1).1
  cases b
  cases c
  simp_all

/-- There is one first block. -/
theorem First.unique (h : First name root p i b) (h' : First name root q j c) : b = c := by
  have hpq : p = q ∧ i = j := by
    rcases h.least q j c h'.carries with hlt | ⟨rfl, hij⟩
    · rcases h'.least p i b h.carries with hgt | ⟨rfl, -⟩
      · exact absurd hgt (List.lt_asymm hlt)
      · exact absurd hlt (List.lt_irrefl _)
    · rcases h'.least p i b h.carries with hgt | ⟨-, hji⟩
      · exact absurd hgt (List.lt_irrefl _)
      · exact ⟨rfl, Nat.le_antisymm hij hji⟩
  obtain ⟨rfl, rfl⟩ := hpq
  exact h.carries.unique h'.carries

/-- What is found first at places in increasing order is found at the least of them. -/
theorem first_of_findSome? (h : root.positions.findSome?
    (fun p => (root.at? p).bind (ofClass? name)) = some b) : ∃ p i, First name root p i b := by
  obtain ⟨k, p, hk, hp, hleast⟩ := findSome?_eq_some_least.1 h
  obtain ⟨i, hcarries, hfirst⟩ := carries_of_ofClass? hp
  refine ⟨p, i, hcarries, fun q j c hq => ?_⟩
  have hsome := hq.ofClass?_isSome
  have hmem : q ∈ root.positions := by
    obtain ⟨_, _, _, _, _, hn, -⟩ := hq
    exact mem_positions.2 (by rw [hn]; rfl)
  obtain ⟨l, hl⟩ := List.mem_iff_getElem?.1 hmem
  rcases Nat.lt_or_eq_of_le (hleast l q hl hsome) with hlt | rfl
  · obtain ⟨hk', rfl⟩ := List.getElem?_eq_some_iff.1 hk
    obtain ⟨hl', rfl⟩ := List.getElem?_eq_some_iff.1 hl
    exact .inl (List.pairwise_iff_getElem.1 (positions_sorted root) k l hk' hl' hlt)
  · obtain rfl := Option.some.inj (hk.symm.trans hl)
    exact .inr ⟨rfl, hfirst j c hq⟩

end

/-- **The block that is found is the first one in the order of the recursion.** In a tree in which
every property has a value, the walk ends after one step for each node; it visits each place once,
in increasing order, which is the order of the recursion. The block found is the single argument of
the matching decorator that is least by the place of its class and its index among the class's
decorators, and there is none just when no class has a matching decorator. -/
theorem find?_first {root : Node} (hc : root.Complete) (name : String) :
    Walks root.size [some root] root.walk ∧
    root.walk = root.positions.map root.at? ∧
    root.positions.Pairwise (· < ·) ∧
    (∀ p, p ∈ root.positions ↔ (root.at? p).isSome) ∧
    (∀ b, find? name root = .ok (some b) ↔ ∃ p i, First name root p i b) ∧
    (find? name root = .ok none ↔ ∀ p i b, ¬ Carries name root p i b) := by
  obtain ⟨hwalk, hsteps⟩ := walk_eq hc
  have hfind : find? name root
      = .ok (root.positions.findSome? fun p => (root.at? p).bind (ofClass? name)) := by
    rw [find?, hwalk]
    exact firstIn_map fun p hp => mem_positions.1 hp
  have hnone : find? name root = .ok none ↔ ∀ p i b, ¬ Carries name root p i b := by
    rw [hfind, Except.ok.injEq, List.findSome?_eq_none_iff]
    constructor
    · intro h p i b hcarries
      have hsome := hcarries.ofClass?_isSome
      obtain ⟨n, hn, -⟩ := Option.bind_eq_some_iff.1 (Option.isSome_iff_exists.1 hsome).choose_spec
      rw [h p (mem_positions.2 (by rw [hn]; rfl))] at hsome
      cases hsome
    · intro h p _
      by_contra hsome
      obtain ⟨b, hb⟩ := Option.ne_none_iff_exists'.1 hsome
      obtain ⟨i, hcarries, -⟩ := carries_of_ofClass? hb
      exact h p i b hcarries
  refine ⟨hsteps, hwalk, positions_sorted root, fun p => mem_positions, fun b => ⟨fun h => ?_, ?_⟩,
    hnone⟩
  · rw [hfind] at h
    exact first_of_findSome? (Except.ok.inj h)
  · rintro ⟨p, i, hfirst⟩
    -- something is found, and it is first as well
    cases hfound : root.positions.findSome? fun p => (root.at? p).bind (ofClass? name) with
    | none => exact absurd hfirst.carries (hnone.1 (by rw [hfind, hfound]) p i b)
    | some c =>
      obtain ⟨q, j, hfirst'⟩ := first_of_findSome? hfound
      rw [hfind, hfound, hfirst.unique hfirst']

/-- A block of one pair. -/
def Nested.block (key : String) : Block :=
  ⟨[.property (some key) (some (.array [] ⟨0, 9, by decide⟩)) ⟨0, 9, by decide⟩ 0], [],
    ⟨0, 9, by decide⟩⟩

/-- A class. -/
def Nested.cls (decorators members : List Node) : Node :=
  .classDecl none decorators members ⟨0, 9, by decide⟩

/-- A call of a decorator. -/
def Nested.call (name : String) (arguments : List Node) : Node :=
  .decorator (some name) arguments ⟨0, 9, by decide⟩

/-- A class none of whose decorators matches: one has another name, one has two arguments, one an
array, and one is called with a class that has a decorator that does. A member of the class and the
class after it have one as well. -/
def Nested.root : Node :=
  .other "program" [
    cls [call "Input" [(block "a").toNode], call "Component" [(block "b").toNode, (block "c").toNode],
        call "Component" [.array [] ⟨0, 9, by decide⟩],
        call "With" [cls [call "Component" [(block "d").toNode]] []]]
      [cls [call "Component" [(block "e").toNode]] []],
    cls [call "Component" [(block "f").toNode]] []] ⟨0, 9, by decide⟩

/-- The class in the decorator's argument comes first. -/
theorem find?_first_nested : Nested.root.Complete ∧
    ∃ p i, First "Component" Nested.root p i (Nested.block "d") := by
  have hc : Nested.root.Complete := by decide
  obtain ⟨-, hwalk, -, -, hblock, -⟩ := find?_first hc "Component"
  refine ⟨hc, (hblock _).1 ?_⟩
  rw [find?, hwalk]
  rfl

end Block

end AssetLift
