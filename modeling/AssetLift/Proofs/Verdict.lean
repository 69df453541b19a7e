import AssetLift.Proofs.Idempotence
import AssetLift.Proofs.Layout

/-!
# What is decided, read off the concrete tree

The decision on a concern is made on the lowered block. Here it is said by the concrete object that
the block was lowered from: by the keys of its pairs and the form of one value (`Concern.Due`).

* `Cst.FirstNamed`: the first pair of an object with a key; `Lowering.first_of_object`.
* `Concern.Offers`: the strings of which a value is made; `Lowering.ofNode_offers`.
* `Migration.stageConcern_exact`: the state that is returned is the one that is due.
-/

namespace AssetLift

/-! ## Pairs and their values in a concrete tree -/

namespace Cst

/-- A named pair whose key is an identifier spelled `name`. -/
structure Names (source : Bytes) (name : String) (c : Cst) : Prop where
  pair : c.kind = "pair"
  named : c.named = true
  key : ∃ k, c.child? "key" = some k ∧ k.kind = "property_identifier" ∧
    Utf8.decode (k.bytes source) = .ok name

/-- The first pair of an object whose key is an identifier spelled `name`, behind the children
`pre`. -/
structure FirstNamed (source : Bytes) (name : String) (n : Cst) (pre : List Cst) (p : Cst) :
    Prop where
  split : ∃ post, n.children = pre ++ p :: post
  names : p.Names source name
  first : ∀ c ∈ pre, ¬ c.Names source name

theorem Names.isEntry {source : Bytes} {name : String} {c : Cst} (h : c.Names source name) :
    c.isEntry = true := Revision.isEntry_of_pair h.pair h.named

theorem FirstNamed.unique {source : Bytes} {name : String} {n p p' : Cst} {pre pre' : List Cst}
    (h : FirstNamed source name n pre p) (h' : FirstNamed source name n pre' p') :
    pre = pre' ∧ p = p' := by
  obtain ⟨post, hsplit⟩ := h.split
  obtain ⟨post', hsplit'⟩ := h'.split
  rw [hsplit] at hsplit'
  rcases List.append_eq_append_iff.1 hsplit' with ⟨mid, rfl, hmid⟩ | ⟨mid, rfl, hmid⟩
  · cases mid with
    | nil => exact ⟨(List.append_nil _).symm, (List.cons.inj hmid).1⟩
    | cons c mid =>
      obtain ⟨rfl, -⟩ := List.cons.inj hmid
      exact absurd h.names (h'.first _ (by simp))
  · cases mid with
    | nil => exact ⟨List.append_nil _, (List.cons.inj hmid).1.symm⟩
    | cons c mid =>
      obtain ⟨rfl, -⟩ := List.cons.inj hmid
      exact absurd h'.names (h.first _ (by simp))

theorem Numbered.inside {n root : Cst} (hn : root.Numbered) (h : Inside n root) : n.Numbered := by
  induction h with
  | self => exact hn
  | deeper hc _ ih => exact ih (hn.child hc)

end Cst

open Cst

namespace Concern

/-- The object has a pair with one of the concern's reference keys. -/
def Refers (source : Bytes) (c : Concern) (n : Cst) : Prop :=
  ∃ key ∈ c.referenceKeys, ∃ p ∈ n.children, p.Names source key

/-- The strings that a value is made of: itself, or for a concern that may hold a list the elements
of an array. -/
inductive Offers (c : Concern) : Cst → List Cst → Prop
  | text {v} (h : v.isLiteral = true) : Offers c v [v]
  | list {v} (hlist : c.allowList = true) (hkind : v.kind = "array")
      (h : ∀ e ∈ v.significant, e.isLiteral = true) : Offers c v v.significant

/-- The state that a concern of the block written as the object `n` is to end in. -/
def Due (source : Bytes) (c : Concern) (n : Cst) : ConcernState → Prop
  | .alreadyMigrated => c.Refers source n
  | .noLiteral => ¬ c.Refers source n ∧
      ((∀ p ∈ n.children, ¬ p.Names source c.name) ∨
        ∃ pre p v, FirstNamed source c.name n pre p ∧ p.child? "value" = some v ∧
          c.allowList = true ∧ v.kind = "array" ∧ v.significant = [])
  | .migrated => ¬ c.Refers source n ∧
      ∃ pre p v ls, FirstNamed source c.name n pre p ∧ p.child? "value" = some v ∧
        c.Offers v ls ∧ ls ≠ []
  | .unusableLiteral => ¬ c.Refers source n ∧
      ∃ pre p, FirstNamed source c.name n pre p ∧
        ∀ v ls, p.child? "value" = some v → ¬ c.Offers v ls
  | .missingNode => False

theorem isLiteral_ne_array {v : Cst} (h : v.isLiteral = true) : v.kind ≠ "array" := by
  intro hk
  simp [isLiteral, hk] at h

theorem Offers.unique {c : Concern} {v : Cst} {ls ls' : List Cst} (h : c.Offers v ls)
    (h' : c.Offers v ls') : ls = ls' := by
  cases h with
  | text h =>
    cases h' with
    | text => rfl
    | list _ hkind => exact absurd hkind (isLiteral_ne_array h)
  | list _ hkind =>
    cases h' with
    | text h' => exact absurd hkind (isLiteral_ne_array h')
    | list => rfl

theorem Offers.nil {c : Concern} {v : Cst} {ls : List Cst} (h : c.Offers v ls) (hnil : ls = []) :
    c.allowList = true ∧ v.kind = "array" ∧ v.significant = [] := by
  cases h with
  | text => cases hnil
  | list hlist hkind => exact ⟨hlist, hkind, hnil⟩

/-- One state is due. -/
theorem Due.unique {source : Bytes} {c : Concern} {n : Cst} {st st' : ConcernState}
    (h : c.Due source n st) (h' : c.Due source n st') : st = st' := by
  -- a first pair is no absent pair, and its value offers one list of strings
  have hempty : c.Due source n .noLiteral → ¬ c.Due source n .unusableLiteral := by
    rintro ⟨-, hnone | ⟨pre, p, v, hfirst, hv, hlist, hkind, hnil⟩⟩ ⟨-, pre', p', hfirst', hno⟩
    · obtain ⟨post, hsplit⟩ := hfirst'.split
      exact hnone p' (by simp [hsplit]) hfirst'.names
    · obtain ⟨-, rfl⟩ := hfirst.unique hfirst'
      exact hno v _ hv (.list hlist hkind (by simp [hnil]))
  have hmoved : c.Due source n .migrated → ¬ c.Due source n .unusableLiteral := by
    rintro ⟨-, pre, p, v, ls, hfirst, hv, hoffers, -⟩ ⟨-, pre', p', hfirst', hno⟩
    obtain ⟨-, rfl⟩ := hfirst.unique hfirst'
    exact hno v ls hv hoffers
  have hwhole : c.Due source n .noLiteral → ¬ c.Due source n .migrated := by
    rintro ⟨-, hnone | ⟨pre, p, v, hfirst, hv, hlist, hkind, hnil⟩⟩
      ⟨-, pre', p', v', ls, hfirst', hv', hoffers, hne⟩
    · obtain ⟨post, hsplit⟩ := hfirst'.split
      exact hnone p' (by simp [hsplit]) hfirst'.names
    · obtain ⟨-, rfl⟩ := hfirst.unique hfirst'
      obtain rfl := Option.some.inj (hv.symm.trans hv')
      exact hne ((hoffers.unique (.list hlist hkind (by simp [hnil]))).trans hnil)
  cases st with
  | missingNode => exact h.elim
  | alreadyMigrated =>
    cases st' with
    | alreadyMigrated => rfl
    | missingNode => exact h'.elim
    | noLiteral | unusableLiteral | migrated => exact absurd h h'.1
  | noLiteral =>
    cases st' with
    | noLiteral => rfl
    | missingNode => exact h'.elim
    | alreadyMigrated => exact absurd h' h.1
    | unusableLiteral => exact absurd h' (hempty h)
    | migrated => exact absurd h' (hwhole h)
  | unusableLiteral =>
    cases st' with
    | unusableLiteral => rfl
    | missingNode => exact h'.elim
    | alreadyMigrated => exact absurd h' h.1
    | noLiteral => exact absurd h (hempty h')
    | migrated => exact absurd h (hmoved h')
  | migrated =>
    cases st' with
    | migrated => rfl
    | missingNode => exact h'.elim
    | alreadyMigrated => exact absurd h' h.1
    | noLiteral => exact absurd h (hwhole h')
    | unusableLiteral => exact absurd h' (hmoved h)

end Concern

/-! ## The properties of a lowered object -/

namespace Lowering

/-- What an entry of an object is lowered to, if the token before it ends at `e.1`. -/
structure EntryForm (source : Bytes) (e : Nat × Cst) (m : Node) : Prop where
  pair : e.2.kind = "pair" → ∃ key value span, m = .property key value span e.1 ∧
    keyOf source e.2 = .ok key ∧ spanOf e.2 = .ok span ∧
    (e.2.child? "value" = none → value = none) ∧
    ∀ v, e.2.child? "value" = some v → ∃ w, value = some w ∧
      Lowering.value source (.under e.2 v) = .ok w
  other : e.2.kind ≠ "pair" → m.isProperty = false

theorem entryForm_assembled {source : Bytes} {n c : Cst} {last : Nat} {xs : List Node} {m : Node}
    (hentry : c.isEntry = true)
    (hxs : List.Forall₂ (fun s x => value source s = .ok x) (Task.entryInputs n c) xs)
    (h : assembleEntry source last c xs.head? = .ok m) : EntryForm source (last, c) m := by
  simp only [isEntry, Bool.and_eq_true] at hentry
  rw [Task.entryInputs, if_pos (by simp [hentry]), Task.entryInput] at hxs
  constructor
  · intro hpair
    have hpair : c.kind = "pair" := hpair
    unfold assembleEntry at h
    rw [if_pos hpair] at h
    obtain ⟨key, hkey, h⟩ := bind_eq_ok.1 h
    obtain ⟨span, hspan, h⟩ := bind_eq_ok.1 h
    refine ⟨key, _, span, (pure_eq_ok.1 h).symm, hkey, hspan, fun hv => ?_, fun v hv => ?_⟩
    · have hv : c.child? "value" = none := hv
      simp [hv]
    · have hv : c.child? "value" = some v := hv
      rw [if_pos hpair, hv] at hxs
      cases hxs with
      | cons hx _ => exact ⟨_, by simp [hv], hx⟩
  · intro hpair
    have hpair : c.kind ≠ "pair" := hpair
    rw [if_neg hpair] at hxs
    unfold assembleEntry at h
    rw [if_neg hpair] at h
    cases hxs with
    | cons hx _ =>
      obtain rfl := Except.ok.inj h
      exact Revision.isProperty_of_value hx

/-- **The properties of an object** are the forms of its entries, in order. -/
theorem entryForms_assembled {source : Bytes} {n : Cst} {last : Nat} {cs : List Cst}
    {xs ps : List Node} {seps : List Nat}
    (hxs : List.Forall₂ (fun s x => value source s = .ok x) (cs.flatMap (Task.entryInputs n)) xs)
    (h : assembleEntries source n last cs xs = .ok (ps, seps)) :
    List.Forall₂ (EntryForm source) (places last cs) ps := by
  induction cs generalizing last xs ps seps with
  | nil =>
    obtain ⟨rfl, -⟩ := Prod.mk.inj (Except.ok.inj h)
    exact .nil
  | cons c cs ih =>
    obtain ⟨hc, hrest⟩ := forall₂_append_left hxs
    unfold assembleEntries at h
    obtain ⟨here, hhere, h⟩ := bind_eq_ok.1 h
    obtain ⟨⟨ps', seps'⟩, hps, h⟩ := bind_eq_ok.1 h
    obtain ⟨rfl, -⟩ := Prod.mk.inj (pure_eq_ok.1 h)
    have hforms := ih hrest hps
    unfold assembleChild at hhere
    rw [places]
    split at hhere
    · rename_i hentry
      obtain ⟨m, hm, rfl⟩ := map_eq_ok.1 hhere
      rw [if_pos hentry]
      exact .cons (entryForm_assembled hentry hc hm) hforms
    · rename_i hentry
      obtain rfl := Except.ok.inj hhere
      rw [if_neg hentry]
      exact hforms

theorem keyOf_eq_some {source : Bytes} {c : Cst} {name : String} :
    keyOf source c = .ok (some name) ↔ ∃ k, c.child? "key" = some k ∧
      k.kind = "property_identifier" ∧ Utf8.decode (k.bytes source) = .ok name := by
  unfold keyOf textOf
  cases c.child? "key" with
  | none => simp
  | some k =>
    dsimp only
    split
    · rename_i hkind
      constructor
      · intro h
        obtain ⟨text, htext, heq⟩ := map_eq_ok.1 h
        obtain rfl := Option.some.inj heq
        exact ⟨k, rfl, hkind, mapError_eq_ok.1 htext⟩
      · rintro ⟨k', hk, -, htext⟩
        obtain rfl := Option.some.inj hk
        rw [htext]
        rfl
    · rename_i hkind
      simp only [Except.ok.injEq, reduceCtorEq, false_iff]
      rintro ⟨k', hk, hkind', -⟩
      obtain rfl := Option.some.inj hk
      exact hkind hkind'

/-- The property of a pair with another key is passed over. -/
theorem EntryForm.ofNode?_eq_none {source : Bytes} {e : Nat × Cst} {m : Node}
    (h : EntryForm source e m) {name : String} (hentry : e.2.isEntry = true)
    (hnames : ¬ e.2.Names source name) : Block.Property.ofNode? name m = none := by
  refine Revision.ofNode?_of_key? fun hkey => hnames ?_
  by_cases hpair : e.2.kind = "pair"
  · obtain ⟨key, w, span, rfl, hkeyOf, -⟩ := h.pair hpair
    obtain rfl : key = some name := hkey
    simp only [isEntry, Bool.and_eq_true] at hentry
    exact ⟨hpair, hentry.1.1, keyOf_eq_some.1 hkeyOf⟩
  · rw [Node.key?_eq_none (h.other hpair)] at hkey
    cases hkey

/-- A property of a block was built from the pair `p`, if the token before it ends at `last`. -/
structure BuiltFrom (source : Bytes) (last : Nat) (p : Cst) (pr : Block.Property) : Prop where
  span : spanOf p = .ok pr.span
  fullStart : pr.fullStart = last
  bare : p.child? "value" = none → pr.value = none
  value : ∀ v, p.child? "value" = some v → ∃ w, pr.value = some w ∧
    Lowering.value source (.under p v) = .ok w

/-- The property of the pair with the key. -/
theorem EntryForm.ofNode?_eq_some {source : Bytes} {e : Nat × Cst} {m : Node}
    (h : EntryForm source e m) {name : String} (hnames : e.2.Names source name) :
    ∃ pr, Block.Property.ofNode? name m = some pr ∧ BuiltFrom source e.1 e.2 pr := by
  obtain ⟨key, w, span, rfl, hkeyOf, hspan, hbare, hvalue⟩ := h.pair hnames.pair
  obtain rfl := Except.ok.inj (hkeyOf.symm.trans (keyOf_eq_some.2 hnames.key))
  exact ⟨_, if_pos rfl, hspan, rfl, hbare, hvalue⟩

/-- The first property with a key is that of the first pair with the key. -/
theorem findSome?_forms {source : Bytes} (name : String) {last : Nat} {cs : List Cst}
    {ps : List Node} (h : List.Forall₂ (EntryForm source) (places last cs) ps) :
    (ps.findSome? (Block.Property.ofNode? name) = none ∧ ∀ c ∈ cs, ¬ c.Names source name) ∨
      ∃ pre p post pr, cs = pre ++ p :: post ∧ p.Names source name ∧
        (∀ c ∈ pre, ¬ c.Names source name) ∧
        ps.findSome? (Block.Property.ofNode? name) = some pr ∧
        BuiltFrom source (lastStop last pre) p pr := by
  induction cs generalizing last ps with
  | nil =>
    cases h
    exact .inl ⟨rfl, by simp⟩
  | cons c cs ih =>
    by_cases hnames : c.Names source name
    · rw [places, if_pos hnames.isEntry] at h
      cases h with
      | cons hm hrest =>
        obtain ⟨pr, hpr, hbuilt⟩ := hm.ofNode?_eq_some hnames
        exact .inr ⟨[], c, cs, pr, rfl, hnames, by simp, by rw [List.findSome?_cons, hpr], hbuilt⟩
    · -- the rest of the children decides
      have hrest : ∃ ps', List.Forall₂ (EntryForm source) (places (lastAfter last c) cs) ps' ∧
          ps.findSome? (Block.Property.ofNode? name) = ps'.findSome? (Block.Property.ofNode? name) := by
        rw [places] at h
        split at h
        · rename_i hentry
          cases h with
          | cons hm hrest =>
            exact ⟨_, hrest, by rw [List.findSome?_cons, hm.ofNode?_eq_none hentry hnames]⟩
        · exact ⟨ps, h, rfl⟩
      obtain ⟨ps', hforms, hsame⟩ := hrest
      rw [hsame]
      rcases ih hforms with ⟨hfind, hnone⟩ | ⟨pre, p, post, pr, rfl, hp, hpre, hfind, hbuilt⟩
      · exact .inl ⟨hfind, List.forall_mem_cons.2 ⟨hnames, hnone⟩⟩
      · refine .inr ⟨c :: pre, p, post, pr, rfl, hp, List.forall_mem_cons.2 ⟨hnames, hpre⟩, hfind, ?_⟩
        rw [lastStop_cons]
        exact hbuilt

/-- **The properties of a block, by the pairs of its object.** Either no pair has the key, or the
first one that has it gives the property. -/
theorem first_of_object {source : Bytes} {n : Cst} {b : Block}
    (h : value source ⟨[], n⟩ = .ok b.toNode) (name : String) :
    (b.property? name = none ∧ ∀ c ∈ n.children, ¬ c.Names source name) ∨
      ∃ pre p pr, FirstNamed source name n pre p ∧ b.property? name = some pr ∧
        BuiltFrom source (lastStop n.start pre) p pr := by
  obtain ⟨xs, hxs, hassemble⟩ := value_eq_ok.1 h
  obtain ⟨hkind, hentries, -⟩ := (assemble_eq_ok.1 hassemble).of_object
  rw [Task.inputs_of_object hkind] at hxs
  rcases findSome?_forms name (entryForms_assembled hxs hentries) with hnone |
    ⟨pre, p, post, pr, hsplit, hrest⟩
  · exact .inl hnone
  · exact .inr ⟨pre, p, pr, ⟨⟨post, hsplit⟩, hrest.1, hrest.2.1⟩, hrest.2.2⟩

/-! ## The value of a pair -/

/-- What a value is lowered to, as far as strings can be extracted from it. -/
inductive ValueForm (source : Bytes) (t : Task) : Node → Prop
  | literal {text delimiter span} (h : t.node.isLiteral = true) (hcooks : t.node.Cooks source text) :
      ValueForm source t (.literal text delimiter span)
  | array {es span} (hkind : t.node.kind = "array")
      (hes : List.Forall₂ (fun e x => value source (.under t.node e) = .ok x) t.node.significant es) :
      ValueForm source t (.array es span)
  | other {m} (hliteral : t.node.isLiteral = false) (harray : t.node.kind ≠ "array")
      (hm : ∀ allowList, EntryValue.ofNode allowList (some m) = .other) : ValueForm source t m

theorem valueForm {source : Bytes} {t : Task} {m : Node} (h : value source t = .ok m) :
    ValueForm source t m := by
  obtain ⟨xs, hxs, h⟩ := value_eq_ok.1 h
  cases assemble_eq_ok.1 h with
  | classDecl hclass =>
    simp only [isClass, Bool.or_eq_true, decide_eq_true_eq] at hclass
    rcases hclass with hk | hk <;>
      exact .other (by simp [Cst.isLiteral, hk]) (by simp [hk]) fun _ => rfl
  | object hk => exact .other (by simp [Cst.isLiteral, hk]) (by simp [hk]) fun _ => rfl
  | array hk =>
    rw [Task.inputs_of_array hk] at hxs
    exact .array hk (List.forall₂_map_left_iff.1 hxs)
  | string hstring hm =>
    cases hm with
    | literal hliteral hcooks => exact .literal hliteral hcooks
    | kept hliteral =>
      refine .other hliteral (fun hk => ?_) fun _ => rfl
      simp [isString, hk] at hstring
  | decorator hdecorator =>
    have hk : t.node.kind = "decorator" := by simpa [isDecorator] using hdecorator
    exact .other (by simp [Cst.isLiteral, hk]) (by simp [hk]) fun _ => rfl
  | other hplain =>
    simp only [Task.isPlain, Bool.and_eq_true, Bool.not_eq_true', decide_eq_true_eq, isString,
      Bool.or_eq_false_iff, decide_eq_false_iff_not] at hplain
    obtain ⟨⟨⟨-, harray⟩, hstring⟩, -⟩ := hplain
    exact .other (by simp [Cst.isLiteral, hstring]) harray fun _ => rfl

section
variable {source : Bytes} {parent : Cst} {es : List Cst} {xs : List Node}
  (h : List.Forall₂ (fun e x => value source (.under parent e) = .ok x) es xs)
include h

/-- Elements that are all strings have texts. -/
theorem literals?_eq_some (hall : ∀ e ∈ es, e.isLiteral = true) :
    ∃ texts, EntryValue.literals? xs = some texts ∧ List.Forall₂ (Cooks source) es texts := by
  induction h with
  | nil => exact ⟨[], rfl, .nil⟩
  | @cons e x es xs hx _ ih =>
    obtain ⟨he, hes⟩ := List.forall_mem_cons.1 hall
    obtain ⟨texts, htexts, hcooks⟩ := ih hes
    cases valueForm hx with
    | literal _ hcook => exact ⟨_ :: texts, by rw [EntryValue.literals?, htexts]; rfl, .cons hcook hcooks⟩
    | array hkind => exact absurd hkind (Concern.isLiteral_ne_array he)
    | other hliteral =>
      have hliteral : e.isLiteral = false := hliteral
      rw [hliteral] at he
      cases he

/-- One element that is no string keeps the texts of all from being told. -/
theorem literals?_eq_none (hnot : ∃ e ∈ es, e.isLiteral = false) : EntryValue.literals? xs = none := by
  induction h with
  | nil => simp at hnot
  | @cons e x es xs hx _ ih =>
    cases valueForm hx with
    | literal he =>
      have he : e.isLiteral = true := he
      obtain ⟨e', he', hno⟩ := hnot
      rcases List.mem_cons.1 he' with rfl | he'
      · rw [he] at hno
        cases hno
      · rw [EntryValue.literals?, ih ⟨e', he', hno⟩]
        rfl
    | array => rfl
    | other _ _ hm =>
      cases x with
      | literal => cases hm true
      | _ => rfl

end

section
variable {source : Bytes} {parent v : Cst} {w : Node} (h : value source (.under parent v) = .ok w)
  {c : Concern}
include h

/-- **A value offers the texts of the strings it is made of.** -/
theorem ofNode_offers {ls : List Cst} (hoffers : c.Offers v ls) :
    (EntryValue.ofNode c.allowList (some w)).usable = true ∧
      List.Forall₂ (Cooks source) ls (EntryValue.ofNode c.allowList (some w)).texts := by
  cases hoffers with
  | text hv =>
    cases valueForm h with
    | literal _ hcooks => exact ⟨rfl, .cons hcooks .nil⟩
    | array hkind => exact absurd hkind (Concern.isLiteral_ne_array hv)
    | other hliteral =>
      have hliteral : v.isLiteral = false := hliteral
      rw [hliteral] at hv
      cases hv
  | list hlist hkind hall =>
    cases valueForm h with
    | literal hv => exact absurd hkind (Concern.isLiteral_ne_array hv)
    | other _ harray => exact absurd hkind harray
    | array _ hes =>
      obtain ⟨texts, htexts, hcooks⟩ := literals?_eq_some hes hall
      rw [EntryValue.ofNode, if_pos hlist, htexts]
      exact ⟨rfl, hcooks⟩

/-- A value that offers no strings is not usable. -/
theorem ofNode_unusable (hno : ∀ ls, ¬ c.Offers v ls) :
    (EntryValue.ofNode c.allowList (some w)).usable = false := by
  cases valueForm h with
  | literal hv => exact absurd (.text hv) (hno [v])
  | other _ _ hm => rw [hm]; rfl
  | array hkind hes =>
    by_cases hlist : c.allowList = true
    · have hnot : ∃ e ∈ v.significant, e.isLiteral = false := by
        by_contra hall
        push Not at hall
        exact hno _ (.list hlist hkind fun e he => by simpa using hall e he)
      rw [EntryValue.ofNode, if_pos hlist, literals?_eq_none hes hnot]
      rfl
    · rw [EntryValue.ofNode, if_neg hlist]
      rfl

end

/-- **A usable pair** has a value that offers strings, and the texts are theirs. -/
theorem BuiltFrom.offers {source : Bytes} {last : Nat} {p : Cst} {pr : Block.Property}
    (h : BuiltFrom source last p pr) {c : Concern}
    (husable : (EntryValue.ofNode c.allowList pr.value).usable = true) :
    ∃ v ls, p.child? "value" = some v ∧ c.Offers v ls ∧
      List.Forall₂ (Cooks source) ls (EntryValue.ofNode c.allowList pr.value).texts := by
  cases hv : p.child? "value" with
  | none =>
    rw [h.bare hv] at husable
    cases husable
  | some v =>
    obtain ⟨w, hw, hvalue⟩ := h.value v hv
    rw [hw] at husable ⊢
    by_cases hoffers : ∃ ls, c.Offers v ls
    · obtain ⟨ls, hls⟩ := hoffers
      exact ⟨v, ls, rfl, hls, (ofNode_offers hvalue hls).2⟩
    · rw [ofNode_unusable hvalue fun ls hls => hoffers ⟨ls, hls⟩] at husable
      cases husable

theorem BuiltFrom.offers_nothing {source : Bytes} {last : Nat} {p : Cst} {pr : Block.Property}
    (h : BuiltFrom source last p pr) {c : Concern}
    (hunusable : (EntryValue.ofNode c.allowList pr.value).usable = false) :
    ∀ v ls, p.child? "value" = some v → ¬ c.Offers v ls := by
  intro v ls hv hoffers
  obtain ⟨w, hw, hvalue⟩ := h.value v hv
  rw [hw, (ofNode_offers hvalue hoffers).1] at hunusable
  cases hunusable

end Lowering

/-! ## The decision -/

namespace Migration

open Lowering

/-- The entry of a pair can be formed if the pair does not start before its full range. -/
theorem ofProperty_ok_iff {allowList : Bool} {pr : Block.Property} :
    (∃ e, Entry.ofProperty allowList pr = .ok e) ↔ (pr.fullStart : Int) ≤ pr.span.start := by
  constructor
  · rintro ⟨e, he⟩
    obtain ⟨-, -, hcore, hstart, -⟩ := Entry.ofProperty_eq he
    have hcovers := (Span.covers_iff.1 e.covered).1
    rw [hcore, hstart] at hcovers
    exact hcovers
  · intro hle
    have hends := pr.span.start_le_stop
    have hfull : Span.covers ⟨pr.fullStart, pr.span.stop, by omega⟩ pr.span = true :=
      Span.covers_iff.2 ⟨hle, Int.le_refl _⟩
    refine ⟨⟨pr.key, .ofNode allowList pr.value, _, pr.span, hfull⟩, ?_⟩
    rw [Entry.ofProperty, Span.ofEnds_of_le (by omega)]
    exact dif_pos hfull

section
variable {source : Bytes} {n : Cst} {b : Block} (h : value source ⟨[], n⟩ = .ok b.toNode)
include h

theorem has_iff {key : String} : b.has key = true ↔ ∃ p ∈ n.children, p.Names source key := by
  unfold Block.has
  rcases first_of_object h key with ⟨hnone, hall⟩ | ⟨pre, p, pr, hfirst, hpr, -⟩
  · rw [hnone]
    simpa using hall
  · rw [hpr]
    obtain ⟨post, hsplit⟩ := hfirst.split
    exact ⟨fun _ => ⟨p, by simp [hsplit], hfirst.names⟩, fun _ => rfl⟩

theorem refers_iff {c : Concern} : c.Refers source n ↔ ∃ key ∈ c.referenceKeys, b.has key = true := by
  simp only [Concern.Refers, has_iff h]

theorem not_refers {c : Concern} (hinline : c.referenceKeys.find? b.has = none) :
    ¬ c.Refers source n := by
  rw [refers_iff h]
  rintro ⟨key, hkey, hhas⟩
  exact List.find?_eq_none.1 hinline key hkey hhas

/-- The pair that a property was built from. -/
theorem pair_of_property? {key : String} {pr : Block.Property} (hpr : b.property? key = some pr) :
    ∃ pre p, FirstNamed source key n pre p ∧ BuiltFrom source (lastStop n.start pre) p pr := by
  rcases first_of_object h key with ⟨hnone, -⟩ | ⟨pre, p, pr', hfirst, hpr', hbuilt⟩
  · rw [hnone] at hpr
    cases hpr
  · obtain rfl := Option.some.inj (hpr'.symm.trans hpr)
    exact ⟨pre, p, hfirst, hbuilt⟩

/-- The strings that a usable entry was extracted from. -/
theorem strings_of_entry {c : Concern} {pr : Block.Property} {e : Entry}
    (hpair : b.property? c.name = some pr) (hentry : Entry.ofProperty c.allowList pr = .ok e)
    (husable : e.value.usable = true) :
    ∃ pre p v ls, FirstNamed source c.name n pre p ∧ p.child? "value" = some v ∧ c.Offers v ls ∧
      List.Forall₂ (Cooks source) ls e.value.texts := by
  obtain ⟨pre, p, hfirst, hbuilt⟩ := pair_of_property? h hpair
  obtain ⟨hvalue, -⟩ := Entry.ofProperty_eq hentry
  rw [hvalue] at husable ⊢
  obtain ⟨v, ls, hv, hoffers, hcooks⟩ := hbuilt.offers husable
  exact ⟨pre, p, v, ls, hfirst, hv, hoffers, hcooks⟩

/-- **The state that is decided on is due.** -/
theorem Decided.due {setup : Setup} (hkept : setup.outages.vanished = []) {t : FileTree} {path : Path}
    {c : Concern} {q q' : Patch} {st : ConcernState} (hd : Decided setup t b path c q st q') :
    c.Due source n st := by
  cases hd with
  | already href =>
    exact (refers_iff h).2 ⟨_, List.mem_of_find?_eq_some href, List.find?_some href⟩
  | absent hinline hnone =>
    refine ⟨not_refers h hinline, .inl ?_⟩
    rcases first_of_object h c.name with ⟨-, hall⟩ | ⟨pre, p, pr, -, hpr, -⟩
    · exact hall
    · rw [hpr] at hnone
      cases hnone
  | unusable hinline hpair hentry hvalue =>
    obtain ⟨pre, p, hfirst, hbuilt⟩ := pair_of_property? h hpair
    rw [(Entry.ofProperty_eq hentry).1] at hvalue
    exact ⟨not_refers h hinline, pre, p, hfirst, hbuilt.offers_nothing hvalue⟩
  | empty hinline hpair hentry hvalue htexts =>
    obtain ⟨pre, p, v, ls, hfirst, hv, hoffers, hcooks⟩ := strings_of_entry h hpair hentry hvalue
    rw [htexts] at hcooks
    exact ⟨not_refers h hinline,
      .inr ⟨pre, p, v, hfirst, hv, hoffers.nil (List.forall₂_nil_right_iff.1 hcooks)⟩⟩
  | missing _ hpair hentry _ _ hlost =>
    have hvanished := (relocate_eq_error (by rw [key_of_property? hpair]; exact hpair) hentry).1 ⟨_, hlost⟩
    rw [hkept] at hvanished
    cases hvanished
  | migrated hinline hpair hentry hvalue htexts =>
    obtain ⟨pre, p, v, ls, hfirst, hv, hoffers, hcooks⟩ := strings_of_entry h hpair hentry hvalue
    refine ⟨not_refers h hinline, pre, p, v, ls, hfirst, hv, hoffers, ?_⟩
    rintro rfl
    exact htexts (List.forall₂_nil_left_iff.1 hcooks)

end

/-! ## A decision that fails -/

/-- Files that cannot be staged leave the edits alone. -/
theorem stageFiles_error {t : FileTree} {files : List PlannedFile} {d d' : Draft} {f : Fault}
    (h : runFrom (stageFiles t files) d = (.error f, d')) : d'.patch.staging = d.patch.staging := by
  induction files generalizing d with
  | nil => cases h
  | cons file files ih =>
    rcases run_bind_error h with hfile | ⟨u, d₁, hfile, hrest⟩
    · unfold stageFile at hfile
      rcases run_bind_error hfile with hthere | ⟨there, d₁, hthere, hfile⟩
      · rw [(attempt_error hthere).2]
      · obtain ⟨-, rfl⟩ := attempt_ok hthere
        cases there with
        | true => cases hfile
        | false =>
          rcases run_bind_error hfile with hget | ⟨d₂, d₃, hget, hfile⟩
          · cases hget
          · cases hget
            rcases run_bind_error hfile with hstage | ⟨p, d₄, hstage, hset⟩
            · rw [(attempt_error hstage).2]
            · cases hset
    · rw [ih hrest]
      rcases stageFile_ok hfile with ⟨-, hpatch⟩ | ⟨-, hpatch⟩ <;> rw [hpatch]

/-- An edit that cannot be staged leaves the draft as it is. -/
theorem stageEdit_error {b : Block} {e : Entry} {replacement : List CodePoint} {d d' : Draft} {f : Fault}
    (h : runFrom (stageEdit b e replacement) d = (.error f, d')) : d' = d := by
  unfold stageEdit at h
  rcases run_bind_error h with hget | ⟨d₁, d₂, hget, h⟩
  · cases hget
  cases hget
  rcases run_bind_error h with hplan | ⟨plan, d₂, hplan, h⟩
  · exact (attempt_error hplan).2
  obtain ⟨-, rfl⟩ := attempt_ok hplan
  rcases run_bind_error h with hed | ⟨ed, d₃, hed, h⟩
  · exact (attempt_error hed).2
  obtain ⟨-, rfl⟩ := attempt_ok hed
  rcases run_bind_error h with hp | ⟨p, d₄, hp, h⟩
  · exact (attempt_error hp).2
  · cases h

/-- **A decision fails** when the entry of a pair cannot be formed, or where there are literals to
move; no edit is staged then. -/
theorem stageConcern_error {setup : Setup} {t : FileTree} {b : Block} {c : Concern} {d d' : Draft}
    {f : Fault} (h : runFrom (stageConcern setup t b c) d = (.error f, d')) :
    c.referenceKeys.find? b.has = none ∧ ∃ pr, b.property? c.name = some pr ∧
      ((∃ g, f = .entry g ∧ Entry.ofProperty c.allowList pr = .error g ∧ d' = d) ∨
        (∃ e, Entry.ofProperty c.allowList pr = .ok e ∧ e.value.usable = true ∧
          e.value.texts ≠ []) ∧ d'.patch.staging = d.patch.staging) := by
  unfold stageConcern at h
  split at h
  · cases h
  rename_i hinline
  split at h
  · cases h
  rename_i pr hpair
  refine ⟨hinline, pr, hpair, ?_⟩
  rcases run_bind_error h with hentry | ⟨e, d₁, hentry, hvalue⟩
  · obtain ⟨⟨g, hg, rfl⟩, rfl⟩ := attempt_error hentry
    exact .inl ⟨g, rfl, hg, rfl⟩
  obtain ⟨hformed, rfl⟩ := attempt_ok hentry
  split at hvalue
  · cases hvalue
  rename_i husable
  simp only [Bool.not_eq_true', Bool.not_eq_false] at husable
  split at hvalue
  · cases hvalue
  rename_i htexts
  refine .inr ⟨⟨e, hformed, husable, fun hnil => htexts (List.isEmpty_iff.2 hnil)⟩, ?_⟩
  unfold stageLiterals at hvalue
  split at hvalue
  · cases hvalue
  rcases run_bind_error hvalue with hget | ⟨d₂, d₃, hget, hstage⟩
  · cases hget
  cases hget
  rcases run_bind_error hstage with hfiles | ⟨u, d₄, hfiles, hrest⟩
  · exact stageFiles_error hfiles
  obtain ⟨staged, -, hpatch⟩ := stageFiles_ok hfiles
  rcases run_bind_error hrest with hedit | ⟨v, d₅, hedit, htell⟩
  · rw [stageEdit_error hedit, hpatch]
  · cases htell

/-! ## The decision is exact -/

/-- The first pair starts before the token in front of it ends, so it has no range of its own. -/
def Crossed (source : Bytes) (n : Cst) (c : Concern) : Prop :=
  ∃ pre p, FirstNamed source c.name n pre p ∧ p.start < lastStop n.start pre

/-- What is staged when a concern is moved: one edit, and files for the texts of the strings that the
first pair's value is made of, cooked and in order. -/
structure Moves (setup : Setup) (source : Bytes) (n : Cst) (b : Block) (c : Concern) (d d' : Draft) :
    Prop where
  edit : ∃ ed, d'.patch.staging = { d.patch.staging with edits := d.patch.staging.edits ++ [ed] }
  files : ∃ pre p v ls e staged, FirstNamed source c.name n pre p ∧ p.child? "value" = some v ∧
    c.Offers v ls ∧ Entry.inspect? b c.name c.allowList = .ok (some e) ∧
    List.Forall₂ (Cooks source) ls e.value.texts ∧
    staged.Sublist (planned setup.settings d.outcome.path e.value.texts c) ∧
    d'.patch.files = d.patch.files ++ staged

section
variable {source : Bytes} {n : Cst} {b : Block} (h : value source ⟨[], n⟩ = .ok b.toNode)
include h

theorem Decided.moves {setup : Setup} {t : FileTree} {c : Concern} {d d' : Draft}
    (hd : Decided setup t b d.outcome.path c d.patch .migrated d'.patch) :
    Moves setup source n b c d d' := by
  generalize hq : d'.patch = q at hd
  cases hd with
  | @migrated pr e staged s hinline hpair hentry husable htexts hfiles hedit =>
    obtain ⟨pre, p, v, ls, hfirst, hv, hoffers, hcooks⟩ := strings_of_entry h hpair hentry husable
    obtain ⟨plan, ed, -, -, hstage⟩ := hedit.edit
    obtain ⟨-, -, rfl⟩ := Staging.stage_eq_ok.1 hstage
    have hinspect : Entry.inspect? b c.name c.allowList = .ok (some e) := by
      rw [Entry.inspect?, hpair]
      dsimp only
      rw [hentry]
      rfl
    exact ⟨⟨ed, by rw [hq]⟩, pre, p, v, ls, e, staged, hfirst, hv, hoffers, hinspect, hcooks,
      hfiles.sublist, by rw [hq]⟩

theorem crossed_of_error {c : Concern} {pr : Block.Property} {g : Entry.Fault}
    (hpair : b.property? c.name = some pr) (hg : Entry.ofProperty c.allowList pr = .error g) :
    Crossed source n c := by
  obtain ⟨pre, p, hfirst, hbuilt⟩ := pair_of_property? h hpair
  refine ⟨pre, p, hfirst, ?_⟩
  by_contra hle
  have hstart := (spanOf_eq hbuilt.span).1
  have hfull := hbuilt.fullStart
  obtain ⟨e, he⟩ := (@ofProperty_ok_iff c.allowList pr).2 (by omega)
  rw [he] at hg
  cases hg

end

/-- **A concern is moved exactly when it should be.** For the block that is found in a lowered tree
there is the object that it was lowered from, and what that object holds tells how each decision
goes. The state that is returned is the one that is due, and only the decision to move stages
anything: files and one edit. Nothing is returned in two cases: the concern is to be moved and its
files or its edit cannot be staged, or the pairs of the tree are out of order. -/
theorem stageConcern_exact {source : Bytes} {root : Cst} (hn : root.Numbered) {r : Node}
    (hr : lower source root = .ok r) {name : String} {b : Block}
    (hb : Block.find? name r = .ok (some b)) :
    ∃ n, Inside n root ∧ n.kind = "object" ∧ lower source n = .ok b.toNode ∧
      ∀ (setup : Setup), setup.outages.vanished = [] → ∀ t c d d',
        (∀ st, runFrom (stageConcern setup t b c) d = (.ok st, d') →
          (∀ s, st = s ↔ c.Due source n s) ∧ st ≠ .missingNode ∧
            (st ≠ .migrated → d'.patch = d.patch) ∧
            (st = .migrated → Moves setup source n b c d d')) ∧
        ∀ f, runFrom (stageConcern setup t b c) d = (.error f, d') →
          d'.patch.staging = d.patch.staging ∧
            (c.Due source n .migrated ∨ (∃ g, f = .entry g) ∧ Crossed source n c ∧ d' = d) := by
  rw [lower_eq_value hn] at hr
  obtain ⟨task, hreached, htask⟩ := part_of_value .root hr (Block.find?_part hb) rfl
  have hkind : task.node.kind = "object" := by
    obtain ⟨xs, -, hassemble⟩ := value_eq_ok.1 htask
    exact (assemble_eq_ok.1 hassemble).of_object.1
  have hinside := hreached.within.node
  have hvalue : value source ⟨[], task.node⟩ = .ok b.toNode :=
    (Revision.value_hoisted hkind).symm.trans htask
  have hlower : lower source task.node = .ok b.toNode :=
    (lower_eq_value (hn.inside hinside)).trans hvalue
  refine ⟨task.node, hinside, hkind, hlower, fun setup hkept t c d d' => ⟨fun st hrun => ?_,
    fun f hrun => ?_⟩⟩
  · have hdecided := stageConcern_decided hrun
    have hdue := hdecided.due hvalue hkept
    refine ⟨fun s => ⟨fun hs => hs ▸ hdue, hdue.unique⟩, ?_, ?_, ?_⟩
    · rintro rfl
      exact hdue
    · intro hst
      generalize d'.patch = q at hdecided ⊢
      cases hdecided with
      | migrated => exact absurd rfl hst
      | already | absent | unusable | empty | missing => rfl
    · rintro rfl
      exact hdecided.moves hvalue
  · obtain ⟨hinline, pr, hpair, herror⟩ := stageConcern_error hrun
    rcases herror with ⟨g, rfl, hg, rfl⟩ | ⟨⟨e, hentry, husable, htexts⟩, hstaging⟩
    · exact ⟨rfl, .inr ⟨⟨g, rfl⟩, crossed_of_error hvalue hpair hg, rfl⟩⟩
    · obtain ⟨pre, p, v, ls, hfirst, hv, hoffers, hcooks⟩ :=
        strings_of_entry hvalue hpair hentry husable
      refine ⟨hstaging, .inl ⟨not_refers hvalue hinline, pre, p, v, ls, hfirst, hv, hoffers, ?_⟩⟩
      rintro rfl
      exact htexts (List.forall₂_nil_left_iff.1 hcooks)

open Sample Splice.Sample in
/-- The template is moved; its text is that of the one string the first pair's value is. -/
theorem stageConcern_exact_component : ∃ n d', Inside n (tree 20 25) ∧
    runFrom (stageConcern setup files (block Sample.reads) .template) (opening path inlined)
      = (.ok .migrated, d') ∧
    Concern.template.Due inlined n .migrated ∧
    Moves setup inlined n (block Sample.reads) .template (opening path inlined) d' := by
  obtain ⟨root, hroot, hfind⟩ := find?_block
  obtain ⟨n, hn, -, -, hexact⟩ := @stageConcern_exact inlined (tree 20 25) (by decide) root
    ((lower_eq_value (by decide)).trans hroot) "Component" _ hfind
  obtain ⟨d, hrun, hlog, -⟩ := stageConcerns_component vacant_target
  rw [Concern.all, stageConcerns] at hrun
  obtain ⟨st, d', hc, hrest⟩ := run_bind_ok hrun
  obtain ⟨u, d₁, hnote, hrest⟩ := run_bind_ok hrest
  cases hnote
  -- the state noted first is the one returned
  have hkept := keeps_stageConcern setup files (block Sample.reads) .template (opening path inlined)
  rw [hc] at hkept
  obtain ⟨log, hnoted, -⟩ := stageConcerns_decided hrest
  have hfresh : d'.outcome.concerns = [] := hkept.concerns
  obtain rfl : st = .migrated := by
    simp only [hlog, hfresh] at hnoted
    exact (Prod.mk.inj (List.cons.inj hnoted).1).2.symm
  obtain ⟨hdue, -, -, hmoves⟩ := (hexact setup rfl files .template (opening path inlined) d').1 _ hc
  exact ⟨n, d', hn, hc, (hdue _).1 rfl, hmoves rfl⟩

end Migration

end AssetLift
