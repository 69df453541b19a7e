import AssetLift.Proofs.Revision

/-!
# The nodes of a rewritten file

The tree of a rewritten file is lowered to the nodes that the tree before was lowered to, with the
pairs of the block swapped and the ranges moved (`Revision.Relowered`). So the block is found again,
with as many entries and commas.

* `value_refers`: the value of a reference is lowered to strings.
* `assembleEntries_reparsed`: the entries of an object, where pairs may be swapped.
* `value_reparsed`: the two lowerings, task by task.
* `find?_relowered`: the block is found again.
-/

namespace AssetLift

/-- Whether a node is a string. -/
def Node.isLiteral : Node → Bool
  | literal _ _ _ => true
  | _ => false

/-- Whether a node is made of strings alone. -/
def Node.isInert : Node → Bool
  | literal _ _ _ => true
  | array es _ => es.all isLiteral
  | _ => false

/-- The key of a property, if it is a plain identifier. -/
def Node.key? : Node → Option String
  | property key _ _ _ => key
  | _ => none

theorem Node.key?_eq_none {n : Node} (h : n.isProperty = false) : n.key? = none := by
  cases n with
  | property => cases h
  | _ => rfl

namespace Revision

open Cst Lowering Migration

variable {R : Revision}

/-! ## Lowered nodes -/

variable (R) in
/-- The second range is the first with its ends moved. -/
structure Shifts (s s' : Span) : Prop where
  start : s'.start = R.move s.start.toNat
  stop : s'.stop = R.move s.stop.toNat

mutual

/-- The second node is the first with the pairs of the block swapped and the ranges moved. -/
inductive Relowered (R : Revision) : Node → Node → Prop
  | literal {text d s s'} (hspan : R.Shifts s s') :
      Relowered R (.literal text d s) (.literal text d s')
  | array {es es' s s'} (hspan : R.Shifts s s') (hes : ReloweredAll R [] es es') :
      Relowered R (.array es s) (.array es' s')
  | property {key v v' s s' fullStart} (hspan : R.Shifts s s') (hv : Relowered R v v') :
      Relowered R (.property key (some v) s fullStart)
        (.property key (some v') s' (R.move fullStart))
  | bare {key s s' fullStart} (hspan : R.Shifts s s') :
      Relowered R (.property key none s fullStart) (.property key none s' (R.move fullStart))
  | object {ps ps' seps s s' todo} (hspan : R.Shifts s s')
      (hdue : R.Due (.object ps seps s = R.block.toNode) todo) (hps : ReloweredAll R todo ps ps') :
      Relowered R (.object ps seps s) (.object ps' (seps.map R.move) s')
  | decorator {callee as as' s s'} (hspan : R.Shifts s s') (has : ReloweredAll R [] as as') :
      Relowered R (.decorator callee as s) (.decorator callee as' s')
  | classDecl {name ds ds' ms ms' s s'} (hspan : R.Shifts s s') (hds : ReloweredAll R [] ds ds')
      (hms : ReloweredAll R [] ms ms') :
      Relowered R (.classDecl name ds ms s) (.classDecl name ds' ms' s')
  | other {kind ns ns' s s'} (hspan : R.Shifts s s') (hns : ReloweredAll R [] ns ns') :
      Relowered R (.other kind ns s) (.other kind ns' s')

/-- The same for lists of nodes, of which the first pair with the key of each concern in `todo` is
swapped: it has another key, and both values are made of strings. -/
inductive ReloweredAll (R : Revision) : List Concern → List Node → List Node → Prop
  | nil {todo} : ReloweredAll R todo [] []
  | kept {todo q q' ps ps'} (hno : ∀ d ∈ todo, q.key? ≠ some d.name) (hq : Relowered R q q')
      (hrest : ReloweredAll R todo ps ps') : ReloweredAll R todo (q :: ps) (q' :: ps')
  | swapped {todo d v v' s s' fullStart ps ps'} (hd : d ∈ todo) (hspan : R.Shifts s s')
      (hv : v.isInert) (hv' : v'.isInert)
      (hrest : ReloweredAll R (todo.filter (· ≠ d)) ps ps') :
      ReloweredAll R todo (.property (some d.name) (some v) s fullStart :: ps)
        (.property (some d.referenceKey) (some v') s' (R.move fullStart) :: ps')

end

theorem reloweredAll_iff {ps ps' : List Node} :
    R.ReloweredAll [] ps ps' ↔ List.Forall₂ R.Relowered ps ps' := by
  constructor
  · intro h
    induction ps generalizing ps' with
    | nil => cases h; exact .nil
    | cons q ps ih =>
      cases h with
      | kept _ hq hrest => exact .cons hq (ih hrest)
      | swapped hd => simp at hd
  · intro h
    induction h with
    | nil => exact .nil
    | cons hq _ ih => exact .kept (by simp) hq ih

theorem spanOf_moved {n n' : Cst} (h : n.label.Moved R.move n'.label) {s : Span}
    (hs : spanOf n = .ok s) : ∃ s', spanOf n' = .ok s' ∧ R.Shifts s s' := by
  obtain ⟨hstart, hstop⟩ := spanOf_eq hs
  have hle := s.start_le_stop
  rw [hstart, hstop] at hle
  have hmono := R.move_mono (Int.ofNat_le.1 hle)
  have hstart' : n'.start = R.move n.start := h.start
  have hstop' : n'.stop = R.move n.stop := h.stop
  refine ⟨⟨n'.start, n'.stop, by omega⟩, ?_, ?_⟩
  · rw [spanOf, Span.ofEnds_of_le (by omega)]
    rfl
  · constructor
    · rw [hstart, Int.toNat_natCast, ← hstart']
    · rw [hstop, Int.toNat_natCast, ← hstop']

/-! ## Nodes that are no objects -/

theorem strung_reparsed {n n' : Cst} (h : R.Reparsed n n') (hn : isString n = true) {m : Node}
    (hm : Strung R.source n m) : ∃ m', Strung R.text n' m' ∧ R.Relowered m m' := by
  simp only [isString, Bool.or_eq_true, decide_eq_true_eq] at hn
  have htext : n.isText = true := by
    rcases hn with hn | hn <;> simp [isText, hn]
  have hplain : n.kind ≠ "object" := by
    rcases hn with hn | hn <;> simp [hn]
  have hany : ∀ p : Cst → Bool, (∀ {c c'}, R.Reparsed c c' → p c' = p c) →
      n'.children.any p = n.children.any p := by
    intro p hp
    have hcs := h.children (.inl hplain)
    generalize n.children = cs, n'.children = cs' at hcs
    induction hcs with
    | nil => rfl
    | cons hc _ ih => rw [List.any_cons, List.any_cons, hp hc, ih]
  have hliteral : n'.isLiteral = n.isLiteral := by
    rw [Cst.isLiteral, Cst.isLiteral, h.kind, hany]
    intro c c' hc
    have hnamed : c'.named = c.named := hc.label.named
    rw [hnamed, hc.kind]
  have hbytes := h.bytes htext
  cases hm with
  | literal hl hcooks hspan =>
    obtain ⟨s', hs', hshift⟩ := spanOf_moved h.label hspan
    rw [← h.kind]
    refine ⟨_, .literal (hliteral.trans hl) ?_ hs', .literal hshift⟩
    rwa [Cst.Cooks, hbytes, h.kind]
  | kept hl hbody hspan =>
    obtain ⟨s', hs', hshift⟩ := spanOf_moved h.label hspan
    rw [← h.kind]
    exact ⟨_, .kept (hliteral.trans hl) (by rw [hbytes]; exact hbody) hs', .other hshift .nil⟩

theorem isPlain_reparsed {t t' : Task} (h : R.Reparsed t.node t'.node) :
    t'.isPlain = t.isPlain := by
  simp only [Task.isPlain, isClass, isString, isDecorator, h.kind]

/-- **A node that is no object** is assembled as before. -/
theorem assemble_reparsed {t t' : Task} (h : R.TaskReparsed t t') (hk : t.node.kind ≠ "object")
    {xs xs' : List Node} (hxs : List.Forall₂ R.Relowered xs xs') {m : Node}
    (hm : assemble R.source t xs = .ok m) :
    ∃ m', assemble R.text t' xs' = .ok m' ∧ R.Relowered m m' := by
  have hkind := h.node.kind
  have hall := reloweredAll_iff.2 hxs
  simp only [assemble_eq_ok]
  cases assemble_eq_ok.1 hm with
  | classDecl hclass hname hspan =>
    obtain ⟨s', hs', hshift⟩ := spanOf_moved h.node.label hspan
    have hcount : t'.allDecorators.length = t.allDecorators.length :=
      (List.rel_append h.hoisted (decorators_reparsed h.node hk)).length_eq.symm
    refine ⟨_, .classDecl (by rwa [isClass, hkind]) ((nameOf_reparsed h.node hclass).trans hname) hs',
      ?_⟩
    rw [hcount]
    exact .classDecl hshift (reloweredAll_iff.2 (List.forall₂_take _ hxs))
      (reloweredAll_iff.2 (List.forall₂_drop _ hxs))
  | object hobject => exact absurd hobject hk
  | array harray hspan =>
    obtain ⟨s', hs', hshift⟩ := spanOf_moved h.node.label hspan
    exact ⟨_, .array (hkind.trans harray) hs', .array hshift hall⟩
  | string hstring hstrung =>
    obtain ⟨m', hm', hrel⟩ := strung_reparsed h.node hstring hstrung
    exact ⟨m', .string (by rwa [isString, hkind]) hm', hrel⟩
  | decorator hdecorator hcallee hspan =>
    obtain ⟨s', hs', hshift⟩ := spanOf_moved h.node.label hspan
    exact ⟨_, .decorator (by rwa [isDecorator, hkind]) ((calleeOf_reparsed h.node hk).trans hcallee)
      hs', .decorator hshift hall⟩
  | other hplain hspan =>
    obtain ⟨s', hs', hshift⟩ := spanOf_moved h.node.label hspan
    refine ⟨_, .other ((isPlain_reparsed h.node).trans hplain) hs', ?_⟩
    rw [hkind]
    exact .other hshift hall

/-! ## References -/

theorem value_reference (hquote : R.settings.quote = "'" ∨ R.settings.quote = "\"")
    {f : PlannedFile} {t : Task} (h : R.IsReference f t.node) :
    ∃ x, value R.text t = .ok x ∧ x.isLiteral = true := by
  have hstring : isString t.node = true := by simp [isString, h.kind]
  obtain ⟨body, text, hbody, hcooked, -⟩ := Literal.read_quoted hquote h.reads
  have hspan : spanOf t.node = .ok ⟨t.node.start, t.node.stop, Int.ofNat_le.2 h.ordered⟩ := by
    rw [spanOf, Span.ofEnds_of_le (Int.ofNat_le.2 h.ordered)]
    rfl
  have hcooks : t.node.Cooks R.text text := ⟨body, hbody, by rw [h.kind]; exact hcooked⟩
  have hstrung := Strung.literal (by simp [Cst.isLiteral, h.kind]) hcooks hspan
  refine ⟨_, value_eq_ok.2 ⟨[], ?_, assemble_eq_ok.2 (.string hstring hstrung)⟩, rfl⟩
  rw [Task.inputs_of_string hstring]
  exact .nil

/-- **The value of a reference is lowered to strings.** -/
theorem value_refers (hquote : R.settings.quote = "'" ∨ R.settings.quote = "\"") {c : Concern}
    {t : Task} (h : R.Refers c t.node) : ∃ x, value R.text t = .ok x ∧ x.isInert = true := by
  generalize hn : t.node = n at h
  cases h with
  | template _ hf =>
    subst hn
    obtain ⟨x, hx, hl⟩ := value_reference hquote hf
    refine ⟨x, hx, ?_⟩
    cases x <;> first | rfl | cases hl
  | styles hkind hordered hfiles =>
    subst hn
    obtain ⟨xs, hxs, hliterals⟩ : ∃ xs, List.Forall₂ (fun s x => value R.text s = .ok x)
        (t.node.significant.map (Task.under t.node)) xs ∧ xs.all Node.isLiteral = true := by
      generalize t.node.significant = cs, targets R.settings R.path R.block .styles = fs at hfiles
      induction hfiles with
      | nil => exact ⟨[], .nil, rfl⟩
      | cons hf _ ih =>
        obtain ⟨xs, hxs, hall⟩ := ih
        obtain ⟨x, hx, hl⟩ := @value_reference R hquote _ (Task.under t.node _) hf
        exact ⟨x :: xs, .cons hx hxs, by rw [List.all_cons, hl, hall]; rfl⟩
    refine ⟨.array xs ⟨t.node.start, t.node.stop, Int.ofNat_le.2 hordered⟩,
      value_eq_ok.2 ⟨xs, by rwa [Task.inputs_of_array hkind], ?_⟩, hliterals⟩
    refine assemble_eq_ok.2 (.array hkind ?_)
    rw [spanOf, Span.ofEnds_of_le (Int.ofNat_le.2 hordered)]
    rfl

/-! ## Objects -/

theorem isProperty_of_value {source : Bytes} {t : Task} {m : Node} (h : value source t = .ok m) :
    m.isProperty = false := by
  obtain ⟨xs, -, h⟩ := value_eq_ok.1 h
  cases assemble_eq_ok.1 h with
  | string _ hm => exact hm.isProperty
  | classDecl | object | array | decorator | other => rfl

theorem entryInputs_reparsed {n n' c c' : Cst} (hn : R.Reparsed n n') (hc : R.Reparsed c c') :
    List.Forall₂ R.TaskReparsed (Task.entryInputs n c) (Task.entryInputs n' c') := by
  have hnamed : c'.named = c.named := hc.label.named
  unfold Task.entryInputs Task.entryInput
  rw [hnamed, hc.isTrivia, hc.kind]
  split
  · split
    · rename_i hpair
      have hv := hc.child? (.inl (by rw [hpair]; decide)) "value"
      generalize c.child? "value" = v, c'.child? "value" = v' at hv
      cases hv with
      | none => exact .nil
      | some hv => exact .cons (under_reparsed hc hv) .nil
    · exact .cons (under_reparsed hn hc) .nil
  · exact .nil

theorem assembleEntry_reparsed {c c' : Cst} (hc : R.Reparsed c c') {xs xs' : List Node}
    (hxs : List.Forall₂ R.Relowered xs xs') {last : Nat} {p : Node}
    (h : assembleEntry R.source last c xs.head? = .ok p) :
    ∃ p', assembleEntry R.text (R.move last) c' xs'.head? = .ok p' ∧ R.Relowered p p' := by
  unfold assembleEntry at h ⊢
  rw [hc.kind]
  split at h
  · rename_i hpair
    obtain ⟨key, hkey, h⟩ := bind_eq_ok.1 h
    obtain ⟨s, hs, h⟩ := bind_eq_ok.1 h
    obtain ⟨s', hs', hshift⟩ := spanOf_moved hc.label hs
    obtain rfl := pure_eq_ok.1 h
    have hv := hc.child? (.inl (by rw [hpair]; decide)) "value"
    have hsome : (c'.child? "value").isSome = (c.child? "value").isSome := by
      generalize c.child? "value" = v, c'.child? "value" = v' at hv
      cases hv <;> rfl
    rw [if_pos hpair, keyOf_reparsed hc hpair, hkey, hs', hsome]
    refine ⟨_, rfl, ?_⟩
    split
    · cases hxs with
      | nil => exact .bare hshift
      | cons hx _ => exact .property hshift hx
    · exact .bare hshift
  · rename_i hpair
    rw [if_neg hpair]
    cases hxs with
    | nil => cases h
    | cons hx _ =>
      obtain rfl := Except.ok.inj h
      exact ⟨_, rfl, hx⟩

/-- An entry has the key of a concern only if its pair has. -/
theorem key?_assembleEntry {c : Cst} (hc : c.isEntry = true) {x : Option Node}
    (hx : ∀ y, x = some y → y.isProperty = false) {last : Nat} {p : Node}
    (h : assembleEntry R.source last c x = .ok p) {d : Concern} (hd : ¬ R.Holds d c) :
    p.key? ≠ some d.name := by
  simp only [isEntry, Bool.and_eq_true] at hc
  unfold assembleEntry at h
  split at h
  · rename_i hpair
    obtain ⟨key, hkey, h⟩ := bind_eq_ok.1 h
    obtain ⟨s, -, h⟩ := bind_eq_ok.1 h
    obtain rfl := pure_eq_ok.1 h
    rintro rfl
    exact hd ⟨hpair, hc.1.1, hkey⟩
  · cases x with
    | none => cases h
    | some y =>
      obtain rfl := Except.ok.inj h
      rw [Node.key?_eq_none (hx y rfl)]
      simp

variable (R) in
/-- A task of the old tree comes to the nodes that correspond to those of the new one. -/
def Carries (s : Task) : Prop :=
  ∀ s', R.TaskReparsed s s' → ∀ x, value R.source s = .ok x →
    ∃ x', value R.text s' = .ok x' ∧ R.Relowered x x'

theorem values_reparsed {ss ss' : List Task} (h : List.Forall₂ R.TaskReparsed ss ss')
    (hcarries : ∀ s ∈ ss, R.Carries s) {xs : List Node}
    (hxs : List.Forall₂ (fun s x => value R.source s = .ok x) ss xs) :
    ∃ xs', List.Forall₂ (fun s x => value R.text s = .ok x) ss' xs' ∧
      List.Forall₂ R.Relowered xs xs' := by
  induction h generalizing xs with
  | nil => cases hxs; exact ⟨[], .nil, .nil⟩
  | cons hs _ ih =>
    cases hxs with
    | cons hx hrest =>
      obtain ⟨x', hx', hrel⟩ := hcarries _ List.mem_cons_self _ hs _ hx
      obtain ⟨xs', hxs', hrels⟩ := ih (fun s hs => hcarries s (List.mem_cons_of_mem _ hs)) hrest
      exact ⟨x' :: xs', .cons hx' hxs', .cons hrel hrels⟩

/-- The pairs that are swapped have values made of strings. -/
def InertIn (todo : List Concern) (ps : List Node) : Prop :=
  ∀ d ∈ todo, ∀ p, ps.findSome? (Block.Property.ofNode? d.name) = some p →
    ∃ v, p.value = some v ∧ v.isInert = true

theorem ofNode?_of_key? {q : Node} {name : String} (h : q.key? ≠ some name) :
    Block.Property.ofNode? name q = none := by
  unfold Block.Property.ofNode?
  split
  · rename_i key value span fullStart
    exact if_neg fun hkey => h (congrArg some hkey)
  · rfl

theorem InertIn.tail {todo : List Concern} {q : Node} {ps : List Node} (h : InertIn todo (q :: ps))
    (hno : ∀ d ∈ todo, q.key? ≠ some d.name) : InertIn todo ps := by
  intro d hd p hp
  refine h d hd p ?_
  rw [List.findSome?_cons, ofNode?_of_key? (hno d hd), hp]

theorem name_injective {c d : Concern} (h : c.name = d.name) : c = d := by
  cases c <;> cases d <;> first | rfl | exact absurd h (by decide)

/-- A swapped pair: its key, and a value made of strings. -/
theorem assembleEntry_holds {c : Cst} {d : Concern} (hc : R.Holds d c) {x : Option Node} {last : Nat}
    {p : Node} (h : assembleEntry R.source last c x = .ok p) :
    ∃ v s, p = .property (some d.name) v s last ∧ spanOf c = .ok s := by
  obtain ⟨hpair, -, hkey⟩ := hc
  unfold assembleEntry at h
  rw [if_pos hpair, hkey] at h
  obtain ⟨key, hsame, h⟩ := bind_eq_ok.1 h
  obtain rfl := Except.ok.inj hsame
  obtain ⟨s, hs, h⟩ := bind_eq_ok.1 h
  exact ⟨_, s, (pure_eq_ok.1 h).symm, hs⟩

theorem isEntry_of_pair {c : Cst} (hpair : c.kind = "pair") (hnamed : c.named = true) :
    c.isEntry = true := by
  simp [isEntry, isTrivia, hpair, hnamed]

/-- The pair of a reference is an entry with the reference key and a value made of strings. -/
theorem assembleChild_replaces (hquote : R.settings.quote = "'" ∨ R.settings.quote = "\"") {n : Cst}
    {d : Concern} {c c' : Cst} (hholds : R.Holds d c) (h : R.Replaces d c c') {last : Nat} {s : Span}
    (hs : spanOf c = .ok s) : ∃ xs' v' s', v'.isInert = true ∧ R.Shifts s s' ∧
      List.Forall₂ (fun s x => value R.text s = .ok x) (Task.entryInputs n c') xs' ∧
      assembleChild R.text last c' xs' = .ok [.property (some d.referenceKey) (some v') s' last] := by
  have hpair : c'.kind = "pair" := h.label.kind.trans hholds.1
  have hnamed : c'.named = true := h.label.named.trans hholds.2.1
  have hentry := isEntry_of_pair hpair hnamed
  have htrivia : c'.isTrivia = false := by simp [isTrivia, hpair]
  obtain ⟨k, hk, hkind, hreads⟩ := h.key
  obtain ⟨v, hv, hrefers⟩ := h.value
  obtain ⟨x, hx, hinert⟩ := @value_refers R hquote _ (Task.under c' v) hrefers
  obtain ⟨s', hs', hshift⟩ := spanOf_moved h.label hs
  refine ⟨[x], x, s', hinert, hshift, ?_, ?_⟩
  · rw [Task.entryInputs, if_pos (by simp [hnamed, htrivia]), Task.entryInput, if_pos hpair, hv]
    exact .cons hx .nil
  · have hkey : keyOf R.text c' = .ok (some d.referenceKey) := by
      rw [keyOf, hk]
      dsimp only
      rw [if_pos hkind, textOf, hreads, Utf8.decode_ofString]
      rfl
    unfold assembleChild assembleEntry
    rw [if_pos hentry, if_pos hpair, hkey, hs', hv]
    rfl

theorem lastAfter_moved {c c' : Cst} (h : c.label.Moved R.move c'.label) (last : Nat) :
    lastAfter (R.move last) c' = R.move (lastAfter last c) := by
  have htrivia : c'.isTrivia = c.isTrivia := by rw [isTrivia, isTrivia, kind, h.kind, kind]
  have hstop : c'.stop = R.move c.stop := h.stop
  unfold lastAfter
  rw [htrivia, hstop]
  split <;> rfl

theorem commasOf_moved {c c' : Cst} (h : c.label.Moved R.move c'.label) :
    commasOf c' = (commasOf c).map R.move := by
  have hkind : c'.kind = c.kind := h.kind
  have htrivia : c'.isTrivia = c.isTrivia := by rw [isTrivia, isTrivia, hkind]
  have hstart : c'.start = R.move c.start := h.start
  unfold commasOf
  rw [htrivia, hkind, hstart]
  split <;> rfl

theorem assembleEntries_cons {source : Bytes} {n c : Cst} {cs : List Cst} {last : Nat}
    {ys xs here ps : List Node} {seps : List Nat}
    (hys : ys.length = (Task.entryInputs n c).length)
    (hhere : assembleChild source last c ys = .ok here)
    (hrest : assembleEntries source n (lastAfter last c) cs xs = .ok (ps, seps)) :
    assembleEntries source n last (c :: cs) (ys ++ xs) = .ok (here ++ ps, commasOf c ++ seps) := by
  rw [assembleEntries, ← hys, List.take_left, List.drop_left, hhere, hrest]
  rfl

/-- A child that is kept gives nothing again, or the entry that corresponds. -/
theorem assembleChild_reparsed {c c' : Cst} (hc : R.Reparsed c c') {xs xs' : List Node}
    (hxs : List.Forall₂ R.Relowered xs xs') (hplain : ∀ x ∈ xs, x.isProperty = false) {last : Nat}
    {here : List Node} (h : assembleChild R.source last c xs = .ok here) {todo : List Concern}
    (hno : ∀ d ∈ todo, ¬ R.Holds d c) {ps : List Node} (hinert : InertIn todo (here ++ ps)) :
    InertIn todo ps ∧ ∃ here', assembleChild R.text (R.move last) c' xs' = .ok here' ∧
      ∀ {ps'}, R.ReloweredAll todo ps ps' → R.ReloweredAll todo (here ++ ps) (here' ++ ps') := by
  have hnamed : c'.named = c.named := hc.label.named
  have hentry : c'.isEntry = c.isEntry := by
    rw [isEntry, isEntry, hnamed, hc.isTrivia, hc.kind]
  unfold assembleChild at h ⊢
  rw [hentry]
  split at h
  · rename_i hyes
    obtain ⟨p, hp, rfl⟩ := map_eq_ok.1 h
    obtain ⟨p', hp', hrel⟩ := assembleEntry_reparsed hc hxs hp
    have hkey : ∀ d ∈ todo, p.key? ≠ some d.name := fun d hd =>
      key?_assembleEntry hyes (fun y hy => hplain y (List.mem_of_mem_head? hy)) hp (hno d hd)
    refine ⟨hinert.tail hkey, [p'], ?_, fun hps => .kept hkey hrel hps⟩
    rw [if_pos hyes, hp']
    rfl
  · rename_i hnot
    obtain rfl := Except.ok.inj h
    exact ⟨hinert, [], if_neg hnot, fun hps => hps⟩

/-- **The entries of an object** are assembled as before, the swapped pairs apart. -/
theorem assembleEntries_reparsed (hquote : R.settings.quote = "'" ∨ R.settings.quote = "\"")
    {n n' : Cst} (hn : R.Reparsed n n') {todo : List Concern} {cs cs' : List Cst}
    (h : R.ReparsedAll todo cs cs') (hcarries : ∀ s ∈ cs.flatMap (Task.entryInputs n), R.Carries s)
    {last : Nat} {xs ps : List Node} {seps : List Nat}
    (hxs : List.Forall₂ (fun s x => value R.source s = .ok x) (cs.flatMap (Task.entryInputs n)) xs)
    (hps : assembleEntries R.source n last cs xs = .ok (ps, seps)) (hinert : InertIn todo ps) :
    ∃ xs' ps',
      List.Forall₂ (fun s x => value R.text s = .ok x) (cs'.flatMap (Task.entryInputs n')) xs' ∧
      assembleEntries R.text n' (R.move last) cs' xs' = .ok (ps', seps.map R.move) ∧
      R.ReloweredAll todo ps ps' := by
  induction cs generalizing todo cs' last xs ps seps with
  | nil =>
    cases h
    obtain ⟨rfl, rfl⟩ := Prod.mk.inj (Except.ok.inj hps)
    exact ⟨[], [], .nil, rfl, .nil⟩
  | cons c cs ih =>
    rw [List.flatMap_cons] at hxs hcarries
    obtain ⟨hmine, hothers⟩ := forall₂_append_left hxs
    have hlater : ∀ s ∈ cs.flatMap (Task.entryInputs n), R.Carries s := fun s hs =>
      hcarries s (List.mem_append_right _ hs)
    rw [assembleEntries] at hps
    obtain ⟨here, hhere, hps⟩ := bind_eq_ok.1 hps
    obtain ⟨⟨rest, commas⟩, hrest, hps⟩ := bind_eq_ok.1 hps
    obtain ⟨rfl, rfl⟩ := Prod.mk.inj (pure_eq_ok.1 hps)
    rw [List.map_append]
    cases h with
    | @kept _ _ c' _ cs' hno hc hall =>
      obtain ⟨ys', hys', hrel⟩ := values_reparsed (entryInputs_reparsed hn hc)
        (fun s hs => hcarries s (List.mem_append_left _ hs)) hmine
      have hplain : ∀ x ∈ xs.take (Task.entryInputs n c).length, x.isProperty = false := by
        intro x hx
        obtain ⟨s, -, hs⟩ := exists_left_of_forall₂ hmine hx
        exact isProperty_of_value hs
      obtain ⟨hinert', here', hhere', hjoin⟩ := assembleChild_reparsed hc hrel hplain hhere hno hinert
      obtain ⟨xs', ps', hxs', hps', hrels⟩ := ih hall hlater hothers hrest hinert'
      refine ⟨ys' ++ xs', here' ++ ps', List.rel_append hys' hxs', ?_, hjoin hrels⟩
      rw [← lastAfter_moved hc.label] at hps'
      rw [← commasOf_moved hc.label]
      exact assembleEntries_cons hys'.length_eq.symm hhere' hps'
    | @swapped _ d _ c' _ cs' hd hholds hc hall =>
      rw [assembleChild, if_pos (isEntry_of_pair hholds.1 hholds.2.1)] at hhere
      obtain ⟨p, hp, rfl⟩ := map_eq_ok.1 hhere
      obtain ⟨v, s, rfl, hs⟩ := assembleEntry_holds hholds hp
      obtain ⟨w, hv, hw⟩ := hinert d hd ⟨d.name, v, s, last⟩
        (by simp [Block.Property.ofNode?])
      obtain rfl : v = some w := hv
      -- the later pairs with the key are not swapped, and the other concerns are still to come
      have hinert' : InertIn (todo.filter (· ≠ d)) rest := by
        intro k hk q hq
        obtain ⟨hk, hne⟩ := List.mem_filter.1 hk
        refine hinert k hk q ?_
        have hname : (Node.property (some d.name) (some w) s last).key? ≠ some k.name := fun heq =>
          (of_decide_eq_true hne) (name_injective (Option.some.inj heq)).symm
        rw [List.singleton_append, List.findSome?_cons, ofNode?_of_key? hname, hq]
      obtain ⟨xs', ps', hxs', hps', hrels⟩ := ih hall hlater hothers hrest hinert'
      obtain ⟨ys', v', s', hv', hshift, hys', hhere'⟩ := @assembleChild_replaces R hquote n' d c c'
        hholds hc (R.move last) s hs
      refine ⟨ys' ++ xs', _ :: ps', List.rel_append hys' hxs', ?_, .swapped hd hshift hw hv' hrels⟩
      rw [← lastAfter_moved hc.label] at hps'
      rw [← commasOf_moved hc.label]
      exact assembleEntries_cons hys'.length_eq.symm hhere' hps'

theorem value_hoisted {source : Bytes} {t : Task} (h : t.node.kind = "object") :
    value source t = value source ⟨[], t.node⟩ := by
  have hclass : isClass t.node = false := by simp [isClass, h]
  rw [value_eq, value_eq]
  simp only [Task.inputs, assemble, hclass]
  rfl

/-- **The two lowerings, task by task.** Where the pairs that were swapped have values made of
strings, what a task of the old tree comes to corresponds to what it comes to in the new one. -/
theorem value_reparsed (hquote : R.settings.quote = "'" ∨ R.settings.quote = "\"")
    (hinert : InertIn R.concerns R.block.properties) (t : Task) : R.Carries t := by
  induction hk : t.reach using Nat.strongRecOn generalizing t with
  | ind k ih =>
    subst hk
    have hcarries : ∀ s ∈ t.inputs, R.Carries s := fun s hs => ih s.reach (Task.reach_inputs hs) s rfl
    intro t' h m hm
    obtain ⟨xs, hxs, hm'⟩ := value_eq_ok.1 hm
    by_cases hobject : t.node.kind = "object"
    · have hobject' : t'.node.kind = "object" := h.node.kind.trans hobject
      rw [Task.inputs_of_object hobject] at hxs hcarries
      obtain ⟨ps, seps, s, rfl, hps, hs⟩ := (assemble_eq_ok.1 hm').object_of_kind hobject
      rw [value_hoisted hobject] at hm
      have hreparsed := h.node
      cases hreparsed with
      | @node _ _ todo hlabel _ _ _ hdue hchildren =>
        have hblock : R.Due (.object ps seps s = R.block.toNode) todo := by
          cases hdue with
          | here hb => exact .here (Except.ok.inj (hm.symm.trans hb.2))
          | elsewhere hb => exact .elsewhere fun heq => hb ⟨hobject, heq ▸ hm⟩
        have hinert' : InertIn todo ps := by
          cases hblock with
          | here heq =>
            obtain ⟨rfl, -, -⟩ := Node.object.inj heq
            exact hinert
          | elsewhere => simp [InertIn]
        obtain ⟨xs', ps', hxs', hps', hrel⟩ := assembleEntries_reparsed hquote h.node hchildren
          hcarries hxs hps hinert'
        obtain ⟨s', hs', hshift⟩ := spanOf_moved hlabel hs
        have hstart : t'.node.start = R.move t.node.start := hlabel.start
        exact ⟨_, value_eq_ok.2 ⟨xs', by rwa [Task.inputs_of_object hobject'],
          assemble_eq_ok.2 (.object hobject' (by rw [hstart]; exact hps') hs')⟩,
          .object hshift hblock hrel⟩
    · obtain ⟨xs', hxs', hrel⟩ := values_reparsed (inputs_reparsed h hobject) hcarries hxs
      obtain ⟨m', hm', hrel'⟩ := assemble_reparsed h hobject hrel hm'
      exact ⟨m', value_eq_ok.2 ⟨xs', hxs', hm'⟩, hrel'⟩

/-! ## The block found again -/

open Node Block

theorem ofDecorator?_relowered (name : String) {d d' : Node} (h : R.Relowered d d') :
    Option.Rel (fun b b' : Block => R.Relowered b.toNode b'.toNode) (ofDecorator? name d)
      (ofDecorator? name d') := by
  cases h with
  | @decorator callee as as' s s' _ has =>
    rw [reloweredAll_iff] at has
    cases callee with
    | none => exact .none
    | some callee =>
      cases has with
      | nil => exact .none
      | cons hx hrest =>
        cases hrest with
        | nil =>
          cases hx with
          | object hspan hdue hps =>
            unfold ofDecorator?
            dsimp only
            split
            · exact .some (.object hspan hdue hps)
            · exact .none
          | _ => exact .none
        | cons => cases hx <;> exact .none
  | _ => exact .none

theorem ofClass?_relowered (name : String) {n n' : Node} (h : R.Relowered n n') :
    Option.Rel (fun b b' : Block => R.Relowered b.toNode b'.toNode) (ofClass? name n)
      (ofClass? name n') := by
  cases h with
  | classDecl _ hds _ =>
    rw [reloweredAll_iff] at hds
    unfold ofClass?
    dsimp only
    induction hds with
    | nil => exact .none
    | @cons d d' _ _ hd _ ih =>
      rw [List.findSome?_cons, List.findSome?_cons]
      have hb := ofDecorator?_relowered name hd
      generalize ofDecorator? name d = b, ofDecorator? name d' = b' at hb
      cases hb with
      | none => exact ih
      | some hb => exact .some hb
  | _ => exact .none

/-- A node that is no component is left for its parts. -/
theorem firstIn_step {name : String} {n : Node} (h : ofClass? name n = none)
    (rest : List (Option Node)) :
    firstIn name (walkStack (some n :: rest)) = firstIn name (walkStack (n.parts ++ rest)) := by
  rw [walkStack, firstIn, h]

theorem firstIn_literals (name : String) {es : List Node} (h : es.all Node.isLiteral = true)
    (rest : List (Option Node)) :
    firstIn name (walkStack (es.map some ++ rest)) = firstIn name (walkStack rest) := by
  induction es with
  | nil => rfl
  | cons e es ih =>
    rw [List.all_cons, Bool.and_eq_true] at h
    cases e with
    | literal =>
      rw [List.map_cons, List.cons_append, firstIn_step rfl]
      exact ih h.2
    | _ => exact absurd h.1 (by simp [Node.isLiteral])

/-- Nothing is found in what is made of strings. -/
theorem firstIn_inert (name : String) {key : Option String} {v : Node} {s : Span} {fullStart : Nat}
    (h : v.isInert = true) (rest : List (Option Node)) :
    firstIn name (walkStack (some (.property key (some v) s fullStart) :: rest))
      = firstIn name (walkStack rest) := by
  rw [firstIn_step rfl, parts, List.singleton_append]
  cases v with
  | literal => rw [firstIn_step rfl]; rfl
  | array es =>
    rw [firstIn_step rfl, parts]
    exact firstIn_literals name h rest
  | _ => exact absurd h (by simp [isInert])

/-- What corresponds on the stacks of the two walks. -/
inductive OnStack (R : Revision) : Option Node → Option Node → Prop
  | absent : OnStack R none none
  | kept {n n'} (h : R.Relowered n n') : OnStack R (some n) (some n')
  | swapped {key key' v v' s s' i i'} (hv : v.isInert = true) (hv' : v'.isInert = true) :
      OnStack R (some (.property key (some v) s i)) (some (.property key' (some v') s' i'))

theorem ReloweredAll.onStack {todo : List Concern} {ps ps' : List Node}
    (h : R.ReloweredAll todo ps ps') : List.Forall₂ (OnStack R) (ps.map some) (ps'.map some) := by
  induction ps generalizing todo ps' with
  | nil => cases h; exact .nil
  | cons q ps ih =>
    cases h with
    | kept _ hq hrest => exact .cons (.kept hq) (ih hrest)
    | swapped _ _ hv hv' hrest => exact .cons (.swapped hv hv') (ih hrest)

theorem Relowered.parts {n n' : Node} (h : R.Relowered n n') :
    List.Forall₂ (OnStack R) n.parts n'.parts := by
  cases h with
  | literal => exact .nil
  | array _ hes => exact hes.onStack
  | property _ hv => exact .cons (.kept hv) .nil
  | bare => exact .cons .absent .nil
  | object _ _ hps => exact hps.onStack
  | decorator _ has => exact has.onStack
  | other _ hns => exact hns.onStack
  | classDecl _ hds hms =>
    rw [Node.parts, Node.parts, List.map_append, List.map_append]
    exact List.rel_append hds.onStack hms.onStack

/-- The two walks meet what corresponds, so the block found in the one is found in the other. -/
theorem firstIn_relowered {name : String} {st st' : List (Option Node)}
    (h : List.Forall₂ (OnStack R) st st') {b : Block}
    (hb : firstIn name (walkStack st) = .ok (some b)) :
    ∃ b', firstIn name (walkStack st') = .ok (some b') ∧ R.Relowered b.toNode b'.toNode := by
  induction hk : stackSize st using Nat.strongRecOn generalizing st st' with
  | ind k ih =>
    subst hk
    cases h with
    | nil => rw [walkStack, firstIn] at hb; simp at hb
    | @cons _ _ rest rest' hn hrest =>
      cases hn with
      | absent => rw [walkStack, firstIn] at hb; simp at hb
      | @kept n n' hn =>
        have hclass := ofClass?_relowered name hn
        cases hc : ofClass? name n with
        | none =>
          rw [hc] at hclass
          generalize hc' : ofClass? name n' = c' at hclass
          cases hclass
          rw [firstIn_step hc] at hb
          rw [firstIn_step hc']
          refine ih _ ?_ (List.rel_append hn.parts hrest) hb rfl
          rw [stackSize_append, stackSize, sizeOpt, size_eq_succ_parts n]
          omega
        | some b₀ =>
          rw [hc] at hclass
          generalize hc' : ofClass? name n' = c' at hclass
          cases hclass with
          | some hb₀ =>
            rw [walkStack, firstIn, hc] at hb
            obtain rfl := Option.some.inj (Except.ok.inj hb)
            rw [walkStack, firstIn, hc']
            exact ⟨_, rfl, hb₀⟩
      | swapped hv hv' =>
        rw [firstIn_inert name hv] at hb
        rw [firstIn_inert name hv']
        refine ih _ ?_ hrest hb rfl
        rw [stackSize, sizeOpt, size_eq_succ_parts]
        omega

variable (R) in
/-- The block is the old one with its pairs swapped and its commas and ends moved. -/
structure SameBlock (b' : Block) : Prop where
  properties : R.ReloweredAll R.concerns R.block.properties b'.properties
  separators : b'.separators = R.block.separators.map R.move
  span : R.Shifts R.block.span b'.span

theorem ReloweredAll.length_eq {todo : List Concern} {ps ps' : List Node}
    (h : R.ReloweredAll todo ps ps') : ps'.length = ps.length := by
  induction ps generalizing todo ps' with
  | nil => cases h; rfl
  | cons q ps ih =>
    cases h with
    | kept _ _ hrest => rw [List.length_cons, List.length_cons, ih hrest]
    | swapped _ _ _ _ hrest => rw [List.length_cons, List.length_cons, ih hrest]

/-- **The block of the old file is found again in the new one.** -/
theorem find?_relowered {name : String} {m m' : Node} (h : R.Relowered m m')
    (hb : find? name m = .ok (some R.block)) :
    ∃ b', R.SameBlock b' ∧ find? name m' = .ok (some b') := by
  obtain ⟨b', hb', hrel⟩ := firstIn_relowered (.cons (.kept h) .nil) hb
  obtain ⟨ps', seps', s'⟩ := b'
  unfold toNode at hrel
  cases hrel with
  | object hspan hdue hps =>
    cases hdue with
    | here => exact ⟨_, ⟨hps, rfl, hspan⟩, hb'⟩
    | elsewhere hno => exact absurd rfl hno

end Revision

end AssetLift
