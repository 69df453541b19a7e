import AssetLift.Proofs.Structure
import AssetLift.Proofs.Unit

/-!
# The tree of a rewritten file

A commit swaps pairs of a block for references. The grammar is taken to give for the new bytes the
tree it gave for the old ones, with the pairs swapped for the pairs of the references and the offsets
moved (`Revision.Reparsed`).

* `Reparsed.hasError`: the new tree has no fault either.
* `textOf_reparsed`, `keyOf_reparsed`, `calleeOf_reparsed`: names read the same.
* `inputs_reparsed`: the tasks of the new tree are those of the old one.
-/

namespace AssetLift

/-- Labels with the same kind and marks, the range of the second moved. Numbers are free. -/
structure Cst.Label.Moved (move : Nat → Nat) (l l' : Label) : Prop where
  kind : l'.kind = l.kind
  start : l'.start = move l.start
  stop : l'.stop = move l.stop
  field : l'.field = l.field
  named : l'.named = l.named
  missing : l'.missing = l.missing
  marked : l'.marked = l.marked

instance (move : Nat → Nat) (l l' : Cst.Label) : Decidable (l.Moved move l') :=
  decidable_of_iff
    (l'.kind = l.kind ∧ l'.start = move l.start ∧ l'.stop = move l.stop ∧ l'.field = l.field ∧
      l'.named = l.named ∧ l'.missing = l.missing ∧ l'.marked = l.marked)
    ⟨fun ⟨h₁, h₂, h₃, h₄, h₅, h₆, h₇⟩ => ⟨h₁, h₂, h₃, h₄, h₅, h₆, h₇⟩,
      fun ⟨h₁, h₂, h₃, h₄, h₅, h₆, h₇⟩ => ⟨h₁, h₂, h₃, h₄, h₅, h₆, h₇⟩⟩

/-- Whether the bytes of a node are read when a tree is lowered. -/
def Cst.isText (n : Cst) : Bool :=
  n.kind ∈ ["identifier", "property_identifier", "string", "template_string"]

/-- A file that a commit has rewritten: the bytes before, the block, and the concerns moved. -/
structure Revision where
  settings : Settings
  path : Path
  source : Bytes
  block : Block
  concerns : List Concern

namespace Revision

open Cst Lowering Migration

variable (R : Revision)

/-- The bytes after the commit. -/
def text : Bytes := rewritten R.settings R.path R.block R.concerns R.source

/-- Where an offset has moved to. -/
def move : Nat → Nat :=
  Swap.moved (Splice.swaps R.block (R.concerns.map (replacement R.settings R.path R.block))) R.source

theorem move_mono {i j : Nat} (h : i ≤ j) : R.move i ≤ R.move j := Swap.moved_mono _ _ h

/-! ## Concrete trees -/

/-- The literal that refers to a file. -/
structure IsReference (f : PlannedFile) (n : Cst) : Prop where
  kind : n.kind = "string"
  reads : Utf8.encode (Target.literal R.settings f) = .ok (n.bytes R.text)
  ordered : n.start ≤ n.stop

/-- What the reference of a concern has for its value: a string, or an array of strings. -/
inductive Refers : Concern → Cst → Prop
  | template {f n} (hfile : (targets R.settings R.path R.block .template).head? = some f)
      (h : R.IsReference f n) : Refers .template n
  | styles {n} (hkind : n.kind = "array") (hordered : n.start ≤ n.stop)
      (h : List.Forall₂ R.IsReference (targets R.settings R.path R.block .styles) n.significant) :
      Refers .styles n

/-- The second pair is that of the reference that stands for the first. -/
structure Replaces (c : Concern) (p p' : Cst) : Prop where
  label : p.label.Moved R.move p'.label
  sane : p'.hasError = false
  key : ∃ k, p'.child? "key" = some k ∧ k.kind = "property_identifier" ∧
    k.bytes R.text = Bytes.ofString c.referenceKey
  value : ∃ v, p'.child? "value" = some v ∧ R.Refers c v

/-- The pair has the key of a concern. -/
def Holds (c : Concern) (p : Cst) : Prop :=
  p.kind = "pair" ∧ p.named = true ∧ keyOf R.source p = .ok (some c.name)

/-- The object is lowered to the block. -/
def IsBlock (n : Cst) : Prop :=
  n.kind = "object" ∧ value R.source ⟨[], n⟩ = .ok R.block.toNode

/-- The concerns whose pairs are swapped in a node: none but in the block. -/
inductive Due (this : Prop) : List Concern → Prop
  | here (h : this) : Due this R.concerns
  | elsewhere (h : ¬ this) : Due this []

mutual

/-- The second tree is the first with the pairs swapped and the offsets moved. The block plays no
role in its parent, and what is read reads the same. -/
inductive Reparsed : Cst → Cst → Prop
  | node {n n' todo} (hlabel : n.label.Moved R.move n'.label)
      (htext : n.isText = true → n'.bytes R.text = n.bytes R.source)
      (hname : isClass n = true →
        textOf? R.text (n'.child? "name") = textOf? R.source (n.child? "name"))
      (hrole : R.IsBlock n → n.label.field = none) (hdue : R.Due (R.IsBlock n) todo)
      (hchildren : ReparsedAll todo n.children n'.children) : Reparsed n n'

/-- The same for lists of trees, of which the first pair with the key of each concern in `todo` is
swapped. -/
inductive ReparsedAll : List Concern → List Cst → List Cst → Prop
  | nil {todo} : ReparsedAll todo [] []
  | kept {todo c c' cs cs'} (hno : ∀ d ∈ todo, ¬ R.Holds d c) (hc : Reparsed c c')
      (hrest : ReparsedAll todo cs cs') : ReparsedAll todo (c :: cs) (c' :: cs')
  | swapped {todo d c c' cs cs'} (hd : d ∈ todo) (hholds : R.Holds d c) (hc : R.Replaces d c c')
      (hrest : ReparsedAll (todo.filter (· ≠ d)) cs cs') : ReparsedAll todo (c :: cs) (c' :: cs')

end

variable {R}

theorem ReparsedAll.forall₂ {cs cs' : List Cst} (h : R.ReparsedAll [] cs cs') :
    List.Forall₂ R.Reparsed cs cs' := by
  induction cs generalizing cs' with
  | nil => cases h; exact .nil
  | cons c cs ih =>
    cases h with
    | kept _ hc hrest => exact .cons hc (ih hrest)
    | swapped hd => simp at hd

namespace Reparsed

variable {n n' : Cst} (h : R.Reparsed n n')
include h

theorem label : n.label.Moved R.move n'.label := by
  cases h with
  | node hlabel => exact hlabel

theorem kind : n'.kind = n.kind := h.label.kind

theorem isTrivia : n'.isTrivia = n.isTrivia := by
  rw [Cst.isTrivia, Cst.isTrivia, h.kind]

theorem bytes (htext : n.isText = true) : n'.bytes R.text = n.bytes R.source := by
  cases h with
  | node _ hbytes => exact hbytes htext

/-- Nothing is swapped right below a node that is no object, or that plays a role. -/
theorem children (hplain : n.kind ≠ "object" ∨ n.label.field ≠ none) :
    List.Forall₂ R.Reparsed n.children n'.children := by
  cases h with
  | node _ _ _ hrole hdue hchildren =>
    cases hdue with
    | here hblock =>
      rcases hplain with hkind | hfield
      · exact absurd hblock.1 hkind
      · exact absurd (hrole hblock) hfield
    | elsewhere => exact hchildren.forall₂

theorem significant (hplain : n.kind ≠ "object" ∨ n.label.field ≠ none) :
    List.Forall₂ R.Reparsed n.significant n'.significant := by
  refine List.rel_filter (fun {c c'} hc => ?_) (h.children hplain)
  have hnamed : c'.named = c.named := hc.label.named
  simp only [hnamed, hc.isTrivia]

theorem child? (hplain : n.kind ≠ "object" ∨ n.label.field ≠ none) (role : String) :
    Option.Rel R.Reparsed (n.child? role) (n'.child? role) := by
  have hcs := h.children hplain
  unfold Cst.child?
  generalize n.children = cs, n'.children = cs' at hcs ⊢
  induction hcs with
  | nil => exact .none
  | @cons c c' cs cs' hc _ ih =>
    rw [List.find?_cons, List.find?_cons, hc.label.field]
    cases decide (c.label.field = some role) with
    | true => exact .some hc
    | false => exact ih

end Reparsed

/-! ## Faults -/

theorem ReparsedAll.anyError {todo : List Concern} {cs cs' : List Cst}
    (h : R.ReparsedAll todo cs cs') (ih : ∀ c ∈ cs, ∀ c', R.Reparsed c c' → c.hasError = false →
      c'.hasError = false) (hcs : anyError cs = false) : anyError cs' = false := by
  induction cs generalizing todo cs' with
  | nil => cases h; rfl
  | cons c cs ih' =>
    rw [Cst.anyError, Bool.or_eq_false_iff] at hcs
    cases h with
    | kept _ hc hrest =>
      rw [Cst.anyError, ih c List.mem_cons_self _ hc hcs.1,
        ih' hrest (fun d hd => ih d (List.mem_cons_of_mem _ hd)) hcs.2]
      rfl
    | swapped _ _ hc hrest =>
      rw [Cst.anyError, hc.sane, ih' hrest (fun d hd => ih d (List.mem_cons_of_mem _ hd)) hcs.2]
      rfl

/-- **The new tree has no fault** where the old one has none. -/
theorem Reparsed.hasError {n n' : Cst} (h : R.Reparsed n n') (hn : n.hasError = false) :
    n'.hasError = false := by
  induction hk : n.size using Nat.strongRecOn generalizing n n' with
  | ind k ih =>
    subst hk
    rw [hasError_eq, Bool.or_eq_false_iff] at hn
    cases h with
    | node hlabel _ _ _ _ hchildren =>
      have hcs := hchildren.anyError
        (fun c hc c' hcc' hc₀ => ih c.size (size_lt_of_mem_children hc) hcc' hc₀ rfl) hn.2
      rw [hasError_eq, hlabel.marked, hlabel.missing, Cst.kind, hlabel.kind, hcs, Bool.or_false]
      exact hn.1

/-! ## What is read of a node -/

theorem textOf_reparsed {n n' : Cst} (h : R.Reparsed n n') (htext : n.isText = true) :
    textOf R.text n' = textOf R.source n := by
  rw [textOf, textOf, h.bytes htext]

theorem keyOf_reparsed {p p' : Cst} (h : R.Reparsed p p') (hp : p.kind = "pair") :
    keyOf R.text p' = keyOf R.source p := by
  have hkey := h.child? (.inl (by rw [hp]; decide)) "key"
  unfold keyOf
  generalize p.child? "key" = k, p'.child? "key" = k' at hkey
  cases hkey with
  | none => rfl
  | some hk =>
    dsimp only
    rw [hk.kind]
    split
    · rw [textOf_reparsed hk (by simp [isText, ‹_ = "property_identifier"›])]
    · rfl

theorem nameOf_reparsed {n n' : Cst} (h : R.Reparsed n n') (hn : isClass n = true) :
    textOf? R.text (n'.child? "name") = textOf? R.source (n.child? "name") := by
  cases h with
  | node _ _ hname => exact hname hn

theorem call?_reparsed {n n' : Cst} (h : R.Reparsed n n') (hn : n.kind ≠ "object") :
    Option.Rel R.Reparsed (call? n) (call? n') := by
  have hcs := h.significant (.inl hn)
  unfold call?
  generalize n.significant = cs, n'.significant = cs' at hcs
  cases hcs with
  | nil => exact .none
  | cons hc _ =>
    dsimp only
    rw [hc.kind]
    split
    · exact .some hc
    · exact .none

theorem kind_of_call? {n c : Cst} (h : call? n = some c) : c.kind = "call_expression" := by
  unfold call? at h
  split at h
  · split at h
    · obtain rfl := Option.some.inj h
      assumption
    · simp at h
  · simp at h

theorem calleeOf_reparsed {n n' : Cst} (h : R.Reparsed n n') (hn : n.kind ≠ "object") :
    calleeOf R.text n' = calleeOf R.source n := by
  have hcall := call?_reparsed h hn
  have hkind := @kind_of_call? n
  unfold calleeOf
  generalize call? n = c, call? n' = c' at hcall hkind
  cases hcall with
  | none => rfl
  | @some c c' hc =>
    rw [Option.bind_some, Option.bind_some]
    have hf := hc.child? (.inl (by rw [hkind rfl]; decide)) "function"
    generalize c.child? "function" = f, c'.child? "function" = f' at hf
    cases hf with
    | none => rfl
    | some hf =>
      dsimp only
      rw [hf.kind]
      split
      · rw [textOf_reparsed hf (by simp [isText, ‹_ = "identifier"›])]
      · rfl

theorem argumentList?_reparsed {n n' : Cst} (h : R.Reparsed n n') (hn : n.kind ≠ "object") :
    Option.Rel R.Reparsed (argumentList? n) (argumentList? n') := by
  have hcall := call?_reparsed h hn
  have hkind := @kind_of_call? n
  unfold argumentList?
  generalize call? n = c, call? n' = c' at hcall hkind
  cases hcall with
  | none => exact .none
  | some hc => exact hc.child? (.inl (by rw [hkind rfl]; decide)) "arguments"

/-! ## Tasks -/

variable (R) in
/-- The second task is that of the second tree. -/
structure TaskReparsed (t t' : Task) : Prop where
  node : R.Reparsed t.node t'.node
  hoisted : List.Forall₂ R.Reparsed t.hoisted t'.hoisted

theorem decorators_reparsed {n n' : Cst} (h : R.Reparsed n n') (hn : n.kind ≠ "object") :
    List.Forall₂ R.Reparsed (decorators n) (decorators n') := by
  refine List.rel_filter (fun {c c'} hc => ?_) (h.children (.inl hn))
  simp only [isDecorator, hc.kind]

theorem under_reparsed {p p' c c' : Cst} (hp : R.Reparsed p p') (hc : R.Reparsed c c') :
    R.TaskReparsed (Task.under p c) (Task.under p' c') := by
  refine ⟨hc, ?_⟩
  have hexport : isExport p' = isExport p := by rw [isExport, isExport, hp.kind]
  have hclass : isClass c' = isClass c := by rw [isClass, isClass, hc.kind]
  unfold Task.under
  rw [hexport, hclass]
  split
  · rename_i hboth
    simp only [isExport, Bool.and_eq_true, decide_eq_true_eq] at hboth
    exact decorators_reparsed hp (by rw [hboth.1]; decide)
  · exact .nil

theorem map_under_reparsed {p p' : Cst} (hp : R.Reparsed p p') {cs cs' : List Cst}
    (hcs : List.Forall₂ R.Reparsed cs cs') :
    List.Forall₂ R.TaskReparsed (cs.map (Task.under p)) (cs'.map (Task.under p')) := by
  rw [List.forall₂_map_left_iff, List.forall₂_map_right_iff]
  exact hcs.imp fun _ _ => under_reparsed hp

/-- The inputs of a task that is not that of an object come again one by one. -/
theorem inputs_reparsed {t t' : Task} (h : R.TaskReparsed t t') (hk : t.node.kind ≠ "object") :
    List.Forall₂ R.TaskReparsed t.inputs t'.inputs := by
  have hkind := h.node.kind
  have hrole : ∀ (role : String) {n c : Cst}, n.child? role = some c → c.label.field ≠ none := by
    intro role n c hc
    have : c.label.field = some role := by simpa using List.find?_some hc
    simp [this]
  have hclass : isClass t'.node = isClass t.node := by rw [isClass, isClass, hkind]
  have hstring : isString t'.node = isString t.node := by rw [isString, isString, hkind]
  have hdecorator : isDecorator t'.node = isDecorator t.node := by
    rw [isDecorator, isDecorator, hkind]
  have hexport : isExport t'.node = isExport t.node := by rw [isExport, isExport, hkind]
  unfold Task.inputs
  rw [hclass, hstring, hdecorator, hkind, if_neg hk, if_neg hk]
  split
  · refine List.rel_append ?_ ?_
    · rw [List.forall₂_map_left_iff, List.forall₂_map_right_iff]
      refine (List.rel_append h.hoisted (decorators_reparsed h.node hk)).imp fun d d' hd => ?_
      exact ⟨hd, .nil⟩
    · have hbody := h.node.child? (.inl hk) "body"
      have hbodyRole := @hrole "body" t.node
      generalize t.node.child? "body" = b, t'.node.child? "body" = b' at hbody hbodyRole
      cases hbody with
      | none => exact .nil
      | some hb => exact map_under_reparsed hb (hb.significant (.inr (hbodyRole rfl)))
  split
  · exact map_under_reparsed h.node (h.node.significant (.inl hk))
  split
  · exact .nil
  split
  · unfold Task.decoratorInputs
    have hargs := argumentList?_reparsed h.node hk
    have hargsRole : ∀ {c}, argumentList? t.node = some c → c.label.field ≠ none := by
      intro c hc
      obtain ⟨call, -, hc⟩ := Option.bind_eq_some_iff.1 hc
      exact hrole _ hc
    generalize argumentList? t.node = a, argumentList? t'.node = a' at hargs hargsRole
    cases hargs with
    | none => exact .nil
    | some ha => exact map_under_reparsed ha (ha.significant (.inr (hargsRole rfl)))
  · refine map_under_reparsed h.node ?_
    have hsig := h.node.significant (.inl hk)
    unfold otherParts
    rw [hexport]
    split
    · refine List.rel_filter (fun {c c'} hc => ?_) hsig
      simp only [isDecorator, hc.kind]
    · exact hsig

end Revision

end AssetLift
