import AssetLift.Migration
import AssetLift.Proofs.Provenance
import AssetLift.Proofs.Removal
import AssetLift.Proofs.Weaving
import Mathlib.Data.List.Pairwise

/-!
# Replacing entries of a block

`Splice.replaceAll`: entries of a block are replaced one after the other, each with the ranges that
the earlier ones have taken. For a block of an object literal as the grammar gives them
(`ObjectRule`), any choice of entries, any order and any replacements, this never fails, and the
rendering is the file with the chosen pairs swapped: nothing else of it changes, so the order does
not show.

* `Block.Laid`: what of the grammar's rule reaches the block (`laid_of_rule`): pairs lie in the
  file, and a comma stands between any two.
* `Grips`: what a plan takes beside the full range of a pair, on either side: nothing, or blanks and
  the comma next to it. Two pairs can meet only at one comma between them (`Grips.meet`), and the
  second to come finds that comma claimed (`apart_of_planned`).
* `Progress`: what one replacement keeps (`replace_progress`), and hence all of them
  (`replaceAll_progress`).
-/

namespace AssetLift

/-! ## The rule for object literals -/

/-- Whether a child of an object is a comma. -/
def Cst.isComma (c : Cst) : Bool := c.kind = "," && !c.named

/-- A comma stands between any two entries. -/
def Cst.CommaBetween (cs : List Cst) : Prop :=
  ∀ k < cs.length, ∀ i < k, cs[i]?.any isEntry && cs[k]?.any isEntry →
    ∃ j < k, i < j ∧ cs[j]?.any isComma

instance (cs : List Cst) : Decidable (Cst.CommaBetween cs) :=
  inferInstanceAs (Decidable (∀ k < cs.length, ∀ i < k, _ → _))

/-- Nodes of a file that follow one another, as the children of an object do: a comma stands between
two entries, and tokens read as their kind says. -/
structure Cst.EntryList (source : Bytes) (cs : List Cst) : Prop where
  inside : ∀ c ∈ cs, c.start ≤ c.stop ∧ c.stop ≤ source.length
  ordered : cs.Pairwise fun c d => c.stop ≤ d.start
  width : ∀ c ∈ cs, c.isEntry → c.start < c.stop
  text : ∀ c ∈ cs, c.named = false → c.bytes source = Bytes.ofString c.kind
  separated : CommaBetween cs

theorem Cst.EntryList.tail {source : Bytes} {c : Cst} {cs : List Cst}
    (h : EntryList source (c :: cs)) : EntryList source cs where
  inside d hd := h.inside d (List.mem_cons_of_mem _ hd)
  ordered := (List.pairwise_cons.1 h.ordered).2
  width d hd := h.width d (List.mem_cons_of_mem _ hd)
  text d hd := h.text d (List.mem_cons_of_mem _ hd)
  separated k hk i hi hentries := by
    obtain ⟨j, hj, hij, hcomma⟩ := h.separated (k + 1) (by simpa using hk) (i + 1) (by omega)
      (by simpa using hentries)
    obtain ⟨j, rfl⟩ := Nat.exists_eq_succ_of_ne_zero (show j ≠ 0 by omega)
    exact ⟨j, by omega, by omega, by simpa using hcomma⟩

/-- A comma stands before every entry that comes after a first one. -/
theorem Cst.EntryList.comma_after_head {source : Bytes} {c : Cst} {pre : List Cst} {d : Cst}
    {post : List Cst} (h : EntryList source (c :: (pre ++ d :: post))) (hc : c.isEntry)
    (hd : d.isEntry) : ∃ s ∈ pre, s.isComma := by
  obtain ⟨j, hj, hij, hcomma⟩ := h.separated (pre.length + 1) (by simp) 0 (by omega)
    (by simp [hc, hd])
  obtain ⟨j, rfl⟩ := Nat.exists_eq_succ_of_ne_zero (show j ≠ 0 by omega)
  rw [List.getElem?_cons_succ, List.getElem?_append_left (by omega),
    List.getElem?_eq_getElem (by omega)] at hcomma
  exact ⟨_, List.getElem_mem _, by simpa using hcomma⟩

/-- The children after the first one start where it ends or later. -/
theorem Cst.EntryList.next {source : Bytes} {c : Cst} {cs : List Cst} {last : Nat}
    (h : EntryList source (c :: cs)) (hlast : ∀ d ∈ c :: cs, last ≤ d.start) :
    last ≤ c.start ∧ last ≤ c.stop ∧ ∀ d ∈ cs, c.stop ≤ d.start := by
  have h₁ := hlast c List.mem_cons_self
  have h₂ := h.inside c List.mem_cons_self
  exact ⟨h₁, by omega, (List.pairwise_cons.1 h.ordered).1⟩

/-- An object node as the grammar gives it: an opening brace, then entries and commas. -/
structure Cst.ObjectRule (source : Bytes) (n : Cst) : Prop where
  opening : n.children.head?.any fun c => c.kind = "\x7b" && !c.named
  entries : EntryList source n.children

instance (source : Bytes) (cs : List Cst) : Decidable (Cst.EntryList source cs) :=
  decidable_of_iff
    ((∀ c ∈ cs, c.start ≤ c.stop ∧ c.stop ≤ source.length) ∧
      (cs.Pairwise fun c d => c.stop ≤ d.start) ∧
      (∀ c ∈ cs, c.isEntry → c.start < c.stop) ∧
      (∀ c ∈ cs, c.named = false → c.bytes source = Bytes.ofString c.kind) ∧
      Cst.CommaBetween cs)
    ⟨fun ⟨h₁, h₂, h₃, h₄, h₅⟩ => ⟨h₁, h₂, h₃, h₄, h₅⟩, fun ⟨h₁, h₂, h₃, h₄, h₅⟩ => ⟨h₁, h₂, h₃, h₄, h₅⟩⟩

instance (source : Bytes) (n : Cst) : Decidable (n.ObjectRule source) :=
  decidable_of_iff
    ((n.children.head?.any fun c => c.kind = "\x7b" && !c.named) ∧ Cst.EntryList source n.children)
    ⟨fun ⟨h₁, h₂⟩ => ⟨h₁, h₂⟩, fun ⟨h₁, h₂⟩ => ⟨h₁, h₂⟩⟩

/-! ## Replacing entries -/

/-- A key with the text to put in the place of its entry. -/
structure Replacement where
  key : String
  text : List CodePoint
  /-- Whether the entry may hold a list. -/
  allowList : Bool := false

namespace Splice

/-- Replaces one entry of a block; what is not there is left alone. -/
def replace (b : Block) (p : Patch) (r : Replacement) : Except Migration.Fault Patch := do
  match ← (Entry.inspect? b r.key r.allowList).mapError .entry with
  | none => return p
  | some e =>
    let source := p.staging.source
    let plan ← (Removal.plan e b.properties.length source p.staging.spans).mapError .removal
    let edit ← (plan.edit e source r.text).mapError .removal
    (p.stage edit).mapError .conflict

/-- Replaces entries of a block in order. -/
def replaceAll (b : Block) : Patch → List Replacement → Except Migration.Fault Patch
  | p, [] => .ok p
  | p, r :: rest => do
    let p ← replace b p r
    replaceAll b p rest

/-- The pairs to be replaced, with the bytes of the texts that come in their places. -/
def swaps (b : Block) (rs : List Replacement) : List Swap :=
  rs.filterMap fun r => (b.property? r.key).map fun p => ⟨p.span, Utf8.written r.text⟩

end Splice

/-! ## Blocks whose entries a comma separates -/

/-- A comma stands somewhere between two pairs. -/
def Block.Property.Before (source : Bytes) (p q : Block.Property) : Prop :=
  ∃ c : Nat, p.span.stop ≤ c ∧ c < q.fullStart ∧ source[c]? = some Bytes.comma

/-- A pair lies in the file. -/
structure Block.Property.Lies (source : Bytes) (p : Block.Property) : Prop where
  full_le : p.fullStart ≤ p.span.start
  nonempty : p.span.start < p.span.stop
  inside : p.span.stop ≤ source.length

/-- The pairs of a block lie in the file, with a comma between any two. -/
structure Block.Laid (source : Bytes) (b : Block) : Prop where
  lies : ∀ {key p}, b.property? key = some p → p.Lies source
  apart : ∀ {k₁ k₂ p q}, k₁ ≠ k₂ → b.property? k₁ = some p → b.property? k₂ = some q →
    p.Before source q ∨ q.Before source p

namespace Lowering

open Cst

/-- The pair that a node is, whatever its key. -/
def PairOf (m : Node) (span : Span) (fullStart : Nat) : Prop :=
  ∃ key value, m = .property key value span fullStart

theorem spanOf_eq {n : Cst} {s : Span} (h : spanOf n = .ok s) :
    s.start = n.start ∧ s.stop = n.stop :=
  Span.ofEnds_eq_ok.1 (mapError_eq_ok.1 h)

/-- The entry that an object's child gives, with where the token before it ends. -/
theorem pair_of_buildEntry {source : Bytes} {table : Table} (hp : table.Plain) {last : Nat} {c : Cst}
    {m : Node} (h : buildEntry source table last c = .ok m) {span : Span} {fs : Nat}
    (hm : PairOf m span fs) :
    c.kind = "pair" ∧ fs = last ∧ span.start = c.start ∧ span.stop = c.stop := by
  obtain ⟨key, value, rfl⟩ := hm
  unfold buildEntry at h
  split at h
  · obtain ⟨_, _, s, heq, hs, -⟩ := buildProperty_eq h
    cases heq
    exact ⟨by assumption, rfl, spanOf_eq hs⟩
  · have := hp _ (Table.holds_of_resolve h)
    simp [Node.isProperty] at this

/-- A token that is no comma, as the opening brace, only moves the start. -/
theorem Entries.after_token {source : Bytes} {table : Table} {last : Nat} {c : Cst} {cs : List Cst}
    {ps : List Node} {seps : List Nat} (h : Entries source table last (c :: cs) ps seps)
    (hsolid : c.isTrivia = false) (hkind : c.kind ≠ ",") (hnamed : c.named = false) :
    Entries source table c.stop cs ps seps := by
  cases h with
  | comment htrivia => rw [hsolid] at htrivia; cases htrivia
  | comma _ hk => exact absurd hk hkind
  | entry _ _ hn => rw [hnamed] at hn; cases hn
  | token _ _ _ hrest => exact hrest

/-- Every pair of an object lies in the file, and does not start before `last`, which no child
starts before. -/
theorem Entries.lies {source : Bytes} {table : Table} (hp : table.Plain) {last : Nat}
    {cs : List Cst} {ps : List Node} {seps : List Nat} (h : Entries source table last cs ps seps)
    (hr : EntryList source cs) (hlast : ∀ c ∈ cs, last ≤ c.start) :
    ∀ m ∈ ps, ∀ span fs, PairOf m span fs →
      last ≤ fs ∧ fs ≤ span.start ∧ span.start < span.stop ∧ span.stop ≤ source.length := by
  induction h with
  | nil => simp
  | comment _ _ ih => exact ih hr.tail fun d hd => hlast d (List.mem_cons_of_mem _ hd)
  | comma _ _ _ ih | token _ _ _ _ ih =>
    intro m hm span fs hpair
    obtain ⟨-, hle, hnext⟩ := hr.next hlast
    obtain ⟨h₁, h₂⟩ := ih hr.tail hnext m hm span fs hpair
    exact ⟨by omega, h₂⟩
  | @entry _ c _ _ _ _ hsolid hkind hnamed hbuilt _ ih =>
    intro m hm span fs hpair
    obtain ⟨-, hle, hnext⟩ := hr.next hlast
    rcases List.mem_cons.1 hm with rfl | hm
    · obtain ⟨-, rfl, hs, he⟩ := pair_of_buildEntry hp hbuilt hpair
      have h₁ := hr.width c List.mem_cons_self (by simp [isEntry, hnamed, hsolid, hkind])
      have h₂ := hr.inside c List.mem_cons_self
      have h₃ := hlast c List.mem_cons_self
      exact ⟨Nat.le_refl _, by omega, by omega, by omega⟩
    · obtain ⟨h₁, h₂⟩ := ih hr.tail hnext m hm span fs hpair
      exact ⟨by omega, h₂⟩

theorem comma_of_isComma {source : Bytes} {cs : List Cst} (hr : EntryList source cs) {c : Cst}
    (hc : c ∈ cs) (hk : c.isComma) : c.start < c.stop ∧ source[c.start]? = some Bytes.comma := by
  simp only [isComma, Bool.and_eq_true, decide_eq_true_eq, Bool.not_eq_true'] at hk
  obtain ⟨hle, hin⟩ := hr.inside c hc
  have htext := hr.text c hc hk.2
  rw [hk.1, bytes, Bytes.slice_eq (by omega) (by omega) (by omega)] at htext
  have hone : Bytes.ofString "," = [Bytes.comma] := by decide
  have hget := congrArg (·[0]?) htext
  have hlt : c.start < c.stop := by
    by_contra hcon
    have := congrArg List.length htext
    rw [hone, List.length_drop, List.length_take] at this
    simp only [List.length_singleton] at this
    omega
  refine ⟨hlt, ?_⟩
  simpa [hone, List.getElem?_drop, List.getElem?_take, hlt] using hget

/-- A comma stands in the file from `bound` on and before `last`. -/
def CommaSeen (source : Bytes) (bound last : Nat) : Prop :=
  ∃ c, bound ≤ c ∧ c < last ∧ source[c]? = some Bytes.comma

theorem CommaSeen.mono {source : Bytes} {bound last last' : Nat} (h : CommaSeen source bound last)
    (hle : last ≤ last') : CommaSeen source bound last' := by
  obtain ⟨c, h₁, h₂, h₃⟩ := h
  exact ⟨c, h₁, by omega, h₃⟩

/-- A comma has been seen since `bound`, or one is still to come before each entry. -/
def CommaDue (source : Bytes) (bound last : Nat) (cs : List Cst) : Prop :=
  CommaSeen source bound last ∨
    ∀ pre d post, cs = pre ++ d :: post → d.isEntry → ∃ s ∈ pre, s.isComma

/-- A child that is no comma leaves what is still to come as it is. -/
theorem CommaDue.skip {source : Bytes} {bound last last' : Nat} {c : Cst} {cs : List Cst}
    (h : CommaDue source bound last (c :: cs)) (hno : c.isComma = false) (hle : last ≤ last') :
    CommaDue source bound last' cs := by
  refine h.imp (·.mono hle) fun hs pre d post heq hd => ?_
  obtain ⟨s, hmem, hcomma⟩ := hs (c :: pre) d post (by rw [heq]; rfl) hd
  rcases List.mem_cons.1 hmem with rfl | hmem
  · rw [hno] at hcomma; cases hcomma
  · exact ⟨s, hmem, hcomma⟩

/-- Then a comma stands between `bound` and every pair. -/
theorem Entries.comma_before {source : Bytes} {table : Table} (hp : table.Plain) {bound last : Nat}
    {cs : List Cst} {ps : List Node} {seps : List Nat} (h : Entries source table last cs ps seps)
    (hr : EntryList source cs) (hlast : ∀ c ∈ cs, last ≤ c.start) (hbound : bound ≤ last)
    (hsep : CommaDue source bound last cs) :
    ∀ m ∈ ps, ∀ span fs, PairOf m span fs → CommaSeen source bound fs := by
  induction h with
  | nil => simp
  | @comment _ c _ _ _ htrivia _ ih =>
    have hno : c.isComma = false := by
      simp only [isTrivia, Bool.or_eq_true, decide_eq_true_eq] at htrivia
      rcases htrivia with hk | hk <;> simp [isComma, hk]
    exact ih hr.tail (fun d hd => hlast d (List.mem_cons_of_mem _ hd)) hbound
      (hsep.skip hno (Nat.le_refl _))
  | @comma _ c _ _ _ _ _ _ ih =>
    obtain ⟨hstart, hle, hnext⟩ := hr.next hlast
    refine ih hr.tail hnext (by omega) ?_
    by_cases hk : c.isComma
    · obtain ⟨hlt, hget⟩ := comma_of_isComma hr List.mem_cons_self hk
      exact .inl ⟨c.start, by omega, hlt, hget⟩
    · exact hsep.skip (by simpa using hk) hle
  | @entry _ c _ _ _ _ hsolid hkind hnamed hbuilt _ ih =>
    obtain ⟨hstart, hle, hnext⟩ := hr.next hlast
    intro m hm span fs hpair
    rcases List.mem_cons.1 hm with rfl | hm
    · obtain ⟨-, rfl, -, -⟩ := pair_of_buildEntry hp hbuilt hpair
      rcases hsep with hs | hs
      · exact hs
      · obtain ⟨s, hmem, -⟩ := hs [] c _ rfl (by simp [isEntry, hnamed, hsolid, hkind])
        simp at hmem
    · exact ih hr.tail hnext (by omega) (hsep.skip (by simp [isComma, hkind]) hle) m hm span fs
        hpair
  | token _ hkind _ _ ih =>
    obtain ⟨hstart, hle, hnext⟩ := hr.next hlast
    exact ih hr.tail hnext (by omega) (hsep.skip (by simp [isComma, hkind]) hle)

/-- A comma stands between two nodes, if they are pairs. -/
def Separated (source : Bytes) (m q : Node) : Prop :=
  ∀ span fs span' fs', PairOf m span fs → PairOf q span' fs' →
    CommaSeen source span.stop.toNat fs'

theorem CommaSeen.before {source : Bytes} {p q : Block.Property}
    (h : CommaSeen source p.span.stop.toNat q.fullStart) : p.Before source q := by
  obtain ⟨c, h₁, h₂, h₃⟩ := h
  exact ⟨c, by omega, h₂, h₃⟩

/-- **A comma stands between any two pairs of an object.** -/
theorem Entries.separated {source : Bytes} {table : Table} (hp : table.Plain) {last : Nat}
    {cs : List Cst} {ps : List Node} {seps : List Nat} (h : Entries source table last cs ps seps)
    (hr : EntryList source cs) :
    ps.Pairwise (Separated source) := by
  induction h with
  | nil => exact .nil
  | comment _ _ ih | comma _ _ _ ih | token _ _ _ _ ih => exact ih hr.tail
  | @entry _ c _ _ _ _ hsolid hkind hnamed hbuilt hrest ih =>
    have hnext := (List.pairwise_cons.1 hr.ordered).1
    refine List.pairwise_cons.2 ⟨fun q hq span fs span' fs' hm hq' => ?_, ih hr.tail⟩
    obtain ⟨-, -, -, he⟩ := pair_of_buildEntry hp hbuilt hm
    rw [he, Int.toNat_natCast]
    refine hrest.comma_before hp hr.tail hnext (Nat.le_refl _) (.inr fun pre d post heq hd => ?_)
      q hq span' fs' hq'
    subst heq
    exact hr.comma_after_head (by simp [isEntry, hnamed, hsolid, hkind]) hd

end Lowering

namespace Block

open Lowering

theorem pairOf_of_property? {b : Block} {key : String} {p : Property}
    (h : b.property? key = some p) : ∃ m ∈ b.properties,
      m = .property (some key) p.value p.span p.fullStart ∧ p.key = key := by
  obtain ⟨m, hm, hp⟩ := List.exists_of_findSome?_eq_some h
  refine ⟨m, hm, ?_⟩
  unfold Property.ofNode? at hp
  split at hp
  · split at hp
    · obtain rfl := Option.some.inj hp
      subst_vars
      exact ⟨rfl, rfl⟩
    · simp at hp
  · simp at hp

/-- **The blocks of a lowered file are laid out as the grammar's rule has it.** -/
theorem laid_of_rule {source : Bytes} {root : Cst} {r : Node} (hr : lower source root = .ok r)
    (hrule : ∀ n, Cst.Inside n root → n.kind = "object" → n.ObjectRule source) {b : Block}
    (hb : Node.Part b.toNode r) : b.Laid source := by
  obtain ⟨n, table, hin, hkind, hplain, hbuild⟩ := lower_object hr _ _ _ hb
  obtain ⟨hopen, hlist⟩ := hrule n hin hkind
  obtain ⟨brace, hhead, hbrace⟩ := (Option.any_eq_true _ _).1 hopen
  obtain ⟨rest, hcs⟩ := List.head?_eq_some_iff.1 hhead
  simp only [Bool.and_eq_true, decide_eq_true_eq, Bool.not_eq_true'] at hbrace
  obtain ⟨ps, seps, span, heq, he, -⟩ := buildObject_eq hbuild
  obtain ⟨rfl, rfl, rfl⟩ := Node.object.inj heq
  rw [hcs] at he hlist
  have hrest := he.after_token (by simp [Cst.isTrivia, hbrace.1]) (by rw [hbrace.1]; decide)
    hbrace.2
  have hlies := hrest.lies hplain hlist.tail (List.pairwise_cons.1 hlist.ordered).1
  have hsep := hrest.separated hplain hlist.tail
  constructor
  · intro key p hp
    obtain ⟨m, hm, rfl, -⟩ := pairOf_of_property? hp
    obtain ⟨-, h₁, h₂, h₃⟩ := hlies _ hm p.span p.fullStart ⟨_, _, rfl⟩
    exact ⟨h₁, h₂, h₃⟩
  · intro k₁ k₂ p q hne hp hq
    obtain ⟨m, hm, rfl, -⟩ := pairOf_of_property? hp
    obtain ⟨m', hm', rfl, -⟩ := pairOf_of_property? hq
    have hnodes : Node.property (some k₁) p.value p.span p.fullStart
        ≠ .property (some k₂) q.value q.span q.fullStart := by
      intro heq
      exact hne (Option.some.inj (Node.property.inj heq).1)
    have : Std.Symm fun m m' => Separated source m m' ∨ Separated source m' m := ⟨fun _ _ => Or.symm⟩
    have heither : b.properties.Pairwise fun m m' => Separated source m m' ∨ Separated source m' m :=
      hsep.imp .inl
    rcases heither.forall hm hm' hnodes with h | h
    · exact .inl ((h _ _ _ _ ⟨_, _, rfl⟩ ⟨_, _, rfl⟩).before)
    · exact .inr ((h _ _ _ _ ⟨_, _, rfl⟩ ⟨_, _, rfl⟩).before)

end Block

/-! ## What an edit takes -/

/-- **The entry of a pair that lies in the file** exists and lies in it too. -/
theorem Entry.ofProperty_lies {source : Bytes} {p : Block.Property} (hl : p.Lies source)
    (allowList : Bool) : ∃ e, ofProperty allowList p = .ok e ∧ e.core = p.span ∧
      e.full.start = p.fullStart ∧ e.full.stop = p.span.stop ∧ e.Lies source := by
  have hle : (p.fullStart : Int) ≤ p.span.stop := by
    have := hl.full_le
    have := p.span.start_le_stop
    omega
  have hcov : (⟨p.fullStart, p.span.stop, hle⟩ : Span).covers p.span = true :=
    Span.covers_iff.2 ⟨hl.full_le, Int.le_refl _⟩
  refine ⟨⟨p.key, .ofNode allowList p.value, _, p.span, hcov⟩, ?_, rfl, rfl, rfl, ?_⟩
  · simp [ofProperty, make, Span.ofEnds_of_le hle, Except.mapError, bind, Except.bind, hcov]
  · exact ⟨by simp only; omega, rfl, hl.inside⟩

namespace Splice

open Removal Bytes

/-- A range around a pair that takes nothing beside the full range of the pair, or blanks and the
comma next to it on one side. -/
structure Grips (source : Bytes) (p : Block.Property) (r : Span) : Prop where
  start : r.start = p.fullStart ∨ ∃ c : Nat, r.start = c ∧ c < p.fullStart ∧
    source[c]? = some comma ∧ source.BlankFrom (c + 1) p.fullStart
  stop : r.stop = p.span.stop ∨ ∃ c : Nat, r.stop = c + 1 ∧ p.span.stop ≤ c ∧
    source[c]? = some comma ∧ source.BlankFrom p.span.stop.toNat c

theorem Grips.start_le {source : Bytes} {p : Block.Property} {r : Span} (h : Grips source p r) :
    r.start ≤ p.fullStart := by
  rcases h.start with h | ⟨c, h₁, h₂, -⟩ <;> omega

theorem Grips.le_stop {source : Bytes} {p : Block.Property} {r : Span} (h : Grips source p r) :
    p.span.stop ≤ r.stop := by
  rcases h.stop with h | ⟨c, h₁, h₂, -⟩ <;> omega

theorem not_blankFrom {source : Bytes} {c i j : Nat} (hc : source[c]? = some comma) (hi : i ≤ c)
    (hj : c < j) : ¬ source.BlankFrom i j := by
  intro h
  obtain ⟨b, hb, hblank⟩ := h c hi hj
  rw [hc, Option.some.injEq] at hb
  rw [← hb, isBlank_comma] at hblank
  cases hblank

/-- **Two ranges around pairs with a comma between meet at most in that comma**, and only when both
have reached for it. -/
theorem Grips.meet {source : Bytes} {p q : Block.Property} {r s : Span} (hpq : p.Before source q)
    (hr : Grips source p r) (hs : Grips source q s) :
    r.stop ≤ s.start ∨ ∃ c : Nat, r.stop = c + 1 ∧ s.start = c ∧ p.span.stop ≤ c ∧
      c < q.fullStart := by
  obtain ⟨c, hpc, hcq, hc⟩ := hpq
  have hstop : r.stop ≤ c + 1 := by
    rcases hr.stop with h | ⟨d, hd, -, -, hblank⟩
    · omega
    · by_contra hcon
      exact not_blankFrom hc (by omega) (by omega) hblank
  have hstart : c ≤ s.start := by
    rcases hs.start with h | ⟨d, hd, -, -, hblank⟩
    · omega
    · by_contra hcon
      exact not_blankFrom hc (by omega) hcq hblank
  by_cases h : r.stop = c + 1 ∧ s.start = c
  · exact .inr ⟨c, h.1, h.2, hpc, hcq⟩
  · left; omega

section
variable {source : Bytes} {pr : Block.Property} {e : Entry} (hstart : e.full.start = pr.fullStart)
  (hstop : e.full.stop = pr.span.stop) (hl : e.Lies source) {count : Int} {claimed : List Span}
  {p : Plan} (hp : Planned e count source claimed p)
include hstart hstop hl hp

theorem grips_of_planned : Grips source pr p.remove := by
  have h₀ := hl.start_nonneg
  have h₁ := hl.inside
  have h₂ := e.full.start_le_stop
  cases hp with
  | bare => exact ⟨.inl hstart, .inl hstop⟩
  | @after a _ _ ha _ =>
    obtain ⟨hlt, hc, hblank⟩ := (commaAfter?_eq_some (by omega) h₁).1 ha
    rw [hstop] at hblank hlt
    exact ⟨.inl hstart, .inr ⟨a - 1, by simp only; omega, by omega, hc, hblank⟩⟩
  | @before c _ _ _ hc _ =>
    obtain ⟨hlt, hcomma, hblank⟩ := commaBefore?_spec h₀ (by omega) hc
    rw [hstart] at hblank hlt
    exact ⟨.inr ⟨c, rfl, by omega, hcomma, hblank⟩, .inl hstop⟩

/-- **The second of two neighbours finds the comma claimed**: what a plan takes is apart from an
earlier range around another pair. -/
theorem apart_of_planned {q : Block.Property} (hq : q.Lies source) {s : Span}
    (hs : Grips source q s) (hclaimed : s ∈ claimed)
    (hsep : pr.Before source q ∨ q.Before source pr) :
    p.remove.stop ≤ s.start ∨ s.stop ≤ p.remove.start := by
  have hr := grips_of_planned hstart hstop hl hp
  have hq₁ := hq.full_le
  have hq₂ := hq.nonempty
  have hs₁ := hs.start_le
  have hs₂ := hs.le_stop
  have hfree : ∀ k : Int, s.start ≤ k → k < s.stop → isClaimed claimed k = true := fun k h₁ h₂ =>
    List.any_eq_true.2 ⟨s, hclaimed, Span.contains_iff.2 ⟨h₁, h₂⟩⟩
  rcases hsep with hsep | hsep
  · refine (hr.meet hsep hs).imp id ?_
    rintro ⟨c, hc₁, hc₂, hc₃, hc₄⟩
    -- a plan that ends past the pair has taken the comma after it
    cases hp with
    | bare => simp only [Removal.bare] at hc₁; omega
    | before => simp only at hc₁; omega
    | after _ _ _ hno =>
      simp only at hc₁
      rw [hfree _ (by omega) (by omega)] at hno
      cases hno
  · refine Or.inr (((hs.meet hsep hr)).resolve_right ?_)
    rintro ⟨c, hc₁, hc₂, hc₃, hc₄⟩
    -- a plan that starts before the full range has taken the comma before it
    cases hp with
    | bare => simp only [Removal.bare] at hc₂; omega
    | after => simp only at hc₂; omega
    | before _ _ _ _ hno =>
      simp only at hc₂
      rw [hfree _ (by omega) (by omega)] at hno
      cases hno

end

/-! ## Replacing one entry, and all of them -/

/-- The edit that one replacement has left: around its pair, and swapping nothing but the pair. -/
structure Made (source : Bytes) (b : Block) (ed : Edit) (r : Replacement) : Prop where
  pair : ∃ pr, b.property? r.key = some pr ∧ Grips source pr ed.remove ∧
    Swap.Widens source ed.toSwap ⟨pr.span, Utf8.written r.text⟩

/-- How far the replacements `done` have brought a patch. -/
structure Progress (source : Bytes) (b : Block) (done : List Replacement) (p : Patch) : Prop where
  source_eq : p.staging.source = source
  made : List.Forall₂ (Made source b) p.staging.edits done
  apart : p.staging.edits.Pairwise fun e f =>
    f.remove.stop ≤ e.remove.start ∨ e.remove.stop ≤ f.remove.start

theorem progress_ofSource (source : Bytes) (b : Block) (path : Path) :
    Progress source b [] (.ofSource path source) :=
  ⟨rfl, .nil, .nil⟩

theorem not_overlaps {s r : Span} (h : s.stop ≤ r.start ∨ r.stop ≤ s.start) :
    r.overlaps s = false := by
  by_contra hc
  have := Span.overlaps_iff.1 (by simpa using hc)
  omega

/-- **One replacement more** succeeds and keeps the edits apart. -/
theorem replace_progress {source : Bytes} {b : Block} (hb : b.Laid source) {done : List Replacement}
    {p : Patch} (hp : Progress source b done p) {r : Replacement} (hr : b.has r.key)
    (hwritten : Utf8.Encodable r.text) (hnew : ∀ d ∈ done, d.key ≠ r.key) :
    ∃ p', replace b p r = .ok p' ∧ Progress source b (done ++ [r]) p' := by
  obtain ⟨pr, hpr⟩ := Option.isSome_iff_exists.1 hr
  have hlies := hb.lies hpr
  obtain ⟨e, he, hcore, hstart, hstop, hel⟩ := Entry.ofProperty_lies hlies r.allowList
  obtain ⟨plan, hplan, hplanned⟩ := plan_spec hel b.properties.length p.staging.spans
  obtain ⟨ed, hed⟩ : ∃ ed, plan.edit e source r.text = .ok ed :=
    ⟨_, (edit_eq_ok hel hplanned).2 ⟨hwritten, rfl⟩⟩
  obtain ⟨hremove, hwidens⟩ := widens_of_edit hel hplanned
    (by rw [hcore]; exact hlies.nonempty) hed
  rw [hcore] at hwidens
  -- every earlier edit is around another pair, hence apart from this one
  have hapart : ∀ f ∈ p.staging.edits,
      ed.remove.stop ≤ f.remove.start ∨ f.remove.stop ≤ ed.remove.start := by
    intro f hf
    obtain ⟨i, hi, rfl⟩ := List.mem_iff_getElem.1 hf
    have hmade := hp.made.get hi (by rw [← hp.made.length_eq]; exact hi)
    obtain ⟨q, hq, hgrips, -⟩ := hmade.pair
    rw [hremove]
    exact apart_of_planned hstart hstop hel hplanned (hb.lies hq) hgrips (List.mem_map_of_mem hf)
      (hb.apart (hnew _ (List.getElem_mem _)).symm hpr hq)
  have hwide := (Staging.takes_of_widens hwidens).nonempty
  have hstage : p.staging.stage ed = .ok { p.staging with edits := p.staging.edits ++ [ed] } := by
    refine Staging.stage_eq_ok.2 ⟨?_, fun f hf => ⟨not_overlaps (hapart f hf), ?_⟩, rfl⟩
    · rw [hp.source_eq]; exact hwidens.inside
    · simp only [Edit.sameInsertion, Edit.isInsertion, Bool.and_eq_false_iff, decide_eq_false_iff_not]
      omega
  refine ⟨{ p with staging := { p.staging with edits := p.staging.edits ++ [ed] } }, ?_, ?_⟩
  · rw [← hp.source_eq] at hplan hed
    simp [replace, Entry.inspect?, hpr, he, hplan, hed, Patch.stage, hstage, Except.mapError,
      Functor.map, Except.map, bind, Except.bind]
  · refine ⟨hp.source_eq, List.rel_append hp.made (.cons ⟨pr, hpr, ?_, hwidens⟩ .nil), ?_⟩
    · rw [hremove]; exact grips_of_planned hstart hstop hel hplanned
    · refine List.pairwise_append.2 ⟨hp.apart, List.pairwise_singleton _ _, fun f hf g hg => ?_⟩
      rw [List.mem_singleton.1 hg]
      exact hapart f hf

/-- **All replacements succeed**, in whatever order they come. -/
theorem replaceAll_progress {source : Bytes} {b : Block} (hb : b.Laid source)
    {order done : List Replacement} {p : Patch} (hp : Progress source b done p)
    (hpresent : ∀ r ∈ order, b.has r.key) (hwritten : ∀ r ∈ order, Utf8.Encodable r.text)
    (hkeys : ((done ++ order).map (·.key)).Nodup) :
    ∃ p', replaceAll b p order = .ok p' ∧ Progress source b (done ++ order) p' := by
  induction order generalizing done p with
  | nil => exact ⟨p, rfl, by simpa using hp⟩
  | cons r rest ih =>
    have hnew : ∀ d ∈ done, d.key ≠ r.key := by
      intro d hd
      rw [List.map_append, List.nodup_append] at hkeys
      exact hkeys.2.2 _ (List.mem_map_of_mem hd) _ (by simp)
    obtain ⟨p₁, h₁, hp₁⟩ := replace_progress hb hp (hpresent r List.mem_cons_self)
      (hwritten r List.mem_cons_self) hnew
    obtain ⟨p', h', hp'⟩ := ih hp₁ (fun q hq => hpresent q (List.mem_cons_of_mem _ hq))
      (fun q hq => hwritten q (List.mem_cons_of_mem _ hq)) (by simpa using hkeys)
    refine ⟨p', ?_, by simpa using hp'⟩
    rw [replaceAll, h₁]
    exact h'

theorem swaps_of_made {source : Bytes} {b : Block} {eds : List Edit} {rs : List Replacement}
    (h : List.Forall₂ (Made source b) eds rs) :
    List.Forall₂ (Swap.Widens source) (eds.map Edit.toSwap) (swaps b rs) := by
  induction h with
  | nil => exact .nil
  | cons hm _ ih =>
    obtain ⟨pr, hpr, -, hw⟩ := hm.pair
    simp only [swaps, List.filterMap_cons, hpr, Option.map_some, List.map_cons]
    exact .cons hw ih

/-- **The rendering swaps the pairs and nothing else.** -/
theorem Progress.render {source : Bytes} {b : Block} {done : List Replacement} {p : Patch}
    (hp : Progress source b done p) :
    p.render = Swap.apply (swaps b done) source ∧ Swap.Apart (swaps b done) := by
  have hw := swaps_of_made hp.made
  have hd : Swap.Apart (p.staging.edits.map Edit.toSwap) := by
    refine List.pairwise_map.2 (hp.apart.imp fun {e f} h i hi => ?_)
    have hin := Span.contains_iff.1 hi
    rw [Span.contains_eq_false]
    simp only [Edit.toSwap] at hin ⊢
    omega
  have ht : ∀ e ∈ p.staging.edits, Staging.Takes p.staging.source e := by
    intro e he
    obtain ⟨i, hi, rfl⟩ := List.mem_iff_getElem.1 he
    obtain ⟨pr, -, -, hw⟩ := (hp.made.get hi (by rw [← hp.made.length_eq]; exact hi)).pair
    rw [hp.source_eq]
    exact Staging.takes_of_widens hw
  obtain ⟨happly, hnarrow⟩ := Swap.apply_widen hw hd
  refine ⟨?_, hnarrow⟩
  rw [Patch.render, Staging.render_eq_apply ht hd, hp.source_eq, happly]

/-- **Replacing entries of a block conserves the rest of the file.** For a block of a file that was
read by the grammar's rule, any replacements with keys of their own that can be written, and any
order of making them: none fails, and the rendering is the file with the pairs swapped for the
texts. -/
theorem splice_conserves {source : Bytes} {root : Cst} {r : Node}
    (hr : Lowering.lower source root = .ok r)
    (hrule : ∀ n, Cst.Inside n root → n.kind = "object" → n.ObjectRule source)
    {b : Block} (hb : Node.Part b.toNode r) (rs : List Replacement)
    (hkeys : (rs.map (·.key)).Nodup) (hpresent : ∀ s ∈ rs, b.has s.key)
    (hwritten : ∀ s ∈ rs, Utf8.Encodable s.text) (path : Path) :
    Swap.Apart (swaps b rs) ∧ ∀ order, order.Perm rs →
      ∃ p, replaceAll b (.ofSource path source) order = .ok p ∧
        p.render = Swap.apply (swaps b rs) source := by
  have hlaid := Block.laid_of_rule hr hrule hb
  have hrun : ∀ order, order.Perm rs →
      ∃ p, replaceAll b (.ofSource path source) order = .ok p ∧ Progress source b order p := by
    intro order hperm
    simpa using replaceAll_progress hlaid (progress_ofSource source b path)
      (fun s hs => hpresent s (hperm.mem_iff.1 hs)) (fun s hs => hwritten s (hperm.mem_iff.1 hs))
      (by simpa using (hperm.map _).nodup_iff.2 hkeys)
  obtain ⟨p, -, hp⟩ := hrun rs (.refl rs)
  refine ⟨hp.render.2, fun order hperm => ?_⟩
  obtain ⟨p, hall, hp⟩ := hrun order hperm
  obtain ⟨hrender, hapart⟩ := hp.render
  exact ⟨p, hall, hrender.trans (Swap.apply_perm hapart (hperm.filterMap _) source)⟩

/-! ### An object with two pairs -/

namespace Sample

def token (id : Nat) (kind : String) (start stop : Nat) : Cst :=
  .node { id, kind, start, stop, named := false } []

def leaf (id : Nat) (kind : String) (start stop : Nat) (role : String) : Cst :=
  .node { id, kind, start, stop, field := some role } []

def pair (id : Nat) (key value : Cst) : Cst :=
  .node { id, kind := "pair", start := key.start, stop := value.stop }
    [key, token (id + 1) ":" key.stop (key.stop + 1), value]

section
variable (first k v : Nat)

def string : Cst := leaf 6 "string" (k + 2) v "value"

def number : Cst := leaf 11 "number" (v + 5) (v + 6) "value"

def stringPair : Cst := pair 3 (leaf 5 "property_identifier" (first + 1) k "key") (string k v)

def numberPair : Cst := pair 8 (leaf 10 "property_identifier" (v + 2) (v + 3) "key") (number v)

/-- An object with a string and a number, from offset `first` on: the key of the string ends at `k`,
and the string at `v`. -/
def object : Cst :=
  .node { id := 1, kind := "object", start := first, stop := v + 7 }
    [token 2 "\x7b" first (first + 1), stringPair first k v, token 7 "," v (v + 1), numberPair v,
      token 12 "\x7d" (v + 6) (v + 7)]

end

/-- How the object reads in a file. -/
structure Reads (source : Bytes) (first k v : Nat) (key value : String) : Prop where
  key_start : first + 1 ≤ k
  value_start : k + 2 ≤ v
  key : Utf8.decode (source.slice ((first + 1 : Nat) : Int) k) = .ok key
  body : Utf8.decode ((source.slice ((k + 2 : Nat) : Int) v).slice 1 (-1)) = .ok value
  cooked : Literal.decode .quote value = .ok value
  other : Utf8.decode (source.slice ((v + 2 : Nat) : Int) ((v + 3 : Nat) : Int)) = .ok "a"

open Lowering

theorem spanOf_of_le (n : Cst) (h : n.start ≤ n.stop) :
    spanOf n = .ok ⟨n.start, n.stop, Int.ofNat_le.2 h⟩ := by
  rw [spanOf, Span.ofEnds_of_le (Int.ofNat_le.2 h)]; rfl

def numberNode (v : Nat) : Node := .other "number" [] ⟨(v + 5 : Nat), (v + 6 : Nat), by omega⟩

theorem build_number {source : Bytes} {table : Lowering.Table} {v : Nat} :
    build source table ⟨[], number v⟩ = .ok (numberNode v) := by
  change spanOf (number v) >>= (fun s => pure (Node.other "number" [] s)) = _
  rw [spanOf_of_le (number v) (show v + 5 ≤ v + 6 by omega)]
  rfl

section
variable {source : Bytes} {first k v : Nat} {key value : String}
  (h : Reads source first k v key value) {table : Lowering.Table}
include h

theorem Reads.width : first + 1 ≤ v := by
  have h₁ := h.key_start
  have h₂ := h.value_start
  omega

def stringNode : Node := .literal value .quote ⟨(k + 2 : Nat), v, Int.ofNat_le.2 h.value_start⟩

def block : Block where
  properties :=
    [.property (some key) (some (stringNode h)) ⟨(first + 1 : Nat), v, Int.ofNat_le.2 h.width⟩
      (first + 1),
     .property (some "a") (some (numberNode v)) ⟨(v + 2 : Nat), (v + 6 : Nat), by omega⟩ (v + 1)]
  separators := [v]
  span := ⟨first, (v + 7 : Nat), by have := h.width; omega⟩

theorem build_string : build source table ⟨[], string k v⟩ = .ok (stringNode h) := by
  change (Utf8.decode ((source.slice ((k + 2 : Nat) : Int) v).slice 1 (-1))).mapError Fault.bytes
    >>= _ = _
  rw [h.body]
  change (Literal.decode .quote value).mapError Fault.literal
    >>= (fun x => spanOf (string k v) >>= fun s => pure (Node.literal x .quote s)) = _
  rw [h.cooked, spanOf_of_le (string k v) h.value_start]
  rfl

theorem build_object (hs : table.resolve (string k v) = .ok (stringNode h))
    (hn : table.resolve (number v) = .ok (numberNode v)) :
    build source table ⟨[], object first k v⟩ = .ok (block h).toNode := by
  have hfirst : buildProperty source table (first + 1) (stringPair first k v)
      = .ok (.property (some key) (some (stringNode h))
        ⟨(first + 1 : Nat), v, Int.ofNat_le.2 h.width⟩ (first + 1)) := by
    change some <$> (Utf8.decode (source.slice ((first + 1 : Nat) : Int) k)).mapError Fault.bytes
      >>= (fun key => some <$> table.resolve (string k v) >>= fun w =>
        spanOf (stringPair first k v) >>= fun s => pure (Node.property key w s (first + 1))) = _
    rw [h.key, hs, spanOf_of_le (stringPair first k v) h.width]
    rfl
  have hsecond : buildProperty source table (v + 1) (numberPair v)
      = .ok (.property (some "a") (some (numberNode v)) ⟨(v + 2 : Nat), (v + 6 : Nat), by omega⟩
        (v + 1)) := by
    change some <$> (Utf8.decode (source.slice ((v + 2 : Nat) : Int) ((v + 3 : Nat) : Int))).mapError
      Fault.bytes >>= (fun key => some <$> table.resolve (number v) >>= fun w =>
        spanOf (numberPair v) >>= fun s => pure (Node.property key w s (v + 1))) = _
    rw [h.other, hn, spanOf_of_le (numberPair v) (show v + 2 ≤ v + 6 by omega)]
    rfl
  have hspan := spanOf_of_le (object first k v) (show first ≤ v + 7 by have := h.width; omega)
  have hentries : buildEntries source table first (object first k v).children
      = .ok ((block h).properties, (block h).separators) := by
    change (buildProperty source table (first + 1) (stringPair first k v) >>= fun p =>
      (buildProperty source table (v + 1) (numberPair v) >>= fun q => pure ([q], [])) >>=
        (fun r => pure (r.1, v :: r.2)) >>= fun r => pure (p :: r.1, r.2)) = _
    rw [hfirst, hsecond]
    rfl
  change buildEntries source table first (object first k v).children >>= (fun r =>
    spanOf (object first k v) >>= fun s => pure (Node.object r.1 r.2 s)) = _
  rw [hentries, hspan]
  rfl

theorem lower_eq : lower source (object first k v) = .ok (block h).toNode := by
  have hobject : (⟨[], object first k v⟩ : Task).inputs = [⟨[], string k v⟩, ⟨[], number v⟩] := rfl
  have hstring : (⟨[], string k v⟩ : Task).inputs = [] := rfl
  have hnumber : (⟨[], number v⟩ : Task).inputs = [] := rfl
  have hs : ∀ t : Lowering.Table, Lowering.Table.resolve (t.insert (string k v).id (stringNode h)) (string k v)
      = .ok (stringNode h) := by
    intro t; rw [Lowering.Table.resolve, Std.HashMap.getElem?_insert_self]
  have hn : ∀ t : Lowering.Table, Lowering.Table.resolve ((t.insert (number v).id (numberNode v)).insert
      (string k v).id (stringNode h)) (number v) = .ok (numberNode v) := by
    intro t
    have hne : (string k v).id ≠ (number v).id := show 6 ≠ 11 by decide
    rw [Lowering.Table.resolve, Std.HashMap.getElem?_insert, if_neg (by simpa using hne),
      Std.HashMap.getElem?_insert_self]
  simp only [lower, run, hobject, hstring, hnumber, List.reverse_cons, List.reverse_nil,
    List.nil_append, List.cons_append, List.map_cons, List.map_nil, build_number, build_string h,
    build_object h (hs _) (hn _), bind, Except.bind, Lowering.Table.resolve,
    Std.HashMap.getElem?_insert_self]

end

def source : Bytes := Bytes.ofString "\x7bstyles: 's', a: 1\x7d"

theorem reads : Reads source 0 7 12 "styles" "s" where
  key_start := by decide
  value_start := by decide
  key := by decide +kernel
  body := by decide +kernel
  cooked := by decide
  other := by decide +kernel

theorem rule : ∀ n, Cst.Inside n (object 0 7 12) → n.kind = "object" → n.ObjectRule source :=
  fun _ hn hk => of_decide_eq_true (Cst.all_of_inside
    (p := fun n => decide (n.kind = "object" → n.ObjectRule source)) hn (by decide)) hk

def styleUrls : Replacement := ⟨"styles", CodePoint.ofString "styleUrls: []", true⟩

def b : Replacement := ⟨"a", CodePoint.ofString "b: 22", false⟩

theorem encodable : ∀ s ∈ [styleUrls, b], Utf8.Encodable s.text := by
  simp [styleUrls, b, Utf8.encodable_ofString]

end Sample

/-- Both entries are replaced, the second one first: each takes the comma between them, the second
to come finds it taken. -/
theorem splice_conserves_neighbours :
    ∃ p, replaceAll (Sample.block Sample.reads) (.ofSource (.ofString "a.ts") Sample.source)
        [Sample.b, Sample.styleUrls] = .ok p ∧
      p.render = Bytes.ofString "\x7bstyleUrls: [], b: 22\x7d" := by
  obtain ⟨-, h⟩ := splice_conserves (Sample.lower_eq Sample.reads) Sample.rule (.self _)
    [Sample.styleUrls, Sample.b] (by decide) (by decide) Sample.encodable (.ofString "a.ts")
  obtain ⟨p, hp, hrender⟩ := h [Sample.b, Sample.styleUrls] (.swap _ _ _)
  exact ⟨p, hp, hrender.trans (by decide)⟩

/-- A text with half of a surrogate pair comes in the place of no entry: the file is read by the
rule, the entry is there, and its replacement fails. -/
theorem replace_half_fails :
    Lowering.lower Sample.source (Sample.object 0 7 12) = .ok (Sample.block Sample.reads).toNode ∧
    (∀ n, Cst.Inside n (Sample.object 0 7 12) → n.kind = "object" → n.ObjectRule Sample.source) ∧
    (Sample.block Sample.reads).has "a" ∧
    replaceAll (Sample.block Sample.reads) (.ofSource (.ofString "a.ts") Sample.source)
      [⟨"a", [0xD800], false⟩] = .error (.removal (.unwritable ⟨0, 1, 0xD800⟩)) :=
  ⟨Sample.lower_eq Sample.reads, Sample.rule, by decide, rfl⟩

end Splice

end AssetLift
