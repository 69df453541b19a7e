import AssetLift.Proofs.Conservation
import AssetLift.Proofs.Postorder

/-!
# The layout of an object literal

A parser gives the children of a node in the order of the file, apart from each other and inside the
node (`Cst.Nested`). Then the properties of every object literal lie in the file as its entries do
(`Block.LaidOut`): in order, apart from each other and from the commas, each from where the token
before it ends. So the ranges that are read off a property later are ranges.

* `Cst.places`: the entries of an object, each with where the token before it ends.
* `Entries.places`: the properties are built from them one by one.
* `Lowering.object_built`: what an object literal of a lowered tree was built from.
-/

namespace AssetLift

namespace Cst

/-! ## Children in order -/

/-- The children of a node lie in it, one after the other. -/
structure Nested (n : Cst) : Prop where
  inside : ∀ c ∈ n.children, n.start ≤ c.start ∧ c.start ≤ c.stop ∧ c.stop ≤ n.stop
  ordered : n.children.Pairwise fun c d => c.stop ≤ d.start

instance (n : Cst) : Decidable n.Nested :=
  decidable_of_iff
    ((∀ c ∈ n.children, n.start ≤ c.start ∧ c.start ≤ c.stop ∧ c.stop ≤ n.stop) ∧
      n.children.Pairwise fun c d => c.stop ≤ d.start)
    ⟨fun ⟨h₁, h₂⟩ => ⟨h₁, h₂⟩, fun ⟨h₁, h₂⟩ => ⟨h₁, h₂⟩⟩

/-- Whether a node reads as a separator of entries. -/
def isSeparator (c : Cst) : Bool := c.kind = ","

/-- Where the last one of nodes ends that is no comment; `start` if there is none. -/
def lastStop (start : Nat) (cs : List Cst) : Nat :=
  ((cs.filter (!·.isTrivia)).getLast?.map stop).getD start

open Lowering (lastAfter)

/-- The entries among the children of an object, each with where the token before it ends. -/
def places (last : Nat) : List Cst → List (Nat × Cst)
  | [] => []
  | c :: cs => if c.isEntry then (last, c) :: places (lastAfter last c) cs
    else places (lastAfter last c) cs

theorem lastStop_cons (last : Nat) (c : Cst) (cs : List Cst) :
    lastStop last (c :: cs) = lastStop (lastAfter last c) cs := by
  unfold lastStop lastAfter
  by_cases htrivia : c.isTrivia
  · simp [htrivia]
  · rw [List.filter_cons_of_pos (by simpa using htrivia), if_neg htrivia]
    cases cs.filter (!·.isTrivia) with
    | nil => rfl
    | cons d ds =>
      rw [List.getLast?_cons_cons, List.getLast?_eq_some_getLast (List.cons_ne_nil d ds)]
      rfl

theorem map_snd_places (last : Nat) (cs : List Cst) :
    (places last cs).map (·.2) = cs.filter isEntry := by
  induction cs generalizing last with
  | nil => rfl
  | cons c cs ih =>
    rw [places, List.filter_cons]
    split
    · rw [List.map_cons, ih]
    · exact ih _

/-- **The place of an entry** tells where the nearest token before it ends. -/
theorem getElem?_places {last : Nat} {pre : List Cst} {c : Cst} {post : List Cst}
    (hc : c.isEntry = true) :
    (places last (pre ++ c :: post))[(pre.filter isEntry).length]?
      = some (lastStop last pre, c) := by
  induction pre generalizing last with
  | nil => simp [places, hc, lastStop]
  | cons d pre ih =>
    rw [List.cons_append, places, lastStop_cons, List.filter_cons]
    split
    · rw [List.length_cons, List.getElem?_cons_succ]
      exact ih
    · exact ih

/-- Nodes that follow one another from an offset on. -/
structure Following (last : Nat) (cs : List Cst) : Prop where
  forward : ∀ c ∈ cs, last ≤ c.start ∧ c.start ≤ c.stop
  ordered : cs.Pairwise fun c d => c.stop ≤ d.start

theorem Following.tail {last : Nat} {c : Cst} {cs : List Cst} (h : Following last (c :: cs)) :
    Following c.stop cs where
  forward d hd :=
    ⟨(List.pairwise_cons.1 h.ordered).1 d hd, (h.forward d (List.mem_cons_of_mem _ hd)).2⟩
  ordered := (List.pairwise_cons.1 h.ordered).2

theorem Following.after {last : Nat} {c : Cst} {cs : List Cst} (h : Following last (c :: cs)) :
    Following (lastAfter last c) cs := by
  unfold lastAfter
  split
  · exact ⟨fun d hd => h.forward d (List.mem_cons_of_mem _ hd), h.tail.ordered⟩
  · exact h.tail

theorem Following.le_lastAfter {last : Nat} {c : Cst} {cs : List Cst}
    (h : Following last (c :: cs)) : last ≤ lastAfter last c := by
  have := h.forward c List.mem_cons_self
  unfold lastAfter
  split <;> omega

/-- Every entry starts where the token before it ends, or later. -/
theorem Following.places_forward {last : Nat} {cs : List Cst} (h : Following last cs) :
    ∀ e ∈ places last cs, last ≤ e.1 ∧ e.1 ≤ e.2.start := by
  induction cs generalizing last with
  | nil => simp [places]
  | cons c cs ih =>
    have hstart := (h.forward c List.mem_cons_self).1
    have hlater : ∀ e ∈ places (lastAfter last c) cs, last ≤ e.1 ∧ e.1 ≤ e.2.start := by
      intro e he
      have := h.le_lastAfter
      have := ih h.after e he
      omega
    intro e he
    rw [places] at he
    split at he
    · rcases List.mem_cons.1 he with rfl | he
      · exact ⟨Nat.le_refl _, hstart⟩
      · exact hlater e he
    · exact hlater e he

/-- What is no comment moves the places behind it. -/
theorem Following.places_after {last : Nat} {c : Cst} {cs : List Cst}
    (h : Following last (c :: cs)) (hsolid : c.isTrivia = false) :
    ∀ e ∈ places (lastAfter last c) cs, c.stop ≤ e.1 := by
  intro e he
  have := (h.after.places_forward e he).1
  simpa [lastAfter, hsolid] using this

theorem isTrivia_of_isEntry {c : Cst} (hc : c.isEntry = true) : c.isTrivia = false := by
  simp only [isEntry, Bool.and_eq_true, Bool.not_eq_true'] at hc
  exact hc.1.2

/-- **Entries end before the place of every later one.** -/
theorem Following.places_apart {last : Nat} {cs : List Cst} (h : Following last cs) :
    (places last cs).Pairwise fun e f => e.2.stop ≤ f.1 := by
  induction cs generalizing last with
  | nil => exact .nil
  | cons c cs ih =>
    rw [places]
    split
    · rename_i hentry
      exact List.pairwise_cons.2 ⟨h.places_after (isTrivia_of_isEntry hentry), ih h.after⟩
    · exact ih h.after

/-- **A comma stands outside of the entries and of what is before them.** -/
theorem Following.places_clear {last : Nat} {cs : List Cst} (h : Following last cs) {c : Cst}
    (hc : c ∈ cs) (hk : c.isSeparator = true) :
    ∀ e ∈ places last cs, c.stop ≤ e.1 ∨ e.2.stop ≤ c.start := by
  simp only [isSeparator, decide_eq_true_eq] at hk
  induction cs generalizing last with
  | nil => simp [places]
  | cons d cs ih =>
    intro e he
    rw [places] at he
    rcases List.mem_cons.1 hc with rfl | hc
    · rw [if_neg (by simp [isEntry, hk])] at he
      exact .inl (h.places_after (by simp [isTrivia, hk]) e he)
    · split at he
      · rcases List.mem_cons.1 he with rfl | he
        · exact .inr ((List.pairwise_cons.1 h.ordered).1 c hc)
        · exact ih h.after hc e he
      · exact ih h.after hc e he

end Cst

/-! ## Properties that lie as the entries do -/

/-- What an entry of an object is lowered to, if the token before it ends at `last`. -/
structure Lowering.EntryOf (source : Bytes) (root n : Cst) (last : Nat) (c : Cst) (m : Node) :
    Prop where
  pair : c.kind = "pair" → ∃ key value span, m = .property key value span last ∧
    span.start = c.start ∧ span.stop = c.stop ∧ keyOf source c = .ok key ∧
    (root.Numbered → ∀ v, c.child? "value" = some v → ∃ w, value = some w ∧
      Lowering.value source (.under c v) = .ok w)
  other : c.kind ≠ "pair" → m.isProperty = false ∧
    (root.Numbered → Lowering.value source (.under n c) = .ok m)

open Lowering (PairOf EntryOf)

/-- A block laid out in the file as the children of an object node are. -/
structure Block.LaidOut (source : Bytes) (root n : Cst) (b : Block) : Prop where
  span : b.span.start = n.start ∧ b.span.stop = n.stop
  count : b.properties.length = (n.children.filter Cst.isEntry).length
  /-- As many entries stand before an entry as there are properties before its own. -/
  entry : ∀ pre c post, n.children = pre ++ c :: post → c.isEntry = true →
    ∃ m, b.properties[(pre.filter Cst.isEntry).length]? = some m ∧
      EntryOf source root n (Cst.lastStop n.start pre) c m
  separators : b.separators = (n.children.filter Cst.isSeparator).map Cst.start
  forward : ∀ m ∈ b.properties, ∀ span fs, PairOf m span fs →
    (fs : Int) ≤ span.start ∧ span.start ≤ span.stop
  apart : b.properties.Pairwise fun m q => ∀ span fs span' fs', PairOf m span fs →
    PairOf q span' fs' → span.stop ≤ fs'
  clear : ∀ c ∈ n.children, c.isSeparator = true → ∀ m ∈ b.properties, ∀ span fs,
    PairOf m span fs → c.stop ≤ fs ∨ span.stop ≤ c.start
  full : ∀ m ∈ b.properties, ∀ span fs, PairOf m span fs →
    ∃ s, Span.ofEnds fs span.stop = .ok s ∧ s.covers span = true
  inspected : ∀ name allowList, ∃ e, Entry.inspect? b name allowList = .ok e

namespace Lowering

open Cst

/-- **The properties of an object are built from its entries one by one**, each in its place. -/
theorem Entries.places {source : Bytes} {table : Table} {last : Nat} {cs : List Cst}
    {ps : List Node} {seps : List Nat} (h : Entries source table last cs ps seps) :
    List.Forall₂ (fun e m => buildEntry source table e.1 e.2 = .ok m) (Cst.places last cs) ps ∧
      seps = (cs.filter isSeparator).map start := by
  induction h with
  | nil => exact ⟨.nil, rfl⟩
  | @comment last c cs ps seps htrivia _ ih =>
    have hcomma : c.isSeparator = false := by
      simp only [isTrivia, Bool.or_eq_true, decide_eq_true_eq] at htrivia
      rcases htrivia with hk | hk <;> simp [isSeparator, hk]
    rw [Cst.places, if_neg (by simp [isEntry, htrivia]), List.filter_cons_of_neg (by simp [hcomma]),
      lastAfter, if_pos htrivia]
    exact ih
  | @comma last c cs ps seps hsolid hkind _ ih =>
    rw [Cst.places, if_neg (by simp [isEntry, hkind]),
      List.filter_cons_of_pos (by simp [isSeparator, hkind]), List.map_cons, lastAfter,
      if_neg (by simp [hsolid])]
    exact ⟨ih.1, congrArg _ ih.2⟩
  | @entry last c cs p ps seps hsolid hkind hnamed hbuilt _ ih =>
    rw [Cst.places, if_pos (by simp [isEntry, hsolid, hkind, hnamed]),
      List.filter_cons_of_neg (by simp [isSeparator, hkind]), lastAfter, if_neg (by simp [hsolid])]
    exact ⟨.cons hbuilt ih.1, ih.2⟩
  | @token last c cs ps seps hsolid hkind hnamed _ ih =>
    rw [Cst.places, if_neg (by simp [isEntry, hnamed]),
      List.filter_cons_of_neg (by simp [isSeparator, hkind]), lastAfter, if_neg (by simp [hsolid])]
    exact ih

/-! ## What an object literal was built from -/

/-- The table has the nodes of an object's inputs, if the numbers tell the nodes of the tree
apart. -/
def Table.Serves (table : Table) (source : Bytes) (root n : Cst) : Prop :=
  root.Numbered → ∀ s ∈ n.children.flatMap (Task.entryInputs n), ∀ m,
    table.resolve s.node = .ok m → value source s = .ok m

/-- **A numbered tree's object literal** was built from the nodes of its inputs. -/
theorem numbered_object {source : Bytes} {root : Cst} (hn : root.Numbered) {r : Node}
    (h : lower source root = .ok r) {ps : List Node} {seps : List Nat} {span : Span}
    (hpart : Node.Part (.object ps seps span) r) :
    ∃ n table, Inside n root ∧ n.kind = "object" ∧ Table.Plain table ∧ spanOf n = .ok span ∧
      Entries source table n.start n.children ps seps ∧ table.Serves source root n := by
  rw [lower_eq_value hn] at h
  obtain ⟨t, ht, hm⟩ := part_of_value .root h hpart rfl
  obtain ⟨xs, hxs, hassemble⟩ := value_eq_ok.1 hm
  -- the table that the work list has once the inputs are built
  have hsettles := settles_all fun s hs => @settles source root hn s (.input ht hs)
  rw [mapM_eq_ok.2 hxs] at hsettles
  obtain ⟨table, hrun, hagrees, -, hin⟩ := hsettles [] ∅ (by intro s _ m hm; simp at hm)
  have hempty : Table.Sound ∅ source root := by
    constructor <;> rintro m ⟨id, hid⟩ <;> simp at hid
  have hsound : table.Sound source root := by
    rw [List.append_nil, run.eq_1] at hrun
    refine run_invariant (fun j hj => ?_) hempty hrun
    obtain ⟨s, hs, rfl⟩ := List.mem_map.1 hj
    exact Reached.within (.input ht hs)
  have hresolve : List.Forall₂ (fun s x => table.resolve s.node = .ok x) t.inputs xs := by
    refine forall₂_imp_mem hxs fun s hs x _ hx => ?_
    obtain ⟨m, hm⟩ := Option.isSome_iff_exists.1 (hin s hs)
    have hsame := hagrees s (.input ht hs) m hm
    rw [hx] at hsame
    rw [Table.resolve_eq_ok, hm, Except.ok.inj hsame]
  obtain ⟨hkind, hentries, hspan⟩ := (assemble_eq_ok.1 hassemble).of_object
  have hinputs := Task.inputs_of_object hkind
  rw [hinputs] at hresolve
  refine ⟨t.node, table, ht.within.node, hkind, hsound.plain, hspan, ?_, fun _ s hs m hm => ?_⟩
  · exact entries_of_buildEntries ((buildEntries_eq hresolve).trans hentries)
  · exact hagrees s (.input ht (hinputs ▸ hs)) m (Table.resolve_eq_ok.1 hm)

/-- **Every object literal of a lowered tree** was built from an object node of the tree, its
properties one after the other. -/
theorem object_built {source : Bytes} {root : Cst} {r : Node} (h : lower source root = .ok r)
    {ps : List Node} {seps : List Nat} {span : Span} (hpart : Node.Part (.object ps seps span) r) :
    ∃ n table, Inside n root ∧ n.kind = "object" ∧ Table.Plain table ∧ spanOf n = .ok span ∧
      Entries source table n.start n.children ps seps ∧ table.Serves source root n := by
  by_cases hn : root.Numbered
  · exact numbered_object hn h hpart
  · obtain ⟨n, table, hin, hkind, hplain, hbuild⟩ := lower_object h _ _ _ hpart
    obtain ⟨_, _, _, heq, he, hspan⟩ := buildObject_eq hbuild
    obtain ⟨rfl, rfl, rfl⟩ := Node.object.inj heq
    exact ⟨n, table, hin, hkind, hplain, hspan, he, fun hyes => absurd hyes hn⟩

/-- An entry of an object is built to the node that its inputs have. -/
theorem entryOf_built {source : Bytes} {root n : Cst} {table : Table} (hplain : table.Plain)
    (hserves : table.Serves source root n) {last : Nat} {c : Cst} {m : Node} (hc : c ∈ n.children)
    (hentry : c.isEntry = true) (h : buildEntry source table last c = .ok m) :
    EntryOf source root n last c m := by
  simp only [isEntry, Bool.and_eq_true] at hentry
  have hinput : ∀ s, Task.entryInput n c = some s →
      s ∈ n.children.flatMap (Task.entryInputs n) := by
    intro s hs
    refine List.mem_flatMap.2 ⟨c, hc, ?_⟩
    rw [Task.entryInputs, if_pos (by simp [hentry]), hs]
    exact List.mem_singleton_self s
  constructor
  · intro hpair
    rw [buildEntry, if_pos hpair, buildProperty] at h
    obtain ⟨key, hkey, h⟩ := bind_eq_ok.1 h
    obtain ⟨value, hvalue, h⟩ := bind_eq_ok.1 h
    obtain ⟨span, hspan, h⟩ := bind_eq_ok.1 h
    obtain rfl := pure_eq_ok.1 h
    obtain ⟨hstart, hstop⟩ := spanOf_eq hspan
    refine ⟨key, value, span, rfl, hstart, hstop, hkey, fun hn v hv => ?_⟩
    unfold valueOf at hvalue
    rw [hv] at hvalue
    obtain ⟨w, hw, rfl⟩ := map_eq_ok.1 hvalue
    exact ⟨w, rfl, hserves hn _ (hinput _ (by rw [Task.entryInput, if_pos hpair, hv]; rfl)) w hw⟩
  · intro hpair
    rw [buildEntry, if_neg hpair] at h
    refine ⟨hplain m (Table.holds_of_resolve h), fun hn => ?_⟩
    exact hserves hn _ (hinput _ (by rw [Task.entryInput, if_neg hpair])) m h

/-- **Object literals are laid out as their entries are.** Where the children of every node lie in
it one after the other, each object literal of the lowered tree has one property for each entry, in
order, and its separators are where the commas start. A pair keeps its range; what is in front of it
starts where the nearest token before it ends, behind every earlier pair, and no comma reaches into
the two. So its full range is one, and the entry of any name can be formed. -/
theorem lower_laidOut {source : Bytes} {root : Cst} (hnest : ∀ n, Inside n root → n.Nested)
    {r : Node} (h : lower source root = .ok r) {b : Block} (hb : Node.Part b.toNode r) :
    ∃ n, Inside n root ∧ n.kind = "object" ∧ b.LaidOut source root n := by
  obtain ⟨n, table, hin, hkind, hplain, hspan, he, hserves⟩ := object_built h hb
  obtain ⟨hinside, hordered⟩ := hnest n hin
  have hfollow : Following n.start n.children :=
    ⟨fun c hc => ⟨(hinside c hc).1, (hinside c hc).2.1⟩, hordered⟩
  obtain ⟨hbuilt, hseps⟩ := he.places
  -- a pair among the properties comes from a child of the object
  have hpair : ∀ {e : Nat × Cst} {m span fs}, buildEntry source table e.1 e.2 = .ok m →
      PairOf m span fs → fs = e.1 ∧ span.start = e.2.start ∧ span.stop = e.2.stop :=
    fun hbuild hm => (pair_of_buildEntry hplain hbuild hm).2
  have hforward : ∀ m ∈ b.properties, ∀ span fs, PairOf m span fs →
      (fs : Int) ≤ span.start ∧ span.start ≤ span.stop := by
    intro m hm span fs hpairOf
    obtain ⟨e, hemem, hbuild⟩ := exists_left_of_forall₂ hbuilt hm
    obtain ⟨rfl, hstart, -⟩ := hpair hbuild hpairOf
    have := (hfollow.places_forward e hemem).2
    exact ⟨by omega, span.start_le_stop⟩
  have hfull : ∀ m ∈ b.properties, ∀ span fs, PairOf m span fs →
      ∃ s, Span.ofEnds fs span.stop = .ok s ∧ s.covers span = true := by
    intro m hm span fs hpairOf
    obtain ⟨h₁, h₂⟩ := hforward m hm span fs hpairOf
    exact ⟨_, Span.ofEnds_of_le (by omega), Span.covers_iff.2 ⟨h₁, Int.le_refl _⟩⟩
  refine ⟨n, hin, hkind, ?_⟩
  constructor
  · exact spanOf_eq hspan
  · rw [← hbuilt.length_eq, ← map_snd_places n.start, List.length_map]
  · intro pre c post hsplit hentry
    have hplace := @getElem?_places n.start pre c post hentry
    rw [← hsplit] at hplace
    obtain ⟨m, hm, hbuild⟩ := getElem?_of_forall₂ hbuilt hplace
    exact ⟨m, hm, entryOf_built hplain hserves (by simp [hsplit]) hentry hbuild⟩
  · exact hseps
  · exact hforward
  · refine pairwise_of_forall₂ hbuilt hfollow.places_apart ?_
    intro e f m q he hf hef span fs span' fs' hm hq
    obtain ⟨-, -, hstop⟩ := hpair he hm
    obtain ⟨rfl, -, -⟩ := hpair hf hq
    omega
  · intro c hc hcomma m hm span fs hpairOf
    obtain ⟨e, hemem, hbuild⟩ := exists_left_of_forall₂ hbuilt hm
    obtain ⟨rfl, -, hstop⟩ := hpair hbuild hpairOf
    have := hfollow.places_clear hc hcomma e hemem
    omega
  · exact hfull
  · intro name allowList
    unfold Entry.inspect?
    cases hp : b.property? name with
    | none => exact ⟨none, rfl⟩
    | some p =>
      obtain ⟨m, hm, hmp, -⟩ := Block.pairOf_of_property? hp
      obtain ⟨full, hends, hcov⟩ := hfull m hm p.span p.fullStart ⟨_, _, hmp⟩
      refine ⟨some ⟨p.key, .ofNode allowList p.value, full, p.span, hcov⟩, ?_⟩
      simp [Entry.ofProperty, Entry.make, hends, Except.mapError, bind, Except.bind, hcov]

open Splice in
/-- The pairs of an object of a string and a number. -/
theorem lower_laidOut_string_number :
    ∃ n, Inside n (Sample.object 0 7 12) ∧ n.kind = "object" ∧
      (Sample.block Sample.reads).LaidOut Sample.source (Sample.object 0 7 12) n := by
  refine lower_laidOut (fun n hn => ?_) (Sample.lower_eq Sample.reads) (.self _)
  exact of_decide_eq_true (@all_of_inside (fun n => decide n.Nested) _ _ hn (by decide))

end Lowering

end AssetLift
