import AssetLift.Proofs.Commit
import AssetLift.Proofs.Concern
import AssetLift.Proofs.Conservation
import AssetLift.Proofs.Text

/-!
# What becomes of one file

A file that is looked at is left alone with everything around it, unless it ends up committed. Then
its pairs are swapped for references and its target files are made (`Rewrites`), and nothing else
happens (`processUnit_effect`). The grammar is taken to give an error, or a tree whose nodes lie in
the file, ordered and nested (`Source.Sound`).

* `Block.width_of_placed`: the pairs of a block lie in the file and are not empty.
* `Decisions.progress`: the edits staged for the concerns swap their pairs.
* `Effect`: the two ways a file can end.
-/

namespace AssetLift

/-! ## Trees that lie in their file -/

/-- A node lies in the file, with its children inside it and in order. Pairs are not empty. -/
structure Cst.Placed (source : Bytes) (n : Cst) : Prop where
  inside : n.start ≤ n.stop ∧ n.stop ≤ source.length
  nested : ∀ c ∈ n.children, n.start ≤ c.start ∧ c.stop ≤ n.stop
  ordered : n.children.Pairwise fun c d => c.stop ≤ d.start
  width : n.kind = "pair" → n.start < n.stop

instance (source : Bytes) (n : Cst) : Decidable (n.Placed source) :=
  decidable_of_iff
    ((n.start ≤ n.stop ∧ n.stop ≤ source.length) ∧
      (∀ c ∈ n.children, n.start ≤ c.start ∧ c.stop ≤ n.stop) ∧
      (n.children.Pairwise fun c d => c.stop ≤ d.start) ∧ (n.kind = "pair" → n.start < n.stop))
    ⟨fun ⟨h₁, h₂, h₃, h₄⟩ => ⟨h₁, h₂, h₃, h₄⟩, fun ⟨h₁, h₂, h₃, h₄⟩ => ⟨h₁, h₂, h₃, h₄⟩⟩

/-- A grammar gives an error, or a tree that lies in its file. -/
def Source.Sound (g : Grammar) : Prop :=
  ∀ source, (g source).hasError ∨ ∀ n, Cst.Inside n (g source) → n.Placed source

namespace Lowering

/-- A pair of an object comes from a child that is one. -/
theorem Entries.pair {source : Bytes} {table : Table} (hp : table.Plain) {last : Nat}
    {cs : List Cst} {ps : List Node} {seps : List Nat} (h : Entries source table last cs ps seps) :
    ∀ m ∈ ps, ∀ span fs, PairOf m span fs →
      ∃ c ∈ cs, c.kind = "pair" ∧ span.start = c.start ∧ span.stop = c.stop := by
  induction h with
  | nil => simp
  | comment _ _ ih | comma _ _ _ ih | token _ _ _ _ ih =>
    intro m hm span fs hpair
    obtain ⟨c, hc, hrest⟩ := ih m hm span fs hpair
    exact ⟨c, List.mem_cons_of_mem _ hc, hrest⟩
  | @entry _ c _ _ _ _ _ _ _ hbuilt _ ih =>
    intro m hm span fs hpair
    rcases List.mem_cons.1 hm with rfl | hm
    · obtain ⟨hkind, -, hspan⟩ := pair_of_buildEntry hp hbuilt hpair
      exact ⟨c, List.mem_cons_self, hkind, hspan⟩
    · obtain ⟨c, hc, hrest⟩ := ih m hm span fs hpair
      exact ⟨c, List.mem_cons_of_mem _ hc, hrest⟩

end Lowering

/-- **The pairs of a block lie in the file and are not empty.** -/
theorem Block.width_of_placed {source : Bytes} {root : Cst} {r : Node}
    (hr : Lowering.lower source root = .ok r)
    (hplaced : ∀ n, Cst.Inside n root → n.Placed source) {b : Block} (hb : Node.Part b.toNode r)
    {key : String} {p : Property} (hp : b.property? key = some p) :
    p.span.start < p.span.stop ∧ p.span.stop ≤ source.length := by
  obtain ⟨n, table, hin, -, hplain, hbuild⟩ := Lowering.lower_object hr _ _ _ hb
  obtain ⟨ps, seps, span, heq, he, -⟩ := Lowering.buildObject_eq hbuild
  obtain ⟨rfl, rfl, rfl⟩ := Node.object.inj heq
  obtain ⟨m, hm, rfl, -⟩ := pairOf_of_property? hp
  obtain ⟨c, hc, hkind, hstart, hstop⟩ := he.pair hplain _ hm p.span p.fullStart ⟨_, _, rfl⟩
  obtain ⟨hinside, -, -, hwidth⟩ := hplaced c (.child hc hin)
  have := hwidth hkind
  omega

/-- What the entry of a pair is made of. -/
theorem Entry.ofProperty_eq {allowList : Bool} {p : Block.Property} {e : Entry}
    (h : ofProperty allowList p = .ok e) : e.value = .ofNode allowList p.value ∧ e.name = p.key ∧
      e.core = p.span ∧ e.full.start = p.fullStart ∧ e.full.stop = p.span.stop := by
  unfold ofProperty at h
  obtain ⟨full, hfull, h⟩ := bind_eq_ok.1 h
  obtain ⟨hstart, hstop⟩ := Span.ofEnds_eq_ok.1 (mapError_eq_ok.1 hfull)
  unfold make at h
  split at h
  · obtain rfl := Except.ok.inj h
    exact ⟨rfl, rfl, rfl, hstart, hstop⟩
  · cases h

namespace Migration

open Splice

/-! ## What is moved -/

/-- The literals that the entry of a concern holds. -/
def literals (b : Block) (c : Concern) : List String :=
  match b.property? c.name with
  | some p => (EntryValue.ofNode c.allowList p.value).texts
  | none => []

/-- The files planned for the literals of a concern. -/
def targets (s : Settings) (path : Path) (b : Block) (c : Concern) : List PlannedFile :=
  planned s path (literals b c) c

/-- The reference that comes in the place of the entry of a concern. -/
def replacement (s : Settings) (path : Path) (b : Block) (c : Concern) : Replacement :=
  ⟨c.name, reference s (targets s path b c) c, c.allowList⟩

/-- The bytes of a file with the entries of concerns swapped for references. -/
def rewritten (s : Settings) (path : Path) (b : Block) (cs : List Concern) (source : Bytes) : Bytes :=
  Swap.apply (swaps b (cs.map (replacement s path b))) source

/-- Each target holds one of the literals. -/
theorem mem_planned {s : Settings} {path : Path} {texts : List String} {c : Concern}
    {f : PlannedFile} (h : f ∈ planned s path texts c) :
    ∃ text ∈ texts, f.content = CodePoint.ofString text := by
  cases c with
  | template =>
    obtain ⟨text, htext, rfl⟩ := List.mem_map.1 h
    exact ⟨text, List.mem_of_mem_take htext, rfl⟩
  | styles =>
    obtain ⟨⟨content, i⟩, hi, rfl⟩ := List.mem_map.1 h
    obtain ⟨text, htext, rfl⟩ := List.mem_map.1 (List.fst_mem_of_mem_zipIdx hi)
    exact ⟨text, htext, rfl⟩

/-- The concerns that a list of decisions moves. -/
def migratedIn (log : List (Concern × ConcernState)) : List Concern :=
  (log.filter (·.2 = .migrated)).map (·.1)

/-- What has been staged once the concerns `done` are to be moved. -/
structure Staged (s : Settings) (path : Path) (b : Block) (source : Bytes) (done : List Concern)
    (p : Patch) : Prop where
  progress : Progress source b (done.map (replacement s path b)) p
  files : ∀ f ∈ p.files, ∃ c ∈ done, f ∈ targets s path b c

section
variable {setup : Setup} {t : FileTree} {b : Block} {path : Path} {source : Bytes}
  (hb : ∀ {key p}, b.property? key = some p →
    p.span.start < p.span.stop ∧ p.span.stop ≤ source.length)
include hb

/-- **One decision more** stages the edit and the files of its concern, if it moves it. -/
theorem Decided.staged {c : Concern} {p p' : Patch} {st : ConcernState} {done : List Concern}
    (h : Decided setup t b path c p st p') (hp : Staged setup.settings path b source done p) :
    Staged setup.settings path b source (done ++ migratedIn [(c, st)]) p' := by
  cases h with
  | already | absent | unusable | empty | missing => simpa [migratedIn] using hp
  | @migrated pr e staged s hinline hpair hentry hvalue htexts hfiles hedit =>
    obtain ⟨hval, -, hcore, hstart, hstop⟩ := Entry.ofProperty_eq hentry
    obtain ⟨hwide, hinside⟩ := hb hpair
    have hlits : literals b c = e.value.texts := by simp only [literals, hpair, hval]
    have hsource := hp.progress.source_eq
    have hel : e.Lies source :=
      ⟨by rw [hstart]; omega, by rw [hcore, hstop], by rw [hstop]; exact hinside⟩
    obtain ⟨plan, ed, hplan, hed, hstage⟩ := hedit.edit
    rw [hsource] at hplan hed
    obtain ⟨plan', hplan', hplanned⟩ := Removal.plan_spec hel b.properties.length p.staging.spans
    obtain rfl : plan = plan' := Except.ok.inj (hplan.symm.trans hplan')
    obtain ⟨hremove, hwidens⟩ := Removal.widens_of_edit hel hplanned
      (by rw [hcore]; exact hwide) hed
    obtain ⟨-, hclear, rfl⟩ := Staging.stage_eq_ok.1 hstage
    rw [hcore, ← hlits] at hwidens
    have hmade : Made source b ed (replacement setup.settings path b c) :=
      ⟨pr, hpair, by rw [hremove]; exact grips_of_planned hstart hstop hel hplanned, hwidens⟩
    simp only [migratedIn, List.filter_cons, decide_true, ↓reduceIte, List.filter_nil, List.map_cons,
      List.map_nil]
    refine ⟨⟨hsource, ?_, ?_⟩, ?_⟩
    · rw [List.map_append]
      exact List.rel_append hp.progress.made (.cons hmade .nil)
    · refine List.pairwise_append.2
        ⟨hp.progress.apart, List.pairwise_singleton _ _, fun f hf g hg => ?_⟩
      rw [List.mem_singleton.1 hg]
      -- an edit that was accepted meets no earlier one
      have hno := mt Span.overlaps_iff.2 (by simpa using (hclear f hf).1)
      omega
    · intro f hf
      rcases List.mem_append.1 hf with hf | hf
      · obtain ⟨d, hd, hfd⟩ := hp.files f hf
        exact ⟨d, List.mem_append_left _ hd, hfd⟩
      · refine ⟨c, by simp, ?_⟩
        rw [targets, hlits]
        exact hfiles.sublist.subset hf

theorem Decisions.staged {cs : List Concern} {p p' : Patch} {log : List (Concern × ConcernState)}
    (h : Decisions setup t b path cs p log p') {done : List Concern}
    (hp : Staged setup.settings path b source done p) :
    Staged setup.settings path b source (done ++ migratedIn log) p' := by
  induction h generalizing done with
  | nil => simpa [migratedIn] using hp
  | @cons c cs p st p' log p'' hc _ ih =>
    have := ih (hc.staged hb hp)
    rw [List.append_assoc, migratedIn, migratedIn, ← List.map_append, ← List.filter_append] at this
    exact this

end

theorem Decisions.concerns {setup : Setup} {t : FileTree} {b : Block} {path : Path}
    {cs : List Concern} {p p' : Patch} {log : List (Concern × ConcernState)}
    (h : Decisions setup t b path cs p log p') : log.map (·.1) = cs := by
  induction h with
  | nil => rfl
  | cons _ _ ih => rw [List.map_cons, ih]

theorem migratedIn_eq {log : List (Concern × ConcernState)} (h : (log.map (·.1)).Nodup) :
    migratedIn log = (log.map (·.1)).filter (log.lookup · = some .migrated) := by
  induction log with
  | nil => rfl
  | cons e log ih =>
    obtain ⟨c, st⟩ := e
    rw [List.map_cons, List.nodup_cons] at h
    -- the first decision is the one on its concern, the others are on others
    have hrest : (log.map (·.1)).filter (((c, st) :: log).lookup · = some .migrated)
        = (log.map (·.1)).filter (log.lookup · = some .migrated) := by
      refine List.filter_congr fun d hd => ?_
      have hne : d ≠ c := fun heq => h.1 (heq ▸ hd)
      rw [List.lookup_cons, beq_false_of_ne hne]
    rw [List.map_cons, List.filter_cons, hrest, ← ih h.2, List.lookup_cons, beq_self_eq_true]
    by_cases hst : st = .migrated
    · simp [migratedIn, hst]
    · simp [migratedIn, hst]

theorem Decisions.migrated {setup : Setup} {t : FileTree} {b : Block} {path : Path} {o : Outcome}
    {p p' : Patch} (h : Decisions setup t b path Concern.all p o.concerns p') :
    migratedIn o.concerns = o.migrated := by
  rw [migratedIn_eq (by rw [h.concerns]; decide), h.concerns]
  rfl

/-! ## How a file can end -/

/-- What a commit has changed: the file, which stands at `loc`, and the files that are new. -/
structure Change where
  source : Bytes
  mode : Nat
  block : Block
  loc : Location
  new : List (Location × FileNode)

/-- A file that was made where nothing stood, for one of the literals moved. -/
structure MadeFor (setup : Setup) (t : FileTree) (path : Path) (b : Block) (cs : List Concern)
    (p : Path) (e : Location × FileNode) : Prop where
  free : t.resolve false p = .ok (.absent e.1)
  content : ∃ c ∈ cs, ∃ text ∈ literals b c,
    ⟨p, CodePoint.ofString text⟩ ∈ targets setup.settings path b c ∧
      e.2 = .file (Bytes.ofString text) FileTree.defaultMode

/-- A commit has swapped the entries moved for references, and has made the files referred to. -/
structure Rewrites (setup : Setup) (t : FileTree) (path : Path) (o : Outcome) (t' : FileTree)
    (ch : Change) : Prop where
  read : readBlock setup t path = .ok (ch.source, some ch.block)
  leads : ∃ l, t.resolve true path = .ok (.present l (.file ch.source ch.mode))
  stands : ∃ n, t.resolve false path = .ok (.present ch.loc n) ∧ t.find? ch.loc = some n ∧
    n ≠ .directory
  decided : ∃ p, Decisions setup t ch.block path Concern.all (.ofSource path ch.source) o.concerns p
  moved : o.migrated ≠ []
  fresh : t.Fresh ch.new
  made : List.Forall₂ (MadeFor setup t path ch.block o.migrated) o.created ch.new
  tree : t' = (t.set ch.loc (.file
    (rewritten setup.settings path ch.block o.migrated ch.source) ch.mode)).extend ch.new

/-- The two ways a file can end. -/
inductive Effect (setup : Setup) (t : FileTree) (path : Path) : Outcome → FileTree → Prop
  | untouched {o} (hstate : o.state ≠ .committed) (hcreated : o.created = []) :
      Effect setup t path o t
  | rewritten {o t' ch} (hstate : o.state = .committed) (h : Rewrites setup t path o t' ch) :
      Effect setup t path o t'

theorem leads_of_read {t : FileTree} {path : Path} {source : Bytes} (h : t.read path = .ok source) :
    ∃ l mode, t.resolve true path = .ok (.present l (.file source mode)) := by
  unfold FileTree.read at h
  split at h
  · cases h
  · split at h
    · rename_i l content mode hr
      obtain rfl := Except.ok.inj h
      exact ⟨l, mode, hr⟩
    · cases h
    · cases h
    · cases h

/-- What the block of a file comes from. -/
theorem readBlock_eq_ok {setup : Setup} {t : FileTree} {path : Path} {source : Bytes}
    {b : Option Block} : readBlock setup t path = .ok (source, b) ↔ t.read path = .ok source ∧
      (setup.grammar source).hasError = false ∧
      ∃ root, Lowering.lower source (setup.grammar source) = .ok root ∧
        Block.find? setup.settings.decoratorName root = .ok b := by
  have hnode : ∀ {source root}, Source.node source (setup.grammar source) = .ok root ↔
      (setup.grammar source).hasError = false ∧
        Lowering.lower source (setup.grammar source) = .ok root := by
    intro source root
    unfold Source.node Cst.check
    cases (setup.grammar source).hasError with
    | true => simp [Except.mapError, bind, Except.bind]
    | false => simp [Except.mapError, bind, Except.bind]; split <;> simp_all
  unfold readBlock
  constructor
  · intro h
    obtain ⟨source', hread, h⟩ := bind_eq_ok.1 h
    obtain ⟨root, hroot, h⟩ := bind_eq_ok.1 h
    obtain ⟨b', hfind, h⟩ := bind_eq_ok.1 h
    obtain ⟨rfl, rfl⟩ := Prod.mk.inj (pure_eq_ok.1 h)
    obtain ⟨herror, hlower⟩ := hnode.1 (mapError_eq_ok.1 hroot)
    exact ⟨mapError_eq_ok.1 hread, herror, root, hlower, mapError_eq_ok.1 hfind⟩
  · rintro ⟨hread, herror, root, hlower, hfind⟩
    rw [hread]
    refine bind_eq_ok.2 ⟨source, rfl, bind_eq_ok.2 ⟨root, ?_, bind_eq_ok.2 ⟨b, ?_, rfl⟩⟩⟩
    · exact mapError_eq_ok.2 (hnode.2 ⟨herror, hlower⟩)
    · exact mapError_eq_ok.2 hfind

theorem idleState_ne_committed (o : Outcome) : o.idleState ≠ .committed := by
  unfold Outcome.idleState
  dsimp only
  split <;> decide

/-- A file before anything is staged for it. -/
def opening (path : Path) (source : Bytes) : Draft := ⟨{ path }, .ofSource path source⟩

/-- What becomes of a file once its concerns have been looked at. -/
def close (setup : Setup) (t : FileTree) : Except Fault Unit × Draft → Outcome × FileTree
  | (.error f, d) => (failed d.outcome f, t)
  | (.ok (), d) =>
    if d.patch.staging.edits.isEmpty then ({ d.outcome with state := d.outcome.idleState }, t)
    else
      match (d.patch.commit setup.outages.commit).runOn t with
      | (.ok r, t') => (committed d.outcome r, t')
      | (.error f, t') => (failed d.outcome (.io f), t')

theorem processBlock_eq (setup : Setup) (t : FileTree) (path : Path) (source : Bytes) (b : Block) :
    processBlock setup t path source b
      = close setup t (runFrom (stageConcerns setup t b Concern.all) (opening path source)) := by
  unfold processBlock opening runFrom
  generalize hr : (stageConcerns setup t b Concern.all).run
    (⟨{ path }, .ofSource path source⟩ : Draft) = r
  rcases r with ⟨f | u, d⟩
  · simp only [hr]
    rfl
  · simp only [hr]
    rfl

section
variable {setup : Setup} (hfill : setup.outages.commit.fill = none) {t : FileTree} {path : Path}
  {source : Bytes} {b : Block} (hread : readBlock setup t path = .ok (source, some b))
include hfill hread

theorem commit_effect {d : Draft} (hpath : d.outcome.path = path)
    (hcreated : d.outcome.created = []) (hpatch : d.patch.path = path)
    (hdecided : Decisions setup t b path Concern.all (.ofSource path source) d.outcome.concerns d.patch)
    (hstaged : Staged setup.settings path b source (migratedIn d.outcome.concerns) d.patch)
    (hedits : d.patch.staging.edits.isEmpty = false) :
    (close setup t (.ok (), d)).1.path = path ∧
      Effect setup t path (close setup t (.ok (), d)).1 (close setup t (.ok (), d)).2 := by
  obtain ⟨l, mode, hl⟩ := leads_of_read (readBlock_eq_ok.1 hread).1
  rw [hdecided.migrated] at hstaged
  -- what is planned for a literal can be written
  have hliteral : ∀ f ∈ d.patch.files, ∃ c ∈ d.outcome.migrated, ∃ text ∈ literals b c,
      f.content = CodePoint.ofString text ∧ f ∈ targets setup.settings path b c := by
    intro f hf
    obtain ⟨c, hc, hfc⟩ := hstaged.files f hf
    obtain ⟨text, htext, hcontent⟩ := mem_planned hfc
    exact ⟨c, hc, text, htext, hcontent, hfc⟩
  have hwrite : ∀ f ∈ d.patch.files, Commit.Writable setup.outages.commit f := by
    intro f hf
    obtain ⟨-, -, text, -, hcontent, -⟩ := hliteral f hf
    exact ⟨hfill, Bytes.ofString text, by rw [hcontent, Utf8.encode_ofString]⟩
  rw [← hpatch] at hl
  obtain ⟨r, t', hdoes, hend⟩ := Commit.does_commit setup.outages.commit hl hwrite
  rw [close, hedits, hdoes.runOn]
  simp only [Bool.false_eq_true, ↓reduceIte]
  cases hend with
  | landed _ h => rw [hedits] at h; cases h
  | unopened | unreplaced => exact ⟨hpath, .untouched (by simp [failed]) hcreated⟩
  | @replaced done new loc n l' old mode' hland _ hplace hnode hfile hread' =>
    obtain ⟨rfl, rfl, rfl⟩ : l' = l ∧ old = source ∧ mode' = mode := by
      rw [hl] at hread'
      simpa [eq_comm] using hread'
    let ch : Change := ⟨old, mode', b, loc, new⟩
    have hrewrites : Rewrites setup t path (committed d.outcome done)
        ((t.set loc (.file d.patch.render mode')).extend new) ch := by
      have hmoved : d.outcome.migrated ≠ [] := by
        intro hnone
        have hmade := hstaged.progress.made
        rw [hnone] at hmade
        rw [List.forall₂_nil_right_iff.1 hmade] at hedits
        simp at hedits
      refine ⟨hread, ⟨l', hpatch ▸ hl⟩, ⟨n, hpatch ▸ hplace, hnode, hfile⟩, ⟨d.patch, hdecided⟩,
        hmoved, hland.fresh, ?_, ?_⟩
      · have hmade : (committed d.outcome done).created = done.created := by simp [committed, hcreated]
        rw [hmade]
        refine hland.created.imp fun p e hm => ⟨hm.free, ?_⟩
        obtain ⟨f, hf, rfl, bytes, hbytes, he⟩ := hm.content
        obtain ⟨c, hc, text, htext, hcontent, hfc⟩ := hliteral f hf
        rw [hcontent, Utf8.encode_ofString, Except.ok.injEq] at hbytes
        exact ⟨c, hc, text, htext, by rw [← hcontent]; exact hfc, by rw [he, hbytes]⟩
      · rw [(hstaged.progress.render).1]
        rfl
    exact ⟨hpath, .rewritten rfl hrewrites⟩

theorem processBlock_effect (hb : ∀ {key p}, b.property? key = some p →
      p.span.start < p.span.stop ∧ p.span.stop ≤ source.length) :
    (processBlock setup t path source b).1.path = path ∧
      Effect setup t path (processBlock setup t path source b).1
        (processBlock setup t path source b).2 := by
  have hheld := stageConcerns_held setup t b Concern.all (opening path source)
  rw [processBlock_eq]
  rcases hr : runFrom (stageConcerns setup t b Concern.all) (opening path source) with ⟨f | u, d⟩
  · rw [hr] at hheld
    exact ⟨hheld.path, .untouched (by simp [close, failed]) hheld.created⟩
  rw [hr] at hheld
  obtain ⟨log, hlog, hdecided⟩ := stageConcerns_decided hr
  obtain rfl : d.outcome.concerns = log := hlog
  cases hedits : d.patch.staging.edits.isEmpty with
  | true =>
    rw [close, hedits]
    exact ⟨hheld.path, .untouched (idleState_ne_committed _) hheld.created⟩
  | false =>
    have hnone : Staged setup.settings path b source [] (opening path source).patch :=
      ⟨progress_ofSource source b path, by simp [opening, Patch.ofSource]⟩
    have hstaged := hdecided.staged hb hnone
    exact commit_effect hfill hread hheld.path hheld.created hheld.patch hdecided hstaged hedits

end

/-- **A file is left alone with everything around it, or it is committed** and rewritten as
planned. -/
theorem processUnit_effect {setup : Setup} (hfill : setup.outages.commit.fill = none)
    (hsound : Source.Sound setup.grammar) (t : FileTree) (path : Path) :
    (processUnit setup t path).1.path = path ∧
      Effect setup t path (processUnit setup t path).1 (processUnit setup t path).2 := by
  unfold processUnit
  split
  · exact ⟨rfl, .untouched (by simp [failed]) rfl⟩
  · exact ⟨rfl, .untouched (by simp [Outcome.tell]) rfl⟩
  · rename_i source b hread
    obtain ⟨-, herror, root, hlower, hfind⟩ := readBlock_eq_ok.1 hread
    have hplaced := (hsound source).resolve_left (by simp [herror])
    exact processBlock_effect hfill hread
      fun hp => Block.width_of_placed hlower hplaced (Block.find?_part hfind) hp

end Migration

end AssetLift
