import AssetLift.Proofs.Relowering
import AssetLift.Proofs.Run
import Mathlib.Data.List.Find

/-!
# A file looked at twice

After a file was looked at once, looking at it again changes nothing. A file that was left alone is
met as it was. A file that was committed is read again from its new bytes: its block has the
references that were written, so what was moved counts as moved, and every other decision goes as it
went (`Decided.again`).

* `property?_again`, `has_reference`: the pairs of the new block.
* `stageConcerns_idle`: decisions that move nothing leave the patch as it is.
* `Rewrites.readBlock_again`: the block is read again from the rewritten file.
* `processUnit_idempotent`: the two looks at a file.
-/

namespace AssetLift

namespace Revision

open Block Migration

variable {R : Revision}

/-! ## The pairs of the new block -/

/-- The second pair is the first, its ranges moved. -/
structure PropertyKept (R : Revision) (p p' : Property) : Prop where
  key : p'.key = p.key
  value : Option.Rel R.Relowered p.value p'.value
  span : R.Shifts p.span p'.span
  fullStart : p'.fullStart = R.move p.fullStart

theorem ofNode?_relowered (name : String) {q q' : Node} (h : R.Relowered q q') :
    Option.Rel (PropertyKept R) (Property.ofNode? name q) (Property.ofNode? name q') := by
  have hkept : ∀ {key : Option String} {v v' : Option Node} {s s' : Span} {i : Nat},
      R.Shifts s s' → Option.Rel R.Relowered v v' →
      Option.Rel (PropertyKept R) (Property.ofNode? name (.property key v s i))
        (Property.ofNode? name (.property key v' s' (R.move i))) := by
    intro key v v' s s' i hspan hv
    cases key with
    | none => exact .none
    | some key =>
      unfold Property.ofNode?
      dsimp only
      split
      · exact .some ⟨rfl, hv, hspan, rfl⟩
      · exact .none
  cases h with
  | property hspan hv => exact hkept hspan (.some hv)
  | bare hspan => exact hkept hspan .none
  | _ => exact .none

/-- The pairs with a key that no swap is about are found again. -/
theorem findSome?_relowered {name : String} {todo : List Concern} {ps ps' : List Node}
    (h : R.ReloweredAll todo ps ps') (hname : ∀ d ∈ todo, name ≠ d.name ∧ name ≠ d.referenceKey) :
    Option.Rel (PropertyKept R) (ps.findSome? (Property.ofNode? name))
      (ps'.findSome? (Property.ofNode? name)) := by
  induction ps generalizing todo ps' with
  | nil => cases h; exact .none
  | cons q ps ih =>
    cases h with
    | @kept _ _ q' _ ps' _ hq hrest =>
      have hhere := ofNode?_relowered name hq
      rw [List.findSome?_cons, List.findSome?_cons]
      generalize Property.ofNode? name q = p, Property.ofNode? name q' = p' at hhere
      cases hhere with
      | none => exact ih hrest hname
      | some hp => exact .some hp
    | @swapped _ d v v' s s' i _ ps' hd _ _ _ hrest =>
      obtain ⟨hne, hne'⟩ := hname d hd
      have hold : Property.ofNode? name (.property (some d.name) (some v) s i) = none :=
        ofNode?_of_key? fun h => hne (Option.some.inj h).symm
      have hnew : Property.ofNode? name (.property (some d.referenceKey) (some v') s' (R.move i))
          = none := ofNode?_of_key? fun h => hne' (Option.some.inj h).symm
      rw [List.findSome?_cons, List.findSome?_cons, hold, hnew]
      exact ih hrest fun c hc => hname c (List.mem_of_mem_filter hc)

/-- A pair that is swapped is found under the reference key. -/
theorem findSome?_swapped {todo : List Concern} {ps ps' : List Node}
    (h : R.ReloweredAll todo ps ps') {d : Concern} (hd : d ∈ todo)
    (hold : (ps.findSome? (Property.ofNode? d.name)).isSome = true) :
    (ps'.findSome? (Property.ofNode? d.referenceKey)).isSome = true := by
  induction ps generalizing todo ps' with
  | nil => simp at hold
  | cons q ps ih =>
    cases h with
    | @kept _ _ q' _ ps' hno _ hrest =>
      rw [List.findSome?_cons, ofNode?_of_key? (hno d hd)] at hold
      rw [List.findSome?_cons]
      split
      · rfl
      · exact ih hrest hd hold
    | @swapped _ c v v' s s' i _ ps' _ _ _ _ hrest =>
      by_cases hcd : c = d
      · subst hcd
        simp [Property.ofNode?]
      · have hother : Property.ofNode? d.name (.property (some c.name) (some v) s i) = none :=
          ofNode?_of_key? fun h => hcd (name_injective (Option.some.inj h))
        rw [List.findSome?_cons, hother] at hold
        rw [List.findSome?_cons]
        split
        · rfl
        · exact ih hrest (List.mem_filter.2 ⟨hd, by simpa using Ne.symm hcd⟩) hold

/-- The keys of a concern are not those of another. -/
theorem keys_apart {c d : Concern} (h : c ≠ d) :
    ∀ key ∈ c.name :: c.referenceKeys, key ≠ d.name ∧ key ≠ d.referenceKey := by
  cases c with
  | template =>
    cases d with
    | template => exact absurd rfl h
    | styles => decide
  | styles =>
    cases d with
    | template => decide
    | styles => exact absurd rfl h

section
variable {b' : Block} (hps : R.ReloweredAll R.concerns R.block.properties b'.properties)
include hps

theorem property?_again {c : Concern} (hc : c ∉ R.concerns) {key : String}
    (hkey : key ∈ c.name :: c.referenceKeys) :
    Option.Rel (PropertyKept R) (R.block.property? key) (b'.property? key) := by
  refine findSome?_relowered hps fun d hd => keys_apart (fun heq : c = d => ?_) key hkey
  exact hc (heq ▸ hd)

theorem kept_again {c : Concern} (hc : c ∉ R.concerns) {p : Property}
    (hp : R.block.property? c.name = some p) :
    ∃ p', b'.property? c.name = some p' ∧ PropertyKept R p p' := by
  have h := property?_again hps hc List.mem_cons_self
  rw [hp] at h
  generalize b'.property? c.name = p' at h
  cases h with
  | some h => exact ⟨_, rfl, h⟩

theorem find?_has_again {c : Concern} (hc : c ∉ R.concerns) :
    c.referenceKeys.find? b'.has = c.referenceKeys.find? R.block.has := by
  refine List.find?_congr fun key hkey => ?_
  have h := property?_again hps hc (List.mem_cons_of_mem _ hkey)
  unfold has
  generalize R.block.property? key = p, b'.property? key = p' at h
  cases h <;> rfl

theorem find?_has_moved {c : Concern} (hc : c ∈ R.concerns)
    (hold : (R.block.property? c.name).isSome = true) :
    ∃ key, c.referenceKeys.find? b'.has = some key := by
  refine Option.isSome_iff_exists.1 (List.find?_isSome.2 ⟨c.referenceKey, ?_, ?_⟩)
  · cases c <;> decide
  · exact findSome?_swapped hps hc hold

end

theorem ofNode_relowered (allowList : Bool) {v v' : Option Node}
    (h : Option.Rel R.Relowered v v') :
    EntryValue.ofNode allowList v' = EntryValue.ofNode allowList v := by
  have hliterals : ∀ {es es' : List Node}, List.Forall₂ R.Relowered es es' →
      EntryValue.literals? es' = EntryValue.literals? es := by
    intro es es' hes
    induction hes with
    | nil => rfl
    | cons he _ ih =>
      cases he with
      | literal => rw [EntryValue.literals?, EntryValue.literals?, ih]
      | _ => rfl
  cases h with
  | none => rfl
  | some hv =>
    cases hv with
    | array _ hes =>
      unfold EntryValue.ofNode
      dsimp only
      rw [hliterals (reloweredAll_iff.1 hes)]
    | _ => rfl

/-- A pair that is kept gives the entry it gave, its ranges apart. -/
theorem ofProperty_again {allowList : Bool} {p p' : Property} (h : PropertyKept R p p') {e : Entry}
    (he : Entry.ofProperty allowList p = .ok e) :
    ∃ e', Entry.ofProperty allowList p' = .ok e' ∧ e'.value = e.value ∧ e'.name = e.name := by
  obtain ⟨hvalue, hname, hcore, hstart, hstop⟩ := Entry.ofProperty_eq he
  have hcovers := (Span.covers_iff.1 e.covered).1
  rw [hcore, hstart] at hcovers
  have hmono : R.move p.fullStart ≤ R.move p.span.start.toNat := R.move_mono (by omega)
  have hle : (p'.fullStart : Int) ≤ p'.span.start := by
    rw [h.fullStart, h.span.start]
    exact Int.ofNat_le.2 hmono
  have hends := p'.span.start_le_stop
  have hfull : Span.covers ⟨p'.fullStart, p'.span.stop, by omega⟩ p'.span = true :=
    Span.covers_iff.2 ⟨hle, Int.le_refl _⟩
  refine ⟨⟨p'.key, .ofNode allowList p'.value, ⟨p'.fullStart, p'.span.stop, by omega⟩, p'.span, hfull⟩,
    ?_, ?_, ?_⟩
  · rw [Entry.ofProperty, Span.ofEnds_of_le (by omega)]
    exact dif_pos hfull
  · rw [hvalue]
    exact ofNode_relowered allowList h.value
  · rw [hname]
    exact h.key

end Revision

/-- What is decided on a concern when it is looked at again. -/
def ConcernState.settled : ConcernState → ConcernState
  | migrated => alreadyMigrated
  | s => s

theorem ConcernState.settled_ne_migrated (s : ConcernState) : s.settled ≠ migrated := by
  cases s <;> decide

namespace Migration

open Revision

/-! ## The decisions again -/

/-- An entry is found a second time, unless it is said to vanish. -/
theorem relocate_eq_error {setup : Setup} {b : Block} {e : Entry} {p : Block.Property}
    {allowList : Bool} (hp : b.property? p.key = some p) (he : Entry.ofProperty allowList p = .ok e) :
    (∃ f, relocate setup b e = .error f) ↔ e.name ∈ setup.outages.vanished := by
  obtain ⟨-, hname, hcore, -, -⟩ := Entry.ofProperty_eq he
  unfold relocate Entry.relocate
  rw [hname, hp]
  split
  · exact ⟨fun _ => ‹_›, fun _ => ⟨_, rfl⟩⟩
  · rename_i hkept
    simp [hcore, hkept]

theorem key_of_property? {b : Block} {key : String} {p : Block.Property}
    (h : b.property? key = some p) : p.key = key := by
  obtain ⟨n, -, hn⟩ := List.exists_of_findSome?_eq_some h
  unfold Block.Property.ofNode? at hn
  split at hn
  · split at hn
    · obtain rfl := Option.some.inj hn
      assumption
    · simp at hn
  · simp at hn

/-- **The decision on a concern goes as it went**, and what was moved counts as moved. -/
theorem Decided.again {R : Revision} {setup : Setup} {t t' : FileTree} {b' : Block}
    (hps : R.ReloweredAll R.concerns R.block.properties b'.properties) {path : Path} {c : Concern}
    {p q p' : Patch} {st : ConcernState} (h : Decided setup t R.block path c p st q)
    (hc : c ∈ R.concerns ↔ st = .migrated) : Decided setup t' b' path c p' st.settled p' := by
  cases h with
  | already href =>
    have hno : c ∉ R.concerns := by simp [hc]
    exact .already ((find?_has_again hps hno).trans href)
  | absent hinline hnone =>
    have hno : c ∉ R.concerns := by simp [hc]
    have hpair := property?_again hps hno List.mem_cons_self
    rw [hnone] at hpair
    refine .absent ((find?_has_again hps hno).trans hinline) ?_
    generalize b'.property? c.name = pr' at hpair
    cases hpair
    rfl
  | unusable hinline hpair hentry hvalue =>
    have hno : c ∉ R.concerns := by simp [hc]
    obtain ⟨pr', hpair', hkept⟩ := kept_again hps hno hpair
    obtain ⟨e', hentry', hsame, -⟩ := ofProperty_again hkept hentry
    exact .unusable ((find?_has_again hps hno).trans hinline) hpair' hentry' (hsame ▸ hvalue)
  | empty hinline hpair hentry hvalue htexts =>
    have hno : c ∉ R.concerns := by simp [hc]
    obtain ⟨pr', hpair', hkept⟩ := kept_again hps hno hpair
    obtain ⟨e', hentry', hsame, -⟩ := ofProperty_again hkept hentry
    exact .empty ((find?_has_again hps hno).trans hinline) hpair' hentry' (hsame ▸ hvalue)
      (hsame ▸ htexts)
  | missing hinline hpair hentry hvalue htexts hlost =>
    have hno : c ∉ R.concerns := by simp [hc]
    obtain ⟨pr', hpair', hkept⟩ := kept_again hps hno hpair
    obtain ⟨e', hentry', hsame, hname⟩ := ofProperty_again hkept hentry
    have hvanished := (relocate_eq_error (by rw [key_of_property? hpair]; exact hpair) hentry).1 ⟨_, hlost⟩
    obtain ⟨f', hlost'⟩ := (relocate_eq_error (by rw [key_of_property? hpair']; exact hpair') hentry').2
      (hname ▸ hvanished)
    exact .missing ((find?_has_again hps hno).trans hinline) hpair' hentry' (hsame ▸ hvalue)
      (hsame ▸ htexts) hlost'
  | migrated _ hpair =>
    obtain ⟨key, hkey⟩ := find?_has_moved hps (hc.2 rfl) (by rw [hpair]; rfl)
    exact .already hkey

theorem Decisions.again {R : Revision} {setup : Setup} {t t' : FileTree} {b' : Block}
    (hps : R.ReloweredAll R.concerns R.block.properties b'.properties) {path : Path}
    {cs : List Concern} {p q p' : Patch} {log : List (Concern × ConcernState)}
    (h : Decisions setup t R.block path cs p log q)
    (hlog : ∀ e ∈ log, e.1 ∈ R.concerns ↔ e.2 = .migrated) :
    Decisions setup t' b' path cs p' (log.map (Prod.map id ConcernState.settled)) p' := by
  induction h with
  | nil => exact .nil
  | cons hc _ ih =>
    refine .cons (hc.again hps (hlog _ List.mem_cons_self)) ?_
    exact ih fun e he => hlog e (List.mem_cons_of_mem _ he)

/-! ## Decisions that move nothing -/

section
variable {setup : Setup} {t : FileTree} {b : Block} {path : Path}

theorem stageConcern_idle {c : Concern} {p q : Patch} {st : ConcernState}
    (h : Decided setup t b path c p st q) (hst : st ≠ .migrated) (d : Draft) :
    ∃ d', runFrom (stageConcern setup t b c) d = (.ok st, d') ∧ d'.patch = d.patch := by
  unfold stageConcern
  cases h with
  | already href =>
    rw [href]
    exact ⟨_, rfl, rfl⟩
  | absent hinline hnone =>
    rw [hinline, hnone]
    exact ⟨_, rfl, rfl⟩
  | unusable hinline hpair hentry hvalue =>
    rw [hinline, hpair]
    dsimp only
    rw [hentry, run_bind, run_attempt]
    simp only [hvalue, Bool.not_false, ↓reduceIte]
    exact ⟨_, rfl, rfl⟩
  | empty hinline hpair hentry hvalue htexts =>
    rw [hinline, hpair]
    dsimp only
    rw [hentry, run_bind, run_attempt]
    simp only [hvalue, htexts, Bool.not_true, Bool.false_eq_true, List.isEmpty_nil, ↓reduceIte]
    exact ⟨_, rfl, rfl⟩
  | missing hinline hpair hentry hvalue htexts hlost =>
    rw [hinline, hpair]
    dsimp only
    rw [hentry, run_bind, run_attempt]
    simp only [hvalue, List.isEmpty_iff, htexts, Bool.not_true, Bool.false_eq_true, ↓reduceIte,
      stageLiterals, hlost]
    exact ⟨_, rfl, rfl⟩
  | migrated => exact absurd rfl hst

/-- A concern is moved where its files and its edit can be staged. -/
theorem stageConcern_moves {c : Concern} {pr q : Block.Property} {e : Entry} {d d₁ d₂ : Draft}
    (hinline : c.referenceKeys.find? b.has = none) (hpair : b.property? c.name = some pr)
    (hentry : Entry.ofProperty c.allowList pr = .ok e) (hvalue : e.value.usable = true)
    (htexts : e.value.texts ≠ []) (hfound : relocate setup b e = .ok q)
    (hfiles : runFrom (stageFiles t (planned setup.settings d.outcome.path e.value.texts c)) d
      = (.ok (), d₁))
    (hedit : runFrom (stageEdit b e (reference setup.settings
      (planned setup.settings d.outcome.path e.value.texts c) c)) d₁ = (.ok (), d₂)) :
    ∃ d', runFrom (stageConcern setup t b c) d = (.ok .migrated, d') ∧ d'.patch = d₂.patch := by
  unfold stageConcern
  rw [hinline, hpair]
  dsimp only
  rw [hentry, run_bind, run_attempt]
  simp only [hvalue, List.isEmpty_iff, htexts, Bool.not_true, Bool.false_eq_true, ↓reduceIte]
  rw [stageLiterals, hfound]
  dsimp only
  rw [run_bind, run_get]
  dsimp only
  rw [run_bind, hfiles]
  dsimp only
  rw [run_bind, hedit]
  exact ⟨_, rfl, rfl⟩

/-- **Decisions that move nothing leave the patch as it is.** -/
theorem stageConcerns_idle {cs : List Concern} {p q : Patch} {log : List (Concern × ConcernState)}
    (h : Decisions setup t b path cs p log q) (hidle : ∀ e ∈ log, e.2 ≠ .migrated) (d : Draft) :
    ∃ d', runFrom (stageConcerns setup t b cs) d = (.ok (), d') ∧ d'.patch = d.patch ∧
      d'.outcome.concerns = d.outcome.concerns ++ log := by
  induction h generalizing d with
  | nil => exact ⟨d, rfl, rfl, by simp⟩
  | @cons c cs p st p' log p'' hc _ ih =>
    obtain ⟨d₁, hrun, hpatch⟩ := stageConcern_idle hc (hidle _ List.mem_cons_self) d
    have hkept : Kept d d₁ := by simpa only [hrun] using keeps_stageConcern setup t b c d
    let d₂ : Draft := { d₁ with outcome.concerns := d₁.outcome.concerns ++ [(c, st)] }
    obtain ⟨d', hrest, hpatch', hlog⟩ := ih (fun e he => hidle e (List.mem_cons_of_mem _ he)) d₂
    refine ⟨d', ?_, hpatch'.trans hpatch, ?_⟩
    · rw [stageConcerns, run_bind, hrun]
      dsimp only
      rw [run_bind, run_modify]
      exact hrest
    · rw [hlog]
      simp [d₂, hkept.concerns]

theorem processBlock_idle (source : Bytes) {p q : Patch} {log : List (Concern × ConcernState)}
    (h : Decisions setup t b path Concern.all p log q) (hidle : ∀ e ∈ log, e.2 ≠ .migrated) :
    ∃ o : Outcome, processBlock setup t path source b = ({ o with state := o.idleState }, t) ∧
      o.concerns = log := by
  obtain ⟨d, hrun, hpatch, hlog⟩ := stageConcerns_idle h hidle (opening path source)
  refine ⟨d.outcome, ?_, hlog⟩
  rw [processBlock_eq, hrun, close, hpatch]
  rfl

end

theorem idleState_settled {o o' : Outcome} (h : o'.concerns = o.concerns.map (Prod.map id ConcernState.settled))
    {c : Concern} (hmoved : (c, .migrated) ∈ o.concerns) :
    o'.idleState = if ∃ e ∈ o.concerns, e.2 = .unusableLiteral ∨ e.2 = .missingNode then .noLiteral
      else .alreadyMigrated := by
  have hsettled : ∀ st : ConcernState,
      (st.settled = .alreadyMigrated ∨ st.settled = .noLiteral) ↔
        ¬ (st = .unusableLiteral ∨ st = .missingNode) := by
    intro st
    cases st <;> decide
  have hsome : .alreadyMigrated ∈ o'.concerns.map (·.2) := by
    rw [h, List.map_map]
    exact List.mem_map.2 ⟨_, hmoved, rfl⟩
  have hall : (o'.concerns.map (·.2)).all (fun s => s = .alreadyMigrated || s = .noLiteral) = true ↔
      ¬ ∃ e ∈ o.concerns, e.2 = .unusableLiteral ∨ e.2 = .missingNode := by
    simp only [h, List.map_map, List.all_map, List.all_eq_true, Function.comp_apply, Prod.map_snd,
      Bool.or_eq_true, decide_eq_true_eq, hsettled, not_exists, not_and]
  unfold Outcome.idleState
  dsimp only
  split
  · rename_i hidle
    rw [if_neg (hall.1 hidle.2)]
  · rename_i hidle
    rw [if_pos]
    by_contra hno
    exact hidle ⟨hsome, hall.2 hno⟩

/-! ## The file read again -/

theorem Rewrites.read_again {setup : Setup} {t t' : FileTree} {path : Path} {o : Outcome} {ch : Change}
    (h : Rewrites setup t path o t' ch) :
    t'.read path = .ok (rewritten setup.settings path ch.block o.migrated ch.source) := by
  obtain ⟨l, hl⟩ := h.leads
  obtain ⟨n, hn, -, hdir⟩ := h.stands
  rw [h.tree]
  exact FileTree.read_replaced (readBlock_eq_ok.1 h.read).1 hl hn hdir h.fresh _ _

theorem isInert_of_usable {allowList : Bool} {v : Option Node}
    (h : (EntryValue.ofNode allowList v).usable = true) : ∃ w, v = some w ∧ w.isInert = true := by
  have hliterals : ∀ {es : List Node} {texts : List String},
      EntryValue.literals? es = some texts → es.all Node.isLiteral = true := by
    intro es
    induction es with
    | nil => simp
    | cons e es ih =>
      intro texts hes
      cases e with
      | literal =>
        obtain ⟨rest, hrest, -⟩ := Option.map_eq_some_iff.1 hes
        exact ih hrest
      | _ => cases hes
  unfold EntryValue.ofNode at h
  split at h
  · exact ⟨_, rfl, rfl⟩
  · split at h
    · split at h
      · rename_i hes
        exact ⟨_, rfl, hliterals hes⟩
      · cases h
    · cases h
  · cases h

theorem mem_migratedIn {log : List (Concern × ConcernState)} {c : Concern} :
    c ∈ migratedIn log ↔ (c, .migrated) ∈ log := by
  simp [migratedIn]

section
variable {setup : Setup} {t : FileTree} {b : Block} {path : Path} {p q : Patch}

theorem Decisions.decided {cs : List Concern} {log : List (Concern × ConcernState)}
    (h : Decisions setup t b path cs p log q) {e : Concern × ConcernState} (he : e ∈ log) :
    ∃ p' q', Decided setup t b path e.1 p' e.2 q' := by
  induction h with
  | nil => simp at he
  | cons hc _ ih =>
    rcases List.mem_cons.1 he with rfl | he
    · exact ⟨_, _, hc⟩
    · exact ih he

theorem Decisions.mem_migrated {o : Outcome}
    (h : Decisions setup t b path Concern.all p o.concerns q) :
    ∀ e ∈ o.concerns, e.1 ∈ o.migrated ↔ e.2 = .migrated := by
  intro e he
  have hnodup : (o.concerns.map (·.1)).Nodup := by rw [h.concerns]; decide
  rw [← h.migrated, mem_migratedIn]
  constructor
  · intro hmoved
    exact congrArg (·.2) (List.inj_on_of_nodup_map hnodup he hmoved rfl)
  · intro hstate
    rw [← hstate]
    exact he

/-- What is moved is made of strings alone. -/
theorem Decisions.inert {o : Outcome} (h : Decisions setup t b path Concern.all p o.concerns q) :
    InertIn o.migrated b.properties := by
  intro c hc pr hpr
  rw [← h.migrated, mem_migratedIn] at hc
  obtain ⟨p', q', hdecided⟩ := h.decided hc
  cases hdecided with
  | migrated _ hpair hentry hvalue =>
    obtain rfl := Option.some.inj (hpr.symm.trans hpair)
    rw [(Entry.ofProperty_eq hentry).1] at hvalue
    exact isInert_of_usable hvalue

end

/-- The file that has been rewritten by the time of an outcome. -/
def revision (setup : Setup) (path : Path) (o : Outcome) (source : Bytes) (b : Block) : Revision :=
  ⟨setup.settings, path, source, b, o.migrated⟩

/-- For the bytes that a commit has produced the grammar gives the tree it gave before, with each
pair that was moved swapped for its reference and the later offsets shifted. -/
def Reparses (setup : Setup) (t : FileTree) (path : Path) : Prop :=
  ∀ source b, readBlock setup t path = .ok (source, some b) →
    (processUnit setup t path).1.state = .committed →
    (revision setup path (processUnit setup t path).1 source b).Reparsed (setup.grammar source)
      (setup.grammar (revision setup path (processUnit setup t path).1 source b).text)

section
variable {setup : Setup} (hnumbered : ∀ source, (setup.grammar source).Numbered)
  (hquote : setup.settings.quote = "'" ∨ setup.settings.quote = "\"") {t t' : FileTree} {path : Path}
  {o : Outcome} {ch : Change} (h : Rewrites setup t path o t' ch)
  (hparser : (revision setup path o ch.source ch.block).Reparsed (setup.grammar ch.source)
    (setup.grammar (revision setup path o ch.source ch.block).text))
include hnumbered hquote h hparser

/-- **The block of a committed file is read again**, its pairs swapped. -/
theorem Rewrites.readBlock_again : ∃ b',
    readBlock setup t' path = .ok ((revision setup path o ch.source ch.block).text, some b') ∧
      (revision setup path o ch.source ch.block).SameBlock b' := by
  obtain ⟨-, herror, root, hlower, hfind⟩ := readBlock_eq_ok.1 h.read
  obtain ⟨p, hdecided⟩ := h.decided
  rw [Lowering.lower_eq_value (hnumbered _)] at hlower
  obtain ⟨root', hroot, hrel⟩ := value_reparsed (R := revision setup path o ch.source ch.block)
    hquote hdecided.inert _ ⟨[], _⟩ ⟨hparser, .nil⟩ _ hlower
  obtain ⟨b', hsame, hfind'⟩ := find?_relowered hrel hfind
  rw [← Lowering.lower_eq_value (hnumbered _)] at hroot
  have hread := readBlock_eq_ok.2 ⟨h.read_again, hparser.hasError herror, root', hroot, hfind'⟩
  exact ⟨b', hread, hsame⟩

/-- **A file that was committed is left alone when it is looked at again.** -/
theorem Rewrites.processUnit_again : ∃ b' o',
    readBlock setup t' path = .ok ((revision setup path o ch.source ch.block).text, some b') ∧
      (revision setup path o ch.source ch.block).SameBlock b' ∧
      processUnit setup t' path = (o', t') ∧ o'.state = o'.idleState ∧
      o'.concerns = o.concerns.map (Prod.map id ConcernState.settled) := by
  obtain ⟨b', hread, hsame⟩ := h.readBlock_again hnumbered hquote hparser
  obtain ⟨p, hdecided⟩ := h.decided
  have hagain : Decisions setup t' b' path Concern.all p
      (o.concerns.map (Prod.map id ConcernState.settled)) p :=
    Decisions.again (R := revision setup path o ch.source ch.block) hsame.properties hdecided
      hdecided.mem_migrated
  have hidle : ∀ e ∈ o.concerns.map (Prod.map id ConcernState.settled), e.2 ≠ .migrated := by
    intro e he
    obtain ⟨e, -, rfl⟩ := List.mem_map.1 he
    exact e.2.settled_ne_migrated
  obtain ⟨o', hblock, hlog⟩ := processBlock_idle
    (revision setup path o ch.source ch.block).text hagain hidle
  refine ⟨b', { o' with state := o'.idleState }, hread, hsame, ?_, rfl, hlog⟩
  unfold processUnit
  rw [hread]
  exact hblock

end

/-- **A file is not changed by being looked at again.** The grammar gives trees that lie in their
files and whose nodes are told apart by their numbers, and gives the tree it gave, with the pairs
swapped, for the bytes that a commit has produced. The quote is one of the two that can be set, and
the device writes what it is given. Then the second look changes nothing and commits nothing. What
was not committed ends as it did before. What was committed has its block as before, but for the
keys and values that were moved, and what was moved counts as moved. -/
theorem processUnit_idempotent {setup : Setup} (hfill : setup.outages.commit.fill = none)
    (hquote : setup.settings.quote = "'" ∨ setup.settings.quote = "\"")
    (hsound : Source.Sound setup.grammar) (hnumbered : ∀ source, (setup.grammar source).Numbered)
    {t : FileTree} {path : Path} (hparser : Reparses setup t path) :
    ∃ o t' o', processUnit setup t path = (o, t') ∧ processUnit setup t' path = (o', t') ∧
      o'.state ≠ .committed ∧ (o.state ≠ .committed → o' = o) ∧
      (o.state = .committed → ∃ source b b',
        readBlock setup t path = .ok (source, some b) ∧
        readBlock setup t' path = .ok ((revision setup path o source b).text, some b') ∧
        (revision setup path o source b).SameBlock b' ∧
        b'.properties.length = b.properties.length ∧ b'.separators.length = b.separators.length ∧
        o'.concerns = o.concerns.map (Prod.map id ConcernState.settled) ∧
        o'.state = if ∃ e ∈ o.concerns, e.2 = .unusableLiteral ∨ e.2 = .missingNode then .noLiteral
          else .alreadyMigrated) := by
  have heffect := (processUnit_effect hfill hsound t path).2
  unfold Reparses at hparser
  rcases hfirst : processUnit setup t path with ⟨o, t'⟩
  rw [hfirst] at heffect hparser
  cases heffect with
  | untouched hstate =>
    exact ⟨o, t', o, rfl, hfirst, hstate, fun _ => rfl, fun h => absurd h hstate⟩
  | rewritten hstate h =>
    obtain ⟨b', o', hread, hsame, hagain, hidle, hlog⟩ :=
      h.processUnit_again hnumbered hquote (hparser _ _ h.read hstate)
    obtain ⟨p, hdecided⟩ := h.decided
    obtain ⟨c, hc⟩ := List.exists_mem_of_ne_nil _ h.moved
    rw [← hdecided.migrated, mem_migratedIn] at hc
    refine ⟨o, t', o', rfl, hagain, ?_, fun h => absurd hstate h, fun _ => ⟨_, _, b', h.read, hread,
      hsame, hsame.properties.length_eq, ?_, hlog, ?_⟩⟩
    · rw [hidle]
      exact idleState_ne_committed o'
    · rw [hsame.separators, List.length_map]
      rfl
    · rw [hidle, idleState_settled hlog hc]

/-! ### A component looked at twice -/

namespace Sample

open Commit FileTree Lowering Revision Splice.Sample

theorem reads : Reads inlined 11 20 25 "template" "t" where
  key_start := by decide
  value_start := by decide
  key := by decide +kernel
  body := by decide +kernel
  cooked := by decide
  other := by decide +kernel

theorem numbered : ∀ source, (grammar source).Numbered := by
  intro source
  unfold grammar
  split
  · decide
  split
  · decide
  · simp [Cst.Numbered, Cst.ids, Cst.idsAll]

theorem value_object : value inlined ⟨[], object 11 20 25⟩ = .ok (block reads).toNode := by
  rw [← lower_eq_value (by decide)]
  exact lower_eq reads

theorem value_decorator : ∃ s, value inlined ⟨[], decorator 20 25⟩
    = .ok (.decorator (some "Component") [(block reads).toNode] s) := by
  have hcallee : calleeOf inlined (decorator 20 25) = .ok (some "Component") := by decide +kernel
  refine ⟨⟨0, 33, by decide⟩, value_eq_ok.2 ⟨[(block reads).toNode], .cons value_object .nil, ?_⟩⟩
  change (calleeOf inlined (decorator 20 25) >>= fun callee => spanOf (decorator 20 25) >>= fun s =>
    pure (Node.decorator callee [(block reads).toNode] s)) = _
  rw [hcallee]
  rfl

theorem find?_block : ∃ root, value inlined ⟨[], tree 20 25⟩ = .ok root ∧
    Block.find? "Component" root = .ok (some (block reads)) := by
  obtain ⟨s, hs⟩ := value_decorator
  have hname : textOf? inlined ((component 20 25).child? "name") = .ok (some "A") := by
    decide +kernel
  have hclass : value inlined ⟨[], component 20 25⟩ = .ok (.classDecl (some "A")
      [.decorator (some "Component") [(block reads).toNode] s] [] ⟨0, 44, by decide⟩) := by
    refine value_eq_ok.2 ⟨_, .cons hs .nil, ?_⟩
    change (textOf? inlined ((component 20 25).child? "name") >>= fun name =>
      spanOf (component 20 25) >>= fun s' => pure (Node.classDecl name
        [.decorator (some "Component") [(block reads).toNode] s] [] s')) = _
    rw [hname]
    rfl
  refine ⟨_, value_eq_ok.2 ⟨_, .cons hclass .nil, rfl⟩, ?_⟩
  rw [Block.find?, Node.walk, firstIn_step rfl]
  change Block.firstIn "Component" (Node.walkStack [some _]) = _
  rw [Node.walkStack]
  rfl

theorem fault?_path : path.fault? = none := by decide

theorem resolve_path : files.resolve true path
    = .ok (.present ["w", "x.component.ts"] (.file inlined 0o600)) := by
  rw [resolve, if_neg (by decide)]
  exact (@Leads.ending files true maxLinks ["w"] "x.component.ts" (by decide) (by decide)
    (by decide)).eq

theorem readBlock_files : readBlock setup files path = .ok (inlined, some (block reads)) := by
  obtain ⟨root, hroot, hfind⟩ := find?_block
  have hgrammar : grammar inlined = tree 20 25 := by rw [grammar, if_pos rfl]
  have herror : (grammar inlined).hasError = false := by
    rw [hgrammar]
    decide
  have hlower : lower inlined (grammar inlined) = .ok root := by
    rw [lower_eq_value (numbered _), hgrammar, hroot]
  exact readBlock_eq_ok.2 ⟨read_of_file fault?_path resolve_path, herror, root, hlower, hfind⟩

/-! The first look commits the file. -/

def target : PlannedFile := ⟨⟨.workDir, ["x.component.html"]⟩, CodePoint.ofString "t"⟩

def entry : Entry := ⟨"template", .scalar "t", ⟨12, 25, by decide⟩, ⟨12, 25, by decide⟩, by decide⟩

theorem fault?_target : target.path.fault? = none := by decide

theorem resolve_target (follow : Bool) :
    files.resolve follow target.path = .ok (.absent ["w", "x.component.html"]) := by
  rw [resolve, if_neg (by decide)]
  exact (@Leads.ending files follow maxLinks ["w"] "x.component.html" (by decide) (by decide)
    (by decide)).eq

theorem vacant_target : files.pathExists target.path = .ok false := by
  rw [pathExists, status, fault?_target, resolve_target]
  rfl

theorem stageFiles_target {t : FileTree} (hfree : t.pathExists target.path = .ok false) :
    ∃ d, runFrom (stageFiles t [target]) (opening path inlined) = (.ok (), d) ∧
      d.patch = ⟨path, ⟨inlined, []⟩, [target]⟩ := by
  rw [stageFiles, run_bind, stageFile, run_bind, run_attempt, hfree]
  exact ⟨_, rfl, rfl⟩

theorem stageEdit_entry {d : Draft} (hsource : d.patch.staging.source = inlined)
    (hedits : d.patch.staging.edits = []) {replacement : List CodePoint}
    (hwritten : Utf8.Encodable replacement) :
    ∃ d', runFrom (stageEdit (block reads) entry replacement) d = (.ok (), d') ∧
      d'.patch.files = d.patch.files ∧ d'.patch.staging.edits ≠ [] := by
  have hlies : entry.Lies inlined := ⟨by decide, rfl, by decide⟩
  obtain ⟨plan, hplan, hplanned⟩ := Removal.plan_spec hlies 2 []
  obtain ⟨ed, hed⟩ : ∃ ed, plan.edit entry inlined replacement = .ok ed :=
    ⟨_, (Removal.edit_eq_ok hlies hplanned).2 ⟨hwritten, rfl⟩⟩
  obtain ⟨-, hwidens⟩ := Removal.widens_of_edit hlies hplanned (by decide) hed
  have hspans : d.patch.staging.spans = [] := by rw [Staging.spans, hedits]; rfl
  have hcount : ((block reads).properties.length : Int) = 2 := rfl
  have hstage : d.patch.staging.stage ed = .ok ⟨inlined, [ed]⟩ := by
    refine Staging.stage_eq_ok.2 ⟨?_, by simp [hedits], by simp [hedits, hsource]⟩
    rw [hsource]
    exact hwidens.inside
  unfold stageEdit
  rw [run_bind, run_get]
  dsimp only
  rw [hsource, hspans, hcount, run_bind, run_attempt, hplan]
  dsimp only
  rw [run_bind, run_attempt, hed]
  dsimp only
  rw [run_bind, run_attempt, Patch.stage, hstage]
  exact ⟨_, rfl, rfl, by simp⟩

theorem reference_target : reference {} [target] .template
    = CodePoint.ofString "templateUrl: './x.component.html'" := by decide

theorem stageConcerns_component {t : FileTree} (hfree : t.pathExists target.path = .ok false) : ∃ d,
    runFrom (stageConcerns setup t (block reads) Concern.all) (opening path inlined)
      = (.ok (), d) ∧ d.outcome.concerns = [(.template, .migrated), (.styles, .noLiteral)] ∧
      d.patch.files = [target] ∧ d.patch.staging.edits ≠ [] := by
  let pr : Block.Property := ⟨"template", some (stringNode reads), ⟨12, 25, by decide⟩, 12⟩
  have hplanned : planned {} path ["t"] .template = [target] := by decide
  obtain ⟨d₁, hfiles, hpatch⟩ := stageFiles_target hfree
  obtain ⟨d₂, hedit, hsame, hedits⟩ := @stageEdit_entry d₁ (by rw [hpatch]) (by rw [hpatch])
    (reference {} [target] .template)
    (reference_target ▸ Utf8.encodable_ofString _)
  rw [hpatch] at hsame
  rw [← hplanned] at hfiles hedit
  obtain ⟨d₃, hrun, hpatch₃⟩ := @stageConcern_moves setup t (block reads) .template pr pr entry
    (opening path inlined) d₁ d₂ (by decide) rfl rfl rfl (by decide) rfl hfiles hedit
  have hkept : Kept (opening path inlined) d₃ := by
    have := keeps_stageConcern setup t (block reads) .template (opening path inlined)
    rwa [hrun] at this
  have hstyles : Decisions setup t (block reads) path [.styles] d₃.patch
      [(.styles, .noLiteral)] d₃.patch := .cons (.absent (by decide) rfl) .nil
  obtain ⟨d, hrest, hpatch', hlog⟩ := stageConcerns_idle hstyles (by simp)
    { d₃ with outcome.concerns := d₃.outcome.concerns ++ [(.template, .migrated)] }
  refine ⟨d, ?_, ?_, ?_, ?_⟩
  · rw [Concern.all, stageConcerns, run_bind, hrun]
    dsimp only
    rw [run_bind, run_modify]
    exact hrest
  · rw [hlog, hkept.concerns]
    rfl
  · rw [hpatch', hpatch₃, hsame]
  · rw [hpatch', hpatch₃]
    exact hedits

/-- The tree once the target is made. -/
def landed : FileTree :=
  files.extend [(["w", "x.component.html"], .file (Bytes.ofString "t") defaultMode)]

/-- A temporary file can be made wherever the first name for it is free. -/
theorem createTemp_path {t : FileTree} (hdir : t.find? ["w"] = some .directory)
    (hnone : t.find? ["w", ".x.component.ts.00000000.tmp"] = none)
    (hw : t.workDir = (["w"] : Location)) :
    ∃ made, createTemp path t = .ok made := by
  have hfree : t.resolve false (tempPath t path 0)
      = .ok (.absent ["w", ".x.component.ts.00000000.tmp"]) := by
    have hpath : tempPath t path 0 = ⟨.root, ["w", ".x.component.ts.00000000.tmp"]⟩ := by
      rw [tempPath, lexicalParent, base, show path.anchor = .workDir from rfl, hw]
      decide
    have hseat : t.seat ["w", ".x.component.ts.00000000.tmp"]
        = .absent ["w", ".x.component.ts.00000000.tmp"] := by
      rw [seat, hnone]
    have hend : isEnd (t.find? ["w", ".x.component.ts.00000000.tmp"]) := by
      rw [hnone]
      rfl
    rw [hpath, resolve, if_neg (by decide), ← hseat]
    exact (Leads.into (by decide) (by decide) hdir (.ending (by decide) (by decide) hend)).eq
  have htoken : freshToken t path = 0 := by
    have htaken : tempTaken t path 0 = false := by rw [tempTaken, hfree]
    simp [freshToken, List.range_succ_eq_map, htaken]
  rw [createTemp, fault?_path, htoken]
  dsimp only
  rw [hfree]
  exact ⟨_, rfl⟩

theorem landed_of {done : Result} {new : List (Location × FileNode)}
    (h : Landed files [target] done new) : files.extend new = landed := by
  have hnone : done.existing = [] := by
    refine List.eq_nil_iff_forall_not_mem.2 fun q hq => ?_
    obtain ⟨loc, n, hr⟩ := h.existing (List.pairwise_singleton _ _) q hq
    have hmem := h.reported.subset (List.mem_append_right _ hq)
    rw [List.mem_singleton.1 hmem, resolve_target] at hr
    cases hr
  have hall : done.created = [target.path] := by
    have := h.reported
    rw [hnone, List.append_nil] at this
    exact List.perm_singleton.1 this
  have hmade := h.created
  rw [hall] at hmade
  obtain ⟨⟨loc, node⟩, more, ⟨hfree, f, hf, -, bytes, hbytes, hnode⟩, hrest, rfl⟩ :=
    List.forall₂_cons_left_iff.1 hmade
  obtain rfl := List.forall₂_nil_left_iff.1 hrest
  rw [resolve_target] at hfree
  cases hfree
  rw [List.mem_singleton.1 hf] at hbytes
  rw [show Utf8.encode target.content = .ok (Bytes.ofString "t") by decide] at hbytes
  cases hbytes
  rw [landed, ← hnode]

theorem not_unopened {e : IoFault} : ¬ Unopened files [target] e := by
  rintro ⟨⟨f, hf, new, hfresh, hopen⟩, hfree⟩
  have hplace := resolve_frame (sameFrame_extend hfresh) (resolve_target false)
  rw [List.mem_singleton.1 hf, createNew, fault?_target, hplace, Place.reseat, seat] at hopen
  cases hf : (files.extend new).find? ["w", "x.component.html"] with
  | none =>
    rw [hf] at hopen
    cases hopen
  | some n =>
    rw [hf] at hopen
    cases hopen
    cases hfree

theorem processUnit_component : ∃ o t', processUnit setup files path = (o, t') ∧
    o.state = .committed ∧ o.concerns = [(.template, .migrated), (.styles, .noLiteral)] := by
  obtain ⟨d, hrun, hconcerns, hfiles, hedits⟩ := stageConcerns_component vacant_target
  have hheld := stageConcerns_held setup files (block reads) Concern.all (opening path inlined)
  rw [hrun] at hheld
  have hpath : d.patch.path = path := hheld.patch
  have hwrite : ∀ f ∈ d.patch.files, Writable {} f := by
    intro f hf
    rw [hfiles] at hf
    rw [List.mem_singleton.1 hf]
    exact ⟨rfl, Bytes.ofString "t", by decide⟩
  obtain ⟨r, t', hdoes, hend⟩ := @does_commit {} d.patch files _ _ _ (hpath ▸ resolve_path) hwrite
  have hunit : processUnit setup files path = close setup files (.ok (), d) := by
    rw [processUnit, readBlock_files]
    exact (processBlock_eq ..).trans (by rw [hrun])
  rw [close, List.isEmpty_eq_false_iff.2 hedits, show setup.outages.commit = {} from rfl,
    hdoes.runOn] at hunit
  cases hend with
  | landed _ h => exact absurd (List.isEmpty_iff.1 h) hedits
  | replaced => exact ⟨_, _, hunit, rfl, hconcerns⟩
  | unopened h => exact absurd (hfiles ▸ h) not_unopened
  | unreplaced hland _ h =>
    rw [hpath, landed_of (hfiles ▸ hland)] at h
    cases h with
    | temp h =>
      obtain ⟨made, hmade⟩ := @createTemp_path landed (by decide) (by decide) rfl
      rw [show unlessRefused none (createTemp path) landed = .ok made from hmade] at h
      cases h
    | refused h => cases h

/-! The grammar gives the tree it gave, with the pair swapped. -/

/-- The file with its template moved. -/
def moved : Revision := ⟨{}, path, inlined, block reads, [.template]⟩

theorem text_moved : moved.text = referring := by decide

/-- The template's pair stands from 12 to 25, and its reference ends twenty bytes later. -/
def shift (i : Nat) : Nat := if i ≤ 12 then i else max i 25 + 20

theorem move_moved : ∀ i < 45, moved.move i = shift i := by
  have htext : (replacement moved.settings moved.path moved.block .template).text
      = CodePoint.ofString "templateUrl: './x.component.html'" := reference_target
  have hswaps : Splice.swaps moved.block (moved.concerns.map
      (replacement moved.settings moved.path moved.block))
        = [⟨⟨12, 25, by decide⟩, Bytes.ofString "templateUrl: './x.component.html'"⟩] := by
    rw [← Utf8.written_ofString, ← htext]
    rfl
  rw [Revision.move, hswaps]
  decide

/-- The second node is the first, moved, as far as the two alone can tell. -/
def Like (n n' : Cst) : Prop :=
  (n.start < 45 ∧ n.stop < 45 ∧ n.label.Moved shift n'.label) ∧
    (n.isText = true → n'.bytes referring = n.bytes inlined) ∧
    (isClass n = true → textOf? referring (n'.child? "name") = textOf? inlined (n.child? "name"))

instance (n n' : Cst) : Decidable (Like n n') := inferInstanceAs (Decidable (_ ∧ _ ∧ _))

theorem Like.label {n n' : Cst} (h : Like n n') : n.label.Moved moved.move n'.label := by
  obtain ⟨⟨hstart, hstop, hlabel⟩, -⟩ := h
  exact { hlabel with
    start := hlabel.start.trans (move_moved _ hstart).symm
    stop := hlabel.stop.trans (move_moved _ hstop).symm }

theorem reparsed_of_like {n n' : Cst} (hkind : n.kind ≠ "object") (h : Like n n')
    (hchildren : List.Forall₂ moved.Reparsed n.children n'.children) : moved.Reparsed n n' := by
  have hall : moved.ReparsedAll [] n.children n'.children := by
    generalize n.children = cs, n'.children = cs' at hchildren
    induction hchildren with
    | nil => exact .nil
    | cons hc _ ih => exact .kept (by simp) hc ih
  obtain ⟨-, hbytes, hname⟩ := id h
  rw [← text_moved] at hbytes hname
  exact .node h.label hbytes hname (fun h => absurd h.1 hkind) (.elsewhere fun h => hkind h.1) hall

theorem reparsed_leaf {n n' : Cst} (h : n.kind ≠ "object" ∧ Like n n' ∧ n.children.isEmpty ∧
    n'.children.isEmpty) : moved.Reparsed n n' := by
  obtain ⟨hkind, hlike, hn, hn'⟩ := h
  refine reparsed_of_like hkind hlike ?_
  rw [List.isEmpty_iff.1 hn, List.isEmpty_iff.1 hn']
  exact .nil

theorem reparsed_number : moved.Reparsed (numberPair 25) (numberPair 45) :=
  reparsed_of_like (by decide) (by decide)
    (.cons (reparsed_leaf (by decide)) (.cons (reparsed_leaf (by decide))
      (.cons (reparsed_leaf (by decide)) .nil)))

/-- The pair of the reference stands in the place of the pair of the template. -/
theorem replaces : moved.Replaces .template (stringPair 11 20 25) (stringPair 11 23 45) where
  label := by decide
  sane := by decide
  key := ⟨_, rfl, rfl, by decide⟩
  value := ⟨_, rfl, .template (f := Target.template {} path (CodePoint.ofString "t"))
    (by decide) ⟨rfl, by decide, by decide⟩⟩

theorem reparsed_object : moved.Reparsed (object 11 20 25) (object 11 23 45) := by
  have hholds : moved.Holds .template (stringPair 11 20 25) := ⟨rfl, rfl, by decide +kernel⟩
  have hlike : Like (object 11 20 25) (object 11 23 45) := by decide
  have hall : moved.ReparsedAll [.template] (object 11 20 25).children
      (object 11 23 45).children := by
    refine .kept (fun d _ h => absurd h.1 (by decide)) (reparsed_leaf (by decide)) ?_
    refine .swapped (d := .template) (by simp) hholds replaces ?_
    exact .kept (by simp) (reparsed_leaf (by decide)) (.kept (by simp) reparsed_number
      (.kept (by simp) (reparsed_leaf (by decide)) .nil))
  exact .node hlike.label (by decide) (by decide) (fun _ => rfl) (.here ⟨rfl, value_object⟩) hall

theorem reparsed_arguments : moved.Reparsed (arguments 20 25) (arguments 23 45) :=
  reparsed_of_like (by decide) (by decide) (.cons (reparsed_leaf (by decide))
    (.cons reparsed_object (.cons (reparsed_leaf (by decide)) .nil)))

theorem reparsed_decorator : moved.Reparsed (decorator 20 25) (decorator 23 45) := by
  refine reparsed_of_like (by decide) (by decide)
    (.cons (reparsed_leaf (by decide)) (.cons ?_ .nil))
  exact reparsed_of_like (by decide) (by decide)
    (.cons (reparsed_leaf (by decide)) (.cons reparsed_arguments .nil))

theorem reparsed_body : moved.Reparsed (body 25) (body 45) :=
  reparsed_of_like (by decide) (by decide) (.cons (reparsed_leaf (by decide))
    (.cons (reparsed_leaf (by decide)) .nil))

theorem reparsed_tree : moved.Reparsed (tree 20 25) (tree 23 45) := by
  refine reparsed_of_like (by decide) (by decide) (.cons ?_ .nil)
  exact reparsed_of_like (by decide) (by decide +kernel) (.cons reparsed_decorator
    (.cons (reparsed_leaf (by decide)) (.cons (reparsed_leaf (by decide))
      (.cons reparsed_body .nil))))

theorem reparses : Reparses setup files path := by
  intro source b hread hstate
  obtain ⟨o, t', hunit, -, hconcerns⟩ := processUnit_component
  rw [readBlock_files] at hread
  cases hread
  have hrevision : revision setup path (processUnit setup files path).1 inlined (block reads)
      = moved := by
    have hmigrated : o.migrated = [.template] := by
      simp only [Outcome.migrated, Outcome.concern?, hconcerns]
      decide
    rw [hunit, revision, hmigrated]
    rfl
  have hold : grammar inlined = tree 20 25 := by rw [grammar, if_pos rfl]
  have hnew : grammar moved.text = tree 23 45 := by
    rw [text_moved, grammar, if_neg (by decide), if_pos rfl]
  rw [hrevision, show setup.grammar = grammar from rfl, hold, hnew]
  exact reparsed_tree

end Sample

/-- The component whose template is moved, and which is left alone when it is looked at again. -/
theorem processUnit_idempotent_component : ∃ o t' o',
    processUnit Sample.setup Sample.files Sample.path = (o, t') ∧ o.state = .committed ∧
    processUnit Sample.setup t' Sample.path = (o', t') ∧ o'.state = .alreadyMigrated ∧
    o'.concerns = [(.template, .alreadyMigrated), (.styles, .noLiteral)] := by
  obtain ⟨o, t', o', hfirst, hagain, -, -, hcommitted⟩ :=
    processUnit_idempotent rfl (.inl rfl) Sample.sound Sample.numbered Sample.reparses
  obtain ⟨o₁, t₁, hfirst₁, hstate, hconcerns⟩ := Sample.processUnit_component
  rw [hfirst] at hfirst₁
  cases hfirst₁
  obtain ⟨-, -, -, -, -, -, -, -, hlog, hidle⟩ := hcommitted hstate
  refine ⟨o, t', o', hfirst, hstate, hagain, ?_, ?_⟩
  · rw [hidle, hconcerns]
    decide
  · rw [hlog, hconcerns]
    rfl

end Migration

end AssetLift
