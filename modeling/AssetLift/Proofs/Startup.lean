import AssetLift.App
import AssetLift.Proofs.Choices
import AssetLift.Proofs.Text

/-!
# How a run starts

A command line that names a configuration file and a directory asks for just these. Whatever the
file, the variables and the tree hold, the run then starts with settings, or says what is wrong with
the configuration and ends with the tree untouched. Of the reader of documents it is assumed that it
gives values made of maps, lists, texts, numbers, truth values, dates and nothing, or says that the
document does not follow the rules (`Yaml.Reader.Standard`). There are two exceptions, things that a
file can hold and the program does not reckon with: a number, a truth value or a date where the
directories to skip should stand, and a choice whose value stands too deep in others to have a text.

* `CommandLine.parse_config_iff`: what the command line asks for, and when it is followed.
* `App.Unforeseen`, `App.settingsOf_eq_error`: the exceptions.
* `App.run_starts`: how a run starts.
-/

namespace AssetLift

namespace CommandLine

/-! ## The command line -/

/-- A text that is no switch of a program, but a word. -/
def Spec.IsWord (s : Spec) (text : String) : Prop :=
  text ≠ "--" ∧ s.classify text = .ok (.plain text)

/-- **A text without a dash in front** is a word for every program. -/
theorem Spec.isWord_of_head {s : Spec} {text : String} (h : text.toList.head? ≠ some '-') :
    s.IsWord text := by
  refine ⟨?_, ?_⟩
  · rintro rfl
    exact h (by decide +kernel)
  · simp [classify, h]

theorem Spec.classify_cases {s : Spec} {text : String} {a : Argument}
    (h : s.classify text = .ok a) : a = .plain text ∨ ∃ hit, a = .switch text hit := by
  unfold classify at h
  dsimp only at h
  split at h
  · exact .inl (Except.ok.inj h).symm
  split at h
  · exact .inr ⟨_, (Except.ok.inj h).symm⟩
  split at h
  · exact .inr ⟨_, (Except.ok.inj h).symm⟩
  · split at h
    · exact .inl (Except.ok.inj h).symm
    · exact .inr ⟨_, (Except.ok.inj h).symm⟩
  · cases h

theorem Spec.classifyAll_cons {s : Spec} {text : String} {rest : List String} {as : List Argument} :
    s.classifyAll (text :: rest) = .ok as ↔
      text = "--" ∧ as = .divider :: rest.map .plain ∨ text ≠ "--" ∧
        ∃ a bs, s.classify text = .ok a ∧ s.classifyAll rest = .ok bs ∧ as = a :: bs := by
  rw [classifyAll]
  split
  · simp [*, eq_comm]
  · simp [*, bind_eq_ok, map_eq_ok, eq_comm (b := as)]

/-- **An argument keeps its text**, whatever it is. -/
theorem Spec.text_of_classifyAll {s : Spec} {texts : List String} {as : List Argument}
    (h : s.classifyAll texts = .ok as) : as.map (·.text) = texts := by
  induction texts generalizing as with
  | nil =>
    cases h
    rfl
  | cons text rest ih =>
    rcases classifyAll_cons.1 h with ⟨rfl, rfl⟩ | ⟨-, a, bs, ha, hbs, rfl⟩
    · simp [Argument.text, Function.comp_def]
    · have hname : a.text = text := by
        rcases classify_cases ha with rfl | ⟨hit, rfl⟩ <;> rfl
      rw [List.map_cons, hname, ih hbs]

theorem Reading.give_operand {s : Spec} {r r' : Reading} {gs : List Given}
    (h : r.give s gs = .ok r') : r'.operand = r.operand := by
  induction gs generalizing r with
  | nil => rw [Except.ok.inj h]
  | cons g gs ih =>
    rw [give] at h
    split at h
    · cases h
    · rw [ih h]

theorem Spec.takeSwitch_operand {s : Spec} {hit : Hit} {rest rest' : List Argument} {r r' : Reading}
    (h : s.takeSwitch hit rest r = .ok (r', rest')) : r'.operand = r.operand := by
  obtain ⟨b, -, h⟩ := bind_eq_ok.1 h
  split at h
  · obtain ⟨r'', hgive, h⟩ := bind_eq_ok.1 h
    cases h
    exact Reading.give_operand hgive
  · split at h
    · obtain ⟨r'', hgive, h⟩ := bind_eq_ok.1 h
      cases h
      exact Reading.give_operand hgive
    · cases h
    · obtain ⟨r'', hgive, h⟩ := bind_eq_ok.1 h
      cases h
      exact Reading.give_operand hgive

/-- The switch that a configuration file is given with. -/
def configHit : Hit := { name := "--config", switch := program.switches[1] }

theorem classify_config :
    program.classify "--config" = .ok (.switch "--config" (some configHit)) := by
  decide +kernel

/-- A configuration file that is given, and the operand. -/
def Reading.ofConfig (p : String) (operand : Option (List String)) : Reading :=
  { given := [⟨configHit.switch, some p⟩], operand }

theorem Spec.read_eq_ok {s : Spec} {arguments words : List String} {r : Reading} :
    s.read arguments = .ok (words, r) ↔ ∃ as, s.classifyAll arguments = .ok as ∧
      s.takeFrom as.length as {} = .ok r ∧ r.operand = some words := by
  constructor
  · intro h
    obtain ⟨as, has, h⟩ := bind_eq_ok.1 h
    obtain ⟨r', hr, h⟩ := bind_eq_ok.1 h
    split at h
    · rename_i operand hoperand
      cases h
      exact ⟨as, has, hr, hoperand⟩
    · cases h
  · rintro ⟨as, has, hr, hwords⟩
    refine bind_eq_ok.2 ⟨as, has, bind_eq_ok.2 ⟨r, hr, ?_⟩⟩
    rw [hwords]
    rfl

/-- **A command line of one argument** gives the word that it is. -/
theorem read_migrate {root : String} {words : List String} {r : Reading} :
    migrate.read [root] = .ok (words, r) ↔
      migrate.IsWord root ∧ words = [root] ∧ r = { operand := some [root] } := by
  rw [Spec.read_eq_ok]
  constructor
  · rintro ⟨as, has, hr, hwords⟩
    rcases Spec.classifyAll_cons.1 has with ⟨-, rfl⟩ | ⟨hroot, a, bs, ha, hbs, rfl⟩
    · cases hr
      cases hwords
    obtain rfl : [] = bs := Except.ok.inj hbs
    rcases Spec.classify_cases ha with rfl | ⟨hit, rfl⟩
    · cases hr
      cases hwords
      exact ⟨⟨hroot, ha⟩, rfl, rfl⟩
    · -- a switch leaves the operand open
      cases hit with
      | none =>
        cases hr
        cases hwords
      | some hit =>
        obtain ⟨⟨r', rest⟩, htaken, hr⟩ := bind_eq_ok.1 hr
        cases hr
        rw [Spec.takeSwitch_operand htaken] at hwords
        cases hwords
  · rintro ⟨⟨hroot, ha⟩, rfl, rfl⟩
    exact ⟨_, Spec.classifyAll_cons.2 (.inr ⟨hroot, _, [], ha, rfl, rfl⟩), rfl, rfl⟩

/-- **The switch takes the argument after it** if this is a word. -/
theorem takeSwitch_config {a : Argument} {rest rest' : List Argument} {r r' : Reading} :
    program.takeSwitch configHit (a :: rest) r = .ok (r', rest') ↔ ∃ p, a = .plain p ∧
      r' = { r with given := r.given ++ [⟨configHit.switch, some p⟩] } ∧ rest' = rest := by
  cases a with
  | plain p =>
    have htaken : program.takeSwitch configHit (.plain p :: rest) r =
        .ok ({ r with given := r.given ++ [⟨configHit.switch, some p⟩] }, rest) := rfl
    rw [htaken]
    simp [eq_comm]
  | divider | switch =>
    constructor
    · intro h
      cases h
    · rintro ⟨p, hp, -⟩
      cases hp

theorem read_program {p root : String} {words : List String} {r : Reading} :
    program.read ["--config", p, "migrate", root] = .ok (words, r) ↔
      program.IsWord p ∧ (∃ as, program.classifyAll [root] = .ok as) ∧ words = ["migrate", root] ∧
        r = { given := [⟨configHit.switch, some p⟩], operand := some words } := by
  have hconfig : "--config" ≠ "--" := by decide
  have hmigrate : "migrate" ≠ "--" := by decide
  have hcommand : program.classify "migrate" = .ok (.plain "migrate") := by decide +kernel
  rw [Spec.read_eq_ok]
  constructor
  · rintro ⟨as, has, hr, hwords⟩
    rcases Spec.classifyAll_cons.1 has with ⟨h, -⟩ | ⟨-, a, bs, ha, hbs, rfl⟩
    · exact absurd h hconfig
    cases classify_config.symm.trans ha
    rcases Spec.classifyAll_cons.1 hbs with ⟨-, rfl⟩ | ⟨hdivider, b, cs, hp, hcs, rfl⟩
    · cases hr
    rcases Spec.classifyAll_cons.1 hcs with ⟨h, -⟩ | ⟨-, c, ds, hc, hds, rfl⟩
    · exact absurd h hmigrate
    cases hcommand.symm.trans hc
    obtain ⟨⟨r', rest⟩, htaken, hr⟩ := bind_eq_ok.1 hr
    obtain ⟨q, rfl, rfl, rfl⟩ := takeSwitch_config.1 htaken
    obtain rfl : q = p := by
      rcases Spec.classify_cases hp with h | ⟨hit, h⟩ <;> cases h
      rfl
    cases hr
    cases hwords
    rw [Spec.text_of_classifyAll hds]
    exact ⟨⟨hdivider, hp⟩, ⟨ds, hds⟩, rfl, rfl⟩
  · rintro ⟨⟨hdivider, hp⟩, ⟨as, has⟩, rfl, rfl⟩
    refine ⟨_, Spec.classifyAll_cons.2 (.inr ⟨hconfig, _, _, classify_config,
      Spec.classifyAll_cons.2 (.inr ⟨hdivider, _, _, hp,
        Spec.classifyAll_cons.2 (.inr ⟨hmigrate, _, _, hcommand, has, rfl⟩), rfl⟩), rfl⟩), ?_, rfl⟩
    rw [← Spec.text_of_classifyAll has]
    rfl

/-- **What is asked for.** A command line with a configuration file and a directory is followed just
if both are words, and it asks for these two. -/
theorem parse_config_iff {p root : String} {i : Invocation} :
    parse ["--config", p, "migrate", root] = .ok i ↔ program.IsWord p ∧
      (∃ as, program.classifyAll [root] = .ok as) ∧ migrate.IsWord root ∧ i = ⟨p, false, root⟩ := by
  constructor
  · intro h
    obtain ⟨⟨words, outer⟩, houter, h⟩ := bind_eq_ok.1 h
    obtain ⟨hp, hroot, rfl, rfl⟩ := read_program.1 houter
    obtain ⟨⟨words, inner⟩, hinner, h⟩ := bind_eq_ok.1 h
    obtain ⟨hword, rfl, rfl⟩ := read_migrate.1 hinner
    cases h
    exact ⟨hp, hroot, hword, rfl⟩
  · rintro ⟨hp, hroot, hword, rfl⟩
    exact bind_eq_ok.2 ⟨_, read_program.2 ⟨hp, hroot, rfl, rfl⟩,
      bind_eq_ok.2 ⟨_, read_migrate.2 ⟨hword, rfl, rfl⟩, rfl⟩⟩

/-- **Texts without a dash in front** can always be asked for. -/
theorem parse_config {p root : String} (hp : p.toList.head? ≠ some '-')
    (hroot : root.toList.head? ≠ some '-') :
    parse ["--config", p, "migrate", root] = .ok ⟨p, false, root⟩ := by
  obtain ⟨hne, hplain⟩ := Spec.isWord_of_head (s := program) hroot
  exact parse_config_iff.2 ⟨Spec.isWord_of_head hp,
    ⟨_, Spec.classifyAll_cons.2 (.inr ⟨hne, _, [], hplain, rfl, rfl⟩)⟩,
    Spec.isWord_of_head hroot, rfl⟩

end CommandLine

/-! ## What is assumed of readers -/

namespace Value

mutual

/-- The value is made of maps, lists, texts, numbers, truth values, dates and nothing. -/
def isPlain : Value → Bool
  | list vs => areAllPlain vs
  | map ps => arePairsPlain ps
  | bytes _ | pair _ _ | set _ | again _ => false
  | _ => true

def areAllPlain : List Value → Bool
  | [] => true
  | v :: vs => isPlain v && areAllPlain vs

def arePairsPlain : List (Value × Value) → Bool
  | [] => true
  | (k, v) :: ps => isPlain k && isPlain v && arePairsPlain ps

end

/-- The value is a truth value, a number or a date. -/
def isSingle : Value → Bool
  | bool _ | int _ | float _ | date _ | moment _ => true
  | _ => false

theorem isPlain_of_get? {ps : Config} {key : String} {v : Value} (hps : arePairsPlain ps = true)
    (h : ps.get? key = some v) : v.isPlain = true := by
  induction ps with
  | nil => cases h
  | cons p ps ih =>
    obtain ⟨k, w⟩ := p
    simp only [arePairsPlain, Bool.and_eq_true] at hps
    rw [Config.get?_cons] at h
    split at h
    · cases h
      exact hps.1.2
    · exact ih hps.2 h

theorem arePairsPlain_append {ps qs : Config} :
    arePairsPlain (ps ++ qs) = (arePairsPlain ps && arePairsPlain qs) := by
  induction ps with
  | nil => rfl
  | cons p ps ih =>
    obtain ⟨k, v⟩ := p
    simp only [List.cons_append, arePairsPlain, ih, Bool.and_assoc]

theorem arePairsPlain_reverse {ps : Config} :
    arePairsPlain ps.reverse = arePairsPlain ps := by
  induction ps with
  | nil => rfl
  | cons p ps ih =>
    obtain ⟨k, v⟩ := p
    simp only [List.reverse_cons, arePairsPlain_append, ih, arePairsPlain, Bool.and_true]
    exact Bool.and_comm _ _

/-- **What counts as given and stands for no list**, of the values that are made of the usual ones. -/
theorem isSingle_of_unlisted {v : Value} (hplain : v.isPlain = true) (htruthy : v.truthy = true)
    (hlisted : v.isListed = false) : v.isSingle = true := by
  cases v <;> simp_all [isPlain, truthy, isListed, isSingle]

theorem isListed_of_isSingle {v : Value} (h : v.isSingle = true) : v.isListed = false := by
  cases v <;> simp_all [isListed, isSingle]

end Value

/-- What is assumed of a reader of documents: its values are made of the usual ones, and it has one
fault. -/
structure Yaml.Reader.Standard (read : Yaml.Reader) : Prop where
  plain : ∀ {text v}, read text = .ok v → v.isPlain = true
  malformed : ∀ {text f}, read text = .error f → f = .malformed

namespace Config

variable {read : Yaml.Reader} (hread : read.Standard) {env : Environment} {t : FileTree}
  {path : String}
include hread

theorem FilePairs.plain {pairs : Config} (h : FilePairs read t path pairs) :
    Value.arePairsPlain pairs = true := by
  cases h with
  | missing => rfl
  | map _ _ h =>
    have := hread.plain h
    rwa [Value.isPlain] at this
  | blank => rfl

/-- The values of a loaded configuration are made of the usual ones. -/
theorem isPlain_of_load {c : Config} (h : load read env t path = .ok c) {key : String} {v : Value}
    (hv : c.get? key = some v) : v.isPlain = true := by
  obtain ⟨pairs, hpairs, hget⟩ := get?_load h
  rw [hget, layered, Option.or_eq_some_iff] at hv
  rcases hv with hv | ⟨-, hv⟩
  · exact Value.isPlain_of_get? (Value.arePairsPlain_reverse.trans (hpairs.plain hread)) hv
  · obtain ⟨fallback, hfallback, rfl⟩ := Option.map_eq_some_iff.1 hv
    have htexts : ∀ texts : List String, Value.areAllPlain (texts.map .text) = true := by
      intro texts
      induction texts with
      | nil => rfl
      | cons _ _ ih => exact ih
    cases env.get? ("I2F_" ++ key) with
    | none =>
      have hplain : ∀ e ∈ standard, e.2.isPlain = true := by
        simp [standard, Value.isPlain, Value.areAllPlain]
      obtain ⟨before, after, hsplit, -⟩ := List.lookup_eq_some_iff.1 hfallback
      exact hplain (key, fallback) (by simp [hsplit])
    | some s =>
      rw [Option.map_some, Option.getD_some, ofVariable]
      split
      · exact htexts _
      · rfl

/-- **The only fault of a document** is that it does not follow the rules. -/
theorem document_of_load {f : Yaml.Fault} (h : load read env t path = .error (.document f)) :
    f = .malformed := by
  unfold load at h
  split at h
  · cases h
  · rename_i content _ _
    cases hparse : parse read path content with
    | ok pairs => rw [hparse] at h; cases h
    | error g =>
      rw [hparse] at h
      cases h
      rcases bind_eq_error.1 hparse with hbytes | ⟨text, -, hparse⟩
      · cases hdecode : Utf8.decodeBlocks blockSize content <;> rw [hdecode] at hbytes <;> cases hbytes
      rcases bind_eq_error.1 hparse with hdocument | ⟨v, -, hmap⟩
      · cases hvalue : read (String.ofList (unifyBreaks text.toList)) with
        | ok v => rw [hvalue] at hdocument; cases hdocument
        | error g =>
          rw [hvalue] at hdocument
          cases hdocument
          exact hread.malformed hvalue
      · cases v <;> simp only at hmap <;> first | cases hmap | (split at hmap <;> cases hmap)
  · cases h

end Config

namespace App

section
variable {host : Host} {env : Environment} {t : FileTree} {width : Nat} {path : String}

/-! ## Faults that are not reckoned with -/

section
variable {ε α : Type} [Reportable ε] {toCrash : ε → Crash} {f : ε}

theorem complain_eq_ok {r : Except String α} : complain toCrash f = .ok r ↔
    (Reportable.kind f).isConfiguration = true ∧
      r = .error (CodePoint.shown (Reportable.message f)) := by
  unfold complain
  cases (Reportable.kind f).isConfiguration <;> simp [eq_comm]

theorem complain_eq_error {crash : Crash} :
    (complain toCrash f : Except Crash (Except String α)) = .error crash ↔
      (Reportable.kind f).isConfiguration = false ∧ crash = toCrash f := by
  unfold complain
  cases (Reportable.kind f).isConfiguration <;> simp [eq_comm]

end

/-- **Every fault of reading a file** and of its text is reckoned with, and so is a file that holds
no map; of the faults of a document, two. -/
theorem loadFault_unforeseen {f : Config.LoadFault} :
    (Reportable.kind f).isConfiguration = false ↔
      ∃ g, f = .document g ∧ g ≠ .malformed ∧ ∀ detail, g ≠ .badValue detail := by
  cases f with
  | io g =>
    cases g with
    | errno e _ | move e _ _ =>
      cases e <;> simp [Reportable.kind, FaultKind.isConfiguration, FaultKind.ofErrno]
    | device | embeddedNul | unencodable => simp [Reportable.kind, FaultKind.isConfiguration]
  | bytes | notMap => simp [Reportable.kind, FaultKind.isConfiguration]
  | document g => cases g <;> simp [Reportable.kind, FaultKind.isConfiguration]

theorem settingsFault_unforeseen {f : Settings.Fault} :
    (Reportable.kind f).isConfiguration = false ↔
      (∃ shape, f = .notIterable shape) ∨ f = .noText .tooDeep := by
  cases f with
  | noText g => cases g <;> simp [Reportable.kind, FaultKind.isConfiguration]
  | _ => simp [Reportable.kind, FaultKind.isConfiguration]

/-! ## The settings of a configuration file -/

theorem settingsOf_of_loadFault {f : Config.LoadFault}
    (h : Config.load host.read env t path = .error f) :
    settingsOf host env t path = complain .loading f := by
  rw [settingsOf, h]

theorem settingsOf_of_fault {c : Config} {f : Settings.Fault}
    (h : Config.load host.read env t path = .ok c)
    (hc : Settings.ofConfig host.room c = .error f) :
    settingsOf host env t path = complain .settings f := by
  simp only [settingsOf, h, hc]

theorem settingsOf_of_settings {c : Config} {s : Settings}
    (h : Config.load host.read env t path = .ok c) (hc : Settings.ofConfig host.room c = .ok s) :
    settingsOf host env t path = .ok (.ok s) := by
  simp only [settingsOf, h, hc]

/-- **What becomes of a configuration file**: it cannot be loaded, it gives no settings, or it gives
some. -/
theorem settingsOf_cases (host : Host) (env : Environment) (t : FileTree) (path : String) :
    (∃ f, Config.load host.read env t path = .error f ∧
      settingsOf host env t path = complain .loading f) ∨
    (∃ c f, Config.load host.read env t path = .ok c ∧ Settings.ofConfig host.room c = .error f ∧
      settingsOf host env t path = complain .settings f) ∨
    (∃ c s, Config.load host.read env t path = .ok c ∧ Settings.ofConfig host.room c = .ok s ∧
      settingsOf host env t path = .ok (.ok s)) := by
  cases hload : Config.load host.read env t path with
  | error f => exact .inl ⟨f, rfl, settingsOf_of_loadFault hload⟩
  | ok c =>
    cases hc : Settings.ofConfig host.room c with
    | error f => exact .inr (.inl ⟨c, f, rfl, hc, settingsOf_of_fault hload hc⟩)
    | ok s => exact .inr (.inr ⟨c, s, rfl, hc, settingsOf_of_settings hload hc⟩)

/-- What a configuration can hold that is not reckoned with. -/
inductive Unforeseen (host : Host) (env : Environment) (t : FileTree) (path : String) : Crash → Prop
  /-- All texts can be set, and a truth value, a number or a date that counts as given stands where
  the directories to skip should. -/
  | skip {c : Config} {v : Value} (load : Config.load host.read env t path = .ok c)
      (quotes : Settings.Quotes host.room c)
      (texts : ∀ key ∈ Settings.textKeys, Settings.hindrance host.room c key = none)
      (value : c.get? "SKIP_DIRS" = some v) (truthy : v.truthy = true) (single : v.isSingle = true) :
      Unforeseen host env t path (.settings (.notIterable v.fullShape))
  /-- The value of the quote stands too deep in others. -/
  | deepQuote {c : Config} (load : Config.load host.read env t path = .ok c)
      (deep : Settings.hindrance host.room c "QUOTE" = some .tooDeep) :
      Unforeseen host env t path (.settings (.noText .tooDeep))
  /-- The quote can be set, and the first other choice without a text stands too deep in others. -/
  | deepText {c : Config} (load : Config.load host.read env t path = .ok c)
      (quotes : Settings.Quotes host.room c)
      (deep : Settings.textKeys.findSome? (Settings.hindrance host.room c) = some .tooDeep) :
      Unforeseen host env t path (.settings (.noText .tooDeep))

/-- **A configuration gives neither settings nor a message** just if it holds what is not reckoned
with. -/
theorem settingsOf_eq_error (hread : host.read.Standard) {crash : Crash} :
    settingsOf host env t path = .error crash ↔ Unforeseen host env t path crash := by
  constructor
  · intro h
    rcases settingsOf_cases host env t path with
      ⟨f, hload, hset⟩ | ⟨c, f, hload, hc, hset⟩ | ⟨c, s, hload, hc, hset⟩ <;> rw [hset] at h
    · obtain ⟨hkind, rfl⟩ := complain_eq_error.1 h
      obtain ⟨g, rfl, hmalformed, -⟩ := loadFault_unforeseen.1 hkind
      exact absurd (Config.document_of_load hread hload) hmalformed
    · obtain ⟨hkind, rfl⟩ := complain_eq_error.1 h
      rcases settingsFault_unforeseen.1 hkind with ⟨shape, rfl⟩ | rfl <;>
        rcases Settings.ofConfig_error.1 hc with htexts | ⟨hbase, hskip⟩
      · rcases Settings.textsOf_error.1 htexts with ⟨g, -, h⟩ | ⟨-, -, h⟩ | ⟨-, g, -, h⟩ <;> cases h
      · obtain ⟨hquotes, hwrites⟩ := Settings.exists_texts_iff.1 hbase
        obtain ⟨v, hv, htruthy, hlisted, hshape⟩ := Settings.skipOf_error.1 hskip
        cases hshape
        exact .skip hload hquotes hwrites hv htruthy
          (Value.isSingle_of_unlisted (Config.isPlain_of_load hread hload hv) htruthy hlisted)
      · rcases Settings.textsOf_error.1 htexts with ⟨g, hg, h⟩ | ⟨-, -, h⟩ | ⟨hquotes, g, hg, h⟩ <;>
          cases h
        · exact .deepQuote hload hg
        · exact .deepText hload hquotes hg
      · obtain ⟨v, -, -, -, hshape⟩ := Settings.skipOf_error.1 hskip
        cases hshape
    · cases h
  · rintro (⟨hload, hquotes, hwrites, hv, htruthy, hsingle⟩ | ⟨hload, hdeep⟩ |
      ⟨hload, hquotes, hdeep⟩)
    · have hskip := Settings.skipOf_error.2
        ⟨_, hv, htruthy, Value.isListed_of_isSingle hsingle, rfl⟩
      have htexts := Settings.exists_texts_iff.2 ⟨hquotes, hwrites⟩
      rw [settingsOf_of_fault hload (Settings.ofConfig_error.2 (.inr ⟨htexts, hskip⟩))]
      exact complain_eq_error.2 ⟨settingsFault_unforeseen.2 (.inl ⟨_, rfl⟩), rfl⟩
    · have htexts := Settings.textsOf_error.2 (.inl ⟨_, hdeep, rfl⟩)
      rw [settingsOf_of_fault hload (Settings.ofConfig_error.2 (.inl htexts))]
      exact complain_eq_error.2 ⟨settingsFault_unforeseen.2 (.inr rfl), rfl⟩
    · have htexts := Settings.textsOf_error.2 (.inr (.inr ⟨hquotes, _, hdeep, rfl⟩))
      rw [settingsOf_of_fault hload (Settings.ofConfig_error.2 (.inl htexts))]
      exact complain_eq_error.2 ⟨settingsFault_unforeseen.2 (.inr rfl), rfl⟩

theorem settingsOf_eq_settings {s : Settings} : settingsOf host env t path = .ok (.ok s) ↔
    ∃ c, Config.load host.read env t path = .ok c ∧ Settings.ofConfig host.room c = .ok s := by
  constructor
  · intro h
    rcases settingsOf_cases host env t path with
      ⟨f, hload, hset⟩ | ⟨c, f, hload, hc, hset⟩ | ⟨c, s', hload, hc, hset⟩ <;> rw [hset] at h
    · cases (complain_eq_ok.1 h).2
    · cases (complain_eq_ok.1 h).2
    · cases h
      exact ⟨c, hload, hc⟩
  · rintro ⟨c, hload, hc⟩
    exact settingsOf_of_settings hload hc

/-- What there is to say about a configuration that gives no settings. -/
inductive Complaint (host : Host) (env : Environment) (t : FileTree) (path : String) :
    String → Prop
  | load {fault : Config.LoadFault} (load : Config.load host.read env t path = .error fault) :
      Complaint host env t path fault.message
  | settings {c : Config} {fault : Settings.Fault}
      (load : Config.load host.read env t path = .ok c)
      (settings : Settings.ofConfig host.room c = .error fault) :
      Complaint host env t path fault.message

theorem complaint_of_settingsOf {detail : String}
    (h : settingsOf host env t path = .ok (.error detail)) : Complaint host env t path detail := by
  rcases settingsOf_cases host env t path with
    ⟨f, hload, hset⟩ | ⟨c, f, hload, hc, hset⟩ | ⟨c, s, hload, hc, hset⟩ <;> rw [hset] at h
  · obtain rfl := Except.error.inj (complain_eq_ok.1 h).2
    exact (CodePoint.shown_ofString f.message).symm ▸ .load hload
  · obtain rfl := Except.error.inj (complain_eq_ok.1 h).2
    exact (CodePoint.shown_ofString f.message).symm ▸ .settings hload hc
  · cases h

/-! ## The start of a run -/

/-- **A run starts in one of three ways.** On a command line that names a configuration file and a
directory, a configuration that gives settings starts a migration of this directory with them, and
their quote is one that strings can have. One that is not reckoned with ends the run with a crash.
Every other configuration makes the run say what is wrong, with status 1 and the tree untouched. -/
theorem run_starts (hread : host.read.Standard) {p root : String} {i : CommandLine.Invocation}
    (h : CommandLine.parse ["--config", p, "migrate", root] = .ok i) :
    (∀ c s, Config.load host.read env t p = .ok c → Settings.ofConfig host.room c = .ok s →
      (s.quote = "'" ∨ s.quote = "\"") ∧
        run host env t width ["--config", p, "migrate", root] = start host { width } t root s) ∧
    (∀ crash, Unforeseen host env t p crash →
      run host env t width ["--config", p, "migrate", root] = .error crash) ∧
    ((∀ c s, Config.load host.read env t p = .ok c → Settings.ofConfig host.room c ≠ .ok s) →
      (∀ crash, ¬ Unforeseen host env t p crash) → ∃ detail, Complaint host env t p detail ∧
        run host env t width ["--config", p, "migrate", root] =
          .ok ({ status := 1
                 output := ({ width } : Console).message .fatal
                   s!"Cannot load configuration {p}: {detail}" }, t)) := by
  obtain ⟨-, -, -, rfl⟩ := CommandLine.parse_config_iff.1 h
  have hrun : run host env t width ["--config", p, "migrate", root]
      = migrate host env t width ⟨p, false, root⟩ := by rw [run, h]
  rw [hrun, migrate]
  refine ⟨fun c s hc hs => ⟨Settings.quote_of_ofConfig hs, ?_⟩, fun crash hcrash => ?_,
    fun hnone hforeseen => ?_⟩
  · rw [settingsOf_eq_settings.2 ⟨c, hc, hs⟩]
    rfl
  · rw [(settingsOf_eq_error hread).2 hcrash]
    rfl
  · cases hsettings : settingsOf host env t p with
    | error crash => exact absurd ((settingsOf_eq_error hread).1 hsettings) (hforeseen crash)
    | ok r =>
      cases r with
      | ok s =>
        obtain ⟨c, hc, hs⟩ := settingsOf_eq_settings.1 hsettings
        exact absurd hs (hnone c s hc)
      | error detail => exact ⟨detail, complaint_of_settingsOf hsettings, rfl⟩

end

namespace Sample

/-- Reads the two documents that are needed here. -/
def reader : Yaml.Reader := fun text =>
  if text = "QUOTE: x\n" then .ok (.map [(.text "QUOTE", .text "x")])
  else if text = "SKIP_DIRS: 5\n" then .ok (.map [(.text "SKIP_DIRS", .int 5)])
  else .error .malformed

theorem standard_reader : reader.Standard where
  plain h := by
    unfold reader at h
    split at h
    · cases h; rfl
    split at h <;> cases h
    rfl
  malformed h := by
    unfold reader at h
    split at h
    · cases h
    split at h <;> cases h
    rfl

def host : Host := { read := reader, grammar := fun _ => default, room := 900, levels := 900 }

/-- A working directory with a configuration file in it. -/
def holding (text : String) : FileTree :=
  ⟨["w"], [(["w"], .directory),
    (["w", "c.yaml"], .file (Bytes.ofString text) FileTree.defaultMode)]⟩

def arguments : List String := ["--config", "c.yaml", "migrate", "."]

/-- Why the text of a configuration file gives no settings. -/
def faultOf (text : String) : Option Settings.Fault :=
  match Config.parse reader "c.yaml" (Bytes.ofString text) with
  | .ok pairs =>
    match Settings.ofConfig host.room (pairs.overlay (Config.defaults [])) with
    | .ok _ => none
    | .error f => some f
  | .error _ => none

theorem parse_arguments : CommandLine.parse arguments = .ok ⟨"c.yaml", false, "."⟩ :=
  CommandLine.parse_config (by decide +kernel) (by decide +kernel)

open FileTree in
theorem load_holding {text : String} {f : Settings.Fault} (h : faultOf text = some f) :
    ∃ c, Config.load host.read [] (holding text) "c.yaml" = .ok c ∧
      Settings.ofConfig host.room c = .error f := by
  have hpath : Path.ofString "c.yaml" = ⟨.workDir, ["c.yaml"]⟩ := by decide +kernel
  have hnames : Config.namesDirectory "c.yaml" = false := by decide +kernel
  have hplace : (holding text).resolve true ⟨.workDir, ["c.yaml"]⟩
      = .ok (.present ["w", "c.yaml"] (.file (Bytes.ofString text) defaultMode)) := by
    have hbytes : FileName.bytes (CodePoint.ofString "c.yaml") = Bytes.ofString "c.yaml" := by
      decide +kernel
    rw [resolve, if_neg (by decide +kernel), List.map_singleton, hbytes, resolveFrom,
      if_neg (by decide), if_neg (by decide +kernel)]
    rfl
  have hload : Config.load host.read [] (holding text) "c.yaml" =
      (·.overlay (Config.defaults [])) <$>
        Config.parse reader "c.yaml" (Bytes.ofString text) := by
    simp only [Config.load, Config.target, hpath, hplace, hnames]
    rfl
  rw [hload]
  unfold faultOf at h
  split at h
  · rename_i pairs hpairs
    split at h
    · cases h
    · rename_i g hg
      cases h
      exact ⟨_, by rw [hpairs]; rfl, hg⟩
  · cases h

end Sample

open Sample in
theorem run_starts_badQuote : host.read.Standard ∧
    CommandLine.parse arguments = .ok ⟨"c.yaml", false, "."⟩ ∧
    run host [] (holding "QUOTE: x\n") 80 arguments =
      .ok ({ status := 1
             output := "[FATAL]: Cannot load configuration c.yaml: " ++
               "❌ QUOTE must be ' or \", got 'x'\n" },
        holding "QUOTE: x\n") := by
  have hquote : faultOf "QUOTE: x\n" = some (.badQuote "'x'") := by decide +kernel
  obtain ⟨c, hc, hfault⟩ := load_holding hquote
  have hnone : ∀ c' s, Config.load host.read [] (holding "QUOTE: x\n") "c.yaml" = .ok c' →
      Settings.ofConfig host.room c' ≠ .ok s := by
    intro c' s hc' hs
    cases hc.symm.trans hc'
    cases hfault.symm.trans hs
  have hforeseen : ∀ crash, ¬ Unforeseen host [] (holding "QUOTE: x\n") "c.yaml" crash := by
    intro crash h
    have hcrash := (settingsOf_eq_error standard_reader).2 h
    rw [settingsOf_of_fault hc hfault] at hcrash
    cases hcrash
  obtain ⟨detail, hdetail, hrun⟩ := (run_starts standard_reader parse_arguments).2.2 hnone hforeseen
  refine ⟨standard_reader, parse_arguments, hrun.trans ?_⟩
  cases hdetail with
  | load hload => cases hc.symm.trans hload
  | settings hc' hfault' =>
    cases hc.symm.trans hc'
    cases hfault.symm.trans hfault'
    exact congrArg
      (fun output => Except.ok (({ status := 1, output } : Result), holding "QUOTE: x\n"))
      (by decide +kernel)

/-- **A number for the directories to skip** ends the run with a crash. -/
theorem run_crashes_number : Sample.host.read.Standard ∧
    CommandLine.parse Sample.arguments = .ok ⟨"c.yaml", false, "."⟩ ∧
    run Sample.host [] (Sample.holding "SKIP_DIRS: 5\n") 80 Sample.arguments =
      .error (.settings (.notIterable "int")) := by
  have hnumber : Sample.faultOf "SKIP_DIRS: 5\n" = some (.notIterable "int") := by decide +kernel
  obtain ⟨c, hc, hfault⟩ := Sample.load_holding hnumber
  refine ⟨Sample.standard_reader, Sample.parse_arguments, ?_⟩
  rw [run, Sample.parse_arguments]
  dsimp only
  rw [migrate, settingsOf_of_fault hc hfault]
  rfl

end App

end AssetLift
