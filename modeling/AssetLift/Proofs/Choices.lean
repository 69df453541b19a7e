import AssetLift.Config.Load
import AssetLift.Proofs.Activity

/-!
# What a configuration sets

A configuration holds a value of any shape under any key. All choices but one are texts: a value has
a text unless an integer in it is too long or it stands too deep in others. The directories to skip
are a list, and a number, a truth value or a date stands for none.

* `Config.get?_overlay`: of pairs over a base, the last one with a key counts, and else the base.
* `Config.get?_defaults`: a variable counts, and else what is set without variables.
* `Config.FilePairs`: the pairs of the file at a path. `Config.get?_load`: a loaded configuration has
  these layers.
* `Settings.ofConfig_eq_ok`, `Settings.ofConfig_error`, `Settings.textsOf_error`: the settings, or
  which fault comes first.
-/

namespace AssetLift

/-! ## Texts as keys -/

namespace Value

theorem text_beq {s : String} {v : Value} : (Value.text s == v) = true ↔ v = .text s := by
  change same (.text s) v = true ↔ _
  cases v with
  | text s' => rw [same, beq_iff_eq, text.injEq, eq_comm]
  | _ => simp [same]

/-- **A text is one key with itself alone**: no number, truth value or moment stands for it. -/
theorem sameKey_text {k : Value} {s : String} : k.sameKey (.text s) = true ↔ k = .text s := by
  cases k with
  | float x => cases h : x.toInt? <;> simp [sameKey, whole?, h, BEq.beq, same]
  | _ => simp [sameKey, whole?, BEq.beq, same]

theorem text_sameKey {k : Value} {s : String} : (Value.text s).sameKey k = true ↔ k = .text s := by
  cases k with
  | float x => cases h : x.toInt? <;> simp [sameKey, whole?, h, BEq.beq, same]
  | text s' => simp [sameKey, whole?, BEq.beq, same, eq_comm]
  | _ => simp [sameKey, whole?, BEq.beq, same]

end Value

namespace Config

theorem get?_cons (p : Value × Value) (c : Config) (key : String) :
    get? (p :: c) key = if Value.text key == p.1 then some p.2 else c.get? key := by
  unfold get?
  rw [List.lookup_cons]
  split <;> simp [*]

theorem get?_put (c : Config) (k v : Value) (key : String) :
    (c.put k v).get? key = if Value.text key == k then some v else c.get? key := by
  induction c with
  | nil => exact get?_cons (k, v) [] key
  | cons p c ih =>
    obtain ⟨k', v'⟩ := p
    rw [put]
    by_cases hk : Value.text key == k
    · obtain rfl := Value.text_beq.1 hk
      by_cases hsame : k'.sameKey (.text key) = true
      · obtain rfl := Value.sameKey_text.1 hsame
        simp [get?_cons, hsame, hk]
      · have hk' : ¬ (Value.text key == k') = true := fun h =>
          hsame (Value.sameKey_text.2 (Value.text_beq.1 h))
        simp [get?_cons, hsame, hk, hk', ih]
    · by_cases hsame : k'.sameKey k = true
      · -- the key that is kept is no text either
        have hk' : ¬ (Value.text key == k') = true := fun h =>
          hk (Value.text_beq.2 (Value.text_sameKey.1 (Value.text_beq.1 h ▸ hsame)))
        simp [get?_cons, hsame, hk, hk']
      · simp [get?_cons, hsame, hk, ih]

/-- **Of pairs over a base**, the last one with a key counts, and without one the base. -/
theorem get?_overlay (overrides base : Config) (key : String) :
    (overrides.overlay base).get? key = (get? overrides.reverse key).or (base.get? key) := by
  induction overrides generalizing base with
  | nil => simp [overlay, get?]
  | cons p overrides ih =>
    have hstep : overlay (p :: overrides) base = overlay overrides (base.put p.1 p.2) := rfl
    have hlast : get? (overrides.reverse ++ [p]) key
        = (get? overrides.reverse key).or (get? [p] key) := List.lookup_append
    rw [hstep, ih, get?_put, List.reverse_cons, hlast, get?_cons]
    cases get? overrides.reverse key with
    | some v => rfl
    | none => by_cases hk : Value.text key == p.1 <;> simp [hk, get?]

/-- What is set without a file and without variables. -/
def standard : List (String × Value) :=
  [("TEMPLATE_EXTENSION", .text ".html"), ("STYLE_EXTENSION", .text ".scss"),
    ("CANDIDATE_SUFFIX", .text ".component.ts"), ("SOURCE_SUFFIX", .text ".ts"),
    ("DECORATOR_NAME", .text "Component"), ("QUOTE", .text "'"),
    ("SKIP_DIRS", .list [.text "node_modules", .text ".git"])]

/-- The value of a key that a variable gives: directories to skip are cut at commas. -/
def ofVariable (key s : String) : Value :=
  if key = "SKIP_DIRS" then .list ((Blank.items s).map .text) else .text s

/-- The value of a key when variables stand over what is set without them. -/
def unfiled (env : Environment) (key : String) : Option Value :=
  (standard.lookup key).map fun fallback =>
    ((env.get? ("I2F_" ++ key)).map (ofVariable key)).getD fallback

/-- **Of the pairs that hold without a file**, a variable counts, and without one what is set
without any variables. -/
theorem get?_defaults (env : Environment) (key : String) :
    (defaults env).get? key = unfiled env key := by
  have htext : ∀ a b : String, (Value.text a == Value.text b) = decide (a = b) := fun a b => rfl
  have hlookup : ∀ (k : String) (v : Value) (rest : List (String × Value)),
      ((k, v) :: rest).lookup key = if key = k then some v else rest.lookup key := by
    intro k v rest
    rw [List.lookup_cons]
    by_cases h : key = k
    · simp [h]
    · rw [beq_false_of_ne h, if_neg h]
  simp only [defaults, defaultText, get?_cons, htext, unfiled, standard, hlookup, variableOf,
    decide_eq_true_eq]
  by_cases hskip : key = "SKIP_DIRS"
  · subst hskip
    cases h : env.get? "I2F_SKIP_DIRS" <;> simp [ofVariable, h]
  · have hvariable : ofVariable key = .text := by
      funext s
      rw [ofVariable, if_neg hskip]
    split_ifs <;> subst_vars <;> simp_all [get?]

/-- The pairs that the file at a path holds. -/
inductive FilePairs (read : Yaml.Reader) (t : FileTree) (path : String) : Config → Prop
  /-- There is no file. -/
  | missing (h : target t path = none) : FilePairs read t path []
  | map {content mode text pairs} (hfile : target t path = some (.file content mode))
      (htext : Utf8.decodeBlocks blockSize content = .ok text)
      (hread : read (String.ofList (unifyBreaks text.toList)) = .ok (.map pairs)) :
      FilePairs read t path pairs
  /-- What is in the file does not count as given. -/
  | blank {content mode text v} (hfile : target t path = some (.file content mode))
      (htext : Utf8.decodeBlocks blockSize content = .ok text)
      (hread : read (String.ofList (unifyBreaks text.toList)) = .ok v) (hblank : v.truthy = false) :
      FilePairs read t path []

theorem parse_eq_ok {read : Yaml.Reader} {path : String} {content : Bytes} {pairs : Config} :
    parse read path content = .ok pairs ↔ ∃ text v, Utf8.decodeBlocks blockSize content = .ok text ∧
      read (String.ofList (unifyBreaks text.toList)) = .ok v ∧
      (v = .map pairs ∨ v.truthy = false ∧ pairs = []) := by
  have hbare : ∀ v : Value, (if v.truthy then throw (.notMap path v.shape) else return [] :
      Except LoadFault Config) = .ok pairs ↔ v.truthy = false ∧ pairs = [] := by
    intro v
    cases v.truthy <;> simp [pure_eq_ok, throw, throwThe, MonadExceptOf.throw, @eq_comm _ [] pairs]
  simp only [parse, bind_eq_ok, mapError_eq_ok]
  refine exists_congr fun text => ?_
  rw [← exists_and_left]
  refine exists_congr fun v => and_congr_right fun _ => and_congr_right fun _ => ?_
  cases v with
  | map ps =>
    rw [pure_eq_ok, Value.map.injEq]
    refine ⟨.inl, ?_⟩
    rintro (h | ⟨hblank, rfl⟩)
    · exact h
    · simpa [Value.truthy] using hblank
  | _ => exact (hbare _).trans (by simp only [reduceCtorEq, false_or])

/-- **A configuration is loaded** just if the file at its path has pairs, and it has these over the
pairs that hold without a file. -/
theorem load_eq_ok {read : Yaml.Reader} {env : Environment} {t : FileTree} {path : String}
    {c : Config} : load read env t path = .ok c ↔
      ∃ pairs, FilePairs read t path pairs ∧ c = pairs.overlay (defaults env) := by
  constructor
  · intro h
    unfold load at h
    split at h
    · cases h
      exact ⟨[], .missing ‹_›, rfl⟩
    · obtain ⟨pairs, hparse, rfl⟩ := map_eq_ok.1 h
      obtain ⟨text, v, htext, hread, rfl | ⟨hblank, rfl⟩⟩ := parse_eq_ok.1 hparse
      · exact ⟨pairs, .map ‹_› htext hread, rfl⟩
      · exact ⟨[], .blank ‹_› htext hread hblank, rfl⟩
    · cases h
  · rintro ⟨pairs, hpairs, rfl⟩
    unfold load
    cases hpairs with
    | missing h => simp only [h, overlay, List.foldl_nil]
    | map hfile htext hread =>
      rw [hfile]
      exact map_eq_ok.2 ⟨pairs, parse_eq_ok.2 ⟨_, _, htext, hread, .inl rfl⟩, rfl⟩
    | blank hfile htext hread hblank =>
      rw [hfile]
      exact map_eq_ok.2 ⟨[], parse_eq_ok.2 ⟨_, _, htext, hread, .inr ⟨hblank, rfl⟩⟩, rfl⟩

/-- The value of a key when the pairs of a file stand over variables, and these over what is set
without either. -/
def layered (pairs : Config) (env : Environment) (key : String) : Option Value :=
  (get? pairs.reverse key).or (unfiled env key)

/-- **A loaded configuration** gives each key its value by the file, the variables and the rest, in
this order. -/
theorem get?_load {read : Yaml.Reader} {env : Environment} {t : FileTree} {path : String}
    {c : Config} (h : load read env t path = .ok c) :
    ∃ pairs, FilePairs read t path pairs ∧ ∀ key, c.get? key = layered pairs env key := by
  obtain ⟨pairs, hpairs, rfl⟩ := load_eq_ok.1 h
  exact ⟨pairs, hpairs, fun key => by rw [get?_overlay, get?_defaults, layered]⟩

end Config

/-! ## Settings -/

namespace Value

/-- The value stands for a list: a text is cut into items, a map gives its keys. -/
def isListed : Value → Bool
  | text _ | broken _ | bytes _ | list _ | pair _ _ | map _ | set _ => true
  | null | bool _ | int _ | float _ | date _ | moment _ | again _ => false

end Value

namespace Settings

variable {room : Nat} {c : Config}

/-- **What stands for no list**: a value that counts as given and has no items. -/
theorem itemsOf_error {v : Value} {f : Fault} : itemsOf v = .error f ↔
    v.truthy = true ∧ v.isListed = false ∧ f = .notIterable v.fullShape := by
  have flip {b : Bool} : (if b then (.error (.notIterable v.fullShape) : Except Fault (List Value))
      else .ok []) = .error f ↔ b = true ∧ f = .notIterable v.fullShape := by
    cases b <;> simp [eq_comm]
  cases v <;> simp [itemsOf, Value.isListed, flip]

theorem skipOf_error {f : Fault} : skipOf c = .error f ↔ ∃ v, c.get? "SKIP_DIRS" = some v ∧
    v.truthy = true ∧ v.isListed = false ∧ f = .notIterable v.fullShape := by
  unfold skipOf
  cases c.get? "SKIP_DIRS" with
  | none => simp
  | some v => simp [itemsOf_error]

/-- Why the value that a configuration gives a key has no text, if it has none. -/
def hindrance (room : Nat) (c : Config) (key : String) : Option Value.TextFault :=
  (c.get? key).bind (·.textFault? room)

theorem textFault?_choice {key default : String} :
    (choice c key default).textFault? room = hindrance room c key := by
  unfold choice hindrance
  cases c.get? key with
  | none => simp [Value.textFault?]
  | some v => rfl

theorem textOr_eq_ok {key default text : String} : textOr room c key default = .ok text ↔
    hindrance room c key = none ∧ (choice c key default).toText = text := by
  unfold textOr
  rw [textFault?_choice]
  cases hindrance room c key <;> simp

theorem textOr_eq_error {key default : String} {f : Fault} :
    textOr room c key default = .error f ↔
      ∃ g, hindrance room c key = some g ∧ f = .noText g := by
  unfold textOr
  rw [textFault?_choice]
  cases hindrance room c key <;> simp [eq_comm]

/-- The keys of the choices that are texts, apart from the quote. -/
def textKeys : List String :=
  ["TEMPLATE_EXTENSION", "STYLE_EXTENSION", "CANDIDATE_SUFFIX", "SOURCE_SUFFIX", "DECORATOR_NAME"]

/-- The quote that a configuration sets is one that strings can have. -/
def Quotes (room : Nat) (c : Config) : Prop :=
  textOr room c "QUOTE" "'" = .ok "'" ∨ textOr room c "QUOTE" "'" = .ok "\""

/-- The settings that a configuration gives, but for the directories to skip. -/
structure Texts (room : Nat) (c : Config) (s : Settings) : Prop where
  legal : s.quote = "'" ∨ s.quote = "\""
  quote : textOr room c "QUOTE" "'" = .ok s.quote
  templateExtension : textOr room c "TEMPLATE_EXTENSION" ".html" = .ok s.templateExtension
  styleExtension : textOr room c "STYLE_EXTENSION" ".scss" = .ok s.styleExtension
  candidateSuffix : textOr room c "CANDIDATE_SUFFIX" ".component.ts" = .ok s.candidateSuffix
  sourceSuffix : textOr room c "SOURCE_SUFFIX" ".ts" = .ok s.sourceSuffix
  decoratorName : textOr room c "DECORATOR_NAME" "Component" = .ok s.decoratorName
  skipDirs : s.skipDirs = ({} : Settings).skipDirs

theorem textsOf_eq_ok {s : Settings} : textsOf room c = .ok s ↔ Texts room c s := by
  constructor
  · intro h
    obtain ⟨quote, hquote, h⟩ := bind_eq_ok.1 h
    by_cases hillegal : quote ≠ "'" ∧ quote ≠ "\""
    · rw [if_pos hillegal] at h
      cases h
    · rw [if_neg hillegal] at h
      obtain ⟨template, htemplate, h⟩ := bind_eq_ok.1 h
      obtain ⟨style, hstyle, h⟩ := bind_eq_ok.1 h
      obtain ⟨candidate, hcandidate, h⟩ := bind_eq_ok.1 h
      obtain ⟨source, hsource, h⟩ := bind_eq_ok.1 h
      obtain ⟨name, hname, h⟩ := bind_eq_ok.1 h
      obtain rfl := pure_eq_ok.1 h
      exact ⟨by simpa only [not_and_or, not_not] using hillegal, hquote, htemplate, hstyle,
        hcandidate, hsource, hname, rfl⟩
  · intro h
    have hlegal : ¬ (s.quote ≠ "'" ∧ s.quote ≠ "\"") := by
      simpa only [not_and_or, not_not] using h.legal
    unfold textsOf
    refine bind_eq_ok.2 ⟨s.quote, h.quote, ?_⟩
    rw [if_neg hlegal]
    refine bind_eq_ok.2 ⟨_, h.templateExtension, bind_eq_ok.2 ⟨_, h.styleExtension,
      bind_eq_ok.2 ⟨_, h.candidateSuffix, bind_eq_ok.2 ⟨_, h.sourceSuffix,
        bind_eq_ok.2 ⟨_, h.decoratorName, ?_⟩⟩⟩⟩⟩
    obtain ⟨_, _, _, _, _, _, skip⟩ := s
    obtain rfl : skip = _ := h.skipDirs
    rfl

/-- **The texts can be set** just if the quote is one that strings can have, and every other choice
has a text. -/
theorem exists_texts_iff : (∃ s, Texts room c s) ↔
    Quotes room c ∧ ∀ key ∈ textKeys, hindrance room c key = none := by
  constructor
  · rintro ⟨s, h⟩
    have hquotes : Quotes room c := by
      have hquote := h.quote
      rcases h.legal with hlegal | hlegal <;> rw [hlegal] at hquote
      · exact .inl hquote
      · exact .inr hquote
    simp only [textKeys, List.forall_mem_cons, List.not_mem_nil, false_implies, implies_true,
      and_true]
    exact ⟨hquotes, (textOr_eq_ok.1 h.templateExtension).1, (textOr_eq_ok.1 h.styleExtension).1,
      (textOr_eq_ok.1 h.candidateSuffix).1, (textOr_eq_ok.1 h.sourceSuffix).1,
      (textOr_eq_ok.1 h.decoratorName).1⟩
  · rintro ⟨hquotes, hwrites⟩
    have htext : ∀ key ∈ textKeys, ∀ default, ∃ s, textOr room c key default = .ok s :=
      fun key hkey _ => ⟨_, textOr_eq_ok.2 ⟨hwrites key hkey, rfl⟩⟩
    obtain ⟨template, htemplate⟩ := htext "TEMPLATE_EXTENSION" (by simp [textKeys]) ".html"
    obtain ⟨style, hstyle⟩ := htext "STYLE_EXTENSION" (by simp [textKeys]) ".scss"
    obtain ⟨candidate, hcandidate⟩ := htext "CANDIDATE_SUFFIX" (by simp [textKeys]) ".component.ts"
    obtain ⟨source, hsource⟩ := htext "SOURCE_SUFFIX" (by simp [textKeys]) ".ts"
    obtain ⟨name, hname⟩ := htext "DECORATOR_NAME" (by simp [textKeys]) "Component"
    rcases hquotes with hquote | hquote
    · exact ⟨⟨template, style, candidate, source, name, "'", _⟩, .inl rfl, hquote, htemplate,
        hstyle, hcandidate, hsource, hname, rfl⟩
    · exact ⟨⟨template, style, candidate, source, name, "\"", _⟩, .inr rfl, hquote, htemplate,
        hstyle, hcandidate, hsource, hname, rfl⟩

/-- A text that is asked for before others fails, or it is there and they are asked for. -/
theorem textOr_bind_error {key default : String} {rest : String → Except Fault Settings}
    {f : Fault} : textOr room c key default >>= rest = .error f ↔
      (∃ g, hindrance room c key = some g ∧ f = .noText g) ∨
        hindrance room c key = none ∧ rest (choice c key default).toText = .error f := by
  simp only [bind_eq_error, textOr_eq_error, textOr_eq_ok]
  refine or_congr_right ⟨?_, fun ⟨h, hrest⟩ => ⟨_, ⟨h, rfl⟩, hrest⟩⟩
  rintro ⟨_, ⟨h, rfl⟩, hrest⟩
  exact ⟨h, hrest⟩

/-- **The first text that cannot be set**: that of the quote, which has none or is not allowed, and
then that of the first other choice without a text. -/
theorem textsOf_error {f : Fault} : textsOf room c = .error f ↔
    (∃ g, hindrance room c "QUOTE" = some g ∧ f = .noText g) ∨
    (hindrance room c "QUOTE" = none ∧ ¬ Quotes room c ∧
      f = .badQuote (choice c "QUOTE" "'").quotedText) ∨
    (Quotes room c ∧ ∃ g, textKeys.findSome? (hindrance room c) = some g ∧ f = .noText g) := by
  have hquotes : ∀ h : hindrance room c "QUOTE" = none, ¬ Quotes room c ↔
      (choice c "QUOTE" "'").toText ≠ "'" ∧ (choice c "QUOTE" "'").toText ≠ "\"" := by
    intro h
    simp [Quotes, textOr_eq_ok, h]
  unfold textsOf
  rw [textOr_bind_error]
  cases hquote : hindrance room c "QUOTE" with
  | some g =>
    have hno : ¬ Quotes room c := by simp [Quotes, textOr_eq_ok, hquote]
    simp [hno]
  | none =>
    simp only [reduceCtorEq, false_and, exists_false, true_and, false_or]
    by_cases hillegal : Quotes room c
    · have hlegal := (not_congr (hquotes hquote)).1 (not_not.2 hillegal)
      rw [if_neg hlegal]
      simp only [textOr_bind_error, hillegal, textKeys, List.findSome?_cons]
      cases hindrance room c "TEMPLATE_EXTENSION" <;> cases hindrance room c "STYLE_EXTENSION" <;>
        cases hindrance room c "CANDIDATE_SUFFIX" <;> cases hindrance room c "SOURCE_SUFFIX" <;>
        cases hindrance room c "DECORATOR_NAME" <;>
        simp [pure, Except.pure]
    · rw [if_pos ((hquotes hquote).1 hillegal)]
      change (Except.error (.badQuote _) : Except Fault Settings) = .error f ↔ _
      simp [hillegal, eq_comm]

/-- **The settings of a configuration** are its texts and its directories to skip. -/
theorem ofConfig_eq_ok {s : Settings} : ofConfig room c = .ok s ↔
    ∃ base skip, Texts room c base ∧ skipOf c = .ok skip ∧ { base with skipDirs := skip } = s := by
  simp only [ofConfig, bind_eq_ok, pure_eq_ok, textsOf_eq_ok, exists_and_left]

theorem quote_of_ofConfig {s : Settings} (h : ofConfig room c = .ok s) :
    s.quote = "'" ∨ s.quote = "\"" := by
  obtain ⟨base, skip, hbase, -, rfl⟩ := ofConfig_eq_ok.1 h
  exact hbase.legal

/-- **The texts are set first**, so a text that is not allowed hides what is wrong with the
directories to skip. -/
theorem ofConfig_error {f : Fault} : ofConfig room c = .error f ↔
    textsOf room c = .error f ∨ (∃ base, Texts room c base) ∧ skipOf c = .error f := by
  have hpure : ∀ (base : Settings) (skip : List Value),
      ¬ (pure { base with skipDirs := skip } : Except Fault Settings) = .error f :=
    fun _ _ h => by cases h
  simp only [ofConfig, bind_eq_error, textsOf_eq_ok, hpure, and_false, exists_false, or_false,
    exists_and_right]

end Settings

end AssetLift
