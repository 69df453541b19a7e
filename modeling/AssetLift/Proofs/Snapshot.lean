import AssetLift.Proofs.Choices
import AssetLift.Proofs.FileTree
import Mathlib.Data.Finset.Card

/-!
# What loads answer while a program runs

Between loads, files are written and variables are set, and the cache may be emptied. As long as no
more paths are asked for than the cache keeps, a path that was once loaded gives the configuration
of that time until the cache is emptied, and a load that fails leaves no trace.

* `World`, `Event`: what a load looks at, and what can happen. `World.after` knows no cache.
* `Snapshot`: what the first load of a path gave that could succeed. `snapshot_snoc`: its growth.
* `Mirrors`: the cache holds the snapshots. `mirrors_step`, `mirrors_after`: it does at every point.
* `answers_snapshots`: what each load answers.
-/

namespace AssetLift

namespace Config

/-! ## Runs -/

/-- What a load looks at. The reader stays the same all the time. -/
structure World where
  read : Yaml.Reader
  env : Environment
  tree : FileTree

/-- What can happen. -/
inductive Event where
  /-- Files are written, or changed in any other way. -/
  | files (change : FileTree → FileTree)
  /-- Variables are set, or changed in any other way. -/
  | environment (change : Environment → Environment)
  /-- The cache is emptied. -/
  | clear
  /-- The configuration of a path is asked for. -/
  | load (path : String)

/-- What an event makes of the world. -/
def World.next (w : World) : Event → World
  | .files change => { w with tree := change w.tree }
  | .environment change => { w with env := change w.env }
  | .clear => w
  | .load _ => w

/-- The world after a run. -/
def World.after (w : World) (run : List Event) : World := run.foldl World.next w

theorem World.read_after (w : World) (run : List Event) : (w.after run).read = w.read := by
  induction run generalizing w with
  | nil => rfl
  | cons e run ih => exact (ih (w.next e)).trans (by cases e <;> rfl)

/-- What a load of a path after a run gives without a cache. -/
def fresh (w : World) (run : List Event) (path : String) : Except LoadFault Config :=
  Config.load (w.after run).read (w.after run).env (w.after run).tree path

/-- What an event makes of the cache. -/
def Cache.next (c : Cache) (w : World) : Event → Cache
  | .files _ => c
  | .environment _ => c
  | .clear => []
  | .load path => (c.load w.read w.env w.tree path).2

/-- The cache after a run in a world; at first it is empty. -/
def Cache.after (w : World) (run : List Event) : Cache :=
  (run.foldl (fun s e => (s.1.next e, Cache.next s.2 s.1 e)) (w, [])).2

/-- What a load of a path after a run answers. -/
def answer (w : World) (run : List Event) (path : String) : Except LoadFault Config :=
  ((Cache.after w run).load (w.after run).read (w.after run).env (w.after run).tree path).1

section
variable {w : World} {run : List Event} {e : Event} {path : String} {c : Config}

theorem Cache.after_snoc :
    Cache.after w (run ++ [e]) = (Cache.after w run).next (w.after run) e := by
  have hworld : ∀ (run : List Event) (s : World × Cache),
      (run.foldl (fun s e => (s.1.next e, Cache.next s.2 s.1 e)) s).1 = s.1.after run := by
    intro run
    induction run with
    | nil => intro; rfl
    | cons e run ih => intro s; exact ih _
  rw [Cache.after, List.foldl_append, List.foldl_cons, List.foldl_nil, hworld]
  rfl

/-! ## Snapshots -/

/-- Every load of a path since the cache was emptied last must have failed. -/
def Failed (w : World) (run : List Event) (path : String) : Prop :=
  ∀ early late, run = early ++ .load path :: late → Event.clear ∉ late →
    ∃ f, fresh w early path = .error f

/-- What the first load of a path gave that could succeed since the cache was emptied last. -/
def Snapshot (w : World) (run : List Event) (path : String) (c : Config) : Prop :=
  ∃ early late, run = early ++ .load path :: late ∧ Event.clear ∉ late ∧ Failed w early path ∧
    fresh w early path = .ok c

/-- **One event more** leaves a snapshot as it is, but for the one that empties the cache. The first
load that succeeds makes one. -/
theorem snapshot_snoc : Snapshot w (run ++ [e]) path c ↔ (e ≠ .clear ∧ Snapshot w run path c) ∨
    (e = .load path ∧ Failed w run path ∧ fresh w run path = .ok c) := by
  constructor
  · rintro ⟨early, late, hsplit, hlate, hfailed, hfresh⟩
    rcases List.eq_nil_or_concat late with rfl | ⟨late, last, rfl⟩
    · obtain ⟨rfl, he⟩ := List.append_inj' hsplit rfl
      obtain rfl := List.singleton_inj.1 he
      exact .inr ⟨rfl, hfailed, hfresh⟩
    · rw [List.concat_eq_append, ← List.cons_append, ← List.append_assoc] at hsplit
      obtain ⟨rfl, he⟩ := List.append_inj' hsplit rfl
      obtain rfl := List.singleton_inj.1 he
      rw [List.concat_eq_append, List.mem_append, not_or, List.mem_singleton] at hlate
      exact .inl ⟨Ne.symm hlate.2, early, late, rfl, hlate.1, hfailed, hfresh⟩
  · rintro (⟨hclear, early, late, rfl, hlate, hfailed, hfresh⟩ | ⟨rfl, hfailed, hfresh⟩)
    · refine ⟨early, late ++ [e], by simp, ?_, hfailed, hfresh⟩
      rw [List.mem_append, not_or, List.mem_singleton]
      exact ⟨hlate, Ne.symm hclear⟩
    · exact ⟨run, [], rfl, by simp, hfailed, hfresh⟩

/-- **Without a snapshot** every load has failed. -/
theorem failed_iff : Failed w run path ↔ ∀ c, ¬ Snapshot w run path c := by
  constructor
  · rintro hfailed c ⟨early, late, hsplit, hlate, -, hfresh⟩
    obtain ⟨f, hf⟩ := hfailed early late hsplit hlate
    rw [hfresh] at hf
    cases hf
  · intro hnone early
    -- the loads before the one after `early` are known to have failed
    induction hk : early.length using Nat.strongRecOn generalizing early with
    | ind k ih =>
      subst hk
      rintro late rfl hlate
      cases hfresh : fresh w early path with
      | error f => exact ⟨f, rfl⟩
      | ok c =>
        refine absurd ⟨early, late, rfl, hlate, ?_, hfresh⟩ (hnone c)
        rintro first second rfl hsecond
        refine ih first.length (by simp) first rfl (second ++ .load path :: late) (by simp) ?_
        simp [hsecond, hlate]

/-! ## The cache -/

/-- The paths that are asked for in a run. -/
def asked (run : List Event) : List String :=
  run.filterMap fun
    | .load path => some path
    | _ => none

/-- No more paths are asked for than the cache keeps, from one emptying to the next. -/
def Few (run : List Event) : Prop :=
  ∀ spell, spell <:+: run → Event.clear ∉ spell → (asked spell).toFinset.card ≤ cacheSize

theorem Few.left {later : List Event} (h : Few (run ++ later)) : Few run :=
  fun spell hspell => h spell (hspell.trans (List.prefix_append run later).isInfix)

theorem few_of_length (h : run.length ≤ cacheSize) : Few run := fun _ hspell _ =>
  (List.toFinset_card_le _).trans
    ((List.length_filterMap_le _ _).trans (hspell.length_le.trans h))

theorem mem_asked : path ∈ asked run ↔ Event.load path ∈ run := by
  rw [asked, List.mem_filterMap]
  constructor
  · rintro ⟨e, he, hpath⟩
    cases e <;> cases hpath
    exact he
  · exact fun h => ⟨_, h, rfl⟩

/-- The cache after a run. -/
structure Mirrors (w : World) (run : List Event) (kept : Cache) : Prop where
  /-- It holds the snapshots and nothing else. -/
  found : ∀ path c, kept.lookup path = some c ↔ Snapshot w run path c
  nodup : (kept.map (·.1)).Nodup
  /-- What it holds was asked for since it was emptied last. -/
  spell : ∃ spell, spell <:+ run ∧ Event.clear ∉ spell ∧
    ∀ path ∈ kept.map (·.1), Event.load path ∈ spell

theorem Mirrors.failed {kept : Cache} (h : Mirrors w run kept) :
    kept.lookup path = none ↔ Failed w run path := by
  rw [failed_iff, Option.eq_none_iff_forall_ne_some]
  exact forall_congr' fun c => not_congr (h.found path c)

/-- **There is room** for one more configuration. -/
theorem Mirrors.room {kept : Cache} (h : Mirrors w run kept) (few : Few (run ++ [.load path]))
    (hnew : kept.lookup path = none) : kept.length < cacheSize := by
  obtain ⟨spell, ⟨before, rfl⟩, hclear, hasked⟩ := h.spell
  have hnodup : (path :: kept.map (·.1)).Nodup := by
    refine List.nodup_cons.2 ⟨fun hmem => ?_, h.nodup⟩
    obtain ⟨e, he, heq⟩ := List.mem_map.1 hmem
    exact FileTree.lookup_eq_none.1 hnew e he heq
  have hsub : (path :: kept.map (·.1)).toFinset ⊆ (asked (spell ++ [.load path])).toFinset := by
    intro p hp
    rw [List.mem_toFinset, mem_asked, List.mem_append, List.mem_singleton]
    rcases List.mem_cons.1 (List.mem_toFinset.1 hp) with rfl | hp
    · exact .inr rfl
    · exact .inl (hasked p hp)
  have hcard := (Finset.card_le_card hsub).trans
    (few (spell ++ [.load path]) ⟨before, [], by simp⟩ (by simp [hclear]))
  rw [List.toFinset_card_of_nodup hnodup, List.length_cons, List.length_map] at hcard
  exact hcard

/-- **An event that no load belongs to** leaves the cache as it is. -/
theorem Mirrors.quiet {kept : Cache} (h : Mirrors w run kept) (hclear : e ≠ .clear)
    (hnew : ∀ path, e = .load path → ¬ (Failed w run path ∧ ∃ c, fresh w run path = .ok c)) :
    Mirrors w (run ++ [e]) kept where
  found path c := by
    rw [h.found, snapshot_snoc]
    constructor
    · exact fun hc => .inl ⟨hclear, hc⟩
    · rintro (⟨-, hc⟩ | ⟨he, hfailed, hfresh⟩)
      · exact hc
      · exact absurd ⟨hfailed, c, hfresh⟩ (hnew path he)
  nodup := h.nodup
  spell := by
    obtain ⟨spell, ⟨before, rfl⟩, hspell, hasked⟩ := h.spell
    refine ⟨spell ++ [e], ⟨before, by simp⟩, ?_, fun path hpath =>
      List.mem_append_left _ (hasked path hpath)⟩
    rw [List.mem_append, not_or, List.mem_singleton]
    exact ⟨hspell, Ne.symm hclear⟩

/-- **What is asked for again** comes to the front. -/
theorem Mirrors.front {kept : Cache} (h : Mirrors w run kept) (hc : kept.lookup path = some c) :
    Mirrors w run ((path, c) :: kept.filter (·.1 ≠ path)) where
  found q d := by
    rw [← h.found, List.lookup_cons]
    by_cases hq : q = path
    · subst hq
      simp [hc]
    · rw [beq_eq_false_iff_ne.2 hq, FileTree.lookup_filter_ne, if_neg hq]
  nodup := by
    rw [List.map_cons, List.nodup_cons]
    refine ⟨by simp, ?_⟩
    exact h.nodup.sublist (List.filter_sublist.map _)
  spell := by
    obtain ⟨spell, hsuffix, hclear, hasked⟩ := h.spell
    refine ⟨spell, hsuffix, hclear, fun q hq => hasked q ?_⟩
    rcases List.mem_cons.1 hq with rfl | hq
    · by_contra hmem
      have hnone : kept.lookup q = none := FileTree.lookup_eq_none.2 fun e he heq =>
        hmem (List.mem_map.2 ⟨e, he, heq⟩)
      rw [hc] at hnone
      cases hnone
    · exact (List.filter_sublist.map _).subset hq

/-- **What is loaded** is kept. -/
theorem Mirrors.push {kept : Cache} (h : Mirrors w run kept) (hnew : kept.lookup path = none)
    (hfresh : fresh w run path = .ok c) :
    Mirrors w (run ++ [.load path]) ((path, c) :: kept) where
  found q d := by
    rw [List.lookup_cons, snapshot_snoc]
    by_cases hq : q = path
    · subst hq
      have hfailed := h.failed.1 hnew
      have hnone := failed_iff.1 hfailed d
      simp [hnone, hfailed, hfresh]
    · rw [beq_eq_false_iff_ne.2 hq, h.found]
      simp [Ne.symm hq]
  nodup := by
    rw [List.map_cons, List.nodup_cons]
    refine ⟨fun hmem => ?_, h.nodup⟩
    obtain ⟨e, he, heq⟩ := List.mem_map.1 hmem
    exact FileTree.lookup_eq_none.1 hnew e he heq
  spell := by
    obtain ⟨spell, ⟨before, rfl⟩, hclear, hasked⟩ := h.spell
    refine ⟨spell ++ [.load path], ⟨before, by simp⟩, by simp [hclear], fun q hq => ?_⟩
    rcases List.mem_cons.1 hq with rfl | hq
    · simp
    · exact List.mem_append_left _ (hasked q hq)

/-- **Every event** leaves a cache that holds the snapshots. -/
theorem mirrors_step {kept : Cache} (h : Mirrors w run kept) (few : Few (run ++ [e])) :
    Mirrors w (run ++ [e]) (kept.next (w.after run) e) := by
  cases e with
  | files | environment => exact h.quiet (by simp) (by simp)
  | clear =>
    refine ⟨fun path c => ?_, List.nodup_nil, [], List.nil_suffix, by simp, by simp [Cache.next]⟩
    simp [Cache.next, snapshot_snoc]
  | load path =>
    rw [Cache.next, Cache.load]
    cases hc : kept.lookup path with
    | some c =>
      refine (h.front hc).quiet (by simp) ?_
      rintro q heq ⟨hfailed, -⟩
      obtain rfl := Event.load.inj heq
      exact failed_iff.1 hfailed c ((h.found path c).1 hc)
    | none =>
      have hfresh : Config.load (w.after run).read (w.after run).env (w.after run).tree path = fresh w run path := rfl
      rw [hfresh]
      cases hresult : fresh w run path with
      | ok c =>
        dsimp only
        rw [List.take_of_length_le (h.room few hc)]
        exact h.push hc hresult
      | error f =>
        refine h.quiet (by simp) ?_
        rintro q heq ⟨-, c, hq⟩
        obtain rfl := Event.load.inj heq
        rw [hresult] at hq
        cases hq

/-- **At every point of a run** the cache holds the snapshots. -/
theorem mirrors_after (few : Few run) : Mirrors w run (Cache.after w run) := by
  induction run using List.reverseRecOn with
  | nil =>
    refine ⟨fun path c => ?_, List.nodup_nil, [], List.nil_suffix, by simp, by simp [Cache.after]⟩
    simp [Cache.after, Snapshot]
  | append_singleton run e ih =>
    rw [Cache.after_snoc]
    exact mirrors_step (ih few.left) few

/-! ## The answers -/

theorem answer_of_kept (h : (Cache.after w run).lookup path = some c) :
    answer w run path = .ok c := by
  rw [answer, Cache.load, h]

theorem answer_of_new (h : (Cache.after w run).lookup path = none) :
    answer w run path = fresh w run path := by
  rw [answer, Cache.load, h, fresh]
  cases Config.load (w.after run).read (w.after run).env (w.after run).tree path <;> rfl

/-- **A load that returns** gives the snapshot of its path. -/
theorem answer_eq_ok (few : Few run) :
    answer w run path = .ok c ↔ Snapshot w (run ++ [.load path]) path c := by
  have h := mirrors_after (w := w) few
  rw [snapshot_snoc]
  cases hc : (Cache.after w run).lookup path with
  | some c' =>
    have hsnapshot := (h.found path c').1 hc
    have hfailed : ¬ Failed w run path := fun hf => failed_iff.1 hf c' hsnapshot
    simp [answer_of_kept hc, hfailed, ← h.found, hc]
  | none =>
    have hfailed := h.failed.1 hc
    simp [answer_of_new hc, hfailed, failed_iff.1 hfailed c]

/-- **A load that fails** comes after others that failed, and would fail without a cache. -/
theorem answer_eq_error (few : Few run) {f : LoadFault} : answer w run path = .error f ↔
    Failed w run path ∧ fresh w run path = .error f := by
  have h := mirrors_after (w := w) few
  rw [← h.failed]
  cases hc : (Cache.after w run).lookup path with
  | some c' => simp [answer_of_kept hc]
  | none => simp [answer_of_new hc]

/-- The load of a path after `early` is the first one to return since the cache was emptied last. -/
structure FirstReturn (w : World) (run : List Event) (path : String) (early : List Event) :
    Prop where
  since : ∃ late, run = early ++ .load path :: late ∧ Event.clear ∉ late
  returned : ∃ c, answer w early path = .ok c
  first : ∀ before late, early = before ++ .load path :: late → Event.clear ∉ late →
    ∃ f, answer w before path = .error f

theorem Failed.left {before late : List Event} (h : Failed w (before ++ .load path :: late) path)
    (hlate : Event.clear ∉ late) : Failed w before path := by
  rintro early mid rfl hmid
  exact h early (mid ++ .load path :: late) (by simp) (by simp [hmid, hlate])

theorem snapshot_iff_first (few : Few run) : Snapshot w run path c ↔
    ∃ early, FirstReturn w run path early ∧ fresh w early path = .ok c := by
  constructor
  · rintro ⟨early, late, rfl, hlate, hfailed, hfresh⟩
    refine ⟨early, ⟨⟨late, rfl, hlate⟩, ⟨c, ?_⟩, ?_⟩, hfresh⟩
    · exact (answer_eq_ok few.left).2 ⟨early, [], rfl, by simp, hfailed, hfresh⟩
    · rintro before mid rfl hmid
      obtain ⟨f, hf⟩ := hfailed before mid rfl hmid
      exact ⟨f, (answer_eq_error few.left.left).2 ⟨hfailed.left hmid, hf⟩⟩
  · rintro ⟨early, ⟨⟨late, rfl, hlate⟩, -, hfirst⟩, hfresh⟩
    refine ⟨early, late, rfl, hlate, ?_, hfresh⟩
    rintro before mid rfl hmid
    obtain ⟨f, hf⟩ := hfirst before mid rfl hmid
    exact ⟨f, ((answer_eq_error few.left.left).1 hf).2⟩

theorem World.after_append {later : List Event} :
    w.after (run ++ later) = (w.after run).after later := List.foldl_append

/-- **A load that fails leaves no trace** in what comes later. -/
theorem answer_after_error {f : LoadFault} (h : answer w run path = .error f) (later : List Event)
    (q : String) : answer w (run ++ .load path :: later) q = answer w (run ++ later) q := by
  have hkept : Cache.after w (run ++ [.load path]) = Cache.after w run := by
    rw [Cache.after_snoc, Cache.next]
    rw [answer] at h
    revert h
    unfold Cache.load
    cases (Cache.after w run).lookup path with
    | some c => simp
    | none => cases Config.load (w.after run).read (w.after run).env (w.after run).tree path <;> simp
  have hworld : ∀ later, w.after (run ++ .load path :: later) = w.after (run ++ later) := by
    intro later
    rw [World.after_append, World.after_append]
    rfl
  have hcache : Cache.after w (run ++ .load path :: later) = Cache.after w (run ++ later) := by
    induction later using List.reverseRecOn with
    | nil => rw [List.append_nil, hkept]
    | append_singleton later e ih =>
      rw [← List.cons_append, ← List.append_assoc, ← List.append_assoc, Cache.after_snoc, ih,
        hworld, Cache.after_snoc]
  rw [answer, answer, hcache, hworld]

/-- **Loads answer with snapshots.** In a run in which no more paths are asked for than the cache
keeps, a load returns if and only if it, or an earlier one of the same path since the cache was last
emptied, did so first, and it gives what the path gave at that time without a cache. Without a cache
a load returns if and only if there is no file at the path or one that has pairs, and what it gives
is the pairs of the file over the variables over what is set without either. A load that fails would
have failed without a cache, and all that is asked later is answered as if it had not been. -/
theorem answers_snapshots (few : Few (run ++ [.load path])) :
    (∀ c, answer w run path = .ok c ↔
      ∃ early, FirstReturn w (run ++ [.load path]) path early ∧ fresh w early path = .ok c) ∧
    (∀ early, (∃ c, fresh w early path = .ok c) ↔
      ∃ pairs, FilePairs w.read (w.after early).tree path pairs) ∧
    (∀ early c, fresh w early path = .ok c →
      ∃ pairs, FilePairs w.read (w.after early).tree path pairs ∧
        ∀ key, c.get? key = layered pairs (w.after early).env key) ∧
    (∀ f, answer w run path = .error f → fresh w run path = .error f ∧
      ∀ later q, answer w (run ++ .load path :: later) q = answer w (run ++ later) q) := by
  refine ⟨fun c => ?_, fun early => ?_, fun early c h => ?_,
    fun f hf => ⟨?_, answer_after_error hf⟩⟩
  · rw [answer_eq_ok few.left, snapshot_iff_first few]
  · simp only [fresh, load_eq_ok, World.read_after]
    exact ⟨fun ⟨_, pairs, hpairs, _⟩ => ⟨pairs, hpairs⟩, fun ⟨pairs, hpairs⟩ => ⟨_, pairs, hpairs, rfl⟩⟩
  · rw [← w.read_after early]
    exact get?_load h
  · exact ((answer_eq_error few.left).1 hf).2

end

namespace Sample

/-- Reads the one document that is needed here. -/
def reader : Yaml.Reader := fun text =>
  if text = "STYLE_EXTENSION: .css\n" then .ok (.map [(.text "STYLE_EXTENSION", .text ".css")])
  else .error .malformed

def document : FileNode := .file (Bytes.ofString "STYLE_EXTENSION: .css\n") FileTree.defaultMode

/-- Three variables are set, and the working directory has a directory `c` in it. -/
def world : World where
  read := reader
  env := [("I2F_STYLE_EXTENSION", ".less"), ("I2F_QUOTE", "\""), ("I2F_SKIP_DIRS", " a, ,b")]
  tree := ⟨["w"], [(["w"], .directory), (["w", "c"], .directory)]⟩

/-- The directory cannot be loaded, and a file takes its place. -/
def early : List Event := [.load "c", .files (·.set ["w", "c"] document)]

/-- The file is loaded, and then it is gone, and the variables with it. -/
def run : List Event :=
  early ++ [.load "c", .files (·.erase ["w", "c"]), .environment fun _ => []]

theorem target_c (t : FileTree) {n : FileNode} (h : t.workDir = (["w"] : Location))
    (hn : t.find? ["w", "c"] = some n) (hlink : ∀ target, n ≠ .link target) :
    target t "c" = some n := by
  have hpath : Path.ofString "c" = ⟨.workDir, ["c"]⟩ := by decide +kernel
  have hplace : t.resolve true ⟨.workDir, ["c"]⟩ = .ok (.present ["w", "c"] n) := by
    have hbytes : FileName.bytes (CodePoint.ofString "c") = Bytes.ofString "c" := by decide +kernel
    rw [FileTree.resolve, if_neg (by decide +kernel), FileTree.base, h, List.map_singleton, hbytes,
      FileTree.resolveFrom, if_neg (by decide), if_neg (by decide +kernel), List.singleton_append,
      hn]
    cases n with
    | directory => exact FileTree.resolveFrom.eq_def ..
    | file => rfl
    | link target => exact absurd rfl (hlink target)
  have hnames : namesDirectory "c" = false := by decide +kernel
  have hfault : (Path.mk .workDir ["c"]).fault? = none := by decide +kernel
  simp only [target, hpath, hplace, hnames, hfault]
  cases n <;> rfl

theorem load_directory : fresh world [] "c" = .error (.io (.errno .isDirectory "c")) := by
  rw [fresh, load, target_c _ rfl (n := .directory) rfl (by simp)]

theorem filePairs {pairs : Config} :
    FilePairs reader (world.after early).tree "c" pairs ↔
      pairs = [(.text "STYLE_EXTENSION", .text ".css")] := by
  have hfile : target (world.after early).tree "c" = some document :=
    target_c _ rfl rfl (by simp [document])
  have hdecode : Utf8.decodeBlocks blockSize (Bytes.ofString "STYLE_EXTENSION: .css\n")
      = .ok "STYLE_EXTENSION: .css\n" := by decide +kernel
  have hread : reader (String.ofList (unifyBreaks "STYLE_EXTENSION: .css\n".toList))
      = .ok (.map [(.text "STYLE_EXTENSION", .text ".css")]) := by
    rw [reader, if_pos (by decide +kernel)]
  constructor
  · intro h
    cases h with
    | missing h => rw [hfile] at h; cases h
    | map h htext h' =>
      cases hfile.symm.trans h
      cases hdecode.symm.trans htext
      cases hread.symm.trans h'
      rfl
    | blank h htext h' hblank =>
      cases hfile.symm.trans h
      cases hdecode.symm.trans htext
      cases hread.symm.trans h'
      cases hblank
  · rintro rfl
    exact .map hfile hdecode hread

/-- There is no load but the first one. -/
theorem before_load {before late : List Event} (h : early = before ++ .load "c" :: late) :
    before = [] := by
  rcases before with _ | ⟨e, _ | ⟨e', before⟩⟩
  · rfl
  · simp [early] at h
  · simp [early] at h

end Sample

open Sample in
/-- The second load returns, and the third answers as it did: the pair of the file counts over the
variable of its key, and the other variables over what is set without them. -/
theorem answers_snapshots_file : Few (run ++ [.load "c"]) ∧ ∃ c, answer world run "c" = .ok c ∧
    c.get? "STYLE_EXTENSION" = some (.text ".css") ∧ c.get? "QUOTE" = some (.text "\"") ∧
    c.get? "SKIP_DIRS" = some (.list [.text "a", .text "b"]) ∧
    c.get? "SOURCE_SUFFIX" = some (.text ".ts") := by
  have few : ∀ run : List Event, run.length ≤ 6 → Few run := fun run h =>
    few_of_length (h.trans (by decide))
  obtain ⟨hanswer, hfresh, hlayers, -⟩ := @answers_snapshots world run "c" (few _ (by decide))
  obtain ⟨c, hc⟩ := (hfresh early).2 ⟨_, filePairs.2 rfl⟩
  obtain ⟨pairs, hpairs, hget⟩ := hlayers early c hc
  obtain rfl := filePairs.1 hpairs
  have hfailed : Failed world early "c" := fun before _ hsplit _ => by
    obtain rfl := before_load hsplit
    exact ⟨_, load_directory⟩
  have hreturns : answer world early "c" = .ok c :=
    (answer_eq_ok (few early (by decide))).2 ⟨early, [], rfl, by simp, hfailed, hc⟩
  refine ⟨few _ (by decide), c, (hanswer c).2
    ⟨early, ⟨⟨_, rfl, by simp⟩, ⟨_, hreturns⟩, fun before late hsplit _ => ?_⟩, hc⟩, ?_, ?_, ?_, ?_⟩
  · obtain rfl := before_load hsplit
    exact ⟨_, (answer_eq_error (few [] (by decide))).2
      ⟨fun before late h => by simp at h, load_directory⟩⟩
  all_goals rw [hget]
  · rfl
  · rfl
  · rfl
  · rfl

end Config

end AssetLift
