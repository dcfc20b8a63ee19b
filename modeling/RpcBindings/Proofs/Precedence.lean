import RpcBindings.Command.Run
import RpcBindings.Proofs.Files
import RpcBindings.Proofs.Layers

/-!
# Which source decides a setting

The settings of a call come from its arguments and flags, from the environment, from the file that it names, from the
project's file, from the user's file, and from defaults. For each key the first of these that has a value decides, and
what they say about other keys does not matter.
-/

namespace RpcBindings

open Files Toml

/-! ## Files -/

namespace Settings

def document? (files : System) (path : Text) : Option Members := (files.read path).toOption.bind parse?

def stated? (files : System) (path : Text) (k : Key) : Option Value :=
  (document? files path).bind fun m => valueAt? (lowerMembers m) k.path

section

variable {files : System} {path : Text} {merged all : Members}

theorem mergeFile_ok (h : mergeFile files merged path = .ok all) :
    ∃ m, document? files path = some m ∧ all = mergeMembers merged (lowerMembers m) := by
  unfold mergeFile at h
  unfold document? System.read
  cases hentry : files.entryAt path with
  | error e => simp [hentry] at h
  | ok entry =>
    cases entry with
    | directory => simp [hentry] at h
    | file content =>
      cases hparse : parse? content with
      | none => simp [hentry, hparse] at h
      | some m =>
        simp only [hentry, hparse, Except.ok.injEq] at h
        exact ⟨m, by simp [Except.toOption, hparse], h.symm⟩

theorem mergeAll_ok {found found' sources : List Source}
    (hassigning : ∀ source ∈ sources, ∀ m ∈ document? files source.path, Assigning (lowerMembers m))
    (hmerged : Tabular merged) (h : (mergeAll files merged found sources).result = .ok (all, found')) :
    Tabular all ∧ ∀ k : Key, valueAt? all k.path =
      (sources.reverse.findSome? fun source => stated? files source.path k).or (valueAt? merged k.path) := by
  induction sources generalizing merged found with
  | nil =>
    obtain ⟨rfl, rfl⟩ := Prod.mk.inj (Except.ok.inj h)
    exact ⟨hmerged, fun k => rfl⟩
  | cons source rest ih =>
    rw [mergeAll] at h
    cases hfile : mergeFile files merged source.path with
    | error f => simp [hfile] at h
    | ok next =>
      simp only [hfile] at h
      obtain ⟨m, hm, rfl⟩ := mergeFile_ok hfile
      have hassign := hassigning source List.mem_cons_self m hm
      obtain ⟨htabular, hvalue⟩ := ih (fun s hs => hassigning s (List.mem_cons_of_mem _ hs)) (hmerged.merge hassign) h
      refine ⟨htabular, fun k => ?_⟩
      have hstated : stated? files source.path k = valueAt? (lowerMembers m) k.path := by rw [stated?, hm, Option.bind_some]
      rw [hvalue k, hmerged.valueAt?_merge hassign, List.reverse_cons, List.findSome?_append, List.findSome?_cons,
        List.findSome?_nil, hstated, Option.or_assoc]
      cases valueAt? (lowerMembers m) k.path <;> rfl

end

def userFile (environment : List (Text × Text)) : Text :=
  let home := (environment.lookup (Text.ofString "HOME")).getD []
  if home = [] then [] else userPath home

theorem stated?_of_error {files : System} {path : Text} {f : SystemFault} (h : files.stat path = .error f) (k : Key) :
    stated? files path k = none := by
  cases hentry : files.entryAt path with
  | ok e =>
    have hstat : files.stat path = .ok e := mapError_eq_ok.mpr hentry
    rw [h] at hstat
    cases hstat
  | error e => simp [stated?, document?, System.read, hentry, Except.toOption]

theorem findSome?_filter_of_none {α β : Type} {keep : α → Bool} {f : α → Option β} {l : List α}
    (h : ∀ a ∈ l, keep a = false → f a = none) : (l.filter keep).findSome? f = l.findSome? f := by
  induction l with
  | nil => rfl
  | cons a rest ih =>
    have hrest := ih fun b hb => h b (List.mem_cons_of_mem _ hb)
    cases hkeep : keep a with
    | true => rw [List.filter_cons_of_pos hkeep, List.findSome?_cons, List.findSome?_cons, hrest]
    | false =>
      rw [List.filter_cons_of_neg (by simp [hkeep]), List.findSome?_cons, h a List.mem_cons_self hkeep, hrest]

theorem findSome?_sources (files : System) (environment : List (Text × Text)) (file : Text) (k : Key) :
    ((Loader.sources ⟨[], [], file⟩ files environment).reverse.findSome? fun source => stated? files source.path k) =
      (stated? files file k).or
        ((stated? files (findProject files files.cwdPath) k).or (stated? files (userFile environment) k)) := by
  have hnothing : stated? files [] k = none := rfl
  have hone : ∀ (kind : SourceKind) (p : Text),
      (if p = [] then [] else [Source.mk kind p]).reverse.findSome? (fun source => stated? files source.path k) =
        stated? files p k := by
    intro kind p
    by_cases hp : p = []
    · rw [if_pos hp, hp, hnothing]
      rfl
    · rw [if_neg hp, List.reverse_singleton, List.findSome?_singleton]
  have huser : (if (environment.lookup (Text.ofString "HOME")).getD [] = [] then []
      else [Source.mk .user (userPath ((environment.lookup (Text.ofString "HOME")).getD []))]).reverse.findSome?
        (fun source => stated? files source.path k) = stated? files (userFile environment) k := by
    unfold userFile
    by_cases hhome : (environment.lookup (Text.ofString "HOME")).getD [] = []
    · simp only [if_pos hhome, hnothing]
      rfl
    · simp only [if_neg hhome]
      rw [List.reverse_singleton, List.findSome?_singleton]
  have habsent : ∀ source : Source, (files.stat source.path).toOption.isSome = false →
      stated? files source.path k = none := by
    intro source hstat
    cases hresult : files.stat source.path with
    | error f => exact stated?_of_error hresult k
    | ok e => simp [hresult, Except.toOption] at hstat
  unfold Loader.sources
  simp only [if_true]
  rw [List.reverse_append, List.findSome?_append, hone, ← List.filter_reverse,
    findSome?_filter_of_none fun source _ => habsent source, List.reverse_append, List.findSome?_append, hone, huser]

theorem path_of_mem_sources {files : System} {environment : List (Text × Text)} {file : Text} {source : Source}
    (h : source ∈ Loader.sources ⟨[], [], file⟩ files environment) :
    source.path ∈ [file, findProject files files.cwdPath, userFile environment] := by
  unfold Loader.sources at h
  simp only [if_true, List.mem_append, List.mem_filter] at h
  rcases h with ⟨huser | hproject, -⟩ | hfile
  · split at huser
    next => cases huser
    next hhome =>
      rw [List.mem_singleton] at huser
      simp [huser, userFile, hhome]
  · split at hproject
    next => cases hproject
    next =>
      rw [List.mem_singleton] at hproject
      simp [hproject]
  · split at hfile
    next => cases hfile
    next =>
      rw [List.mem_singleton] at hfile
      simp [hfile]

end Settings

/-! ## Calls -/

namespace Command

open Settings

def flag? : Key → Option Text
  | .outputDir => some "out"
  | .outputExtension => some "ext"
  | .outputIndex => some "index"
  | .generateJobs => some "jobs"
  | .templatesDir => some "templates"
  | .inputManifest => some "manifest"
  | .inputExtension => some "input-ext"
  | .inputPath | .logJson => none

theorem flagKey?_eq_dotted_iff (name : Text) (k : Key) : flagKey? name = some k.dotted ↔ flag? k = some name := by
  constructor
  · intro h
    have hall : ∀ x ∈ [("out", "output.dir"), ("ext", "output.extension"), ("index", "output.index"),
        ("jobs", "generate.jobs"), ("templates", "templates.dir"), ("manifest", "input.manifest"),
        ("input-ext", "input.extension")], Text.ofString x.2 = k.dotted → flag? k = some (Text.ofString x.1) := by
      cases k <;> decide
    have hmem := mem_of_lookup h
    rw [List.mem_map] at hmem
    obtain ⟨x, hx, heq⟩ := hmem
    obtain ⟨rfl, hkey⟩ := Prod.mk.inj heq
    exact hall x hx hkey
  · intro h
    cases k <;> simp only [flag?, Option.some.injEq, reduceCtorEq] at h <;> subst h <;> decide

namespace Call

def flagged? (c : Call) (k : Key) : Option Value := ((flag? k).bind fun name => c.given.lookup name).map FlagValue.setting

theorem lookup_flagSettings (c : Call) (k : Key) : c.flagSettings.lookup k.dotted = c.flagged? k := by
  unfold flagSettings flagged?
  induction c.given with
  | nil => cases flag? k <;> rfl
  | cons x rest ih =>
    obtain ⟨name, v⟩ := x
    by_cases hflag : flag? k = some name
    · have hkey := (flagKey?_eq_dotted_iff name k).mpr hflag
      rw [List.filterMap_cons_some (b := (k.dotted, v.setting)) (by simp only [hkey, Option.map_some])]
      simp [hflag, lookup_cons_ite]
    · have hkey : flagKey? name ≠ some k.dotted := mt (flagKey?_eq_dotted_iff name k).mp hflag
      have hskip : ((flag? k).bind fun n => ((name, v) :: rest).lookup n) = (flag? k).bind fun n => rest.lookup n := by
        cases hk : flag? k with
        | none => rfl
        | some n =>
          rw [Option.bind_some, Option.bind_some, lookup_cons_ite, if_neg]
          rintro rfl
          exact hflag hk
      rw [hskip, ← ih]
      cases hname : flagKey? name with
      | none => rw [List.filterMap_cons_none (by simp only [hname, Option.map_none])]
      | some key =>
        rw [List.filterMap_cons_some (b := (key, v.setting)) (by simp only [hname, Option.map_some]), lookup_cons_ite, if_neg]
        rintro rfl
        exact hkey hname

def positional? (c : Call) (path : Option Text) : Key → Option Value
  | .inputPath => path.map .text
  | .inputManifest => if path.isSome && !c.given.has "manifest" then some (.text []) else none
  | _ => none

theorem valueAt?_inputOverrides (c : Call) (path : Option Text) (k : Key) :
    valueAt? (c.inputOverrides path) k.path = c.positional? path k ∧ isBlocked (c.inputOverrides path) k.path = false := by
  cases path with
  | none => cases k <;> exact ⟨rfl, rfl⟩
  | some p =>
    unfold inputOverrides positional?
    cases c.given.has "manifest" <;> cases k <;> exact ⟨rfl, rfl⟩

end Call

namespace Action

variable {α β : Type} {desk desk' : Desk}

theorem run_bind_ok {a : Action α} {f : α → Action β} {b : β} :
    (a >>= f).run desk = (.ok b, desk') ↔ ∃ x mid, a.run desk = (.ok x, mid) ∧ (f x).run mid = (.ok b, desk') := by
  have hbind : (a >>= f).run desk =
      (a.run desk).1.casesOn (fun e => (.error e, (a.run desk).2)) (fun x => (f x).run (a.run desk).2) := by
    unfold Action.run
    simp only [ExceptT.run, bind, ExceptT.bind, ExceptT.mk, StateT.bind, StateT.run, Id.run]
    rcases a desk with ⟨r, mid⟩
    cases r <;> rfl
  rw [hbind]
  cases hrun : a.run desk with
  | mk r mid => cases r <;> simp

theorem run_ofResult (r : Except Fault α) : (ofResult r).run desk = (r, desk) := by cases r <;> rfl

end Action

section

variable {w : Surroundings} {c : Call} {path : Option Text} {desk desk' : Desk} {e : Effective}

theorem loadSettings_ok (h : (loadSettings w c path).run desk = (.ok e, desk')) :
    ∃ merged, (Loader.load ⟨[], [], c.given.text "config" []⟩ desk.files w.environment).result = .ok (merged, e.sources) ∧
      c.effective w merged path = .ok (e.settings, e.layers) := by
  unfold loadSettings at h
  obtain ⟨files, mid, hfiles, h⟩ := Action.run_bind_ok.mp h
  obtain ⟨rfl, rfl⟩ : desk.files = files ∧ desk = mid := by cases hfiles; exact ⟨rfl, rfl⟩
  obtain ⟨_, noted, -, h⟩ := Action.run_bind_ok.mp h
  obtain ⟨⟨merged, sources⟩, mid, hload, h⟩ := Action.run_bind_ok.mp h
  obtain ⟨⟨s, layers⟩, last, heffective, h⟩ := Action.run_bind_ok.mp h
  rw [Action.run_ofResult] at hload heffective
  obtain rfl : ⟨s, layers, sources⟩ = e := by
    simp only at h
    split at h
    · obtain ⟨_, _, -, h⟩ := Action.run_bind_ok.mp h
      exact Except.ok.inj (congrArg Prod.fst h)
    · exact Except.ok.inj (congrArg Prod.fst h)
  exact ⟨merged, congrArg Prod.fst hload, congrArg Prod.fst heffective⟩

theorem effective_ok {merged : Members} {s : Settings} {layers : Layers}
    (h : c.effective w merged path = .ok (s, layers)) : (c.layers w merged path).settings = .ok s := by
  obtain ⟨s', hs', h⟩ := bind_eq_ok.mp h
  obtain ⟨_, -, h⟩ := bind_eq_ok.mp h
  obtain ⟨rfl, -⟩ := Prod.mk.inj (Except.ok.inj h)
  exact hs'

end

/-- What an environment says about a key. A variable that is empty says nothing. -/
def exported? (environment : List (Text × Text)) (key : Text) : Option Value :=
  ((environment.lookup (Layers.variableName key)).filter fun v => !v.isEmpty).map .text

def settingsFiles (w : Surroundings) (c : Call) (files : System) : List Text :=
  [c.given.text "config" [], findProject files files.cwdPath, userFile w.environment]

/-- The value of a key in the first source that has one: an argument, a flag, the environment, the file that the call
names, the project's, the user's. -/
def decisive? (w : Surroundings) (c : Call) (files : System) (path : Option Text) (k : Key) : Option Value :=
  (c.positional? path k).or <| (c.flagged? k).or <| (exported? w.environment k.dotted).or <|
    (stated? files (c.given.text "config" []) k).or <| (stated? files (findProject files files.cwdPath) k).or <|
      stated? files (userFile w.environment) k

/-- Each setting is what the first source says that has a value for its key, in the type of the key, or else the default. -/
theorem loadSettings_decisive {w : Surroundings} {c : Call} {path : Option Text} {desk desk' : Desk} {e : Effective}
    (hfiles : ∀ p ∈ settingsFiles w c desk.files, ∀ m ∈ document? desk.files p, Assigning (lowerMembers m))
    (htables : ∀ k : Key, exported? w.environment k.table = none)
    (h : (loadSettings w c path).run desk = (.ok e, desk')) (k : Key) :
    k.typed? ((decisive? w c desk.files path k).getD k.default) = some (e.settings.value k) ∧
      (k.Fits ((decisive? w c desk.files path k).getD k.default) →
        e.settings.value k = (decisive? w c desk.files path k).getD k.default) := by
  obtain ⟨merged, hload, heffective⟩ := loadSettings_ok h
  have hsources : ∀ source ∈ Loader.sources ⟨[], [], c.given.text "config" []⟩ desk.files w.environment,
      ∀ m ∈ document? desk.files source.path, Assigning (lowerMembers m) :=
    fun source hsource => hfiles _ (path_of_mem_sources hsource)
  obtain ⟨htabular, hvalue⟩ := mergeAll_ok hsources Tabular.nil hload
  have hfirst : (c.layers w merged path).first k = (decisive? w c desk.files path k).getD k.default := by
    have hmerged : valueAt? merged k.path = _ := hvalue k
    rw [findSome?_sources, show valueAt? [] k.path = none from rfl, Option.or_none] at hmerged
    rw [Layers.first, Call.layers, (c.valueAt?_inputOverrides path k).1, c.lookup_flagSettings, hmerged]
    rfl
  have htables' : ∀ k : Key, (c.layers w merged path).inEnvironment? k.table = none := fun k =>
    Option.map_eq_none_iff.mp (htables k)
  have hsettings := (Layers.settings_eq_ok_iff (fun k => (c.valueAt?_inputOverrides path k).2) htables' htabular).mp
    (effective_ok heffective)
  have htyped := hsettings k
  rw [hfirst] at htyped
  exact ⟨htyped, fun hfits => Option.some.inj (htyped.symm.trans hfits)⟩

def study : Desk where
  files.tree := ⟨[(["home"], .directory), (["home", ".config"], .directory), (["home", ".config", "krpcgen"], .directory),
    (["home", ".config", "krpcgen", "krpcgen.toml"],
      .file "[generate]\njobs = 1\n[input]\nextension = '.idl'\n[templates]\ndir = 'old'\n"),
    (["work"], .directory), (["work", "more.toml"], .file "[generate]\njobs = 3\n"),
    (["work", "krpcgen.toml"],
      .file "[generate]\njobs = 2\n[input]\nmanifest = 'all.txt'\n[output]\ndir = 'gen'\n[templates]\ndir = 'new'\n")]⟩
  files.cwd := ["work"]
  output := []
  log := []

def studySurroundings : Surroundings where
  environment := [("HOME", "/home"), ("KRPCGEN_OUTPUT_DIR", "out")]
  build := ⟨[], [], [], [], []⟩
  temporary := "/tmp"

def studyCall : Call := ⟨.generate, [("config", .text "more.toml"), ("ext", .text ".mod")], []⟩

def studyTexts : List (Key × Text) :=
  [(.inputManifest, []), (.outputExtension, ".mod"), (.outputDir, "out"), (.templatesDir, "new"), (.inputExtension, ".idl")]

theorem loadSettings_decisive_study :
    ∃ e desk', (loadSettings studySurroundings studyCall (some "services")).run study = (.ok e, desk') ∧
      e.settings.input.manifest = [] ∧ e.settings.output.extension = ".mod" ∧ e.settings.output.dir = "out" ∧
      e.settings.generate.jobs = 3 ∧ e.settings.templates.dir = "new" ∧ e.settings.input.extension = ".idl" ∧
      e.settings.log.json = false := by
  have hdone : ((loadSettings studySurroundings studyCall (some "services")).run study).1.toOption.isSome := by
    decide +kernel
  have hfiles : ∀ p ∈ settingsFiles studySurroundings studyCall study.files, ∀ m ∈ document? study.files p,
      Assigning (lowerMembers m) := by
    decide +kernel
  have htables : ∀ k : Key, exported? studySurroundings.environment k.table = none := by
    intro k
    cases k <;> rfl
  have htexts : ∀ x ∈ studyTexts, (x.1.typed? ((decisive? studySurroundings studyCall study.files (some "services")
    x.1).getD x.1.default)).bind Value.asText? = some x.2 := by decide +kernel
  have hjobs : (Key.generateJobs.typed? ((decisive? studySurroundings studyCall study.files (some "services")
    .generateJobs).getD Key.generateJobs.default)).bind Value.asInt? = some 3 := by decide +kernel
  have hjson : (Key.logJson.typed? ((decisive? studySurroundings studyCall study.files (some "services")
    .logJson).getD Key.logJson.default)).bind Value.asBool? = some false := by decide +kernel
  generalize hrun : (loadSettings studySurroundings studyCall (some "services")).run study = result at hdone
  obtain ⟨outcome, desk'⟩ := result
  obtain ⟨e, he⟩ := Option.isSome_iff_exists.mp hdone
  obtain rfl : outcome = .ok e := toOption_eq_some.mp he
  have hvalue := fun k => (loadSettings_decisive hfiles htables hrun k).1
  generalize decisive? studySurroundings studyCall study.files (some "services") = decided at hvalue htexts hjobs hjson
  have htext : ∀ k t, (k, t) ∈ studyTexts → (e.settings.value k).asText? = some t := by
    intro k t hin
    have hdecided := htexts (k, t) hin
    rwa [hvalue k] at hdecided
  rw [hvalue] at hjobs hjson
  refine ⟨e, desk', rfl, ?_, ?_, ?_, Option.some.inj hjobs, ?_, ?_, Option.some.inj hjson⟩
  · exact Option.some.inj (htext .inputManifest [] (by decide))
  · exact Option.some.inj (htext .outputExtension ".mod" (by decide))
  · exact Option.some.inj (htext .outputDir "out" (by decide))
  · exact Option.some.inj (htext .templatesDir "new" (by decide))
  · exact Option.some.inj (htext .inputExtension ".idl" (by decide))

end Command

end RpcBindings
