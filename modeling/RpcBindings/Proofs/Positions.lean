import RpcBindings.Proofs.Declarations
import RpcBindings.Proofs.Dependencies
import RpcBindings.Proofs.Index
import RpcBindings.Proofs.Resolution
import RpcBindings.Proofs.Snake

/-!
# The names of modules as they are written

The name of a module is written in three places: in a line of the index, in the imports of another module, and in front
of the names that another module uses. In each it is written as it is. Other names are written as identifiers, which are
never keywords; the name of a module is a keyword if the service is one word and spells one.
-/

namespace RpcBindings

namespace Binding

open Naming

def spelling (name : Text) : Text := Text.ofChars (((Text.runes name).filter isWordChar).map Alphabet.lower)

/-- A service of one word that spells a keyword. -/
def IsReserved (service : Text) : Prop := moduleName service = spelling service ∧ spelling service ∈ keywords

theorem underscore_not_mem_keyword : ∀ k ∈ keywords, 95 ∉ k := by decide +kernel

theorem filter_moduleName (service : Text) : (moduleName service).filter (· != 95) = spelling service := by
  rw [moduleName, snakeCase, ofChars_filter, snakeChars, snakeFrom_filter, spelling]

theorem isKeyword_moduleName_iff {service : Text} : isKeyword (moduleName service) = true ↔ IsReserved service := by
  rw [isKeyword_iff]
  constructor
  · intro hkeyword
    have hone : moduleName service = spelling service := by
      rw [← filter_moduleName, eq_comm, List.filter_eq_self]
      intro b hb
      have hne : b ≠ 95 := fun heq => underscore_not_mem_keyword _ hkeyword (heq ▸ hb)
      simpa using hne
    exact ⟨hone, hone ▸ hkeyword⟩
  · rintro ⟨hone, hkeyword⟩
    rwa [hone]

theorem isKeyword_moduleName_eq_false {service : Text} : isKeyword (moduleName service) = false ↔ ¬ IsReserved service := by
  rw [← isKeyword_moduleName_iff, Bool.not_eq_true]

/-! ## Imports and references -/

section

variable {s : Service} {c : Context}

theorem mem_imports_iff (h : buildContext s = .ok c) (m : Text) :
    m ∈ c.imports ↔
      ∃ r ∈ signatureReferences s.procedures.entries, DataType.isForeign s.name r = true ∧ moduleName r.1 = m := by
  obtain ⟨deps, hdeps, h⟩ := bind_eq_ok.mp h
  obtain ⟨parts, -, h⟩ := bind_eq_ok.mp h
  obtain ⟨enums, -, h⟩ := bind_eq_ok.mp h
  cases h
  exact (dependencies_ok (mapError_eq_ok.mp hdeps)).2 m

theorem imports_legal_iff (h : buildContext s = .ok c) :
    (∀ m ∈ c.imports, isKeyword m = false) ↔
      ∀ r ∈ signatureReferences s.procedures.entries, DataType.isForeign s.name r = true → ¬ IsReserved r.1 := by
  simp only [mem_imports_iff h]
  constructor
  · intro hlegal r hr hforeign
    exact isKeyword_moduleName_eq_false.mp (hlegal _ ⟨r, hr, hforeign, rfl⟩)
  · rintro hfree m ⟨r, hr, hforeign, rfl⟩
    exact isKeyword_moduleName_eq_false.mpr (hfree r hr hforeign)

end

theorem prefixes_legal_iff {own : Text} {t : DataType} {r : TypeRef} (h : resolve own t = .ok r) :
    (∀ q ∈ r.deps, isKeyword (modulePrefix q) = false) ↔
      ∀ place referent service name, t.at? place = some (.reference referent service name) → service ≠ own →
        ¬ IsReserved service := by
  simp only [mem_deps_iff_at? h]
  constructor
  · intro hlegal place referent service name hplace hforeign
    have hprefix := hlegal _ ⟨place, referent, service, name, hplace, hforeign, rfl⟩
    rw [← qualify, modulePrefix_qualify] at hprefix
    exact isKeyword_moduleName_eq_false.mp hprefix
  · rintro hfree q ⟨place, referent, service, name, hplace, hforeign, rfl⟩
    rw [← qualify, modulePrefix_qualify]
    exact isKeyword_moduleName_eq_false.mpr (hfree place referent service name hplace hforeign)

theorem reference_at? {own : Text} {t : DataType} {place : List Nat} {referent : Referent} {service name : Text}
    (hplace : t.at? place = some (.reference referent service name)) (hforeign : service ≠ own) :
    (t.expression own).at? place = some (.path (moduleName service ++ "::" ++ name)) := by
  rw [DataType.at?_expression hplace, DataType.expression, if_neg hforeign, qualify]

end Binding

namespace Render

open Binding Template

def importLine (module : Text) : Text := "\nuse super::" ++ module ++ ";"

theorem importLine_infix_module {c : Context} {m : Text} (version : Text) (h : m ∈ c.imports) :
    importLine m <:+: moduleText version c := by
  have hrow : importLine m = (importRow id m).flatten := by simp [importLine, importRow]
  have hnonempty : c.imports.isEmpty = false := by
    rw [List.isEmpty_eq_false_iff]
    exact List.ne_nil_of_mem h
  have himports : importLine m <:+: ("\n" : Text) ++ c.imports.flatMap fun m => (importRow id m).flatten := by
    rw [hrow]
    exact (infix_flatMap (f := fun m => (importRow id m).flatten) h).trans (List.suffix_append _ _).isInfix
  have hheader : importLine m <:+: header c.source version c.name c.doc c.imports := by
    refine himports.trans (List.infix_of_mem_flatten ?_)
    simp [headerRow, hnonempty]
  simp only [moduleText, List.append_assoc]
  exact hheader.trans (List.prefix_append _ _).isInfix

end Render

namespace Generate

open Files Naming Binding

theorem lines_legal_iff {documents : List Document} :
    (∀ m ∈ moduleList (candidates documents), isKeyword m = false) ↔
      ∀ d ∈ documents, ∀ name ∈ d.services.keys, ¬ IsReserved name := by
  simp only [mem_moduleList.trans exists_candidate_iff]
  constructor
  · intro hlegal d hd name hname
    exact isKeyword_moduleName_eq_false.mp (hlegal _ ⟨d, hd, name, hname, rfl⟩)
  · rintro hfree m ⟨d, hd, name, hname, rfl⟩
    exact isKeyword_moduleName_eq_false.mpr (hfree d hd name hname)

/-- The names of modules are written bare in the index, in imports and in front of names, so each of these is free of
keywords exactly if no service that it names is reserved. -/
theorem module_positions_legal_iff (version : Text) :
    (∀ (g : Generator) (arrange : List Job → List Job) (files : System) (signal : Signal) (paths : List Text)
      (setbacks : Setbacks) (report : Report), (∀ jobs, (arrange jobs).Perm jobs) →
      (g.generateIn arrange files signal paths setbacks).report = some report →
      Render.Renderer.embedded version = .ok g.renderer → report.index ≠ [] →
      ∃ modules : List Text,
        (g.generateIn arrange files signal paths setbacks).files.read report.index =
          .ok (Render.indexHeader version ++ modules.flatMap Render.indexLine) ∧
        ((∀ m ∈ modules, isKeyword m = false) ↔
          ∀ d ∈ paths.filterMap (loaded? files), ∀ name ∈ d.services.keys, ¬ IsReserved name)) ∧
    (∀ (s : Service) (c : Context), buildContext s = .ok c →
      ∃ text, (Render.Renderer.embedded version).bind (fun r => r.service c) = .ok text ∧
        (∀ m ∈ c.imports, Render.importLine m <:+: text) ∧
        ((∀ m ∈ c.imports, isKeyword m = false) ↔
          ∀ r ∈ signatureReferences s.procedures.entries, DataType.isForeign s.name r = true → ¬ IsReserved r.1)) ∧
    ∀ (own : Text) (t : DataType) (r : TypeRef), resolve own t = .ok r →
      r.expr = (t.expression own).text ∧
      (∀ place referent service name, t.at? place = some (.reference referent service name) → service ≠ own →
        (t.expression own).at? place = some (.path (moduleName service ++ "::" ++ name))) ∧
      ((∀ q ∈ r.deps, isKeyword (modulePrefix q) = false) ↔
        ∀ place referent service name, t.at? place = some (.reference referent service name) → service ≠ own →
          ¬ IsReserved service) := by
  refine ⟨?_, ?_, ?_⟩
  · intro g arrange files signal paths setbacks report harrange h hembedded hindex
    obtain ⟨next, hfiles, hrun⟩ := Generator.generateIn_reported h
    obtain ⟨hread, -⟩ := Generator.runDocuments_listing harrange hrun hembedded hindex
    rw [hfiles]
    exact ⟨_, hread, lines_legal_iff⟩
  · intro s c hbuild
    exact ⟨_, Render.service_embedded version c, fun m hm => Render.importLine_infix_module version hm,
      imports_legal_iff hbuild⟩
  · intro own t r hresolve
    obtain ⟨-, rfl⟩ := resolve_ok_iff.mp hresolve
    exact ⟨rfl, fun place referent service name => reference_at?, prefixes_legal_iff hresolve⟩

def lender (service : Text) : Service where
  name := "Lender"
  id := 1
  documentation := []
  procedures := .ofList [("Lend", ⟨"Lend", 1, [], [⟨"to", .reference .object service "Vessel"⟩], none, false⟩)]
  classes := .empty
  enumerations := .empty

theorem report_marina : (Generator.depot.generateIn List.reverse Generator.marinaFiles .never ["a.json"]).report =
    some ⟨1, 1, [⟨"TugBoat", "tug_boat", "gen/tug_boat.rs"⟩], [], "gen/mod.rs"⟩ := by decide +kernel

theorem exists_key_marina {name : Text} :
    (∃ d ∈ [Text.ofString "a.json"].filterMap (loaded? Generator.marinaFiles), name ∈ d.services.keys) ↔ name = "TugBoat" := by
  have hkeys : ([Text.ofString "a.json"].filterMap (loaded? Generator.marinaFiles)).flatMap (·.services.keys) =
      [Text.ofString "TugBoat"] := by decide +kernel
  rw [← List.mem_flatMap, hkeys, List.mem_singleton]

theorem module_positions_legal_tugboat :
    (∃ modules : List Text, (Generator.depot.generateIn List.reverse Generator.marinaFiles .never ["a.json"]).files.read
        "gen/mod.rs" = .ok (Render.indexHeader "v1" ++ modules.flatMap Render.indexLine) ∧
      ∀ m ∈ modules, isKeyword m = false) ∧
    (∃ c, buildContext (lender "TugBoat") = .ok c ∧ c.imports = [Text.ofString "tug_boat"] ∧
      ∀ m ∈ c.imports, isKeyword m = false) ∧
    ∃ r, resolve "Lender" (.reference .object "TugBoat" "Vessel") = .ok r ∧ r.expr = "tug_boat::Vessel" ∧
      ∀ q ∈ r.deps, isKeyword (modulePrefix q) = false := by
  have hfree : ¬ IsReserved "TugBoat" := isKeyword_moduleName_eq_false.mp (by decide +kernel)
  have hembedded : Render.Renderer.embedded "v1" = .ok Generator.depot.renderer := Render.embedded_eq "v1"
  obtain ⟨hindex, himports, hprefixes⟩ := module_positions_legal_iff "v1"
  refine ⟨?_, ?_, ?_⟩
  · obtain ⟨modules, hread, hlegal⟩ := hindex _ _ _ _ _ _ _ List.reverse_perm report_marina hembedded (by decide)
    refine ⟨modules, hread, hlegal.mpr fun d hd name hname => ?_⟩
    rw [exists_key_marina.mp ⟨d, hd, hname⟩]
    exact hfree
  · have hbuilt : (buildContext (lender "TugBoat")).toOption.map (·.imports) = some [Text.ofString "tug_boat"] := by
      decide +kernel
    obtain ⟨c, hc, himported⟩ := Option.map_eq_some_iff.mp hbuilt
    obtain ⟨text, -, -, hlegal⟩ := himports _ c (toOption_eq_some.mp hc)
    refine ⟨c, toOption_eq_some.mp hc, himported, hlegal.mpr ?_⟩
    have hreferences : signatureReferences (lender "TugBoat").procedures.entries =
        [(Text.ofString "TugBoat", Text.ofString "Vessel")] := by decide
    intro r hr _
    rw [hreferences, List.mem_singleton] at hr
    exact hr ▸ hfree
  · have hresolve : resolve "Lender" (.reference .object "TugBoat" "Vessel") =
        .ok ⟨"tug_boat::Vessel", .object, ["tug_boat::Vessel"]⟩ := by decide +kernel
    refine ⟨_, hresolve, rfl, (hprefixes _ _ _ hresolve).2.2.mpr ?_⟩
    intro place referent service name hplace _
    obtain ⟨-, heq⟩ := (DataType.at?_leaf rfl).mp hplace
    cases heq
    exact hfree

def reservedFiles : System where
  tree := ⟨[(["a.json"], .file (Generator.declaring "Type"))]⟩
  cwd := []

/-- A service that starts with a letter and whose module is a keyword, bare in all three places. -/
theorem module_positions_bare_type :
    (Text.runes "Type").head? = some 'T' ∧ Alphabet.isLetter 'T' = true ∧ isKeyword "type" = true ∧
    (∃ text, (Generator.depot.generateIn id reservedFiles .never ["a.json"]).files.read "gen/mod.rs" = .ok text ∧
      Render.indexLine "type" <:+: text) ∧
    (∃ c, buildContext (lender "Type") = .ok c ∧
      ∃ text, (Render.Renderer.embedded "v1").bind (fun r => r.service c) = .ok text ∧
        Render.importLine "type" <:+: text) ∧
    ∃ r, resolve "Lender" (.reference .object "Type" "Vessel") = .ok r ∧ r.expr = "type::Vessel" := by
  have hread : ((Generator.depot.generateIn id reservedFiles .never ["a.json"]).files.read "gen/mod.rs").toOption =
      some (Render.indexHeader "v1" ++ Render.indexLine "type") := by decide +kernel
  have hbuilt : (buildContext (lender "Type")).toOption.map (·.imports) = some [Text.ofString "type"] := by
    decide +kernel
  obtain ⟨c, hc, himports⟩ := Option.map_eq_some_iff.mp hbuilt
  have himported : Text.ofString "type" ∈ c.imports := himports ▸ List.mem_singleton_self _
  refine ⟨by decide +kernel, by decide +kernel, by decide +kernel, ?_, ?_, ?_⟩
  · exact ⟨_, toOption_eq_some.mp hread, (List.suffix_append _ _).isInfix⟩
  · exact ⟨c, toOption_eq_some.mp hc, _, Render.service_embedded "v1" c,
      Render.importLine_infix_module "v1" himported⟩
  · have hresolve : resolve "Lender" (.reference .object "Type" "Vessel") =
        .ok ⟨"type::Vessel", .object, ["type::Vessel"]⟩ := by decide +kernel
    exact ⟨_, hresolve, rfl⟩

end Generate

end RpcBindings
