import RpcBindings.Proofs.Difference
import RpcBindings.Proofs.Metadata
import RpcBindings.Proofs.Shadow

/-!
# Findings of a check

A check lists a file if and only if something is wrong with it. What can be wrong is said here without regard to how a
check finds it: a fresh file has nothing in its place, another text is in its place, or a generated file belongs to
nothing fresh. Each comparison and each inspection is shown to say so, and the lists are put together from them.
-/

namespace RpcBindings.Check

open Files Generate

/-! ## What can be wrong -/

def Missing (seen : System) (outputDir : Text) (fresh : List Text) (path : Text) : Prop :=
  ∃ p ∈ fresh, path = Path.join [outputDir, Path.base p] ∧ ∀ e, seen.entryAt path ≠ .ok e

/-- The text in the place of a fresh file differs from it, in more than metadata and line ends. -/
def Changed (seen : System) (outputDir : Text) (fresh : List Text) (path : Text) : Prop :=
  ∃ p ∈ fresh, path = Path.join [outputDir, Path.base p] ∧
    ∃ found want, seen.read path = .ok found ∧ seen.read p = .ok want ∧ Differ found want

def firstLine (content : Text) : Text := content.takeWhile (· != 10)

/-- A generated file stands in the output directory, and no fresh file has its name. -/
def Orphaned (seen : System) (outputDir extension : Text) (fresh : List Text) (path : Text) : Prop :=
  ∃ entries name entry content, seen.list outputDir = .ok entries ∧ (name, entry) ∈ entries ∧
    path = Path.join [outputDir, name] ∧ entry.isDirectory = false ∧ extension <:+ name ∧
    name ∉ fresh.map Path.base ∧ seen.read path = .ok content ∧
    ("// Code generated by krpcgen" : Text) <+: firstLine content

def Wrong (seen : System) (outputDir extension : Text) (fresh : List Text) : Status → Text → Prop
  | .missing => Missing seen outputDir fresh
  | .changed => Changed seen outputDir fresh
  | .orphaned => Orphaned seen outputDir extension fresh

/-- A verdict lists what is wrong and nothing else. -/
structure Exact (seen : System) (outputDir extension : Text) (v : Verdict) : Prop where
  listed : ∀ status path, (∃ f ∈ v.findings, f.path = path ∧ f.status = status) ↔
    Wrong seen outputDir extension v.report.paths status path
  diff : ∀ f ∈ v.findings, f.diff ≠ [] ↔ f.status = .changed
  sorted : v.findings.Pairwise fun a b => a.path ≤ b.path
  upToDate : v.upToDate = true ↔ ∀ status path, ¬ Wrong seen outputDir extension v.report.paths status path

section

variable {seen : System} {outputDir extension p : Text} {fresh : List Text}

/-! ## Comparing one file -/

theorem entryAt_of_read_error {path : Text} {f : SystemFault} (h : seen.read path = .error f) (hf : f.refusal = .notFound) :
    ∀ e, seen.entryAt path ≠ .ok e := by
  intro e he
  unfold System.read at h
  rw [he] at h
  cases e with
  | file content => cases h
  | directory =>
    obtain rfl := Except.error.inj h
    cases hf

theorem compare_cases {r : Option Finding} (h : compare seen outputDir p = .ok r) :
    ∃ want, seen.read p = .ok want ∧
      ((∀ e, seen.entryAt (Path.join [outputDir, Path.base p]) ≠ .ok e) ∧
          r = some ⟨Path.join [outputDir, Path.base p], .missing, []⟩ ∨
        ∃ found, seen.read (Path.join [outputDir, Path.base p]) = .ok found ∧
          (¬ Differ found want ∧ r = none ∨
            Differ found want ∧
              ∃ diff, diff ≠ [] ∧ r = some ⟨Path.join [outputDir, Path.base p], .changed, diff⟩)) := by
  obtain ⟨want, hwant, h⟩ := bind_eq_ok.mp h
  refine ⟨want, mapError_eq_ok.mp hwant, ?_⟩
  split at h
  next f hread =>
    split at h
    next hnone => exact .inl ⟨entryAt_of_read_error hread hnone, (Except.ok.inj h).symm⟩
    next => cases h
  next found hread =>
    refine .inr ⟨found, hread, ?_⟩
    obtain rfl := Except.ok.inj h
    rw [differ_iff]
    by_cases hsame : significantLines found = significantLines want
    · exact .inl ⟨not_not.mpr hsame, if_pos (difference_eq_nil_iff.mpr hsame)⟩
    · have hdiff : difference (Path.join [outputDir, Path.base p]) found want ≠ [] := fun hnil =>
        hsame (difference_eq_nil_iff.mp hnil)
      exact .inr ⟨hsame, _, hdiff, if_neg hdiff⟩

/-! ## Inspecting one entry -/

theorem isGenerated_iff {content : Text} : isGenerated content = true ↔
    ("// Code generated by krpcgen" : Text) <+: firstLine content := by
  have hmark : ∀ b ∈ generatedMark, (b != 10) = true := List.all_eq_true.mp (by decide)
  rw [isGenerated, Text.startsWith, List.isPrefixOf_iff_prefix, firstLine]
  constructor
  · rintro ⟨rest, rfl⟩
    rw [List.takeWhile_append_of_pos hmark]
    exact List.prefix_append _ _
  · intro h
    exact h.trans (List.takeWhile_prefix _)

theorem skipped_iff {names : List Text} {name : Text} {entry : Entry} :
    (entry.isDirectory || names.contains name || !Text.endsWith name extension) = true ↔
      ¬ (entry.isDirectory = false ∧ extension <:+ name ∧ name ∉ names) := by
  simp only [Bool.or_eq_true, List.contains_iff_mem, Text.endsWith, Bool.not_eq_true', ← Bool.not_eq_true,
    List.isSuffixOf_iff_suffix]
  grind

theorem inspect_eq_some_iff {names : List Text} {name : Text} {entry : Entry} {f : Finding} {r : Option Finding}
    (h : inspect seen outputDir extension names name entry = .ok r) :
    r = some f ↔ f = ⟨Path.join [outputDir, name], .orphaned, []⟩ ∧ entry.isDirectory = false ∧ extension <:+ name ∧
      name ∉ names ∧ ∃ content, seen.read (Path.join [outputDir, name]) = .ok content ∧
        ("// Code generated by krpcgen" : Text) <+: firstLine content := by
  unfold inspect at h
  split at h
  next hskip =>
    obtain rfl := Except.ok.inj h
    refine iff_of_false nofun ?_
    rintro ⟨-, hentry, hsuffix, hname, -⟩
    exact skipped_iff.mp hskip ⟨hentry, hsuffix, hname⟩
  next hkeep =>
    obtain ⟨hentry, hsuffix, hname⟩ := not_not.mp (mt skipped_iff.mpr hkeep)
    simp only at h
    split at h
    next => cases h
    next content hread =>
      obtain rfl := Except.ok.inj h
      by_cases hmark : isGenerated content = true
      · rw [if_pos hmark]
        constructor
        · intro heq
          exact ⟨(Option.some.inj heq).symm, hentry, hsuffix, hname, content, hread, isGenerated_iff.mp hmark⟩
        · rintro ⟨rfl, -⟩
          rfl
      · rw [if_neg hmark]
        constructor
        · nofun
        · rintro ⟨-, -, -, -, content', hread', hmark'⟩
          obtain rfl := Except.ok.inj (hread.symm.trans hread')
          exact absurd (isGenerated_iff.mpr hmark') hmark

/-! ## The lists -/

theorem mem_leftOver_iff {orphans : List Finding} (h : leftOver seen outputDir extension (fresh.map Path.base) = .ok orphans)
    {f : Finding} :
    f ∈ orphans ↔ f.status = .orphaned ∧ f.diff = [] ∧ Orphaned seen outputDir extension fresh f.path := by
  unfold leftOver at h
  split at h
  next fault hlist =>
    split at h
    next =>
      -- a directory that is not there holds no leftovers
      obtain rfl := Except.ok.inj h
      constructor
      · nofun
      · rintro ⟨-, -, entries, name, entry, content, hentries, -⟩
        rw [hlist] at hentries
        cases hentries
    next => cases h
  next entries hlist =>
    obtain ⟨inspected, hinspected, h⟩ := bind_eq_ok.mp h
    obtain rfl := Except.ok.inj h
    obtain ⟨hfrom, hto⟩ := mem_of_mapM hinspected
    rw [List.mem_filterMap]
    constructor
    · rintro ⟨r, hr, hf⟩
      obtain ⟨⟨name, entry⟩, hin, hinspect⟩ := hto r hr
      obtain ⟨rfl, hentry, hsuffix, hname, content, hread, hmark⟩ := (inspect_eq_some_iff hinspect).mp hf
      exact ⟨rfl, rfl, entries, name, entry, content, hlist, hin, rfl, hentry, hsuffix, hname, hread, hmark⟩
    · rintro ⟨hstatus, hdiff, entries', name, entry, content, hlist', hin, hpath, hentry, hsuffix, hname, hread, hmark⟩
      obtain rfl := Except.ok.inj (hlist.symm.trans hlist')
      obtain ⟨r, hr, hinspect⟩ := hfrom (name, entry) hin
      refine ⟨r, hr, (inspect_eq_some_iff hinspect).mpr ⟨?_, hentry, hsuffix, hname, content, hpath ▸ hread, hmark⟩⟩
      rw [← hpath, ← hstatus, ← hdiff]

section

variable {compared : List (Option Finding)} (h : fresh.mapM (compare seen outputDir) = .ok compared)

include h

theorem wrong_of_mem_compared {f : Finding} (hf : f ∈ compared.filterMap id) :
    Wrong seen outputDir extension fresh f.status f.path ∧ (f.diff ≠ [] ↔ f.status = .changed) := by
  obtain ⟨r, hr, rfl⟩ := List.mem_filterMap.mp hf
  obtain ⟨p, hp, hcompare⟩ := (mem_of_mapM h).2 _ hr
  obtain ⟨want, hwant, ⟨hnone, hfinding⟩ | ⟨found, hfound, ⟨-, hfinding⟩ | ⟨hne, diff, hdiff, hfinding⟩⟩⟩ :=
    compare_cases hcompare
  · obtain rfl := Option.some.inj hfinding
    exact ⟨⟨p, hp, rfl, hnone⟩, by simp⟩
  · cases hfinding
  · obtain rfl := Option.some.inj hfinding
    exact ⟨⟨p, hp, rfl, found, want, hfound, hwant, hne⟩, by simp [hdiff]⟩

theorem exists_missing {path : Text} (hpath : Missing seen outputDir fresh path) :
    ∃ f ∈ compared.filterMap id, f.path = path ∧ f.status = .missing := by
  obtain ⟨p, hp, rfl, hnone⟩ := hpath
  obtain ⟨r, hr, hcompare⟩ := (mem_of_mapM h).1 p hp
  obtain ⟨want, -, ⟨-, rfl⟩ | ⟨found, hfound, -⟩⟩ := compare_cases hcompare
  · exact ⟨_, List.mem_filterMap.mpr ⟨_, hr, rfl⟩, rfl, rfl⟩
  · obtain ⟨loc, hloc, hentry⟩ := System.read_ok_iff.mp hfound
    exact absurd (System.entryAt_ok_iff.mpr ⟨loc, hloc, hentry⟩) (hnone _)

theorem exists_changed {path : Text} (hpath : Changed seen outputDir fresh path) :
    ∃ f ∈ compared.filterMap id, f.path = path ∧ f.status = .changed := by
  obtain ⟨p, hp, rfl, found, want, hfound, hwant, hne⟩ := hpath
  obtain ⟨r, hr, hcompare⟩ := (mem_of_mapM h).1 p hp
  obtain ⟨want', hwant', ⟨hnone, -⟩ | ⟨found', hfound', hlines⟩⟩ := compare_cases hcompare
  · obtain ⟨loc, hloc, hentry⟩ := System.read_ok_iff.mp hfound
    exact absurd (System.entryAt_ok_iff.mpr ⟨loc, hloc, hentry⟩) (hnone _)
  · obtain rfl := Except.ok.inj (hwant.symm.trans hwant')
    obtain rfl := Except.ok.inj (hfound.symm.trans hfound')
    obtain ⟨-, diff, -, rfl⟩ := hlines.resolve_left fun hsame => hsame.1 hne
    exact ⟨_, List.mem_filterMap.mpr ⟨_, hr, rfl⟩, rfl, rfl⟩

end

theorem assess_lists {report : Report} {v : Verdict} (h : assess seen outputDir extension report = .ok v) :
    v.report = report ∧ ∃ compared orphans, report.paths.mapM (compare seen outputDir) = .ok compared ∧
      leftOver seen outputDir extension (report.paths.map Path.base) = .ok orphans ∧
      (∀ f, f ∈ v.findings ↔ f ∈ compared.filterMap id ∨ f ∈ orphans) ∧
      v.findings.Pairwise fun a b => a.path ≤ b.path := by
  obtain ⟨compared, hcompared, h⟩ := bind_eq_ok.mp h
  obtain ⟨orphans, horphans, h⟩ := bind_eq_ok.mp h
  obtain rfl := Except.ok.inj h
  refine ⟨rfl, compared, orphans, hcompared, horphans, fun f => ?_, ?_⟩
  · rw [List.mem_mergeSort, List.mem_append]
  · exact (List.pairwise_mergeSort (Text.ordered_trans Finding.path) (Text.ordered_total Finding.path) _).imp of_decide_eq_true

theorem assess_exact {report : Report} {v : Verdict} (h : assess seen outputDir extension report = .ok v) :
    v.report = report ∧ Exact seen outputDir extension v := by
  obtain ⟨rfl, compared, orphans, hcompared, horphans, hmem, hsorted⟩ := assess_lists h
  have hsound : ∀ f ∈ v.findings, Wrong seen outputDir extension v.report.paths f.status f.path ∧
      (f.diff ≠ [] ↔ f.status = .changed) := by
    intro f hf
    rcases (hmem f).mp hf with hf | hf
    · exact wrong_of_mem_compared hcompared hf
    · obtain ⟨hstatus, hdiff, hwrong⟩ := (mem_leftOver_iff horphans).mp hf
      rw [hstatus]
      exact ⟨hwrong, by simp [hdiff]⟩
  have hcomplete : ∀ status path, Wrong seen outputDir extension v.report.paths status path →
      ∃ f ∈ v.findings, f.path = path ∧ f.status = status := by
    intro status path hwrong
    cases status with
    | missing =>
      obtain ⟨f, hf, hlisted⟩ := exists_missing hcompared hwrong
      exact ⟨f, (hmem f).mpr (.inl hf), hlisted⟩
    | changed =>
      obtain ⟨f, hf, hlisted⟩ := exists_changed hcompared hwrong
      exact ⟨f, (hmem f).mpr (.inl hf), hlisted⟩
    | orphaned =>
      have hin : (⟨path, .orphaned, []⟩ : Finding) ∈ orphans := (mem_leftOver_iff horphans).mpr ⟨rfl, rfl, hwrong⟩
      exact ⟨_, (hmem _).mpr (.inr hin), rfl, rfl⟩
  refine ⟨rfl, fun status path => ⟨?_, hcomplete status path⟩, fun f hf => (hsound f hf).2, hsorted, ?_⟩
  · rintro ⟨f, hf, rfl, rfl⟩
    exact (hsound f hf).1
  · rw [Verdict.upToDate, List.isEmpty_iff]
    constructor
    · intro hnil status path hwrong
      obtain ⟨f, hf, -⟩ := hcomplete status path hwrong
      rw [hnil] at hf
      cases hf
    · intro hnone
      exact List.eq_nil_iff_forall_not_mem.mpr fun f hf => hnone _ _ (hsound f hf).1

end

/-! ## Whole checks -/

section

variable {g : Generator} {files : System} {temporary : Text} {signal : Signal} {paths : List Text} {v : Verdict}

theorem run_inv (h : (run g files temporary signal paths).result = .ok v) :
    ∃ dir room staged report, Staged files temporary dir room staged ∧
      ((g.into dir).generate staged signal paths).fault = none ∧
      ((g.into dir).generate staged signal paths).report = some report ∧
      assess ((g.into dir).generate staged signal paths).files g.options.outputDir g.options.extension report = .ok v := by
  unfold run at h
  simp only at h
  split at h
  next => cases h
  next dir staged hcreated =>
    obtain ⟨dir', hfree, hcreated⟩ := bind_eq_ok.mp hcreated
    obtain ⟨staged', hmade, hcreated⟩ := bind_eq_ok.mp hcreated
    obtain ⟨rfl, rfl⟩ := Prod.mk.inj (Except.ok.inj hcreated)
    obtain ⟨room, hstaged⟩ := exists_staged hfree hmade
    simp only at h
    split at h
    next => cases h
    next => cases h
    next report hfault hreport => exact ⟨dir', room, staged', report, hstaged, hfault, hreport, h⟩

theorem run_exact {setbacks : Setbacks} (h : (run g files temporary signal paths setbacks).result = .ok v) :
    ∃ dir room staged, Staged files temporary dir room staged ∧
      ((g.into dir).generate staged signal paths).fault = none ∧
      ((g.into dir).generate staged signal paths).report = some v.report ∧
      Exact ((g.into dir).generate staged signal paths).files g.options.outputDir g.options.extension v ∧
      (Path.slash ∉ g.options.extension →
        Enclosed files room v.report ((g.into dir).generate staged signal paths).files) := by
  rw [run_unhindered h] at h
  obtain ⟨dir, room, staged, report, hstaged, hfault, hreport, hassess⟩ := run_inv h
  obtain ⟨rfl, hexact⟩ := assess_exact hassess
  exact ⟨dir, room, staged, hstaged, hfault, hreport, hexact, fun hext => hstaged.enclosed hext hfault hreport⟩

end

def jettyFiles : System where
  tree := ⟨[(["a.json"], .file (Generator.declaring "Jetty")), (["b.json"], .file (Generator.declaring "Quay")),
    (["gen"], .directory),
    (["gen", "jetty.rs"], .file "// Old"), (["gen", "quay.rs"], .file "// Quay\r\n// Generator version: v0\n"),
    (["tmp"], .directory)]⟩
  cwd := []

def jettyCheck (paths : List Text) : Except Fault Verdict :=
  (run (Generator.plain "gen" false) jettyFiles "tmp" .never paths).result

def JettyFinds (path : Text) (found : List (Text × Status)) : Prop :=
  ∃ v, jettyCheck [path] = .ok v ∧ (v.findings.map fun f => (f.path, f.status)) = found ∧
    ∃ dir room staged, Staged jettyFiles "tmp" dir room staged ∧
      Exact (((Generator.plain "gen" false).into dir).generate staged .never [path]).files "gen" ".rs" v ∧
      Enclosed jettyFiles room v.report (((Generator.plain "gen" false).into dir).generate staged .never [path]).files

theorem run_exact_jetty :
    JettyFinds "a.json" [("gen/jetty.rs", .changed)] ∧ JettyFinds "b.json" [] := by
  have hfinds : ∀ path found, ((jettyCheck [path]).toOption.map fun v => v.findings.map fun f => (f.path, f.status)) =
      some found → JettyFinds path found := by
    intro path found hfound
    obtain ⟨v, hv, hfound⟩ := Option.map_eq_some_iff.mp hfound
    have hresult := toOption_eq_some.mp hv
    obtain ⟨dir, room, staged, hstaged, -, -, hexact, henclosed⟩ := run_exact hresult
    exact ⟨v, hresult, hfound, dir, room, staged, hstaged, hexact, henclosed (by decide)⟩
  exact ⟨hfinds _ _ (by decide +kernel), hfinds _ _ (by decide +kernel)⟩

end RpcBindings.Check
