import RpcBindings.Proofs.Isolation

/-!
# Every module stands directly in the output directory

The path of a module is the clean path of the output directory with one element more. That element is the name of the
module with the extension, and since neither part holds a slash nothing in the name of a service can lead elsewhere.
-/

namespace RpcBindings.Generate

open Files

/-- A path is a direct child of a directory, with a given name: as a text, by its elements, and in any system of files in
which both can be found. -/
structure DirectChild (dirPath name path : Text) : Prop where
  dir : Path.dir path = Path.clean dirPath
  base : Path.base path = name
  elements : Path.cleanElements path = Path.cleanElements dirPath ++ [name]
  clean : Path.clean path = path
  location : ∀ (s : System) (home loc : Location), s.locate dirPath = .ok home → s.locate path = .ok loc →
    loc = home ++ [name]

theorem directChild_join {dirPath name : Text} (hname : Path.IsName name) (hslash : Path.slash ∉ name) :
    DirectChild dirPath name (Path.join [dirPath, name]) where
  dir := Path.dir_join hname hslash dirPath
  base := Path.base_join hname hslash dirPath
  elements := Path.cleanElements_join hname hslash dirPath
  clean := Path.clean_join hname.1 dirPath
  location := by
    intro s home loc hhome hloc
    have hstart : s.start (Path.join [dirPath, name]) = s.start dirPath := by
      rw [System.start, Path.isAbsolute_join_of_name hslash]
      rfl
    rw [System.eq_follow_of_locate hloc, System.eq_follow_of_locate hhome, hstart,
      Path.follow_join hslash start_of_isAbsolute, Path.enter_of_isName hname]

/-- With an extension that passes its check, the path of a service with a module is a direct child of the output
directory, and services share a path exactly if they share a module. -/
theorem Generator.outputPath_direct {g : Generator} {key : Text}
    (hext : Settings.checkExtension key g.options.extension = .ok ()) :
    (∀ service, Binding.moduleName service ≠ [] →
      DirectChild g.options.outputDir (Binding.moduleName service ++ g.options.extension) (g.outputPath service)) ∧
    ∀ service other, Binding.moduleName service ≠ [] → Binding.moduleName other ≠ [] →
      (g.outputPath service = g.outputPath other ↔ Binding.moduleName service = Binding.moduleName other) := by
  have hplain := isExtension_of_check hext
  refine ⟨fun service hne => ?_, fun service other _ _ => ⟨fun heq => ?_, fun heq => ?_⟩⟩
  · have hm := isModule_moduleName service
    exact directChild_join (isName_fileName hm hne _) (slash_not_mem_fileName hm hplain)
  · exact modulePath_injective hplain (isModule_moduleName service) (isModule_moduleName other) heq
  · rw [Generator.outputPath, Generator.outputPath, heq]

theorem Generator.outputPath_direct_climber :
    Settings.checkExtension "output.extension" (plain "a/../b//" false).options.extension = .ok () ∧
    Binding.moduleName "../../Etc/Passwd" ≠ [] ∧ Binding.moduleName "Etc\x00..\nPasswd" ≠ [] ∧
    (plain "a/../b//" false).outputPath "../../Etc/Passwd" = "b/etc_passwd.rs" ∧
    DirectChild "a/../b//" "etc_passwd.rs" ((plain "a/../b//" false).outputPath "../../Etc/Passwd") ∧
    (plain "a/../b//" false).outputPath "../../Etc/Passwd" = (plain "a/../b//" false).outputPath "Etc\x00..\nPasswd" := by
  have hext : Settings.checkExtension "output.extension" (plain "a/../b//" false).options.extension = .ok () := by decide
  have hclimber : Binding.moduleName "../../Etc/Passwd" = "etc_passwd" := by decide +kernel
  have hbroken : Binding.moduleName "Etc\x00..\nPasswd" = "etc_passwd" := by decide +kernel
  have hne : Text.ofString "etc_passwd" ≠ [] := by decide
  obtain ⟨hchild, hshared⟩ := outputPath_direct hext
  refine ⟨hext, hclimber ▸ hne, hbroken ▸ hne, ?_, ?_, ?_⟩
  · rw [Generator.outputPath, hclimber]
    decide
  · have hdirect := hchild _ (hclimber ▸ hne)
    rw [hclimber] at hdirect
    exact hdirect
  · exact (hshared _ _ (hclimber ▸ hne) (hbroken ▸ hne)).mpr (hclimber.trans hbroken.symm)

end RpcBindings.Generate
