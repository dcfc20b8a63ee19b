import Mathlib.Data.List.Nodup
import RpcBindings.Generate.Inputs
import RpcBindings.Proofs.Path

/-!
# What a manifest lists

A manifest that is accepted gives one path for each line that is neither blank nor a comment, in the order of the lines,
and no path twice. Relative paths come out clean and absolute ones as they are written, so that two paths of one file
can only slip through if an absolute one is written in a roundabout way.
-/

namespace RpcBindings.Generate

open Files

/-! ## Lines and their paths -/

def listingLines (content : Text) : List Text :=
  ((Text.lines content).map Text.trim).filter fun line => !line.isEmpty && !Text.startsWith line "#"

def meant (dir line : Text) : Text := if Path.isAbsolute line then line else Path.join [dir, line]

theorem listedPath?_eq (dir line : Text) : listedPath? dir line =
    if !(Text.trim line).isEmpty && !Text.startsWith (Text.trim line) "#" then some (meant dir (Text.trim line))
    else none := by
  unfold listedPath?
  by_cases hblank : Text.trim line = []
  · simp [hblank]
  · by_cases hcomment : Text.startsWith (Text.trim line) "#" = true <;> simp [hblank, hcomment, meant]

theorem filterMap_listedPath? (dir : Text) (lines : List Text) : lines.filterMap (listedPath? dir) =
    (((lines.map Text.trim).filter fun line => !line.isEmpty && !Text.startsWith line "#").map (meant dir)) := by
  induction lines with
  | nil => rfl
  | cons line rest ih =>
    rw [List.filterMap_cons, List.map_cons, List.filter_cons, listedPath?_eq, ih]
    split
    next hnone =>
      split at hnone
      next => cases hnone
      next hskip => rw [if_neg hskip]
    next p hsome =>
      split at hsome
      next hlists =>
        obtain rfl := Option.some.inj hsome
        rw [if_pos hlists, List.map_cons]
      next => cases hsome

/-! ## The loop over the lines -/

theorem listed_nil (dir : Text) (number : Nat) (found : List Text) :
    listed dir number found [] = .ok found.reverse :=
  rfl

theorem listed_cons (dir line : Text) (number : Nat) (found rest : List Text) :
    listed dir number found (line :: rest) =
      if longestLine < line.length then .error .longLine
      else
        match listedPath? dir line with
        | none => listed dir (number + 1) found rest
        | some path =>
          if path ∈ found then .error (.repeated number path) else listed dir (number + 1) (path :: found) rest :=
  rfl

theorem listed_eq_ok_iff {dir : Text} {lines found paths : List Text} {number : Nat} (hfound : found.Nodup) :
    listed dir number found lines = .ok paths ↔
      (∀ line ∈ lines, line.length ≤ longestLine) ∧ paths = found.reverse ++ lines.filterMap (listedPath? dir) ∧
        paths.Nodup := by
  induction lines generalizing number found with
  | nil =>
    rw [listed_nil, Except.ok.injEq]
    constructor
    · rintro rfl
      exact ⟨by simp, by simp, List.nodup_reverse.mpr hfound⟩
    · rintro ⟨-, rfl, -⟩
      simp
  | cons line rest ih =>
    rw [listed_cons, List.forall_mem_cons]
    split
    next hlong =>
      constructor
      · intro h
        cases h
      · rintro ⟨⟨hshort, -⟩, -⟩
        omega
    next hshort =>
      have hline : line.length ≤ longestLine := by omega
      cases hpath : listedPath? dir line with
      | none =>
        simp only [ih hfound, List.filterMap_cons_none hpath, hline, true_and]
      | some path =>
        simp only [List.filterMap_cons_some hpath]
        split
        next hold =>
          constructor
          · intro h
            cases h
          · -- the path would stand twice in the result
            rintro ⟨-, rfl, hnodup⟩
            have hapart := (List.nodup_append.mp hnodup).2.2 path (List.mem_reverse.mpr hold) path List.mem_cons_self
            exact absurd rfl hapart
        next hnew =>
          simp only [ih (List.nodup_cons.mpr ⟨hnew, hfound⟩), List.reverse_cons, List.append_assoc,
            List.singleton_append, hline, true_and]

/-- What it takes for a manifest to be accepted with a list of paths: no line is too long, the paths are those of the
listing lines, and no path is there twice. -/
structure Accepted (dir content : Text) (paths : List Text) : Prop where
  short : ∀ line ∈ Text.lines content, line.length ≤ longestLine
  paths_eq : paths = (listingLines content).map (meant dir)
  nodup : paths.Nodup

theorem manifestPaths_eq_ok_iff {dir content : Text} {paths : List Text} :
    manifestPaths dir content = .ok paths ↔ Accepted dir content paths := by
  rw [manifestPaths, listed_eq_ok_iff List.nodup_nil, filterMap_listedPath?, List.reverse_nil, List.nil_append]
  constructor
  · rintro ⟨hshort, hpaths, hnodup⟩
    exact ⟨hshort, hpaths, hnodup⟩
  · intro h
    exact ⟨h.short, h.paths_eq, h.nodup⟩

theorem readManifest_eq_ok_iff {files : System} {path : Text} {paths : List Text} :
    readManifest files path = .ok paths ↔
      ∃ content, files.entryAt path = .ok (.file content) ∧ Accepted (Path.dir path) content paths := by
  unfold readManifest
  split
  next e hentry => simp [hentry]
  next hentry => simp [hentry]
  next content hentry =>
    simp only [hentry, Except.ok.injEq, Entry.file.injEq, exists_eq_left', ← manifestPaths_eq_ok_iff]
    cases manifestPaths (Path.dir path) content with
    | ok found =>
      change Except.ok found = Except.ok paths ↔ _
      rw [Except.ok.injEq, Except.ok.injEq]
    | error f =>
      constructor <;>
      · intro h
        cases h

/-! ## Two spellings of one path -/

theorem clean_meant {dir line : Text} (hdir : dir ≠ []) (hline : Path.isAbsolute line = false) :
    Path.clean (meant dir line) = meant dir line := by
  rw [meant, hline, if_neg (by decide), Path.join_pair hdir, Path.clean_clean]

theorem Accepted.eq_line_of_unclean {dir content path : Text} {paths : List Text} (hdir : dir ≠ [])
    (h : Accepted dir content paths) (hpath : path ∈ paths) (hclean : Path.clean path ≠ path) :
    path ∈ listingLines content ∧ Path.isAbsolute path = true := by
  rw [h.paths_eq] at hpath
  obtain ⟨line, hline, rfl⟩ := List.mem_map.mp hpath
  cases habs : Path.isAbsolute line with
  | false => exact absurd (clean_meant hdir habs) hclean
  | true =>
    have hself : meant dir line = line := if_pos habs
    rw [hself]
    exact ⟨hline, habs⟩

theorem Accepted.mem_of_absolute {dir content line : Text} {paths : List Text} (h : Accepted dir content paths)
    (hline : line ∈ listingLines content) (habs : Path.isAbsolute line = true) : line ∈ paths := by
  rw [h.paths_eq]
  exact List.mem_map.mpr ⟨line, hline, if_pos habs⟩

/-- A manifest is accepted exactly if it is a file without overlong lines whose listing lines mean different paths, and
its paths are those of the listing lines in their order. They differ after cleaning too, unless an absolute path that is
not clean means the same file as another one. -/
theorem readManifest_lists (files : System) (path : Text) :
    (∀ paths, readManifest files path = .ok paths ↔
      ∃ content, files.entryAt path = .ok (.file content) ∧ Accepted (Path.dir path) content paths) ∧
    ∀ content paths, Accepted (Path.dir path) content paths →
      ((paths.map Path.clean).Nodup ↔
        ∀ line ∈ listingLines content, Path.isAbsolute line = true → Path.clean line ≠ line →
          ∀ other ∈ paths, Path.clean other = Path.clean line → other = line) := by
  refine ⟨fun paths => readManifest_eq_ok_iff, fun content paths h => ⟨fun hnodup => ?_, fun hlines => ?_⟩⟩
  · intro line hline habs _ other hother heq
    exact List.inj_on_of_nodup_map hnodup hother (h.mem_of_absolute hline habs) heq
  · refine List.Nodup.map_on (fun p hp q hq heq => ?_) h.nodup
    have hdir := Path.dir_ne_nil path
    by_cases hpclean : Path.clean p = p
    · by_cases hqclean : Path.clean q = q
      · rw [← hpclean, heq, hqclean]
      · obtain ⟨hline, habs⟩ := h.eq_line_of_unclean hdir hq hqclean
        exact hlines q hline habs hqclean p hp heq
    · obtain ⟨hline, habs⟩ := h.eq_line_of_unclean hdir hp hpclean
      exact (hlines p hline habs hpclean q hq heq.symm).symm

def roster : System :=
  ⟨⟨[(["lists"], .directory), (["lists", "all"], .file "# services\n\n a.json\r\n./sub//b.json\n/x/../c.json\n")]⟩, []⟩

def rosterPaths : List Text := ["lists/a.json", "lists/sub/b.json", "/x/../c.json"]

theorem readManifest_lists_roster :
    readManifest roster "lists/all" = .ok rosterPaths ∧
    ∃ content, Accepted (Path.dir "lists/all") content rosterPaths ∧
      ∀ line ∈ listingLines content, Path.isAbsolute line = true → Path.clean line ≠ line →
        ∀ other ∈ rosterPaths, Path.clean other = Path.clean line → other = line := by
  obtain ⟨hread, hclean⟩ := readManifest_lists roster "lists/all"
  have hok : readManifest roster "lists/all" = .ok rosterPaths := by decide +kernel
  obtain ⟨content, -, haccepted⟩ := (hread rosterPaths).mp hok
  exact ⟨hok, content, haccepted, (hclean content rosterPaths haccepted).mp (by decide +kernel)⟩

/-- Two spellings of one absolute path are both accepted. -/
theorem readManifest_repeats :
    ∃ paths, readManifest ⟨⟨[(["all"], .file "/srv/a.json\n/srv/./a.json\n")]⟩, []⟩ "all" = .ok paths ∧
      ¬ (paths.map Path.clean).Nodup :=
  ⟨["/srv/a.json", "/srv/./a.json"], by decide +kernel⟩

end RpcBindings.Generate
