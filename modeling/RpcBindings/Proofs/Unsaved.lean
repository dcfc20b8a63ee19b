import RpcBindings.Proofs.Rotation

/-!
# Saves that fail

A save moves the backups on before it reads the settings and before it writes. If a move, the reading, the copy or the
writing is denied, or if a directory stands in the place of the settings, it halts there: what has moved stays moved, and
a file whose writing was stopped holds a part. The oldest backup is gone by then, unless it could not be dropped and none
took its place. Any other failure leaves the settings and their backups as they were, if the way to them leads through
none of the backups.
-/

namespace RpcBindings.Settings

open Files
open RpcBindings.Path (IsName)

/-! ## What a halted save leaves -/

/-- The moves that a save needs above a number are not denied. -/
def Moves (denials : Denials) (kept : Nat → Option Entry) (n : Nat) : Prop :=
  ∀ m, n < m → m < backupCount → kept m ≠ none → denials.move m = none

/-- Where a save halts that finds settings, by what was at the path and in its slots, and what it leaves there. -/
inductive Halts (stuck : Bool) (denials : Denials) (kept : Nat → Option Entry) : (Nat → Option Entry) → Prop where
  | move {n : Nat} {reason : Text} (hold : kept 0 ≠ none) (hn : 1 ≤ n) (hn' : n < backupCount) (hkept : kept n ≠ none)
      (hmoves : Moves denials kept n) (hdenied : denials.move n = some reason) : Halts stuck denials kept (movedOn stuck kept n)
  | read {reason : Text} (hold : kept 0 ≠ none) (hmoves : Moves denials kept 0) (hdenied : denials.read = some reason) :
      Halts stuck denials kept (movedOn stuck kept 0)
  | directory (hold : kept 0 = some .directory) (hmoves : Moves denials kept 0) :
      Halts stuck denials kept (movedOn stuck kept 0)
  | copy {old : Text} {stop : Stop} (hold : kept 0 = some (.file old)) (hmoves : Moves denials kept 0)
      (hread : denials.read = none) (hdenied : denials.copy = some stop) :
      Halts stuck denials kept (Function.update (movedOn stuck kept 0) 1 (stop.held.map .file))
  | write {old : Text} {stop : Stop} (hold : kept 0 = some (.file old)) (hmoves : Moves denials kept 0)
      (hread : denials.read = none) (hcopy : denials.copy = none) (hdenied : denials.write = some stop) :
      Halts stuck denials kept
        (Function.update (Function.update (movedOn stuck kept 0) 1 (kept 0)) 0 ((stop.held.map .file).or (kept 0)))

/-- A save has its directory and halts, on its way with the backups or as it writes the first settings. -/
inductive Halted (files : System) (path : Text) (denials : Denials) : (Nat → Option Entry) → Prop where
  | onWay {ready : System} {loc : Location} {left : Nat → Option Entry} (hready : files.mkdirAll (Path.dir path) = .ok ready)
      (hloc : ready.locate (keptPath path 1) = .ok loc) (hfree : ¬ Blocked (stays ready path denials) (shelved files path))
      (h : Halts (stays ready path denials) denials (shelved files path) left) : Halted files path denials left
  | first {ready : System} {loc : Location} {stop : Stop} (hready : files.mkdirAll (Path.dir path) = .ok ready)
      (hloc : ready.locate path = .ok loc) (hold : shelved files path 0 = none) (hdenied : denials.write = some stop) :
      Halted files path denials (Function.update (shelved files path) 0 (stop.held.map .file))

theorem directory_of_halts {stuck : Bool} {kept left : Nat → Option Entry} (h : Halts stuck .none kept left) :
    kept 0 = some .directory := by
  cases h with
  | directory hold => exact hold
  | move _ _ _ _ _ hdenied => cases hdenied
  | read _ _ hdenied => cases hdenied
  | copy _ _ _ hdenied => cases hdenied
  | write _ _ _ _ hdenied => cases hdenied

variable {s : Settings} {files ready : System} {path : Text} {denials : Denials}

theorem shelved_of_mkdirAll (hready : files.mkdirAll (Path.dir path) = .ok ready) (hname : IsName (Path.lastElement path)) :
    shelved ready path = shelved files path :=
  funext fun n => occupant?_of_mkdirAll hready (isName_kept hname n)

theorem clear_of_mkdirAll (hready : files.mkdirAll (Path.dir path) = .ok ready) (h : Clear files path) :
    Clear ready path := by
  intro n hn hn' hentry front hfront
  have hcwd := (System.paving_of_mkdirAllFrom hready).grown.cwd
  rw [← keptPath_eq_backupPath path hn, occupant?_of_mkdirAll hready (isName_mark _ hn)] at hentry
  rw [place_congr hcwd, System.start_congr hcwd]
  exact h n hn hn' (by rwa [← keptPath_eq_backupPath path hn]) front hfront

/-! ## Saves that fail without halting -/

theorem exists_halts {e : Entry} (hready : files.mkdirAll (Path.dir path) = .ok ready) (hopen : Open ready path)
    (hname : IsName (Path.lastElement path)) (hpath : ready.occupant? path = some e)
    (hfree : ¬ Blocked (stays ready path denials) (shelved ready path)) (h : (save s files path denials).fault ≠ none) :
    ∃ left, Halts (stays ready path denials) denials (shelved ready path) left := by
  have hold := (shelved_zero ready path).trans hpath
  have hsome : shelved ready path 0 ≠ none := by simp [hold]
  obtain ⟨k, hreach, hshelf⟩ := turned_of_open hopen hfree
  have hmoves : Moves denials (shelved ready path) k := fun m hm hm' => hreach.free m hm (Nat.le_of_lt_succ hm')
  by_cases hk : k = 0
  · subst hk
    cases hread : denials.read with
    | some reason => exact ⟨_, .read hsome hmoves hread⟩
    | none =>
      cases e with
      | directory => exact ⟨_, .directory hold hmoves⟩
      | file old =>
        cases hcopy : denials.copy with
        | some stop => exact ⟨_, .copy hold hmoves hread hcopy⟩
        | none =>
          cases hwrite : denials.write with
          | some stop => exact ⟨_, .write hold hmoves hread hcopy hwrite⟩
          | none =>
            -- nothing on the way is denied, so the save works
            obtain ⟨hdone, hbacked⟩ := backUp_of_turned hopen hpath hread (hreach.fault_iff.mpr rfl) hshelf rfl
            rw [hcopy] at hdone
            exact absurd (save_of_shelf s hready hopen hname hpath hdone hwrite hbacked).1 h
  · obtain ⟨hthere, hno⟩ := hreach.denied hk
    obtain ⟨reason, hreason⟩ := Option.ne_none_iff_exists'.mp hno
    exact ⟨_, .move hsome (Nat.pos_of_ne_zero hk) (Nat.lt_succ_of_le hreach.le) hthere hmoves hreason⟩

theorem same_or_first (hready : files.mkdirAll (Path.dir path) = .ok ready) (hname : IsName (Path.lastElement path))
    (habsent : isAbsent ready path = true) (h : (save s files path denials).fault ≠ none) :
    (save s files path denials).files = ready ∨ ∃ left, Halted files path denials left := by
  have hbacked := @backUp_of_absent ready path denials habsent
  obtain ⟨hfiles, hsaved⟩ := save_of_backUp (s := s) hready (congrArg Saving.fault hbacked)
  rw [hbacked] at hfiles hsaved
  cases hwrite : denials.write with
  | none =>
    rw [hwrite] at hfiles hsaved
    rw [hsaved, Ne, Option.map_eq_none_iff] at h
    rcases System.overwrite_unstopped ready path (Format.toml s.tree) with ⟨-, hnone⟩ | ⟨hkept, -⟩
    · exact absurd hnone h
    · exact .inl (hfiles.trans hkept)
  | some stop =>
    cases hloc : ready.locate path with
    | error e => exact .inl (hfiles.trans (System.overwrite_of_error hloc _ _).1)
    | ok loc =>
      have hold : shelved files path 0 = none := by
        rw [← shelved_of_mkdirAll hready hname, shelved_zero]
        by_contra hsome
        obtain ⟨e, he⟩ := Option.ne_none_iff_exists'.mp hsome
        rw [isAbsent_of_occupant? he] at habsent
        cases habsent
      exact .inr ⟨_, .first hready hloc hold hwrite⟩

/-- A save that fails and does not halt has at most created directories for the settings. -/
theorem paving_or_halted (hname : IsName (Path.lastElement path)) (hclear : Clear files path)
    (h : (save s files path denials).fault ≠ none) :
    System.Paving files (save s files path denials).files (Path.dir path) ∨ ∃ left, Halted files path denials left := by
  cases hready : files.mkdirAll (Path.dir path) with
  | error f =>
    have hrest := System.paving_mkdirAllRest files (Path.dir path)
    unfold save
    exact .inl (by simpa only [hready] using hrest)
  | ok ready =>
    have hpaving := System.paving_of_mkdirAllFrom hready
    have hsame : (save s files path denials).files = ready → System.Paving files (save s files path denials).files
        (Path.dir path) := fun heq => heq ▸ hpaving
    have hbroken {f : Fault} (hfiles : (backUp ready path denials).files = ready)
        (hfault : (backUp ready path denials).fault = some f) : (save s files path denials).files = ready :=
      (save_of_backUp_fault hready hfault).1.trans hfiles
    cases habsent : isAbsent ready path with
    | true => exact (same_or_first hready hname habsent h).imp_left hsame
    | false =>
      rcases open_or_error (clear_of_mkdirAll hready hclear) with hopen | herror
      · cases hpath : ready.occupant? path with
        | none =>
          rw [isAbsent_of_nothing (hopen.self hname) hpath] at habsent
          cases habsent
        | some e =>
          by_cases hblocked : Blocked (stays ready path denials) (shelved ready path)
          · obtain ⟨hfault, hkept⟩ := turned_of_blocked hopen hblocked
            obtain ⟨f, hf⟩ := Option.ne_none_iff_exists'.mp hfault
            obtain ⟨hfiles, hsome⟩ := backUp_of_fault habsent hf
            exact .inl (hsame (hbroken (hfiles.trans hkept) hsome))
          · obtain ⟨left, hleft⟩ := exists_halts hready hopen hname hpath hblocked h
            rw [shelved_of_mkdirAll hready hname] at hblocked hleft
            exact .inr ⟨left, .onWay hready (hopen.leads 1 (Nat.le_refl 1) (by decide)) hblocked hleft⟩
      · obtain ⟨hfiles, hfault⟩ := @backUp_of_error ready path denials habsent herror
        obtain ⟨f, hf⟩ := Option.ne_none_iff_exists'.mp hfault
        exact .inl (hsame (hbroken hfiles hf))

/-! ## Saves that halt -/

/-- A write at the path that is stopped changes what is there, as far as it comes, and no slot. -/
theorem shelved_overwrite {t : System} {slots : Nat → Option Entry} (hself : t.locate path = .ok (place t path 0))
    (hslots : ∀ n ≤ backupCount, shelved t path n = slots n) (hdir : slots 0 ≠ some .directory) (content : Text) (stop : Stop) :
    (t.overwrite path content (some stop)).2 ≠ none ∧
      ∀ n ≤ backupCount, shelved (t.overwrite path content (some stop)).1 path n =
        Function.update slots 0 ((stop.held.map .file).or (slots 0)) n := by
  have hrest : ∀ e n, n ≤ backupCount → n ≠ 0 → shelved t path n = Function.update slots 0 e n := fun e n hn hne => by
    rw [hslots n hn, Function.update_of_ne hne]
  cases hheld : stop.held with
  | none =>
    rw [System.overwrite_of_unopened hheld]
    refine ⟨Option.some_ne_none _, fun n hn => ?_⟩
    by_cases hzero : n = 0
    · rw [hzero, Function.update_self]
      exact hslots 0 (Nat.zero_le _)
    · exact hrest _ n hn hzero
  | some text =>
    have hfree : t.tree.get? (place t path 0) ≠ some .directory := by
      rw [← System.occupant?_of_locate hself, ← shelved_zero, hslots 0 (Nat.zero_le _)]
      exact hdir
    have hreached : Stop.reached content (some stop) = some text := hheld
    rw [System.overwrite_of_reached hself hfree hreached]
    refine ⟨Option.some_ne_none _, fun n hn => ?_⟩
    have hwritten := occupant?_of_replaced hfree (replaced_put hself hfree text)
    by_cases hzero : n = 0
    · rw [hzero, Function.update_self, shelved_zero, (hwritten path).1 hself]
      rfl
    · rw [← hrest _ n hn hzero]
      exact (hwritten _).2 (locate_ne (Nat.pos_of_ne_zero hzero) hn)

section

variable {loc : Location} {left : Nat → Option Entry}

theorem save_of_unread {f : Fault} (hready : files.mkdirAll (Path.dir path) = .ok ready)
    (habsent : isAbsent ready path = false) (hfault : (turned ready path denials).fault = none)
    (hread : unlessDenied denials.read "open" [path] ((turned ready path denials).files.read path) = .error f) :
    (save s files path denials).fault = some (.within "failed to create backup" (.ofIo "read config for backup" f)) ∧
      (save s files path denials).files = (turned ready path denials).files := by
  obtain ⟨hfiles, hsome⟩ := backUp_of_unread habsent hfault hread
  obtain ⟨hsaved, hfailed⟩ := save_of_backUp_fault (s := s) hready hsome
  exact ⟨hfailed, hsaved.trans hfiles⟩

theorem read_of_directory {t : System} (h : t.entryAt path = .ok .directory) :
    t.read path = .error ⟨"read", [path], .isDirectory⟩ := by
  rw [System.read, h]

theorem save_halts (s : Settings) (hready : files.mkdirAll (Path.dir path) = .ok ready)
    (hname : IsName (Path.lastElement path)) (hclear : Clear ready path)
    (hloc : ready.locate (keptPath path 1) = .ok loc) (hfree : ¬ Blocked (stays ready path denials) (shelved ready path))
    (h : Halts (stays ready path denials) denials (shelved ready path) left) :
    (save s files path denials).fault ≠ none ∧
      ∀ n ≤ backupCount, shelved (save s files path denials).files path n = left n := by
  have hopen := open_of_locate hclear (Nat.le_refl 1) (by decide) hloc
  have hthere : shelved ready path 0 ≠ none → isAbsent ready path = false := by
    intro hsome
    obtain ⟨e, he⟩ := Option.ne_none_iff_exists'.mp hsome
    exact isAbsent_of_occupant? ((shelved_zero ready path).symm.trans he)
  obtain ⟨k, hreach, hshelf⟩ := turned_of_open hopen hfree
  have hturned : ∀ n ≤ backupCount,
      shelved (turned ready path denials).files path n = movedOn (stays ready path denials) (shelved ready path) k n :=
    fun n hn => hshelf.shelved hopen (if_pos (Nat.zero_le _)) hn
  have hend : Moves denials (shelved ready path) 0 → k = 0 := fun hmoves =>
    hreach.eq (Nat.zero_le _) (fun m hm hm' => hmoves m hm (Nat.lt_succ_of_le hm')) fun hne => absurd rfl hne
  cases h with
  | @move n reason hold hn hn' hkept hmoves hdenied =>
    obtain rfl := hreach.eq (Nat.le_of_lt_succ hn') (fun m hm hm' => hmoves m hm (Nat.lt_succ_of_le hm')) fun _ =>
      ⟨hkept, by simp [hdenied]⟩
    obtain ⟨f, hf⟩ := Option.ne_none_iff_exists'.mp (mt hreach.fault_iff.mp (by omega))
    obtain ⟨hfiles, hsome⟩ := backUp_of_fault (hthere hold) hf
    obtain ⟨hsaved, hfailed⟩ := save_of_backUp_fault (s := s) hready hsome
    rw [hfailed, hsaved, hfiles]
    exact ⟨Option.some_ne_none _, hturned⟩
  | read hold hmoves hdenied =>
    obtain rfl := hend hmoves
    obtain ⟨hfailed, hsaved⟩ := save_of_unread (s := s) hready (hthere hold) (hreach.fault_iff.mpr rfl) (by rw [hdenied]; rfl)
    rw [hfailed, hsaved]
    exact ⟨Option.some_ne_none _, hturned⟩
  | directory hold hmoves =>
    obtain rfl := hend hmoves
    have hentry : (turned ready path denials).files.entryAt path = .ok .directory := by
      rw [shelved_zero, System.occupant?, toOption_eq_some] at hold
      rw [hshelf.entryAt_self hopen, hold]
    have hread : ∃ f, unlessDenied denials.read "open" [path] ((turned ready path denials).files.read path) = .error f := by
      rw [read_of_directory hentry]
      cases denials.read <;> exact ⟨_, rfl⟩
    obtain ⟨f, hf⟩ := hread
    obtain ⟨hfailed, hsaved⟩ := save_of_unread (s := s) hready (hthere (by simp [hold])) (hreach.fault_iff.mpr rfl) hf
    rw [hfailed, hsaved]
    exact ⟨Option.some_ne_none _, hturned⟩
  | @copy old stop hold hmoves hread hdenied =>
    obtain rfl := hend hmoves
    have hpath := (shelved_zero ready path).symm.trans hold
    obtain ⟨hsome, hbacked⟩ := backUp_of_turned hopen hpath hread (hreach.fault_iff.mpr rfl) hshelf rfl
    rw [hdenied] at hsome hbacked
    obtain ⟨hsaved, hfailed⟩ := save_of_backUp_fault (s := s) hready hsome
    rw [hfailed, hsaved]
    exact ⟨Option.some_ne_none _, fun n hn => hbacked.shelved hopen rfl hn⟩
  | @write old stop hold hmoves hread hcopy hdenied =>
    obtain rfl := hend hmoves
    have hpath := (shelved_zero ready path).symm.trans hold
    obtain ⟨hnone, hbacked⟩ := backUp_of_turned hopen hpath hread (hreach.fault_iff.mpr rfl) hshelf rfl
    rw [hcopy] at hnone hbacked
    have hcopied : (Stop.reached old none).map Entry.file = shelved ready path 0 := hold.symm
    rw [hcopied] at hbacked
    have hself := hbacked.locate hopen 0
    rw [keptPath_zero, hopen.self hname, ← place_congr hbacked.cwd] at hself
    obtain ⟨hsome, hafter⟩ := shelved_overwrite hself (fun n hn => hbacked.shelved hopen rfl hn)
      (fun hdir => by cases hold.symm.trans hdir) (Format.toml s.tree) stop
    obtain ⟨hsaved, hfailed⟩ := save_of_backUp (s := s) hready hnone
    rw [hfailed, hsaved, hdenied, Ne, Option.map_eq_none_iff]
    exact ⟨hsome, hafter⟩

theorem save_halts_first {stop : Stop} (s : Settings) (hready : files.mkdirAll (Path.dir path) = .ok ready)
    (hname : IsName (Path.lastElement path)) (hloc : ready.locate path = .ok loc) (hold : shelved ready path 0 = none)
    (hdenied : denials.write = some stop) :
    (save s files path denials).fault ≠ none ∧
      ∀ n ≤ backupCount, shelved (save s files path denials).files path n =
        Function.update (shelved ready path) 0 (stop.held.map .file) n := by
  have hpath := (shelved_zero ready path).symm.trans hold
  have hbacked := @backUp_of_absent ready path denials (isAbsent_of_nothing hloc hpath)
  obtain ⟨hsaved, hfailed⟩ := save_of_backUp (s := s) hready (congrArg Saving.fault hbacked)
  rw [eq_place_of_locate hname hloc] at hloc
  obtain ⟨hsome, hafter⟩ := shelved_overwrite hloc (fun _ _ => rfl) (by simp [hold]) (Format.toml s.tree) stop
  rw [hfailed, hsaved, hdenied, hbacked, Ne, Option.map_eq_none_iff]
  refine ⟨hsome, fun n hn => (hafter n hn).trans ?_⟩
  rw [hold, Option.or_none]

end

theorem leaves_of_halted (s : Settings) {left : Nat → Option Entry} (hname : IsName (Path.lastElement path))
    (hclear : Clear files path) (h : Halted files path denials left) :
    (save s files path denials).fault ≠ none ∧
      ∀ n ≤ backupCount, shelved (save s files path denials).files path n = left n := by
  cases h with
  | onWay hready hloc hfree h =>
    rw [← shelved_of_mkdirAll hready hname] at hfree h
    exact save_halts s hready hname (clear_of_mkdirAll hready hclear) hloc hfree h
  | first hready hloc hold hdenied =>
    rw [← shelved_of_mkdirAll hready hname] at hold ⊢
    exact save_halts_first s hready hname hloc hold hdenied

def directoryFault (path : Text) : Fault :=
  .within "failed to create backup"
    (.ofIo "read config for backup" (SystemFault.fault ⟨"read", [path], .isDirectory⟩))

theorem save_of_directory (s : Settings) (hready : files.mkdirAll (Path.dir path) = .ok ready)
    (hpath : ready.occupant? path = some .directory) (hfault : (turned ready path).fault = none)
    (hsame : (turned ready path).files.entryAt path = ready.entryAt path) :
    (save s files path).fault = some (directoryFault path) ∧ (save s files path).files = (turned ready path).files := by
  have hentry : (turned ready path).files.entryAt path = .ok .directory := by
    have hdir := hpath
    rw [System.occupant?, toOption_eq_some] at hdir
    rw [hsame, hdir]
  refine save_of_unread hready (isAbsent_of_occupant? hpath) hfault ?_
  rw [read_of_directory hentry]
  rfl

theorem save_onto_directory (s : Settings) (hready : files.mkdirAll (Path.dir path) = .ok ready)
    (hpath : ready.occupant? path = some .directory)
    (hplain : ∀ n, 1 ≤ n → n ≤ backupCount → shelved files path n ≠ some .directory) :
    (save s files path).fault = some (directoryFault path) ∧ (save s files path).files.occupant? path = some .directory ∧
      shelved (save s files path).files path 1 = none ∧
      ∀ n, 1 ≤ n → n < backupCount → shelved (save s files path).files path (n + 1) = shelved files path n := by
  have hkept : ∀ n, 1 ≤ n → shelved ready path n = shelved files path n := fun n hn =>
    occupant?_of_mkdirAll hready (isName_mark _ hn)
  have hclear : Clear ready path := clear_of_backups fun n hn hn' => by
    rw [← shelved, hkept n hn]
    exact hplain n hn hn'
  rcases open_or_error hclear with hopen | herror
  · have hlast : shelved ready path backupCount ≠ some .directory := by
      rw [hkept _ (by decide)]
      exact hplain _ (by decide) (Nat.le_refl _)
    obtain ⟨hturned, hshelf⟩ := turned_of_plain hopen hlast
    obtain ⟨hsave, hfiles⟩ := save_of_directory s hready hpath hturned (hshelf.entryAt_self hopen)
    rw [hfiles]
    refine ⟨hsave, ?_, hshelf.occupant? hopen (Nat.le_refl 1) (by decide), fun n hn hn' => ?_⟩
    · rw [System.occupant?, hshelf.entryAt_self hopen]
      exact hpath
    · rw [← hkept n hn]
      refine (hshelf.occupant? hopen (by omega) hn').trans ?_
      rw [movedOn, undropped_of_free (.inl rfl), Option.or_none, if_neg (by omega), if_neg (by omega)]
      rfl
  · have hturned := @turned_of_error ready path .none herror
    obtain ⟨hsave, hfiles⟩ := save_of_directory s hready hpath (by rw [hturned]) (by rw [hturned])
    have hnothing : ∀ n, 1 ≤ n → n ≤ backupCount → shelved ready path n = none := by
      intro n hn hn'
      obtain ⟨e, he⟩ := herror n hn hn'
      exact System.occupant?_of_error he
    rw [hturned] at hfiles
    simp only [hfiles]
    refine ⟨hsave, hpath, hnothing 1 (Nat.le_refl 1) (by decide), fun n hn hn' => ?_⟩
    rw [← hkept n hn, hnothing n hn (by omega), hnothing _ (by omega) hn']

/-- A save that fails loses nothing unless it halts. One that halts leaves what has moved where it is, and a part of what
it was writing. Where a directory stands at the path, every save halts: the oldest backup is lost and the others move on,
although nothing is saved and nothing is denied. -/
theorem save_fault_leaves (s : Settings) (files : System) (path : Text) (denials : Denials) :
    (IsName (Path.lastElement path) → Clear files path →
      ((save s files path denials).fault ≠ none →
        files.Grown (save s files path denials).files ∧
            (∀ n ≤ backupCount, shelved (save s files path denials).files path n = shelved files path n) ∨
          ∃ left, Halted files path denials left) ∧
      ∀ left, Halted files path denials left →
        (save s files path denials).fault ≠ none ∧
          ∀ n ≤ backupCount, shelved (save s files path denials).files path n = left n) ∧
    ∀ ready, files.mkdirAll (Path.dir path) = .ok ready → ready.isDirectory path = true →
      (∀ n, 1 ≤ n → n ≤ backupCount → shelved files path n ≠ some .directory) →
      (save s files path .none).fault = some (directoryFault path) ∧
        (save s files path .none).files.isDirectory path = true ∧
        shelved (save s files path .none).files path 1 = none ∧
        ∀ n, 1 ≤ n → n < backupCount → shelved (save s files path .none).files path (n + 1) = shelved files path n := by
  have hdirectory : ∀ t : System, t.isDirectory path = true ↔ t.occupant? path = some .directory := fun t => by
    rw [System.isDirectory_iff, System.occupant?_eq_some_iff]
  refine ⟨fun hname hclear => ⟨fun hfault => ?_, fun left h => leaves_of_halted s hname hclear h⟩,
    fun ready hready hdir hplain => ?_⟩
  · refine (paving_or_halted hname hclear hfault).imp_left fun hpaving => ⟨hpaving.grown, fun n _ => ?_⟩
    exact hpaving.occupant?_beside (slash_not_mem_mark n) (isName_kept hname n)
  · rw [hdirectory] at hdir ⊢
    exact save_onto_directory s hready hdir hplain

def jammed : System where
  tree := ⟨[(["rpc.toml"], .file "now"), (["rpc.toml.back2"], .file "two"), (["rpc.toml.back3"], .directory),
    (["rpc.toml.back3", "kept"], .file "")]⟩
  cwd := []

def occupied : System where
  tree := ⟨[(["rpc.toml"], .directory), (["rpc.toml.back1"], .file "one"), (["rpc.toml.back2"], .file "two"),
    (["rpc.toml.back3"], .file "three")]⟩
  cwd := []

def stocked : System where
  tree := ⟨[(["rpc.toml"], .file "now"), (["rpc.toml.back1"], .file "one"), (["rpc.toml.back2"], .file "two"),
    (["rpc.toml.back3"], .file "three")]⟩
  cwd := []

def unreadable : Denials := { Denials.none with read := some "permission denied" }

def readOnly : Denials := { Denials.none with write := some ⟨none, "permission denied"⟩ }

/-- The directory may be read, and nothing in it dropped, moved or added. -/
def fixedDirectory : Denials where
  drop := some "permission denied"
  move _ := some "permission denied"
  read := none
  copy := some ⟨none, "permission denied"⟩
  write := none

def fullDisk : Denials := { Denials.none with copy := some ⟨some "n", "no space left on device"⟩ }

def LeavesStocked (denials : Denials) (left : List (Option Entry)) : Prop :=
  (save Settings.default stocked "rpc.toml" denials).fault ≠ none ∧
    (List.range 4).map (shelved (save Settings.default stocked "rpc.toml" denials).files "rpc.toml") = left

theorem save_fault_leaves_stocked :
    ((save Settings.default jammed "rpc.toml").fault ≠ none ∧
      shelved (save Settings.default jammed "rpc.toml").files "rpc.toml" 2 = some (.file "two")) ∧
    ((save Settings.default occupied "rpc.toml").fault = some (directoryFault "rpc.toml") ∧
      shelved (save Settings.default occupied "rpc.toml").files "rpc.toml" 2 = some (.file "one")) ∧
    LeavesStocked fixedDirectory [some (.file "now"), some (.file "one"), some (.file "two"), some (.file "three")] ∧
    LeavesStocked unreadable [some (.file "now"), none, some (.file "one"), some (.file "two")] ∧
    LeavesStocked fullDisk [some (.file "now"), some (.file "n"), some (.file "one"), some (.file "two")] ∧
    LeavesStocked readOnly [some (.file "now"), some (.file "now"), some (.file "one"), some (.file "two")] := by
  have hname : IsName (Path.lastElement "rpc.toml") := ⟨by decide, by decide, by decide⟩
  have hclear : ∀ files : System, files.cwd = [] → Clear files "rpc.toml" := by
    intro files hcwd n _ _ _ front hfront hpre
    obtain rfl : front = [] := List.prefix_nil.mp hfront
    have hstart : Path.follow (files.start "rpc.toml") [] = [] := hcwd
    rw [hstart] at hpre
    exact place_ne_nil files "rpc.toml" n (List.prefix_nil.mp hpre)
  have hfault : (save Settings.default jammed "rpc.toml").fault ≠ none := by decide +kernel
  have hfile : shelved jammed "rpc.toml" 0 = some (.file "now") := by decide +kernel
  have hnever : ∀ left, ¬ Halted jammed "rpc.toml" .none left := by
    intro left h
    cases h with
    | onWay _ _ _ h =>
      have hdir := directory_of_halts h
      rw [hfile] at hdir
      cases hdir
    | first _ _ _ hdenied => cases hdenied
  have hjammed := (save_fault_leaves Settings.default jammed "rpc.toml" .none).1 hname (hclear _ rfl)
  obtain ⟨-, hkept⟩ := (hjammed.1 hfault).resolve_right fun h => h.elim hnever
  have hready : occupied.mkdirAll (Path.dir "rpc.toml") = .ok occupied := System.mkdirAll_of_isDirectory (by decide +kernel)
  have hplain : ∀ n, 1 ≤ n → n ≤ backupCount → shelved occupied "rpc.toml" n ≠ some .directory := by decide +kernel
  obtain ⟨hlost, -, -, hmoved⟩ :=
    (save_fault_leaves Settings.default occupied "rpc.toml" .none).2 occupied hready (by decide +kernel) hplain
  have hstocked : stocked.mkdirAll (Path.dir "rpc.toml") = .ok stocked := System.mkdirAll_of_isDirectory (by decide +kernel)
  have hold : shelved stocked "rpc.toml" 0 = some (.file "now") := by decide +kernel
  have hplaced : ∀ n, 2 ≤ n → n ≤ 3 → shelved stocked "rpc.toml" n ≠ some .directory := by decide +kernel
  have hfree : ∀ stuck, ¬ Blocked stuck (shelved stocked "rpc.toml") := by
    rintro stuck ⟨-, -, -, hsecond | hlast⟩
    · exact hplaced 2 (by decide) (by decide) hsecond
    · exact hplaced 3 (by decide) (by decide) hlast
  have hleaves : ∀ denials left kept, Halts (stays stocked "rpc.toml" denials) denials (shelved stocked "rpc.toml") left →
      (List.range 4).map left = kept → LeavesStocked denials kept := by
    rintro denials left _ h rfl
    obtain ⟨hsome, hleft⟩ := ((save_fault_leaves Settings.default stocked "rpc.toml" denials).1 hname (hclear _ rfl)).2 left
      (@Halted.onWay _ _ _ _ ["rpc.toml.back1"] _ hstocked rfl (hfree _) h)
    exact ⟨hsome, List.map_congr_left fun n hn => hleft n (Nat.le_of_lt_succ (List.mem_range.mp hn))⟩
  have hmoves : ∀ denials : Denials, denials.move = Denials.none.move → Moves denials (shelved stocked "rpc.toml") 0 := by
    intro denials hmove m _ _ _
    rw [hmove]
    rfl
  refine ⟨⟨hfault, (hkept 2 (by decide)).trans ?_⟩, ⟨hlost, (hmoved 1 (by decide) (by decide)).trans ?_⟩, ?_, ?_, ?_, ?_⟩
  · decide +kernel
  · decide +kernel
  · refine hleaves fixedDirectory _ _ (.move (n := 2) (by simp [hold]) (by decide) (by decide) (by decide +kernel) ?_ rfl) ?_
    · exact fun _ hm hm' => absurd hm (by rw [backupCount] at hm'; omega)
    · decide +kernel
  · exact hleaves unreadable _ _ (.read (by simp [hold]) (hmoves _ rfl) rfl) (by decide +kernel)
  · exact hleaves fullDisk _ _ (.copy hold (hmoves _ rfl) rfl rfl) (by decide +kernel)
  · exact hleaves readOnly _ _ (.write hold (hmoves _ rfl) rfl rfl rfl) (by decide +kernel)

/-- A save fails, and a backup is gone. -/
theorem save_fault_loses :
    (save Settings.default occupied "rpc.toml").fault ≠ none ∧
      occupied.occupant? "rpc.toml.back1" = some (.file "one") ∧
      (save Settings.default occupied "rpc.toml").files.occupant? "rpc.toml.back1" = none := by
  decide +kernel

end RpcBindings.Settings
