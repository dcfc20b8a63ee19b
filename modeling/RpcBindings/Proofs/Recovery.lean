import RpcBindings.Proofs.Quoting

/-!
# Written documents are read back

A document of tables with scalars in them is a row of lines, each with one statement. The lines are read one by one, and
their statements build the tables again.
-/

namespace RpcBindings.Toml

variable {e : Edition} {b : UInt8} {name rest t : Text}

/-! ## Lines -/

theorem skipBlanks_cons (hb : isBlank b = false) (rest : Text) : skipBlanks (b :: rest) = b :: rest := by
  rw [skipBlanks, List.dropWhile_cons_of_neg (by simp [hb])]

def Bare (name : Text) : Prop := name ≠ [] ∧ name.all isBareKey = true

theorem ne_of_isBareKey {c : UInt8} (hb : isBareKey b = true) (hc : isBareKey c = false) : b ≠ c := by
  rintro rfl
  rw [hb] at hc
  cases hc

theorem isBlank_of_isBareKey (h : isBareKey b = true) : isBlank b = false := by
  rw [isBlank, Bool.or_eq_false_iff, beq_eq_false_iff_ne, beq_eq_false_iff_ne]
  exact ⟨ne_of_isBareKey h (by decide), ne_of_isBareKey h (by decide)⟩

theorem Bare.exists_cons (h : Bare name) : ∃ b rest, name = b :: rest ∧ isBareKey b = true := by
  obtain ⟨b, rest, rfl⟩ := List.exists_cons_of_ne_nil h.1
  exact ⟨b, rest, rfl, List.all_eq_true.mp h.2 b List.mem_cons_self⟩

theorem Bare.ne_of_cons {first : UInt8} {more : Text} (h : Bare name) (hb : isBareKey b = false)
    (hname : name ++ t = first :: more) : first ≠ b := by
  obtain ⟨c, tail, rfl, hc⟩ := h.exists_cons
  rw [List.cons_append] at hname
  rw [← (List.cons.inj hname).1]
  exact ne_of_isBareKey hc hb

theorem keyPart_bare (h : Bare name) (hb : isBareKey b = false) (rest : Text) :
    keyPart e (name ++ b :: rest) = some (name, b :: rest) := by
  have hword : (name ++ b :: rest).takeWhile isBareKey = name := by
    rw [List.takeWhile_append_of_pos (List.all_eq_true.mp h.2), List.takeWhile_cons_of_neg (by simp [hb]), List.append_nil]
  unfold keyPart
  split
  next heq => exact absurd rfl (h.ne_of_cons (by decide) heq)
  next heq => exact absurd rfl (h.ne_of_cons (by decide) heq)
  next => simp only [hword, if_neg h.1, List.drop_left]

theorem keyPath_bare (h : Bare name) (hb : isBareKey b = false) (hdot : (skipBlanks (b :: rest)).head? ≠ some 46)
    (fuel : Nat) : keyPath e (fuel + 1) (name ++ b :: rest) = some ([name], skipBlanks (b :: rest)) := by
  rw [keyPath, keyPart_bare h hb]
  simp only
  split
  next heq =>
    rw [heq] at hdot
    exact absurd rfl hdot
  next => rfl

theorem statement_header (h : Bare name) (rest : Text) :
    statement e ("[" ++ name ++ "]" ++ 10 :: rest) = some (.table [name], 10 :: rest) := by
  have hopen : Text.ofString "[" = [91] := by decide
  have hclose : Text.ofString "]" = [93] := by decide
  have hlength : (name ++ 93 :: 10 :: rest).length = (name.length + rest.length + 1) + 1 := by simp; omega
  have hskip : skipBlanks (93 :: 10 :: rest) = 93 :: 10 :: rest := skipBlanks_cons (by decide) _
  have hkey : keyPath e ((name.length + rest.length + 1) + 1) (name ++ 93 :: 10 :: rest) = some ([name], 93 :: 10 :: rest) := by
    rw [keyPath_bare h (by decide) (by simp [hskip]), hskip]
  obtain ⟨first, more, hname, hfirst⟩ := h.exists_cons
  have hstart : skipBlanks (name ++ 93 :: 10 :: rest) = name ++ 93 :: 10 :: rest := by
    rw [hname, List.cons_append]
    exact skipBlanks_cons (isBlank_of_isBareKey hfirst) _
  rw [hopen, hclose, List.append_assoc, List.append_assoc, List.singleton_append, List.singleton_append, statement, header]
  · rw [hstart, hlength, hkey]
    rfl
  · exact fun more hmore => h.ne_of_cons (by decide) hmore rfl

theorem statement_field {tree : Format.Tree} {v : Value} (h : Bare name) (hleaf : Leaf tree v) (rest : Text) :
    statement e (name ++ " = " ++ Format.tomlScalar tree ++ 10 :: rest) = some (.assign [name] (scalarExpr v), 10 :: rest) := by
  have hequals : Text.ofString " = " = [32, 61, 32] := by decide
  obtain ⟨first, more, hname, hfirst⟩ := h.exists_cons
  obtain ⟨b, tail, hhead, hb⟩ := head_tomlScalar hleaf
  have hskip : ∀ after, skipBlanks (32 :: 61 :: after) = 61 :: after := fun _ => rfl
  have hvalue : skipBlanks (32 :: (Format.tomlScalar tree ++ 10 :: rest)) = Format.tomlScalar tree ++ 10 :: rest := by
    rw [hhead, List.cons_append]
    exact skipBlanks_cons hb _
  rw [hequals, List.append_assoc, List.append_assoc, List.cons_append, List.cons_append, List.singleton_append]
  generalize htext : name ++ 32 :: 61 :: 32 :: (Format.tomlScalar tree ++ 10 :: rest) = whole
  have hlength : ∃ k, whole.length = k + 1 := by
    rw [← htext, hname]
    exact ⟨_, rfl⟩
  obtain ⟨k, hk⟩ := hlength
  have hkey : keyPath e (k + 1) whole = some ([name], 61 :: 32 :: (Format.tomlScalar tree ++ 10 :: rest)) := by
    rw [← htext]
    exact keyPath_bare h (by decide) (by simp [hskip]) k
  have hassign : assignment e (2 * whole.length + 2) whole = some (([name], scalarExpr v), 10 :: rest) := by
    rw [assignment, hk, hkey]
    simp only [skipBlanks_cons (show isBlank 61 = false by decide)]
    rw [hvalue, show 2 * (k + 1) + 1 = (2 * k + 2) + 1 by omega, value_tomlScalar hleaf]
    rfl
  rw [statement, hassign]
  · rfl
  · exact fun more hmore => h.ne_of_cons (by decide) (htext.trans hmore) rfl

/-- A line that is read as a statement, whatever follows it. -/
structure Line where
  gap : Text
  body : Text
  statement : Statement

namespace Line

def text (l : Line) : Text := l.gap ++ l.body ++ [10]

structure Readable (e : Edition) (l : Line) : Prop where
  gap : l.gap = [] ∨ l.gap = [10]
  starts : ∃ b rest, l.body = b :: rest ∧ isBlank b = false ∧ b ≠ 10 ∧ b ≠ 13 ∧ b ≠ 35
  read : ∀ rest, Toml.statement e (l.body ++ 10 :: rest) = some (l.statement, 10 :: rest)

end Line

theorem skipFiller_cons (hb : isBlank b = false ∧ b ≠ 10 ∧ b ≠ 13 ∧ b ≠ 35) (rest : Text) (fuel : Nat) :
    skipFiller fuel (b :: rest) = b :: rest := by
  cases fuel with
  | zero => rfl
  | succ fuel =>
    have hcomment : afterComment (b :: rest) = b :: rest := by
      unfold afterComment
      split
      next heq => exact absurd (List.cons.inj heq).1 hb.2.2.2
      next => rfl
    rw [skipFiller, skipBlanks_cons hb.1, hcomment]
    split
    next heq => exact absurd (List.cons.inj heq).1 hb.2.1
    next heq => exact absurd (List.cons.inj heq).1 hb.2.2.1
    next => rfl

theorem statementsFrom_line {l : Line} (h : l.Readable e) (read : List Statement) (fuel : Nat) (rest : Text) :
    statementsFrom e read (fuel + 1) (l.text ++ rest) = statementsFrom e (l.statement :: read) fuel rest := by
  obtain ⟨b, tail, hbody, hb⟩ := h.starts
  have hread := h.read rest
  rw [hbody, List.cons_append] at hread
  have htext : l.text ++ rest = l.gap ++ b :: (tail ++ 10 :: rest) := by
    simp [Line.text, hbody]
  have hskip : skipFiller (l.gap ++ b :: (tail ++ 10 :: rest)).length (l.gap ++ b :: (tail ++ 10 :: rest)) =
      b :: (tail ++ 10 :: rest) := by
    rcases h.gap with hgap | hgap
    · rw [hgap]
      exact skipFiller_cons hb _ _
    · have hline : ∀ n t, skipFiller (n + 1) (10 :: t) = skipFiller n t := fun _ _ => rfl
      rw [hgap, List.singleton_append, List.length_cons, hline]
      exact skipFiller_cons hb _ _
  rw [htext, statementsFrom, hskip]
  simp only [hread]
  rfl

theorem statementsFrom_lines {lines : List Line} (h : ∀ l ∈ lines, l.Readable e) (read : List Statement) {fuel : Nat}
    (hfuel : lines.length < fuel) :
    statementsFrom e read fuel (lines.flatMap Line.text) = some (read.reverse ++ lines.map Line.statement) := by
  induction lines generalizing read fuel with
  | nil =>
    obtain ⟨fuel, rfl⟩ := Nat.exists_eq_succ_of_ne_zero (Nat.ne_of_gt hfuel)
    rw [List.flatMap_nil, List.map_nil, List.append_nil]
    rfl
  | cons l lines ih =>
    obtain ⟨fuel, rfl⟩ := Nat.exists_eq_succ_of_ne_zero (Nat.ne_of_gt (Nat.lt_of_le_of_lt (Nat.zero_le _) hfuel))
    rw [List.flatMap_cons, statementsFrom_line (h l List.mem_cons_self),
      ih (fun x hx => h x (List.mem_cons_of_mem _ hx)) _ (Nat.lt_of_succ_lt_succ hfuel), List.reverse_cons,
      List.append_assoc, List.map_cons, List.singleton_append]

theorem length_le_lines (lines : List Line) : lines.length ≤ (lines.flatMap Line.text).length := by
  induction lines with
  | nil => rfl
  | cons l lines ih =>
    rw [List.flatMap_cons, List.length_append, List.length_cons]
    simp only [Line.text, List.length_append, List.length_singleton]
    omega

theorem statements?_lines {lines : List Line} (h : ∀ l ∈ lines, l.Readable e)
    (hclean : ∀ l ∈ lines, Clean l.text) : statements? e (lines.flatMap Line.text) = some (lines.map Line.statement) := by
  rw [statements?, (Clean.flatMap hclean).allowed, if_pos rfl,
    statementsFrom_lines h [] (Nat.lt_succ_of_le (length_le_lines lines)), List.reverse_nil, List.nil_append]

/-! ## Tables -/

structure Field where
  name : Text
  tree : Format.Tree
  value : Value
  bare : Bare name
  leaf : Leaf tree value

structure Table where
  name : Text
  fields : List Field
  bare : Bare name
  distinct : (fields.map Field.name).Nodup

namespace Field

def line (f : Field) : Line where
  gap := []
  body := f.name ++ " = " ++ Format.tomlScalar f.tree
  statement := .assign [f.name] (scalarExpr f.value)

end Field

namespace Table

def tree (t : Table) : Format.Tree := .record (t.fields.map fun f => (f.name, f.tree))

def header (gap : Text) (t : Table) : Line := ⟨gap, "[" ++ t.name ++ "]", .table [t.name]⟩

def lines (gap : Text) (t : Table) : List Line := t.header gap :: t.fields.map Field.line

def members (t : Table) : Members := t.fields.map fun f => (f.name, f.value)

end Table

theorem Bare.starts (h : Bare name) (t : Text) :
    ∃ b rest, name ++ t = b :: rest ∧ isBlank b = false ∧ b ≠ 10 ∧ b ≠ 13 ∧ b ≠ 35 := by
  obtain ⟨b, rest, rfl, hb⟩ := h.exists_cons
  exact ⟨b, rest ++ t, rfl, isBlank_of_isBareKey hb, ne_of_isBareKey hb (by decide), ne_of_isBareKey hb (by decide),
    ne_of_isBareKey hb (by decide)⟩

theorem Bare.clean (h : Bare name) : Clean name := by
  refine Clean.of_printable (List.all_eq_true.mpr fun b hb => ?_)
  have hbare : isBareKey b = true := List.all_eq_true.mp h.2 b hb
  simp only [isBareKey, Text.isDigit, Bool.or_eq_true, Bool.and_eq_true, decide_eq_true_eq, beq_iff_eq,
    UInt8.le_iff_toNat_le, UInt8.reduceToNat, ← UInt8.toNat_inj] at hbare
  simp only [Bool.and_eq_true, decide_eq_true_eq]
  omega

theorem readable_field (f : Field) : f.line.Readable e ∧ Clean f.line.text := by
  refine ⟨⟨.inl rfl, ?_, fun rest => statement_field f.bare f.leaf rest⟩, ?_⟩
  · have hstarts := f.bare.starts (" = " ++ Format.tomlScalar f.tree)
    rwa [← List.append_assoc] at hstarts
  · exact (((f.bare.clean.append (.of_printable (by decide))).append (.tomlScalar f.leaf))).append .newline

theorem readable_header {gap : Text} (hgap : gap = [] ∨ gap = [10]) (t : Table) :
    (t.header gap).Readable e ∧ Clean (t.header gap).text := by
  have hclean : Clean gap := by
    rcases hgap with rfl | rfl
    · exact .of_printable rfl
    · exact .newline
  have hbody : Clean ("[" ++ t.name ++ "]") :=
    ((Clean.of_printable (by decide)).append t.bare.clean).append (.of_printable (by decide))
  exact ⟨⟨hgap, ⟨91, t.name ++ "]", rfl, by decide, by decide, by decide, by decide⟩, statement_header t.bare⟩,
    (hclean.append hbody).append .newline⟩

theorem readable_lines {gap : Text} (hgap : gap = [] ∨ gap = [10]) (t : Table) :
    ∀ l ∈ t.lines gap, l.Readable e ∧ Clean l.text := by
  intro l hl
  rcases List.mem_cons.mp hl with rfl | hl
  · exact readable_header hgap t
  · obtain ⟨f, -, rfl⟩ := List.mem_map.mp hl
    exact readable_field f

def tablesRecord (tables : List Table) : Format.Tree := .record (tables.map fun t => (t.name, t.tree))

def documentLines : List Table → List Line
  | [] => []
  | t :: rest => t.lines [] ++ rest.flatMap fun t => t.lines [10]

theorem flatMap_lines (gap : Text) (t : Table) : (t.lines gap).flatMap Line.text = gap ++ Format.tomlTable t.name t.tree := by
  have hclose : Text.ofString "]\n" = Text.ofString "]" ++ [10] := by decide
  have hend : Text.ofString "\n" = [10] := by decide
  have hfield : ∀ f : Field, f.line.text = Format.tomlField f.name f.tree := fun f => by
    rw [Line.text, Field.line, Format.tomlField, hend, List.nil_append]
  rw [Table.lines, List.flatMap_cons, List.flatMap_map, Table.tree, Format.tomlTable, List.flatMap_map, hclose]
  simp only [hfield]
  simp only [Line.text, Table.header, List.append_assoc]

theorem toml_tablesRecord (tables : List Table) :
    Format.toml (tablesRecord tables) = (documentLines tables).flatMap Line.text := by
  cases tables with
  | nil => rfl
  | cons t rest =>
    rw [tablesRecord, Format.toml, List.map_map, List.map_cons, Text.join_cons, documentLines, List.flatMap_append,
      flatMap_lines, List.nil_append, List.flatMap_assoc, List.flatMap_map]
    simp only [flatMap_lines]
    rfl

/-! ## Building -/

def Field.item (f : Field) : Text × Item := (f.name, .value f.value)

def Table.item (t : Table) : Text × Item := (t.name, .table .header (t.fields.map Field.item))

def Table.statements (t : Table) : List Statement :=
  .table [t.name] :: t.fields.map fun f => .assign [f.name] (scalarExpr f.value)

theorem replace_last (before : Items) (old new : Item) (h : name ∉ before.map Prod.fst) :
    Items.replace (before ++ [(name, old)]) name new = before ++ [(name, new)] := by
  have hkeep : before.map (fun x => if x.1 = name then (name, new) else x) = before := by
    refine (List.map_congr_left fun x hx => if_neg ?_).trans (List.map_id before)
    exact fun heq => h (heq ▸ List.mem_map_of_mem hx)
  simp only [Items.replace, List.map_append, hkeep, List.map_cons, if_true, List.map_nil]

theorem names_item (fields : List Field) : (fields.map Field.item).map Prod.fst = fields.map Field.name := by
  rw [List.map_map]
  rfl

theorem not_mem_of_nodup {α β : Type} {f : α → β} {done rest : List α} {a : α}
    (h : ((done ++ a :: rest).map f).Nodup) : f a ∉ done.map f := by
  rw [List.map_append, List.nodup_append] at h
  exact fun hin => h.2.2 _ hin _ List.mem_cons_self rfl

theorem add_field {before : Items} {done : List Field} {f : Field} (hname : name ∉ before.map Prod.fst)
    (hfield : f.name ∉ done.map Field.name) :
    Draft.add ⟨before ++ [(name, .table .header (done.map Field.item))], [name]⟩ (.assign [f.name] (scalarExpr f.value)) =
      some ⟨before ++ [(name, .table .header ((done ++ [f]).map Field.item))], [name]⟩ := by
  have hopen : (before ++ [(name, Item.table .header (done.map Field.item))]).lookup name =
      some (.table .header (done.map Field.item)) := by
    rw [List.lookup_append, lookup_eq_none_of_not_mem hname]
    simp
  have hfree : (done.map Field.item).lookup f.name = none :=
    lookup_eq_none_of_not_mem (by rwa [names_item])
  have hassign : Items.assign (done.map Field.item) f.value [f.name] = some ((done ++ [f]).map Field.item) := by
    simp [Items.assign, hfree, Field.item]
  simp only [Draft.add, value?_scalarExpr f.leaf, Items.within, hopen, hassign, Option.map_some,
    replace_last before _ _ hname]

theorem add_fields {before : Items} {done fields : List Field} (hname : name ∉ before.map Prod.fst)
    (hdistinct : ((done ++ fields).map Field.name).Nodup) :
    (fields.map fun f => Statement.assign [f.name] (scalarExpr f.value)).foldlM Draft.add
        ⟨before ++ [(name, .table .header (done.map Field.item))], [name]⟩ =
      some ⟨before ++ [(name, .table .header ((done ++ fields).map Field.item))], [name]⟩ := by
  induction fields generalizing done with
  | nil => rw [List.append_nil]; rfl
  | cons f fields ih =>
    have hfield : f.name ∉ done.map Field.name := not_mem_of_nodup hdistinct
    have hrest := @ih (done ++ [f]) (by rwa [List.append_assoc, List.singleton_append])
    rw [List.map_cons, List.foldlM_cons, add_field hname hfield]
    rw [List.append_assoc, List.singleton_append] at hrest
    exact hrest

theorem add_table {before : Items} {path : List Text} (t : Table) (hname : t.name ∉ before.map Prod.fst) :
    t.statements.foldlM Draft.add ⟨before, path⟩ = some ⟨before ++ [t.item], [t.name]⟩ := by
  have hopen : Draft.add ⟨before, path⟩ (.table [t.name]) = some ⟨before ++ [(t.name, .table .header [])], [t.name]⟩ := by
    simp [Draft.add, Items.openAt, Items.openTable, lookup_eq_none_of_not_mem hname]
  rw [Table.statements, List.foldlM_cons, hopen]
  exact @add_fields t.name before [] t.fields hname t.distinct

theorem add_tables {before : Items} {path : List Text} {tables : List Table}
    (hdistinct : ((before ++ tables.map Table.item).map Prod.fst).Nodup) :
    ∃ path', (tables.flatMap Table.statements).foldlM Draft.add ⟨before, path⟩ =
      some ⟨before ++ tables.map Table.item, path'⟩ := by
  induction tables generalizing before path with
  | nil => exact ⟨path, by rw [List.map_nil, List.append_nil]; rfl⟩
  | cons t tables ih =>
    have hname : t.name ∉ before.map Prod.fst := not_mem_of_nodup hdistinct
    have hrest := @ih (before ++ [t.item]) [t.name] (by rwa [List.append_assoc, List.singleton_append])
    rw [List.append_assoc, List.singleton_append] at hrest
    obtain ⟨path', hpath⟩ := hrest
    refine ⟨path', ?_⟩
    rw [List.flatMap_cons, List.foldlM_append, add_table t hname]
    exact hpath

theorem membersTree_fields (fields : List Field) :
    membersTree (fields.map Field.item) = fields.map fun f => (f.name, f.value) := by
  induction fields with
  | nil => rw [List.map_nil, membersTree]; rfl
  | cons f fields ih => rw [List.map_cons, Field.item, membersTree, ih, Item.tree]; rfl

theorem membersTree_tables (tables : List Table) :
    membersTree (tables.map Table.item) = tables.map fun t => (t.name, .table t.members) := by
  induction tables with
  | nil => rw [List.map_nil, membersTree]; rfl
  | cons t tables ih => rw [List.map_cons, Table.item, membersTree, ih, Item.tree, membersTree_fields]; rfl

theorem statements_documentLines (tables : List Table) :
    (documentLines tables).map Line.statement = tables.flatMap Table.statements := by
  have hlines : ∀ gap (t : Table), (t.lines gap).map Line.statement = t.statements := fun gap t => by
    rw [Table.lines, List.map_cons, List.map_map]
    rfl
  cases tables with
  | nil => rfl
  | cons t rest =>
    rw [documentLines, List.map_append, hlines, List.map_flatMap, List.flatMap_cons]
    simp only [hlines]

/-- Tables of scalars are read back from the document that they are written as. -/
theorem parse?_toml {tables : List Table} (hdistinct : (tables.map Table.name).Nodup) :
    parse? (Format.toml (tablesRecord tables)) = some (tables.map fun t => (t.name, .table t.members)) := by
  have hlines : ∀ l ∈ documentLines tables, l.Readable .narrow ∧ Clean l.text := by
    intro l hl
    cases tables with
    | nil => cases hl
    | cons t rest =>
      rcases List.mem_append.mp hl with hl | hl
      · exact readable_lines (.inl rfl) t l hl
      · obtain ⟨u, -, hl⟩ := List.mem_flatMap.mp hl
        exact readable_lines (.inr rfl) u l hl
  have hstatements := statements?_lines (fun l hl => (hlines l hl).1) (fun l hl => (hlines l hl).2)
  have hnames : (tables.map Table.item).map Prod.fst = tables.map Table.name := by
    rw [List.map_map]
    rfl
  obtain ⟨path, hbuilt⟩ := @add_tables [] [] tables (by rwa [List.nil_append, hnames])
  rw [parse?, toml_tablesRecord, hstatements, statements_documentLines, Option.bind_some, build?, hbuilt, Option.map_some,
    List.nil_append, membersTree_tables]

end RpcBindings.Toml
