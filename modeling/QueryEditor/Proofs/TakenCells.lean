import Mathlib.Data.List.Nodup
import Mathlib.Data.List.Pairwise
import QueryEditor.Proofs.LayoutCells

/-!
# Cells that go by the name of another column

A bound cell may go by a name that is not the result name of its column.  Where such a layout is
brought in line with columns, a column that no cell shows takes over the cell of its name, whatever
that cell shows.  A column whose cell is taken over before its own turn looks for a cell by name in
turn; one whose cell is taken over after its turn is left without a cell, unless an unbound cell
goes by its name.

* `Cell.Has`, `Cell.Shows` : what a list of cells shows under which name; each of the steps
  has one lemma about it (`Cell.has_ensureNamed`, `Cell.has_bindFree`).
* `Cell.Seeks` : the columns that look for their cell by name; what they do to the cells is
  `Cell.Distinct.has_foldl_ensure`.
* `Cell.Ousted` : the columns that lose their cell; there are none where bound cells go by the
  names of their columns (`Cell.WellNamed.not_ousted`).
* `Layout.count_reconcileColumns` : **every column that is not ousted ends up with one cell, and
  every cell shows a column of the list.**
-/

namespace QueryEditor

namespace Cell

/-- Whether a cell of this name shows this column, or no column at all. -/
def Has (cells : List Cell) (name : String) (column : Option Column) : Prop :=
  ∃ cell ∈ cells, cell.name = name ∧ cell.column = column

/-- Whether a cell shows this column, under any name. -/
def Shows (cells : List Cell) (c : Column) : Prop := ∃ name, Has cells name (some c)

/-- The columns that look for their cell by name: those that no cell shows, and those whose cell
has been taken over by an earlier one of them. -/
inductive Seeks (columns : List Column) (cells : List Cell) : Column → Prop
  | unshown {c : Column} (hc : c ∈ columns) (h : ¬ Shows cells c) : Seeks columns cells c
  | taken {c other : Column} (hother : Seeks columns cells other)
      (hbefore : columns.idxOf other < columns.idxOf c) (hc : c ∈ columns)
      (h : Has cells other.resultName (some c)) : Seeks columns cells c

/-- What a name stands for after the turns of some columns: the one of them that looks for its cell
by this name, and what it stood for before if there is none. -/
def HasAfter (columns : List Column) (cells : List Cell) (done : List Column) (name : String)
    (column : Option Column) : Prop :=
  (∃ d ∈ done, Seeks columns cells d ∧ d.resultName = name ∧ column = some d) ∨
    (∀ d ∈ done, Seeks columns cells d → d.resultName ≠ name) ∧ Has cells name column

/-- A later column that looks for its cell by name takes over the cell of this one. -/
def TakenOver (columns : List Column) (cells : List Cell) (c : Column) : Prop :=
  ∃ other, Seeks columns cells other ∧ columns.idxOf c < columns.idxOf other ∧
    Has cells other.resultName (some c)

/-- The cell of this column is taken over, and each cell that goes by its own name shows a column
of the list. -/
def Ousted (columns : List Column) (cells : List Cell) (c : Column) : Prop :=
  TakenOver columns cells c ∧
    ∀ column, Has cells c.resultName column → ∃ d ∈ columns, column = some d

/-- No two cells share a name, and no two cells show one column. -/
structure Distinct (cells : List Cell) : Prop where
  /-- Names are not repeated. -/
  nodup : (names cells).Nodup
  /-- Columns are not repeated. -/
  nodup_columns : (cells.filterMap (·.column)).Nodup

variable {cells : List Cell} {columns : List Column} {c d : Column} {name name' : String}
  {column : Option Column}

/-! ### What cells show -/

theorem has_append {cells' : List Cell} :
    Has (cells ++ cells') name column ↔ Has cells name column ∨ Has cells' name column := by
  simp only [Has, List.mem_append, or_and_right, exists_or]

theorem has_cons {cell : Cell} :
    Has (cell :: cells) name column ↔
      (cell.name = name ∧ cell.column = column) ∨ Has cells name column := by
  simp only [Has, List.mem_cons, or_and_right, exists_or, exists_eq_left]

theorem has_singleton {cell : Cell} :
    Has [cell] name column ↔ cell.name = name ∧ cell.column = column := by
  simp only [Has, List.mem_singleton, exists_eq_left]

theorem mem_names_of_has (h : Has cells name column) : name ∈ names cells := by
  obtain ⟨cell, hcell, rfl, -⟩ := h
  exact mem_names hcell

theorem shows_iff_mem : Shows cells c ↔ ∃ cell ∈ cells, cell.column = some c := by
  constructor
  · rintro ⟨name, cell, hcell, -, hc⟩
    exact ⟨cell, hcell, hc⟩
  · rintro ⟨cell, hcell, hc⟩
    exact ⟨cell.name, cell, hcell, rfl, hc⟩

theorem mem_columns_iff : c ∈ cells.filterMap (·.column) ↔ Shows cells c := by
  rw [List.mem_filterMap, shows_iff_mem]

/-- Where names are not repeated, columns are not repeated if each is shown under one name. -/
theorem columns_nodup_iff (h : (names cells).Nodup) :
    (cells.filterMap (·.column)).Nodup ↔
      ∀ c name name', Has cells name (some c) → Has cells name' (some c) → name = name' := by
  constructor
  · rintro hpair c _ _ ⟨cell, hcell, rfl, hc⟩ ⟨cell', hcell', rfl, hc'⟩
    by_contra hne
    have : Std.Symm fun cell cell' : Cell =>
        ∀ c, cell.column = some c → ∀ c', cell'.column = some c' → c ≠ c' :=
      ⟨fun _ _ hdiff c hc c' hc' => (hdiff c' hc' c hc).symm⟩
    exact (List.pairwise_filterMap.1 hpair).forall hcell hcell'
      (fun hsame => hne (congrArg _ hsame)) c hc c hc' rfl
  · intro hone
    refine nodup_columns_of_names h fun cell hcell cell' hcell' c hc hc' => ?_
    exact hone c _ _ ⟨cell, hcell, rfl, hc⟩ ⟨cell', hcell', rfl, hc'⟩

theorem Distinct.name_unique (h : Distinct cells) (hname : Has cells name (some c))
    (hname' : Has cells name' (some c)) : name = name' :=
  (columns_nodup_iff h.nodup).1 h.nodup_columns c name name' hname hname'

/-! ### One column -/

/-- Makes the cell of its name the cell of a column, or adds one. -/
def ensureNamed (cells : List Cell) (c : Column) : List Cell :=
  if c.resultName ∈ names cells then cells.map (bindTo c) else cells ++ [hidden c]

theorem ensure_of_shows (h : Shows cells c) : ensure cells c = cells := by
  obtain ⟨cell, hcell, hc⟩ := shows_iff_mem.1 h
  unfold ensure claim?
  cases hb : cells.findIdx? (·.column == some c) with
  | some i => rfl
  | none =>
    have := List.findIdx?_eq_none_iff.1 hb cell hcell
    simp [hc] at this

theorem ensure_of_not_shows (hnames : (names cells).Nodup) (h : ¬ Shows cells c) :
    ensure cells c = ensureNamed cells c := by
  have hb : cells.findIdx? (·.column == some c) = none := by
    refine List.findIdx?_eq_none_iff.2 fun cell hcell => ?_
    simpa using fun hc => h (shows_iff_mem.2 ⟨cell, hcell, hc⟩)
  rw [ensure_eq_getD, claim?_of_unbound hnames hb, ensureNamed]
  split <;> rfl

theorem bindTo_column (c : Column) (cell : Cell) :
    (bindTo c cell).column = if cell.name = c.resultName then some c else cell.column := by
  unfold bindTo
  split <;> rfl

theorem has_map_bindTo :
    Has (cells.map (bindTo d)) name column ↔
      if name = d.resultName then name ∈ names cells ∧ column = some d
      else Has cells name column := by
  constructor
  · rintro ⟨_, hcell, rfl, rfl⟩
    obtain ⟨old, hold, rfl⟩ := List.mem_map.1 hcell
    rw [bindTo_name, bindTo_column]
    split
    · exact ⟨mem_names hold, rfl⟩
    · exact ⟨old, hold, rfl, rfl⟩
  · split
    case isTrue hname =>
      rintro ⟨hmem, rfl⟩
      obtain ⟨old, hold, rfl⟩ := List.mem_map.1 hmem
      exact ⟨_, List.mem_map_of_mem hold, bindTo_name d old, by rw [bindTo_column, if_pos hname]⟩
    case isFalse hname =>
      rintro ⟨old, hold, rfl, rfl⟩
      exact ⟨_, List.mem_map_of_mem hold, bindTo_name d old, by rw [bindTo_column, if_neg hname]⟩

/-- The cell of its name shows the column then, and other names are left alone. -/
theorem has_ensureNamed :
    Has (ensureNamed cells d) name column ↔
      if name = d.resultName then column = some d else Has cells name column := by
  unfold ensureNamed
  by_cases hd : d.resultName ∈ names cells
  · rw [if_pos hd, has_map_bindTo]
    by_cases hname : name = d.resultName
    · rw [if_pos hname, if_pos hname, and_iff_right (hname ▸ hd)]
    · rw [if_neg hname, if_neg hname]
  · rw [if_neg hd, has_append, has_singleton]
    by_cases hname : name = d.resultName
    · have hnot : ¬ Has cells name column := fun h => hd (hname ▸ mem_names_of_has h)
      rw [if_pos hname, or_iff_right hnot]
      exact ⟨fun h => h.2.symm, fun h => ⟨hname.symm, h.symm⟩⟩
    · rw [if_neg hname, or_iff_left fun h => hname h.1.symm]

theorem names_ensureNamed :
    names (ensureNamed cells d) =
      if d.resultName ∈ names cells then names cells else names cells ++ [d.resultName] := by
  unfold ensureNamed
  split
  · exact names_map_bindTo
  · exact names_append _ _

theorem nodup_names_ensureNamed (h : (names cells).Nodup) :
    (names (ensureNamed cells d)).Nodup := by
  rw [names_ensureNamed]
  split
  · exact h
  case isFalse hnew => exact h.append (List.nodup_singleton _) (by simpa using hnew)

theorem nodup_names_foldl_ensure (h : (names cells).Nodup) :
    (names (columns.foldl ensure cells)).Nodup := by
  induction columns generalizing cells with
  | nil => exact h
  | cons c columns ih =>
    refine ih ?_
    by_cases hc : Shows cells c
    · rw [ensure_of_shows hc]
      exact h
    · rw [ensure_of_not_shows h hc]
      exact nodup_names_ensureNamed h

/-! ### The columns that look for their cell by name -/

theorem Seeks.mem (h : Seeks columns cells c) : c ∈ columns := by
  cases h with
  | unshown hc => exact hc
  | taken _ _ hc => exact hc

theorem shows_of_not_seeks (hc : c ∈ columns) (h : ¬ Seeks columns cells c) : Shows cells c := by
  by_contra hunshown
  exact h (.unshown hc hunshown)

/-- The cell of a column that looks for one by name has been taken over. -/
theorem Seeks.taken_of_has (hcells : Distinct cells) (h : Seeks columns cells c)
    (hname : Has cells name (some c)) :
    ∃ other, Seeks columns cells other ∧ columns.idxOf other < columns.idxOf c ∧
      other.resultName = name := by
  cases h with
  | unshown _ hnot => exact absurd ⟨name, hname⟩ hnot
  | taken hother hbefore _ hhas => exact ⟨_, hother, hbefore, hcells.name_unique hhas hname⟩

/-- Only what is shown of the columns counts. -/
theorem Seeks.congr {cells' : List Cell}
    (hsame : ∀ c ∈ columns, ∀ name, Has cells name (some c) ↔ Has cells' name (some c))
    (h : Seeks columns cells c) : Seeks columns cells' c := by
  induction h with
  | unshown hc hnot => exact .unshown hc fun ⟨name, hname⟩ => hnot ⟨name, (hsame _ hc name).2 hname⟩
  | taken _ hbefore hc hhas ih => exact .taken ih hbefore hc ((hsame _ hc _).1 hhas)

theorem idxOf_lt_iff_mem {done rest : List Column} (hc : c ∉ done) :
    (done ++ c :: rest).idxOf d < (done ++ c :: rest).idxOf c ↔ d ∈ done := by
  have hturn : (done ++ c :: rest).idxOf c = done.length := by
    rw [List.idxOf_append_of_notMem hc, List.idxOf_cons_self, Nat.add_zero]
  rw [hturn]
  by_cases hd : d ∈ done
  · rw [List.idxOf_append_of_mem hd]
    exact iff_of_true (List.idxOf_lt_length_of_mem hd) hd
  · rw [List.idxOf_append_of_notMem hd]
    exact iff_of_false (by omega) hd

/-! ### One turn after the other -/

theorem hasAfter_nil : HasAfter columns cells [] name column ↔ Has cells name column := by
  simp [HasAfter]

/-- A column whose cell is there at its turn leaves everything as it is. -/
theorem hasAfter_concat_of_not_seeks {done : List Column} (h : ¬ Seeks columns cells c) :
    HasAfter columns cells (done ++ [c]) name column ↔ HasAfter columns cells done name column := by
  simp only [HasAfter, List.mem_append, List.mem_singleton, or_imp, forall_and, forall_eq,
    or_and_right, exists_or, exists_eq_left, h, false_and, or_false, false_imp_iff, and_true]

/-- A column that looks for its cell by name gets the cell of its name. -/
theorem hasAfter_concat_of_seeks (hcolumns : (columns.map (·.resultName)).Nodup)
    {done : List Column} (h : Seeks columns cells c) :
    HasAfter columns cells (done ++ [c]) name column ↔
      if name = c.resultName then column = some c
      else HasAfter columns cells done name column := by
  by_cases hname : name = c.resultName
  · subst hname
    rw [if_pos rfl]
    constructor
    · rintro (⟨d, -, hseek, hd, rfl⟩ | ⟨hnone, -⟩)
      · rw [List.inj_on_of_nodup_map hcolumns hseek.mem h.mem hd]
      · exact absurd rfl (hnone c (by simp) h)
    · rintro rfl
      exact .inl ⟨c, by simp, h, rfl, rfl⟩
  · rw [if_neg hname]
    simp only [HasAfter, List.mem_append, List.mem_singleton, or_imp, forall_and, forall_eq,
      or_and_right, exists_or, exists_eq_left, h, true_and, Ne.symm hname, false_and, or_false,
      ne_eq, not_false_eq_true, forall_const, and_true]

/-- At its turn a column looks for a cell by name just where no cell shows it. -/
theorem Distinct.hasAfter_iff_not_seeks (hcells : Distinct cells) (hcolumns : columns.Nodup)
    {done rest : List Column} (hsplit : columns = done ++ c :: rest) :
    (∃ name, HasAfter columns cells done name (some c)) ↔ ¬ Seeks columns cells c := by
  have hc : c ∉ done := by
    subst hsplit
    exact fun hmem => (List.disjoint_of_nodup_append hcolumns) hmem List.mem_cons_self
  have hbefore : ∀ d, columns.idxOf d < columns.idxOf c ↔ d ∈ done := by
    subst hsplit
    exact fun d => idxOf_lt_iff_mem hc
  constructor
  · rintro ⟨name, ⟨d, hd, -, -, hcd⟩ | ⟨hnone, hhas⟩⟩ hseek
    · cases hcd
      exact hc hd
    · obtain ⟨other, hother, hlt, hname⟩ := hseek.taken_of_has hcells hhas
      exact hnone other ((hbefore other).1 hlt) hother hname
  · intro hnot
    have hmem : c ∈ columns := by simp [hsplit]
    obtain ⟨name, hname⟩ := shows_of_not_seeks hmem hnot
    refine ⟨name, .inr ⟨?_, hname⟩⟩
    rintro other hother hseek rfl
    exact hnot (.taken hseek ((hbefore other).2 hother) hmem hname)

/-- What the turns of the first columns leave. -/
theorem Distinct.has_foldl_ensure_of_split (hcells : Distinct cells)
    (hcolumns : (columns.map (·.resultName)).Nodup) {done rest : List Column}
    (hsplit : columns = done ++ rest) :
    Has (done.foldl ensure cells) name column ↔ HasAfter columns cells done name column := by
  -- on the columns whose turn is over: the cells at the start settle which of them look by name
  induction done using List.reverseRecOn generalizing rest name column with
  | nil => exact hasAfter_nil.symm
  | append_singleton done c ih =>
    have hturn : columns = done ++ c :: rest := by simpa using hsplit
    have hshows : Shows (done.foldl ensure cells) c ↔ ¬ Seeks columns cells c := by
      rw [← hcells.hasAfter_iff_not_seeks hcolumns.of_map hturn]
      exact exists_congr fun name => ih hturn
    rw [List.foldl_concat]
    by_cases hseek : Seeks columns cells c
    · rw [ensure_of_not_shows (nodup_names_foldl_ensure hcells.nodup)
          fun h => hshows.1 h hseek,
        has_ensureNamed, hasAfter_concat_of_seeks hcolumns hseek, ih hturn]
    · rw [ensure_of_shows (hshows.2 hseek), hasAfter_concat_of_not_seeks hseek, ih hturn]

/-- **What the turns of all columns leave**: a name stands for its column if this one looks for a
cell by name, and for what it stood for before if not. -/
theorem Distinct.has_foldl_ensure (hcells : Distinct cells)
    (hcolumns : (columns.map (·.resultName)).Nodup) :
    Has (columns.foldl ensure cells) name column ↔ HasAfter columns cells columns name column :=
  hcells.has_foldl_ensure_of_split hcolumns (List.append_nil columns).symm

/-! ### Columns that are gone -/

theorem has_unbindStale_some :
    Has (unbindStale columns cells) name (some c) ↔ c ∈ columns ∧ Has cells name (some c) := by
  rw [unbindStale_eq_map]
  constructor
  · rintro ⟨_, hcell, rfl, hc⟩
    obtain ⟨old, hold, rfl⟩ := List.mem_map.1 hcell
    obtain ⟨hcol, hmem⟩ := unbound_column_eq_some.1 hc
    exact ⟨hmem, old, hold, (unbound_name columns old).symm, hcol⟩
  · rintro ⟨hmem, old, hold, rfl, hcol⟩
    exact ⟨_, List.mem_map_of_mem hold, unbound_name columns old,
      unbound_column_eq_some.2 ⟨hcol, hmem⟩⟩

theorem has_unbindStale_none :
    Has (unbindStale columns cells) name none ↔
      ∃ column, Has cells name column ∧ ∀ d ∈ columns, column ≠ some d := by
  have hnone (old : Cell) :
      (unbound columns old).column = none ↔ ∀ d ∈ columns, old.column ≠ some d := by
    simp only [Option.eq_none_iff_forall_ne_some, ne_eq, unbound_column_eq_some]
    grind
  rw [unbindStale_eq_map]
  constructor
  · rintro ⟨_, hcell, rfl, hfree⟩
    obtain ⟨old, hold, rfl⟩ := List.mem_map.1 hcell
    exact ⟨_, ⟨old, hold, (unbound_name columns old).symm, rfl⟩, (hnone old).1 hfree⟩
  · rintro ⟨_, ⟨old, hold, rfl, rfl⟩, hfree⟩
    exact ⟨_, List.mem_map_of_mem hold, unbound_name columns old, (hnone old).2 hfree⟩

theorem Distinct.unbindStale (h : Distinct cells) : Distinct (unbindStale columns cells) := by
  have hnames : (names (Cell.unbindStale columns cells)).Nodup := by
    rw [unbindStale_eq_map, names_map (unbound_name columns)]
    exact h.nodup
  refine ⟨hnames, (columns_nodup_iff hnames).2 fun c name name' hname hname' => ?_⟩
  exact h.name_unique (has_unbindStale_some.1 hname).2 (has_unbindStale_some.1 hname').2

theorem seeks_unbindStale :
    Seeks columns (unbindStale columns cells) c ↔ Seeks columns cells c := by
  have hsame : ∀ c ∈ columns, ∀ name,
      Has (unbindStale columns cells) name (some c) ↔ Has cells name (some c) :=
    fun c hc name => has_unbindStale_some.trans (and_iff_right hc)
  exact ⟨.congr hsame, .congr fun c hc name => (hsame c hc name).symm⟩

/-! ### Cells without a column -/

/-- The free column of a name. -/
theorem freeColumn?_eq_some_iff (hcolumns : (columns.map (·.resultName)).Nodup) :
    freeColumn? columns cells name = some c ↔
      c ∈ columns ∧ c.resultName = name ∧ ¬ Shows cells c := by
  have hfree (d : Column) :
      (d.resultName == name && !cells.any (·.column == some d)) = true ↔
        d.resultName = name ∧ ¬ Shows cells d := by
    rw [shows_iff_mem]
    simp
  unfold freeColumn?
  constructor
  · intro h
    have hc := List.find?_some h
    exact ⟨List.mem_of_find?_eq_some h, (hfree c).1 hc⟩
  · rintro ⟨hc, hname, hnot⟩
    cases hd : columns.find? (fun c => c.resultName == name && !cells.any (·.column == some c)) with
    | some d =>
      have hfound := List.find?_some hd
      obtain ⟨hdname, -⟩ := (hfree d).1 hfound
      have hmem : d ∈ columns := List.mem_of_find?_eq_some hd
      rw [List.inj_on_of_nodup_map hcolumns hmem hc (hdname.trans hname.symm)]
    | none => exact absurd ((hfree c).2 ⟨hname, hnot⟩) (List.find?_eq_none.1 hd c hc)

theorem names_bindFree {before : List Cell} :
    names (bindFree columns before cells) = names before ++ names cells := by
  induction cells generalizing before with
  | nil => simp [bindFree, names]
  | cons cell cells ih =>
    unfold bindFree
    split
    · rw [ih]
      simp [names]
    · rw [ih]
      simp [names]

section Bound

variable {before : List Cell} {cell : Cell}

/-- Binding a cell without a column shows this column more, under the name of the cell. -/
theorem has_bound (hnone : cell.column = none) (free : Option Column) :
    Has (before ++ { cell with column := free } :: cells) name (some c) ↔
      Has (before ++ cell :: cells) name (some c) ∨ (cell.name = name ∧ free = some c) := by
  simp only [has_append, has_cons, hnone, reduceCtorEq, and_false, false_or]
  tauto

/-- The column that a cell is bound to is no longer free. -/
theorem freeColumn?_bound (hcolumns : (columns.map (·.resultName)).Nodup)
    (hnone : cell.column = none) (free : Option Column) :
    freeColumn? columns (before ++ { cell with column := free } :: cells) name = some c ↔
      freeColumn? columns (before ++ cell :: cells) name = some c ∧ free ≠ some c := by
  have hshows : Shows (before ++ { cell with column := free } :: cells) c ↔
      Shows (before ++ cell :: cells) c ∨ free = some c := by
    refine (exists_congr fun name => has_bound hnone free).trans ?_
    rw [exists_or, exists_and_right, and_iff_right ⟨cell.name, rfl⟩, Shows]
  rw [freeColumn?_eq_some_iff hcolumns, freeColumn?_eq_some_iff hcolumns, hshows]
  tauto

end Bound

/-- **Each cell without a column takes the free column of its name.** -/
theorem has_bindFree (hcolumns : (columns.map (·.resultName)).Nodup) {before : List Cell} :
    Has (bindFree columns before cells) name (some c) ↔
      Has (before ++ cells) name (some c) ∨
        (Has cells name none ∧ freeColumn? columns (before ++ cells) name = some c) := by
  induction cells generalizing before with
  | nil => simp [bindFree, Has]
  | cons cell cells ih =>
    unfold bindFree
    split
    case isTrue hbound =>
      have hrest : Has (cell :: cells) name none ↔ Has cells name none := by
        rw [has_cons, or_iff_right]
        rintro ⟨-, hnone⟩
        simp [isBound, hnone] at hbound
      rw [ih, hrest, List.append_assoc, List.singleton_append]
    case isFalse hunbound =>
      have hnone : cell.column = none := by simpa [isBound] using hunbound
      -- this cell takes its column from the cells of its name only
      generalize hfree : freeColumn? columns (before ++ cell :: cells) cell.name = free
      rw [ih, List.append_assoc, List.singleton_append, has_bound hnone free,
        freeColumn?_bound hcolumns hnone free, has_cons, and_iff_left hnone]
      by_cases hcell : free = some c
      · have hname : freeColumn? columns (before ++ cell :: cells) name = some c ↔
            cell.name = name := by
          rw [hcell] at hfree
          refine ⟨fun hname => ?_, fun hname => hname ▸ hfree⟩
          rw [← ((freeColumn?_eq_some_iff hcolumns).1 hfree).2.1,
            ((freeColumn?_eq_some_iff hcolumns).1 hname).2.1]
        simp only [hcell, hname, and_true, ne_eq, not_true_eq_false, and_false, or_false]
        rw [and_iff_right_of_imp Or.inl]
      · have hname : ¬ (cell.name = name ∧
            freeColumn? columns (before ++ cell :: cells) name = some c) := by
          rintro ⟨rfl, hname⟩
          exact hcell (hfree.symm.trans hname)
        simp only [hcell, and_false, or_false, ne_eq, not_false_eq_true, and_true]
        rw [or_and_right, or_iff_right hname]

theorem shows_bindFree (hcolumns : (columns.map (·.resultName)).Nodup) :
    Shows (bindFree columns [] cells) c ↔
      Shows cells c ∨ (c ∈ columns ∧ Has cells c.resultName none) := by
  simp only [Shows, has_bindFree hcolumns, List.nil_append, exists_or,
    freeColumn?_eq_some_iff hcolumns]
  grind [Shows]

/-! ### No column has two cells -/

theorem Distinct.foldl_ensure (h : Distinct cells)
    (hcolumns : (columns.map (·.resultName)).Nodup) :
    Distinct (columns.foldl Cell.ensure cells) := by
  have hnames : (Cell.names (columns.foldl Cell.ensure cells)).Nodup :=
    nodup_names_foldl_ensure h.nodup
  refine ⟨hnames, (columns_nodup_iff hnames).2 fun c name name' hname hname' => ?_⟩
  rw [h.has_foldl_ensure hcolumns] at hname hname'
  have hnot {name : String} (hseek : Seeks columns cells c)
      (hnone : ∀ d ∈ columns, Seeks columns cells d → d.resultName ≠ name) :
      ¬ Has cells name (some c) := by
    intro hhas
    obtain ⟨other, hother, -, hname⟩ := hseek.taken_of_has h hhas
    exact hnone other hother.mem hother hname
  obtain ⟨_, -, hseek, hc, ⟨⟩⟩ | ⟨hnone, hhas⟩ := hname <;>
    obtain ⟨_, -, hseek', hc', ⟨⟩⟩ | ⟨hnone', hhas'⟩ := hname'
  · exact hc.symm.trans hc'
  · exact absurd hhas' (hnot hseek hnone')
  · exact absurd hhas (hnot hseek' hnone)
  · exact h.name_unique hhas hhas'

theorem Distinct.bindFree (h : Distinct cells) (hcolumns : (columns.map (·.resultName)).Nodup) :
    Distinct (bindFree columns [] cells) := by
  have hnames : (Cell.names (Cell.bindFree columns [] cells)).Nodup := by
    rw [names_bindFree]
    exact h.nodup
  refine ⟨hnames, (columns_nodup_iff hnames).2 fun c name name' hname hname' => ?_⟩
  simp only [has_bindFree hcolumns, List.nil_append, freeColumn?_eq_some_iff hcolumns]
    at hname hname'
  obtain hhas | ⟨-, -, hc, hnot⟩ := hname <;> obtain hhas' | ⟨-, -, hc', hnot'⟩ := hname'
  · exact h.name_unique hhas hhas'
  · exact absurd ⟨name, hhas⟩ hnot'
  · exact absurd ⟨name', hhas'⟩ hnot
  · exact hc.symm.trans hc'

theorem Distinct.filter (h : Distinct cells) (p : Cell → Bool) : Distinct (cells.filter p) where
  nodup := h.nodup.sublist (List.filter_sublist.map _)
  nodup_columns := h.nodup_columns.sublist (List.filter_sublist.filterMap _)

/-- **Bringing cells in line with columns gives no column two cells.** -/
theorem Distinct.reconcileColumns (h : Distinct cells)
    (hcolumns : (columns.map (·.resultName)).Nodup) :
    Distinct (reconcileColumns columns cells) :=
  ((h.unbindStale.foldl_ensure hcolumns).bindFree hcolumns).filter _

/-! ### Which columns have a cell -/

theorem shows_filter_isBound : Shows (cells.filter (·.isBound)) c ↔ Shows cells c := by
  simp only [shows_iff_mem, List.mem_filter]
  refine exists_congr fun cell => and_congr_left fun hc => and_iff_left ?_
  simp [isBound, hc]

/-- A column of the list has a cell after all turns unless its cell is taken over after its own. -/
theorem Distinct.shows_foldl_ensure (h : Distinct cells)
    (hcolumns : (columns.map (·.resultName)).Nodup) (hc : c ∈ columns) :
    Shows (columns.foldl Cell.ensure cells) c ↔ ¬ TakenOver columns cells c := by
  simp only [Shows, h.has_foldl_ensure hcolumns]
  constructor
  · rintro ⟨name, ⟨_, -, hseek, -, ⟨⟩⟩ | ⟨hnone, hhas⟩⟩ ⟨other, hother, hafter, htaken⟩
    · obtain ⟨first, hfirst, hbefore, hname⟩ := hseek.taken_of_has h htaken
      obtain rfl := List.inj_on_of_nodup_map hcolumns hfirst.mem hother.mem hname
      omega
    · exact hnone other hother.mem hother (h.name_unique htaken hhas)
  · intro hkept
    by_cases hseek : Seeks columns cells c
    · exact ⟨c.resultName, .inl ⟨c, hc, hseek, rfl, rfl⟩⟩
    · obtain ⟨name, hhas⟩ := shows_of_not_seeks hc hseek
      refine ⟨name, .inr ⟨?_, hhas⟩⟩
      rintro other hother hother' rfl
      obtain hlt | heq | hgt := Nat.lt_trichotomy (columns.idxOf other) (columns.idxOf c)
      · exact hseek (.taken hother' hlt hc hhas)
      · exact hseek ((List.idxOf_inj hother).1 heq ▸ hother')
      · exact hkept ⟨other, hother', hgt, hhas⟩

/-- A cell without a column is left without one by all turns if it goes by the name of a column
whose cell is taken over after its own turn. -/
theorem Distinct.has_none_foldl_ensure (h : Distinct cells)
    (hcolumns : (columns.map (·.resultName)).Nodup) (hc : c ∈ columns)
    (htaken : TakenOver columns cells c) :
    Has (columns.foldl Cell.ensure cells) c.resultName none ↔ Has cells c.resultName none := by
  have hkept : ¬ Seeks columns cells c := by
    intro hseek
    refine (h.shows_foldl_ensure hcolumns hc).1 ⟨c.resultName, ?_⟩ htaken
    exact (h.has_foldl_ensure hcolumns).2 (.inl ⟨c, hc, hseek, rfl, rfl⟩)
  rw [h.has_foldl_ensure hcolumns]
  constructor
  · rintro (⟨_, -, -, -, ⟨⟩⟩ | ⟨-, hhas⟩)
    exact hhas
  · refine fun hhas => .inr ⟨fun d hd hseek hname => hkept ?_, hhas⟩
    rwa [← List.inj_on_of_nodup_map hcolumns hd hc hname]

theorem takenOver_unbindStale (hc : c ∈ columns) :
    TakenOver columns (unbindStale columns cells) c ↔ TakenOver columns cells c := by
  simp only [TakenOver, seeks_unbindStale, has_unbindStale_some, hc, true_and]

theorem ousted_iff (hc : c ∈ columns) :
    Ousted columns cells c ↔
      TakenOver columns (unbindStale columns cells) c ∧
        ¬ Has (unbindStale columns cells) c.resultName none := by
  rw [Ousted, takenOver_unbindStale hc, has_unbindStale_none]
  simp only [not_exists, not_and, not_forall, not_not, exists_prop]

/-- A column that is shown after all turns is in the list. -/
theorem Distinct.mem_of_shows_foldl_ensure (h : Distinct cells)
    (hcolumns : (columns.map (·.resultName)).Nodup)
    (hshows : Shows (columns.foldl Cell.ensure (Cell.unbindStale columns cells)) c) :
    c ∈ columns := by
  obtain ⟨name, hhas⟩ := hshows
  rw [h.unbindStale.has_foldl_ensure hcolumns] at hhas
  obtain ⟨_, hc, -, -, ⟨⟩⟩ | ⟨-, hold⟩ := hhas
  · exact hc
  · exact (has_unbindStale_some.1 hold).1

/-- **The columns that are shown after all are those of the list that are not ousted.** -/
theorem Distinct.shows_reconcileColumns (h : Distinct cells)
    (hcolumns : (columns.map (·.resultName)).Nodup) :
    Shows (Cell.reconcileColumns columns cells) c ↔ c ∈ columns ∧ ¬ Ousted columns cells c := by
  rw [Cell.reconcileColumns, shows_filter_isBound, shows_bindFree hcolumns]
  by_cases hc : c ∈ columns
  · rw [ousted_iff hc, h.unbindStale.shows_foldl_ensure hcolumns hc]
    by_cases htaken : TakenOver columns (Cell.unbindStale columns cells) c
    · rw [h.unbindStale.has_none_foldl_ensure hcolumns hc htaken]
      simp [htaken, hc]
    · simp [htaken, hc]
  · simp only [hc, false_and, or_false, iff_false]
    exact fun hshows => hc (h.mem_of_shows_foldl_ensure hcolumns hshows)

/-- A column is not ousted if its cell goes by no other column's name. -/
theorem not_ousted_of_name (h : ∀ d ∈ columns, Has cells d.resultName (some c) → d = c) :
    ¬ Ousted columns cells c := by
  rintro ⟨⟨other, hother, hafter, htaken⟩, -⟩
  obtain rfl := h other hother.mem htaken
  omega

/-- Where bound cells go by the names of their columns, no column is ousted. -/
theorem WellNamed.not_ousted (h : WellNamed cells) (hcolumns : (columns.map (·.resultName)).Nodup)
    (hc : c ∈ columns) : ¬ Ousted columns cells c := by
  refine not_ousted_of_name ?_
  rintro d hd ⟨cell, hcell, hname, hcol⟩
  exact List.inj_on_of_nodup_map hcolumns hd hc (hname.symm.trans (h.named cell hcell c hcol))

end Cell

namespace Layout

/-- **Every column of the list that is not ousted ends up with one cell, and every cell shows a
column of the list**, where no two cells share a name or a column and no two columns share a
result name.  No column ends up with two cells, so one that is ousted ends up with none. -/
theorem count_reconcileColumns (l : Layout) (columns : List Column)
    (hnames : (l.cells.map (·.name)).Nodup) (hcells : (l.cells.filterMap (·.column)).Nodup)
    (hcolumns : (columns.map (·.resultName)).Nodup) :
    (∀ c ∈ columns,
        ((l.reconcileColumns columns).cells.filterMap (·.column)).count c = 1 ↔
          ¬ Cell.Ousted columns l.cells c) ∧
      ((l.reconcileColumns columns).cells.filterMap (·.column)).Nodup ∧
      ∀ cell ∈ (l.reconcileColumns columns).cells, ∃ c ∈ columns, cell.column = some c := by
  have h : Cell.Distinct l.cells := ⟨hnames, hcells⟩
  have hone : ((l.reconcileColumns columns).cells.filterMap (·.column)).Nodup :=
    (h.reconcileColumns hcolumns).nodup_columns
  have hshows (c : Column) :
      c ∈ (l.reconcileColumns columns).cells.filterMap (·.column) ↔
        c ∈ columns ∧ ¬ Cell.Ousted columns l.cells c :=
    Cell.mem_columns_iff.trans (h.shows_reconcileColumns hcolumns)
  refine ⟨fun c hc => ?_, hone, fun cell hcell => ?_⟩
  case refine_1 =>
    have hmem := (hshows c).trans (and_iff_right hc)
    rw [← hmem]
    exact ⟨fun hcount => List.count_pos_iff.1 (by omega), List.count_eq_one_of_mem hone⟩
  case refine_2 =>
    have hbound : cell.column.isSome = true := (List.mem_filter.1 hcell).2
    obtain ⟨c, hc⟩ := Option.isSome_iff_exists.1 hbound
    exact ⟨c, ((hshows c).1 (List.mem_filterMap.2 ⟨cell, hcell, hc⟩)).1, hc⟩

/-- Every cell here goes by the name of another column: `name` takes over the cell of `city`, which
takes over the cell of `phone`, which gets a new one; `mail` takes over the cell of `fax` after
its turn, but an unbound cell goes by that name. -/
theorem count_reconcileColumns_of_takenOver :
    let column (name : String) : Column := { name }
    let l : Layout :=
      { entityName := "account", entity := none,
        cells := [⟨"name", 100, some (column "city")⟩, ⟨"city", 80, some (column "phone")⟩,
          ⟨"mail", 60, some (column "fax")⟩, ⟨"fax", 40, none⟩, ⟨"x", 20, some (column "old")⟩] }
    let columns := ["fax", "name", "city", "phone", "mail"].map column
    (l.cells.map (·.name)).Nodup ∧ (l.cells.filterMap (·.column)).Nodup ∧
      (columns.map (·.resultName)).Nodup ∧
      (l.reconcileColumns columns).cells =
        [⟨"name", 100, some (column "name")⟩, ⟨"city", 80, some (column "city")⟩,
          ⟨"mail", 60, some (column "mail")⟩, ⟨"fax", 40, some (column "fax")⟩,
          ⟨"phone", 0, some (column "phone")⟩] ∧
      (∀ c ∈ columns, ¬ Cell.Ousted columns l.cells c) ∧
      ∀ cell ∈ (l.reconcileColumns columns).cells, ∃ c ∈ columns, cell.column = some c := by
  intro column l columns
  have hnames : (l.cells.map (·.name)).Nodup := by decide +kernel
  have hcells : (l.cells.filterMap (·.column)).Nodup := by decide +kernel
  have hcolumns : (columns.map (·.resultName)).Nodup := by decide +kernel
  obtain ⟨hcount, -, hlisted⟩ := l.count_reconcileColumns columns hnames hcells hcolumns
  refine ⟨hnames, hcells, hcolumns, by decide +kernel, fun c hc => (hcount c hc).1 ?_, hlisted⟩
  revert c
  decide +kernel

/-- A column whose cell goes by the name of a later one is left without a cell. -/
theorem reconcileColumns_loses_column :
    let first : Column := { name := "a" }
    let later : Column := { name := "b" }
    let l : Layout :=
      { entityName := "account", entity := none, cells := [⟨"b", 100, some first⟩] }
    (l.cells.map (·.name)).Nodup ∧ (l.cells.filterMap (·.column)).Nodup ∧
      ([first, later].map (·.resultName)).Nodup ∧
      (l.reconcileColumns [first, later]).cells = [⟨"b", 100, some later⟩] ∧
      ((l.reconcileColumns [first, later]).cells.filterMap (·.column)).count first = 0 := by
  decide +kernel

end Layout

end QueryEditor
