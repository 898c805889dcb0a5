import Mathlib.Data.List.Induction
import Mathlib.Data.List.Nodup
import QueryEditor.Layout.Reconcile

/-!
# Names and columns of cells

In a well-named list of cells no two cells share a name, and a bound cell goes by the result
name of its column.  On such lists the four places that create or bind cells do the same thing:
the cell that has a column's name becomes the cell of that column.

* `Cell.WellNamed` : the invariant; a column has one cell at most
  (`Cell.WellNamed.columns_nodup`).
* `Cell.WellNamed.ensure_eq` : finding or adding a cell for one column.
* `Cell.WellNamed.foldl_ensure_eq` : the same for a list of columns; of several columns with one
  name the last one keeps the cell.
* `Cell.WellNamed.reconcileColumns_eq` : **what bringing cells in line with columns leaves.**
* `Cell.moveToFront_perm` : ordering cells loses none of them.
-/

namespace QueryEditor

namespace Cell

/-- The names of cells in order. -/
def names (cells : List Cell) : List String := cells.map (·.name)

/-- No two cells share a name, and a bound cell goes by the result name of its column. -/
structure WellNamed (cells : List Cell) : Prop where
  /-- Names are not repeated. -/
  nodup : (names cells).Nodup
  /-- A bound cell is named for its column. -/
  named : ∀ cell ∈ cells, ∀ c, cell.column = some c → cell.name = c.resultName

/-- Binds a cell to a column if it has its name. -/
def bindTo (c : Column) (cell : Cell) : Cell :=
  if cell.name = c.resultName then { cell with column := some c } else cell

/-- The last column of a list that goes by a name. -/
def lastNamed? (columns : List Column) (name : String) : Option Column :=
  columns.reverse.find? (·.resultName == name)

/-- The names of columns that are not among the old ones, each where it comes first. -/
def newNames (columns : List Column) (old : List String) : List String :=
  ((columns.map (·.resultName)).filter (!old.contains ·)).eraseDups

/-- A hidden cell for the last column of a name. -/
def fresh (columns : List Column) (name : String) : Cell := ⟨name, 0, lastNamed? columns name⟩

/-- A cell bound to the last column of its name, and to none if there is none. -/
def shown (columns : List Column) (cell : Cell) : Cell :=
  { cell with column := lastNamed? columns cell.name }

variable {cells : List Cell} {columns : List Column} {c : Column} {name : String}

/-! ### The first of each name -/

section FirstOfName

variable {α : Type} (name : α → String)

/-- Adds an item unless there is one of its name. -/
def keepFirst (kept : List α) (a : α) : List α :=
  if kept.any (name · == name a) then kept else kept ++ [a]

/-- The first item of each name. -/
def firstOfEach (as : List α) : List α := as.eraseDupsBy fun a a' => name a == name a'

variable {name}

theorem any_name_iff {as : List α} {a : α} :
    as.any (name · == name a) = true ↔ name a ∈ as.map name := by
  simp [List.any_eq_true, List.mem_map]

/-- **Where items are added one by one, the first one of each new name stays.** -/
theorem foldl_keepFirst (kept as : List α) :
    as.foldl (keepFirst name) kept =
      kept ++ firstOfEach name (as.filter fun a => !kept.any (name · == name a)) := by
  induction as generalizing kept with
  | nil => simp [firstOfEach]
  | cons a as ih =>
    rw [List.foldl_cons, ih, keepFirst]
    cases ha : kept.any (name · == name a) with
    | true => rw [if_pos rfl, List.filter_cons_of_neg (by rw [ha]; decide)]
    | false =>
      have hfilter : (as.filter fun a' => !(kept ++ [a]).any (name · == name a')) =
          (as.filter fun a' => !kept.any (name · == name a')).filter
            fun a' => decide ((name a' == name a) = false) := by
        rw [List.filter_filter]
        refine List.filter_congr fun a' _ => ?_
        rw [List.any_append, Bool.not_or, Bool.and_comm]
        congr 1
        by_cases h : name a' = name a
        · simp [h]
        · simp [h, Ne.symm h]
      rw [if_neg (by decide), List.filter_cons_of_pos (by rw [ha]; rfl), firstOfEach, firstOfEach,
        List.eraseDupsBy_cons, hfilter, List.append_assoc, List.singleton_append]

theorem foldl_keepFirst_nil (as : List α) :
    as.foldl (keepFirst name) [] = firstOfEach name as := by
  have hall : (as.filter fun a => !([] : List α).any (name · == name a)) = as :=
    List.filter_eq_self.2 fun _ _ => rfl
  rw [foldl_keepFirst, hall, List.nil_append]

theorem firstOfEach_of_nodup {as : List α} (h : (as.map name).Nodup) :
    firstOfEach name as = as := by
  unfold firstOfEach
  induction as with
  | nil => rfl
  | cons a as ih =>
    obtain ⟨hnew, hrest⟩ := List.nodup_cons.1 h
    have hkept : (as.filter fun a' => decide ((name a' == name a) = false)) = as := by
      refine List.filter_eq_self.2 fun a' ha' => ?_
      have hne : name a' ≠ name a := fun heq => hnew (heq ▸ List.mem_map_of_mem ha')
      simpa using hne
    rw [List.eraseDupsBy_cons, hkept, ih hrest]

theorem nodup_keepFirst {kept : List α} (h : (kept.map name).Nodup) (a : α) :
    ((keepFirst name kept a).map name).Nodup := by
  unfold keepFirst
  split
  · exact h
  case isFalse hnew =>
    rw [any_name_iff] at hnew
    rw [List.map_append, List.nodup_append]
    refine ⟨h, List.nodup_singleton _, fun old hold new hnew' => ?_⟩
    obtain rfl := List.mem_singleton.1 hnew'
    rintro rfl
    exact hnew hold

theorem nodup_firstOfEach (as : List α) : ((firstOfEach name as).map name).Nodup := by
  suffices h : ∀ kept : List α, (kept.map name).Nodup →
      ((as.foldl (keepFirst name) kept).map name).Nodup by
    rw [← foldl_keepFirst_nil]
    exact h [] List.nodup_nil
  induction as with
  | nil => exact fun kept h => h
  | cons a as ih => exact fun kept h => ih _ (nodup_keepFirst h a)

end FirstOfName

/-! ### Names -/

@[simp] theorem names_append (cells cells' : List Cell) :
    names (cells ++ cells') = names cells ++ names cells' := List.map_append

theorem names_map {f : Cell → Cell} (h : ∀ cell, (f cell).name = cell.name) :
    names (cells.map f) = names cells := by
  simp [names, h]

theorem mem_names {cell : Cell} (h : cell ∈ cells) : cell.name ∈ names cells :=
  List.mem_map_of_mem h

@[simp] theorem bindTo_name (c : Column) (cell : Cell) : (bindTo c cell).name = cell.name := by
  unfold bindTo
  split <;> rfl

@[simp] theorem names_map_bindTo : names (cells.map (bindTo c)) = names cells :=
  names_map (bindTo_name c)

theorem mem_newNames {old : List String} :
    name ∈ newNames columns old ↔ name ∈ columns.map (·.resultName) ∧ name ∉ old := by
  simp [newNames, List.mem_eraseDups]

/-! ### The last column of a name -/

theorem resultName_of_lastNamed? (h : lastNamed? columns name = some c) :
    c.resultName = name := by
  simpa using List.find?_some h

theorem mem_of_lastNamed? (h : lastNamed? columns name = some c) : c ∈ columns :=
  List.mem_reverse.1 (List.mem_of_find?_eq_some h)

theorem lastNamed?_isSome :
    (lastNamed? columns name).isSome = true ↔ name ∈ columns.map (·.resultName) := by
  simp [lastNamed?, List.find?_isSome]

theorem lastNamed?_concat (columns : List Column) (c : Column) (name : String) :
    lastNamed? (columns ++ [c]) name =
      if name = c.resultName then some c else lastNamed? columns name := by
  by_cases h : name = c.resultName
  · simp [lastNamed?, h]
  · simp [lastNamed?, h, Ne.symm h]

/-! ### One column -/

theorem map_eq_self {f : Cell → Cell} (h : ∀ cell ∈ cells, f cell = cell) :
    cells.map f = cells := by
  rw [List.map_congr_left h, List.map_id']

theorem map_bindTo_of_not_mem (h : c.resultName ∉ names cells) :
    cells.map (bindTo c) = cells := by
  refine map_eq_self fun cell hcell => if_neg fun hname => h ?_
  exact hname ▸ mem_names hcell

/-- Where names are not repeated, changing the first cell of a name changes every such cell. -/
theorem modify_findIdx? {i : Nat} (h : (names cells).Nodup)
    (hi : cells.findIdx? (·.name == c.resultName) = some i) :
    (cells.modify i fun cell => { cell with column := some c }) = cells.map (bindTo c) := by
  induction cells generalizing i with
  | nil => cases hi
  | cons cell cells ih =>
    obtain ⟨hnew, hrest⟩ := List.nodup_cons.1 h
    rw [List.findIdx?_cons] at hi
    by_cases hc : cell.name = c.resultName
    · rw [if_pos (by simpa using hc)] at hi
      cases hi
      have htail : cells.map (bindTo c) = cells := map_bindTo_of_not_mem (hc ▸ hnew)
      simp [htail, bindTo, hc]
    · rw [if_neg (by simpa using hc)] at hi
      obtain ⟨j, hj, rfl⟩ := Option.map_eq_some_iff.1 hi
      simp [ih hrest hj, bindTo, hc]

/-- The cell bound to a column is the one that has its name. -/
theorem WellNamed.map_bindTo_of_bound (h : WellNamed cells)
    (hc : ∃ cell ∈ cells, cell.column = some c) : cells.map (bindTo c) = cells := by
  obtain ⟨bound, hbound, hcol⟩ := hc
  refine map_eq_self fun cell hcell => ?_
  unfold bindTo
  split
  · rename_i hname
    have hsame : cell.name = bound.name := hname.trans (h.named bound hbound c hcol).symm
    obtain rfl := List.inj_on_of_nodup_map h.nodup hcell hbound hsame
    rw [← hcol]
  · rfl

/-- Where no cell is bound to a column, the cell of its name is bound to it. -/
theorem claim?_of_unbound (h : (names cells).Nodup)
    (hc : cells.findIdx? (·.column == some c) = none) :
    (claim? cells c).map (·.2) =
      if c.resultName ∈ names cells then some (cells.map (bindTo c)) else none := by
  unfold claim?
  rw [hc]
  cases hn : cells.findIdx? (·.name == c.resultName) with
  | some i =>
    obtain ⟨hi, hname, -⟩ := List.findIdx?_eq_some_iff_getElem.1 hn
    have hname : cells[i].name = c.resultName := by simpa using hname
    have hmem : cells[i] ∈ cells := List.getElem_mem hi
    rw [if_pos (hname ▸ mem_names hmem), ← modify_findIdx? h hn]
    rfl
  | none =>
    have hnot : c.resultName ∉ names cells := by
      intro hmem
      obtain ⟨cell, hcell, hname⟩ := List.mem_map.1 hmem
      have := List.findIdx?_eq_none_iff.1 hn cell hcell
      simp [hname] at this
    rw [if_neg hnot]
    rfl

/-- Finding the cell of a column binds the cell of its name to it. -/
theorem WellNamed.claim?_eq (h : WellNamed cells) :
    (claim? cells c).map (·.2) =
      if c.resultName ∈ names cells then some (cells.map (bindTo c)) else none := by
  cases hb : cells.findIdx? (·.column == some c) with
  | some i =>
    obtain ⟨hi, hcol, -⟩ := List.findIdx?_eq_some_iff_getElem.1 hb
    have hcol : cells[i].column = some c := by simpa using hcol
    have hmem : cells[i] ∈ cells := List.getElem_mem hi
    have hname := h.named _ hmem c hcol
    rw [if_pos (hname ▸ mem_names hmem), h.map_bindTo_of_bound ⟨_, hmem, hcol⟩, claim?, hb]
    rfl
  | none => exact claim?_of_unbound h.nodup hb

/-- Where no cell is found, a hidden one is added. -/
theorem ensure_eq_getD :
    ensure cells c = ((claim? cells c).map (·.2)).getD (cells ++ [hidden c]) := by
  unfold ensure
  cases claim? cells c <;> rfl

/-- Finding or adding a cell for a column. -/
theorem WellNamed.ensure_eq (h : WellNamed cells) :
    ensure cells c =
      if c.resultName ∈ names cells then cells.map (bindTo c) else cells ++ [hidden c] := by
  rw [ensure_eq_getD, h.claim?_eq]
  split <;> rfl

/-! ### The invariant -/

theorem WellNamed.map_bindTo (h : WellNamed cells) : WellNamed (cells.map (bindTo c)) where
  nodup := by
    rw [names_map_bindTo]
    exact h.nodup
  named := by
    intro cell hcell c' hc'
    obtain ⟨old, hold, rfl⟩ := List.mem_map.1 hcell
    rw [bindTo_name]
    unfold bindTo at hc'
    split at hc'
    · rename_i hname
      cases hc'
      exact hname
    · exact h.named old hold c' hc'

/-- A new cell may be added under a new name. -/
theorem WellNamed.append_singleton {cell : Cell} (h : WellNamed cells)
    (hnew : cell.name ∉ names cells)
    (hnamed : ∀ c, cell.column = some c → cell.name = c.resultName) :
    WellNamed (cells ++ [cell]) where
  nodup := by
    rw [names_append, List.nodup_append]
    refine ⟨h.nodup, List.nodup_singleton _, fun name hname name' hname' => ?_⟩
    obtain rfl := List.mem_singleton.1 hname'
    rintro rfl
    exact hnew hname
  named := by
    intro other hother
    rcases List.mem_append.1 hother with hold | hlast
    · exact h.named other hold
    · obtain rfl := List.mem_singleton.1 hlast
      exact hnamed

theorem WellNamed.ensure (h : WellNamed cells) : WellNamed (ensure cells c) := by
  rw [h.ensure_eq]
  split
  · exact h.map_bindTo
  · rename_i hnew
    refine h.append_singleton hnew fun c' hc' => ?_
    cases hc'
    rfl

theorem WellNamed.foldl_ensure (h : WellNamed cells) :
    WellNamed (columns.foldl Cell.ensure cells) := by
  induction columns generalizing cells with
  | nil => exact h
  | cons c columns ih => exact ih h.ensure

/-- Bringing the cells in another order keeps them well-named. -/
theorem WellNamed.perm {cells' : List Cell} (h : WellNamed cells) (hp : cells.Perm cells') :
    WellNamed cells' where
  nodup := (hp.map _).nodup_iff.1 h.nodup
  named := fun cell hcell => h.named cell (hp.mem_iff.2 hcell)

/-- Where names are not repeated, columns are not repeated if all cells of a column share a name. -/
theorem nodup_columns_of_names (hnodup : (names cells).Nodup)
    (hone : ∀ cell ∈ cells, ∀ cell' ∈ cells, ∀ c, cell.column = some c → cell'.column = some c →
      cell.name = cell'.name) : (cells.filterMap (·.column)).Nodup := by
  have hnames : cells.Pairwise (fun cell cell' => cell.name ≠ cell'.name) :=
    List.pairwise_map.1 hnodup
  refine List.pairwise_filterMap.2 (hnames.imp_of_mem ?_)
  intro cell cell' hcell hcell' hne c hc c' hc'
  rintro rfl
  exact hne (hone cell hcell cell' hcell' c hc hc')

/-- **No column is bound to two cells.** -/
theorem WellNamed.columns_nodup (h : WellNamed cells) : (cells.filterMap (·.column)).Nodup :=
  nodup_columns_of_names h.nodup fun cell hcell cell' hcell' c hc hc' =>
    (h.named cell hcell c hc).trans (h.named cell' hcell' c hc').symm

/-! ### A list of columns -/

/-- Binds a cell to the last column of its name, if there is one. -/
def rebound (columns : List Column) (cell : Cell) : Cell :=
  { cell with column := (lastNamed? columns cell.name).or cell.column }

@[simp] theorem names_map_rebound : names (cells.map (rebound columns)) = names cells :=
  names_map fun _ => rfl

@[simp] theorem names_map_fresh {new : List String} : names (new.map (fresh columns)) = new := by
  simp [names, fresh, Function.comp_def]

theorem bindTo_rebound (cell : Cell) :
    bindTo c (rebound columns cell) = rebound (columns ++ [c]) cell := by
  unfold bindTo rebound
  rw [lastNamed?_concat]
  by_cases h : cell.name = c.resultName <;> simp [h]

theorem bindTo_fresh : bindTo c (fresh columns name) = fresh (columns ++ [c]) name := by
  unfold bindTo fresh
  rw [lastNamed?_concat]
  by_cases h : name = c.resultName <;> simp [h]

theorem newNames_concat (columns : List Column) (c : Column) (old : List String) :
    newNames (columns ++ [c]) old =
      newNames columns old ++
        if c.resultName ∈ old ∨ c.resultName ∈ newNames columns old then []
        else [c.resultName] := by
  simp only [newNames, List.map_append, List.filter_append, List.eraseDups_append,
    List.mem_eraseDups]
  congr 1
  by_cases ho : c.resultName ∈ old
  · simp [ho, List.removeAll]
  · by_cases hn : c.resultName ∈ columns.map (·.resultName) <;>
      simp_all [List.removeAll, List.eraseDups_cons]

/-- Of several columns with one name the last one keeps the cell; cells for names without one
are added in the order in which the names come first. -/
theorem WellNamed.foldl_ensure_eq (h : WellNamed cells) :
    columns.foldl Cell.ensure cells =
      cells.map (rebound columns) ++ (newNames columns (names cells)).map (fresh columns) := by
  -- from the end, since it is the last column of a name that counts
  induction columns using List.reverseRecOn with
  | nil =>
    have hself : cells.map (rebound []) = cells := map_eq_self fun _ _ => rfl
    simp [hself, newNames]
  | append_singleton columns c ih =>
    have hnames : names (columns.foldl Cell.ensure cells) =
        names cells ++ newNames columns (names cells) := by
      rw [ih, names_append, names_map_rebound, names_map_fresh]
    have hbind : (columns.foldl Cell.ensure cells).map (bindTo c) =
        cells.map (rebound (columns ++ [c])) ++
          (newNames columns (names cells)).map (fresh (columns ++ [c])) := by
      simp [ih, bindTo_rebound, bindTo_fresh, Function.comp_def]
    rw [List.foldl_concat, h.foldl_ensure.ensure_eq, hnames, newNames_concat]
    by_cases hc : c.resultName ∈ names cells ++ newNames columns (names cells)
    · rw [if_pos hc, if_pos (List.mem_append.1 hc), hbind, List.append_nil]
    · have hself := map_bindTo_of_not_mem (hnames ▸ hc)
      have hhidden : fresh (columns ++ [c]) c.resultName = hidden c := by
        simp [fresh, hidden, lastNamed?_concat]
      rw [if_neg hc, if_neg (fun h => hc (List.mem_append.2 h)), ← hself, hbind,
        List.map_append, List.append_assoc, List.map_singleton, hhidden]

/-! ### Bringing cells in line with columns -/

/-- Unbinds a cell of a column that is not in the list. -/
def unbound (columns : List Column) (cell : Cell) : Cell :=
  if cell.column.any (!columns.contains ·) then { cell with column := none } else cell

theorem unbindStale_eq_map : unbindStale columns cells = cells.map (unbound columns) := rfl

@[simp] theorem unbound_name (columns : List Column) (cell : Cell) :
    (unbound columns cell).name = cell.name := by
  unfold unbound
  split <;> rfl

@[simp] theorem unbound_width (columns : List Column) (cell : Cell) :
    (unbound columns cell).width = cell.width := by
  unfold unbound
  split <;> rfl

theorem unbound_column_eq_some {cell : Cell} :
    (unbound columns cell).column = some c ↔ cell.column = some c ∧ c ∈ columns := by
  unfold unbound
  cases hcol : cell.column with
  | none => simp [hcol]
  | some c' =>
    by_cases hc : c' ∈ columns
    · simp [hcol, hc]
      rintro rfl
      exact hc
    · simp [hc]
      rintro rfl
      exact hc

theorem WellNamed.map_unbound (h : WellNamed cells) : WellNamed (cells.map (unbound columns)) where
  nodup := by
    rw [names_map (unbound_name columns)]
    exact h.nodup
  named := by
    intro cell hcell c hc
    obtain ⟨old, hold, rfl⟩ := List.mem_map.1 hcell
    rw [unbound_name]
    exact h.named old hold c (unbound_column_eq_some.1 hc).1

/-- An unbound cell is left alone where no column has its name. -/
theorem bindFree_eq_append {before : List Cell}
    (h : ∀ cell ∈ cells, cell.column = none → cell.name ∉ columns.map (·.resultName)) :
    bindFree columns before cells = before ++ cells := by
  induction cells generalizing before with
  | nil => simp [bindFree]
  | cons cell cells ih =>
    have hrest : ∀ cell ∈ cells, cell.column = none → cell.name ∉ columns.map (·.resultName) :=
      fun cell hcell => h cell (List.mem_cons_of_mem _ hcell)
    unfold bindFree
    cases hcol : cell.column with
    | some c =>
      simp [isBound, hcol, ih hrest]
    | none =>
      have hfree : freeColumn? columns (before ++ cell :: cells) cell.name = none := by
        refine List.find?_eq_none.2 fun c hc hname => ?_
        refine h cell List.mem_cons_self hcol (List.mem_map.2 ⟨c, hc, ?_⟩)
        simp only [Bool.and_eq_true, beq_iff_eq] at hname
        exact hname.1
      have hself : ({ cell with column := none } : Cell) = cell := by rw [← hcol]
      simp [isBound, hcol, hfree, hself, ih hrest]

theorem fresh_isBound (h : name ∈ columns.map (·.resultName)) :
    (fresh columns name).isBound = true :=
  lastNamed?_isSome.2 h

/-- Binding a cell that was unbound if its column is gone. -/
theorem rebound_unbound {cell : Cell} (h : cell.name ∈ columns.map (·.resultName)) :
    rebound columns (unbound columns cell) = shown columns cell := by
  obtain ⟨c, hc⟩ := Option.isSome_iff_exists.1 (lastNamed?_isSome.2 h)
  simp [rebound, shown, hc]

theorem WellNamed.rebound_unbound_isBound {cell : Cell} (h : WellNamed cells)
    (columns : List Column) (hcell : cell ∈ cells) :
    (rebound columns (unbound columns cell)).isBound =
      (columns.map (·.resultName)).contains cell.name := by
  by_cases hname : cell.name ∈ columns.map (·.resultName)
  · rw [rebound_unbound hname, List.contains_iff_mem.2 hname]
    exact lastNamed?_isSome.2 hname
  · have hlast : lastNamed? columns cell.name = none := by
      rw [← Option.not_isSome_iff_eq_none, lastNamed?_isSome]
      exact hname
    have hcol : (unbound columns cell).column = none := by
      refine Option.eq_none_iff_forall_ne_some.2 fun c hc => hname ?_
      obtain ⟨hold, hmem⟩ := unbound_column_eq_some.1 hc
      exact h.named cell hcell c hold ▸ List.mem_map_of_mem hmem
    rw [Bool.eq_false_iff.2 (mt List.contains_iff_mem.1 hname)]
    simp [isBound, rebound, hlast, hcol]

/-- **What bringing cells in line with columns leaves**: the cells whose name is that of a
column, in their order and with their widths, then a hidden cell for every other name of a
column; each is bound to the last column of its name. -/
theorem WellNamed.reconcileColumns_eq (h : WellNamed cells) (columns : List Column) :
    reconcileColumns columns cells =
      (cells.filter fun cell => (columns.map (·.resultName)).contains cell.name).map
          (shown columns) ++
        (newNames columns (names cells)).map (fresh columns) := by
  have hnames : names (cells.map (unbound columns)) = names cells :=
    names_map (unbound_name columns)
  have hnew : ∀ cell ∈ (newNames columns (names cells)).map (fresh columns),
      cell.isBound = true := by
    intro cell hcell
    obtain ⟨name, hname, rfl⟩ := List.mem_map.1 hcell
    exact fresh_isBound (mem_newNames.1 hname).1
  have hfree : ∀ cell ∈ (cells.map (unbound columns)).map (rebound columns) ++
      (newNames columns (names cells)).map (fresh columns),
      cell.column = none → cell.name ∉ columns.map (·.resultName) := by
    intro cell hcell hnone hname
    rcases List.mem_append.1 hcell with hkept | hadded
    · rw [List.map_map] at hkept
      obtain ⟨old, hold, rfl⟩ := List.mem_map.1 hkept
      have hb := h.rebound_unbound_isBound columns hold
      have hname : old.name ∈ columns.map (·.resultName) := by
        simpa [rebound] using hname
      rw [List.contains_iff_mem.2 hname] at hb
      change (rebound columns (unbound columns old)).column = none at hnone
      simp [isBound, hnone] at hb
    · have hb := hnew cell hadded
      simp [isBound, hnone] at hb
  -- no cell is left for `bindFree`, so what is dropped had no column of its name from the start
  have hkept : cells.filter ((·.isBound) ∘ rebound columns ∘ unbound columns) =
      cells.filter fun cell => (columns.map (·.resultName)).contains cell.name :=
    List.filter_congr fun cell hcell => h.rebound_unbound_isBound columns hcell
  rw [Cell.reconcileColumns, unbindStale_eq_map, h.map_unbound.foldl_ensure_eq, hnames,
    bindFree_eq_append hfree, List.nil_append, List.filter_append, List.filter_eq_self.2 hnew,
    List.map_map, List.filter_map, hkept]
  congr 1
  refine List.map_congr_left fun cell hcell => rebound_unbound ?_
  simpa using (List.mem_filter.1 hcell).2

theorem eraseDups_nodup : ∀ l : List String, l.eraseDups.Nodup
  | [] => by simp
  | name :: l => by
    have : (l.filter fun other => !other == name).length < l.length + 1 :=
      Nat.lt_succ_of_le (List.length_filter_le _ _)
    rw [List.eraseDups_cons, List.nodup_cons]
    refine ⟨?_, eraseDups_nodup _⟩
    simp [List.mem_eraseDups]
termination_by l => l.length

@[simp] theorem names_map_shown : names (cells.map (shown columns)) = names cells :=
  names_map fun _ => rfl

theorem WellNamed.reconcileColumns (h : WellNamed cells) (columns : List Column) :
    WellNamed (Cell.reconcileColumns columns cells) := by
  rw [h.reconcileColumns_eq]
  constructor
  · rw [names_append, names_map_shown, names_map_fresh, List.nodup_append]
    refine ⟨h.nodup.sublist (List.filter_sublist.map _), eraseDups_nodup _, ?_⟩
    intro name hname name' hname'
    rintro rfl
    obtain ⟨cell, hcell, rfl⟩ := List.mem_map.1 hname
    exact (mem_newNames.1 hname').2 (mem_names (List.mem_of_mem_filter hcell))
  · intro cell hcell c hc
    rcases List.mem_append.1 hcell with hkept | hadded
    · obtain ⟨old, -, rfl⟩ := List.mem_map.1 hkept
      exact (resultName_of_lastNamed? hc).symm
    · obtain ⟨name, -, rfl⟩ := List.mem_map.1 hadded
      exact (resultName_of_lastNamed? hc).symm

/-! ### Widths -/

theorem find?_cons_eraseP_perm {p : Cell → Bool} {cell : Cell} (h : cells.find? p = some cell) :
    (cell :: cells.eraseP p).Perm cells := by
  induction cells with
  | nil => cases h
  | cons first cells ih =>
    by_cases hp : p first = true
    · rw [List.find?_cons_of_pos hp] at h
      cases h
      rw [List.eraseP_cons_of_pos hp]
    · rw [List.find?_cons_of_neg hp] at h
      rw [List.eraseP_cons_of_neg hp]
      exact (List.Perm.swap first cell _).trans ((ih h).cons first)

/-- Ordering cells loses none of them. -/
theorem moveToFront_perm (front : List Cell) (order : List String) (rest : List Cell) :
    (moveToFront front order rest).Perm (front ++ rest) := by
  induction order generalizing front rest with
  | nil => exact List.Perm.refl _
  | cons name order ih =>
    unfold moveToFront
    cases hf : rest.find? (·.name == name) with
    | none => exact ih front rest
    | some cell =>
      refine (ih _ _).trans ?_
      rw [List.append_assoc, List.singleton_append]
      exact (find?_cons_eraseP_perm hf).append_left front

/-- The cell that an entry adds where no cell has its name. -/
def added (columns : List Column) (e : String × UInt32) : Cell :=
  ⟨e.1, e.2, columns.find? (·.resultName == e.1)⟩

theorem resultName_of_added {e : String × UInt32} (h : (added columns e).column = some c) :
    c.resultName = e.1 := by
  simpa using List.find?_some h

theorem addNamed_of_mem {e : String × UInt32} (h : e.1 ∈ names cells) :
    addNamed columns cells e = cells := by
  obtain ⟨cell, hcell, hname⟩ := List.mem_map.1 h
  exact if_pos (List.any_eq_true.2 ⟨cell, hcell, by simpa using hname⟩)

theorem addNamed_of_not_mem {e : String × UInt32} (h : e.1 ∉ names cells) :
    addNamed columns cells e = cells ++ [added columns e] := by
  refine if_neg fun hany => h ?_
  obtain ⟨cell, hcell, hname⟩ := List.any_eq_true.1 hany
  exact List.mem_map.2 ⟨cell, hcell, by simpa using hname⟩

theorem WellNamed.addNamed (h : WellNamed cells) (entry : String × UInt32) :
    WellNamed (addNamed columns cells entry) := by
  by_cases hold : entry.1 ∈ names cells
  · rw [addNamed_of_mem hold]
    exact h
  · rw [addNamed_of_not_mem hold]
    exact h.append_singleton hold fun c hc => (resultName_of_added hc).symm

theorem WellNamed.foldl_addNamed (h : WellNamed cells) (widths : List (String × UInt32)) :
    WellNamed (widths.foldl (Cell.addNamed columns) cells) := by
  induction widths generalizing cells with
  | nil => exact h
  | cons entry widths ih => exact ih (h.addNamed entry)

/-- Gives a cell its width of a list. -/
def resized (widths : List (String × UInt32)) (cell : Cell) : Cell :=
  { cell with width := widthIn widths cell.name }

/-- Choosing widths adds cells for new names, changes widths and orders the cells. -/
theorem reconcileWidths_perm (widths : List (String × UInt32)) (columns : List Column)
    (cells : List Cell) :
    (reconcileWidths widths columns cells).Perm
      (((firstWidths widths).foldl (Cell.addNamed columns) cells).map
        (resized (firstWidths widths))) :=
  moveToFront_perm [] _ _

theorem WellNamed.map_resized (h : WellNamed cells) (widths : List (String × UInt32)) :
    WellNamed (cells.map (resized widths)) where
  nodup := by
    rw [names_map (f := resized widths) fun _ => rfl]
    exact h.nodup
  named := by
    intro cell hcell c hc
    obtain ⟨old, hold, rfl⟩ := List.mem_map.1 hcell
    exact h.named old hold c hc

theorem WellNamed.reconcileWidths (h : WellNamed cells) (widths : List (String × UInt32))
    (columns : List Column) : WellNamed (Cell.reconcileWidths widths columns cells) :=
  ((h.foldl_addNamed _).map_resized _).perm (reconcileWidths_perm widths columns cells).symm

end Cell

end QueryEditor
