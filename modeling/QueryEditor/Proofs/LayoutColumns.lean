import QueryEditor.Proofs.LayoutCells

/-!
# What the columns of a query leave of a layout

A layout that is brought in line with the columns of a query keeps the cells that have the name of
a column, and every other name of a column gets a hidden cell at the end.

* `Cell.lastNamed?_eq_some_iff` : which of several columns of one name is shown.
* `Cell.WellNamed.reconcileColumns_idem` : bringing cells in line twice is doing it once.
* `Layout.reconcileColumns_in_line` : **all that is left of a layout, and in which order.**
-/

namespace QueryEditor

namespace Cell

variable {cells : List Cell} {columns : List Column} {c : Column} {name : String}

/-- The column that is shown under a name is one that no later column of that name follows. -/
theorem lastNamed?_eq_some_iff :
    lastNamed? columns name = some c ↔
      c.resultName = name ∧ ∃ before after, columns = before ++ c :: after ∧
        ∀ later ∈ after, later.resultName ≠ name := by
  rw [lastNamed?, List.find?_eq_some_iff_append]
  constructor
  · rintro ⟨hname, after, before, hsplit, hlater⟩
    refine ⟨by simpa using hname, before.reverse, after.reverse, ?_, fun later hmem => ?_⟩
    · simpa using congrArg List.reverse hsplit
    · simpa using hlater later (List.mem_reverse.1 hmem)
  · rintro ⟨hname, before, after, rfl, hlater⟩
    refine ⟨by simpa using hname, after.reverse, before.reverse, by simp, fun later hmem => ?_⟩
    simpa using hlater later (List.mem_reverse.1 hmem)

theorem newNames_eq_nil {old : List String} (h : ∀ c ∈ columns, c.resultName ∈ old) :
    newNames columns old = [] := by
  refine List.eq_nil_iff_forall_not_mem.2 fun name hname => ?_
  obtain ⟨hcolumn, hnew⟩ := mem_newNames.1 hname
  obtain ⟨c, hc, rfl⟩ := List.mem_map.1 hcolumn
  exact hnew (h c hc)

/-! ### The cells that are left -/

/-- A cell that is left has the name of a column and is bound to the last one of that name. -/
theorem WellNamed.column_of_mem_reconcileColumns (h : WellNamed cells) {cell : Cell}
    (hcell : cell ∈ Cell.reconcileColumns columns cells) :
    cell.name ∈ columns.map (·.resultName) ∧ cell.column = lastNamed? columns cell.name := by
  rw [h.reconcileColumns_eq] at hcell
  obtain hkept | hadded := List.mem_append.1 hcell
  · obtain ⟨old, hold, rfl⟩ := List.mem_map.1 hkept
    exact ⟨List.contains_iff_mem.1 (List.mem_filter.1 hold).2, rfl⟩
  · obtain ⟨name, hname, rfl⟩ := List.mem_map.1 hadded
    exact ⟨(mem_newNames.1 hname).1, rfl⟩

/-- Every name of a column has a cell. -/
theorem WellNamed.mem_names_reconcileColumns (h : WellNamed cells) (hc : c ∈ columns) :
    c.resultName ∈ names (Cell.reconcileColumns columns cells) := by
  have hname : c.resultName ∈ columns.map (·.resultName) := List.mem_map_of_mem hc
  rw [h.reconcileColumns_eq, names_append, names_map_shown, names_map_fresh, List.mem_append]
  by_cases hold : c.resultName ∈ names cells
  · obtain ⟨cell, hcell, hsame⟩ := List.mem_map.1 hold
    refine .inl (List.mem_map.2 ⟨cell, List.mem_filter.2 ⟨hcell, ?_⟩, hsame⟩)
    exact List.contains_iff_mem.2 (hsame ▸ hname)
  · exact .inr (mem_newNames.2 ⟨hname, hold⟩)

/-- **Bringing cells in line twice is doing it once.** -/
theorem WellNamed.reconcileColumns_idem (h : WellNamed cells) (columns : List Column) :
    Cell.reconcileColumns columns (Cell.reconcileColumns columns cells) =
      Cell.reconcileColumns columns cells := by
  have hkept : (Cell.reconcileColumns columns cells).filter
      (fun cell => (columns.map (·.resultName)).contains cell.name) =
        Cell.reconcileColumns columns cells :=
    List.filter_eq_self.2 fun cell hcell =>
      List.contains_iff_mem.2 (h.column_of_mem_reconcileColumns hcell).1
  have hshown : (Cell.reconcileColumns columns cells).map (shown columns) =
      Cell.reconcileColumns columns cells := by
    refine map_eq_self fun cell hcell => ?_
    rw [shown, ← (h.column_of_mem_reconcileColumns hcell).2]
  have hnew : newNames columns (names (Cell.reconcileColumns columns cells)) = [] :=
    newNames_eq_nil fun c hc => h.mem_names_reconcileColumns hc
  rw [(h.reconcileColumns columns).reconcileColumns_eq, hkept, hshown, hnew, List.map_nil,
    List.append_nil]

end Cell

namespace Layout

/-- **All that is left of a layout that is brought in line with columns**: the old cells that have
the name of a column, in their order and with their widths, and then a hidden cell for every other
name of a column, where it comes first.  Each is bound to the last column of its name.  The entity
stays, and doing it again changes nothing. -/
theorem reconcileColumns_in_line (l : Layout) (h : Cell.WellNamed l.cells)
    (columns : List Column) :
    (l.reconcileColumns columns).cells.map (fun cell => (cell.name, cell.width)) =
        (l.cells.filter fun cell => (columns.map (·.resultName)).contains cell.name).map
            (fun cell => (cell.name, cell.width)) ++
          ((columns.map (·.resultName)).filter fun name =>
            !(l.cells.map (·.name)).contains name).eraseDups.map (fun name => (name, 0)) ∧
      (∀ cell ∈ (l.reconcileColumns columns).cells,
        ∃ c before after, cell.column = some c ∧ c.resultName = cell.name ∧
          columns = before ++ c :: after ∧ ∀ later ∈ after, later.resultName ≠ cell.name) ∧
      (l.reconcileColumns columns).entityName = l.entityName ∧
      (l.reconcileColumns columns).entity = l.entity ∧
      (l.reconcileColumns columns).reconcileColumns columns = l.reconcileColumns columns := by
  refine ⟨?_, fun cell hcell => ?_, rfl, rfl, ?_⟩
  case refine_1 =>
    change (Cell.reconcileColumns columns l.cells).map _ = _
    rw [h.reconcileColumns_eq, List.map_append, List.map_map, List.map_map]
    rfl
  case refine_2 =>
    obtain ⟨hname, hcolumn⟩ := h.column_of_mem_reconcileColumns hcell
    obtain ⟨c, hc⟩ := Option.isSome_iff_exists.1 (Cell.lastNamed?_isSome.2 hname)
    obtain ⟨hnamed, before, after, hsplit, hlater⟩ := Cell.lastNamed?_eq_some_iff.1 hc
    exact ⟨c, before, after, hcolumn.trans hc, hnamed, hsplit, hlater⟩
  case refine_3 =>
    change { l with cells := Cell.reconcileColumns columns (Cell.reconcileColumns columns l.cells) }
      = { l with cells := Cell.reconcileColumns columns l.cells }
    rw [h.reconcileColumns_idem]

/-- A name that is taken over by another column, a column that is gone, an unbound cell, and a
new name that two columns have. -/
theorem reconcileColumns_in_line_of_collision :
    let plain : Column := { name := "c.name" }
    let linked : Column := { name := "name", entityAlias := some "c" }
    let city : Column := { name := "city" }
    let town : Column := { name := "town", ownAlias := some "city" }
    let l : Layout :=
      { entityName := "account", entity := none,
        cells := [⟨"old", 30, some { name := "old" }⟩, ⟨"c.name", 80, some plain⟩,
          ⟨"phone", 50, none⟩] }
    let columns : List Column := [city, linked, { name := "phone" }, town]
    Cell.WellNamed l.cells ∧
      (l.reconcileColumns columns).cells =
        [⟨"c.name", 80, some linked⟩, ⟨"phone", 50, some { name := "phone" }⟩,
          ⟨"city", 0, some town⟩] ∧
      (∀ cell ∈ (l.reconcileColumns columns).cells,
        ∃ c before after, cell.column = some c ∧ c.resultName = cell.name ∧
          columns = before ++ c :: after ∧ ∀ later ∈ after, later.resultName ≠ cell.name) ∧
      (l.reconcileColumns columns).reconcileColumns columns = l.reconcileColumns columns := by
  intro plain linked city town l columns
  have h : Cell.WellNamed l.cells := ⟨by decide +kernel, by decide +kernel⟩
  obtain ⟨-, hlast, -, -, htwice⟩ := l.reconcileColumns_in_line h columns
  exact ⟨h, by decide +kernel, hlast, htwice⟩

end Layout

end QueryEditor
