import QueryEditor.Proofs.GridDocuments
import QueryEditor.Proofs.LayoutRuns

/-!
# Layouts read back

A layout that was read, and perhaps given widths, can be written and read again: the cells that
are shown and bound come first, as they were, and every other name of a column gets a hidden cell.
The reader binds a cell to the *last* column of its name.  That a cell was bound to the same
column before is the invariant `Cell.Synced`; the cells that a choice of widths adds do not break
it, since they have names of no column.

* `Cell.Synced` : the invariant of layouts that were brought in line with columns.
* `Cell.Synced.reconcileWidths` : a later choice of widths keeps it.
* `Cell.Synced.reconcileColumns_bare` : bringing the cells that were written in line with the same
  columns restores them.
* `Layout.read_toXml` : **what is written of a layout is read as that layout again**, and writing
  it once more gives the same text.
-/

namespace QueryEditor

namespace Cell

variable {cells : List Cell} {columns : List Column}

/-! ### Cells in line with columns -/

/-- Cells in line with a list of columns: every column has a cell of its name, and a bound cell
shows the last column of its name. -/
structure Synced (columns : List Column) (cells : List Cell) : Prop extends WellNamed cells where
  /-- A bound cell shows the last column of its name. -/
  last : ∀ cell ∈ cells, cell.isBound = true → cell.column = lastNamed? columns cell.name
  /-- Every column has a cell of its name. -/
  covers : ∀ name ∈ columns.map (·.resultName), name ∈ names cells

theorem WellNamed.synced_reconcileColumns (h : WellNamed cells) (columns : List Column) :
    Synced columns (Cell.reconcileColumns columns cells) where
  toWellNamed := h.reconcileColumns columns
  last := by
    intro cell hcell _
    rw [h.reconcileColumns_eq] at hcell
    obtain hkept | hadded := List.mem_append.1 hcell
    · obtain ⟨old, -, rfl⟩ := List.mem_map.1 hkept
      rfl
    · obtain ⟨name, -, rfl⟩ := List.mem_map.1 hadded
      rfl
  covers := by
    intro name hname
    rw [h.reconcileColumns_eq, names_append, names_map_shown, names_map_fresh, List.mem_append]
    by_cases hold : name ∈ names cells
    · left
      obtain ⟨cell, hcell, rfl⟩ := List.mem_map.1 hold
      exact mem_names (List.mem_filter.2 ⟨hcell, List.contains_iff_mem.2 hname⟩)
    · exact .inr (mem_newNames.2 ⟨hname, hold⟩)

theorem Synced.perm {cells' : List Cell} (h : Synced columns cells) (hp : cells.Perm cells') :
    Synced columns cells' where
  toWellNamed := h.toWellNamed.perm hp
  last := fun cell hcell => h.last cell (hp.mem_iff.2 hcell)
  covers := fun name hname => (hp.map _).mem_iff.1 (h.covers name hname)

/-- A cell that is added for a width has a name of no column, so it is not bound. -/
theorem Synced.addNamed (h : Synced columns cells) (entry : String × UInt32) :
    Synced columns (Cell.addNamed columns cells entry) := by
  by_cases hold : entry.1 ∈ names cells
  · rw [addNamed_of_mem hold]
    exact h
  · have hwell : WellNamed (Cell.addNamed columns cells entry) := h.toWellNamed.addNamed entry
    rw [addNamed_of_not_mem hold] at hwell ⊢
    refine { hwell with last := ?_, covers := ?_ }
    · intro cell hcell hbound
      obtain hcell | hadded := List.mem_append.1 hcell
      · exact h.last cell hcell hbound
      · -- a column of this name would have a cell already
        obtain rfl := List.mem_singleton.1 hadded
        obtain ⟨c, hc⟩ := Option.isSome_iff_exists.1 hbound
        have hmem : c.resultName ∈ columns.map (·.resultName) :=
          List.mem_map_of_mem (List.mem_of_find?_eq_some hc)
        exact absurd (h.covers _ hmem) (resultName_of_added hc ▸ hold)
    · intro name hname
      rw [names_append]
      exact List.mem_append_left _ (h.covers name hname)

theorem Synced.foldl_addNamed (h : Synced columns cells) (widths : List (String × UInt32)) :
    Synced columns (widths.foldl (Cell.addNamed columns) cells) := by
  induction widths generalizing cells with
  | nil => exact h
  | cons entry widths ih => exact ih (h.addNamed entry)

theorem Synced.map_resized (h : Synced columns cells) (widths : List (String × UInt32)) :
    Synced columns (cells.map (resized widths)) where
  toWellNamed := h.toWellNamed.map_resized widths
  last := by
    intro cell hcell hbound
    obtain ⟨old, hold, rfl⟩ := List.mem_map.1 hcell
    exact h.last old hold hbound
  covers := by
    intro name hname
    rw [names_map (f := resized widths) fun _ => rfl]
    exact h.covers name hname

/-- Choosing widths keeps cells in line with their columns. -/
theorem Synced.reconcileWidths (h : Synced columns cells) (widths : List (String × UInt32)) :
    Synced columns (Cell.reconcileWidths widths columns cells) :=
  ((h.foldl_addNamed _).map_resized _).perm (reconcileWidths_perm widths columns cells).symm

/-! ### The cells that are written -/

/-- A hidden cell for every name of a column that no cell in the list has. -/
def remaining (columns : List Column) (cells : List Cell) : List Cell :=
  (newNames columns (names cells)).map (fresh columns)

theorem bound_of_mem_remaining {cell : Cell} (h : cell ∈ remaining columns cells) :
    cell.width = 0 ∧ ∃ c ∈ columns, cell.column = some c ∧ c.resultName = cell.name := by
  obtain ⟨name, hnew, rfl⟩ := List.mem_map.1 h
  obtain ⟨c, hc⟩ := Option.isSome_iff_exists.1 (lastNamed?_isSome.2 (mem_newNames.1 hnew).1)
  exact ⟨rfl, c, mem_of_lastNamed? hc, hc, resultName_of_lastNamed? hc⟩

theorem filter_isVisible_remaining : (remaining columns cells).filter (·.isVisible) = [] := by
  refine List.filter_eq_nil_iff.2 fun cell hcell => ?_
  simp [isVisible, (bound_of_mem_remaining hcell).1]

/-- **Bringing written cells in line with the same columns restores them**, and adds a hidden
cell for every other name of a column. -/
theorem Synced.reconcileColumns_bare (h : Synced columns cells) {kept : List Cell}
    (hsub : kept.Sublist cells) (hbound : ∀ cell ∈ kept, cell.isBound = true) :
    Cell.reconcileColumns columns (kept.map Grid.bare) =
      kept ++ remaining columns kept := by
  have hnames : names (kept.map Grid.bare) = names kept := names_map fun _ => rfl
  have hwell : WellNamed (kept.map Grid.bare) := by
    refine ⟨hnames ▸ h.nodup.sublist (hsub.map _), fun cell hcell c hc => ?_⟩
    obtain ⟨old, -, rfl⟩ := List.mem_map.1 hcell
    cases hc
  have hcolumn : ∀ cell ∈ kept, ∃ c ∈ columns, c.resultName = cell.name := by
    intro cell hcell
    have hlast := h.last cell (hsub.subset hcell) (hbound cell hcell)
    obtain ⟨c, hc⟩ := Option.isSome_iff_exists.1 (hbound cell hcell)
    rw [hc] at hlast
    exact ⟨c, mem_of_lastNamed? hlast.symm, resultName_of_lastNamed? hlast.symm⟩
  have hall : ∀ cell ∈ kept.map Grid.bare,
      (columns.map (·.resultName)).contains cell.name = true := by
    intro cell hcell
    obtain ⟨old, hold, rfl⟩ := List.mem_map.1 hcell
    obtain ⟨c, hc, hname⟩ := hcolumn old hold
    exact List.contains_iff_mem.2 (List.mem_map.2 ⟨c, hc, hname⟩)
  -- each is bound again to the column that it showed, which is the last of its name
  have hself : (kept.map Grid.bare).map (shown columns) = kept := by
    rw [List.map_map]
    refine map_eq_self fun cell hcell => ?_
    have hlast := h.last cell (hsub.subset hcell) (hbound cell hcell)
    change ({ cell with column := lastNamed? columns cell.name } : Cell) = cell
    rw [← hlast]
  rw [hwell.reconcileColumns_eq, List.filter_eq_self.2 hall, hself, hnames, remaining]

end Cell

namespace Layout

open Markup (Element)

variable {l : Layout} {text root : String} {catalog : Catalog} {columns : List Column}
  {e : Entity} {code : Int32}

/-! ### What is read -/

/-- A layout that was read is in line with its columns. -/
theorem synced_of_read (h : Layout.read text catalog root columns = .ok l) :
    Cell.Synced columns l.cells := by
  obtain ⟨grid, rfl, hgrid⟩ := exists_of_read h
  exact hgrid.synced_reconcileColumns columns

/-- A layout that was read goes by the name of its entity. -/
theorem entityName_of_read (h : Layout.read text catalog root columns = .ok l)
    (he : l.entity = some e) : l.entityName = e.logicalName := by
  have hroot : ∀ e, catalog.entity? root = some e → root = e.logicalName := by
    intro e he
    have hname : e.logicalName = root := by simpa using List.find?_some he
    exact hname.symm
  obtain ⟨grid, rfl, -⟩ := exists_of_read h
  cases grid with
  | none => exact hroot e he
  | some g =>
    cases hg : g.object.bind catalog.entityOfCode? with
    | none =>
      simp only [reconcileColumns, ofGrid, Option.bind_some, hg, Option.map_none,
        Option.getD_none] at he ⊢
      exact hroot e he
    | some e' =>
      simp only [reconcileColumns, ofGrid, Option.bind_some, hg, Option.map_some,
        Option.getD_some] at he ⊢
      rw [Option.some.inj he]

theorem blank_render (element : Element) : Text.blank element.render = false := by
  have hhead := element.head?_render
  unfold Text.blank
  cases hcs : element.render.toList with
  | nil => rw [hcs] at hhead; cases hhead
  | cons c cs =>
    rw [hcs] at hhead
    cases hhead
    rfl

/-! ### Reading what was written -/

theorem written_sublist (l : Layout) : l.written.Sublist l.cells :=
  List.filter_sublist.trans List.filter_sublist

theorem isVisible_isBound_of_mem_written {cell : Cell} (h : cell ∈ l.written) :
    cell.isVisible = true ∧ cell.isBound = true :=
  ⟨(List.mem_filter.1 (List.mem_of_mem_filter h)).2, (List.mem_filter.1 h).2⟩

/-- Hidden cells are not written. -/
theorem written_append_remaining {kept : List Cell}
    (hcells : l.cells = kept ++ Cell.remaining columns kept)
    (hkept : ∀ cell ∈ kept, cell.isVisible = true ∧ cell.isBound = true) : l.written = kept := by
  have hvisible : l.visible = kept := by
    rw [visible, hcells, List.filter_append, Cell.filter_isVisible_remaining, List.append_nil,
      List.filter_eq_self.2 fun cell hcell => (hkept cell hcell).1]
  rw [written, hvisible, List.filter_eq_self.2 fun cell hcell => (hkept cell hcell).2]

theorem toXml_eq {primaryId primaryName : String} (he : l.entity = some e)
    (hid : e.primaryIdAttribute = some primaryId)
    (hname : e.primaryNameAttribute = some primaryName) : l.toXml =
      .ok (gridElement e.objectTypeCode primaryId primaryName l.written).render := by
  rw [toXml, document_eq he hid hname]
  rfl

/-- What is written is the document of the entity. -/
theorem exists_of_toXml {xml : String} (h : l.toXml = .ok xml) :
    ∃ e primaryId primaryName, l.entity = some e ∧
      xml = (gridElement e.objectTypeCode primaryId primaryName l.written).render := by
  unfold toXml document at h
  cases he : l.entity with
  | none => rw [he] at h; cases h
  | some e =>
    rw [he] at h
    cases hid : e.primaryIdAttribute with
    | none => simp only [hid] at h; cases h
    | some primaryId =>
      cases hname : e.primaryNameAttribute with
      | none => simp only [hid, hname] at h; cases h
      | some primaryName =>
        simp only [hid, hname] at h
        exact ⟨e, primaryId, primaryName, rfl, (Except.ok.inj h).symm⟩

/-- What is read of the document of a layout that is in line with the columns, when the object
type code is that of an entity. -/
theorem read_gridElement_written (h : Cell.Synced columns l.cells)
    (hfind : catalog.entityOfCode? code = some e) (primaryId primaryName : String) :
    Layout.read (gridElement (some code) primaryId primaryName l.written).render catalog root
        columns =
      .ok { entityName := e.logicalName, entity := some e,
            cells := l.written ++ Cell.remaining columns l.written } := by
  have hnodup : (Cell.names l.written).Nodup := h.nodup.sublist ((written_sublist l).map _)
  have hcells := h.reconcileColumns_bare (written_sublist l)
    fun cell hcell => (isVisible_isBound_of_mem_written hcell).2
  rw [read_eq, blank_render, if_neg (by decide), Grid.read_gridElement hnodup, ← hcells]
  simp [Except.map, ofGrid, hfind, reconcileColumns]

/-- **What is written of a layout is read as that layout again.**  The layout was read, and
perhaps given widths; its entity has the attributes that a document names and an object type code
by which the catalog finds it.  Then it can be written, the document can be read for the same
columns, and what is read is of the same entity: first the cells that were shown and bound, as
they were, then a hidden bound cell for every other name of a column, where it comes first among
the columns.  Writing that gives the same text. -/
theorem read_toXml {widths : Option (List (String × UInt32))} {l₀ : Layout}
    (hread : Layout.read text catalog root columns = .ok l₀)
    (hl : l = widths.elim l₀ fun ws => l₀.reconcileWidths ws columns)
    (he : l.entity = some e) (hid : e.primaryIdAttribute.isSome = true)
    (hname : e.primaryNameAttribute.isSome = true) (hcode : e.objectTypeCode = some code)
    (hfind : catalog.entityOfCode? code = some e) :
    ∃ xml l' hidden, l.toXml = .ok xml ∧ Layout.read xml catalog root columns = .ok l' ∧
      l'.entity = l.entity ∧ l'.entityName = l.entityName ∧
      l'.cells = l.visible.filter (·.isBound) ++ hidden ∧
      (∀ cell ∈ hidden, cell.width = 0 ∧
        ∃ c ∈ columns, cell.column = some c ∧ c.resultName = cell.name) ∧
      hidden.map (·.name) = ((columns.map (·.resultName)).filter fun name =>
        !((l.visible.filter (·.isBound)).map (·.name)).contains name).eraseDups ∧
      l'.toXml = .ok xml := by
  obtain ⟨primaryId, hid⟩ := Option.isSome_iff_exists.1 hid
  obtain ⟨primaryName, hname⟩ := Option.isSome_iff_exists.1 hname
  obtain ⟨hsynced, hentity, hentityName⟩ : Cell.Synced columns l.cells ∧
      l.entity = l₀.entity ∧ l.entityName = l₀.entityName := by
    have hsynced₀ := synced_of_read hread
    cases widths with
    | none => exact hl ▸ ⟨hsynced₀, rfl, rfl⟩
    | some ws => exact hl ▸ ⟨hsynced₀.reconcileWidths ws, rfl, rfl⟩
  let l' : Layout :=
    { entityName := e.logicalName, entity := some e,
      cells := l.written ++ Cell.remaining columns l.written }
  have hwritten : l'.written = l.written :=
    written_append_remaining rfl fun cell hcell => isVisible_isBound_of_mem_written hcell
  refine ⟨_, l', Cell.remaining columns l.written, toXml_eq he hid hname, ?_, he.symm, ?_, rfl,
    fun cell hcell => Cell.bound_of_mem_remaining hcell, Cell.names_map_fresh, ?_⟩
  · rw [hcode]
    exact read_gridElement_written hsynced hfind primaryId primaryName
  · rw [hentityName, entityName_of_read hread (hentity ▸ he)]
  · rw [toXml_eq rfl hid hname, hwritten]

/-- A document of two cells, one of which no column has the name of. -/
def accountDocument : String :=
  "<grid object=\"7\"><row><cell name=\"gone\" width=\"80\"/><cell name=\"c.x\"/></row></grid>"

/-- Columns with markup, a quote and a line end in their names, two of them with one name. -/
def accountColumns : List Column :=
  [{ name := "c.x" }, { name := "a<b>&\"\n" }, { name := "x", entityAlias := some "c" }]

/-- A catalog of one entity. -/
def accountCatalog : Catalog :=
  ⟨[{ logicalName := "account", objectTypeCode := some 7, primaryIdAttribute := some "accountid",
      primaryNameAttribute := some "name" }], true, []⟩

/-- The name with markup is shown; the one of two columns is hidden and comes last again. -/
theorem read_toXml_of_markup :
    let linked : Column := { name := "x", entityAlias := some "c" }
    let l : Layout :=
      { entityName := "account", entity := accountCatalog.entity? "account", cells :=
          [⟨"a<b>&\"\n", 120, some { name := "a<b>&\"\n" }⟩, ⟨"c.x", 0, some linked⟩] }
    ∃ xml l' hidden, l.toXml = .ok xml ∧
      Layout.read xml accountCatalog "account" accountColumns = .ok l' ∧
      l'.cells = [⟨"a<b>&\"\n", 120, some { name := "a<b>&\"\n" }⟩] ++ hidden ∧
      hidden.map (·.name) = ["c.x"] ∧ l'.toXml = .ok xml := by
  intro linked l
  let l₀ : Layout := { l with cells :=
    [⟨"c.x", 0, some linked⟩, ⟨"a<b>&\"\n", 0, some { name := "a<b>&\"\n" }⟩] }
  let widths : Option (List (String × UInt32)) := some [("a<b>&\"\n", 120)]
  have hread : Layout.read accountDocument accountCatalog "account" accountColumns = .ok l₀ := by
    decide +kernel
  have hl : l = widths.elim l₀ fun ws => l₀.reconcileWidths ws accountColumns := by
    decide +kernel
  obtain ⟨xml, l', hidden, hxml, hread', -, -, hcells, -, hnames, hxml'⟩ :=
    read_toXml hread hl rfl rfl rfl rfl rfl
  exact ⟨xml, l', hidden, hxml, hread', hcells, hnames, hxml'⟩

end Layout

end QueryEditor
