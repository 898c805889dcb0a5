import QueryEditor.Proofs.LayoutRuns

/-!
# Columns by their result names

A column is named in a text by its result name.  Every text names a column; which one is decided by
the first point in it.

* `Column.resultName_ofResultName` : a text is the result name of the column that it names.
* `Column.ofResultName_resultName_iff` : **which columns are named by their result names**.
* `Layout.read_of_texts` : the cells of a layout that starts without cells.
* `Column.names_in_layout` : the three together.
-/

namespace QueryEditor

namespace Column

variable {c : Column} {text entity : String} {texts : List String}

/-! ### Names read and written -/

/-- **Every text is the result name of the column that it names.** -/
theorem resultName_ofResultName (text : String) : (ofResultName text).resultName = text := by
  unfold ofResultName
  cases hcut : Text.cut '.' text.toList with
  | none => rfl
  | some parts =>
    obtain ⟨entity, name⟩ := parts
    show String.ofList entity ++ "." ++ String.ofList name = text
    refine String.toList_injective ?_
    rw [(Text.cut_eq_some hcut).1]
    simp

theorem ofResultName_of_not_mem (h : '.' ∉ text.toList) : ofResultName text = { name := text } := by
  rw [ofResultName, Text.cut_eq_none_iff.2 h]

theorem ofResultName_append (h : '.' ∉ entity.toList) (name : String) :
    ofResultName (entity ++ "." ++ name) = { name, entityAlias := some entity } := by
  have hlist : (entity ++ "." ++ name).toList = entity.toList ++ '.' :: name.toList := by
    simp
  rw [ofResultName, hlist, Text.cut_append h]
  simp

/-- A column that a text names has no alias of its own, and there is no point in the first part of
its name. -/
theorem ofResultName_spec (text : String) :
    (ofResultName text).ownAlias = none ∧
      '.' ∉ ((ofResultName text).entityAlias.getD (ofResultName text).name).toList := by
  unfold ofResultName
  cases hcut : Text.cut '.' text.toList with
  | none => exact ⟨rfl, Text.cut_eq_none_iff.1 hcut⟩
  | some parts =>
    obtain ⟨entity, name⟩ := parts
    refine ⟨rfl, ?_⟩
    show '.' ∉ (String.ofList entity).toList
    rw [String.toList_ofList]
    exact (Text.cut_eq_some hcut).2

/-- **Which columns are named by their result names**: those without an alias of their own, if there
is no point in the linked entity, or else in the name. -/
theorem ofResultName_resultName_iff :
    ofResultName c.resultName = c ↔
      c.ownAlias = none ∧ '.' ∉ (c.entityAlias.getD c.name).toList := by
  constructor
  · intro h
    rw [← h]
    exact ofResultName_spec _
  · rintro ⟨halias, hpoint⟩
    obtain ⟨name, ownAlias, entityAlias⟩ := c
    obtain rfl : ownAlias = none := halias
    cases entityAlias with
    | none => exact ofResultName_of_not_mem hpoint
    | some entity => exact ofResultName_append hpoint name

theorem map_resultName (texts : List String) :
    (texts.map ofResultName).map (·.resultName) = texts := by
  rw [List.map_map]
  exact (List.map_congr_left fun text _ => resultName_ofResultName text).trans (List.map_id texts)

end Column

/-! ### Cells for names -/

namespace Cell

variable {text : String} {texts : List String}

theorem lastNamed?_ofResultName (h : text ∈ texts) :
    lastNamed? (texts.map Column.ofResultName) text = some (.ofResultName text) := by
  have hsome : (lastNamed? (texts.map Column.ofResultName) text).isSome := by
    rw [lastNamed?_isSome, Column.map_resultName]
    exact h
  obtain ⟨c, hc⟩ := Option.isSome_iff_exists.1 hsome
  obtain ⟨other, -, rfl⟩ := List.mem_map.1 (mem_of_lastNamed? hc)
  have hname := resultName_of_lastNamed? hc
  rw [Column.resultName_ofResultName] at hname
  rw [hc, hname]

/-- **Where there are no cells yet, each name gets a hidden cell** where it comes first. -/
theorem reconcileColumns_texts (texts : List String) :
    reconcileColumns (texts.map Column.ofResultName) [] =
      texts.eraseDups.map fun text => hidden (.ofResultName text) := by
  have hnone : WellNamed [] := ⟨List.nodup_nil, by simp⟩
  have hnew : newNames (texts.map Column.ofResultName) (names []) = texts.eraseDups := by
    rw [newNames, Column.map_resultName]
    simp [names]
  rw [hnone.reconcileColumns_eq, hnew]
  refine List.map_congr_left fun text htext => ?_
  rw [fresh, lastNamed?_ofResultName (List.mem_eraseDups.1 htext), hidden,
    Column.resultName_ofResultName]

theorem names_hidden (texts : List String) :
    names (texts.map fun text => hidden (.ofResultName text)) = texts := by
  calc names (texts.map fun text => hidden (.ofResultName text))
      = (texts.map Column.ofResultName).map (·.resultName) := by
        rw [names, List.map_map, List.map_map]
        rfl
    _ = texts := Column.map_resultName texts

end Cell

namespace Layout

variable {text root : String} {catalog : Catalog}

/-- No cells come from a document: it holds no grid, or a grid without cells, or one that selects no
entity. -/
def HoldsNoCells (text : String) (catalog : Catalog) : Prop :=
  Text.blank text = true ∨ ∃ grid, Grid.read text = .ok grid ∧
    ∀ g, grid = some g → g.cells = [] ∨ g.object.bind catalog.entityOfCode? = none

theorem ofGrid_cells_eq_nil {grid : Option Grid}
    (h : ∀ g, grid = some g → g.cells = [] ∨ g.object.bind catalog.entityOfCode? = none) :
    (ofGrid catalog root grid).cells = [] := by
  cases grid with
  | none => rfl
  | some g =>
    rw [ofGrid, Option.bind_some]
    cases hentity : g.object.bind catalog.entityOfCode? with
    | none => rfl
    | some e =>
      rcases h g rfl with hcells | hnone
      · exact hcells
      · rw [hnone] at hentity
        cases hentity

theorem HoldsNoCells.read_eq (h : HoldsNoCells text catalog) (columns : List Column) :
    ∃ l, Layout.read text catalog root columns = .ok l ∧
      l.cells = Cell.reconcileColumns columns [] := by
  rw [Layout.read_eq]
  rcases h with hblank | ⟨grid, hgrid, hnone⟩
  · rw [if_pos hblank]
    exact ⟨_, rfl, rfl⟩
  · split
    · exact ⟨_, rfl, rfl⟩
    · rw [hgrid]
      refine ⟨_, rfl, ?_⟩
      show Cell.reconcileColumns columns (ofGrid catalog root grid).cells = _
      rw [ofGrid_cells_eq_nil hnone]

/-- **The cells of a layout that starts without cells**: there is one for each text. -/
theorem read_of_texts (h : HoldsNoCells text catalog) (root : String) (texts : List String) :
    ∃ l, Layout.read text catalog root (texts.map Column.ofResultName) = .ok l ∧
      l.cells = texts.eraseDups.map fun text => .hidden (.ofResultName text) := by
  obtain ⟨l, hread, hcells⟩ := h.read_eq (texts.map Column.ofResultName)
  exact ⟨l, hread, hcells.trans (Cell.reconcileColumns_texts texts)⟩

end Layout

namespace Column

/-- **Columns by their result names.**  Every text is the result name of the column that it names.
A column without an alias is named by its result name exactly if there is no point in its linked
entity, or none in its name where it has no linked entity.  Where a layout starts without cells, the
columns that texts name get cells that are named by these texts, each of them once and in the order
in which they come first. -/
theorem names_in_layout :
    (∀ text, (ofResultName text).resultName = text) ∧
      (∀ c : Column, c.ownAlias = none →
        (ofResultName c.resultName = c ↔
          (∃ entity, c.entityAlias = some entity ∧ '.' ∉ entity.toList) ∨
            c.entityAlias = none ∧ '.' ∉ c.name.toList)) ∧
      ∀ (document : String) (catalog : Catalog) (root : String) (texts : List String),
        Layout.HoldsNoCells document catalog →
        ∃ l, Layout.read document catalog root (texts.map ofResultName) = .ok l ∧
          l.cells.map (·.name) = texts.eraseDups ∧
          l.cells = texts.eraseDups.map fun text => .hidden (ofResultName text) := by
  refine ⟨resultName_ofResultName, fun c halias => ?_, fun document catalog root texts h => ?_⟩
  · rw [ofResultName_resultName_iff]
    obtain ⟨name, ownAlias, entityAlias⟩ := c
    cases entityAlias with
    | none => simp_all
    | some entity => simp_all
  · obtain ⟨l, hread, hcells⟩ := Layout.read_of_texts h root texts
    refine ⟨l, hread, ?_, hcells⟩
    rw [hcells]
    exact Cell.names_hidden _

/-- A catalog with one entity. -/
def accountCatalog : Catalog :=
  ⟨[{ logicalName := "account", objectTypeCode := some 1 }], true, []⟩

/-- Of two columns with a point in their names the one of a linked entity is named by its result
name and the other one is not; in the layout of an empty grid a text that comes twice has one
cell. -/
theorem names_in_layout_of_points :
    ofResultName (resultName ⟨"a.b", none, some "c"⟩) = ⟨"a.b", none, some "c"⟩ ∧
      ofResultName (resultName ⟨"a.b", none, none⟩) ≠ ⟨"a.b", none, none⟩ ∧
      Layout.HoldsNoCells "<grid object=\"1\"><row/></grid>" accountCatalog ∧
      ∃ l, Layout.read "<grid object=\"1\"><row/></grid>" accountCatalog "contact"
          (["c.a.b", "name", "c.a.b"].map ofResultName) = .ok l ∧
        l.cells.map (·.name) = ["c.a.b", "name"] := by
  obtain ⟨-, hnamed, hcells⟩ := names_in_layout
  have hgrid : Grid.read "<grid object=\"1\"><row/></grid>" = .ok (some ⟨some 1, []⟩) := by
    decide +kernel
  have hempty : Layout.HoldsNoCells "<grid object=\"1\"><row/></grid>" accountCatalog := by
    refine .inr ⟨_, hgrid, ?_⟩
    rintro g ⟨⟩
    exact .inl rfl
  obtain ⟨l, hread, hnames, -⟩ :=
    hcells _ accountCatalog "contact" ["c.a.b", "name", "c.a.b"] hempty
  refine ⟨(hnamed _ rfl).2 (.inl ⟨"c", rfl, by decide⟩), fun h => ?_, hempty, l, hread, hnames⟩
  rcases (hnamed _ rfl).1 h with ⟨entity, hentity, -⟩ | ⟨-, hpoint⟩
  · cases hentity
  · exact hpoint (by decide)

end Column

end QueryEditor
