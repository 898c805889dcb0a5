import QueryEditor.Layout.Grid
import QueryEditor.Proofs.LayoutCells

/-!
# The layouts that can arise

A layout starts empty or is read from a document, and then cells are looked up for columns and
brought in line with columns and widths, in any order (`Layout.Reachable`).

* `Grid.wellNamed_of_read` : a document gives one unbound cell for each name at most.
* `Layout.Reachable.wellNamed` : every layout that can arise is well-named.
* `Layout.Reachable.cells_distinct` : **no two cells share a name, a bound cell goes by the
  result name of its column, and no column is bound to two cells.**
-/

namespace QueryEditor

/-! ### Reading a document -/

namespace Grid

open Markup (Event Tag)

/-- The cells of a document are not bound yet, and no two share a name. -/
def WellNamed (g : Grid) : Prop :=
  (Cell.names g.cells).Nodup ∧ ∀ cell ∈ g.cells, cell.column = none

theorem WellNamed.cells {g : Grid} (h : g.WellNamed) : Cell.WellNamed g.cells where
  nodup := h.1
  named := by
    intro cell hcell c hc
    rw [h.2 cell hcell] at hc
    cases hc

theorem cellOfTag_column {t : Tag} {cell : Cell} (h : cellOfTag t = .ok cell) :
    cell.column = none := by
  unfold cellOfTag at h
  split at h
  · cases h
  · split at h
    · cases h; rfl
    · split at h
      · cases h; rfl
      · cases h

theorem WellNamed.addCell {g : Grid} {cell : Cell} (h : g.WellNamed) (hc : cell.column = none) :
    (g.addCell cell).WellNamed := by
  unfold Grid.addCell
  split
  · exact h
  · rename_i hnew
    have hnames : cell.name ∉ Cell.names g.cells := by
      intro hmem
      obtain ⟨old, hold, hname⟩ := List.mem_map.1 hmem
      exact hnew (List.any_eq_true.2 ⟨old, hold, by simpa using hname⟩)
    have hcells := h.cells.append_singleton hnames (by simp [hc])
    refine ⟨hcells.nodup, fun other hother => ?_⟩
    rcases List.mem_append.1 hother with hold | hlast
    · exact h.2 other hold
    · rw [List.mem_singleton.1 hlast]
      exact hc

theorem WellNamed.ofTag {g : Grid} {t : Tag} (h : Grid.ofTag t = .ok g) : g.WellNamed := by
  unfold Grid.ofTag at h
  split at h
  · cases h
  · cases h
    exact ⟨List.nodup_nil, by simp⟩

namespace Reader

/-- What was read so far. -/
def WellNamed (r : Reader) : Prop := ∀ g, r.grid = some g → g.WellNamed

theorem WellNamed.readTag {r r' : Reader} {depth : Nat} {t : Tag} (h : r.WellNamed)
    (hr : r.readTag depth t = .ok r') : r'.WellNamed := by
  unfold Reader.readTag at hr
  split at hr
  · cases ht : Grid.ofTag t with
    | error e => rw [ht] at hr; cases hr
    | ok g =>
      rw [ht] at hr
      cases hr
      rintro _ ⟨⟩
      exact .ofTag ht
  · split at hr
    · unfold Reader.readCell at hr
      cases hg : r.grid with
      | none => rw [hg] at hr; cases hr; exact h
      | some g =>
        rw [hg] at hr
        cases hc : cellOfTag t with
        | error e => simp only [hc] at hr; cases hr
        | ok cell =>
          simp only [hc] at hr
          cases hr
          rintro _ ⟨⟩
          exact (h g hg).addCell (cellOfTag_column hc)
    · cases hr
      exact h

theorem openRow_grid (r : Reader) (t : Tag) : (r.openRow t).grid = r.grid := by
  unfold openRow
  split <;> rfl

theorem WellNamed.step {r r' : Reader} {e : Event} (h : r.WellNamed)
    (hr : r.step e = .ok r') : r'.WellNamed := by
  cases e with
  | opening t =>
    refine WellNamed.readTag (fun g hg => h g ?_) hr
    rwa [openRow_grid] at hg
  | empty t => exact h.readTag hr
  | closing => cases hr; exact h
  | malformed => cases hr

theorem WellNamed.foldlM {r r' : Reader} {es : List Event} (h : r.WellNamed)
    (hr : es.foldlM Reader.step r = .ok r') : r'.WellNamed := by
  induction es generalizing r with
  | nil => cases hr; exact h
  | cons e es ih =>
    rw [List.foldlM_cons] at hr
    cases hs : r.step e with
    | error _ => rw [hs] at hr; cases hr
    | ok r₁ =>
      rw [hs] at hr
      exact ih (h.step hs) hr

end Reader

/-- **A document gives one unbound cell for each name at most.** -/
theorem wellNamed_of_read {text : String} {g : Grid} (h : Grid.read text = .ok (some g)) :
    g.WellNamed := by
  unfold Grid.read at h
  cases hr : (Markup.events text).foldlM Reader.step {} with
  | error e => rw [hr] at h; cases h
  | ok r =>
    rw [hr] at h
    have hg : r.grid = some g := Except.ok.inj h
    have hstart : Reader.WellNamed {} := by
      rintro _ ⟨⟩
    exact hstart.foldlM hr g hg

end Grid

namespace Layout

variable {l : Layout} {text root : String} {catalog : Catalog} {columns : List Column}

/-- The layout that a document stands for before it is brought in line with columns. -/
def ofGrid (catalog : Catalog) (root : String) (grid : Option Grid) : Layout :=
  (grid.bind fun g => (g.object.bind catalog.entityOfCode?).map fun e =>
    { entityName := e.logicalName, entity := some e, cells := g.cells }).getD
      { entityName := root, entity := catalog.entity? root }

theorem read_eq : Layout.read text catalog root columns =
    (if Text.blank text then .ok none else Grid.read text).map fun grid =>
      (ofGrid catalog root grid).reconcileColumns columns := rfl

theorem ofGrid_wellNamed {grid : Option Grid} (h : ∀ g, grid = some g → g.WellNamed) :
    Cell.WellNamed (ofGrid catalog root grid).cells := by
  have hempty : Cell.WellNamed [] := ⟨List.nodup_nil, by simp⟩
  cases grid with
  | none => exact hempty
  | some g =>
    rw [ofGrid, Option.bind_some]
    cases g.object.bind catalog.entityOfCode? with
    | none => exact hempty
    | some e => exact (h g rfl).cells

/-- What is read is brought in line with the columns of the query. -/
theorem exists_of_read (h : Layout.read text catalog root columns = .ok l) :
    ∃ grid, l = (ofGrid catalog root grid).reconcileColumns columns ∧
      Cell.WellNamed (ofGrid catalog root grid).cells := by
  rw [read_eq] at h
  split at h
  · cases h
    exact ⟨none, rfl, ofGrid_wellNamed (by simp)⟩
  · cases hg : Grid.read text with
    | error e => rw [hg] at h; cases h
    | ok grid =>
      rw [hg] at h
      cases h
      exact ⟨grid, rfl, ofGrid_wellNamed fun g hsome => Grid.wellNamed_of_read (hsome ▸ hg)⟩

/-! ### Runs -/

/-- The layouts that can arise. -/
inductive Reachable : Layout → Prop
  /-- A layout without cells. -/
  | new (entityName : String) (entity : Option Entity) : Reachable { entityName, entity }
  /-- A layout that was read. -/
  | read {text root : String} {catalog : Catalog} {columns : List Column} {l : Layout} :
      Layout.read text catalog root columns = .ok l → Reachable l
  /-- A cell was looked up for a column. -/
  | cellFor {l : Layout} (c : Column) : Reachable l → Reachable (l.cellFor c).2
  /-- The cells were brought in line with columns. -/
  | reconcileColumns {l : Layout} (columns : List Column) :
      Reachable l → Reachable (l.reconcileColumns columns)
  /-- The cells were given widths. -/
  | reconcileWidths {l : Layout} (widths : List (String × UInt32)) (columns : List Column) :
      Reachable l → Reachable (l.reconcileWidths widths columns)

theorem cellFor_wellNamed (h : Cell.WellNamed l.cells) (c : Column) :
    Cell.WellNamed (l.cellFor c).2.cells := by
  have hclaim := h.claim?_eq (c := c)
  unfold cellFor
  cases hc : Cell.claim? l.cells c with
  | none => exact h
  | some found =>
    obtain ⟨i, cells⟩ := found
    rw [hc] at hclaim
    split at hclaim
    · obtain rfl : cells = l.cells.map (Cell.bindTo c) := Option.some.inj hclaim
      exact h.map_bindTo
    · cases hclaim

theorem Reachable.wellNamed (h : l.Reachable) : Cell.WellNamed l.cells := by
  induction h with
  | new => exact ⟨List.nodup_nil, by simp⟩
  | read h =>
    obtain ⟨grid, rfl, hgrid⟩ := exists_of_read h
    exact hgrid.reconcileColumns _
  | cellFor c _ ih => exact cellFor_wellNamed ih c
  | reconcileColumns columns _ ih => exact ih.reconcileColumns columns
  | reconcileWidths widths columns _ ih => exact ih.reconcileWidths widths columns

/-- **The cells of every layout that can arise are distinct**: no two share a name, a bound one
goes by the result name of its column, and no column is bound to two of them. -/
theorem Reachable.cells_distinct (h : l.Reachable) :
    (l.cells.map (·.name)).Nodup ∧
      (∀ cell ∈ l.cells, ∀ c, cell.column = some c → cell.name = c.resultName) ∧
      (l.cells.filterMap (·.column)).Nodup :=
  ⟨h.wellNamed.nodup, h.wellNamed.named, h.wellNamed.columns_nodup⟩

/-- Two columns of one name, a lookup for the first of them, and widths with a repeated name. -/
theorem cells_distinct_of_colliding_names :
    let plain : Column := { name := "c.name" }
    let linked : Column := { name := "name", entityAlias := some "c" }
    let l : Layout := (((({ entityName := "account", entity := none } : Layout).reconcileColumns
      [plain, linked]).cellFor plain).2).reconcileWidths [("x", 9), ("c.name", 80), ("x", 7)]
        [linked, plain]
    l.Reachable ∧ l.cells = [⟨"x", 9, none⟩, ⟨"c.name", 80, some plain⟩] ∧
      (l.cells.map (·.name)).Nodup ∧
      (∀ cell ∈ l.cells, ∀ c, cell.column = some c → cell.name = c.resultName) ∧
      (l.cells.filterMap (·.column)).Nodup := by
  intro plain linked l
  have h : l.Reachable :=
    .reconcileWidths _ _ (.cellFor _ (.reconcileColumns _ (.new _ _)))
  exact ⟨h, by decide +kernel, h.cells_distinct⟩

end Layout

end QueryEditor
