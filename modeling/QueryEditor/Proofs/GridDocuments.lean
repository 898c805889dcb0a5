import QueryEditor.Layout.Grid
import QueryEditor.Proofs.LayoutCells
import QueryEditor.Proofs.MarkupDocuments
import QueryEditor.Proofs.Numerals

/-!
# Grid documents read back

A grid document that was written is read as the object type code and the cells that were written,
in their order, not yet bound to columns.

* `Layout.gridElement` : the document of an entity and some cells, which `Layout.document_eq`
  ties to a layout.
* `Grid.cellOfTag_written` : the tag of a cell gives its name and its width.
* `Grid.Reader.foldlM_cells` : the cells of the row, by induction on them.
* `Grid.read_gridElement_firstOfEach` : **what is read of a written document**; of several cells of
  a name the first one counts.
-/

namespace QueryEditor

open Markup (Element Event Tag isName)

namespace Layout

/-- The grid document of an entity with these cells. -/
def gridElement (code : Option Int32) (primaryId primaryName : String) (cells : List Cell) :
    Element :=
  .parent "grid" (gridAttributes code primaryName)
    [.parent "row" [("name", "result"), ("id", primaryId)] (cells.map cellElement)]

/-- The cells that are written. -/
def written (l : Layout) : List Cell := l.visible.filter (·.isBound)

theorem document_eq {l : Layout} {e : Entity} {primaryId primaryName : String}
    (he : l.entity = some e) (hid : e.primaryIdAttribute = some primaryId)
    (hname : e.primaryNameAttribute = some primaryName) :
    l.document = .ok (gridElement e.objectTypeCode primaryId primaryName l.written) := by
  unfold document
  rw [he]
  dsimp only
  rw [hid, hname]
  rfl

/-! ### The tags of a document -/

/-- The attributes of a cell. -/
def cellAttributes (c : Cell) : List (String × String) :=
  [("name", c.name), ("width", Numeral.ofUInt32 c.width)]

/-- The tag of a cell. -/
def cellTag (c : Cell) : Tag :=
  ⟨"cell".toList, (cellAttributes c).flatMap Element.attributeText⟩

/-- The tag of the grid. -/
def gridTag (code : Option Int32) (primaryName : String) : Tag :=
  ⟨"grid".toList, (gridAttributes code primaryName).flatMap Element.attributeText⟩

/-- The tag of the row. -/
def rowTag (primaryId : String) : Tag :=
  ⟨"row".toList, [("name", "result"), ("id", primaryId)].flatMap Element.attributeText⟩

theorem isName_of_mem_cellAttributes {c : Cell} : ∀ a ∈ cellAttributes c, isName a.1 = true := by
  refine Markup.forall_isName ?_
  change ∀ name ∈ ["name", "width"], isName name = true
  decide

theorem isName_of_mem_rowAttributes {primaryId : String} :
    ∀ a ∈ [("name", "result"), ("id", primaryId)], isName a.1 = true := by
  refine Markup.forall_isName ?_
  change ∀ name ∈ ["name", "id"], isName name = true
  decide

theorem names_gridAttributes (code : Option Int32) (primaryName : String) :
    (gridAttributes code primaryName).map (·.1) =
      if code.isSome then ["name", "object", "jump", "select", "icon", "preview"]
      else ["name", "jump", "select", "icon", "preview"] := by
  cases code <;> rfl

theorem isName_of_mem_gridAttributes {code : Option Int32} {primaryName : String} :
    ∀ a ∈ gridAttributes code primaryName, isName a.1 = true := by
  refine Markup.forall_isName ?_
  rw [names_gridAttributes]
  split <;> decide

theorem gridElement_wellFormed (code : Option Int32) (primaryId primaryName : String)
    (cells : List Cell) : (gridElement code primaryId primaryName cells).WellFormed := by
  refine ⟨rfl, isName_of_mem_gridAttributes, ⟨rfl, isName_of_mem_rowAttributes, ?_⟩, trivial⟩
  rw [Element.allWellFormed_iff]
  intro e he
  obtain ⟨c, -, rfl⟩ := List.mem_map.1 he
  exact ⟨rfl, isName_of_mem_cellAttributes⟩

theorem events_gridElement (code : Option Int32) (primaryId primaryName : String)
    (cells : List Cell) :
    (gridElement code primaryId primaryName cells).events =
      .opening (gridTag code primaryName) :: .opening (rowTag primaryId) ::
        (cells.map fun c => Event.empty (cellTag c)) ++ [.closing, .closing] := by
  have hcells : Element.eventsOfAll (cells.map cellElement) =
      cells.map fun c => Event.empty (cellTag c) :=
    Element.eventsOfAll_map (fun _ => rfl) cells
  simp [gridElement, Element.events, Element.eventsOfAll, hcells, gridTag, rowTag]

end Layout

namespace Grid

open Layout (cellTag gridTag rowTag gridElement gridAttributes)

/-! ### The tag of the grid -/

theorem ofTag_of_attributes? {t : Tag} {attributes : List (String × String)}
    (h : t.attributes? = some (attributes.map Tag.written)) :
    Grid.ofTag t = .ok ⟨(attributes.find? (·.1 == "object")).bind fun a =>
      Numeral.int32? (Text.trimmed a.2.toList), []⟩ := by
  rw [Grid.ofTag, h, Option.bind_some, Tag.valueIn?_written]
  cases attributes.find? (·.1 == "object") <;> rfl

theorem find?_object (code : Option Int32) (primaryName : String) :
    (gridAttributes code primaryName).find? (·.1 == "object") =
      code.map fun n => ("object", Numeral.ofInt32 n) := by
  cases code <;> rfl

theorem nodup_gridAttributes (code : Option Int32) (primaryName : String) :
    ((gridAttributes code primaryName).map (·.1)).Nodup := by
  rw [Layout.names_gridAttributes]
  split <;> decide

theorem ofTag_gridTag (code : Option Int32) (primaryName : String) :
    Grid.ofTag (gridTag code primaryName) = .ok { object := code } := by
  have hattributes : (gridTag code primaryName).attributes? =
      some ((gridAttributes code primaryName).map Tag.written) :=
    Tag.attributes?_written Layout.isName_of_mem_gridAttributes
      (nodup_gridAttributes code primaryName)
  rw [ofTag_of_attributes? hattributes, find?_object]
  cases code with
  | none => rfl
  | some n => simp [Numeral.int32?_trimmed_ofInt32]

/-! ### The tag of a cell -/

/-- A cell before it is bound. -/
def bare (c : Cell) : Cell := { c with column := none }

theorem cellTexts?_of_attributes? {t : Tag} {attributes : List (String × String)}
    (h : t.attributes? = some (attributes.map Tag.written)) :
    cellTexts? t = some ((attributes.find? (·.1 == "name")).map (·.2.toList),
      (attributes.find? (·.1 == "width")).map (·.2.toList)) := by
  simp [cellTexts?, h, Tag.valueIn?_written]

theorem nodup_cellAttributes (c : Cell) : ((Layout.cellAttributes c).map (·.1)).Nodup := by
  change ["name", "width"].Nodup
  decide

/-- **The tag of a cell gives its name and its width.** -/
theorem cellOfTag_written (c : Cell) : cellOfTag (cellTag c) = .ok (bare c) := by
  have hattributes : (cellTag c).attributes? = some ((Layout.cellAttributes c).map Tag.written) :=
    Tag.attributes?_written Layout.isName_of_mem_cellAttributes (nodup_cellAttributes c)
  have hname : (Layout.cellAttributes c).find? (·.1 == "name") = some ("name", c.name) := rfl
  have hwidth : (Layout.cellAttributes c).find? (·.1 == "width") =
      some ("width", Numeral.ofUInt32 c.width) := rfl
  unfold cellOfTag
  rw [cellTexts?_of_attributes? hattributes, hname, hwidth]
  simp [Numeral.uint32?_trimmed_ofUInt32, bare]

/-! ### The document -/

/-- Of several cells of a name the first one stays. -/
theorem foldl_addCell (code : Option Int32) (cells : List Cell) :
    cells.foldl addCell { object := code } =
      { object := code, cells := Cell.firstOfEach (·.name) cells } := by
  have hadd (g : Grid) (c : Cell) :
      g.addCell c = { g with cells := Cell.keepFirst (·.name) g.cells c } := by
    unfold addCell Cell.keepFirst
    split <;> rfl
  have hfold (g : Grid) : cells.foldl addCell g =
      { g with cells := cells.foldl (Cell.keepFirst (·.name)) g.cells } := by
    induction cells generalizing g with
    | nil => rfl
    | cons c cells ih => rw [List.foldl_cons, ih, hadd, List.foldl_cons]
  rw [hfold, Cell.foldl_keepFirst_nil]

namespace Reader

theorem foldlM_cons_of_step {r r' : Reader} {e : Event} (h : r.step e = .ok r')
    (es : List Event) : (e :: es).foldlM Reader.step r = es.foldlM Reader.step r' := by
  rw [List.foldlM_cons, h]
  rfl

/-- A tag is passed over unless it is that of a grid at the top or that of a cell in the first
row. -/
theorem readTag_eq_self {r : Reader} {depth : Nat} {t : Tag}
    (hgrid : ¬(depth = 1 ∧ t.name = "grid".toList))
    (hcell : ¬(depth = 3 ∧ t.name = "cell".toList ∧ r.inRow = true)) :
    r.readTag depth t = .ok r := by
  rw [readTag, if_neg hgrid, if_neg hcell]

/-- In the first row of a grid. -/
def inFirstRow (g : Grid) : Reader := { grid := some g, depth := 2, inRow := true, rows := 1 }

theorem step_cellTag (g : Grid) (c : Cell) :
    (inFirstRow g).step (.empty (cellTag c)) = .ok (inFirstRow (g.addCell (bare c))) := by
  have hgrid : "cell".toList ≠ "grid".toList := by decide
  have hcell : (inFirstRow g).readCell (cellTag c) = .ok (inFirstRow (g.addCell (bare c))) := by
    simp only [readCell, inFirstRow, cellOfTag_written, Except.map]
  have hfalse : ¬((inFirstRow g).depth + 1 = 1 ∧ (cellTag c).name = "grid".toList) :=
    fun hboth => hgrid hboth.2
  have htrue : (inFirstRow g).depth + 1 = 3 ∧ (cellTag c).name = "cell".toList ∧
      (inFirstRow g).inRow = true := ⟨rfl, rfl, rfl⟩
  rw [step, readTag, if_neg hfalse, if_pos htrue, hcell]

/-- The cells of the row are added in their order. -/
theorem foldlM_cells (g : Grid) (cells : List Cell) :
    (cells.map fun c => Event.empty (cellTag c)).foldlM Reader.step (inFirstRow g) =
      .ok (inFirstRow ((cells.map bare).foldl addCell g)) := by
  induction cells generalizing g with
  | nil => rfl
  | cons c cells ih =>
    rw [List.map_cons, foldlM_cons_of_step (step_cellTag g c), ih, List.map_cons, List.foldl_cons]

end Reader

theorem step_gridTag (code : Option Int32) (primaryName : String) :
    Reader.step {} (.opening (gridTag code primaryName)) =
      .ok { grid := some { object := code }, depth := 1 } := by
  have htag : (gridTag code primaryName).name = "grid".toList := rfl
  simp [Reader.step, Reader.openRow, Reader.readTag, htag, ofTag_gridTag, Except.map]

/-- The two tags at the start of a document lead into its first row. -/
theorem foldlM_start (code : Option Int32) (primaryId primaryName : String) (es : List Event) :
    (.opening (gridTag code primaryName) :: .opening (rowTag primaryId) :: es).foldlM Reader.step
        {} =
      es.foldlM Reader.step (Reader.inFirstRow { object := code }) := by
  have hrow : Reader.step { grid := some { object := code }, depth := 1 }
      (.opening (rowTag primaryId)) = .ok (Reader.inFirstRow { object := code }) := rfl
  rw [Reader.foldlM_cons_of_step (step_gridTag code primaryName), Reader.foldlM_cons_of_step hrow]

/-- **What is read of a written document**: the object type code and the first cell of each name,
not yet bound. -/
theorem read_gridElement_firstOfEach (code : Option Int32) (primaryId primaryName : String)
    (cells : List Cell) :
    Grid.read (gridElement code primaryId primaryName cells).render =
      .ok (some { object := code, cells := Cell.firstOfEach (·.name) (cells.map bare) }) := by
  unfold Grid.read
  rw [Markup.events_render (Layout.gridElement_wellFormed ..), Layout.events_gridElement,
    List.cons_append, List.cons_append, foldlM_start, List.foldlM_append, Reader.foldlM_cells,
    foldl_addCell]
  rfl

/-- Where no two cells share a name all of them are read. -/
theorem read_gridElement {cells : List Cell} (h : (Cell.names cells).Nodup)
    (code : Option Int32) (primaryId primaryName : String) :
    Grid.read (gridElement code primaryId primaryName cells).render =
      .ok (some { object := code, cells := cells.map bare }) := by
  have hnames : ((cells.map bare).map (·.name)).Nodup := by
    rw [List.map_map]
    exact h
  rw [read_gridElement_firstOfEach, Cell.firstOfEach_of_nodup hnames]

end Grid

end QueryEditor
