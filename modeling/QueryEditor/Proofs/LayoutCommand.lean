import QueryEditor.Console.Run
import QueryEditor.Proofs.LayoutRoundTrip
import QueryEditor.Proofs.LayoutWidths

/-!
# The layout command with widths

Given widths, the layout command writes the cells that were chosen and no others.  A layout that
was read has only cells of columns, so an entry has a bound cell exactly when a column goes by its
name, whether the cell was read or added; and every cell without an entry is hidden.

* `Cell.chosen` : the cells that a list of widths asks for.
* `Layout.written_reconcileWidths` : what is written of a layout after a choice of widths.
* `Console.exists_of_writeLayout` : what a run of the command that succeeds goes through.
* `Console.run_layout_writes_chosen` : **a run writes exactly the chosen cells**, whatever layout
  was there before.
-/

namespace QueryEditor

namespace Cell

variable {cells : List Cell} {columns : List Column} {widths : List (String × UInt32)}

/-- The cell that an entry asks for, not yet bound. -/
def ofEntry (e : String × UInt32) : Cell := ⟨e.1, e.2, none⟩

/-- The cells that a list of widths asks for: of the first entry of each name those whose width is
not zero and whose name is that of a column. -/
def chosen (widths : List (String × UInt32)) (columns : List Column) : List Cell :=
  ((widths.eraseDupsBy sameName).filter fun e =>
    0 < e.2 && (columns.map (·.resultName)).contains e.1).map ofEntry

/-- Every cell is bound and goes by the name of a column. -/
def AllShown (columns : List Column) (cells : List Cell) : Prop :=
  ∀ cell ∈ cells, cell.isBound = true ∧ cell.name ∈ columns.map (·.resultName)

theorem WellNamed.allShown_reconcileColumns (h : WellNamed cells) (columns : List Column) :
    AllShown columns (Cell.reconcileColumns columns cells) := by
  intro cell hcell
  have hbound : cell.isBound = true := (List.mem_filter.1 hcell).2
  have hlast := (h.synced_reconcileColumns columns).last cell hcell hbound
  refine ⟨hbound, lastNamed?_isSome.1 ?_⟩
  rw [← hlast]
  exact hbound

/-- An entry has a bound cell exactly when its name is that of a column. -/
theorem AllShown.placed_isBound (h : AllShown columns cells) (e : String × UInt32) :
    (placed columns cells e).isBound = (columns.map (·.resultName)).contains e.1 := by
  unfold placed
  cases hf : cells.find? (·.name == e.1) with
  | some cell =>
    obtain ⟨hbound, hname⟩ := h cell (List.mem_of_find?_eq_some hf)
    have heq : cell.name = e.1 := by simpa using List.find?_some hf
    rw [List.contains_iff_mem.2 (heq ▸ hname)]
    exact hbound
  | none =>
    change (columns.find? (·.resultName == e.1)).isSome = _
    rw [Bool.eq_iff_iff, List.find?_isSome, List.contains_iff_mem, List.mem_map]
    simp

/-- **The cells that are shown and bound after a choice of widths.** -/
theorem AllShown.filter_reconcileWidths (h : AllShown columns cells)
    (hnodup : (names cells).Nodup) (widths : List (String × UInt32)) :
    (((reconcileWidths widths columns cells).filter (·.isVisible)).filter (·.isBound)).map
        Grid.bare = chosen widths columns := by
  have hhidden : ((withoutFirst ((firstWidths widths).map (·.1)) cells).map
      (resized (firstWidths widths))).filter (·.isVisible) = [] := by
    refine List.filter_eq_nil_iff.2 fun cell hcell => ?_
    obtain ⟨old, hold, rfl⟩ := List.mem_map.1 hcell
    have hname := (not_mem_of_mem_withoutFirst hnodup hold).2
    simp [isVisible, resized, widthIn_of_not_mem hname]
  have hfront : (firstWidths widths).filter
      (fun e => (placed columns cells e).isBound && (placed columns cells e).isVisible) =
        (firstWidths widths).filter fun e =>
          0 < e.2 && (columns.map (·.resultName)).contains e.1 := by
    refine List.filter_congr fun e _ => ?_
    rw [h.placed_isBound, Bool.and_comm]
    rfl
  have hbare : Grid.bare ∘ placed columns cells = ofEntry := by
    funext e
    exact congrArg (fun name => (⟨name, e.2, none⟩ : Cell)) (placed_name e)
  rw [reconcileWidths_eq, List.filter_append, hhidden, List.append_nil, List.filter_filter,
    List.filter_map, List.map_map, hbare, chosen, ← firstWidths_eq_eraseDupsBy, ← hfront]
  rfl

end Cell

namespace Layout

open Markup (Element)

variable {l : Layout} {text root : String} {catalog : Catalog} {columns : List Column}

/-- What is written of a layout that was read, after a choice of widths. -/
theorem written_reconcileWidths (h : Layout.read text catalog root columns = .ok l)
    (widths : List (String × UInt32)) :
    (l.reconcileWidths widths columns).written.map Grid.bare = Cell.chosen widths columns := by
  have hnodup : (Cell.names l.cells).Nodup := (synced_of_read h).nodup
  obtain ⟨grid, rfl, hgrid⟩ := exists_of_read h
  exact (hgrid.allShown_reconcileColumns columns).filter_reconcileWidths hnodup widths

/-- Only the names and the widths of cells are written. -/
theorem gridElement_bare (code : Option Int32) (primaryId primaryName : String)
    (cells : List Cell) :
    gridElement code primaryId primaryName (cells.map Grid.bare) =
      gridElement code primaryId primaryName cells := by
  unfold gridElement
  rw [List.map_map]
  rfl

end Layout

namespace Console

variable {files : Files} {s : Session} {options : Options} {args names : List String}
  {entity list : String} {path : Option String}

/-- What an outcome prints is the document `xml`, as it is or as a member of a value. -/
def Outcome.Prints (o : Outcome) (format : Format) (xml : String) : Prop :=
  match format with
  | .text => o.stdout = unlines [xml]
  | .json => ∃ layout summary, o = .printJson (.object
      [ .always "layout" layout,
        .always "summary" summary,
        .always "xml" (.text xml) ])

/-- An outcome prints a grid document with exactly these cells, and whoever reads the document
finds them in it. -/
def Outcome.WritesCells (o : Outcome) (format : Format) (cells : List Cell) : Prop :=
  ∃ xml code primaryId primaryName, o.Prints format xml ∧
    xml = (Layout.gridElement code primaryId primaryName cells).render ∧
    Grid.read xml = .ok (some { object := code, cells })

theorem exists_of_bind {ε α β : Type} {x : Except ε α} {f : α → Except ε β} {b : β}
    (h : (x >>= f) = .ok b) : ∃ a, x = .ok a ∧ f a = .ok b := by
  cases x with
  | error e => cases h
  | ok a => exact ⟨a, rfl, h⟩

theorem eq_ok_of_mapError {ε ε' α : Type} {x : Except ε α} {f : ε → ε'} {a : α}
    (h : x.mapError f = .ok a) : x = .ok a := by
  cases x with
  | error e => cases h
  | ok a' =>
    cases h
    rfl

/-- What is read, chosen and written when a layout is given widths. -/
theorem exists_of_updateLayout {layout : Layout} {xml : String}
    (h : updateLayout files s entity path names (some list) = .ok (layout, xml)) :
    ∃ text persisted widths,
      Layout.read text s.catalog entity (names.map Column.ofResultName) = .ok persisted ∧
      readWidths list = .ok widths ∧
      (persisted.reconcileWidths widths (names.map Column.ofResultName)).toXml = .ok xml := by
  unfold updateLayout at h
  obtain ⟨text, -, h⟩ := exists_of_bind h
  obtain ⟨persisted, hread, h⟩ := exists_of_bind h
  obtain ⟨layout', hwidths, h⟩ := exists_of_bind h
  obtain ⟨xml', hxml, h⟩ := exists_of_bind h
  cases h
  unfold applyWidths at hwidths
  cases hlist : readWidths list with
  | error e => simp only [hlist] at hwidths; cases hwidths
  | ok widths =>
    simp only [hlist] at hwidths
    cases hwidths
    exact ⟨text, persisted, widths, eq_ok_of_mapError hread, rfl, eq_ok_of_mapError hxml⟩

/-- A run of the command that succeeds prints the document that it has made. -/
theorem exists_of_writeLayout
    (h : (writeLayout files s entity path names (some list)).exitCode = 0) :
    ∃ layout xml, updateLayout files s entity path names (some list) = .ok (layout, xml) ∧
      (writeLayout files s entity path names (some list)).Prints s.options.format xml := by
  unfold writeLayout at h ⊢
  cases hu : updateLayout files s entity path names (some list) with
  | error message => rw [hu] at h; cases h
  | ok made =>
    obtain ⟨layout, xml⟩ := made
    refine ⟨layout, xml, rfl, ?_⟩
    unfold Outcome.Prints
    dsimp only
    cases s.options.format with
    | text => rfl
    | json => exact ⟨_, _, rfl⟩

/-- A command that succeeds given widths writes the chosen cells. -/
theorem writeLayout_writesCells
    (h : (writeLayout files s entity path names (some list)).exitCode = 0) :
    ∃ widths, readWidths list = .ok widths ∧
      (writeLayout files s entity path names (some list)).WritesCells s.options.format
        (Cell.chosen widths (names.map Column.ofResultName)) := by
  obtain ⟨layout, xml, hupdate, hprints⟩ := exists_of_writeLayout h
  obtain ⟨text, persisted, widths, hread, hwidths, hxml⟩ := exists_of_updateLayout hupdate
  obtain ⟨e, primaryId, primaryName, -, hrender⟩ := Layout.exists_of_toXml hxml
  have hwritten := Layout.written_reconcileWidths hread widths
  have hnodup : (Cell.names (persisted.reconcileWidths widths
      (names.map Column.ofResultName)).written).Nodup :=
    List.Nodup.sublist ((Layout.written_sublist _).map _)
      ((Layout.synced_of_read hread).reconcileWidths widths).nodup
  refine ⟨widths, hwidths, xml, e.objectTypeCode, primaryId, primaryName, hprints, ?_, ?_⟩
  · rw [hrender, ← hwritten, Layout.gridElement_bare]
  · rw [hrender, Grid.read_gridElement hnodup, hwritten]

theorem options_of_load (h : Session.load files options = .ok s) : s.options = options := by
  unfold Session.load at h
  obtain ⟨config, -, h⟩ := exists_of_bind h
  obtain ⟨settings, -, h⟩ := exists_of_bind h
  obtain ⟨snapshot, -, h⟩ := exists_of_bind h
  cases h
  rfl

/-- A run that succeeds carries out its command on what the files describe. -/
theorem exists_session_of_run {command : Command}
    (hargs : Request.ofArguments args = .ok (.perform options command))
    (h : (run files args).exitCode = 0) :
    ∃ s : Session, s.options = options ∧ run files args = command.carryOut files s := by
  have hrun : run files args = (Request.perform options command).carryOut files := by
    rw [run, hargs]
  rw [hrun] at h ⊢
  unfold Request.carryOut at h ⊢
  cases hload : Session.load files options with
  | error message => simp only [hload] at h; cases h
  | ok s => exact ⟨s, options_of_load hload, by simp only [hload]⟩

theorem run_layout_writesCells
    (hargs : Request.ofArguments args =
      .ok (.perform options (.layout entity path names (some list))))
    (h : (run files args).exitCode = 0) :
    ∃ widths, readWidths list = .ok widths ∧
      (run files args).WritesCells options.format
        (Cell.chosen widths (names.map Column.ofResultName)) := by
  obtain ⟨s, rfl, hrun⟩ := exists_session_of_run hargs h
  rw [hrun] at h ⊢
  exact writeLayout_writesCells h

/-- **A run writes exactly the chosen cells.**  If the layout command is given widths and
succeeds, the widths can be read and the grid document that is printed has these cells: the first
entry of each name in the order of the list, where the width is not zero and the name is that of
one of the columns given.  Every other run with the same columns and widths that succeeds writes
the same cells, whatever its files, its entity and the layout that was there before. -/
theorem run_layout_writes_chosen
    (hargs : Request.ofArguments args =
      .ok (.perform options (.layout entity path names (some list))))
    (h : (run files args).exitCode = 0) :
    ∃ widths, readWidths list = .ok widths ∧
      (run files args).WritesCells options.format
        (Cell.chosen widths (names.map Column.ofResultName)) ∧
      ∀ (files' : Files) (args' : List String) (options' : Options) (entity' : String)
        (path' : Option String),
        Request.ofArguments args' =
          .ok (.perform options' (.layout entity' path' names (some list))) →
        (run files' args').exitCode = 0 →
        (run files' args').WritesCells options'.format
          (Cell.chosen widths (names.map Column.ofResultName)) := by
  obtain ⟨widths, hwidths, hwrites⟩ := run_layout_writesCells hargs h
  refine ⟨widths, hwidths, hwrites, fun files' args' options' entity' path' hargs' h' => ?_⟩
  obtain ⟨widths', hwidths', hwrites'⟩ := run_layout_writesCells hargs' h'
  obtain rfl : widths = widths' := Except.ok.inj (hwidths.symm.trans hwidths')
  exact hwrites'

/-! ### Widths for an account -/

/-- A snapshot of one entity, and a layout with two cells, one of them of no column. -/
def accountFiles : Files
  | "catalog.json" => .ok ("\x7b\"entities\":[\x7b\"logical_name\":\"account\"," ++
      "\"object_type_code\":1,\"primary_id_attribute\":\"accountid\"," ++
      "\"primary_name_attribute\":\"name\"\x7d]\x7d")
  | "layout.xml" => .ok ("<grid object=\"1\"><row><cell name=\"gone\" width=\"80\"/>" ++
      "<cell name=\"name\" width=\"9\"/></row></grid>")
  | _ => .error .notFound

/-- Widths with a repeated name, a name of no column and a zero. -/
def accountWidths : String := "c.y=50, gone=7, name=80, c.y=9, c.x=0"

/-- A command line that asks for the widths after some other options. -/
def accountArguments (others : List String) : List String :=
  ["layout", "--entity", "account", "--catalog", "catalog.json", "--attribute", "name",
    "--attribute", "c.x", "--attribute", "c.y", "--widths", accountWidths] ++ others

/-- With the layout and without it, and in both forms of output, the same two cells are
written. -/
theorem run_layout_writes_chosen_of_account :
    (run accountFiles (accountArguments ["--layout", "layout.xml"])).exitCode = 0 ∧
      (run accountFiles (accountArguments ["--layout", "layout.xml"])).WritesCells .text
        [⟨"c.y", 50, none⟩, ⟨"name", 80, none⟩] ∧
      (run accountFiles (accountArguments ["--output", "json"])).exitCode = 0 ∧
      (run accountFiles (accountArguments ["--output", "json"])).WritesCells .json
        [⟨"c.y", 50, none⟩, ⟨"name", 80, none⟩] := by
  let names := ["name", "c.x", "c.y"]
  have hargs : Request.ofArguments (accountArguments ["--layout", "layout.xml"]) =
      .ok (.perform { catalog := some "catalog.json" }
        (.layout "account" (some "layout.xml") names (some accountWidths))) := by
    decide +kernel
  have hargs' : Request.ofArguments (accountArguments ["--output", "json"]) =
      .ok (.perform { catalog := some "catalog.json", format := .json }
        (.layout "account" none names (some accountWidths))) := by
    decide +kernel
  have hwidths : readWidths accountWidths =
      .ok [("c.y", 50), ("gone", 7), ("name", 80), ("c.y", 9), ("c.x", 0)] := by
    decide +kernel
  have hchosen : Cell.chosen [("c.y", 50), ("gone", 7), ("name", 80), ("c.y", 9), ("c.x", 0)]
      (names.map Column.ofResultName) = [⟨"c.y", 50, none⟩, ⟨"name", 80, none⟩] := by
    decide +kernel
  have hexit : (run accountFiles (accountArguments ["--layout", "layout.xml"])).exitCode = 0 := by
    decide +kernel
  have hexit' : (run accountFiles (accountArguments ["--output", "json"])).exitCode = 0 := by
    decide +kernel
  obtain ⟨widths, hread, hwrites, hother⟩ := run_layout_writes_chosen hargs hexit
  obtain rfl := Except.ok.inj (hwidths.symm.trans hread)
  rw [hchosen] at hwrites hother
  exact ⟨hexit, hwrites, hexit', hother _ _ _ _ _ hargs' hexit'⟩

end Console

end QueryEditor
