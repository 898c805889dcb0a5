import QueryEditor.Proofs.LayoutCells

/-!
# What a choice of widths leaves

A choice of widths puts one cell for each entry in front, in the order of the entries, and the
other cells follow hidden or with the width of their name.

* `Cell.firstWidths_eq_eraseDupsBy` : of several entries for a name the first one counts.
* `Cell.moveToFront_eq` : what ordering cells by a list of names leaves.
* `Cell.withoutFirst_eq_filter` : which cells are not moved.
* `Cell.reconcileWidths_eq` : **the cells after a choice of widths**, whatever they were before.
* `Cell.reconcileWidths_idem` : a second choice of the same widths changes nothing.
* `Layout.reconcileWidths_arranges` : **a layout after a choice of widths**, cell by cell.
-/

namespace QueryEditor

namespace Cell

variable {cells : List Cell} {columns : List Column} {name : String}
  {widths : List (String × UInt32)} {order : List String}

/-! ### Entries -/

/-- Whether two entries are for the same name. -/
def sameName (e e' : String × UInt32) : Bool := e.1 == e'.1

/-- **Of several entries for a name the first one counts.** -/
theorem firstWidths_eq_eraseDupsBy (widths : List (String × UInt32)) :
    firstWidths widths = widths.eraseDupsBy sameName := foldl_keepFirst_nil widths

theorem nodup_firstWidths (widths : List (String × UInt32)) :
    ((firstWidths widths).map (·.1)).Nodup := by
  rw [firstWidths_eq_eraseDupsBy]
  exact nodup_firstOfEach widths

/-- Where names are not repeated, an entry is the first one for its name. -/
theorem find?_of_mem (hnodup : (widths.map (·.1)).Nodup) {e : String × UInt32} (he : e ∈ widths) :
    widths.find? (·.1 == e.1) = some e := by
  obtain ⟨e', hfind⟩ : ∃ e', widths.find? (·.1 == e.1) = some e' :=
    Option.isSome_iff_exists.1 (List.find?_isSome.2 ⟨e, he, by simp⟩)
  have hname : e'.1 = e.1 := by simpa using List.find?_some hfind
  rw [hfind, List.inj_on_of_nodup_map hnodup (List.mem_of_find?_eq_some hfind) he hname]

theorem widthIn_of_mem (hnodup : (widths.map (·.1)).Nodup) {e : String × UInt32}
    (he : e ∈ widths) : widthIn widths e.1 = e.2 := by
  simp [widthIn, find?_of_mem hnodup he]

theorem widthIn_of_not_mem (h : name ∉ widths.map (·.1)) : widthIn widths name = 0 := by
  have hfind : widths.find? (·.1 == name) = none := by
    refine List.find?_eq_none.2 fun e he hname => h ?_
    exact List.mem_map.2 ⟨e, he, by simpa using hname⟩
  simp [widthIn, hfind]

/-! ### Order -/

/-- The cells without the first one of each name. -/
def withoutFirst (order : List String) (cells : List Cell) : List Cell :=
  order.foldl (fun cells name => cells.eraseP (·.name == name)) cells

@[simp] theorem withoutFirst_nil : withoutFirst [] cells = cells := rfl

@[simp] theorem withoutFirst_cons :
    withoutFirst (name :: order) cells = withoutFirst order (cells.eraseP (·.name == name)) := rfl

theorem find?_eraseP_of_ne {other : String} (h : other ≠ name) :
    (cells.eraseP (·.name == name)).find? (·.name == other) =
      cells.find? (·.name == other) := by
  induction cells with
  | nil => rfl
  | cons cell cells ih =>
    by_cases hname : cell.name = name
    · rw [List.eraseP_cons_of_pos (by simpa using hname),
        List.find?_cons_of_neg (by simpa [hname] using Ne.symm h)]
    · rw [List.eraseP_cons_of_neg (by simpa using hname), List.find?_cons, List.find?_cons, ih]

/-- Ordering cells puts the first one of each name in front, in the order of the names. -/
theorem moveToFront_eq (front : List Cell) (h : order.Nodup) :
    moveToFront front order cells =
      front ++ order.filterMap (fun name => cells.find? (·.name == name)) ++
        withoutFirst order cells := by
  induction order generalizing front cells with
  | nil => simp [moveToFront]
  | cons name order ih =>
    obtain ⟨hnew, hrest⟩ := List.nodup_cons.1 h
    unfold moveToFront
    cases hf : cells.find? (·.name == name) with
    | none =>
      have hnone : cells.eraseP (·.name == name) = cells :=
        List.eraseP_of_forall_not (List.find?_eq_none.1 hf)
      simp [ih _ hrest, hf, hnone]
    | some cell =>
      have hfind : order.filterMap
          (fun other => (cells.eraseP (·.name == name)).find? (·.name == other)) =
            order.filterMap fun other => cells.find? (·.name == other) := by
        refine List.filterMap_congr fun other hother => find?_eraseP_of_ne ?_
        rintro rfl
        exact hnew hother
      simp [ih _ hrest, hf, hfind]

theorem withoutFirst_map {f : Cell → Cell} (h : ∀ cell, (f cell).name = cell.name) :
    withoutFirst order (cells.map f) = (withoutFirst order cells).map f := by
  induction order generalizing cells with
  | nil => rfl
  | cons name order ih =>
    have hname : ((·.name == name) ∘ f : Cell → Bool) = (·.name == name) := by
      funext cell
      simp [h]
    rw [withoutFirst_cons, List.eraseP_map, hname, ih, withoutFirst_cons]

theorem ne_of_mem_eraseP (h : (names cells).Nodup) {cell : Cell}
    (hcell : cell ∈ cells.eraseP (·.name == name)) : cell.name ≠ name := by
  induction cells with
  | nil => cases hcell
  | cons first cells ih =>
    obtain ⟨hnew, hrest⟩ := List.nodup_cons.1 h
    by_cases hfirst : first.name = name
    · rw [List.eraseP_cons_of_pos (by simpa using hfirst)] at hcell
      rintro rfl
      exact hnew (List.mem_map.2 ⟨cell, hcell, hfirst.symm⟩)
    · rw [List.eraseP_cons_of_neg (by simpa using hfirst)] at hcell
      obtain rfl | hcell := List.mem_cons.1 hcell
      · exact hfirst
      · exact ih hrest hcell

/-- Where names are not repeated, no cell with one of the names is left. -/
theorem not_mem_of_mem_withoutFirst (h : (names cells).Nodup) {cell : Cell}
    (hcell : cell ∈ withoutFirst order cells) : cell ∈ cells ∧ cell.name ∉ order := by
  induction order generalizing cells with
  | nil => exact ⟨hcell, List.not_mem_nil⟩
  | cons name order ih =>
    have hsub : (cells.eraseP (·.name == name)).Sublist cells := List.eraseP_sublist
    obtain ⟨hmem, hother⟩ := ih (h.sublist (hsub.map _)) hcell
    exact ⟨hsub.subset hmem, List.not_mem_cons_of_ne_of_not_mem (ne_of_mem_eraseP h hmem) hother⟩

/-- A cell that has the first of the names takes it from the others. -/
theorem withoutFirst_cons_cell (order : List String) (cell : Cell) (cells : List Cell) :
    withoutFirst order (cell :: cells) =
      if cell.name ∈ order then withoutFirst (order.erase cell.name) cells
      else cell :: withoutFirst order cells := by
  induction order generalizing cells with
  | nil => simp
  | cons name order ih =>
    by_cases hname : cell.name = name
    · rw [withoutFirst_cons, List.eraseP_cons_of_pos (by simpa using hname), hname,
        if_pos List.mem_cons_self, List.erase_cons_head]
    · have hmem : cell.name ∈ name :: order ↔ cell.name ∈ order := by simp [hname]
      have herase : (name :: order).erase cell.name = name :: order.erase cell.name :=
        List.erase_cons_tail (by simpa using Ne.symm hname)
      rw [withoutFirst_cons, List.eraseP_cons_of_neg (by simpa using hname), ih,
        if_congr hmem rfl rfl, herase, withoutFirst_cons, withoutFirst_cons]

/-- Whether the cell at some position is not moved by an order: its name is not in the order, or
an earlier cell has that name. -/
def staysBehind (order : List String) (cells : List Cell) (p : Cell × Nat) : Bool :=
  !order.contains p.1.name || (cells.take p.2).any (·.name == p.1.name)

/-- The names of an order that none of the cells has. -/
def unseen (order : List String) (cells : List Cell) : List String :=
  order.filter fun name => !(names cells).contains name

theorem unseen_concat (order : List String) (before : List Cell) (cell : Cell) :
    unseen order (before ++ [cell]) = (unseen order before).filter (· != cell.name) := by
  have hnames : names (before ++ [cell]) = names before ++ [cell.name] := names_append _ _
  unfold unseen
  rw [List.filter_filter, hnames]
  refine List.filter_congr fun name _ => ?_
  rw [Bool.eq_iff_iff]
  simp [and_comm]

/-- Of the cells after others, those are taken out that are the first of a name. -/
theorem withoutFirst_unseen (h : order.Nodup) (before cells : List Cell) :
    withoutFirst (unseen order before) cells =
      ((cells.zipIdx before.length).filter (staysBehind order (before ++ cells))).map (·.1) := by
  induction cells generalizing before with
  | nil =>
    have hnil (order : List String) : withoutFirst order [] = [] := by
      induction order with
      | nil => rfl
      | cons name order ih => exact ih
    rw [hnil]
    rfl
  | cons cell cells ih =>
    have hrest := ih (before ++ [cell])
    rw [List.length_append, List.length_singleton, List.append_assoc, List.singleton_append,
      unseen_concat] at hrest
    have hfirst : cell.name ∈ unseen order before ↔
        staysBehind order (before ++ cell :: cells) (cell, before.length) = false := by
      rw [staysBehind, List.take_left]
      simp [unseen, names]
    rw [withoutFirst_cons_cell, List.zipIdx_cons]
    by_cases hmem : cell.name ∈ unseen order before
    · have hnodup : (unseen order before).Nodup := h.filter _
      rw [if_pos hmem, hnodup.erase_eq_filter, hrest,
        List.filter_cons_of_neg (by simp [hfirst.1 hmem])]
    · have hkeep : (unseen order before).filter (· != cell.name) = unseen order before := by
        refine List.filter_eq_self.2 fun name hname => ?_
        simpa using fun heq : name = cell.name => hmem (heq ▸ hname)
      have hbehind : staysBehind order (before ++ cell :: cells) (cell, before.length) = true := by
        rw [← Bool.not_eq_false]
        exact fun hf => hmem (hfirst.2 hf)
      rw [hkeep] at hrest
      rw [if_neg hmem, hrest, List.filter_cons_of_pos hbehind, List.map_cons]

/-- **The cells that are not moved**: those whose name is not in the order, and those that follow
another cell of their name. -/
theorem withoutFirst_eq_filter (h : order.Nodup) (cells : List Cell) :
    withoutFirst order cells = (cells.zipIdx.filter (staysBehind order cells)).map (·.1) := by
  have hall : unseen order [] = order := List.filter_eq_self.2 fun _ _ => rfl
  have hafter := withoutFirst_unseen h [] cells
  rwa [hall] at hafter

/-- Cells that stand in front in the order of their names are all moved. -/
theorem withoutFirst_names_append (front rest : List Cell) :
    withoutFirst (names front) (front ++ rest) = rest := by
  induction front with
  | nil => rfl
  | cons cell front ih =>
    have hnames : names (cell :: front) = cell.name :: names front := rfl
    rw [hnames, withoutFirst_cons, List.cons_append, List.eraseP_cons_of_pos (by simp), ih]

/-! ### A choice of widths -/

/-- The cell that an entry puts in front: the first one of its name, or else a new one. -/
def placed (columns : List Column) (cells : List Cell) (e : String × UInt32) : Cell :=
  { (cells.find? (·.name == e.1)).getD (added columns e) with width := e.2 }

/-- The entries for whose names there is no cell. -/
def missing (cells : List Cell) (widths : List (String × UInt32)) : List (String × UInt32) :=
  widths.filter fun e => !(names cells).contains e.1

theorem find?_isSome_iff : (cells.find? (·.name == name)).isSome = true ↔ name ∈ names cells := by
  simp [names]

theorem mem_names_eraseP {other : String} (h : other ≠ name) :
    other ∈ names (cells.eraseP (·.name == name)) ↔ other ∈ names cells := by
  rw [← find?_isSome_iff, find?_eraseP_of_ne h, find?_isSome_iff]

theorem missing_congr {cells' : List Cell}
    (h : ∀ e ∈ widths, e.1 ∈ names cells ↔ e.1 ∈ names cells') :
    missing cells widths = missing cells' widths := by
  refine List.filter_congr fun e he => ?_
  rw [Bool.eq_iff_iff]
  simpa using not_congr (h e he)

theorem missing_cons_of_mem {e : String × UInt32} (h : e.1 ∈ names cells) :
    missing cells (e :: widths) = missing cells widths :=
  List.filter_cons_of_neg (by simpa using h)

theorem missing_cons_of_not_mem {e : String × UInt32} (h : e.1 ∉ names cells) :
    missing cells (e :: widths) = e :: missing cells widths :=
  List.filter_cons_of_pos (by simpa using h)

/-- The name of the first entry is not that of a later one. -/
theorem ne_of_nodup_cons {e e' : String × UInt32} (h : ((e :: widths).map (·.1)).Nodup)
    (he' : e' ∈ widths) : e'.1 ≠ e.1 := by
  intro heq
  exact (List.nodup_cons.1 h).1 (List.mem_map.2 ⟨e', he', heq⟩)

/-- Each entry without a cell adds one at the end. -/
theorem foldl_addNamed_eq (h : (widths.map (·.1)).Nodup) :
    widths.foldl (addNamed columns) cells =
      cells ++ (missing cells widths).map (added columns) := by
  induction widths generalizing cells with
  | nil => simp [missing]
  | cons e widths ih =>
    have hrest : (widths.map (·.1)).Nodup := (List.nodup_cons.1 h).2
    rw [List.foldl_cons, ih hrest]
    by_cases he : e.1 ∈ names cells
    · rw [addNamed_of_mem he, missing_cons_of_mem he]
    · have hmissing : missing (cells ++ [added columns e]) widths = missing cells widths := by
        refine missing_congr fun e' he' => ?_
        simp [names, added, ne_of_nodup_cons h he']
      rw [addNamed_of_not_mem he, hmissing, missing_cons_of_not_mem he, List.map_cons,
        List.append_assoc, List.singleton_append]

/-- The cells that entries add are all put in front. -/
theorem withoutFirst_append_added (h : (widths.map (·.1)).Nodup) :
    withoutFirst (widths.map (·.1)) (cells ++ (missing cells widths).map (added columns)) =
      withoutFirst (widths.map (·.1)) cells := by
  induction widths generalizing cells with
  | nil => simp [missing]
  | cons e widths ih =>
    have hrest : (widths.map (·.1)).Nodup := (List.nodup_cons.1 h).2
    rw [List.map_cons, withoutFirst_cons, withoutFirst_cons]
    by_cases he : e.1 ∈ names cells
    · -- the first cell of this name is an old one
      have hmissing : missing cells widths =
          missing (cells.eraseP (·.name == e.1)) widths :=
        missing_congr fun e' he' => (mem_names_eraseP (ne_of_nodup_cons h he')).symm
      obtain ⟨cell, hcell, hname⟩ := List.mem_map.1 he
      rw [missing_cons_of_mem he, List.eraseP_append_left (by simpa using hname) _ hcell,
        hmissing, ih hrest]
    · -- the first cell of this name is the one that was added
      have hnone : ∀ cell ∈ cells, ¬(cell.name == e.1) = true := by
        intro cell hcell hname
        have hname : cell.name = e.1 := by simpa using hname
        exact he (hname ▸ mem_names hcell)
      rw [missing_cons_of_not_mem he, List.map_cons, List.eraseP_append_right _ hnone,
        List.eraseP_cons_of_pos (by simp [added]), List.eraseP_of_forall_not hnone, ih hrest]

/-- The cell of an entry's name among the old cells and those that were added. -/
theorem find?_append_added (h : (widths.map (·.1)).Nodup) {e : String × UInt32} (he : e ∈ widths) :
    (cells ++ (missing cells widths).map (added columns)).find? (·.name == e.1) =
      some ((cells.find? (·.name == e.1)).getD (added columns e)) := by
  rw [List.find?_append]
  cases hf : cells.find? (·.name == e.1) with
  | some cell => rfl
  | none =>
    have hnew : e.1 ∉ names cells := by
      rw [← find?_isSome_iff, hf]
      exact Bool.false_ne_true
    have hmem : e ∈ missing cells widths := List.mem_filter.2 ⟨he, by simpa using hnew⟩
    have hsub : (missing cells widths).Sublist widths := List.filter_sublist
    have hfind : (missing cells widths).find? (·.1 == e.1) = some e :=
      find?_of_mem (h.sublist (hsub.map _)) hmem
    have hcomp : (fun cell : Cell => cell.name == e.1) ∘ added columns = (·.1 == e.1) := rfl
    rw [Option.none_or, List.find?_map, hcomp, hfind]
    rfl

@[simp] theorem placed_name (e : String × UInt32) : (placed columns cells e).name = e.1 := by
  unfold placed
  cases hf : cells.find? (·.name == e.1) with
  | none => rfl
  | some cell => simpa using List.find?_some hf

theorem resized_eq_placed (h : (widths.map (·.1)).Nodup) {e : String × UInt32} (he : e ∈ widths) :
    resized widths ((cells.find? (·.name == e.1)).getD (added columns e)) =
      placed columns cells e := by
  have hname : ((cells.find? (·.name == e.1)).getD (added columns e)).name = e.1 := placed_name e
  rw [resized, placed, hname, widthIn_of_mem h he]

/-- **The cells after a choice of widths**, whatever they were before: one for each entry in
front, in the order of the entries, which is the first cell of its name or a new one, and then
the other cells with the width of their name. -/
theorem reconcileWidths_eq (widths : List (String × UInt32)) (columns : List Column)
    (cells : List Cell) :
    reconcileWidths widths columns cells =
      (firstWidths widths).map (placed columns cells) ++
        (withoutFirst ((firstWidths widths).map (·.1)) cells).map
          (resized (firstWidths widths)) := by
  have hnodup := nodup_firstWidths widths
  have hresized : ∀ cell, (resized (firstWidths widths) cell).name = cell.name := fun _ => rfl
  have hfront : ((firstWidths widths).map (·.1)).filterMap (fun name =>
      ((cells ++ (missing cells (firstWidths widths)).map (added columns)).map
        (resized (firstWidths widths))).find? (·.name == name)) =
      (firstWidths widths).map (placed columns cells) := by
    rw [List.filterMap_map, ← List.filterMap_eq_map (f := placed columns cells)]
    refine List.filterMap_congr fun e he => ?_
    have hcomp : (fun cell : Cell => cell.name == e.1) ∘ resized (firstWidths widths) =
        (·.name == e.1) := rfl
    rw [Function.comp_apply, List.find?_map, hcomp, find?_append_added hnodup he, Option.map_some,
      resized_eq_placed hnodup he, Function.comp_apply]
  change moveToFront [] ((firstWidths widths).map (·.1))
    (((firstWidths widths).foldl (addNamed columns) cells).map (resized (firstWidths widths))) = _
  rw [moveToFront_eq [] hnodup, List.nil_append, foldl_addNamed_eq hnodup, hfront,
    withoutFirst_map hresized, withoutFirst_append_added hnodup]

/-- The first cell of an entry's name is the one that was put in front for it. -/
theorem find?_placed (h : (widths.map (·.1)).Nodup) {e : String × UInt32} (he : e ∈ widths)
    (rest : List Cell) :
    (widths.map (placed columns cells) ++ rest).find? (·.name == e.1) =
      some (placed columns cells e) := by
  have hcomp : (fun cell : Cell => cell.name == e.1) ∘ placed columns cells = (·.1 == e.1) := by
    funext e'
    simp
  rw [List.find?_append, List.find?_map, hcomp, find?_of_mem h he]
  rfl

/-- **A second choice of the same widths changes nothing**, whatever the columns are then. -/
theorem reconcileWidths_idem (widths : List (String × UInt32)) (columns columns' : List Column)
    (cells : List Cell) :
    reconcileWidths widths columns' (reconcileWidths widths columns cells) =
      reconcileWidths widths columns cells := by
  have hnodup := nodup_firstWidths widths
  have hnames : (firstWidths widths).map (·.1) =
      names ((firstWidths widths).map (placed columns cells)) := by
    rw [names, List.map_map]
    exact List.map_congr_left fun e _ => (placed_name e).symm
  rw [reconcileWidths_eq widths columns', reconcileWidths_eq widths columns]
  congr 1
  · refine List.map_congr_left fun e he => ?_
    rw [placed, find?_placed hnodup he]
    rfl
  · rw [hnames, withoutFirst_names_append, List.map_map]
    rfl

/-- What a choice of widths leaves of a cell. -/
def unsized (cell : Cell) : String × Option Column := (cell.name, cell.column)

/-- Apart from their widths, the cells are those that were there and those that are new. -/
theorem map_unsized_reconcileWidths_perm (widths : List (String × UInt32)) (columns : List Column)
    (cells : List Cell) :
    ((reconcileWidths widths columns cells).map unsized).Perm
      ((cells ++ (missing cells (firstWidths widths)).map (added columns)).map unsized) := by
  have hperm := (reconcileWidths_perm widths columns cells).map unsized
  rwa [foldl_addNamed_eq (nodup_firstWidths widths), List.map_map] at hperm

end Cell

namespace Layout

/-- **A layout after a choice of widths**, whatever its cells were and however often a name is
among the cells or the entries.  Of several entries for a name the first one counts.  Each entry
has a cell in front, in the order of the entries: the first one of its name with the width of the
entry, or else a new one for the first column that goes by the name, if there is one.  The other
cells follow in their order with the width of their name, and hidden where it has none.  Apart
from widths, no cell is lost, doubled or changed; the entity stays; and a second choice of the
same widths changes nothing. -/
theorem reconcileWidths_arranges (l : Layout) (widths : List (String × UInt32))
    (columns : List Column) :
    let entries := widths.eraseDupsBy Cell.sameName
    let new : String × UInt32 → Cell := fun e =>
      ⟨e.1, e.2, columns.find? (·.resultName == e.1)⟩
    (l.reconcileWidths widths columns).cells =
        entries.map (fun e =>
          { (l.cells.find? (·.name == e.1)).getD (new e) with width := e.2 }) ++
        ((l.cells.zipIdx.filter (Cell.staysBehind (entries.map (·.1)) l.cells)).map (·.1)).map
          (fun cell => { cell with
            width := ((entries.find? (·.1 == cell.name)).map (·.2)).getD 0 }) ∧
      ((l.reconcileWidths widths columns).cells.map Cell.unsized).Perm
        ((l.cells ++ (entries.filter fun e => !(Cell.names l.cells).contains e.1).map new).map
          Cell.unsized) ∧
      (l.reconcileWidths widths columns).entityName = l.entityName ∧
      (l.reconcileWidths widths columns).entity = l.entity ∧
      ∀ columns', (l.reconcileWidths widths columns).reconcileWidths widths columns' =
        l.reconcileWidths widths columns := by
  intro entries new
  have hentries : Cell.firstWidths widths = entries := Cell.firstWidths_eq_eraseDupsBy widths
  have hnodup : (entries.map (·.1)).Nodup := hentries ▸ Cell.nodup_firstWidths widths
  refine ⟨?_, ?_, rfl, rfl, fun columns' => ?_⟩
  case refine_1 =>
    change Cell.reconcileWidths widths columns l.cells = _
    rw [Cell.reconcileWidths_eq, hentries, Cell.withoutFirst_eq_filter hnodup]
    rfl
  case refine_2 =>
    have hperm := Cell.map_unsized_reconcileWidths_perm widths columns l.cells
    rwa [hentries] at hperm
  case refine_3 =>
    exact congrArg (fun cells => { l with cells })
      (Cell.reconcileWidths_idem widths columns columns' l.cells)

/-- Of two cells of one name the first one is moved, and both get the width of the name. -/
example :
    (reconcileWidths ⟨"account", none, [⟨"city", 5, none⟩, ⟨"name", 6, none⟩, ⟨"city", 7, none⟩]⟩
      [("phone", 3), ("city", 1), ("phone", 9)] []).cells =
      [⟨"phone", 3, none⟩, ⟨"city", 1, none⟩, ⟨"name", 0, none⟩, ⟨"city", 1, none⟩] := by
  decide +kernel

end Layout

end QueryEditor
