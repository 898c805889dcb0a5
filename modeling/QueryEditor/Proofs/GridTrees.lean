import QueryEditor.Proofs.GridDocuments
import QueryEditor.Proofs.MarkupTrees

/-!
# Grid documents as trees

What the reader makes of a document can be said on its tree, without the depth and the row count
that it keeps: it looks at the outermost element, at the first row in it that is not written as an
empty tag, and at the cells in that row.  All other elements are passed over, and so is everything
else but a malformed processing instruction.

* `Grid.Reader.Quiet`, `Markup.Piece.foldlM_quiet` : where elements of any kind are passed over.
* `Markup.Piece.foldlM_inRow`, `Markup.Piece.foldlM_inGrid` : the content of the first row and of
  the grid.
* `Grid.read_render` : **what is read of a document.**
-/

namespace QueryEditor

open Markup (Event Tag StartTag Piece Document)

namespace Grid

variable {α β : Type}

/-! ### Passing over -/

/-- Passes over tags, of which a malformed one is an error. -/
def passOver (es : List Event) (a : α) : Except LayoutError α :=
  if .malformed ∈ es then .error .malformed else .ok a

theorem passOver_bind_congr {γ : Type} {es : List Event} {a : α} {b : β}
    {f : α → Except LayoutError γ} {g : β → Except LayoutError γ} (h : f a = g b) :
    passOver es a >>= f = passOver es b >>= g := by
  unfold passOver
  split
  · rfl
  · exact h

theorem passOver_bind {es : List Event} {a : α} {b : β} {f : α → Except LayoutError β}
    (h : f a = .ok b) : passOver es a >>= f = passOver es b := by
  unfold passOver
  split
  · rfl
  · exact h

theorem passOver_append (es es' : List Event) (a : α) :
    passOver (es ++ es') a = passOver es a >>= passOver es' := by
  unfold passOver
  by_cases h : Event.malformed ∈ es
  · rw [if_pos (List.mem_append_left _ h), if_pos h]
    rfl
  · have happend : Event.malformed ∈ es ++ es' ↔ Event.malformed ∈ es' := by simp [h]
    rw [if_neg h, if_congr happend rfl rfl]
    rfl

theorem passOver_map (es : List Event) (f : α → β) (a : α) :
    (passOver es a).map f = passOver es (f a) := by
  unfold passOver
  split <;> rfl

theorem passOver_cons {e : Event} (h : e ≠ .malformed) (es : List Event) (a : α) :
    passOver (e :: es) a = passOver es a := by
  unfold passOver
  simp [h.symm]

/-- Of an element only what stands in its content can be malformed. -/
theorem passOver_element (t : Tag) (es : List Event) (a : α) :
    passOver (.opening t :: (es ++ [.closing])) a = passOver es a := by
  rw [passOver_cons (by simp), passOver_append]
  exact passOver_bind rfl

/-- What follows a malformed tag does not matter. -/
theorem foldlM_malformed (before after : List Event) (r : Reader) :
    (before ++ .malformed :: after).foldlM Reader.step r =
      (before ++ [Event.malformed]).foldlM Reader.step r := by
  rw [List.foldlM_append, List.foldlM_append]
  rfl

/-- A document is read as its tags. -/
theorem read_eq_foldlM (d : Document) :
    Grid.read d.render = (d.tags.foldlM Reader.step {}).map (·.grid) := by
  unfold Grid.read
  obtain htags | ⟨before, after, htags, hread⟩ := d.events_render
  · rw [htags]
  · rw [hread, htags, foldlM_malformed before after]

namespace Reader

/-- Where elements are passed over: in an element that is no row of a grid, in a row that is not
the first one, and deeper. -/
structure Quiet (r : Reader) : Prop where
  depth : r.depth ≠ 0
  grid : r.depth = 1 → r.grid = none
  row : r.depth ≤ 2 → r.inRow = false

variable {r : Reader}

theorem Quiet.readTag (h : r.Quiet) (depth : Nat) (t : Tag) :
    { r with depth }.readTag (r.depth + 1) t = .ok { r with depth } := by
  refine readTag_eq_self (fun hgrid => h.depth (by omega)) fun hcell => ?_
  have hin : r.inRow = true := hcell.2.2
  rw [h.row (by omega)] at hin
  cases hin

/-- A start tag leads to a place of the same kind. -/
theorem Quiet.step_opening (h : r.Quiet) (t : Tag) :
    r.step (.opening t) = .ok { r with depth := r.depth + 1 } := by
  have hrow : openRow { r with depth := r.depth + 1 } t = { r with depth := r.depth + 1 } := by
    rw [openRow, if_neg]
    rintro ⟨hdepth, -, hgrid⟩
    have hnone := h.grid (by simpa using hdepth)
    simp [hnone] at hgrid
  rw [step, hrow]
  exact h.readTag (r.depth + 1) t

theorem Quiet.deeper (h : r.Quiet) : Quiet { r with depth := r.depth + 1 } where
  depth := Nat.succ_ne_zero r.depth
  grid := fun hdepth => absurd (Nat.succ.inj hdepth) h.depth
  row := fun hdepth => h.row (Nat.le_of_succ_le hdepth)

/-- The closing tag leads back. -/
theorem Quiet.step_closing (h : r.Quiet) :
    step { r with depth := r.depth + 1 } .closing = .ok r := by
  have hrow : (r.inRow && r.depth + 1 != 2) = r.inRow := by
    by_cases hdepth : r.depth = 1
    · rw [h.row (by omega), Bool.false_and]
    · simp [hdepth]
  rw [step]
  simp only [hrow, Nat.add_sub_cancel]

/-- Somewhere in the first row of a grid. -/
def rowAt (g : Grid) (depth : Nat) : Reader :=
  { grid := some g, depth, inRow := true, rows := 1 }

/-- In a grid after some rows. -/
def gridAt (g : Grid) (rows : Nat) : Reader := { grid := some g, depth := 1, rows }

/-- In an element directly in a grid that is not the first row. -/
def besideAt (g : Grid) (rows : Nat) : Reader := { grid := some g, depth := 2, rows }

theorem quiet_rowAt (g : Grid) : Quiet (rowAt g 3) where
  depth := by simp [rowAt]
  grid := by simp [rowAt]
  row := by simp [rowAt]

theorem quiet_besideAt (g : Grid) (rows : Nat) : Quiet (besideAt g rows) where
  depth := by simp [besideAt]
  grid := by simp [besideAt]
  row := by simp [besideAt]

/-- A start tag in a grid opens a row or something else. -/
theorem step_opening_gridAt (g : Grid) (rows : Nat) (t : Tag) :
    step (gridAt g rows) (.opening t) = .ok
      (if t.name = "row".toList then
        { besideAt g (rows + 1) with inRow := decide (rows = 0) } else besideAt g rows) := by
  have hpass (r : Reader) : r.readTag 2 t = .ok r := readTag_eq_self (by simp) (by simp)
  have hopen : openRow (besideAt g rows) t = if t.name = "row".toList then
      { besideAt g (rows + 1) with inRow := decide (rows = 0) } else besideAt g rows := by
    rw [openRow]
    refine if_congr ?_ rfl rfl
    simp [besideAt]
  change (openRow (besideAt g rows) t).readTag 2 t = _
  rw [hpass, hopen]

theorem step_closing_besideAt (g : Grid) (rows : Nat) :
    step (besideAt g rows) .closing = .ok (gridAt g rows) := rfl

end Reader

end Grid

namespace Markup

namespace Piece

open Grid (Reader passOver passOver_append passOver_bind passOver_bind_congr passOver_element)

/-- Wherever it stands, a piece that is no element is passed over. -/
theorem foldlM_noElement (p : Piece) (h : p.isElement = false) (r : Reader) :
    p.tags.foldlM Reader.step r = passOver p.tags r := by
  cases p with
  | instruction cs _ _ =>
    rw [tags]
    split <;> rfl
  | empty t => cases h
  | element t content blanks h' => cases h
  | _ => rfl

mutual

/-- **Where the reader is quiet** a piece is passed over. -/
theorem foldlM_quiet (p : Piece) {r : Reader} (h : r.Quiet) :
    p.tags.foldlM Reader.step r = passOver p.tags r := by
  match p with
  | .text .. | .comment .. | .characterData .. | .documentType .. | .instruction .. =>
    exact foldlM_noElement _ rfl r
  | .empty t =>
    have hempty : r.step (.empty t.toTag) = .ok r := h.readTag r.depth _
    exact Reader.foldlM_cons_of_step hempty []
  | .element t content _ _ =>
    rw [tags, Reader.foldlM_cons_of_step (h.step_opening _), List.foldlM_append,
      foldlM_quietAll content h.deeper, passOver_element]
    exact passOver_bind (Reader.foldlM_cons_of_step h.step_closing [])

theorem foldlM_quietAll (ps : List Piece) {r : Reader} (h : r.Quiet) :
    (tagsOfAll ps).foldlM Reader.step r = passOver (tagsOfAll ps) r := by
  match ps with
  | [] => rfl
  | p :: ps =>
    rw [tagsOfAll, List.foldlM_append, foldlM_quiet p h, passOver_append]
    exact passOver_bind_congr (foldlM_quietAll ps h)

end

/-! ### The first row -/

/-- The tag of a cell. -/
def cellTag? : Piece → Option Tag
  | empty t | element t _ _ _ => if t.name = "cell" then some t.toTag else none
  | _ => none

/-- The cell that a piece adds. -/
def addCell (g : Grid) (p : Piece) : Except LayoutError Grid :=
  match p.cellTag? with
  | some t => (Grid.cellOfTag t).map g.addCell
  | none => .ok g

/-- A piece in the first row is read. -/
def readInRow (g : Grid) (p : Piece) : Except LayoutError Grid :=
  p.addCell g >>= passOver p.tags

theorem readInRow_of_cellTag?_eq_none {p : Piece} (h : p.cellTag? = none) (g : Grid) :
    p.readInRow g = passOver p.tags g := by
  rw [readInRow, addCell, h]
  rfl

theorem toTag_name_eq_iff (t : StartTag) (name : String) :
    t.toTag.name = name.toList ↔ t.name = name :=
  String.toList_inj

/-- The tag of an element in the first row. -/
theorem readTag_rowAt {p : Piece} {t : StartTag}
    (hcell : p.cellTag? = if t.name = "cell" then some t.toTag else none) (g : Grid) (depth : Nat) :
    (Reader.rowAt g depth).readTag 3 t.toTag =
      (p.addCell g).map fun g => Reader.rowAt g depth := by
  by_cases hname : t.name = "cell"
  · have htrue : 3 = 3 ∧ t.toTag.name = "cell".toList ∧ (Reader.rowAt g depth).inRow = true :=
      ⟨rfl, (toTag_name_eq_iff t "cell").2 hname, rfl⟩
    have hread : (Reader.rowAt g depth).readCell t.toTag =
        (Grid.cellOfTag t.toTag).map fun c => Reader.rowAt (g.addCell c) depth := rfl
    rw [Reader.readTag, if_neg (by simp), if_pos htrue, hread, addCell, hcell, if_pos hname]
    dsimp only
    cases Grid.cellOfTag t.toTag <;> rfl
  · rw [addCell, hcell, if_neg hname]
    exact Reader.readTag_eq_self (by simp) fun h => hname ((toTag_name_eq_iff t "cell").1 h.2.1)

/-- **In the first row** the cells directly in it are read, whatever they contain. -/
theorem foldlM_inRow (p : Piece) (g : Grid) :
    p.tags.foldlM Reader.step (Reader.rowAt g 2) =
      (p.readInRow g).map fun g => Reader.rowAt g 2 := by
  match p with
  | .text .. | .comment .. | .characterData .. | .documentType .. | .instruction .. =>
    rw [foldlM_noElement _ rfl, readInRow_of_cellTag?_eq_none rfl, Grid.passOver_map]
  | .empty t =>
    have hstep : (Reader.rowAt g 2).step (.empty t.toTag) =
        ((Piece.empty t).addCell g).map fun g => Reader.rowAt g 2 := readTag_rowAt rfl g 2
    rw [tags, List.foldlM_cons, hstep, readInRow]
    cases (Piece.empty t).addCell g <;> rfl
  | .element t content blanks h =>
    have hstep : (Reader.rowAt g 2).step (.opening t.toTag) =
        ((Piece.element t content blanks h).addCell g).map fun g => Reader.rowAt g 3 :=
      readTag_rowAt rfl g 3
    rw [tags, List.foldlM_cons, hstep, readInRow]
    cases (Piece.element t content blanks h).addCell g with
    | error e => rfl
    | ok g' =>
      have hclosing : [Event.closing].foldlM Reader.step (Reader.rowAt g' 3) =
          .ok (Reader.rowAt g' 2) := rfl
      change (tagsOfAll content ++ [Event.closing]).foldlM Reader.step (Reader.rowAt g' 3) =
        (passOver (Event.opening t.toTag :: (tagsOfAll content ++ [.closing])) g').map _
      rw [List.foldlM_append, foldlM_quietAll content (Reader.quiet_rowAt g'), passOver_element,
        Grid.passOver_map]
      exact passOver_bind hclosing

theorem foldlM_inRowAll (ps : List Piece) (g : Grid) :
    (tagsOfAll ps).foldlM Reader.step (Reader.rowAt g 2) =
      (ps.foldlM readInRow g).map fun g => Reader.rowAt g 2 := by
  induction ps generalizing g with
  | nil => rfl
  | cons p ps ih =>
    rw [tagsOfAll, List.foldlM_append, foldlM_inRow, List.foldlM_cons]
    cases p.readInRow g with
    | error e => rfl
    | ok g' => exact ih g'

/-! ### The grid -/

/-- The content of a row, unless the row is written as an empty tag. -/
def rowContent? : Piece → Option (List Piece)
  | element t content _ _ => if t.name = "row" then some content else none
  | _ => none

/-- The content of a grid is read, as long as there was no row. -/
def readInGrid (g : Grid) : List Piece → Except LayoutError Grid
  | [] => .ok g
  | p :: ps =>
    match p.rowContent? with
    | some content => content.foldlM readInRow g >>= passOver (tagsOfAll ps)
    | none => passOver p.tags g >>= fun g => readInGrid g ps

/-- An element in a grid is passed over unless its tag opens the first row. -/
theorem foldlM_beside {t : StartTag} {content : List Piece} {g : Grid} {rows rows' : Nat}
    (h : Reader.step (Reader.gridAt g rows) (.opening t.toTag) = .ok (Reader.besideAt g rows')) :
    (Event.opening t.toTag :: (tagsOfAll content ++ [.closing])).foldlM Reader.step
        (Reader.gridAt g rows) =
      passOver (Event.opening t.toTag :: (tagsOfAll content ++ [.closing]))
        (Reader.gridAt g rows') := by
  rw [Reader.foldlM_cons_of_step h, List.foldlM_append,
    foldlM_quietAll content (Reader.quiet_besideAt g rows'), passOver_element]
  exact passOver_bind (Reader.foldlM_cons_of_step (Reader.step_closing_besideAt g rows') [])

/-- A piece that is no row is passed over. -/
theorem foldlM_noRow (p : Piece) (hrow : p.rowContent? = none) (g : Grid) (rows : Nat) :
    p.tags.foldlM Reader.step (Reader.gridAt g rows) = passOver p.tags (Reader.gridAt g rows) := by
  match p with
  | .text .. | .comment .. | .characterData .. | .documentType .. | .instruction .. =>
    exact foldlM_noElement _ rfl _
  | .empty t =>
    have hstep : (Reader.gridAt g rows).step (.empty t.toTag) = .ok (Reader.gridAt g rows) :=
      Reader.readTag_eq_self (by simp [Reader.gridAt]) (by simp [Reader.gridAt])
    exact Reader.foldlM_cons_of_step hstep []
  | .element t content blanks h =>
    have hname : t.name ≠ "row" := by
      intro hname
      rw [rowContent?, if_pos hname] at hrow
      cases hrow
    have hstep := Reader.step_opening_gridAt g rows t.toTag
    rw [if_neg fun heq => hname ((toTag_name_eq_iff t "row").1 heq)] at hstep
    exact foldlM_beside hstep

/-- A row has these tags, of which the first one opens it. -/
theorem exists_of_rowContent? {p : Piece} {content : List Piece}
    (h : p.rowContent? = some content) : ∃ t : StartTag, t.toTag.name = "row".toList ∧
      p.tags = .opening t.toTag :: (tagsOfAll content ++ [.closing]) := by
  match p with
  | .element t content' _ _ =>
    rw [rowContent?] at h
    split at h
    case isTrue hname =>
      obtain rfl := Option.some.inj h
      exact ⟨t, (toTag_name_eq_iff t "row").2 hname, rfl⟩
    case isFalse => cases h
  | .text .. | .comment .. | .characterData .. | .documentType .. | .instruction .. | .empty _ =>
    cases h

/-- The first row is read. -/
theorem foldlM_firstRow {p : Piece} {content : List Piece} (hrow : p.rowContent? = some content)
    (g : Grid) :
    p.tags.foldlM Reader.step (Reader.gridAt g 0) =
      (content.foldlM readInRow g).map fun g => Reader.gridAt g 1 := by
  obtain ⟨t, hname, htags⟩ := exists_of_rowContent? hrow
  have hstep := Reader.step_opening_gridAt g 0 t.toTag
  rw [if_pos hname] at hstep
  rw [htags, Reader.foldlM_cons_of_step hstep, List.foldlM_append]
  change (tagsOfAll content).foldlM Reader.step (Reader.rowAt g 2) >>= _ = _
  rw [foldlM_inRowAll]
  cases content.foldlM readInRow g <;> rfl

/-- After the first row all is passed over. -/
theorem foldlM_afterRow (ps : List Piece) (g : Grid) {rows : Nat} (hrows : rows ≠ 0) :
    ∃ rows', (tagsOfAll ps).foldlM Reader.step (Reader.gridAt g rows) =
      passOver (tagsOfAll ps) (Reader.gridAt g rows') := by
  induction ps generalizing rows with
  | nil => exact ⟨rows, rfl⟩
  | cons p ps ih =>
    obtain ⟨later, hlater, hread⟩ : ∃ later, later ≠ 0 ∧
        p.tags.foldlM Reader.step (Reader.gridAt g rows) =
          passOver p.tags (Reader.gridAt g later) := by
      cases hrow : p.rowContent? with
      | none => exact ⟨rows, hrows, foldlM_noRow p hrow g rows⟩
      | some content =>
        obtain ⟨t, hname, htags⟩ := exists_of_rowContent? hrow
        have hstep := Reader.step_opening_gridAt g rows t.toTag
        rw [if_pos hname, decide_eq_false hrows] at hstep
        exact ⟨rows + 1, Nat.succ_ne_zero rows, htags ▸ foldlM_beside hstep⟩
    obtain ⟨rows', hrest⟩ := ih hlater
    refine ⟨rows', ?_⟩
    rw [tagsOfAll, List.foldlM_append, hread, passOver_append]
    exact passOver_bind_congr hrest

/-- **In a grid** the first row is read that is not written as an empty tag. -/
theorem foldlM_inGrid (ps : List Piece) (g : Grid) :
    ∃ rows, (tagsOfAll ps).foldlM Reader.step (Reader.gridAt g 0) =
      (readInGrid g ps).map fun g => Reader.gridAt g rows := by
  induction ps generalizing g with
  | nil => exact ⟨0, rfl⟩
  | cons p ps ih =>
    rw [tagsOfAll, List.foldlM_append]
    cases hrow : p.rowContent? with
    | none =>
      obtain ⟨rows, hrest⟩ := ih g
      have hgrid : readInGrid g (p :: ps) = passOver p.tags g >>= fun g => readInGrid g ps := by
        rw [readInGrid, hrow]
      refine ⟨rows, ?_⟩
      rw [foldlM_noRow p hrow, hgrid]
      unfold passOver
      split
      · rfl
      · exact hrest
    | some content =>
      have hgrid : readInGrid g (p :: ps) =
          content.foldlM readInRow g >>= passOver (tagsOfAll ps) := by
        rw [readInGrid, hrow]
      rw [foldlM_firstRow hrow, hgrid]
      cases content.foldlM readInRow g with
      | error e => exact ⟨0, rfl⟩
      | ok g' =>
        obtain ⟨rows, hrest⟩ := foldlM_afterRow ps g' Nat.one_ne_zero
        refine ⟨rows, ?_⟩
        change _ = (passOver (tagsOfAll ps) g').map _
        rw [Grid.passOver_map]
        exact hrest

/-! ### The outermost element -/

/-- The tag and the content of an element. -/
def parts? : Piece → Option (StartTag × List Piece)
  | empty t => some (t, [])
  | element t content _ _ => some (t, content)
  | _ => none

/-- The outermost element is read. -/
def readAtTop (p : Piece) : Except LayoutError (Option Grid) :=
  match p.parts? with
  | some (t, content) =>
    if t.name = "grid" then
      (Grid.ofTag t.toTag).bind fun g => (readInGrid g content).map some
    else passOver p.tags none
  | none => passOver p.tags none

/-- The tag of the outermost element. -/
theorem readTag_atTop (t : StartTag) (depth : Nat) :
    Reader.readTag { depth } 1 t.toTag =
      if t.name = "grid" then (Grid.ofTag t.toTag).map fun g => { grid := some g, depth }
      else .ok { depth } := by
  rw [Reader.readTag, if_neg fun h : 1 = 3 ∧ _ => absurd h.1 (by decide)]
  exact if_congr ((and_iff_right rfl).trans (toTag_name_eq_iff t "grid")) rfl rfl

/-- **The outermost element** is read if it is a grid. -/
theorem foldlM_atTop (p : Piece) (h : p.isElement = true) :
    ∃ rows, p.tags.foldlM Reader.step {} =
      p.readAtTop.map fun grid => ({ grid, rows } : Reader) := by
  cases p with
  | empty t =>
    refine ⟨0, ?_⟩
    have hstep : Reader.step {} (.empty t.toTag) = _ := readTag_atTop t 0
    rw [tags, List.foldlM_cons, hstep, readAtTop, parts?]
    dsimp only
    split
    · cases Grid.ofTag t.toTag <;> rfl
    · rfl
  | element t content blanks h' =>
    have hstep : Reader.step {} (.opening t.toTag) = _ := readTag_atTop t 1
    rw [tags, List.foldlM_cons, hstep, readAtTop, parts?]
    dsimp only
    split
    case isTrue =>
      cases Grid.ofTag t.toTag with
      | error e => exact ⟨0, rfl⟩
      | ok g =>
        obtain ⟨rows, hcontent⟩ := foldlM_inGrid content g
        refine ⟨rows, ?_⟩
        change (tagsOfAll content ++ [Event.closing]).foldlM Reader.step (Reader.gridAt g 0) = _
        rw [List.foldlM_append, hcontent]
        change _ = ((readInGrid g content).map some).map fun grid => ({ grid, rows } : Reader)
        cases readInGrid g content <;> rfl
    case isFalse =>
      have hquiet : Reader.Quiet { depth := 1 } :=
        ⟨Nat.one_ne_zero, fun _ => rfl, fun _ => rfl⟩
      refine ⟨0, ?_⟩
      change (tagsOfAll content ++ [Event.closing]).foldlM Reader.step { depth := 1 } = _
      rw [List.foldlM_append, foldlM_quietAll content hquiet, tags, passOver_element,
        Grid.passOver_map]
      exact passOver_bind rfl
  | _ => cases h

theorem isElement_of_isBeside {p : Piece} (h : p.isBeside = true) : p.isElement = false := by
  cases p with
  | empty t => cases h
  | element t content blanks h' => cases h
  | _ => rfl

/-- Beside the outermost element nothing is read. -/
theorem foldlM_outside {ps : List Piece} (h : ps.all (·.isBeside) = true) (r : Reader) :
    (tagsOfAll ps).foldlM Reader.step r = passOver (tagsOfAll ps) r := by
  induction ps generalizing r with
  | nil => rfl
  | cons p ps ih =>
    rw [List.all_cons, Bool.and_eq_true] at h
    have hread := foldlM_noElement p (isElement_of_isBeside h.1) r
    rw [tagsOfAll, List.foldlM_append, hread, passOver_append]
    exact passOver_bind_congr (ih h.2 r)

end Piece

end Markup

namespace Grid

open Markup.Piece (tagsOfAll)

/-- **What is read of a document**: what the outermost element says, if no processing instruction
is malformed. -/
theorem read_render (d : Document) :
    Grid.read d.render = passOver (tagsOfAll d.before) () >>= fun _ =>
      d.root.readAtTop >>= passOver (tagsOfAll d.after) := by
  obtain ⟨rows, hroot⟩ := d.root.foldlM_atTop d.isElement_root
  have htags : d.tags = tagsOfAll d.before ++ (d.root.tags ++ tagsOfAll d.after) :=
    Markup.Piece.tagsOfAll_append d.before (d.root :: d.after)
  rw [read_eq_foldlM, htags, List.foldlM_append, Markup.Piece.foldlM_outside d.isBeside_before]
  by_cases hbefore : Event.malformed ∈ tagsOfAll d.before
  · have herror {α : Type} (a : α) : passOver (tagsOfAll d.before) a = .error .malformed :=
      if_pos hbefore
    rw [herror, herror]
    rfl
  · have hok {α : Type} (a : α) : passOver (tagsOfAll d.before) a = .ok a := if_neg hbefore
    rw [hok, hok]
    change ((d.root.tags ++ tagsOfAll d.after).foldlM Reader.step {}).map (·.grid) =
      d.root.readAtTop >>= passOver (tagsOfAll d.after)
    rw [List.foldlM_append, hroot]
    cases d.root.readAtTop with
    | error e => rfl
    | ok grid =>
      change ((tagsOfAll d.after).foldlM Reader.step { grid, rows }).map (·.grid) =
        passOver (tagsOfAll d.after) grid
      rw [Markup.Piece.foldlM_outside d.isBeside_after, passOver_map]

end Grid

end QueryEditor
