import QueryEditor.Proofs.GridTrees
import QueryEditor.Proofs.LayoutEntity

/-!
# Two spellings of an element without content

An element without content can be written as one tag or as a start tag and a closing tag.  To the
reader that is the same, whatever and wherever the element is, but for one place: a row in the grid
counts as the first one only if it has a start tag.  So two spellings of a document
(`Document.plain`) say the same exactly when they agree on the cells of the first row
(`Document.rowCells`).

* `Markup.Piece.readInRow_plain` : the spelling of what stands in a row does not matter.
* `Grid.read_eq_of_rowCells` : documents that agree on the cells of the first row.
* `Layout.read_respelled` : **when the spelling matters**, and `Layout.read_respelled_row` : where
  it does.
-/

namespace QueryEditor

open Markup (Event Tag StartTag Piece Document)
open Grid (passOver)

namespace Markup

namespace Piece

mutual

/-- The piece with every element without content written as one tag. -/
def plain : Piece → Piece
  | element t content blanks h =>
    if content.isEmpty then empty t else element t (plainAll content) blanks h
  | p => p

/-- Content with every element without content written as one tag. -/
def plainAll : List Piece → List Piece
  | [] => []
  | p :: ps => plain p :: plainAll ps

end

theorem plainAll_eq_map (ps : List Piece) : plainAll ps = ps.map plain := by
  induction ps with
  | nil => rfl
  | cons p ps ih => rw [plainAll, ih, List.map_cons]

/-- An element in its plain spelling. -/
theorem plain_element (t : StartTag) (content : List Piece) (blanks : List Char)
    (h : blanks.all isSpace = true) : plain (element t content blanks h) =
      if content.isEmpty then empty t else element t (plainAll content) blanks h := rfl

theorem parts?_plain (p : Piece) :
    p.plain.parts? = p.parts?.map fun parts => (parts.1, plainAll parts.2) := by
  cases p with
  | element t content blanks h =>
    rw [plain_element]
    cases content with
    | nil => rfl
    | cons p ps => rfl
  | _ => rfl

theorem isElement_plain (p : Piece) : p.plain.isElement = p.isElement := by
  cases p with
  | element t content blanks h =>
    rw [plain_element]
    split <;> rfl
  | _ => rfl

theorem cellTag?_plain (p : Piece) : p.plain.cellTag? = p.cellTag? := by
  cases p with
  | element t content blanks h =>
    rw [plain_element]
    split <;> rfl
  | _ => rfl

/-! ### What the spelling leaves alone -/

mutual

theorem malformed_mem_tags_plain (p : Piece) :
    Event.malformed ∈ p.plain.tags ↔ Event.malformed ∈ p.tags := by
  match p with
  | .text .. | .comment .. | .characterData .. | .documentType .. | .instruction .. | .empty _ =>
    rfl
  | .element t content blanks h =>
    rw [plain_element]
    split
    case isTrue hempty =>
      obtain rfl := List.isEmpty_iff.1 hempty
      simp [tags, tagsOfAll]
    case isFalse =>
      have hcontent := malformed_mem_tagsOfAll_plainAll content
      simp [tags, hcontent]

theorem malformed_mem_tagsOfAll_plainAll (ps : List Piece) :
    Event.malformed ∈ tagsOfAll (plainAll ps) ↔ Event.malformed ∈ tagsOfAll ps := by
  match ps with
  | [] => rfl
  | p :: ps =>
    rw [plainAll, tagsOfAll, tagsOfAll, List.mem_append, List.mem_append,
      malformed_mem_tags_plain p, malformed_mem_tagsOfAll_plainAll ps]

end

variable {p p' : Piece} {ps ps' content content' : List Piece}

@[simp]
theorem passOver_tags_plain {α : Type} (p : Piece) (a : α) :
    passOver p.plain.tags a = passOver p.tags a :=
  if_congr (malformed_mem_tags_plain p) rfl rfl

@[simp]
theorem passOver_tagsOfAll_plainAll {α : Type} (ps : List Piece) (a : α) :
    passOver (tagsOfAll (plainAll ps)) a = passOver (tagsOfAll ps) a :=
  if_congr (malformed_mem_tagsOfAll_plainAll ps) rfl rfl

/-- **In a row** the spelling does not matter. -/
theorem readInRow_plain (g : Grid) (p : Piece) : p.plain.readInRow g = p.readInRow g := by
  unfold readInRow addCell
  rw [cellTag?_plain]
  congr 1
  funext g'
  exact passOver_tags_plain p g'

theorem foldlM_readInRow_plainAll (ps : List Piece) (g : Grid) :
    (plainAll ps).foldlM readInRow g = ps.foldlM readInRow g := by
  induction ps generalizing g with
  | nil => rfl
  | cons p ps ih =>
    rw [plainAll, List.foldlM_cons, List.foldlM_cons, readInRow_plain]
    congr 1
    funext g'
    exact ih g'

/-! ### The cells of the first row -/

/-- The tags of the cells in the first row that is not written as an empty tag. -/
def firstRowCells : List Piece → List Tag
  | [] => []
  | p :: ps =>
    match p.rowContent? with
    | some content => content.filterMap (·.cellTag?)
    | none => firstRowCells ps

theorem firstRowCells_of_some (h : p.rowContent? = some content) :
    firstRowCells (p :: ps) = content.filterMap (·.cellTag?) := by
  rw [firstRowCells, h]

theorem firstRowCells_of_none (h : p.rowContent? = none) :
    firstRowCells (p :: ps) = firstRowCells ps := by
  rw [firstRowCells, h]

theorem readInGrid_of_some (h : p.rowContent? = some content) (g : Grid) :
    readInGrid g (p :: ps) = content.foldlM readInRow g >>= passOver (tagsOfAll ps) := by
  rw [readInGrid, h]

theorem readInGrid_of_none (h : p.rowContent? = none) (g : Grid) :
    readInGrid g (p :: ps) = passOver p.tags g >>= fun g => readInGrid g ps := by
  rw [readInGrid, h]

/-- A row without cells is passed over. -/
theorem foldlM_readInRow_of_no_cells (h : content.filterMap (·.cellTag?) = []) (g : Grid) :
    content.foldlM readInRow g = passOver (tagsOfAll content) g := by
  induction content with
  | nil => rfl
  | cons p ps ih =>
    obtain ⟨hp, hps⟩ : p.cellTag? = none ∧ ps.filterMap (·.cellTag?) = [] := by
      cases hcell : p.cellTag? with
      | none => exact ⟨rfl, by rwa [List.filterMap_cons_none hcell] at h⟩
      | some t => rw [List.filterMap_cons_some hcell] at h; cases h
    rw [List.foldlM_cons, readInRow_of_cellTag?_eq_none hp, tagsOfAll, Grid.passOver_append]
    exact Grid.passOver_bind_congr (ih hps)

/-- A grid without cells in its first row is passed over. -/
theorem readInGrid_of_no_cells (h : firstRowCells ps = []) (g : Grid) :
    readInGrid g ps = passOver (tagsOfAll ps) g := by
  induction ps with
  | nil => rfl
  | cons p ps ih =>
    rw [tagsOfAll, Grid.passOver_append]
    cases hrow : p.rowContent? with
    | some content =>
      rw [firstRowCells_of_some hrow] at h
      obtain ⟨t, -, htags⟩ := exists_of_rowContent? hrow
      rw [readInGrid_of_some hrow, foldlM_readInRow_of_no_cells h, htags,
        Grid.passOver_element]
    | none =>
      rw [firstRowCells_of_none hrow] at h
      rw [readInGrid_of_none hrow]
      exact Grid.passOver_bind_congr (ih h)

theorem rowContent?_of_parts?_eq_none (h : p.parts? = none) : p.rowContent? = none := by
  cases p with
  | empty t => rfl
  | element t content blanks h' => cases h
  | _ => rfl

theorem rowContent?_of_parts?_eq_some {t : StartTag} (h : p.parts? = some (t, content)) :
    p.rowContent? = (if t.name = "row" then some content else none) ∨
      p.rowContent? = none ∧ content = [] := by
  cases p with
  | empty t' =>
    obtain ⟨-, rfl⟩ := Prod.mk.inj (Option.some.inj h)
    exact .inr ⟨rfl, rfl⟩
  | element t' content' blanks h' =>
    obtain ⟨rfl, rfl⟩ := Prod.mk.inj (Option.some.inj h)
    exact .inl rfl
  | _ => cases h

theorem eq_nil_of_plainAll_eq_nil (h : plainAll ps = []) : ps = [] := by
  cases ps with
  | nil => rfl
  | cons p ps => cases h

/-- Two spellings of a piece have the same tag and the same content but for its spelling. -/
theorem parts?_cases (h : p.plain = p'.plain) :
    (p.parts? = none ∧ p'.parts? = none) ∨
      ∃ t content content', p.parts? = some (t, content) ∧ p'.parts? = some (t, content') ∧
        plainAll content = plainAll content' := by
  have hparts : (p.parts?.map fun parts => (parts.1, plainAll parts.2)) =
      p'.parts?.map fun parts => (parts.1, plainAll parts.2) := by
    rw [← parts?_plain, h, parts?_plain]
  cases hp : p.parts? with
  | none =>
    rw [hp, Option.map_none, eq_comm, Option.map_eq_none_iff] at hparts
    exact .inl ⟨rfl, hparts⟩
  | some parts =>
    rw [hp, Option.map_some, eq_comm, Option.map_eq_some_iff] at hparts
    obtain ⟨parts', hp', heq⟩ := hparts
    obtain ⟨ht, hcontent⟩ := Prod.mk.inj heq
    exact .inr ⟨parts.1, parts.2, parts'.2, rfl, by rw [hp', ← ht], hcontent.symm⟩

/-- Of two spellings of a piece both are rows with the same content or none is, unless one of them
is a row written as an empty tag. -/
theorem rowContent?_cases (h : p.plain = p'.plain) :
    (p.rowContent? = none ∧ p'.rowContent? = none) ∨
      (∃ content content', p.rowContent? = some content ∧ p'.rowContent? = some content' ∧
        plainAll content = plainAll content') ∨
      (p.rowContent? = some [] ∧ p'.rowContent? = none) ∨
      (p.rowContent? = none ∧ p'.rowContent? = some []) := by
  obtain ⟨hp, hp'⟩ | ⟨t, content, content', hp, hp', hcontent⟩ := parts?_cases h
  · exact .inl ⟨rowContent?_of_parts?_eq_none hp, rowContent?_of_parts?_eq_none hp'⟩
  by_cases hname : t.name = "row"
  · have hrow := rowContent?_of_parts?_eq_some hp
    have hrow' := rowContent?_of_parts?_eq_some hp'
    rw [if_pos hname] at hrow hrow'
    obtain hrow | ⟨hrow, rfl⟩ := hrow
    · obtain hrow' | ⟨hrow', rfl⟩ := hrow'
      · exact .inr (.inl ⟨content, content', hrow, hrow', hcontent⟩)
      · obtain rfl := eq_nil_of_plainAll_eq_nil hcontent
        exact .inr (.inr (.inl ⟨hrow, hrow'⟩))
    · obtain rfl := eq_nil_of_plainAll_eq_nil hcontent.symm
      obtain hrow' | ⟨hrow', -⟩ := hrow'
      · exact .inr (.inr (.inr ⟨hrow, hrow'⟩))
      · exact .inl ⟨hrow, hrow'⟩
  · have hnone {q : Piece} {c : List Piece} (hq : q.parts? = some (t, c)) :
        q.rowContent? = none := by
      obtain hrow | ⟨hrow, -⟩ := rowContent?_of_parts?_eq_some hq
      · rw [hrow, if_neg hname]
      · exact hrow
    exact .inl ⟨hnone hp, hnone hp'⟩

theorem passOver_eq_of_plainAll {α : Type} (h : plainAll ps = plainAll ps') (a : α) :
    passOver (tagsOfAll ps) a = passOver (tagsOfAll ps') a := by
  rw [← passOver_tagsOfAll_plainAll ps, h, passOver_tagsOfAll_plainAll]

theorem filterMap_cellTag?_plainAll (ps : List Piece) :
    (plainAll ps).filterMap (·.cellTag?) = ps.filterMap (·.cellTag?) := by
  rw [plainAll_eq_map, List.filterMap_map]
  congr 1
  funext p
  exact cellTag?_plain p

/-- **Two spellings of a grid** are read alike if they agree on the cells of the first row. -/
theorem readInGrid_eq_of_cells (h : plainAll ps = plainAll ps')
    (hcells : firstRowCells ps = firstRowCells ps') (g : Grid) :
    readInGrid g ps = readInGrid g ps' := by
  induction ps generalizing ps' with
  | nil => rw [← eq_nil_of_plainAll_eq_nil h.symm]
  | cons p ps ih =>
    cases ps' with
    | nil => cases h
    | cons p' ps' =>
      obtain ⟨hp, hps⟩ := List.cons.inj h
      obtain ⟨hrow, hrow'⟩ | ⟨content, content', hrow, hrow', hcontent⟩ | ⟨hrow, -⟩ | ⟨-, hrow'⟩ :=
        rowContent?_cases hp
      · rw [firstRowCells_of_none hrow, firstRowCells_of_none hrow'] at hcells
        rw [readInGrid_of_none hrow, readInGrid_of_none hrow', ← passOver_tags_plain, hp,
          passOver_tags_plain]
        exact Grid.passOver_bind_congr (ih hps hcells)
      · rw [readInGrid_of_some hrow, readInGrid_of_some hrow', ← foldlM_readInRow_plainAll,
          hcontent, foldlM_readInRow_plainAll]
        congr 1
        funext g'
        exact passOver_eq_of_plainAll hps g'
      -- a first row without content has no cells, so the other spelling has none, either
      · have hnone : firstRowCells (p :: ps) = [] := firstRowCells_of_some hrow
        rw [readInGrid_of_no_cells hnone, readInGrid_of_no_cells (hcells ▸ hnone)]
        exact passOver_eq_of_plainAll h g
      · have hnone : firstRowCells (p' :: ps') = [] := firstRowCells_of_some hrow'
        rw [readInGrid_of_no_cells hnone, readInGrid_of_no_cells (hcells ▸ hnone)]
        exact passOver_eq_of_plainAll h g

/-- Two spellings of a grid that disagree: one has no cells in its first row. -/
theorem firstRowCells_cases (h : plainAll ps = plainAll ps') :
    firstRowCells ps = firstRowCells ps' ∨ firstRowCells ps = [] ∨ firstRowCells ps' = [] := by
  induction ps generalizing ps' with
  | nil => exact .inr (.inl rfl)
  | cons p ps ih =>
    cases ps' with
    | nil => exact .inr (.inr rfl)
    | cons p' ps' =>
      obtain ⟨hp, hps⟩ := List.cons.inj h
      obtain ⟨hrow, hrow'⟩ | ⟨content, content', hrow, hrow', hcontent⟩ | ⟨hrow, -⟩ | ⟨-, hrow'⟩ :=
        rowContent?_cases hp
      · rw [firstRowCells_of_none hrow, firstRowCells_of_none hrow']
        exact ih hps
      · left
        rw [firstRowCells_of_some hrow, firstRowCells_of_some hrow',
          ← filterMap_cellTag?_plainAll, hcontent, filterMap_cellTag?_plainAll]
      · exact .inr (.inl (firstRowCells_of_some hrow))
      · exact .inr (.inr (firstRowCells_of_some hrow'))

/-! ### Grids without malformed instructions -/

/-- The cell of a tag is added. -/
def addTag (g : Grid) (t : Tag) : Except LayoutError Grid := (Grid.cellOfTag t).map g.addCell

theorem passOver_of_not_mem {α : Type} {es : List Event} (h : Event.malformed ∉ es) (a : α) :
    passOver es a = .ok a := if_neg h

theorem foldlM_readInRow_eq_addTag (h : Event.malformed ∉ tagsOfAll content) (g : Grid) :
    content.foldlM readInRow g = (content.filterMap (·.cellTag?)).foldlM addTag g := by
  induction content generalizing g with
  | nil => rfl
  | cons p ps ih =>
    rw [tagsOfAll, List.mem_append, not_or] at h
    have hread : p.readInRow g = p.addCell g := by
      rw [readInRow]
      cases p.addCell g with
      | error e => rfl
      | ok g' => exact passOver_of_not_mem h.1 g'
    rw [List.foldlM_cons, hread, addCell]
    cases hcell : p.cellTag? with
    | none =>
      rw [List.filterMap_cons_none hcell]
      exact ih h.2 g
    | some t =>
      rw [List.filterMap_cons_some hcell, List.foldlM_cons]
      congr 1
      funext g'
      exact ih h.2 g'

/-- Where nothing is malformed the grid gets the cells of the first row. -/
theorem readInGrid_eq_addTag (h : Event.malformed ∉ tagsOfAll ps) (g : Grid) :
    readInGrid g ps = (firstRowCells ps).foldlM addTag g := by
  induction ps with
  | nil => rfl
  | cons p ps ih =>
    rw [tagsOfAll, List.mem_append, not_or] at h
    cases hrow : p.rowContent? with
    | none =>
      rw [readInGrid_of_none hrow, passOver_of_not_mem h.1, firstRowCells_of_none hrow]
      exact ih h.2
    | some content =>
      obtain ⟨t, -, htags⟩ := exists_of_rowContent? hrow
      have hcontent : Event.malformed ∉ tagsOfAll content := by
        have hp := h.1
        rw [htags] at hp
        simpa using hp
      rw [readInGrid_of_some hrow, foldlM_readInRow_eq_addTag hcontent, firstRowCells_of_some hrow]
      cases (content.filterMap (·.cellTag?)).foldlM addTag g with
      | error e => rfl
      | ok g' => exact passOver_of_not_mem h.2 g'

/-- The tags of the cells in the first row of a grid. -/
def gridCells (p : Piece) : List Tag :=
  match p.parts? with
  | some (t, content) => if t.name = "grid" then firstRowCells content else []
  | none => []

/-- Two spellings of the outermost element are read alike if they agree on the cells of the first
row. -/
theorem readAtTop_eq_of_cells (h : p.plain = p'.plain)
    (hcells : p.gridCells = p'.gridCells) : p.readAtTop = p'.readAtTop := by
  have hpass : passOver p.tags (none : Option Grid) = passOver p'.tags none := by
    rw [← passOver_tags_plain, h, passOver_tags_plain]
  unfold readAtTop
  unfold gridCells at hcells
  obtain ⟨hp, hp'⟩ | ⟨t, content, content', hp, hp', hcontent⟩ := parts?_cases h
  · rw [hp, hp', hpass]
  · rw [hp, hp'] at hcells ⊢
    dsimp only at hcells ⊢
    by_cases hname : t.name = "grid"
    · rw [if_pos hname, if_pos hname] at hcells
      rw [if_pos hname, if_pos hname]
      congr 1
      funext g
      rw [readInGrid_eq_of_cells hcontent hcells]
    · rw [if_neg hname, if_neg hname, hpass]

/-- The tags in the content of an element are among its tags. -/
theorem tagsOfAll_subset {t : StartTag} (h : p.parts? = some (t, content)) :
    tagsOfAll content ⊆ p.tags := by
  cases p with
  | empty t' =>
    obtain ⟨-, rfl⟩ := Prod.mk.inj (Option.some.inj h)
    exact List.nil_subset _
  | element t' content' blanks h' =>
    obtain ⟨rfl, rfl⟩ := Prod.mk.inj (Option.some.inj h)
    exact fun e he => List.mem_cons_of_mem _ (List.mem_append_left _ he)
  | _ => cases h

end Piece

namespace Document

/-- The document with every element without content written as one tag. -/
def plain (d : Document) : Document :=
  { d with
    root := d.root.plain
    isElement_root := by
      rw [Piece.isElement_plain]
      exact d.isElement_root }

/-- The tags of the cells in the first row of the grid that is not written as an empty tag. -/
def rowCells (d : Document) : List Tag := d.root.gridCells

theorem tags_eq (d : Document) :
    d.tags = Piece.tagsOfAll d.before ++ (d.root.tags ++ Piece.tagsOfAll d.after) :=
  Piece.tagsOfAll_append d.before (d.root :: d.after)

theorem malformed_mem_tags_plain (d : Document) :
    Event.malformed ∈ d.plain.tags ↔ Event.malformed ∈ d.tags := by
  have hroot : d.plain.tags =
      Piece.tagsOfAll d.before ++ (d.root.plain.tags ++ Piece.tagsOfAll d.after) := tags_eq d.plain
  rw [hroot, tags_eq]
  simp only [List.mem_append, Piece.malformed_mem_tags_plain]

/-- A grid with an object type code and no malformed processing instruction. -/
structure HasCode (d : Document) (code : Int32) : Prop where
  not_malformed : Event.malformed ∉ d.tags
  grid : ∃ t content, d.root.parts? = some (t, content) ∧ t.name = "grid" ∧
    Grid.ofTag t.toTag = .ok { object := some code }

end Document

end Markup

namespace Grid

variable {d d' : Document} {code : Int32}

theorem read_eq_of_rowCells (h : d.plain = d'.plain) (hcells : d.rowCells = d'.rowCells) :
    Grid.read d.render = Grid.read d'.render := by
  have hbefore : d.before = d'.before := congrArg (·.before) h
  have hroot : d.root.plain = d'.root.plain := congrArg (·.root) h
  have hafter : d.after = d'.after := congrArg (·.after) h
  rw [read_render, read_render, hbefore, hafter, Piece.readAtTop_eq_of_cells hroot hcells]

/-- Two spellings of a document that disagree: one has no cells in its first row. -/
theorem rowCells_cases (h : d.plain = d'.plain) :
    d.rowCells = d'.rowCells ∨ d.rowCells = [] ∨ d'.rowCells = [] := by
  have hroot : d.root.plain = d'.root.plain := congrArg (·.root) h
  unfold Document.rowCells Piece.gridCells
  obtain ⟨hp, hp'⟩ | ⟨t, content, content', hp, hp', hcontent⟩ := Piece.parts?_cases hroot
  · exact .inl (by rw [hp, hp'])
  · rw [hp, hp']
    dsimp only
    split
    · exact Piece.firstRowCells_cases hcontent
    · exact .inl rfl

/-- What is read of a grid in which nothing is malformed. -/
theorem read_of_hasCode (h : d.HasCode code) :
    Grid.read d.render = (d.rowCells.foldlM Piece.addTag { object := some code }).map some := by
  obtain ⟨hnot, t, content, hparts, hname, hcode⟩ := h
  rw [d.tags_eq, List.mem_append, List.mem_append, not_or, not_or] at hnot
  obtain ⟨hbefore, hroot, hafter⟩ := hnot
  have hcontent : Event.malformed ∉ Piece.tagsOfAll content :=
    fun hmem => hroot (Piece.tagsOfAll_subset hparts hmem)
  have htop : d.root.readAtTop =
      (d.rowCells.foldlM Piece.addTag { object := some code }).map some := by
    rw [Piece.readAtTop, Document.rowCells, Piece.gridCells, hparts]
    dsimp only
    rw [if_pos hname, if_pos hname, hcode, ← Piece.readInGrid_eq_addTag hcontent]
    rfl
  rw [read_render, Piece.passOver_of_not_mem hbefore, htop]
  cases d.rowCells.foldlM Piece.addTag { object := some code } with
  | error e => rfl
  | ok g => exact Piece.passOver_of_not_mem hafter (some g)

/-- The spelling does not matter for the code. -/
theorem hasCode_of_plain (h : d.plain = d'.plain) (hcode : d.HasCode code) :
    d'.HasCode code := by
  obtain ⟨hnot, t, content, hparts, hname, hcode⟩ := hcode
  refine ⟨?_, ?_⟩
  · rwa [← d'.malformed_mem_tags_plain, ← h, d.malformed_mem_tags_plain]
  · have hroot : d.root.plain = d'.root.plain := congrArg (·.root) h
    obtain ⟨hnone, -⟩ | ⟨t', content', content'', hp, hp', -⟩ := Piece.parts?_cases hroot
    · rw [hparts] at hnone
      cases hnone
    · rw [hparts] at hp
      obtain ⟨rfl, rfl⟩ := Prod.mk.inj (Option.some.inj hp)
      exact ⟨t, content'', hp', hname, hcode⟩

end Grid

namespace Layout

variable {d d' : Document} {code : Int32}

/-- A document has an angle bracket in it. -/
theorem blank_document (d : Document) : Text.blank d.render = false := by
  have hroot : '<' ∈ d.root.render := by
    have hisElement := d.isElement_root
    cases hp : d.root with
    | empty t => exact List.mem_cons_self
    | element t content blanks h => exact List.mem_cons_self
    | _ => rw [hp] at hisElement; cases hisElement
  have hmem : '<' ∈ Piece.renderAll d.pieces := by
    rw [Document.pieces, Piece.renderAll_append, Piece.renderAll]
    simp [hroot]
  rw [Text.blank, Document.render, String.toList_ofList, List.all_eq_false]
  exact ⟨'<', List.mem_append_right _ hmem, by decide⟩

theorem read_document (d : Document) (catalog : Catalog) (root : String) (columns : List Column) :
    Layout.read d.render catalog root columns = (Grid.read d.render).map fun grid =>
      (ofGrid catalog root grid).reconcileColumns columns := by
  rw [read_eq, blank_document, if_neg (by decide)]

/-- A catalog that knows this code. -/
def catalogOfCode (code : Int32) : Catalog :=
  ⟨[{ logicalName := "entity", objectTypeCode := some code }], true, []⟩

theorem ofGrid_catalogOfCode {g : Grid} (h : g.object = some code) (root : String) :
    (ofGrid (catalogOfCode code) root (some g)).cells = g.cells := by
  have hfind : g.object.bind (catalogOfCode code).entityOfCode? =
      some { logicalName := "entity", objectTypeCode := some code } := by
    rw [h, Option.bind_some]
    simp [Catalog.entityOfCode?, catalogOfCode]
  rw [ofGrid_of_some hfind]

/-- The cells that are added stand behind those that were there. -/
theorem exists_of_foldlM_addTag {tags : List Tag} {g g' : Grid}
    (h : tags.foldlM Piece.addTag g = .ok g') :
    g'.object = g.object ∧ ∃ added, g'.cells = g.cells ++ added := by
  induction tags generalizing g with
  | nil =>
    obtain rfl := Except.ok.inj h
    exact ⟨rfl, [], by simp⟩
  | cons t tags ih =>
    rw [List.foldlM_cons, Piece.addTag] at h
    cases hcell : Grid.cellOfTag t with
    | error e => rw [hcell] at h; cases h
    | ok c =>
      rw [hcell] at h
      obtain ⟨hobject, added, hcells⟩ := ih h
      rw [hobject, hcells]
      unfold Grid.addCell
      split
      · exact ⟨rfl, added, rfl⟩
      · exact ⟨rfl, c :: added, by simp⟩

theorem head?_reconcileColumns_nil (c : Column) (columns : List Column) :
    ((Cell.reconcileColumns (c :: columns) []).map (·.name)).head? = some c.resultName := by
  have hempty : Cell.WellNamed [] := ⟨List.nodup_nil, by simp⟩
  rw [hempty.reconcileColumns_eq]
  simp [Cell.newNames, Cell.names, Cell.fresh, List.eraseDups_cons]

theorem head?_reconcileColumns_cons {c : Cell} {cells : List Cell} {columns : List Column}
    (h : Cell.WellNamed (c :: cells)) (hc : c.name ∈ columns.map (·.resultName)) :
    ((Cell.reconcileColumns columns (c :: cells)).map (·.name)).head? = some c.name := by
  rw [h.reconcileColumns_eq, List.filter_cons, if_pos (List.contains_iff_mem.2 hc)]
  rfl

/-- Columns tell a grid without cells from one with cells. -/
theorem exists_read_ne (h : d.HasCode code) (h' : d'.HasCode code) (hnone : d.rowCells = [])
    (hsome : d'.rowCells ≠ []) :
    ∃ catalog root columns, Layout.read d.render catalog root columns ≠
      Layout.read d'.render catalog root columns := by
  have hread := Grid.read_of_hasCode h
  have hread' := Grid.read_of_hasCode h'
  rw [hnone, List.foldlM_nil] at hread
  obtain ⟨t, tags, htags⟩ := List.exists_cons_of_ne_nil hsome
  rw [htags] at hread'
  refine ⟨catalogOfCode code, "", ?_⟩
  cases hfold : (t :: tags).foldlM Piece.addTag { object := some code } with
  | error e =>
    rw [hfold] at hread'
    refine ⟨[], fun heq => ?_⟩
    rw [read_document, read_document, hread, hread'] at heq
    cases heq
  | ok g =>
    rw [hfold] at hread'
    -- the first cell stays at the front if a column goes by its name, whatever comes first there
    obtain ⟨c, added, hobject, hcells⟩ :
        ∃ c added, g.object = some code ∧ g.cells = c :: added := by
      rw [List.foldlM_cons, Piece.addTag] at hfold
      cases hcell : Grid.cellOfTag t with
      | error e => rw [hcell] at hfold; cases hfold
      | ok c =>
        rw [hcell] at hfold
        obtain ⟨hobject, added, hcells⟩ := exists_of_foldlM_addTag hfold
        exact ⟨c, added, hobject, hcells⟩
    obtain ⟨other, hother⟩ : ∃ other, other ≠ c.name := by
      by_cases hname : c.name = "a"
      · exact ⟨"b", by rw [hname]; decide⟩
      · exact ⟨"a", fun heq => hname heq.symm⟩
    refine ⟨[{ name := other }, { name := c.name }], fun heq => hother ?_⟩
    rw [read_document, read_document, hread, hread'] at heq
    have hwell : Cell.WellNamed (c :: added) := hcells ▸ (Grid.wellNamed_of_read hread').cells
    have hhead := congrArg (fun l : Layout => (l.cells.map (·.name)).head?) (Except.ok.inj heq)
    have hempty : (ofGrid (catalogOfCode code) "" (some { object := some code })).cells = [] :=
      ofGrid_catalogOfCode rfl ""
    simp only [reconcileColumns, ofGrid_catalogOfCode hobject, hempty, hcells] at hhead
    rw [head?_reconcileColumns_nil, head?_reconcileColumns_cons hwell (by simp [Column.resultName])]
      at hhead
    exact Option.some.inj hhead

/-- **When the spelling matters.**  Of two documents that differ only in how elements without
content are written the same layout is read, whatever the catalog, the root and the columns are,
if they agree on the cells of the first row that is not written as an empty tag.  If they do not,
and the document has an object type code and nothing malformed in it, then there are a catalog and
columns for which different layouts are read. -/
theorem read_respelled (h : d.plain = d'.plain) :
    (d.rowCells = d'.rowCells → ∀ catalog root columns,
      Layout.read d.render catalog root columns = Layout.read d'.render catalog root columns) ∧
    (d.rowCells ≠ d'.rowCells → ∀ code, d.HasCode code → ∃ catalog root columns,
      Layout.read d.render catalog root columns ≠ Layout.read d'.render catalog root columns) := by
  refine ⟨fun hcells catalog root columns => ?_, fun hcells code hcode => ?_⟩
  · rw [read_document, read_document, Grid.read_eq_of_rowCells h hcells]
  · have hcode' := Grid.hasCode_of_plain h hcode
    obtain heq | hnone | hnone := Grid.rowCells_cases h
    · exact absurd heq hcells
    · exact exists_read_ne hcode hcode' hnone fun hnone' => hcells (hnone.trans hnone'.symm)
    · obtain ⟨catalog, root, columns, hne⟩ :=
        exists_read_ne hcode' hcode hnone fun hnone' => hcells (hnone'.trans hnone.symm)
      exact ⟨catalog, root, columns, hne.symm⟩

/-- An attribute after a blank, with double quotes. -/
def namedValue (name : String) (value : List Char) (hname : Markup.isName name = true)
    (hvalue : '"' ∉ value) : Markup.NamedValue :=
  { before := [' '], name, beforeEquals := [], afterEquals := [], quote := '"', value,
    before_ne_nil := by decide, isSpace_before := by decide, isName_name := hname,
    isSpace_beforeEquals := rfl, isSpace_afterEquals := rfl, quote_eq := .inl rfl,
    quote_not_mem := hvalue }

/-- A tag without white space at its end. -/
def startTag (name : String) (attributes : List Markup.NamedValue)
    (hname : Markup.isName name = true) : StartTag :=
  { name, attributes, after := [], isName_name := hname, isSpace_after := rfl }

/-- The tag of a cell. -/
def nameCell : StartTag :=
  startTag "cell" [namedValue "name" "name".toList (by decide) (by decide),
    namedValue "width" "100".toList (by decide) (by decide)] (by decide)

/-- A row with some content. -/
def rowOf (content : List Piece) : Piece :=
  .element (startTag "row" [] (by decide)) content [] rfl

/-- A grid of some pieces, with an object type code. -/
def gridOf (content : List Piece) : Document :=
  { mark := false, before := [],
    root := .element
      (startTag "grid" [namedValue "object" ['1'] (by decide) (by decide)] (by decide))
      content [] rfl,
    after := [], isBeside_before := rfl, isElement_root := rfl, isBeside_after := rfl }

/-- It does not matter how a cell is written, and it matters how a row before the cells is. -/
theorem read_respelled_cell :
    (let d := gridOf [rowOf [.empty nameCell]]
      let d' := gridOf [rowOf [.element nameCell [] [] rfl]]
      d.plain = d'.plain ∧ d.rowCells = d'.rowCells ∧
        Layout.read d.render (catalogOfCode 1) "entity" [{ name := "name" }] =
          Layout.read d'.render (catalogOfCode 1) "entity" [{ name := "name" }]) ∧
      (let d := gridOf [.empty (startTag "row" [] (by decide)), rowOf [.empty nameCell]]
        let d' := gridOf [rowOf [], rowOf [.empty nameCell]]
        d.plain = d'.plain ∧ d.rowCells ≠ d'.rowCells ∧ d.HasCode 1 ∧
          ∃ catalog root columns, Layout.read d.render catalog root columns ≠
            Layout.read d'.render catalog root columns) := by
  constructor
  · intro d d'
    have hplain : d.plain = d'.plain := rfl
    exact ⟨hplain, rfl, (read_respelled hplain).1 rfl _ _ _⟩
  · intro d d'
    have hplain : d.plain = d'.plain := rfl
    have hcells : d.rowCells ≠ d'.rowCells := by decide
    have hcode : d.HasCode 1 := ⟨by decide, _, _, rfl, rfl, by decide⟩
    exact ⟨hplain, hcells, hcode, (read_respelled hplain).2 hcells 1 hcode⟩

/-- **A row whose spelling matters**: written as an empty tag it is passed over, and with a start
tag it hides the cell of the row after it. -/
theorem read_respelled_row :
    let d := gridOf [.empty (startTag "row" [] (by decide)), rowOf [.empty nameCell]]
    let d' := gridOf [rowOf [], rowOf [.empty nameCell]]
    d.plain = d'.plain ∧
      d.render = "<grid object=\"1\"><row/><row><cell name=\"name\" width=\"100\"/></row></grid>" ∧
      (Layout.read d.render (catalogOfCode 1) "entity" [{ name := "name" }]).map (·.cells) =
        .ok [⟨"name", 100, some { name := "name" }⟩] ∧
      (Layout.read d'.render (catalogOfCode 1) "entity" [{ name := "name" }]).map (·.cells) =
        .ok [⟨"name", 0, some { name := "name" }⟩] := by
  intro d d'
  refine ⟨rfl, ?_, ?_, ?_⟩
  all_goals decide +kernel

end Layout

end QueryEditor
