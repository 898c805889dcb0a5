import QueryEditor.Proofs.EmptyElements
import QueryEditor.Proofs.MarkupValues

/-!
# Grid documents as paths

Of a well-formed document the reader takes what stands at three places: the outermost element, if
it is a grid, the first row directly in it, and the cells directly in that row.  All other elements
may be called what they like and stand where they like.

Two limits keep it from reading every well-formed document.  A processing instruction ends at its
first closing angle bracket, and a reference to a character has at most six hexadecimal or seven
decimal digits.  A document beyond them (`Markup.Document.IsReadable`) counts as malformed.

* `Markup.Document.cells` : the cells, as a path from the outermost element.
* `Grid.cellOfTag_toTag`, `Grid.ofTag_toTag` : what is read of a tag.
* `Grid.OnlyMalformed` : where nothing but a malformed document is an error.
* `Grid.read_wellFormed` : **what is read of a well-formed document.**
-/

namespace QueryEditor

open Markup (Event Tag StartTag Piece Document)
open Grid (passOver)

namespace Markup

/-! ### Paths -/

namespace Piece

/-- The tag of an element. -/
def tag? (p : Piece) : Option StartTag := p.parts?.map (·.1)

/-- What stands directly in an element. -/
def children (p : Piece) : List Piece := p.parts?.elim [] (·.2)

/-- Whether it is an element of this name. -/
def isNamed (name : String) (p : Piece) : Bool := p.tag?.any (·.name == name)

/-- The elements of this name directly in an element. -/
def childrenNamed (name : String) (p : Piece) : List Piece := p.children.filter (isNamed name)

/-- Whether it is an element written as one tag. -/
def isEmptyTag : Piece → Bool
  | empty _ => true
  | _ => false

mutual

/-- The tags of an element and of all elements in it. -/
def startTags : Piece → List StartTag
  | text .. | comment .. | characterData .. | documentType .. | instruction .. => []
  | empty t => [t]
  | element t content _ _ => t :: startTagsOfAll content

/-- The tags of all elements in content. -/
def startTagsOfAll : List Piece → List StartTag
  | [] => []
  | p :: ps => startTags p ++ startTagsOfAll ps

end

variable {p : Piece} {ps content : List Piece} {t : StartTag}

theorem startTags_subset_of_mem (h : p ∈ ps) : p.startTags ⊆ startTagsOfAll ps := by
  induction ps with
  | nil => cases h
  | cons q ps ih =>
    rw [startTagsOfAll]
    obtain rfl | h := List.mem_cons.1 h
    · exact List.subset_append_left _ _
    · exact fun t ht => List.mem_append_right _ (ih h ht)

theorem startTags_of_parts? (h : p.parts? = some (t, content)) :
    p.startTags = t :: startTagsOfAll content := by
  cases p with
  | empty t' =>
    obtain ⟨rfl, rfl⟩ := Prod.mk.inj (Option.some.inj h)
    rfl
  | element t' content' blanks h' =>
    obtain ⟨rfl, rfl⟩ := Prod.mk.inj (Option.some.inj h)
    rfl
  | _ => cases h

theorem exists_parts? (h : p.isElement = true) : ∃ t content, p.parts? = some (t, content) := by
  cases p with
  | empty t => exact ⟨t, [], rfl⟩
  | element t content blanks h' => exact ⟨t, content, rfl⟩
  | _ => cases h

theorem tag?_of_parts? (h : p.parts? = some (t, content)) : p.tag? = some t := by
  rw [tag?, h, Option.map_some]

theorem children_of_parts? (h : p.parts? = some (t, content)) : p.children = content := by
  rw [children, h, Option.elim_some]

theorem isNamed_iff (h : p.parts? = some (t, content)) (name : String) :
    p.isNamed name = true ↔ t.name = name := by
  rw [isNamed, tag?_of_parts? h, Option.any_some, beq_iff_eq]

theorem mem_startTags_of_tag? (h : p.tag? = some t) : t ∈ p.startTags := by
  obtain ⟨⟨t', content⟩, hparts, rfl⟩ := Option.map_eq_some_iff.1 h
  rw [startTags_of_parts? hparts]
  exact List.mem_cons_self

theorem startTags_subset_of_child {q : Piece} (h : q ∈ p.children) :
    q.startTags ⊆ p.startTags := by
  unfold children at h
  cases hparts : p.parts? with
  | none => rw [hparts] at h; cases h
  | some parts =>
    rw [hparts] at h
    rw [startTags_of_parts? hparts]
    exact fun t ht => List.mem_cons_of_mem _ (startTags_subset_of_mem h ht)

/-- An element of a row is a cell or is passed over. -/
theorem cellTag?_eq (p : Piece) :
    p.cellTag? = if p.isNamed "cell" then p.tag?.map (·.toTag) else none := by
  cases p with
  | empty t => exact if_congr beq_iff_eq.symm rfl rfl
  | element t content blanks h => exact if_congr beq_iff_eq.symm rfl rfl
  | _ => rfl

theorem filterMap_cellTag? (ps : List Piece) :
    ps.filterMap (·.cellTag?) =
      ((ps.filter (isNamed "cell")).filterMap (·.tag?)).map (·.toTag) := by
  rw [List.map_filterMap, List.filterMap_filter]
  congr 1
  funext p
  exact cellTag?_eq p

/-- A row is read unless it is written as an empty tag. -/
theorem rowContent?_eq (h : p.isNamed "row" = true → p.isEmptyTag = false) :
    p.rowContent? = if p.isNamed "row" then some p.children else none := by
  cases p with
  | empty t =>
    have hname : ¬(empty t).isNamed "row" = true := fun hnamed => Bool.noConfusion (h hnamed)
    rw [if_neg hname]
    rfl
  | element t content blanks h' => exact if_congr beq_iff_eq.symm rfl rfl
  | _ => rfl

/-- The cells of the first row, as a path. -/
theorem firstRowCells_eq
    (h : ∀ p ∈ ps, p.isNamed "row" = true → p.isEmptyTag = false) :
    firstRowCells ps =
      (((ps.find? (isNamed "row")).elim [] (childrenNamed "cell")).filterMap (·.tag?)).map
        (·.toTag) := by
  induction ps with
  | nil => rfl
  | cons p ps ih =>
    obtain ⟨hp, hps⟩ := List.forall_mem_cons.1 h
    have hrow := rowContent?_eq hp
    cases hnamed : p.isNamed "row" with
    | true =>
      -- the first row is found, and what comes after it does not matter
      rw [hnamed, if_pos rfl] at hrow
      rw [firstRowCells_of_some hrow, List.find?_cons_of_pos hnamed, filterMap_cellTag?]
      rfl
    | false =>
      rw [hnamed, if_neg (by decide)] at hrow
      rw [firstRowCells_of_none hrow, List.find?_cons_of_neg (by simp [hnamed]), ih hps]

end Piece

namespace StartTag

/-- The width that a cell gives; one without a width is hidden. -/
def width? (t : StartTag) : Option UInt32 :=
  match t.value? "width" with
  | none => some 0
  | some width => Numeral.uint32? (Text.trimmed width)

/-- The cell that a tag describes. -/
def cell (t : StartTag) : Cell :=
  { name := String.ofList ((t.value? "name").getD [])
    width := t.width?.getD 0
    column := none }

/-- The object type code that a grid gives. -/
def object? (t : StartTag) : Option Int32 :=
  (t.value? "object").bind fun object => Numeral.int32? (Text.trimmed object)

end StartTag

namespace Document

/-- The tags of all elements. -/
def startTags (d : Document) : List StartTag := Piece.startTagsOfAll d.pieces

/-- In each tag the names of the attributes differ, and each value says something. -/
def IsWellFormed (d : Document) : Prop := ∀ t ∈ d.startTags, t.IsWellFormed

instance (d : Document) : Decidable d.IsWellFormed :=
  inferInstanceAs (Decidable (∀ t ∈ d.startTags, t.IsWellFormed))

/-- The tags of the cells directly in the first row directly in the outermost element, if that is
a grid. -/
def cells (d : Document) : List StartTag :=
  if d.root.isNamed "grid" then
    ((d.root.childrenNamed "row").head?.elim [] (Piece.childrenNamed "cell")).filterMap (·.tag?)
  else []

/-- No limit of the reader keeps it from reading the document. -/
structure IsReadable (d : Document) : Prop where
  /-- No processing instruction has a closing angle bracket in it. -/
  not_malformed : Event.malformed ∉ d.tags
  /-- No number in the object type code is too long. -/
  object : d.root.isNamed "grid" = true → d.root.tag?.all (·.isShort "object") = true
  /-- No number in the names and widths of the cells is too long. -/
  cells : ∀ t ∈ d.cells, t.isShort "name" = true ∧ t.isShort "width" = true

instance (d : Document) : Decidable d.IsReadable :=
  decidable_of_iff (Event.malformed ∉ d.tags ∧
    (d.root.isNamed "grid" = true → d.root.tag?.all (·.isShort "object") = true) ∧
    ∀ t ∈ d.cells, t.isShort "name" = true ∧ t.isShort "width" = true)
    ⟨fun h => ⟨h.1, h.2.1, h.2.2⟩, fun h => ⟨h.not_malformed, h.object, h.cells⟩⟩

variable {d : Document}

theorem mem_startTags_of_root {t : StartTag} (h : t ∈ d.root.startTags) : t ∈ d.startTags :=
  Piece.startTags_subset_of_mem (List.mem_append_right _ List.mem_cons_self) h

theorem mem_startTags_of_mem_cells {t : StartTag} (h : t ∈ d.cells) : t ∈ d.startTags := by
  unfold cells at h
  split at h
  case isFalse => cases h
  case isTrue =>
    obtain ⟨p, hp, htag⟩ := List.mem_filterMap.1 h
    cases hrow : (d.root.childrenNamed "row").head? with
    | none => rw [hrow] at hp; cases hp
    | some row =>
      rw [hrow] at hp
      have hchild : p ∈ row.children := List.mem_of_mem_filter hp
      have hroot : row ∈ d.root.children := List.mem_of_mem_filter (List.mem_of_head? hrow)
      refine mem_startTags_of_root (Piece.startTags_subset_of_child hroot ?_)
      exact Piece.startTags_subset_of_child hchild (Piece.mem_startTags_of_tag? htag)

theorem malformed_not_mem_root (h : Event.malformed ∉ d.tags) :
    Event.malformed ∉ d.root.tags := by
  rw [d.tags_eq, List.mem_append, List.mem_append, not_or, not_or] at h
  exact h.2.1

/-- The cells that the reader takes, if no row is written as an empty tag. -/
theorem rowCells_eq (h : ∀ p ∈ d.root.childrenNamed "row", p.isEmptyTag = false) :
    d.rowCells = d.cells.map (·.toTag) := by
  have hrows : ∀ p ∈ d.root.children, p.isNamed "row" = true → p.isEmptyTag = false :=
    fun p hp hnamed => h p (List.mem_filter.2 ⟨hp, hnamed⟩)
  have hcells := Piece.firstRowCells_eq hrows
  unfold rowCells Piece.gridCells cells
  rw [Piece.childrenNamed, List.head?_filter]
  obtain ⟨t, content, hparts⟩ := Piece.exists_parts? d.isElement_root
  rw [Piece.children_of_parts? hparts] at hcells ⊢
  rw [hparts]
  dsimp only
  rw [hcells]
  split
  case isTrue hname => rw [if_pos ((Piece.isNamed_iff hparts "grid").2 hname)]
  case isFalse hname => rw [if_neg fun h => hname ((Piece.isNamed_iff hparts "grid").1 h)]; rfl

end Document

end Markup

namespace Grid

/-! ### Tags -/

section Tags

variable {t : StartTag}

/-- **What is read of the tag of a grid.** -/
theorem ofTag_toTag (h : t.IsWellFormed) : Grid.ofTag t.toTag =
    if t.isShort "object" = true then .ok { object := t.object? } else .error .malformed := by
  unfold Grid.ofTag
  rw [StartTag.attributes?_toTag h.nodup, Option.bind_some, StartTag.valueIn?_written h]
  cases t.isShort "object" <;> rfl

/-- **What is read of the tag of a cell** with a width that can be read. -/
theorem cellOfTag_toTag (h : t.IsWellFormed) (hwidth : t.width? ≠ none) : cellOfTag t.toTag =
    if t.isShort "name" = true ∧ t.isShort "width" = true then .ok t.cell
    else .error .malformed := by
  have htexts : cellTexts? t.toTag = if t.isShort "name" = true ∧ t.isShort "width" = true then
      some (t.value? "name", t.value? "width") else none := by
    unfold cellTexts?
    rw [StartTag.attributes?_toTag h.nodup]
    simp only [Option.bind_eq_bind, Option.bind_some, StartTag.valueIn?_written h]
    cases t.isShort "name" <;> cases t.isShort "width" <;> rfl
  unfold cellOfTag
  rw [htexts]
  by_cases hshort : t.isShort "name" = true ∧ t.isShort "width" = true
  · rw [if_pos hshort, if_pos hshort]
    unfold StartTag.cell
    unfold StartTag.width? at hwidth ⊢
    cases hvalue : t.value? "width" with
    | none => rfl
    | some width =>
      rw [hvalue] at hwidth
      obtain ⟨n, hn⟩ := Option.ne_none_iff_exists'.1 hwidth
      simp [hn]
  · rw [if_neg hshort, if_neg hshort]

/-- Cells are read one by one, unless a number in one of them is too long. -/
theorem foldlM_addTag_toTag {ts : List StartTag}
    (h : ∀ t ∈ ts, t.IsWellFormed ∧ t.width? ≠ none) (g : Grid) :
    (ts.map (·.toTag)).foldlM Piece.addTag g =
      if ∀ t ∈ ts, t.isShort "name" = true ∧ t.isShort "width" = true then
        .ok ((ts.map (·.cell)).foldl addCell g)
      else .error .malformed := by
  induction ts generalizing g with
  | nil => rfl
  | cons t ts ih =>
    obtain ⟨⟨hwell, hwidth⟩, hts⟩ := List.forall_mem_cons.1 h
    rw [List.map_cons, List.foldlM_cons, Piece.addTag, cellOfTag_toTag hwell hwidth]
    by_cases hshort : t.isShort "name" = true ∧ t.isShort "width" = true
    · have hall : (∀ t' ∈ t :: ts, t'.isShort "name" = true ∧ t'.isShort "width" = true) ↔
          ∀ t' ∈ ts, t'.isShort "name" = true ∧ t'.isShort "width" = true :=
        List.forall_mem_cons.trans (and_iff_right hshort)
      rw [if_pos hshort, if_congr hall rfl rfl]
      exact ih hts (g.addCell t.cell)
    · have hnot : ¬∀ t' ∈ t :: ts, t'.isShort "name" = true ∧ t'.isShort "width" = true :=
        fun hall => hshort (hall t List.mem_cons_self)
      rw [if_neg hshort, if_neg hnot]
      rfl

end Tags

/-! ### Errors -/

section OnlyMalformed

variable {α β : Type}

/-- Nothing but a malformed document is an error. -/
def OnlyMalformed (x : Except LayoutError α) : Prop := ∀ e, x = .error e → e = .malformed

theorem onlyMalformed_ok (a : α) : OnlyMalformed (.ok a) := fun _ h => by cases h

theorem onlyMalformed_error : OnlyMalformed (.error .malformed : Except LayoutError α) :=
  fun _ h => (Except.error.inj h).symm

theorem onlyMalformed_passOver (es : List Event) (a : α) : OnlyMalformed (passOver es a) := by
  unfold passOver
  split
  · exact onlyMalformed_error
  · exact onlyMalformed_ok a

theorem OnlyMalformed.bind {x : Except LayoutError α} {f : α → Except LayoutError β}
    (h : OnlyMalformed x) (hf : ∀ a, OnlyMalformed (f a)) : OnlyMalformed (x >>= f) := by
  cases x with
  | error e =>
    intro e' he
    rw [← h e rfl]
    exact (Except.error.inj he).symm
  | ok a => exact hf a

theorem OnlyMalformed.map {x : Except LayoutError α} (h : OnlyMalformed x) (f : α → β) :
    OnlyMalformed (x.map f) :=
  h.bind fun a => onlyMalformed_ok (f a)

variable {content ps : List Piece}

theorem onlyMalformed_foldlM_readInRow
    (h : ∀ t ∈ content.filterMap (·.cellTag?), OnlyMalformed (cellOfTag t)) (g : Grid) :
    OnlyMalformed (content.foldlM Piece.readInRow g) := by
  induction content generalizing g with
  | nil => exact onlyMalformed_ok g
  | cons p ps ih =>
    have hadd : OnlyMalformed (p.addCell g) := by
      unfold Piece.addCell
      cases hcell : p.cellTag? with
      | none => exact onlyMalformed_ok g
      | some t => exact (h t (List.mem_filterMap.2 ⟨p, List.mem_cons_self, hcell⟩)).map _
    rw [List.foldlM_cons]
    refine (hadd.bind fun g' => onlyMalformed_passOver _ g').bind fun g' => ih ?_ g'
    intro t ht
    obtain ⟨q, hq, hcell⟩ := List.mem_filterMap.1 ht
    exact h t (List.mem_filterMap.2 ⟨q, List.mem_cons_of_mem _ hq, hcell⟩)

theorem onlyMalformed_readInGrid
    (h : ∀ t ∈ Piece.firstRowCells ps, OnlyMalformed (cellOfTag t)) (g : Grid) :
    OnlyMalformed (Piece.readInGrid g ps) := by
  induction ps generalizing g with
  | nil => exact onlyMalformed_ok g
  | cons p ps ih =>
    cases hrow : p.rowContent? with
    | some content =>
      rw [Piece.firstRowCells_of_some hrow] at h
      rw [Piece.readInGrid_of_some hrow]
      exact (onlyMalformed_foldlM_readInRow h g).bind fun g' => onlyMalformed_passOver _ g'
    | none =>
      rw [Piece.firstRowCells_of_none hrow] at h
      rw [Piece.readInGrid_of_none hrow]
      exact (onlyMalformed_passOver _ g).bind fun g' => ih h g'

theorem onlyMalformed_ofTag (t : Tag) : OnlyMalformed (Grid.ofTag t) := by
  unfold Grid.ofTag
  split
  · exact onlyMalformed_error
  · exact onlyMalformed_ok _

variable {d : Document}

/-- If the widths of the cells are no error, nothing but a malformed document is. -/
theorem onlyMalformed_read (h : ∀ t ∈ d.rowCells, OnlyMalformed (cellOfTag t)) :
    OnlyMalformed (Grid.read d.render) := by
  have hroot : OnlyMalformed d.root.readAtTop := by
    unfold Document.rowCells Piece.gridCells at h
    unfold Piece.readAtTop
    cases hparts : d.root.parts? with
    | none => exact onlyMalformed_passOver _ none
    | some parts =>
      rw [hparts] at h
      dsimp only at h ⊢
      split
      case isFalse => exact onlyMalformed_passOver _ none
      case isTrue hname =>
        rw [if_pos hname] at h
        exact (onlyMalformed_ofTag _).bind fun g => (onlyMalformed_readInGrid h g).map some
  rw [read_render]
  exact (onlyMalformed_passOver _ ()).bind fun _ =>
    hroot.bind fun grid => onlyMalformed_passOver _ grid

/-- A document with a malformed tag is not read. -/
theorem malformed_not_mem_of_foldlM {es : List Event} {r r' : Reader}
    (h : es.foldlM Reader.step r = .ok r') : Event.malformed ∉ es := by
  intro hmem
  obtain ⟨before, after, rfl⟩ := List.append_of_mem hmem
  rw [List.foldlM_append] at h
  cases hbefore : before.foldlM Reader.step r with
  | error e => rw [hbefore] at h; cases h
  | ok r'' => rw [hbefore] at h; cases h

theorem malformed_not_mem_of_read {grid : Option Grid} (h : Grid.read d.render = .ok grid) :
    Event.malformed ∉ d.tags := by
  rw [read_eq_foldlM] at h
  cases hread : d.tags.foldlM Reader.step {} with
  | error e => rw [hread] at h; cases h
  | ok r => exact malformed_not_mem_of_foldlM hread

end OnlyMalformed

/-! ### Documents -/

variable {d : Document}

/-- Where nothing is malformed what the outermost element says is read. -/
theorem read_eq_readAtTop (h : Event.malformed ∉ d.tags) :
    Grid.read d.render = d.root.readAtTop := by
  rw [d.tags_eq, List.mem_append, List.mem_append, not_or, not_or] at h
  rw [read_render, Piece.passOver_of_not_mem h.1]
  change d.root.readAtTop >>= passOver (Piece.tagsOfAll d.after) = _
  cases d.root.readAtTop with
  | error e => rfl
  | ok grid => exact Piece.passOver_of_not_mem h.2.2 grid

/-- A grid in which nothing is malformed is read, unless a number in it is too long. -/
theorem read_of_grid {t : StartTag} (hwell : d.IsWellFormed)
    (hrows : ∀ p ∈ d.root.childrenNamed "row", p.isEmptyTag = false)
    (hwidths : ∀ t ∈ d.cells, t.width? ≠ none) (hnot : Event.malformed ∉ d.tags)
    (htag : d.root.tag? = some t) (hname : t.name = "grid") :
    Grid.read d.render =
      if t.isShort "object" = true ∧
          ∀ c ∈ d.cells, c.isShort "name" = true ∧ c.isShort "width" = true then
        .ok (some
          { object := t.object?, cells := Cell.firstOfEach (·.name) (d.cells.map (·.cell)) })
      else .error .malformed := by
  obtain ⟨⟨t', content⟩, hparts, rfl⟩ := Option.map_eq_some_iff.1 htag
  have hcontent : Event.malformed ∉ Piece.tagsOfAll content := fun hmem =>
    Document.malformed_not_mem_root hnot (Piece.tagsOfAll_subset hparts hmem)
  have hroot := hwell t' (Document.mem_startTags_of_root (Piece.mem_startTags_of_tag? htag))
  have hcells : Piece.firstRowCells content = d.cells.map (·.toTag) := by
    rw [← d.rowCells_eq hrows, Document.rowCells, Piece.gridCells, hparts]
    exact (if_pos hname).symm
  have hall : ∀ c ∈ d.cells, c.IsWellFormed ∧ c.width? ≠ none := fun c hc =>
    ⟨hwell c (Document.mem_startTags_of_mem_cells hc), hwidths c hc⟩
  rw [read_eq_readAtTop hnot, Piece.readAtTop, hparts]
  dsimp only
  rw [if_pos hname, ofTag_toTag hroot]
  by_cases hshort : t'.isShort "object" = true
  · rw [if_pos hshort, if_congr (and_iff_right hshort) rfl rfl]
    change (Piece.readInGrid { object := t'.object? } content).map some = _
    rw [Piece.readInGrid_eq_addTag hcontent, hcells, foldlM_addTag_toTag hall, foldl_addCell]
    split <;> rfl
  · rw [if_neg hshort, if_neg fun h => hshort h.1]
    rfl

/-- A document without a grid is read if nothing in it is malformed. -/
theorem read_of_no_grid (hnot : Event.malformed ∉ d.tags) (hnamed : d.root.isNamed "grid" = false) :
    Grid.read d.render = .ok none := by
  obtain ⟨t, content, hparts⟩ := Piece.exists_parts? d.isElement_root
  have hname : t.name ≠ "grid" := by
    intro hname
    rw [(Piece.isNamed_iff hparts "grid").2 hname] at hnamed
    cases hnamed
  rw [read_eq_readAtTop hnot, Piece.readAtTop, hparts]
  dsimp only
  rw [if_neg hname, Piece.passOver_of_not_mem (Document.malformed_not_mem_root hnot)]

/-- A document beyond the limits of the reader is not read. -/
theorem isReadable_of_read {grid : Option Grid} (hwell : d.IsWellFormed)
    (hrows : ∀ p ∈ d.root.childrenNamed "row", p.isEmptyTag = false)
    (hwidths : ∀ t ∈ d.cells, t.width? ≠ none) (hread : Grid.read d.render = .ok grid) :
    d.IsReadable := by
  have hnot := malformed_not_mem_of_read hread
  cases hnamed : d.root.isNamed "grid" with
  | false =>
    refine ⟨hnot, fun h => Bool.noConfusion (hnamed.symm.trans h), ?_⟩
    rw [Document.cells, if_neg (by rw [hnamed]; decide)]
    exact fun c hc => absurd hc List.not_mem_nil
  | true =>
    obtain ⟨t, content, hparts⟩ := Piece.exists_parts? d.isElement_root
    have htag := Piece.tag?_of_parts? hparts
    have hname := (Piece.isNamed_iff hparts "grid").1 hnamed
    rw [read_of_grid hwell hrows hwidths hnot htag hname] at hread
    split at hread
    case isFalse => cases hread
    case isTrue hshort =>
      refine ⟨hnot, fun _ => ?_, hshort.2⟩
      rw [htag, Option.all_some, hshort.1]

/-- **What is read of a well-formed document** in which no row of the grid is written as an empty
tag and the width of each cell can be read.  Within the limits of the reader, no grid is read
exactly when the outermost element is not one; a grid has the object type code of that element and
the cells directly in the first row directly in it, of several cells of a name the first one.  What
else stands in the document does not matter.  A document beyond the limits counts as malformed. -/
theorem read_wellFormed (hwell : d.IsWellFormed)
    (hrows : ∀ p ∈ d.root.childrenNamed "row", p.isEmptyTag = false)
    (hwidths : ∀ t ∈ d.cells, t.width? ≠ none) :
    (d.IsReadable →
      (Grid.read d.render = .ok none ↔ d.root.isNamed "grid" = false) ∧
      ∀ t, d.root.tag? = some t → t.name = "grid" → Grid.read d.render = .ok (some
        { object := t.object?, cells := Cell.firstOfEach (·.name) (d.cells.map (·.cell)) })) ∧
    (¬d.IsReadable → Grid.read d.render = .error .malformed) := by
  refine ⟨fun hreadable => ?_, fun hnot => ?_⟩
  · obtain ⟨hnot, hobject, hcells⟩ := hreadable
    have hgrid (t : StartTag) (htag : d.root.tag? = some t) (hname : t.name = "grid") :
        Grid.read d.render = .ok (some
          { object := t.object?, cells := Cell.firstOfEach (·.name) (d.cells.map (·.cell)) }) := by
      have hnamed : d.root.isNamed "grid" = true := by
        rw [Piece.isNamed, htag, Option.any_some, hname, beq_self_eq_true]
      have hshort : t.isShort "object" = true := by
        have hall := hobject hnamed
        rwa [htag, Option.all_some] at hall
      rw [read_of_grid hwell hrows hwidths hnot htag hname, if_pos ⟨hshort, hcells⟩]
    refine ⟨⟨fun hnone => ?_, read_of_no_grid hnot⟩, hgrid⟩
    rw [Bool.eq_false_iff]
    intro hnamed
    obtain ⟨t, content, hparts⟩ := Piece.exists_parts? d.isElement_root
    rw [hgrid t (Piece.tag?_of_parts? hparts) ((Piece.isNamed_iff hparts "grid").1 hnamed)]
      at hnone
    cases hnone
  · -- it is no error of a width, and the document is not read, so it is malformed
    have honly : OnlyMalformed (Grid.read d.render) := by
      refine onlyMalformed_read fun c hc => ?_
      rw [d.rowCells_eq hrows] at hc
      obtain ⟨t, ht, rfl⟩ := List.mem_map.1 hc
      rw [cellOfTag_toTag (hwell t (Document.mem_startTags_of_mem_cells ht)) (hwidths t ht)]
      split
      · exact onlyMalformed_ok _
      · exact onlyMalformed_error
    cases hread : Grid.read d.render with
    | error e => rw [honly e hread]
    | ok grid => exact absurd (isReadable_of_read hwell hrows hwidths hread) hnot

open Layout (namedValue startTag rowOf gridOf nameCell)

theorem isName_cell : Markup.isName "cell" = true := by decide

theorem isName_grid : Markup.isName "grid" = true := by decide

theorem isName_name : Markup.isName "name" = true := by decide

theorem isName_width : Markup.isName "width" = true := by decide

theorem isName_object : Markup.isName "object" = true := by decide

theorem quote_not_mem_name : '"' ∉ "name".toList := by decide

theorem quote_not_mem_hundred : '"' ∉ "100".toList := by decide

theorem all_isSpace_nil : ([] : List Char).all Markup.isSpace = true := rfl

/-- The tag of a cell without a width. -/
def bareCell (name : String) (h : '"' ∉ name.toList) : StartTag :=
  startTag "cell" [namedValue "name" name.toList isName_name h] isName_cell

/-- A grid with rows, cells and another grid where none are looked for. -/
def tangledGrid : Document :=
  gridOf [
    .comment "a > b".toList (by decide),
    .element (startTag "note" [] (by decide)) [rowOf [.empty (bareCell "aside" (by decide))]] []
      all_isSpace_nil,
    .empty (bareCell "outside" (by decide)),
    rowOf [
      .text "text".toList (by decide),
      .element nameCell [rowOf [.empty (bareCell "inside" (by decide))]] [] all_isSpace_nil,
      .empty (startTag "grid" [namedValue "object" ['2'] isName_object (by decide)] isName_grid),
      .empty (bareCell "a&#38;b" (by decide)),
      .empty (bareCell "name" quote_not_mem_name)],
    rowOf [.empty (bareCell "later" (by decide))]]

/-- Only the cells of the first row are read, and the first one of each name counts. -/
theorem read_wellFormed_of_tangled :
    tangledGrid.IsWellFormed ∧
      (∀ p ∈ tangledGrid.root.childrenNamed "row", p.isEmptyTag = false) ∧
      (∀ t ∈ tangledGrid.cells, t.width? ≠ none) ∧ tangledGrid.IsReadable ∧
      Grid.read tangledGrid.render =
        .ok (some { object := some 1, cells := [⟨"name", 100, none⟩, ⟨"a&b", 0, none⟩] }) := by
  have hwell : tangledGrid.IsWellFormed := by decide +kernel
  have hrows : ∀ p ∈ tangledGrid.root.childrenNamed "row", p.isEmptyTag = false := by
    decide +kernel
  have hwidths : ∀ t ∈ tangledGrid.cells, t.width? ≠ none := by decide +kernel
  have hreadable : tangledGrid.IsReadable := by decide +kernel
  have hread := ((read_wellFormed hwell hrows hwidths).1 hreadable).2 _ rfl rfl
  refine ⟨hwell, hrows, hwidths, hreadable, hread.trans ?_⟩
  decide +kernel

/-- A grid with a closing angle bracket in a processing instruction. -/
def instructedGrid : Document :=
  gridOf [.instruction "x a>b".toList (by decide) (by decide), rowOf [.empty nameCell]]

/-- A grid with a number of eight digits. -/
def numberedGrid : Document :=
  gridOf [rowOf [.empty (startTag "cell"
    [namedValue "name" "&#00000110;ame".toList isName_name (by decide),
      namedValue "width" "100".toList isName_width quote_not_mem_hundred] isName_cell)]]

/-- **Documents beyond the limits** count as malformed, although they are well-formed. -/
theorem read_beyond_limits :
    (instructedGrid.render =
        "<grid object=\"1\"><?x a>b?><row><cell name=\"name\" width=\"100\"/></row></grid>" ∧
      instructedGrid.IsWellFormed ∧
      (∀ p ∈ instructedGrid.root.childrenNamed "row", p.isEmptyTag = false) ∧
      (∀ t ∈ instructedGrid.cells, t.width? ≠ none) ∧
      Grid.read instructedGrid.render = .error .malformed) ∧
    (numberedGrid.render =
        "<grid object=\"1\"><row><cell name=\"&#00000110;ame\" width=\"100\"/></row></grid>" ∧
      numberedGrid.IsWellFormed ∧
      (∀ p ∈ numberedGrid.root.childrenNamed "row", p.isEmptyTag = false) ∧
      (∀ t ∈ numberedGrid.cells, t.width? ≠ none) ∧
      Grid.read numberedGrid.render = .error .malformed) := by
  refine ⟨⟨?_, ?_, ?_, ?_, ?_⟩, ?_, ?_, ?_, ?_, ?_⟩
  all_goals decide +kernel

end Grid

end QueryEditor
