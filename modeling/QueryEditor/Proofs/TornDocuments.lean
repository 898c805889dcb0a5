import QueryEditor.Proofs.LayoutRoundTrip
import QueryEditor.Proofs.TornTags

/-!
# Documents that were cut off

The reader takes the end of a text for the end of the document, whatever elements are open there.
Of a document that was written, a beginning is noticed to be cut off only when its end stands
within an attribute of the grid or of a cell, or within the name of a closing tag (`Grid.Torn`).
From every other beginning a layout is made with the cells that are left.

* `Grid.Segment` : part of a document, from which what is read of any beginning of it is known.
* `Grid.Segment.append` : parts one after the other.
* `Grid.segment_gridElement` : a whole document, from its lines.
* `Layout.read_torn_eq_malformed_iff` : **which beginnings of a document are malformed**, and
  `Layout.read_torn_hides_cell` : one that is not, with a cell missing.
-/

namespace QueryEditor

open Markup (Element Event Tag Scanner EndsInTag isName isNameChar)
open Markup.Element (attributeText tagText indented)

namespace Grid

open Layout (cellTag cellAttributes gridTag rowTag gridElement gridAttributes)
open Markup.Scanner (body tagEvent)

/-- What stands of a tag of a grid document when its end cannot be missed. -/
inductive Torn : List Char → Prop
  /-- The tag of the grid or of a cell ends within an attribute, after the first character of its
  name. -/
  | inAttribute {name : String} {attributes : List (String × String)} {a : String × String}
      {part : List Char} (hname : name ∈ ["grid", "cell"])
      (hattributes : ∀ a ∈ attributes, isName a.1 = true) (ha : isName a.1 = true)
      (hpart : Tag.IsTorn part a) : Torn (tagText name attributes ++ part)
  /-- The closing tag of the grid or of the row ends within the name. -/
  | inClosingName {name : String} {part : List Char} (hname : name ∈ ["grid", "row"])
      (hpart : part <+: name.toList) (hne : part ≠ name.toList) : Torn ('/' :: part)

section Torn

variable {text part : List Char} {name : String}

theorem isName_of_mem (h : name ∈ ["grid", "row", "cell"]) : isName name = true := by
  revert name
  decide

/-- A torn tag starts as that of the grid or of a cell, or as a closing tag. -/
theorem Torn.head? (h : Torn text) : text.head? ∈ [some 'g', some 'c', some '/'] := by
  cases h with
  | inAttribute hname =>
    obtain rfl | rfl := List.mem_pair.1 hname
    · exact List.mem_cons_self
    · exact List.mem_cons_of_mem _ List.mem_cons_self
  | inClosingName => simp

/-- A torn tag has a blank in it or starts with a slash. -/
theorem not_torn_of_isNameChar (h : ∀ c ∈ text, isNameChar c = true) : ¬Torn text := by
  intro htorn
  cases htorn with
  | inAttribute hname hattributes ha hpart =>
    obtain ⟨rest, rfl⟩ := hpart.exists_eq
    exact absurd (h ' ' (by simp)) (by decide)
  | inClosingName => exact absurd (h '/' List.mem_cons_self) (by decide)

/-- A torn start tag cannot be read. -/
theorem Torn.attributes? (h : Torn text) (hopen : text.head? ≠ some '/') :
    (Tag.ofText (body text)).attributes? = none := by
  cases h with
  | inClosingName => exact absurd rfl hopen
  | inAttribute hname hattributes ha hpart =>
    have hisName := isName_of_mem (List.Sublist.subset (by decide) hname)
    exact (Tag.attributes?_of_isTorn hisName hattributes ha hpart).2

theorem torn_slash_iff (hname : name ∈ ["grid", "row"]) (hpart : part <+: name.toList) :
    Torn ('/' :: part) ↔ part ≠ name.toList := by
  refine ⟨fun h => ?_, .inClosingName hname hpart⟩
  generalize htext : '/' :: part = text at h
  cases h with
  | inAttribute hname' =>
    obtain rfl | rfl := List.mem_pair.1 hname'
    all_goals cases (List.cons.inj htext).1
  | inClosingName hname' hpart' hne =>
    obtain rfl := (List.cons.inj htext).2
    rintro rfl
    -- neither name is part of the other
    obtain rfl | rfl := List.mem_pair.1 hname <;> obtain rfl | rfl := List.mem_pair.1 hname'
    · exact hne rfl
    · exact absurd hpart' (by decide)
    · exact absurd hpart' (by decide)
    · exact hne rfl

end Torn

/-! ### Tags at the end of a text -/

namespace Reader

variable {r : Reader} {text : List Char}

/-- A tag at another depth than that of a row is read alike with and without a slash. -/
theorem step_tagEvent (h : r.depth ≠ 1) : ∃ depth, r.step (tagEvent text) =
    { r with depth }.readTag (r.depth + 1) (Tag.ofText (body text)) := by
  unfold tagEvent
  split
  · exact ⟨r.depth, rfl⟩
  · refine ⟨r.depth + 1, ?_⟩
    have hrow : openRow { r with depth := r.depth + 1 } (Tag.ofText (body text)) =
        { r with depth := r.depth + 1 } := by
      rw [openRow, if_neg (by simp [h])]
    rw [step, hrow]

/-- At the depth of a row no tag is refused. -/
theorem step_tagEvent_row (h : r.depth = 1) : ∃ r', r.step (tagEvent text) = .ok r' := by
  have hpass (r' : Reader) (t : Tag) : r'.readTag (r.depth + 1) t = .ok r' :=
    readTag_eq_self (by simp [h]) (by simp [h])
  unfold tagEvent
  split
  · exact ⟨_, hpass _ _⟩
  · exact ⟨_, hpass _ _⟩

/-- The next tag is looked at if it has this name, and can be read as long as its attributes
can. -/
structure LooksAt (r : Reader) (name : String) (attributes : List (String × String)) : Prop where
  depth : r.depth ≠ 1
  /-- A tag of another name is passed over. -/
  other : ∀ depth t, t.name ≠ name.toList →
    ∃ r', { r with depth }.readTag (r.depth + 1) t = .ok r'
  /-- A tag that cannot be read is an error. -/
  torn : ∀ depth t, t.name = name.toList → t.attributes? = none →
    { r with depth }.readTag (r.depth + 1) t = .error .malformed
  /-- The attributes may end anywhere. -/
  whole : ∀ depth t done, t.name = name.toList → done <+: attributes →
    t.attributes? = some (done.map Tag.written) →
      ∃ r', { r with depth }.readTag (r.depth + 1) t = .ok r'

theorem looksAt_grid (code : Option Int32) (primaryName : String) :
    LooksAt {} "grid" (gridAttributes code primaryName) where
  depth := by decide
  other := fun _ _ hname => ⟨_, readTag_eq_self (fun h => hname h.2) (by simp)⟩
  torn := by
    intro depth t hname hnone
    rw [readTag, if_pos ⟨rfl, hname⟩, ofTag, hnone]
    rfl
  whole := by
    intro depth t done hname _ hattributes
    rw [readTag, if_pos ⟨rfl, hname⟩, ofTag_of_attributes? hattributes]
    exact ⟨_, rfl⟩

theorem looksAt_cell (g : Grid) (c : Cell) : LooksAt (inFirstRow g) "cell" (cellAttributes c) where
  depth := by simp [inFirstRow]
  other := fun _ _ hname => ⟨_, readTag_eq_self (by simp [inFirstRow]) fun h => hname h.2.1⟩
  torn := by
    intro depth t hname hnone
    have htexts : cellTexts? t = none := by simp [cellTexts?, hnone]
    have hcell : cellOfTag t = .error .malformed := by rw [cellOfTag, htexts]
    simp [readTag, inFirstRow, hname, readCell, hcell, Except.map]
  whole := by
    intro depth t done hname hdone hattributes
    obtain ⟨cell, hcell⟩ : ∃ cell, cellOfTag t = .ok cell := by
      rw [cellOfTag, cellTexts?_of_attributes? hattributes]
      cases hwidth : done.find? (·.1 == "width") with
      | none => exact ⟨_, rfl⟩
      | some a =>
        -- the width is there, so it is the one that was written
        have ha : a ∈ cellAttributes c := hdone.subset (List.mem_of_find?_eq_some hwidth)
        have hname : a.1 = "width" := by simpa using List.find?_some hwidth
        obtain rfl | rfl := List.mem_pair.1 ha
        · exact absurd (show "name" = "width" from hname) (by decide)
        · simp [Numeral.uint32?_trimmed_ofUInt32]
    simp [readTag, inFirstRow, hname, readCell, hcell, Except.map]

end Reader

/-! ### What is read up to the end of a text -/

section Segments

variable {opened opened' opened'' : List (List Char)} {r r' r'' : Reader} {found : List Event}
  {text text' inner part name : List Char} {s : Scanner} {P Q : Prop}

/-- Tags, the last one first, that lead to this state. -/
def Reads (found : List Event) (r : Reader) : Prop :=
  found.reverse.foldlM Reader.step {} = .ok r

theorem foldlM_reverse_cons (h : Reads found r) (e : Event) :
    (e :: found).reverse.foldlM Reader.step {} = r.step e := by
  rw [List.reverse_cons, List.foldlM_append, h]
  change r.step e >>= pure = r.step e
  exact bind_pure _

theorem Reads.cons {e : Event} (h : Reads found r) (hstep : r.step e = .ok r') :
    Reads (e :: found) r' :=
  (foldlM_reverse_cons h e).trans hstep

/-- What is read when the text ends here. -/
def outcome (s : Scanner) : Except LayoutError Reader :=
  s.finish.events.reverse.foldlM Reader.step {}

/-- The end of the text is an error exactly when `P` holds. -/
def EndsAs (P : Prop) (s : Scanner) : Prop :=
  (P → outcome s = .error .malformed) ∧ (¬P → ∃ r, outcome s = .ok r)

theorem EndsAs.congr (h : EndsAs P s) (hiff : P ↔ Q) : EndsAs Q s := by
  rwa [← propext hiff]

theorem endsAs_of_ok (h : Reads s.finish.events r) (hP : ¬P) : EndsAs P s :=
  ⟨fun hp => absurd hp hP, fun _ => ⟨r, h⟩⟩

/-- The end is noticed exactly when it stands within a torn tag. -/
def EndsTorn (text : List Char) : Prop := ∃ tag, EndsInTag text tag ∧ Torn tag

/-- Part of a document: it leads the reader from one state to another, and it is known what
becomes of a text that ends in it. -/
structure Segment (opened : List (List Char)) (r : Reader) (text : List Char)
    (opened' : List (List Char)) (r' : Reader) : Prop where
  /-- It is read as a whole. -/
  whole : ∀ found, Reads found r → ∃ found', Reads found' r' ∧
    text.foldl Scanner.step ⟨.content, opened, found⟩ = ⟨.content, opened', found'⟩
  /-- No tag goes on after it. -/
  closed : ∀ part tag, EndsInTag (text ++ part) tag ↔ EndsInTag part tag
  /-- It is read up to some place where the text ends. -/
  cut : ∀ part found, part <+: text → part ≠ text → Reads found r →
    EndsAs (EndsTorn part) (part.foldl Scanner.step ⟨.content, opened, found⟩)

theorem Segment.nil : Segment opened r [] opened r where
  whole := fun found hr => ⟨found, hr, rfl⟩
  closed := fun _ _ => Iff.rfl
  cut := fun _ _ hpart hne _ => absurd (List.prefix_nil.1 hpart) hne

/-- **Parts one after the other.** -/
theorem Segment.append (h : Segment opened r text opened' r')
    (h' : Segment opened' r' text' opened'' r'') :
    Segment opened r (text ++ text') opened'' r'' where
  whole := by
    intro found hr
    obtain ⟨found', hr', hfold⟩ := h.whole found hr
    obtain ⟨found'', hr'', hfold'⟩ := h'.whole found' hr'
    exact ⟨found'', hr'', by rw [List.foldl_append, hfold, hfold']⟩
  closed := fun part tag => by rw [List.append_assoc, h.closed, h'.closed]
  cut := by
    intro part found hpart hne hr
    obtain ⟨hin, hnot⟩ | ⟨rest, hrest, rfl⟩ := prefix_append_cases hpart
    · exact h.cut part found hin hnot hr
    · -- the end stands in the second part, and the first one has no say in it
      obtain ⟨found', hr', hfold⟩ := h.whole found hr
      have hrest' := h'.cut rest found' hrest (fun heq => hne (by rw [heq])) hr'
      rw [List.foldl_append, hfold]
      exact hrest'.congr (exists_congr fun tag => and_congr_left fun _ => (h.closed rest tag).symm)

/-- A line with one tag. -/
theorem Segment.line (level : Nat) (hopen : '<' ∉ inner) (hclose : '>' ∉ inner)
    (hwhole : ∀ found, Reads found r → ∃ found', Reads found' r' ∧
      ('<' :: inner ++ ['>']).foldl Scanner.step ⟨.content, opened, found⟩ =
        ⟨.content, opened', found'⟩)
    (hcut : ∀ tag found, tag <+: inner → Reads found r →
      EndsAs (Torn tag) (('<' :: tag).foldl Scanner.step ⟨.content, opened, found⟩)) :
    Segment opened r ('\n' :: indented level ('<' :: inner ++ ['>'])) opened' r' where
  whole := by
    intro found hr
    obtain ⟨found', hr', hfold⟩ := hwhole found hr
    exact ⟨found', hr', by rw [Scanner.foldl_line, hfold]⟩
  closed := by
    intro part tag
    have htext : '\n' :: indented level ('<' :: inner ++ ['>']) ++ part =
        ('\n' :: indented level ('<' :: inner)) ++ '>' :: part := by
      simp [indented]
    rw [htext]
    exact Markup.endsInTag_append_closed_iff
  cut := by
    intro part found hpart hne hr
    let blanks : List Char := '\n' :: List.replicate (2 * level) ' '
    have hblanks : '<' ∉ blanks := by simp [blanks, List.mem_replicate]
    have htext : '\n' :: indented level ('<' :: inner ++ ['>']) =
        blanks ++ '<' :: (inner ++ ['>']) := by
      simp [indented, blanks]
    have hblank : ∀ part, '<' ∉ part →
        EndsAs (EndsTorn part) (part.foldl Scanner.step ⟨.content, opened, found⟩) := by
      intro part hpart
      rw [Scanner.foldl_content hpart]
      refine endsAs_of_ok hr ?_
      rintro ⟨tag, htag, -⟩
      exact Markup.not_endsInTag_of_not_mem hpart htag
    rw [htext] at hpart hne
    obtain ⟨hin, -⟩ | ⟨rest, hrest, rfl⟩ := prefix_append_cases hpart
    · exact hblank part fun hmem => hblanks (hin.subset hmem)
    obtain rfl | ⟨tag, rfl, htag⟩ := List.prefix_cons_iff.1 hrest
    · rw [List.append_nil]
      exact hblank blanks hblanks
    · obtain hfull | htag := List.prefix_concat_iff.1 htag
      · exact absurd (by rw [hfull]) hne
      have hends (tag' : List Char) : EndsInTag (blanks ++ '<' :: tag) tag' ↔ tag' = tag :=
        Markup.endsInTag_append_cons_iff (fun hmem => hopen (htag.subset hmem))
          fun hmem => hclose (htag.subset hmem)
      rw [List.foldl_append, Scanner.foldl_content hblanks]
      refine (hcut tag found htag hr).congr ⟨fun h => ⟨tag, (hends tag).2 rfl, h⟩, ?_⟩
      rintro ⟨tag', htag', htorn⟩
      rwa [← (hends tag').1 htag']

/-! ### The lines of a document -/

variable {tag tail : List Char} {name : String} {attributes : List (String × String)} {level : Nat}

/-- A start tag in which the text ends is the last one that is read. -/
theorem endsAs_of_tag (hstart : ∀ c ∈ tag.head?, isNameChar c = true) (hclose : '>' ∉ tag)
    (hr : Reads found r) (htorn : Torn tag → r.step (tagEvent tag) = .error .malformed)
    (hnot : ¬Torn tag → ∃ r', r.step (tagEvent tag) = .ok r') :
    EndsAs (Torn tag) (('<' :: tag).foldl Scanner.step ⟨.content, opened, found⟩) := by
  cases tag with
  | nil => exact endsAs_of_ok hr (not_torn_of_isNameChar (by simp))
  | cons c tag =>
    have hc : c ∉ ['!', '/', '?'] := by
      intro hmem
      have hchar := hstart c rfl
      obtain rfl | rfl | rfl : c = '!' ∨ c = '/' ∨ c = '?' := by simpa using hmem
      all_goals cases hchar
    have hout : outcome (('<' :: c :: tag).foldl Scanner.step ⟨.content, opened, found⟩) =
        r.step (tagEvent (c :: tag)) := by
      rw [outcome, Scanner.events_finish_tag hc hclose, foldlM_reverse_cons hr]
    exact ⟨fun h => hout.trans (htorn h), fun h => (hnot h).imp fun r' hr' => hout.trans hr'⟩

theorem isNameChar_head?_of_tag (hname : isName name = true)
    (htag : tag <+: tagText name attributes ++ tail) :
    ∀ c ∈ tag.head?, isNameChar c = true := by
  intro c hc
  cases tag with
  | nil => cases hc
  | cons d tag =>
    obtain rfl : d = c := Option.some.inj hc
    cases hchars : name.toList with
    | nil => exact absurd hchars (Markup.toList_ne_nil_of_isName hname)
    | cons e cs =>
      rw [tagText, hchars] at htag
      obtain ⟨rest, hrest⟩ := htag
      obtain rfl : d = e := (List.cons.inj hrest).1
      exact Markup.isNameChar_of_isName hname d (hchars ▸ List.mem_cons_self)

/-- The tag of the grid or of a cell up to the end of the text. -/
theorem Reader.LooksAt.endsAs (h : r.LooksAt name attributes) (hmem : name ∈ ["grid", "cell"])
    (has : ∀ a ∈ attributes, isName a.1 = true) (hnodup : (attributes.map (·.1)).Nodup)
    (htail : tail <+: ['/']) (htag : tag <+: tagText name attributes ++ tail)
    (hr : Reads found r) :
    EndsAs (Torn tag) (('<' :: tag).foldl Scanner.step ⟨.content, opened, found⟩) := by
  have hname : isName name = true := isName_of_mem (List.Sublist.subset (by decide) hmem)
  have hhead := isNameChar_head?_of_tag hname htag
  have hclose : '>' ∉ tag := by
    intro hin
    obtain hin | hin := List.mem_append.1 (htag.subset hin)
    · exact Tag.not_mem_tagText (.inr rfl) hname has hin
    · exact absurd (htail.subset hin) (by decide)
  obtain ⟨depth, hstep⟩ := Reader.step_tagEvent h.depth
  refine endsAs_of_tag hhead hclose hr (fun htorn => ?_) fun hnot => ?_
  all_goals rw [hstep]
  all_goals obtain ⟨hchars, hother⟩ | ⟨done, a, part, hdone, ha, hpart, rfl⟩ |
    ⟨kept, hkept, hread⟩ := Tag.prefix_tagText_cases hname has hnodup htail htag
  -- a tag that is torn
  · exact absurd htorn (not_torn_of_isNameChar hchars)
  · obtain ⟨hsame, hnone⟩ := Tag.attributes?_of_isTorn hname hdone ha hpart
    exact h.torn depth _ hsame hnone
  · have hopen : tag.head? ≠ some '/' := fun hslash => absurd (hhead _ hslash) (by decide)
    rw [htorn.attributes? hopen] at hread
    cases hread.2
  -- a tag that is not
  · exact h.other depth _ hother
  · exact absurd (.inAttribute hmem hdone ha hpart) hnot
  · exact h.whole depth _ kept hread.1 hkept hread.2

/-- A closing tag up to the end of the text. -/
theorem endsAs_closing (hmem : name ∈ ["grid", "row"]) (htag : tag <+: '/' :: name.toList)
    (hr : Reads found r) : EndsAs (Torn tag)
      (('<' :: tag).foldl Scanner.step ⟨.content, name.toList :: opened, found⟩) := by
  have hname : isName name = true := isName_of_mem (List.Sublist.subset (by decide) hmem)
  obtain rfl | ⟨part, rfl, hpart⟩ := List.prefix_cons_iff.1 htag
  · exact endsAs_of_ok hr (not_torn_of_isNameChar (by simp))
  · have hchars : ∀ c ∈ part, isNameChar c = true :=
      fun c hc => Markup.isNameChar_of_isName hname c (hpart.subset hc)
    have hout : outcome (('<' :: '/' :: part).foldl Scanner.step
        ⟨.content, name.toList :: opened, found⟩) =
          r.step (if part = name.toList then .closing else .malformed) := by
      rw [outcome, Scanner.events_finish_closing hchars, foldlM_reverse_cons hr]
    refine EndsAs.congr ?_ (torn_slash_iff hmem hpart).symm
    refine ⟨fun hne => ?_, fun heq => ?_⟩
    · rw [hout, if_neg hne]
      rfl
    · rw [hout, if_pos (not_not.1 heq)]
      exact ⟨_, rfl⟩

/-- The line of a start tag. -/
theorem Segment.opening (hname : isName name = true) (has : ∀ a ∈ attributes, isName a.1 = true)
    (hstep : r.step (.opening ⟨name.toList, attributes.flatMap attributeText⟩) = .ok r')
    (hcut : ∀ tag found, tag <+: tagText name attributes → Reads found r →
      EndsAs (Torn tag) (('<' :: tag).foldl Scanner.step ⟨.content, opened, found⟩)) :
    Segment opened r ('\n' :: indented level ('<' :: tagText name attributes ++ ['>']))
      (name.toList :: opened) r' := by
  refine Segment.line level (Tag.not_mem_tagText (.inl rfl) hname has)
    (Tag.not_mem_tagText (.inr rfl) hname has) (fun found hr => ?_) hcut
  exact ⟨_, hr.cons hstep, Scanner.foldl_opening hname has⟩

theorem segment_grid (code : Option Int32) (primaryName : String) :
    Segment [] {} ('\n' :: indented level
      ('<' :: tagText "grid" (gridAttributes code primaryName) ++ ['>']))
      ["grid".toList] { grid := some { object := code }, depth := 1 } := by
  refine Segment.opening rfl Layout.isName_of_mem_gridAttributes (step_gridTag code primaryName)
    fun tag found htag hr => ?_
  have htag' : tag <+: tagText "grid" (gridAttributes code primaryName) ++ [] := by
    rwa [List.append_nil]
  exact (Reader.looksAt_grid code primaryName).endsAs (by decide)
    Layout.isName_of_mem_gridAttributes (nodup_gridAttributes code primaryName) List.nil_prefix
    htag' hr

theorem segment_row (g : Grid) (primaryId : String) :
    Segment opened { grid := some g, depth := 1 } ('\n' :: indented level
      ('<' :: tagText "row" [("name", "result"), ("id", primaryId)] ++ ['>']))
      ("row".toList :: opened) (Reader.inFirstRow g) := by
  refine Segment.opening rfl Layout.isName_of_mem_rowAttributes rfl fun tag found htag hr => ?_
  have htag' : tag <+: tagText "row" [("name", "result"), ("id", primaryId)] ++ [] := by
    rwa [List.append_nil]
  have hclose : '>' ∉ tag := fun hin =>
    Tag.not_mem_tagText (.inr rfl) rfl Layout.isName_of_mem_rowAttributes (htag.subset hin)
  have hnot : ¬Torn tag := by
    intro htorn
    have hhead := htorn.head?
    obtain rfl | ⟨rest, rfl, -⟩ := List.prefix_cons_iff.1 (show tag <+: 'r' :: _ from htag)
    · exact absurd hhead (by decide)
    · exact absurd hhead (by simp)
  exact endsAs_of_tag (isNameChar_head?_of_tag rfl htag') hclose hr
    (fun htorn => absurd htorn hnot) fun _ => Reader.step_tagEvent_row rfl

theorem segment_cell (g : Grid) (c : Cell) :
    Segment opened (Reader.inFirstRow g) ('\n' :: indented level
      ('<' :: tagText "cell" (cellAttributes c) ++ ['/', '>']))
      opened (Reader.inFirstRow (g.addCell (bare c))) := by
  have hnot {d : Char} (hd : d = '<' ∨ d = '>') :
      d ∉ tagText "cell" (cellAttributes c) ++ ['/'] := by
    have htag := Tag.not_mem_tagText hd (rfl : isName "cell" = true)
      (Layout.isName_of_mem_cellAttributes (c := c))
    obtain rfl | rfl := hd <;> simp [htag]
  have hline : '<' :: tagText "cell" (cellAttributes c) ++ ['/', '>'] =
      '<' :: (tagText "cell" (cellAttributes c) ++ ['/']) ++ ['>'] := by
    simp
  rw [hline]
  refine Segment.line level (hnot (.inl rfl)) (hnot (.inr rfl)) (fun found hr => ?_)
    fun tag found htag hr => ?_
  · rw [← hline]
    exact ⟨_, hr.cons (Reader.step_cellTag g c),
      Scanner.foldl_empty rfl Layout.isName_of_mem_cellAttributes⟩
  · exact (Reader.looksAt_cell g c).endsAs (by decide) Layout.isName_of_mem_cellAttributes
      (nodup_cellAttributes c) (List.prefix_refl _) htag hr

theorem segment_closing (hmem : name ∈ ["grid", "row"]) :
    Segment (name.toList :: opened) r ('\n' :: indented level ('<' :: '/' :: name.toList ++ ['>']))
      opened { r with inRow := r.inRow && r.depth != 2, depth := r.depth - 1 } := by
  have hname : isName name = true := isName_of_mem (List.Sublist.subset (by decide) hmem)
  have hnot {c : Char} (hc : isNameChar c = false) (hslash : c ≠ '/') : c ∉ '/' :: name.toList := by
    intro hin
    obtain rfl | hin := List.mem_cons.1 hin
    · exact hslash rfl
    · rw [Markup.isNameChar_of_isName hname c hin] at hc
      cases hc
  refine Segment.line level (hnot (by decide) (by decide)) (hnot (by decide) (by decide))
    (fun found hr => ?_) fun tag found htag hr => endsAs_closing hmem htag hr
  exact ⟨_, hr.cons rfl, Scanner.foldl_closing hname⟩

theorem segment_cells (g : Grid) (cells : List Cell) :
    Segment opened (Reader.inFirstRow g)
      ((Element.linesOfAll level (cells.map Layout.cellElement)).flatMap ('\n' :: ·))
      opened (Reader.inFirstRow ((cells.map bare).foldl addCell g)) := by
  induction cells generalizing g with
  | nil => exact Segment.nil
  | cons c cells ih =>
    have hlines : (Element.linesOfAll level ((c :: cells).map Layout.cellElement)).flatMap
          ('\n' :: ·) =
        '\n' :: indented level ('<' :: tagText "cell" (cellAttributes c) ++ ['/', '>']) ++
          (Element.linesOfAll level (cells.map Layout.cellElement)).flatMap ('\n' :: ·) := rfl
    rw [hlines]
    exact (segment_cell g c).append (ih (g.addCell (bare c)))

/-- **A whole document**, one line after the other. -/
theorem segment_gridElement (code : Option Int32) (primaryId primaryName : String)
    (cells : List Cell) : ∃ r, Segment [] {}
      ('\n' :: (gridElement code primaryId primaryName cells).render.toList) [] r := by
  have hlines : (Element.lines 0 (gridElement code primaryId primaryName cells)).flatMap
        ('\n' :: ·) =
      '\n' :: indented 0 ('<' :: tagText "grid" (gridAttributes code primaryName) ++ ['>']) ++
        ('\n' :: indented 1
            ('<' :: tagText "row" [("name", "result"), ("id", primaryId)] ++ ['>']) ++
          ((Element.linesOfAll 2 (cells.map Layout.cellElement)).flatMap ('\n' :: ·) ++
            ('\n' :: indented 1 ('<' :: '/' :: "row".toList ++ ['>']) ++
              '\n' :: indented 0 ('<' :: '/' :: "grid".toList ++ ['>'])))) := by
    simp [gridElement, Element.lines, Element.linesOfAll]
  rw [Element.newline_cons_render, hlines]
  exact ⟨_, (segment_grid code primaryName).append <| (segment_row _ primaryId).append <|
    (segment_cells _ cells).append <|
      (segment_closing (by decide)).append (segment_closing (by decide))⟩

end Segments

end Grid

namespace Layout

variable {l : Layout} {xml part root : String} {catalog : Catalog} {columns : List Column}

/-- A beginning of a written document is read as its tags go. -/
theorem endsAs_of_toXml (h : l.toXml = .ok xml) (hpart : part.toList <+: xml.toList)
    (hne : part ≠ xml) :
    Grid.EndsAs (Grid.EndsTorn part.toList) (part.toList.foldl Scanner.step {}) := by
  obtain ⟨e, primaryId, primaryName, -, rfl⟩ := exists_of_toXml h
  obtain ⟨r, hdocument⟩ :=
    Grid.segment_gridElement e.objectTypeCode primaryId primaryName l.written
  have hcut := hdocument.cut ('\n' :: part.toList) [] ((List.prefix_cons_inj '\n').2 hpart)
    (fun heq => hne (String.toList_injective (List.cons.inj heq).2)) rfl
  -- the line end that was put in front is no part of a tag
  refine hcut.congr (exists_congr fun tag => and_congr_left fun _ => and_congr_left fun _ => ?_)
  rw [List.suffix_cons_iff]
  exact or_iff_right fun heq => absurd (List.cons.inj heq).1 (by decide)

/-- A beginning of a written document is empty or starts with an angle bracket. -/
theorem head?_of_toXml (h : l.toXml = .ok xml) (hpart : part.toList <+: xml.toList) :
    part.toList = [] ∨ ∃ rest, part.toList = '<' :: rest := by
  obtain ⟨e, primaryId, primaryName, -, rfl⟩ := exists_of_toXml h
  have hhead := (gridElement e.objectTypeCode primaryId primaryName l.written).head?_render
  obtain ⟨cs, hcs⟩ := List.head?_eq_some_iff.1 hhead
  rw [hcs] at hpart
  exact (List.prefix_cons_iff.1 hpart).imp_right fun ⟨rest, hrest, _⟩ => ⟨rest, hrest⟩

theorem read_eq_outcome (h : l.toXml = .ok xml) (hpart : part.toList <+: xml.toList) :
    Layout.read part catalog root columns =
      (Grid.outcome (part.toList.foldl Scanner.step {})).map fun r =>
        (ofGrid catalog root r.grid).reconcileColumns columns := by
  obtain hnil | ⟨rest, hrest⟩ := head?_of_toXml h hpart
  · obtain rfl : part = "" := String.toList_injective hnil
    rfl
  · have hblank : Text.blank part = false := by
      rw [Text.blank, hrest]
      rfl
    have hmark : Markup.dropByteOrderMark part.toList = part.toList :=
      Markup.dropByteOrderMark_of_head? (by rw [hrest]; simp)
    have hgrid : Grid.read part =
        (Grid.outcome (part.toList.foldl Scanner.step {})).map (·.grid) := by
      rw [Grid.read, Markup.events, hmark]
      rfl
    rw [read_eq, hblank, if_neg (by decide), hgrid]
    cases Grid.outcome (part.toList.foldl Scanner.step {}) <;> rfl

/-- **Which beginnings of a document are malformed.**  Of a document that was written only the
beginning was kept.  The reader notices it exactly when the end stands within an attribute of the
grid or of a cell, after the first character of its name, or within the name of a closing tag.  Any
other beginning is read as a layout, without a word about what is missing. -/
theorem read_torn_eq_malformed_iff (h : l.toXml = .ok xml) (hpart : part.toList <+: xml.toList)
    (hne : part ≠ xml) :
    (Layout.read part catalog root columns = .error .malformed ↔
      ∃ tag, EndsInTag part.toList tag ∧ Grid.Torn tag) ∧
    ((¬∃ tag, EndsInTag part.toList tag ∧ Grid.Torn tag) →
      ∃ l', Layout.read part catalog root columns = .ok l') := by
  obtain ⟨htorn, hnot⟩ := endsAs_of_toXml h hpart hne
  have hread : Layout.read part catalog root columns = _ := read_eq_outcome h hpart
  have hok : (¬Grid.EndsTorn part.toList) →
      ∃ l', Layout.read part catalog root columns = .ok l' := by
    intro hends
    obtain ⟨r, hr⟩ := hnot hends
    exact ⟨_, by rw [hread, hr]; rfl⟩
  refine ⟨⟨fun herror => ?_, fun hends => ?_⟩, hok⟩
  · by_contra hends
    obtain ⟨l', hl'⟩ := hok hends
    rw [herror] at hl'
    cases hl'
  · rw [hread, htorn hends]
    rfl

/-- A layout of two cells. -/
def twoCells : Layout :=
  { entityName := "account", entity := accountCatalog.entity? "account", cells :=
      [⟨"name", 100, some { name := "name" }⟩, ⟨"city", 80, some { name := "city" }⟩] }

/-- The end stands within the object type code. -/
theorem read_torn_eq_malformed_of_object :
    let tag := tagText "grid" [("name", "resultset")] ++ " object=\"".toList
    let part := String.ofList ('<' :: tag)
    ∃ xml, twoCells.toXml = .ok xml ∧ part.toList <+: xml.toList ∧ part ≠ xml ∧
      Layout.read part accountCatalog "account" [{ name := "name" }] = .error .malformed := by
  intro tag part
  have htorn : Grid.Torn tag :=
    .inAttribute (by decide) (by decide) (by decide : isName ("object", "7").1 = true)
      ⟨by decide, by decide, by decide⟩
  have hends : EndsInTag part.toList tag := by
    rw [String.toList_ofList]
    exact ⟨List.suffix_refl _, by decide, by decide⟩
  have hxml : twoCells.toXml =
      .ok (gridElement (some 7) "accountid" "name" twoCells.cells).render := rfl
  have hpart : part.toList <+:
      (gridElement (some 7) "accountid" "name" twoCells.cells).render.toList := by
    rw [Element.render, String.toList_ofList, String.toList_ofList]
    decide
  have hne : part ≠ (gridElement (some 7) "accountid" "name" twoCells.cells).render :=
    fun heq => absurd (String.ofList_injective heq) (by decide)
  exact ⟨_, hxml, hpart, hne, (read_torn_eq_malformed_iff hxml hpart hne).1.2 ⟨_, hends, htorn⟩⟩

/-- The document of `twoCells` up to the second cell. -/
def oneCellLeft : List Char :=
  ["<grid name=\"resultset\" ", "object=\"7\" jump=\"name\" ", "select=\"1\" icon=\"1\" ",
    "preview=\"1\">\n  <row ", "name=\"result\" ", "id=\"accountid\">\n    ",
    "<cell name=\"name\" ", "width=\"100\"/>"].flatMap String.toList

/-- **A cell that is lost without an error**: the document ends after the first of its two cells,
and the second one is hidden. -/
theorem read_torn_hides_cell :
    let part := String.ofList oneCellLeft
    ∃ xml, twoCells.toXml = .ok xml ∧ part ≠ "" ∧ part.toList <+: xml.toList ∧ part ≠ xml ∧
      Layout.read part accountCatalog "account" [{ name := "name" }, { name := "city" }] =
        .ok { twoCells with cells :=
          [⟨"name", 100, some { name := "name" }⟩, ⟨"city", 0, some { name := "city" }⟩] } := by
  intro part
  have hxml : twoCells.toXml =
      .ok (gridElement (some 7) "accountid" "name" twoCells.cells).render := rfl
  have hpart : part.toList <+:
      (gridElement (some 7) "accountid" "name" twoCells.cells).render.toList := by
    rw [Element.render, String.toList_ofList, String.toList_ofList]
    decide
  refine ⟨_, hxml, ?_, hpart, ?_, (read_eq_outcome hxml hpart).trans ?_⟩
  · exact fun heq => absurd (String.ofList_injective heq) (by decide : oneCellLeft ≠ [])
  · exact fun heq => absurd (String.ofList_injective heq) (by decide)
  · rw [String.toList_ofList]
    decide +kernel

end Layout

end QueryEditor
