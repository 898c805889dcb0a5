import QueryEditor.Markup.Event
import QueryEditor.Proofs.MarkupTags

/-!
# Documents read back

The tags of a written element are those of the element and of its children, in the order of the
document (`Element.events`), if names are such that they can be read (`Element.WellFormed`).
The values of attributes are not restricted.

* `Markup.Scanner.Inside` : text that does not end the tag in which it stands.
* `Markup.Scanner.foldl_tag` : a whole tag on a line of its own.
* `Markup.Element.foldl_lines` : the lines of an element, by induction on the element.
* `Markup.events_render` : **the tags of a written element.**
-/

namespace QueryEditor

namespace Markup

namespace Element

mutual

/-- The tags of an element. -/
def events : Element → List Event
  | empty name attributes => [.empty ⟨name.toList, attributes.flatMap attributeText⟩]
  | parent name attributes children =>
    .opening ⟨name.toList, attributes.flatMap attributeText⟩ ::
      (eventsOfAll children ++ [.closing])

/-- The tags of several elements. -/
def eventsOfAll : List Element → List Event
  | [] => []
  | e :: es => events e ++ eventsOfAll es

end

mutual

/-- Every name in the element can be read. -/
def WellFormed : Element → Prop
  | empty name attributes => isName name ∧ ∀ a ∈ attributes, isName a.1
  | parent name attributes children =>
    isName name ∧ (∀ a ∈ attributes, isName a.1) ∧ AllWellFormed children

/-- Every name in the elements can be read. -/
def AllWellFormed : List Element → Prop
  | [] => True
  | e :: es => WellFormed e ∧ AllWellFormed es

end

theorem allWellFormed_iff {es : List Element} : AllWellFormed es ↔ ∀ e ∈ es, e.WellFormed := by
  induction es with
  | nil => simp [AllWellFormed]
  | cons e es ih => simp [AllWellFormed, ih]

theorem eventsOfAll_map {α : Type} {f : α → Element} {g : α → Event}
    (h : ∀ a, (f a).events = [g a]) (as : List α) : eventsOfAll (as.map f) = as.map g := by
  induction as with
  | nil => rfl
  | cons a as ih => simp [eventsOfAll, h, ih]

end Element

namespace Scanner

open Element (attributeText tagText indented)

variable {opened : List (List Char)} {found : List Event}

/-! ### Inside a tag -/

/-- Text that is read as a part of the tag in which it stands and leaves no quote open. -/
def Inside (text : List Char) : Prop :=
  ∀ opened found read, text.foldl step ⟨.tag none read, opened, found⟩ =
    ⟨.tag none (text.reverse ++ read), opened, found⟩

theorem Inside.append {text text' : List Char} (h : Inside text) (h' : Inside text') :
    Inside (text ++ text') := by
  intro opened found read
  rw [List.foldl_append, h, h', List.reverse_append, List.append_assoc]

theorem inside_singleton {c : Char} (h : c ∉ ['>', '"', '\'']) : Inside [c] := by
  intro opened found read
  obtain ⟨hend, hquote, happos⟩ : c ≠ '>' ∧ c ≠ '"' ∧ c ≠ '\'' := by simpa using h
  simp [step, readTag, goTo, hend, hquote, happos]

theorem inside_of_forall {text : List Char} (h : ∀ c ∈ text, c ∉ ['>', '"', '\'']) :
    Inside text := by
  induction text with
  | nil => exact fun _ _ _ => rfl
  | cons c text ih =>
    obtain ⟨hc, htext⟩ := List.forall_mem_cons.1 h
    exact (inside_singleton hc).append (ih htext)

theorem inside_name {name : String} (h : isName name = true) : Inside name.toList := by
  refine inside_of_forall fun c hc hmem => ?_
  have hname := isNameChar_of_isName h c hc
  obtain rfl | rfl | rfl : c = '>' ∨ c = '"' ∨ c = '\'' := by simpa using hmem
  all_goals cases hname

theorem foldl_quoted {quote : Char} {text : List Char} (h : quote ∉ text) (read : List Char) :
    text.foldl step ⟨.tag (some quote) read, opened, found⟩ =
      ⟨.tag (some quote) (text.reverse ++ read), opened, found⟩ := by
  induction text generalizing read with
  | nil => rfl
  | cons c text ih =>
    obtain ⟨hc, htext⟩ : quote ≠ c ∧ quote ∉ text := by simpa using h
    have hstep : step ⟨.tag (some quote) read, opened, found⟩ c =
        ⟨.tag (some quote) (c :: read), opened, found⟩ := by
      simp [step, readTag, goTo, hc.symm]
    rw [List.foldl_cons, hstep, ih htext, List.reverse_cons, List.append_assoc,
      List.singleton_append]

/-- A value in quotes of either kind. -/
theorem inside_quoted {quote : Char} {text : List Char} (hquote : quote = '"' ∨ quote = '\'')
    (h : quote ∉ text) : Inside (quote :: text ++ [quote]) := by
  intro opened found read
  have hopen : step ⟨.tag none read, opened, found⟩ quote =
      ⟨.tag (some quote) (quote :: read), opened, found⟩ := by
    obtain rfl | rfl := hquote <;> rfl
  have hclose (read : List Char) : step ⟨.tag (some quote) read, opened, found⟩ quote =
      ⟨.tag none (quote :: read), opened, found⟩ := by
    simp [step, readTag, goTo]
  rw [List.cons_append, List.foldl_cons, hopen, List.foldl_append, foldl_quoted h,
    List.foldl_cons, hclose, List.foldl_nil]
  simp

theorem inside_attributeText {a : String × String} (h : isName a.1 = true) :
    Inside (attributeText a) := by
  have hparts : attributeText a =
      [' '] ++ (a.1.toList ++ (['='] ++ ('"' :: escape a.2.toList ++ ['"']))) := by
    simp [attributeText]
  rw [hparts]
  exact (inside_singleton (by decide)).append ((inside_name h).append
    ((inside_singleton (by decide)).append (inside_quoted (.inl rfl) (quote_not_mem_escape _))))

theorem inside_flatMap_attributeText {attributes : List (String × String)}
    (h : ∀ a ∈ attributes, isName a.1 = true) : Inside (attributes.flatMap attributeText) := by
  induction attributes with
  | nil => exact fun _ _ _ => rfl
  | cons a attributes ih =>
    obtain ⟨ha, has⟩ := List.forall_mem_cons.1 h
    exact (inside_attributeText ha).append (ih has)

/-! ### One tag a line -/

/-- Text that a line can start a tag with. -/
theorem foldl_startTag {name : String} {rest : List Char} (h : isName name = true)
    (hrest : Inside rest) :
    ('<' :: (name.toList ++ rest)).foldl step ⟨.content, opened, found⟩ =
      ⟨.tag none (name.toList ++ rest).reverse, opened, found⟩ := by
  have hinside := (inside_name h).append hrest opened found []
  cases hname : name.toList with
  | nil => exact absurd hname (toList_ne_nil_of_isName h)
  | cons c cs =>
    have hc : isNameChar c = true := isNameChar_of_isName h c (hname ▸ List.mem_cons_self)
    -- a name does not start other markup, so its first character is read as in a tag
    have hfirst : step ⟨.markup, opened, found⟩ c = step ⟨.tag none [], opened, found⟩ c := by
      have hdecl : c ≠ '!' := ne_of_isNameChar hc (by decide)
      have hclose : c ≠ '/' := ne_of_isNameChar hc (by decide)
      have hinstr : c ≠ '?' := ne_of_isNameChar hc (by decide)
      simp [step, readMarkup, readTag, goTo, endTag, hdecl, hclose, hinstr]
    rw [hname, List.append_nil] at hinside
    rw [List.foldl_cons, List.cons_append, List.foldl_cons]
    change List.foldl step (step ⟨.markup, opened, found⟩ c) (cs ++ rest) = _
    rw [hfirst]
    exact hinside

theorem foldl_blank (n : Nat) :
    (List.replicate n ' ').foldl step ⟨.content, opened, found⟩ = ⟨.content, opened, found⟩ := by
  induction n with
  | zero => rfl
  | succ n ih => exact ih

theorem foldl_line (level : Nat) (line : List Char) :
    ('\n' :: indented level line).foldl step ⟨.content, opened, found⟩ =
      line.foldl step ⟨.content, opened, found⟩ := by
  have hline : step ⟨.content, opened, found⟩ '\n' = ⟨.content, opened, found⟩ := rfl
  rw [indented, List.foldl_cons, List.foldl_append, hline, foldl_blank]

theorem getLast?_flatMap_attributeText {text : List Char} (h : text.getLast? ≠ some '/')
    (attributes : List (String × String)) :
    (text ++ attributes.flatMap attributeText).getLast? ≠ some '/' := by
  -- the text grows by one attribute at a time, and each ends with a quote
  induction attributes generalizing text with
  | nil => simpa using h
  | cons a attributes ih =>
    rw [List.flatMap_cons, ← List.append_assoc]
    refine ih ?_
    rw [attributeText, ← List.append_assoc, List.getLast?_concat]
    decide

theorem getLast?_tagText {name : String} (h : isName name = true)
    (attributes : List (String × String)) : (tagText name attributes).getLast? ≠ some '/' := by
  refine getLast?_flatMap_attributeText (fun hlast => ?_) attributes
  have hslash := isNameChar_of_isName h '/' (List.mem_of_getLast? hlast)
  cases hslash

/-- A start tag is read. -/
theorem foldl_openingTag {name : String} {rest : List Char} (h : isName name = true)
    (hinside : Inside rest) (hspace : ∀ c ∈ rest.head?, isSpace c = true)
    (hlast : (name.toList ++ rest).getLast? ≠ some '/') :
    ('<' :: (name.toList ++ rest) ++ ['>']).foldl step ⟨.content, opened, found⟩ =
      ⟨.content, name.toList :: opened, .opening ⟨name.toList, rest⟩ :: found⟩ := by
  rw [List.foldl_append, foldl_startTag h hinside, List.foldl_cons, List.foldl_nil]
  change endTag _ (name.toList ++ rest).reverse.reverse = _
  rw [List.reverse_reverse, endTag, if_neg hlast, Tag.ofText_name_append h hspace]

/-- The tag of an empty element is read. -/
theorem foldl_emptyTag {name : String} {rest : List Char} (h : isName name = true)
    (hinside : Inside rest) (hspace : ∀ c ∈ rest.head?, isSpace c = true) :
    ('<' :: (name.toList ++ rest) ++ ['/', '>']).foldl step ⟨.content, opened, found⟩ =
      ⟨.content, opened, .empty ⟨name.toList, rest⟩ :: found⟩ := by
  have hslash : Inside (rest ++ ['/']) := hinside.append (inside_singleton (by decide))
  have htext : '<' :: (name.toList ++ rest) ++ ['/', '>'] =
      '<' :: (name.toList ++ (rest ++ ['/'])) ++ ['>'] := by
    simp
  rw [htext, List.foldl_append, foldl_startTag h hslash, List.foldl_cons, List.foldl_nil,
    ← List.append_assoc]
  change endTag _ (name.toList ++ rest ++ ['/']).reverse.reverse = _
  rw [List.reverse_reverse, endTag, if_pos List.getLast?_concat, List.dropLast_concat,
    Tag.ofText_name_append h hspace]

section Written

variable {name : String} {attributes : List (String × String)}

theorem foldl_opening (h : isName name = true) (has : ∀ a ∈ attributes, isName a.1 = true) :
    ('<' :: tagText name attributes ++ ['>']).foldl step ⟨.content, opened, found⟩ =
      ⟨.content, name.toList :: opened,
        .opening ⟨name.toList, attributes.flatMap attributeText⟩ :: found⟩ :=
  foldl_openingTag h (inside_flatMap_attributeText has) (Tag.isSpace_head?_flatMap attributes)
    (getLast?_tagText h attributes)

theorem foldl_empty (h : isName name = true) (has : ∀ a ∈ attributes, isName a.1 = true) :
    ('<' :: tagText name attributes ++ ['/', '>']).foldl step ⟨.content, opened, found⟩ =
      ⟨.content, opened,
        .empty ⟨name.toList, attributes.flatMap attributeText⟩ :: found⟩ :=
  foldl_emptyTag h (inside_flatMap_attributeText has) (Tag.isSpace_head?_flatMap attributes)

end Written

/-- White space after the name in a closing tag is dropped. -/
theorem closingName_append {text blanks : List Char} (h : ∀ c ∈ text, isNameChar c = true)
    (hne : text ≠ []) (hblanks : blanks.all isSpace = true) :
    closingName (text ++ blanks) = text := by
  obtain ⟨c, cs, hreverse⟩ : ∃ c cs, text.reverse = c :: cs :=
    List.exists_cons_of_ne_nil (List.reverse_ne_nil_iff.2 hne)
  have hc : c ∈ text := by
    rw [← List.mem_reverse, hreverse]
    exact List.mem_cons_self
  have hspace : isSpace c = false := isSpace_of_isNameChar (h c hc)
  have hall : (text ++ blanks).all isSpace = false := by
    rw [List.all_eq_false]
    exact ⟨c, List.mem_append_left _ hc, by simp [hspace]⟩
  have hdrop : ∀ d ∈ blanks.reverse, isSpace d = true :=
    fun d hd => List.all_eq_true.1 hblanks d (List.mem_reverse.1 hd)
  rw [closingName, if_neg (by simp [hall]), List.reverse_append,
    List.dropWhile_append_of_pos hdrop, hreverse, List.dropWhile_cons_of_neg (by simp [hspace]),
    ← hreverse, List.reverse_reverse]

theorem closingName_of_forall {text : List Char} (h : ∀ c ∈ text, isNameChar c = true) :
    closingName text = text := by
  cases text with
  | nil => rfl
  | cons c text =>
    have happend : closingName (c :: text ++ []) = c :: text := closingName_append h (by simp) rfl
    rwa [List.append_nil] at happend

theorem foldl_inClosing {text : List Char} (h : '>' ∉ text) (read : List Char) :
    text.foldl step ⟨.closing read, opened, found⟩ =
      ⟨.closing (text.reverse ++ read), opened, found⟩ := by
  induction text generalizing read with
  | nil => rfl
  | cons c text ih =>
    obtain ⟨hc, htext⟩ : '>' ≠ c ∧ '>' ∉ text := by simpa using h
    have hstep : step ⟨.closing read, opened, found⟩ c = ⟨.closing (c :: read), opened, found⟩ := by
      simp [step, goTo, hc.symm]
    rw [List.foldl_cons, hstep, ih htext, List.reverse_cons, List.append_assoc,
      List.singleton_append]

theorem close_not_mem_of_isNameChar {text : List Char} (h : ∀ c ∈ text, isNameChar c = true) :
    '>' ∉ text :=
  fun hmem => absurd (h '>' hmem) (by decide)

/-- The closing tag of the innermost open element is read. -/
theorem foldl_closingTag {name : String} {blanks : List Char} (h : isName name = true)
    (hblanks : blanks.all isSpace = true) :
    ('<' :: '/' :: (name.toList ++ blanks) ++ ['>']).foldl step
        ⟨.content, name.toList :: opened, found⟩ =
      ⟨.content, opened, .closing :: found⟩ := by
  have hchars := isNameChar_of_isName h
  have hclose : '>' ∉ name.toList ++ blanks := by
    rw [List.mem_append, not_or]
    exact ⟨close_not_mem_of_isNameChar hchars,
      fun hmem => absurd (List.all_eq_true.1 hblanks '>' hmem) (by decide)⟩
  have hend (read : List Char) : step ⟨.closing read, name.toList :: opened, found⟩ '>' =
      endClosing ⟨.closing read, name.toList :: opened, found⟩ read.reverse := rfl
  change (name.toList ++ blanks ++ ['>']).foldl step
    ⟨.closing [], name.toList :: opened, found⟩ = _
  rw [List.foldl_append, foldl_inClosing hclose, List.append_nil, List.foldl_cons,
    List.foldl_nil, hend, List.reverse_reverse, endClosing]
  exact if_pos (closingName_append hchars (toList_ne_nil_of_isName h) hblanks)

theorem foldl_closing {name : String} (h : isName name = true) :
    ('<' :: '/' :: name.toList ++ ['>']).foldl step ⟨.content, name.toList :: opened, found⟩ =
      ⟨.content, opened, .closing :: found⟩ := by
  have hclosing : ('<' :: '/' :: (name.toList ++ []) ++ ['>']).foldl step
      ⟨.content, name.toList :: opened, found⟩ = ⟨.content, opened, .closing :: found⟩ :=
    foldl_closingTag h rfl
  rwa [List.append_nil] at hclosing

end Scanner

namespace Element

open Scanner

/-! ### Elements -/

mutual

/-- The lines of an element are read as its tags. -/
theorem foldl_lines (e : Element) (h : e.WellFormed) (level : Nat) (opened : List (List Char))
    (found : List Event) :
    ((lines level e).flatMap ('\n' :: ·)).foldl Scanner.step ⟨.content, opened, found⟩ =
      ⟨.content, opened, e.events.reverse ++ found⟩ := by
  match e with
  | .empty name attributes =>
    obtain ⟨hname, has⟩ := h
    rw [lines, List.flatMap_singleton, foldl_line, foldl_empty hname has]
    rfl
  | .parent name attributes children =>
    obtain ⟨hname, has, hchildren⟩ := h
    -- the children are read with the name of the element on top of those that were open
    rw [lines, List.flatMap_cons, List.flatMap_append, List.flatMap_singleton,
      List.foldl_append, List.foldl_append, foldl_line, foldl_opening hname has,
      foldl_linesOfAll children hchildren, foldl_line, foldl_closing hname]
    simp [events]

theorem foldl_linesOfAll (es : List Element) (h : AllWellFormed es) (level : Nat)
    (opened : List (List Char)) (found : List Event) :
    ((linesOfAll level es).flatMap ('\n' :: ·)).foldl Scanner.step ⟨.content, opened, found⟩ =
      ⟨.content, opened, (eventsOfAll es).reverse ++ found⟩ := by
  match es with
  | [] => rfl
  | e :: es =>
    obtain ⟨he, hes⟩ := h
    rw [linesOfAll, List.flatMap_append, List.foldl_append, foldl_lines e he,
      foldl_linesOfAll es hes, eventsOfAll, List.reverse_append, List.append_assoc]

end

theorem newline_cons_intercalate (line : List Char) (lines : List (List Char)) :
    '\n' :: ['\n'].intercalate (line :: lines) = (line :: lines).flatMap ('\n' :: ·) := by
  induction lines generalizing line with
  | nil => simp [List.intercalate]
  | cons next lines ih =>
    rw [List.flatMap_cons, ← ih next]
    simp [List.intercalate]

/-- A line end may be thought of before the first line, too. -/
theorem newline_cons_render (e : Element) :
    '\n' :: e.render.toList = (lines 0 e).flatMap ('\n' :: ·) := by
  obtain ⟨line, rest, hlines⟩ : ∃ line rest, lines 0 e = line :: rest := by
    cases e <;> exact ⟨_, _, rfl⟩
  rw [render, String.toList_ofList, hlines, newline_cons_intercalate]

/-- A written element starts with an angle bracket. -/
theorem head?_render (e : Element) : e.render.toList.head? = some '<' := by
  cases e with
  | empty => rw [render, String.toList_ofList]; rfl
  | parent name attributes children =>
    rw [render, String.toList_ofList, lines]
    cases linesOfAll 1 children <;> rfl

end Element

theorem dropByteOrderMark_of_head? {cs : List Char} (h : cs.head? ≠ some '\ufeff') :
    dropByteOrderMark cs = cs := by
  unfold dropByteOrderMark
  split
  · exact absurd rfl h
  · rfl

/-- **The tags of a written element** are those of the element and of its children, in the order
of the document. -/
theorem events_render {e : Element} (h : e.WellFormed) : events e.render = e.events := by
  have hmark : dropByteOrderMark e.render.toList = e.render.toList := by
    refine dropByteOrderMark_of_head? ?_
    rw [e.head?_render]
    decide
  have hread : e.render.toList.foldl Scanner.step {} = ⟨.content, [], e.events.reverse⟩ := by
    have hlines := e.foldl_lines h 0 [] []
    rwa [← e.newline_cons_render, List.append_nil] at hlines
  rw [events, hmark, hread]
  exact List.reverse_reverse _

end Markup

end QueryEditor
