import QueryEditor.Proofs.MarkupDocuments

/-!
# Tags that the end of a text cuts off

The end of a text counts as the end of the tag in which it stands.  What is read then of a tag
that was written depends on where the end comes: between the attributes the tag is read with those
that are there, but within an attribute its attributes cannot be read, and within the name of a
closing tag another element seems to be closed.

* `Markup.EndsInTag` : the end of a text stands within a tag.
* `Markup.Scanner.events_finish_tag`, `Markup.Scanner.events_finish_closing` : the tag that a text
  ends in is read as if it ended there.
* `Markup.Tag.attributes?_of_isTorn` : **a tag that ends within an attribute cannot be read**, and
  by `Markup.Tag.attributes?_between` one that ends between attributes can.
-/

namespace QueryEditor

/-! ### Parts of a list -/

section Lists

variable {α β : Type} {p a b : List α}

/-- A list cut off in one of two parts. -/
theorem prefix_append_cases (h : p <+: a ++ b) :
    p <+: a ∧ p ≠ a ∨ ∃ q, q <+: b ∧ p = a ++ q := by
  obtain ⟨rest, hrest⟩ := h
  obtain ⟨q, rfl, -⟩ | ⟨q, rfl, hb⟩ := List.append_eq_append_iff.1 hrest
  · cases q with
    | nil => exact .inr ⟨[], List.nil_prefix, by simp⟩
    | cons c q => exact .inl ⟨⟨_, rfl⟩, by simp⟩
  · exact .inr ⟨q, ⟨rest, hb.symm⟩, rfl⟩

/-- A list cut off in one of many parts. -/
theorem prefix_flatMap_cases {f : β → List α} {bs : List β} (h : p <+: bs.flatMap f) :
    (∃ done b part, done ++ [b] <+: bs ∧ part <+: f b ∧ part ≠ f b ∧
      p = done.flatMap f ++ part) ∨ p = bs.flatMap f := by
  induction bs generalizing p with
  | nil => exact .inr (List.prefix_nil.1 h)
  | cons b bs ih =>
    rw [List.flatMap_cons] at h ⊢
    obtain ⟨hpart, hne⟩ | ⟨q, hq, rfl⟩ := prefix_append_cases h
    · exact .inl ⟨[], b, p, by simp, hpart, hne, rfl⟩
    · obtain ⟨done, b', part, hdone, hpart, hne, rfl⟩ | rfl := ih hq
      · exact .inl ⟨b :: done, b', part, by simpa using hdone, hpart, hne, by simp⟩
      · exact .inr rfl

end Lists

namespace Markup

open Element (attributeText tagText)

/-! ### The tag in which a text ends -/

/-- The end of a text stands within a tag, of which `tag` is what stands there. -/
def EndsInTag (cs tag : List Char) : Prop := '<' :: tag <:+ cs ∧ '<' ∉ tag ∧ '>' ∉ tag

section EndsInTag

variable {before tag part : List Char}

theorem endsInTag_append_cons_iff (hopen : '<' ∉ part) (hclose : '>' ∉ part) :
    EndsInTag (before ++ '<' :: part) tag ↔ tag = part := by
  constructor
  · rintro ⟨hsuffix, htag, -⟩
    -- of the two texts after a bracket one ends with the other, and neither has a bracket
    have hpart : '<' :: part <:+ before ++ '<' :: part := List.suffix_append _ _
    obtain h | h := List.suffix_or_suffix_of_suffix hsuffix hpart
    · obtain h | h := List.suffix_cons_iff.1 h
      · exact (List.cons.inj h).2
      · exact absurd (h.subset List.mem_cons_self) hopen
    · obtain h | h := List.suffix_cons_iff.1 h
      · exact (List.cons.inj h).2.symm
      · exact absurd (h.subset List.mem_cons_self) htag
  · rintro rfl
    exact ⟨List.suffix_append _ _, hopen, hclose⟩

/-- What stands before the end of a tag does not matter. -/
theorem endsInTag_append_closed_iff :
    EndsInTag (before ++ '>' :: part) tag ↔ EndsInTag part tag := by
  constructor
  · rintro ⟨hsuffix, hopen, hclose⟩
    refine ⟨?_, hopen, hclose⟩
    have hpart : '>' :: part <:+ before ++ '>' :: part := List.suffix_append _ _
    obtain h | h := List.suffix_or_suffix_of_suffix hsuffix hpart
    · obtain h | h := List.suffix_cons_iff.1 h
      · exact absurd (List.cons.inj h).1 (by decide)
      · exact h
    · obtain h | h := List.suffix_cons_iff.1 h
      · exact absurd (List.cons.inj h).1 (by decide)
      · exact absurd (h.subset List.mem_cons_self) hclose
  · rintro ⟨hsuffix, hopen, hclose⟩
    have hpart : part <:+ before ++ '>' :: part := ⟨before ++ ['>'], by simp⟩
    exact ⟨hsuffix.trans hpart, hopen, hclose⟩

theorem not_endsInTag_of_not_mem (h : '<' ∉ part) : ¬EndsInTag part tag :=
  fun hends => h (hends.1.subset List.mem_cons_self)

end EndsInTag

/-! ### Reading up to the end -/

namespace Scanner

variable {opened : List (List Char)} {found : List Event} {text : List Char}

theorem foldl_content (h : '<' ∉ text) :
    text.foldl step ⟨.content, opened, found⟩ = ⟨.content, opened, found⟩ := by
  induction text with
  | nil => rfl
  | cons c text ih =>
    obtain ⟨hc, htext⟩ : '<' ≠ c ∧ '<' ∉ text := by simpa using h
    have hstep : step ⟨.content, opened, found⟩ c = ⟨.content, opened, found⟩ := by
      simp [step, hc.symm]
    rw [List.foldl_cons, hstep, ih htext]

/-- Text without a closing bracket stays in its tag, perhaps in a quoted value. -/
theorem foldl_tag_of_not_mem (h : '>' ∉ text) (quote : Option Char) (read : List Char) :
    ∃ quote', text.foldl step ⟨.tag quote read, opened, found⟩ =
      ⟨.tag quote' (text.reverse ++ read), opened, found⟩ := by
  induction text generalizing quote read with
  | nil => exact ⟨quote, rfl⟩
  | cons c text ih =>
    obtain ⟨hc, htext⟩ : '>' ≠ c ∧ '>' ∉ text := by simpa using h
    obtain ⟨quote', hstep⟩ : ∃ quote', step ⟨.tag quote read, opened, found⟩ c =
        ⟨.tag quote' (c :: read), opened, found⟩ := by
      cases quote with
      | none => simp [step, readTag, goTo, hc.symm]
      | some q => simp [step, readTag, goTo]
    rw [List.foldl_cons, hstep, List.reverse_cons, List.append_assoc, List.singleton_append]
    exact ih htext quote' (c :: read)

/-- The text of a tag without the slash that makes its element empty. -/
def body (text : List Char) : List Char :=
  if text.getLast? = some '/' then text.dropLast else text

/-- The tag with this text. -/
def tagEvent (text : List Char) : Event :=
  if text.getLast? = some '/' then .empty (Tag.ofText (body text)) else
    .opening (Tag.ofText (body text))

theorem events_endTag (s : Scanner) (text : List Char) :
    (s.endTag text).events = tagEvent text :: s.events := by
  unfold endTag tagEvent body
  split <;> rfl

/-- The tag in which a text ends is read as if it ended there. -/
theorem events_finish_tag {c : Char} (hc : c ∉ ['!', '/', '?']) (h : '>' ∉ c :: text) :
    (('<' :: c :: text).foldl step ⟨.content, opened, found⟩).finish.events =
      tagEvent (c :: text) :: found := by
  obtain ⟨hdecl, hclose, hinstr⟩ : c ≠ '!' ∧ c ≠ '/' ∧ c ≠ '?' := by simpa using hc
  have hfirst : step ⟨.markup, opened, found⟩ c = step ⟨.tag none [], opened, found⟩ c := by
    simp [step, readMarkup, readTag, goTo, endTag, hdecl, hclose, hinstr]
  obtain ⟨quote, hfold⟩ : ∃ quote, (c :: text).foldl step ⟨.tag none [], opened, found⟩ =
      ⟨.tag quote ((c :: text).reverse ++ []), opened, found⟩ := foldl_tag_of_not_mem h none []
  rw [List.foldl_cons, List.foldl_cons]
  change (List.foldl step (step ⟨.markup, opened, found⟩ c) text).finish.events = _
  rw [hfirst, ← List.foldl_cons, hfold, List.append_nil]
  change (endTag _ (c :: text).reverse.reverse).events = _
  rw [events_endTag, List.reverse_reverse]

/-- The closing tag in which a text ends is read as if it ended there. -/
theorem events_finish_closing {name : List Char} (h : ∀ c ∈ text, isNameChar c = true) :
    (('<' :: '/' :: text).foldl step ⟨.content, name :: opened, found⟩).finish.events =
      (if text = name then .closing else .malformed) :: found := by
  change (text.foldl step ⟨.closing [], name :: opened, found⟩).finish.events = _
  rw [foldl_inClosing (close_not_mem_of_isNameChar h), List.append_nil]
  change (endClosing _ text.reverse.reverse).events = _
  rw [List.reverse_reverse, endClosing, closingName_of_forall h]
  dsimp only
  split <;> rfl

end Scanner

/-! ### Attributes without an end -/

namespace Tag

theorem attributesFrom?_inName_nil {cs : List Char} (h : ∀ c ∈ cs, isNameChar c = true)
    (read : List Char) : attributesFrom? (.inName read) cs = none := by
  induction cs generalizing read with
  | nil => rfl
  | cons c cs ih =>
    obtain ⟨hc, hcs⟩ := List.forall_mem_cons.1 h
    have heq : c ≠ '=' := ne_of_isNameChar hc (by decide)
    simp [attributesFrom?, heq, isSpace_of_isNameChar hc, ih hcs]

theorem attributesFrom?_inValue_nil {cs : List Char} {quote : Char} (h : quote ∉ cs)
    (name read : List Char) : attributesFrom? (.inValue name quote read) cs = none := by
  induction cs generalizing read with
  | nil => rfl
  | cons c cs ih =>
    obtain ⟨hc, hcs⟩ : quote ≠ c ∧ quote ∉ cs := by simpa using h
    simp [attributesFrom?, hc.symm, ih hcs]

/-- An attribute starts with a blank and the first character of its name. -/
theorem exists_attributeText_eq {a : String × String} (h : isName a.1 = true) :
    ∃ c cs, isNameChar c = true ∧ (∀ d ∈ cs, isNameChar d = true) ∧
      attributeText a = [' ', c] ++ (cs ++ '=' :: '"' :: (escape a.2.toList ++ ['"'])) := by
  have hchars := isNameChar_of_isName h
  cases hname : a.1.toList with
  | nil => exact absurd hname (toList_ne_nil_of_isName h)
  | cons c cs =>
    rw [hname] at hchars
    obtain ⟨hc, hcs⟩ := List.forall_mem_cons.1 hchars
    exact ⟨c, cs, hc, hcs, by simp [attributeText, hname]⟩

/-- Part of an attribute, of which the name has begun, and not the whole. -/
def IsTorn (part : List Char) (a : String × String) : Prop :=
  part <+: attributeText a ∧ part ≠ attributeText a ∧ 2 ≤ part.length

variable {a : String × String} {part : List Char} {name : String}
  {attributes : List (String × String)}

theorem IsTorn.exists_eq (h : IsTorn part a) : ∃ rest, part = ' ' :: rest := by
  obtain ⟨⟨rest, hrest⟩, -, hlong⟩ := h
  cases part with
  | nil => simp at hlong
  | cons c part => exact ⟨part, congrArg (· :: part) (List.cons.inj hrest).1⟩

/-- **An attribute without its end cannot be read**, once its name has begun. -/
theorem attributesFrom?_of_isTorn (h : isName a.1 = true) (hpart : IsTorn part a) :
    attributesFrom? .between part = none := by
  obtain ⟨hpart, hne, hlong⟩ := hpart
  obtain ⟨c, cs, hc, hcs, htext⟩ := exists_attributeText_eq h
  rw [htext] at hpart hne
  obtain ⟨hshort, hnot⟩ | ⟨inner, hinner, rfl⟩ := prefix_append_cases hpart
  · exact absurd (hshort.eq_of_length_le hlong) hnot
  have hspace : isSpace ' ' = true := rfl
  have hstart (inner : List Char) :
      attributesFrom? .between ([' ', c] ++ inner) = attributesFrom? (.inName [c]) inner := by
    simp [attributesFrom?, hspace, isSpace_of_isNameChar hc]
  rw [hstart]
  -- the end stands in the name, before the value or in it
  obtain ⟨hin, -⟩ | ⟨rest, hrest, rfl⟩ := prefix_append_cases hinner
  · exact attributesFrom?_inName_nil (fun d hd => hcs d (hin.subset hd)) [c]
  obtain rfl | ⟨value, rfl, hvalue⟩ := List.prefix_cons_iff.1 hrest
  · rw [List.append_nil]
    exact attributesFrom?_inName_nil hcs [c]
  rw [attributesFrom?_inName hcs]
  obtain rfl | ⟨quoted, rfl, hquoted⟩ := List.prefix_cons_iff.1 hvalue
  · rfl
  have hquote : isSpace '"' = false := rfl
  have hopen (name : List Char) : attributesFrom? (.beforeValue name) ('"' :: quoted) =
      attributesFrom? (.inValue name '"' []) quoted := by
    simp [attributesFrom?, hquote]
  rw [hopen]
  obtain hfull | hin := List.prefix_concat_iff.1 hquoted
  · exact absurd (by rw [hfull]) hne
  · exact attributesFrom?_inValue_nil (fun hmem => quote_not_mem_escape _ (hin.subset hmem)) _ _

/-- A slash at the end of a value that is cut off is not part of the text of the tag, but the
attribute is torn without it, too. -/
theorem exists_body_eq_of_isTorn (h : isName a.1 = true) (hpart : IsTorn part a)
    (before : List Char) :
    ∃ part', IsTorn part' a ∧ Scanner.body (before ++ part) = before ++ part' := by
  unfold Scanner.body
  split
  case isFalse => exact ⟨part, hpart, rfl⟩
  case isTrue hslash =>
    obtain ⟨hpre, hne, hlong⟩ := hpart
    have hnil : part ≠ [] := by
      rintro rfl
      simp at hlong
    refine ⟨part.dropLast, ⟨(List.dropLast_prefix part).trans hpre, ?_, ?_⟩,
      List.dropLast_append_of_ne_nil hnil⟩
    · intro heq
      have hle := (heq ▸ hpre.length_le : part.length ≤ part.dropLast.length)
      rw [List.length_dropLast] at hle
      omega
    · -- two characters are a blank and the first one of the name
      obtain ⟨c, cs, hc, -, htext⟩ := exists_attributeText_eq h
      rw [htext] at hpre
      obtain ⟨hshort, hnot⟩ | ⟨inner, -, rfl⟩ := prefix_append_cases hpre
      · exact absurd (hshort.eq_of_length_le hlong) hnot
      cases inner with
      | nil =>
        have hc' : c = '/' := by simpa using hslash
        exact absurd hc (by rw [hc']; decide)
      | cons d inner => simp

/-- **A tag that ends within an attribute cannot be read.** -/
theorem attributes?_of_isTorn (hname : isName name = true)
    (has : ∀ a ∈ attributes, isName a.1 = true) (h : isName a.1 = true) (hpart : IsTorn part a) :
    (ofText (Scanner.body (tagText name attributes ++ part))).name = name.toList ∧
      (ofText (Scanner.body (tagText name attributes ++ part))).attributes? = none := by
  obtain ⟨part', htorn, hbody⟩ := exists_body_eq_of_isTorn h hpart (tagText name attributes)
  have hspace : ∀ c ∈ (attributes.flatMap attributeText ++ part').head?, isSpace c = true := by
    obtain ⟨rest, rfl⟩ := htorn.exists_eq
    exact isSpace_head?_flatMap_append attributes (by simp [isSpace])
  rw [hbody, tagText, List.append_assoc, ofText_name_append hname hspace]
  refine ⟨rfl, ?_⟩
  rw [attributes?, attributesFrom?_flatMap has, attributesFrom?_of_isTorn h htorn]
  rfl

/-- A tag that ends between its attributes is read with those that are there. -/
theorem attributes?_between (hname : isName name = true)
    (has : ∀ a ∈ attributes, isName a.1 = true) (hnodup : (attributes.map (·.1)).Nodup)
    (hpart : part <+: [' ']) :
    (ofText (Scanner.body (tagText name attributes ++ part))).name = name.toList ∧
      (ofText (Scanner.body (tagText name attributes ++ part))).attributes? =
        some (attributes.map written) := by
  obtain rfl | rfl : part = [] ∨ part = [' '] := by
    obtain rfl | ⟨rest, rfl, hrest⟩ := List.prefix_cons_iff.1 hpart
    · exact .inl rfl
    · exact .inr (by rw [List.prefix_nil.1 hrest])
  · rw [List.append_nil, Scanner.body, if_neg (Scanner.getLast?_tagText hname attributes),
      ofText_tagText hname]
    exact ⟨rfl, attributes?_written has hnodup⟩
  · have hlast : (tagText name attributes ++ [' ']).getLast? ≠ some '/' := by
      rw [List.getLast?_concat]
      decide
    rw [Scanner.body, if_neg hlast, tagText, List.append_assoc, ofText_name_append hname
      (isSpace_head?_flatMap_append attributes (by simp [isSpace]))]
    exact ⟨rfl, attributes?_written_append has hnodup rfl⟩

/-- Part of a name is read as another name. -/
theorem name_ofText_body_ne {text : List Char} (hname : isName name = true)
    (htext : text <+: name.toList) (hne : text ≠ name.toList) :
    (∀ c ∈ text, isNameChar c = true) ∧ (ofText (Scanner.body text)).name ≠ name.toList := by
  have hchars : ∀ c ∈ text, isNameChar c = true :=
    fun c hc => isNameChar_of_isName hname c (htext.subset hc)
  have hlast : text.getLast? ≠ some '/' := fun hlast =>
    absurd (hchars '/' (List.mem_of_getLast? hlast)) (by decide)
  have hspace : ∀ c ∈ text, (!isSpace c) = true := by
    intro c hc
    rw [isSpace_of_isNameChar (hchars c hc)]
    rfl
  have hread : (ofText text).name = text := by
    calc (ofText text).name
      _ = (text ++ []).takeWhile (!isSpace ·) := by rw [List.append_nil]; rfl
      _ = text ++ [].takeWhile (!isSpace ·) := List.takeWhile_append_of_pos hspace
      _ = text := List.append_nil text
  refine ⟨hchars, ?_⟩
  rwa [Scanner.body, if_neg hlast, hread]

/-- What can stand of a tag that was written: part of its name, all up to some place within an
attribute, or enough that some of its attributes can be read. -/
theorem prefix_tagText_cases {text tail : List Char} (hname : isName name = true)
    (has : ∀ a ∈ attributes, isName a.1 = true) (hnodup : (attributes.map (·.1)).Nodup)
    (htail : tail <+: ['/']) (h : text <+: tagText name attributes ++ tail) :
    ((∀ c ∈ text, isNameChar c = true) ∧ (ofText (Scanner.body text)).name ≠ name.toList) ∨
      (∃ done a part, (∀ a ∈ done, isName a.1 = true) ∧ isName a.1 = true ∧ IsTorn part a ∧
        text = tagText name done ++ part) ∨
      ∃ kept, kept <+: attributes ∧ (ofText (Scanner.body text)).name = name.toList ∧
        (ofText (Scanner.body text)).attributes? = some (kept.map written) := by
  have hbetween {done : List (String × String)} {part : List Char} (hdone : done <+: attributes)
      (hpart : part <+: [' ']) : ∃ kept, kept <+: attributes ∧
        (ofText (Scanner.body (tagText name done ++ part))).name = name.toList ∧
        (ofText (Scanner.body (tagText name done ++ part))).attributes? =
          some (kept.map written) :=
    ⟨done, hdone, attributes?_between hname (fun a ha => has a (hdone.subset ha))
      (hnodup.sublist (hdone.sublist.map _)) hpart⟩
  rw [tagText, List.append_assoc] at h
  obtain ⟨hin, hne⟩ | ⟨rest, hrest, rfl⟩ := prefix_append_cases h
  · exact .inl (name_ofText_body_ne hname hin hne)
  right
  obtain ⟨hin, hnot⟩ | ⟨slash, hslash, rfl⟩ := prefix_append_cases hrest
  · obtain ⟨done, a, part, hdone, hpart, hne, rfl⟩ | hall := prefix_flatMap_cases hin
    · have hmem : ∀ b ∈ done ++ [a], isName b.1 = true := fun b hb => has b (hdone.subset hb)
      rw [← List.append_assoc, ← tagText]
      by_cases hlong : 2 ≤ part.length
      · exact .inl ⟨done, a, part, fun b hb => hmem b (List.mem_append_left _ hb),
          hmem a (by simp), ⟨hpart, hne, hlong⟩, rfl⟩
      · have hshort : part <+: [' '] := by
          refine List.prefix_of_prefix_length_le hpart ⟨_, rfl⟩ ?_
          rw [List.length_singleton]
          omega
        exact .inr (hbetween ((List.prefix_append _ _).trans hdone) hshort)
    · exact absurd hall hnot
  · right
    rw [← List.append_assoc, ← tagText]
    obtain rfl | ⟨nothing, rfl, hnothing⟩ := List.prefix_cons_iff.1 (hslash.trans htail)
    · exact hbetween (List.prefix_refl _) List.nil_prefix
    · obtain rfl := List.prefix_nil.1 hnothing
      -- a slash at the end makes the element empty
      have hbody : Scanner.body (tagText name attributes ++ ['/']) =
          Scanner.body (tagText name attributes ++ []) := by
        rw [Scanner.body, if_pos List.getLast?_concat, List.dropLast_concat, List.append_nil,
          Scanner.body, if_neg (Scanner.getLast?_tagText hname attributes)]
      rw [hbody]
      exact hbetween (List.prefix_refl _) List.nil_prefix

/-- No angle bracket stands in a tag that was written. -/
theorem not_mem_tagText {c : Char} (hc : c = '<' ∨ c = '>') (hname : isName name = true)
    (has : ∀ a ∈ attributes, isName a.1 = true) : c ∉ tagText name attributes := by
  have hmem : c ∈ ['<', '>', '\'', '"'] := by obtain rfl | rfl := hc <;> decide
  have hnotName {name : String} (h : isName name = true) : c ∉ name.toList := by
    intro hin
    have hchar := isNameChar_of_isName h c hin
    obtain rfl | rfl := hc <;> cases hchar
  intro hin
  obtain hin | hin := List.mem_append.1 hin
  · exact hnotName hname hin
  · obtain ⟨a, ha, hin⟩ := List.mem_flatMap.1 hin
    have hsep : c ∉ [' ', '=', '"'] := by obtain rfl | rfl := hc <;> decide
    have hvalue := not_mem_escape hmem a.2.toList
    simp only [List.mem_cons, not_or] at hsep
    simp [attributeText, hnotName (has a ha), hvalue, hsep] at hin

end Tag

end Markup

end QueryEditor
