import Mathlib.Data.List.Induction
import QueryEditor.Proofs.TornTags

/-!
# Documents as trees

A `Document` is a tree of elements with what else can stand in markup: text, comments, `CDATA`
sections, processing instructions and document types, and white space in tags.  Every well-formed
document is one as long as the angle brackets in its document type pair up.  Some are let through
that are not well-formed, such as those with two attributes of one name in a tag.  An element
without content can be written as one tag (`Piece.empty`) or as a start tag and a closing tag
(`Piece.element`).

The tags of a document are read in their order (`Document.tags`), with one exception: a processing
instruction with a closing angle bracket in it counts as malformed.

* `Markup.Scans` : a text is read as some tags, up to the first place where it is malformed.
* `Markup.Piece.scans` : a piece, by induction on the tree.
* `Markup.Document.events_render` : **the tags of a document are read, up to a malformed one.**
-/

namespace QueryEditor

namespace Markup

/-! ### Tags -/

/-- An attribute as it can stand in a tag. -/
structure NamedValue where
  /-- White space before the name. -/
  before : List Char
  name : String
  /-- White space before the equals sign. -/
  beforeEquals : List Char
  /-- White space after the equals sign. -/
  afterEquals : List Char
  quote : Char
  value : List Char
  before_ne_nil : before ≠ []
  isSpace_before : before.all isSpace = true
  isName_name : isName name = true
  isSpace_beforeEquals : beforeEquals.all isSpace = true
  isSpace_afterEquals : afterEquals.all isSpace = true
  quote_eq : quote = '"' ∨ quote = '\''
  quote_not_mem : quote ∉ value

/-- How it is written. -/
def NamedValue.text (a : NamedValue) : List Char :=
  a.before ++ (a.name.toList ++ (a.beforeEquals ++ ('=' :: a.afterEquals ++
    (a.quote :: a.value ++ [a.quote]))))

/-- What can stand in the tag of an element. -/
structure StartTag where
  name : String
  attributes : List NamedValue
  /-- White space after the attributes. -/
  after : List Char
  isName_name : isName name = true
  isSpace_after : after.all isSpace = true

namespace StartTag

/-- What is written after the name. -/
def rest (t : StartTag) : List Char := t.attributes.flatMap (·.text) ++ t.after

/-- How it is read. -/
def toTag (t : StartTag) : Tag := ⟨t.name.toList, t.rest⟩

end StartTag

/-! ### Trees -/

/-- What can stand between `<!DOCTYPE` and its end.  The angle brackets in it pair up. -/
structure IsDocumentType (cs : List Char) : Prop where
  not_blank : cs.all isSpace = false
  balanced : Scanner.angleBalance cs = 0
  open_before : ∀ before, before ++ ['>'] <+: cs → Scanner.angleBalance before ≠ 0

/-- A part of the content of an element. -/
inductive Piece
  | text (cs : List Char) (h : '<' ∉ cs)
  | comment (cs : List Char) (h : ¬['-', '-'] <:+: cs)
  | characterData (cs : List Char) (h : ¬[']', ']', '>'] <:+: cs)
  | documentType (cs : List Char) (h : IsDocumentType cs)
  | instruction (cs : List Char) (hne : cs ≠ []) (h : ¬['?', '>'] <:+: cs)
  /-- An element without content, written as one tag. -/
  | empty (t : StartTag)
  /-- An element written as a start tag, its content and a closing tag, in which white space may
  stand after the name. -/
  | element (t : StartTag) (content : List Piece) (blanks : List Char)
      (h : blanks.all isSpace = true)

namespace Piece

mutual

/-- How a piece is written. -/
def render : Piece → List Char
  | text cs _ => cs
  | comment cs _ => "<!--".toList ++ cs ++ "-->".toList
  | characterData cs _ => "<![CDATA[".toList ++ cs ++ "]]>".toList
  | documentType cs _ => "<!DOCTYPE".toList ++ cs ++ ['>']
  | instruction cs _ _ => "<?".toList ++ cs ++ "?>".toList
  | empty t => '<' :: (t.name.toList ++ t.rest) ++ ['/', '>']
  | element t content blanks _ =>
    '<' :: (t.name.toList ++ t.rest) ++ ['>'] ++
      (renderAll content ++ ('<' :: '/' :: (t.name.toList ++ blanks) ++ ['>']))

/-- How content is written. -/
def renderAll : List Piece → List Char
  | [] => []
  | p :: ps => render p ++ renderAll ps

end

mutual

/-- The tags in a piece.  A processing instruction ends at its first closing angle bracket, so it
is malformed when there is one before its end. -/
def tags : Piece → List Event
  | text .. | comment .. | characterData .. | documentType .. => []
  | instruction cs _ _ => if '>' ∈ cs then [.malformed] else []
  | empty t => [.empty t.toTag]
  | element t content _ _ => .opening t.toTag :: (tagsOfAll content ++ [.closing])

/-- The tags in content. -/
def tagsOfAll : List Piece → List Event
  | [] => []
  | p :: ps => tags p ++ tagsOfAll ps

end

theorem renderAll_append (ps ps' : List Piece) :
    renderAll (ps ++ ps') = renderAll ps ++ renderAll ps' := by
  induction ps with
  | nil => rfl
  | cons p ps ih => rw [List.cons_append, renderAll, ih, renderAll, List.append_assoc]

theorem tagsOfAll_append (ps ps' : List Piece) :
    tagsOfAll (ps ++ ps') = tagsOfAll ps ++ tagsOfAll ps' := by
  induction ps with
  | nil => rfl
  | cons p ps ih => rw [List.cons_append, tagsOfAll, ih, tagsOfAll, List.append_assoc]

/-- Whether it is an element. -/
def isElement : Piece → Bool
  | empty _ | element .. => true
  | _ => false

/-- Whether it can stand beside the outermost element. -/
def isBeside : Piece → Bool
  | text cs _ => cs.all isSpace
  | comment .. | documentType .. | instruction .. => true
  | characterData .. | empty _ | element .. => false

end Piece

/-- A document: one element with what may stand before and after it. -/
structure Document where
  /-- Whether a byte order mark stands at the start. -/
  mark : Bool
  before : List Piece
  root : Piece
  after : List Piece
  isBeside_before : before.all (·.isBeside) = true
  isElement_root : root.isElement = true
  isBeside_after : after.all (·.isBeside) = true

namespace Document

/-- What a document consists of. -/
def pieces (d : Document) : List Piece := d.before ++ d.root :: d.after

/-- How a document is written. -/
def render (d : Document) : String :=
  String.ofList ((if d.mark then ['\ufeff'] else []) ++ Piece.renderAll d.pieces)

/-- The tags of a document. -/
def tags (d : Document) : List Event := Piece.tagsOfAll d.pieces

end Document

/-! ### Reading up to a malformed place -/

/-- With some elements open a text is read as these tags, and then others are open; or only the tags
before a malformed place are read. -/
def Scans (opened : List (List Char)) (text : List Char) (es : List Event)
    (opened' : List (List Char)) : Prop :=
  ∀ found, text.foldl Scanner.step ⟨.content, opened, found⟩ =
      ⟨.content, opened', es.reverse ++ found⟩ ∨
    ∃ before after opened'', es = before ++ .malformed :: after ∧
      text.foldl Scanner.step ⟨.content, opened, found⟩ =
        ⟨.nowhere, opened'', .malformed :: (before.reverse ++ found)⟩

section Scans

variable {opened opened' opened'' : List (List Char)} {text text' : List Char}
  {es es' : List Event} {found : List Event}

theorem Scanner.foldl_nowhere (text : List Char) :
    text.foldl Scanner.step ⟨.nowhere, opened, found⟩ = ⟨.nowhere, opened, found⟩ := by
  induction text with
  | nil => rfl
  | cons c text ih => exact ih

theorem Scans.of_foldl (h : ∀ found, text.foldl Scanner.step ⟨.content, opened, found⟩ =
    ⟨.content, opened', es.reverse ++ found⟩) : Scans opened text es opened' :=
  fun found => .inl (h found)

theorem Scans.append (h : Scans opened text es opened') (h' : Scans opened' text' es' opened'') :
    Scans opened (text ++ text') (es ++ es') opened'' := by
  intro found
  rw [List.foldl_append]
  obtain hread | ⟨before, after, openedThere, rfl, hread⟩ := h found
  · rw [hread]
    obtain hread' | ⟨before, after, openedThere, rfl, hread'⟩ := h' (es.reverse ++ found)
    · exact .inl (by rw [hread', List.reverse_append, List.append_assoc])
    · exact .inr ⟨es ++ before, after, openedThere, by simp, by rw [hread']; simp⟩
  · refine .inr ⟨before, after ++ es', openedThere, by simp, ?_⟩
    rw [hread, Scanner.foldl_nowhere]

end Scans

/-! ### Tags are read -/

namespace NamedValue

open Scanner (Inside inside_singleton inside_of_forall inside_name inside_quoted)

theorem inside_blanks {blanks : List Char} (h : blanks.all isSpace = true) : Inside blanks := by
  refine inside_of_forall fun c hc hmem => ?_
  have hspace := List.all_eq_true.1 h c hc
  obtain rfl | rfl | rfl : c = '>' ∨ c = '"' ∨ c = '\'' := by simpa using hmem
  all_goals cases hspace

theorem inside_text (a : NamedValue) : Inside a.text := by
  have hequals : '=' :: a.afterEquals ++ (a.quote :: a.value ++ [a.quote]) =
      ['='] ++ (a.afterEquals ++ (a.quote :: a.value ++ [a.quote])) := rfl
  rw [text, hequals]
  exact (inside_blanks a.isSpace_before).append <| (inside_name a.isName_name).append <|
    (inside_blanks a.isSpace_beforeEquals).append <| (inside_singleton (by decide)).append <|
      (inside_blanks a.isSpace_afterEquals).append (inside_quoted a.quote_eq a.quote_not_mem)

theorem isSpace_head?_text (a : NamedValue) (rest : List Char) :
    ∀ c ∈ (a.text ++ rest).head?, isSpace c = true := by
  obtain ⟨c, cs, hbefore⟩ := List.exists_cons_of_ne_nil a.before_ne_nil
  have hspace := a.isSpace_before
  rw [hbefore, List.all_cons, Bool.and_eq_true] at hspace
  intro d hd
  rw [text, hbefore] at hd
  obtain rfl : c = d := Option.some.inj hd
  exact hspace.1

/-- It ends with a quote. -/
theorem getLast?_text_ne (a : NamedValue) : a.text.getLast? ≠ some '/' := by
  have hlast : a.text.getLast? = some a.quote := by
    have htext : a.text = a.before ++ (a.name.toList ++ (a.beforeEquals ++ ('=' :: a.afterEquals ++
        a.quote :: a.value))) ++ [a.quote] := by
      simp [text]
    rw [htext, List.getLast?_concat]
  rw [hlast]
  obtain hquote | hquote := a.quote_eq
  all_goals simp [hquote]

end NamedValue

namespace StartTag

theorem inside_rest (t : StartTag) : Scanner.Inside t.rest := by
  have hattributes (as : List NamedValue) : Scanner.Inside (as.flatMap (·.text)) := by
    induction as with
    | nil => exact fun _ _ _ => rfl
    | cons a as ih => exact a.inside_text.append ih
  exact (hattributes t.attributes).append (NamedValue.inside_blanks t.isSpace_after)

theorem isSpace_head?_rest (t : StartTag) : ∀ c ∈ t.rest.head?, isSpace c = true := by
  rw [rest]
  cases t.attributes with
  | nil =>
    intro c hc
    exact List.all_eq_true.1 t.isSpace_after c (List.mem_of_mem_head? hc)
  | cons a as =>
    rw [List.flatMap_cons, List.append_assoc]
    exact a.isSpace_head?_text _

theorem getLast?_append_ne {a b : List Char} {c : Char} (ha : a.getLast? ≠ some c)
    (hb : b.getLast? ≠ some c) : (a ++ b).getLast? ≠ some c := by
  rw [List.getLast?_append]
  cases hlast : b.getLast? with
  | none => simpa using ha
  | some d => rwa [Option.some_or, ← hlast]

/-- What is written in a tag ends with white space, a quote or a character of the name. -/
theorem getLast?_text_ne (t : StartTag) : (t.name.toList ++ t.rest).getLast? ≠ some '/' := by
  have hname : t.name.toList.getLast? ≠ some '/' := by
    intro hlast
    exact absurd (isNameChar_of_isName t.isName_name '/' (List.mem_of_getLast? hlast)) (by decide)
  have hattributes (as : List NamedValue) : (as.flatMap (·.text)).getLast? ≠ some '/' := by
    induction as with
    | nil => simp
    | cons a as ih => exact getLast?_append_ne a.getLast?_text_ne ih
  have hafter : t.after.getLast? ≠ some '/' := by
    intro hlast
    exact absurd (List.all_eq_true.1 t.isSpace_after '/' (List.mem_of_getLast? hlast)) (by decide)
  exact getLast?_append_ne hname (getLast?_append_ne (hattributes t.attributes) hafter)

end StartTag

/-! ### Declarations and instructions are read -/

namespace Scanner

variable {opened : List (List Char)} {found : List Event} {text lead ending cs before : List Char}
  {d : Declaration}

/-- A closing angle bracket after a lead without one stands in what follows. -/
theorem exists_of_prefix_lead (hlead : '>' ∉ lead) (h : before ++ ['>'] <+: lead ++ cs) :
    ∃ inner, before = lead ++ inner ∧ inner ++ ['>'] <+: cs := by
  obtain ⟨hin, -⟩ | ⟨q, hq, heq⟩ := prefix_append_cases h
  · exact absurd (hin.subset (by simp)) hlead
  · obtain rfl | ⟨inner, c, rfl⟩ := List.eq_nil_or_concat q
    · rw [List.append_nil] at heq
      exact absurd (heq ▸ by simp : '>' ∈ lead) hlead
    · rw [List.concat_eq_append, ← List.append_assoc] at heq
      obtain ⟨rfl, hc⟩ := List.append_inj' heq rfl
      exact ⟨inner, rfl, by rwa [hc, ← List.concat_eq_append]⟩

/-- A closing angle bracket before an ending without one stands in what comes first. -/
theorem prefix_of_prefix_ending (hending : '>' ∉ ending) (h : before ++ ['>'] <+: cs ++ ending) :
    before ++ ['>'] <+: cs := by
  obtain ⟨hin, -⟩ | ⟨q, hq, heq⟩ := prefix_append_cases h
  · exact hin
  · obtain rfl | ⟨inner, c, rfl⟩ := List.eq_nil_or_concat q
    · rw [List.append_nil] at heq
      exact heq ▸ List.prefix_refl _
    · rw [List.concat_eq_append, ← List.append_assoc] at heq
      obtain ⟨-, hc⟩ := List.append_inj' heq rfl
      obtain rfl : '>' = c := (List.cons.inj hc).1
      exact absurd (hq.subset (by simp)) hending

/-- Text that does not end the declaration in which it stands. -/
theorem foldl_declaration (h : ∀ before, before ++ ['>'] <+: text →
      declaration? before = some d ∧ d.endsAfter before = false) :
    text.foldl step ⟨.declaration [], opened, found⟩ =
      ⟨.declaration text.reverse, opened, found⟩ := by
  induction text using List.reverseRecOn with
  | nil => rfl
  | append_singleton text c ih =>
    have hread := ih fun before hbefore => h before (hbefore.trans (List.prefix_append ..))
    rw [List.foldl_append, hread, List.reverse_append, List.foldl_cons, List.foldl_nil]
    by_cases hc : c = '>'
    · obtain ⟨hd, hend⟩ := h text (hc ▸ List.prefix_refl _)
      simp [step, hc, endDeclaration, hd, hend, goTo]
    · simp [step, hc, goTo]

/-- A whole declaration is passed over. -/
theorem foldl_wholeDeclaration (hd : declaration? text = some d)
    (h : ∀ before, before ++ ['>'] <+: text →
      declaration? before = some d ∧ d.endsAfter before = false)
    (hend : d.endsAfter text = true) (hwell : d.isWellFormed text = true) :
    ('<' :: '!' :: text ++ ['>']).foldl step ⟨.content, opened, found⟩ =
      ⟨.content, opened, found⟩ := by
  change (text ++ ['>']).foldl step ⟨.declaration [], opened, found⟩ = _
  rw [List.foldl_append, foldl_declaration h, List.foldl_cons, List.foldl_nil]
  simp [step, endDeclaration, hd, hend, hwell, goTo]

theorem foldl_comment (h : ¬['-', '-'] <:+: cs) :
    ("<!--".toList ++ cs ++ "-->".toList).foldl step ⟨.content, opened, found⟩ =
      ⟨.content, opened, found⟩ := by
  have htext : "<!--".toList ++ cs ++ "-->".toList =
      '<' :: '!' :: (['-', '-'] ++ (cs ++ ['-', '-'])) ++ ['>'] := by
    simp
  have hdecl : declaration? (['-', '-'] ++ (cs ++ ['-', '-'])) = some .comment := rfl
  rw [htext]
  refine foldl_wholeDeclaration hdecl (fun before hbefore => ⟨?_, ?_⟩) ?_ rfl
  · obtain ⟨inner, rfl, -⟩ := exists_of_prefix_lead (by decide) hbefore
    rfl
  · obtain ⟨inner, rfl, hinner⟩ := exists_of_prefix_lead (by decide) hbefore
    have hcs : inner <+: cs :=
      (List.prefix_append _ _).trans (prefix_of_prefix_ending (by decide) hinner)
    -- the two hyphens at the start do not end it, and there are none later
    rw [Declaration.endsAfter, Bool.and_eq_false_imp, decide_eq_true_iff]
    intro hlong
    rw [← Bool.not_eq_true, List.isSuffixOf_iff_suffix]
    intro hends
    have hsuffix : ['-', '-'] <:+ inner := by
      refine List.suffix_of_suffix_length_le hends (List.suffix_append _ _) ?_
      simpa using hlong
    exact h (hsuffix.isInfix.trans hcs.isInfix)
  · rw [Declaration.endsAfter, Bool.and_eq_true, decide_eq_true_iff, List.isSuffixOf_iff_suffix,
      ← List.append_assoc]
    exact ⟨by simp, List.suffix_append _ _⟩

theorem foldl_characterData (h : ¬[']', ']', '>'] <:+: cs) :
    ("<![CDATA[".toList ++ cs ++ "]]>".toList).foldl step ⟨.content, opened, found⟩ =
      ⟨.content, opened, found⟩ := by
  have htext : "<![CDATA[".toList ++ cs ++ "]]>".toList =
      '<' :: '!' :: ("[CDATA[".toList ++ (cs ++ [']', ']'])) ++ ['>'] := by
    simp
  have hdecl : declaration? ("[CDATA[".toList ++ (cs ++ [']', ']'])) = some .characterData := rfl
  rw [htext]
  refine foldl_wholeDeclaration hdecl (fun before hbefore => ⟨?_, ?_⟩) ?_ rfl
  · obtain ⟨inner, rfl, -⟩ := exists_of_prefix_lead (by decide) hbefore
    rfl
  · obtain ⟨inner, rfl, hinner⟩ := exists_of_prefix_lead (by decide) hbefore
    have hcs := prefix_of_prefix_ending (by decide) hinner
    rw [Declaration.endsAfter, ← Bool.not_eq_true, List.isSuffixOf_iff_suffix]
    intro hends
    -- neither the start nor the start and one character end with two brackets
    match inner, hends with
    | [], hends => exact absurd hends (by decide)
    | [c], ⟨t, ht⟩ =>
      have hpair : (t ++ [']']) ++ [']'] = "[CDATA[".toList ++ [c] := by simpa using ht
      have hlast := congrArg List.getLast? (List.append_inj' hpair rfl).1
      rw [List.getLast?_concat] at hlast
      exact absurd hlast (by decide)
    | c :: d :: inner, hends =>
      have hsuffix : [']', ']'] <:+ c :: d :: inner :=
        List.suffix_of_suffix_length_le hends (List.suffix_append _ _) (by simp)
      obtain ⟨t, ht⟩ := hsuffix
      have hclose : [']', ']', '>'] <:+ c :: d :: inner ++ ['>'] := ⟨t, by rw [← ht]; simp⟩
      exact h (hclose.isInfix.trans hcs.isInfix)
  · rw [Declaration.endsAfter, List.isSuffixOf_iff_suffix, ← List.append_assoc]
    exact List.suffix_append _ _

theorem foldl_documentType (h : IsDocumentType cs) :
    ("<!DOCTYPE".toList ++ cs ++ ['>']).foldl step ⟨.content, opened, found⟩ =
      ⟨.content, opened, found⟩ := by
  have htext : "<!DOCTYPE".toList ++ cs ++ ['>'] =
      '<' :: '!' :: ("DOCTYPE".toList ++ cs) ++ ['>'] := by
    simp
  have hdecl : declaration? ("DOCTYPE".toList ++ cs) = some .documentType := rfl
  have hbalance (cs : List Char) : angleBalance ("DOCTYPE".toList ++ cs) = angleBalance cs := by
    simp [angleBalance]
  rw [htext]
  refine foldl_wholeDeclaration hdecl (fun before hbefore => ?_) ?_ ?_
  · obtain ⟨inner, rfl, hinner⟩ := exists_of_prefix_lead (by decide) hbefore
    refine ⟨rfl, ?_⟩
    rw [Declaration.endsAfter, hbalance, beq_eq_false_iff_ne]
    exact h.open_before inner hinner
  · rw [Declaration.endsAfter, hbalance, h.balanced]
    rfl
  · have hdrop : ("DOCTYPE".toList ++ cs).drop 7 = cs := rfl
    rw [Declaration.isWellFormed, hdrop, h.not_blank]
    rfl

theorem foldl_inInstruction (h : '>' ∉ text) (read : List Char) :
    text.foldl step ⟨.instruction read, opened, found⟩ =
      ⟨.instruction (text.reverse ++ read), opened, found⟩ := by
  induction text generalizing read with
  | nil => rfl
  | cons c text ih =>
    obtain ⟨hc, htext⟩ : '>' ≠ c ∧ '>' ∉ text := by simpa using h
    have hstep : step ⟨.instruction read, opened, found⟩ c =
        ⟨.instruction (c :: read), opened, found⟩ := by
      simp [step, goTo, hc.symm]
    rw [List.foldl_cons, hstep, ih htext, List.reverse_cons, List.append_assoc,
      List.singleton_append]

/-- A processing instruction without a closing angle bracket in it is passed over. -/
theorem foldl_instruction (hne : cs ≠ []) (h : '>' ∉ cs) :
    ("<?".toList ++ cs ++ "?>".toList).foldl step ⟨.content, opened, found⟩ =
      ⟨.content, opened, found⟩ := by
  have htext : "<?".toList ++ cs ++ "?>".toList = '<' :: '?' :: (cs ++ ['?']) ++ ['>'] := by simp
  rw [htext]
  change (cs ++ ['?'] ++ ['>']).foldl step ⟨.instruction [], opened, found⟩ = _
  rw [List.foldl_append, foldl_inInstruction (by simp [h]), List.foldl_cons, List.foldl_nil]
  obtain ⟨c, rest, hreverse⟩ := List.exists_cons_of_ne_nil (List.reverse_ne_nil_iff.2 hne)
  simp [step, endInstruction, hreverse, goTo]

/-- One with a closing angle bracket in it ends there and is malformed. -/
theorem foldl_instruction_malformed (h : ¬['?', '>'] <:+: cs) (hclose : '>' ∈ cs) :
    ("<?".toList ++ cs ++ "?>".toList).foldl step ⟨.content, opened, found⟩ =
      ⟨.nowhere, opened, .malformed :: found⟩ := by
  obtain ⟨before, after, rfl, hbefore⟩ := List.eq_append_cons_of_mem hclose
  have htext : "<?".toList ++ (before ++ '>' :: after) ++ "?>".toList =
      '<' :: '?' :: before ++ '>' :: (after ++ ['?', '>']) := by
    simp
  rw [htext]
  change (before ++ '>' :: (after ++ ['?', '>'])).foldl step ⟨.instruction [], opened, found⟩ = _
  rw [List.foldl_append, foldl_inInstruction hbefore, List.foldl_cons, List.append_nil]
  have hend : step ⟨.instruction before.reverse, opened, found⟩ '>' =
      ⟨.nowhere, opened, .malformed :: found⟩ := by
    change endInstruction _ before.reverse = _
    unfold endInstruction
    split
    case h_1 c rest hreverse =>
      have hquestion : before = (c :: rest).reverse ++ ['?'] := by
        rw [← List.reverse_cons, ← hreverse, List.reverse_reverse]
      exact absurd ⟨(c :: rest).reverse, after, by simp [hquestion]⟩ h
    case h_2 => rfl
  rw [hend, foldl_nowhere]

end Scanner

/-! ### Trees are read -/

namespace Piece

open Scanner

mutual

/-- **A piece is read as its tags**, up to a malformed one. -/
theorem scans (p : Piece) (opened : List (List Char)) : Scans opened p.render p.tags opened := by
  match p with
  | .text cs h => exact .of_foldl fun found => foldl_content h
  | .comment cs h => exact .of_foldl fun found => foldl_comment h
  | .characterData cs h => exact .of_foldl fun found => foldl_characterData h
  | .documentType cs h => exact .of_foldl fun found => foldl_documentType h
  | .instruction cs hne h =>
    rw [tags]
    split
    case isTrue hclose =>
      exact fun found => .inr ⟨[], [], opened, rfl, foldl_instruction_malformed h hclose⟩
    case isFalse hclose => exact .of_foldl fun found => foldl_instruction hne hclose
  | .empty t =>
    exact .of_foldl fun found => foldl_emptyTag t.isName_name t.inside_rest t.isSpace_head?_rest
  | .element t content blanks h =>
    -- the content is read with the name of the element on top of those that were open
    have hopening : Scans opened ('<' :: (t.name.toList ++ t.rest) ++ ['>']) [.opening t.toTag]
        (t.name.toList :: opened) := .of_foldl fun found =>
      foldl_openingTag t.isName_name t.inside_rest t.isSpace_head?_rest t.getLast?_text_ne
    have hclosing : Scans (t.name.toList :: opened)
        ('<' :: '/' :: (t.name.toList ++ blanks) ++ ['>']) [.closing] opened :=
      .of_foldl fun found => foldl_closingTag t.isName_name h
    exact hopening.append ((scansAll content (t.name.toList :: opened)).append hclosing)

theorem scansAll (ps : List Piece) (opened : List (List Char)) :
    Scans opened (renderAll ps) (tagsOfAll ps) opened := by
  match ps with
  | [] => exact .of_foldl fun found => rfl
  | p :: ps => exact (scans p opened).append (scansAll ps opened)

end

end Piece

namespace Document

/-- Only white space or an angle bracket starts a document. -/
theorem head?_renderAll {before after : List Piece} {root : Piece}
    (hbefore : before.all (·.isBeside) = true) (hroot : root.isElement = true) :
    (Piece.renderAll (before ++ root :: after)).head? ≠ some '\ufeff' := by
  have hopen (cs rest : List Char) : ('<' :: cs ++ rest).head? ≠ some '\ufeff' := by simp
  induction before with
  | nil =>
    rw [List.nil_append, Piece.renderAll]
    cases root with
    | empty t => exact hopen _ _
    | element t content blanks h => exact hopen _ _
    | _ => cases hroot
  | cons p before ih =>
    rw [List.all_cons, Bool.and_eq_true] at hbefore
    rw [List.cons_append, Piece.renderAll]
    cases p with
    | text cs h =>
      cases cs with
      | nil => exact ih hbefore.2
      | cons c cs =>
        intro hmark
        obtain rfl : c = '\ufeff' := Option.some.inj hmark
        exact absurd (List.all_eq_true.1 hbefore.1 '\ufeff' List.mem_cons_self) (by decide)
    | comment cs h => exact hopen (['!', '-', '-'] ++ cs ++ "-->".toList) _
    | documentType cs h => exact hopen ("!DOCTYPE".toList ++ cs ++ ['>']) _
    | instruction cs hne h => exact hopen ('?' :: cs ++ "?>".toList) _
    | _ => cases hbefore.1

/-- No byte order mark is dropped that was not put. -/
theorem dropByteOrderMark_render (d : Document) :
    dropByteOrderMark d.render.toList = Piece.renderAll d.pieces := by
  rw [render, String.toList_ofList]
  cases d.mark with
  | true => rfl
  | false =>
    exact dropByteOrderMark_of_head? (head?_renderAll d.isBeside_before d.isElement_root)

/-- The tags that are found in a document are its tags, up to a malformed one. -/
theorem events_render (d : Document) : events d.render = d.tags ∨
    ∃ before after, d.tags = before ++ .malformed :: after ∧
      events d.render = before ++ [.malformed] := by
  have hscans := Piece.scansAll d.pieces [] []
  rw [events, dropByteOrderMark_render]
  obtain hread | ⟨before, after, opened, htags, hread⟩ := hscans
  · left
    rw [hread]
    simp [Scanner.finish, tags]
  · refine .inr ⟨before, after, htags, ?_⟩
    rw [hread]
    simp [Scanner.finish]

end Document

end Markup

end QueryEditor
