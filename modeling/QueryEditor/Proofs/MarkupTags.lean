import QueryEditor.Markup.Element
import QueryEditor.Markup.Tag

/-!
# Tags read back

What is written between the angle brackets of a tag is read as its name and its attributes,
whatever characters the values of the attributes have in them.

* `Markup.unescape?_escape` : the value of an attribute is read as it was before it was written.
* `Markup.Tag.ofText_tagText` : the name of an element ends where its attributes begin.
* `Markup.Tag.attributes?_written` : **the attributes are read in the order in which they were
  written.**
* `Markup.Tag.valueIn?_written` : an attribute is found by its name.
-/

namespace QueryEditor

namespace Markup

/-! ### Values -/

/-- A written character is read first, then the rest. -/
theorem unescapeFrom?_escapeChar (c : Char) (rest : List Char) :
    unescapeFrom? none (escapeChar c ++ rest) = (unescapeFrom? none rest).map (c :: ·) := by
  unfold escapeChar
  split
  case h_1 => rfl
  case h_2 => rfl
  case h_3 => rfl
  case h_4 => rfl
  case h_5 => rfl
  case h_6 hamp _ _ => exact if_neg hamp

/-- **The value of an attribute is read as it was before it was written.** -/
theorem unescape?_escape (cs : List Char) : unescape? (escape cs) = some cs := by
  unfold unescape? escape
  induction cs with
  | nil => rfl
  | cons c cs ih => rw [List.flatMap_cons, unescapeFrom?_escapeChar, ih, Option.map_some]

/-- Angle brackets and quotes are never written as they are. -/
theorem not_mem_escapeChar {d : Char} (hd : d ∈ ['<', '>', '\'', '"']) (c : Char) :
    d ∉ escapeChar c := by
  obtain rfl | rfl | rfl | rfl : d = '<' ∨ d = '>' ∨ d = '\'' ∨ d = '"' := by simpa using hd
  all_goals
    unfold escapeChar
    split
    case h_6 => rw [List.mem_singleton, eq_comm]; assumption
    all_goals decide

theorem not_mem_escape {d : Char} (hd : d ∈ ['<', '>', '\'', '"']) (cs : List Char) :
    d ∉ escape cs := by
  intro h
  obtain ⟨c, -, hc⟩ := List.mem_flatMap.1 h
  exact not_mem_escapeChar hd c hc

theorem quote_not_mem_escape (cs : List Char) : '"' ∉ escape cs := not_mem_escape (by decide) cs

/-! ### Names -/

/-- A character that neither ends a name nor starts other markup. -/
def isNameChar (c : Char) : Bool := !isSpace c && !"<>/=!?\"'".toList.contains c

/-- Whether a text can be the name of an element or an attribute. -/
def isName (name : String) : Bool := !name.toList.isEmpty && name.toList.all isNameChar

theorem isNameChar_of_isName {name : String} (h : isName name = true) :
    ∀ c ∈ name.toList, isNameChar c = true := by
  unfold isName at h
  rw [Bool.and_eq_true, List.all_eq_true] at h
  exact h.2

theorem toList_ne_nil_of_isName {name : String} (h : isName name = true) : name.toList ≠ [] := by
  unfold isName at h
  rw [Bool.and_eq_true] at h
  simpa using h.1

theorem isSpace_of_isNameChar {c : Char} (h : isNameChar c = true) : isSpace c = false := by
  unfold isNameChar at h
  rw [Bool.and_eq_true] at h
  simpa using h.1

theorem ne_of_isNameChar {c d : Char} (h : isNameChar c = true) (hd : isNameChar d = false) :
    c ≠ d := by
  rintro rfl
  rw [h] at hd
  cases hd

/-- The names of attributes can be looked at without their values. -/
theorem forall_isName {attributes : List (String × String)}
    (h : ∀ name ∈ attributes.map (·.1), isName name = true) :
    ∀ a ∈ attributes, isName a.1 = true :=
  fun a ha => h a.1 (List.mem_map_of_mem ha)

namespace Tag

open Element (attributeText tagText)

variable {rest : List Char}

/-- A name ends where white space begins. -/
theorem ofText_name_append {name : String} (h : isName name = true)
    (hrest : ∀ c ∈ rest.head?, isSpace c = true) :
    ofText (name.toList ++ rest) = ⟨name.toList, rest⟩ := by
  have hname : ∀ c ∈ name.toList, (!isSpace c) = true := by
    intro c hc
    rw [isSpace_of_isNameChar (isNameChar_of_isName h c hc)]
    rfl
  unfold ofText
  rw [List.takeWhile_append_of_pos hname, List.dropWhile_append_of_pos hname]
  cases rest with
  | nil => simp
  | cons c rest => simp [hrest c rfl]

theorem isSpace_head?_flatMap_append (attributes : List (String × String))
    (hrest : ∀ c ∈ rest.head?, isSpace c = true) :
    ∀ c ∈ (attributes.flatMap attributeText ++ rest).head?, isSpace c = true := by
  cases attributes with
  | nil => exact hrest
  | cons a attributes =>
    rintro c hc
    obtain rfl : ' ' = c := Option.some.inj hc
    rfl

theorem isSpace_head?_flatMap (attributes : List (String × String)) :
    ∀ c ∈ (attributes.flatMap attributeText).head?, isSpace c = true := by
  have hspace : ∀ c ∈ (attributes.flatMap attributeText ++ []).head?, isSpace c = true :=
    isSpace_head?_flatMap_append attributes (by simp)
  rwa [List.append_nil] at hspace

theorem ofText_tagText {name : String} (h : isName name = true)
    (attributes : List (String × String)) :
    ofText (tagText name attributes) = ⟨name.toList, attributes.flatMap attributeText⟩ :=
  ofText_name_append h (isSpace_head?_flatMap attributes)

/-! ### Attributes -/

theorem attributesFrom?_inName {cs : List Char} (h : ∀ c ∈ cs, isNameChar c = true)
    (read rest : List Char) :
    attributesFrom? (.inName read) (cs ++ '=' :: rest) =
      attributesFrom? (.beforeValue (read.reverse ++ cs)) rest := by
  induction cs generalizing read with
  | nil => simp [attributesFrom?]
  | cons c cs ih =>
    obtain ⟨hc, hcs⟩ := List.forall_mem_cons.1 h
    have heq : c ≠ '=' := ne_of_isNameChar hc (by decide)
    simp [attributesFrom?, heq, isSpace_of_isNameChar hc, ih hcs]

theorem attributesFrom?_inValue {cs : List Char} {quote : Char} (h : quote ∉ cs)
    (name read rest : List Char) :
    attributesFrom? (.inValue name quote read) (cs ++ quote :: rest) =
      (attributesFrom? .between rest).map ((name, read.reverse ++ cs) :: ·) := by
  induction cs generalizing read with
  | nil => simp [attributesFrom?]
  | cons c cs ih =>
    obtain ⟨hc, hcs⟩ : quote ≠ c ∧ quote ∉ cs := by simpa using h
    simp [attributesFrom?, hc.symm, ih hcs]

/-- An attribute as it stands in a tag. -/
def written (a : String × String) : List Char × List Char := (a.1.toList, escape a.2.toList)

/-- One attribute is read, then the rest. -/
theorem attributesFrom?_attributeText {a : String × String} (h : isName a.1 = true) :
    attributesFrom? .between (attributeText a ++ rest) =
      (attributesFrom? .between rest).map (written a :: ·) := by
  unfold attributeText written
  have hvalue := attributesFrom?_inValue (quote_not_mem_escape a.2.toList) a.1.toList [] rest
  cases hname : a.1.toList with
  | nil => exact absurd hname (toList_ne_nil_of_isName h)
  | cons c cs =>
    have hchars := isNameChar_of_isName h
    rw [hname] at hchars hvalue
    obtain ⟨hc, hcs⟩ := List.forall_mem_cons.1 hchars
    -- the name is read after its first character, the value after the opening quote
    have hinName := attributesFrom?_inName hcs [c] ('"' :: (escape a.2.toList ++ '"' :: rest))
    simp only [List.reverse_singleton, List.singleton_append] at hinName
    simp only [List.reverse_nil, List.nil_append] at hvalue
    have hspace : isSpace ' ' = true := rfl
    have hquote : isSpace '"' = false := rfl
    simpa [attributesFrom?, hspace, hquote, isSpace_of_isNameChar hc, hinName] using hvalue

/-- Attributes are read, then the rest. -/
theorem attributesFrom?_flatMap {attributes : List (String × String)}
    (h : ∀ a ∈ attributes, isName a.1 = true) :
    attributesFrom? .between (attributes.flatMap attributeText ++ rest) =
      (attributesFrom? .between rest).map (attributes.map written ++ ·) := by
  induction attributes with
  | nil => simp
  | cons a attributes ih =>
    obtain ⟨ha, has⟩ := List.forall_mem_cons.1 h
    rw [List.flatMap_cons, List.append_assoc, attributesFrom?_attributeText ha, ih has,
      Option.map_map]
    rfl

theorem attributesFrom?_of_all_isSpace (h : rest.all isSpace = true) :
    attributesFrom? .between rest = some [] := by
  induction rest with
  | nil => rfl
  | cons c rest ih =>
    rw [List.all_cons, Bool.and_eq_true] at h
    rw [attributesFrom?, if_pos h.1, ih h.2]

/-- White space may stand after the attributes. -/
theorem attributes?_written_append {name : List Char} {attributes : List (String × String)}
    (h : ∀ a ∈ attributes, isName a.1 = true) (hnodup : (attributes.map (·.1)).Nodup)
    (hrest : rest.all isSpace = true) :
    Tag.attributes? ⟨name, attributes.flatMap attributeText ++ rest⟩ =
      some (attributes.map written) := by
  have hnames : ((attributes.map written).map (·.1)).Nodup := by
    have hlists : (attributes.map written).map (·.1) =
        (attributes.map (·.1)).map String.toList := by
      simp [written, Function.comp_def]
    rw [hlists, List.Nodup, List.pairwise_map]
    exact hnodup.imp fun hne heq => hne (String.toList_injective heq)
  rw [attributes?, attributesFrom?_flatMap h, attributesFrom?_of_all_isSpace hrest,
    Option.map_some, List.append_nil, Option.bind_some, if_pos hnames]

/-- **The attributes of a tag are read in the order in which they were written.** -/
theorem attributes?_written {name : List Char} {attributes : List (String × String)}
    (h : ∀ a ∈ attributes, isName a.1 = true) (hnodup : (attributes.map (·.1)).Nodup) :
    Tag.attributes? ⟨name, attributes.flatMap attributeText⟩ = some (attributes.map written) := by
  have happend : Tag.attributes? ⟨name, attributes.flatMap attributeText ++ []⟩ =
      some (attributes.map written) := attributes?_written_append h hnodup rfl
  rwa [List.append_nil] at happend

/-- An attribute is found by its name. -/
theorem valueIn?_written (attributes : List (String × String)) (name : String) :
    valueIn? (attributes.map written) name =
      some ((attributes.find? (·.1 == name)).map (·.2.toList)) := by
  have hfind : (attributes.map written).find? (·.1 == name.toList) =
      (attributes.find? (·.1 == name)).map written := by
    rw [List.find?_map]
    congr 2
    funext a
    rw [Function.comp_apply, written, Bool.eq_iff_iff]
    simp [String.toList_inj]
  unfold valueIn?
  rw [hfind]
  cases attributes.find? (·.1 == name) with
  | none => rfl
  | some a => simp [written, unescape?_escape]

end Tag

end Markup

end QueryEditor
