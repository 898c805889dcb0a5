import QueryEditor.Proofs.MarkupTrees

/-!
# What the attributes of a tag say

The value of an attribute consists of characters and of references to characters
(`Markup.parts?`).  It says what they name (`Markup.said?`), a number in as many digits as one
likes.  The reader takes a value for what it says unless a number in it has more digits than the
largest one that a character can have.

* `Markup.parts?_eq_some_iff` : how a value is taken apart.
* `Markup.unescape?_eq` : **what is read of a value.**
* `Markup.StartTag.attributes?_toTag` : what is read of a tag, whatever white space and quotes
  there are in it.
* `Markup.StartTag.valueIn?_written` : the value of an attribute with a given name.
-/

namespace QueryEditor

namespace Markup

/-! ### References -/

/-- The names that need no number. -/
def entities : List (String × Char) :=
  [("lt", '<'), ("gt", '>'), ("amp", '&'), ("apos", '\''), ("quot", '"')]

/-- The character that a reference names. -/
def named? : List Char → Option Char
  | '#' :: 'x' :: cs =>
    (cs.mapM Guid.hexDigit?).bind fun ds => charOfNumber? (Guid.ofHexDigits ds)
  | '#' :: cs => (Numeral.continueFrom? 0 cs).bind charOfNumber?
  | cs => (entities.find? (·.1.toList == cs)).map (·.2)

/-- Whether a number has at most as many digits as the largest one of a character. -/
def isShortName : List Char → Bool
  | '#' :: 'x' :: cs => cs.length ≤ 6
  | '#' :: cs => cs.length ≤ 7
  | _ => true

/-- **A reference is read** unless its number is too long. -/
theorem reference?_eq (name : List Char) :
    reference? name = if isShortName name then named? name else none := by
  fun_cases isShortName name with
  | case1 cs => simp only [reference?, named?, decide_eq_true_eq]
  | case2 cs hhex => simp only [reference?, named?, decide_eq_true_eq]
  | case3 hhex hdecimal =>
    have hread : named? name = (entities.find? (·.1.toList == name)).map (·.2) := by
      simp only [named?]
    rw [if_pos rfl, hread]
    simp only [reference?, entities, List.find?_cons, List.find?_nil]
    grind

/-! ### Values -/

/-- A part of a value: a character or a reference to one. -/
inductive Part
  | char (c : Char)
  | reference (name : List Char)
  deriving DecidableEq

namespace Part

/-- How it is written. -/
def text : Part → List Char
  | char c => [c]
  | reference name => '&' :: (name ++ [';'])

/-- Whether it can stand in a value. -/
def IsPlain : Part → Prop
  | char c => c ≠ '&'
  | reference name => ';' ∉ name ∧ '&' ∉ name

/-- The character that it stands for. -/
def char? : Part → Option Char
  | char c => some c
  | reference name => named? name

/-- The character that is read. -/
def read? : Part → Option Char
  | char c => some c
  | reference name => reference? name

/-- Whether it has no number that is too long. -/
def isShort : Part → Bool
  | char _ => true
  | reference name => isShortName name

theorem read?_eq (p : Part) : p.read? = if p.isShort then p.char? else none := by
  cases p with
  | char c => rfl
  | reference name => exact reference?_eq name

end Part

/-- Takes what is left of a value apart; `name` is what was read of a reference, last character
first. -/
def partsFrom? : Option (List Char) → List Char → Option (List Part)
  | none, [] => some []
  | some _, [] => none
  | none, c :: cs =>
    if c = '&' then partsFrom? (some []) cs else (partsFrom? none cs).map (.char c :: ·)
  | some name, c :: cs =>
    if c = ';' then (partsFrom? none cs).map (.reference name.reverse :: ·)
    else if c = '&' then none
    else partsFrom? (some (c :: name)) cs

/-- The parts of a value. -/
def parts? (cs : List Char) : Option (List Part) := partsFrom? none cs

/-- What a value says, if every reference in it names a character. -/
def said? (cs : List Char) : Option (List Char) := (parts? cs).bind (·.mapM Part.char?)

/-- Whether no number in a value is too long. -/
def isShort (cs : List Char) : Bool := (parts? cs).all (·.all Part.isShort)

/-- What was read of a value so far. -/
def openText : Option (List Char) → List Char
  | none => []
  | some name => '&' :: name.reverse

theorem text_of_partsFrom? {st : Option (List Char)} {cs : List Char} {ps : List Part}
    (h : partsFrom? st cs = some ps) : ps.flatMap Part.text = openText st ++ cs := by
  fun_induction partsFrom? st cs generalizing ps with
  | case1 => obtain rfl := Option.some.inj h; rfl
  | case2 name => cases h
  | case3 cs ih => exact ih h
  | case4 c cs hc ih =>
    obtain ⟨ps', hps, rfl⟩ := Option.map_eq_some_iff.1 h
    rw [List.flatMap_cons, ih hps]
    rfl
  | case5 name cs ih =>
    obtain ⟨ps', hps, rfl⟩ := Option.map_eq_some_iff.1 h
    rw [List.flatMap_cons, ih hps]
    simp [Part.text, openText]
  | case6 name cs hc => cases h
  | case7 name c cs hend hamp ih =>
    rw [ih h]
    simp [openText]

theorem isPlain_of_partsFrom? {st : Option (List Char)} {cs : List Char} {ps : List Part}
    (hst : ∀ name ∈ st, (Part.reference name).IsPlain) (h : partsFrom? st cs = some ps) :
    ∀ p ∈ ps, p.IsPlain := by
  -- what was read of a reference so far can stand in one, and so can each character after it
  fun_induction partsFrom? st cs generalizing ps with
  | case1 => obtain rfl := Option.some.inj h; simp
  | case2 name => cases h
  | case3 cs ih => exact ih (by simp [Part.IsPlain]) h
  | case4 c cs hc ih =>
    obtain ⟨ps', hps, rfl⟩ := Option.map_eq_some_iff.1 h
    exact List.forall_mem_cons.2 ⟨hc, ih (by simp) hps⟩
  | case5 name cs ih =>
    obtain ⟨ps', hps, rfl⟩ := Option.map_eq_some_iff.1 h
    have hname : (Part.reference name).IsPlain := hst name rfl
    exact List.forall_mem_cons.2 ⟨by simpa [Part.IsPlain] using hname, ih (by simp) hps⟩
  | case6 name cs hc => cases h
  | case7 name c cs hend hamp ih =>
    have hname : (Part.reference name).IsPlain := hst name rfl
    refine ih (fun name' hname' => ?_) h
    obtain rfl := Option.some.inj hname'
    simpa [Part.IsPlain, Ne.symm hend, Ne.symm hamp] using hname

theorem partsFrom?_reference {name : List Char} (h : (Part.reference name).IsPlain)
    (read cs : List Char) :
    partsFrom? (some read) (name ++ ';' :: cs) =
      (partsFrom? none cs).map (.reference (read.reverse ++ name) :: ·) := by
  induction name generalizing read with
  | nil => simp [partsFrom?]
  | cons c name ih =>
    obtain ⟨⟨hend, hends⟩, hamp, hamps⟩ : (';' ≠ c ∧ ';' ∉ name) ∧ '&' ≠ c ∧ '&' ∉ name := by
      simpa [Part.IsPlain] using h
    rw [List.cons_append, partsFrom?, if_neg hend.symm, if_neg hamp.symm, ih ⟨hends, hamps⟩]
    simp

/-- **How a value is taken apart**: the parts are what it is written as. -/
theorem parts?_eq_some_iff {cs : List Char} {ps : List Part} :
    parts? cs = some ps ↔ ps.flatMap Part.text = cs ∧ ∀ p ∈ ps, p.IsPlain := by
  constructor
  · exact fun h => ⟨text_of_partsFrom? h, isPlain_of_partsFrom? (by simp) h⟩
  · rintro ⟨rfl, hplain⟩
    induction ps with
    | nil => rfl
    | cons p ps ih =>
      obtain ⟨hp, hps⟩ := List.forall_mem_cons.1 hplain
      have hrest : partsFrom? none (ps.flatMap Part.text) = some ps := ih hps
      rw [List.flatMap_cons, parts?]
      cases p with
      | char c =>
        change partsFrom? none (c :: ps.flatMap Part.text) = _
        rw [partsFrom?, if_neg hp, hrest]
        rfl
      | reference name =>
        change partsFrom? none ('&' :: (name ++ [';'] ++ ps.flatMap Part.text)) = _
        rw [partsFrom?, if_pos rfl, List.append_assoc, List.singleton_append,
          partsFrom?_reference hp, hrest]
        rfl

theorem bind_mapM_cons (f : Part → Option Char) (p : Part) (parts : Option (List Part)) :
    (parts.map (p :: ·)).bind (·.mapM f) =
      (f p).bind fun d => (parts.bind (·.mapM f)).map (d :: ·) := by
  cases parts with
  | none => cases f p <;> rfl
  | some ps =>
    rw [Option.map_some, Option.bind_some, Option.bind_some, List.mapM_cons]
    cases f p with
    | none => rfl
    | some d => cases ps.mapM f <;> rfl

/-- A value is read part by part. -/
theorem unescapeFrom?_eq_mapM (st : Option (List Char)) (cs : List Char) :
    unescapeFrom? st cs = (partsFrom? st cs).bind (·.mapM Part.read?) := by
  fun_induction partsFrom? st cs with
  | case1 => rfl
  | case2 name => rfl
  | case3 cs ih => rw [unescapeFrom?, if_pos rfl, ih]
  | case4 c cs hc ih => rw [unescapeFrom?, if_neg hc, ih, bind_mapM_cons]; rfl
  | case5 name cs ih => rw [unescapeFrom?, if_pos rfl, ih, bind_mapM_cons]; rfl
  | case6 name cs hc => rw [unescapeFrom?, if_neg (by decide), if_pos rfl]; rfl
  | case7 name c cs hend hamp ih => rw [unescapeFrom?, if_neg hend, if_neg hamp, ih]

theorem mapM_read? (ps : List Part) :
    ps.mapM Part.read? = if ps.all Part.isShort then ps.mapM Part.char? else none := by
  induction ps with
  | nil => rfl
  | cons p ps ih =>
    rw [List.mapM_cons, List.mapM_cons, List.all_cons, p.read?_eq, ih]
    cases p.isShort with
    | false => rfl
    | true =>
      cases ps.all Part.isShort with
      | false => cases p.char? <;> rfl
      | true => rfl

/-- **What is read of a value**: what it says, unless a number in it is too long. -/
theorem unescape?_eq (cs : List Char) :
    unescape? cs = if isShort cs then said? cs else none := by
  rw [unescape?, unescapeFrom?_eq_mapM, isShort, said?, ← parts?]
  cases parts? cs with
  | none => rfl
  | some ps => exact mapM_read? ps

/-! ### Tags -/

namespace Tag

/-- White space is passed over where a single blank is. -/
theorem attributesFrom?_blanks {place : Place} {blanks : List Char}
    (hplace : ∀ c cs, isSpace c = true →
      attributesFrom? place (c :: cs) = attributesFrom? place cs)
    (h : blanks.all isSpace = true) (rest : List Char) :
    attributesFrom? place (blanks ++ rest) = attributesFrom? place rest := by
  induction blanks with
  | nil => rfl
  | cons c blanks ih =>
    rw [List.all_cons, Bool.and_eq_true] at h
    rw [List.cons_append, hplace c _ h.1, ih h.2]

theorem attributesFrom?_between {blanks : List Char} (h : blanks.all isSpace = true)
    (rest : List Char) :
    attributesFrom? .between (blanks ++ rest) = attributesFrom? .between rest :=
  attributesFrom?_blanks (fun c cs hc => by rw [attributesFrom?, if_pos hc]) h rest

theorem attributesFrom?_afterName {blanks : List Char} (h : blanks.all isSpace = true)
    (name rest : List Char) :
    attributesFrom? (.afterName name) (blanks ++ rest) =
      attributesFrom? (.afterName name) rest :=
  attributesFrom?_blanks (fun c cs hc => by rw [attributesFrom?, if_pos hc]) h rest

theorem attributesFrom?_beforeValue {blanks : List Char} (h : blanks.all isSpace = true)
    (name rest : List Char) :
    attributesFrom? (.beforeValue name) (blanks ++ rest) =
      attributesFrom? (.beforeValue name) rest :=
  attributesFrom?_blanks (fun c cs hc => by rw [attributesFrom?, if_pos hc]) h rest

theorem attributesFrom?_inName_append {cs : List Char} (h : ∀ c ∈ cs, isNameChar c = true)
    (read rest : List Char) :
    attributesFrom? (.inName read) (cs ++ rest) =
      attributesFrom? (.inName (cs.reverse ++ read)) rest := by
  induction cs generalizing read with
  | nil => rfl
  | cons c cs ih =>
    obtain ⟨hc, hcs⟩ := List.forall_mem_cons.1 h
    have heq : c ≠ '=' := ne_of_isNameChar hc (by decide)
    have hspace : ¬isSpace c = true := by simp [isSpace_of_isNameChar hc]
    rw [List.cons_append, attributesFrom?, if_neg heq, if_neg hspace, ih hcs]
    simp

/-- White space may stand between a name and the equals sign. -/
theorem attributesFrom?_inName_blanks {cs blanks : List Char}
    (h : ∀ c ∈ cs, isNameChar c = true) (hblanks : blanks.all isSpace = true)
    (read rest : List Char) :
    attributesFrom? (.inName read) (cs ++ (blanks ++ '=' :: rest)) =
      attributesFrom? (.beforeValue (read.reverse ++ cs)) rest := by
  have hname : (cs.reverse ++ read).reverse = read.reverse ++ cs := by simp
  rw [attributesFrom?_inName_append h]
  cases blanks with
  | nil => rw [List.nil_append, attributesFrom?, if_pos rfl, hname]
  | cons b blanks =>
    rw [List.all_cons, Bool.and_eq_true] at hblanks
    have hb : b ≠ '=' := by
      rintro rfl
      exact absurd hblanks.1 (by decide)
    have hequals : ¬isSpace '=' = true := by decide
    rw [List.cons_append, attributesFrom?, if_neg hb, if_pos hblanks.1,
      attributesFrom?_afterName hblanks.2, attributesFrom?, if_neg hequals, if_pos rfl, hname]

end Tag

namespace NamedValue

/-- An attribute with its value as written. -/
def written (a : NamedValue) : List Char × List Char := (a.name.toList, a.value)

/-- One attribute is read, then the rest. -/
theorem attributesFrom?_text (a : NamedValue) (rest : List Char) :
    Tag.attributesFrom? .between (a.text ++ rest) =
      (Tag.attributesFrom? .between rest).map (a.written :: ·) := by
  obtain ⟨c, cs, hname⟩ := List.exists_cons_of_ne_nil (toList_ne_nil_of_isName a.isName_name)
  have hchars := isNameChar_of_isName a.isName_name
  rw [hname] at hchars
  obtain ⟨hc, hcs⟩ := List.forall_mem_cons.1 hchars
  have htext : a.text ++ rest = a.before ++ (c :: (cs ++ (a.beforeEquals ++ '=' ::
      (a.afterEquals ++ (a.quote :: (a.value ++ a.quote :: rest)))))) := by
    simp [text, hname]
  have hspace : ¬isSpace c = true := by simp [isSpace_of_isNameChar hc]
  have hquote : ¬isSpace a.quote = true := by
    obtain hquote | hquote := a.quote_eq
    all_goals rw [hquote]; decide
  have hwritten : a.written = ([c].reverse ++ cs, [].reverse ++ a.value) := by
    simp [written, hname]
  rw [htext, Tag.attributesFrom?_between a.isSpace_before, Tag.attributesFrom?, if_neg hspace,
    Tag.attributesFrom?_inName_blanks hcs a.isSpace_beforeEquals,
    Tag.attributesFrom?_beforeValue a.isSpace_afterEquals, Tag.attributesFrom?, if_neg hquote,
    if_pos a.quote_eq, Tag.attributesFrom?_inValue a.quote_not_mem, hwritten]

end NamedValue

namespace StartTag

/-- The names of the attributes differ, and each of them says something. -/
structure IsWellFormed (t : StartTag) : Prop where
  nodup : (t.attributes.map (·.name)).Nodup
  isSome_said : ∀ a ∈ t.attributes, (said? a.value).isSome = true

instance (t : StartTag) : Decidable t.IsWellFormed :=
  decidable_of_iff ((t.attributes.map (·.name)).Nodup ∧
    ∀ a ∈ t.attributes, (said? a.value).isSome = true)
    ⟨fun h => ⟨h.1, h.2⟩, fun h => ⟨h.nodup, h.isSome_said⟩⟩

/-- What the attribute of this name says. -/
def value? (t : StartTag) (name : String) : Option (List Char) :=
  (t.attributes.find? (·.name == name)).bind fun a => said? a.value

/-- Whether no number in the attribute of this name is too long. -/
def isShort (t : StartTag) (name : String) : Bool :=
  (t.attributes.find? (·.name == name)).all fun a => Markup.isShort a.value

/-- The attributes with their values as written. -/
def written (t : StartTag) : List (List Char × List Char) := t.attributes.map (·.written)

theorem attributesFrom?_rest (t : StartTag) :
    Tag.attributesFrom? .between t.rest = some t.written := by
  have hattributes (as : List NamedValue) :
      Tag.attributesFrom? .between (as.flatMap (·.text) ++ t.after) =
        some (as.map (·.written)) := by
    induction as with
    | nil => exact Tag.attributesFrom?_of_all_isSpace t.isSpace_after
    | cons a as ih =>
      rw [List.flatMap_cons, List.append_assoc, a.attributesFrom?_text, ih]
      rfl
  exact hattributes t.attributes

/-- **The attributes of a tag are read**, whatever white space and quotes there are in it. -/
theorem attributes?_toTag {t : StartTag} (h : (t.attributes.map (·.name)).Nodup) :
    t.toTag.attributes? = some t.written := by
  have hnames : (t.written.map (·.1)).Nodup := by
    have hlists : t.written.map (·.1) = (t.attributes.map (·.name)).map String.toList := by
      simp [written, NamedValue.written, Function.comp_def]
    rw [hlists, List.Nodup, List.pairwise_map]
    exact h.imp fun hne heq => hne (String.toList_injective heq)
  change (Tag.attributesFrom? .between t.rest).bind _ = _
  rw [attributesFrom?_rest, Option.bind_some, if_pos hnames]

/-- **What is read of an attribute**: what it says, unless a number in it is too long. -/
theorem valueIn?_written {t : StartTag} (h : t.IsWellFormed) (name : String) :
    Tag.valueIn? t.written name = if t.isShort name then some (t.value? name) else none := by
  have hfind : t.written.find? (·.1 == name.toList) =
      (t.attributes.find? (·.name == name)).map (·.written) := by
    rw [written, List.find?_map]
    congr 2
    funext a
    rw [Function.comp_apply, NamedValue.written, Bool.eq_iff_iff]
    simp [String.toList_inj]
  unfold Tag.valueIn? isShort value?
  rw [hfind]
  cases hattribute : t.attributes.find? (·.name == name) with
  | none => rfl
  | some a =>
    obtain ⟨said, hsaid⟩ :=
      Option.isSome_iff_exists.1 (h.isSome_said a (List.mem_of_find?_eq_some hattribute))
    simp only [Option.map_some, Option.all_some, Option.bind_some, NamedValue.written]
    rw [unescape?_eq, hsaid]
    split <;> rfl

end StartTag

end Markup

end QueryEditor
