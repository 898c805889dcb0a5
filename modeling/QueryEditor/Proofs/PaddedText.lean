import Mathlib.Data.List.Forall2
import QueryEditor.Literal
import QueryEditor.Operator.Table
import QueryEditor.Proofs.ValueLists
import QueryEditor.Schema.Basic

/-!
# Text with white space around it

White space that is added before or after a text is not seen by anything that reads the text:
names of attributes and operators, literals of every type, patterns and lists of values.

* `Text.trimmed_padded` : trimming drops what was added, and nothing else (`Text.padded_trim`).
* `Text.trimmed_append_cons` : a character that is no white space stays where it is.
* `Literal.hasOpenRange_eq` : only the brackets of a pattern count.
* `Literal.rejection?_padded`, `ValueList.split_padded` : a literal is accepted or turned away, and
  a list is taken apart, as without the white space.
-/

namespace QueryEditor

namespace Text

variable {before after cs : List Char}

theorem trimLeft_append (h : before.all isBlank) : trimLeft (before ++ cs) = trimLeft cs :=
  List.dropWhile_append_of_pos (List.all_eq_true.1 h)

theorem trimRight_append (h : after.all isBlank) : trimRight (cs ++ after) = trimRight cs := by
  rw [trimRight, List.reverse_append, trimLeft_append (by rwa [List.all_reverse]), trimRight]

/-- **Trimming drops white space that was added.** -/
theorem trimmed_padded (hbefore : before.all isBlank) (hafter : after.all isBlank) :
    trimmed (before ++ cs ++ after) = trimmed cs := by
  by_cases hcs : cs.all isBlank
  case pos =>
    rw [trimmed_of_all hcs, trimmed_of_all (by simp [hbefore, hafter, hcs])]
  case neg =>
    -- something is left of `cs`, so that what follows it stays until it is trimmed at the end
    have hleft : trimLeft (cs ++ after) = trimLeft cs ++ after := by
      rw [← trimLeft_eq_nil_iff] at hcs
      rw [trimLeft, List.dropWhile_append, if_neg (by simpa [trimLeft] using hcs), trimLeft]
    rw [trimmed, List.append_assoc, trimLeft_append hbefore, hleft, trimRight_append hafter,
      trimmed]

/-- The second text is the first one with white space before and after it. -/
def Padded (text padded : String) : Prop :=
  ∃ before after : List Char, before.all isBlank ∧ after.all isBlank ∧
    padded.toList = before ++ text.toList ++ after

namespace Padded

variable {text padded : String}

theorem refl (text : String) : Padded text text := ⟨[], [], rfl, rfl, by simp⟩

theorem trimmed_eq (h : Padded text padded) : trimmed padded.toList = trimmed text.toList := by
  obtain ⟨before, after, hbefore, hafter, heq⟩ := h
  rw [heq, trimmed_padded hbefore hafter]

theorem trim_eq (h : Padded text padded) : trim padded = trim text := by
  rw [trim, trim, h.trimmed_eq]

theorem blank_eq (h : Padded text padded) : blank padded = blank text := by
  rw [Bool.eq_iff_iff, blank, blank, ← trimmed_eq_nil_iff, ← trimmed_eq_nil_iff, h.trimmed_eq]

end Padded

theorem exists_trimRight (cs : List Char) :
    ∃ after : List Char, after.all isBlank ∧ trimRight cs ++ after = cs := by
  refine ⟨(cs.reverse.takeWhile isBlank).reverse, ?_, ?_⟩
  · rw [List.all_reverse]
    exact List.all_takeWhile
  · rw [trimRight, ← List.reverse_append, trimLeft, List.takeWhile_append_dropWhile,
      List.reverse_reverse]

theorem exists_trimmed (cs : List Char) : ∃ before after : List Char,
    before.all isBlank ∧ after.all isBlank ∧ cs = before ++ trimmed cs ++ after := by
  obtain ⟨after, hafter, hright⟩ := exists_trimRight (trimLeft cs)
  refine ⟨cs.takeWhile isBlank, after, List.all_takeWhile, hafter, ?_⟩
  rw [trimmed, List.append_assoc, hright, trimLeft, List.takeWhile_append_dropWhile]

/-- **A text is what trimming leaves of it, with white space around that.** -/
theorem padded_trim (text : String) : Padded (trim text) text := by
  obtain ⟨before, after, hbefore, hafter, heq⟩ := exists_trimmed text.toList
  exact ⟨before, after, hbefore, hafter, by rw [trim, String.toList_ofList, ← heq]⟩

/-- Trimming twice is trimming once. -/
theorem trim_trim (text : String) : trim (trim text) = trim text := (padded_trim text).trim_eq.symm

/-! ### White space around a character -/

section Character

variable {c : Char}

theorem trimLeft_append_cons (h : isBlank c = false) :
    trimLeft (before ++ c :: after) = trimLeft before ++ c :: after := by
  rw [trimLeft, List.dropWhile_append]
  split
  case isTrue hempty =>
    rw [List.dropWhile_cons_of_neg (by simp [h]), trimLeft, List.isEmpty_iff.1 hempty,
      List.nil_append]
  case isFalse => rfl

theorem trimRight_append_cons (h : isBlank c = false) :
    trimRight (before ++ c :: after) = before ++ c :: trimRight after := by
  have hreverse : (before ++ c :: after).reverse = after.reverse ++ c :: before.reverse := by simp
  rw [trimRight, hreverse, trimLeft_append_cons h, trimRight]
  simp

/-- **A character that is no white space stays**, and what stands before and after it is trimmed on
the other side only. -/
theorem trimmed_append_cons (h : isBlank c = false) :
    trimmed (before ++ c :: after) = trimLeft before ++ c :: trimRight after := by
  rw [trimmed, trimLeft_append_cons h, trimRight_append_cons h]

theorem trimmed_trimLeft (cs : List Char) : trimmed (trimLeft cs) = trimmed cs := by
  rw [trimmed, trimLeft, trimLeft, List.dropWhile_idempotent, trimmed, trimLeft]

theorem trimmed_trimRight (cs : List Char) : trimmed (trimRight cs) = trimmed cs := by
  obtain ⟨after, hafter, heq⟩ := exists_trimRight cs
  calc trimmed (trimRight cs)
      = trimmed ([] ++ trimRight cs ++ after) := (trimmed_padded rfl hafter).symm
    _ = trimmed cs := by rw [List.nil_append, heq]

theorem not_mem_of_all (h : cs.all isBlank) (hc : isBlank c = false) : c ∉ cs := by
  intro hmem
  rw [List.all_eq_true.1 h c hmem] at hc
  cases hc

/-- Only white space is added. -/
theorem Padded.mem_iff {text padded : String} (h : Padded text padded) (hc : isBlank c = false) :
    c ∈ padded.toList ↔ c ∈ text.toList := by
  obtain ⟨before, after, hbefore, hafter, heq⟩ := h
  simp [heq, not_mem_of_all hbefore hc, not_mem_of_all hafter hc]

end Character

end Text

open Text (Padded)

variable {text padded : String}

/-! ### Names -/

theorem Attribute.matchesText_padded (h : Padded text padded) (a : Attribute) :
    a.matchesText padded = a.matchesText text := by
  rw [matchesText, matchesText, h.trim_eq]

theorem Attribute.find?_padded (h : Padded text padded) (attributes : List Attribute) :
    Attribute.find? attributes padded = Attribute.find? attributes text := by
  simp only [Attribute.find?, matchesText_padded h]

theorem Operator.find?_padded (h : Padded text padded) :
    Operator.find? padded = Operator.find? text := by
  rw [Operator.find?, Operator.find?, h.trim_eq]

/-! ### Literals -/

namespace Literal

/-- The characters that open and close a character range. -/
def isBracket (c : Char) : Bool := c == '[' || c == ']'

theorem foldl_brackets (isOpen : Bool) (cs : List Char) :
    cs.foldl (fun isOpen c => if c = '[' then true else if c = ']' then false else isOpen) isOpen =
      match (cs.filter isBracket).getLast? with
      | some c => c == '['
      | none => isOpen := by
  induction cs generalizing isOpen with
  | nil => rfl
  | cons c cs ih =>
    rw [List.foldl_cons, ih, List.filter_cons]
    cases hc : isBracket c with
    | true =>
      -- a later bracket decides; if there is none, this one does
      rw [if_pos rfl, List.getLast?_cons]
      cases (cs.filter isBracket).getLast? with
      | some d => rfl
      | none =>
        obtain rfl | rfl : c = '[' ∨ c = ']' := by simpa [isBracket] using hc
        · rfl
        · rfl
    | false =>
      obtain ⟨hopen, hclose⟩ : c ≠ '[' ∧ c ≠ ']' := by simpa [isBracket] using hc
      rw [if_neg Bool.false_ne_true, if_neg hopen, if_neg hclose]

/-- **Only the last bracket of a pattern counts.** -/
theorem hasOpenRange_eq (pattern : String) :
    hasOpenRange pattern = ((pattern.toList.filter isBracket).getLast? == some '[') := by
  rw [hasOpenRange, foldl_brackets]
  cases (pattern.toList.filter isBracket).getLast? <;> rfl

theorem isBracket_of_isBlank {c : Char} (h : Text.isBlank c = true) : isBracket c = false := by
  rw [isBracket, Bool.or_eq_false_iff, beq_eq_false_iff_ne, beq_eq_false_iff_ne]
  constructor
  all_goals
    rintro rfl
    cases h

theorem hasOpenRange_padded (h : Padded text padded) :
    hasOpenRange padded = hasOpenRange text := by
  obtain ⟨before, after, hbefore, hafter, heq⟩ := h
  have hnone : ∀ cs : List Char, cs.all Text.isBlank → cs.filter isBracket = [] := by
    intro cs hcs
    refine List.filter_eq_nil_iff.2 fun c hc => ?_
    simp [isBracket_of_isBlank (List.all_eq_true.1 hcs c hc)]
  rw [hasOpenRange_eq, hasOpenRange_eq, heq, List.filter_append, List.filter_append,
    hnone before hbefore, hnone after hafter, List.nil_append, List.append_nil]

/-- **A literal is accepted or turned away as without the white space around it.** -/
theorem rejection?_padded (h : Padded text padded) (type : Option AttributeType) :
    rejection? type padded = rejection? type text := by
  cases type with
  | none => rw [rejection?, rejection?, h.blank_eq]
  | some t =>
    have hguid : Guid.literal? padded = Guid.literal? text := by
      rw [Guid.literal?, h.trim_eq, Guid.literal?]
    simp only [rejection?, rejectionAs?, TimestampLiteral.read?, hguid, h.trimmed_eq]

end Literal

/-! ### Lists of values -/

namespace ValueList

variable {separator : Char} {before after cs : List Char}

theorem forall₂_modifyHead {α : Type} {R : α → α → Prop} {f g : α → α} {xs ys : List α}
    (h : List.Forall₂ R xs ys) (hfg : ∀ x y, R x y → R (f x) (g y)) :
    List.Forall₂ R (xs.modifyHead f) (ys.modifyHead g) := by
  cases h with
  | nil => exact .nil
  | cons hfirst hrest => exact .cons (hfg _ _ hfirst) hrest

/-- White space at the end of a text goes to the last piece. -/
theorem forall₂_splitOn_append (hs : Text.isBlank separator = false)
    (h : after.all Text.isBlank) :
    List.Forall₂ (fun piece longer => ∃ extra : List Char, extra.all Text.isBlank ∧
      longer = piece ++ extra) (cs.splitOn separator) ((cs ++ after).splitOn separator) := by
  induction cs with
  | nil =>
    have hnone : ∀ c ∈ after, (c == separator) = false := by
      intro c hc
      refine beq_false_of_ne ?_
      rintro rfl
      simp [List.all_eq_true.1 h c hc] at hs
    rw [List.nil_append, List.splitOn_nil, List.splitOn_eq_singleton_of_beq_eq_false hnone]
    exact .cons ⟨after, h, rfl⟩ .nil
  | cons c cs ih =>
    rw [List.cons_append, splitOn_cons, splitOn_cons]
    split
    · exact .cons ⟨[], rfl, rfl⟩ ih
    · refine forall₂_modifyHead ih ?_
      rintro piece _ ⟨extra, hextra, rfl⟩
      exact ⟨extra, hextra, rfl⟩

/-- White space at the start of a text goes to the first piece. -/
theorem append_splitOn (hs : Text.isBlank separator = false) (h : before.all Text.isBlank) :
    (before ++ cs).splitOn separator = (cs.splitOn separator).modifyHead (before ++ ·) := by
  induction before with
  | nil =>
    rw [List.nil_append]
    cases cs.splitOn separator <;> rfl
  | cons c before ih =>
    rw [List.all_cons, Bool.and_eq_true] at h
    have hne : c ≠ separator := by
      rintro rfl
      simp [h.1] at hs
    rw [List.cons_append, splitOn_cons, if_neg hne, ih h.2, List.modifyHead_modifyHead]
    rfl

theorem map_trimmed_eq {pieces longer : List (List Char)}
    (h : List.Forall₂ (fun piece longer => Text.trimmed longer = Text.trimmed piece) pieces
      longer) : longer.map Text.trimmed = pieces.map Text.trimmed := by
  induction h with
  | nil => rfl
  | cons hfirst _ ih => rw [List.map_cons, List.map_cons, hfirst, ih]

/-- **A list is taken apart as without the white space around it.** -/
theorem split_padded (h : Padded text padded) : split padded = split text := by
  obtain ⟨before, after, hbefore, hafter, heq⟩ := h
  have hcomma : Text.isBlank ',' = false := by decide
  have hend : ((text.toList ++ after).splitOn ',').map Text.trimmed =
      (text.toList.splitOn ',').map Text.trimmed := by
    refine map_trimmed_eq ((forall₂_splitOn_append hcomma hafter).imp ?_)
    rintro piece longer ⟨extra, hextra, rfl⟩
    have hpiece : Text.trimmed ([] ++ piece ++ extra) = Text.trimmed piece :=
      Text.trimmed_padded rfl hextra
    rwa [List.nil_append] at hpiece
  have hstart : ((before ++ (text.toList ++ after)).splitOn ',').map Text.trimmed =
      ((text.toList ++ after).splitOn ',').map Text.trimmed := by
    rw [append_splitOn hcomma hbefore]
    cases (text.toList ++ after).splitOn ',' with
    | nil => rfl
    | cons piece pieces =>
      have hpiece : Text.trimmed (before ++ piece ++ []) = Text.trimmed piece :=
        Text.trimmed_padded hbefore rfl
      rw [List.append_nil] at hpiece
      rw [List.modifyHead_cons, List.map_cons, List.map_cons, hpiece]
  rw [split, split, heq, List.append_assoc, hstart, hend]

end ValueList

end QueryEditor
