import Mathlib.Data.List.DropRight
import QueryEditor.ValueList

/-!
# What stands in a list of values

A text is cut at its commas into pieces that hold all its other characters
(`ValueList.exists_piece_iff`), and it is put together again from them
(`Text.intercalate_splitOn`).  A blank piece is dropped.  So a list has no value exactly when
its text holds nothing but commas and white space (`ValueList.split_eq_nil_iff`).
-/

namespace QueryEditor

theorem Text.trimmed_eq_nil_iff {cs : List Char} : Text.trimmed cs = [] ↔ cs.all isBlank := by
  refine ⟨fun h => ?_, trimmed_of_all⟩
  -- what is left after the white space at the start is blank only if there is nothing left
  rw [trimmed, trimRight, List.reverse_eq_nil_iff, trimLeft_eq_nil_iff, List.all_reverse,
    ← trimLeft_eq_nil_iff, trimLeft, trimLeft, List.dropWhile_idempotent] at h
  exact trimLeft_eq_nil_iff.1 h

namespace Text

variable {c : Char} {separator : String} {pieces : List String}

/-- Pieces without a separator in them are found again between the separators. -/
theorem splitOn_intercalate (hseparator : separator.toList = [c]) (hne : pieces ≠ [])
    (h : ∀ piece ∈ pieces, c ∉ piece.toList) :
    (separator.intercalate pieces).toList.splitOn c = pieces.map String.toList := by
  rw [String.toList_intercalate, hseparator]
  refine List.splitOn_intercalate c ?_ (by simpa using hne)
  rwa [List.forall_mem_map]

/-- A text is its pieces with separators between them. -/
theorem intercalate_splitOn (hseparator : separator.toList = [c]) (cs : List Char) :
    separator.intercalate ((cs.splitOn c).map String.ofList) = String.ofList cs := by
  have hid : String.toList ∘ String.ofList = id := funext fun _ => String.toList_ofList
  refine String.toList_injective ?_
  rw [String.toList_intercalate, hseparator, List.map_map, hid, List.map_id]
  exact (List.intercalate_splitOn c).trans String.toList_ofList.symm

end Text

namespace ValueList

variable {cs : List Char} {c separator : Char} {text : String}

theorem splitOn_cons (separator c : Char) (cs : List Char) :
    (c :: cs).splitOn separator =
      if c = separator then [] :: cs.splitOn separator
      else (cs.splitOn separator).modifyHead (c :: ·) := by
  rw [List.splitOn_eq_splitOnP, List.splitOnP_cons_eq_if_modifyHead]
  simp [List.splitOn_eq_splitOnP]

/-- The pieces between separators hold all the other characters. -/
theorem exists_piece_iff :
    (∃ piece ∈ cs.splitOn separator, c ∈ piece) ↔ c ∈ cs ∧ c ≠ separator := by
  induction cs with
  | nil => simp
  | cons first cs ih =>
    rw [splitOn_cons]
    by_cases hfirst : first = separator
    · rw [if_pos hfirst, List.exists_mem_cons_iff, ih, List.mem_cons, hfirst]
      constructor
      · rintro (h | ⟨hmem, hne⟩)
        · cases h
        · exact ⟨.inr hmem, hne⟩
      · rintro ⟨heq | hmem, hne⟩
        · exact absurd heq hne
        · exact .inr ⟨hmem, hne⟩
    · obtain ⟨piece, pieces, hpieces⟩ :=
        List.exists_cons_of_ne_nil (List.splitOn_ne_nil separator cs)
      rw [hpieces, List.exists_mem_cons_iff] at ih
      rw [if_neg hfirst, hpieces, List.modifyHead_cons, List.exists_mem_cons_iff, List.mem_cons,
        List.mem_cons, or_assoc, ih]
      constructor
      · rintro (rfl | ⟨hmem, hne⟩)
        · exact ⟨.inl rfl, hfirst⟩
        · exact ⟨.inr hmem, hne⟩
      · rintro ⟨heq | hmem, hne⟩
        · exact .inl heq
        · exact .inr ⟨hmem, hne⟩

/-- **A list has no value exactly when its text holds nothing but commas and white space.** -/
theorem split_eq_nil_iff :
    split text = [] ↔ ∀ c ∈ text.toList, c = ',' ∨ Text.isBlank c = true := by
  have hblank : split text = [] ↔
      ∀ piece ∈ text.toList.splitOn ',', ∀ c ∈ piece, Text.isBlank c = true := by
    simp [split, List.filter_eq_nil_iff, Text.trimmed_eq_nil_iff]
  rw [hblank]
  constructor
  · intro h c hc
    by_cases hcomma : c = ','
    · exact .inl hcomma
    · obtain ⟨piece, hpiece, hmem⟩ := exists_piece_iff.2 ⟨hc, hcomma⟩
      exact .inr (h piece hpiece c hmem)
  · intro h piece hpiece c hc
    obtain ⟨hmem, hne⟩ := exists_piece_iff.1 ⟨piece, hpiece, hc⟩
    exact (h c hmem).resolve_left hne

end ValueList

end QueryEditor
