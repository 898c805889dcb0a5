/-!
# White space around text

What a user types is read without the white space around it.  `Text.isBlank` is the Unicode
property `White_Space`, `Text.trim` drops such characters at both ends, and `Text.blank`
says that nothing else is there.
-/

namespace QueryEditor

namespace Text

/-- The characters with the Unicode property `White_Space`. -/
def isBlank (c : Char) : Bool :=
  let n := c.toNat
  (9 ≤ n && n ≤ 13) || n == 0x20 || n == 0x85 || n == 0xA0 || n == 0x1680 ||
    (0x2000 ≤ n && n ≤ 0x200A) || n == 0x2028 || n == 0x2029 || n == 0x202F ||
    n == 0x205F || n == 0x3000

/-- Drops white space at the start. -/
def trimLeft (cs : List Char) : List Char := cs.dropWhile isBlank

/-- Drops white space at the end. -/
def trimRight (cs : List Char) : List Char := (trimLeft cs.reverse).reverse

/-- Drops white space at both ends. -/
def trimmed (cs : List Char) : List Char := trimRight (trimLeft cs)

/-- A text without the white space around it. -/
def trim (s : String) : String := String.ofList (trimmed s.toList)

/-- A text of white space only. -/
def blank (s : String) : Bool := s.toList.all isBlank

/-! ### What trimming keeps -/

theorem trimLeft_of_all {cs : List Char} (h : cs.all isBlank) : trimLeft cs = [] := by
  induction cs with
  | nil => rfl
  | cons c cs ih =>
    simp only [List.all_cons, Bool.and_eq_true] at h
    simpa [trimLeft, List.dropWhile, h.1] using ih h.2

theorem trimmed_of_all {cs : List Char} (h : cs.all isBlank) : trimmed cs = [] := by
  rw [trimmed, trimLeft_of_all h]
  rfl

theorem trimLeft_eq_nil_iff {cs : List Char} : trimLeft cs = [] ↔ cs.all isBlank := by
  refine ⟨fun h => ?_, trimLeft_of_all⟩
  induction cs with
  | nil => rfl
  | cons c cs ih =>
    by_cases hc : isBlank c
    · simp only [trimLeft, List.dropWhile, hc] at h
      simp [hc, ih h]
    · simp [trimLeft, List.dropWhile, hc] at h

end Text

end QueryEditor
