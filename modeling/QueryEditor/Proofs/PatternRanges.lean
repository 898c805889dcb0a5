import QueryEditor.Proofs.Validation

/-!
# The ranges of a pattern

A pattern whose ranges are all closed is a row of items: single characters, and ranges in brackets.
The scan for an open range keeps only whether a range is open; what may follow is then decided by
this alone (`Literal.Completes`), and one character of the text is one step of the scan
(`Literal.completes_cons_iff`).

* `Literal.hasOpenRange_eq_false_iff` : **no range is left open in a row of items**, and in no other
  text.
* `Literal.hasOpenRange_append` : after a pattern without an open range a scan starts anew.
* `Check.value_pattern_eq` : what the check of a value answers for an operator on patterns.
* `Literal.pattern_laws` : the laws of patterns in one place.
-/

namespace QueryEditor

namespace Literal

/-- An item of a pattern. -/
inductive PatternItem
  /-- One character.  An opening bracket is none: it starts a range. -/
  | single (c : Char) (ne_open : c ≠ '[')
  /-- A range: everything up to the next closing bracket, also further opening ones. -/
  | range (inside : List Char) (close_not_mem : ']' ∉ inside)

/-- How an item is written. -/
def PatternItem.chars : PatternItem → List Char
  | single c _ => [c]
  | range inside _ => '[' :: inside ++ [']']

/-- How items are written one after the other. -/
def rowOf (items : List PatternItem) : List Char := items.flatMap PatternItem.chars

/-- A pattern closes its ranges: it is a row of items. -/
def ClosesRanges (pattern : String) : Prop := ∃ items, pattern.toList = rowOf items

/-- A rest completes a pattern of which the first part has been scanned: a range that is open is
closed first, and then there are items. -/
def Completes (isOpen : Bool) (rest : List Char) : Prop :=
  match isOpen with
  | true => ∃ inside items, ']' ∉ inside ∧ rest = inside ++ ']' :: rowOf items
  | false => ∃ items, rest = rowOf items

/-- Whether a range is open after one more character. -/
def openStep (isOpen : Bool) (c : Char) : Bool :=
  if c = '[' then true else if c = ']' then false else isOpen

/-- Whether a range is open after a part of a pattern. -/
def openAfter (isOpen : Bool) (cs : List Char) : Bool := cs.foldl openStep isOpen

variable {c : Char} {cs rest : List Char} {isOpen : Bool} {pattern p q : String}

theorem hasOpenRange_eq_openAfter (pattern : String) :
    hasOpenRange pattern = openAfter false pattern.toList := rfl

@[simp]
theorem rowOf_cons (item : PatternItem) (items : List PatternItem) :
    rowOf (item :: items) = item.chars ++ rowOf items := rfl

/-! ### One character -/

theorem openStep_true_eq (h : c ≠ ']') : openStep true c = true := by
  rw [openStep, if_neg h, ite_self]

theorem openStep_false_eq (h : c ≠ '[') : openStep false c = false := by
  rw [openStep, if_neg h, ite_self]

/-- An opening bracket starts a range, which the rest has to close. -/
theorem completes_open_iff : Completes false ('[' :: rest) ↔ Completes true rest := by
  constructor
  · rintro ⟨_ | ⟨⟨c, hc⟩ | ⟨inside, hinside⟩, items⟩, heq⟩
    · cases heq
    · exact absurd (List.cons.inj heq).1.symm hc
    · exact ⟨inside, items, hinside, by simpa [PatternItem.chars] using heq⟩
  · rintro ⟨inside, items, hinside, rfl⟩
    exact ⟨.range inside hinside :: items, by simp [PatternItem.chars]⟩

/-- Any other character is an item where no range is open. -/
theorem completes_single_iff (h : c ≠ '[') :
    Completes false (c :: rest) ↔ Completes false rest := by
  constructor
  · rintro ⟨_ | ⟨⟨c', hc⟩ | ⟨inside, hinside⟩, items⟩, heq⟩
    · cases heq
    · exact ⟨items, (List.cons.inj heq).2⟩
    · exact absurd (List.cons.inj heq).1 h
  · rintro ⟨items, rfl⟩
    exact ⟨.single c h :: items, rfl⟩

/-- The first closing bracket closes a range that is open. -/
theorem completes_close_iff : Completes true (']' :: rest) ↔ Completes false rest := by
  constructor
  · rintro ⟨_ | ⟨c, inside⟩, items, hinside, heq⟩
    · exact ⟨items, (List.cons.inj heq).2⟩
    · rw [(List.cons.inj heq).1] at hinside
      exact absurd List.mem_cons_self hinside
  · rintro ⟨items, rfl⟩
    exact ⟨[], items, List.not_mem_nil, rfl⟩

/-- Any other character belongs to the range that is open. -/
theorem completes_inside_iff (h : c ≠ ']') : Completes true (c :: rest) ↔ Completes true rest := by
  constructor
  · rintro ⟨_ | ⟨c', inside⟩, items, hinside, heq⟩
    · exact absurd (List.cons.inj heq).1 h
    · exact ⟨inside, items, fun hmem => hinside (List.mem_cons_of_mem _ hmem),
        (List.cons.inj heq).2⟩
  · rintro ⟨inside, items, hinside, rfl⟩
    exact ⟨c :: inside, items, by simp [hinside, h.symm], rfl⟩

/-- **One character of a pattern is one step of the scan.** -/
theorem completes_cons_iff : Completes isOpen (c :: rest) ↔ Completes (openStep isOpen c) rest := by
  cases isOpen with
  | false =>
    by_cases hopen : c = '['
    · subst hopen
      exact completes_open_iff
    · rw [openStep_false_eq hopen]
      exact completes_single_iff hopen
  | true =>
    by_cases hclose : c = ']'
    · subst hclose
      exact completes_close_iff
    · rw [openStep_true_eq hclose]
      exact completes_inside_iff hclose

/-- Where nothing is left the pattern is complete, unless a range is open. -/
theorem completes_nil_iff : Completes isOpen [] ↔ isOpen = false := by
  cases isOpen with
  | false => exact ⟨fun _ => rfl, fun _ => ⟨[], rfl⟩⟩
  | true => simp [Completes]

/-! ### Whole patterns -/

/-- **The scan ends without an open range exactly if the text completes the pattern.** -/
theorem openAfter_eq_false_iff : openAfter isOpen cs = false ↔ Completes isOpen cs := by
  induction cs generalizing isOpen with
  | nil => exact completes_nil_iff.symm
  | cons c cs ih =>
    show openAfter (openStep isOpen c) cs = false ↔ _
    rw [ih, completes_cons_iff]

/-- **No range is left open in a row of items**, and in no other text. -/
theorem hasOpenRange_eq_false_iff : hasOpenRange pattern = false ↔ ClosesRanges pattern := by
  rw [hasOpenRange_eq_openAfter, openAfter_eq_false_iff]
  rfl

instance (pattern : String) : Decidable (ClosesRanges pattern) :=
  decidable_of_iff _ hasOpenRange_eq_false_iff

/-- After a pattern without an open range a scan starts anew. -/
theorem hasOpenRange_append (h : hasOpenRange p = false) :
    hasOpenRange (p ++ q) = hasOpenRange q := by
  have hp : openAfter false p.toList = false := h
  rw [hasOpenRange_eq_openAfter, String.toList_append, openAfter, List.foldl_append]
  show openAfter (openAfter false p.toList) q.toList = _
  rw [hp, hasOpenRange_eq_openAfter]

end Literal

/-! ### The check of a pattern -/

theorem Operator.operand_of_isPattern : ∀ op ∈ Operator.table, op.isPattern = true →
    op.isMulti = false ∧ op.operand = some (.fixed .string) := by decide

theorem Operator.isPattern_of_symbol {op : Operator}
    (h : op.symbol = "like" ∨ op.symbol = "not-like") : op.isPattern = true := by
  rcases h with h | h <;> simp [Operator.isPattern, h]

namespace Check

variable {op : Operator} {text valueOf : String}

/-- **The check of a pattern looks for an open range** and for nothing else, where there is no
column. -/
theorem value_pattern_eq (hop : op ∈ Operator.table) (hpattern : op.isPattern = true)
    (hv : Text.blank valueOf = true) (a : Option Attribute) (n : Nat) :
    value op a text valueOf n =
      if Literal.hasOpenRange text then some .openRange else none := by
  obtain ⟨hm, ho⟩ := Operator.operand_of_isPattern op hop hpattern
  have happlies : applies op n = true := by simp [applies, hm]
  cases hopen : Literal.hasOpenRange text with
  | true =>
    have hs : sources text valueOf = none := by simp [sources, hv]
    simp [value, hs, hv, happlies, hpattern, hopen]
  | false =>
    rw [value_of_blank hv happlies (.inr hopen), if_neg (by simp [hm])]
    simp [literalType, ho, literal, Literal.rejection?, Literal.rejectionAs?]

end Check

namespace Literal

/-- **The laws of patterns.**  No range is left open exactly in a text that is a row of items:
single characters other than an opening bracket, and ranges from an opening bracket to the next
closing one.  After a pattern without an open range a second one leaves a range open exactly if it
does so on its own.  So where there is no column to compare with, the value of a condition on a
pattern is accepted exactly if it is a row of items, and any other value is turned away for the
range that it leaves open. -/
theorem pattern_laws :
    (∀ pattern, hasOpenRange pattern = false ↔ ClosesRanges pattern) ∧
      (∀ p q, hasOpenRange p = false →
        (hasOpenRange (p ++ q) = false ↔ hasOpenRange q = false)) ∧
      ∀ op ∈ Operator.table, op.symbol = "like" ∨ op.symbol = "not-like" →
        ∀ (a : Option Attribute) (value valueOf : String) (children : Nat),
          Text.blank valueOf = true →
          (Check.value op a value valueOf children = none ↔ ClosesRanges value) ∧
            (¬ClosesRanges value →
              Check.value op a value valueOf children = some .openRange) := by
  refine ⟨fun _ => hasOpenRange_eq_false_iff, fun p q hp => by rw [hasOpenRange_append hp], ?_⟩
  intro op hop hsymbol a value valueOf children hv
  have hvalue : Check.value op a value valueOf children = _ :=
    Check.value_pattern_eq hop (Operator.isPattern_of_symbol hsymbol) hv a children
  rw [← hasOpenRange_eq_false_iff, hvalue]
  cases hasOpenRange value with
  | true => simp
  | false => simp

/-- Two closed patterns, the second with a closing bracket alone and an opening one inside a range,
make one that `not-like` accepts on an unknown attribute; with an opening bracket after it, it is
turned away. -/
theorem pattern_laws_of_escape :
    hasOpenRange "a[[]" = false ∧ hasOpenRange "]b[x[y]" = false ∧
      hasOpenRange ("a[[]" ++ "]b[x[y]") = false ∧
      ClosesRanges ("a[[]" ++ "]b[x[y]") ∧
      ∃ op ∈ Operator.table, op.symbol = "not-like" ∧ Text.blank " " = true ∧
        Check.value op none ("a[[]" ++ "]b[x[y]") " " 0 = none ∧
        Check.value op none "a[[]]b[x[y][" " " 0 = some .openRange := by
  obtain ⟨hrow, happend, hcheck⟩ := pattern_laws
  have hfirst : hasOpenRange "a[[]" = false := by decide
  have hsecond : hasOpenRange "]b[x[y]" = false := by decide
  have hboth := (happend _ "]b[x[y]" hfirst).2 hsecond
  have hop : Operator.onText "not-like" ∈ Operator.table := by decide
  have hblank : Text.blank " " = true := by decide
  have haccepts := hcheck _ hop (.inr rfl) none ("a[[]" ++ "]b[x[y]") " " 0 hblank
  have hrefuses := hcheck _ hop (.inr rfl) none "a[[]]b[x[y][" " " 0 hblank
  exact ⟨hfirst, hsecond, hboth, (hrow _).1 hboth, _, hop, rfl, hblank,
    haccepts.1.2 ((hrow _).1 hboth), hrefuses.2 (by decide)⟩

end Literal

end QueryEditor
