import Mathlib.Tactic.SplitIfs
import QueryEditor.Proofs.Validation

/-!
# Reports with more to go on

While the metadata are not loaded, or the condition is still being edited, some checks wait.  What
comes in later adds issues and takes no error away: without metadata an operator either wants
literals of the same type as with them, or it accepts any text (`Check.literalType_unbound`).

* `Check.withOperator_unbound_sublist` : the checks that need an operator find no less once the
  attribute is known.
* `Condition.errors_sublist_of_metadata` : loading the metadata takes no error away.
* `Condition.issues_prefix_of_strict` : a strict validation adds its issues at the end.
* `Condition.errors_persist` : **a condition that is refused early is refused later.**
-/

namespace QueryEditor

/-! ### The checks that need an operator -/

namespace Check

variable {op : Operator} {a : Option Attribute} {c : Condition} {text valueOf : String}
  {values : List String} {strict : Bool}

/-- Without an attribute the literal has the same type as with it, or is any text. -/
theorem literalType_unbound (op : Operator) (a : Option Attribute) :
    literalType op none = literalType op a ∨ literalType op none = some .string := by
  unfold literalType
  cases op.operand with
  | none => exact .inl rfl
  | some operand =>
    cases operand with
    | fixed t => exact .inl rfl
    | ofAttribute => exact .inr rfl

theorem literal_string : literal op (some .string) text = none := rfl

theorem literal_unbound (a : Option Attribute) :
    literal op (literalType op none) text = none ∨
      literal op (literalType op none) text = literal op (literalType op a) text := by
  obtain h | h := literalType_unbound op a
  · exact .inr (by rw [h])
  · exact .inl (by rw [h, literal_string])

theorem compatibility_unbound (op : Operator) (n : Nat) : compatibility op none n = none := by
  unfold compatibility
  split
  · contradiction
  · rfl

/-- Without an attribute the value is accepted or gives the same issue as with it. -/
theorem value_unbound (a : Option Attribute) (n : Nat) :
    value op none text valueOf n = none ∨
      value op none text valueOf n = value op a text valueOf n := by
  unfold value
  cases sources text valueOf with
  | some issue => exact .inr rfl
  | none =>
    dsimp only
    split_ifs with hskip hrange hmulti
    · exact .inl rfl
    · exact .inr rfl
    · -- once there are value nodes the attribute plays no part
      exact .inr rfl
    · exact literal_unbound a

theorem toList_sublist {found found' : Option Issue} (h : found = none ∨ found = found') :
    found.toList.Sublist found'.toList := by
  obtain rfl | rfl := h
  · exact List.nil_sublist _
  · exact List.Sublist.refl _

theorem valueNodes_unbound_sublist (a : Option Attribute) :
    (valueNodes op none values).Sublist (valueNodes op a values) := by
  induction values with
  | nil => exact List.Sublist.refl _
  | cons text values ih =>
    have hsplit : ∀ b, valueNodes op b (text :: values) =
        (literal op (literalType op b) text).toList ++ valueNodes op b values := by
      intro b
      unfold valueNodes
      rw [List.filterMap_cons]
      cases literal op (literalType op b) text <;> rfl
    rw [hsplit, hsplit]
    exact (toList_sublist (literal_unbound a)).append ih

theorem pendingList_unbound_sublist (a : Option Attribute) :
    (pendingList op none text).Sublist (pendingList op a text) := by
  unfold pendingList
  split
  · exact List.Sublist.refl _
  · exact valueNodes_unbound_sublist a

/-- The checks that need an operator find no less once the attribute is known. -/
theorem withOperator_unbound_sublist (a : Option Attribute) :
    (withOperator op none c values strict).Sublist (withOperator op a c values strict) := by
  unfold withOperator
  rw [compatibility_unbound]
  refine (((List.nil_sublist _).append ?value).append ?nodes).append ?pending
  case value => exact toList_sublist (value_unbound a _)
  case nodes => exact valueNodes_unbound_sublist a
  case pending =>
    split
    · exact pendingList_unbound_sublist a
    · exact List.Sublist.refl _

/-- The issues of a pending list come last. -/
theorem withOperator_prefix_strict (op : Operator) (a : Option Attribute) (c : Condition)
    (values : List String) :
    withOperator op a c values false <+: withOperator op a c values true := by
  unfold withOperator
  rw [Bool.false_and, if_neg Bool.false_ne_true, List.append_nil]
  exact List.prefix_append _ _

end Check

/-! ### The whole report -/

namespace Condition

variable (c : Condition) (known : Option (List Attribute)) (values : List String) (strict : Bool)

/-- Without metadata the name of the attribute gives an error only where it gives one with them. -/
theorem attributeName_errors_sublist (text : String) :
    ((Check.attributeName text none).toList.filter (·.isError)).Sublist
      ((Check.attributeName text known).toList.filter (·.isError)) := by
  unfold Check.attributeName
  split
  · exact List.Sublist.refl _
  · exact List.nil_sublist _

/-- **Loading the metadata takes no error away.** -/
theorem errors_sublist_of_metadata :
    (c.validate none values strict).errors.Sublist (c.validate known values strict).errors := by
  unfold Report.errors validate
  simp only [List.filter_append]
  refine ((attributeName_errors_sublist known _).append (List.Sublist.refl _)).append ?_
  cases c.operator? with
  | none => exact List.Sublist.refl _
  | some op => exact (Check.withOperator_unbound_sublist _).filter _

/-- **A strict validation adds its issues at the end.** -/
theorem issues_prefix_of_strict :
    (c.validate known values false).issues <+: (c.validate known values true).issues := by
  unfold validate
  refine List.prefix_append_right_inj _ |>.2 ?_
  cases c.operator? with
  | none => exact List.prefix_refl _
  | some op => exact Check.withOperator_prefix_strict op _ c values

theorem blocksSave_of_errors_sublist {r r' : Report} (h : r.errors.Sublist r'.errors)
    (hr : r.blocksSave = true) : r'.blocksSave = true := by
  by_contra hpass
  have hnil : r'.errors = [] := Report.errors_eq_nil_iff.2 (by simpa using hpass)
  have hfalse := Report.errors_eq_nil_iff.1 (List.sublist_nil.1 (hnil ▸ h))
  simp [hr] at hfalse

/-- **A condition that is refused early is refused later.**  The errors that are found without
metadata, while the condition is edited, are found with any metadata as well, the same ones in the
same order, strictly or not.  With the same metadata a strict validation finds the same issues
first.  So neither metadata that come late nor the validation before a save let a refused
condition pass. -/
theorem errors_persist :
    (c.validate none values false).errors.Sublist (c.validate known values strict).errors ∧
      (c.validate known values false).issues <+: (c.validate known values true).issues ∧
      ((c.validate none values false).blocksSave = true →
        (c.validate known values strict).blocksSave = true) ∧
      ((c.validate known values false).blocksSave = true →
        (c.validate known values true).blocksSave = true) := by
  have hstrictly := issues_prefix_of_strict c known values
  have hstrict : (c.validate known values false).errors.Sublist
      (c.validate known values strict).errors := by
    cases strict with
    | false => exact List.Sublist.refl _
    | true => exact hstrictly.sublist.filter _
  have hsub := (errors_sublist_of_metadata c known values false).trans hstrict
  refine ⟨hsub, hstrictly, blocksSave_of_errors_sublist hsub, ?_⟩
  exact blocksSave_of_errors_sublist (hstrictly.sublist.filter _)

/-- A number of days that is none: once the attribute is known to be a text, the operator does not
apply to it either, and that is said first. -/
theorem errors_persist_of_days :
    let c : Condition :=
      { attributeName := "name", operator := "last-x-days", value := "ten" }
    let known := some [({ logicalName := "name", type := .string } : Attribute)]
    (c.validate none [] false).errors = [.rejectedLiteral "last-x-days" .integer] ∧
      (c.validate known [] true).errors =
        [.typeMismatch "last-x-days" "String", .rejectedLiteral "last-x-days" .integer] ∧
      (c.validate none [] false).errors.Sublist (c.validate known [] true).errors ∧
      (c.validate known [] true).blocksSave = true := by
  intro c known
  have h := errors_persist c known [] true
  exact ⟨by decide +kernel, by decide +kernel, h.1, h.2.2.1 (by decide +kernel)⟩

end Condition

end QueryEditor
