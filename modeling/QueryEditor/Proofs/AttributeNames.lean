import Mathlib.Data.List.Nodup
import QueryEditor.Condition.Report

/-!
# Attributes by their logical names

A text names an attribute by its logical or by its display name, and the first attribute of the list
that it names is taken.  So a logical name leads to its own attribute unless an attribute further to
the front is displayed under that name.

* `Attribute.find?_split` : which attribute a logical name leads to.
* `Condition.validate_eq_of_found` : a report depends on one attribute only.
* `Attribute.find?_logicalName_iff` : **when an attribute is found by its logical name**, and what a
  condition on it is checked against.
-/

namespace QueryEditor

variable {attributes before after : List Attribute} {a : Attribute} {text : String}

namespace Attribute

theorem matchesText_of_logicalName (h : Text.trim text = a.logicalName) :
    a.matchesText text = true := by
  rw [matchesText, h, beq_self_eq_true, Bool.true_or]

theorem find?_cons_of_matchesText (h : a.matchesText text = true)
    (attributes : List Attribute) : find? (a :: attributes) text = some a := by
  simp only [find?, List.find?_cons, h]

/-- No other attribute has its logical name. -/
theorem logicalName_ne_of_mem (hnames : ((before ++ a :: after).map (·.logicalName)).Nodup)
    {b : Attribute} (hb : b ∈ before) : b.logicalName ≠ a.logicalName := by
  rw [List.map_append, List.nodup_append] at hnames
  exact hnames.2.2 _ (List.mem_map_of_mem hb) _ (List.mem_map_of_mem List.mem_cons_self)

/-- A logical name leads to its attribute, or to the first one before it that is displayed under
this name. -/
theorem find?_split (hnames : ((before ++ a :: after).map (·.logicalName)).Nodup)
    (htext : Text.trim text = a.logicalName) :
    find? (before ++ a :: after) text =
      some ((before.find? (·.displayName == some a.logicalName)).getD a) := by
  have hbefore : before.find? (·.matchesText text) =
      before.find? (·.displayName == some a.logicalName) := by
    rw [← List.head?_filter, ← List.head?_filter]
    congr 1
    refine List.filter_congr fun b hb => ?_
    rw [matchesText, htext, beq_false_of_ne (logicalName_ne_of_mem hnames hb), Bool.false_or]
  have hself : (a :: after).find? (·.matchesText text) = some a :=
    find?_cons_of_matchesText (matchesText_of_logicalName htext) after
  rw [find?, List.find?_append, hbefore, hself]
  cases before.find? (·.displayName == some a.logicalName) <;> rfl

end Attribute

/-- A report depends on the attribute that the condition names, and on no other. -/
theorem Condition.validate_eq_of_found {c : Condition}
    (h : c.attribute? (some attributes) = some a) (hself : a.matchesText c.attributeName = true)
    (values : List String) (strict : Bool) :
    c.validate (some attributes) values strict = c.validate (some [a]) values strict := by
  have hknown : attributes.any (·.matchesText c.attributeName) = true :=
    List.any_eq_true.2 ⟨a, List.mem_of_find?_eq_some h, hself⟩
  have hone : c.attribute? (some [a]) = some a := Attribute.find?_cons_of_matchesText hself []
  have hnamed : Check.attributeName c.attributeName (some attributes) =
      Check.attributeName c.attributeName (some [a]) := by
    simp only [Check.attributeName, Option.bind_some, hknown, List.any_cons, hself, Bool.true_or]
  rw [validate, validate, h, hone, hnamed]

namespace Attribute

/-- **An attribute is found by its logical name exactly when none before it is displayed under that
name.**  A condition that names it so, perhaps with white space around the name, is then checked as
if there were no other attribute. -/
theorem find?_logicalName_iff (hnames : (attributes.map (·.logicalName)).Nodup)
    (htrimmed : ∀ b ∈ attributes, Text.trim b.logicalName = b.logicalName)
    (hsplit : attributes = before ++ a :: after) :
    (find? attributes a.logicalName = some a ↔
      ∀ b ∈ before, b.displayName ≠ some a.logicalName) ∧
    ((∀ b ∈ before, b.displayName ≠ some a.logicalName) →
      ∀ c : Condition, Text.trim c.attributeName = a.logicalName → ∀ values strict,
        c.validate (some attributes) values strict = c.validate (some [a]) values strict) := by
  subst hsplit
  have hfree : (∀ b ∈ before, b.displayName ≠ some a.logicalName) ↔
      before.find? (·.displayName == some a.logicalName) = none := by
    simp only [List.find?_eq_none, beq_iff_eq, ne_eq]
  have hmem : a ∈ before ++ a :: after := List.mem_append_right _ List.mem_cons_self
  constructor
  · rw [find?_split hnames (htrimmed a hmem), hfree]
    cases hfound : before.find? (·.displayName == some a.logicalName) with
    | none => exact ⟨fun _ => rfl, fun _ => rfl⟩
    | some b =>
      -- what is found instead stands before `a`, and `a` stands there only once
      refine ⟨fun h => ?_, nofun⟩
      obtain rfl : b = a := Option.some.inj h
      exact absurd rfl (logicalName_ne_of_mem hnames (List.mem_of_find?_eq_some hfound))
  · intro hnone c hc values strict
    refine Condition.validate_eq_of_found ?_ (matchesText_of_logicalName hc) values strict
    change find? (before ++ a :: after) c.attributeName = some a
    rw [find?_split hnames hc, hfree.1 hnone]
    rfl

/-- A number that is displayed under the logical name of a text attribute. -/
def displayedCode : Attribute :=
  { logicalName := "new_code", displayName := some "name", type := .integer }

/-- The attribute whose logical name is displayed for another one. -/
def nameAttribute : Attribute :=
  { logicalName := "name", displayName := some "Account Name", type := .string }

/-- An attribute behind one that is displayed under another name, and before one that is displayed
under its own, is found by its logical name, so that a condition on it takes any text. -/
theorem find?_logicalName_of_first :
    let owner : Attribute :=
      { logicalName := "ownerid", displayName := some "Owner", type := .owner }
    let attributes := [owner, nameAttribute, displayedCode]
    let c : Condition := { attributeName := " name", operator := "eq", value := "Contoso" }
    (attributes.map (·.logicalName)).Nodup ∧
      (∀ b ∈ attributes, Text.trim b.logicalName = b.logicalName) ∧
      find? attributes "name" = some nameAttribute ∧
      (c.validate (some attributes) [] true).issues = [] := by
  intro owner attributes c
  have hnames : (attributes.map (·.logicalName)).Nodup := by decide +kernel
  have htrimmed : ∀ b ∈ attributes, Text.trim b.logicalName = b.logicalName := by decide +kernel
  have hfree : ∀ b ∈ [owner], b.displayName ≠ some nameAttribute.logicalName := by decide +kernel
  have hsplit : attributes = [owner] ++ nameAttribute :: [displayedCode] := rfl
  obtain ⟨hfound, hchecked⟩ := find?_logicalName_iff hnames htrimmed hsplit
  refine ⟨hnames, htrimmed, hfound.2 hfree, ?_⟩
  rw [hchecked hfree c (by decide +kernel)]
  decide +kernel

/-- Where it stands behind the one displayed under its logical name, that one is found, and a text
is turned away because it is no number. -/
theorem find?_logicalName_taken :
    let attributes := [displayedCode, nameAttribute]
    let c : Condition := { attributeName := "name", operator := "eq", value := "Contoso" }
    (attributes.map (·.logicalName)).Nodup ∧
      (∀ b ∈ attributes, Text.trim b.logicalName = b.logicalName) ∧ nameAttribute ∈ attributes ∧
      find? attributes nameAttribute.logicalName ≠ some nameAttribute ∧
      (c.validate (some attributes) [] true).issues = [.rejectedLiteral "eq" .integer] ∧
      (c.validate (some [nameAttribute]) [] true).issues = [] := by
  decide +kernel

end Attribute

end QueryEditor
