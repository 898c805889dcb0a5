import QueryEditor.Proofs.PaddedText
import QueryEditor.Proofs.SavedCondition

/-!
# Conditions with white space around their texts

White space around the texts of a condition and of its value nodes changes nothing: neither what
is reported nor which value nodes a save makes.

* `Condition.Padded`, `Query.Padded` : a condition, and a query, with white space around texts.
* `Condition.validate_padded` : the report is the same.
* `Condition.Padded.same_outcome` : **so is what a save does.**
-/

namespace QueryEditor

/-! ### Checks -/

namespace Check

variable {op : Operator} {a : Option Attribute} {text padded valueOf paddedOf : String}
  {values values' : List String}

theorem attributeName_padded (h : Text.Padded text padded) (known : Option (List Attribute)) :
    attributeName padded known = attributeName text known := by
  simp only [attributeName, h.blank_eq, h.trim_eq, Attribute.matchesText_padded h]

theorem operator_padded (h : Text.Padded text padded) : operator padded = operator text := by
  simp only [operator, h.blank_eq, h.trim_eq, Operator.find?_padded h]

theorem literal_padded (h : Text.Padded text padded) (type : Option AttributeType) :
    literal op type padded = literal op type text := by
  rw [literal, literal, Literal.rejection?_padded h]

theorem value_padded (h : Text.Padded text padded) (hof : Text.Padded valueOf paddedOf) (n : Nat) :
    value op a padded paddedOf n = value op a text valueOf n := by
  simp only [value, sources, h.blank_eq, hof.blank_eq, Literal.hasOpenRange_padded h,
    literal_padded h]

theorem valueNodes_padded (h : List.Forall₂ Text.Padded values values') :
    valueNodes op a values' = valueNodes op a values := by
  unfold valueNodes
  induction h with
  | nil => rfl
  | cons hfirst _ ih => rw [List.filterMap_cons, List.filterMap_cons, literal_padded hfirst, ih]

theorem pendingList_padded (h : Text.Padded text padded) :
    pendingList op a padded = pendingList op a text := by
  rw [pendingList, pendingList, h.blank_eq, ValueList.split_padded h]

end Check

/-! ### Reports -/

namespace Condition

/-- The second condition is the first one with white space around its texts. -/
structure Padded (c c' : Condition) : Prop where
  attributeName : Text.Padded c.attributeName c'.attributeName
  operator : Text.Padded c.operator c'.operator
  value : Text.Padded c.value c'.value
  valueOf : Text.Padded c.valueOf c'.valueOf
  entityName_eq : c'.entityName = c.entityName

variable {c c' : Condition} {attributes : Option (List Attribute)} {values values' : List String}
  {strict : Bool}

theorem operator?_padded (h : c.Padded c') : c'.operator? = c.operator? := by
  rw [operator?, operator?, Check.operator_padded h.operator, Operator.find?_padded h.operator]

theorem attribute?_padded (h : c.Padded c') (attributes : Option (List Attribute)) :
    c'.attribute? attributes = c.attribute? attributes := by
  simp only [attribute?, Attribute.find?_padded h.attributeName]

theorem withOperator_padded (h : c.Padded c') (hvalues : List.Forall₂ Text.Padded values values')
    (op : Operator) (a : Option Attribute) :
    Check.withOperator op a c' values' strict = Check.withOperator op a c values strict := by
  have hlength : values'.length = values.length := hvalues.length_eq.symm
  have hempty : values'.isEmpty = values.isEmpty := by
    rw [Bool.eq_iff_iff, List.isEmpty_iff_length_eq_zero, List.isEmpty_iff_length_eq_zero, hlength]
  rw [Check.withOperator, Check.withOperator, hlength, hempty,
    Check.value_padded h.value h.valueOf, Check.valueNodes_padded hvalues,
    Check.pendingList_padded h.value]

/-- **The report on a condition is the same with white space around its texts** and around those
of its value nodes. -/
theorem validate_padded (h : c.Padded c') (hvalues : List.Forall₂ Text.Padded values values') :
    c'.validate attributes values' strict = c.validate attributes values strict := by
  rw [validate, validate, Check.attributeName_padded h.attributeName,
    Check.operator_padded h.operator, operator?_padded h, attribute?_padded h]
  cases c.operator? with
  | none => rfl
  | some op => simp only [withOperator_padded h hvalues]

end Condition

/-! ### Queries -/

/-- The second node is the first one with white space around its texts. -/
inductive NodeKind.Padded : NodeKind → NodeKind → Prop
  | refl (kind : NodeKind) : Padded kind kind
  | value {text padded : String} (h : Text.Padded text padded) :
      Padded (.value text) (.value padded)
  | condition {c c' : Condition} (h : c.Padded c') : Padded (.condition c) (.condition c')

/-- The second node is the first one with white space around its texts, and stands under the same
node. -/
structure Node.Padded (n n' : Node) : Prop where
  kind : n.kind.Padded n'.kind
  parent_eq : n'.parent = n.parent

theorem NodeKind.Padded.value?_rel {kind kind' : NodeKind} (h : kind.Padded kind') :
    Option.Rel Text.Padded kind.value? kind'.value? := by
  cases h with
  | refl =>
    cases kind.value? with
    | none => exact .none
    | some text => exact .some (.refl text)
  | value htext => exact .some htext
  | condition => exact .none

namespace Query

/-- The second query is the first one with white space around texts of conditions and of value
nodes. -/
def Padded (q q' : Query) : Prop := ∀ i : Nat, Option.Rel Node.Padded q.nodes[i]? q'.nodes[i]?

variable {q q' : Query} {node : Nat} {op : Operator} {text padded : String}

namespace Padded

theorem node_cases (h : q.Padded q') (i : Nat) :
    (q.nodes[i]? = none ∧ q'.nodes[i]? = none) ∨
      ∃ n n', q.nodes[i]? = some n ∧ q'.nodes[i]? = some n' ∧ n.Padded n' := by
  have hi := h i
  generalize q.nodes[i]? = found, q'.nodes[i]? = found' at hi
  cases hi with
  | none => exact .inl ⟨rfl, rfl⟩
  | some hn => exact .inr ⟨_, _, rfl, rfl, hn⟩

theorem size_eq (h : q.Padded q') : q'.size = q.size := by
  have hiff (i : Nat) : q'.size ≤ i ↔ q.size ≤ i := by
    rw [size, size, ← Array.getElem?_eq_none_iff, ← Array.getElem?_eq_none_iff]
    obtain ⟨hi, hi'⟩ | ⟨n, n', hi, hi', -⟩ := h.node_cases i <;> simp [hi, hi']
  exact Nat.le_antisymm ((hiff _).2 (Nat.le_refl _)) ((hiff _).1 (Nat.le_refl _))

theorem refl (q : Query) : q.Padded q := by
  intro i
  cases q.nodes[i]? with
  | none => exact .none
  | some n => exact .some ⟨.refl n.kind, rfl⟩

/-- White space may stand around the texts of a node that is added. -/
theorem add (h : q.Padded q') {kind kind' : NodeKind} (hkind : kind.Padded kind')
    (parent : Nat) : (q.add parent kind).Padded (q'.add parent kind') := by
  unfold Query.add
  rw [h.size_eq]
  split
  · intro i
    have hsize : q'.nodes.size = q.nodes.size := h.size_eq
    rw [Array.getElem?_push, Array.getElem?_push, hsize]
    split
    · exact .some ⟨hkind, rfl⟩
    · exact h i
  · exact h

theorem parent?_eq (h : q.Padded q') (i : Nat) : q'.parent? i = q.parent? i := by
  rw [parent?, parent?]
  obtain ⟨hi, hi'⟩ | ⟨n, n', hi, hi', hn⟩ := h.node_cases i
  · rw [hi, hi']
  · rw [hi, hi', Option.bind_some, Option.bind_some, hn.parent_eq]

theorem children_eq (h : q.Padded q') (node : Nat) : q'.children node = q.children node := by
  simp only [children, h.size_eq, h.parent?_eq]

theorem value?_rel (h : q.Padded q') (i : Nat) :
    Option.Rel Text.Padded ((q.kind? i).bind NodeKind.value?)
      ((q'.kind? i).bind NodeKind.value?) := by
  rw [kind?, kind?]
  obtain ⟨hi, hi'⟩ | ⟨n, n', hi, hi', hn⟩ := h.node_cases i
  · rw [hi, hi']
    exact .none
  · rw [hi, hi']
    exact hn.kind.value?_rel

theorem values_rel (h : q.Padded q') (node : Nat) :
    List.Forall₂ Text.Padded (q.values node) (q'.values node) := by
  rw [values, values, h.children_eq]
  induction q.children node with
  | nil => exact .nil
  | cons i nodes ih =>
    have hi := h.value?_rel i
    rw [List.filterMap_cons, List.filterMap_cons]
    generalize (q.kind? i).bind NodeKind.value? = found,
      (q'.kind? i).bind NodeKind.value? = found' at hi
    cases hi with
    | none => exact ih
    | some htext => exact .cons htext ih

/-- A list is taken apart into the same value nodes. -/
theorem exists_unpack (h : q.Padded q') (htext : Text.Padded text padded) (node : Nat)
    (op : Operator) : ∃ texts,
      (q.unpack node op text).query = q.addValues node texts ∧
      (q'.unpack node op padded).query = q'.addValues node texts ∧
      (q.unpack node op text).created = texts.length ∧
      (q'.unpack node op padded).created = texts.length := by
  unfold unpack
  rw [h.children_eq, Operator.hasPendingList, Operator.hasPendingList, htext.blank_eq,
    ValueList.split_padded htext]
  split
  · exact ⟨[], rfl, rfl, rfl, rfl⟩
  · exact ⟨ValueList.split text, rfl, rfl, rfl, rfl⟩

end Padded

end Query

namespace Condition

variable {c c' : Condition}

/-- **White space around the texts of a condition changes nothing.**  With it, and with white space
around the texts of the value nodes, the report is the same, strict or not.  A save of the
condition in a query that has such white space is refused with the same report, or it goes through
with the same report and adds value nodes for the same texts. -/
theorem Padded.same_outcome (h : c.Padded c') :
    (∀ attributes values values' strict, List.Forall₂ Text.Padded values values' →
      c'.validate attributes values' strict = c.validate attributes values strict) ∧
    ∀ (q q' : Query) node attributes, q.Padded q' →
      (∃ r, q.save node c attributes = .error r ∧ q'.save node c' attributes = .error r) ∨
      ∃ s s' texts, q.save node c attributes = .ok s ∧ q'.save node c' attributes = .ok s' ∧
        s'.report = s.report ∧ s.created = texts.length ∧ s'.created = texts.length ∧
        s.query = q.addValues node texts ∧ s'.query = q'.addValues node texts := by
  refine ⟨fun _ _ _ _ hvalues => validate_padded h hvalues, fun q q' node attributes hq => ?_⟩
  have hreport : c'.validate attributes (q'.values node) true =
      c.validate attributes (q.values node) true := validate_padded h (hq.values_rel node)
  cases hb : (c.validate attributes (q.values node) true).blocksSave with
  | true =>
    left
    refine ⟨c.validate attributes (q.values node) true, ?_, ?_⟩
    · exact Query.save_eq_error_iff.2 ⟨hb, rfl⟩
    · exact Query.save_eq_error_iff.2 ⟨hreport ▸ hb, hreport.symm⟩
  | false =>
    right
    obtain ⟨-, op, hop, -⟩ := validate_passes_iff.1 hb
    have hop' : Operator.find? c'.operator = some op := by
      rw [Operator.find?_padded h.operator, hop]
    obtain ⟨texts, hquery, hquery', hcreated, hcreated'⟩ := hq.exists_unpack h.value node op
    exact ⟨_, _, texts, Query.save_eq_ok_iff.2 ⟨hb, op, hop, rfl⟩,
      Query.save_eq_ok_iff.2 ⟨hreport ▸ hb, op, hop', rfl⟩, hreport, hcreated, hcreated', hquery,
      hquery'⟩

/-- A list of numbers as it is stored. -/
def storedNumbers : Condition :=
  { attributeName := "numberofemployees", operator := "in", value := "1,2" }

/-- The same list with spaces of several kinds and line breaks around its texts. -/
def pastedNumbers : Condition :=
  { attributeName := "\u00a0numberofemployees", operator := "in\r\n", value := "\u20031,2\u3000"
    valueOf := " " }

/-- The value nodes of the list as it was pasted are those of the list as it is stored, and a value
node that is no number is reported with the same words. -/
theorem same_outcome_of_pasted :
    let numbers := some [({ logicalName := "numberofemployees", type := .integer } : Attribute)]
    let query := fun c => (Query.ofEntity "account").add Query.root (.condition c)
    storedNumbers.Padded pastedNumbers ∧ (query storedNumbers).Padded (query pastedNumbers) ∧
      (∃ s s', (query storedNumbers).save 2 storedNumbers numbers = .ok s ∧
        (query pastedNumbers).save 2 pastedNumbers numbers = .ok s' ∧ s'.report = s.report ∧
        s.query.values 2 = ["1", "2"] ∧ s'.query.values 2 = ["1", "2"]) ∧
      List.Forall₂ Text.Padded ["x"] ["\u2028x"] ∧
      (pastedNumbers.validate numbers ["\u2028x"] true).issues =
        [.rejectedLiteral "in" .unexpected, .rejectedLiteral "in" .integer] := by
  intro numbers query
  have hpadded : storedNumbers.Padded pastedNumbers :=
    ⟨⟨['\u00a0'], [], by decide⟩, ⟨[], ['\r', '\n'], by decide⟩,
      ⟨['\u2003'], ['\u3000'], by decide⟩, ⟨[' '], [], by decide⟩, rfl⟩
  have hquery : (query storedNumbers).Padded (query pastedNumbers) :=
    (Query.Padded.refl _).add (.condition hpadded) _
  have hnode : List.Forall₂ Text.Padded ["x"] ["\u2028x"] := .cons ⟨['\u2028'], [], by decide⟩ .nil
  obtain ⟨hreport, hsave⟩ := hpadded.same_outcome
  refine ⟨hpadded, hquery, ?_, hnode, ?_⟩
  · obtain ⟨r, hr, -⟩ | ⟨s, s', texts, hs, hs', hsame, -, -, hq, hq'⟩ := hsave _ _ 2 numbers hquery
    · cases hr
    · have hstored : s.query.values 2 = ["1", "2"] := by
        cases hs
        decide
      have htexts : texts = ["1", "2"] := by
        rw [← hstored, hq, Query.values_addValues (by decide)]
        rfl
      refine ⟨s, s', hs, hs', hsame, hstored, ?_⟩
      rw [hq', Query.values_addValues (by decide), htexts]
      rfl
  · rw [hreport numbers _ _ true hnode]
    decide

end Condition

end QueryEditor
