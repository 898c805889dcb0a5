import QueryEditor.Proofs.BlankScope
import QueryEditor.Proofs.PaddedText
import QueryEditor.Proofs.PendingLists

/-!
# Lists that are entered again

A list of values is taken apart at its commas, whatever stands before or after them
(`ValueList.split_append_comma`), so a list that is put together from values is taken apart into the
same values, with any white space around them (`ValueList.split_joined_iff`).

* `ValueList.isValue_of_mem_split` : what a text has to be like to stand in a list.
* `Condition.validate_joined` : a saved list that is entered again passes as before.
* `Query.save_joined` : **a save of what a save has made makes the same value nodes.**
* `Console.checkCondition_joined` : so does a run that is given the values that a run has printed.
* `ValueList.split_laws` : the laws of lists in one place.
-/

namespace QueryEditor

namespace ValueList

variable {text value : String} {values pieces : List String}

/-- A text that can stand in a list as one value: there is something in it, no comma, and no white
space around it. -/
structure IsValue (text : String) : Prop where
  ne_empty : text ≠ ""
  comma_not_mem : ',' ∉ text.toList
  trim_eq : Text.trim text = text

/-- A text puts values together: there is a comma between any two and white space anywhere around
them. -/
def Joins (values : List String) (text : String) : Prop :=
  ∃ pieces, List.Forall₂ Text.Padded values pieces ∧ text = ",".intercalate pieces

/-! ### Taking apart -/

/-- **A list is taken apart at each comma.** -/
theorem split_append_comma (before after : String) :
    split (before ++ "," ++ after) = split before ++ split after := by
  have hcomma : (before ++ "," ++ after).toList = before.toList ++ ',' :: after.toList := by
    simp
  rw [split, hcomma, List.splitOn_append_cons_self, List.map_append, List.filter_append,
    List.map_append, split, split]

theorem split_intercalate (pieces : List String) :
    split (",".intercalate pieces) = pieces.flatMap split := by
  induction pieces with
  | nil => rfl
  | cons piece pieces ih =>
    rcases pieces with _ | ⟨next, pieces⟩
    · simp
    · rw [String.intercalate_cons_cons, split_append_comma, ih]
      rfl

theorem mem_split_iff :
    value ∈ split text ↔ ∃ piece ∈ text.toList.splitOn ',',
      Text.trimmed piece ≠ [] ∧ value = String.ofList (Text.trimmed piece) := by
  simp only [split, List.mem_map, List.mem_filter, decide_eq_true_eq]
  constructor
  · rintro ⟨_, ⟨⟨piece, hpiece, rfl⟩, hne⟩, rfl⟩
    exact ⟨piece, hpiece, hne, rfl⟩
  · rintro ⟨piece, hpiece, hne, rfl⟩
    exact ⟨_, ⟨⟨piece, hpiece, rfl⟩, hne⟩, rfl⟩

/-- **What stands in a list is a value.** -/
theorem isValue_of_mem_split (h : value ∈ split text) : IsValue value := by
  obtain ⟨piece, hpiece, hne, rfl⟩ := mem_split_iff.1 h
  refine ⟨fun hempty => hne (String.ofList_injective hempty), fun hcomma => ?_, ?_⟩
  · obtain ⟨before, after, -, -, heq⟩ := Text.exists_trimmed piece
    have hmem : ',' ∈ piece := by
      rw [heq]
      simp only [List.mem_append]
      exact .inl (.inr (by simpa using hcomma))
    exact (exists_piece_iff.1 ⟨piece, hpiece, hmem⟩).2 rfl
  · have htrim : Text.trim (String.ofList piece) = String.ofList (Text.trimmed piece) := by
      rw [Text.trim, String.toList_ofList]
    rw [← htrim, Text.trim_trim]

/-- A value alone is a list of one value. -/
theorem IsValue.split_eq (h : IsValue value) : split value = [value] := by
  have hcomma : ∀ c ∈ value.toList, (c == ',') = false := by
    intro c hc
    refine beq_false_of_ne ?_
    rintro rfl
    exact h.comma_not_mem hc
  have htrim : Text.trimmed value.toList = value.toList := by
    have heq := congrArg String.toList h.trim_eq
    rwa [Text.trim, String.toList_ofList] at heq
  have hne : value.toList ≠ [] := by
    intro hnil
    exact h.ne_empty (String.toList_injective hnil)
  rw [split, List.splitOn_eq_singleton_of_beq_eq_false hcomma, List.map_singleton, htrim]
  simp [hne]

/-! ### Putting together -/

theorem intercalate_append_cons (separator start first : String) (rest : List String) :
    separator.intercalate ((start ++ first) :: rest) =
      start ++ separator.intercalate (first :: rest) := by
  rcases rest with _ | ⟨next, rest⟩
  · rw [String.intercalate_singleton, String.intercalate_singleton]
  · rw [String.intercalate_cons_cons, String.intercalate_cons_cons]
    simp only [String.append_assoc]

/-- With a space after each comma all pieces but the first one start with a space. -/
theorem intercalate_printed (value : String) (values : List String) :
    ", ".intercalate (value :: values) = ",".intercalate (value :: values.map (" " ++ ·)) := by
  induction values generalizing value with
  | nil => rfl
  | cons next values ih =>
    have hcomma : ", " = "," ++ " " := rfl
    rw [String.intercalate_cons_cons, ih, List.map_cons, String.intercalate_cons_cons,
      intercalate_append_cons, hcomma]
    simp only [String.append_assoc]

/-- The form in which values are printed puts them together. -/
theorem joins_printed (values : List String) : Joins values (", ".intercalate values) := by
  rcases values with _ | ⟨value, values⟩
  · exact ⟨[], .nil, rfl⟩
  · refine ⟨value :: values.map (" " ++ ·), .cons (.refl value) ?_,
      intercalate_printed value values⟩
    rw [List.forall₂_map_right_iff]
    refine List.forall₂_same.2 fun v _ => ⟨[' '], [], rfl, rfl, ?_⟩
    simp

theorem Joins.eq_empty (h : Joins [] text) : text = "" := by
  obtain ⟨pieces, hpieces, rfl⟩ := h
  cases hpieces
  rfl

theorem split_flatMap_padded (h : List.Forall₂ Text.Padded values pieces) :
    pieces.flatMap split = values.flatMap split := by
  induction h with
  | nil => rfl
  | cons hfirst _ ih => rw [List.flatMap_cons, List.flatMap_cons, split_padded hfirst, ih]

theorem Joins.split_eq (h : Joins values text) : split text = values.flatMap split := by
  obtain ⟨pieces, hpieces, rfl⟩ := h
  rw [split_intercalate, split_flatMap_padded hpieces]

/-- **A list is taken apart into the values that it was put together from**, and it is so for
values only. -/
theorem split_joined_iff (h : Joins values text) :
    split text = values ↔ ∀ value ∈ values, IsValue value := by
  constructor
  · rintro hsplit value hvalue
    exact isValue_of_mem_split (hsplit.symm ▸ hvalue)
  · intro hvalues
    rw [h.split_eq]
    calc values.flatMap split
        = values.flatMap fun value => [value] :=
          List.flatMap_congr fun value hvalue => (hvalues value hvalue).split_eq
      _ = values := List.flatMap_singleton' values

theorem Joins.split_eq_split {list : String} (h : Joins (split list) text) :
    split text = split list :=
  (split_joined_iff h).2 fun _ hvalue => isValue_of_mem_split hvalue

theorem split_of_blank (h : Text.blank text = true) : split text = [] :=
  split_eq_nil_iff.2 fun c hc => .inr (List.all_eq_true.1 h c hc)

end ValueList

open ValueList (Joins)

variable {q : Query} {node : Nat} {c : Condition} {attributes : Option (List Attribute)}
  {op : Operator} {text : String}

/-! ### Validating again -/

/-- The values of a list are checked, also where it is blank: there are none then. -/
theorem Check.pendingList_eq_valueNodes {a : Option Attribute} (hm : op.isMulti = true) :
    Check.pendingList op a text = Check.valueNodes op a (ValueList.split text) := by
  cases hb : Text.blank text with
  | true =>
    rw [ValueList.split_of_blank hb]
    simp [Check.pendingList, Check.valueNodes, hb]
  | false => simp [Check.pendingList, hm, hb]

/-- **A list that passed passes again** when it is put together from its values. -/
theorem Condition.validate_joined (hop : Operator.find? c.operator = some op)
    (hm : op.isMulti = true) (hpass : (c.validate attributes [] true).blocksSave = false)
    (hjoins : Joins (ValueList.split c.value) text) :
    ({ c with value := text } : Condition).validate attributes [] true =
      c.validate attributes [] true := by
  obtain ⟨-, op', hop', hchecks⟩ := Condition.validate_passes_iff.1 hpass
  obtain rfl : op = op' := Option.some.inj (hop.symm.trans hop')
  have hagain : Check.withOperator op (c.attribute? attributes)
      ({ c with value := text } : Condition) [] true = [] := by
    obtain ⟨hcompatible, hvalue, hnodes, hpending⟩ := Check.withOperator_eq_nil_iff.1 hchecks
    refine Check.withOperator_eq_nil_iff.2 ⟨hcompatible, ?_, hnodes, fun _ _ => ?_⟩
    · show Check.value op _ text c.valueOf 0 = none
      by_cases hcolumn : Text.blank c.valueOf = true
      · exact Check.value_of_not_applies hcolumn (by simp [Check.applies, hm])
      · -- beside a column there was no list, and so there is none now
        have hblank : Text.blank c.value = true :=
          Check.blank_of_value_eq_none (by simpa using hcolumn) hvalue
        rw [ValueList.split_of_blank hblank] at hjoins
        rw [hjoins.eq_empty]
        exact Check.value_empty (.inr hm) _ _
    · show Check.pendingList op _ text = []
      rw [Check.pendingList_eq_valueNodes hm, hjoins.split_eq_split,
        ← Check.pendingList_eq_valueNodes hm]
      exact hpending rfl rfl
  have hoperator : ({ c with value := text } : Condition).operator? = some op :=
    Condition.operator?_eq_find?.trans hop
  have hattribute : ({ c with value := text } : Condition).attribute? attributes =
      c.attribute? attributes := rfl
  rw [Condition.validate, Condition.validate, hoperator, Condition.operator?_eq_find?, hop]
  dsimp only
  rw [hattribute, hagain, hchecks]

/-! ### Saving again -/

namespace Query

variable {s : Saved}

/-- Where nothing stands under a node, the values of a list become its children. -/
theorem unpack_of_children_eq_nil (hm : op.isMulti = true) (hc : q.children node = []) :
    (q.unpack node op text).query = q.addValues node (ValueList.split text) ∧
      (q.unpack node op text).created = (ValueList.split text).length := by
  cases hp : op.hasPendingList text with
  | true =>
    rw [unpack_eq_addValues hp hc]
    exact ⟨rfl, rfl⟩
  | false =>
    have hblank : Text.blank text = true := by simpa [Operator.hasPendingList, hm] using hp
    rw [unpack_eq_self (.inl hp), ValueList.split_of_blank hblank]
    exact ⟨rfl, rfl⟩

theorem values_of_save (hn : node < q.size) (hc : q.children node = [])
    (hop : Operator.find? c.operator = some op) (hm : op.isMulti = true)
    (h : q.save node c attributes = .ok s) : s.query.values node = ValueList.split c.value := by
  obtain ⟨-, op', hop', rfl⟩ := save_eq_ok_iff.1 h
  obtain rfl : op = op' := Option.some.inj (hop.symm.trans hop')
  rw [(unpack_of_children_eq_nil hm hc).1, values_addValues hn, values_eq_nil hc, List.nil_append]

/-- **The values that a save has made can be entered again as a list**: if the condition holds this
list instead, it is saved as well, with the same value nodes. -/
theorem save_joined (hn : node < q.size) (hc : q.children node = [])
    (hop : Operator.find? c.operator = some op) (hm : op.isMulti = true)
    (h : q.save node c attributes = .ok s) (hjoins : Joins (s.query.values node) text) :
    ∃ s', q.save node { c with value := text } attributes = .ok s' ∧ s'.query = s.query ∧
      s'.created = s.created ∧ s'.report = s.report := by
  rw [values_of_save hn hc hop hm h] at hjoins
  obtain ⟨hpass, op', hop', rfl⟩ := save_eq_ok_iff.1 h
  obtain rfl : op = op' := Option.some.inj (hop.symm.trans hop')
  have hvalues : q.values node = [] := values_eq_nil hc
  rw [hvalues] at hpass
  have hsame := Condition.validate_joined hop hm hpass hjoins
  have hpass' : (({ c with value := text } : Condition).validate attributes (q.values node)
      true).blocksSave = false := by
    rw [hvalues, hsame]
    exact hpass
  refine ⟨_, save_eq_ok_iff.2 ⟨hpass', op, hop, rfl⟩, ?_, ?_, ?_⟩
  · show (q.unpack node op text).query = (q.unpack node op c.value).query
    rw [(unpack_of_children_eq_nil hm hc).1, (unpack_of_children_eq_nil hm hc).1,
      hjoins.split_eq_split]
  · show (q.unpack node op text).created = (q.unpack node op c.value).created
    rw [(unpack_of_children_eq_nil hm hc).2, (unpack_of_children_eq_nil hm hc).2,
      hjoins.split_eq_split]
  · rw [hvalues]
    exact hsame

end Query

namespace Console

variable {line : ConditionArguments}

theorem ConditionArguments.savedValues_eq_split (hnodes : line.nodes = [])
    (hop : Operator.find? line.operator = some op) (hm : op.isMulti = true) :
    line.savedValues = ValueList.split line.value := by
  rw [savedValues, hop]
  show (if op.hasPendingList line.value = true ∧ line.nodes = [] then _ else _) = _
  split
  case isTrue => rfl
  case isFalse hnone =>
    have hblank : Text.blank line.value = true := by
      simpa [hnodes, Operator.hasPendingList, hm] using hnone
    rw [hnodes, ValueList.split_of_blank hblank]

/-- **The values that a run has printed can be entered again as a list**: the run that is given this
list ends as the one that printed it. -/
theorem checkCondition_joined (s : Session) (strict : Bool) (hnodes : line.nodes = [])
    (hop : Operator.find? line.operator = some op) (hm : op.isMulti = true)
    (hpass : (line.condition.validate (s.catalog.attributes? line.schema) line.nodes
      true).blocksSave = false) (hjoins : Joins line.savedValues text) :
    checkCondition s { line with value := text } strict true =
      checkCondition s line strict true := by
  rw [line.savedValues_eq_split hnodes hop hm] at hjoins
  rw [hnodes] at hpass
  have hsaved : ({ line with value := text } : ConditionArguments).savedValues =
      line.savedValues := by
    rw [line.savedValues_eq_split hnodes hop hm, ← hjoins.split_eq_split]
    exact ConditionArguments.savedValues_eq_split hnodes hop hm
  have hschema : ({ line with value := text } : ConditionArguments).schema = line.schema := rfl
  have hcondition : ({ line with value := text } : ConditionArguments).condition =
      { line.condition with value := text } := rfl
  have hoperator : Operator.find? line.condition.operator = some op := hop
  have hreport : ({ line.condition with value := text } : Condition).validate
      (s.catalog.attributes? line.schema) line.nodes true =
        line.condition.validate (s.catalog.attributes? line.schema) line.nodes true := by
    rw [hnodes]
    exact Condition.validate_joined hoperator hm hpass hjoins
  rw [checkCondition_site, checkCondition_site, hsaved, hschema, hcondition]
  dsimp only
  rw [Bool.true_or, hreport]

/-- A command line with a list of numbers. -/
def numbersLine (text : String) : ConditionArguments :=
  { entity := "account", attributeName := "numberofemployees", operator := "in", value := text }

/-- A session without files. -/
def bareSession : Session where
  options := {}
  settings := {}
  catalog := .unavailable
  records := []

end Console

namespace ValueList

open Console (Session ConditionArguments checkCondition)

/-- **The laws of lists.**  A list is taken apart at each comma.  What stands in it are values, and
texts that are put together are found again exactly if they are values; the form in which values are
printed is one that puts them together.  So where nothing stands under a condition with several
values, any text that puts together what a save has made is saved with the same value nodes, and a
run that is given such a text ends as the one that printed the values. -/
theorem split_laws :
    (∀ before after, split (before ++ "," ++ after) = split before ++ split after) ∧
      (∀ text, ∀ value ∈ split text, IsValue value) ∧
      (∀ values text, Joins values text →
        (split text = values ↔ ∀ value ∈ values, IsValue value)) ∧
      (∀ values, Joins values (", ".intercalate values)) ∧
      (∀ (q : Query) (node : Nat) (c : Condition) (attributes : Option (List Attribute))
        (op : Operator) (s : Query.Saved),
        node < q.size → q.children node = [] → Operator.find? c.operator = some op →
        op.isMulti = true → q.save node c attributes = .ok s →
        ∀ text, Joins (s.query.values node) text →
          ∃ s', q.save node { c with value := text } attributes = .ok s' ∧
            s'.query = s.query ∧ s'.created = s.created ∧ s'.report = s.report) ∧
      ∀ (s : Session) (line : ConditionArguments) (strict : Bool) (op : Operator),
        line.nodes = [] → Operator.find? line.operator = some op → op.isMulti = true →
        (line.condition.validate (s.catalog.attributes? line.schema) line.nodes
          true).blocksSave = false →
        ∀ text, Joins line.savedValues text →
          checkCondition s { line with value := text } strict true =
            checkCondition s line strict true := by
  refine ⟨split_append_comma, fun _ _ hvalue => isValue_of_mem_split hvalue,
    fun _ _ hjoins => split_joined_iff hjoins, joins_printed, ?_, ?_⟩
  · intro q node c attributes op s hn hc hop hm hsave text hjoins
    exact Query.save_joined hn hc hop hm hsave hjoins
  · intro s line strict op hnodes hop hm hpass text hjoins
    exact Console.checkCondition_joined s strict hnodes hop hm hpass hjoins

/-- A list of numbers with a blank piece in it is saved, and the two numbers are entered again in
the form in which they are printed, and with other white space around them. -/
theorem split_laws_of_numbers : ∃ s s' : Query.Saved, ∃ op,
    split "1, ,2" = ["1", "2"] ∧ Joins ["1", "2"] "1, 2" ∧ split "1, 2" = ["1", "2"] ∧
      Joins ["1", "2"] " 1\t,2\n" ∧
      Operator.find? (Query.numbersQuery.numbers "1, ,2").operator = some op ∧ op.isMulti = true ∧
      (Query.numbersQuery "1, ,2").save 2 (Query.numbersQuery.numbers "1, ,2")
        Query.numberAttribute = .ok s ∧
      s.query.values 2 = ["1", "2"] ∧
      (Query.numbersQuery "1, ,2").save 2
        { Query.numbersQuery.numbers "1, ,2" with value := " 1\t,2\n" }
        Query.numberAttribute = .ok s' ∧
      s'.query = s.query ∧
      (Console.numbersLine "1, ,2").savedValues = ["1", "2"] ∧
      checkCondition Console.bareSession { Console.numbersLine "1, ,2" with value := "1, 2" }
          false true =
        checkCondition Console.bareSession (Console.numbersLine "1, ,2") false true := by
  obtain ⟨-, hvalues, hiff, hprinted, hsaves, hruns⟩ := split_laws
  have hlist : split "1, ,2" = ["1", "2"] := by decide
  have hnumbers : ∀ value ∈ ["1", "2"], IsValue value := hlist ▸ hvalues "1, ,2"
  have hspaced : Joins ["1", "2"] " 1\t,2\n" :=
    ⟨[" 1\t", "2\n"], .cons ⟨[' '], ['\t'], rfl, rfl, rfl⟩ <|
      .cons ⟨[], ['\n'], rfl, rfl, rfl⟩ .nil, by decide⟩
  have hop : Operator.find? (Query.numbersQuery.numbers "1, ,2").operator = some _ := rfl
  have hsave : (Query.numbersQuery "1, ,2").save 2 (Query.numbersQuery.numbers "1, ,2")
      Query.numberAttribute = .ok _ := rfl
  have hmade : (Query.numbersQuery "1, ,2").children 2 = [] := by decide
  obtain ⟨s', hsave', hquery, -, -⟩ :=
    hsaves _ 2 _ _ _ _ (by decide) hmade hop rfl hsave _ hspaced
  have hline : (Console.numbersLine "1, ,2").savedValues = ["1", "2"] := by decide
  have hrun := hruns Console.bareSession (Console.numbersLine "1, ,2") false _ rfl rfl rfl
    (by decide) "1, 2" (hline ▸ hprinted ["1", "2"])
  exact ⟨_, s', _, hlist, hprinted _, (hiff _ _ (hprinted _)).2 hnumbers, hspaced, hop, rfl, hsave,
    by decide, hsave', hquery, hline, hrun⟩

end ValueList

end QueryEditor
