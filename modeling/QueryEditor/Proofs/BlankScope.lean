import QueryEditor.Proofs.CommandLines
import QueryEditor.Proofs.LookupEntity
import QueryEditor.Proofs.SavedQuery

/-!
# Blank scopes

A blank scope names no linked entity, so the condition stays about the root entity.  Still it is a
scope, and a condition with a scope is not compared with columns.

* `Console.checkCondition_site` : what a check does, read off the command line.
* `Console.modeView_of_blank` : a blank scope takes the columns out of the view and nothing else.
* `Console.run_with_blank_scope` : **a blank scope changes nothing about a run**, except that the
  columns are not printed.
* `Console.run_mode_loses_columns` : a run that does not print them.
-/

namespace QueryEditor

namespace Json

/-- One member more makes the text longer. -/
theorem length_prettyMembers_lt {members : List (Option String × Json)} (h : members ≠ [])
    (level : Nat) (m : Option String × Json) :
    (prettyMembers level members).length < (prettyMembers level (members ++ [m])).length := by
  induction members with
  | nil => exact absurd rfl h
  | cons first rest ih =>
    cases rest with
    | nil =>
      simp only [List.singleton_append, prettyMembers, List.length_append, List.length_cons]
      omega
    | cons second rest =>
      have hrest := ih nofun
      simp only [List.cons_append, prettyMembers, List.length_append, List.length_cons] at hrest ⊢
      omega

theorem pretty_ne_of_member {members : List (Option String × Json)} (h : members ≠ [])
    (m : Option String × Json) : (obj members).pretty ≠ (obj (members ++ [m])).pretty := by
  intro heq
  have hlt := length_prettyMembers_lt h (0 + 1) m
  obtain ⟨first, rest, rfl⟩ := List.exists_cons_of_ne_nil h
  have hlist := congrArg List.length (String.ofList_injective heq)
  simp only [List.cons_append, prettyAt, List.length_append, List.length_cons] at hlist hlt
  omega

end Json

namespace Console

variable {args : List String} {options : Options} {command : Command} {c : ConditionArguments}
  {scope : String}

/-! ### Printed lines -/

theorem unlines_concat (lines : List String) (line : String) :
    unlines (lines ++ [line]) = unlines lines ++ (line ++ "\n") := by
  simp [unlines, String.join]

theorem unlines_concat_ne (lines : List String) (line : String) :
    unlines (lines ++ [line]) ≠ unlines lines := by
  intro heq
  have hlength := congrArg String.length heq
  rw [unlines_concat, String.length_append, String.length_append] at hlength
  have hline : ("\n" : String).length = 1 := rfl
  omega

theorem unlines_singleton_inj {line line' : String} :
    unlines [line] = unlines [line'] ↔ line = line' := by
  rw [← List.nil_append [line], ← List.nil_append [line'], unlines_concat, unlines_concat]
  simp

namespace ModeView

variable (v : ModeView) (o : Options)

theorem exitCode_outcome : (v.outcome o).exitCode = 0 := by
  unfold outcome
  split
  · rfl
  · split <;> rfl

theorem stderr_outcome : (v.outcome o).stderr = "" := by
  unfold outcome
  split
  · rfl
  · split <;> rfl

/-- The columns stand on the last line. -/
theorem lines_eq (v : ModeView) :
    v.lines = { v with columns := none }.lines ++
      (v.columns.map fun columns => "value of: " ++ ", ".intercalate columns).toList := by
  simp [lines]

/-- The columns are the last member. -/
theorem exists_toJson_eq (v : ModeView) : ∃ members, members ≠ [] ∧
    { v with columns := none }.toJson = .obj members ∧
      ∀ columns, v.columns = some columns →
        v.toJson = .obj (members ++ [(some "value_of_candidates", .texts columns)]) := by
  obtain ⟨field, columns, label⟩ := v
  cases label with
  | none => exact ⟨_, List.cons_ne_nil _ _, rfl, fun columns h => by cases h; rfl⟩
  | some label => exact ⟨_, List.cons_ne_nil _ _, rfl, fun columns h => by cases h; rfl⟩

/-- **What is printed shows the columns**, unless the run is quiet. -/
theorem stdout_outcome_without_columns_iff :
    ({ v with columns := none }.outcome o).stdout = (v.outcome o).stdout ↔
      o.isQuiet = true ∨ v.columns = none := by
  refine ⟨fun h => ?_, fun h => ?_⟩
  · by_contra hshown
    obtain ⟨hquiet, hcolumns⟩ := not_or.1 hshown
    obtain ⟨columns, hcolumns⟩ := Option.ne_none_iff_exists'.1 hcolumns
    rw [outcome, outcome, if_neg hquiet, if_neg hquiet] at h
    cases hformat : o.format with
    | text =>
      simp only [hformat] at h
      rw [v.lines_eq, hcolumns] at h
      exact unlines_concat_ne _ _ h.symm
    | json =>
      obtain ⟨members, hne, hwithout, hwith⟩ := v.exists_toJson_eq
      simp only [hformat, Outcome.printJson] at h
      rw [hwithout, hwith columns hcolumns] at h
      exact Json.pretty_ne_of_member hne _ (unlines_singleton_inj.1 h)
  · obtain hquiet | hcolumns := h
    · rw [outcome, outcome, if_pos hquiet, if_pos hquiet]
    · rw [show { v with columns := none } = v by rw [← hcolumns]]

end ModeView

/-! ### A scope that is blank -/

namespace ConditionArguments

theorem schema_of_blank (hscope : c.scope = none) (hblank : Text.blank scope = true) :
    ({ c with scope := some scope } : ConditionArguments).schema = c.schema := by
  have hwith : ({ c with scope := some scope } : ConditionArguments).selected? = none :=
    if_pos hblank
  have hwithout : c.selected? = none := by rw [selected?, hscope, Option.bind_none]
  rw [schema, schema, hwith, hwithout]

/-- The texts of the value nodes after a save. -/
def savedValues (c : ConditionArguments) : List String :=
  match Operator.find? c.operator with
  | some op => if op.hasPendingList c.value = true ∧ c.nodes = [] then ValueList.split c.value
    else c.nodes
  | none => c.nodes

theorem values_unpack_site (c : ConditionArguments) (op : Operator) :
    (c.site.query.unpack c.site.node op c.value).query.values c.site.node =
      if op.hasPendingList c.value = true ∧ c.nodes = [] then ValueList.split c.value
      else c.nodes := by
  have hnode : c.site.node < c.site.query.size := by
    rw [node_site, size_site]
    omega
  by_cases hpending : op.hasPendingList c.value = true ∧ c.nodes = []
  · rw [if_pos hpending, Query.unpack_eq_addValues hpending.1
      (c.children_node_site_eq_nil_iff.2 hpending.2), Query.values_addValues hnode, values_site,
      hpending.2]
    rfl
  · rw [if_neg hpending, Query.unpack_eq_self, values_site]
    by_cases hlist : op.hasPendingList c.value = true
    · exact .inr fun hchildren =>
        hpending ⟨hlist, c.children_node_site_eq_nil_iff.1 hchildren⟩
    · exact .inl (by simpa using hlist)

end ConditionArguments

/-- **What a check does**, read off the command line: it reports on the condition, and lists the
values after a save that was not refused. -/
theorem checkCondition_site (s : Session) (c : ConditionArguments) (strict save : Bool) :
    checkCondition s c strict save =
      let report := c.condition.validate (s.catalog.attributes? c.schema) c.nodes (save || strict)
      reportOutcome s.options report
        (if save && !report.blocksSave then some c.savedValues else none) := by
  have hvalues : c.site.query.values c.site.node = c.nodes := c.values_site
  unfold checkCondition
  dsimp only
  rw [s.attributesOf_site c, hvalues]
  cases save with
  | false => rfl
  | true =>
    obtain ⟨report, hreport⟩ : ∃ report,
        c.condition.validate (s.catalog.attributes? c.schema) c.nodes true = report := ⟨_, rfl⟩
    have hstrict : c.site.condition.validate (s.catalog.attributes? c.schema)
        (c.site.query.values c.site.node) true = report := by
      rw [hvalues]
      exact hreport
    rw [if_pos rfl, Bool.true_or, Bool.true_and, hreport]
    cases hsave : c.site.query.save c.site.node c.site.condition
        (s.catalog.attributes? c.schema) with
    | error report' =>
      obtain ⟨hblocks, rfl⟩ := Query.save_eq_error_iff.1 hsave
      rw [hstrict] at hblocks ⊢
      rw [hblocks]
      rfl
    | ok saved =>
      obtain ⟨hpasses, op, hop, rfl⟩ := Query.save_eq_ok_iff.1 hsave
      have hop' : Operator.find? c.operator = some op := hop
      have hsaved : (c.site.query.unpack c.site.node op c.value).query.values c.site.node =
          c.savedValues := by
        rw [c.values_unpack_site op, ConditionArguments.savedValues, hop']
      rw [hstrict] at hpasses
      rw [hpasses, ← hsaved, hstrict]
      rfl

/-! ### Runs with a blank scope -/

theorem fieldOf_of_blank (hscope : c.scope = none) (hblank : Text.blank scope = true)
    (s : Session) (target : String) :
    fieldOf s ({ c with scope := some scope } : ConditionArguments).site target =
      fieldOf s c.site target := by
  rw [fieldOf_site, fieldOf_site, ConditionArguments.fieldInput, ConditionArguments.fieldInput,
    ConditionArguments.schema_of_blank hscope hblank]
  rfl

/-- A condition with a scope is not compared with columns. -/
theorem columnsOf_scoped (s : Session) (c : ConditionArguments) (scope : String) :
    columnsOf s ({ c with scope := some scope } : ConditionArguments).site = none := by
  have hscoped : ({ c with scope := some scope } : ConditionArguments).site.condition.entityName =
      some scope := rfl
  simp [columnsOf, hscoped, Settings.comparisonColumns?]

/-- **A blank scope takes the columns out of the view** and nothing else. -/
theorem modeView_of_blank (hscope : c.scope = none) (hblank : Text.blank scope = true)
    (s : Session) (target : String) (resolve : Bool) :
    modeView s { c with scope := some scope } target resolve =
      { modeView s c target resolve with columns := none } := by
  unfold modeView
  dsimp only
  rw [fieldOf_of_blank hscope hblank, columnsOf_scoped]

/-- A blank scope changes nothing about a check. -/
theorem checkCondition_of_blank (hscope : c.scope = none) (hblank : Text.blank scope = true)
    (s : Session) (strict save : Bool) :
    checkCondition s { c with scope := some scope } strict save =
      checkCondition s c strict save := by
  rw [checkCondition_site, checkCondition_site,
    ConditionArguments.schema_of_blank hscope hblank]
  rfl

/-- The columns that a command shows. -/
def Command.columns? (s : Session) : Command → Option (List String)
  | .mode c _ _ => columnsOf s c.site
  | _ => none

/-- What a blank scope changes about a command. -/
theorem Command.carryOut_of_blank (hcondition : command.condition? = some c)
    (hscope : c.scope = none) (hblank : Text.blank scope = true) (files : Files) (s : Session) :
    ((command.withScope scope).carryOut files s).exitCode = (command.carryOut files s).exitCode ∧
      ((command.withScope scope).carryOut files s).stderr = (command.carryOut files s).stderr ∧
      (((command.withScope scope).carryOut files s).stdout = (command.carryOut files s).stdout ↔
        s.options.isQuiet = true ∨ command.columns? s = none) := by
  cases command with
  | check c' strict save =>
    obtain rfl : c' = c := Option.some.inj hcondition
    have hsame := checkCondition_of_blank hscope hblank s strict save
    exact ⟨congrArg Outcome.exitCode hsame, congrArg Outcome.stderr hsame,
      iff_of_true (congrArg Outcome.stdout hsame) (.inr rfl)⟩
  | mode c' target resolve =>
    obtain rfl : c' = c := Option.some.inj hcondition
    have hshown : (Command.withScope scope (.mode c' target resolve)).carryOut files s =
        ({ modeView s c' target resolve with columns := none } : ModeView).outcome s.options := by
      rw [← modeView_of_blank hscope hblank]
      rfl
    have hview : (Command.mode c' target resolve).carryOut files s =
        (modeView s c' target resolve).outcome s.options := rfl
    rw [hshown, hview]
    exact ⟨by rw [ModeView.exitCode_outcome, ModeView.exitCode_outcome],
      by rw [ModeView.stderr_outcome, ModeView.stderr_outcome],
      (modeView s c' target resolve).stdout_outcome_without_columns_iff s.options⟩
  | operators about => cases hcondition
  | layout entity file columns widths => cases hcondition

/-- **What a blank scope changes about a run.**  It may be added to every command line about a
condition that has no scope.  However it is added, the exit code and the error channel stay as
they are; the standard output does exactly when the run is quiet or shows no columns, so always
for a check. -/
theorem run_with_blank_scope
    (hargs : Request.ofArguments args = .ok (.perform options command))
    (hcondition : command.condition? = some c) (hscope : c.scope = none)
    (hblank : Text.blank scope = true) (files : Files) :
    (∃ front rest, args = front ++ rest ∧
      Request.ofArguments (front ++ "--scope" :: scope :: rest) =
        .ok (.perform options (command.withScope scope))) ∧
      ∀ args', Request.ofArguments args' = .ok (.perform options (command.withScope scope)) →
        (run files args').exitCode = (run files args).exitCode ∧
          (run files args').stderr = (run files args).stderr ∧
          ((run files args').stdout = (run files args).stdout ↔
            options.isQuiet = true ∨
              ∀ s, Session.load files options = .ok s → command.columns? s = none) := by
  refine ⟨?_, fun args' hargs' => ?_⟩
  · obtain ⟨front, rest, heq, hadded⟩ := exists_line_withScope hargs hcondition hscope
    exact ⟨front, rest, heq, hadded scope (Argument.ofText_of_blank hblank)⟩
  · cases hload : Session.load files options with
    | error message =>
      have hsame : run files args' = run files args := by
        rw [run, run, hargs, hargs']
        dsimp only
        rw [Request.carryOut, Request.carryOut, hload]
      rw [hsame]
      exact ⟨rfl, rfl, iff_of_true rfl (.inr fun s hs => by cases hs)⟩
    | ok s =>
      have hsame := Command.carryOut_of_blank hcondition hscope hblank files s
      rw [options_of_load hload] at hsame
      rw [run_of_load hargs hload, run_of_load hargs' hload]
      simpa using hsame

/-! ### The number of employees -/

/-- A snapshot of one entity with a number, and settings by which columns can be compared. -/
def staffFiles : Files
  | "catalog.json" => .ok ("\x7b\"entities\":[\x7b\"logical_name\":\"account\"," ++
      "\"attributes\":[\x7b\"logical_name\":\"staff\",\"type\":\"integer\"\x7d]\x7d]\x7d")
  | "qtree.toml" => .ok "[engine]\ncolumn_comparison_supported = true\n"
  | _ => .error .notFound

/-- What these files describe. -/
def staffSession : Session where
  options := { catalog := some "catalog.json", config := some "qtree.toml" }
  settings := { columnComparison := true }
  catalog :=
    { entities :=
        [ { logicalName := "account"
            attributes :=
              some [{ logicalName := "staff", entityName := "account", type := .integer }] } ]
      isListed := true
      requests := [] }
  records := []

theorem load_staff : Session.load staffFiles staffSession.options = .ok staffSession :=
  load_eq_ok (by decide +kernel)

/-- A command line about the number. -/
def staffLine (name : String) (others : List String) : List String :=
  ["--config", "qtree.toml", "--catalog", "catalog.json", name, "--entity", "account",
    "--attribute", "staff", "--operator", "eq", "--value", "3"] ++ others

/-- The condition of such a command line. -/
def staffArguments : ConditionArguments :=
  { entity := "account", attributeName := "staff", operator := "eq", value := "3" }

/-- A check with a blank scope. -/
theorem run_with_blank_scope_of_check :
    (run staffFiles (staffLine "check" [])).stdout = "ok\n" ∧
      (run staffFiles (staffLine "check" ["--scope", "\t "])).stdout = "ok\n" ∧
      (run staffFiles (staffLine "check" ["--scope", "\t "])).exitCode =
        (run staffFiles (staffLine "check" [])).exitCode := by
  have hargs : Request.ofArguments (staffLine "check" []) =
      .ok (.perform staffSession.options (.check staffArguments false false)) := by
    decide
  have hargs' : Request.ofArguments (staffLine "check" ["--scope", "\t "]) =
      .ok (.perform staffSession.options
        ((Command.check staffArguments false false).withScope "\t ")) := by
    decide
  have hstdout : (run staffFiles (staffLine "check" [])).stdout = "ok\n" := by
    rw [run_of_load hargs load_staff]
    decide
  obtain ⟨hexit, -, hsame⟩ :=
    (run_with_blank_scope hargs rfl rfl (by decide) staffFiles).2 _ hargs'
  exact ⟨hstdout, (hsame.2 (.inr fun _ _ => rfl)).trans hstdout, hexit⟩

/-- **A blank scope hides the columns.**  The condition is about the root entity with it as
without it, and only without it the number can be compared with columns. -/
theorem run_mode_loses_columns :
    ({ staffArguments with scope := some "" } : ConditionArguments).schema =
        staffArguments.schema ∧
      (run staffFiles (staffLine "mode" [])).stdout =
        "mode: free_text\nvalue: 3\nvalue of: staff\n" ∧
      (run staffFiles (staffLine "mode" ["--scope", ""])).stdout =
        "mode: free_text\nvalue: 3\n" := by
  have hargs : Request.ofArguments (staffLine "mode" []) =
      .ok (.perform staffSession.options (.mode staffArguments "" false)) := by
    decide
  have hargs' : Request.ofArguments (staffLine "mode" ["--scope", ""]) =
      .ok (.perform staffSession.options
        (.mode { staffArguments with scope := some "" } "" false)) := by
    decide
  refine ⟨ConditionArguments.schema_of_blank rfl (by decide), ?_, ?_⟩
  · rw [run_of_load hargs load_staff]
    decide
  · rw [run_of_load hargs' load_staff]
    decide

end Console

end QueryEditor
