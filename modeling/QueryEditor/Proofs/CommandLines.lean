import Mathlib.Data.List.Basic
import QueryEditor.Console.Arguments
import QueryEditor.Text.Blank

/-!
# Command lines with one option more

What a line begins with is an option, a word or neither (`Console.scan_cases`), and what an option
does depends only on the options before it.  So an option may be put in front of others
(`Console.scan_finished_cons`), and a condition without a scope may be given one
(`Console.exists_line_withScope`).
-/

namespace QueryEditor

namespace Console

variable {rules : List Rule} {notices : Argument → Option Notice} {given all : Given} {r : Rule}
  {name value word : String} {args rest : List String}

/-! ### Reading options -/

theorem Given.add_eq_ok_iff {given' : Given} :
    given.add r value = .ok given' ↔
      r.accepts value = true ∧ ¬(r.arity ≠ .repeated ∧ given.any (·.1 == r.name) = true) ∧
        given' = given ++ [(r.name, value)] := by
  unfold Given.add
  cases haccepts : r.accepts value with
  | false => simp
  | true =>
    by_cases honce : r.arity ≠ .repeated ∧ given.any (·.1 == r.name) = true
    · simp [honce]
    · rw [if_neg (by simp), if_neg honce, Except.ok.injEq]
      simp only [true_and, honce, not_false_eq_true]
      exact eq_comm

/-- The arguments give one option, whatever was given before and whatever follows. -/
def TakesOption (rules : List Rule) (notices : Argument → Option Notice) (taken : List String)
    (r : Rule) (value : String) : Prop :=
  ∀ given rest, scan rules notices given (taken ++ rest) =
    match given.add r value with
    | .ok given => scan rules notices given rest
    | .error e => .failed e

/-- An argument with the form of an option gives one, alone or with the next argument as its
value, or the line cannot be read. -/
theorem scan_long {arg : String} {value : Option String} (hn : notices (.ofText arg) = none)
    (ha : Argument.ofText arg = .long name value) :
    (∃ taken r value rest', arg :: rest = taken ++ rest' ∧ taken ≠ [] ∧
        TakesOption rules notices taken r value) ∨
      ∃ e, ∀ given, scan rules notices given (arg :: rest) = .failed e := by
  rw [ha] at hn
  cases hr : rules.find? (·.name == name) with
  | none =>
    refine .inr ⟨.unknownOption name, fun given => ?_⟩
    rw [scan.eq_def]
    simp only [ha, hn, hr]
  | some r =>
    cases harity : r.arity with
    | flag =>
      cases value with
      | some value =>
        refine .inr ⟨.unexpectedValue name, fun given => ?_⟩
        rw [scan.eq_def]
        simp only [ha, hn, hr, harity]
      | none =>
        refine .inl ⟨[arg], r, "", rest, rfl, nofun, fun given rest => ?_⟩
        rw [List.singleton_append, scan.eq_def]
        cases hadd : given.add r "" <;> simp only [ha, hn, hr, harity, hadd]
    | single | repeated =>
      cases value with
      | some value =>
        refine .inl ⟨[arg], r, value, rest, rfl, nofun, fun given rest => ?_⟩
        rw [List.singleton_append, scan.eq_def]
        cases hadd : given.add r value <;> simp only [ha, hn, hr, harity, hadd]
      | none =>
        cases rest with
        | nil =>
          refine .inr ⟨.missingValue name, fun given => ?_⟩
          rw [scan.eq_def]
          simp only [ha, hn, hr, harity]
        | cons value rest =>
          by_cases hword : Argument.ofText value = .word
          · refine .inl ⟨[arg, value], r, value, rest, rfl, nofun, fun given rest => ?_⟩
            rw [List.cons_append, scan.eq_def]
            cases hadd : given.add r value <;>
              simp only [ha, hn, hr, harity, List.singleton_append, hword, if_true, hadd]
          · refine .inr ⟨.missingValue name, fun given => ?_⟩
            rw [scan.eq_def]
            simp only [ha, hn, hr, harity, if_neg hword]

/-- **What a line begins with**: an option, a word or neither. -/
theorem scan_cases (rules : List Rule) (notices : Argument → Option Notice) (args : List String) :
    (∃ taken r value rest, args = taken ++ rest ∧ taken ≠ [] ∧
        TakesOption rules notices taken r value) ∨
      (∃ word rest, args = word :: rest ∧
        ∀ given rest, scan rules notices given (word :: rest) = .word given word rest) ∨
      (∀ given, scan rules notices given args = .finished given) ∨
        (∃ e, ∀ given, scan rules notices given args = .failed e) ∨
          ∃ n, ∀ given, scan rules notices given args = .notice n := by
  cases args with
  | nil => exact .inr (.inr (.inl fun given => rfl))
  | cons arg rest =>
    cases hn : notices (.ofText arg) with
    | some n =>
      refine .inr (.inr (.inr (.inr ⟨n, fun given => ?_⟩)))
      rw [scan.eq_def]
      simp only [hn]
    | none =>
      cases ha : Argument.ofText arg with
      | word =>
        refine .inr (.inl ⟨arg, rest, rfl, fun given rest => ?_⟩)
        rw [scan.eq_def]
        simp only [ha, ha ▸ hn]
      | short letter =>
        refine .inr (.inr (.inr (.inl ⟨.unknownOption (.singleton letter), fun given => ?_⟩)))
        rw [scan.eq_def]
        simp only [ha, ha ▸ hn]
      | separator =>
        cases rest with
        | nil =>
          refine .inr (.inr (.inl fun given => ?_))
          rw [scan.eq_def]
          simp only [ha, ha ▸ hn]
        | cons word rest =>
          refine .inr (.inr (.inr (.inl ⟨.unexpectedWord word, fun given => ?_⟩)))
          rw [scan.eq_def]
          simp only [ha, ha ▸ hn]
      | long name value =>
        obtain hoption | hfailed := scan_long hn ha
        · exact .inl hoption
        · exact .inr (.inr (.inr (.inl hfailed)))

/-- A line read up to a word is read up to that word whatever follows it. -/
theorem exists_of_scan_word {before : Given}
    (h : scan rules notices given args = .word before word rest) :
    ∃ front, args = front ++ word :: rest ∧
      ∀ rest, scan rules notices given (front ++ word :: rest) = .word before word rest := by
  induction hlength : args.length using Nat.strongRecOn generalizing args given with
  | ind n ih =>
    obtain ⟨taken, r, value, rest', rfl, hne, htakes⟩ | ⟨word', rest', rfl, hword⟩ | hends |
      ⟨e, hfailed⟩ | ⟨n, hnotice⟩ := scan_cases rules notices args
    · have hpos : 0 < taken.length := List.length_pos_iff.2 hne
      rw [htakes] at h
      cases hadd : given.add r value with
      | error e => rw [hadd] at h; cases h
      | ok given' =>
        rw [hadd] at h
        obtain ⟨front, hrest, hfront⟩ := ih rest'.length
          (by rw [← hlength, List.length_append]; omega) h rfl
        refine ⟨taken ++ front, by rw [List.append_assoc, ← hrest], fun rest => ?_⟩
        rw [List.append_assoc, htakes, hadd]
        exact hfront rest
    · rw [hword] at h
      cases h
      exact ⟨[], rfl, hword _⟩
    · rw [hends] at h
      cases h
    · rw [hfailed] at h
      cases h
    · rw [hnotice] at h
      cases h

/-- An option that is given first is there beside those that are read, if none has its name. -/
theorem scan_finished_cons (h : scan rules notices given args = .finished all)
    (hname : ∀ p ∈ all, p.1 ≠ name) (value : String) :
    given <+: all ∧
      scan rules notices ((name, value) :: given) args = .finished ((name, value) :: all) := by
  induction hlength : args.length using Nat.strongRecOn generalizing args given with
  | ind n ih =>
    obtain ⟨taken, r, value', rest', rfl, hne, htakes⟩ | ⟨word', rest', rfl, hword⟩ | hends |
      ⟨e, hfailed⟩ | ⟨n, hnotice⟩ := scan_cases rules notices args
    · have hpos : 0 < taken.length := List.length_pos_iff.2 hne
      rw [htakes] at h
      cases hadd : given.add r value' with
      | error e => rw [hadd] at h; cases h
      | ok given' =>
        rw [hadd] at h
        obtain ⟨hbegins, hrest⟩ := ih rest'.length
          (by rw [← hlength, List.length_append]; omega) h rfl
        obtain ⟨haccepts, honce, rfl⟩ := Given.add_eq_ok_iff.1 hadd
        have hother : r.name ≠ name :=
          hname (r.name, value') (hbegins.subset (List.mem_append_right _ List.mem_cons_self))
        refine ⟨(List.prefix_append _ _).trans hbegins, ?_⟩
        have hadd' : Given.add ((name, value) :: given) r value' =
            .ok (((name, value) :: given) ++ [(r.name, value')]) := by
          refine Given.add_eq_ok_iff.2 ⟨haccepts, ?_, rfl⟩
          simpa [hother.symm] using honce
        rw [htakes, hadd']
        exact hrest
    · rw [hword] at h
      cases h
    · rw [hends] at h
      cases h
      exact ⟨List.prefix_refl _, hends _⟩
    · rw [hfailed] at h
      cases h
    · rw [hnotice] at h
      cases h

/-! ### Commands about a condition -/

/-- The condition that a command is about. -/
def Command.condition? : Command → Option ConditionArguments
  | .check c _ _ => some c
  | .mode c _ _ => some c
  | _ => none

/-- The same command with a scope for its condition. -/
def Command.withScope (scope : String) : Command → Command
  | .check c strict save => .check { c with scope := some scope } strict save
  | .mode c target resolve => .mode { c with scope := some scope } target resolve
  | command => command

/-- A blank argument is no option. -/
theorem Argument.ofText_of_blank (h : Text.blank value = true) : Argument.ofText value = .word := by
  rw [Text.blank] at h
  rw [Argument.ofText]
  cases hcs : value.toList with
  | nil => rfl
  | cons c cs =>
    rw [hcs, List.all_cons, Bool.and_eq_true] at h
    have hc : c ≠ '-' := by
      rintro rfl
      exact absurd h.1 (by decide)
    split <;> simp_all

namespace Given

theorem value?_cons_of_ne {key : String} (h : key ≠ name) (given : Given) (value : String) :
    Given.value? ((name, value) :: given) key = given.value? key := by
  simp only [value?, List.lookup_cons, beq_eq_false_iff_ne.2 h]

theorem has_cons_of_ne {key : String} (h : key ≠ name) (given : Given) (value : String) :
    Given.has ((name, value) :: given) key = given.has key :=
  congrArg Option.isSome (value?_cons_of_ne h given value)

theorem all_cons_of_ne {key : String} (h : key ≠ name) (given : Given) (value : String) :
    Given.all ((name, value) :: given) key = given.all key := by
  rw [Given.all, List.filter_cons_of_neg (by simpa using h.symm)]
  rfl

theorem ne_of_value?_eq_none (h : given.value? name = none) : ∀ p ∈ given, p.1 ≠ name := by
  intro p hp heq
  exact absurd heq.symm (by simpa using List.lookup_eq_none_iff.1 h p hp)

end Given

theorem ConditionArguments.ofGiven_scope (given : Given) (value : String) :
    ConditionArguments.ofGiven (("scope", value) :: given) =
      (ConditionArguments.ofGiven given).map fun c => { c with scope := some value } := by
  have hvalue (key : String) (h : key ≠ "scope") :
      Given.value? (("scope", value) :: given) key = given.value? key :=
    Given.value?_cons_of_ne h given value
  unfold ConditionArguments.ofGiven Given.required
  rw [hvalue "entity" (by decide), hvalue "attribute" (by decide), hvalue "operator" (by decide),
    hvalue "value" (by decide), hvalue "value-of" (by decide), Given.all_cons_of_ne (by decide),
    Given.all_cons_of_ne (by decide)]
  cases given.value? "entity" <;> rfl

theorem ConditionArguments.scope_of_ofGiven {c : ConditionArguments}
    (h : ConditionArguments.ofGiven given = .ok c) : c.scope = given.value? "scope" := by
  unfold ConditionArguments.ofGiven at h
  cases hentity : given.required "entity" with
  | error e => rw [hentity] at h; cases h
  | ok entity =>
    rw [hentity] at h
    cases h
    rfl

theorem Options.ofGiven_scope (before given : Given) (value : String) :
    Options.ofGiven before (("scope", value) :: given) = Options.ofGiven before given := by
  have hvalue (key : String) (h : key ≠ "scope") :
      Given.value? (("scope", value) :: given) key = given.value? key :=
    Given.value?_cons_of_ne h given value
  simp only [Options.ofGiven, hvalue "output" (by decide), hvalue "quiet" (by decide),
    hvalue "config" (by decide), hvalue "catalog" (by decide)]

/-- The commands about a condition read a scope like any other option. -/
theorem Command.ofGiven_scope {command : Command} {c : ConditionArguments}
    (h : Command.ofGiven name given = .ok command) (hc : command.condition? = some c)
    (hscope : c.scope = none) :
    (name = "check" ∨ name = "mode") ∧ given.value? "scope" = none ∧
      ∀ value, Command.ofGiven name (("scope", value) :: given) =
        .ok (command.withScope value) := by
  unfold Command.ofGiven at h
  split at h
  · cases hgiven : ConditionArguments.ofGiven given with
    | error e => rw [hgiven] at h; cases h
    | ok c' =>
      rw [hgiven] at h
      cases h
      cases hc
      refine ⟨.inl rfl, ConditionArguments.scope_of_ofGiven hgiven ▸ hscope, fun value => ?_⟩
      unfold Command.ofGiven
      rw [ConditionArguments.ofGiven_scope, hgiven, Given.has_cons_of_ne (by decide),
        Given.has_cons_of_ne (by decide)]
      rfl
  · unfold operatorsOfGiven at h
    split at h <;> cases h <;> cases hc
  · cases hgiven : ConditionArguments.ofGiven given with
    | error e => rw [hgiven] at h; cases h
    | ok c' =>
      rw [hgiven] at h
      cases h
      cases hc
      refine ⟨.inr rfl, ConditionArguments.scope_of_ofGiven hgiven ▸ hscope, fun value => ?_⟩
      unfold Command.ofGiven
      rw [ConditionArguments.ofGiven_scope, hgiven, Given.value?_cons_of_ne (by decide),
        Given.has_cons_of_ne (by decide)]
      rfl
  · cases hentity : given.required "entity" <;> rw [hentity] at h <;> cases h
    cases hc
  · cases h

/-- A command line is a command with the options before and after its name. -/
theorem exists_of_ofArguments {options : Options} {command : Command}
    (h : Request.ofArguments args = .ok (.perform options command)) :
    ∃ before name rest rules,
      scan commonRules leadingNotice [] args = .word before name rest ∧
      rulesOf? name = some rules ∧
      Request.ofCommand before name rules rest = .ok (.perform options command) := by
  unfold Request.ofArguments at h
  cases hscan : scan commonRules leadingNotice [] args with
  | finished given => rw [hscan] at h; cases h
  | notice n => rw [hscan] at h; cases h
  | failed e => rw [hscan] at h; cases h
  | word before name rest =>
    simp only [hscan] at h
    cases hrules : rulesOf? name with
    | some rules => exact ⟨before, name, rest, rules, rfl, hrules, by simpa only [hrules] using h⟩
    | none =>
      simp only [hrules] at h
      split at h
      · unfold Request.ofHelp at h
        split at h
        · cases h
        · split at h
          · cases h
          · split at h <;> cases h
      · cases h

theorem exists_of_ofCommand {before : Given} {options : Options} {command : Command}
    (h : Request.ofCommand before name rules rest = .ok (.perform options command)) :
    ∃ given, scan (rules ++ commonRules) commandNotice [] rest = .finished given ∧
      Command.ofGiven name given = .ok command ∧ options = Options.ofGiven before given := by
  unfold Request.ofCommand at h
  cases hscan : scan (rules ++ commonRules) commandNotice [] rest with
  | word given word rest => rw [hscan] at h; cases h
  | notice n => rw [hscan] at h; cases h
  | failed e => rw [hscan] at h; cases h
  | finished given =>
    simp only [hscan] at h
    cases hgiven : Command.ofGiven name given with
    | error e => rw [hgiven] at h; cases h
    | ok command' =>
      rw [hgiven] at h
      cases h
      exact ⟨given, rfl, hgiven, rfl⟩

/-- The commands about a condition take a scope once, with a value. -/
theorem scan_scope (hname : name = "check" ∨ name = "mode") (hrules : rulesOf? name = some rules)
    (hvalue : Argument.ofText value = .word) (rest : List String) :
    scan (rules ++ commonRules) commandNotice [] ("--scope" :: value :: rest) =
      scan (rules ++ commonRules) commandNotice [("scope", value)] rest := by
  have hform : Argument.ofText "--scope" = .long "scope" none := by decide
  have hnotice : commandNotice (.long "scope" none) = none := by decide
  have hrule : (rules ++ commonRules).find? (·.name == "scope") =
      some { name := "scope", arity := .single } := by
    obtain rfl | rfl := hname <;> cases hrules <;> rfl
  have hadd : Given.add [] { name := "scope", arity := .single } value =
      .ok [("scope", value)] := rfl
  rw [scan.eq_def]
  simp only [hform, hnotice, hrule, hvalue, if_true, hadd]

/-- **A scope may be added to any command line about a condition that has none**: right after the
name of the command it is read as the scope of the condition, and nothing else changes. -/
theorem exists_line_withScope {options : Options} {command : Command} {c : ConditionArguments}
    (h : Request.ofArguments args = .ok (.perform options command))
    (hc : command.condition? = some c) (hscope : c.scope = none) :
    ∃ front rest, args = front ++ rest ∧ ∀ value, Argument.ofText value = .word →
      Request.ofArguments (front ++ "--scope" :: value :: rest) =
        .ok (.perform options (command.withScope value)) := by
  obtain ⟨before, name, rest, rules, hword, hrules, hcommand⟩ := exists_of_ofArguments h
  obtain ⟨given, hscan, hgiven, rfl⟩ := exists_of_ofCommand hcommand
  obtain ⟨hname, hnone, hadd⟩ := Command.ofGiven_scope hgiven hc hscope
  obtain ⟨front, rfl, hfront⟩ := exists_of_scan_word hword
  refine ⟨front ++ [name], rest, by rw [List.append_assoc, List.singleton_append], ?_⟩
  intro value hvalue
  have hfinished := (scan_finished_cons hscan (Given.ne_of_value?_eq_none hnone) value).2
  rw [List.append_assoc, List.singleton_append, Request.ofArguments, hfront]
  simp only [hrules]
  rw [Request.ofCommand, scan_scope hname hrules hvalue, hfinished]
  simp only [hadd, Options.ofGiven_scope]
  rfl

end Console

end QueryEditor
