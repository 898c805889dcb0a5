import QueryEditor.Console.Run
import QueryEditor.Proofs.JsonTexts

/-!
# Errors reported as JSON

With JSON output, a message is reported as an object with one member.  The report writes a
backslash before a quotation mark and every other character as it is, although a string literal
may hold neither a backslash nor a control character like that.

* `Json.spends_of_stringBody?` : **no string literal is shorter than the one that is printed of
  its text.**
* `Console.read?_errorLine_iff` : the report is read as an object with one text where the message
  in it is read as this text, up to the closing brace.
* `Console.Outcome.failure_reads_back_iff` : **which messages are read back from their report.**
  A report may also be that of another message (`Console.run_reports_other_path`).
-/

namespace QueryEditor

namespace Json

variable {high : Option Nat} {c : Char} {text cs rest : List Char}
  {r : Option (Option (List Char) × List Char)}

/-! ### The length of a string literal -/

theorem length_escape_le (c : Char) : (escape c).length ≤ 6 := by
  unfold escape
  split
  case h_8 => split <;> simp [Guid.hexDigits_four]
  all_goals decide

theorem length_escape_of_escaped? {e : Char} (h : escaped? e = some c) :
    (escape c).length ≤ 2 := by
  unfold escaped? at h
  split at h
  case h_9 => cases h
  all_goals
    obtain rfl := Option.some.inj h
    decide

theorem escape_eq_singleton (hquote : c ≠ '"') (hslash : c ≠ '\\') (hcontrol : 0x20 ≤ c.toNat) :
    escape c = [c] := by
  unfold escape
  split
  case h_1 => exact absurd rfl hquote
  case h_2 => exact absurd rfl hslash
  case h_8 => exact if_neg (by omega)
  all_goals exact absurd hcontrol (by decide)

theorem exists_of_withChar (h : r.map (withChar c) = some (some text, rest)) :
    ∃ shorter, text = c :: shorter ∧ r = some (some shorter, rest) := by
  obtain ⟨⟨shorter?, after⟩, rfl, heq⟩ := Option.map_eq_some_iff.1 h
  obtain ⟨htext, rfl⟩ := Prod.mk.inj heq
  obtain ⟨shorter, rfl, rfl⟩ := Option.map_eq_some_iff.1 htext
  exact ⟨shorter, rfl, rfl⟩

theorem map_withoutText_ne : r.map withoutText ≠ some (some text, rest) := by
  cases r <;> simp [withoutText]

theorem exists_of_withCharAfter (h : r.map (withCharAfter high c) = some (some text, rest)) :
    ∃ shorter, text = c :: shorter ∧ r = some (some shorter, rest) := by
  cases high with
  | none => exact exists_of_withChar h
  | some n => exact absurd h map_withoutText_ne

/-- What stands before the rest is longer than what is printed of the text. -/
def Spends (cs text rest : List Char) : Prop :=
  ∃ literal, cs = literal ++ rest ∧ (text.flatMap escape).length < literal.length

theorem Spends.append (h : Spends cs text rest) (first : List Char) :
    Spends (first ++ cs) text rest := by
  obtain ⟨literal, rfl, hlength⟩ := h
  refine ⟨first ++ literal, (List.append_assoc ..).symm, ?_⟩
  rw [List.length_append]
  omega

theorem Spends.cons (h : Spends cs text rest) (first : List Char)
    (hfirst : (escape c).length ≤ first.length) : Spends (first ++ cs) (c :: text) rest := by
  obtain ⟨literal, rfl, hlength⟩ := h
  refine ⟨first ++ literal, (List.append_assoc ..).symm, ?_⟩
  rw [List.flatMap_cons, List.length_append, List.length_append]
  omega

/-- **No string literal is shorter than the one that is printed of its text.** -/
theorem spends_of_stringBody? (h : stringBody? high cs = some (some text, rest)) :
    Spends cs text rest := by
  fun_induction stringBody? high cs generalizing text rest with
  | case1 => cases h
  | case2 high cs =>
    obtain ⟨htext, rfl⟩ := Prod.mk.inj (Option.some.inj h)
    refine ⟨['"'], rfl, ?_⟩
    split at htext
    case isTrue => cases htext
    case isFalse =>
      obtain rfl := Option.some.inj htext
      decide
  | case3 high a b c d cs ihnone ihsome =>
    -- no character takes more than the six of a number, and a pair of halves takes twelve
    have hsix (x : Char) : (escape x).length ≤ ['\\', 'u', a, b, c, d].length :=
      length_escape_le x
    obtain ⟨n, -, h⟩ := Option.bind_eq_some_iff.1 h
    split at h
    case isTrue =>
      split at h
      case h_1 =>
        obtain ⟨shorter, rfl, hr⟩ := exists_of_withChar h
        exact (ihnone hr).cons ['\\', 'u', a, b, c, d] (hsix _)
      case h_2 => exact absurd h map_withoutText_ne
    case isFalse =>
      split at h
      case isTrue =>
        split at h
        case isTrue => exact absurd h map_withoutText_ne
        case isFalse => exact (ihsome n h).append ['\\', 'u', a, b, c, d]
      case isFalse =>
        obtain ⟨shorter, rfl, hr⟩ := exists_of_withCharAfter h
        exact (ihnone hr).cons ['\\', 'u', a, b, c, d] (hsix _)
  | case4 high e cs _ ih =>
    obtain ⟨c, hc, h⟩ := Option.bind_eq_some_iff.1 h
    obtain ⟨shorter, rfl, hr⟩ := exists_of_withCharAfter h
    exact (ih hr).cons ['\\', e] (length_escape_of_escaped? hc)
  | case5 => cases h
  | case6 high c cs hquote _ _ hraw ih =>
    obtain ⟨hcontrol, hslash⟩ := not_or.1 hraw
    obtain ⟨shorter, rfl, hr⟩ := exists_of_withCharAfter h
    refine (ih hr).cons [c] ?_
    rw [escape_eq_singleton hquote hslash (by omega)]

/-! ### Members -/

/-- Members are read only where there is at least one. -/
theorem ne_nil_of_members? {fuel : Nat} {members : List (Option String × Json)}
    (h : members? fuel cs = some (members, rest)) : members ≠ [] := by
  cases fuel with
  | zero => cases h
  | succ fuel =>
    rw [members?] at h
    split at h
    case h_2 => cases h
    case h_1 =>
      obtain ⟨⟨name, afterName⟩, -, h⟩ := Option.bind_eq_some_iff.1 h
      dsimp only at h
      split at h
      case h_2 => cases h
      case h_1 =>
        obtain ⟨⟨value, afterValue⟩, -, h⟩ := Option.bind_eq_some_iff.1 h
        dsimp only at h
        split at h
        case h_1 =>
          obtain ⟨others, -, heq⟩ := Option.map_eq_some_iff.1 h
          obtain ⟨rfl, -⟩ := Prod.mk.inj heq
          exact List.cons_ne_nil _ _
        case h_2 =>
          obtain ⟨rfl, -⟩ := Prod.mk.inj (Option.some.inj h)
          exact List.cons_ne_nil _ _
        case h_3 => cases h

end Json

namespace Console

open Json (escape read? value? members? string? skipSpace)

variable {c : Char} {o : Options} {message text : String} {cs : List Char}

/-! ### The characters of a message -/

/-- How the report of an error writes a character. -/
def reported (c : Char) : List Char := if c = '"' then ['\\', '"'] else [c]

/-- A character that is neither a backslash nor a control character. -/
def IsPlain (c : Char) : Prop := c ≠ '\\' ∧ 0x20 ≤ c.toNat

theorem reported_eq_escape (h : IsPlain c) : reported c = escape c := by
  unfold reported
  split
  case isTrue hc =>
    rw [hc]
    rfl
  case isFalse hc => exact (Json.escape_eq_singleton hc h.1 h.2).symm

theorem length_reported_lt (h : ¬IsPlain c) : (reported c).length < (escape c).length := by
  have hquote : c ≠ '"' := by
    rintro rfl
    exact h ⟨by decide, by decide⟩
  rw [reported, if_neg hquote]
  unfold escape
  split
  case h_8 hslash _ _ _ _ _ =>
    split
    case isTrue => simp [Guid.hexDigits_four]
    case isFalse hcontrol => exact absurd ⟨hslash, by omega⟩ h
  all_goals decide

theorem length_reported_le (c : Char) : (reported c).length ≤ (escape c).length := by
  by_cases h : IsPlain c
  · rw [reported_eq_escape h]
  · exact (length_reported_lt h).le

theorem length_flatMap_reported_le (cs : List Char) :
    (cs.flatMap reported).length ≤ (cs.flatMap escape).length := by
  induction cs with
  | nil => exact Nat.le_refl _
  | cons c cs ih =>
    rw [List.flatMap_cons, List.flatMap_cons, List.length_append, List.length_append]
    exact Nat.add_le_add (length_reported_le c) ih

/-- For a message with any other character the report writes less than a string literal takes. -/
theorem isPlain_of_length_le
    (h : (cs.flatMap escape).length ≤ (cs.flatMap reported).length) : ∀ c ∈ cs, IsPlain c := by
  induction cs with
  | nil => exact fun c hc => absurd hc List.not_mem_nil
  | cons c cs ih =>
    rw [List.flatMap_cons, List.flatMap_cons, List.length_append, List.length_append] at h
    have hrest := length_flatMap_reported_le cs
    have hfirst := length_reported_le c
    refine List.forall_mem_cons.2 ⟨?_, ih (by omega)⟩
    by_contra hc
    have := length_reported_lt hc
    omega

/-! ### The report of an error -/

/-- What comes after the message in its report. -/
def reportEnd : List Char := ['"', '\x7d', '\n']

theorem toList_errorLine (message : String) :
    (errorLine .json message).toList =
      '\x7b' :: '"' :: ("error".toList.flatMap escape ++ '"' :: ':' :: ' ' :: '"' ::
        (message.toList.flatMap reported ++ reportEnd)) := by
  have hmessage : (escapeQuotes message).toList = message.toList.flatMap reported :=
    String.toList_ofList
  rw [errorLine, String.toList_append, String.toList_append, hmessage, List.append_assoc]
  rfl

theorem members?_error (fuel : Nat) (cs : List Char) :
    members? (fuel + 2)
        ('"' :: ("error".toList.flatMap escape ++ '"' :: ':' :: ' ' :: '"' :: cs)) =
      (string? cs).bind fun (text, rest) => match skipSpace rest with
        | ',' :: rest => (members? (fuel + 1) rest).map fun (members, rest) =>
          ((some "error", .str text) :: members, rest)
        | '\x7d' :: rest => some ([(some "error", .str text)], rest)
        | _ => none := by
  have hvalue : value? (fuel + 1) (' ' :: '"' :: cs) =
      (string? cs).map fun (text, rest) => (.str text, rest) := rfl
  rw [members?, Json.skipSpace_cons rfl]
  simp only [Json.string?_quoted, Option.bind_some, Json.skipSpace_cons (c := ':') rfl, hvalue,
    Option.bind_map]
  rfl

/-- The report is read as an object with one text where the message is read as this text up to
the end of the object. -/
theorem read?_errorLine_iff :
    read? (errorLine .json message) = some (.obj [(some "error", .text text)]) ↔
      ∃ rest after, string? (message.toList.flatMap reported ++ reportEnd) =
          some (some text, rest) ∧
        skipSpace rest = '\x7d' :: after ∧ skipSpace after = [] := by
  simp only [read?]
  rw [toList_errorLine]
  generalize message.toList.flatMap reported ++ reportEnd = body
  obtain ⟨fuel, hfuel⟩ : ∃ fuel, 2 * ('\x7b' :: '"' :: ("error".toList.flatMap escape ++
      '"' :: ':' :: ' ' :: '"' :: body)).length + 1 = fuel + 3 := ⟨_, rfl⟩
  rw [hfuel, Json.value?_brace (Json.skipSpace_cons rfl), members?_error]
  constructor
  · intro h
    cases hs : string? body with
    | none => rw [hs] at h; cases h
    | some r =>
      obtain ⟨text?, rest⟩ := r
      rw [hs, Option.bind_some] at h
      split at h
      case h_2 => cases h
      case h_1 v end? heq =>
        obtain ⟨hend, hv⟩ : skipSpace end? = [] ∧ v = .obj [(some "error", .text text)] := by
          split at h
          case isTrue hend => exact ⟨hend, Option.some.inj h⟩
          case isFalse => cases h
        obtain ⟨r, hr, heq⟩ := Option.map_eq_some_iff.1 heq
        obtain ⟨rfl, rfl⟩ := Prod.mk.inj heq
        dsimp only at hr
        split at hr
        case h_1 =>
          -- there would be a second member
          obtain ⟨others, hothers, rfl⟩ := Option.map_eq_some_iff.1 hr
          refine absurd ?_ (Json.ne_nil_of_members? hothers)
          simpa using (List.cons.inj (Json.obj.inj hv)).2
        case h_2 after hrest =>
          obtain rfl := Option.some.inj hr
          obtain rfl : text? = some text := by simpa [Json.text] using hv
          exact ⟨rest, after, rfl, hrest, hend⟩
        case h_3 => cases hr
  · rintro ⟨rest, after, hs, hrest, hafter⟩
    rw [hs, Option.bind_some]
    simp only [hrest, Option.map_some, hafter]
    rfl

/-- What is left of a report from a brace on is more than the line break at its end. -/
theorem two_le_length_of_getLast? {rest after : List Char} (hlast : rest.getLast? = some '\n')
    (hrest : skipSpace rest = '\x7d' :: after) : 2 ≤ rest.length := by
  match rest with
  | [] => cases hlast
  | [c] =>
    obtain rfl : c = '\n' := by simpa using hlast
    cases hrest
  | _ :: _ :: _ => exact Nat.le_add_left 2 _

/-- **Which messages are read back from their report**: those without a backslash and without a
control character.  With JSON output and unless the run is quiet, the report of such a message
is a JSON object with this message as its only member, and the report of any other is not. -/
theorem Outcome.failure_reads_back_iff (hformat : o.format = .json) (hquiet : o.isQuiet = false)
    (message : String) :
    read? (Outcome.failure o message).stderr = some (.obj [(some "error", .text message)]) ↔
      ∀ c ∈ message.toList, c ≠ '\\' ∧ 0x20 ≤ c.toNat := by
  have hline : (Outcome.failure o message).stderr = errorLine .json message := by
    simp [Outcome.failure, hformat, hquiet]
  rw [hline, read?_errorLine_iff]
  constructor
  · rintro ⟨rest, after, hread, hrest, -⟩
    obtain ⟨⟨text?, rest⟩, hbody, heq⟩ := Option.map_eq_some_iff.1 hread
    obtain ⟨htext, rfl⟩ := Prod.mk.inj heq
    obtain ⟨text, rfl, rfl⟩ := Option.map_eq_some_iff.1 htext
    rw [String.toList_ofList] at hbody ⊢
    -- the literal is at least as long as a printed one, so that nothing is left to be escaped
    obtain ⟨literal, hsplit, hlength⟩ := Json.spends_of_stringBody? hbody
    have hlengths := congrArg List.length hsplit
    have htwo : 2 ≤ rest.length := by
      refine two_le_length_of_getLast? ?_ hrest
      have hne : rest ≠ [] := by
        rintro rfl
        cases hrest
      rw [← List.getLast?_append_of_ne_nil literal hne, ← hsplit]
      exact List.getLast?_append_of_ne_nil _ (List.cons_ne_nil _ _)
    refine isPlain_of_length_le ?_
    simp only [List.length_append, reportEnd, List.length_cons, List.length_nil] at hlengths
    omega
  · intro hplain
    have hsame : message.toList.flatMap reported = message.toList.flatMap escape :=
      List.flatMap_congr fun c hc => reported_eq_escape (hplain c hc)
    refine ⟨['\x7d', '\n'], ['\n'], ?_, rfl, rfl⟩
    rw [hsame]
    exact Json.string?_quoted message ['\x7d', '\n']

/-- A message with quotation marks is read back. -/
theorem failure_reads_back_of_quotes :
    let o : Options := { format := .json }
    o.format = .json ∧ o.isQuiet = false ∧
      (Outcome.failure o "error: no metadata loaded for entity 'maß \"2\"'").stderr =
        "\x7b\"error\": \"error: no metadata loaded for entity 'maß \\\"2\\\"'\"\x7d\n" ∧
      read? (Outcome.failure o "error: no metadata loaded for entity 'maß \"2\"'").stderr =
        some (.obj [(some "error", .text "error: no metadata loaded for entity 'maß \"2\"'")]) := by
  intro o
  have hplain : ("error: no metadata loaded for entity 'maß \"2\"'".toList.all fun c =>
      decide (c ≠ '\\' ∧ 0x20 ≤ c.toNat)) = true := by decide
  refine ⟨rfl, rfl, by decide, (Outcome.failure_reads_back_iff rfl rfl _).2 ?_⟩
  intro c hc
  exact of_decide_eq_true (List.all_eq_true.1 hplain c hc)

/-- Nothing can be read. -/
def noFiles : Files := fun _ => .error .notFound

/-- **A path with a backslash is reported as another one**, with a line break in it. -/
theorem run_reports_other_path :
    let line :=
      (run noFiles ["--output", "json", "--catalog", "data\\new.json", "operators"]).stderr
    line = errorLine .json
        "error: could not read 'data\\new.json': No such file or directory (os error 2)" ∧
      read? line = some (.obj [(some "error", .text
        "error: could not read 'data\new.json': No such file or directory (os error 2)")]) ∧
      read? line ≠ some (.obj [(some "error", .text
        "error: could not read 'data\\new.json': No such file or directory (os error 2)")]) := by
  intro line
  have hline : line = errorLine .json
      "error: could not read 'data\\new.json': No such file or directory (os error 2)" := by
    decide +kernel
  have hread : read? line = some (.obj [(some "error", .text
      "error: could not read 'data\new.json': No such file or directory (os error 2)")]) := by
    rw [hline, read?_errorLine_iff]
    exact ⟨['\x7d', '\n'], ['\n'], by decide +kernel, rfl, rfl⟩
  refine ⟨hline, hread, fun hsame => ?_⟩
  rw [hread] at hsame
  simp [Json.text] at hsame

end Console

end QueryEditor
