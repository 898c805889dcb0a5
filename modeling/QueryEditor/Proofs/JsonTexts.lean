import Mathlib.Data.List.DropRight
import QueryEditor.Json.Printer
import QueryEditor.Json.Reader
import QueryEditor.Proofs.Numerals

/-!
# Printed JSON read back

The text that is printed of a value is read as that value, unless a numeral in it is not whole or
a string literal stands for no text (`Json.Plain`).

* `Json.string?_quoted` : the string literal of a text is read as the text.
* `Json.number?_toString` : a whole number is read back, whatever comes after its digits.
* `Json.Plain.isRead` : a printed value is read back, at every level and before any text.
* `Json.Plain.read?_pretty` : **a printed text is read as the value it was printed of.**
-/

namespace QueryEditor

namespace Guid

theorem hexDigit?_hexChar : ∀ d < 16, hexDigit? (hexChar d) = some d := by decide

theorem hexDigits_four (n : Nat) :
    hexDigits 4 n = [hexChar (n / 16 / 16 / 16 % 16), hexChar (n / 16 / 16 % 16),
      hexChar (n / 16 % 16), hexChar (n % 16)] := rfl

end Guid

namespace Json

variable {v : Json} {c : Char} {cs rest : List Char} {level fuel n : Nat}

/-! ### White space -/

theorem skipSpace_cons (h : isSpace c = false) : skipSpace (c :: cs) = c :: cs :=
  List.dropWhile_cons_of_neg (by simp [h])

theorem skipSpace_newline (level : Nat) (cs : List Char) :
    skipSpace (newline level ++ cs) = skipSpace cs := by
  refine List.dropWhile_append_of_pos fun c hc => ?_
  obtain rfl | hc := List.mem_cons.1 hc
  · rfl
  · rw [List.eq_of_mem_replicate hc]
    rfl

theorem skipSpace_skipSpace (cs : List Char) : skipSpace (skipSpace cs) = skipSpace cs :=
  List.dropWhile_idempotent isSpace cs

/-! ### Strings -/

theorem codeUnit?_hexChar (h : n < 0x10000) :
    codeUnit? (Guid.hexChar (n / 16 / 16 / 16 % 16)) (Guid.hexChar (n / 16 / 16 % 16))
      (Guid.hexChar (n / 16 % 16)) (Guid.hexChar (n % 16)) = some n := by
  have hdigit (m : Nat) : Guid.hexDigit? (Guid.hexChar (m % 16)) = some (m % 16) :=
    Guid.hexDigit?_hexChar _ (Nat.mod_lt _ (by decide))
  simp only [codeUnit?, List.mapM_cons, List.mapM_nil, hdigit, Option.bind_eq_bind,
    Option.bind_some, Option.pure_def, Option.map_some, Guid.ofHexDigits, List.foldl_cons,
    List.foldl_nil, Option.some.injEq]
  omega

/-- A control character is written by its number. -/
theorem stringBody?_hexDigits (h : n < 0x20) (cs : List Char) :
    stringBody? none ('\\' :: 'u' :: (Guid.hexDigits 4 n ++ cs)) =
      (stringBody? none cs).map (withChar (Char.ofNat n)) := by
  have hlow : isLowSurrogate n = false := by simp [isLowSurrogate]; omega
  have hhigh : isHighSurrogate n = false := by simp [isHighSurrogate]; omega
  rw [Guid.hexDigits_four]
  simp only [List.cons_append, List.nil_append]
  rw [stringBody?, codeUnit?_hexChar (by omega), Option.bind_some, hlow, hhigh]
  rfl

/-- **A character is read as it is written.** -/
theorem stringBody?_escape (c : Char) (cs : List Char) :
    stringBody? none (escape c ++ cs) = (stringBody? none cs).map (withChar c) := by
  unfold escape
  split
  case h_8 hquote hslash _ _ _ _ _ =>
    split
    case isTrue hcontrol =>
      refine (stringBody?_hexDigits hcontrol cs).trans ?_
      rw [Char.ofNat_toNat]
    case isFalse hcontrol =>
      rw [List.singleton_append, stringBody?]
      · rw [if_neg (not_or.2 ⟨hcontrol, hslash⟩)]
        rfl
      · exact hquote
      · exact fun _ _ _ _ _ hc _ => hslash hc
      · exact fun _ _ hc _ => hslash hc
  all_goals rfl

/-- **The string literal of a text is read as the text.** -/
theorem string?_quoted (s : String) (rest : List Char) :
    string? (s.toList.flatMap escape ++ '"' :: rest) = some (some s, rest) := by
  have hbody (cs : List Char) :
      stringBody? none (cs.flatMap escape ++ '"' :: rest) = some (some cs, rest) := by
    induction cs with
    | nil => rfl
    | cons c cs ih =>
      rw [List.flatMap_cons, List.append_assoc, stringBody?_escape, ih]
      rfl
  rw [string?, hbody]
  simp

/-! ### Numbers -/

/-- A text that does not go on with a numeral. -/
def EndsNumeral (rest : List Char) : Prop :=
  ∀ c ∈ rest.head?, isDigit c = false ∧ c ≠ '.' ∧ c ≠ 'e' ∧ c ≠ 'E'

theorem EndsNumeral.nil : EndsNumeral [] := nofun

theorem isDigit_eq (h : c.isDigit = true) : isDigit c = true := by
  rw [isDigit, Numeral.digit?_of_isDigit h]
  rfl

theorem EndsNumeral.head?_ne (h : EndsNumeral rest) : rest.head?.map isDigit ≠ some true := by
  cases rest with
  | nil => nofun
  | cons c rest => simp [(h c rfl).1]

theorem EndsNumeral.dropWhile_isDigit (h : EndsNumeral rest) : rest.dropWhile isDigit = rest := by
  cases rest with
  | nil => rfl
  | cons c rest => exact List.dropWhile_cons_of_neg (by simp [(h c rfl).1])

theorem EndsNumeral.skipFraction? (h : EndsNumeral rest) :
    Json.skipFraction? rest = some rest := by
  unfold Json.skipFraction?
  split
  case h_1 => exact absurd rfl (h _ rfl).2.1
  case h_2 => rfl

theorem EndsNumeral.skipExponent? (h : EndsNumeral rest) :
    Json.skipExponent? rest = some rest := by
  unfold Json.skipExponent?
  split
  case h_1 => exact absurd rfl (h _ rfl).2.2.1
  case h_2 => exact absurd rfl (h _ rfl).2.2.2
  case h_3 => rfl

theorem digitChar_ne : ∀ d < 10, 0 < d → Nat.digitChar d ≠ '0' := by decide

/-- Only zero starts with a zero. -/
theorem head?_toDigits_ne (h : 0 < n) : (Nat.toDigits 10 n).head? ≠ some '0' := by
  induction n using Nat.strongRecOn with
  | ind n ih =>
    by_cases hn : n < 10
    · rw [Nat.toDigits_of_lt_base hn]
      simpa using digitChar_ne n hn h
    · rw [Nat.toDigits_of_base_le (by decide) (by omega),
        List.head?_append_of_ne_nil _ Nat.toDigits_ne_nil]
      exact ih (n / 10) (by omega) (by omega)

theorem skipDigits?_toDigits (n : Nat) (h : EndsNumeral rest) :
    skipDigits? (Nat.toDigits 10 n ++ rest) = some rest := by
  have hdigits : ∀ c ∈ Nat.toDigits 10 n, isDigit c = true := fun c hc =>
    isDigit_eq (Numeral.isDigit_of_mem_toDigits c hc)
  rw [skipDigits?, List.dropWhile_append_of_pos hdigits, h.dropWhile_isDigit]
  obtain ⟨c, cs, hd, -, -⟩ := Numeral.exists_toDigits_eq_cons n
  rw [hd] at hdigits ⊢
  exact if_pos (congrArg some (hdigits c List.mem_cons_self))

theorem skipWhole?_toDigits (n : Nat) (h : EndsNumeral rest) :
    skipWhole? (Nat.toDigits 10 n ++ rest) = some rest := by
  obtain rfl | hn := Nat.eq_zero_or_pos n
  · exact if_neg h.head?_ne
  · have hdigits := skipDigits?_toDigits n h
    have hhead := head?_toDigits_ne hn
    obtain ⟨c, cs, hd, -, -⟩ := Numeral.exists_toDigits_eq_cons n
    rw [hd] at hdigits hhead ⊢
    unfold skipWhole?
    split
    case h_1 heq => exact absurd (congrArg List.head? heq) hhead
    case h_2 => exact hdigits

theorem skipMinus_toString (i : Int) (rest : List Char) :
    skipMinus ((toString i).toList ++ rest) = Nat.toDigits 10 i.natAbs ++ rest := by
  cases i with
  | ofNat n =>
    change skipMinus ((toString (n : Int)).toList ++ rest) = Nat.toDigits 10 n ++ rest
    rw [Numeral.toList_toString_natCast]
    obtain ⟨c, cs, hd, -, hminus⟩ := Numeral.exists_toDigits_eq_cons n
    rw [hd]
    unfold skipMinus
    split
    case h_1 heq => exact absurd (List.cons.inj heq).1 hminus
    case h_2 => rfl
  | negSucc n =>
    rw [Numeral.toList_toString_negSucc]
    rfl

theorem ofNumeral_toString (i : Int) : ofNumeral (toString i).toList = .int i := by
  have hne : (toString i).toList ≠ ['-', '0'] := by
    intro heq
    have hread := Numeral.signed?_toString i
    rw [heq] at hread
    obtain rfl : 0 = i := Option.some.inj hread
    exact absurd heq (by decide)
  rw [ofNumeral, Numeral.signed?_toString]
  exact if_neg hne

/-- **A whole number is read back**, whatever comes after its digits. -/
theorem number?_toString (i : Int) (h : EndsNumeral rest) :
    number? ((toString i).toList ++ rest) = some (.int i, rest) := by
  rw [number?, skipMinus_toString]
  simp only [Option.bind_eq_bind, skipWhole?_toDigits _ h, h.skipFraction?, h.skipExponent?,
    Option.bind_some, List.length_append, Nat.add_sub_cancel, List.take_left, ofNumeral_toString]

/-! ### Values -/

/-- Members whose names stand for texts. -/
def named (members : List (String × Json)) : List (Option String × Json) :=
  members.map fun m => (some m.1, m.2)

/-- A value that its printed text says as it is: every numeral in it is whole, and every string
literal stands for a text. -/
inductive Plain : Json → Prop
  | null : Plain .null
  | bool (b : Bool) : Plain (.bool b)
  | int (n : Int) : Plain (.int n)
  | text (s : String) : Plain (.text s)
  | arr {items : List Json} (h : ∀ v ∈ items, Plain v) : Plain (.arr items)
  | obj {members : List (String × Json)} (h : ∀ m ∈ members, Plain m.2) :
      Plain (.obj (named members))

/-- The value is read where it is printed, whatever comes after it.  Reading takes at most two steps
a character. -/
def IsRead (v : Json) : Prop :=
  ∀ level fuel rest, EndsNumeral rest → 2 * (prettyAt level v ++ rest).length ≤ fuel →
    value? (fuel + 1) (prettyAt level v ++ rest) = some (v, rest)

theorem IsRead.value?_eq (h : IsRead v) {before : List Char} (hrest : EndsNumeral rest)
    (hfuel : 2 * (before ++ (prettyAt level v ++ rest)).length ≤ fuel) :
    value? (fuel + 1) (prettyAt level v ++ rest) = some (v, rest) := by
  rw [List.length_append] at hfuel
  exact h level fuel rest hrest (by omega)

theorem endsNumeral_newline (level : Nat) (cs : List Char) : EndsNumeral (newline level ++ cs) := by
  rintro c ⟨⟩
  decide

theorem endsNumeral_comma (cs : List Char) : EndsNumeral (',' :: cs) := by
  rintro c ⟨⟩
  decide

theorem exists_toString_eq_cons (i : Int) :
    ∃ c cs, (toString i).toList = c :: cs ∧ (c.isDigit = true ∨ c = '-') := by
  have hmem := Numeral.isDigit_or_of_mem_toString (i := i)
  have hread := Numeral.signed?_toString i
  cases hd : (toString i).toList with
  | nil => rw [hd] at hread; cases hread
  | cons c cs => exact ⟨c, cs, rfl, hmem c (hd ▸ List.mem_cons_self)⟩

theorem isSpace_eq_false (h : c.isDigit = true ∨ c = '-') : isSpace c = false := by
  refine Bool.eq_false_iff.2 fun hspace => ?_
  obtain ((rfl | rfl) | rfl) | rfl : ((c = ' ' ∨ c = '\t') ∨ c = '\n') ∨ c = '\r' := by
    simpa [isSpace] using hspace
  all_goals exact absurd h (by decide)

/-- No value starts with white space or a closing bracket. -/
theorem Plain.exists_prettyAt_eq (h : Plain v) (level : Nat) :
    ∃ c cs, prettyAt level v = c :: cs ∧ isSpace c = false ∧ c ≠ ']' := by
  cases h with
  | null => exact ⟨'n', _, rfl, by decide⟩
  | bool b => cases b <;> exact ⟨_, _, rfl, by decide⟩
  | int n =>
    obtain ⟨c, cs, hd, hc⟩ := exists_toString_eq_cons n
    refine ⟨c, cs, hd, isSpace_eq_false hc, ?_⟩
    rintro rfl
    exact absurd hc (by decide)
  | text s => exact ⟨'"', _, rfl, by decide⟩
  | @arr items h => cases items <;> exact ⟨'[', _, rfl, by decide⟩
  | @obj members h => cases members <;> exact ⟨'\x7b', _, rfl, by decide⟩

theorem value?_congr {cs' : List Char} (h : skipSpace cs = skipSpace cs') :
    value? fuel cs = value? fuel cs' := by
  cases fuel with
  | zero => rfl
  | succ fuel => rw [value?, value?, h]

theorem value?_newline (fuel level : Nat) (cs : List Char) :
    value? fuel (newline level ++ cs) = value? fuel cs :=
  value?_congr (skipSpace_newline level cs)

theorem items?_skipSpace (fuel : Nat) (cs : List Char) :
    items? fuel (skipSpace cs) = items? fuel cs := by
  cases fuel with
  | zero => rfl
  | succ fuel => rw [items?, items?, value?_congr (skipSpace_skipSpace cs)]

theorem members?_skipSpace (fuel : Nat) (cs : List Char) :
    members? fuel (skipSpace cs) = members? fuel cs := by
  cases fuel with
  | zero => rfl
  | succ fuel => rw [members?, members?, skipSpace_skipSpace]

theorem value?_toString (i : Int) (h : EndsNumeral rest) :
    value? (fuel + 1) ((toString i).toList ++ rest) = some (.int i, rest) := by
  have hnumber := number?_toString i h
  obtain ⟨c, cs, hd, hc⟩ := exists_toString_eq_cons i
  rw [hd] at hnumber ⊢
  rw [value?, List.cons_append, skipSpace_cons (isSpace_eq_false hc)]
  split
  case h_7 => exact hnumber
  all_goals
    rename_i heq
    obtain ⟨rfl, -⟩ := List.cons.inj heq
    exact absurd hc (by decide)

theorem value?_quoted (s : String) (rest : List Char) :
    value? (fuel + 1) (quoted s ++ rest) = some (.text s, rest) := by
  have hstring := string?_quoted s rest
  rw [value?, quoted, List.append_assoc, List.cons_append, skipSpace_cons rfl]
  change (string? (s.toList.flatMap escape ++ '"' :: rest)).map _ = _
  rw [hstring]
  rfl

/-! ### Arrays -/

theorem value?_bracket {after : List Char} (h : skipSpace cs = c :: after) (hc : c ≠ ']') :
    value? (fuel + 1) ('[' :: cs) =
      (items? fuel cs).map fun (items, rest) => (.arr items, rest) := by
  rw [value?, skipSpace_cons rfl, ← items?_skipSpace]
  simp only [h]
  split
  case h_1 heq => exact absurd (List.cons.inj heq).1 hc
  case h_2 => rfl

theorem items?_comma (h : value? fuel cs = some (v, ',' :: rest)) :
    items? (fuel + 1) cs = (items? fuel rest).map fun (vs, rest) => (v :: vs, rest) := by
  rw [items?, h]
  rfl

theorem items?_bracket {after : List Char} (h : value? fuel cs = some (v, after))
    (hafter : skipSpace after = ']' :: rest) : items? (fuel + 1) cs = some ([v], rest) := by
  rw [items?, h, Option.bind_some]
  simp only [hafter]

theorem exists_prettyItems_eq (level : Nat) (v : Json) (items : List Json) :
    ∃ after, prettyItems level (v :: items) = newline level ++ (prettyAt level v ++ after) := by
  cases items with
  | nil => exact ⟨[], by rw [prettyItems, List.append_nil]⟩
  | cons w items => exact ⟨_, by rw [prettyItems, List.append_assoc]; exact nofun⟩

theorem items?_prettyItems {items : List Json} (hne : items ≠ [])
    (hread : ∀ v ∈ items, IsRead v) (inner outer : Nat)
    (hfuel : 2 * (prettyItems inner items ++ (newline outer ++ ']' :: rest)).length ≤ fuel) :
    items? (fuel + 2) (prettyItems inner items ++ (newline outer ++ ']' :: rest)) =
      some (items, rest) := by
  induction items generalizing fuel with
  | nil => exact absurd rfl hne
  | cons v items ih =>
    obtain ⟨hv, hitems⟩ := List.forall_mem_cons.1 hread
    cases items with
    | nil =>
      rw [prettyItems, List.append_assoc] at hfuel ⊢
      have hlast := hv.value?_eq (endsNumeral_newline _ _) hfuel
      refine items?_bracket ((value?_newline _ _ _).trans hlast) ?_
      rw [skipSpace_newline, skipSpace_cons rfl]
    | cons w items =>
      have hsplit : prettyItems inner (v :: w :: items) ++ (newline outer ++ ']' :: rest) =
          newline inner ++ (prettyAt inner v ++
            ',' :: (prettyItems inner (w :: items) ++ (newline outer ++ ']' :: rest))) := by
        simp [prettyItems]
      rw [hsplit] at hfuel ⊢
      have hfirst := hv.value?_eq (endsNumeral_comma _) hfuel
      -- the comma pays for the step that the list takes beyond those of the value
      rw [List.length_append, List.length_append, List.length_cons] at hfuel
      obtain ⟨fuel, rfl⟩ : ∃ less, fuel = less + 1 := ⟨fuel - 1, by omega⟩
      rw [items?_comma ((value?_newline _ _ _).trans hfirst),
        ih (List.cons_ne_nil w items) hitems (by omega)]
      rfl

/-- An array is read back if its items are. -/
theorem IsRead.arr {items : List Json} (hplain : ∀ v ∈ items, Plain v)
    (hread : ∀ v ∈ items, IsRead v) : IsRead (.arr items) := by
  intro level fuel rest hrest hfuel
  cases items with
  | nil => rfl
  | cons v items =>
    have hsplit : prettyAt level (.arr (v :: items)) ++ rest =
        '[' :: (prettyItems (level + 1) (v :: items) ++ (newline level ++ ']' :: rest)) := by
      simp [prettyAt]
    rw [hsplit] at hfuel ⊢
    rw [List.length_cons] at hfuel
    obtain ⟨fuel, rfl⟩ : ∃ less, fuel = less + 2 := ⟨fuel - 2, by omega⟩
    obtain ⟨after, hitems⟩ := exists_prettyItems_eq (level + 1) v items
    obtain ⟨c, cs, hv, hspace, hbracket⟩ :=
      (hplain v List.mem_cons_self).exists_prettyAt_eq (level + 1)
    have hstart : skipSpace (prettyItems (level + 1) (v :: items) ++
        (newline level ++ ']' :: rest)) =
        c :: (cs ++ after ++ (newline level ++ ']' :: rest)) := by
      rw [hitems, List.append_assoc, skipSpace_newline, hv]
      exact skipSpace_cons hspace
    rw [value?_bracket hstart hbracket,
      items?_prettyItems (List.cons_ne_nil v items) hread (level + 1) level (by omega)]
    rfl

/-! ### Objects -/

/-- What is printed before the value of a member. -/
def nameText (level : Nat) (name : String) : List Char := newline level ++ quoted name ++ [':', ' ']

theorem skipSpace_nameText (level : Nat) (name : String) (cs : List Char) :
    skipSpace (nameText level name ++ cs) =
      '"' :: (name.toList.flatMap escape ++ '"' :: ':' :: ' ' :: cs) := by
  rw [nameText, List.append_assoc, List.append_assoc, skipSpace_newline, quoted,
    List.append_assoc, List.cons_append, skipSpace_cons rfl]
  rfl

theorem value?_brace {after : List Char} (h : skipSpace cs = '"' :: after) :
    value? (fuel + 1) ('\x7b' :: cs) =
      (members? fuel cs).map fun (members, rest) => (.obj members, rest) := by
  rw [value?, skipSpace_cons rfl, ← members?_skipSpace]
  simp only [h]
  rfl

/-- Members are read up to what comes after the value of the first one. -/
theorem members?_nameText (level : Nat) (name : String) {after : List Char}
    (h : value? fuel cs = some (v, after)) :
    members? (fuel + 1) (nameText level name ++ cs) = match skipSpace after with
      | ',' :: rest => (members? fuel rest).map fun (ms, rest) => ((some name, v) :: ms, rest)
      | '\x7d' :: rest => some ([(some name, v)], rest)
      | _ => none := by
  have hspace : value? fuel (' ' :: cs) = value? fuel cs := value?_congr rfl
  rw [members?, skipSpace_nameText]
  change (string? (name.toList.flatMap escape ++ '"' :: ':' :: ' ' :: cs)).bind _ = _
  rw [string?_quoted]
  change (value? fuel (' ' :: cs)).bind _ = _
  rw [hspace, h]
  rfl

theorem members?_comma (level : Nat) (name : String)
    (h : value? fuel cs = some (v, ',' :: rest)) :
    members? (fuel + 1) (nameText level name ++ cs) =
      (members? fuel rest).map fun (ms, rest) => ((some name, v) :: ms, rest) := by
  rw [members?_nameText level name h]
  rfl

theorem members?_brace (level : Nat) (name : String) {after : List Char}
    (h : value? fuel cs = some (v, after)) (hafter : skipSpace after = '\x7d' :: rest) :
    members? (fuel + 1) (nameText level name ++ cs) = some ([(some name, v)], rest) := by
  rw [members?_nameText level name h, hafter]
  rfl

theorem exists_prettyMembers_eq (level : Nat) (m : String × Json) (members : List (String × Json)) :
    ∃ after, prettyMembers level (named (m :: members)) = nameText level m.1 ++ after := by
  cases members with
  | nil => exact ⟨_, rfl⟩
  | cons other members =>
    refine ⟨prettyAt level m.2 ++ ',' :: prettyMembers level (named (other :: members)), ?_⟩
    simp [named, prettyMembers, nameText]

theorem members?_prettyMembers {members : List (String × Json)} (hne : members ≠ [])
    (hread : ∀ m ∈ members, IsRead m.2) (inner outer : Nat)
    (hfuel : 2 * (prettyMembers inner (named members) ++
      (newline outer ++ '\x7d' :: rest)).length ≤ fuel) :
    members? (fuel + 2) (prettyMembers inner (named members) ++
      (newline outer ++ '\x7d' :: rest)) = some (named members, rest) := by
  induction members generalizing fuel with
  | nil => exact absurd rfl hne
  | cons m members ih =>
    obtain ⟨hm, hmembers⟩ := List.forall_mem_cons.1 hread
    cases members with
    | nil =>
      have hsplit : prettyMembers inner (named [m]) ++ (newline outer ++ '\x7d' :: rest) =
          nameText inner m.1 ++ (prettyAt inner m.2 ++ (newline outer ++ '\x7d' :: rest)) := by
        simp [named, prettyMembers, nameText]
      rw [hsplit] at hfuel ⊢
      refine members?_brace inner m.1 (hm.value?_eq (endsNumeral_newline _ _) hfuel) ?_
      rw [skipSpace_newline, skipSpace_cons rfl]
    | cons other members =>
      have hsplit : prettyMembers inner (named (m :: other :: members)) ++
          (newline outer ++ '\x7d' :: rest) = nameText inner m.1 ++ (prettyAt inner m.2 ++ ',' ::
            (prettyMembers inner (named (other :: members)) ++
              (newline outer ++ '\x7d' :: rest))) := by
        simp [named, prettyMembers, nameText]
      rw [hsplit] at hfuel ⊢
      have hfirst := hm.value?_eq (endsNumeral_comma _) hfuel
      rw [List.length_append, List.length_append, List.length_cons] at hfuel
      obtain ⟨fuel, rfl⟩ : ∃ less, fuel = less + 1 := ⟨fuel - 1, by omega⟩
      rw [members?_comma inner m.1 hfirst, ih (List.cons_ne_nil other members) hmembers (by omega)]
      rfl

/-- An object is read back if the values of its members are. -/
theorem IsRead.obj {members : List (String × Json)} (hread : ∀ m ∈ members, IsRead m.2) :
    IsRead (.obj (named members)) := by
  intro level fuel rest hrest hfuel
  cases members with
  | nil => rfl
  | cons m members =>
    have hsplit : prettyAt level (.obj (named (m :: members))) ++ rest =
        '\x7b' :: (prettyMembers (level + 1) (named (m :: members)) ++
          (newline level ++ '\x7d' :: rest)) := by
      simp [prettyAt, named]
    rw [hsplit] at hfuel ⊢
    rw [List.length_cons] at hfuel
    obtain ⟨fuel, rfl⟩ : ∃ less, fuel = less + 2 := ⟨fuel - 2, by omega⟩
    obtain ⟨after, hmembers⟩ := exists_prettyMembers_eq (level + 1) m members
    have hstart := skipSpace_nameText (level + 1) m.1
      (after ++ (newline level ++ '\x7d' :: rest))
    rw [← List.append_assoc, ← hmembers] at hstart
    rw [value?_brace hstart,
      members?_prettyMembers (List.cons_ne_nil m members) hread (level + 1) level (by omega)]
    rfl

/-! ### Texts -/

/-- **A printed value is read back**, at every level and before any text. -/
theorem Plain.isRead (h : Plain v) : IsRead v := by
  induction h with
  -- only a numeral cares for what comes after it; the others end with a character of their own
  | null => exact fun level fuel rest _ _ => rfl
  | bool b => exact fun level fuel rest _ _ => by cases b <;> rfl
  | int n => exact fun level fuel rest hrest _ => value?_toString n hrest
  | text s => exact fun level fuel rest _ _ => value?_quoted s rest
  | arr h ih => exact .arr h ih
  | obj h ih => exact .obj ih

/-- **A printed text is read as the value it was printed of.** -/
theorem Plain.read?_pretty (h : Plain v) : read? (pretty v) = some v := by
  have hread := h.isRead 0 (2 * (prettyAt 0 v).length) [] .nil (by simp)
  rw [List.append_nil] at hread
  rw [read?, pretty, String.toList_ofList, hread]
  rfl

end Json

end QueryEditor
