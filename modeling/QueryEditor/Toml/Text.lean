import QueryEditor.Guid

/-!
# Strings in TOML

Basic strings stand in double quotes and have escapes, literal strings stand in single quotes and
have none.  Either kind may run over several lines in triple quotes, where a line end right after
the opening quotes does not count.
-/

namespace QueryEditor

namespace Toml

/-- White space within a line. -/
def isSpace (c : Char) : Bool := c == ' ' || c == '\t'

/-- Drops white space at the start. -/
def skipSpace (cs : List Char) : List Char := cs.dropWhile isSpace

/-- The characters that may not stand as they are: controls other than the tab. -/
def isControl (c : Char) : Bool := (c.toNat < 0x20 && c != '\t') || c.toNat == 0x7F

/-- The character that hexadecimal digits name. -/
def charOfHex? (cs : List Char) : Option Char :=
  (cs.mapM Guid.hexDigit?).bind fun ds =>
    let n := Guid.ofHexDigits ds
    if n.isValidChar then some (Char.ofNat n) else none

/-- The character that a letter stands for after a backslash. -/
def escaped? : Char → Option Char
  | 'b' => some '\x08'
  | 't' => some '\t'
  | 'n' => some '\n'
  | 'f' => some '\x0c'
  | 'r' => some '\r'
  | '"' => some '"'
  | '\\' => some '\\'
  | _ => none

/-- Puts a character in front of what was read. -/
def withChar (c : Char) (r : List Char × List Char) : List Char × List Char := (c :: r.1, r.2)

/-- Reads a basic string after its opening quote. -/
def basic? : List Char → Option (List Char × List Char)
  | [] => none
  | '"' :: cs => some ([], cs)
  | '\\' :: 'u' :: a :: b :: c :: d :: cs =>
    (charOfHex? [a, b, c, d]).bind fun x => (basic? cs).map (withChar x)
  | '\\' :: 'U' :: a :: b :: c :: d :: e :: f :: g :: h :: cs =>
    (charOfHex? [a, b, c, d, e, f, g, h]).bind fun x => (basic? cs).map (withChar x)
  | '\\' :: e :: cs => (escaped? e).bind fun x => (basic? cs).map (withChar x)
  | c :: cs => if isControl c ∨ c = '\\' then none else (basic? cs).map (withChar c)

/-- Reads a literal string after its opening quote. -/
def literal? : List Char → Option (List Char × List Char)
  | [] => none
  | '\'' :: cs => some ([], cs)
  | c :: cs => if isControl c then none else (literal? cs).map (withChar c)

/-- What a backslash at the end of a line does to a string over several lines. -/
inductive Folding
  /-- No backslash is at work. -/
  | none
  /-- The rest of the line has to be white space. -/
  | toLineEnd
  /-- White space and line ends are dropped. -/
  | toText
  deriving DecidableEq

/-- Reads a basic string over several lines. -/
def basicLines? : Folding → List Char → Option (List Char × List Char)
  | _, [] => none
  | .toLineEnd, '\n' :: cs => basicLines? .toText cs
  | .toLineEnd, '\r' :: '\n' :: cs => basicLines? .toText cs
  | .toLineEnd, c :: cs => if isSpace c then basicLines? .toLineEnd cs else none
  | _, '"' :: '"' :: '"' :: '"' :: '"' :: cs => some (['"', '"'], cs)
  | _, '"' :: '"' :: '"' :: '"' :: cs => some (['"'], cs)
  | _, '"' :: '"' :: '"' :: cs => some ([], cs)
  | _, '\\' :: 'u' :: a :: b :: c :: d :: cs =>
    (charOfHex? [a, b, c, d]).bind fun x => (basicLines? .none cs).map (withChar x)
  | _, '\\' :: 'U' :: a :: b :: c :: d :: e :: f :: g :: h :: cs =>
    (charOfHex? [a, b, c, d, e, f, g, h]).bind fun x => (basicLines? .none cs).map (withChar x)
  | _, '\\' :: e :: cs => match escaped? e with
    | some x => (basicLines? .none cs).map (withChar x)
    | none => basicLines? .toLineEnd (e :: cs)
  | folding, '\r' :: '\n' :: cs =>
    if folding = .toText then basicLines? .toText cs
    else (basicLines? .none cs).map (withChar '\n')
  | folding, c :: cs =>
    if folding = .toText ∧ (isSpace c ∨ c = '\n') then basicLines? .toText cs
    else if (isControl c ∧ c ≠ '\n') ∨ c = '\\' then none
    else (basicLines? .none cs).map (withChar c)

/-- Reads a literal string over several lines. -/
def literalLines? : List Char → Option (List Char × List Char)
  | [] => none
  | '\'' :: '\'' :: '\'' :: '\'' :: '\'' :: cs => some (['\'', '\''], cs)
  | '\'' :: '\'' :: '\'' :: '\'' :: cs => some (['\''], cs)
  | '\'' :: '\'' :: '\'' :: cs => some ([], cs)
  | '\r' :: '\n' :: cs => (literalLines? cs).map (withChar '\n')
  | c :: cs =>
    if isControl c ∧ c ≠ '\n' then none else (literalLines? cs).map (withChar c)

/-- Drops a line end right after the opening quotes. -/
def skipFirstLineEnd : List Char → List Char
  | '\n' :: cs => cs
  | '\r' :: '\n' :: cs => cs
  | cs => cs

/-- Reads a string of any kind. -/
def string? : List Char → Option (String × List Char)
  | '"' :: '"' :: '"' :: cs => (basicLines? .none (skipFirstLineEnd cs)).map ofRead
  | '\'' :: '\'' :: '\'' :: cs => (literalLines? (skipFirstLineEnd cs)).map ofRead
  | cs => (oneLine? cs).map ofRead
where
  /-- Makes a text of the characters. -/
  ofRead (r : List Char × List Char) : String × List Char := (String.ofList r.1, r.2)
  /-- Reads a string that ends on its line. -/
  oneLine? : List Char → Option (List Char × List Char)
    | '"' :: cs => basic? cs
    | '\'' :: cs => literal? cs
    | _ => none

end Toml

end QueryEditor
