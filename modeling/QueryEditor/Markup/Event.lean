import QueryEditor.Markup.Tag

/-!
# The tags of a markup text

`Markup.events` lists the tags of a text in order, up to the end or to the first place where the
text is malformed.  Text between tags, comments, processing instructions, `CDATA` sections and
document types are passed over.  A closing tag has to name the innermost open element; elements
may stay open at the end, and a tag that the end cuts off counts as if it were closed there.

A `Scanner` goes through the text character by character.
-/

namespace QueryEditor

namespace Markup

/-- A tag of a markup text. -/
inductive Event
  /-- A start tag. -/
  | opening (t : Tag)
  /-- The tag of an empty element. -/
  | empty (t : Tag)
  /-- The closing tag of the innermost open element. -/
  | closing
  /-- Here the text is malformed. -/
  | malformed
  deriving DecidableEq, Repr

/-- A place in a markup text.  What was read of a tag or declaration is given last character
first. -/
inductive Place
  /-- Between tags. -/
  | content
  /-- After an opening angle bracket. -/
  | markup
  /-- In a start tag, perhaps in a quoted value. -/
  | tag (quote : Option Char) (read : List Char)
  /-- In a closing tag. -/
  | closing (read : List Char)
  /-- In a processing instruction. -/
  | instruction (read : List Char)
  /-- In a comment, `CDATA` section or document type. -/
  | declaration (read : List Char)
  /-- After the place where the text is malformed. -/
  | nowhere
  deriving DecidableEq, Repr

/-- How far a text was read. -/
structure Scanner where
  place : Place := .content
  /-- The names of the open elements, innermost first. -/
  opened : List (List Char) := []
  /-- The tags so far, last first. -/
  events : List Event := []
  deriving DecidableEq, Repr

namespace Scanner

/-- Goes to another place. -/
def goTo (s : Scanner) (p : Place) : Scanner := { s with place := p }

/-- The text turned out to be malformed. -/
def fail (s : Scanner) : Scanner :=
  { s with place := .nowhere, events := .malformed :: s.events }

/-- A start tag ends; a slash at its end makes the element empty. -/
def endTag (s : Scanner) (text : List Char) : Scanner :=
  if text.getLast? = some '/' then
    { s with place := .content, events := .empty (Tag.ofText text.dropLast) :: s.events }
  else
    let t := Tag.ofText text
    { place := .content, opened := t.name :: s.opened, events := .opening t :: s.events }

/-- The name in a closing tag, without the white space after it. -/
def closingName (text : List Char) : List Char :=
  if text.all isSpace then text else (text.reverse.dropWhile isSpace).reverse

/-- A closing tag ends. -/
def endClosing (s : Scanner) (text : List Char) : Scanner :=
  match s.opened with
  | [] => s.fail
  | name :: opened =>
    if closingName text = name then
      { place := .content, opened, events := .closing :: s.events }
    else s.fail

/-- A processing instruction ends; something and a question mark have to stand in it. -/
def endInstruction (s : Scanner) (read : List Char) : Scanner :=
  match read with
  | '?' :: _ :: _ => s.goTo .content
  | _ => s.fail

/-! ### Declarations -/

/-- The kinds of declaration. -/
inductive Declaration
  | comment
  | characterData
  | documentType
  deriving DecidableEq, Repr

/-- The kind of declaration that starts with these characters. -/
def declaration? : List Char → Option Declaration
  | '-' :: _ => some .comment
  | '[' :: _ => some .characterData
  | 'D' :: _ | 'd' :: _ => some .documentType
  | _ => none

/-- The number of opening angle brackets less that of closing ones. -/
def angleBalance (cs : List Char) : Int := (cs.count '<' : Int) - cs.count '>'

/-- Whether a closing angle bracket after `text` ends a declaration. -/
def Declaration.endsAfter (text : List Char) : Declaration → Bool
  | .comment => 4 ≤ text.length && "--".toList.isSuffixOf text
  | .characterData => "]]".toList.isSuffixOf text
  | .documentType => angleBalance text == 0

/-- Whether `text` starts with `lead`, in letters of either case. -/
def startsWithWord (lead : String) (text : List Char) : Bool :=
  lead.toList.isPrefixOf (text.map Char.toUpper)

/-- Whether `text` is a whole declaration. -/
def Declaration.isWellFormed (text : List Char) : Declaration → Bool
  | .comment => "--".toList.isPrefixOf text
  | .characterData => startsWithWord "[CDATA[" text
  | .documentType => startsWithWord "DOCTYPE" text && !(text.drop 7).all isSpace

/-- A closing angle bracket in a declaration ends it or belongs to it. -/
def endDeclaration (s : Scanner) (read : List Char) : Scanner :=
  match declaration? read.reverse with
  | none => s.fail
  | some d =>
    if !d.endsAfter read.reverse then s.goTo (.declaration ('>' :: read))
    else if d.isWellFormed read.reverse then s.goTo .content
    else s.fail

/-! ### Steps -/

/-- Reads a character of a start tag. -/
def readTag (s : Scanner) (quote : Option Char) (read : List Char) (c : Char) : Scanner :=
  match quote with
  | some q => s.goTo (.tag (if c = q then none else some q) (c :: read))
  | none =>
    if c = '>' then s.endTag read.reverse
    else s.goTo (.tag (if c = '"' ∨ c = '\'' then some c else none) (c :: read))

/-- Reads a character after an opening angle bracket. -/
def readMarkup (s : Scanner) (c : Char) : Scanner :=
  if c = '!' then s.goTo (.declaration [])
  else if c = '/' then s.goTo (.closing [])
  else if c = '?' then s.goTo (.instruction [])
  else s.readTag none [] c

/-- Reads a character. -/
def step (s : Scanner) (c : Char) : Scanner :=
  match s.place with
  | .content => if c = '<' then s.goTo .markup else s
  | .markup => s.readMarkup c
  | .tag quote read => s.readTag quote read c
  | .closing read => if c = '>' then s.endClosing read.reverse else s.goTo (.closing (c :: read))
  | .instruction read =>
    if c = '>' then s.endInstruction read else s.goTo (.instruction (c :: read))
  | .declaration read =>
    if c = '>' then s.endDeclaration read else s.goTo (.declaration (c :: read))
  | .nowhere => s

/-- The text ends. -/
def finish (s : Scanner) : Scanner :=
  match s.place with
  | .content | .markup | .nowhere => s
  | .tag _ read => s.endTag read.reverse
  | .closing read => s.endClosing read.reverse
  | .instruction read => s.endInstruction read
  | .declaration _ => s.fail

end Scanner

/-- Drops a byte order mark at the start. -/
def dropByteOrderMark : List Char → List Char
  | '\ufeff' :: cs => cs
  | cs => cs

/-- The tags of a text. -/
def events (text : String) : List Event :=
  (((dropByteOrderMark text.toList).foldl Scanner.step {}).finish).events.reverse

end Markup

end QueryEditor
