import QueryEditor.Text.Blank

/-!
# Lists of values typed as one text

Until it is saved, a condition with several values may hold them as one text with commas between
them.  `ValueList.split` takes the text apart.
-/

namespace QueryEditor

namespace ValueList

/-- The values between the commas, without white space around them; blank ones are dropped. -/
def split (text : String) : List String :=
  (((text.toList.splitOn ',').map Text.trimmed).filter (· ≠ [])).map String.ofList

end ValueList

end QueryEditor
