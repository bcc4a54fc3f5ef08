/-!
Comma-separated values: one line for each row, a field between quotes where it has to be.
-/

namespace CrewRoster.Text

def needsQuotes (c : Char) : Bool := c == ',' || c == '"' || c == '\n'

/-- A quoted field has its quotes written twice. -/
def csvQuoted (cs : List Char) : List Char :=
  '"' :: cs.flatMap (fun c => if c == '"' then ['"', '"'] else [c]) ++ ['"']

def csvField (field : String) : String :=
  if field.toList.any needsQuotes then String.ofList (csvQuoted field.toList) else field

/-- A row of one empty field is told from an empty line by its quotes. -/
def csvRow (fields : List String) : String :=
  (if fields = [""] then "\"\"" else ",".intercalate (fields.map csvField)) ++ "\n"

def csv (rows : List (List String)) : String := String.join (rows.map csvRow)

end CrewRoster.Text
