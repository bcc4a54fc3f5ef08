import CrewRoster.Document

/-!
How values appear in messages and tables: a text as it is, and anything else in a notation in which
texts are quoted.
-/

namespace CrewRoster.Document

def flagText (b : Bool) : String := if b then "True" else "False"

mutual

/-- The notation of a value. -/
def notated : Document → String
  | null => "None"
  | flag b => flagText b
  | whole n => toString n
  | real x => x.text
  | text s => Text.quoted s
  | array items => Text.bracketed (notatedItems items)
  | object fields => "\x7b" ++ ", ".intercalate (notatedFields fields) ++ "\x7d"

def notatedItems : List Document → List String
  | [] => []
  | d :: ds => notated d :: notatedItems ds

def notatedFields : List (String × Document) → List String
  | [] => []
  | (name, d) :: ds => (Text.quoted name ++ ": " ++ notated d) :: notatedFields ds

end

def display : Document → String
  | text s => s
  | d => d.notated

end CrewRoster.Document
