import CrewRoster.Document.Reader
import CrewRoster.Path

/-!
Where the files of an instance are.
-/

namespace CrewRoster

/-- A folder by its path, with the text of each file in it. -/
structure Folder where
  path : Path
  file? : String → Option String

namespace Folder

/-- The document in a file that has to be there. -/
def document (f : Folder) (name : String) : Result Document :=
  match f.file? name with
  | none => .error (.missingFile (f.path.child name).text)
  | some text => Document.parse text

end Folder
end CrewRoster
