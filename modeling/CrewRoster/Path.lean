/-!
Paths of files and folders, written with slashes. A path is its parts; empty parts and parts that stay
where they are do not count.
-/

namespace CrewRoster

structure Path where
  /-- The slashes that an absolute path starts with. -/
  root : String
  parts : List String
  deriving DecidableEq, Repr

namespace Path

def partsOf (text : String) : List String :=
  (text.splitOn "/").filter fun part => part ≠ "" && part ≠ "."

/-- Two slashes at the start are kept, and any other number of them is one. -/
def rootOf (text : String) : String :=
  match (text.toList.takeWhile (· == '/')).length with
  | 0 => ""
  | 2 => "//"
  | _ => "/"

def ofText (text : String) : Path := ⟨rootOf text, partsOf text⟩

def child (p : Path) (name : String) : Path := { p with parts := p.parts ++ partsOf name }

/-- The last part, empty if there is none. -/
def name (p : Path) : String := (p.parts.getLast?).getD ""

def text (p : Path) : String :=
  if p.root = "" && p.parts.isEmpty then "." else p.root ++ "/".intercalate p.parts

end Path
end CrewRoster
