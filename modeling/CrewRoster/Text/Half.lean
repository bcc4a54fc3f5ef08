/-!
Halves of pairs of code units. A file may spell one on its own, where it is no character. A text carries
it as two characters: a mark, and a character of private use that tells which half it is. The mark as a
character of its own is carried twice, so that nothing else is taken for a half. It is the last character
before the halves, so that texts are in order as if halves were characters.
-/

namespace CrewRoster.Text

/-- What a text is made of: characters, and halves of pairs that stand on their own. -/
inductive Point
  | char (c : Char)
  | half (n : Nat)
  deriving DecidableEq, Repr

namespace Point

def mark : Char := Char.ofNat 0xd7ff

/-- The characters that carry a point. -/
def carried : Point → List Char
  | char c => if c = mark then [mark, mark] else [c]
  | half n => [mark, Char.ofNat (0xe000 + (n - 0xd800))]

/-- The point behind a mark. -/
def marked (c : Char) : Point :=
  if c = mark then char mark else half (0xd800 + (c.toNat - 0xe000))

/-- The points that a text carries, behind those already found, latest first. -/
def allAfter (found : List Point) : List Char → List Point
  | [] => found.reverse
  | [c] => (char c :: found).reverse
  | c :: d :: cs =>
    if c = mark then allAfter (marked d :: found) cs else allAfter (char c :: found) (d :: cs)

/-- The points that a text carries. -/
def all (cs : List Char) : List Point := allAfter [] cs

/-- A point as one character; of the halves only that they are none. -/
def visible : Point → Char
  | char c => c
  | half _ => '\uFFFD'

end Point

/-- The characters of a text as they are seen. -/
def visible (text : String) : List Char := (Point.all text.toList).map Point.visible

end CrewRoster.Text
