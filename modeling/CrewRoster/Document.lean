import CrewRoster.Fault
import CrewRoster.Number.Shortest
import CrewRoster.Text.Quoted

/-!
Documents: the values that instance files are made of. A file promises nothing about its shape, so the
readers below take what they are given: a text may stand where a list is expected, and then is the list
of its characters; a number may be written as a text; and what cannot be used has a fault of its own.
-/

namespace CrewRoster

/-- A value of an instance file. An object keeps its fields in order, one for each name. -/
inductive Document
  | null
  | flag (b : Bool)
  | whole (n : Int)
  | real (x : Binary64)
  | text (s : String)
  | array (items : List Document)
  | object (fields : List (String × Document))
  deriving Repr, Inhabited

/-- A field that serves only as a name: a code, a skill, a type. In a well made file it is a text. -/
abbrev Label := Document

namespace Document

/-! ## Equality -/

mutual

def decEq : (a b : Document) → Decidable (a = b)
  | null, null => .isTrue rfl
  | flag a, flag b => if h : a = b then .isTrue (by rw [h]) else .isFalse (by simp [h])
  | whole a, whole b => if h : a = b then .isTrue (by rw [h]) else .isFalse (by simp [h])
  | real a, real b => if h : a = b then .isTrue (by rw [h]) else .isFalse (by simp [h])
  | text a, text b => if h : a = b then .isTrue (by rw [h]) else .isFalse (by simp [h])
  | array as, array bs =>
    match decEqItems as bs with
    | .isTrue h => .isTrue (by rw [h])
    | .isFalse h => .isFalse (by simp [h])
  | object as, object bs =>
    match decEqFields as bs with
    | .isTrue h => .isTrue (by rw [h])
    | .isFalse h => .isFalse (by simp [h])
  | null, flag _ | null, whole _ | null, real _ | null, text _ | null, array _ | null, object _
  | flag _, null | flag _, whole _ | flag _, real _ | flag _, text _ | flag _, array _
  | flag _, object _ | whole _, null | whole _, flag _ | whole _, real _ | whole _, text _
  | whole _, array _ | whole _, object _ | real _, null | real _, flag _ | real _, whole _
  | real _, text _ | real _, array _ | real _, object _ | text _, null | text _, flag _
  | text _, whole _ | text _, real _ | text _, array _ | text _, object _ | array _, null
  | array _, flag _ | array _, whole _ | array _, real _ | array _, text _ | array _, object _
  | object _, null | object _, flag _ | object _, whole _ | object _, real _ | object _, text _
  | object _, array _ => .isFalse (by simp)

def decEqItems : (as bs : List Document) → Decidable (as = bs)
  | [], [] => .isTrue rfl
  | [], _ :: _ | _ :: _, [] => .isFalse (by simp)
  | a :: as, b :: bs =>
    match decEq a b, decEqItems as bs with
    | .isTrue h, .isTrue hs => .isTrue (by rw [h, hs])
    | .isFalse h, _ => .isFalse (by simp [h])
    | _, .isFalse hs => .isFalse (by simp [hs])

def decEqFields : (as bs : List (String × Document)) → Decidable (as = bs)
  | [], [] => .isTrue rfl
  | [], _ :: _ | _ :: _, [] => .isFalse (by simp)
  | (k, a) :: as, (l, b) :: bs =>
    if hk : k = l then
      match decEq a b, decEqFields as bs with
      | .isTrue h, .isTrue hs => .isTrue (by rw [hk, h, hs])
      | .isFalse h, _ => .isFalse (by simp [h])
      | _, .isFalse hs => .isFalse (by simp [hs])
    else .isFalse (by simp [hk])

end

instance : DecidableEq Document := decEq

/-! ## Parts -/

/-- The value of a field that has to be there. -/
def field (d : Document) (name : String) : Result Document :=
  match d with
  | object fields =>
    match fields.lookup name with
    | some value => .ok value
    | none => .error .missingKey
  | _ => .error .wrongType

/-- The value of a field that may be absent. -/
def fieldOr (d : Document) (name : String) (absent : Document) : Result Document :=
  match d with
  | object fields => .ok ((fields.lookup name).getD absent)
  | _ => .error .noMember

/-- What a list is expected to hold: a text gives its characters, an object its names. -/
def items : Document → Result (List Document)
  | array items => .ok items
  | text s => .ok ((Text.Point.all s.toList).map fun p => text (String.ofList p.carried))
  | object fields => .ok (fields.map fun (name, _) => text name)
  | _ => .error .wrongType

def entries : Document → Result (List (String × Document))
  | object fields => .ok fields
  | _ => .error .noMember

/-! ## Conversions -/

def toText : Document → Result String
  | text s => .ok s
  | _ => .error .wrongType

/-- A whole number: a fraction is cut off, a truth value counts 0 or 1, a text is read. -/
def toWhole : Document → Result Int
  | flag b => .ok (if b then 1 else 0)
  | whole n => .ok n
  | real x =>
    if x.isNaN then .error .unreadable
    else if x.isFinite then .ok (truncate x.value)
    else .error .outOfRange
  | text s => (readWhole? s).elim (.error .unreadable) .ok
  | _ => .error .wrongType

/-- The double nearest to a whole number, if one is near. -/
def realOfWhole (n : Int) : Result Binary64 :=
  let x := Binary64.ofRat n
  if x.isFinite then .ok x else .error .outOfRange

def toReal : Document → Result Binary64
  | flag b => realOfWhole (if b then 1 else 0)
  | whole n => realOfWhole n
  | real x => .ok x
  | text s => (readBinary64? s).elim (.error .unreadable) .ok
  | _ => .error .wrongType

/-- Zeros, `null` and whatever is empty count as absent. -/
def isPresent : Document → Bool
  | null => false
  | flag b => b
  | whole n => n ≠ 0
  | real x => x.isNaN || !x.isFinite || x.value ≠ 0
  | text s => !s.isEmpty
  | array items => !items.isEmpty
  | object fields => !fields.isEmpty

/-! ## Labels -/

mutual

/--
The form under which labels are looked up: a number stands for its value, however it is written, and the
fields of an object have no order.
-/
def key : Document → Document
  | flag b => whole (if b then 1 else 0)
  | real x => if x.isFinite && x.value.den = 1 then whole x.value.num else real x
  | array items => array (keyItems items)
  | object fields => object ((keyFields fields).mergeSort fun a b => a.1 ≤ b.1)
  | d => d

def keyItems : List Document → List Document
  | [] => []
  | d :: ds => key d :: keyItems ds

def keyFields : List (String × Document) → List (String × Document)
  | [] => []
  | (name, d) :: ds => (name, key d) :: keyFields ds

end

/-- Whether a label is found where the other one was put. -/
def sameKey (a b : Label) : Bool := a.key = b.key

def isNotANumber : Document → Bool
  | real x => x.isNaN
  | _ => false

/-- Whether two labels are equal. What is not a number is found again, but equals nothing. -/
def same (a b : Label) : Bool := a.sameKey b && !a.isNotANumber

/-- Lists and objects cannot be looked up. -/
def isScalar : Document → Bool
  | array _ | object _ => false
  | _ => true

/-- The key of a label that is about to be looked up. -/
def lookupKey (d : Label) : Result Document :=
  if d.isScalar then .ok d.key else .error .wrongType

end Document
end CrewRoster
