import OledPanel.Error
import OledPanel.Text.Blank

/-! The forms of text that attributes are written in. Blanks around a value do not matter. -/
namespace OledPanel.Attribute.Input

/-- A number behind its sign: hexadecimal behind `0x`, octal behind another zero, else
decimal. -/
def magnitude? : List Char → Option Int
  | '0' :: 'x' :: ds => Text.signed 16 64 ds
  | '0' :: 'X' :: ds => Text.signed 16 64 ds
  | '0' :: d :: ds => Text.signed 8 64 (d :: ds)
  | ds => Text.signed 10 64 ds

/-- What an integer is read as: a value of 64 bits, or an overflow of them. -/
inductive Reading where
  | value (v : Int)
  | overflow
deriving DecidableEq, Repr

/-- The least number of 64 bits is the one whose negation they do not hold. -/
def negated (v : Int) : Reading := if v = Int64.minValue.toInt then .overflow else .value (-v)

def integer? : List Char → Option Reading
  | '-' :: ds => (magnitude? ds).map negated
  | '+' :: ds => (magnitude? ds).map .value
  | ds => (magnitude? ds).map .value

/-- A value read from text without the blanks around it, or an error with that text. -/
def trimmed {α : Type} (read : List Char → Option α) (why : String → Malformed) (cs : List Char) :
    Except Error α :=
  match read (Text.trim cs) with
  | some a => .ok a
  | none => .error (.malformed (why (String.ofList (Text.trim cs))))

/-- An overflow gives no value and is told apart from a text that is no integer. -/
def Reading.result : Reading → Except Error Int
  | .value v => .ok v
  | .overflow => .error (.malformed .overflow)

def integer (cs : List Char) : Except Error Int := do
  (← trimmed integer? .integer cs).result

/-- An integer in decimal digits of 32 bits with its sign. -/
def decimal : List Char → Except Error Int := trimmed (Text.signed 10 32) .decimal

/-- An integer that a word holds. -/
def word (cs : List Char) : Except Error UInt32 := do
  let v ← integer cs
  if 0 ≤ v ∧ v < UInt32.size then .ok (UInt32.ofNat v.toNat)
  else .error (.malformed (.outOfRange v))

/-- An integer held to what a word holds. -/
def clampedWord (cs : List Char) : Except Error UInt32 := do
  let v ← integer cs
  return UInt32.ofNat (min v.toNat (UInt32.size - 1))

def boolean? (cs : List Char) : Option Bool :=
  let s := String.ofList cs
  if ["1", "y", "yes", "true", "on"].contains s then some true
  else if ["0", "n", "no", "false", "off"].contains s then some false
  else none

/-- A word for yes or no, in letters of either case. -/
def boolean (cs : List Char) : Except Error Bool :=
  trimmed boolean? .boolean (cs.map Char.toLower)

/-- Words apart by blanks, at least one and at most `limit`. -/
def list (limit : Nat) (cs : List Char) : Except Error (List UInt32) := do
  let values ← (Text.words cs).mapM word
  if values.isEmpty ∨ limit < values.length then .error (.invalid .alsListLength)
  else .ok values

end OledPanel.Attribute.Input
