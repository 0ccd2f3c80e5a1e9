/-! Property values of a panel description: a flag, one cell, an array of cells, a text
or a list of texts. A cell is a 32-bit word. -/
namespace OledPanel

inductive Property where
  | flag (b : Bool)
  | cell (c : UInt32)
  | cells (cs : List UInt32)
  | text (s : String)
  | texts (ss : List String)
deriving DecidableEq, Repr

namespace Property

inductive Kind where
  | flag
  | cell
  | cells
  | text
  | texts
deriving DecidableEq, Repr

def Kind.name : Kind → String
  | .flag => "bool"
  | .cell => "u32"
  | .cells => "u32 array"
  | .text => "string"
  | .texts => "string list"

def kind : Property → Kind
  | .flag _ => .flag
  | .cell _ => .cell
  | .cells _ => .cells
  | .text _ => .text
  | .texts _ => .texts

/-- The flag behaves as if it were present: anything but an explicit false. -/
def isSet : Property → Bool
  | .flag b => b
  | _ => true

/-- An array of one cell reads as that cell. -/
def cell? : Property → Option UInt32
  | .cell c => some c
  | .cells [c] => some c
  | _ => none

/-- One cell reads as an array of one. -/
def cells? : Property → Option (List UInt32)
  | .cell c => some [c]
  | .cells cs => some cs
  | _ => none

def text? : Property → Option String
  | .text s => some s
  | _ => none

/-- One text or a list of texts names `s`. -/
def names (s : String) : Property → Bool
  | .text t => t == s
  | .texts ts => ts.contains s
  | _ => false

end Property
end OledPanel
