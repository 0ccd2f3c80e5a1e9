import OledPanel.Dsi.CommandSet

/-! The tree that describes a panel: nodes with a name, properties and child nodes. A
property that is absent reads as `none`, and one of another kind than asked for is an
error that names both kinds. -/
namespace OledPanel

structure Node where
  name : String := ""
  /-- The properties in the order of the description; no key occurs twice. -/
  properties : List (String × Property) := []
  children : List Node := []

namespace Node

def property? (n : Node) (key : String) : Option Property := n.properties.lookup key

/-- The first child of that name. -/
def child? (n : Node) (name : String) : Option Node := n.children.find? (·.name = name)

def isCompatible (n : Node) (name : String) : Bool :=
  (n.property? "compatible").any (·.names name)

def flag (n : Node) (key : String) : Bool := (n.property? key).any (·.isSet)

/-- The property as `view` sees it, or an error that `expected` was asked for. -/
def readAs {α : Type} (view : Property → Option α) (expected : Property.Kind) (n : Node) (key : String) :
    Except Error (Option α) :=
  match n.property? key with
  | none => .ok none
  | some p =>
    match view p with
    | some a => .ok (some a)
    | none => .error (.config key (.wrongType expected p.kind))

def cell : Node → String → Except Error (Option UInt32) := readAs Property.cell? .cell

def cells : Node → String → Except Error (Option (List UInt32)) := readAs Property.cells? .cells

def text : Node → String → Except Error (Option String) := readAs Property.text? .text

/-- A cell that the description has to give, or the error that says why it is refused. -/
def cellOr (n : Node) (key : String) (why : ConfigFault) : Except Error UInt32 := do
  match ← n.cell key with
  | some c => .ok c
  | none => .error (.config key why)

def byte (key : String) (c : UInt32) : Except Error UInt8 :=
  if c < 256 then .ok c.toUInt8 else .error (.config key (.notByte c))

/-- An array of cells each of which is a byte. -/
def bytes (n : Node) (key : String) : Except Error (Option (List UInt8)) := do
  match ← n.cells key with
  | none => return none
  | some cs => return some (← cs.mapM (byte key))

/-- A packed command set; `stateKey` names its transmission. Absent or empty is `none`. -/
def commandSet (n : Node) (key stateKey : String) : Except Error (Option Dsi.CommandSet) := do
  match ← n.bytes key with
  | none | some [] => return none
  | some bs =>
    let state := (← n.text stateKey).elim .highSpeed Dsi.LinkState.ofName
    match Dsi.CommandSet.ofPacked bs state with
    | .ok set => return some set
    | .error why => throw (.config key (.badCommands why))

/-- A command set that may be missing, and is then empty. -/
def commandSetD (n : Node) (key stateKey : String) : Except Error Dsi.CommandSet := do
  return (← n.commandSet key stateKey).getD {}

end Node
end OledPanel
