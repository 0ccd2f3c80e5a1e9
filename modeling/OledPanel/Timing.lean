import OledPanel.Node.Basic
import OledPanel.Text.Blank

/-! Display timings and the requests that select one. A request names a refresh rate and
may name a size: `1080x2340@90`, `@90` or `90`. -/
namespace OledPanel

structure Timing where
  width : UInt32
  height : UInt32
  rate : UInt32
  /-- Sent to bring the panel into this timing. -/
  switch : Dsi.CommandSet := {}
deriving DecidableEq, Repr

structure ModeRequest where
  /-- The width and height asked for, where it matters. -/
  size : Option (UInt32 × UInt32)
  rate : UInt32
deriving DecidableEq, Repr

namespace ModeRequest

/-- A 32-bit word in decimal digits, between blanks. -/
def number? (cs : List Char) : Option UInt32 :=
  (Text.unsigned 10 UInt32.size (Text.trim cs)).map UInt32.ofNat

def size? (cs : List Char) : Option (UInt32 × UInt32) := do
  let (w, h) ← Text.cut 'x' cs
  return (← number? w, ← number? h)

/-- What stands before and after the at sign, if there is one. -/
def parts? (cs : List Char) : Option (Option (UInt32 × UInt32) × List Char) :=
  match Text.cut '@' cs with
  | none => some (none, cs)
  | some ([], rate) => some (none, rate)
  | some (size, rate) => (size? size).map fun s => (some s, rate)

def ofChars? (cs : List Char) : Option ModeRequest := do
  let (size, rate) ← parts? (Text.trim cs)
  let rate ← number? rate
  if rate = 0 then none else some { size, rate }

def parse (s : String) : Except Error ModeRequest :=
  match ofChars? s.toList with
  | some r => .ok r
  | none => .error (.malformed (.modeText (String.ofList (Text.trim s.toList))))

end ModeRequest

namespace Timing

def nodeName : String := "qcom,mdss-dsi-display-timings"
def keyWidth : String := "qcom,mdss-dsi-panel-width"
def keyHeight : String := "qcom,mdss-dsi-panel-height"
def keyRate : String := "qcom,mdss-dsi-panel-framerate"
def keySwitch : String := "qcom,mdss-dsi-timing-switch-command"
def keySwitchState : String := "qcom,mdss-dsi-timing-switch-command-state"

def ofNode (n : Node) : Except Error Timing := do
  let width ← n.cellOr keyWidth .missing
  let height ← n.cellOr keyHeight .missing
  let rate ← n.cellOr keyRate .missing
  let switch ← n.commandSetD keySwitch keySwitchState
  return { width, height, rate, switch }

/-- The timings of a panel in the order of the description. -/
def allOf (n : Node) : Except Error (List Timing) :=
  match n.child? nodeName with
  | none => .ok []
  | some timings => timings.children.mapM ofNode

/-- The name of a timing, which is also a request for it. -/
def name (t : Timing) : String :=
  Text.decimal t.width.toNat ++ "x" ++ Text.decimal t.height.toNat ++ "@" ++
    Text.decimal t.rate.toNat

def fits (t : Timing) (r : ModeRequest) : Bool :=
  r.rate = t.rate && r.size.all fun s => s = (t.width, t.height)

/-- The first timing that fits a request. -/
def find? (ts : List Timing) (r : ModeRequest) : Option Nat := ts.findIdx? (·.fits r)

end Timing
end OledPanel
