import OledPanel.Node.Basic

/-! Low-power mode, in which brightness is a choice among a few bins rather than a level, and
the edge of the second tearing-effect line that goes with a bin. -/
namespace OledPanel.LowPower

/-- The largest number of bins. -/
def maxBins : Nat := 10

/-- Panels compatible with this have bins. -/
def compatible : String := "google,dsi_binned_lp"

structure Bin where
  name : String
  /-- The highest brightness the bin serves. -/
  threshold : UInt32
  /-- Sent to bring the panel into the bin. -/
  enter : Dsi.CommandSet
deriving DecidableEq, Repr

namespace Bin

def nodeName : String := "google,lp-modes"
def keyThreshold : String := "google,dsi-lp-brightness-threshold"
def keyEnter : String := "google,dsi-lp-command"
def keyEnterState : String := "google,dsi-lp-command-state"

/-- A bin without a threshold serves everything above the others. -/
def ofNode (n : Node) : Except Error Bin := do
  let threshold := (← n.cell keyThreshold).getD 0xFFFFFFFF
  let some enter ← n.commandSet keyEnter keyEnterState
    | throw (.config keyEnter .noLowPowerCommand)
  let name := (← n.text "label").getD n.name
  return { name, threshold, enter }

/-- Bins by ascending threshold; those with the same threshold stay in order. -/
def sort (bins : List Bin) : List Bin := bins.mergeSort fun a b => a.threshold ≤ b.threshold

/-- The bins of a panel, if their number is one it can have. -/
def allOf (n : Node) : Except Error (Option (List Bin)) :=
  match n.child? nodeName with
  | none => .ok none
  | some modes =>
    if modes.children.isEmpty ∨ maxBins < modes.children.length then .ok none
    else (modes.children.mapM ofNode).map fun bins => some (sort bins)

/-- The first bin that serves a brightness. -/
def select? (bins : List Bin) (b : UInt32) : Option Nat := bins.findIdx? (b ≤ ·.threshold)

end Bin

/-- The edge of the second tearing-effect line. -/
inductive Edge where
  | normal
  | high
  | low
deriving DecidableEq, Repr

/-- The edges of a panel that has them, and the threshold above which a bin takes the high one. -/
structure Edges where
  threshold : UInt32
  high : Dsi.CommandSet
  low : Dsi.CommandSet
deriving DecidableEq, Repr

namespace Edges

def keyThreshold : String := "google,te2-lp-threshold"
def keyHigh : String := "google,te2-lp-high-command"
def keyLow : String := "google,te2-lp-low-command"
def keyState : String := "google,te2-lp-command-state"

/-- A panel needs the threshold and the commands of both edges. -/
def ofNode (n : Node) : Except Error (Option Edges) := do
  let some threshold ← n.cell keyThreshold | return none
  let high ← n.commandSet keyHigh keyState
  let low ← n.commandSet keyLow keyState
  match high, low with
  | some high, some low => return some { threshold, high, low }
  | _, _ => return none

/-- Before the first bin the line is as outside low power. -/
def initial (_ : Edges) : Edge := .normal

def edge (e : Edges) (bin : Bin) : Edge := if e.threshold < bin.threshold then .high else .low

def commands (e : Edges) (bin : Bin) : Dsi.CommandSet :=
  match e.edge bin with
  | .high => e.high
  | _ => e.low

end Edges
end OledPanel.LowPower
