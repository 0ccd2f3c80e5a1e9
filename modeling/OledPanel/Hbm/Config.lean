import OledPanel.Hbm.Irc

/-! High-brightness mode as a panel describes it: up to four ranges of user brightness, each
with its levels, the commands on entry and the commands that end dimming. Ranges come in
ascending order; each reaches to the next, and the last to the highest brightness. -/
namespace OledPanel.Hbm

/-- The largest number of ranges. -/
def maxRanges : Nat := 4

structure Range where
  userStart : UInt32
  userEnd : UInt32
  panelStart : UInt32
  panelEnd : UInt32
  entry : Dsi.CommandSet
  /-- Sent when dimming into the range is over. -/
  stop : Dsi.CommandSet
  /-- The frames dimming lasts after entry. -/
  frames : Nat
deriving DecidableEq, Repr

structure Config where
  ranges : List Range
  exit : Dsi.CommandSet
  /-- Sent when dimming out of the mode is over. -/
  exitStop : Dsi.CommandSet
  exitFrames : Nat
  irc : Option Irc
deriving DecidableEq, Repr

def nodeName : String := "google,hbm-ranges"
def keyExit : String := "google,dsi-hbm-exit-command"
def keyExitState : String := "google,dsi-hbm-commands-state"
def keyExitFrames : String := "google,dsi-hbm-exit-num-dimming-frames"
def keyExitStop : String := "google,dsi-hbm-exit-dimming-stop-command"
def keyThreshold : String := "google,dsi-hbm-range-brightness-threshold"
def keyMin : String := "google,dsi-hbm-range-bl-min-level"
def keyMax : String := "google,dsi-hbm-range-bl-max-level"
def keyEntry : String := "google,dsi-hbm-range-entry-command"
def keyState : String := "google,dsi-hbm-range-commands-state"
def keyFrames : String := "google,dsi-hbm-range-num-dimming-frames"
def keyStop : String := "google,dsi-hbm-range-dimming-stop-command"

/-- Dimming needs frames to count and commands to end it, or neither. -/
def checkPair (key : String) (stop : Dsi.CommandSet) (frames : Nat) : Except Error Unit :=
  if stop.isEmpty = (frames == 0) then .ok () else .error (.config key .unpairedDimming)

def Range.ofNode (maxBrightness : UInt32) (n : Node) : Except Error Range := do
  let threshold ← n.cellOr keyThreshold .missing
  if maxBrightness < threshold then throw (.config keyThreshold .thresholdAboveMax)
  let panelStart ← n.cellOr keyMin .unspecified
  let panelEnd ← n.cellOr keyMax .unspecified
  if panelEnd < panelStart then throw (.config keyMax .levelsInverted)
  let entry ← n.commandSetD keyEntry keyState
  let frames := ((← n.cell keyFrames).getD 0).toNat
  let stop ← n.commandSetD keyStop keyState
  checkPair keyStop stop frames
  return { userStart := threshold, userEnd := maxBrightness, panelStart, panelEnd, entry, stop, frames }

/-- Ends each range before the next starts, if the starts ascend. -/
def chain : List Range → Except Error (List Range)
  | r :: next :: rest =>
    if r.userStart < next.userStart then do
      return { r with userEnd := next.userStart - 1 } :: (← chain (next :: rest))
    else .error (.config keyThreshold .rangesUnsorted)
  | rs => .ok rs

namespace Config

def ofChild (maxBrightness : UInt32) (n : Node) : Except Error Config := do
  let count := n.children.length
  if count = 0 ∨ maxRanges < count then throw (.config nodeName (.rangeCount count))
  let exit ← n.commandSetD keyExit keyExitState
  let exitFrames := ((← n.cell keyExitFrames).getD 0).toNat
  let exitStop ← n.commandSetD keyExitStop keyExitState
  checkPair keyExitStop exitStop exitFrames
  let irc ← Irc.ofNode n
  let ranges ← chain (← n.children.mapM (Range.ofNode maxBrightness))
  return { ranges, exit, exitStop, exitFrames, irc }

/-- A panel without the child node has no high-brightness mode. -/
def ofNode (maxBrightness : UInt32) (n : Node) : Except Error (Option Config) :=
  match n.child? nodeName with
  | none => .ok none
  | some child => (ofChild maxBrightness child).map some

/-- The first range that reaches up to a brightness. -/
def find? (c : Config) (b : UInt32) : Option Nat := c.ranges.findIdx? (b ≤ ·.userEnd)

/-- Some range or the way out of the mode is dimmed. -/
def usesDimming (c : Config) : Bool := 0 < c.exitFrames || c.ranges.any (0 < ·.frames)

end Config
end OledPanel.Hbm
