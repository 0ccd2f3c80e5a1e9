import OledPanel.Bench.Host
import OledPanel.Panel.Scenario

/-! Plain panels for the bench. They have the brightness command with levels from 1 to 255 and
nothing else, except for what is given of their high-brightness mode. One kind is lit by an output
instead, and one has two timings and gamma tables besides. -/

namespace OledPanel.Bench

open Panel (Config)

/-- The description of a plain panel with these child nodes. -/
def plainNode (children : List Node) : Node where
  name := "panel"
  properties := [
    (Backlight.Config.keyKind, .text "bl_ctrl_dcs"),
    (LevelMap.keyLowest, .cell 1),
    (LevelMap.keyHighest, .cell 255)]
  children := children

/-- The description of a high-brightness mode with its ranges. -/
def hbmNode (properties : List (String × Property)) (ranges : List Node) : Node where
  name := Hbm.nodeName
  properties := properties
  children := ranges

/-- The description of a range from a threshold on, with the frames it dims and the payload that
ends dimming. -/
def rangeNode (threshold panelStart panelEnd : UInt32) (dimming : Option (UInt32 × List UInt8)) :
    Node where
  name := "range"
  properties := [
    (Hbm.keyThreshold, .cell threshold),
    (Hbm.keyMin, .cell panelStart),
    (Hbm.keyMax, .cell panelEnd)] ++
    dimming.elim [] fun d =>
      [(Hbm.keyFrames, .cell d.1), (Hbm.keyStop, .cells (Dsi.CommandSet.pack [d.2]))]

/-- A description with further properties. -/
def withProperties (n : Node) (properties : List (String × Property)) : Node :=
  { n with properties := n.properties ++ properties }

/-- A plain panel with a high-brightness mode, if any. -/
def plain (hbm : Option Hbm.Config) : Config where
  backlight := {
    kind := .dcs
    map := { lowest := 1, highest := 255 }
    lowBits := 8
    waitsForFrame := false
    dimming := false
    thresholds := none
    pwmPeriodUs := none }
  hbm := hbm
  timings := []
  edges := none
  sets := ⟨{}, {}, {}, {}, {}⟩
  family := .generic
  actuator := .dcs

/-- The plain panel after inputs, attached to a host and a display without faults. -/
abbrev plainRun (hbm : Option Hbm.Config) (host : Host) (inputs : List Panel.Input) :
    Panel.State Host :=
  Panel.run (plain hbm) (Panel.State.initial (plain hbm) host {} none none) inputs

example : (Config.ofNode (plainNode []) false).toOption = some (plain none) := by decide +kernel

/-! ### With an output -/

/-- The description of a plain panel that is lit by an output with a period of 100 microseconds. -/
def pwmNode : Node where
  name := "panel"
  properties := [
    (Backlight.Config.keyKind, .text "bl_ctrl_pwm"),
    (Backlight.Config.keyPwmPeriod, .cell 100),
    (LevelMap.keyLowest, .cell 1),
    (LevelMap.keyHighest, .cell 255)]
  children := []

/-- A plain panel that is lit by an output with a period of 100 microseconds. -/
def pwmPlain : Config :=
  { plain none with
    backlight := { (plain none).backlight with kind := .pwm, pwmPeriodUs := some 100 }
    actuator := .pwm 100 }

example : (Config.ofNode pwmNode true).toOption = some pwmPlain := by decide +kernel

/-! ### With gamma tables -/

/-- The description of a timing without commands. -/
def timingNode (rate : UInt32) : Node where
  name := "timing"
  properties := [
    (Timing.keyWidth, .cell 1080),
    (Timing.keyHeight, .cell 2340),
    (Timing.keyRate, .cell rate)]
  children := []

/-- The description of a plain panel with gamma tables for 60 Hz and 90 Hz. -/
def gammaNode (children : List Node) : Node :=
  let timings := { name := Timing.nodeName, children := [timingNode 60, timingNode 90] }
  withProperties (plainNode (timings :: children)) [("compatible", .texts [Gamma.compatible])]

/-- A plain panel with gamma tables for 60 Hz and 90 Hz. -/
def gammaPlain (hbm : Option Hbm.Config) : Config :=
  { plain hbm with
    timings := [⟨1080, 2340, 60, {}⟩, ⟨1080, 2340, 90, {}⟩]
    family := .gamma }

example : (Config.ofNode (gammaNode []) false).toOption = some (gammaPlain none) := by decide +kernel

end OledPanel.Bench
