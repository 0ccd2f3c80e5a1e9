import OledPanel.Brightness.LevelMap

/-! The backlight as a panel describes it. -/
namespace OledPanel.Backlight

/-- How the backlight is driven. -/
inductive Kind where
  | pwm
  | dcs
  | wled
  | external
  | unknown
deriving DecidableEq, Repr

/-- The kind a description names. -/
def Kind.ofName : Option String → Kind
  | some "bl_ctrl_pwm" => .pwm
  | some "bl_ctrl_wled" => .wled
  | some "bl_ctrl_dcs" => .dcs
  | some "bl_ctrl_external" => .external
  | _ => .unknown

/-- The largest number of ambient-light thresholds. -/
def maxThresholds : Nat := 10

structure Config where
  kind : Kind
  map : LevelMap
  /-- The number of bits in the low byte of a level of two bytes. -/
  lowBits : Nat
  /-- Levels are held back after power-on until the first frame. -/
  waitsForFrame : Bool
  /-- The panel dims by itself. -/
  dimming : Bool
  /-- The ambient-light thresholds to start with. -/
  thresholds : Option (List UInt32)
  /-- The PWM period in microseconds. -/
  pwmPeriodUs : Option UInt32
deriving DecidableEq, Repr

namespace Config

def keyKind : String := "qcom,mdss-dsi-bl-pmic-control-type"
def keyUpdate : String := "qcom,bl-update-flag"
def keyLowBits : String := "google,dsi-bl-cmd-high-byte-offset"
def keyThresholds : String := "qcom,mdss-dsi-bl-notifier-ranges"
def keyDimming : String := "google,dsi-panel-dimming-enable"
def keyPwmPeriod : String := "qcom,bl-pmic-pwm-period-usecs"

def ofNode (n : Node) : Except Error Config := do
  let kind := Kind.ofName (← n.text keyKind)
  let waitsForFrame := (← n.text keyUpdate) = some "delay_until_first_frame"
  let map ← LevelMap.ofNode n
  let thresholds := (← n.cells keyThresholds).filter (·.length ≤ maxThresholds)
  let lowBits := ((← n.cell keyLowBits).getD 8).toNat
  let pwmPeriodUs ← n.cell keyPwmPeriod
  return { kind, map, lowBits, waitsForFrame, dimming := n.flag keyDimming, thresholds, pwmPeriodUs }

end Config
end OledPanel.Backlight
