import OledPanel.Backlight.Config
import OledPanel.Gamma.Buffer
import OledPanel.Hbm.Config
import OledPanel.LowPower
import OledPanel.Timing

/-! What a panel is, as its description gives it. Nothing of this changes while the panel is
in use. -/
namespace OledPanel.Panel

/-- The command sets sent on changes of power. -/
structure PowerSets where
  on : Dsi.CommandSet
  off : Dsi.CommandSet
  lp1 : Dsi.CommandSet
  lp2 : Dsi.CommandSet
  nolp : Dsi.CommandSet
deriving DecidableEq, Repr

def PowerSets.ofNode (n : Node) : Except Error PowerSets := do
  let set (name : String) : Except Error Dsi.CommandSet :=
    n.commandSetD ("qcom,mdss-dsi-" ++ name ++ "-command") ("qcom,mdss-dsi-" ++ name ++ "-command-state")
  return {
    on := ← set "on"
    off := ← set "off"
    lp1 := ← set "lp1"
    lp2 := ← set "lp2"
    nolp := ← set "nolp" }

/-- What a level is written to. -/
inductive Actuator where
  /-- A driver elsewhere. -/
  | external
  | dcs
  /-- A bin while in low power, else the brightness command. -/
  | bins (bins : List LowPower.Bin)
  | pwm (periodUs : UInt32)
deriving DecidableEq, Repr

/-- The actuator of a kind of backlight. -/
def Actuator.ofKind (c : Backlight.Config) (hasPwm : Bool) : Except Error Actuator :=
  match c.kind with
  | .wled => .ok .external
  | .dcs => .ok .dcs
  | .pwm =>
    if hasPwm then
      match c.pwmPeriodUs with
      | some period => .ok (.pwm period)
      | none => .error (.config Backlight.Config.keyPwmPeriod .missing)
    else .error .noDevice
  | .external | .unknown => .error .notSupported

/-- Bins come before the kind where the panel has them. -/
def Actuator.ofNode (n : Node) (c : Backlight.Config) (hasPwm : Bool) : Except Error Actuator := do
  if n.isCompatible LowPower.compatible then
    match ← LowPower.Bin.allOf n with
    | some found => return .bins found
    | none => Actuator.ofKind c hasPwm
  else Actuator.ofKind c hasPwm

structure Config where
  backlight : Backlight.Config
  hbm : Option Hbm.Config
  timings : List Timing
  edges : Option LowPower.Edges
  sets : PowerSets
  family : Gamma.Family
  actuator : Actuator
deriving DecidableEq, Repr

def Config.ofNode (n : Node) (hasPwm : Bool) : Except Error Config := do
  let backlight ← Backlight.Config.ofNode n
  let hbm ← Hbm.Config.ofNode backlight.map.maxBrightness n
  let timings ← Timing.allOf n
  let edges ← LowPower.Edges.ofNode n
  let sets ← PowerSets.ofNode n
  let actuator ← Actuator.ofNode n backlight hasPwm
  return { backlight, hbm, timings, edges, sets, family := Gamma.Family.ofNode n, actuator }

/-- The panels registered so far are counted, and each is named by its number. -/
structure Registry where
  count : Nat := 0

/-- The name of a new panel and what it is. A panel that is refused is not counted. -/
def Registry.register (n : Node) (hasPwm : Bool) : Action Registry (String × Config) := fun r =>
  match Config.ofNode n hasPwm with
  | .ok c => .ok ("panel" ++ Text.decimal r.count ++ "-backlight", c) { r with count := r.count + 1 }
  | .error e => .error e r

end OledPanel.Panel
