import OledPanel.Backlight.Als
import OledPanel.Display
import OledPanel.Dsi.Transport
import OledPanel.Panel.Config
import OledPanel.Supply

/-! The state of a panel in use, part by part, together with what is attached to it: the
transport, the display controller, and where there are any a PWM output and a regulator. -/
namespace OledPanel

namespace Backlight

structure State where
  brightness : UInt32
  power : Power := .up
  bits : PowerBits := {}
  /-- The level tracked last; without one the next is written in any case. -/
  level : Option UInt32 := none
  /-- The power state that went with it. -/
  levelBits : PowerBits := {}
  factor : UInt32 := Brightness.fullScale
  sunlightFactor : UInt32 := Brightness.fullScale
  /-- Levels may be written. -/
  gateOpen : Bool := true
  /-- A level was held back and waits. -/
  held : Bool := false
  als : Option Als := none
  /-- The low-power bin in force. -/
  bin : Option Nat := none
  edge : LowPower.Edge := .normal
deriving DecidableEq, Repr

/-- The brightness to show: none while the panel is dark. -/
def State.wanted (s : State) : UInt32 :=
  if s.bits.isStandby || s.power ≠ .up then 0 else s.brightness

end Backlight

namespace Hbm

/-- What ends dimming: the commands of a range or those of the way out. -/
inductive Stop where
  | range (i : Nat)
  | exit
deriving DecidableEq, Repr

structure Dimming where
  active : Bool := false
  /-- The frames asked for last. -/
  total : Nat := 0
  /-- The frames still to count. -/
  left : Nat := 0
  stop : Option Stop := none
deriving DecidableEq, Repr

structure State where
  mode : HbmMode := .off
  sunlightEnabled : Bool := false
  /-- The range in force; none until one is entered. -/
  range : Option Nat := none
  dimming : Dimming := {}
  /-- The bytes of the compensation register, once they were read. -/
  ircBytes : Option (List UInt8) := none
  /-- Compensation is to be switched on when dimming ends. -/
  ircOwed : Bool := false
deriving DecidableEq, Repr

end Hbm

namespace Panel

/-- Work for after a request. -/
inductive Job where
  | switch
  | readGamma
deriving DecidableEq, Repr

/-- Timings by number: the one asked for, the one scheduled last, the one for idling. -/
structure Refresh where
  current : Option Nat := none
  scheduled : Option Nat := none
  idle : Option Nat := none
  /-- A switch is scheduled and not yet done. -/
  switching : Bool := false
  /-- The pulses to wait for after a switch. -/
  listenCount : UInt32 := 0
  /-- The pulses counted while listening. -/
  pulses : UInt32 := 0
  jobs : List Job := []
deriving DecidableEq, Repr

/-- The gamma tables of the timings as far as they were read. -/
structure GammaState where
  buffers : List (Option Gamma.Buffer) := []
  ready : Bool := false
deriving DecidableEq, Repr

structure State (σ : Type) where
  host : σ
  display : Display
  pwm : Option Pwm
  regulator : Option Regulator
  /-- The commands to power on were sent, so that the panel takes others. -/
  initialized : Bool := false
  backlight : Backlight.State
  hbm : Hbm.State := {}
  refresh : Refresh
  gamma : GammaState

variable {σ α : Type}

/-- A panel before its first request. -/
def State.initial (c : Config) (host : σ) (display : Display) (pwm : Option Pwm)
    (regulator : Option Regulator) : State σ where
  host := host
  display := display
  pwm := pwm
  regulator := regulator
  backlight := {
    brightness := c.backlight.map.maxBrightness / 2
    als := c.backlight.thresholds.map fun thresholds => { thresholds } }
  refresh := { current := if c.timings.isEmpty then none else some 0 }
  gamma := { buffers := c.timings.map fun _ => none }

def onHost (x : Action σ α) : Action (State σ) α :=
  Action.within State.host (fun h s => { s with host := h }) x

def onDisplay (x : Action Display α) : Action (State σ) α :=
  Action.within State.display (fun d s => { s with display := d }) x

def notify (e : Event) : Action (State σ) Unit :=
  modify fun s => { s with display := s.display.notify e }

/-- An action on the PWM output, which has to be there. -/
def onPwm (x : Action Pwm α) : Action (State σ) α := fun s =>
  match s.pwm with
  | none => .error .noDevice s
  | some p => Action.within (fun _ => p) (fun p s => { s with pwm := some p }) x s

/-- An action on the regulator, if there is one. -/
def onRegulator (x : Action Regulator Unit) : Action (State σ) Unit := fun s =>
  match s.regulator with
  | none => .ok () s
  | some r => Action.within (fun _ => r) (fun r s => { s with regulator := some r }) x s

/-- The timing in force: the one scheduled last, else the one asked for. -/
def State.active (s : State σ) : Option Nat := s.refresh.scheduled.or s.refresh.current

def Config.rate? (c : Config) (i : Option Nat) : Option UInt32 :=
  (i.bind fun i => c.timings[i]?).map (·.rate)

def Config.modeName? (c : Config) (i : Option Nat) : Option String :=
  (i.bind fun i => c.timings[i]?).map (·.name)

end Panel
end OledPanel
