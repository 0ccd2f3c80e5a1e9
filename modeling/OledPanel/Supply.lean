import OledPanel.Action
import OledPanel.PowerState

/-! What feeds a panel besides the link: a PWM output for an external backlight, and a supply
regulator. Both remember what they were told and can be made to refuse it. -/
namespace OledPanel

structure Pwm where
  /-- The duty and the period programmed last, in nanoseconds. -/
  config : Option (Nat × Nat) := none
  on : Bool := false
  refusesConfig : Bool := false
  refusesEnable : Bool := false

namespace Pwm

def program (duty period : Nat) : Action Pwm Unit := fun p =>
  if p.refusesConfig then .error .noMemory p
  else if period < duty then .error (.invalid .dutyAbovePeriod) p
  else .ok () { p with config := some (duty, period) }

def enable : Action Pwm Unit := fun p =>
  if p.refusesEnable then .error .busy p else .ok () { p with on := true }

def disable (p : Pwm) : Pwm := { p with on := false }

end Pwm

structure Regulator where
  /-- The modes set so far, the oldest first. -/
  modes : Array RegulatorMode := #[]
  fails : Bool := false

def Regulator.set (m : RegulatorMode) : Action Regulator Unit := fun r =>
  if r.fails then .error (.timeout .regulator) r
  else .ok () { r with modes := r.modes.push m }

end OledPanel
