import OledPanel.Backlight.Level
import OledPanel.Panel.Brighten

/-! The one way in which a level reaches the panel. The level is computed from the brightness
wanted; it is written if it or the power state changed, the gate is open and the panel is
powered. A panel that is not powered has its level tracked all the same. -/
namespace OledPanel.Panel

open Dsi (Transport)

variable {σ : Type} [Transport σ]

/-- The level of a brightness under the mode in force. -/
def levelOf (c : Config) (b : UInt32) : Action (State σ) UInt32 := do
  if b = 0 then return 0
  let s ← get
  let scaled := Brightness.scale b s.backlight.factor s.backlight.sunlightFactor
  if s.hbm.mode.isOn then hbmLevel c scaled else Action.ofExcept (c.backlight.map.level scaled)

/-! ### Actuators -/

def writeLevel (c : Config) (level : UInt32) : Action (State σ) Unit := do
  let s ← get
  onHost (c.backlight.writeLevel s.backlight.level level)

/-- Sends the edge that goes with a bin, on a panel that has edges. -/
def writeEdge (c : Config) (bin : LowPower.Bin) : Action (State σ) Unit :=
  match c.edges with
  | none => throw .notSupported
  | some e => do
    modify fun s => { s with backlight.edge := e.edge bin }
    onHost (e.commands bin).send

/-- The bin for the present brightness; none outside low power. -/
def binOf (bins : List LowPower.Bin) (s : Backlight.State) : Option Nat :=
  if s.bits.isLowPower then LowPower.Bin.select? bins s.brightness else none

/-- Sends a bin that was not in force before. What fails of it is passed over. -/
def enterBin (c : Config) (bins : List LowPower.Bin) (i : Nat) : Action (State σ) Unit :=
  match bins[i]? with
  | none => pure ()
  | some bin => do
    Action.attempt (onHost bin.enter.send)
    Action.attempt (writeEdge c bin)

/-- A bin expresses the brightness by itself. The first level after a bin is written even
if it is the one tracked. -/
def writeBin (c : Config) (bins : List LowPower.Bin) (level : UInt32) : Action (State σ) Unit := do
  let s ← get
  let bin := binOf bins s.backlight
  let changed := bin ≠ s.backlight.bin
  modify fun s => { s with backlight.bin := bin }
  match bin with
  | some i => if changed then enterBin c bins i
  | none =>
    if changed then modify fun s => { s with backlight.level := none }
    writeLevel c level

/-- The time a PWM output is on in each period, in proportion to the level. -/
def duty (period : Nat) (level highest : UInt32) : Nat :=
  if highest = 0 then period else (min level highest).toNat * period / highest.toNat

def writePwm (c : Config) (periodUs : UInt32) (level : UInt32) : Action (State σ) Unit := do
  let s ← get
  let on := s.pwm.any (·.on)
  if level = 0 then
    if on then modify fun s => { s with pwm := s.pwm.map Pwm.disable }
  else
    let period := periodUs.toNat * 1000
    onPwm (Pwm.program (duty period level c.backlight.map.highest) period)
    if !on then onPwm Pwm.enable

def actuate (c : Config) (level : UInt32) : Action (State σ) Unit :=
  match c.actuator with
  | .external => pure ()
  | .dcs => writeLevel c level
  | .bins bins => writeBin c bins level
  | .pwm period => writePwm c period level

/-! ### Updates -/

/-- Announces a change of the ambient-light category. -/
def observeAls (b : UInt32) : Action (State σ) Unit := do
  let s ← get
  match s.backlight.als with
  | none => pure ()
  | some als =>
    let (als, changed) := als.observe b
    modify fun s => { s with backlight.als := some als }
    if changed then notify (.changed .brightness)

/-- Writes a level to a panel that is powered. -/
def present (c : Config) (b level : UInt32) : Action (State σ) Unit := do
  actuate c level
  modify fun s => { s with backlight.held := false }
  let s ← get
  if s.backlight.bits.isOn && !s.hbm.mode.isOn then observeAls b

/-- The level tracked from here on, together with the power state. -/
def track (level : UInt32) (s : State σ) : State σ :=
  { s with backlight.level := some level, backlight.levelBits := s.backlight.bits }

/-- A level computed for a brightness that is not the one tracked. The answer is the
brightness to report. -/
def commit (c : Config) (b level : UInt32) : Action (State σ) (Option UInt32) := do
  let s ← get
  if !s.backlight.gateOpen then
    set { s with backlight.held := true }
    return none
  modify restartDimming
  if s.initialized then present c b level
  modify (track level)
  return if s.initialized && 0 < b then some b else none

/-- The level tracked is this one, under the present power state. -/
def State.shows (s : State σ) (level : UInt32) : Bool :=
  s.backlight.level = some level && s.backlight.levelBits = s.backlight.bits

/-- Brings the level up to date. The answer is the brightness to report, if any. -/
def updateLevel (c : Config) : Action (State σ) (Option UInt32) := do
  let s ← get
  let b := s.backlight.wanted
  let level ← levelOf c b
  let s ← get
  if s.shows level then return none
  commit c b level

/-- Brings the level up to date and reports a brightness other than zero. -/
def update (c : Config) : Action (State σ) Unit := do
  match ← updateLevel c with
  | some b => notify (.brightness b)
  | none => pure ()

end OledPanel.Panel
