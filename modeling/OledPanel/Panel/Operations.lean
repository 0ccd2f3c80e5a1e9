import OledPanel.Gamma.Dump
import OledPanel.Panel.Switch
import OledPanel.Panel.Update

/-! The operations of a panel: brightness, power, high-brightness mode, timings, gamma tables
and ambient light. -/
namespace OledPanel.Panel

open Dsi (Transport)

variable {σ : Type}

/-! ### What a panel shows of itself -/

/-- The level tracked last, zero if none is known. -/
def State.shownLevel (s : State σ) : UInt32 := s.backlight.level.getD 0

def State.dpms (s : State σ) : Dpms := Dpms.of s.backlight.power s.backlight.bits

/-- The low-power level by number, zero outside low power. -/
def State.lowPowerLevel (s : State σ) : Nat :=
  if s.backlight.bits.lp2 then 2 else if s.backlight.bits.lp then 1 else 0

def State.binName? (c : Config) (s : State σ) : Option String :=
  match c.actuator with
  | .bins bins => (s.backlight.bin.bind fun i => bins[i]?).map (·.name)
  | _ => none

def State.sunlightEnabled (c : Config) (s : State σ) : Except Error Bool :=
  if c.hbm.isSome then .ok s.hbm.sunlightEnabled else .error .notSupported

def State.modeName? (c : Config) (s : State σ) : Option String := c.modeName? s.refresh.current

def State.idleName? (c : Config) (s : State σ) : Option String := c.modeName? s.refresh.idle

/-- The refresh rate asked for, zero without a timing. -/
def State.rate (c : Config) (s : State σ) : UInt32 := (c.rate? s.refresh.current).getD 0

/-- Whether the gamma tables are there, on a panel that has them. -/
def State.gammaReady? (c : Config) (s : State σ) : Option Bool :=
  match c.family with
  | .generic => none
  | .gamma => some s.gamma.ready

/-- Off, in low power, or on with the timing asked for. -/
def State.describe (c : Config) (s : State σ) : Except Error String :=
  if s.backlight.bits.isStandby then .ok "Off"
  else if s.backlight.bits.isLowPower then .ok "LP"
  else
    match s.modeName? c with
    | none => .error .noDevice
    | some mode => .ok ((if s.hbm.mode.isOn then "HBM" else "On") ++ ": " ++ mode)

def State.thresholds (s : State σ) : Except Error (List UInt32) :=
  match s.backlight.als with
  | some als => .ok als.thresholds
  | none => .error (.invalid .noAlsTable)

variable [Transport σ]

/-! ### Brightness -/

def setBrightness (c : Config) (b : UInt32) : Action (State σ) Unit := do
  if c.backlight.map.maxBrightness < b then throw (.invalid .brightnessAboveMax)
  modify fun s => { s with backlight.brightness := b }
  update c

def setScale (c : Config) (factor sunlightFactor : UInt32) : Action (State σ) Unit := do
  if Brightness.fullScale < factor ∨ Brightness.fullScale < sunlightFactor then
    throw (.invalid .scaleAboveMax)
  modify fun s => { s with backlight.factor := factor, backlight.sunlightFactor := sunlightFactor }
  update c

/-- Adopts the brightness the panel shows by itself. -/
def handoff (c : Config) : Action (State σ) UInt32 := do
  let b ← onHost c.backlight.handoff
  modify fun s => { s with backlight.brightness := b }
  return b

/-! ### Power -/

/-- Sets the regulator to what a power state needs, if that is not what the state tracked
last needs. -/
def updateRegulator (bits : PowerBits) : Action (State σ) Unit := do
  let s ← get
  if bits.regulatorMode ≠ s.backlight.levelBits.regulatorMode then
    onRegulator (Regulator.set bits.regulatorMode)

/-- The first phase of a transition: before low power the regulator goes first. -/
def earlyDpms (d : Dpms) : Action (State σ) Unit := do
  let s ← get
  let bits := d.apply s.backlight.bits
  if bits.isLowPower then updateRegulator bits

/-- The power state of a transition is in force from here on. -/
def enterDpms (d : Dpms) : Action (State σ) Unit := do
  let s ← get
  let bits := d.apply s.backlight.bits
  if !bits.isLowPower then Action.attempt (updateRegulator bits)
  modify fun s =>
    { s with backlight.power := if bits.blanked then .down else .up, backlight.bits := bits }

/-- The second phase of a transition: the new state, its level, and the announcement. -/
def lateDpms (c : Config) (d : Dpms) : Action (State σ) Unit := do
  enterDpms d
  Action.attempt (update c)
  notify (.changed .state)

def setDpms (c : Config) (d : Dpms) : Action (State σ) Unit := do
  earlyDpms d
  lateDpms c d

/-- The panel is powered; a gate that waits for a frame closes. -/
def powered (c : Config) (s : State σ) : State σ :=
  { s with
    initialized := true
    backlight.gateOpen := s.backlight.gateOpen && !c.backlight.waitsForFrame }

def enable (c : Config) : Action (State σ) Unit := do
  earlyDpms .on
  onHost c.sets.on.send
  modify (powered c)
  lateDpms c .on

def postEnable (c : Config) : Action (State σ) Unit := do
  drain c
  queueGamma c

/-- Takes the panel out of use: dimming ends, the kept register and the range are forgotten. -/
def shutDown (c : Config) : Action (State σ) Unit := do
  modify fun s => { s with initialized := false }
  stopDimming c
  modify fun s => { s with hbm.ircBytes := none, hbm.range := none }

def disable (c : Config) : Action (State σ) Unit := do
  drain c
  earlyDpms .off
  let result ← Action.outcome (onHost c.sets.off.send : Action (State σ) Unit)
  shutDown c
  lateDpms c .off
  Action.ofExcept result

/-- A transition with the commands that go with it, whose failure does not keep it back. -/
def transition (c : Config) (d : Dpms) (set : Dsi.CommandSet) : Action (State σ) Unit := do
  earlyDpms d
  let result ← Action.outcome (onHost set.send : Action (State σ) Unit)
  lateDpms c d
  Action.ofExcept result

def enterLp1 (c : Config) : Action (State σ) Unit := do
  drain c
  transition c .lp1 c.sets.lp1

def enterLp2 (c : Config) : Action (State σ) Unit := transition c .lp2 c.sets.lp2

def leaveLp (c : Config) : Action (State σ) Unit := transition c .on c.sets.nolp

/-- Moves to a low-power level by number; every number above one means the second. -/
def setLowPowerLevel (c : Config) (n : UInt32) : Action (State σ) Unit := do
  let s ← get
  let bits := s.backlight.bits
  if bits.blanked then throw (.invalid .panelBlanked)
  if n = 0 then
    if bits.isLowPower then leaveLp c
  else if n = 1 then
    if !bits.lp || bits.lp2 then enterLp1 c
  else if !bits.lp2 then enterLp2 c

/-! ### High-brightness mode -/

/-- Leaves the ranges: dimming out of the mode starts, and no range is in force. -/
def exitRanges (c : Config) (h : Hbm.Config) : Action (State σ) Unit := do
  Action.attempt (startDimming h.exitFrames .exit)
  Action.attempt (announce c h.exit)
  modify fun s => { s with hbm.range := none }

/-- Compensation is off in sunlight and on again after it, but not while dimming. -/
def followSunlight (c : Config) (previous mode : HbmMode) : Action (State σ) Unit := do
  if mode = .sunlight then Action.attempt (updateIrc c false)
  else if previous = .sunlight then
    let s ← get
    if s.hbm.dimming.active then modify fun s => { s with hbm.ircOwed := true }
    else Action.attempt (updateIrc c true)

def changeHbm (c : Config) (h : Hbm.Config) (mode : HbmMode) : Action (State σ) Unit := do
  let s ← get
  modify fun s => { s with hbm.mode := mode }
  if mode = .off then exitRanges c h
  followSunlight c s.hbm.mode mode
  update c
  notify (.changed .hbmMode)

def setHbm (c : Config) (mode : HbmMode) : Action (State σ) Unit :=
  match c.hbm with
  | none => throw .notSupported
  | some h => do
    let s ← get
    if mode ≠ s.hbm.mode then
      if mode = .sunlight ∧ !s.hbm.sunlightEnabled then throw (.invalid .sunlightNotEnabled)
      changeHbm c h mode

/-- Sunlight mode cannot be forbidden while it is on. -/
def enableSunlight (c : Config) (on : Bool) : Action (State σ) Unit := do
  if c.hbm.isNone then throw .notSupported
  let s ← get
  if !on ∧ s.hbm.mode = .sunlight then throw .busy
  modify fun s => { s with hbm.sunlightEnabled := on }

/-! ### Timings -/

def findTiming (c : Config) (r : ModeRequest) : Except Error Nat :=
  match Timing.find? c.timings r with
  | some i => .ok i
  | none => .error (.invalid .noMatchingMode)

/-- Makes a timing the current one and schedules the switch. -/
def setMode (c : Config) (r : ModeRequest) : Action (State σ) Unit := do
  let i ← Action.ofExcept (findTiming c r)
  modify fun s => { s with refresh.current := some i }
  queueSwitch c i

/-- Schedules a switch and leaves the current timing. -/
def switchTo (c : Config) (r : ModeRequest) : Action (State σ) Unit := do
  let s ← get
  if !s.initialized then throw (.invalid .notInitialized)
  let i ← Action.ofExcept (findTiming c r)
  queueSwitch c i

def setIdleMode (c : Config) (r : Option ModeRequest) : Action (State σ) Unit := do
  let i ← Action.ofExcept (r.mapM (findTiming c))
  modify fun s => { s with refresh.idle := i }

/-- Before a frame: switches are waited for, and the gate opens for a level held back. -/
def beforeFrame (c : Config) : Action (State σ) Unit := do
  drain c
  let s ← get
  if !s.backlight.gateOpen then
    set { s with backlight.gateOpen := true }
    if s.backlight.held then update c

def setListenCount (n : UInt32) : Action (State σ) Unit :=
  modify fun s => { s with refresh.listenCount := n }

def setPulses (n : UInt32) : Action (State σ) Unit :=
  modify fun s => { s with refresh.pulses := n }

/-! ### Gamma tables and ambient light -/

/-- The gamma tables in text, read first if need be. -/
def dumpGamma (c : Config) : Action (State σ) String := do
  let s ← get
  if !s.initialized then throw .noDevice
  readGamma c
  let s ← get
  return Gamma.dump (c.timings.map (·.rate)) s.gamma.buffers

/-- The tables count as not read from here on. -/
def forgetGamma (c : Config) : Action (State σ) Unit :=
  match c.family with
  | .generic => throw .notSupported
  | .gamma => modify fun s => { s with gamma.ready := false }

def setThresholds (thresholds : List UInt32) : Action (State σ) Unit := do
  let s ← get
  match s.backlight.als with
  | none => throw (.invalid .noAlsTable)
  | some als =>
    let als ← Action.ofExcept (als.replace thresholds)
    modify fun s => { s with backlight.als := some als }

end OledPanel.Panel
