import OledPanel.Panel.State

/-! High-brightness mode in use: announcing it to the panel, dimming that counts frames, and
image-retention compensation. While dimming is active one vblank reference is held. -/
namespace OledPanel.Panel

open Hbm (Stop)
open Dsi (Transport)

variable {σ : Type}

/-! ### The control register -/

/-- The bits of the control register for a refresh rate. -/
def controlValue (c : Config) (s : State σ) (rate : UInt32) : UInt8 :=
  0x20 ||| (if s.hbm.mode.isOn then 0xC0 else 0) ||| (if rate = 90 then 0x10 else 0) |||
    (if s.hbm.dimming.active || c.backlight.dimming then 0x08 else 0)

variable [Transport σ]

def writeControl (c : Config) (rate : UInt32) : Action (State σ) Unit := do
  let s ← get
  onHost (Dsi.write Dsi.writeControl [controlValue c s rate])

/-- Tells the panel of a change of the mode or its dimming: by the control register where
the family has one, else by the commands given. -/
def announce (c : Config) (set : Dsi.CommandSet) : Action (State σ) Unit :=
  match c.family with
  | .generic => onHost set.send
  | .gamma => do
    let s ← get
    writeControl c ((c.rate? s.active).getD 60)

/-! ### Compensation -/

def applyIrc (irc : Hbm.Irc) (on : Bool) : Action (State σ) Unit := do
  let s ← get
  let old ← match s.hbm.ircBytes with
    | some bytes => pure bytes
    | none => onHost irc.fetch
  let new := irc.withBit on old
  modify fun s => { s with hbm.ircBytes := some new }
  onHost (Dsi.write irc.address new)

/-- Sets or clears the compensation bit between unlocking and locking. -/
def updateIrc (c : Config) (on : Bool) : Action (State σ) Unit :=
  match c.hbm.bind (·.irc) with
  | none => throw .notSupported
  | some irc => do
    Action.attempt (onHost irc.unlock.send)
    let result ← Action.outcome (applyIrc irc on)
    Action.attempt (onHost irc.lock.send)
    Action.ofExcept result

/-! ### Dimming -/

/-- Counts frames from the start until `stop`. A count that is under way begins anew; it
keeps its vblank reference. No frames leave things as they are. -/
def startDimming (frames : Nat) (stop : Stop) : Action (State σ) Unit := do
  if frames ≠ 0 then
    let s ← get
    if !s.hbm.dimming.active then onDisplay Display.acquire
    modify fun s =>
      { s with hbm.dimming := { active := true, total := frames, left := frames, stop := some stop } }

/-- The commands that end dimming. -/
def stopSet (c : Config) (stop : Stop) : Dsi.CommandSet :=
  match c.hbm, stop with
  | some h, .range i => (h.ranges[i]?.map (·.stop)).getD {}
  | some h, .exit => h.exitStop
  | none, _ => {}

/-- Compensation that waited for dimming to end is switched on. -/
def settleIrc (c : Config) : Action (State σ) Unit := do
  let s ← get
  if s.hbm.ircOwed then
    Action.attempt (updateIrc c true)
    modify fun s => { s with hbm.ircOwed := false }

/-- Ends dimming: gives the vblank reference back, and tells a panel that is powered. -/
def stopDimming (c : Config) : Action (State σ) Unit := do
  let s ← get
  if s.hbm.dimming.active then
    set { s with display := s.display.release, hbm.dimming := {} }
    match s.hbm.dimming.stop with
    | some stop => if s.initialized then Action.attempt (announce c (stopSet c stop))
    | none => pure ()
    settleIrc c

/-- New activity of the backlight starts the count again. -/
def restartDimming (s : State σ) : State σ :=
  if s.hbm.dimming.active then { s with hbm.dimming.left := s.hbm.dimming.total } else s

/-- Dimming counts one frame, or gives up counting; at none left it ends. -/
def countFrame (c : Config) (arrived : Bool) : Action (State σ) Unit := do
  let s ← get
  if s.hbm.dimming.active then
    let left := if arrived then s.hbm.dimming.left - 1 else 0
    set { s with hbm.dimming.left := left }
    if left = 0 then stopDimming c

/-! ### Levels -/

/-- The range for a scaled brightness and its number; brightness zero takes the dimmest. -/
def target? (h : Hbm.Config) (b : UInt32) : Option (Nat × Hbm.Range) :=
  (if b = 0 then some 0 else h.find? b).bind fun i => h.ranges[i]?.map fun r => (i, r)

/-- Enters a range. It counts as entered from here on, whatever its commands come to. -/
def enterRange (c : Config) (i : Nat) (r : Hbm.Range) : Action (State σ) Unit := do
  Action.attempt (startDimming r.frames (.range i))
  modify fun s => { s with hbm.range := some i }
  announce c r.entry

/-- The level of a scaled brightness in its range, which is entered first if need be. -/
def hbmLevel (c : Config) (b : UInt32) : Action (State σ) UInt32 :=
  match c.hbm with
  | none => throw .notSupported
  | some h =>
    match target? h b with
    | none => throw (.noMatchingRange b)
    | some (i, r) => do
      let s ← get
      if s.hbm.range ≠ some i then enterRange c i r
      Action.ofExcept (Brightness.interpolate r.userStart r.userEnd r.panelStart r.panelEnd b)

end OledPanel.Panel
