import OledPanel.Gamma.Readout
import OledPanel.Panel.Brighten

/-! Changes of the refresh rate. A switch is scheduled by a request and done by a job after
it; idling switches at once. A switch of the gamma family lies between unlocking and locking
the panel and sends the tables of the timing, so the tables have to be read before. -/
namespace OledPanel.Panel

open Dsi (Transport writeBuffer)

variable {σ : Type} [Transport σ]

/-! ### Switching -/

def sendTiming (c : Config) (i : Nat) : Action (State σ) Unit :=
  match c.timings[i]? with
  | none => pure ()
  | some t => onHost t.switch.send

/-- Sends tables one by one, whatever fails. -/
def sendTables (b : Gamma.Buffer) : List (Gamma.Table × Nat) → Action (State σ) Unit
  | [] => pure ()
  | (t, i) :: ts => do
    Action.attempt (onHost (writeBuffer (b.table i) (!t.grouped)))
    sendTables b ts

def State.buffer? (s : State σ) (i : Nat) : Option Gamma.Buffer := s.gamma.buffers[i]?.join

def replayGamma (i : Nat) : Action (State σ) Unit := do
  let s ← get
  match s.buffer? i with
  | none => pure ()
  | some b => sendTables b Gamma.tables.zipIdx

/-- What a switch of the gamma family sends between unlocking and locking. -/
def switchUnlocked (c : Config) (i : Nat) : Action (State σ) Unit := do
  Action.attempt (sendTiming c i)
  Action.attempt (writeControl c ((c.rate? (some i)).getD 0))
  replayGamma i

/-- Brings the panel into a timing. A panel that does not unlock is left as it is. -/
def performSwitch (c : Config) (i : Nat) : Action (State σ) Unit :=
  match c.family with
  | .generic => Action.attempt (sendTiming c i)
  | .gamma => do
    match ← Action.outcome (onHost (writeBuffer Gamma.unlock true)) with
    | .error _ => pure ()
    | .ok _ =>
      switchUnlocked c i
      Action.attempt (onHost (writeBuffer Gamma.lock true))

/-! ### Reading gamma tables -/

/-- Reads the tables of a timing from where its refresh rate has them. -/
def readTiming (rate : UInt32) : Action σ Gamma.Buffer :=
  if rate = 60 then Gamma.readOtp Gamma.tables
  else if rate = 90 then Gamma.readFlash Gamma.tables
  else throw (.invalid .unknownRefreshRate)

/-- Reads the tables of timings one by one and keeps each as soon as it is read. -/
def readTimings : List (Timing × Nat) → Action (State σ) Unit
  | [] => pure ()
  | (t, i) :: ts => do
    let b ← onHost (readTiming t.rate)
    modify fun s => { s with gamma.buffers := s.gamma.buffers.set i (some b) }
    readTimings ts

def Config.hasRate (c : Config) (rate : UInt32) (i : Nat) : Bool := c.rate? (some i) = some rate

/-- The tables of the 90 Hz timings with the bytes from one-time memory that the first 60 Hz
timing read. -/
def mergeOtp (c : Config) (buffers : List (Option Gamma.Buffer)) : List (Option Gamma.Buffer) :=
  match (c.timings.findIdx? (·.rate = 60)).bind fun i => buffers[i]?.join with
  | none => buffers
  | some otp => buffers.mapIdx fun i b =>
    if c.hasRate 90 i then b.map (·.merge otp Gamma.tables) else b

def readModes (c : Config) : Action (State σ) Unit := do
  readTimings c.timings.zipIdx
  modify fun s => { s with gamma.buffers := mergeOtp c s.gamma.buffers }

/-- Reads the tables of all timings between unlocking and locking. -/
def readUnlocked (c : Config) : Action (State σ) Unit := do
  onHost (writeBuffer Gamma.unlock true)
  let result ← Action.outcome (readModes c)
  if result.isOk then modify fun s => { s with gamma.ready := true }
  onHost (writeBuffer Gamma.lock true)
  Action.ofExcept result

/-- Reads the tables, unless they are there already. -/
def readGamma (c : Config) : Action (State σ) Unit :=
  match c.family with
  | .generic => throw .notSupported
  | .gamma => do
    let s ← get
    if !s.gamma.ready then readUnlocked c

/-! ### Jobs -/

/-- The longest wait for a pulse after a switch. -/
def pulseTimeoutMs : Nat := 50

/-- The number under which a panel listens for pulses. -/
def listener : Nat := 0

/-- One pulse, counted if the panel listens. -/
def pulse (s : State σ) : State σ :=
  { s with
    display := s.display.fire
    refresh.pulses := s.display.heard listener s.refresh.pulses }

/-- The pulses that come as soon as a switch is reported. -/
def pulses : Nat → State σ → State σ
  | 0, s => s
  | n + 1, s => pulses n (pulse s)

def runSwitch (c : Config) : Action (State σ) Unit := do
  let s ← get
  match s.refresh.scheduled with
  | none => pure ()
  | some i =>
    let listens := 0 < s.refresh.listenCount
    if listens then modify fun s => { s with display := s.display.listen listener }
    performSwitch c i
    modify fun s => { s with refresh.switching := false }
    notify (.changed .state)
    if listens then
      modify fun s => pulses s.display.burst s
      modify fun s => { s with display := s.display.ignore listener }

def Job.run (c : Config) : Job → Action (State σ) Unit
  | .switch => runSwitch c
  | .readGamma => Action.attempt (Panel.readGamma c)

def runJobs (c : Config) : List Job → Action (State σ) Unit
  | [] => pure ()
  | j :: js => do
    Action.attempt (j.run c)
    runJobs c js

/-- Runs the jobs that wait. -/
def drain (c : Config) : Action (State σ) Unit := do
  let s ← get
  set { s with refresh.jobs := [] }
  runJobs c s.refresh.jobs

def enqueue (j : Job) : Action (State σ) Unit :=
  modify fun s => { s with refresh.jobs := s.refresh.jobs ++ [j] }

/-- Schedules a switch behind everything that waits. -/
def queueSwitch (c : Config) (i : Nat) : Action (State σ) Unit := do
  drain c
  modify fun s => { s with refresh.scheduled := some i, refresh.switching := true }
  enqueue .switch

/-- Schedules reading the gamma tables where they are wanted and not there. -/
def queueGamma (c : Config) : Action (State σ) Unit := do
  let s ← get
  if c.family = .gamma ∧ !s.gamma.ready then enqueue .readGamma

/-! ### Idling -/

/-- Switches to the idle timing at once, if the panel is not in it. -/
def enterIdle (c : Config) : Action (State σ) Unit := do
  let s ← get
  match s.refresh.idle with
  | none => pure ()
  | some i =>
    if some i ≠ s.active ∧ s.initialized then
      performSwitch c i
      modify fun s => { s with refresh.scheduled := some i }

/-- Schedules the timing asked for, unless it was the last one scheduled. -/
def leaveIdle (c : Config) : Action (State σ) Unit := do
  let s ← get
  match s.refresh.current with
  | none => pure ()
  | some i => if some i ≠ s.refresh.scheduled then queueSwitch c i

end OledPanel.Panel
