import OledPanel.Panel.Attributes

/-! A panel in its surroundings. A request is one operation; besides requests there are
pulses, failing vblank waits, and faults of what is attached. After each of them the jobs
that wait are run, and dimming counts the vblanks that came. -/
namespace OledPanel.Panel

open Dsi (Transport)

variable {σ : Type} [Transport σ]

inductive Request where
  | setBrightness (b : UInt32)
  | update
  | setScale (factor sunlightFactor : UInt32)
  | handoff
  | earlyDpms (d : Dpms)
  | lateDpms (d : Dpms)
  | setDpms (d : Dpms)
  | enable
  | postEnable
  | disable
  | enterLp1
  | enterLp2
  | leaveLp
  | setLowPowerLevel (n : UInt32)
  | setHbm (mode : HbmMode)
  | enableSunlight (on : Bool)
  | updateIrc (on : Bool)
  | setMode (r : ModeRequest)
  | switchTo (r : ModeRequest)
  | setIdleMode (r : Option ModeRequest)
  | beforeFrame
  | flush
  | idle
  | wakeup
  | setListenCount (n : UInt32)
  | setPulses (n : UInt32)
  | dumpGamma
  | forgetGamma
  | setThresholds (thresholds : List UInt32)
  | read (name : String)
  | write (name text : String)

inductive Answer where
  | done
  | word (w : UInt32)
  | text (s : String)
  | count (n : Int)
deriving DecidableEq, Repr

def done (x : Action (State σ) Unit) : Action (State σ) Answer := do
  x
  return .done

def Request.perform (c : Config) : Request → Action (State σ) Answer
  | .setBrightness b => done (Panel.setBrightness c b)
  | .update => done (Panel.update c)
  | .setScale factor sunlightFactor => done (Panel.setScale c factor sunlightFactor)
  | .handoff => do return .word (← Panel.handoff c)
  | .earlyDpms d => done (Panel.earlyDpms d)
  | .lateDpms d => done (Panel.lateDpms c d)
  | .setDpms d => done (Panel.setDpms c d)
  | .enable => done (Panel.enable c)
  | .postEnable => done (Panel.postEnable c)
  | .disable => done (Panel.disable c)
  | .enterLp1 => done (Panel.enterLp1 c)
  | .enterLp2 => done (Panel.enterLp2 c)
  | .leaveLp => done (Panel.leaveLp c)
  | .setLowPowerLevel n => done (Panel.setLowPowerLevel c n)
  | .setHbm mode => done (Panel.setHbm c mode)
  | .enableSunlight on => done (Panel.enableSunlight c on)
  | .updateIrc on => done (Panel.updateIrc c on)
  | .setMode r => done (Panel.setMode c r)
  | .switchTo r => done (Panel.switchTo c r)
  | .setIdleMode r => done (Panel.setIdleMode c r)
  | .beforeFrame => done (Panel.beforeFrame c)
  | .flush => done (drain c)
  | .idle => done (enterIdle c)
  | .wakeup => done (leaveIdle c)
  | .setListenCount n => done (Panel.setListenCount n)
  | .setPulses n => done (Panel.setPulses n)
  | .dumpGamma => do return .text (← Panel.dumpGamma c)
  | .forgetGamma => done (Panel.forgetGamma c)
  | .setThresholds thresholds => done (Panel.setThresholds thresholds)
  | .read name => do return .text (← showNamed c name)
  | .write name text => do return .count (← Panel.store c name text)

inductive Input where
  | request (r : Request)
  /-- A tearing-effect pulse. -/
  | pulse
  /-- The wait of the dimming for a vblank fails. -/
  | vblankError
  /-- References are refused from here on, or granted again. -/
  | refuse (on : Bool)
  /-- So many pulses come from here on when a switch is reported. -/
  | burst (n : Nat)
  | regulatorFails (on : Bool)
  | pwmFails (config enable : Bool)

/-- A failing wait ends dimming, if anything waits at all. -/
def failWait (c : Config) : Action (State σ) Unit := do
  let s ← get
  if 0 < s.display.references then countFrame c false

def Input.perform (c : Config) : Input → Action (State σ) Answer
  | .request r => r.perform c
  | .pulse => done (modify Panel.pulse)
  | .vblankError => done (failWait c)
  | .refuse on => done (modify fun s => { s with display.refusing := on })
  | .burst n => done (modify fun s => { s with display.burst := n })
  | .regulatorFails on =>
    done (modify fun s => { s with regulator := s.regulator.map fun r => { r with fails := on } })
  | .pwmFails config enable =>
    done (modify fun s =>
      { s with pwm := s.pwm.map fun p => { p with refusesConfig := config, refusesEnable := enable } })

/-- Dimming counts at most `n` of the vblanks that are pending. -/
def countFrames (c : Config) : Nat → Action (State σ) Unit
  | 0 => pure ()
  | n + 1 => do
    let s ← get
    if s.hbm.dimming.active then
      match ← Action.outcome (onDisplay Display.wait) with
      | .ok _ =>
        countFrame c true
        countFrames c n
      | .error _ => pure ()

/-- Runs what waits: first the jobs, then the counting of vblanks. -/
def settle (c : Config) : Action (State σ) Unit := do
  drain c
  let s ← get
  countFrames c s.display.pending

/-- One input with all that follows from it; the answer is that of the input. -/
def advance (c : Config) (i : Input) : Action (State σ) (Except Error Answer) := do
  let answer ← Action.outcome (i.perform c)
  settle c
  return answer

def step (c : Config) (s : State σ) (i : Input) : State σ := (advance c i).after s

def run (c : Config) (s : State σ) (inputs : List Input) : State σ := inputs.foldl (step c) s

@[simp] theorem run_nil (c : Config) (s : State σ) : run c s [] = s := rfl

@[simp] theorem run_cons (c : Config) (s : State σ) (i : Input) (is : List Input) :
    run c s (i :: is) = run c (step c s i) is := rfl

theorem run_append (c : Config) (s : State σ) (is js : List Input) :
    run c s (is ++ js) = run c (run c s is) js := List.foldl_append

/-- Giving a panel up ends its dimming. -/
def release (c : Config) (s : State σ) : State σ := (stopDimming c).after s

end OledPanel.Panel
