import OledPanel.Attribute.Input
import OledPanel.Panel.Operations

/-! The text attributes of a panel. Each is shown as one or more lines; writing one performs
the operation behind it and answers the number of bytes taken or a negative error number. -/
namespace OledPanel.Panel

open Dsi (Transport)

variable {σ : Type} [Transport σ]

def line (s : String) : String := s ++ "\n"

/-- What a panel without the capability shows. -/
def unsupported : String := line "unsupported"

def wordLine (w : UInt32) : String := line (Text.decimal w.toNat)

/-- Thresholds with a space behind each. -/
def thresholdsLine (ts : List UInt32) : String :=
  line (String.join (ts.map fun t => Text.decimal t.toNat ++ " "))

/-- The text of an attribute. Showing the gamma tables may read them first. -/
def showAttribute (c : Config) : Attribute → Action (State σ) String
  | .brightness => return wordLine (← get).backlight.brightness
  | .actualBrightness => return wordLine (← get).shownLevel
  | .maxBrightness => return wordLine c.backlight.map.maxBrightness
  | .state => return line (← Action.ofExcept ((← get).describe c))
  | .alpmMode => return line (Text.decimal (← get).lowPowerLevel)
  | .hbmMode => do
    let s ← get
    return if c.hbm.isSome then line (Text.decimal s.hbm.mode.toNat) else unsupported
  | .hbmSvEnabled => do
    let s ← get
    return if c.hbm.isSome then line (if s.hbm.sunlightEnabled then "true" else "false")
      else unsupported
  | .alsTable => return thresholdsLine (← Action.ofExcept (← get).thresholds)
  | .lpMode => return line (((← get).binName? c).getD "")
  | .idleMode => return line (((← get).idleName? c).getD "none")
  | .switchMode => return wordLine ((← get).rate c)
  | .teListenCount => return wordLine (← get).refresh.listenCount
  | .teCounter => return wordLine (← get).refresh.pulses
  | .gamma => dumpGamma c

def storeHbm (c : Config) (text : List Char) : Action (State σ) Unit := do
  if c.hbm.isNone then throw .notSupported
  match HbmMode.ofInt? (← Action.ofExcept (Attribute.Input.decimal text)) with
  | some mode => setHbm c mode
  | none => throw (.invalid .unknownHbmMode)

/-- The word none takes the idle mode away; any other text is a request for a timing. -/
def storeIdle (c : Config) (text : List Char) : Action (State σ) Unit := do
  if Text.trim text = "none".toList then setIdleMode c none
  else setIdleMode c (some (← Action.ofExcept (ModeRequest.parse (String.ofList text))))

def storeAttribute (c : Config) (text : List Char) : Attribute → Action (State σ) Unit
  | .brightness => do setBrightness c (← Action.ofExcept (Attribute.Input.word text))
  | .alpmMode => do setLowPowerLevel c (← Action.ofExcept (Attribute.Input.clampedWord text))
  | .hbmMode => storeHbm c text
  | .hbmSvEnabled => do
    if c.hbm.isNone then throw .notSupported
    enableSunlight c (← Action.ofExcept (Attribute.Input.boolean text))
  | .alsTable => do
    discard (Action.ofExcept (← get).thresholds)
    setThresholds (← Action.ofExcept (Attribute.Input.list Backlight.maxThresholds text))
  | .idleMode => storeIdle c text
  | .switchMode => do
    switchTo c (← Action.ofExcept (ModeRequest.parse (String.ofList text)))
  | .teListenCount => do setListenCount (← Action.ofExcept (Attribute.Input.word text))
  | .teCounter => do setPulses (← Action.ofExcept (Attribute.Input.word text))
  | .gamma => forgetGamma c
  | .actualBrightness | .maxBrightness | .state | .lpMode => throw (.invalid .readOnlyAttribute)

/-- An attribute by name; a name without one is not supported. -/
def attributeNamed (name : String) : Except Error Attribute :=
  match Attribute.ofName? name with
  | some a => .ok a
  | none => .error .notSupported

def showNamed (c : Config) (name : String) : Action (State σ) String := do
  showAttribute c (← Action.ofExcept (attributeNamed name))

def storeNamed (c : Config) (name text : String) : Action (State σ) Unit := do
  storeAttribute c text.toList (← Action.ofExcept (attributeNamed name))

/-- The number of bytes taken, or the number of the error. -/
def store (c : Config) (name text : String) : Action (State σ) Int := do
  match ← Action.outcome (storeNamed c name text) with
  | .ok _ => return text.utf8ByteSize
  | .error e => return e.errno

end OledPanel.Panel
