import OledPanel.Action
import OledPanel.Attribute

/-! The display controller a panel is attached to. It counts tearing-effect pulses, keeps
vblanks for those who hold a reference, delivers pulses to listeners and collects the events
for user space. Pulses are fired by hand. Listeners are known by number. -/
namespace OledPanel

inductive Event where
  /-- The backlight changed to a brightness other than zero. -/
  | brightness (b : UInt32)
  | changed (a : Attribute)
deriving DecidableEq, Repr

structure Display where
  references : Nat := 0
  /-- The references granted and those given back so far. -/
  granted : Nat := 0
  returned : Nat := 0
  /-- Pulses fired while a reference was held and not yet waited for. -/
  pending : Nat := 0
  listeners : List Nat := []
  fired : Nat := 0
  events : Array Event := #[]
  /-- References are refused for the time being. -/
  refusing : Bool := false
  /-- The number of pulses that come as soon as a switch is reported. -/
  burst : Nat := 0

namespace Display

def fire (d : Display) : Display :=
  { d with
    fired := d.fired + 1
    pending := if 0 < d.references then d.pending + 1 else d.pending }

def acquire : Action Display Unit := fun d =>
  if d.refusing then .error .busy d
  else .ok () { d with references := d.references + 1, granted := d.granted + 1 }

/-- Vblanks are kept no longer than the last reference. -/
def release (d : Display) : Display :=
  { d with
    references := d.references - 1
    returned := d.returned + 1
    pending := if d.references ≤ 1 then 0 else d.pending }

/-- A wait would last until the next pulse. -/
def blocks (d : Display) : Bool := 0 < d.references && d.pending = 0

/-- Takes one pending vblank; without one the wait ends in a time-out. -/
def wait : Action Display Unit := fun d =>
  if d.references = 0 then .error .noDevice d
  else if d.pending = 0 then .error (.timeout .vblank) d
  else .ok () { d with pending := d.pending - 1 }

theorem answer_wait (d : Display) :
    wait.answer d = if 0 < d.references ∧ 0 < d.pending then .ok ()
      else .error (if d.references = 0 then .noDevice else .timeout .vblank) := by
  simp only [Action.answer, wait, Nat.pos_iff_ne_zero]
  by_cases hr : d.references = 0
  · simp [hr]
  · by_cases hp : d.pending = 0 <;> simp [hr, hp]

/-- A wait that fails takes nothing. -/
theorem after_wait (d : Display) :
    wait.after d =
      if 0 < d.references ∧ 0 < d.pending then { d with pending := d.pending - 1 } else d := by
  simp only [Action.after, wait, Nat.pos_iff_ne_zero]
  by_cases hr : d.references = 0
  · simp [hr]
  · by_cases hp : d.pending = 0 <;> simp [hr, hp]

def listen (d : Display) (id : Nat) : Display := { d with listeners := d.listeners ++ [id] }

def ignore (d : Display) (id : Nat) : Display := { d with listeners := d.listeners.filter (· ≠ id) }

def notify (d : Display) (e : Event) : Display := { d with events := d.events.push e }

/-- The pulses a listener has counted after one more was delivered. -/
def heard (d : Display) (id : Nat) (count : UInt32) : UInt32 :=
  count + UInt32.ofNat (d.listeners.count id)

end Display
end OledPanel
