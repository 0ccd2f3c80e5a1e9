import OledPanel.Proofs.FrameCount
import OledPanel.Proofs.ModeChange
import OledPanel.Proofs.RangeEntry
import OledPanel.Proofs.Representation

/-! Requests that are refused. What a request may not ask for is looked at before anything is done, so
a request that is refused leaves the panel, the messages and the events as they are, also after the
jobs and the frames that follow it, for between inputs there are none of them. Writing an attribute
reads a request from the text first, and is refused for want of one or along with it. -/

namespace OledPanel.Panel

open Dsi (Attempt Recorder Transport)

variable {σ : Type} {c : Config}

/-- The mode that a text names by its number. -/
def readMode (text : List Char) : Except Error HbmMode := do
  match HbmMode.ofInt? (← Attribute.Input.decimal text) with
  | some mode => .ok mode
  | none => .error (.invalid .unknownHbmMode)

/-- The request that a text makes of an attribute. -/
def requested (text : List Char) : Attribute → Except Error Request
  | .brightness => .setBrightness <$> Attribute.Input.word text
  | .alpmMode => .setLowPowerLevel <$> Attribute.Input.clampedWord text
  | .hbmMode => .setHbm <$> readMode text
  | .hbmSvEnabled => .enableSunlight <$> Attribute.Input.boolean text
  | .alsTable => .setThresholds <$> Attribute.Input.list Backlight.maxThresholds text
  | .idleMode =>
    if Text.trim text = "none".toList then .ok (.setIdleMode none)
    else (.setIdleMode ∘ some) <$> ModeRequest.parse (String.ofList text)
  | .switchMode => .switchTo <$> ModeRequest.parse (String.ofList text)
  | .teListenCount => .setListenCount <$> Attribute.Input.word text
  | .teCounter => .setPulses <$> Attribute.Input.word text
  | .gamma => .ok .forgetGamma
  | .actualBrightness | .maxBrightness | .state | .lpMode => .error (.invalid .readOnlyAttribute)

theorem enableSunlight_of_lacking (hc : c.hbm = none) (on : Bool) (s : State σ) :
    enableSunlight c on s = .error .notSupported s := by
  rw [enableSunlight, hc]
  rfl

theorem setThresholds_of_lacking {s : State σ} (ha : s.backlight.als = none) (ts : List UInt32) :
    setThresholds ts s = .error (.invalid .noAlsTable) s := by
  rw [setThresholds, Action.get_bind]
  dsimp only
  rw [ha]
  rfl

variable [Transport σ]

theorem setHbm_of_lacking (hc : c.hbm = none) (mode : HbmMode) (s : State σ) :
    setHbm c mode s = .error .notSupported s := by
  simp only [setHbm, hc]
  rfl

theorem dumpGamma_of_uninitialized {s : State σ} (hi : s.initialized = false) :
    dumpGamma c s = .error .noDevice s := by
  rw [dumpGamma, Action.get_bind]
  dsimp only
  rw [if_pos (by simp [hi])]
  rfl

theorem dumpGamma_of_generic {s : State σ} (hi : s.initialized = true) (hf : c.family = .generic) :
    dumpGamma c s = .error .notSupported s := by
  rw [dumpGamma, Action.get_bind]
  dsimp only
  rw [if_neg (by simp [hi]), readGamma, hf]
  rfl

/-- An action performs the request that was read, or fails at once where none was. -/
inductive Performs (c : Config) (s : State σ) : Except Error Request → Action (State σ) Unit → Prop
  | request {q : Request} {x : Action (State σ) Unit} (h : done x s = q.perform c s) :
    Performs c s (.ok q) x
  | error {e : Error} {x : Action (State σ) Unit} (h : ∃ d, x s = .error d s) :
    Performs c s (.error e) x

theorem performs_of_read {α : Type} {s : State σ} {r : Except Error α} {f : α → Request}
    {g : α → Action (State σ) Unit} {x : Action (State σ) Unit}
    (hx : x s = (do g (← Action.ofExcept r) : Action (State σ) Unit) s)
    (h : ∀ a, done (g a) s = (f a).perform c s) : Performs c s (f <$> r) x := by
  cases r with
  | ok a =>
    have hdone : done x s = done (g a) s := by
      simp only [done, bind, EStateM.bind, hx]
      rfl
    exact .request (hdone.trans (h a))
  | error e => exact .error ⟨e, hx⟩

/-- Without the capability behind an attribute its text is not read, and no request for it would do
better. -/
theorem performs_of_lacking {α : Type} {s : State σ} {r : Except Error α} {f : α → Request}
    {x : Action (State σ) Unit} {e : Error} (hx : x s = .error e s)
    (h : ∀ a, (f a).perform c s = .error e s) : Performs c s (f <$> r) x := by
  cases r with
  | ok a => exact .request ((Action.bind_of_error hx _).trans (h a).symm)
  | error e' => exact .error ⟨e, hx⟩

theorem performs_storeHbm (text : List Char) (s : State σ) :
    Performs c s (requested text .hbmMode) (storeHbm c text) := by
  cases hh : c.hbm with
  | none =>
    refine performs_of_lacking (e := .notSupported) ?_ fun mode =>
      Action.bind_of_error (setHbm_of_lacking hh mode s) _
    rw [storeHbm, hh]
    rfl
  | some h =>
    refine performs_of_read (g := setHbm c) ?_ fun _ => rfl
    rw [storeHbm, hh, readMode]
    cases Attribute.Input.decimal text with
    | error e => rfl
    | ok v =>
      change (match HbmMode.ofInt? v with | some mode => _ | none => _ : Action (State σ) Unit) s =
        (do setHbm c (← Action.ofExcept (match HbmMode.ofInt? v with | some mode => _ | none => _))) s
      cases HbmMode.ofInt? v <;> rfl

theorem performs_storeThresholds (text : List Char) (s : State σ) :
    Performs c s (requested text .alsTable) (storeAttribute c text .alsTable) := by
  have hstore : storeAttribute c text .alsTable s = (do
      discard (Action.ofExcept s.thresholds)
      setThresholds (← Action.ofExcept (Attribute.Input.list Backlight.maxThresholds text)) :
      Action (State σ) Unit) s := rfl
  rw [State.thresholds] at hstore
  cases ha : s.backlight.als with
  | none =>
    rw [ha] at hstore
    exact performs_of_lacking hstore fun ts => Action.bind_of_error (setThresholds_of_lacking ha ts) _
  | some als =>
    rw [ha] at hstore
    exact performs_of_read hstore fun _ => rfl

/-- Writing an attribute performs the request that the text makes of it. -/
theorem performs_storeAttribute (text : List Char) (a : Attribute) (s : State σ) :
    Performs c s (requested text a) (storeAttribute c text a) := by
  cases a with
  | brightness => exact performs_of_read rfl fun _ => rfl
  | alpmMode => exact performs_of_read rfl fun _ => rfl
  | hbmMode => exact performs_storeHbm text s
  | hbmSvEnabled =>
    rw [requested, storeAttribute]
    cases hh : c.hbm with
    | none =>
      exact performs_of_lacking rfl fun on =>
        Action.bind_of_error (enableSunlight_of_lacking hh on s) _
    | some h => exact performs_of_read rfl fun _ => rfl
  | alsTable => exact performs_storeThresholds text s
  | idleMode =>
    rw [requested, storeAttribute, storeIdle]
    split
    · exact .request rfl
    · exact performs_of_read rfl fun _ => rfl
  | switchMode => exact performs_of_read rfl fun _ => rfl
  | teListenCount => exact performs_of_read rfl fun _ => rfl
  | teCounter => exact performs_of_read rfl fun _ => rfl
  | gamma => exact .request rfl
  | actualBrightness | maxBrightness | state | lpMode => exact .error ⟨_, rfl⟩

/-- Neither a job nor a frame to be counted waits. -/
structure Settled (s : State σ) : Prop where
  jobs : s.refresh.jobs = []
  caught : Caught s

theorem countFrames_of_caught {s : State σ} (h : Caught s) :
    (countFrames c s.display.pending).after s = s := by
  cases hn : s.display.pending with
  | zero => rfl
  | succ n =>
    have hidle : ¬s.hbm.dimming.active = true := fun ha => by
      rw [h ha] at hn
      cases hn
    rw [countFrames, Action.after_get_bind, if_neg hidle]
    rfl

theorem Settled.settle_eq {s : State σ} (h : Settled s) : (settle c).after s = s := by
  rw [Panel.settle_eq, drain_of_none h.jobs, countFrames_of_caught h.caught]

/-- What leaves a state in which nothing waits leaves it so after the step too. -/
theorem Settled.step_eq {s t : State σ} (h : Settled t) {r : Request}
    (hr : (r.perform c).after s = t) : step c s (.request r) = t := by
  rw [Panel.step_eq, show (Input.request r).perform c = r.perform c from rfl, hr, h.settle_eq]

end OledPanel.Panel
