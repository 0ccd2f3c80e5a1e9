import OledPanel.Panel.Scenario

/-! The moments of a run at which dimming is touched. They follow the operations branch by branch:
a range that is entered or left asks for dimming, an update that finds another level at an open gate
starts the count again, a vblank is counted, a wait that fails gives counting up, and a panel that is
taken out of use is shut down. -/

namespace OledPanel.Panel

open Dsi (Transport)

/-- What is done to dimming. -/
inductive Beat where
  /-- Frames are to be counted from here on, and what ends them. -/
  | start (frames : Nat) (stop : Hbm.Stop)
  /-- The backlight is active, so the count starts again. -/
  | restart
  /-- A vblank has come. -/
  | frame
  /-- The wait for a vblank failed. -/
  | failure
  /-- The panel is taken out of use. -/
  | shutDown
deriving DecidableEq, Repr

/-- A beat and the state it finds. -/
structure Moment (σ : Type) where
  found : State σ
  beat : Beat

variable {σ : Type} [Transport σ]

/-! ### Moments of updates -/

/-- Dimming that is asked for starts if there are frames and the vblank reference is not refused. -/
def startMoments (frames : Nat) (stop : Hbm.Stop) (s : State σ) : List (Moment σ) :=
  if frames ≠ 0 ∧ (s.hbm.dimming.active = true ∨ s.display.refusing = false) then
    [⟨s, .start frames stop⟩]
  else []

/-- Finding a level in high-brightness mode enters the range it lies in. -/
def levelMoments (c : Config) (b : UInt32) (s : State σ) : List (Moment σ) :=
  if b ≠ 0 ∧ s.hbm.mode.isOn then
    let scaled := Brightness.scale b s.backlight.factor s.backlight.sunlightFactor
    match c.hbm.bind (target? · scaled) with
    | some (i, r) => if s.hbm.range ≠ some i then startMoments r.frames (.range i) s else []
    | none => []
  else []

/-- A level that was found and is not the one tracked starts the count again, if the gate is open. -/
def updateMoments (c : Config) (s : State σ) : List (Moment σ) :=
  let t := (levelOf c s.backlight.wanted).after s
  levelMoments c s.backlight.wanted s ++
    match (levelOf c s.backlight.wanted).answer s with
    | .ok level => if !t.shows level && t.backlight.gateOpen then [⟨t, .restart⟩] else []
    | .error _ => []

/-! ### Moments of requests -/

def brightnessMoments (c : Config) (b : UInt32) (s : State σ) : List (Moment σ) :=
  if c.backlight.map.maxBrightness < b then []
  else updateMoments c { s with backlight.brightness := b }

def scaleMoments (c : Config) (factor sunlightFactor : UInt32) (s : State σ) : List (Moment σ) :=
  if Brightness.fullScale < factor ∨ Brightness.fullScale < sunlightFactor then []
  else updateMoments c
    { s with backlight.factor := factor, backlight.sunlightFactor := sunlightFactor }

def lateMoments (c : Config) (d : Dpms) (s : State σ) : List (Moment σ) :=
  updateMoments c ((enterDpms d).after s)

/-- A transition whose first phase fails goes no further. -/
def transitionMoments (c : Config) (d : Dpms) (set : Dsi.CommandSet) (s : State σ) :
    List (Moment σ) :=
  match (earlyDpms d).answer s with
  | .ok _ => lateMoments c d ((onHost set.send).after ((earlyDpms d).after s))
  | .error _ => []

/-- A panel that does not take the commands to power on goes no further. -/
def enableMoments (c : Config) (s : State σ) : List (Moment σ) :=
  match c.sets.on.send.answer s.host with
  | .ok _ => lateMoments c .on (powered c { s with host := c.sets.on.send.after s.host })
  | .error _ => []

def disableMoments (c : Config) (s : State σ) : List (Moment σ) :=
  let t := (drain c).after s
  let off := { t with host := c.sets.off.send.after t.host }
  ⟨off, .shutDown⟩ :: lateMoments c .off ((shutDown c).after off)

def lowPowerMoments (c : Config) (n : UInt32) (s : State σ) : List (Moment σ) :=
  let bits := s.backlight.bits
  if bits.blanked then []
  else if n = 0 then
    if bits.isLowPower then transitionMoments c .on c.sets.nolp s else []
  else if n = 1 then
    if !bits.lp || bits.lp2 then transitionMoments c .lp1 c.sets.lp1 ((drain c).after s) else []
  else if !bits.lp2 then transitionMoments c .lp2 c.sets.lp2 s
  else []

/-- Leaving the mode asks for dimming on the way out; every change of the mode is followed by an
update. -/
def hbmMoments (c : Config) (mode : HbmMode) (s : State σ) : List (Moment σ) :=
  match c.hbm with
  | none => []
  | some h =>
    if mode = s.hbm.mode ∨ (mode = .sunlight ∧ !s.hbm.sunlightEnabled) then []
    else
      let t := { s with hbm.mode := mode }
      let exit := mode = .off
      (if exit then startMoments h.exitFrames .exit t else []) ++
        updateMoments c ((followSunlight c s.hbm.mode mode).after
          (if exit then (exitRanges c h).after t else t))

/-- The gate opens for a level held back. -/
def frameStartMoments (c : Config) (s : State σ) : List (Moment σ) :=
  let t := (drain c).after s
  if !t.backlight.gateOpen then
    if t.backlight.held then updateMoments c { t with backlight.gateOpen := true } else []
  else []

/-- What follows a value, if one is given. -/
def givenMoments {β : Type} (f : β → List (Moment σ)) : Except Error β → List (Moment σ)
  | .ok a => f a
  | .error _ => []

def attributeMoments (c : Config) (text : List Char) (s : State σ) : Attribute → List (Moment σ)
  | .brightness => givenMoments (brightnessMoments c · s) (Attribute.Input.word text)
  | .alpmMode => givenMoments (lowPowerMoments c · s) (Attribute.Input.clampedWord text)
  | .hbmMode =>
    if c.hbm.isNone then []
    else givenMoments (fun n => (HbmMode.ofInt? n).elim [] (hbmMoments c · s))
      (Attribute.Input.decimal text)
  | _ => []

def Request.moments (c : Config) (s : State σ) : Request → List (Moment σ)
  | .setBrightness b => brightnessMoments c b s
  | .update => updateMoments c s
  | .setScale factor sunlightFactor => scaleMoments c factor sunlightFactor s
  | .lateDpms d => lateMoments c d s
  | .setDpms d => transitionMoments c d {} s
  | .enable => enableMoments c s
  | .disable => disableMoments c s
  | .enterLp1 => transitionMoments c .lp1 c.sets.lp1 ((drain c).after s)
  | .enterLp2 => transitionMoments c .lp2 c.sets.lp2 s
  | .leaveLp => transitionMoments c .on c.sets.nolp s
  | .setLowPowerLevel n => lowPowerMoments c n s
  | .setHbm mode => hbmMoments c mode s
  | .beforeFrame => frameStartMoments c s
  | .write name text => givenMoments (attributeMoments c text.toList s) (attributeNamed name)
  | _ => []

/-! ### Moments of runs -/

/-- The moments of an input by itself. -/
def Input.moments (c : Config) (s : State σ) : Input → List (Moment σ)
  | .request r => r.moments c s
  | .vblankError => if 0 < s.display.references then [⟨s, .failure⟩] else []
  | _ => []

/-- Each vblank that is waited for is counted, while dimming is active. -/
def frameMoments (c : Config) : Nat → State σ → List (Moment σ)
  | 0, _ => []
  | n + 1, s =>
    if s.hbm.dimming.active then
      let t := (onDisplay Display.wait).after s
      match Display.wait.answer s.display with
      | .ok _ => ⟨t, .frame⟩ :: frameMoments c n ((countFrame c true).after t)
      | .error _ => []
    else []

/-- The moments of a step: those of the input, and after the jobs the frames. -/
def stepMoments (c : Config) (s : State σ) (i : Input) : List (Moment σ) :=
  let t := (drain c).after ((i.perform c).after s)
  i.moments c s ++ frameMoments c t.display.pending t

/-- The moments of a run, the oldest first. -/
def moments (c : Config) : State σ → List Input → List (Moment σ)
  | _, [] => []
  | s, i :: is => stepMoments c s i ++ moments c (step c s i) is

/-! ### What moments come of -/

variable {c : Config}

/-- Requests ask for dimming and start its count again. Only a failing wait gives counting up, and only
disabling the panel shuts it down. -/
def Beat.ComesOf : Beat → Input → Prop
  | .start _ _, i | .restart, i => ∃ r, i = .request r
  | .frame, _ => True
  | .failure, i => i = .vblankError
  | .shutDown, i => i = .request .disable

/-- Dimming is asked for and its count started again, and nothing else. -/
def Asking (ms : List (Moment σ)) : Prop :=
  ∀ m ∈ ms, (∃ frames stop, m.beat = .start frames stop) ∨ m.beat = .restart

omit [Transport σ] in
theorem asking_nil : Asking ([] : List (Moment σ)) := List.forall_mem_nil _

omit [Transport σ] in
theorem Asking.append {ms ns : List (Moment σ)} (h : Asking ms) (k : Asking ns) :
    Asking (ms ++ ns) := fun m hm => (List.mem_append.mp hm).elim (h m) (k m)

omit [Transport σ] in
theorem Asking.ite {p : Prop} [Decidable p] {ms ns : List (Moment σ)} (h : Asking ms)
    (k : Asking ns) : Asking (if p then ms else ns) := by
  split
  · exact h
  · exact k

omit [Transport σ] in
theorem asking_startMoments (frames : Nat) (stop : Hbm.Stop) (s : State σ) :
    Asking (startMoments frames stop s) := by
  refine Asking.ite (fun m hm => ?_) asking_nil
  rw [List.mem_singleton.mp hm]
  exact .inl ⟨frames, stop, rfl⟩

omit [Transport σ] in
theorem asking_levelMoments (b : UInt32) (s : State σ) : Asking (levelMoments c b s) := by
  refine Asking.ite ?_ asking_nil
  dsimp only
  split
  · exact Asking.ite (asking_startMoments _ _ s) asking_nil
  · exact asking_nil

theorem asking_updateMoments (s : State σ) : Asking (updateMoments c s) := by
  refine (asking_levelMoments _ s).append ?_
  split
  · refine Asking.ite (fun m hm => ?_) asking_nil
    rw [List.mem_singleton.mp hm]
    exact .inr rfl
  · exact asking_nil

theorem asking_brightnessMoments (b : UInt32) (s : State σ) : Asking (brightnessMoments c b s) :=
  Asking.ite asking_nil (asking_updateMoments _)

theorem asking_transitionMoments (d : Dpms) (set : Dsi.CommandSet) (s : State σ) :
    Asking (transitionMoments c d set s) := by
  unfold transitionMoments
  split
  · exact asking_updateMoments _
  · exact asking_nil

theorem asking_lowPowerMoments (n : UInt32) (s : State σ) : Asking (lowPowerMoments c n s) := by
  have hnolp := asking_transitionMoments (c := c) .on c.sets.nolp s
  have hlp1 := asking_transitionMoments (c := c) .lp1 c.sets.lp1 ((drain c).after s)
  have hlp2 := asking_transitionMoments (c := c) .lp2 c.sets.lp2 s
  exact Asking.ite asking_nil (Asking.ite (hnolp.ite asking_nil)
    (Asking.ite (hlp1.ite asking_nil) (hlp2.ite asking_nil)))

theorem asking_hbmMoments (mode : HbmMode) (s : State σ) : Asking (hbmMoments c mode s) := by
  unfold hbmMoments
  split
  · exact asking_nil
  · refine Asking.ite asking_nil (Asking.append ?_ (asking_updateMoments _))
    exact Asking.ite (asking_startMoments _ _ _) asking_nil

omit [Transport σ] in
theorem asking_givenMoments {β : Type} {f : β → List (Moment σ)} (hf : ∀ a, Asking (f a))
    (r : Except Error β) : Asking (givenMoments f r) := by
  cases r with
  | ok a => exact hf a
  | error e => exact asking_nil

theorem asking_attributeMoments (text : List Char) (s : State σ) (a : Attribute) :
    Asking (attributeMoments c text s a) := by
  cases a with
  | brightness => exact asking_givenMoments (asking_brightnessMoments · s) _
  | alpmMode => exact asking_givenMoments (asking_lowPowerMoments · s) _
  | hbmMode =>
    refine Asking.ite asking_nil (asking_givenMoments (fun n => ?_) _)
    cases HbmMode.ofInt? n with
    | none => exact asking_nil
    | some mode => exact asking_hbmMoments mode s
  | _ => exact asking_nil

theorem asking_request {r : Request} (hr : r ≠ .disable) (s : State σ) : Asking (r.moments c s) := by
  cases r with
  | disable => exact absurd rfl hr
  | setBrightness b => exact asking_brightnessMoments b s
  | update => exact asking_updateMoments s
  | lateDpms d => exact asking_updateMoments _
  | setScale f g => exact Asking.ite asking_nil (asking_updateMoments _)
  | setDpms d => exact asking_transitionMoments d {} s
  | enterLp1 => exact asking_transitionMoments .lp1 c.sets.lp1 _
  | enterLp2 => exact asking_transitionMoments .lp2 c.sets.lp2 s
  | leaveLp => exact asking_transitionMoments .on c.sets.nolp s
  | enable =>
    rw [Request.moments, enableMoments]
    split
    · exact asking_updateMoments _
    · exact asking_nil
  | setLowPowerLevel n => exact asking_lowPowerMoments n s
  | setHbm mode => exact asking_hbmMoments mode s
  | beforeFrame => exact Asking.ite (Asking.ite (asking_updateMoments _) asking_nil) asking_nil
  | write name text => exact asking_givenMoments (asking_attributeMoments text.toList s) _
  | _ => exact asking_nil

theorem beat_frameMoments {n : Nat} {s : State σ} {m : Moment σ} (hm : m ∈ frameMoments c n s) :
    m.beat = .frame := by
  induction n generalizing s with
  | zero => cases hm
  | succ n ih =>
    rw [frameMoments] at hm
    dsimp only at hm
    split at hm
    · split at hm
      · obtain rfl | hm := List.mem_cons.mp hm
        · rfl
        · exact ih hm
      · cases hm
    · cases hm

theorem comesOf_step {s : State σ} {i : Input} {m : Moment σ} (hm : m ∈ stepMoments c s i) :
    m.beat.ComesOf i := by
  have hasks {r : Request} (h : (∃ frames stop, m.beat = .start frames stop) ∨ m.beat = .restart) :
      m.beat.ComesOf (.request r) := by
    obtain ⟨frames, stop, h⟩ | h := h <;> exact h ▸ ⟨r, rfl⟩
  rw [stepMoments] at hm
  obtain hm | hm := List.mem_append.mp hm
  · cases i with
    | request r =>
      by_cases hr : r = .disable
      · subst hr
        obtain rfl | hm := List.mem_cons.mp hm
        · rfl
        · exact hasks (asking_updateMoments _ m hm)
      · exact hasks (asking_request hr s m hm)
    | vblankError =>
      rw [Input.moments] at hm
      split at hm
      · exact List.mem_singleton.mp hm ▸ rfl
      · cases hm
    | pulse | refuse | burst | regulatorFails | pwmFails => cases hm
  · rw [beat_frameMoments hm]
    trivial

end OledPanel.Panel
