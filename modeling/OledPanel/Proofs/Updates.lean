import OledPanel.Panel.Update
import OledPanel.Proofs.Dimming

/-! What an update is made of. It first finds the level, which may take entering a range, and then
brings the level out in strokes: messages to a panel that takes levels, and changes of the
backlight, of the display and of the frames to count. A preorder that admits strokes and entering
a range admits updates. -/

namespace OledPanel.Panel

open OledPanel.Action (Given Same Succeeds Within)
open Dsi (Message Transport)

variable {σ : Type}

/-- The panel takes levels: it is powered and the gate is open. -/
def State.Live (s : State σ) : Prop := s.initialized = true ∧ s.backlight.gateOpen = true

/-- A level is written by the brightness command, as no bin expresses the brightness. -/
def Direct (c : Config) (b : Backlight.State) : Prop :=
  c.actuator = .dcs ∨ ∃ bins, c.actuator = .bins bins ∧ binOf bins b = none

variable [Transport σ]

/-- What bringing out a level is made of. The ambient-light category and the bin stay possible ones,
and the thresholds stay. -/
inductive Stroke (c : Config) : State σ → State σ → Prop
  | transfer (s : State σ) {set : Dsi.CommandSet} {m : Message} (hs : s.Live) (hc : c.Has set)
    (hm : m ∈ set.messages) :
    Stroke c s { s with host := (Dsi.transfer m).after s.host }
  | level (s : State σ) (level : UInt32) {m : Message} (hs : s.Live) (hd : Direct c s.backlight)
    (hm : m ∈ Dsi.plain? (Dsi.setBrightness :: c.backlight.encode level) true) :
    Stroke c s { s with host := (Dsi.transfer m).after s.host }
  | display (s : State σ) (d : Display) (hr : d.references = s.display.references)
    (hg : d.granted = s.display.granted) (hb : d.returned = s.display.returned) :
    Stroke c s { s with display := d }
  | pwm (s : State σ) (p : Option Pwm) : Stroke c s { s with pwm := p }
  | backlight (s : State σ) (level : Option UInt32) (bits : PowerBits) (held : Bool)
    (als : Option Backlight.Als) (bin : Option Nat) (edge : LowPower.Edge)
    (hv : s.backlight.Valid c → Backlight.State.Valid c { s.backlight with als := als, bin := bin })
    (ha : als.map (·.thresholds) = s.backlight.als.map (·.thresholds)) :
    Stroke c s { s with
      backlight.level := level
      backlight.levelBits := bits
      backlight.held := held
      backlight.als := als
      backlight.bin := bin
      backlight.edge := edge }
  | restart (s : State σ) : Stroke c s (restartDimming s)

def Strokes (c : Config) : State σ → State σ → Prop := Relation.ReflTransGen (Stroke c)

instance (c : Config) : IsPreorder (State σ) (Strokes c) :=
  inferInstanceAs (IsPreorder _ (Relation.ReflTransGen _))

/-- Finding the level of a brightness may take entering a range, in high-brightness mode only and
only where the range is not the one in force. -/
inductive Enters (c : Config) (b : UInt32) (s : State σ) : State σ → Prop
  | stay : Enters c b s s
  | enter {h : Hbm.Config} {i : Nat} {r : Hbm.Range} (hh : c.hbm = some h)
    (hr : h.ranges[i]? = some r) (hb : b ≠ 0) (hm : s.hbm.mode.isOn = true)
    (hi : s.hbm.range ≠ some i) : Enters c b s ((enterRange c i r).after s)

variable {c : Config}

/-! ### What updates leave alone -/

/-- The power state and the brightness, the regulator, the mode, the gamma tables and the settings are
the same, and so is whether the panel takes levels. -/
structure Keeps (s t : State σ) : Prop where
  initialized : t.initialized = s.initialized
  gateOpen : t.backlight.gateOpen = s.backlight.gateOpen
  bits : t.backlight.bits = s.backlight.bits
  power : t.backlight.power = s.backlight.power
  brightness : t.backlight.brightness = s.backlight.brightness
  regulator : t.regulator = s.regulator
  mode : t.hbm.mode = s.hbm.mode
  gamma : t.gamma = s.gamma
  settings : t.settings = s.settings

instance : IsPreorder (State σ) Keeps where
  refl _ := ⟨rfl, rfl, rfl, rfl, rfl, rfl, rfl, rfl, rfl⟩
  trans _ _ _ h k := ⟨k.initialized.trans h.initialized, k.gateOpen.trans h.gateOpen,
    k.bits.trans h.bits, k.power.trans h.power, k.brightness.trans h.brightness,
    k.regulator.trans h.regulator, k.mode.trans h.mode, k.gamma.trans h.gamma,
    k.settings.trans h.settings⟩

omit [Transport σ] in
theorem Keeps.live {s t : State σ} (h : Keeps s t) : t.Live ↔ s.Live := by
  rw [State.Live, State.Live, h.initialized, h.gateOpen]

theorem Stroke.keeps {s t : State σ} (h : Stroke c s t) :
    Keeps s t ∧ t.hbm.range = s.hbm.range := by
  cases h with
  | restart =>
    obtain ⟨m, hm⟩ := restartDimming_frame s
    rw [hm]
    exact ⟨⟨rfl, rfl, rfl, rfl, rfl, rfl, rfl, rfl, rfl⟩, rfl⟩
  | backlight level bits held als bin edge hv ha =>
    exact ⟨⟨rfl, rfl, rfl, rfl, rfl, rfl, rfl, rfl, Prod.ext rfl ha⟩, rfl⟩
  | _ => exact ⟨⟨rfl, rfl, rfl, rfl, rfl, rfl, rfl, rfl, rfl⟩, rfl⟩

theorem Strokes.keeps {s t : State σ} (h : Strokes c s t) : Keeps s t :=
  Action.related_of_closure (fun _ _ h => h.keeps.1) h

theorem Strokes.range {s t : State σ} (h : Strokes c s t) : t.hbm.range = s.hbm.range := by
  have hsame : Same (fun s : State σ => s.hbm.range) s t :=
    Action.related_of_closure (fun _ _ h => h.keeps.2) h
  exact hsame

theorem Enters.keeps {b : UInt32} {s t : State σ} (h : Enters c b s t) : Keeps s t := by
  cases h with
  | stay => exact refl s
  | @enter h i r =>
    obtain ⟨g, he⟩ := enterRange_frame (c := c) i r s
    obtain ⟨d, m, hstart⟩ := startDimming_frame r.frames (.range i) s
    rw [he, hstart]
    exact ⟨rfl, rfl, rfl, rfl, rfl, rfl, rfl, rfl, rfl⟩

/-- Finding the level leaves the output and the backlight as they are. -/
theorem Enters.supplied {b : UInt32} {s t : State σ} (h : Enters c b s t) :
    t.pwm = s.pwm ∧ t.backlight = s.backlight := by
  cases h with
  | stay => exact ⟨rfl, rfl⟩
  | @enter h i r =>
    obtain ⟨g, he⟩ := enterRange_frame (c := c) i r s
    obtain ⟨d, m, hstart⟩ := startDimming_frame r.frames (.range i) s
    rw [he, hstart]
    exact ⟨rfl, rfl⟩

/-- A panel that takes no levels is sent nothing. -/
theorem Strokes.host {s t : State σ} (h : Strokes c s t) (hs : ¬s.Live) : t.host = s.host := by
  induction h with
  | refl => rfl
  | @tail t u h step ih =>
    have ht : ¬t.Live := fun ht => hs ((Strokes.keeps h).live.mp ht)
    cases step with
    | transfer hl hc hm => exact absurd hl ht
    | level l hl hd hm => exact absurd hl ht
    | restart =>
      obtain ⟨m, hm⟩ := restartDimming_frame t
      rw [hm]
      exact ih
    | _ => exact ih

/-! ### The course of an update -/

/-- A shut gate holds the level back. -/
theorem commit_of_shut {s : State σ} (hg : s.backlight.gateOpen = false) (b level : UInt32) :
    (commit c b level).after s = { s with backlight.held := true } := by
  rw [commit, Action.after_get_bind, hg]
  rfl

/-- A panel that is not powered has the level tracked and nothing else. -/
theorem commit_of_unpowered {s : State σ} (hg : s.backlight.gateOpen = true)
    (hi : s.initialized = false) (b level : UInt32) :
    (commit c b level).after s = track level (restartDimming s) := by
  rw [commit, Action.after_get_bind, hg, hi]
  rfl

/-- On a panel that takes levels the level is tracked once presenting it went well. -/
theorem commit_of_live {s : State σ} (hs : s.Live) (b level : UInt32) :
    (commit c b level).after s = match (present c b level).answer (restartDimming s) with
      | .ok _ => track level ((present c b level).after (restartDimming s))
      | .error _ => (present c b level).after (restartDimming s) := by
  rw [commit, Action.after_get_bind]
  dsimp only
  rw [if_neg (by simp [hs.2]), if_pos hs.1, Action.after_modify_bind, Action.after_bind]
  cases (present c b level).answer (restartDimming s) <;> rfl

/-- It goes as presenting the level goes, and answers a brightness other than zero. -/
theorem answer_commit_eq {s : State σ} (hs : s.Live) (b level : UInt32) :
    (commit c b level).answer s = ((present c b level).answer (restartDimming s)).map fun _ =>
      if 0 < b then some b else none := by
  rw [commit, Action.answer_get_bind]
  dsimp only
  rw [if_neg (by simp [hs.2]), if_pos hs.1, Action.answer_modify_bind, Action.answer_bind]
  cases (present c b level).answer (restartDimming s) with
  | error e => rfl
  | ok u =>
    simp only [Action.answer_modify_bind, Action.answer_pure, Except.map, hs.1, Bool.true_and,
      decide_eq_true_eq]

theorem updateLevel_of_found {level : UInt32} {s : State σ}
    (hl : (levelOf c s.backlight.wanted).answer s = .ok level) :
    (updateLevel c).after s = if ((levelOf c s.backlight.wanted).after s).shows level
      then (levelOf c s.backlight.wanted).after s
      else (commit c s.backlight.wanted level).after ((levelOf c s.backlight.wanted).after s) := by
  rw [updateLevel, Action.after_get_bind, Action.after_bind, hl]
  dsimp only
  rw [Action.after_get_bind]
  split <;> rfl

theorem answer_updateLevel_of_found {level : UInt32} {s : State σ}
    (hl : (levelOf c s.backlight.wanted).answer s = .ok level) :
    (updateLevel c).answer s = if ((levelOf c s.backlight.wanted).after s).shows level then .ok none
      else (commit c s.backlight.wanted level).answer ((levelOf c s.backlight.wanted).after s) := by
  rw [updateLevel, Action.answer_get_bind, Action.answer_bind, hl]
  dsimp only
  rw [Action.answer_get_bind]
  split <;> rfl

theorem updateLevel_of_not_found {e : Error} {s : State σ}
    (hl : (levelOf c s.backlight.wanted).answer s = .error e) :
    (updateLevel c).after s = (levelOf c s.backlight.wanted).after s := by
  rw [updateLevel, Action.after_get_bind, Action.after_bind, hl]

/-- Where the level is found, an update fails because bringing the level out fails. -/
theorem commit_of_failed_update {level : UInt32} {e : Error} {s : State σ}
    (hl : (levelOf c s.backlight.wanted).answer s = .ok level)
    (he : (update c).answer s = .error e) : let u := (levelOf c s.backlight.wanted).after s
    u.shows level = false ∧ (commit c s.backlight.wanted level).answer u = .error e ∧
      (update c).after s = (commit c s.backlight.wanted level).after u := by
  intro u
  rw [update, Action.answer_bind] at he
  rw [update, Action.after_bind]
  cases hr : (updateLevel c).answer s with
  | ok r =>
    rw [hr] at he
    cases r <;> cases he
  | error d =>
    rw [hr] at he
    cases he
    have hu := (answer_updateLevel_of_found hl).symm.trans hr
    dsimp only
    rw [updateLevel_of_found hl]
    split
    · next hs =>
      rw [if_pos hs] at hu
      cases hu
    · next hs =>
      rw [if_neg hs] at hu
      exact ⟨by simpa using hs, hu, rfl⟩

/-- A brightness is reported to the display, which holds its references. -/
theorem update_frame (s : State σ) : ∃ d : Display,
    d.references = ((updateLevel c).after s).display.references ∧
    d.granted = ((updateLevel c).after s).display.granted ∧
    d.returned = ((updateLevel c).after s).display.returned ∧
    (update c).after s = { (updateLevel c).after s with display := d } := by
  rw [update, Action.after_bind]
  split
  · next b _ =>
    cases b with
    | none => exact ⟨_, rfl, rfl, rfl, rfl⟩
    | some b => exact ⟨((updateLevel c).after s).display.notify (.brightness b), rfl, rfl, rfl, rfl⟩
  · exact ⟨_, rfl, rfl, rfl, rfl⟩

/-! ### Actuators -/

/-- What bringing out a level does to a panel that takes levels. -/
abbrev Brings (c : Config) : State σ → State σ → Prop := Given State.Live (Strokes c)

theorem brings_stroke {s t : State σ} (h : s.Live → Stroke c s t) : Brings c s t :=
  fun hs => ⟨(h hs).keeps.1.live.mpr hs, .single (h hs)⟩

theorem brings_backlight (s : State σ) (level : Option UInt32) (bits : PowerBits) (held : Bool)
    (als : Option Backlight.Als) (bin : Option Nat) (edge : LowPower.Edge)
    (hv : s.backlight.Valid c → Backlight.State.Valid c { s.backlight with als := als, bin := bin })
    (ha : als.map (·.thresholds) = s.backlight.als.map (·.thresholds)) :
    Brings c s { s with
      backlight.level := level
      backlight.levelBits := bits
      backlight.held := held
      backlight.als := als
      backlight.bin := bin
      backlight.edge := edge } :=
  brings_stroke fun _ => .backlight s level bits held als bin edge hv ha

theorem brings_notify (e : Event) : Within (Brings c) (notify e : Action (State σ) Unit) :=
  fun s => brings_stroke fun _ => .display s _ rfl rfl rfl

theorem brings_send {set : Dsi.CommandSet} (hset : c.Has set) :
    Within (Brings c) (onHost set.send : Action (State σ) Unit) := by
  intro s
  rw [after_onHost]
  refine related_of_sends s (Dsi.CommandSet.within_send set (fun m hm => hm) s.host) fun h m hm => ?_
  exact brings_stroke fun hs => .transfer { s with host := h } hs hset hm

theorem brings_writeLevel (level : UInt32) {s : State σ} (hd : Direct c s.backlight) :
    Brings c s ((writeLevel c level).after s) := by
  rw [writeLevel, Action.after_get_bind, after_onHost]
  unfold Backlight.Config.writeLevel
  split
  · exact refl s
  · split
    · exact refl s
    · refine related_of_sends s (Dsi.within_write _ _ (fun m hm => hm) s.host) fun h m hm => ?_
      exact brings_stroke fun hs => .level { s with host := h } level hs hd hm

theorem brings_writeEdge (bin : LowPower.Bin) :
    Within (Brings c) (writeEdge c bin : Action (State σ) Unit) := by
  unfold writeEdge
  split
  · exact Within.throw _
  · next e he =>
    refine Within.bind (fun s => brings_backlight s _ _ _ _ _ _ id rfl) fun _ => brings_send ?_
    unfold LowPower.Edges.commands
    split
    · exact .high he
    · exact .low he

theorem brings_enterBin {bins : List LowPower.Bin} (ha : c.actuator = .bins bins) (i : Nat) :
    Within (Brings c) (enterBin c bins i : Action (State σ) Unit) := by
  unfold enterBin
  split
  · exact Within.pure _
  · next bin hb =>
    have hsend : Within (Brings c) (onHost bin.enter.send : Action (State σ) Unit) :=
      brings_send (.bin ha (List.mem_of_getElem? hb))
    exact hsend.attempt.bind fun _ => (brings_writeEdge bin).attempt

/-- What fails of a bin is passed over. -/
theorem succeeds_enterBin (bins : List LowPower.Bin) (i : Nat) :
    Succeeds (enterBin c bins i : Action (State σ) Unit) := by
  unfold enterBin
  split
  · exact Succeeds.pure ()
  · exact (Succeeds.attempt _).bind fun _ => Succeeds.attempt _

theorem brings_writeBin {bins : List LowPower.Bin} (ha : c.actuator = .bins bins) (level : UInt32) :
    Within (Brings c) (writeBin c bins level : Action (State σ) Unit) := by
  intro s
  have hbin : Brings c s { s with backlight.bin := binOf bins s.backlight } :=
    brings_backlight s _ _ _ _ _ _
      (fun hv => { hv with bin := fun i hi => ⟨bins, ha, lt_of_binOf hi⟩ }) rfl
  rw [writeBin, Action.after_get_bind]
  dsimp only
  rw [Action.after_modify_bind]
  refine IsTrans.trans _ _ _ hbin ?_
  cases hb : binOf bins s.backlight with
  | some i => exact Within.ite (fun _ => brings_enterBin ha i) (fun _ => Within.pure _) _
  | none =>
    have hwrite (b : Backlight.State) (hd : binOf bins b = none) :
        Brings c { s with backlight := b } ((writeLevel c level).after { s with backlight := b }) :=
      brings_writeLevel level (.inr ⟨bins, ha, hd⟩)
    dsimp only
    split
    · rw [Action.after_modify_bind]
      exact IsTrans.trans _ _ _ (brings_backlight _ none _ _ _ _ _ id rfl) (hwrite _ hb)
    · exact hwrite _ hb

theorem brings_writePwm (periodUs level : UInt32) :
    Within (Brings c) (writePwm c periodUs level : Action (State σ) Unit) := by
  have hpwm {α : Type} (x : Action Pwm α) :
      Within (Brings c) (onPwm x : Action (State σ) α) := fun s => by
    rw [after_onPwm]
    exact brings_stroke fun _ => .pwm s _
  refine Within.get fun s => Within.ite (fun _ => ?_) fun _ => ?_
  · exact Within.ite (fun _ s => brings_stroke fun _ => .pwm s _) fun _ => Within.pure _
  · refine (hpwm _).bind fun _ => ?_
    exact Within.ite (fun _ => hpwm _) fun _ => Within.pure _

theorem brings_actuate (level : UInt32) :
    Within (Brings c) (actuate c level : Action (State σ) Unit) := by
  unfold actuate
  split
  · exact Within.pure _
  · next ha => exact fun s => brings_writeLevel level (.inl ha)
  · next bins ha => exact brings_writeBin ha level
  · exact brings_writePwm _ level

/-- Setting an actuator concerns the host, the output, and of the backlight the bin, its edge and the
level tracked, which may be forgotten. -/
def Drives (s t : State σ) : Prop :=
  ∃ (g : σ) (p : Option Pwm) (l : Option UInt32) (b : Option Nat) (e : LowPower.Edge),
    t = { s with
      host := g
      pwm := p
      backlight.level := l
      backlight.bin := b
      backlight.edge := e } ∧ (l = s.backlight.level ∨ l = none)

instance : IsPreorder (State σ) Drives where
  refl s := ⟨_, _, _, _, _, rfl, .inl rfl⟩
  trans s t u h k := by
    obtain ⟨g, p, l, b, e, rfl, hl⟩ := h
    obtain ⟨g', p', l', b', e', rfl, hl'⟩ := k
    refine ⟨g', p', l', b', e', rfl, ?_⟩
    obtain rfl | rfl := hl'
    · exact hl
    · exact .inr rfl

omit [Transport σ] in
theorem drives_onHost {α : Type} (x : Action σ α) :
    Within Drives (onHost x : Action (State σ) α) := by
  intro s
  rw [after_onHost]
  exact ⟨_, _, _, _, _, rfl, .inl rfl⟩

theorem drives_writeBin (bins : List LowPower.Bin) (level : UInt32) :
    Within Drives (writeBin c bins level : Action (State σ) Unit) := by
  have hedge (bin : LowPower.Bin) : Within Drives (writeEdge c bin : Action (State σ) Unit) := by
    unfold writeEdge
    split
    · exact Within.throw _
    · exact Within.bind (fun _ => ⟨_, _, _, _, _, rfl, .inl rfl⟩) fun _ => drives_onHost _
  have henter (i : Nat) : Within Drives (enterBin c bins i : Action (State σ) Unit) := by
    unfold enterBin
    split
    · exact Within.pure _
    · exact (drives_onHost _).attempt.bind fun _ => (hedge _).attempt
  have hwrite : Within Drives (writeLevel c level : Action (State σ) Unit) :=
    Within.get fun _ => drives_onHost _
  refine Within.get fun s => Within.bind (fun _ => ⟨_, _, _, _, _, rfl, .inl rfl⟩) fun _ => ?_
  split
  · exact Within.ite (fun _ => henter _) fun _ => Within.pure _
  · refine Within.ite (fun _ => ?_) fun _ => hwrite
    exact Within.bind (fun _ => ⟨_, _, _, _, _, rfl, .inr rfl⟩) fun _ => hwrite

theorem drives_actuate (level : UInt32) :
    Within Drives (actuate c level : Action (State σ) Unit) := by
  unfold actuate
  split
  · exact Within.pure _
  · exact Within.get fun _ => drives_onHost _
  · exact drives_writeBin _ level
  · have hpwm (x : Action Pwm Unit) : Within Drives (onPwm x : Action (State σ) Unit) := by
      intro s
      rw [after_onPwm]
      exact ⟨_, _, _, _, _, rfl, .inl rfl⟩
    refine Within.get fun s => Within.ite (fun _ => ?_) fun _ => ?_
    · exact Within.ite (fun _ _ => ⟨_, _, _, _, _, rfl, .inl rfl⟩) fun _ => Within.pure _
    · exact (hpwm _).bind fun _ => Within.ite (fun _ => hpwm _) fun _ => Within.pure _

/-! ### Levels -/

theorem brings_observeAls (b : UInt32) :
    Within (Brings c) (observeAls b : Action (State σ) Unit) := by
  intro s
  rw [observeAls, Action.after_get_bind]
  split
  · exact refl s
  · next als hals =>
    have hobserve : Brings c s { s with backlight.als := some (als.observe b).1 } := by
      refine brings_backlight s _ _ _ _ _ _ (fun hv => { hv with als := ?_ }) ?_
      · rintro _ ⟨⟩
        rw [als.thresholds_observe b]
        exact hv.als als hals
      · rw [hals, Option.map_some, Option.map_some, als.thresholds_observe b]
    rw [Action.after_modify_bind]
    refine IsTrans.trans _ _ _ hobserve ?_
    exact Within.ite (fun _ => brings_notify _) (fun _ => Within.pure _) _

omit [Transport σ] in
theorem succeeds_observeAls (b : UInt32) : Succeeds (observeAls b : Action (State σ) Unit) := by
  refine Succeeds.get fun s => ?_
  split
  · exact Succeeds.pure ()
  · refine (Succeeds.modify _).bind fun _ => ?_
    exact Succeeds.ite (fun _ => Succeeds.modify _) fun _ => Succeeds.pure ()

omit [Transport σ] in
theorem observeAls_frame (b : UInt32) (s : State σ) :
    ∃ d a, (observeAls b).after s = { s with display := d, backlight.als := a } := by
  rw [observeAls, Action.after_get_bind]
  split
  · exact ⟨s.display, s.backlight.als, rfl⟩
  · rw [Action.after_modify_bind]
    split
    · exact ⟨_, _, rfl⟩
    · exact ⟨s.display, _, rfl⟩

/-- Presenting a level fails where the actuator does, and then leaves nothing held back. -/
theorem present_cases (b level : UInt32) (s : State σ) :
    (∃ e, (actuate c level).answer s = .error e ∧ (present c b level).answer s = .error e ∧
      (present c b level).after s = (actuate c level).after s) ∨
    ((actuate c level).answer s = .ok () ∧ (present c b level).answer s = .ok () ∧
      ∃ d a, (present c b level).after s = { (actuate c level).after s with
        display := d
        backlight.held := false
        backlight.als := a }) := by
  have hrest (t : State σ) : ∃ d a, Action.after (do
      modify fun s => { s with backlight.held := false }
      let s ← get
      if s.backlight.bits.isOn && !s.hbm.mode.isOn then observeAls b : Action (State σ) Unit) t =
        { t with display := d, backlight.held := false, backlight.als := a } := by
    rw [Action.after_modify_bind, Action.after_get_bind]
    split
    · exact observeAls_frame b { t with backlight.held := false }
    · exact ⟨t.display, t.backlight.als, rfl⟩
  have hanswer : Succeeds (do
      modify fun s => { s with backlight.held := false }
      let s ← get
      if s.backlight.bits.isOn && !s.hbm.mode.isOn then observeAls b : Action (State σ) Unit) := by
    refine (Succeeds.modify _).bind fun _ => Succeeds.get fun s => ?_
    exact Succeeds.ite (fun _ => succeeds_observeAls b) fun _ => Succeeds.pure ()
  rw [present, Action.answer_bind, Action.after_bind]
  cases hw : (actuate c level).answer s with
  | error e => exact .inl ⟨e, rfl, rfl, rfl⟩
  | ok u => exact .inr ⟨rfl, (hanswer _).choose_spec, hrest _⟩

/-- On a panel that takes levels a level is tracked once the actuator was set. -/
theorem commit_cases {s : State σ} (hs : s.Live) (b level : UInt32) :
    let r := restartDimming s
    (∃ e, (actuate c level).answer r = .error e ∧
      (commit c b level).after s = (actuate c level).after r) ∨
    ((actuate c level).answer r = .ok () ∧ ∃ d a, (commit c b level).after s =
      track level { (actuate c level).after r with
        display := d
        backlight.held := false
        backlight.als := a }) := by
  intro r
  rw [commit_of_live hs]
  obtain ⟨e, hw, hp, h⟩ | ⟨hw, hp, d, a, h⟩ := present_cases (c := c) b level r
  · exact .inl ⟨e, hw, by rw [hp, h]⟩
  · exact .inr ⟨hw, d, a, by rw [hp, h]⟩

theorem brings_present (b level : UInt32) :
    Within (Brings c) (present c b level : Action (State σ) Unit) := by
  refine (brings_actuate level).bind fun _ => ?_
  refine Within.bind (fun s => brings_backlight s _ _ _ _ _ _ id rfl) fun _ => ?_
  exact Within.get fun s => Within.ite (fun _ => brings_observeAls b) fun _ => Within.pure _

theorem strokes_commit (b level : UInt32) :
    Within (Strokes c) (commit c b level : Action (State σ) (Option UInt32)) := by
  intro s
  have hrestart : Strokes c s (restartDimming s) := .single (.restart s)
  have htrack (t : State σ) : Strokes c t (track level t) := .single (.backlight t _ _ _ _ _ _ id rfl)
  cases hg : s.backlight.gateOpen with
  | false =>
    rw [commit_of_shut hg]
    exact .single (.backlight s _ _ _ _ _ _ id rfl)
  | true =>
  cases hi : s.initialized with
  | false =>
    rw [commit_of_unpowered hg hi]
    exact hrestart.trans (htrack _)
  | true =>
  have hlive : (restartDimming s).Live := hrestart.keeps.live.mpr ⟨hi, hg⟩
  have hpresent := hrestart.trans (brings_present b level _ hlive).2
  rw [commit_of_live ⟨hi, hg⟩]
  split
  · exact hpresent.trans (htrack _)
  · exact hpresent

theorem target?_eq {h : Hbm.Config} {b : UInt32} {i : Nat} {r : Hbm.Range}
    (ht : target? h b = some (i, r)) : h.ranges[i]? = some r := by
  obtain ⟨j, _, hj⟩ := Option.bind_eq_some_iff.mp ht
  obtain ⟨q, hq, he⟩ := Option.map_eq_some_iff.mp hj
  obtain ⟨rfl, rfl⟩ := Prod.mk.inj he
  exact hq

/-- A level in high-brightness mode may take entering a range first. -/
theorem enters_hbmLevel (b scaled : UInt32) (s : State σ) (hb : b ≠ 0) (hm : s.hbm.mode.isOn = true) :
    Enters c b s ((hbmLevel c scaled).after s) := by
  unfold hbmLevel
  split
  · exact .stay
  · next h hh =>
    split
    · exact .stay
    · next i r ht =>
      rw [Action.after_get_bind]
      dsimp only
      split
      · next hi =>
        have h : Enters c b s ((enterRange c i r).after s) := .enter hh (target?_eq ht) hb hm hi
        rw [Action.after_bind]
        split
        · rw [Action.after_ofExcept]
          exact h
        · exact h
      · rw [Action.after_ofExcept]
        exact .stay

theorem enters_levelOf (b : UInt32) (s : State σ) : Enters c b s ((levelOf c b).after s) := by
  unfold levelOf
  dsimp only
  split
  · exact .stay
  · next hb =>
    rw [Action.after_get_bind]
    split
    · next hm => exact enters_hbmLevel b _ s hb hm
    · rw [Action.after_ofExcept]
      exact .stay

/-- An update finds the level and brings it out. -/
theorem strokes_update (s : State σ) :
    Strokes c ((levelOf c s.backlight.wanted).after s) ((update c).after s) := by
  have hlevel : Strokes c ((levelOf c s.backlight.wanted).after s) ((updateLevel c).after s) := by
    cases hl : (levelOf c s.backlight.wanted).answer s with
    | error e =>
      rw [updateLevel_of_not_found hl]
      exact refl _
    | ok level =>
      rw [updateLevel_of_found hl]
      split
      · exact refl _
      · exact strokes_commit _ level _
  obtain ⟨d, hr, hg, hb, h⟩ := update_frame (c := c) s
  rw [h]
  exact hlevel.tail (.display _ d hr hg hb)

theorem update_strokes (s : State σ) :
    ∃ t, Enters c s.backlight.wanted s t ∧ Strokes c t ((update c).after s) :=
  ⟨_, enters_levelOf s.backlight.wanted s, strokes_update s⟩

theorem keeps_update : Within Keeps (update c : Action (State σ) Unit) := by
  intro s
  obtain ⟨t, hst, htu⟩ := update_strokes (c := c) s
  exact IsTrans.trans _ _ _ hst.keeps htu.keeps

/-! ### Relations that do not look at the backlight -/

/-- The relation holds of what bringing out a level is made of. -/
structure Commits (c : Config) (R : State σ → State σ → Prop) : Prop where
  errand : ∀ s t, Errand c s t → R s t
  level : ∀ (s : State σ) (level : UInt32) (m : Message),
    m ∈ Dsi.plain? (Dsi.setBrightness :: c.backlight.encode level) true →
      R s { s with host := (Dsi.transfer m).after s.host }
  backlight : ∀ (s : State σ) (b : Backlight.State), R s { s with backlight := b }
  restart : ∀ s : State σ, R s (restartDimming s)

/-- The relation holds of what updates are made of. -/
structure Updates (c : Config) (R : State σ → State σ → Prop) : Prop extends Commits c R where
  enter : ∀ (s : State σ) (h : Hbm.Config) (i : Nat) (r : Hbm.Range), c.hbm = some h →
    h.ranges[i]? = some r → s.hbm.mode.isOn → s.hbm.range ≠ some i → R s ((enterRange c i r).after s)

variable {R : State σ → State σ → Prop} [IsPreorder (State σ) R]

theorem within_levelOf
    (henter : ∀ (s : State σ) (h : Hbm.Config) (i : Nat) (r : Hbm.Range), c.hbm = some h →
      h.ranges[i]? = some r → s.hbm.mode.isOn → s.hbm.range ≠ some i →
        R s ((enterRange c i r).after s))
    (b : UInt32) : Within R (levelOf c b : Action (State σ) UInt32) := by
  intro s
  have h := enters_levelOf (c := c) b s
  generalize (levelOf c b).after s = t at h ⊢
  cases h with
  | stay => exact refl s
  | enter hh hr hb hm hi => exact henter s _ _ _ hh hr hm hi

theorem Commits.strokes (hR : Commits c R) {s t : State σ} (h : Strokes c s t) : R s t := by
  refine Action.related_of_closure (fun s t h => ?_) h
  cases h with
  | transfer hs hc hm => exact hR.errand _ _ (.task (.transfer s (.set hc hm)))
  | level level hs hd hm => exact hR.level s level _ hm
  | display d hr hg hb => exact hR.errand _ _ (.task (.display s d hr hg hb))
  | pwm p => exact hR.errand _ _ (.pwm s p)
  | backlight level bits held als bin edge => exact hR.backlight s _
  | restart => exact hR.restart s

theorem within_update (hR : Updates c R) : Within R (update c : Action (State σ) Unit) := by
  intro s
  obtain ⟨t, hst, htu⟩ := update_strokes (c := c) s
  refine IsTrans.trans _ _ _ ?_ (hR.strokes htu)
  cases hst with
  | stay => exact refl s
  | enter hh hr hb hm hi => exact hR.enter s _ _ _ hh hr hm hi

/-- A dark panel has level zero, and no range is entered for it. -/
theorem strokes_of_dark {s : State σ} (hs : s.backlight.wanted = 0) :
    Strokes c s ((update c).after s) := by
  obtain ⟨t, hst, htu⟩ := update_strokes (c := c) s
  cases hst with
  | stay => exact htu
  | enter hh hr hb hm hi => exact absurd hs hb

theorem related_update_of_dark (hR : Commits c R) (s : State σ) (hs : s.backlight.wanted = 0) :
    R s ((update c).after s) := hR.strokes (strokes_of_dark hs)

end OledPanel.Panel
