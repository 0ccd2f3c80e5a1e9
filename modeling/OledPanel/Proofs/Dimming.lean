import OledPanel.Panel.Operations
import OledPanel.Proofs.Switching

/-! What the operations of high-brightness mode leave behind. Sending commands and switching
compensation change the host and the kept register alone; starting dimming takes a vblank
reference if none is held, and ending it gives that reference back. -/

namespace OledPanel

open OledPanel.Action (Same Succeeds Within)
open Dsi (Transport)

namespace Display

/-- The display after one more reference was granted. -/
def lent (d : Display) : Display :=
  { d with references := d.references + 1, granted := d.granted + 1 }

theorem acquire_eq (d : Display) :
    acquire d = if d.refusing then .error .busy d else .ok () d.lent := rfl

end Display

namespace Panel

variable {σ : Type} [Transport σ] {c : Config}

/-! ### Commands and compensation -/

theorem announce_frame (set : Dsi.CommandSet) (s : State σ) :
    ∃ g, (announce c set).after s = { s with host := g } := by
  unfold announce
  split
  · exact ⟨_, after_onHost _ s⟩
  · rw [Action.after_get_bind, writeControl, Action.after_get_bind]
    exact ⟨_, after_onHost _ s⟩

theorem applyIrc_frame (irc : Hbm.Irc) (on : Bool) (s : State σ) :
    ∃ g b, (applyIrc irc on).after s = { s with host := g, hbm.ircBytes := b } := by
  have hput (old : List UInt8) (g : σ) : ∃ g' b, Action.after (do
      modify fun s => { s with hbm.ircBytes := some (irc.withBit on old) }
      onHost (Dsi.write irc.address (irc.withBit on old)) : Action (State σ) Unit)
        { s with host := g } = { s with host := g', hbm.ircBytes := b } := by
    rw [Action.after_modify_bind, after_onHost]
    exact ⟨_, _, rfl⟩
  rw [applyIrc, Action.after_get_bind]
  dsimp only
  cases hb : s.hbm.ircBytes with
  | some bytes => exact hput bytes s.host
  | none =>
    rw [Action.after_bind, answer_onHost, after_onHost]
    split
    · next old _ => exact hput old _
    · exact ⟨_, none, by rw [← hb]⟩

theorem updateIrc_frame (on : Bool) (s : State σ) :
    ∃ g b, (updateIrc c on).after s = { s with host := g, hbm.ircBytes := b } := by
  unfold updateIrc
  split
  · exact ⟨s.host, s.hbm.ircBytes, rfl⟩
  · next irc _ =>
    rw [Action.after_attempt_bind, after_onHost, Action.after_outcome_bind, Action.after_attempt_bind,
      Action.after_ofExcept, after_onHost]
    obtain ⟨g, b, h⟩ := applyIrc_frame irc on { s with host := irc.unlock.send.after s.host }
    exact ⟨_, b, by rw [h]⟩

/-- Nothing is owed any more afterwards. -/
theorem settleIrc_frame (s : State σ) :
    ∃ g b, (settleIrc c).after s = { s with host := g, hbm.ircBytes := b, hbm.ircOwed := false } := by
  rw [settleIrc, Action.after_get_bind]
  dsimp only
  split
  · obtain ⟨g, b, h⟩ := updateIrc_frame (c := c) true s
    exact ⟨g, b, by rw [Action.after_attempt_bind, h, Action.after_modify]⟩
  · next ho => exact ⟨s.host, s.hbm.ircBytes, by simp only [Bool.not_eq_true] at ho; rw [← ho]; rfl⟩

/-! ### Dimming -/

omit [Transport σ] in
theorem after_acquire_bind {α : Type} (f : Unit → Action (State σ) α) (s : State σ) :
    Action.after (onDisplay Display.acquire >>= f) s =
      if s.display.refusing then s else (f ()).after { s with display := s.display.lent } := by
  rw [Action.after_bind, onDisplay, Action.answer_within, Action.after_within]
  cases hr : s.display.refusing <;> simp [Action.answer, Action.after, Display.acquire_eq, hr]

omit [Transport σ] in
/-- Dimming starts only if there are frames to count and a reference is held or granted. -/
theorem startDimming_cases (frames : Nat) (stop : Hbm.Stop) (s : State σ) :
    ((startDimming frames stop).after s = s ∧
        (frames = 0 ∨ s.hbm.dimming.active = false ∧ s.display.refusing = true)) ∨
      frames ≠ 0 ∧ (startDimming frames stop).after s = { s with
        display := if s.hbm.dimming.active then s.display else s.display.lent
        hbm.dimming := { active := true, total := frames, left := frames, stop := some stop } } := by
  unfold startDimming
  by_cases hf : frames = 0
  · exact .inl ⟨by rw [if_neg (by simp [hf])]; rfl, .inl hf⟩
  · rw [if_pos hf, Action.after_get_bind]
    cases ha : s.hbm.dimming.active with
    | true => exact .inr ⟨hf, by simp⟩
    | false =>
      simp only [Bool.not_false, if_true, after_acquire_bind]
      cases hr : s.display.refusing with
      | true => exact .inl ⟨rfl, .inr ⟨trivial, rfl⟩⟩
      | false => exact .inr ⟨hf, rfl⟩

omit [Transport σ] in
theorem startDimming_frame (frames : Nat) (stop : Hbm.Stop) (s : State σ) :
    ∃ d m, (startDimming frames stop).after s = { s with display := d, hbm.dimming := m } := by
  obtain ⟨h, -⟩ | ⟨-, h⟩ := startDimming_cases frames stop s
  · exact ⟨s.display, s.hbm.dimming, h⟩
  · exact ⟨_, _, h⟩

theorem stopDimming_of_idle {s : State σ} (ha : s.hbm.dimming.active = false) :
    (stopDimming c).after s = s := by
  rw [stopDimming, Action.after_get_bind]
  simp [ha]

theorem stopDimming_frame {s : State σ} (ha : s.hbm.dimming.active = true) :
    ∃ g b, (stopDimming c).after s = { s with
      host := g
      display := s.display.release
      hbm := { s.hbm with dimming := {}, ircBytes := b, ircOwed := false } } := by
  have hsettle (g : σ) : ∃ g' b, (settleIrc c).after
      { s with host := g, display := s.display.release, hbm.dimming := {} } = { s with
        host := g'
        display := s.display.release
        hbm := { s.hbm with dimming := {}, ircBytes := b, ircOwed := false } } := settleIrc_frame _
  rw [stopDimming, Action.after_get_bind]
  dsimp only
  rw [if_pos ha, Action.after_set_bind]
  cases s.hbm.dimming.stop with
  | none => exact hsettle s.host
  | some stop =>
    dsimp only
    split
    · rw [Action.after_attempt_bind]
      obtain ⟨g, hg⟩ := announce_frame (c := c) (stopSet c stop)
        { s with display := s.display.release, hbm.dimming := {} }
      rw [hg]
      exact hsettle g
    · exact hsettle s.host

omit [Transport σ] in
theorem restartDimming_frame (s : State σ) : ∃ m, restartDimming s = { s with hbm.dimming := m } := by
  unfold restartDimming
  split
  · exact ⟨_, rfl⟩
  · exact ⟨s.hbm.dimming, rfl⟩

theorem related_stopDimming {R : State σ → State σ → Prop} [IsPreorder (State σ) R] {s : State σ}
    (h : s.hbm.dimming.active = true → ∀ g b, R s { s with
      host := g
      display := s.display.release
      hbm := { s.hbm with dimming := {}, ircBytes := b, ircOwed := false } }) :
    R s ((stopDimming c).after s) := by
  cases ha : s.hbm.dimming.active with
  | false =>
    rw [stopDimming_of_idle ha]
    exact refl s
  | true =>
    obtain ⟨g, b, hs⟩ := stopDimming_frame (c := c) ha
    rw [hs]
    exact h ha g b

theorem stopDimming_idle (s : State σ) : ((stopDimming c).after s).hbm.dimming.active = false := by
  cases ha : s.hbm.dimming.active with
  | false =>
    rw [stopDimming_of_idle ha]
    exact ha
  | true =>
    obtain ⟨g, b, hs⟩ := stopDimming_frame (c := c) ha
    rw [hs]

/-- The frames left after one more has come, or after counting is given up. -/
def framesAfter (m : Hbm.Dimming) (arrived : Bool) : Nat := if arrived then m.left - 1 else 0

theorem countFrame_of_idle {s : State σ} (ha : s.hbm.dimming.active = false) (arrived : Bool) :
    (countFrame c arrived).after s = s := by
  rw [countFrame, Action.after_get_bind]
  simp [ha]

theorem countFrame_of_active {s : State σ} (ha : s.hbm.dimming.active = true) (arrived : Bool) :
    (countFrame c arrived).after s = if framesAfter s.hbm.dimming arrived = 0
      then (stopDimming c).after { s with hbm.dimming.left := 0 }
      else { s with hbm.dimming.left := framesAfter s.hbm.dimming arrived } := by
  rw [countFrame, Action.after_get_bind]
  dsimp only
  rw [if_pos ha, Action.after_set_bind]
  change Action.after (if framesAfter s.hbm.dimming arrived = 0 then stopDimming c else pure ())
    { s with hbm.dimming.left := framesAfter s.hbm.dimming arrived } = _
  split
  · next h => rw [h]
  · rfl

theorem related_countFrame {R : State σ → State σ → Prop} [IsPreorder (State σ) R] {s : State σ}
    (arrived : Bool)
    (hstop : s.hbm.dimming.active = true → R s ((stopDimming c).after { s with hbm.dimming.left := 0 }))
    (hcount : s.hbm.dimming.active = true → framesAfter s.hbm.dimming arrived ≠ 0 →
      R s { s with hbm.dimming.left := framesAfter s.hbm.dimming arrived }) :
    R s ((countFrame c arrived).after s) := by
  cases ha : s.hbm.dimming.active with
  | false =>
    rw [countFrame_of_idle ha]
    exact refl s
  | true =>
    rw [countFrame_of_active ha]
    split
    · exact hstop ha
    · next hn => exact hcount ha hn

/-- Counting frames has nothing to do with timings. -/
theorem refresh_countFrame (arrived : Bool) (s : State σ) :
    ((countFrame c arrived).after s).refresh = s.refresh := by
  have hstop (t : State σ) : Same State.refresh t ((stopDimming c).after t) :=
    related_stopDimming fun _ _ _ => rfl
  have hcount : Same State.refresh s ((countFrame c arrived).after s) :=
    related_countFrame arrived (fun _ => hstop { s with hbm.dimming.left := 0 }) fun _ _ => rfl
  exact hcount

/-! ### Ranges -/

theorem enterRange_frame (i : Nat) (r : Hbm.Range) (s : State σ) :
    ∃ g, (enterRange c i r).after s =
      { (startDimming r.frames (.range i)).after s with host := g, hbm.range := some i } := by
  rw [enterRange, Action.after_attempt_bind, Action.after_modify_bind]
  exact announce_frame r.entry _

theorem exitRanges_frame (h : Hbm.Config) (s : State σ) :
    ∃ g, (exitRanges c h).after s =
      { (startDimming h.exitFrames .exit).after s with host := g, hbm.range := none } := by
  rw [exitRanges, Action.after_attempt_bind, Action.after_attempt_bind, Action.after_modify]
  obtain ⟨g, hg⟩ := announce_frame (c := c) h.exit ((startDimming h.exitFrames .exit).after s)
  exact ⟨g, by rw [hg]⟩

theorem followSunlight_eq (previous mode : HbmMode) (s : State σ) :
    (followSunlight c previous mode).after s =
      if mode = .sunlight then (updateIrc c false).after s
      else if previous = .sunlight then
        if s.hbm.dimming.active then { s with hbm.ircOwed := true } else (updateIrc c true).after s
      else s := by
  unfold followSunlight
  split
  · rfl
  · split
    · rw [Action.after_get_bind]
      split <;> rfl
    · rfl

theorem followSunlight_frame (previous mode : HbmMode) (s : State σ) :
    ∃ g b o, (followSunlight c previous mode).after s =
      { s with host := g, hbm.ircBytes := b, hbm.ircOwed := o } := by
  have hirc (on : Bool) : ∃ g b o, (updateIrc c on).after s =
      { s with host := g, hbm.ircBytes := b, hbm.ircOwed := o } := by
    obtain ⟨g, b, h⟩ := updateIrc_frame (c := c) on s
    exact ⟨g, b, s.hbm.ircOwed, h⟩
  rw [followSunlight_eq]
  split
  · exact hirc false
  · split
    · split
      · exact ⟨s.host, s.hbm.ircBytes, true, rfl⟩
      · exact hirc true
    · exact ⟨s.host, s.hbm.ircBytes, s.hbm.ircOwed, rfl⟩

theorem succeeds_exitRanges (h : Hbm.Config) :
    Succeeds (exitRanges c h : Action (State σ) Unit) :=
  (Succeeds.attempt _).bind fun _ => (Succeeds.attempt _).bind fun _ => Succeeds.modify _

theorem succeeds_followSunlight (previous mode : HbmMode) :
    Succeeds (followSunlight c previous mode : Action (State σ) Unit) := by
  unfold followSunlight
  split
  · exact Succeeds.attempt _
  · split
    · refine Succeeds.get fun t => ?_
      split
      · exact Succeeds.modify _
      · exact Succeeds.attempt _
    · exact Succeeds.pure ()

/-- A change of the mode in the order of its parts. -/
theorem changeHbm_eq (h : Hbm.Config) (mode : HbmMode) (s : State σ) :
    (changeHbm c h mode).after s = Action.after (do update c; notify (.changed .hbmMode))
      ((followSunlight c s.hbm.mode mode).after
        (if mode = .off then (exitRanges c h).after { s with hbm.mode := mode }
          else { s with hbm.mode := mode })) := by
  rw [changeHbm, Action.after_get_bind, Action.after_modify_bind]
  dsimp only
  split
  · rw [(succeeds_exitRanges h).after_bind, (succeeds_followSunlight _ mode).after_bind]
  · rw [(succeeds_followSunlight _ mode).after_bind]

/-- What holds of the parts of a change of the mode holds of the change. -/
theorem related_changeHbm {R : State σ → State σ → Prop} [IsPreorder (State σ) R]
    (hR : ∀ s t, Task c s t → R s t) (hu : Within R (update c : Action (State σ) Unit))
    {h : Hbm.Config} {mode : HbmMode} {s : State σ}
    (hfollow : Within R (followSunlight c s.hbm.mode mode : Action (State σ) Unit))
    (hmode : R s (if mode = .off then (exitRanges c h).after { s with hbm.mode := mode }
      else { s with hbm.mode := mode })) :
    R s ((changeHbm c h mode).after s) := by
  have hrest : Within R (do update c; notify (.changed .hbmMode) : Action (State σ) Unit) :=
    hu.bind fun _ => within_of_tasks hR (tasks_notify _)
  rw [changeHbm_eq]
  exact IsTrans.trans _ _ _ hmode (IsTrans.trans _ _ _ (hfollow _) (hrest _))

/-! ### Relations that do not look at dimming -/

/-- Tasks are admitted, and whatever dimming and the range in force change. -/
structure Blind (c : Config) (R : State σ → State σ → Prop) : Prop where
  task : ∀ s t, Task c s t → R s t
  dims : ∀ (s : State σ) (d : Display) (m : Hbm.Dimming) (i : Option Nat),
    R s { s with display := d, hbm := { s.hbm with dimming := m, range := i } }

section

variable {R : State σ → State σ → Prop} [IsPreorder (State σ) R]

theorem has_stopSet (stop : Hbm.Stop) : c.Has (stopSet c stop) := by
  unfold stopSet
  split
  · next h i hh =>
    cases hr : h.ranges[i]? with
    | none => exact .empty
    | some r => exact .stop hh (List.mem_of_getElem? hr)
  · next h hh => exact .exitStop hh
  · exact .empty

omit [IsPreorder (State σ) R] in
theorem within_startDimming (hR : Blind c R) (frames : Nat) (stop : Hbm.Stop) :
    Within R (startDimming frames stop : Action (State σ) Unit) := by
  intro s
  obtain ⟨d, m, h⟩ := startDimming_frame frames stop s
  rw [h]
  exact hR.dims s d m s.hbm.range

theorem within_enterRange (hR : Blind c R) {h : Hbm.Config} (hh : c.hbm = some h) {i : Nat}
    {r : Hbm.Range} (hr : h.ranges[i]? = some r) :
    Within R (enterRange c i r : Action (State σ) Unit) := by
  refine (within_startDimming hR _ _).attempt.bind fun _ => ?_
  refine Within.bind (fun s => hR.dims s s.display s.hbm.dimming (some i)) fun _ => ?_
  exact within_of_tasks hR.task (tasks_announce (.entry hh (List.mem_of_getElem? hr)))

theorem within_exitRanges (hR : Blind c R) {h : Hbm.Config} (hh : c.hbm = some h) :
    Within R (exitRanges c h : Action (State σ) Unit) := by
  refine (within_startDimming hR _ _).attempt.bind fun _ => ?_
  refine (within_of_tasks hR.task (tasks_announce (.exit hh))).attempt.bind fun _ => ?_
  exact fun s => hR.dims s s.display s.hbm.dimming none

theorem within_stopDimming (hR : Blind c R) (hs : Within R (settleIrc c : Action (State σ) Unit)) :
    Within R (stopDimming c : Action (State σ) Unit) := by
  intro s
  rw [stopDimming, Action.after_get_bind]
  dsimp only
  split
  · rw [Action.after_set_bind]
    refine IsTrans.trans _ _ _ (hR.dims s s.display.release {} s.hbm.range) ?_
    cases s.hbm.dimming.stop with
    | none => exact hs _
    | some stop =>
      refine Within.ite (fun _ => ?_) (fun _ => hs) _
      exact (within_of_tasks hR.task (tasks_announce (has_stopSet stop))).attempt.bind fun _ => hs
  · exact refl s

theorem within_countFrame (hR : Blind c R) (hs : Within R (settleIrc c : Action (State σ) Unit))
    (arrived : Bool) : Within R (countFrame c arrived : Action (State σ) Unit) := by
  intro s
  rw [countFrame, Action.after_get_bind]
  dsimp only
  split
  · rw [Action.after_set_bind]
    refine IsTrans.trans _ _ _ (hR.dims s s.display
      { s.hbm.dimming with left := framesAfter s.hbm.dimming arrived } s.hbm.range) ?_
    exact Within.ite (fun _ => within_stopDimming hR hs) (fun _ => Within.pure _) _
  · exact refl s

omit [IsPreorder (State σ) R] in
theorem related_restartDimming (hR : Blind c R) (s : State σ) : R s (restartDimming s) := by
  obtain ⟨m, hm⟩ := restartDimming_frame s
  rw [hm]
  exact hR.dims s s.display m s.hbm.range

end

/-! ### Compensation and relations -/

/-- The compensation of a panel, if it has any. -/
def Config.irc? (c : Config) : Option Hbm.Irc := c.hbm.bind (·.irc)

/-- Tasks are admitted, and whatever compensation sends and keeps. -/
structure Compensates (c : Config) (R : State σ → State σ → Prop) : Prop where
  task : ∀ s t, Task c s t → R s t
  ask : ∀ (s : State σ) (irc : Hbm.Irc), c.irc? = some irc →
    R s { s with host := (Dsi.transfer (Dsi.question irc.address irc.size)).after s.host }
  store : ∀ (s : State σ) (irc : Hbm.Irc) (bytes : List UInt8) (m : Dsi.Message), c.irc? = some irc →
    m ∈ Dsi.plain? (irc.address :: bytes) true → R s { s with host := (Dsi.transfer m).after s.host }
  keep : ∀ (s : State σ) (b : Option (List UInt8)) (o : Bool),
    R s { s with hbm := { s.hbm with ircBytes := b, ircOwed := o } }

section

variable {R : State σ → State σ → Prop} [IsPreorder (State σ) R]

theorem within_applyIrc (hR : Compensates c R) {irc : Hbm.Irc} (hirc : c.irc? = some irc) (on : Bool) :
    Within R (applyIrc irc on : Action (State σ) Unit) := by
  have hput (old : List UInt8) : Within R (do
      modify fun s => { s with hbm.ircBytes := some (irc.withBit on old) }
      onHost (Dsi.write irc.address (irc.withBit on old)) : Action (State σ) Unit) := by
    refine Within.bind (fun s => hR.keep s _ s.hbm.ircOwed) fun _ s => ?_
    rw [after_onHost]
    exact related_of_sends s (Dsi.within_write _ _ (fun m hm => hm) s.host)
      fun h m hm => hR.store { s with host := h } irc _ m hirc hm
  refine Within.get fun s => ?_
  dsimp only
  cases s.hbm.ircBytes with
  | some bytes => exact hput bytes
  | none =>
    refine Within.bind (fun t => ?_) hput
    rw [after_onHost]
    refine related_of_sends t (irc.within_fetch rfl t.host) ?_
    rintro h m rfl
    exact hR.ask { t with host := h } irc hirc

theorem within_updateIrc (hR : Compensates c R) (on : Bool) :
    Within R (updateIrc c on : Action (State σ) Unit) := by
  unfold updateIrc
  split
  · exact Within.throw _
  · next irc hirc =>
    obtain ⟨h, hh, hi⟩ := Option.bind_eq_some_iff.mp hirc
    refine (within_of_tasks hR.task (tasks_send (.unlock hh hi))).attempt.bind fun _ => ?_
    refine (within_applyIrc hR hirc on).outcome.bind fun r => ?_
    refine (within_of_tasks hR.task (tasks_send (.lock hh hi))).attempt.bind fun _ => ?_
    exact Within.ofExcept r

theorem within_settleIrc (hR : Compensates c R) :
    Within R (settleIrc c : Action (State σ) Unit) := by
  refine Within.get fun s => Within.ite (fun _ => ?_) fun _ => Within.pure _
  exact (within_updateIrc hR true).attempt.bind fun _ s => hR.keep s s.hbm.ircBytes false

theorem within_followSunlight (hR : Compensates c R) (previous mode : HbmMode) :
    Within R (followSunlight c previous mode : Action (State σ) Unit) := by
  refine Within.ite (fun _ => (within_updateIrc hR false).attempt) fun _ => ?_
  refine Within.ite (fun _ => Within.get fun s => ?_) fun _ => Within.pure _
  exact Within.ite (fun _ s => hR.keep s s.hbm.ircBytes true)
    fun _ => (within_updateIrc hR true).attempt

end

/-! ### Relations that do not look at the high-brightness mode -/

/-- Besides what compensation is made of, any mode, range and dimming are admitted. -/
structure Unaware (c : Config) (R : State σ → State σ → Prop) : Prop
    extends Blind c R, Compensates c R where
  mode : ∀ (s : State σ) (mode : HbmMode), R s { s with hbm.mode := mode }

section

variable {R : State σ → State σ → Prop} [IsPreorder (State σ) R]

theorem Unaware.stopDimming (hR : Unaware c R) :
    Within R (stopDimming c : Action (State σ) Unit) :=
  within_stopDimming hR.toBlind (within_settleIrc hR.toCompensates)

theorem Unaware.countFrame (hR : Unaware c R) (arrived : Bool) :
    Within R (countFrame c arrived : Action (State σ) Unit) :=
  within_countFrame hR.toBlind (within_settleIrc hR.toCompensates) arrived

theorem within_changeHbm (hR : Unaware c R) (hu : Within R (update c : Action (State σ) Unit))
    {h : Hbm.Config} (hh : c.hbm = some h) (mode : HbmMode) :
    Within R (changeHbm c h mode : Action (State σ) Unit) := by
  have hrest (previous : HbmMode) : Within R (do
      followSunlight c previous mode
      update c
      notify (.changed .hbmMode) : Action (State σ) Unit) := by
    refine (within_followSunlight hR.toCompensates previous mode).bind fun _ => hu.bind fun _ => ?_
    exact within_of_tasks hR.task (tasks_notify _)
  refine Within.get fun s => ?_
  refine Within.bind (fun s => hR.mode s mode) fun _ => ?_
  exact Within.ite (fun _ => (within_exitRanges hR.toBlind hh).bind fun _ => hrest _) fun _ => hrest _

end

/-! ### Taking the panel out of use -/

theorem succeeds_stopDimming : Succeeds (stopDimming c : Action (State σ) Unit) := by
  have hsettle : Succeeds (settleIrc c : Action (State σ) Unit) := by
    refine Succeeds.get fun s => ?_
    split
    · exact (Succeeds.attempt _).bind fun _ => Succeeds.modify _
    · exact Succeeds.pure ()
  refine Succeeds.get fun s => ?_
  split
  · refine Succeeds.bind (fun _ => ⟨⟨⟩, rfl⟩) fun _ => ?_
    cases s.hbm.dimming.stop with
    | none => exact hsettle
    | some stop =>
      dsimp only
      split
      · exact (Succeeds.attempt _).bind fun _ => hsettle
      · exact hsettle
  · exact Succeeds.pure ()

theorem succeeds_countFrame (arrived : Bool) :
    Succeeds (countFrame c arrived : Action (State σ) Unit) := by
  refine Succeeds.get fun s => Succeeds.ite (fun _ => ?_) fun _ => Succeeds.pure ()
  refine Succeeds.bind (fun _ => ⟨⟨⟩, rfl⟩) fun _ => ?_
  exact Succeeds.ite (fun _ => succeeds_stopDimming) fun _ => Succeeds.pure ()

theorem succeeds_shutDown : Succeeds (shutDown c : Action (State σ) Unit) :=
  (Succeeds.modify _).bind fun _ => succeeds_stopDimming.bind fun _ => Succeeds.modify _

omit [Transport σ] in
/-- Only before low power the first phase of a transition has anything to do. -/
theorem earlyDpms_off : (earlyDpms .off : Action (State σ) Unit) = pure () := rfl

omit [Transport σ] in
theorem earlyDpms_on : (earlyDpms .on : Action (State σ) Unit) = pure () := rfl

omit [Transport σ] in
theorem succeeds_enterDpms (d : Dpms) : Succeeds (enterDpms d : Action (State σ) Unit) := by
  refine Succeeds.get fun s => ?_
  dsimp only
  split
  · exact (Succeeds.attempt _).bind fun _ => Succeeds.modify _
  · exact Succeeds.modify _

theorem lateDpms_eq (d : Dpms) (s : State σ) : (lateDpms c d).after s =
    (notify (.changed .state)).after ((update c).after ((enterDpms d).after s)) := by
  rw [lateDpms, (succeeds_enterDpms d).after_bind, Action.after_attempt_bind]

theorem shutDown_eq (s : State σ) : (shutDown c).after s =
    { (stopDimming c).after { s with initialized := false } with
      hbm.ircBytes := none
      hbm.range := none } := by
  rw [shutDown, Action.after_modify_bind, succeeds_stopDimming.after_bind, Action.after_modify]

/-- Whatever the commands to power off come to, the panel is shut down. -/
theorem disable_eq (s : State σ) : (disable c).after s = (lateDpms c .off).after ((shutDown c).after
    { (drain c).after s with host := c.sets.off.send.after ((drain c).after s).host }) := by
  rw [disable, succeeds_drain.after_bind, earlyDpms_off, Action.after_pure_bind,
    Action.after_outcome_bind, succeeds_shutDown.after_bind, Action.after_bind_ofExcept, after_onHost]

end Panel
end OledPanel
