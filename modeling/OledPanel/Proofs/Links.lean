import OledPanel.Proofs.Moments
import OledPanel.Proofs.Phases

/-! Between the moments of a run dimming and its vblank references stay what they are, whatever is sent
to the host meanwhile. So the moments are linked, each finding what the one before it left, from the
first state of the run to its last. -/

namespace OledPanel.Panel

open OledPanel.Action (Given Within)
open Dsi (Transport)

variable {σ α : Type}

/-- A start has frames to count and a reference that is held or granted, and frames are counted
while dimming is active. -/
def Moment.Apt (m : Moment σ) : Prop :=
  match m.beat with
  | .start frames _ =>
    frames ≠ 0 ∧ (m.found.hbm.dimming.active = true ∨ m.found.display.refusing = false)
  | .frame => m.found.hbm.dimming.active = true
  | .restart | .failure | .shutDown => True

variable [Transport σ]

def Beat.act (c : Config) : Beat → State σ → State σ
  | .start frames stop => (startDimming frames stop).after
  | .restart => restartDimming
  | .frame => (countFrame c true).after
  | .failure => (countFrame c false).after
  | .shutDown => (Panel.shutDown c).after

/-- The state a moment leaves. -/
def Moment.left (c : Config) (m : Moment σ) : State σ := m.beat.act c m.found

/-- Dimming and the vblank references held are the same, and nothing becomes of the host but by what
it is sent. -/
structure Lull (s t : State σ) : Prop where
  dimming : t.hbm.dimming = s.hbm.dimming
  references : t.display.references = s.display.references
  sent : Hands (fun _ => True) s t

instance : IsPreorder (State σ) Lull where
  refl s := ⟨rfl, rfl, refl s⟩
  trans _ _ _ h k := ⟨k.dimming.trans h.dimming, k.references.trans h.references,
    IsTrans.trans _ _ _ h.sent k.sent⟩

/-- Nothing but a lull lies before the first moment, between moments, and after the last. -/
def Linked (c : Config) (s : State σ) : List (Moment σ) → State σ → Prop
  | [], t => Lull s t
  | m :: ms, t => Lull s m.found ∧ m.Apt ∧ Linked c (m.left c) ms t

variable {c : Config}

/-- Nothing comes of dimming before the moments. -/
theorem Linked.after_lull {s t u : State σ} {ms : List (Moment σ)} (h : Lull s t)
    (k : Linked c t ms u) : Linked c s ms u := by
  cases ms with
  | nil => exact IsTrans.trans _ _ _ h k
  | cons m ms => exact ⟨IsTrans.trans _ _ _ h k.1, k.2⟩

theorem Linked.append {s t u : State σ} {ms ns : List (Moment σ)} (h : Linked c s ms t)
    (k : Linked c t ns u) : Linked c s (ms ++ ns) u := by
  induction ms generalizing s with
  | nil => exact Linked.after_lull h k
  | cons m ms ih => exact ⟨h.1, h.2.1, ih h.2.2⟩

/-- Nothing comes of dimming after the moments. -/
theorem Linked.then_lull {s t u : State σ} {ms : List (Moment σ)} (h : Linked c s ms t)
    (k : Lull t u) : Linked c s ms u := by
  rw [← List.append_nil ms]
  exact h.append k

theorem Linked.split {s u : State σ} {ms ns : List (Moment σ)} (h : Linked c s (ms ++ ns) u) :
    ∃ t, Linked c s ms t ∧ Linked c t ns u := by
  induction ms generalizing s with
  | nil => exact ⟨s, refl s, h⟩
  | cons m ms ih =>
    obtain ⟨hm, hapt, hrest⟩ := h
    obtain ⟨t, hms, hns⟩ := ih hrest
    exact ⟨t, ⟨hm, hapt, hms⟩, hns⟩

/-- The moments of an action link the state it finds to the state it leaves. -/
def Traced (c : Config) (x : Action (State σ) α) (ms : State σ → List (Moment σ)) : Prop :=
  ∀ s, Linked c s (ms s) (x.after s)

/-! ### Lull -/

theorem lull_of_host {s t : State σ} (hd : t.hbm.dimming = s.hbm.dimming)
    (hr : t.display.references = s.display.references) (hh : t.host = s.host) : Lull s t := by
  refine ⟨hd, hr, ?_⟩
  rw [Hands, hh]
  exact refl s.host

theorem lull_transfer (s : State σ) (m : Dsi.Message) :
    Lull s { s with host := (Dsi.transfer m).after s.host } := ⟨rfl, rfl, .single ⟨m, trivial, rfl⟩⟩

theorem lull_chore (s t : State σ) (h : Chore c s t) : Lull s t := by
  cases h with
  | transfer hm => exact lull_transfer s _
  | display d hr hg hb => exact lull_of_host rfl hr rfl
  | _ => exact lull_of_host rfl rfl rfl

theorem lull_task (s t : State σ) (h : Task c s t) : Lull s t := lull_chore s t h.chore

theorem lull_compensates : Compensates c (Lull : State σ → State σ → Prop) where
  task := lull_task
  ask s _ _ := lull_transfer s _
  store s _ _ _ _ _ := lull_transfer s _
  keep _ _ _ := lull_of_host rfl rfl rfl

theorem lull_chores {x : Action (State σ) α} (hx : Within (Chores c) x) : Within Lull x :=
  within_of_chores lull_chore hx

theorem lull_errands {x : Action (State σ) α} (hx : Within (Errands c) x) : Within Lull x :=
  fun s => related_of_chores lull_chore (hx s).chores

theorem lull_tasks {x : Action (State σ) α} (hx : Within (Tasks c) x) : Within Lull x :=
  within_of_tasks lull_task hx

theorem lull_drain (s : State σ) : Lull s ((drain c).after s) := lull_tasks tasks_drain s

theorem lull_send (set : Dsi.CommandSet) (s : State σ) :
    Lull s { s with host := set.send.after s.host } :=
  ⟨rfl, rfl, set.within_send (fun _ _ => trivial) s.host⟩

/-! ### Updates -/

omit [Transport σ] in
theorem startDimming_of_refused {frames : Nat} {stop : Hbm.Stop} {s : State σ}
    (h : ¬(frames ≠ 0 ∧ (s.hbm.dimming.active = true ∨ s.display.refusing = false))) :
    (startDimming frames stop).after s = s := by
  unfold startDimming
  by_cases hf : frames = 0
  · rw [if_neg (by simp [hf])]
    rfl
  · have hidle : s.hbm.dimming.active = false ∧ s.display.refusing = true := by simpa [hf] using h
    rw [if_pos hf, Action.after_get_bind]
    simp only [hidle, Bool.not_false, if_true, after_acquire_bind]

theorem traced_startDimming (frames : Nat) (stop : Hbm.Stop) :
    Traced c (startDimming frames stop : Action (State σ) Unit) (startMoments frames stop) := by
  intro s
  unfold startMoments
  split
  · next h => exact ⟨refl s, h, refl _⟩
  · next h =>
    rw [startDimming_of_refused h]
    exact refl s

theorem traced_enterRange {h : Hbm.Config} (hh : c.hbm = some h) {i : Nat} {r : Hbm.Range}
    (hr : h.ranges[i]? = some r) :
    Traced c (enterRange c i r : Action (State σ) Unit) (startMoments r.frames (.range i)) := by
  intro s
  have hannounce : Within Lull (announce c r.entry : Action (State σ) Unit) :=
    lull_tasks (tasks_announce (.entry hh (List.mem_of_getElem? hr)))
  rw [enterRange, Action.after_attempt_bind, Action.after_modify_bind]
  refine (traced_startDimming r.frames (.range i) s).then_lull (IsTrans.trans _ _ _ ?_ (hannounce _))
  exact lull_of_host rfl rfl rfl

theorem traced_exitRanges {h : Hbm.Config} (hh : c.hbm = some h) :
    Traced c (exitRanges c h : Action (State σ) Unit) (startMoments h.exitFrames .exit) := by
  intro s
  have hannounce : Within Lull (announce c h.exit : Action (State σ) Unit) :=
    lull_tasks (tasks_announce (.exit hh))
  rw [exitRanges, Action.after_attempt_bind, Action.after_attempt_bind, Action.after_modify]
  refine (traced_startDimming h.exitFrames .exit s).then_lull ?_
  exact IsTrans.trans _ _ _ (hannounce _) (lull_of_host rfl rfl rfl)

theorem traced_levelOf (b : UInt32) :
    Traced c (levelOf c b : Action (State σ) UInt32) (levelMoments c b) := by
  intro s
  unfold levelOf levelMoments
  by_cases hb : b = 0
  · rw [if_pos hb, if_neg (by simp [hb])]
    exact refl s
  · rw [if_neg hb, Action.after_get_bind]
    dsimp only
    by_cases hm : s.hbm.mode.isOn = true
    · rw [if_pos hm, if_pos ⟨hb, hm⟩]
      unfold hbmLevel
      cases hh : c.hbm with
      | none => exact refl s
      | some h =>
        rw [Option.bind_some]
        dsimp only
        cases ht : target? h (Brightness.scale b s.backlight.factor s.backlight.sunlightFactor) with
        | none => exact refl s
        | some target =>
          obtain ⟨i, r⟩ := target
          dsimp only
          rw [Action.after_get_bind]
          split
          · rw [Action.after_bind_ofExcept]
            exact traced_enterRange hh (target?_eq ht) s
          · rw [Action.after_ofExcept]
            exact refl s
    · rw [if_neg hm, if_neg (by simp [hm]), Action.after_ofExcept]
      exact refl s

/-- Dimming that is active has all its frames still to count. -/
def Fresh (s : State σ) : Prop :=
  s.hbm.dimming.active = true → s.hbm.dimming.left = s.hbm.dimming.total

omit [Transport σ] in
theorem fresh_restartDimming (s : State σ) : Fresh (restartDimming s) := by
  unfold restartDimming
  split
  · exact fun _ => rfl
  · next ha => exact fun h => absurd h ha

theorem Fresh.restart {s : State σ} (hs : Fresh s) : Lull s (restartDimming s) := by
  unfold restartDimming
  split
  · next ha =>
    refine lull_of_host ?_ rfl rfl
    show { s.hbm.dimming with left := s.hbm.dimming.total } = s.hbm.dimming
    rw [← hs ha]
  · exact refl s

/-- Bringing out a level touches dimming by starting the count again and by nothing else, which is
nothing to dimming that has all its frames still to count. -/
theorem Fresh.strokes {s t : State σ} (hs : Fresh s) (h : Strokes c s t) : Lull s t := by
  have hstroke (s t : State σ) (h : Stroke c s t) : Given Fresh Lull s t := by
    intro hs
    cases h with
    | transfer _ _ _ | level _ _ _ _ => exact ⟨hs, lull_transfer s _⟩
    | restart => exact ⟨fresh_restartDimming s, hs.restart⟩
    | display d hr hg hb => exact ⟨hs, lull_of_host rfl hr rfl⟩
    | _ => exact ⟨hs, lull_of_host rfl rfl rfl⟩
  have hrel : Given Fresh Lull s t := Action.related_of_closure hstroke h
  exact (hrel hs).2

/-- At an open gate a level that is brought out starts the count again, whatever comes of it. -/
theorem linked_commit (b level : UInt32) (s : State σ) :
    Linked c s (if s.backlight.gateOpen then [⟨s, .restart⟩] else []) ((commit c b level).after s) := by
  cases hg : s.backlight.gateOpen with
  | false =>
    rw [commit_of_shut hg]
    exact lull_of_host (s := s) rfl rfl rfl
  | true =>
  cases hi : s.initialized with
  | false =>
    rw [commit_of_unpowered hg hi, if_pos rfl]
    exact ⟨refl s, trivial, lull_of_host (s := restartDimming s) rfl rfl rfl⟩
  | true =>
  have hlive : (restartDimming s).Live := by
    obtain ⟨m, hm⟩ := restartDimming_frame s
    rw [hm]
    exact ⟨hi, hg⟩
  have hpresent : Lull (restartDimming s) ((present c b level).after (restartDimming s)) :=
    (fresh_restartDimming s).strokes (brings_present (c := c) b level _ hlive).2
  rw [commit_of_live ⟨hi, hg⟩, if_pos rfl]
  refine ⟨refl s, trivial, ?_⟩
  split
  · exact IsTrans.trans _ _ _ hpresent (lull_of_host rfl rfl rfl)
  · exact hpresent

theorem linked_updateLevel (s : State σ) :
    Linked c s (updateMoments c s) ((updateLevel c).after s) := by
  have hlevel : Linked c s (levelMoments c s.backlight.wanted s) _ :=
    traced_levelOf s.backlight.wanted s
  refine hlevel.append ?_
  cases hl : (levelOf c s.backlight.wanted).answer s with
  | error e =>
    rw [updateLevel_of_not_found hl]
    exact refl ((levelOf c s.backlight.wanted).after s)
  | ok level =>
    rw [updateLevel_of_found hl]
    dsimp only
    by_cases hshows : ((levelOf c s.backlight.wanted).after s).shows level = true
    · rw [if_pos hshows, if_neg (by simp [hshows])]
      exact refl ((levelOf c s.backlight.wanted).after s)
    · have hcommit := linked_commit (c := c) s.backlight.wanted level
        ((levelOf c s.backlight.wanted).after s)
      rw [if_neg hshows]
      simpa only [hshows, Bool.not_false, Bool.true_and] using hcommit

theorem traced_update : Traced c (update c : Action (State σ) Unit) (updateMoments c) := by
  intro s
  obtain ⟨d, hr, -, -, h⟩ := update_frame (c := c) s
  rw [h]
  refine (linked_updateLevel s).then_lull ?_
  exact lull_of_host rfl hr rfl

/-! ### Requests -/

theorem traced_setBrightness (b : UInt32) :
    Traced c (setBrightness c b : Action (State σ) Unit) (brightnessMoments c b) := by
  intro s
  unfold setBrightness brightnessMoments
  dsimp only
  split
  · exact refl s
  · refine Linked.after_lull ?_ (traced_update _)
    exact lull_of_host rfl rfl rfl

theorem traced_setScale (factor sunlightFactor : UInt32) :
    Traced c (setScale c factor sunlightFactor : Action (State σ) Unit)
      (scaleMoments c factor sunlightFactor) := by
  intro s
  unfold setScale scaleMoments
  dsimp only
  split
  · exact refl s
  · refine Linked.after_lull ?_ (traced_update _)
    exact lull_of_host rfl rfl rfl

theorem traced_lateDpms (d : Dpms) :
    Traced c (lateDpms c d : Action (State σ) Unit) (lateMoments c d) := by
  intro s
  rw [lateDpms_eq]
  refine Linked.after_lull (lull_chores (chores_enterDpms (c := c) d) s) ?_
  exact (traced_update _).then_lull (lull_chores (chores_notify (c := c) _) _)

theorem traced_transition (d : Dpms) (set : Dsi.CommandSet) :
    Traced c (transition c d set : Action (State σ) Unit) (transitionMoments c d set) := by
  intro s
  have hearly : Lull s ((earlyDpms d).after s) := lull_chores (chores_earlyDpms (c := c) d) s
  rw [transition, Action.after_bind, transitionMoments]
  cases (earlyDpms d).answer s with
  | error e => exact hearly
  | ok u =>
    dsimp only
    rw [Action.after_outcome_bind, Action.after_bind_ofExcept, after_onHost]
    exact Linked.after_lull (IsTrans.trans _ _ _ hearly (lull_send set _)) (traced_lateDpms d _)

theorem traced_enable : Traced c (enable c : Action (State σ) Unit) (enableMoments c) := by
  intro s
  rw [enable, earlyDpms_on, Action.after_pure_bind, Action.after_bind, answer_onHost, after_onHost,
    enableMoments]
  have hsend : Lull s { s with host := c.sets.on.send.after s.host } := lull_send c.sets.on s
  cases c.sets.on.send.answer s.host with
  | error e => exact hsend
  | ok u =>
    dsimp only
    rw [Action.after_modify_bind]
    have hpowered : Lull s (powered c { s with host := c.sets.on.send.after s.host }) :=
      IsTrans.trans _ _ _ hsend (lull_of_host rfl rfl rfl)
    exact Linked.after_lull hpowered (traced_lateDpms .on _)

theorem traced_disable : Traced c (disable c : Action (State σ) Unit) (disableMoments c) := by
  intro s
  rw [disable_eq]
  have hoff := IsTrans.trans _ _ _ (lull_drain (c := c) s) (lull_send c.sets.off _)
  exact ⟨hoff, trivial, traced_lateDpms .off _⟩

theorem traced_drain_bind {x : Action (State σ) α} {ms : State σ → List (Moment σ)}
    (hx : Traced c x ms) : Traced c (drain c >>= fun _ => x) fun s => ms ((drain c).after s) := by
  intro s
  rw [succeeds_drain.after_bind]
  exact Linked.after_lull (lull_drain s) (hx _)

theorem traced_enterLp1 : Traced c (enterLp1 c : Action (State σ) Unit)
    fun s => transitionMoments c .lp1 c.sets.lp1 ((drain c).after s) :=
  traced_drain_bind (traced_transition .lp1 c.sets.lp1)

theorem traced_setLowPowerLevel (n : UInt32) :
    Traced c (setLowPowerLevel c n : Action (State σ) Unit) (lowPowerMoments c n) := by
  intro s
  rw [setLowPowerLevel, Action.after_get_bind, lowPowerMoments]
  dsimp only
  split
  · exact refl s
  · by_cases hzero : n = 0
    · rw [if_pos hzero, if_pos hzero]
      split
      · exact traced_transition .on c.sets.nolp s
      · exact refl s
    · rw [if_neg hzero, if_neg hzero]
      by_cases hone : n = 1
      · rw [if_pos hone, if_pos hone]
        split
        · exact traced_enterLp1 s
        · exact refl s
      · rw [if_neg hone, if_neg hone]
        split
        · exact traced_transition .lp2 c.sets.lp2 s
        · exact refl s

/-- Whatever is done to the ranges first, an update ends a change of the mode. -/
theorem linked_changeHbm {r s t : State σ} {ms : List (Moment σ)} {h : Hbm.Config}
    {previous mode : HbmMode} (hms : Linked c r ms t)
    (he : (changeHbm c h mode).after s = Action.after (do update c; notify (.changed .hbmMode))
      ((followSunlight c previous mode).after t)) :
    Linked c r (ms ++ updateMoments c ((followSunlight c previous mode).after t))
      ((changeHbm c h mode).after s) := by
  have hfollow := hms.then_lull (within_followSunlight (lull_compensates (c := c)) previous mode t)
  have hupdate := hfollow.append (traced_update _)
  rw [he, Action.after_bind]
  split
  · exact hupdate.then_lull (lull_tasks (tasks_notify (c := c) _) _)
  · exact hupdate

theorem traced_setHbm (mode : HbmMode) :
    Traced c (setHbm c mode : Action (State σ) Unit) (hbmMoments c mode) := by
  intro s
  unfold setHbm hbmMoments
  cases hh : c.hbm with
  | none => exact refl s
  | some h =>
    rw [Action.after_get_bind]
    by_cases hm : mode = s.hbm.mode
    · rw [if_neg (by simp [hm])]
      dsimp only
      rw [if_pos (.inl hm)]
      exact refl s
    · rw [if_pos hm]
      dsimp only
      by_cases hs : mode = .sunlight ∧ !s.hbm.sunlightEnabled
      · rw [if_pos hs, if_pos (.inr hs)]
        exact refl s
      · rw [if_neg hs, if_neg (by simp only [hm, hs, or_self, not_false_iff])]
        have hmode : Lull s { s with hbm.mode := mode } := lull_of_host rfl rfl rfl
        refine linked_changeHbm ?_ (changeHbm_eq h mode s)
        split
        · exact Linked.after_lull hmode (traced_exitRanges hh _)
        · exact hmode

theorem traced_beforeFrame :
    Traced c (beforeFrame c : Action (State σ) Unit) (frameStartMoments c) := by
  intro s
  have hdrain := lull_drain (c := c) s
  rw [beforeFrame, succeeds_drain.after_bind, Action.after_get_bind, frameStartMoments]
  dsimp only
  split
  · rw [Action.after_set_bind]
    split
    · refine Linked.after_lull (IsTrans.trans _ _ _ hdrain ?_) (traced_update _)
      exact lull_of_host rfl rfl rfl
    · refine IsTrans.trans _ _ _ hdrain ?_
      exact lull_of_host rfl rfl rfl
  · exact hdrain

/-! ### Attributes -/

theorem traced_ofExcept_bind {β : Type} (r : Except Error β) {f : β → Action (State σ) α}
    {m : β → State σ → List (Moment σ)} (hf : ∀ a, Traced c (f a) (m a)) :
    Traced c (Action.ofExcept r >>= f) fun s => givenMoments (m · s) r := by
  cases r with
  | error e => exact fun s => refl s
  | ok a => exact hf a

theorem traced_storeHbm (text : List Char) : Traced c (storeHbm c text : Action (State σ) Unit)
    fun s => attributeMoments c text s .hbmMode := by
  intro s
  unfold storeHbm attributeMoments
  dsimp only
  split
  · exact refl s
  · refine traced_ofExcept_bind (Attribute.Input.decimal text)
      (m := fun n s => (HbmMode.ofInt? n).elim [] (hbmMoments c · s)) (fun n => ?_) s
    cases HbmMode.ofInt? n with
    | none => exact fun s => refl s
    | some mode => exact traced_setHbm mode

/-! ### Timings -/

theorem lull_queueSwitch (i : Nat) : Within Lull (queueSwitch c i : Action (State σ) Unit) := by
  intro s
  rw [after_queueSwitch]
  exact IsTrans.trans _ _ _ (lull_drain s) (lull_of_host rfl rfl rfl)

theorem lull_setMode (r : ModeRequest) : Within Lull (setMode c r : Action (State σ) Unit) := by
  refine (Within.ofExcept _).bind fun i => ?_
  exact Within.bind (fun _ => lull_of_host rfl rfl rfl) fun _ => lull_queueSwitch i

theorem lull_switchTo (r : ModeRequest) : Within Lull (switchTo c r : Action (State σ) Unit) := by
  refine Within.get fun s => Within.ite (fun _ => Within.throw _) fun _ => ?_
  exact (Within.ofExcept _).bind fun i => lull_queueSwitch i

theorem lull_leaveIdle : Within Lull (leaveIdle c : Action (State σ) Unit) := by
  refine Within.get fun s => ?_
  cases s.refresh.current with
  | none => exact Within.pure _
  | some i => exact Within.ite (fun _ => lull_queueSwitch i) fun _ => Within.pure _

theorem lull_enterIdle : Within Lull (enterIdle c : Action (State σ) Unit) := by
  intro s
  rw [after_enterIdle]
  cases s.refresh.idle with
  | none => exact refl s
  | some i =>
    dsimp only
    split
    · have hswitch := tasks_performSwitch (c := c) (i := i)
        (s := { s with refresh.scheduled := some i }) rfl
      refine IsTrans.trans _ _ _ ?_ (Action.related_of_closure lull_task hswitch)
      exact lull_of_host rfl rfl rfl
    · exact refl s

/-! ### Steps -/

/-- Attributes other than the brightness and the modes have nothing to do with dimming. -/
theorem traced_storeAttribute (text : List Char) (a : Attribute) :
    Traced c (storeAttribute c text a : Action (State σ) Unit)
      fun s => attributeMoments c text s a := by
  cases a with
  | brightness =>
    exact traced_ofExcept_bind (Attribute.Input.word text) (traced_setBrightness (c := c))
  | alpmMode =>
    exact traced_ofExcept_bind (Attribute.Input.clampedWord text) (traced_setLowPowerLevel (c := c))
  | hbmMode => exact traced_storeHbm text
  | hbmSvEnabled =>
    refine lull_errands (c := c) (Within.ite (fun _ => Within.throw _) fun _ => ?_)
    exact (Within.ofExcept _).bind fun on => errands_of_quiet (quiet_enableSunlight on)
  | alsTable =>
    refine lull_errands (c := c) (Within.get fun s => (Within.ofExcept _).discard.bind fun _ => ?_)
    exact (Within.ofExcept _).bind fun ts => errands_setThresholds ts
  | idleMode =>
    refine lull_errands (c := c) (Within.ite (fun _ => errands_setIdleMode none) fun _ => ?_)
    exact (Within.ofExcept _).bind fun r => errands_setIdleMode (some r)
  | switchMode => exact Within.bind (R := Lull) (Within.ofExcept _) fun r => lull_switchTo (c := c) r
  | teListenCount =>
    exact lull_tasks (c := c) ((Within.ofExcept _).bind fun n => tasks_setListenCount n)
  | teCounter => exact lull_tasks (c := c) ((Within.ofExcept _).bind fun n => tasks_setPulses n)
  | gamma => exact lull_tasks (c := c) tasks_forgetGamma
  | actualBrightness | maxBrightness | state | lpMode => exact fun s => refl s

/-- Requests other than those with moments of their own have nothing to do with dimming. -/
theorem traced_request (r : Request) : Traced c (r.perform c : Action (State σ) Answer)
    fun s => r.moments c s := by
  have hdone {x : Action (State σ) Unit} {ms : State σ → List (Moment σ)} (hx : Traced c x ms) :
      Traced c (done x) ms := fun s => by
    rw [after_done]
    exact hx s
  have hlull {x : Action (State σ) Unit} (hx : Within Lull x) : Traced c (done x) fun _ => [] :=
    hdone hx
  cases r with
  | setBrightness b => exact hdone (traced_setBrightness b)
  | update => exact hdone traced_update
  | setScale f g => exact hdone (traced_setScale f g)
  | lateDpms d => exact hdone (traced_lateDpms d)
  | setDpms d =>
    intro s
    rw [Request.perform, after_done, after_setDpms]
    exact traced_transition d {} s
  | enable => exact hdone traced_enable
  | disable => exact hdone traced_disable
  | enterLp1 => exact hdone traced_enterLp1
  | enterLp2 => exact hdone (traced_transition .lp2 c.sets.lp2)
  | leaveLp => exact hdone (traced_transition .on c.sets.nolp)
  | setLowPowerLevel n => exact hdone (traced_setLowPowerLevel n)
  | setHbm mode => exact hdone (traced_setHbm mode)
  | beforeFrame => exact hdone traced_beforeFrame
  | write name text =>
    intro s
    rw [after_write]
    exact traced_ofExcept_bind (attributeNamed name) (traced_storeAttribute (c := c) text.toList) s
  | handoff => exact lull_errands (c := c) ((errands_of_quiet quiet_handoff).bind fun _ => Within.pure _)
  | earlyDpms d => exact hlull (lull_chores (chores_earlyDpms (c := c) d))
  | postEnable =>
    have hpost : Within (QuietErrands c) (postEnable c : Action (State σ) Unit) :=
      (quiet_of_tasks tasks_drain).bind fun _ => quiet_queueGamma
    exact hlull (lull_errands (errands_of_quiet hpost))
  | enableSunlight on => exact hlull (lull_errands (errands_of_quiet (quiet_enableSunlight (c := c) on)))
  | updateIrc on => exact hlull (within_updateIrc lull_compensates on)
  | setMode r => exact hlull (lull_setMode r)
  | switchTo r => exact hlull (lull_switchTo r)
  | setIdleMode r => exact hlull (lull_errands (errands_setIdleMode (c := c) r))
  | flush => exact hlull (lull_tasks (tasks_drain (c := c)))
  | idle => exact hlull lull_enterIdle
  | wakeup => exact hlull lull_leaveIdle
  | setListenCount n => exact hlull (lull_tasks (tasks_setListenCount (c := c) n))
  | setPulses n => exact hlull (lull_tasks (tasks_setPulses (c := c) n))
  | dumpGamma => exact lull_tasks (c := c) (tasks_dumpGamma.bind fun _ => Within.pure _)
  | forgetGamma => exact hlull (lull_tasks (tasks_forgetGamma (c := c)))
  | setThresholds ts => exact hlull (lull_errands (errands_setThresholds (c := c) ts))
  | read name =>
    have hshow : Within (Tasks c) (showNamed c name : Action (State σ) String) :=
      within_showNamed tasks_dumpGamma name
    exact lull_tasks (hshow.bind fun _ => Within.pure _)

theorem traced_input (i : Input) (s : State σ) :
    Linked c s (i.moments c s) ((i.perform c).after s) := by
  cases i with
  | request r => exact traced_request r s
  | pulse => exact lull_tasks (c := c) (within_done _ fun s => tasks_pulse s) s
  | vblankError =>
    rw [Input.perform, after_done, failWait, Action.after_get_bind, Input.moments]
    split
    · exact ⟨refl s, trivial, refl _⟩
    · exact refl s
  | refuse | burst | regulatorFails | pwmFails => exact lull_of_host rfl rfl rfl

theorem traced_countFrames (n : Nat) :
    Traced c (countFrames c n : Action (State σ) Unit) (frameMoments c n) := by
  induction n with
  | zero => exact fun s => refl s
  | succ n ih =>
    intro s
    have hwait : Lull s ((onDisplay Display.wait).after s) := lull_tasks (tasks_wait (c := c)) s
    rw [countFrames, Action.after_get_bind, frameMoments]
    dsimp only
    cases ha : s.hbm.dimming.active with
    | false => exact refl s
    | true =>
      have hactive : ((onDisplay Display.wait).after s).hbm.dimming.active = true :=
        (congrArg (·.active) hwait.dimming).trans ha
      rw [if_pos rfl, if_pos rfl, Action.after_outcome_bind, onDisplay, Action.answer_within]
      cases Display.wait.answer s.display with
      | error e => exact hwait
      | ok u =>
        dsimp only
        rw [(succeeds_countFrame true).after_bind]
        exact ⟨hwait, hactive, ih _⟩

theorem traced_step (i : Input) (s : State σ) : Linked c s (stepMoments c s i) (step c s i) := by
  rw [step_eq, settle_eq, stepMoments]
  exact (traced_input i s).append (Linked.after_lull (lull_drain _) (traced_countFrames _ _))

/-- The moments of a run link its first state to its last. -/
theorem linked_run (s : State σ) (is : List Input) : Linked c s (moments c s is) (run c s is) := by
  induction is generalizing s with
  | nil => exact refl s
  | cons i is ih => exact (traced_step i s).append (ih _)

end OledPanel.Panel
