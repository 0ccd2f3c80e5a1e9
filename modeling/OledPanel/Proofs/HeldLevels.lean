import OledPanel.Proofs.Demand
import OledPanel.Proofs.PwmOutput

/-! Levels that are held back. Behind a shut gate an update takes note that the level wanted is not
the one tracked, and goes no further. The note lasts until a level is delivered: a powered panel is
brought to a level that was not tracked before. Opening the gate does not end it by itself, and
neither does wanting the level tracked again, so a note may outlive what it was taken of. -/

namespace OledPanel.Panel

open OledPanel.Action (Same Within)
open Dsi (Transport)

variable {σ : Type} {c : Config}

/-- The level wanted, with the power state it goes with, is not what is tracked. -/
def State.Lags (c : Config) (s : State σ) : Prop :=
  ∃ level, c.level s.demand = .ok level ∧ s.tracked ≠ (some level, s.backlight.bits)

/-- A level waits behind the shut gate. -/
structure State.Waits (c : Config) (s : State σ) : Prop where
  shut : s.backlight.gateOpen = false
  held : s.backlight.held = true
  lags : s.Lags c

/-- A powered panel is brought to a level that was not tracked before. -/
structure Delivers (s t : State σ) : Prop where
  powered : t.initialized = true
  new : t.tracked ≠ s.tracked
  level : t.backlight.level.isSome = true

theorem Delivers.of_still {s t u v : State σ} (h : Delivers t u) (ht : t.tracked = s.tracked)
    (hi : v.initialized = u.initialized) (hb : v.backlight = u.backlight) : Delivers s v where
  powered := hi.trans h.powered
  new := by
    rw [State.tracked, hb, ← ht]
    exact h.new
  level := hb ▸ h.level

/-- Whether the panel is powered, its backlight and its mode are the same. -/
abbrev Still : State σ → State σ → Prop := Same fun s => (s.initialized, s.backlight, s.hbm.mode)

theorem Still.parts {s t : State σ} (h : Still s t) :
    t.initialized = s.initialized ∧ t.backlight = s.backlight ∧ t.hbm.mode = s.hbm.mode := by
  simpa [Same] using h

theorem Still.lags {s t : State σ} (h : Still s t) : t.Lags c ↔ s.Lags c := by
  obtain ⟨-, hb, hm⟩ := h.parts
  rw [State.Lags, State.Lags, State.demand, State.demand, State.tracked, State.tracked, hb, hm]

theorem Still.waits {s t : State σ} (h : Still s t) (hs : s.Waits c) : t.Waits c := by
  obtain ⟨-, hb, -⟩ := h.parts
  exact ⟨hb ▸ hs.shut, hb ▸ hs.held, h.lags.mpr hs.lags⟩

variable [Transport σ]

/-! ### Updates -/

/-- What is held back stays so, and no level is tracked that was not before. -/
structure Forgets (s t : State σ) : Prop where
  held : t.backlight.held = s.backlight.held
  tracked : t.tracked = s.tracked ∨ t.backlight.level = none

omit [Transport σ] in
theorem Drives.forgets {s t : State σ} (h : Drives s t) : Forgets s t := by
  obtain ⟨g, p, l, b, e, rfl, hl⟩ := h
  exact ⟨rfl, hl.imp_left fun hl => by rw [hl, State.tracked, State.tracked]⟩

/-- What an update comes to, whether it goes well or not. Nothing new is tracked, because the update
fails or finds what is tracked; or the level wanted is held back behind the gate, or past it tracked on
a panel that is not powered, or delivered. -/
inductive Upshot (c : Config) (s t : State σ) (well : Prop) : Prop
  | kept (h : Forgets s t) (hw : well → ¬s.Lags c)
  | holds (hs : s.Lags c) (hg : s.backlight.gateOpen = false)
    (ht : t.backlight = { s.backlight with held := true })
  | unpowered (hg : s.backlight.gateOpen = true) (hi : s.initialized = false)
    (hh : t.backlight.held = s.backlight.held)
  | delivers (hs : s.Lags c) (hg : s.backlight.gateOpen = true) (hh : t.backlight.held = false)
    (hd : Delivers s t) (hw : well)

omit [Transport σ] in
theorem not_lags_of_shows {s : State σ} {level : UInt32} (hl : c.level s.demand = .ok level)
    (hs : s.shows level = true) : ¬s.Lags c := by
  rintro ⟨wanted, hw, hne⟩
  obtain rfl : level = wanted := Except.ok.inj (hl.symm.trans hw)
  simp_all [State.shows, State.tracked]

/-- On a panel that takes levels, bringing one out goes as setting the actuator goes. -/
theorem answer_commit_of_live {s : State σ} (hs : s.Live) (b level : UInt32) :
    (∃ r, (commit c b level).answer s = .ok r) ↔
      (actuate c level).answer (restartDimming s) = .ok () := by
  rw [answer_commit_eq hs]
  obtain ⟨e, ha, hp, -⟩ | ⟨ha, hp, -⟩ := present_cases (c := c) b level (restartDimming s)
  · simp [ha, hp, Except.map]
  · simp [ha, hp, Except.map]

theorem upshot_commit {s : State σ} {level : UInt32} (hl : c.level s.demand = .ok level)
    (hn : s.shows level = false) (b : UInt32) :
    Upshot c s ((commit c b level).after s) (∃ r, (commit c b level).answer s = .ok r) := by
  have hlags : s.Lags c := ⟨level, hl, (tracked_ne hn).symm⟩
  obtain ⟨m, hm⟩ := restartDimming_frame s
  cases hg : s.backlight.gateOpen with
  | false =>
    rw [commit_of_shut hg]
    exact .holds hlags hg rfl
  | true =>
  cases hi : s.initialized with
  | false =>
    rw [commit_of_unpowered hg hi, hm]
    exact .unpowered hg hi rfl
  | true =>
  have hactuate := (drives_actuate (c := c) level (restartDimming s)).forgets
  rw [answer_commit_of_live ⟨hi, hg⟩]
  obtain ⟨e, he, h⟩ | ⟨hok, d, a, h⟩ := commit_cases (c := c) ⟨hi, hg⟩ b level
  · rw [h]
    refine .kept ?_ fun hok => by rw [he] at hok; cases hok
    rw [hm] at hactuate ⊢
    exact ⟨hactuate.held, hactuate.tracked⟩
  · have hkeeps : Keeps s ((commit c b level).after s) := (strokes_commit b level s).keeps
    obtain ⟨r, hr⟩ := (answer_commit_of_live ⟨hi, hg⟩ b level).mpr hok
    obtain ⟨hlevel, hbits⟩ := by simpa [State.shows] using shows_commit hg hr
    refine .delivers hlags hg (by rw [h]; rfl) ⟨hkeeps.initialized.trans hi, ?_, by simp [hlevel]⟩ hok
    rw [State.tracked, hlevel, hbits, hkeeps.bits]
    exact tracked_ne hn

omit [Transport σ] in
theorem Upshot.of_still {s t u v : State σ} {well : Prop} (h : Upshot c t u well) (hst : Still s t)
    (huv : Still u v) : Upshot c s v well := by
  obtain ⟨hi, hb, -⟩ := hst.parts
  obtain ⟨hi', hb', -⟩ := huv.parts
  have ht : t.tracked = s.tracked := by rw [State.tracked, hb, State.tracked]
  have hv : v.tracked = u.tracked := by rw [State.tracked, hb', State.tracked]
  cases h with
  | kept h hw =>
    refine .kept ⟨?_, ?_⟩ fun w => hst.lags.not.mp (hw w)
    · rw [hb', h.held, hb]
    · rw [hv, ← ht, hb']
      exact h.tracked
  | holds hs hg hu =>
    exact .holds (hst.lags.mp hs) (hb ▸ hg) (by rw [hb', hu, hb])
  | unpowered hg hoff hh => exact .unpowered (hb ▸ hg) (hi ▸ hoff) (by rw [hb', hh, hb])
  | delivers hs hg hh hd hw =>
    exact .delivers (hst.lags.mp hs) (hb ▸ hg) (hb' ▸ hh) (hd.of_still ht hi' hb') hw

theorem upshot_updateLevel (s : State σ) :
    Upshot c s ((updateLevel c).after s) (∃ r, (updateLevel c).answer s = .ok r) := by
  have hfound := enters_levelOf (c := c) s.backlight.wanted s
  have hstill : Still s ((levelOf c s.backlight.wanted).after s) := by
    rw [Still, Same, hfound.keeps.initialized, hfound.keeps.mode, hfound.backlight]
  have hforgets : Forgets s ((levelOf c s.backlight.wanted).after s) := by
    refine ⟨by rw [hfound.backlight], .inl ?_⟩
    rw [State.tracked, hfound.backlight, State.tracked]
  rw [updateLevel, Action.answer_get_bind, Action.answer_bind, ← updateLevel]
  cases hl : (levelOf c s.backlight.wanted).answer s with
  | error e =>
    rw [updateLevel_of_not_found hl]
    refine .kept hforgets ?_
    rintro ⟨r, hr⟩
    cases hr
  | ok level =>
    have hlevel : c.level ((levelOf c s.backlight.wanted).after s).demand = .ok level := by
      rw [← level_of_levelOf hl, State.demand, hfound.backlight, hfound.keeps.mode, State.demand]
    rw [updateLevel_of_found hl]
    dsimp only
    rw [Action.answer_get_bind]
    cases hn : ((levelOf c s.backlight.wanted).after s).shows level with
    | true => exact .kept hforgets fun _ => hstill.lags.not.mp (not_lags_of_shows hlevel hn)
    | false =>
      rw [if_neg Bool.false_ne_true, if_neg Bool.false_ne_true]
      exact (upshot_commit hlevel hn _).of_still hstill (refl _)

theorem upshot_update (s : State σ) :
    Upshot c s ((update c).after s) ((update c).answer s = .ok ()) := by
  have hwell : (update c).answer s = .ok () ↔ ∃ r, (updateLevel c).answer s = .ok r := by
    rw [update, Action.answer_bind]
    cases (updateLevel c).answer s with
    | ok r => cases r <;> exact ⟨fun _ => ⟨_, rfl⟩, fun _ => rfl⟩
    | error e => simp
  obtain ⟨d, -, -, -, h⟩ := update_frame (c := c) s
  rw [hwell, h]
  exact (upshot_updateLevel s).of_still (refl s) rfl

theorem waits_of_noted {s : State σ} (hs : s.Lags c) (hg : s.backlight.gateOpen = false)
    (ht : ((update c).after s).backlight = { s.backlight with held := true }) :
    ((update c).after s).Waits c := by
  refine ⟨by rw [ht]; exact hg, by rw [ht], ?_⟩
  obtain ⟨level, hl, hne⟩ := hs
  have hdemand : ((update c).after s).demand = s.demand := demand_update s
  have htracked : ((update c).after s).tracked = s.tracked := by rw [State.tracked, ht, State.tracked]
  exact ⟨level, hdemand ▸ hl, by rwa [htracked, ht]⟩

/-- An update behind the shut gate that goes well holds back a level that is not the one tracked. -/
theorem waits_update {s : State σ} (hs : s.Lags c) (hg : s.backlight.gateOpen = false)
    (hok : (update c).answer s = .ok ()) : ((update c).after s).Waits c := by
  cases upshot_update (c := c) s with
  | kept _ hw => exact absurd hs (hw hok)
  | holds _ _ ht => exact waits_of_noted hs hg ht
  | unpowered hopen => simp [hg] at hopen
  | delivers _ hopen => simp [hg] at hopen

/-! ### Steps -/

/-- What a step comes to: a note is as it was, or is taken, or a level is delivered and nothing is
held back any more. -/
inductive Fate (c : Config) (s t : State σ) : Prop
  | kept (hh : t.backlight.held = s.backlight.held) (hd : ¬Delivers s t)
  | holds (hw : t.Waits c) (hd : ¬Delivers s t)
  | delivers (hh : t.backlight.held = false) (hd : Delivers s t)

omit [Transport σ] in
theorem Fate.of_still {s t u v : State σ} (h : Fate c t u) (hh : t.backlight.held = s.backlight.held)
    (ht : t.tracked = s.tracked) (huv : Still u v) : Fate c s v := by
  obtain ⟨hi, hb, -⟩ := huv.parts
  have hdelivers : Delivers s v ↔ Delivers t u :=
    ⟨fun h => h.of_still ht.symm hi.symm hb.symm, fun h => h.of_still ht hi hb⟩
  cases h with
  | kept hu hd => exact .kept (by rw [hb, hu, hh]) (hdelivers.not.mpr hd)
  | holds hw hd => exact .holds (huv.waits hw) (hdelivers.not.mpr hd)
  | delivers hu hd => exact .delivers (hb ▸ hu) (hdelivers.mpr hd)

theorem fate_update (s : State σ) : Fate c s ((update c).after s) := by
  have hkeeps : Keeps s ((update c).after s) := keeps_update s
  cases upshot_update (c := c) s with
  | kept h _ =>
    refine .kept h.held fun hd => ?_
    obtain ht | hl := h.tracked
    · exact hd.new ht
    · simpa [hl] using hd.level
  | holds hs hg ht =>
    refine .holds (waits_of_noted hs hg ht) fun hd => hd.new ?_
    rw [State.tracked, ht, State.tracked]
  | unpowered _ hi hh =>
    exact .kept hh fun hd => by simpa [hkeeps.initialized, hi] using hd.powered
  | delivers _ _ hh hd _ => exact .delivers hh hd

theorem still_task (s t : State σ) (h : Task c s t) : Still s t := by
  cases h <;> rfl

theorem still_settle : Within Still (settle c : Action (State σ) Unit) := by
  have hstop : Within Still (stopDimming c : Action (State σ) Unit) :=
    fun _ => related_stopDimming fun _ _ _ => rfl
  refine Ensues.settle ⟨still_task, fun s => ?_⟩
  exact related_countFrame true (fun _ => hstop _) fun _ _ => rfl

theorem fate_deed {s t : State σ} {i : Input} (h : Deed c Spares s i t) : Fate c s t := by
  have hspares {t : State σ} (h : Spares s t) : Fate c s t :=
    .kept h.held fun hd => hd.new h.tracked
  cases h with
  | admitted h => exact hspares h
  | @updates u v _ h hv ht =>
    obtain ⟨hvh, hvt⟩ : v.backlight.held = u.backlight.held ∧ v.tracked = u.tracked := by
      cases hv with
      | gate gate hg => exact ⟨rfl, rfl⟩
      | enters d =>
        rw [after_enterDpms]
        exact ⟨rfl, rfl⟩
    have hrest : Still ((update c).after v) t := Action.related_of_closure still_task ht
    exact (fate_update v).of_still (hvh.trans h.held) (hvt.trans h.tracked) hrest
  | sets h =>
    refine hspares ?_
    cases h <;> exact ⟨rfl, rfl, rfl, rfl, id⟩
  | opens h _ => exact .kept h.held fun hd => hd.new h.tracked
  | retimes h => exact hspares (h.related spares_patient.task fun _ _ => ⟨rfl, rfl, rfl, rfl, id⟩)
  | pwm h => exact .kept rfl fun hd => hd.new rfl

theorem fate_step (s : State σ) (i : Input) : Fate c s (step c s i) := by
  rw [step_eq]
  exact (fate_deed (spares_patient.deed (course_perform i s))).of_still rfl rfl (still_settle _)

/-! ### Frames -/

theorem still_drain (s : State σ) : Still s ((drain c).after s) :=
  within_of_tasks still_task tasks_drain s

/-- A gate that was shut opens for the level held back. -/
theorem beforeFrame_of_held {s : State σ} (hg : s.backlight.gateOpen = false)
    (hh : s.backlight.held = true) : ∃ t : State σ, t.initialized = s.initialized ∧
      t.backlight = { s.backlight with gateOpen := true } ∧ (t.Lags c ↔ s.Lags c) ∧
      (beforeFrame c).after s = (update c).after t ∧ (beforeFrame c).answer s = (update c).answer t := by
  obtain ⟨hi, hb, -⟩ := (still_drain (c := c) s).parts
  obtain ⟨_, hdrain⟩ := succeeds_drain (c := c) s
  refine ⟨{ (drain c).after s with backlight.gateOpen := true }, hi, by rw [← hb],
    (still_drain s).lags, ?_⟩
  rw [beforeFrame, Action.after_bind, Action.answer_bind, hdrain]
  dsimp only
  rw [Action.after_get_bind, Action.answer_get_bind, hb, hg, hh]
  exact ⟨rfl, rfl⟩

/-- With nothing held back a frame opens the gate, and that is all. -/
theorem backlight_beforeFrame {s : State σ}
    (h : s.backlight.gateOpen = true ∨ s.backlight.held = false) :
    ((beforeFrame c).after s).backlight = { s.backlight with gateOpen := true } := by
  obtain ⟨-, hb, -⟩ := (still_drain (c := c) s).parts
  rw [beforeFrame, succeeds_drain.after_bind, Action.after_get_bind, ← hb]
  cases hg : ((drain c).after s).backlight.gateOpen with
  | true =>
    have hsame (b : Backlight.State) (h : b.gateOpen = true) : b = { b with gateOpen := true } := by
      rw [← h]
    exact hsame _ hg
  | false =>
    have hheld : ((drain c).after s).backlight.held = false := by
      rw [hb] at hg ⊢
      exact h.resolve_left (by simp [hg])
    rw [hheld]
    rfl

theorem gateOpen_beforeFrame (s : State σ) : ((beforeFrame c).after s).backlight.gateOpen = true := by
  by_cases h : s.backlight.gateOpen = true ∨ s.backlight.held = false
  · rw [backlight_beforeFrame h]
  · obtain ⟨hg, hh⟩ : s.backlight.gateOpen = false ∧ s.backlight.held = true := by simpa using h
    obtain ⟨t, -, hb, -, hafter, -⟩ := beforeFrame_of_held (c := c) hg hh
    rw [hafter, (keeps_update t).gateOpen, hb]

/-- What is held back is delivered before a frame if the gate was shut, the panel is powered, the
level wanted is not the one tracked, and bringing it out goes well. -/
theorem held_beforeFrame_iff (s : State σ) : ((beforeFrame c).after s).backlight.held = true ↔
    s.backlight.held = true ∧ (s.backlight.gateOpen = true ∨ s.initialized = false ∨ ¬s.Lags c ∨
      (beforeFrame c).answer s ≠ .ok ()) := by
  by_cases h : s.backlight.gateOpen = true ∨ s.backlight.held = false
  · rw [backlight_beforeFrame h]
    change s.backlight.held = true ↔ _
    refine ⟨fun hh => ⟨hh, .inl (h.resolve_right (by simp [hh]))⟩, fun hh => hh.1⟩
  obtain ⟨hg, hh⟩ : s.backlight.gateOpen = false ∧ s.backlight.held = true := by simpa using h
  obtain ⟨t, hi, hb, hlags, hafter, hanswer⟩ := beforeFrame_of_held (c := c) hg hh
  have hheld : t.backlight.held = true := by rw [hb, hh]
  rw [hafter, hanswer, ← hi, ← hlags]
  cases upshot_update (c := c) t with
  | kept h hw =>
    refine iff_of_true (h.held.trans hheld) ⟨hh, .inr (.inr ?_)⟩
    by_cases hok : (update c).answer t = .ok ()
    · exact .inl (hw hok)
    · exact .inr hok
  | holds _ hshut _ => simp [hb] at hshut
  | unpowered _ hoff hkept => exact iff_of_true (hkept.trans hheld) ⟨hh, .inr (.inl hoff)⟩
  | delivers hs _ hgone hd hw =>
    have hon : t.initialized = true := (keeps_update t).initialized.symm.trans hd.powered
    simp [hg, hgone, hon, hs, hw]

/-! ### Runs -/

/-- No step of a run delivers a level. -/
def Undelivered (c : Config) : State σ → List Input → Prop
  | _, [] => True
  | s, i :: is => ¬Delivers s (step c s i) ∧ Undelivered c (step c s i) is

theorem undelivered_concat {s : State σ} {is : List Input} {i : Input} (h : Undelivered c s is)
    (hi : ¬Delivers (run c s is) (step c (run c s is) i)) : Undelivered c s (is ++ [i]) := by
  induction is generalizing s with
  | nil => exact ⟨hi, trivial⟩
  | cons j is ih => exact ⟨h.1, ih h.2 hi⟩

/-- A note lasts as long as nothing is delivered. -/
theorem held_of_undelivered {s : State σ} (hs : s.backlight.held = true) {is : List Input}
    (h : Undelivered c s is) : (run c s is).backlight.held = true := by
  induction is generalizing s with
  | nil => exact hs
  | cons i is ih =>
    refine ih ?_ h.2
    cases fate_step (c := c) s i with
    | kept hh _ => rw [hh, hs]
    | holds hw _ => exact hw.held
    | delivers _ hd => exact absurd hd h.1

/-- What is held back in the end waited behind the shut gate once, and was not delivered since. -/
theorem exists_waits_of_held {s : State σ} (hs : s.backlight.held = false) {is : List Input}
    (h : (run c s is).backlight.held = true) : ∃ js ks, is = js ++ ks ∧ (run c s js).Waits c ∧
      Undelivered c (run c s js) ks := by
  induction is using List.reverseRecOn with
  | nil => simp [hs] at h
  | append_singleton is i ih =>
    rw [run_append, run_cons, run_nil] at h
    cases fate_step (c := c) (run c s is) i with
    | kept hh hd =>
      obtain ⟨js, ks, rfl, hw, hu⟩ := ih (hh ▸ h)
      rw [run_append] at hd
      exact ⟨js, ks ++ [i], List.append_assoc js ks [i], hw, undelivered_concat hu hd⟩
    | holds hw _ => exact ⟨is ++ [i], [], by simp, by rwa [run_append], trivial⟩
    | delivers hh _ => simp [hh] at h

/-- Whatever fails, a level is held back exactly if it waited behind the shut gate at some time, other
than what was tracked then, and no step since delivered one. A frame opens the gate. It ends the
waiting only where the gate was shut, the panel is powered, the level wanted is still not the one
tracked, and bringing it out goes well. Behind the shut gate an update that goes well holds back what
is not tracked. -/
theorem held_back_until_delivered (c : Config) (host : σ) (display : Display) (pwm : Option Pwm)
    (regulator : Option Regulator) (inputs : List Input) :
    let start := State.initial c host display pwm regulator
    let s := run c start inputs
    let t := step c s (.request .beforeFrame)
    (s.backlight.held = true ↔ ∃ js ks, inputs = js ++ ks ∧ (run c start js).Waits c ∧
        Undelivered c (run c start js) ks) ∧
      t.backlight.gateOpen = true ∧
      (t.backlight.held = true ↔ s.backlight.held = true ∧ (s.backlight.gateOpen = true ∨
        s.initialized = false ∨ ¬s.Lags c ∨ (beforeFrame c).answer s ≠ .ok ())) ∧
      (s.backlight.gateOpen = false → s.Lags c → (update c).answer s = .ok () →
        ((update c).after s).Waits c) := by
  intro start s t
  have hstill : Still ((beforeFrame c).after s) t := by
    rw [show t = step c s (.request .beforeFrame) from rfl, step_eq]
    have hperform : ((Input.request .beforeFrame).perform c).after s = (beforeFrame c).after s :=
      after_done (beforeFrame c) s
    rw [hperform]
    exact still_settle _
  obtain ⟨-, hb, -⟩ := hstill.parts
  refine ⟨⟨exists_waits_of_held rfl, ?_⟩, by rw [hb, gateOpen_beforeFrame], ?_,
    fun hg hl hok => waits_update hl hg hok⟩
  · rintro ⟨js, ks, hsplit, hw, hu⟩
    have hheld := held_of_undelivered hw.held hu
    rwa [← run_append, ← hsplit] at hheld
  · rw [hb, held_beforeFrame_iff]

/-- A level that waits behind the shut gate is delivered with the frame. -/
theorem held_back_until_frame :
    let c : Config := { Bench.plain none with backlight.waitsForFrame := true }
    let s := run c (State.initial c ({} : Bench.Host) {} none none)
      [.request (.setBrightness 200), .request .enable, .request (.setBrightness 100)]
    let t := step c s (.request .beforeFrame)
    ((update c).after s).Waits c ∧ t.backlight.gateOpen = true ∧ s.backlight.held = true ∧
      t.backlight.held = false := by
  dsimp only
  refine ⟨(held_back_until_delivered _ _ _ _ _ _).2.2.2 (by decide +kernel) ?_ (by decide +kernel),
    (held_back_until_delivered _ _ _ _ _ _).2.1, by decide +kernel, by decide +kernel⟩
  exact ⟨100, by decide +kernel, by decide +kernel⟩

/-- The level tracked is wanted again behind the shut gate; the note is there before the frame and
after it. -/
theorem held_back_behind_open_gate :
    let c : Config := { Bench.plain none with backlight.waitsForFrame := true }
    let node := Bench.withProperties (Bench.plainNode [])
      [(Backlight.Config.keyUpdate, .text "delay_until_first_frame")]
    let s := run c (State.initial c ({} : Bench.Host) {} none none) [.request (.setBrightness 200),
      .request .enable, .request (.setBrightness 100), .request (.setBrightness 200)]
    let t := step c s (.request .beforeFrame)
    (Config.ofNode node false).toOption = some c ∧
      s.backlight.held = true ∧ c.level s.demand = .ok 200 ∧ s.tracked = (some 200, s.backlight.bits) ∧
      t.backlight.held = true ∧ t.backlight.gateOpen = true := by
  decide +kernel

end OledPanel.Panel
