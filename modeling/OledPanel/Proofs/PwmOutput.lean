import OledPanel.Bench.Plain
import OledPanel.Proofs.Turns

/-! The output of a panel that is lit by one. Every change of the level or of the power state tracked
with it reaches the output of a powered panel; changes on a panel that is not powered reach it
neither then nor later. Since a panel is powered down before its level is brought to zero, the
output stays on behind it, and a level set before power-on is not brought to it. -/

namespace OledPanel

namespace Pwm

variable {c : Panel.Config} {periodUs level : UInt32} {p : Pwm}

/-- The output does what it is told. -/
structure Willing (p : Pwm) : Prop where
  config : p.refusesConfig = false
  enable : p.refusesEnable = false

/-- The output after it was brought to a level. -/
def showing (c : Panel.Config) (periodUs level : UInt32) (p : Pwm) : Pwm :=
  if level = 0 then p.disable
  else
    let period := periodUs.toNat * 1000
    { p with config := some (Panel.duty period level c.backlight.map.highest, period), on := true }

/-- The output is on unless the level is zero, and then in proportion to the highest level. -/
structure Shows (c : Panel.Config) (periodUs level : UInt32) (p : Pwm) : Prop where
  on : p.on = true ↔ 0 < level
  config : 0 < level → ∃ duty, p.config = some (duty, periodUs.toNat * 1000) ∧
    duty ≤ periodUs.toNat * 1000 ∧ (0 < c.backlight.map.highest →
      duty = (min level c.backlight.map.highest).toNat * (periodUs.toNat * 1000) /
        c.backlight.map.highest.toNat)

theorem program_of_willing (h : p.Willing) {duty period : Nat} (hd : duty ≤ period) :
    program duty period p = .ok () { p with config := some (duty, period) } := by
  rw [program, if_neg (by simp [h.config]), if_neg (Nat.not_lt.mpr hd)]

theorem enable_of_willing (h : p.Willing) : enable p = .ok () { p with on := true } := by
  rw [enable, if_neg (by simp [h.enable])]

theorem Willing.showing (h : p.Willing) : (p.showing c periodUs level).Willing := by
  unfold Pwm.showing
  split <;> exact ⟨h.config, h.enable⟩

end Pwm

namespace Panel

open OledPanel.Action (Same Within)
open Dsi (Transport)

variable {σ : Type} {c : Config} {periodUs : UInt32}

theorem duty_le (period : Nat) (level highest : UInt32) : duty period level highest ≤ period := by
  unfold duty
  split
  · exact Nat.le_refl _
  · next hne =>
    have hmin : (min level highest).toNat ≤ highest.toNat :=
      UInt32.le_iff_toNat_le.mp Std.min_le_right
    exact Nat.div_le_of_le_mul (Nat.mul_le_mul_right period hmin)

theorem shows_showing (level : UInt32) (p : Pwm) :
    (p.showing c periodUs level).Shows c periodUs level := by
  unfold Pwm.showing
  split
  · next h => exact ⟨by simp [h, Pwm.disable], fun hpos => by simp [h] at hpos⟩
  · next h =>
    refine ⟨by simp [UInt32.pos_iff_ne_zero, h], fun _ => ⟨_, rfl, duty_le _ _ _, fun hpos => ?_⟩⟩
    rw [duty, if_neg (UInt32.pos_iff_ne_zero.mp hpos)]

/-! ### Updates -/

/-- There is an output, and it does what it is told. -/
def State.Willing (s : State σ) : Prop := ∃ p, s.pwm = some p ∧ p.Willing

theorem onPwm_of_ok {s : State σ} {x : Action Pwm Unit} {p q : Pwm} (hp : s.pwm = some p)
    (hx : x p = .ok () q) : onPwm x s = .ok () { s with pwm := some q } := by
  simp only [onPwm, hp, Action.within, hx]

/-- An output that does what it is told is brought to the level. -/
theorem writePwm_of_willing {s : State σ} (hs : s.Willing) (level : UInt32) :
    writePwm c periodUs level s =
      .ok () { s with pwm := s.pwm.map (Pwm.showing c periodUs level) } := by
  obtain ⟨p, hp, hw⟩ := hs
  rw [writePwm, Action.get_bind]
  dsimp only
  rw [hp, Option.map_some, Option.any_some]
  unfold Pwm.showing
  by_cases hzero : level = 0
  · simp only [if_pos hzero]
    cases hon : p.on with
    | true =>
      have hoff : some p.disable = s.pwm.map Pwm.disable := by rw [hp, Option.map_some]
      rw [if_pos rfl, hoff]
      rfl
    | false =>
      have hsame : p.disable = p := by rw [Pwm.disable, ← hon]
      rw [if_neg Bool.false_ne_true, hsame, ← hp]
      rfl
  · simp only [if_neg hzero]
    have hprogram := Pwm.program_of_willing hw
      (duty_le (periodUs.toNat * 1000) level c.backlight.map.highest)
    refine (Action.bind_of_ok (onPwm_of_ok hp hprogram) _).trans ?_
    cases hon : p.on with
    | true =>
      rw [if_neg (by simp), ← hon]
      rfl
    | false =>
      rw [if_pos (by simp)]
      exact onPwm_of_ok rfl (Pwm.enable_of_willing ⟨hw.config, hw.enable⟩)

/-- The level tracked, with its power state. -/
def State.tracked (s : State σ) : Option UInt32 × PowerBits :=
  (s.backlight.level, s.backlight.levelBits)

/-- What becomes of the output: nothing new is tracked, or the panel is not powered, or the output is
brought to the level that is tracked from here on. -/
inductive Lights (c : Config) (periodUs : UInt32) (s t : State σ) : Prop
  | kept (ht : t.tracked = s.tracked) (hp : t.pwm = s.pwm)
  | unpowered (hi : t.initialized = false) (hp : t.pwm = s.pwm)
  | powered (hi : t.initialized = true) (ht : t.tracked ≠ s.tracked) {level : UInt32}
    (hl : t.backlight.level = some level) (hp : t.pwm = s.pwm.map (Pwm.showing c periodUs level))

/-- The level zero is tracked, or the gate holds a level back. -/
def State.Dim (s : State σ) : Prop :=
  s.backlight.level = some 0 ∨ s.backlight.gateOpen = false ∧ s.backlight.held = true

/-- A panel that is powered down is dim. -/
def State.Lowered (s : State σ) : Prop := s.backlight.power = .down → s.Dim

theorem Lights.of_same {s t u v : State σ} (h : Lights c periodUs t u) (htp : t.pwm = s.pwm)
    (ht : t.tracked = s.tracked) (hvp : v.pwm = u.pwm) (hv : v.tracked = u.tracked)
    (hi : v.initialized = u.initialized) : Lights c periodUs s v := by
  cases h with
  | kept hu hp => exact .kept (hv.trans (hu.trans ht)) (hvp.trans (hp.trans htp))
  | unpowered hu hp => exact .unpowered (hi.trans hu) (hvp.trans (hp.trans htp))
  | powered hu hne hl hp =>
    refine .powered (hi.trans hu) (hv ▸ ht ▸ hne) ((congrArg Prod.fst hv).trans hl) ?_
    rw [hvp, hp, htp]

theorem tracked_ne {s : State σ} {level : UInt32} (hs : s.shows level = false) :
    (some level, s.backlight.bits) ≠ s.tracked := by
  intro h
  obtain ⟨hl, hb⟩ := Prod.mk.inj h
  simp [State.shows, ← hl, ← hb] at hs

variable [Transport σ]

theorem actuate_of_willing (ha : c.actuator = .pwm periodUs) {s : State σ} (hs : s.Willing)
    (level : UInt32) : (actuate c level).answer s = .ok () ∧
      (actuate c level).after s = { s with pwm := s.pwm.map (Pwm.showing c periodUs level) } := by
  have hwrite : writePwm c periodUs level s = _ := writePwm_of_willing hs level
  have hactuate : actuate c level = (writePwm c periodUs level : Action (State σ) Unit) := by
    rw [actuate, ha]
  rw [hactuate, Action.answer, Action.after, hwrite]
  exact ⟨rfl, rfl⟩

theorem lights_commit (ha : c.actuator = .pwm periodUs) {s : State σ} (hs : s.Willing) (b : UInt32)
    {level : UInt32} (hn : s.shows level = false) : Lights c periodUs s ((commit c b level).after s) ∧
      (level = 0 → ((commit c b level).after s).Dim) := by
  obtain ⟨m, hm⟩ := restartDimming_frame s
  cases hg : s.backlight.gateOpen with
  | false =>
    rw [commit_of_shut hg]
    exact ⟨.kept rfl rfl, fun _ => .inr ⟨hg, rfl⟩⟩
  | true =>
  cases hi : s.initialized with
  | false =>
    rw [commit_of_unpowered hg hi, hm]
    exact ⟨.unpowered hi rfl, fun h => .inl (congrArg some h)⟩
  | true =>
  have hready : (restartDimming s).Willing := by
    rw [hm]
    exact hs
  obtain ⟨hok, hafter⟩ := actuate_of_willing ha hready level
  obtain ⟨e, he, -⟩ | ⟨-, d, a, h⟩ := commit_cases (c := c) ⟨hi, hg⟩ b level
  · rw [hok] at he
    cases he
  · rw [h, hafter, hm]
    exact ⟨.powered hi (tracked_ne hn) rfl rfl, fun h => .inl (congrArg some h)⟩

/-- An update of a panel that is powered down makes it dim. -/
theorem lights_update (ha : c.actuator = .pwm periodUs) {s : State σ} (hs : s.Willing) :
    Lights c periodUs s ((update c).after s) ∧ ((update c).after s).Lowered := by
  have hpower : ((update c).after s).backlight.power = s.backlight.power := (keeps_update s).power
  have hupdate : Lights c periodUs s ((updateLevel c).after s) ∧
      (s.backlight.power = .down → ((updateLevel c).after s).Dim) := by
    have hfound := enters_levelOf (c := c) s.backlight.wanted s
    have hdark (h : s.backlight.power = .down) : (levelOf c s.backlight.wanted).answer s = .ok 0 := by
      have hzero : s.backlight.wanted = 0 := by simp [Backlight.State.wanted, h]
      rw [hzero]
      rfl
    obtain ⟨hpwm, hbacklight⟩ := hfound.supplied
    have htracked : ((levelOf c s.backlight.wanted).after s).tracked = s.tracked := by
      rw [State.tracked, hbacklight, State.tracked]
    cases hl : (levelOf c s.backlight.wanted).answer s with
    | error e =>
      rw [updateLevel_of_not_found hl]
      refine ⟨.kept htracked hpwm, fun h => ?_⟩
      rw [hdark h] at hl
      cases hl
    | ok level =>
      rw [updateLevel_of_found hl]
      cases hn : ((levelOf c s.backlight.wanted).after s).shows level with
      | true =>
        rw [if_pos rfl]
        refine ⟨.kept htracked hpwm, fun h => .inl ?_⟩
        obtain ⟨hlevel, -⟩ := by simpa [State.shows] using hn
        rw [hlevel, Except.ok.inj (hl.symm.trans (hdark h))]
      | false =>
        rw [if_neg Bool.false_ne_true]
        have hready : ((levelOf c s.backlight.wanted).after s).Willing := by
          rw [State.Willing, hpwm]
          exact hs
        obtain ⟨hlights, hdim⟩ := lights_commit ha hready s.backlight.wanted hn
        refine ⟨hlights.of_same hpwm htracked rfl rfl rfl, fun h => hdim ?_⟩
        exact Except.ok.inj (hl.symm.trans (hdark h))
  obtain ⟨d, -, -, -, h⟩ := update_frame (c := c) s
  rw [h] at hpower ⊢
  exact ⟨hupdate.1.of_same rfl rfl rfl rfl rfl, fun hdown => hupdate.2 (hpower.symm.trans hdown)⟩

/-! ### Steps -/

/-- The output, what is tracked and the power state stay, and so does a level held back. -/
structure Spares (s t : State σ) : Prop where
  pwm : t.pwm = s.pwm
  tracked : t.tracked = s.tracked
  power : t.backlight.power = s.backlight.power
  held : t.backlight.held = s.backlight.held
  gate : s.backlight.gateOpen = false → t.backlight.gateOpen = false

instance : IsPreorder (State σ) Spares where
  refl _ := ⟨rfl, rfl, rfl, rfl, id⟩
  trans _ _ _ h k := ⟨k.pwm.trans h.pwm, k.tracked.trans h.tracked, k.power.trans h.power,
    k.held.trans h.held, k.gate ∘ h.gate⟩

/-- Nothing happens to the output, the backlight, and whether the panel is powered. -/
abbrev Inert : State σ → State σ → Prop := Same fun s => (s.pwm, s.initialized, s.backlight)

omit [Transport σ] in
theorem Inert.spares {s t : State σ} (h : Inert s t) : Spares s t := by
  obtain ⟨hp, h⟩ := Prod.mk.inj (show (t.pwm, _) = (s.pwm, _) from h)
  obtain ⟨-, hb⟩ := Prod.mk.inj h
  exact ⟨hp, by rw [State.tracked, hb, State.tracked], by rw [hb], by rw [hb], by rw [hb]; exact id⟩

theorem inert_unaware : Unaware c (Inert : State σ → State σ → Prop) where
  task _ _ h := by cases h <;> rfl
  dims _ _ _ _ := rfl
  ask _ _ _ := rfl
  store _ _ _ _ _ _ := rfl
  keep _ _ _ := rfl
  mode _ _ := rfl

theorem spares_errands {s t : State σ} (h : QuietErrands c s t) : Spares s t := by
  have hsame : Same (fun s : State σ => (s.tracked, s.backlight.power, s.backlight.held)) s t :=
    Action.related_of_closure (fun s t h => by cases h with
      | task h => cases h <;> rfl
      | _ => rfl) h.errands
  obtain ⟨ht, hrest⟩ := Prod.mk.inj hsame
  obtain ⟨hp, hh⟩ := Prod.mk.inj hrest
  exact ⟨h.pwm, ht, hp, hh, fun hg => h.gate.trans hg⟩

theorem spares_patient : Patient c (Spares : State σ → State σ → Prop) where
  task s t h := (inert_unaware.task s t h).spares
  dims s d m i := (inert_unaware (c := c).dims s d m i).spares
  ask s irc h := (inert_unaware.ask s irc h).spares
  store s irc bytes m h hm := (inert_unaware.store s irc bytes m h hm).spares
  keep s b o := (inert_unaware (c := c).keep s b o).spares
  mode s m := (inert_unaware (c := c).mode s m).spares
  early d s := by
    rw [after_earlyDpms]
    exact ⟨rfl, rfl, rfl, rfl, id⟩
  quiet _ _ h := spares_errands h
  powered s := ⟨rfl, rfl, rfl, rfl, fun h => by simp [powered, h]⟩
  unpowered _ := ⟨rfl, rfl, rfl, rfl, id⟩
  regulator _ _ := ⟨rfl, rfl, rfl, rfl, id⟩

theorem inert_settle : Within Inert (settle c : Action (State σ) Unit) :=
  Ensues.settle ⟨inert_unaware.task, inert_unaware.countFrame true⟩

omit [Transport σ] in
theorem Spares.lowered {s t : State σ} (h : Spares s t) (hs : s.Lowered) : t.Lowered := by
  intro hdown
  obtain hl | ⟨hg, hh⟩ := hs (h.power.symm.trans hdown)
  · exact .inl ((congrArg Prod.fst h.tracked).trans hl)
  · exact .inr ⟨h.gate hg, h.held.trans hh⟩

omit [Transport σ] in
theorem Lights.willing {s t : State σ} (h : Lights c periodUs s t) (hs : s.Willing) : t.Willing := by
  obtain ⟨p, hp, hw⟩ := hs
  cases h with
  | kept _ ht => exact ⟨p, ht.trans hp, hw⟩
  | unpowered _ ht => exact ⟨p, ht.trans hp, hw⟩
  | @powered _ _ level _ ht => exact ⟨_, by rw [ht, hp, Option.map_some], hw.showing⟩

/-- A gate that opens with nothing held back leaves a panel dim that was. -/
theorem lights_deed (ha : c.actuator = .pwm periodUs) {s t : State σ} (hs : s.Willing)
    (hl : s.Lowered) {i : Input} (hi : ∀ config enable, i ≠ .pwmFails config enable) (h : Deed c Spares s i t) :
    Lights c periodUs s t ∧ t.Lowered := by
  have hspares {t : State σ} (h : Spares s t) : Lights c periodUs s t ∧ t.Lowered :=
    ⟨.kept h.tracked h.pwm, h.lowered hl⟩
  cases h with
  | admitted h => exact hspares h
  | @updates u v _ h hv ht =>
    obtain ⟨hvp, hvt⟩ : v.pwm = u.pwm ∧ v.tracked = u.tracked := by
      cases hv with
      | gate gate hg => exact ⟨rfl, rfl⟩
      | enters d =>
        rw [after_enterDpms]
        exact ⟨rfl, rfl⟩
    have hready : v.Willing := by
      rw [State.Willing, hvp, h.pwm]
      exact hs
    have hrest : Inert ((update c).after v) t := Action.related_of_closure inert_unaware.task ht
    obtain ⟨hlights, hlowered⟩ := lights_update ha hready
    refine ⟨?_, hrest.spares.lowered hlowered⟩
    exact hlights.of_same (hvp.trans h.pwm) (hvt.trans h.tracked) hrest.spares.pwm
      hrest.spares.tracked (congrArg (fun p => p.2.1) hrest)
  | sets h =>
    refine hspares ?_
    cases h <;> exact ⟨rfl, rfl, rfl, rfl, id⟩
  | @opens u h hh =>
    refine ⟨.kept h.tracked h.pwm, fun hdown => .inl ?_⟩
    obtain hzero | ⟨-, hheld⟩ := h.lowered hl hdown
    · exact hzero
    · rw [hh] at hheld
      cases hheld
  | retimes h => exact hspares (h.related spares_patient.task fun _ _ => ⟨rfl, rfl, rfl, rfl, id⟩)
  | pwm h => exact absurd h (hi _ _)

theorem lights_step (ha : c.actuator = .pwm periodUs) {s : State σ} (hs : s.Willing) (hl : s.Lowered)
    {i : Input} (hi : ∀ config enable, i ≠ .pwmFails config enable) :
    Lights c periodUs s (step c s i) ∧ (step c s i).Lowered := by
  obtain ⟨hlights, hlowered⟩ := lights_deed ha hs hl hi (spares_patient.deed (course_perform i s))
  have hrest : Inert ((i.perform c).after s) (step c s i) := by
    rw [step_eq]
    exact inert_settle _
  refine ⟨?_, hrest.spares.lowered hlowered⟩
  exact hlights.of_same rfl rfl hrest.spares.pwm hrest.spares.tracked
    (congrArg (fun p => p.2.1) hrest)

/-! ### Runs -/

/-- The states after the steps that changed what is tracked and left the panel powered, the oldest
first. -/
def litChanges (c : Config) (s : State σ) (is : List Input) : List (State σ) :=
  (changes c State.tracked s is).filter (·.initialized)

/-- The output is off as at the start, or shows the level that the last of these changes left. -/
structure Lit (c : Config) (periodUs : UInt32) (last : Option (State σ)) (p : Pwm) : Prop where
  willing : p.Willing
  unlit : last = none → p.on = false
  shows : ∀ t, last = some t → ∃ level, t.backlight.level = some level ∧ p.Shows c periodUs level

theorem litChanges_concat (s : State σ) (is : List Input) (i : Input) :
    litChanges c s (is ++ [i]) = litChanges c s is ++
      if (step c (run c s is) i).tracked ≠ (run c s is).tracked ∧
        (step c (run c s is) i).initialized = true then [step c (run c s is) i] else [] := by
  rw [litChanges, litChanges, changes_append, List.filter_append]
  simp only [changes, List.append_nil]
  by_cases ht : (step c (run c s is) i).tracked = (run c s is).tracked
  · simp [ht]
  · cases hi : (step c (run c s is) i).initialized <;> simp [ht, hi]

theorem lit_run (ha : c.actuator = .pwm periodUs) (start : State σ) (hpwm : start.pwm = some {})
    (hstart : start.Lowered) {inputs : List Input}
    (hi : ∀ config enable, .pwmFails config enable ∉ inputs) :
    (run c start inputs).Lowered ∧ ∃ p, (run c start inputs).pwm = some p ∧
      Lit c periodUs (litChanges c start inputs).getLast? p := by
  induction inputs using List.reverseRecOn with
  | nil =>
    refine ⟨hstart, {}, hpwm, ⟨rfl, rfl⟩, fun _ => rfl, fun t ht => ?_⟩
    cases ht
  | append_singleton is i ih =>
    obtain ⟨hlowered, p, hp, hlit⟩ :=
      ih fun config enable h => hi config enable (List.mem_append_left _ h)
    have hne (config enable : Bool) : i ≠ .pwmFails config enable := by
      rintro rfl
      exact hi config enable (List.mem_append_right _ (List.mem_singleton_self _))
    obtain ⟨hlights, hlowered⟩ := lights_step ha ⟨p, hp, hlit.willing⟩ hlowered hne
    rw [litChanges_concat, run_append, run_cons, run_nil]
    refine ⟨hlowered, ?_⟩
    cases hlights with
    | kept ht hsame =>
      rw [if_neg (by simp [ht]), List.append_nil]
      exact ⟨p, hsame.trans hp, hlit⟩
    | unpowered hoff hsame =>
      rw [if_neg (by simp [hoff]), List.append_nil]
      exact ⟨p, hsame.trans hp, hlit⟩
    | @powered hon ht level hl hshown =>
      rw [if_pos ⟨ht, hon⟩, List.getLast?_append, List.getLast?_singleton, Option.some_or]
      have hp' : (step c (run c start is) i).pwm = some (p.showing c periodUs level) := by
        rw [hshown, hp, Option.map_some]
      refine ⟨_, hp', hlit.willing.showing, nofun, ?_⟩
      rintro _ ⟨⟩
      exact ⟨level, hl, shows_showing level p⟩

/-- Whatever fails but the output, a panel that is powered down with its gate open is at level zero,
and its output shows the level of the last change that left the panel powered. So the output shows
the level tracked, and is dark on a panel powered down, if the last change left the panel powered. A
change that did not reaches the output at no time. -/
theorem output_of_last_powered_change (ha : c.actuator = .pwm periodUs) (host : σ) (display : Display)
    (regulator : Option Regulator) {inputs : List Input}
    (hi : ∀ config enable, .pwmFails config enable ∉ inputs) :
    let start := State.initial c host display (some {}) regulator
    let s := run c start inputs
    let history := changes c State.tracked start inputs
    (s.backlight.power = .down → s.backlight.gateOpen = true → s.backlight.level = some 0) ∧
      (∀ t, history.getLast? = some t → t.tracked = s.tracked) ∧
      ∃ p, s.pwm = some p ∧
        ((litChanges c start inputs).getLast? = none → p.on = false) ∧
        (∀ t, (litChanges c start inputs).getLast? = some t →
          ∃ level, t.backlight.level = some level ∧ p.Shows c periodUs level) ∧
        (∀ t, history.getLast? = some t → t.initialized = true →
          ∃ level, s.backlight.level = some level ∧ p.Shows c periodUs level) := by
  intro start s history
  obtain ⟨hlowered, p, hp, hlit⟩ := lit_run ha start rfl nofun hi
  have hlast (t : State σ) (ht : history.getLast? = some t) : t.tracked = s.tracked := by
    have h := last_change (c := c) State.tracked start inputs
    rw [ht] at h
    exact h.symm
  refine ⟨fun hdown hgate => ?_, hlast, p, hp, hlit.unlit, hlit.shows, fun t ht hon => ?_⟩
  · obtain hzero | ⟨hshut, -⟩ := hlowered hdown
    · exact hzero
    · rw [hgate] at hshut
      cases hshut
  · have hlit' : (litChanges c start inputs).getLast? = some t := by
      obtain ⟨earlier, hsplit⟩ := List.getLast?_eq_some_iff.mp ht
      rw [litChanges, show changes c State.tracked start inputs = earlier ++ [t] from hsplit,
        List.filter_append]
      simp [hon]
    obtain ⟨level, hl, hshown⟩ := hlit.shows t hlit'
    exact ⟨level, (congrArg Prod.fst (hlast t ht)).symm.trans hl, hshown⟩

theorem output_of_level_zero_while_powered :
    let c := Bench.pwmPlain
    let start := State.initial c ({} : Bench.Host) {} (some {}) none
    let s := run c start [.request .enable, .request (.setDpms .off)]
    s.backlight.power = .down ∧ ∃ p, s.pwm = some p ∧ p.Shows c 100 0 := by
  intro c start s
  let inputs : List Input := [.request .enable, .request (.setDpms .off)]
  have hwilling (config enable : Bool) : .pwmFails config enable ∉ inputs := by simp [inputs]
  obtain ⟨-, -, p, hp, -, -, hlast⟩ :=
    output_of_last_powered_change (c := c) rfl ({} : Bench.Host) {} none hwilling
  have hpowered :
      (changes c State.tracked start inputs).getLast?.map (·.initialized) = some true := by
    decide +kernel
  obtain ⟨t, ht, hon⟩ := Option.map_eq_some_iff.mp hpowered
  obtain ⟨level, hlevel, hshown⟩ := hlast t ht hon
  have hzero : s.backlight.level = some 0 := by decide +kernel
  obtain rfl : level = 0 := Option.some.inj (hlevel.symm.trans hzero)
  exact ⟨by decide +kernel, p, hp, hshown⟩

/-- The output stays on behind a panel that is powered down by the request for it. -/
theorem output_on_while_powered_down :
    let c := Bench.pwmPlain
    let start := State.initial c ({} : Bench.Host) {} (some {}) none
    let s := run c start [.request .enable, .request .disable]
    (Config.ofNode Bench.pwmNode true).toOption = some c ∧ s.backlight.power = .down ∧
      s.backlight.gateOpen = true ∧ s.backlight.level = some 0 ∧ s.pwm.map (·.on) = some true := by
  decide +kernel

end Panel
end OledPanel
