import OledPanel.Proofs.Courses
import OledPanel.Proofs.Updates

/-! The phases of a step. A step contains at most one update of the level. What comes before the
update and what comes after it sends messages that have nothing to do with levels. What comes
before leaves the range in force, or leaves all ranges where the update cannot enter one; what
comes after leaves the backlight and the range as the update left them. So all levels of a step go
with the backlight that the step ends with. -/

namespace OledPanel.Panel

open OledPanel.Action (Given Same Within)
open Dsi (Message Sends Transport)

variable {σ : Type} {c : Config}

/-- The messages that are not levels: those of command sets, and those that address a register of
the driver other than that of the level, or the register of compensation. -/
inductive Aside (c : Config) (m : Message) : Prop
  | set {set : Dsi.CommandSet} (hs : c.Has set) (hm : m ∈ set.messages)
  | register (hm : m.cmd ∈ Dsi.getBrightness :: Dsi.writeControl :: Gamma.registers)
  | irc {irc : Hbm.Irc} (hi : c.irc? = some irc) (hm : m.cmd = irc.address)

theorem Routine.aside {s : State σ} {m : Message} (h : Routine c s m) (hs : s.gamma.Laid) :
    Aside c m := by
  obtain ⟨set, hset, hm⟩ | hm := h.cmd hs
  · exact .set hset hm
  · exact .register hm

variable [Transport σ]

/-- The host is sent messages with a property and no others. -/
def Hands (P : Message → Prop) (s t : State σ) : Prop := Sends P s.host t.host

instance (P : Message → Prop) : IsPreorder (State σ) (Hands P) where
  refl s := refl s.host
  trans _ _ _ := IsTrans.trans (r := Sends P) _ _ _

/-- As long as gamma tables are laid out as they are sent, asides are all that is sent. -/
abbrev Asides (c : Config) : State σ → State σ → Prop :=
  Given (fun s => s.gamma.Laid) (Hands (Aside c))

/-- The backlight and the range in force are the same. -/
abbrev Placed : State σ → State σ → Prop := Same fun s => (s.backlight, s.hbm.range)

theorem asides_of_eq {s t : State σ} (hh : t.host = s.host) (hg : t.gamma = s.gamma) :
    Asides c s t := by
  intro hs
  refine ⟨?_, ?_⟩
  · show t.gamma.Laid
    rw [hg]
    exact hs
  · rw [Hands, hh]
    exact refl s.host

theorem asides_of_transfer (s : State σ) {m : Message} (hm : s.gamma.Laid → Aside c m) :
    Asides c s { s with host := (Dsi.transfer m).after s.host } :=
  fun hs => ⟨hs, .single ⟨m, hm hs, rfl⟩⟩

theorem asides_unaware : Unaware c (Asides c : State σ → State σ → Prop) where
  task s t h := by
    cases h with
    | transfer hm => exact asides_of_transfer s hm.aside
    | gamma g hg => exact fun hs => ⟨hg hs, refl s.host⟩
    | _ => exact asides_of_eq rfl rfl
  dims _ _ _ _ := asides_of_eq rfl rfl
  ask s irc hirc := asides_of_transfer s fun _ => .irc hirc rfl
  store s irc bytes m hirc hm := by
    refine asides_of_transfer s fun _ => .irc hirc ?_
    rw [Message.cmd, (Dsi.plain?_eq hm).1]
    rfl
  keep _ _ _ := asides_of_eq rfl rfl
  mode _ _ := asides_of_eq rfl rfl

theorem asides_tasks {s t : State σ} (h : Tasks c s t) : Asides c s t :=
  Action.related_of_closure asides_unaware.task h

theorem asides_errands {s t : State σ} (h : Errands c s t) : Asides c s t := by
  refine Action.related_of_closure (fun _ _ h => ?_) h
  cases h with
  | task h => exact asides_unaware.task _ _ h
  | _ => exact asides_of_eq rfl rfl

theorem range_errands {s t : State σ} (h : Errands c s t) : t.hbm.range = s.hbm.range := by
  have hsame : Same (fun s : State σ => s.hbm.range) s t := by
    refine Action.related_of_closure (fun _ _ h => ?_) h
    cases h with
    | task h => cases h <;> rfl
    | _ => rfl
  exact hsame

theorem placed_tasks {s t : State σ} (h : Tasks c s t) : Placed s t :=
  Action.related_of_closure (fun _ _ h => by cases h <;> rfl) h

theorem placed_stopDimming : Within Placed (stopDimming c : Action (State σ) Unit) :=
  fun _ => related_stopDimming fun _ _ _ => rfl

theorem placed_countFrame (arrived : Bool) :
    Within Placed (countFrame c arrived : Action (State σ) Unit) :=
  fun s => related_countFrame arrived (fun _ => placed_stopDimming { s with hbm.dimming.left := 0 })
    fun _ _ => rfl

theorem asides_stopDimming : Within (Asides c) (stopDimming c : Action (State σ) Unit) :=
  asides_unaware.stopDimming

theorem asides_countFrame (arrived : Bool) :
    Within (Asides c) (countFrame c arrived : Action (State σ) Unit) :=
  asides_unaware.countFrame arrived

theorem asides_settle : Within (Asides c) (settle c : Action (State σ) Unit) :=
  Ensues.settle ⟨asides_unaware.task, asides_countFrame true⟩

theorem placed_settle : Within Placed (settle c : Action (State σ) Unit) :=
  Ensues.settle ⟨fun _ _ h => placed_tasks (c := c) (.single h), placed_countFrame true⟩

/-! ### Brightness -/

theorem setBrightness_eq_update {b : UInt32} {s : State σ}
    (hok : (setBrightness c b).answer s = .ok ()) :
    (update c).answer { s with backlight.brightness := b } = .ok () ∧
      (setBrightness c b).after s = (update c).after { s with backlight.brightness := b } := by
  unfold setBrightness at hok ⊢
  dsimp only at hok ⊢
  split at hok
  · cases hok
  · next hb =>
    rw [if_neg hb]
    exact ⟨hok, rfl⟩

/-- What comes after a request leaves the backlight to it. -/
theorem backlight_step_setBrightness (s : State σ) (b : UInt32) :
    (step c s (.request (.setBrightness b))).backlight = ((setBrightness c b).after s).backlight := by
  have hsettle : Placed ((setBrightness c b).after s) (step c s (.request (.setBrightness b))) := by
    rw [step_eq, ← after_done]
    exact placed_settle _
  exact (Prod.mk.inj hsettle).1

/-! ### Phases -/

/-- No range is in force, and none is entered by an update. -/
def State.Barred (s : State σ) : Prop :=
  s.hbm.range = none ∧ (s.hbm.mode = .off ∨ s.backlight.wanted = 0)

/-- A step without an update, or with one and what comes before and after it. -/
inductive Phases (c : Config) (s t : State σ) : Prop
  | aside (h : Asides c s t) (hr : t.hbm.range = s.hbm.range ∨ t.hbm.range = none)
  | update (u : State σ) (h : Asides c s u) (hr : u.hbm.range = s.hbm.range ∨ u.Barred)
    (k : Asides c ((update c).after u) t) (hk : Placed ((update c).after u) t)

theorem Phases.trans {s t u : State σ} (h : Phases c s t) (k : Asides c t u) (hk : Placed t u) :
    Phases c s u := by
  cases h with
  | aside h hr =>
    refine .aside (IsTrans.trans _ _ _ h k) ?_
    rwa [(Prod.mk.inj hk).2]
  | update v h hr k' hk' =>
    exact .update v h hr (IsTrans.trans _ _ _ k' k) (IsTrans.trans _ _ _ hk' hk)

theorem phases_lateDpms {s t : State σ} (d : Dpms) (h : Asides c s t)
    (hr : t.hbm.range = s.hbm.range ∨ t.hbm.range = none ∧ d = .off) :
    Phases c s ((lateDpms c d).after t) := by
  have henter : Asides c t ((enterDpms d).after t) := by
    rw [after_enterDpms]
    exact asides_of_eq rfl rfl
  have hnotify := tasks_notify (c := c) (.changed .state)
    ((update c).after ((enterDpms d).after t))
  rw [lateDpms_eq]
  refine .update _ (IsTrans.trans _ _ _ h henter) ?_ (asides_tasks hnotify) (placed_tasks hnotify)
  rw [after_enterDpms]
  obtain hr | ⟨hr, rfl⟩ := hr
  · exact .inl hr
  · exact .inr ⟨hr, .inr rfl⟩

theorem phases_transition {s t : State σ} (d : Dpms) {set : Dsi.CommandSet} (hset : c.Has set)
    (h : Tasks c s t) : Phases c s ((transition c d set).after t) := by
  have hearly : Asides c s ((earlyDpms d).after t) ∧
      ((earlyDpms d).after t).hbm.range = s.hbm.range := by
    rw [after_earlyDpms]
    exact ⟨IsTrans.trans _ _ _ (asides_tasks h) (asides_of_eq rfl rfl),
      (Prod.mk.inj (placed_tasks h)).2⟩
  rw [transition, Action.after_bind]
  split
  · have hsend := asides_tasks (tasks_send hset ((earlyDpms d).after t))
    rw [after_onHost] at hsend
    rw [Action.after_outcome_bind, Action.after_bind_ofExcept, after_onHost]
    exact phases_lateDpms d (IsTrans.trans _ _ _ hearly.1 hsend) (.inl hearly.2)
  · exact .aside hearly.1 (.inl hearly.2)

theorem phases_enable (s : State σ) : Phases c s ((enable c).after s) := by
  have hsend := asides_tasks (tasks_send (c := c) .on s)
  rw [after_onHost] at hsend
  rw [enable, earlyDpms_on, Action.after_pure_bind, Action.after_bind, after_onHost]
  split
  · rw [Action.after_modify_bind]
    have hpowered : Asides c s (powered c { s with host := c.sets.on.send.after s.host }) :=
      IsTrans.trans _ _ _ hsend (asides_of_eq rfl rfl)
    exact phases_lateDpms .on hpowered (.inl rfl)
  · exact .aside hsend (.inl rfl)

theorem phases_disable (s : State σ) : Phases c s ((disable c).after s) := by
  have hsend := asides_tasks (tasks_send (c := c) .off ((drain c).after s))
  rw [after_onHost] at hsend
  have hshut (t : State σ) : Asides c t ((shutDown c).after t) ∧
      ((shutDown c).after t).hbm.range = none := by
    rw [shutDown_eq]
    refine ⟨?_, rfl⟩
    have hstop : Asides c { t with initialized := false } _ := asides_stopDimming _
    exact IsTrans.trans _ _ _ hstop (asides_of_eq rfl rfl)
  rw [disable_eq]
  refine phases_lateDpms .off ?_ (.inr ⟨(hshut _).2, rfl⟩)
  exact IsTrans.trans _ _ _ (asides_tasks (tasks_drain s)) (IsTrans.trans _ _ _ hsend (hshut _).1)

theorem phases_changeHbm {h : Hbm.Config} (hh : c.hbm = some h) (mode : HbmMode) (s : State σ) :
    Phases c s ((changeHbm c h mode).after s) := by
  have hmode : Asides c s { s with hbm.mode := mode } := asides_of_eq rfl rfl
  have hfollow : Within (Asides c) (followSunlight c s.hbm.mode mode : Action (State σ) Unit) :=
    within_followSunlight asides_unaware.toCompensates s.hbm.mode mode
  have hframe (t : State σ) : ((followSunlight c s.hbm.mode mode).after t).hbm.range = t.hbm.range ∧
      ((followSunlight c s.hbm.mode mode).after t).hbm.mode = t.hbm.mode := by
    obtain ⟨g, b, o, he⟩ := followSunlight_frame (c := c) s.hbm.mode mode t
    rw [he]
    exact ⟨rfl, rfl⟩
  have hupdate {u : State σ} (hu : Asides c s u) (hr : u.hbm.range = s.hbm.range ∨ u.Barred) :
      Phases c s (Action.after (do update c; notify (.changed .hbmMode)) u) := by
    have h : Phases c s ((update c).after u) := .update u hu hr (refl _) (refl _)
    have hnotify := tasks_notify (c := c) (.changed .hbmMode) ((update c).after u)
    rw [Action.after_bind]
    split
    · exact h.trans (asides_tasks hnotify) (placed_tasks hnotify)
    · exact h
  rw [changeHbm_eq]
  split
  · next hoff =>
    have hexit := within_exitRanges asides_unaware.toBlind hh { s with hbm.mode := mode }
    refine hupdate (IsTrans.trans _ _ _ hmode (IsTrans.trans _ _ _ hexit (hfollow _))) (.inr ?_)
    obtain ⟨g, he⟩ := exitRanges_frame (c := c) h { s with hbm.mode := mode }
    obtain ⟨d, m, hstart⟩ := startDimming_frame h.exitFrames .exit { s with hbm.mode := mode }
    rw [State.Barred, (hframe _).1, (hframe _).2, he, hstart]
    exact ⟨rfl, .inl hoff⟩
  · refine hupdate (IsTrans.trans _ _ _ hmode (hfollow _)) (.inl ?_)
    exact (hframe _).1

theorem phases_course {s t : State σ} {i : Input} (h : Course c s i t) : Phases c s t := by
  have herrands {t : State σ} (h : Errands c s t) : Phases c s t :=
    .aside (asides_errands h) (.inl (range_errands h))
  cases h with
  | errands h => exact herrands h.errands
  | sets h => exact herrands (.single h.errand)
  | opens h _ => exact herrands (h.opens fun _ => rfl)
  | update h gate hg =>
    have hopens := h.opens hg
    exact .update _ (asides_errands hopens) (.inl (range_errands hopens)) (refl _) (refl _)
  | early d =>
    rw [after_earlyDpms]
    exact .aside (asides_of_eq rfl rfl) (.inl rfl)
  | late d => exact phases_lateDpms d (refl s) (.inl rfl)
  | transition d h hset => exact phases_transition d hset h
  | enable => exact phases_enable s
  | disable => exact phases_disable s
  | irc on =>
    obtain ⟨g, b, he⟩ := updateIrc_frame (c := c) on s
    exact .aside (within_updateIrc asides_unaware.toCompensates on s) (.inl (by rw [he]))
  | hbm hh hm hs => exact phases_changeHbm hh _ s
  | retimes h =>
    have hplaced : Placed s t :=
      h.related (fun _ _ h => placed_tasks (c := c) (.single h)) fun _ _ => rfl
    have hasides : Asides c s t := h.related asides_unaware.task fun _ _ => asides_of_eq rfl rfl
    exact .aside hasides (.inl (Prod.mk.inj hplaced).2)
  | giveUp =>
    exact .aside (asides_countFrame false s) (.inl (Prod.mk.inj (placed_countFrame false s)).2)
  | regulator on => exact .aside (asides_of_eq rfl rfl) (.inl rfl)
  | pwm config enable => exact herrands (.single (.pwm s _))

theorem phases_step (s : State σ) (i : Input) : Phases c s (step c s i) := by
  rw [step_eq]
  exact (phases_course (course_perform i s)).trans (asides_settle _) (placed_settle _)

/-! ### What a step sends -/

/-- The messages of a step that ends with this backlight: levels only where no bin expresses the
brightness. -/
def Spoken (c : Config) (b : Backlight.State) (m : Message) : Prop :=
  Aside c m ∨ Direct c b ∧
    ∃ level, m ∈ Dsi.plain? (Dsi.setBrightness :: c.backlight.encode level) true

omit [Transport σ] in
theorem binOf_keeps {s t : State σ} (h : Keeps s t) (bins : List LowPower.Bin) :
    binOf bins t.backlight = binOf bins s.backlight := by
  rw [binOf, binOf, h.bits, h.brightness]

omit [Transport σ] in
theorem spoken_keeps {s t : State σ} (h : Keeps s t) (m : Message) :
    Spoken c t.backlight m ↔ Spoken c s.backlight m := by
  simp only [Spoken, Direct, binOf_keeps h]

/-- As long as gamma tables are laid out as they are sent, only such messages are sent. -/
abbrev Speaks (c : Config) (b : Backlight.State) : State σ → State σ → Prop :=
  Given (fun s => s.gamma.Laid) (Hands (Spoken c b))

theorem speaks_of_asides {s t : State σ} (h : Asides c s t) (b : Backlight.State) :
    Speaks c b s t := by
  intro hs
  obtain ⟨ht, hsent⟩ := h hs
  exact ⟨ht, Sends.mono hsent fun _ => .inl⟩

theorem speaks_strokes {s t : State σ} (h : Strokes c s t) : Speaks c s.backlight s t := by
  induction h with
  | refl => exact refl s
  | @tail t u h step ih =>
    have hkeeps : Keeps s t := Strokes.keeps h
    refine IsTrans.trans _ _ _ ih ?_
    cases step with
    | transfer hl hc hm => exact speaks_of_asides (asides_of_transfer t (Routine.set hc hm).aside) _
    | level level hl hd hm =>
      have hm : Spoken c t.backlight _ := .inr ⟨hd, level, hm⟩
      exact fun ht => ⟨ht, .single ⟨_, (spoken_keeps hkeeps _).mp hm, rfl⟩⟩
    | restart =>
      obtain ⟨m, he⟩ := restartDimming_frame t
      rw [he]
      exact speaks_of_asides (asides_of_eq rfl rfl) _
    | _ => exact speaks_of_asides (asides_of_eq rfl rfl) _

theorem Speaks.mono {a b : Backlight.State} {s t : State σ} (h : Speaks c a s t)
    (hab : ∀ m, Spoken c a m → Spoken c b m) : Speaks c b s t := by
  intro hs
  obtain ⟨ht, hsent⟩ := h hs
  exact ⟨ht, Sends.mono hsent hab⟩

theorem speaks_update (s : State σ) : Speaks c s.backlight s ((update c).after s) := by
  obtain ⟨t, hst, htu⟩ := update_strokes (c := c) s
  have hbring : Speaks c s.backlight t ((update c).after s) :=
    (speaks_strokes htu).mono fun m => (spoken_keeps hst.keeps m).mp
  cases hst with
  | stay => exact hbring
  | enter hh hr _ _ _ =>
    have henter := within_enterRange asides_unaware.toBlind hh hr s
    exact IsTrans.trans _ _ _ (speaks_of_asides henter _) hbring

/-- A step sends no level but for a backlight whose brightness no bin expresses. -/
theorem speaks_step (s : State σ) (i : Input) :
    Speaks c (step c s i).backlight s (step c s i) := by
  have h := phases_step (c := c) s i
  generalize step c s i = t at h ⊢
  cases h with
  | aside h _ => exact speaks_of_asides h _
  | update u h _ k hk =>
    have hback : t.backlight = ((update c).after u).backlight := (Prod.mk.inj hk).1
    have hupdate : Speaks c t.backlight u ((update c).after u) := by
      refine (speaks_update u).mono fun m hm => ?_
      rw [hback]
      exact (spoken_keeps (keeps_update u) m).mpr hm
    refine IsTrans.trans _ _ _ (speaks_of_asides h _) (IsTrans.trans _ _ _ hupdate ?_)
    exact speaks_of_asides k _

/-- Gamma tables that were read are laid out as they are sent, throughout a run. -/
theorem laid_run {s : State σ} (hs : s.gamma.Laid) (is : List Input) : (run c s is).gamma.Laid := by
  induction is generalizing s with
  | nil => exact hs
  | cons i is ih => exact ih (speaks_step s i hs).1

end OledPanel.Panel
