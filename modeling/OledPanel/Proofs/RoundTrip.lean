import OledPanel.Bench.Plain
import OledPanel.Proofs.Inputs
import OledPanel.Proofs.Representation

/-! Attributes that are written as they are shown. The timing for idling and the thresholds of ambient
light are what requests set and nothing else changes, so the timing is the first to fit a request and
its name finds it again, whatever other timings have its size or its rate, and a table that is not
empty stays one. Writing back what such an attribute shows then finds everything as it is asked for,
and leaves it so. -/

namespace OledPanel.Panel

open OledPanel.Action (Same Within)
open Dsi (Transport)

variable {σ : Type} [Transport σ] {c : Config}

/-! ### Settings -/

abbrev SameSettings : State σ → State σ → Prop := Same State.settings

theorem settings_task (s t : State σ) (h : Task c s t) : SameSettings s t :=
  Tasks.settings (c := c) (.single h)

theorem settings_unaware : Unaware c (SameSettings : State σ → State σ → Prop) where
  task := settings_task
  dims _ _ _ _ := rfl
  ask _ _ _ := rfl
  store _ _ _ _ _ _ := rfl
  keep _ _ _ := rfl
  mode _ _ := rfl

theorem settings_patient : Patient c (SameSettings : State σ → State σ → Prop) where
  toUnaware := settings_unaware
  early d s := by
    show State.settings _ = State.settings _
    rw [after_earlyDpms]
    rfl
  quiet _ _ h := h.settings
  powered _ := rfl
  unpowered _ := rfl
  regulator _ _ := rfl

omit [Transport σ] in
theorem settings_readies {s t : State σ} (h : Readies s t) : SameSettings s t := by
  cases h with
  | gate gate hg => rfl
  | enters d =>
    show State.settings _ = State.settings _
    rw [after_enterDpms]
    rfl

theorem settings_retimes {s t : State σ} {i : Input} (h : Retimes c s i t) : SameSettings s t := by
  cases h with
  | @schedule _ j current _ _ =>
    rw [after_queueSwitch]
    exact (tasks_drain (c := c) { s with refresh.current := current }).settings
  | @idle j _ =>
    exact (tasks_performSwitch (c := c) (s := { s with refresh.scheduled := some j }) rfl).settings

/-- A step leaves the settings, or it is a request that sets them. -/
theorem settings_step (s : State σ) (i : Input) :
    SameSettings s (step c s i) ∨ ∃ t, Sets c s i t ∧ SameSettings t (step c s i) := by
  have hpatient : Patient c (SameSettings : State σ → State σ → Prop) := settings_patient
  have hsettle := hpatient.ensues.settle ((i.perform c).after s)
  have hdeed := hpatient.deed (course_perform i s)
  rw [step_eq]
  generalize (i.perform c).after s = t at hdeed hsettle ⊢
  cases hdeed with
  | admitted h => exact .inl (IsTrans.trans _ _ _ h hsettle)
  | @updates u v _ h hv ht =>
    have hupdate : SameSettings v ((update c).after v) := (keeps_update v).settings
    have hv := IsTrans.trans _ _ _ h (settings_readies hv)
    exact .inl (IsTrans.trans _ _ _ (IsTrans.trans _ _ _ hv hupdate)
      (IsTrans.trans _ _ _ ht.settings hsettle))
  | sets h => exact .inr ⟨_, h, hsettle⟩
  | opens h _ => exact .inl (IsTrans.trans _ _ _ h hsettle)
  | retimes h => exact .inl (IsTrans.trans _ _ _ (settings_retimes h) hsettle)
  | pwm _ => exact .inl hsettle

/-- The timing for idling is the first to fit a request for a rate. -/
def Config.Idles (c : Config) (i : Option Nat) : Prop :=
  ∀ j, i = some j → ∃ r, r.rate ≠ 0 ∧ Timing.find? c.timings r = some j

theorem idles_of_findTiming {r : Option ModeRequest} {i : Option Nat}
    (hi : r.mapM (findTiming c) = .ok i) (hr : ∀ q, r = some q → q.rate ≠ 0) : c.Idles i := by
  rintro j rfl
  cases r with
  | none => cases hi
  | some q =>
    rw [Option.mapM_some] at hi
    refine ⟨q, hr q rfl, ?_⟩
    unfold findTiming at hi
    split at hi
    · next k hk =>
      cases hi
      exact hk
    · cases hi

theorem idles_run (inputs : List Input)
    (hr : ∀ r, .request (.setIdleMode (some r)) ∈ inputs → r.rate ≠ 0) {s : State σ}
    (hs : c.Idles s.refresh.idle) : c.Idles (run c s inputs).refresh.idle := by
  induction inputs generalizing s with
  | nil => exact hs
  | cons i inputs ih =>
    refine ih (fun r hmem => hr r (List.mem_cons_of_mem _ hmem)) ?_
    obtain h | ⟨t, ht, h⟩ := settings_step (c := c) s i
    · rw [(Prod.mk.inj h).1]
      exact hs
    · rw [(Prod.mk.inj h).1]
      cases ht with
      | thresholds _ _ _ => exact hs
      | idle q hq hi =>
        refine idles_of_findTiming hq fun r hqr => ?_
        obtain rfl | hne := hi
        · exact hr r (by simp [hqr])
        · exact hne r hqr

/-- A table with a threshold, if the panel has a table. -/
def Graded (ts : Option (List UInt32)) : Prop := ∃ l, ts = some l ∧ l ≠ []

theorem graded_run (inputs : List Input) {s : State σ}
    (hs : Graded (s.backlight.als.map (·.thresholds))) :
    Graded ((run c s inputs).backlight.als.map (·.thresholds)) := by
  induction inputs generalizing s with
  | nil => exact hs
  | cons i inputs ih =>
    refine ih ?_
    obtain h | ⟨t, ht, h⟩ := settings_step (c := c) s i
    · rw [(Prod.mk.inj h).2]
      exact hs
    · rw [(Prod.mk.inj h).2]
      cases ht with
      | idle _ _ _ => exact hs
      | thresholds hals hne hl => exact ⟨_, rfl, hne⟩

/-! ### Attributes -/

/-- What the attribute shows can be written back, and neither showing nor writing changes anything. -/
def Restores (c : Config) (s : State σ) (a : Attribute) : Prop :=
  ∃ text, showAttribute c a s = .ok text s ∧ storeAttribute c text.toList a s = .ok () s

theorem Restores.named {s : State σ} {a : Attribute} (h : Restores c s a) :
    ∃ text, showNamed c a.name s = .ok text s ∧
      store c a.name text s = .ok (text.utf8ByteSize : Int) s := by
  obtain ⟨text, hshow, hstore⟩ := h
  have hname : attributeNamed a.name = .ok a := by rw [attributeNamed, Attribute.ofName?_name]
  have hnamed : storeNamed c a.name text s = .ok () s := by
    rw [storeNamed, hname]
    exact hstore
  refine ⟨text, ?_, ?_⟩
  · rw [showNamed, hname]
    exact hshow
  · have houtcome : Action.outcome (storeNamed c a.name text) s = .ok (.ok ()) s := by
      rw [Action.outcome, hnamed]
    exact Action.bind_of_ok houtcome _

theorem restores_hbmMode (hh : c.hbm.isSome = true) (s : State σ) : Restores c s .hbmMode := by
  have hread : Attribute.Input.decimal (line (Text.decimal s.hbm.mode.toNat)).toList =
      .ok (s.hbm.mode.toNat : Int) :=
    Attribute.Input.decimal_of_digits (by cases s.hbm.mode <;> decide) (trim_decimalLine _)
  obtain ⟨h, hh⟩ := Option.isSome_iff_exists.mp hh
  have hset : setHbm c s.hbm.mode s = .ok () s := by
    rw [setHbm, hh]
    show (if s.hbm.mode ≠ s.hbm.mode then _ else _ : Action (State σ) Unit) s = _
    rw [if_neg (not_not.mpr rfl)]
    rfl
  refine ⟨line (Text.decimal s.hbm.mode.toNat), ?_, ?_⟩
  · show EStateM.Result.ok (if c.hbm.isSome then _ else _) s = _
    rw [hh]
    rfl
  · rw [storeAttribute, storeHbm, hread, hh]
    show (Action.ofExcept (.ok (s.hbm.mode.toNat : Int)) >>= _ : Action (State σ) Unit) s = _
    refine (Action.bind_of_ok (a := (s.hbm.mode.toNat : Int)) (t := s) rfl _).trans ?_
    rw [HbmMode.ofInt?_toNat]
    exact hset

/-- Sunlight mode is permitted while it is on. -/
theorem restores_hbmSvEnabled (hh : c.hbm.isSome = true) {s : State σ} (hs : Permitted c s.hbm) :
    Restores c s .hbmSvEnabled := by
  obtain ⟨h, hh⟩ := Option.isSome_iff_exists.mp hh
  have hset : enableSunlight c s.hbm.sunlightEnabled s = .ok () s := by
    have hpermitted : ¬(!s.hbm.sunlightEnabled ∧ s.hbm.mode = .sunlight) := fun ⟨hoff, hmode⟩ => by
      simp [hs.sunlight hmode] at hoff
    rw [enableSunlight, hh]
    show (if !s.hbm.sunlightEnabled ∧ s.hbm.mode = .sunlight then throw .busy
      else modify fun t => { t with hbm.sunlightEnabled := s.hbm.sunlightEnabled }
        : Action (State σ) Unit) s = _
    rw [if_neg hpermitted]
    rfl
  refine ⟨line (if s.hbm.sunlightEnabled then "true" else "false"), ?_, ?_⟩
  · show EStateM.Result.ok (if c.hbm.isSome then _ else _) s = _
    rw [hh]
    rfl
  · rw [storeAttribute, Attribute.Input.boolean_of_shown, hh]
    exact hset

theorem restores_alsTable {s : State σ} {als : Backlight.Als} (hals : s.backlight.als = some als)
    (hne : als.thresholds ≠ []) (hl : als.thresholds.length ≤ Backlight.maxThresholds) :
    Restores c s .alsTable := by
  have hthresholds : s.thresholds = .ok als.thresholds := by rw [State.thresholds, hals]
  have hset : setThresholds als.thresholds s = .ok () s := by
    have hreplace : als.replace als.thresholds = .ok als :=
      Backlight.Als.replace_eq_ok.mpr ⟨hne, hl, rfl⟩
    have hsame : { s with backlight.als := some als } = s := by rw [← hals]
    rw [setThresholds, Action.get_bind, hals]
    dsimp only
    rw [hreplace]
    exact congrArg (EStateM.Result.ok ()) hsame
  refine ⟨thresholdsLine als.thresholds, ?_, ?_⟩
  · show (Action.ofExcept s.thresholds >>= fun ts => pure (thresholdsLine ts) :
      Action (State σ) String) s = _
    rw [hthresholds]
    rfl
  · rw [storeAttribute, list_thresholdsLine hne hl]
    show (discard (Action.ofExcept s.thresholds) >>= fun _ => setThresholds als.thresholds
      : Action (State σ) Unit) s = _
    rw [hthresholds]
    exact hset

/-- The name of the timing for idling finds it among all that have its size or its rate. -/
theorem restores_idleMode {s : State σ} (hi : c.Idles s.refresh.idle) : Restores c s .idleMode := by
  have hset {r : Option ModeRequest} (hr : r.mapM (findTiming c) = .ok s.refresh.idle) :
      setIdleMode c r s = .ok () s := by
    rw [setIdleMode, hr]
    rfl
  have hshow : showAttribute c .idleMode s = .ok (line ((s.idleName? c).getD "none")) s := rfl
  refine ⟨_, hshow, ?_⟩
  rw [storeAttribute, storeIdle, State.idleName?]
  cases hidle : s.refresh.idle with
  | none =>
    have hnone : Text.trim (line ((c.modeName? none).getD "none")).toList = "none".toList := by
      show Text.trim (line "none").toList = _
      decide +kernel
    rw [if_pos hnone]
    exact hset (hidle ▸ rfl)
  | some j =>
    obtain ⟨r, hr, hfind⟩ := hi j hidle
    obtain ⟨t, ht, hrate, hself⟩ := Timing.find?_request hfind
    have hname : c.modeName? (some j) = some t.name := by simp [Config.modeName?, ht]
    have hparse := t.parse_name (hrate ▸ hr)
    rw [hname, Option.getD_some, if_neg, String.ofList_toList, hparse]
    · refine hset (r := some t.request) ?_
      rw [Option.mapM_some, findTiming, hself, hidle]
      rfl
    · rw [trim_line t.solid_name t.name_ne_nil]
      exact t.name_ne_none

/-- The level that is shown is the one the panel is at. -/
theorem restores_alpmMode {s : State σ} (hb : s.backlight.bits.blanked = false) :
    Restores c s .alpmMode := by
  have hread (n : UInt32) :
      Attribute.Input.clampedWord (line (Text.decimal n.toNat)).toList = .ok n :=
    Attribute.Input.clampedWord_of_digits (trim_decimalLine _)
  have hat : ∃ n : UInt32, n.toNat = s.lowPowerLevel ∧ setLowPowerLevel c n s = .ok () s := by
    have hopen (n : UInt32) : setLowPowerLevel c n s = (
        if n = 0 then if s.backlight.bits.isLowPower then leaveLp c else pure ()
        else if n = 1 then if !s.backlight.bits.lp || s.backlight.bits.lp2 then enterLp1 c else pure ()
        else if !s.backlight.bits.lp2 then enterLp2 c else pure () : Action (State σ) Unit) s := by
      rw [setLowPowerLevel]
      show (if s.backlight.bits.blanked then _ else _ : Action (State σ) Unit) s = _
      rw [if_neg (by simp [hb])]
    unfold State.lowPowerLevel
    cases hlp2 : s.backlight.bits.lp2 with
    | true =>
      refine ⟨2, rfl, ?_⟩
      rw [hopen, if_neg (by decide), if_neg (by decide), if_neg (by simp [hlp2])]
      rfl
    | false =>
      cases hlp : s.backlight.bits.lp with
      | true =>
        refine ⟨1, rfl, ?_⟩
        rw [hopen, if_neg (by decide), if_pos rfl, if_neg (by simp [hlp, hlp2])]
        rfl
      | false =>
        refine ⟨0, rfl, ?_⟩
        rw [hopen, if_pos rfl, if_neg (by simp [PowerBits.isLowPower, hlp, hlp2])]
        rfl
  obtain ⟨n, hn, hset⟩ := hat
  have hshow : showAttribute c .alpmMode s = .ok (line (Text.decimal s.lowPowerLevel)) s := rfl
  refine ⟨_, hshow, ?_⟩
  rw [storeAttribute, ← hn, hread]
  exact hset

theorem restores_teListenCount (s : State σ) : Restores c s .teListenCount := by
  refine ⟨wordLine s.refresh.listenCount, rfl, ?_⟩
  rw [storeAttribute, wordLine, Attribute.Input.word_of_digits (trim_decimalLine _)]
  rfl

theorem restores_teCounter (s : State σ) : Restores c s .teCounter := by
  refine ⟨wordLine s.refresh.pulses, rfl, ?_⟩
  rw [storeAttribute, wordLine, Attribute.Input.word_of_digits (trim_decimalLine _)]
  rfl

/-! ### Runs -/

/-- On a panel with high-brightness mode and thresholds of ambient light, those it was described with
or others, any attribute of the mode, of the thresholds, of idling and of counted pulses, and the
low-power level as long as the panel is not blanked, can be written back as it is shown. The answer is
the length of the text; neither showing nor writing it sends a message, reports an event or changes
anything else. A request for a timing is what the string of a mode is parsed to, and no string is
parsed to a rate of zero (`ModeRequest.rate_ne_zero`); for the attribute of idling, and for it alone,
the requests for the timing have to be such ones. -/
theorem store_shown {n : Node} {hasPwm : Bool} (hc : Config.ofNode n hasPwm = .ok c)
    (hh : c.hbm.isSome = true) (host : σ) (display : Display) (pwm : Option Pwm)
    (regulator : Option Regulator) (inputs : List Input)
    (a : Attribute)
    (hr : a = .idleMode → ∀ r, .request (.setIdleMode (some r)) ∈ inputs → r.rate ≠ 0) :
    let s := run c (State.initial c host display pwm regulator) inputs
    (Graded c.backlight.thresholds ∨ Graded (s.backlight.als.map (·.thresholds))) →
    (a ∈ [.hbmMode, .hbmSvEnabled, .alsTable, .idleMode, .teListenCount, .teCounter] ∨
      a = .alpmMode ∧ s.backlight.bits.blanked = false) →
    ∃ text, showNamed c a.name s = .ok text s ∧
      store c a.name text s = .ok (text.utf8ByteSize : Int) s := by
  intro s hgraded ha
  have hsound : s.Sound c := sound_run_of_ofNode hc host display pwm regulator inputs
  have hpermitted : Permitted c s.hbm := permitted_run host display pwm regulator inputs
  have hals : Graded (s.backlight.als.map (·.thresholds)) := by
    refine hgraded.elim (fun h => graded_run inputs ?_) id
    obtain ⟨ts, hts, hne⟩ := h
    exact ⟨ts, by simp [State.initial, hts], hne⟩
  refine Restores.named ?_
  obtain ha | ⟨rfl, hb⟩ := ha
  · simp only [List.mem_cons, List.not_mem_nil, or_false] at ha
    obtain rfl | rfl | rfl | rfl | rfl | rfl := ha
    · exact restores_hbmMode hh s
    · exact restores_hbmSvEnabled hh hpermitted
    · obtain ⟨ts, hts, hne⟩ := hals
      obtain ⟨als, hals, rfl⟩ := Option.map_eq_some_iff.mp hts
      exact restores_alsTable hals hne (hsound.backlight.als als hals)
    · exact restores_idleMode (idles_run inputs (hr rfl) (by rintro _ ⟨⟩))
    · exact restores_teListenCount s
    · exact restores_teCounter s
  · exact restores_alpmMode hb

/-- A timing for idling that was asked for by its rate is found again by its name, on a panel with
another timing of its size. -/
theorem store_shown_idle_mode :
    let hbm : Hbm.Config := {
      ranges := [⟨0, 255, 100, 200, {}, {}, 0⟩]
      exit := {}
      exitStop := {}
      exitFrames := 0
      irc := none }
    let node := Bench.withProperties
      (Bench.gammaNode [Bench.hbmNode [] [Bench.rangeNode 0 100 200 none]])
      [(Backlight.Config.keyThresholds, .cells [50, 150])]
    let plain := Bench.gammaPlain (some hbm)
    let c := { plain with backlight := { plain.backlight with thresholds := some [50, 150] } }
    let inputs :=
      [.request .enable, .request (.setIdleMode (some ⟨none, 90⟩)), .request (.setHbm .on)]
    let s := run c (State.initial c ({} : Bench.Host) {} none none) inputs
    Config.ofNode node false = .ok c ∧ c.hbm.isSome = true ∧
      (∀ r, .request (.setIdleMode (some r)) ∈ inputs → r.rate ≠ 0) ∧
      Graded c.backlight.thresholds ∧ s.refresh.idle = some 1 ∧
      ∃ text, showNamed c Attribute.idleMode.name s = .ok text s ∧
        store c Attribute.idleMode.name text s = .ok (text.utf8ByteSize : Int) s := by
  intro hbm node plain c inputs s
  have hc : Config.ofNode node false = .ok c := by decide +kernel
  have hr : ∀ r, .request (.setIdleMode (some r)) ∈ inputs → r.rate ≠ 0 := by
    intro r hmem
    obtain rfl : r = ⟨none, 90⟩ := by simpa [inputs] using hmem
    decide
  have hgraded : Graded c.backlight.thresholds := ⟨[50, 150], rfl, by decide⟩
  exact ⟨hc, rfl, hr, hgraded, by decide +kernel,
    store_shown hc rfl _ _ _ _ inputs .idleMode (fun _ => hr) (.inl hgraded) (.inl (by decide))⟩

end OledPanel.Panel
