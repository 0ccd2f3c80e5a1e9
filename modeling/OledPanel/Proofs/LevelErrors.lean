import OledPanel.Bench.Plain
import OledPanel.Proofs.Demand
import OledPanel.Proofs.Representation
import OledPanel.Proofs.ScaledLevels

/-! Why a level is not found, and what an update answers then. A panel read from a description has
a level for every brightness it can be asked for, with one exception: the levels of a linear map may
be the wrong way round. Where the map is not in use what is left is a message, on the way into a
range, that the host does not take. Nothing else of an update fails for want of a level. -/

namespace OledPanel

open OledPanel.Action (FailsWith Succeeds)

namespace Error

/-- The host did not take a message. -/
def IsTransfer (e : Error) : Prop := ∃ cmd reason, e = .transfer cmd (.host reason)

/-- There is no level for a brightness. -/
inductive IsUnmapped : Error → Prop
  | range (b : UInt32) : IsUnmapped (.noMatchingRange b)
  | inverted (x1 x2 y1 y2 : UInt32) : IsUnmapped (.invertedRange x1 x2 y1 y2)

theorem IsTransfer.not_isUnmapped {e : Error} (h : e.IsTransfer) : ¬e.IsUnmapped := by
  obtain ⟨cmd, reason, rfl⟩ := h
  nofun

end Error

namespace Dsi

variable {σ : Type} [Transport σ]

theorem fails_transfer (m : Message) :
    FailsWith Error.IsTransfer (transfer m : Action σ (List UInt8)) := by
  intro h e he
  cases hr : (Transport.transfer m h).1 with
  | ok rx =>
    rw [answer_transfer hr] at he
    cases he
  | error reason =>
    rw [answer_transfer_of_error hr] at he
    cases he
    exact ⟨_, _, rfl⟩

theorem fails_write (cmd : UInt8) (params : List UInt8) :
    FailsWith Error.IsTransfer (write cmd params : Action σ Unit) := by
  obtain ⟨m, hm⟩ := plain?_cons cmd params true
  rw [write, writeBuffer_eq hm]
  exact (fails_transfer m).discard

theorem CommandSet.fails_sendAll (ms : List Message) :
    FailsWith Error.IsTransfer (sendAll ms : Action σ Unit) := by
  induction ms with
  | nil => exact (Succeeds.pure ()).failsWith _
  | cons m ms ih => exact (fails_transfer m).discard.bind fun _ => ih

end Dsi

namespace Panel

open Dsi (Transport)

variable {σ : Type} [Transport σ] {c : Config}

/-! ### Bringing a level out -/

theorem fails_announce (set : Dsi.CommandSet) :
    FailsWith Error.IsTransfer (announce c set : Action (State σ) Unit) := by
  unfold announce
  split
  · exact (Dsi.CommandSet.fails_sendAll _).within _ _
  · exact FailsWith.get fun s => FailsWith.get fun t => (Dsi.fails_write _ _).within _ _

theorem fails_writeLevel (level : UInt32) :
    FailsWith (¬·.IsUnmapped) (writeLevel c level : Action (State σ) Unit) := by
  refine FailsWith.get fun s => FailsWith.within ?_ _ _
  refine FailsWith.ite (fun _ => FailsWith.throw nofun) fun _ => ?_
  refine FailsWith.ite (fun _ => (Succeeds.pure ()).failsWith _) fun _ => ?_
  exact (Dsi.fails_write _ _).mono fun _ => Error.IsTransfer.not_isUnmapped

theorem fails_writeBin (bins : List LowPower.Bin) (level : UInt32) :
    FailsWith (¬·.IsUnmapped) (writeBin c bins level : Action (State σ) Unit) := by
  refine FailsWith.get fun s => ((Succeeds.modify _).failsWith _).bind fun _ => ?_
  split
  · exact (Succeeds.ite (fun _ => succeeds_enterBin bins _) fun _ => Succeeds.pure ()).failsWith _
  · refine FailsWith.ite (fun _ => ?_) fun _ => fails_writeLevel level
    exact ((Succeeds.modify _).failsWith _).bind fun _ => fails_writeLevel level

omit [Transport σ] in
theorem fails_onPwm {α : Type} {Q : Error → Prop} (hdevice : Q .noDevice) {x : Action Pwm α}
    (hx : FailsWith Q x) : FailsWith Q (onPwm x : Action (State σ) α) := by
  intro s e he
  unfold onPwm Action.answer at he
  cases hp : s.pwm with
  | none =>
    simp only [hp] at he
    cases he
    exact hdevice
  | some p =>
    simp only [hp] at he
    exact hx.within (fun _ : State σ => p) (fun p s => { s with pwm := some p }) s e he

omit [Transport σ] in
theorem fails_writePwm (periodUs level : UInt32) :
    FailsWith (¬·.IsUnmapped) (writePwm c periodUs level : Action (State σ) Unit) := by
  have hprogram (duty period : Nat) : FailsWith (¬·.IsUnmapped) (Pwm.program duty period) := by
    intro p e
    by_cases hrefused : p.refusesConfig = true
    · simp only [Action.answer, Pwm.program, hrefused, if_true, Except.error.injEq]
      rintro rfl ⟨⟩
    · by_cases hduty : period < duty
      · simp only [Action.answer, Pwm.program, hrefused, hduty, if_true]
        rintro ⟨⟩ ⟨⟩
      · simp [Action.answer, Pwm.program, hrefused, hduty]
  have henable : FailsWith (¬·.IsUnmapped) Pwm.enable := by
    intro p e
    by_cases hrefused : p.refusesEnable = true
    · simp only [Action.answer, Pwm.enable, hrefused, if_true, Except.error.injEq]
      rintro rfl ⟨⟩
    · simp [Action.answer, Pwm.enable, hrefused]
  have habsent : ¬Error.noDevice.IsUnmapped := by
    rintro ⟨⟩
  refine FailsWith.get fun s => FailsWith.ite (fun _ => ?_) fun _ => ?_
  · exact FailsWith.ite (fun _ => (Succeeds.modify _).failsWith _) fun _ =>
      (Succeeds.pure ()).failsWith _
  · refine (fails_onPwm habsent (hprogram _ _)).bind fun _ => ?_
    exact FailsWith.ite (fun _ => fails_onPwm habsent henable) fun _ =>
      (Succeeds.pure ()).failsWith _

theorem fails_actuate (level : UInt32) :
    FailsWith (¬·.IsUnmapped) (actuate c level : Action (State σ) Unit) := by
  unfold actuate
  split
  · exact (Succeeds.pure ()).failsWith _
  · exact fails_writeLevel level
  · exact fails_writeBin _ level
  · exact fails_writePwm _ level

/-- A level that was found is not wanting, so bringing it out fails for other reasons. -/
theorem fails_commit (b level : UInt32) :
    FailsWith (¬·.IsUnmapped) (commit c b level : Action (State σ) (Option UInt32)) := by
  have hpresent : FailsWith (¬·.IsUnmapped) (present c b level : Action (State σ) Unit) := by
    refine (fails_actuate level).bind fun _ => ((Succeeds.modify _).failsWith _).bind fun _ => ?_
    exact FailsWith.get fun s =>
      FailsWith.ite (fun _ => (succeeds_observeAls b).failsWith _) fun _ => (Succeeds.pure ()).failsWith _
  have htrack (r : Option UInt32) : FailsWith (¬·.IsUnmapped)
      (do modify (track level); return r : Action (State σ) (Option UInt32)) :=
    ((Succeeds.modify _).bind fun _ => Succeeds.pure r).failsWith _
  refine FailsWith.get fun s => FailsWith.ite (fun _ => ?_) fun _ => ?_
  · exact Succeeds.failsWith (fun _ => ⟨none, rfl⟩) _
  · refine ((Succeeds.modify _).failsWith _).bind fun _ => ?_
    exact FailsWith.ite (fun _ => hpresent.bind fun _ => htrack _) fun _ => htrack _

/-! ### Finding a level -/

omit [Transport σ] in
/-- What is wanted with both factors is no brighter than the panel can be asked to be. -/
theorem scaled_le {s : State σ} (hs : s.Sound c) :
    s.demand.scaled ≤ c.backlight.map.maxBrightness :=
  UInt32.le_trans (Brightness.scale_le hs.backlight.factor hs.backlight.sunlightFactor _)
    hs.backlight.brightness

omit [Transport σ] in
/-- Every brightness a panel can be asked for has a range and a level in it. -/
theorem target_of_covers (hc : c.Covers) {h : Hbm.Config} (hh : c.hbm = some h) {b : UInt32}
    (hb : b ≤ c.backlight.map.maxBrightness) : ∃ i r, target? h b = some (i, r) ∧
      ∃ level, Brightness.interpolate r.userStart r.userEnd r.panelStart r.panelEnd b = .ok level := by
  have habut := hc.ranges h hh
  have hindex : ∃ i, (if b = 0 then some 0 else h.find? b) = some i ∧ i < h.ranges.length := by
    split
    · exact ⟨0, rfl, List.length_pos_iff.mpr habut.ne_nil⟩
    · obtain ⟨i, hi⟩ := habut.find hb
      exact ⟨i, hi, (List.findIdx?_eq_some_iff_findIdx_eq.mp hi).1⟩
  obtain ⟨i, hi, hlt⟩ := hindex
  refine ⟨i, h.ranges[i], ?_, ?_⟩
  · rw [target?, hi, Option.bind_some, List.getElem?_eq_getElem hlt]
    rfl
  · have hmem : h.ranges[i] ∈ h.ranges := List.getElem_mem hlt
    exact Brightness.interpolate_ok (habut.ordered _ hmem) (hc.levels h hh _ hmem) b

/-- A level in high-brightness mode is not found only where announcing its range fails. -/
theorem announce_of_hbmLevel (hc : c.Covers) {h : Hbm.Config} (hh : c.hbm = some h) {b : UInt32}
    (hb : b ≤ c.backlight.map.maxBrightness) {s : State σ} {e : Error}
    (he : (hbmLevel c b).answer s = .error e) : ∃ i r, h.ranges[i]? = some r ∧
      s.hbm.range ≠ some i ∧ (announce c r.entry).answer
        { (startDimming r.frames (.range i)).after s with hbm.range := some i } = .error e := by
  obtain ⟨i, r, ht, level, hl⟩ := target_of_covers hc hh hb
  refine ⟨i, r, target?_eq ht, ?_⟩
  unfold hbmLevel at he
  simp only [hh, ht, Action.answer_get_bind, hl] at he
  split at he
  · next hi =>
    rw [Action.answer_bind] at he
    split at he
    · cases he
    · next d hd =>
      cases he
      exact ⟨hi, hd⟩
  · cases he

/-- Outside high-brightness mode a level is not found only where the levels of the linear map are
the wrong way round, and then none is but that of a dark panel. -/
theorem levelOf_error_iff (hc : c.Covers) {s : State σ} (hs : s.Sound c)
    (hoff : s.hbm.mode.isOn = false) {e : Error} :
    (levelOf c s.backlight.wanted).answer s = .error e ↔ s.backlight.wanted ≠ 0 ∧
      c.backlight.map.table = none ∧ c.backlight.map.highest < c.backlight.map.dimmest ∧
      e = .invertedRange 1 c.backlight.map.maxBrightness c.backlight.map.dimmest
        c.backlight.map.highest := by
  by_cases hdark : s.backlight.wanted = 0
  · rw [hdark]
    exact iff_of_false nofun fun h => h.1 rfl
  have hlit : ¬s.demand.IsDark := fun h => hdark (s.wanted_eq_zero_iff.mpr h)
  have hmax : ¬c.backlight.map.maxBrightness < 1 := by
    have hle := hs.backlight.brightness
    rw [← State.wanted_of_lit hlit, UInt32.le_iff_toNat_le] at hle
    rw [← UInt32.toNat_inj] at hdark
    rw [UInt32.lt_iff_toNat_lt]
    change _ ≠ 0 at hdark
    change ¬_ < 1
    omega
  have hlevel : (levelOf c s.backlight.wanted).answer s = c.backlight.map.level
      (Brightness.scale s.backlight.wanted s.backlight.factor s.backlight.sunlightFactor) := by
    rw [(levelOf_of_off hoff _).1, LevelMap.scaledLevel_of_ne hdark]
  rw [hlevel, LevelMap.level_error_iff hc.table]
  simp [hdark, hmax]

/-- In high-brightness mode a level is not found only where announcing its range fails. -/
theorem announce_of_levelOf (hc : c.Covers) {s : State σ} (hs : s.Sound c) (hp : Permitted c s.hbm)
    (hon : s.hbm.mode.isOn = true) {e : Error}
    (he : (levelOf c s.backlight.wanted).answer s = .error e) : ∃ h i r, c.hbm = some h ∧
      h.ranges[i]? = some r ∧ s.hbm.range ≠ some i ∧ (announce c r.entry).answer
        { (startDimming r.frames (.range i)).after s with hbm.range := some i } = .error e := by
  obtain ⟨h, hh⟩ := Option.isSome_iff_exists.mp (hp.mode (by simpa [HbmMode.isOn] using hon))
  have hlit : ¬s.demand.IsDark := by
    intro hdark
    rw [s.wanted_eq_zero_iff.mpr hdark] at he
    cases he
  have hb : s.backlight.brightness ≠ 0 := fun hb => hlit (.inr (.inr hb))
  rw [State.wanted_of_lit hlit, levelOf, if_neg hb, Action.answer_get_bind] at he
  dsimp only at he
  rw [if_pos hon] at he
  obtain ⟨i, r, hr, hi, hannounce⟩ := announce_of_hbmLevel hc hh (scaled_le hs) he
  exact ⟨h, i, r, hh, hr, hi, hannounce⟩

/-! ### Updates -/

theorem update_error_of_levelOf {s : State σ} {e : Error}
    (he : (levelOf c s.backlight.wanted).answer s = .error e) : (update c).answer s = .error e := by
  rw [update, Action.answer_bind, updateLevel, Action.answer_get_bind, Action.answer_bind, he]

/-- An update fails because the level is not found, or for another reason. -/
theorem update_error_cases {s : State σ} {e : Error} (he : (update c).answer s = .error e) :
    (levelOf c s.backlight.wanted).answer s = .error e ∨ ¬e.IsUnmapped := by
  cases hl : (levelOf c s.backlight.wanted).answer s with
  | ok level =>
    obtain ⟨-, hcommit, -⟩ := commit_of_failed_update hl he
    exact .inr (fails_commit _ level _ _ hcommit)
  | error d =>
    obtain rfl : d = e := Except.error.inj ((update_error_of_levelOf hl).symm.trans he)
    exact .inl rfl

/-- An update fails for want of a level only outside high-brightness mode, on a lit panel whose
linear map has its levels the wrong way round. -/
theorem update_unmapped_iff (hc : c.Covers) {s : State σ} (hs : s.Sound c) (hp : Permitted c s.hbm)
    {e : Error} (he : e.IsUnmapped) : (update c).answer s = .error e ↔
      s.hbm.mode.isOn = false ∧ s.backlight.wanted ≠ 0 ∧ c.backlight.map.table = none ∧
        c.backlight.map.highest < c.backlight.map.dimmest ∧
        e = .invertedRange 1 c.backlight.map.maxBrightness c.backlight.map.dimmest
          c.backlight.map.highest := by
  constructor
  · intro h
    have hlevel := (update_error_cases h).resolve_right (not_not_intro he)
    cases hm : s.hbm.mode.isOn with
    | false => exact ⟨rfl, (levelOf_error_iff hc hs hm).mp hlevel⟩
    | true =>
      obtain ⟨_, _, _, _, _, _, hannounce⟩ := announce_of_levelOf hc hs hp hm hlevel
      exact absurd he (fails_announce _ _ _ hannounce).not_isUnmapped
  · rintro ⟨hm, h⟩
    exact update_error_of_levelOf ((levelOf_error_iff hc hs hm).mpr h)

/-- No panel runs out of ranges. An update finds no level only where the level is to come from a
linear map whose highest level is below its lowest one; in high-brightness mode it finds none only
where the host does not take what announces the range. -/
theorem update_finds_level {n : Node} {hasPwm : Bool} (hc : Config.ofNode n hasPwm = .ok c) (host : σ)
    (display : Display) (pwm : Option Pwm) (regulator : Option Regulator) (inputs : List Input) :
    let s := run c (State.initial c host display pwm regulator) inputs
    let map := c.backlight.map
    (∀ b, (update c).answer s ≠ .error (.noMatchingRange b)) ∧
      ((∃ x1 x2 y1 y2, (update c).answer s = .error (.invertedRange x1 x2 y1 y2)) ↔
        s.hbm.mode.isOn = false ∧ map.table = none ∧ s.backlight.wanted ≠ 0 ∧
          map.highest < max map.lowest 1) ∧
      ∀ e, s.hbm.mode.isOn = true → (levelOf c s.backlight.wanted).answer s = .error e →
        e.IsTransfer ∧ ∃ h i r, c.hbm = some h ∧ h.ranges[i]? = some r ∧ s.hbm.range ≠ some i ∧
          (announce c r.entry).answer
            { (startDimming r.frames (.range i)).after s with hbm.range := some i } = .error e := by
  intro s map
  have hcovers : c.Covers := covers_of_ofNode hc
  have hsound : s.Sound c := sound_run_of_ofNode hc host display pwm regulator inputs
  have hpermitted : Permitted c s.hbm := permitted_run host display pwm regulator inputs
  refine ⟨fun b h => ?_, ⟨?_, ?_⟩, fun e hon he => ?_⟩
  · obtain ⟨-, -, -, -, h⟩ := (update_unmapped_iff hcovers hsound hpermitted (.range b)).mp h
    cases h
  · rintro ⟨x1, x2, y1, y2, h⟩
    obtain ⟨hm, hlit, ht, hlt, -⟩ :=
      (update_unmapped_iff hcovers hsound hpermitted (.inverted x1 x2 y1 y2)).mp h
    exact ⟨hm, ht, hlit, hlt⟩
  · rintro ⟨hm, ht, hlit, hlt⟩
    exact ⟨_, _, _, _, (update_unmapped_iff hcovers hsound hpermitted (.inverted _ _ _ _)).mpr
      ⟨hm, hlit, ht, hlt, rfl⟩⟩
  · obtain ⟨h, i, r, hh, hr, hi, hannounce⟩ := announce_of_levelOf hcovers hsound hpermitted hon he
    exact ⟨fails_announce _ _ _ hannounce, h, i, r, hh, hr, hi, hannounce⟩

/-- The first panel has its levels the wrong way round; the second does not take the command on the
way into its second range. -/
theorem update_finds_level_unless_refused :
    let node (highest : UInt32) : Node := {
      name := "panel"
      properties := [
        (Backlight.Config.keyKind, .text "bl_ctrl_dcs"),
        (LevelMap.keyLowest, .cell 5),
        (LevelMap.keyHighest, .cell highest)]
      children := [Bench.hbmNode [] [
        Bench.rangeNode 0 100 200 none,
        Bench.withProperties (Bench.rangeNode 200 300 400 none)
          [(Hbm.keyEntry, .cells (Dsi.CommandSet.pack [[0xE4, 0x01]]))]]] }
    let c (highest : UInt32) : Config := { Bench.plain (some {
        ranges := [
          ⟨0, 199, 100, 200, {}, {}, 0⟩,
          ⟨200, 255, 300, 400, { commands := [⟨.shortWriteParam, true, 0, [0xE4, 0x01]⟩] }, {}, 0⟩]
        exit := {}
        exitStop := {}
        exitFrames := 0
        irc := none }) with
      backlight := { (Bench.plain none).backlight with map := { lowest := 5, highest } } }
    let host : Bench.Host := { registers := [(Dsi.getBrightness, [250])], failing := [0xE4] }
    let off := run (c 4) (State.initial (c 4) host {} none none) [.request .enable]
    let on := run (c 255) (State.initial (c 255) host {} none none)
      [.request .enable, .request (.setHbm .on), .request .handoff]
    Config.ofNode (node 4) false = .ok (c 4) ∧ Config.ofNode (node 255) false = .ok (c 255) ∧
      (∃ x1 x2 y1 y2, (update (c 4)).answer off = .error (.invertedRange x1 x2 y1 y2)) ∧
      ∃ e, (levelOf (c 255) on.backlight.wanted).answer on = .error e ∧ e.IsTransfer ∧
        on.hbm.range = some 0 := by
  intro node c host off on
  have hoff : Config.ofNode (node 4) false = .ok (c 4) := by decide +kernel
  have hon : Config.ofNode (node 255) false = .ok (c 255) := by decide +kernel
  obtain ⟨-, hinverted, -⟩ := update_finds_level hoff host {} none none [.request .enable]
  obtain ⟨-, -, hrefused⟩ := update_finds_level hon host {} none none
    [.request .enable, .request (.setHbm .on), .request .handoff]
  refine ⟨hoff, hon, hinverted.mpr (by decide +kernel), ?_⟩
  have he : (levelOf (c 255) on.backlight.wanted).answer on =
      .error (.transfer 0xE4 (.host "injected failure")) := by decide +kernel
  exact ⟨_, he, (hrefused _ (by decide +kernel) he).1, by decide +kernel⟩

end Panel
end OledPanel
