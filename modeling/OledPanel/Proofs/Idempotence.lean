import OledPanel.Bench.Plain
import OledPanel.Proofs.Demand
import OledPanel.Proofs.Recording

/-! Bringing the level up to date twice. The first update may enter a range, start counting frames,
send a bin or hold the level back; if it goes well, the second finds the same level in the range in
force, and finds it shown already or held back already. So it does nothing at all. -/

namespace OledPanel.Panel

open Dsi (Recorder Transport)

variable {σ : Type} [Transport σ] {c : Config}

/-! ### Finding the level again -/

/-- A level found in high-brightness mode is that of a range, which is in force afterwards. -/
theorem range_of_hbmLevel {b level : UInt32} {s : State σ}
    (hl : (hbmLevel c b).answer s = .ok level) : ∃ h i r, c.hbm = some h ∧
      target? h b = some (i, r) ∧ ((hbmLevel c b).after s).hbm.range = some i ∧
        Brightness.interpolate r.userStart r.userEnd r.panelStart r.panelEnd b = .ok level := by
  unfold hbmLevel at hl ⊢
  cases hh : c.hbm with
  | none => simp [hh] at hl
  | some h =>
  simp only [hh] at hl ⊢
  cases ht : target? h b with
  | none => simp [ht] at hl
  | some t =>
  obtain ⟨i, r⟩ := t
  simp only [ht, Action.answer_get_bind, Action.after_get_bind] at hl ⊢
  refine ⟨h, i, r, rfl, ht, ?_⟩
  split at hl
  · next hi =>
    rw [if_pos hi, Action.after_bind]
    rw [Action.answer_bind] at hl
    split at hl
    · rw [Action.answer_ofExcept] at hl
      obtain ⟨g, he⟩ := enterRange_frame (c := c) i r s
      refine ⟨?_, hl⟩
      simp only [Action.after_ofExcept, he]
    · cases hl
  · next hi =>
    rw [Action.answer_ofExcept] at hl
    rw [if_neg hi, Action.after_ofExcept]
    exact ⟨Decidable.not_not.mp hi, hl⟩

theorem hbmLevel_in_range {h : Hbm.Config} {i : Nat} {r : Hbm.Range} {b level : UInt32} {s : State σ}
    (hh : c.hbm = some h) (ht : target? h b = some (i, r)) (hi : s.hbm.range = some i)
    (hl : Brightness.interpolate r.userStart r.userEnd r.panelStart r.panelEnd b = .ok level) :
    hbmLevel c b s = .ok level s := by
  simp only [hbmLevel, hh, ht, hl]
  change (if s.hbm.range ≠ some i then _ else pure level : Action (State σ) UInt32) s = _
  rw [if_neg (by simp [hi])]
  rfl

/-- A level that was found is found again at once, as long as the same is wanted and the range that
was in force then is in force still. -/
theorem levelOf_again {level : UInt32} {s t : State σ}
    (hl : (levelOf c s.backlight.wanted).answer s = .ok level) (hd : t.demand = s.demand)
    (hr : t.hbm.range = ((levelOf c s.backlight.wanted).after s).hbm.range) :
    levelOf c t.backlight.wanted t = .ok level t := by
  by_cases hdark : s.demand.IsDark
  · rw [s.wanted_eq_zero_iff.mpr hdark] at hl
    rw [t.wanted_eq_zero_iff.mpr (hd ▸ hdark)]
    cases hl
    rfl
  have hs : s.backlight.brightness ≠ 0 := fun hb => hdark (.inr (.inr hb))
  have hbrightness : t.backlight.brightness = s.backlight.brightness := congrArg Demand.brightness hd
  rw [State.wanted_of_lit hdark, levelOf, if_neg hs] at hl hr
  rw [State.wanted_of_lit (hd ▸ hdark), levelOf, if_neg (hbrightness ▸ hs)]
  change (if t.demand.mode.isOn then hbmLevel c t.demand.scaled
    else Action.ofExcept (c.backlight.map.level t.demand.scaled)) t = _
  change (if s.demand.mode.isOn then hbmLevel c s.demand.scaled
    else Action.ofExcept (c.backlight.map.level s.demand.scaled)).answer s = _ at hl
  change _ = ((if s.demand.mode.isOn then hbmLevel c s.demand.scaled
    else Action.ofExcept (c.backlight.map.level s.demand.scaled)).after s).hbm.range at hr
  rw [hd]
  split at hl
  · next hm =>
    rw [if_pos hm] at hr ⊢
    obtain ⟨h, i, r, hh, ht, hi, hl⟩ := range_of_hbmLevel hl
    exact hbmLevel_in_range hh ht (hr.trans hi) hl
  · next hm =>
    rw [Action.answer_ofExcept] at hl
    rw [if_neg hm, hl]
    rfl

/-! ### Nothing left to do -/

/-- A level is shown, or held back behind the shut gate. -/
def State.Settled (s : State σ) (level : UInt32) : Prop :=
  s.shows level = true ∨ s.backlight.gateOpen = false ∧ s.backlight.held = true

theorem settled_commit {b level : UInt32} {s : State σ} {r : Option UInt32}
    (h : (commit c b level).answer s = .ok r) : ((commit c b level).after s).Settled level := by
  cases hg : s.backlight.gateOpen with
  | true => exact .inl (shows_commit hg h)
  | false =>
    rw [commit_of_shut hg]
    exact .inr ⟨hg, rfl⟩

/-- An update settles the level that was found, in the range that finding it left in force. -/
theorem settled_updateLevel {s : State σ} {r : Option UInt32}
    (h : (updateLevel c).answer s = .ok r) : ∃ level,
      (levelOf c s.backlight.wanted).answer s = .ok level ∧
      ((updateLevel c).after s).hbm.range = ((levelOf c s.backlight.wanted).after s).hbm.range ∧
      ((updateLevel c).after s).Settled level := by
  rw [updateLevel, Action.answer_get_bind, Action.answer_bind] at h
  split at h
  · next level hl =>
    refine ⟨level, hl, ?_⟩
    rw [Action.answer_get_bind] at h
    rw [updateLevel_of_found hl]
    split
    · next hs => exact ⟨rfl, .inl hs⟩
    · next hs =>
      rw [if_neg hs] at h
      exact ⟨(strokes_commit _ level _).range, settled_commit h⟩
  · cases h

/-- A level that is settled and found at once leaves nothing to do. -/
theorem updateLevel_of_settled {level : UInt32} {s : State σ}
    (hl : levelOf c s.backlight.wanted s = .ok level s) (hs : s.Settled level) :
    updateLevel c s = .ok none s := by
  have hfound : updateLevel c s = (if s.shows level then pure none
      else commit c s.backlight.wanted level : Action (State σ) (Option UInt32)) s := by
    change (levelOf c s.backlight.wanted >>= fun level => MonadState.get >>= fun t =>
      if t.shows level then pure none else commit c s.backlight.wanted level :
        Action (State σ) (Option UInt32)) s = _
    rw [Action.bind_of_ok hl]
    rfl
  rw [hfound]
  split
  · rfl
  · next hshown =>
    obtain h | ⟨hg, hheld⟩ := hs
    · exact absurd h hshown
    · have hsame : { s with backlight.held := true } = s := by rw [← hheld]
      change (if !s.backlight.gateOpen then _ else _ : Action (State σ) (Option UInt32)) s = _
      rw [if_pos (by simp [hg])]
      exact congrArg (EStateM.Result.ok none) hsame

theorem updateLevel_after_update {s : State σ} (h : (update c).answer s = .ok ()) :
    updateLevel c ((update c).after s) = .ok none ((update c).after s) := by
  have hdemand : ((update c).after s).demand = s.demand := demand_update s
  obtain ⟨d, -, -, -, hframe⟩ := update_frame (c := c) s
  rw [update, Action.answer_bind] at h
  split at h
  · next b hb =>
    obtain ⟨level, hl, hrange, hsettled⟩ := settled_updateLevel hb
    have hrange' : ((update c).after s).hbm.range =
        ((levelOf c s.backlight.wanted).after s).hbm.range := by rw [hframe, ← hrange]
    have hsettled' : ((update c).after s).Settled level := by rwa [hframe]
    exact updateLevel_of_settled (levelOf_again hl hdemand hrange') hsettled'
  · cases h

/-- An update that went well leaves nothing to the next: whatever the actuator, the mode, the power
state and the gate, an update right after it goes well too, has no brightness to report, and leaves
everything as it is, the record of what was sent and the events collected included. -/
theorem update_idempotent (c : Config) (s : State (Recorder σ))
    (h : (update c).answer s = .ok ()) :
    let t := (update c).after s
    (update c).answer t = .ok () ∧ (update c).after t = t ∧ (updateLevel c).answer t = .ok none := by
  intro t
  have ht : updateLevel c t = .ok none t := updateLevel_after_update h
  have hupdate : update c t = .ok () t := by
    rw [update, Action.bind_of_ok ht]
    rfl
  simp [Action.answer, Action.after, ht, hupdate]

theorem update_idempotent_on_entry :
    let dimmed (start finish : UInt32) : Hbm.Range := {
      userStart := start
      userEnd := finish
      panelStart := 100
      panelEnd := 200
      entry := { commands := [⟨.shortWriteParam, true, 0, [0x53, 0xE8]⟩] }
      stop := { commands := [⟨.shortWriteParam, true, 0, [0x53, 0xE0]⟩] }
      frames := 2 }
    let c := Bench.plain (some {
      ranges := [dimmed 0 199, dimmed 200 255]
      exit := {}
      exitStop := {}
      exitFrames := 0
      irc := none })
    let host : Bench.Host := { registers := [(Dsi.getBrightness, [220])] }
    let s := run c (State.initial c ({ host } : Recorder Bench.Host) {} none none)
      [.request .enable, .request (.setHbm .on), .request .handoff]
    let t := (update c).after s
    (update c).answer s = .ok () ∧ (s.hbm.range = some 0 ∧ t.hbm.range = some 1) ∧
      (t.host.writes 0x53).length = (s.host.writes 0x53).length + 1 ∧
      (t.host.writes Dsi.setBrightness).length = (s.host.writes Dsi.setBrightness).length + 1 ∧
      (update c).answer t = .ok () ∧ (update c).after t = t := by
  intro dimmed c host s t
  have h : (update c).answer s = .ok () := by decide +kernel
  obtain ⟨hagain, hsame, -⟩ := update_idempotent c s h
  exact ⟨h, by decide +kernel, by decide +kernel, by decide +kernel, hagain, hsame⟩

end OledPanel.Panel
