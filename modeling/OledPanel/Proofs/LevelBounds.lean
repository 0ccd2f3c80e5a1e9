import OledPanel.Proofs.Demand
import OledPanel.Proofs.Phases
import OledPanel.Proofs.Wire

/-! The bounds of levels and what is left of a level in the bytes sent. The linear map keeps to the
lowest and the highest level of the panel. A table and the ranges of high-brightness mode bring
levels of their own, which the description of the panel may put outside of these. The number of
bytes goes by the highest level alone. -/

namespace OledPanel

namespace Backlight.Config

variable {c : Config} {level : UInt32}

/-! ### Bytes -/

/-- Two bytes hold a level if each half fits in its byte. -/
theorem decode_encode_of_wide (hw : c.isWide = true) (hhigh : level.toNat >>> c.lowBits < 256)
    (hlow : level.toNat % (1 <<< c.lowBits) < 256) :
    c.decode (c.encode level) = some level.toNat := by
  rw [encode, if_pos hw, decode, UInt8.toNat_ofNat', UInt8.toNat_ofNat', Nat.mod_eq_of_lt hhigh,
    Nat.mod_eq_of_lt hlow, Nat.shiftLeft_eq, Nat.shiftRight_eq_div_pow, Nat.one_shiftLeft,
    Nat.div_add_mod']

theorem decode_encode_of_narrow (hw : c.isWide = false) (hl : level.toNat < 256) :
    c.decode (c.encode level) = some level.toNat := by
  rw [encode, hw, if_neg (by decide), decode, UInt32.toNat_toUInt8, Nat.mod_eq_of_lt hl]

/-- With eight bits in the low byte, two bytes hold any level that is written at all, and one byte
any level of the panel. -/
theorem decode_encode (hb : c.lowBits = 8) (hmax : level ≤ 0xFFFF)
    (hl : c.isWide = true ∨ level ≤ c.map.highest) : c.decode (c.encode level) = some level.toNat := by
  have hlt : level.toNat ≤ 0xFFFF := UInt32.le_iff_toNat_le.mp hmax
  cases hw : c.isWide with
  | true =>
    refine decode_encode_of_wide hw ?_ ?_
    · rw [hb, Nat.shiftRight_eq_div_pow]
      omega
    · rw [hb]
      exact Nat.mod_lt _ (by decide)
  | false =>
    have hle : level.toNat ≤ c.map.highest.toNat :=
      UInt32.le_iff_toNat_le.mp (hl.resolve_left (by simp [hw]))
    have hnarrow : c.map.highest.toNat < 256 := by simpa [isWide, hb] using hw
    exact decode_encode_of_narrow hw (by omega)

end Backlight.Config

namespace Panel

open OledPanel.Action (Within)
open Dsi (Message Recorder Transport)

/-! ### Levels -/

/-- Where a level comes from and where that puts it. -/
inductive Config.Mapped (c : Config) (d : Demand) (level : UInt32) : Prop
  | linear (hm : d.mode.isOn = false) (ht : c.backlight.map.table = none)
    (hl : c.backlight.map.dimmest ≤ level) (hh : level ≤ c.backlight.map.highest)
  | table {levels : List UInt16} {l : UInt16} (hm : d.mode.isOn = false)
    (ht : c.backlight.map.table = some levels)
    (hl : levels[(min d.scaled c.backlight.map.maxBrightness).toNat]? = some l)
    (he : level = l.toUInt32)
  | range {h : Hbm.Config} {i : Nat} {r : Hbm.Range} (hm : d.mode.isOn = true) (hh : c.hbm = some h)
    (hr : target? h d.scaled = some (i, r)) (hs : r.panelStart ≤ level) (he : level ≤ r.panelEnd)

/-- The table and the ranges keep to the lowest and the highest level of the panel. -/
structure Config.KeepsBounds (c : Config) : Prop where
  table : ∀ levels, c.backlight.map.table = some levels → ∀ l ∈ levels,
    c.backlight.map.dimmest ≤ l.toUInt32 ∧ l.toUInt32 ≤ c.backlight.map.highest
  ranges : ∀ h, c.hbm = some h → ∀ r ∈ h.ranges,
    c.backlight.map.dimmest ≤ r.panelStart ∧ r.panelEnd ≤ c.backlight.map.highest

variable {σ : Type} {c : Config} {d : Demand} {level : UInt32}

theorem mapped_of_level (hd : ¬d.IsDark) (h : c.level d = .ok level) : c.Mapped d level := by
  rw [Config.level, if_neg hd] at h
  cases hm : d.mode.isOn with
  | true =>
    rw [hm, if_pos rfl, Config.rangeLevel] at h
    split at h
    · cases h
    · next hbm hh =>
      split at h
      · cases h
      · next i r hr =>
        obtain ⟨hs, he⟩ := Brightness.interpolate_mem h
        exact .range hm hh hr hs he
  | false =>
    rw [hm, if_neg (by decide)] at h
    cases ht : c.backlight.map.table with
    | none =>
      obtain ⟨hl, hh⟩ := LevelMap.level_mem ht h
      exact .linear hm ht hl hh
    | some levels =>
      rw [LevelMap.level, ht] at h
      dsimp only at h
      split at h
      · next l hl => exact .table hm ht hl (Except.ok.inj h).symm
      · cases h

theorem Config.Mapped.bounds (h : c.Mapped d level) (hc : c.KeepsBounds) :
    c.backlight.map.dimmest ≤ level ∧ level ≤ c.backlight.map.highest := by
  cases h with
  | linear _ _ hl hh => exact ⟨hl, hh⟩
  | table _ ht hl he =>
    subst he
    exact hc.table _ ht _ (List.mem_of_getElem? hl)
  | range _ hh hr hs he =>
    obtain ⟨hstart, hend⟩ := hc.ranges _ hh _ (List.mem_of_getElem? (target?_eq hr))
    exact ⟨UInt32.le_trans hstart hs, UInt32.le_trans he hend⟩

/-! ### What an update sends -/

/-- The messages of an update: those that announce a range, and the level of what is wanted. -/
inductive UpdateMessage (c : Config) (d : Demand) (m : Message) : Prop
  | set {set : Dsi.CommandSet} (hs : c.Has set) (hm : m ∈ set.messages)
  | control (hm : m.cmd = Dsi.writeControl)
  | level {level : UInt32} (hl : c.level d = .ok level) (hmax : level ≤ 0xFFFF)
    (hm : m = c.backlight.levelMessage level)

variable [Transport σ]

theorem hands_of_host {P : Message → Prop} {s t : State σ} (h : t.host = s.host) : Hands P s t := by
  rw [Hands, h]
  exact refl s.host

theorem hands_announce {set : Dsi.CommandSet} (hset : c.Has set) :
    Within (Hands (UpdateMessage c d)) (announce c set : Action (State σ) Unit) := by
  unfold announce
  split
  · intro s
    rw [Hands, after_onHost]
    exact Dsi.CommandSet.within_send set (fun m hm => .set hset hm) s.host
  · refine Within.get fun s t => ?_
    rw [writeControl, Action.after_get_bind, Hands, after_onHost]
    refine Dsi.within_write _ _ (fun m hm => .control ?_) t.host
    rw [Message.cmd, (Dsi.plain?_eq hm).1]
    rfl

theorem hands_enterRange {h : Hbm.Config} (hh : c.hbm = some h) {i : Nat} {r : Hbm.Range}
    (hr : h.ranges[i]? = some r) :
    Within (Hands (UpdateMessage c d)) (enterRange c i r : Action (State σ) Unit) := by
  have hstart : Within (Hands (UpdateMessage c d))
      (startDimming r.frames (.range i) : Action (State σ) Unit) := by
    intro s
    obtain ⟨v, m, he⟩ := startDimming_frame r.frames (.range i) s
    rw [he]
    exact hands_of_host rfl
  refine hstart.attempt.bind fun _ => Within.bind (fun s => hands_of_host rfl) fun _ => ?_
  exact hands_announce (.entry hh (List.mem_of_getElem? hr))

theorem hands_levelOf (b : UInt32) :
    Within (Hands (UpdateMessage c d)) (levelOf c b : Action (State σ) UInt32) :=
  within_levelOf (fun s _ _ _ hh hr _ _ => hands_enterRange hh hr s) b

theorem hands_writeLevel (hl : c.level d = .ok level) :
    Within (Hands (UpdateMessage c d)) (writeLevel c level : Action (State σ) Unit) := by
  intro s
  rw [writeLevel, Action.after_get_bind, Hands, after_onHost, Backlight.Config.writeLevel]
  split
  · exact refl s.host
  · next hmax =>
    split
    · exact refl s.host
    · refine Dsi.within_write _ _ (fun m hm => .level hl (UInt32.not_lt.mp hmax) ?_) s.host
      rw [c.backlight.plain?_encode] at hm
      exact (Option.some.inj hm).symm

theorem hands_commit (ha : c.actuator = .dcs) (hl : c.level d = .ok level) (b : UInt32) :
    Within (Hands (UpdateMessage c d)) (commit c b level : Action (State σ) (Option UInt32)) := by
  intro s
  obtain ⟨m, hm⟩ := restartDimming_frame s
  cases hg : s.backlight.gateOpen with
  | false =>
    rw [commit_of_shut hg]
    exact hands_of_host rfl
  | true =>
  cases hi : s.initialized with
  | false =>
    rw [commit_of_unpowered hg hi, hm]
    exact hands_of_host rfl
  | true =>
  have hwrite : Hands (UpdateMessage c d) s ((actuate c level).after (restartDimming s)) := by
    rw [hm, actuate, ha]
    exact hands_writeLevel hl { s with hbm.dimming := m }
  obtain ⟨e, -, h⟩ | ⟨-, v, k, h⟩ := commit_cases (c := c) ⟨hi, hg⟩ b level
  · rw [h]
    exact hwrite
  · rw [h]
    exact hwrite

theorem hands_update (ha : c.actuator = .dcs) (s : State σ) :
    Hands (UpdateMessage c s.demand) s ((update c).after s) := by
  have hfound := hands_levelOf (c := c) (d := s.demand) s.backlight.wanted s
  obtain ⟨d, -, -, -, h⟩ := update_frame (c := c) s
  rw [h]
  change Hands (UpdateMessage c s.demand) s ((updateLevel c).after s)
  cases hl : (levelOf c s.backlight.wanted).answer s with
  | error e =>
    rw [updateLevel_of_not_found hl]
    exact hfound
  | ok level =>
    rw [updateLevel_of_found hl]
    split
    · exact hfound
    · exact IsTrans.trans _ _ _ hfound (hands_commit ha (level_of_levelOf hl) _ _)

/-- An update that goes well leaves a level tracked that lies where the mapping in force puts it,
which is within the bounds of the panel if the table and the ranges are. Every level that an update
sends is that of what is wanted, and its bytes stand for it if there are two of them or if it is
within the bounds. -/
theorem level_of_update_in_bounds (ha : c.actuator = .dcs) (hb : c.backlight.lowBits = 8)
    (s : State (Recorder σ)) :
    let t := (update c).after s
    (s.backlight.gateOpen = true → (update c).answer s = .ok () → ¬s.demand.IsDark →
      ∃ level, t.backlight.level = some level ∧ c.Mapped s.demand level ∧
        (c.KeepsBounds → c.backlight.map.dimmest ≤ level ∧ level ≤ c.backlight.map.highest)) ∧
    ∃ es, t.host.record = s.host.record ++ es ∧ ∀ e ∈ es, e.message.cmd = Dsi.setBrightness →
      (∃ set, c.Has set ∧ e.message ∈ set.messages) ∨
      ∃ level, c.level s.demand = .ok level ∧
        e.message.tx = Dsi.setBrightness :: c.backlight.encode level ∧
        (c.backlight.isWide = true ∨ level ≤ c.backlight.map.highest →
          c.backlight.decode (c.backlight.encode level) = some level.toNat) := by
  intro t
  constructor
  · intro hg hu hlit
    obtain ⟨level, hlevel, htracked, -⟩ := tracked_of_update hg hu
    have hmapped := mapped_of_level hlit hlevel
    exact ⟨level, htracked, hmapped, hmapped.bounds⟩
  · obtain ⟨es, hes, hsent⟩ := Recorder.record_of_sends (hands_update ha s)
    refine ⟨es, hes, fun e he hcmd => ?_⟩
    cases hsent e he with
    | set hs hm => exact .inl ⟨_, hs, hm⟩
    | control hm =>
      rw [hcmd] at hm
      exact absurd hm (by decide)
    | level hl hmax hm =>
      refine .inr ⟨_, hl, ?_, Backlight.Config.decode_encode hb hmax⟩
      rw [hm]
      rfl

theorem level_of_update_in_bounds_of_linear_map :
    let c := Bench.plain none
    let on := run c (State.initial c ({ host := {} } : Recorder Bench.Host) {} none none)
      [.request .enable]
    let s := { on with backlight.brightness := 200 }
    s.backlight.gateOpen = true ∧ (update c).answer s = .ok () ∧ ¬s.demand.IsDark ∧
      ∃ level, ((update c).after s).backlight.level = some level ∧ 1 ≤ level ∧ level ≤ 255 := by
  intro c on s
  have hg : s.backlight.gateOpen = true := by decide +kernel
  have hu : (update c).answer s = .ok () := by decide +kernel
  have hlit : ¬s.demand.IsDark := by decide +kernel
  have hc : c.KeepsBounds := ⟨nofun, nofun⟩
  refine ⟨hg, hu, hlit, ?_⟩
  obtain ⟨level, htracked, -, hbounds⟩ := (level_of_update_in_bounds (c := c) rfl rfl s).1 hg hu hlit
  exact ⟨level, htracked, hbounds hc⟩

/-- A range may have levels above the highest of the panel. -/
theorem level_of_range_above_highest :
    let hbm : Hbm.Config := {
      ranges := [⟨0, 255, 600, 1000, {}, {}, 0⟩]
      exit := {}
      exitStop := {}
      exitFrames := 0
      irc := none }
    let c : Config := { Bench.plain (some hbm) with
      backlight := { (Bench.plain none).backlight with map := { lowest := 1, highest := 511 } } }
    let node : Node := {
      name := "panel"
      properties := [
        (Backlight.Config.keyKind, .text "bl_ctrl_dcs"),
        (LevelMap.keyLowest, .cell 1),
        (LevelMap.keyHighest, .cell 511)]
      children := [Bench.hbmNode [] [Bench.rangeNode 0 600 1000 none]] }
    let s := run c (State.initial c ({} : Bench.Host) {} none none)
      [.request .enable, .request (.setHbm .on)]
    let t := (update c).after s
    (Config.ofNode node false).toOption = some c ∧
      s.backlight.gateOpen = true ∧ (update c).answer s = .ok () ∧ t.backlight.bits = {} ∧
      t.backlight.brightness = 127 ∧ t.backlight.level = some 799 ∧
      ¬(799 : UInt32) ≤ c.backlight.map.highest := by
  refine ⟨by decide +kernel, ?_⟩
  decide +kernel

end Panel
end OledPanel
