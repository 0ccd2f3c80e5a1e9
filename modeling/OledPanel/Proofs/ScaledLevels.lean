import OledPanel.Bench.Plain
import OledPanel.Proofs.Rounding
import OledPanel.Proofs.Within

/-! Brightness on its way to a level outside high-brightness mode. It is scaled by two factors, one
after the other and each rounded down, and what is left lies between the dimmest and the highest
level as it does among the brightnesses. Each of these steps keeps the order, so the level follows
the brightness and either factor. A brightness that is scaled down to nothing still has the dimmest
level; only brightness zero has level zero. -/

namespace OledPanel

namespace Brightness

variable {x x' n n' d b b' f f' g g' : UInt32}

/-! ### Fractions -/

/-- A larger fraction of more is no less. -/
theorem multFrac_mono (hx : x ≤ x') (hn : n ≤ n') (hd : n' ≤ d) :
    multFrac x n d ≤ multFrac x' n' d := by
  rw [UInt32.le_iff_toNat_le, toNat_multFrac (UInt32.le_trans hn hd), toNat_multFrac hd]
  rw [UInt32.le_iff_toNat_le] at hx hn
  exact Nat.div_le_div_right (Nat.mul_le_mul hx hn)

theorem multFrac_self (hd : d ≠ 0) (x : UInt32) : multFrac x d d = x := by
  have hpos : 0 < d.toNat := Nat.pos_of_ne_zero fun h => hd (UInt32.toNat_inj.mp h)
  rw [← UInt32.toNat_inj, toNat_multFrac (UInt32.le_refl d), Nat.mul_div_cancel _ hpos]

theorem scale_mono (hb : b ≤ b') (hf : f ≤ f') (hg : g ≤ g') (hf' : f' ≤ fullScale)
    (hg' : g' ≤ fullScale) : scale b f g ≤ scale b' f' g' :=
  multFrac_mono (multFrac_mono hb hf hf') hg hg'

theorem scale_fullScale (b : UInt32) : scale b fullScale fullScale = b := by
  rw [scale, multFrac_self (by decide), multFrac_self (by decide)]

/-- The factors count in parts of the full scale. -/
theorem toNat_scale (hf : f ≤ fullScale) (hg : g ≤ fullScale) (b : UInt32) :
    (scale b f g).toNat = b.toNat * f.toNat / 1024 * g.toNat / 1024 := by
  rw [scale, toNat_multFrac hg, toNat_multFrac hf]
  rfl

end Brightness

namespace LevelMap

open Brightness (fullScale scale)

variable {m : LevelMap} {b b' f f' g g' l l' : UInt32}

/-! ### Levels -/

/-- The map is linear, with its levels and its brightnesses the right way round. -/
structure Ramp (m : LevelMap) : Prop where
  linear : m.table = none
  lit : 1 ≤ m.maxBrightness
  ordered : m.dimmest ≤ m.highest

/-- The level of a brightness with both its factors. -/
def scaledLevel (m : LevelMap) (b factor sunlightFactor : UInt32) : Except Error UInt32 :=
  if b = 0 then .ok 0 else m.level (scale b factor sunlightFactor)

theorem Ramp.level_ok (hm : m.Ramp) (b : UInt32) : ∃ l, m.level b = .ok l := by
  rw [level, hm.linear]
  exact Brightness.interpolate_ok hm.lit hm.ordered b

theorem Ramp.level_mono (hm : m.Ramp) (hb : b ≤ b') (h : m.level b = .ok l)
    (h' : m.level b' = .ok l') : l ≤ l' := by
  rw [level, hm.linear] at h h'
  exact Brightness.interpolate_mono hb h h'

theorem scaledLevel_zero (m : LevelMap) (f g : UInt32) : m.scaledLevel 0 f g = .ok 0 := if_pos rfl

theorem scaledLevel_of_ne (hb : b ≠ 0) : m.scaledLevel b f g = m.level (scale b f g) := if_neg hb

theorem Ramp.scaledLevel_ok (hm : m.Ramp) (b f g : UInt32) : ∃ l, m.scaledLevel b f g = .ok l := by
  by_cases hb : b = 0
  · rw [hb, scaledLevel_zero]
    exact ⟨0, rfl⟩
  · rw [scaledLevel_of_ne hb]
    exact hm.level_ok _

theorem Ramp.scaledLevel_mem (hm : m.Ramp) (hb : b ≠ 0) (h : m.scaledLevel b f g = .ok l) :
    m.dimmest ≤ l ∧ l ≤ m.highest := by
  rw [scaledLevel_of_ne hb] at h
  exact level_mem hm.linear h

theorem Ramp.scaledLevel_mono (hm : m.Ramp) (hb : b ≤ b') (hf : f ≤ f') (hg : g ≤ g')
    (hf' : f' ≤ fullScale) (hg' : g' ≤ fullScale) (h : m.scaledLevel b f g = .ok l)
    (h' : m.scaledLevel b' f' g' = .ok l') : l ≤ l' := by
  by_cases hzero : b = 0
  · rw [hzero, scaledLevel_zero] at h
    cases h
    exact UInt32.zero_le
  · have hpos : b' ≠ 0 := by
      rintro rfl
      exact hzero (UInt32.le_zero_iff.mp hb)
    rw [scaledLevel_of_ne hzero] at h
    rw [scaledLevel_of_ne hpos] at h'
    exact hm.level_mono (Brightness.scale_mono hb hf hg hf' hg') h h'

end LevelMap

namespace Panel

open Brightness (fullScale scale)
open Dsi (Transport)

variable {σ : Type} [Transport σ] {c : Config}

/-- Outside high-brightness mode the level is found by the map alone, and nothing is done for it. -/
theorem levelOf_of_off {s : State σ} (hs : s.hbm.mode.isOn = false) (b : UInt32) :
    (levelOf c b).answer s =
        c.backlight.map.scaledLevel b s.backlight.factor s.backlight.sunlightFactor ∧
      (levelOf c b).after s = s := by
  unfold levelOf LevelMap.scaledLevel
  by_cases hb : b = 0
  · rw [if_pos hb, if_pos hb]
    exact ⟨rfl, rfl⟩
  · rw [if_neg hb, if_neg hb, Action.answer_get_bind, Action.after_get_bind]
    simp only [hs, Bool.false_eq_true, if_false]
    exact ⟨Action.answer_ofExcept _ _, Action.after_ofExcept _ _⟩

/-- With a linear map and factors up to the full scale, every brightness has a level outside
high-brightness mode. It is the level of the brightness scaled down, zero for brightness zero and else
between the dimmest and the highest, and no less where the brightness or a factor is larger. -/
theorem level_follows_brightness (hm : c.backlight.map.Ramp) :
    let m := c.backlight.map
    (∀ s : State σ, s.hbm.mode.isOn = false → ∀ b,
      (levelOf c b).answer s = m.scaledLevel b s.backlight.factor s.backlight.sunlightFactor ∧
        (levelOf c b).after s = s) ∧
    (∀ b f g, f ≤ fullScale → g ≤ fullScale →
      ∃ l, m.scaledLevel b f g = .ok l ∧ (b = 0 → l = 0) ∧
        (b ≠ 0 → m.dimmest ≤ l ∧ l ≤ m.highest) ∧
        ∀ b' f' g', b' ≤ b → f' ≤ f → g' ≤ g →
          ∃ l', m.scaledLevel b' f' g' = .ok l' ∧ l' ≤ l) ∧
    (∀ b f g, f ≤ fullScale → g ≤ fullScale → scale b f g ≤ b ∧
      (scale b f g).toNat = b.toNat * f.toNat / 1024 * g.toNat / 1024) ∧
    ∀ b, scale b fullScale fullScale = b := by
  intro m
  refine ⟨fun s hs b => levelOf_of_off hs b, fun b f g hf hg => ?level, fun b f g hf hg => ?scaled,
    Brightness.scale_fullScale⟩
  case level =>
    obtain ⟨l, hl⟩ := hm.scaledLevel_ok b f g
    refine ⟨l, hl, fun hzero => ?_, fun hb => hm.scaledLevel_mem hb hl, fun b' f' g' hb' hf' hg' => ?_⟩
    · rw [hzero, LevelMap.scaledLevel_zero] at hl
      exact (Except.ok.inj hl).symm
    · obtain ⟨l', hl'⟩ := hm.scaledLevel_ok b' f' g'
      exact ⟨l', hl', hm.scaledLevel_mono hb' hf' hg' hf hg hl' hl⟩
  case scaled => exact ⟨Brightness.scale_le hf hg b, Brightness.toNat_scale hf hg b⟩

/-- Brightness one at half scale is scaled to nothing and has the dimmest level all the same. -/
theorem level_follows_brightness_scaled_to_zero :
    let c := Bench.plain none
    let s := State.initial c ({} : Bench.Host) {} none none
    let dimmed := { s with backlight.factor := 512 }
    c.backlight.map.Ramp ∧ scale 1 512 1024 = 0 ∧ (levelOf c 1).answer dimmed = .ok 1 ∧
      ∃ l, c.backlight.map.scaledLevel 255 1024 1024 = .ok l ∧ 1 ≤ l ∧ l ≤ 255 := by
  intro c s dimmed
  have hm : c.backlight.map.Ramp := ⟨rfl, by decide, by decide⟩
  obtain ⟨hanswer, hlevel, -, -⟩ := level_follows_brightness (σ := Bench.Host) hm
  obtain ⟨l, hl, -, hbounds, -⟩ := hlevel 255 1024 1024 (by decide) (by decide)
  refine ⟨hm, by decide, ?_, l, hl, hbounds (by decide)⟩
  rw [(hanswer dimmed rfl 1).1]
  decide

end Panel
end OledPanel
