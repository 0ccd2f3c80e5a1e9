import OledPanel.Brightness.LevelMap
import OledPanel.Proofs.Within

/-! Interpolation in natural numbers. No step of it wraps, and it never leaves its target range. -/

namespace OledPanel

namespace Brightness

variable {x1 x2 y1 y2 x y : UInt32}

/-- How far a point at distance `d` in a range of width `w` lies in a range of width `v`, to the
nearest, a half upwards. -/
def nearest (w v d : Nat) : Nat := (d * v + w / 2) / w

theorem nearest_le {w v d : Nat} (hd : d < w) : nearest w v d ≤ v := by
  rw [nearest, Nat.div_le_iff_le_mul_add_pred (by omega)]
  have hle : d * v ≤ (w - 1) * v := Nat.mul_le_mul_right v (by omega)
  have hsplit : w * v = (w - 1) * v + v := by
    rw [← Nat.succ_mul, Nat.succ_eq_add_one, Nat.sub_add_cancel (by omega)]
  omega

/-- What is rounded fits in 64 bits. -/
theorem toNat_rounded {w v d : UInt32} (hd : d < w) :
    ((d.toUInt64 * v.toUInt64 + w.toUInt64 / 2) / w.toUInt64).toNat =
      nearest w.toNat v.toNat d.toNat := by
  have hw : w.toNat < 2 ^ 32 := w.toNat_lt
  have hv : v.toNat < 2 ^ 32 := v.toNat_lt
  have hlt : d.toNat < w.toNat := UInt32.lt_iff_toNat_lt.mp hd
  have hprod : d.toNat * v.toNat ≤ (2 ^ 32 - 1) * (2 ^ 32 - 1) :=
    Nat.mul_le_mul (by omega) (by omega)
  have htwo : (2 : UInt64).toNat = 2 := rfl
  simp only [UInt64.toNat_div, UInt64.toNat_add, UInt64.toNat_mul, UInt32.toNat_toUInt64, htwo, nearest]
  rw [Nat.mod_eq_of_lt (a := d.toNat * v.toNat) (by omega), Nat.mod_eq_of_lt (by omega)]

/-- The value between the ends of the source range. -/
theorem interpolate_inside (hy : y1 ≤ y2) (h1 : x1 < x) (h2 : x < x2) :
    ∃ y, interpolate x1 x2 y1 y2 x = .ok y ∧ y.toNat = y1.toNat +
      nearest (x2.toNat - x1.toNat) (y2.toNat - y1.toNat) (x.toNat - x1.toNat) := by
  have hx1 : x1.toNat < x.toNat := UInt32.lt_iff_toNat_lt.mp h1
  have hx2 : x.toNat < x2.toNat := UInt32.lt_iff_toNat_lt.mp h2
  have hyn : y1.toNat ≤ y2.toNat := UInt32.le_iff_toNat_le.mp hy
  have hy2 : y2.toNat < 2 ^ 32 := y2.toNat_lt
  have hd : (x - x1).toNat = x.toNat - x1.toNat := UInt32.toNat_sub_of_le x x1 (UInt32.le_of_lt h1)
  have hv : (y2 - y1).toNat = y2.toNat - y1.toNat := UInt32.toNat_sub_of_le y2 y1 hy
  have hw : (x2 - x1).toNat = x2.toNat - x1.toNat :=
    UInt32.toNat_sub_of_le x2 x1 (UInt32.le_of_lt (UInt32.lt_trans h1 h2))
  have hrounded := toNat_rounded (w := x2 - x1) (v := y2 - y1) (d := x - x1)
    (by rw [UInt32.lt_iff_toNat_lt]; omega)
  rw [hd, hv, hw] at hrounded
  have hle : nearest (x2.toNat - x1.toNat) (y2.toNat - y1.toNat) (x.toNat - x1.toNat) ≤
      y2.toNat - y1.toNat := nearest_le (by omega)
  have hranges : ¬(x2 < x1 ∨ y2 < y1) := by
    rw [UInt32.lt_iff_toNat_lt, UInt32.lt_iff_toNat_lt]
    omega
  have hstart : ¬(x2 = x1 ∨ x ≤ x1) := by
    rw [← UInt32.toNat_inj, UInt32.le_iff_toNat_le]
    omega
  have hvalue : interpolate x1 x2 y1 y2 x = .ok (y1 + (((x - x1).toUInt64 * (y2 - y1).toUInt64 +
      (x2 - x1).toUInt64 / 2) / (x2 - x1).toUInt64).toUInt32) := by
    rw [interpolate, if_neg hranges, if_neg hstart, if_neg (UInt32.not_le.mpr h2)]
  refine ⟨_, hvalue, ?_⟩
  rw [UInt32.toNat_add, UInt64.toNat_toUInt32, hrounded, Nat.mod_eq_of_lt (by omega),
    Nat.mod_eq_of_lt (by omega)]

/-- An interpolated point lies in the target range. -/
theorem interpolate_mem (h : interpolate x1 x2 y1 y2 x = .ok y) : y1 ≤ y ∧ y ≤ y2 := by
  by_cases hranges : x2 < x1 ∨ y2 < y1
  · rw [interpolate, if_pos hranges] at h
    cases h
  have hy : y1 ≤ y2 := UInt32.not_lt.mp fun hlt => hranges (.inr hlt)
  by_cases hstart : x2 = x1 ∨ x ≤ x1
  · rw [interpolate, if_neg hranges, if_pos hstart] at h
    cases h
    exact ⟨UInt32.le_refl _, hy⟩
  by_cases hend : x2 ≤ x
  · rw [interpolate, if_neg hranges, if_neg hstart, if_pos hend] at h
    cases h
    exact ⟨hy, UInt32.le_refl _⟩
  have h1 : x1 < x := UInt32.not_le.mp fun hle => hstart (.inr hle)
  obtain ⟨z, hz, hvalue⟩ := interpolate_inside hy h1 (UInt32.not_le.mp hend)
  obtain rfl : z = y := Except.ok.inj (hz.symm.trans h)
  have hle := nearest_le (v := y2.toNat - y1.toNat)
    (show x.toNat - x1.toNat < x2.toNat - x1.toNat by
      rw [UInt32.not_le, UInt32.lt_iff_toNat_lt] at hend
      rw [UInt32.lt_iff_toNat_lt] at h1
      omega)
  rw [UInt32.le_iff_toNat_le] at hy
  rw [UInt32.le_iff_toNat_le, UInt32.le_iff_toNat_le]
  omega

/-- Interpolation fails for nothing but ends that are the wrong way round. -/
theorem interpolate_error_iff {e : Error} : interpolate x1 x2 y1 y2 x = .error e ↔
    (x2 < x1 ∨ y2 < y1) ∧ e = .invertedRange x1 x2 y1 y2 := by
  unfold interpolate
  by_cases hranges : x2 < x1 ∨ y2 < y1
  · simp [hranges, eq_comm]
  · rw [if_neg hranges]
    split
    · simp [hranges]
    · split <;> simp [hranges]

theorem interpolate_ok (hx : x1 ≤ x2) (hy : y1 ≤ y2) (x : UInt32) :
    ∃ y, interpolate x1 x2 y1 y2 x = .ok y := by
  cases h : interpolate x1 x2 y1 y2 x with
  | ok y => exact ⟨y, rfl⟩
  | error e =>
    obtain hlt | hlt := (interpolate_error_iff.mp h).1
    · exact absurd hlt (UInt32.not_lt.mpr hx)
    · exact absurd hlt (UInt32.not_lt.mpr hy)

/-! ### Scaling -/

theorem fraction_le {n d : Nat} (h : n ≤ d) (x : Nat) : x * n / d ≤ x :=
  Nat.div_le_of_le_mul (Nat.mul_comm d x ▸ Nat.mul_le_mul_left x h)

/-- A fraction that is no more than one takes a word to a word. -/
theorem toNat_multFrac {n d : UInt32} (h : n ≤ d) (x : UInt32) :
    (multFrac x n d).toNat = x.toNat * n.toNat / d.toNat := by
  have hx : x.toNat < 2 ^ 32 := x.toNat_lt
  have hn : n.toNat ≤ d.toNat := UInt32.le_iff_toNat_le.mp h
  have hd : d.toNat < 2 ^ 32 := d.toNat_lt
  have hprod : x.toNat * n.toNat ≤ (2 ^ 32 - 1) * (2 ^ 32 - 1) := Nat.mul_le_mul (by omega) (by omega)
  have hquot : x.toNat * n.toNat / d.toNat ≤ x.toNat := fraction_le hn _
  have hvalue : (x.toUInt64 * n.toUInt64 / d.toUInt64).toNat = x.toNat * n.toNat / d.toNat := by
    simp only [UInt64.toNat_div, UInt64.toNat_mul, UInt32.toNat_toUInt64]
    rw [Nat.mod_eq_of_lt (by omega)]
  have hsmall : x.toUInt64 * n.toUInt64 / d.toUInt64 < 0x100000000 := by
    rw [UInt64.lt_iff_toNat_lt, hvalue]
    change _ < 2 ^ 32
    omega
  unfold multFrac
  split
  · next hzero => simp [hzero]
  · rw [if_pos hsmall, UInt64.toNat_toUInt32, hvalue, Nat.mod_eq_of_lt (by omega)]

theorem multFrac_le {n d : UInt32} (h : n ≤ d) (x : UInt32) : multFrac x n d ≤ x := by
  rw [UInt32.le_iff_toNat_le, toNat_multFrac h]
  exact fraction_le (UInt32.le_iff_toNat_le.mp h) _

/-- Factors up to the full scale make nothing brighter. -/
theorem scale_le {factor sunlightFactor : UInt32} (hf : factor ≤ fullScale)
    (hs : sunlightFactor ≤ fullScale) (b : UInt32) : scale b factor sunlightFactor ≤ b :=
  UInt32.le_trans (multFrac_le hs _) (multFrac_le hf b)

end Brightness

namespace LevelMap

open OledPanel.Action (ok_of_bind)

variable {m : LevelMap} {b l : UInt32}

theorem one_le_dimmest (m : LevelMap) : 1 ≤ m.dimmest := by
  change 1 ≤ if m.lowest ≤ 1 then 1 else m.lowest
  split
  · exact UInt32.le_refl 1
  · next h => exact UInt32.le_of_lt (UInt32.not_le.mp h)

/-- Without a table levels lie between those of the dimmest and of the brightest panel. -/
theorem level_mem (ht : m.table = none) (h : m.level b = .ok l) : m.dimmest ≤ l ∧ l ≤ m.highest := by
  rw [level, ht] at h
  exact Brightness.interpolate_mem h

/-- A table has a level for each brightness. -/
theorem length_table {n : Node} {levels : List UInt16} (h : ofNode n = .ok m)
    (ht : m.table = some levels) : levels.length = m.maxBrightness.toNat + 1 := by
  obtain ⟨lowest, -, h⟩ := ok_of_bind h
  obtain ⟨highest, -, h⟩ := ok_of_bind h
  obtain ⟨top, -, h⟩ := ok_of_bind h
  obtain ⟨cells, -, h⟩ := ok_of_bind h
  cases h
  obtain ⟨cs, -, hcs⟩ := Option.bind_eq_some_iff.mp ht
  unfold tableOf at hcs
  split at hcs
  · next hlen =>
    cases hcs
    rw [List.length_map, hlen]
  · cases hcs

/-- With a level for each brightness the only brightnesses without one are those of a linear map
whose levels or brightnesses are the wrong way round. -/
theorem level_error_iff
    (hm : ∀ levels, m.table = some levels → levels.length = m.maxBrightness.toNat + 1) {e : Error} :
    m.level b = .error e ↔ m.table = none ∧ (m.maxBrightness < 1 ∨ m.highest < m.dimmest) ∧
      e = .invertedRange 1 m.maxBrightness m.dimmest m.highest := by
  unfold level
  cases ht : m.table with
  | none => simp [Brightness.interpolate_error_iff]
  | some levels =>
    have hlt : (min b m.maxBrightness).toNat < levels.length := by
      have hle : min b m.maxBrightness ≤ m.maxBrightness := by
        change (if b ≤ m.maxBrightness then b else m.maxBrightness) ≤ _
        split
        · assumption
        · exact UInt32.le_refl _
      rw [UInt32.le_iff_toNat_le] at hle
      rw [hm levels ht]
      omega
    simp [List.getElem?_eq_getElem hlt]

/-- The brightness of a level read back is one that can be asked for. -/
theorem brightness_le (h : m.brightness l = .ok b) : b ≤ m.maxBrightness :=
  (Brightness.interpolate_mem h).2

end LevelMap

end OledPanel
