import OledPanel.Proofs.Rounding

/-! User brightness on its way to the panel and back. Both ways interpolate, in opposite directions,
and each rounds by at most a half. A map with at least as many levels as brightnesses shrinks the
first error on the way back to less than a half, so it is rounded away. With a lowest level of zero
the way back starts a level lower than the way there, at zero and not at the dimmest level, and one
brightness may be gained. -/

namespace OledPanel

namespace Brightness

variable {w v d : Nat}

/-! ### There and back -/

theorem nearest_zero_point (w v : Nat) : nearest w v 0 = 0 := by
  rw [nearest, Nat.zero_mul, Nat.zero_add, Nat.div_eq_zero_iff]
  omega

theorem nearest_full (hw : 0 < w) (v : Nat) : nearest w v w = v := by
  rw [nearest_eq_iff hw, Nat.mul_comm w v]
  omega

/-- How far the point taken may lie from the fraction, in whole numbers. -/
theorem nearest_bounds (hw : 0 < w) (v d : Nat) :
    2 * (nearest w v d * w) ≤ 2 * (d * v) + w ∧ 2 * (d * v) < 2 * (nearest w v d * w) + w := by
  obtain ⟨hlow, hhigh⟩ := (nearest_eq_iff hw).mp (rfl : nearest w v d = nearest w v d)
  omega

/-- A point that is taken to a range no narrower than its own comes back to where it was. The error
of the way there is a half at most, and of that what the widths leave; where they are the same there
is none. -/
theorem nearest_nearest (hd : d ≤ w) (hwv : w ≤ v) : nearest v w (nearest w v d) = d := by
  rcases Nat.eq_zero_or_pos w with rfl | hw
  · obtain rfl : d = 0 := Nat.le_zero.mp hd
    rw [nearest_zero_point, nearest_zero_point]
  obtain ⟨hlow, hhigh⟩ := nearest_bounds hw v d
  rw [nearest_eq_iff (hw.trans_le hwv)]
  rcases hwv.eq_or_lt with rfl | hlt
  · have hsame : nearest w w d = d := (nearest_eq_iff hw).mpr (by omega)
    rw [hsame]
    omega
  · omega

/-- From a range that starts one point lower it comes back to where it was or to the next point. -/
theorem nearest_nearest_below (hd : d ≤ w) (hwv : w ≤ v) :
    nearest (v + 1) w (1 + nearest w v d) = d ∨ nearest (v + 1) w (1 + nearest w v d) = d + 1 := by
  rcases Nat.eq_zero_or_pos w with rfl | hw
  · obtain rfl : d = 0 := Nat.le_zero.mp hd
    exact .inl ((nearest_eq_iff (by omega)).mpr (by omega))
  obtain ⟨hlow, hhigh⟩ := nearest_bounds hw v d
  have hv : 0 < v + 1 := Nat.succ_pos v
  rw [nearest_eq_iff hv, nearest_eq_iff hv]
  generalize nearest w v d = t at *
  -- The products of the way there are all that is left once the added points are multiplied out.
  have hback : (1 + t) * w = w + t * w := by rw [Nat.add_mul, Nat.one_mul]
  have hhere : d * (v + 1) = d * v + d := Nat.mul_succ d v
  have hnext : (d + 1) * (v + 1) = d * v + d + v + 1 := by rw [Nat.succ_mul, hhere, Nat.add_assoc _ v 1]
  omega

/-! ### Interpolation up to the ends -/

variable {x1 x2 y1 y2 x y : UInt32}

/-- At both ends the point taken is the nearest as well, also where they are one. -/
theorem interpolate_nearest (hy : y1 ≤ y2) (h1 : x1 ≤ x) (h2 : x ≤ x2) :
    ∃ y, interpolate x1 x2 y1 y2 x = .ok y ∧ y.toNat = y1.toNat +
      nearest (x2.toNat - x1.toNat) (y2.toNat - y1.toNat) (x.toNat - x1.toNat) := by
  have hx : x1 ≤ x2 := UInt32.le_trans h1 h2
  rcases UInt32.lt_or_eq_of_le h1 with h1 | rfl
  · rcases UInt32.lt_or_eq_of_le h2 with h2 | rfl
    · exact interpolate_inside hy h1 h2
    · have hwidth : 0 < x.toNat - x1.toNat := Nat.sub_pos_of_lt (UInt32.lt_iff_toNat_lt.mp h1)
      refine ⟨y2, interpolate_end h1 hy (UInt32.le_refl _), ?_⟩
      rw [nearest_full hwidth, Nat.add_sub_cancel' (UInt32.le_iff_toNat_le.mp hy)]
  · refine ⟨y1, interpolate_start hx hy (.inr (UInt32.le_refl _)), ?_⟩
    rw [Nat.sub_self, nearest_zero_point, Nat.add_zero]

end Brightness

namespace LevelMap

variable {m : LevelMap} {b : UInt32}

/-- The map is linear and has at least as many levels as brightnesses. -/
structure Resolves (m : LevelMap) : Prop where
  linear : m.table = none
  lit : 1 ≤ m.maxBrightness
  ordered : m.dimmest ≤ m.highest
  fine : m.maxBrightness - 1 ≤ m.highest - m.dimmest

theorem dimmest_of_lit (h : 1 ≤ m.lowest) : m.dimmest = m.lowest := by
  change (if m.lowest ≤ 1 then 1 else m.lowest) = m.lowest
  split
  · next hle => exact UInt32.le_antisymm h hle
  · rfl

theorem dimmest_of_zero (h : m.lowest = 0) : m.dimmest = 1 := by
  rw [dimmest, h]
  rfl

theorem lowest_le_dimmest (m : LevelMap) : m.lowest ≤ m.dimmest := by
  by_cases h : m.lowest = 0
  · rw [h, dimmest_of_zero h]
    decide
  · have hpos : m.lowest.toNat ≠ 0 := fun hzero => h (UInt32.toNat_inj.mp hzero)
    have hone : (1 : UInt32).toNat = 1 := rfl
    rw [dimmest_of_lit (UInt32.le_iff_toNat_le.mpr (by omega))]
    exact UInt32.le_refl _

theorem Resolves.toNat_fine (hm : m.Resolves) :
    m.maxBrightness.toNat - 1 ≤ m.highest.toNat - m.dimmest.toNat := by
  have hfine := UInt32.le_iff_toNat_le.mp hm.fine
  rwa [UInt32.toNat_sub_of_le _ _ hm.lit, UInt32.toNat_sub_of_le _ _ hm.ordered] at hfine

/-- The level of a brightness that can be asked for. -/
theorem Resolves.level (hm : m.Resolves) (h1 : 1 ≤ b) (hb : b ≤ m.maxBrightness) :
    ∃ l, m.level b = .ok l ∧ m.dimmest ≤ l ∧ l ≤ m.highest ∧ l.toNat = m.dimmest.toNat +
      Brightness.nearest (m.maxBrightness.toNat - 1) (m.highest.toNat - m.dimmest.toNat)
        (b.toNat - 1) := by
  obtain ⟨l, hl, hvalue⟩ := Brightness.interpolate_nearest hm.ordered h1 hb
  obtain ⟨hlow, hhigh⟩ := Brightness.interpolate_mem hl
  refine ⟨l, ?_, hlow, hhigh, hvalue⟩
  rw [LevelMap.level, hm.linear]
  exact hl

/-- A brightness that can be asked for survives the way to the panel and back. With levels that begin at
zero it may come back as the next one. -/
theorem brightness_of_level (hm : m.Resolves) (h1 : 1 ≤ b) (hb : b ≤ m.maxBrightness) :
    ∃ l u, m.level b = .ok l ∧ m.brightness l = .ok u ∧ (1 ≤ m.lowest → u = b) ∧
      (m.lowest = 0 → u.toNat = b.toNat ∨ u.toNat = b.toNat + 1) := by
  obtain ⟨l, hl, hlow, hhigh, hvalue⟩ := hm.level h1 hb
  have hfine := hm.toNat_fine
  have h1n : 1 ≤ b.toNat := UInt32.le_iff_toNat_le.mp h1
  have hbn : b.toNat ≤ m.maxBrightness.toNat := UInt32.le_iff_toNat_le.mp hb
  obtain ⟨u, hu, hback⟩ := Brightness.interpolate_nearest hm.lit
    (UInt32.le_trans m.lowest_le_dimmest hlow) hhigh
  have hone : (1 : UInt32).toNat = 1 := rfl
  rw [hone] at hback
  refine ⟨l, u, hl, hu, fun hlit => ?lit, fun hzero => ?zero⟩
  case lit =>
    rw [dimmest_of_lit hlit] at hvalue hfine
    rw [hvalue, Nat.add_sub_cancel_left,
      Brightness.nearest_nearest (Nat.sub_le_sub_right hbn 1) hfine] at hback
    exact UInt32.toNat_inj.mp (by omega)
  case zero =>
    rw [dimmest_of_zero hzero, hone] at hvalue hfine
    obtain ⟨v, hv⟩ : ∃ v, m.highest.toNat = v + 1 := by
      have hpos := UInt32.le_iff_toNat_le.mp hm.ordered
      rw [dimmest_of_zero hzero, hone] at hpos
      exact ⟨_, (Nat.sub_add_cancel hpos).symm⟩
    have hstart : m.lowest.toNat = 0 := congrArg UInt32.toNat hzero
    rw [hv, Nat.add_sub_cancel] at hvalue hfine
    rw [hv, hstart, Nat.sub_zero, Nat.sub_zero, hvalue] at hback
    rcases Brightness.nearest_nearest_below (Nat.sub_le_sub_right hbn 1) hfine with h | h
    · rw [h] at hback
      omega
    · rw [h] at hback
      omega

/-- With as many levels as brightnesses, the dimmest brightness gains one where levels begin at zero,
and none where they begin at one. -/
theorem brightness_of_dimmest_level :
    (∃ l u, ({ lowest := 0, highest := 255 } : LevelMap).level 1 = .ok l ∧
      ({ lowest := 0, highest := 255 } : LevelMap).brightness l = .ok u ∧ u = 2 ∧
      (u.toNat = 1 ∨ u.toNat = 1 + 1)) ∧
    ∃ l u, ({ lowest := 1, highest := 255 } : LevelMap).level 1 = .ok l ∧
      ({ lowest := 1, highest := 255 } : LevelMap).brightness l = .ok u ∧ u = 1 := by
  constructor
  · obtain ⟨l, u, hl, hu, -, hzero⟩ := brightness_of_level (m := { lowest := 0, highest := 255 })
      ⟨rfl, by decide, by decide, by decide⟩ (by decide : (1 : UInt32) ≤ 1) (by decide)
    have hl1 : l = 1 := Except.ok.inj (hl.symm.trans rfl)
    subst hl1
    exact ⟨1, u, hl, hu, Except.ok.inj (hu.symm.trans rfl), hzero rfl⟩
  · obtain ⟨l, u, hl, hu, hlit, -⟩ := brightness_of_level (m := { lowest := 1, highest := 255 })
      ⟨rfl, by decide, by decide, by decide⟩ (by decide : (1 : UInt32) ≤ 1) (by decide)
    exact ⟨l, u, hl, hu, hlit (by decide)⟩

end LevelMap

end OledPanel
