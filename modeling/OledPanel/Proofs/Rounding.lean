import Mathlib.Algebra.Order.Round
import Mathlib.Data.Rat.Floor
import Mathlib.Tactic.FieldSimp
import OledPanel.Proofs.Interpolation

/-! Interpolation against exact fractions. Between the ends of the source range the point lies at a
fraction of the target range, and what is given is the integer nearest to it, a half upwards. The
fraction is compared in whole numbers, twice as large so that a half of an odd width is none. The
words that are formed on the way are the natural numbers meant, so the value is monotone as the
fraction is, also across the clamped ends. -/

namespace OledPanel.Brightness

/-! ### Nearest integers -/

variable {w v d e n : Nat}

/-- The nearest integer is told by whole numbers: it lies at most a half below the fraction, and less
than a half above it or just a half. -/
theorem nearest_eq_iff (hw : 0 < w) :
    nearest w v d = n ↔ 2 * (n * w) ≤ 2 * (d * v) + w ∧ 2 * (d * v) + w < 2 * (n * w) + 2 * w := by
  rw [nearest, Nat.div_eq_iff hw]
  rcases Nat.even_or_odd' w with ⟨k, rfl | rfl⟩
  · omega
  · have hhalf : (2 * k + 1) / 2 = k := by omega
    rw [hhalf]
    omega

theorem nearest_mono (h : d ≤ e) : nearest w v d ≤ nearest w v e :=
  Nat.div_le_div_right (Nat.add_le_add_right (Nat.mul_le_mul_right v h) _)

/-- It is the fraction rounded to the nearest integer. -/
theorem nearest_eq_round (hw : 0 < w) : (nearest w v d : ℤ) = round ((d * v : ℚ) / w) := by
  obtain ⟨hlow, hhigh⟩ := (nearest_eq_iff hw).mp (rfl : nearest w v d = nearest w v d)
  have hpos : (0 : ℚ) < 2 * w := by
    have : (0 : ℚ) < w := by exact_mod_cast hw
    linarith
  have hsum : (d * v : ℚ) / w + 1 / 2 = (2 * (d * v) + w) / (2 * w) := by
    have : (w : ℚ) ≠ 0 := by exact_mod_cast hw.ne'
    field_simp
  rw [round_eq, eq_comm, Int.floor_eq_iff, hsum, le_div_iff₀ hpos, div_lt_iff₀ hpos]
  generalize nearest w v d = n at *
  constructor
  · have : ((2 * (n * w) : ℕ) : ℚ) ≤ (2 * (d * v) + w : ℕ) := by exact_mod_cast hlow
    push_cast at this ⊢
    linarith
  · have : ((2 * (d * v) + w : ℕ) : ℚ) < (2 * (n * w) + 2 * w : ℕ) := by exact_mod_cast hhigh
    push_cast at this ⊢
    linarith

/-! ### Interpolation -/

variable {x1 x2 y1 y2 x x' y y' : UInt32}

/-- How far into the target range the point at `x` lies, before it is rounded. -/
def offset (x1 x2 y1 y2 x : UInt32) : ℚ :=
  ((x.toNat - x1.toNat) * (y2.toNat - y1.toNat)) / (x2.toNat - x1.toNat)

/-- What is formed on the way from `x` is what is meant. The differences do not go below zero, the
product and what is rounded fit in 64 bits, and the quotient and the result in 32. -/
structure Unwrapped (x1 x2 y1 y2 x : UInt32) : Prop where
  source : (x2 - x1).toNat + x1.toNat = x2.toNat
  target : (y2 - y1).toNat + y1.toNat = y2.toNat
  distance : (x - x1).toNat + x1.toNat = x.toNat
  product : (x - x1).toNat * (y2 - y1).toNat < 2 ^ 64
  rounded : (x - x1).toNat * (y2 - y1).toNat + (x2 - x1).toNat / 2 < 2 ^ 64
  quotient : nearest (x2 - x1).toNat (y2 - y1).toNat (x - x1).toNat < 2 ^ 32
  result : y1.toNat + nearest (x2 - x1).toNat (y2 - y1).toNat (x - x1).toNat < 2 ^ 32

theorem toNat_sub_add {a b : UInt32} (h : a ≤ b) : (b - a).toNat + a.toNat = b.toNat := by
  rw [UInt32.toNat_sub_of_le b a h, Nat.sub_add_cancel (UInt32.le_iff_toNat_le.mp h)]

theorem unwrapped (hy : y1 ≤ y2) (h1 : x1 < x) (h2 : x < x2) : Unwrapped x1 x2 y1 y2 x := by
  have hsource := toNat_sub_add (UInt32.le_of_lt (UInt32.lt_trans h1 h2))
  have htarget := toNat_sub_add hy
  have hdistance := toNat_sub_add (UInt32.le_of_lt h1)
  have hx : x.toNat < x2.toNat := UInt32.lt_iff_toNat_lt.mp h2
  have hx2 : x2.toNat < 2 ^ 32 := x2.toNat_lt
  have hy2 : y2.toNat < 2 ^ 32 := y2.toNat_lt
  have hprod : (x - x1).toNat * (y2 - y1).toNat ≤ (2 ^ 32 - 1) * (2 ^ 32 - 1) :=
    Nat.mul_le_mul (by omega) (by omega)
  have hle : nearest (x2 - x1).toNat (y2 - y1).toNat (x - x1).toNat ≤ (y2 - y1).toNat :=
    nearest_le (by omega)
  exact ⟨hsource, htarget, hdistance, by omega, by omega, by omega, by omega⟩

theorem interpolate_start (hx : x1 ≤ x2) (hy : y1 ≤ y2) (h : x2 = x1 ∨ x ≤ x1) :
    interpolate x1 x2 y1 y2 x = .ok y1 := by
  rw [interpolate, if_neg (not_or.mpr ⟨UInt32.not_lt.mpr hx, UInt32.not_lt.mpr hy⟩), if_pos h]

theorem interpolate_end (hx : x1 < x2) (hy : y1 ≤ y2) (h : x2 ≤ x) :
    interpolate x1 x2 y1 y2 x = .ok y2 := by
  have hranges : ¬(x2 < x1 ∨ y2 < y1) :=
    not_or.mpr ⟨UInt32.not_lt.mpr (UInt32.le_of_lt hx), UInt32.not_lt.mpr hy⟩
  have hstart : ¬(x2 = x1 ∨ x ≤ x1) :=
    not_or.mpr ⟨(UInt32.ne_of_lt hx).symm, UInt32.not_le.mpr (UInt32.lt_of_lt_of_le hx h)⟩
  rw [interpolate, if_neg hranges, if_neg hstart, if_pos h]

/-- Between the ends the rise is the exact offset rounded. -/
theorem interpolate_round (hy : y1 ≤ y2) (h1 : x1 < x) (h2 : x < x2)
    (h : interpolate x1 x2 y1 y2 x = .ok y) :
    (y.toNat : ℤ) = y1.toNat + round (offset x1 x2 y1 y2 x) := by
  obtain ⟨z, hz, hvalue⟩ := interpolate_inside hy h1 h2
  obtain rfl : z = y := Except.ok.inj (hz.symm.trans h)
  have hx1 : x1.toNat < x.toNat := UInt32.lt_iff_toNat_lt.mp h1
  have hx2 : x.toNat < x2.toNat := UInt32.lt_iff_toNat_lt.mp h2
  have hyn : y1.toNat ≤ y2.toNat := UInt32.le_iff_toNat_le.mp hy
  have hwidth : x1.toNat < x2.toNat := hx1.trans hx2
  rw [hvalue, Nat.cast_add, nearest_eq_round (Nat.sub_pos_of_lt hwidth), offset, Nat.cast_sub hx1.le,
    Nat.cast_sub hyn, Nat.cast_sub hwidth.le]

/-- Points further on are taken no lower. Past an end this is that no point leaves the target range. -/
theorem interpolate_mono (hle : x ≤ x') (h : interpolate x1 x2 y1 y2 x = .ok y)
    (h' : interpolate x1 x2 y1 y2 x' = .ok y') : y ≤ y' := by
  obtain ⟨hlow, hhigh⟩ := interpolate_mem h
  have hy : y1 ≤ y2 := UInt32.le_trans hlow hhigh
  have hx : x1 ≤ x2 := UInt32.not_lt.mp fun hlt =>
    nomatch h.symm.trans (interpolate_error_iff.mpr ⟨.inl hlt, rfl⟩)
  by_cases hstart : x2 = x1 ∨ x ≤ x1
  · obtain rfl : y1 = y := Except.ok.inj ((interpolate_start hx hy hstart).symm.trans h)
    exact (interpolate_mem h').1
  obtain ⟨hne, h1⟩ := not_or.mp hstart
  rw [UInt32.not_le] at h1
  by_cases hend : x2 ≤ x'
  · obtain rfl : y2 = y' := Except.ok.inj
      ((interpolate_end (UInt32.lt_of_le_of_ne hx (Ne.symm hne)) hy hend).symm.trans h')
    exact hhigh
  rw [UInt32.not_le] at hend
  obtain ⟨z, hz, hvalue⟩ := interpolate_inside hy h1 (UInt32.lt_of_le_of_lt hle hend)
  obtain ⟨z', hz', hvalue'⟩ := interpolate_inside hy (UInt32.lt_of_lt_of_le h1 hle) hend
  obtain rfl : z = y := Except.ok.inj (hz.symm.trans h)
  obtain rfl : z' = y' := Except.ok.inj (hz'.symm.trans h')
  rw [UInt32.le_iff_toNat_le, hvalue, hvalue']
  exact Nat.add_le_add_left
    (nearest_mono (Nat.sub_le_sub_right (UInt32.le_iff_toNat_le.mp hle) _)) _

/-- Interpolation is rounded linear interpolation over all words: it fails for ends that are the wrong
way round and for nothing else, gives the near end outside the source range, and inside it the exact
offset rounded to the nearest, without a step that wraps. -/
theorem interpolate_is_rounded (x1 x2 y1 y2 : UInt32) :
    (∀ x e, interpolate x1 x2 y1 y2 x = .error e ↔
      (x2 < x1 ∨ y2 < y1) ∧ e = .invertedRange x1 x2 y1 y2) ∧
    (¬(x2 < x1 ∨ y2 < y1) → ∃ f : UInt32 → UInt32, (∀ x x', x ≤ x' → f x ≤ f x') ∧
      ∀ x, interpolate x1 x2 y1 y2 x = .ok (f x) ∧ y1 ≤ f x ∧ f x ≤ y2 ∧
        (x2 = x1 ∨ x ≤ x1 → f x = y1) ∧ (x2 ≠ x1 → x2 ≤ x → f x = y2) ∧
        (x1 < x → x < x2 → Unwrapped x1 x2 y1 y2 x ∧
          ((f x).toNat : ℤ) = y1.toNat + round (offset x1 x2 y1 y2 x))) := by
  refine ⟨fun x e => interpolate_error_iff, fun hranges => ?_⟩
  obtain ⟨hx, hy⟩ := not_or.mp hranges
  rw [UInt32.not_lt] at hx hy
  choose f hf using fun x => interpolate_ok hx hy x
  refine ⟨f, fun x x' hle => interpolate_mono hle (hf x) (hf x'), fun x => ?_⟩
  obtain ⟨hlow, hhigh⟩ := interpolate_mem (hf x)
  refine ⟨hf x, hlow, hhigh, fun hstart => ?start, fun hne hend => ?finish, fun h1 h2 => ?inside⟩
  case start => exact Except.ok.inj ((hf x).symm.trans (interpolate_start hx hy hstart))
  case finish =>
    exact Except.ok.inj ((hf x).symm.trans
      (interpolate_end (UInt32.lt_of_le_of_ne hx (Ne.symm hne)) hy hend))
  case inside => exact ⟨unwrapped hy h1 h2, interpolate_round hy h1 h2 (hf x)⟩

/-- A half goes upwards. -/
example : interpolate 0 2 0 3 1 = .ok 2 := by decide

end OledPanel.Brightness
