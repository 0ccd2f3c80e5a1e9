import Mathlib.Algebra.Ring.Parity
import Mathlib.Data.Nat.ModEq
import Mathlib.Data.Nat.Prime.Basic
import OledPanel.Bench.Plain
import OledPanel.Proofs.LevelBounds

/-! Handoff against the writing of levels. A level of two bytes is written with as many bits in the
low byte as the panel is configured for, and read back with eight. The bits that no level of the
panel has are masked off, which never makes up for the difference: a level with anything in its high
byte is read back as itself only if the low byte has eight bits. Whether there is a user brightness
for what was read depends on the bounds of the map alone, so handoff fails no more and no less for
it. -/

namespace OledPanel

/-! ### Words whose top bits are masked off -/

/-- An even multiple of a number differs from it in the bits that the number has. -/
theorem eq_zero_of_mul_pow_modEq {m j k : ℕ} (hj : 0 < j) (hm : m < 2 ^ k)
    (h : m * 2 ^ j ≡ m [MOD 2 ^ k]) : m = 0 := by
  have hdvd : 2 ^ k ∣ m * (2 ^ j - 1) := by
    rw [Nat.mul_sub_one]
    exact (Nat.modEq_iff_dvd' (Nat.le_mul_of_pos_right m (Nat.two_pow_pos j))).mp h.symm
  have hodd : Odd (2 ^ j - 1) :=
    Nat.Even.sub_odd Nat.one_le_two_pow ((even_two.pow_of_ne_zero hj.ne')) odd_one
  have hcoprime : Nat.Coprime (2 ^ k) (2 ^ j - 1) :=
    Nat.Coprime.pow_left k (Nat.coprime_two_left.mpr hodd)
  exact Nat.eq_zero_of_dvd_of_lt (hcoprime.dvd_of_dvd_mul_right hdvd) hm

/-- Split after `a` bits and put together with `b` bits, a word comes out as it was only if there is
nothing above the split, or the two numbers are the same. -/
theorem split_modEq_iff {a b k high low : ℕ} (hk : high * 2 ^ a + low < 2 ^ k) :
    high * 2 ^ b + low ≡ high * 2 ^ a + low [MOD 2 ^ k] ↔ a = b ∨ high = 0 := by
  have hle : high * 2 ^ a < 2 ^ k := by omega
  constructor
  · intro h
    replace h : high * 2 ^ b ≡ high * 2 ^ a [MOD 2 ^ k] := Nat.ModEq.add_right_cancel' low h
    obtain hlt | rfl | hlt := lt_trichotomy a b
    · obtain ⟨j, rfl⟩ := Nat.exists_eq_add_of_lt hlt
      rw [Nat.add_assoc, pow_add, ← mul_assoc] at h
      have hzero := eq_zero_of_mul_pow_modEq (Nat.succ_pos j) hle h
      exact .inr (by simpa using hzero)
    · exact .inl rfl
    · have hsmall : high * 2 ^ b < 2 ^ k :=
        (Nat.mul_le_mul_left high (Nat.pow_le_pow_right (by decide) hlt.le)).trans_lt hle
      obtain ⟨j, rfl⟩ := Nat.exists_eq_add_of_lt hlt
      rw [Nat.add_assoc, pow_add, ← mul_assoc] at h
      have hzero := eq_zero_of_mul_pow_modEq (Nat.succ_pos j) hsmall h.symm
      exact .inr (by simpa using hzero)
  · rintro (rfl | rfl)
    · rfl
    · rw [Nat.zero_mul, Nat.zero_mul]

namespace Backlight

theorem lt_two_pow_bitLength (n : Nat) : n < 2 ^ bitLength n := by
  unfold bitLength
  split
  · omega
  · exact Nat.lt_log2_self

namespace Config

variable {c : Config} {level : UInt32}

/-- The level that a register is taken for which holds the bytes written for a level. -/
def readBack (c : Config) (level : UInt32) : UInt32 :=
  c.masked ((registerLevel (c.encode level)).getD 0)

theorem toNat_masked {n : Nat} (h : n < UInt32.size) :
    (c.masked n).toNat = n % 2 ^ bitLength c.map.highest.toNat := by
  rw [masked, UInt32.toNat_ofNat', Nat.one_shiftLeft]
  exact Nat.mod_eq_of_lt (Nat.mod_le _ _ |>.trans_lt h)

/-- Nothing is masked off a level of the panel. -/
theorem masked_toNat (h : level ≤ c.map.highest) : c.masked level.toNat = level := by
  have hlt : level.toNat < 2 ^ bitLength c.map.highest.toNat :=
    (UInt32.le_iff_toNat_le.mp h).trans_lt (lt_two_pow_bitLength _)
  rw [← UInt32.toNat_inj, toNat_masked level.toNat_lt, Nat.mod_eq_of_lt hlt]

/-- Bits that are lost change the level, so neither half of it loses any. -/
theorem halves_of_decode (hw : c.isWide = true)
    (h : c.decode (c.encode level) = some level.toNat) :
    level.toNat / 2 ^ c.lowBits < 256 ∧ level.toNat % 2 ^ c.lowBits < 256 := by
  rw [encode, if_pos hw, decode, UInt8.toNat_ofNat', UInt8.toNat_ofNat', Option.some_inj,
    Nat.shiftLeft_eq, Nat.shiftRight_eq_div_pow, Nat.one_shiftLeft] at h
  have hsplit := Nat.div_add_mod' level.toNat (2 ^ c.lowBits)
  have hhigh := Nat.mul_le_mul_right (2 ^ c.lowBits)
    (Nat.mod_le (level.toNat / 2 ^ c.lowBits) (2 ^ 8))
  have hlow := Nat.mod_le (level.toNat % 2 ^ c.lowBits) (2 ^ 8)
  constructor
  · have heq : level.toNat / 2 ^ c.lowBits % 2 ^ 8 = level.toNat / 2 ^ c.lowBits :=
      Nat.eq_of_mul_eq_mul_right (Nat.two_pow_pos c.lowBits) (by omega)
    omega
  · omega

theorem toNat_lt_of_decode (hw : c.isWide = false)
    (h : c.decode (c.encode level) = some level.toNat) : level.toNat < 256 := by
  rw [encode, hw, if_neg (by decide), decode, UInt32.toNat_toUInt8, Option.some_inj] at h
  omega

theorem readBack_of_narrow (hw : c.isWide = false)
    (h : c.decode (c.encode level) = some level.toNat) :
    c.readBack level = c.masked level.toNat := by
  have hlt := toNat_lt_of_decode hw h
  rw [readBack, encode, hw, if_neg (by decide), registerLevel, UInt32.toNat_toUInt8,
    Nat.mod_eq_of_lt hlt, Option.getD_some]

theorem readBack_of_wide (hw : c.isWide = true)
    (h : c.decode (c.encode level) = some level.toNat) :
    c.readBack level =
      c.masked (level.toNat / 2 ^ c.lowBits * 2 ^ 8 + level.toNat % 2 ^ c.lowBits) := by
  obtain ⟨hhigh, hlow⟩ := halves_of_decode hw h
  rw [readBack, encode, if_pos hw, registerLevel, UInt8.toNat_ofNat', UInt8.toNat_ofNat',
    Nat.shiftRight_eq_div_pow, Nat.one_shiftLeft, Nat.mod_eq_of_lt hhigh, Nat.mod_eq_of_lt hlow,
    Option.getD_some]
  rfl

/-- A level whose bytes lose nothing is read back as itself exactly if it has one byte, or eight
bits in the low one, or nothing in the high one. -/
theorem readBack_eq_iff (hmax : level ≤ c.map.highest)
    (h : c.decode (c.encode level) = some level.toNat) :
    c.readBack level = level ↔
      c.isWide = false ∨ c.lowBits = 8 ∨ level.toNat < 2 ^ c.lowBits := by
  cases hw : c.isWide with
  | false =>
    rw [readBack_of_narrow hw h, masked_toNat hmax]
    simp
  | true =>
    obtain ⟨hhigh, hlow⟩ := halves_of_decode hw h
    have hsplit := Nat.div_add_mod' level.toNat (2 ^ c.lowBits)
    have hlt : level.toNat / 2 ^ c.lowBits * 2 ^ c.lowBits + level.toNat % 2 ^ c.lowBits <
        2 ^ bitLength c.map.highest.toNat := by
      rw [hsplit]
      exact (UInt32.le_iff_toNat_le.mp hmax).trans_lt (lt_two_pow_bitLength _)
    have hword : level.toNat / 2 ^ c.lowBits * 2 ^ 8 + level.toNat % 2 ^ c.lowBits <
        UInt32.size := by
      unfold UInt32.size
      omega
    have hmod : c.readBack level = level ↔
        level.toNat / 2 ^ c.lowBits * 2 ^ 8 + level.toNat % 2 ^ c.lowBits ≡
          level.toNat / 2 ^ c.lowBits * 2 ^ c.lowBits + level.toNat % 2 ^ c.lowBits
            [MOD 2 ^ bitLength c.map.highest.toNat] := by
      rw [readBack_of_wide hw h, ← UInt32.toNat_inj, toNat_masked hword, Nat.ModEq,
        Nat.mod_eq_of_lt hlt, hsplit]
    rw [hmod, split_modEq_iff hlt, Nat.div_eq_zero_iff]
    simp

end Config
end Backlight

namespace Panel

open Dsi (Transport)

variable {σ : Type} [Transport σ] {c : Config} {level : UInt32}

/-- What is read of a register that holds the bytes of a level. -/
theorem answer_handoff {h : σ}
    (hread : (Transport.transfer (Dsi.question Dsi.getBrightness 2) h).1 =
      .ok (c.backlight.encode level)) :
    c.backlight.handoff.answer h = c.backlight.map.brightness (c.backlight.readBack level) := by
  have hbytes : (Dsi.read Dsi.getBrightness 2).answer h = .ok (c.backlight.encode level) := by
    rw [Dsi.read_eq _ (by decide), Action.answer_bind, Dsi.answer_transfer hread]
    simp only [Backlight.Config.encode]
    split <;> rfl
  have hlevel : ∃ n, Backlight.registerLevel (c.backlight.encode level) = some n := by
    simp only [Backlight.Config.encode]
    split
    · exact ⟨_, rfl⟩
    · exact ⟨_, rfl⟩
  obtain ⟨n, hn⟩ := hlevel
  rw [Backlight.Config.handoff, Action.answer_bind, hbytes]
  simp only [hn, Backlight.Config.readBack, Option.getD_some]
  cases c.backlight.map.brightness (c.backlight.masked n) with
  | ok b => rfl
  | error e => rfl

/-- Handoff from a register that holds the bytes of a level finds a user brightness exactly if the
level has one, and adopts that of the level it reads back. The two levels are the same exactly if
the level has one byte, or eight bits in the low one, or nothing in the high one. -/
theorem handoff_of_encoded_level {s : State σ} (hmax : level ≤ c.backlight.map.highest)
    (hlossless : c.backlight.decode (c.backlight.encode level) = some level.toNat)
    (hread : (Transport.transfer (Dsi.question Dsi.getBrightness 2) s.host).1 =
      .ok (c.backlight.encode level)) :
    let read := c.backlight.readBack level
    (handoff c).answer s = c.backlight.map.brightness read ∧
      (∀ e, (handoff c).answer s = .error e ↔ c.backlight.map.brightness level = .error e) ∧
      (∀ b, (handoff c).answer s = .ok b → ((handoff c).after s).backlight.brightness = b) ∧
      (∀ e, (handoff c).answer s = .error e → ((handoff c).after s).backlight = s.backlight) ∧
      (read = level ↔ c.backlight.isWide = false ∨ c.backlight.lowBits = 8 ∨
        level.toNat < 2 ^ c.backlight.lowBits) := by
  intro read
  have hhost : c.backlight.handoff.answer s.host = c.backlight.map.brightness read :=
    answer_handoff hread
  have hanswer : (handoff c).answer s = c.backlight.map.brightness read := by
    rw [handoff, Action.answer_bind, answer_onHost, hhost]
    cases c.backlight.map.brightness read with
    | ok b => rfl
    | error e => rfl
  refine ⟨hanswer, fun e => ?_, fun b hb => ?_, fun e he => ?_,
    Backlight.Config.readBack_eq_iff hmax hlossless⟩
  · rw [hanswer, LevelMap.brightness, LevelMap.brightness, Brightness.interpolate_error_iff,
      Brightness.interpolate_error_iff]
  · rw [handoff, Action.after_bind, answer_onHost, hhost, ← hanswer, hb]
    rfl
  · rw [handoff, Action.after_bind, answer_onHost, hhost, ← hanswer, he, after_onHost]

/-- A level of the low nibble alone is read back as itself. -/
theorem handoff_of_encoded_level_in_low_nibble :
    let c : Config := { Bench.plain none with
      backlight := { (Bench.plain none).backlight with lowBits := 4 } }
    let host : Bench.Host := { registers := [(Dsi.getBrightness, [0, 9])] }
    let s := State.initial c host {} none none
    c.backlight.encode 9 = [0, 9] ∧ (handoff c).answer s = .ok 9 ∧
      ((handoff c).after s).backlight.brightness = 9 := by
  intro c host s
  have hread : (Transport.transfer (Dsi.question Dsi.getBrightness 2) s.host).1 =
      .ok (c.backlight.encode 9) := by decide
  obtain ⟨hanswer, -, hadopted, -, hsame⟩ :=
    handoff_of_encoded_level (c := c) (by decide) (by decide) hread
  have hnine : (handoff c).answer s = .ok 9 := by
    rw [hanswer, hsame.mpr (by decide)]
    decide
  exact ⟨by decide, hnine, hadopted 9 hnine⟩

/-- With four bits in the low byte level 18 is written as a one and a two. The panel that holds
these is taken to show level 258, which is 2 without the bits that level 255 does not have. -/
theorem handoff_of_split_level :
    let node : Node := Bench.withProperties (Bench.plainNode [])
      [(Backlight.Config.keyLowBits, .cell 4)]
    let c : Config := { Bench.plain none with
      backlight := { (Bench.plain none).backlight with lowBits := 4 } }
    let host : Bench.Host := { registers := [(Dsi.getBrightness, [1, 2])] }
    let s := State.initial c host {} none none
    Config.ofNode node false = .ok c ∧
      c.backlight.map.lowest ≤ 18 ∧ (18 : UInt32) ≤ c.backlight.map.highest ∧
      c.backlight.decode (c.backlight.encode 18) = some 18 ∧
      host.register? Dsi.getBrightness = some (c.backlight.encode 18) ∧
      c.backlight.map.brightness 18 = .ok 18 ∧
      (handoff c).answer s = .ok 2 ∧ ((handoff c).after s).backlight.brightness = 2 := by
  decide +kernel

end Panel
end OledPanel
