import Mathlib.Data.Nat.Digits.Defs
import OledPanel.Text.Blank
import OledPanel.Text.Numeral

/-! Decimal numerals as they are written and read back. A written numeral is a run of digits, and
none but that of zero starts with a zero, so it reads as itself whether or not a leading zero tells
the radix. Digits are not blank: blanks around a numeral are stripped, and numerals with a blank
behind each are the words of their text. -/

namespace OledPanel.Text

variable {c : Char} {cs ds : List Char} {n : Nat}

/-! ### Digits -/

theorem digitIn_of_isDigit (hc : c.isDigit = true) :
    digitIn 10 c = some (c.toNat - '0'.toNat) := by
  have hbounds : '0' ≤ c ∧ c ≤ '9' := by simpa [Char.isDigit, Char.le_def] using hc
  have hle : c.toNat ≤ 57 := hbounds.2
  have hlt : c.toNat - '0'.toNat < 10 := by
    change _ - 48 < 10
    omega
  rw [digitIn, digitValue, if_pos hbounds, Option.filter_some, if_pos (decide_eq_true hlt)]

theorem digitsFrom_of_digits (hcs : ∀ c ∈ cs, c.isDigit = true) (high : Nat) :
    digitsFrom 10 high cs = some (Nat.ofDigitChars 10 cs high) := by
  induction cs generalizing high with
  | nil => rfl
  | cons c cs ih =>
    rw [digitsFrom, digitIn_of_isDigit (hcs c (by simp)), Option.bind_some,
      ih fun d hd => hcs d (by simp [hd])]
    rfl

/-- The digits of a number in decimal. -/
abbrev digits (n : Nat) : List Char := Nat.toDigits 10 n

theorem toList_decimal (n : Nat) : (decimal n).toList = digits n := String.toList_ofList

theorem isDigit_of_mem (hc : c ∈ digits n) : c.isDigit = true :=
  Nat.isDigit_of_mem_toDigits (by decide) (by decide) hc

theorem digits_ne_nil (n : Nat) : digits n ≠ [] := List.ne_nil_of_length_pos Nat.length_toDigits_pos

/-- A character that is no digit is none of the digits of a number. -/
theorem not_mem_digits (hc : c.isDigit = false) (n : Nat) : c ∉ digits n := fun h => by
  rw [isDigit_of_mem h] at hc
  cases hc

theorem natural_digits (n : Nat) : natural 10 (digits n) = some n := by
  have hread : digitsFrom 10 0 (digits n) = some n := by
    rw [digitsFrom_of_digits (fun c => isDigit_of_mem), Nat.ofDigitChars_toDigits (by decide) (by decide)]
  unfold natural
  split
  · next h => exact absurd h (digits_ne_nil n)
  · exact hread

/-- Zero alone is written with a leading zero. -/
theorem eq_nil_of_digits (h : digits n = '0' :: ds) : ds = [] := by
  induction n using Nat.strong_induction_on generalizing ds with
  | _ n ih =>
    by_cases hn : n < 10
    · rw [digits, Nat.toDigits_of_lt_base hn] at h
      exact (List.cons.inj h).2.symm
    · rw [digits, Nat.toDigits_of_base_le (by decide) (Nat.not_lt.mp hn)] at h
      have hhead : digits (n / 10) ≠ [] := digits_ne_nil _
      obtain ⟨high, hhigh⟩ : ∃ high, digits (n / 10) = '0' :: high := by
        cases hd : digits (n / 10) with
        | nil => exact absurd hd hhead
        | cons d high =>
          rw [digits] at hd
          rw [hd, List.cons_append] at h
          exact ⟨high, by rw [(List.cons.inj h).1]⟩
      have hzero : n / 10 = 0 := by
        have hread := natural_digits (n / 10)
        rw [hhigh, ih (n / 10) (by omega) hhigh] at hread
        exact (Option.some.inj hread).symm
      omega

/-! ### Numbers with a sign and a bound -/

theorem unsigned_digits {limit : Nat} (hn : n < limit) : unsigned 10 limit (digits n) = some n := by
  unfold unsigned
  split
  · next ds h => exact absurd (h ▸ List.mem_cons_self ..) (not_mem_digits (c := '+') rfl n)
  · rw [natural_digits, Option.filter_some, if_pos (decide_eq_true hn)]

theorem signed_digits {bits : Nat} (hn : n < 2 ^ (bits - 1)) :
    signed 10 bits (digits n) = some (n : Int) := by
  have hbound : (n : Int) < Int.ofNat (1 <<< (bits - 1)) := by
    rw [Nat.shiftLeft_eq, Nat.one_mul]
    exact Int.ofNat_lt.mpr hn
  have hrange : -Int.ofNat (1 <<< (bits - 1)) ≤ n ∧ (n : Int) < Int.ofNat (1 <<< (bits - 1)) :=
    ⟨by omega, hbound⟩
  unfold signed
  dsimp only
  split
  · next ds h => exact absurd (h ▸ List.mem_cons_self ..) (not_mem_digits (c := '+') rfl n)
  · next ds h => exact absurd (h ▸ List.mem_cons_self ..) (not_mem_digits (c := '-') rfl n)
  · rw [natural_digits, Option.map_some, Option.filter_some, if_pos (by simpa using hrange)]
    rfl

/-! ### Blanks -/

theorem isBlank_of_isDigit (hc : c.isDigit = true) : isBlank c = false := by
  have hbounds : 48 ≤ c.toNat ∧ c.toNat ≤ 57 := by
    simp only [Char.isDigit, Bool.and_eq_true, decide_eq_true_eq, UInt32.le_iff_toNat_le] at hc
    exact hc
  simp [isBlank, blankRuns]
  omega

/-- No character of the text is blank. -/
def Solid (cs : List Char) : Prop := ∀ c ∈ cs, isBlank c = false

theorem solid_digits (n : Nat) : Solid (digits n) := fun _ hc => isBlank_of_isDigit (isDigit_of_mem hc)

theorem Solid.append (hcs : Solid cs) (hds : Solid ds) : Solid (cs ++ ds) := by
  intro c hc
  exact (List.mem_append.mp hc).elim (hcs c) (hds c)

theorem Solid.cons (hc : isBlank c = false) (hcs : Solid cs) : Solid (c :: cs) :=
  List.forall_mem_cons.mpr ⟨hc, hcs⟩

theorem trimLeft_append (hcs : Solid cs) (hne : cs ≠ []) (ds : List Char) :
    trimLeft (cs ++ ds) = cs ++ ds := by
  cases cs with
  | nil => exact absurd rfl hne
  | cons c cs => rw [List.cons_append, trimLeft, List.dropWhile_cons_of_neg (by simp [hcs c])]

theorem trim_of_solid (hcs : Solid cs) : trim cs = cs := by
  by_cases hne : cs = []
  · rw [hne]
    rfl
  · have hreverse : Solid cs.reverse := fun c hc => hcs c (List.mem_reverse.mp hc)
    have hleft := trimLeft_append hcs hne []
    have hright := trimLeft_append hreverse (by simpa using hne) []
    rw [List.append_nil] at hleft hright
    rw [trim, hleft, trimRight, hright, List.reverse_reverse]

/-- A blank behind a text is stripped. -/
theorem trim_append_blank (hcs : Solid cs) (hne : cs ≠ []) (hc : isBlank c = true) :
    trim (cs ++ [c]) = cs := by
  have hreverse : Solid cs.reverse := fun c hc => hcs c (List.mem_reverse.mp hc)
  have hright := trimLeft_append hreverse (by simpa using hne) []
  rw [List.append_nil] at hright
  rw [trim, trimLeft_append hcs hne, trimRight, List.reverse_append, List.reverse_singleton,
    List.singleton_append, trimLeft, List.dropWhile_cons_of_pos hc, ← trimLeft, hright,
    List.reverse_reverse]

theorem mem_trimLeft (hc : isBlank c = false) : c ∈ trimLeft cs ↔ c ∈ cs := by
  induction cs with
  | nil => rfl
  | cons d cs ih =>
    rw [trimLeft, List.dropWhile_cons]
    split
    · next hd =>
      have hne : c ≠ d := by
        rintro rfl
        rw [hc] at hd
        cases hd
      rw [List.mem_cons, or_iff_right hne]
      exact ih
    · rfl

/-- Only blanks are stripped. -/
theorem mem_trim (hc : isBlank c = false) : c ∈ trim cs ↔ c ∈ cs := by
  rw [trim, trimRight, List.mem_reverse, mem_trimLeft hc, List.mem_reverse, mem_trimLeft hc]

theorem foldr_extend (hcs : Solid cs) {w : List Char} {ws : List (List Char)} :
    cs.foldr extend (w :: ws) = (cs ++ w) :: ws := by
  induction cs with
  | nil => rfl
  | cons c cs ih =>
    rw [List.foldr_cons, ih fun d hd => hcs d (by simp [hd]), extend, if_neg (by simp [hcs c])]
    rfl

theorem foldr_extend_ne_nil (cs : List Char) : cs.foldr extend [[]] ≠ [] := by
  cases cs with
  | nil => simp
  | cons c cs =>
    rw [List.foldr_cons]
    unfold extend
    split <;> split <;> simp

/-- A word ends at the blank behind it. -/
theorem words_append (hcs : Solid cs) (hne : cs ≠ []) (hc : isBlank c = true) (ds : List Char) :
    words (cs ++ c :: ds) = cs :: words ds := by
  obtain ⟨w, ws, hrest⟩ : ∃ w ws, ds.foldr extend [[]] = w :: ws :=
    List.exists_cons_of_ne_nil (foldr_extend_ne_nil ds)
  rw [words, words, List.foldr_append, List.foldr_cons, hrest, extend, if_pos hc, foldr_extend hcs,
    List.append_nil, List.filter_cons_of_pos (by simpa using hne)]

theorem words_blank (hc : isBlank c = true) : words [c] = [] := by
  simp [words, extend, hc]

/-! ### Places -/

/-- A text is cut where a character stands that is not before it. -/
theorem cut_append (hc : c ∉ cs) (ds : List Char) : cut c (cs ++ c :: ds) = some (cs, ds) := by
  induction cs with
  | nil => simp [cut]
  | cons d cs ih =>
    rw [List.mem_cons, not_or] at hc
    rw [List.cons_append, cut, if_neg (Ne.symm hc.1), ih hc.2]
    rfl

theorem cut_eq_none (hc : c ∉ cs) : cut c cs = none := by
  induction cs with
  | nil => rfl
  | cons d cs ih =>
    rw [List.mem_cons, not_or] at hc
    rw [cut, if_neg (Ne.symm hc.1), ih hc.2, Option.map_none]

end OledPanel.Text
