import Mathlib.Data.Nat.Digits.Defs
import Mathlib.Tactic.Ring
import OledPanel.Text.Numeral

/-! The readers of numerals told by what they read, in any radix up to sixteen. A run of digits is
read as the number it stands for. A number of 64 bits is read with one sign or none in front of its
digits, and because no sign is a digit there is only one way to take a text apart. A natural number
is read with a plus sign or none. -/

namespace OledPanel.Text

variable {radix n : Nat} {v : Int} {c : Char} {cs ds : List Char}

/-! ### Digits -/

def digitOrder : List Char := "0123456789abcdef".toList

/-- The value of a digit, in letters of either case; sixteen for what is none. -/
def digitRank (c : Char) : Nat := digitOrder.idxOf c.toLower

def IsDigit (radix : Nat) (c : Char) : Prop := digitRank c < radix

instance : Decidable (IsDigit radix c) := inferInstanceAs (Decidable (_ < _))

/-- The number that digits stand for, the last of them counting ones. -/
def digitsValue (radix : Nat) (ds : List Char) : Nat :=
  Nat.ofDigits radix (ds.reverse.map digitRank)

theorem toLower_of_not_ascii (hc : 128 ≤ c.toNat) : c.toLower = c := by
  have hval : ¬(65 ≤ c.val ∧ c.val ≤ 90) := fun h => by
    have hle : c.toNat ≤ 90 := h.2
    omega
  exact dif_neg (by simpa using hval)

theorem digitRank_of_not_ascii (hc : 128 ≤ c.toNat) : digitRank c = 16 := by
  have hascii : digitOrder.all (·.toNat < 128) = true := by decide
  have hmem : c ∉ digitOrder := fun h => by
    have hlt := of_decide_eq_true (List.all_eq_true.mp hascii c h)
    omega
  rw [digitRank, toLower_of_not_ascii hc, List.idxOf_eq_length hmem]
  rfl

theorem digitValue_of_not_ascii (hc : 128 ≤ c.toNat) : digitValue c = none := by
  have hbeyond (d : Char) (hd : d.toNat < 128) : ¬c ≤ d := fun h => by
    have hle : c.toNat ≤ d.toNat := h
    omega
  rw [digitValue, if_neg fun h => hbeyond _ (by decide) h.2, if_neg fun h => hbeyond _ (by decide) h.2,
    if_neg fun h => hbeyond _ (by decide) h.2]

theorem digitIn_sixteen (c : Char) :
    digitIn 16 c = if IsDigit 16 c then some (digitRank c) else none := by
  have hascii : ∀ k < 128, digitIn 16 (Char.ofNat k) =
      if IsDigit 16 (Char.ofNat k) then some (digitRank (Char.ofNat k)) else none := by
    decide +kernel
  by_cases hc : c.toNat < 128
  · have h := hascii c.toNat hc
    rwa [Char.ofNat_toNat] at h
  · rw [Nat.not_lt] at hc
    have hnone : ¬IsDigit 16 c := by rw [IsDigit, digitRank_of_not_ascii hc]; decide
    rw [digitIn, digitValue_of_not_ascii hc, if_neg hnone]
    rfl

/-- A smaller radix takes the digits of sixteen that are below it. -/
theorem digitIn_eq_some (hr : radix ≤ 16) {d : Nat} :
    digitIn radix c = some d ↔ IsDigit radix c ∧ digitRank c = d := by
  have hsixteen : digitIn radix c = some d ↔ digitIn 16 c = some d ∧ d < radix := by
    simp only [digitIn, Option.filter_eq_some_iff, decide_eq_true_eq]
    exact ⟨fun h => ⟨⟨h.1, by omega⟩, h.2⟩, fun h => ⟨h.1.1, h.2⟩⟩
  rw [hsixteen, digitIn_sixteen, Option.ite_none_right_eq_some, Option.some.injEq]
  constructor
  · rintro ⟨⟨-, rfl⟩, hlt⟩
    exact ⟨hlt, rfl⟩
  · rintro ⟨hdigit, rfl⟩
    exact ⟨⟨Nat.lt_of_lt_of_le hdigit hr, rfl⟩, hdigit⟩

theorem digitsValue_cons (radix : Nat) (c : Char) (cs : List Char) :
    digitsValue radix (c :: cs) = radix ^ cs.length * digitRank c + digitsValue radix cs := by
  simp [digitsValue, Nat.ofDigits_append, Nat.add_comm]

theorem digitsFrom_eq_some (hr : radix ≤ 16) {high : Nat} :
    digitsFrom radix high ds = some n ↔
      (∀ c ∈ ds, IsDigit radix c) ∧ radix ^ ds.length * high + digitsValue radix ds = n := by
  induction ds generalizing high with
  | nil => simp [digitsFrom, digitsValue]
  | cons c cs ih =>
    have hsum (d : Nat) : radix ^ cs.length * (radix * high + d) =
        radix ^ (c :: cs).length * high + radix ^ cs.length * d := by
      rw [List.length_cons]
      ring
    simp only [digitsFrom, Option.bind_eq_some_iff, digitIn_eq_some hr, ih, List.forall_mem_cons,
      digitsValue_cons, hsum]
    constructor
    · rintro ⟨d, ⟨hc, rfl⟩, hcs, hn⟩
      exact ⟨⟨hc, hcs⟩, by rw [← hn, Nat.add_assoc]⟩
    · rintro ⟨⟨hc, hcs⟩, hn⟩
      exact ⟨_, ⟨hc, rfl⟩, hcs, by rw [← hn, Nat.add_assoc]⟩

/-- Digits of a radix, one or more. -/
structure Digits (radix : Nat) (ds : List Char) : Prop where
  nonempty : ds ≠ []
  digits : ∀ c ∈ ds, IsDigit radix c

theorem natural_eq_some (hr : radix ≤ 16) :
    natural radix ds = some n ↔ Digits radix ds ∧ digitsValue radix ds = n := by
  cases ds with
  | nil => exact ⟨nofun, fun h => absurd rfl h.1.nonempty⟩
  | cons c cs =>
    rw [natural, digitsFrom_eq_some hr, Nat.mul_zero, Nat.zero_add]
    · exact ⟨fun h => ⟨⟨List.cons_ne_nil _ _, h.1⟩, h.2⟩, fun h => ⟨h.1.digits, h.2⟩⟩
    · exact List.cons_ne_nil _ _

/-! ### Signs -/

/-- A sign that may stand in front of a number, or none. -/
inductive Sign where
  | none
  | plus
  | minus
deriving DecidableEq, Repr

def Sign.text : Sign → List Char
  | .none => []
  | .plus => ['+']
  | .minus => ['-']

def Sign.apply : Sign → Int → Int
  | .none, v | .plus, v => v
  | .minus, v => -v

/-- The characters that are signs. -/
def IsSign (c : Char) : Prop := c = '+' ∨ c = '-'

instance : Decidable (IsSign c) := inferInstanceAs (Decidable (_ ∨ _))

theorem Sign.exists_singleton {s : Sign} (hs : s ≠ .none) : ∃ c, s.text = [c] ∧ IsSign c := by
  cases s with
  | none => exact absurd rfl hs
  | plus => exact ⟨'+', rfl, .inl rfl⟩
  | minus => exact ⟨'-', rfl, .inr rfl⟩

theorem not_isSign_of_isDigit (hr : radix ≤ 16) (hc : IsDigit radix c) : ¬IsSign c := by
  have hrank (h : digitRank c = 16) : False := by
    rw [IsDigit, h] at hc
    omega
  rintro (rfl | rfl)
  · exact hrank (by decide)
  · exact hrank (by decide)

theorem unsigned_eq_some (hr : radix ≤ 16) {limit : Nat} :
    unsigned radix limit cs = some n ↔
      ∃ ds, (cs = ds ∨ cs = '+' :: ds) ∧ Digits radix ds ∧ digitsValue radix ds = n ∧ n < limit := by
  constructor
  · intro h
    obtain ⟨hread, hlt⟩ := Option.filter_eq_some_iff.mp h
    split at hread
    · next ds =>
      obtain ⟨hds, hn⟩ := (natural_eq_some hr).mp hread
      exact ⟨ds, .inr rfl, hds, hn, of_decide_eq_true hlt⟩
    · obtain ⟨hds, hn⟩ := (natural_eq_some hr).mp hread
      exact ⟨cs, .inl rfl, hds, hn, of_decide_eq_true hlt⟩
  · rintro ⟨ds, hcs, hds, hn, hlt⟩
    have hread := (natural_eq_some hr).mpr ⟨hds, hn⟩
    refine Option.filter_eq_some_iff.mpr ⟨?_, decide_eq_true hlt⟩
    obtain rfl | rfl := hcs
    · -- Digits do not begin with a sign.
      split
      · next rest =>
        exact absurd (.inl rfl) (not_isSign_of_isDigit hr (hds.digits '+' List.mem_cons_self))
      · exact hread
    · exact hread

/-- What 64 bits hold of a number behind a sign. -/
def InRange (s : Sign) (m : Nat) : Prop := m < 2 ^ 63 ∨ s = .minus ∧ m = 2 ^ 63

theorem inRange_iff {s : Sign} {m : Nat} :
    InRange s m ↔ -2 ^ 63 ≤ s.apply m ∧ s.apply m < 2 ^ 63 := by
  cases s
  all_goals
    simp only [InRange, Sign.apply, reduceCtorEq, false_and, or_false, true_and]
    omega

/-- Digits do not begin with a sign, so the sign in front of them is the one that is read. -/
theorem signed_text (hr : radix ≤ 16) (hds : Digits radix ds) (s : Sign) :
    signed radix 64 (s.text ++ ds) =
      (some (s.apply (digitsValue radix ds))).filter fun v => -2 ^ 63 ≤ v && v < 2 ^ 63 := by
  have hread : natural radix ds = some (digitsValue radix ds) := (natural_eq_some hr).mpr ⟨hds, rfl⟩
  have hhalf : Int.ofNat (1 <<< (64 - 1)) = 2 ^ 63 := by decide
  have hhead (d : Char) (rest : List Char) (hd : IsSign d) : ds ≠ d :: rest := fun h =>
    not_isSign_of_isDigit hr (hds.digits d (h ▸ List.mem_cons_self)) hd
  cases s with
  | plus =>
    simp only [signed, Sign.text, List.singleton_append, hread, hhalf, Option.map_some]
    rfl
  | minus =>
    simp only [signed, Sign.text, List.singleton_append, hread, hhalf, Option.map_some]
    rfl
  | none =>
    -- The text begins with a digit, which must not be taken for a sign.
    rw [Sign.text, List.nil_append]
    unfold signed
    dsimp only
    split
    · next rest => exact absurd rfl (hhead '+' rest (.inl rfl))
    · next rest => exact absurd rfl (hhead '-' rest (.inr rfl))
    · rw [hread, hhalf, Option.map_some]
      rfl

/-- What is read has a sign or none, and the rest is read as a natural number. -/
theorem exists_sign_of_signed (h : signed radix 64 cs = some v) :
    ∃ (s : Sign) (ds : List Char) (m : Nat), s.text ++ ds = cs ∧ natural radix ds = some m := by
  obtain ⟨hvalue, -⟩ := Option.filter_eq_some_iff.mp h
  split at hvalue
  · next ds =>
    obtain ⟨m, hm, -⟩ := Option.map_eq_some_iff.mp hvalue
    exact ⟨.plus, ds, m, rfl, hm⟩
  · next ds =>
    obtain ⟨m, hm, -⟩ := Option.map_eq_some_iff.mp hvalue
    exact ⟨.minus, ds, m, rfl, hm⟩
  · obtain ⟨m, hm, -⟩ := Option.map_eq_some_iff.mp hvalue
    exact ⟨.none, cs, m, rfl, hm⟩

theorem signed_eq_some (hr : radix ≤ 16) :
    signed radix 64 cs = some v ↔ ∃ (s : Sign) (ds : List Char), s.text ++ ds = cs ∧ Digits radix ds ∧
      InRange s (digitsValue radix ds) ∧ s.apply (digitsValue radix ds) = v := by
  have hfilter (s : Sign) (m : Nat) :
      (some (s.apply m)).filter (fun v => -2 ^ 63 ≤ v && v < 2 ^ 63) = some v ↔
        InRange s m ∧ s.apply m = v := by
    rw [Option.filter_eq_some_iff, Option.some.injEq, inRange_iff, Bool.and_eq_true,
      decide_eq_true_eq, decide_eq_true_eq]
    exact ⟨fun ⟨hv, hrange⟩ => ⟨hv ▸ hrange, hv⟩, fun ⟨hrange, hv⟩ => ⟨hv, hv ▸ hrange⟩⟩
  constructor
  · intro h
    obtain ⟨s, ds, m, rfl, hm⟩ := exists_sign_of_signed h
    obtain ⟨hds, rfl⟩ := (natural_eq_some hr).mp hm
    rw [signed_text hr hds, hfilter] at h
    exact ⟨s, ds, rfl, hds, h⟩
  · rintro ⟨s, ds, rfl, hds, h⟩
    rw [signed_text hr hds, hfilter]
    exact h

end OledPanel.Text
