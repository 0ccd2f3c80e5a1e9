import OledPanel.Bench.Plain
import OledPanel.Proofs.Inputs
import OledPanel.Proofs.SignedNumerals

/-! The grammar of the integers that attributes take. The form strips one sign and the mark of the
radix and leaves the rest to a reader of numerals that takes a sign of its own. What it reads is
therefore spelled with up to two signs, one in front and one right before the digits. The spellings
with one sign at most are those of the texts that have no sign but in front. The bounds of 64 bits are
those of the number behind the first sign, so two minus signs can overflow them. -/

namespace OledPanel.Attribute.Input

open Text

variable {v : Int} {c : Char} {cs ds : List Char}

/-! ### Numerals -/

/-- What stands in front of a number to tell its radix. -/
inductive Mark where
  | decimal
  | octal
  | lowerHex
  | upperHex
deriving DecidableEq, Repr

def Mark.text : Mark → List Char
  | .decimal => []
  | .octal => ['0']
  | .lowerHex => ['0', 'x']
  | .upperHex => ['0', 'X']

def Mark.radix : Mark → Nat
  | .decimal => 10
  | .octal => 8
  | .lowerHex | .upperHex => 16

theorem Mark.radix_le (m : Mark) : m.radix ≤ 16 := by cases m <;> decide

theorem Mark.not_isSign_of_mem {m : Mark} (hc : c ∈ m.text) : ¬IsSign c := by
  have hall : m.text.all (fun d => ¬IsSign d) = true := by cases m <;> decide
  exact of_decide_eq_true (List.all_eq_true.mp hall c hc)

/-- Every mark but that of decimal numbers begins with a zero. -/
theorem Mark.exists_cons {m : Mark} (hm : m ≠ .decimal) : ∃ ds, m.text = '0' :: ds := by
  cases m with
  | decimal => exact absurd rfl hm
  | octal => exact ⟨[], rfl⟩
  | lowerHex => exact ⟨['x'], rfl⟩
  | upperHex => exact ⟨['X'], rfl⟩

/-- A numeral as it is spelled. -/
structure Numeral where
  mark : Mark
  sign : Sign
  digits : List Char

namespace Numeral

variable {q : Numeral}

def text (q : Numeral) : List Char := q.mark.text ++ (q.sign.text ++ q.digits)

def size (q : Numeral) : Nat := digitsValue q.mark.radix q.digits

def value (q : Numeral) : Int := q.sign.apply q.size

/-- Without a mark and a sign, a zero in front of digits would be the mark of octal ones. -/
structure Valid (q : Numeral) : Prop where
  digits : Digits q.mark.radix q.digits
  range : InRange q.sign q.size
  lead : q.mark = .decimal → q.sign = .none → ∀ ds, q.digits = '0' :: ds → ds = []

theorem exists_of_signed (m : Mark) (h : signed m.radix 64 cs = some v)
    (hlead : m = .decimal → ∀ d ds, cs ≠ '0' :: d :: ds) :
    ∃ q : Numeral, q.Valid ∧ q.text = m.text ++ cs ∧ q.value = v := by
  obtain ⟨s, ds, rfl, hds, hrange, hv⟩ := (signed_eq_some m.radix_le).mp h
  refine ⟨⟨m, s, ds⟩, ⟨hds, hrange, ?_⟩, rfl, hv⟩
  rintro hm rfl rest rfl
  cases rest with
  | nil => rfl
  | cons d rest => exact absurd rfl (hlead hm d rest)

theorem Valid.signed (hq : q.Valid) :
    Text.signed q.mark.radix 64 (q.sign.text ++ q.digits) = some q.value :=
  (signed_eq_some q.mark.radix_le).mpr ⟨q.sign, q.digits, rfl, hq.digits, hq.range, rfl⟩

theorem Valid.fits (hq : q.Valid) : -2 ^ 63 ≤ q.value ∧ q.value < 2 ^ 63 := inRange_iff.mp hq.range

/-- Behind the mark stands a sign or a digit. -/
theorem Valid.head (hq : q.Valid) : ∃ c rest, q.sign.text ++ q.digits = c :: rest ∧
    (IsSign c ∨ q.sign = .none ∧ IsDigit q.mark.radix c ∧ q.digits = c :: rest) := by
  obtain ⟨d, ds, hd⟩ := List.exists_cons_of_ne_nil hq.digits.nonempty
  cases hs : q.sign with
  | none => exact ⟨d, ds, hd, .inr ⟨rfl, hq.digits.digits d (hd ▸ List.mem_cons_self), hd⟩⟩
  | plus => exact ⟨'+', q.digits, rfl, .inl (.inl rfl)⟩
  | minus => exact ⟨'-', q.digits, rfl, .inl (.inr rfl)⟩

/-- No character of a numeral but its sign is one. -/
theorem Valid.not_isSign_of_mem (hq : q.Valid) (hs : q.sign = .none) : ∀ c ∈ q.text, ¬IsSign c := by
  intro c hc
  rw [text, hs, Sign.text, List.nil_append, List.mem_append] at hc
  exact hc.elim Mark.not_isSign_of_mem fun h =>
    not_isSign_of_isDigit q.mark.radix_le (hq.digits.digits c h)

theorem magnitude?_octal (hx : c ≠ 'x') (hX : c ≠ 'X') :
    magnitude? ('0' :: c :: cs) = Text.signed 8 64 (c :: cs) := by
  unfold magnitude?
  split
  · next h => exact absurd (List.cons.inj (List.cons.inj h).2).1 hx
  · next h => exact absurd (List.cons.inj (List.cons.inj h).2).1 hX
  · next h => rw [(List.cons.inj h).2]
  · next h => exact absurd rfl (h c cs)

theorem magnitude?_decimal (h : ∀ d ds, cs ≠ '0' :: d :: ds) :
    magnitude? cs = Text.signed 10 64 cs := by
  unfold magnitude?
  split
  · exact absurd rfl (h _ _)
  · exact absurd rfl (h _ _)
  · exact absurd rfl (h _ _)
  · rfl

/-- The mark of a numeral is found where it stands. -/
theorem Valid.magnitude? (hq : q.Valid) : magnitude? q.text = some q.value := by
  obtain ⟨c, rest, htext, hc⟩ := hq.head
  rw [← hq.signed]
  cases hm : q.mark with
  | lowerHex => rw [text, hm]; rfl
  | upperHex => rw [text, hm]; rfl
  | octal =>
    -- Behind the zero comes no letter, or the mark would be that of hexadecimal digits.
    have hne (d : Char) (hsign : ¬IsSign d) (hdigit : ¬IsDigit 8 d) : c ≠ d := by
      rintro rfl
      rw [hm] at hc
      exact hc.elim hsign fun h => hdigit h.2.1
    rw [text, hm, htext]
    exact magnitude?_octal (hne 'x' (by decide) (by decide)) (hne 'X' (by decide) (by decide))
  | decimal =>
    have hne (d : Char) (ds : List Char) : c :: rest ≠ '0' :: d :: ds := by
      rintro h
      obtain ⟨rfl, rfl⟩ := List.cons.inj h
      obtain hsign | ⟨hs, -, hdigits⟩ := hc
      · exact absurd hsign (by decide)
      · exact List.cons_ne_nil _ _ (hq.lead hm hs _ hdigits)
    rw [text, hm, htext]
    exact magnitude?_decimal hne

theorem magnitude?_eq_some :
    Input.magnitude? cs = some v ↔ ∃ q : Numeral, q.Valid ∧ q.text = cs ∧ q.value = v := by
  constructor
  · intro h
    unfold Input.magnitude? at h
    split at h
    · exact exists_of_signed .lowerHex h nofun
    · exact exists_of_signed .upperHex h nofun
    · exact exists_of_signed .octal h nofun
    · next hlead => exact exists_of_signed .decimal h fun _ d ds hcs => hlead d ds hcs
  · rintro ⟨q, hq, rfl, rfl⟩
    exact hq.magnitude?

end Numeral

/-! ### Spellings -/

/-- An integer as it is spelled. -/
structure Spelling where
  sign : Sign
  numeral : Numeral

namespace Spelling

variable {p : Spelling}

def text (p : Spelling) : List Char := p.sign.text ++ p.numeral.text

def value (p : Spelling) : Int := p.sign.apply p.numeral.value

/-- A spelling has one value, which 64 bits may be too few for. -/
def reading (p : Spelling) : Reading := if p.value = 2 ^ 63 then .overflow else .value p.value

/-- A single sign in front of decimal digits is the one in front of the numeral. -/
structure Valid (p : Spelling) : Prop where
  numeral : p.numeral.Valid
  front : p.sign = .none → p.numeral.mark = .decimal → p.numeral.sign = .none

/-- The spellings with one sign at most, which stands in front. -/
structure OneSign (p : Spelling) : Prop extends p.Valid where
  unsigned : p.numeral.sign = .none

/-- A valid spelling without a sign in front does not begin with one. -/
theorem Valid.head (hp : p.Valid) (hs : p.sign = .none) {rest : List Char}
    (h : p.numeral.text = c :: rest) : ¬IsSign c := by
  by_cases hm : p.numeral.mark = .decimal
  · exact hp.numeral.not_isSign_of_mem (hp.front hs hm) c (h ▸ List.mem_cons_self)
  · obtain ⟨ds, hmark⟩ := Mark.exists_cons hm
    rw [Numeral.text, hmark] at h
    rw [← (List.cons.inj h).1]
    decide

/-- The sign of a numeral is never the first character of a spelling. -/
theorem Valid.unsigned_iff (hp : p.Valid) :
    p.numeral.sign = .none ↔ ∀ c ∈ p.text.tail, ¬IsSign c := by
  have htail (hs : p.sign ≠ .none) : p.text.tail = p.numeral.text := by
    obtain ⟨d, hd, -⟩ := Sign.exists_singleton hs
    rw [text, hd]
    rfl
  constructor
  · intro hunsigned c hc
    refine hp.numeral.not_isSign_of_mem hunsigned c ?_
    by_cases hs : p.sign = .none
    · rw [text, hs] at hc
      exact List.mem_of_mem_tail hc
    · rwa [← htail hs]
  · intro h
    by_contra hsigned
    obtain ⟨d, hd, hsign⟩ := Sign.exists_singleton hsigned
    have hmem : d ∈ p.numeral.sign.text ++ p.numeral.digits := by simp [hd]
    refine h d ?_ hsign
    by_cases hs : p.sign = .none
    · obtain ⟨ds, hmark⟩ := Mark.exists_cons fun hm => hsigned (hp.front hs hm)
      rw [text, hs, Numeral.text, hmark]
      exact List.mem_append_right ds hmem
    · rw [htail hs]
      exact List.mem_append_right _ hmem

theorem reading_eq (hq : p.numeral.Valid) :
    p.reading = if p.sign = .minus then negated p.numeral.value else .value p.numeral.value := by
  rw [reading, value]
  cases p.sign with
  | minus =>
    have hleast : Int64.minValue.toInt = -2 ^ 63 := by decide
    have hneg : -p.numeral.value = 2 ^ 63 ↔ p.numeral.value = Int64.minValue.toInt := by omega
    simp only [Sign.apply, negated, hneg, if_true]
  | plus | none => exact if_neg (Int.ne_of_lt hq.fits.2)

theorem Valid.integer? (hp : p.Valid) : integer? p.text = some p.reading := by
  have hnumeral := hp.numeral.magnitude?
  rw [reading_eq hp.numeral]
  unfold text
  cases hs : p.sign with
  | plus => exact congrArg (Option.map Reading.value) hnumeral
  | minus => exact congrArg (Option.map negated) hnumeral
  | none =>
    rw [Sign.text, List.nil_append]
    unfold Input.integer?
    split
    · next h => exact absurd (.inr rfl) (hp.head hs h)
    · next h => exact absurd (.inl rfl) (hp.head hs h)
    · exact congrArg (Option.map Reading.value) hnumeral

theorem integer?_eq_some {r : Reading} :
    Input.integer? cs = some r ↔ ∃ p : Spelling, p.Valid ∧ p.text = cs ∧ p.reading = r := by
  constructor
  · intro h
    unfold Input.integer? at h
    split at h
    · obtain ⟨w, hw, rfl⟩ := Option.map_eq_some_iff.mp h
      obtain ⟨q, hq, rfl, rfl⟩ := Numeral.magnitude?_eq_some.mp hw
      exact ⟨⟨.minus, q⟩, ⟨hq, nofun⟩, rfl, reading_eq hq⟩
    · obtain ⟨w, hw, rfl⟩ := Option.map_eq_some_iff.mp h
      obtain ⟨q, hq, rfl, rfl⟩ := Numeral.magnitude?_eq_some.mp hw
      exact ⟨⟨.plus, q⟩, ⟨hq, nofun⟩, rfl, reading_eq hq⟩
    · next hminus hplus =>
      obtain ⟨w, hw, rfl⟩ := Option.map_eq_some_iff.mp h
      obtain ⟨q, hq, rfl, rfl⟩ := Numeral.magnitude?_eq_some.mp hw
      refine ⟨⟨.none, q⟩, ⟨hq, fun _ hm => ?_⟩, rfl, reading_eq hq⟩
      change q.mark = .decimal at hm
      -- A sign at the head of the text would have been stripped before.
      cases hs : q.sign with
      | none => rfl
      | plus => exact absurd (by rw [Numeral.text, hm, hs]; rfl) (hplus q.digits)
      | minus => exact absurd (by rw [Numeral.text, hm, hs]; rfl) (hminus q.digits)
  · rintro ⟨p, hp, rfl, rfl⟩
    exact hp.integer?

theorem integer?_eq_none :
    Input.integer? cs = none ↔ ¬∃ p : Spelling, p.Valid ∧ p.text = cs := by
  simp only [Option.eq_none_iff_forall_ne_some, ne_eq, integer?_eq_some]
  exact ⟨fun h ⟨p, hp, htext⟩ => h p.reading ⟨p, hp, htext, rfl⟩,
    fun h _ ⟨p, hp, htext, _⟩ => h ⟨p, hp, htext⟩⟩

/-- The value of a spelling is one of 64 bits, or the first number beyond them. -/
theorem Valid.value_bounds (hp : p.Valid) : -2 ^ 63 ≤ p.value ∧ p.value ≤ 2 ^ 63 := by
  have hfits := hp.numeral.fits
  unfold value
  cases p.sign <;> simp only [Sign.apply] <;> omega

theorem Valid.reading_eq_value (hp : p.Valid) :
    p.reading = .value v ↔ p.value = v ∧ -2 ^ 63 ≤ v ∧ v < 2 ^ 63 := by
  have hbounds := hp.value_bounds
  rw [reading]
  split
  · next hover => simp only [reduceCtorEq, false_iff]; omega
  · next hfits => rw [Reading.value.injEq]; omega

/-- Only the negation of the least number overflows. -/
theorem Valid.reading_eq_overflow (hp : p.Valid) : p.reading = .overflow ↔
    p.sign = .minus ∧ p.numeral.sign = .minus ∧ p.numeral.size = 2 ^ 63 := by
  have hover : p.reading = .overflow ↔ p.value = 2 ^ 63 := by
    rw [reading]
    split
    · next h => exact iff_of_true rfl h
    · next h => exact iff_of_false nofun h
  have hrange := hp.numeral.range
  rw [hover]
  unfold value Numeral.value
  rcases p with ⟨s, m, t, ds⟩
  cases s <;> cases t <;> simp [InRange, Sign.apply] at hrange ⊢ <;> omega

/-- An overflow takes a second sign. -/
theorem OneSign.reading (hp : p.OneSign) : p.reading = .value p.value := by
  refine if_neg fun h => ?_
  have hover := hp.toValid.reading_eq_overflow.mp (if_pos h)
  exact absurd (hp.unsigned.symm.trans hover.2.1) nofun

end Spelling

open Spelling

theorem integer_eq_ok : integer cs = .ok v ↔
    (∃ p : Spelling, p.Valid ∧ p.text = trim cs ∧ p.value = v) ∧ -2 ^ 63 ≤ v ∧ v < 2 ^ 63 := by
  have hread : integer cs = .ok v ↔ integer? (trim cs) = some (.value v) := by
    rw [integer_eq]
    cases integer? (trim cs) with
    | none => simp
    | some r => cases r <;> simp [Reading.result]
  rw [hread, integer?_eq_some]
  constructor
  · rintro ⟨p, hp, htext, hv⟩
    obtain ⟨hvalue, hfits⟩ := hp.reading_eq_value.mp hv
    exact ⟨⟨p, hp, htext, hvalue⟩, hfits⟩
  · rintro ⟨⟨p, hp, htext, hvalue⟩, hfits⟩
    exact ⟨p, hp, htext, hp.reading_eq_value.mpr ⟨hvalue, hfits⟩⟩

theorem integer_eq_error {e : Error} : integer cs = .error e ↔
    e = .malformed (.integer (String.ofList (trim cs))) ∧
        (¬∃ p : Spelling, p.Valid ∧ p.text = trim cs) ∨
      e = .malformed .overflow ∧ ∃ p : Spelling, p.Valid ∧ p.text = trim cs ∧
        p.sign = .minus ∧ p.numeral.sign = .minus ∧ p.numeral.size = 2 ^ 63 := by
  have hread : integer cs = .error e ↔
      e = .malformed (.integer (String.ofList (trim cs))) ∧ integer? (trim cs) = none ∨
        e = .malformed .overflow ∧ integer? (trim cs) = some .overflow := by
    rw [integer_eq]
    cases integer? (trim cs) with
    | none => simp [eq_comm]
    | some r => cases r <;> simp [Reading.result, eq_comm]
  have hover : integer? (trim cs) = some .overflow ↔ ∃ p : Spelling, p.Valid ∧ p.text = trim cs ∧
      p.sign = .minus ∧ p.numeral.sign = .minus ∧ p.numeral.size = 2 ^ 63 := by
    rw [integer?_eq_some]
    exact exists_congr fun p => and_congr_right fun hp => and_congr_right fun _ =>
      hp.reading_eq_overflow
  rw [hread, integer?_eq_none, hover]

/-- A word is read where the integer is one that a word holds. -/
theorem word_eq_ok {w : UInt32} : word cs = .ok w ↔ integer cs = .ok (w.toNat : Int) := by
  refine ⟨fun h => ?_, word_of_integer⟩
  obtain ⟨v, hv, h⟩ : ∃ v, integer cs = .ok v ∧
      (if 0 ≤ v ∧ v < UInt32.size then .ok (UInt32.ofNat v.toNat)
        else Except.error (Error.malformed (.outOfRange v))) = Except.ok w := by
    rw [word] at h
    cases hv : integer cs with
    | error e => rw [hv] at h; cases h
    | ok v => rw [hv] at h; exact ⟨v, rfl, h⟩
  split at h
  · next hword =>
    obtain rfl := Except.ok.inj h
    rw [UInt32.toNat_ofNat_of_lt' (by omega), Int.toNat_of_nonneg hword.1, hv]
  · cases h

/-- `integer` on every text. A text is taken exactly if it is spelled with the digits of its radix,
up to two signs and a number that 64 bits hold behind the second, and else the error has the text.
The value of a text that is taken is read, and is one of 64 bits; only where two minus signs stand in
front of the least number would it not be, and this overflow is told as what it is. The spellings with
one sign at most are those of the texts read that have no sign but in front. -/
theorem integer_reads_spellings (cs : List Char) :
    (∀ v, integer cs = .ok v ↔
      (∃ p : Spelling, p.Valid ∧ p.text = trim cs ∧ p.value = v) ∧ -2 ^ 63 ≤ v ∧ v < 2 ^ 63) ∧
    (∀ e, integer cs = .error e ↔
      e = .malformed (.integer (String.ofList (trim cs))) ∧
          (¬∃ p : Spelling, p.Valid ∧ p.text = trim cs) ∨
        e = .malformed .overflow ∧ ∃ p : Spelling, p.Valid ∧ p.text = trim cs ∧
          p.sign = .minus ∧ p.numeral.sign = .minus ∧ p.numeral.size = 2 ^ 63) ∧
    (∀ v, (∃ p : Spelling, p.OneSign ∧ p.text = trim cs ∧ p.value = v) ↔
      integer cs = .ok v ∧ ∀ c ∈ (trim cs).tail, ¬IsSign c) ∧
    ∀ w, word cs = .ok w ↔ integer cs = .ok (w.toNat : Int) := by
  refine ⟨fun v => integer_eq_ok, fun e => integer_eq_error, fun v => ?_, fun w => word_eq_ok⟩
  rw [integer_eq_ok]
  constructor
  · rintro ⟨p, hp, htext, rfl⟩
    exact ⟨⟨⟨p, hp.toValid, htext, rfl⟩, (hp.toValid.reading_eq_value.mp hp.reading).2⟩,
      htext ▸ hp.toValid.unsigned_iff.mp hp.unsigned⟩
  · rintro ⟨⟨⟨p, hp, htext, hv⟩, -⟩, htail⟩
    exact ⟨p, ⟨hp, hp.unsigned_iff.mpr (htext ▸ htail)⟩, htext, hv⟩

/-- A second sign is read, behind the first or behind a mark, though no spelling with one sign is
that of the text. A panel takes the count of listeners from such a text. Two minus signs in front of
the least number overflow. -/
theorem integer_of_two_signs :
    let s := Panel.State.initial (Bench.plain none) ({} : Bench.Host) {} none none
    let write := Panel.store (Bench.plain none) "switch/te_listen_count" "--5"
    integer "--5".toList = .ok 5 ∧ integer "0x+5".toList = .ok 5 ∧ integer "0-7".toList = .ok (-7) ∧
      (∀ text ∈ ["--5", "0x+5", "0-7"], ¬∃ p : Spelling, p.OneSign ∧ p.text = trim text.toList) ∧
      integer "--9223372036854775808".toList = .error (.malformed .overflow) ∧
      write.answer s = .ok 3 ∧ (write.after s).refresh.listenCount = 5 := by
  refine ⟨by decide +kernel, by decide +kernel, by decide +kernel, ?_, by decide +kernel,
    by decide +kernel, by decide +kernel⟩
  have htails : ∀ text ∈ ["--5", "0x+5", "0-7"],
      (trim text.toList).tail.any (fun c => IsSign c) = true := by decide +kernel
  rintro text hmem ⟨p, hp, htext⟩
  obtain ⟨c, hc, hsign⟩ := List.any_eq_true.mp (htails text hmem)
  exact hp.toValid.unsigned_iff.mp hp.unsigned c (htext ▸ hc) (of_decide_eq_true hsign)

end OledPanel.Attribute.Input
