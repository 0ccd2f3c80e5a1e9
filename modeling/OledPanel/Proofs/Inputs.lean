import OledPanel.Panel.Attributes
import OledPanel.Proofs.Numerals

/-! What attributes show is read back by the forms of text they are written in. A shown number is
read as itself by every form that takes numbers, a list of thresholds as the same thresholds, and
the name of a timing as the request for its size and rate, which the first timing to fit another
request is also the first to fit. -/

namespace OledPanel

open Text

variable {cs : List Char}

/-! ### Numbers and words -/

namespace Attribute.Input

theorem integer?_digits {n : Nat} (hn : n < 2 ^ 63) : integer? (digits n) = some (.value n) := by
  have hmagnitude : magnitude? (digits n) = some (n : Int) := by
    unfold magnitude?
    split
    · next h => cases eq_nil_of_digits h
    · next h => cases eq_nil_of_digits h
    · next h => cases eq_nil_of_digits h
    · exact signed_digits hn
  unfold integer?
  split
  · next h => exact absurd (h ▸ List.mem_cons_self ..) (not_mem_digits (c := '-') rfl n)
  · next h => exact absurd (h ▸ List.mem_cons_self ..) (not_mem_digits (c := '+') rfl n)
  · rw [hmagnitude, Option.map_some]

theorem trimmed_of_read {α : Type} {read : List Char → Option α} {why : String → Malformed} {a : α}
    (h : read (trim cs) = some a) : trimmed read why cs = .ok a := by
  rw [trimmed, h]

theorem integer_eq (cs : List Char) : integer cs =
    match integer? (trim cs) with
    | some r => r.result
    | none => .error (.malformed (.integer (String.ofList (trim cs)))) := by
  rw [integer, trimmed]
  cases integer? (trim cs) <;> rfl

theorem integer_word {w : UInt32} (h : trim cs = digits w.toNat) : integer cs = .ok (w.toNat : Int) := by
  have hw : w.toNat < 2 ^ 63 := Nat.lt_trans w.toNat_lt (by decide)
  rw [integer_eq, h, integer?_digits hw]
  rfl

theorem word_of_integer {w : UInt32} (h : integer cs = .ok (w.toNat : Int)) : word cs = .ok w := by
  have hrange : (0 : Int) ≤ w.toNat ∧ (w.toNat : Int) < UInt32.size :=
    ⟨Int.natCast_nonneg _, Int.ofNat_lt.mpr w.toNat_lt⟩
  simp only [word, h, bind, Except.bind]
  rw [if_pos hrange, Int.toNat_natCast, UInt32.ofNat_toNat]

theorem word_of_digits {w : UInt32} (h : trim cs = digits w.toNat) : word cs = .ok w :=
  word_of_integer (integer_word h)

theorem clampedWord_of_digits {w : UInt32} (h : trim cs = digits w.toNat) :
    clampedWord cs = .ok w := by
  have hmin : min w.toNat (UInt32.size - 1) = w.toNat := Nat.min_eq_left (Nat.le_pred_of_lt w.toNat_lt)
  rw [clampedWord, integer_word h]
  change Except.ok (UInt32.ofNat (min (w.toNat : Int).toNat _)) = _
  rw [Int.toNat_natCast, hmin, UInt32.ofNat_toNat]

theorem decimal_of_digits {n : Nat} (hn : n < 2 ^ 31) (h : trim cs = digits n) :
    decimal cs = .ok (n : Int) := trimmed_of_read (h ▸ signed_digits hn)

theorem boolean_of_shown (on : Bool) :
    boolean (Panel.line (if on then "true" else "false")).toList = .ok on := by
  cases on <;> decide +kernel

end Attribute.Input

/-! ### Lines -/

namespace Panel

open Attribute.Input

theorem toList_line (s : String) : (line s).toList = s.toList ++ ['\n'] := by
  rw [line, String.toList_append]
  rfl

/-- A line without another blank is stripped to what it was made of. -/
theorem trim_line {s : String} (hs : Solid s.toList) (hne : s.toList ≠ []) :
    trim (line s).toList = s.toList := by
  rw [toList_line]
  exact trim_append_blank hs hne (by decide)

theorem trim_decimalLine (n : Nat) : trim (line (Text.decimal n)).toList = digits n := by
  have h := toList_decimal n
  rw [trim_line (h ▸ solid_digits n) (h ▸ digits_ne_nil n), h]

theorem words_thresholdsLine (ts : List UInt32) :
    words (thresholdsLine ts).toList = ts.map fun t => digits t.toNat := by
  have htext : (String.join (ts.map fun t => Text.decimal t.toNat ++ " ")).toList =
      ts.flatMap fun t => digits t.toNat ++ [' '] := by
    rw [String.toList_join, List.flatMap_map]
    congr 1
    funext t
    rw [String.toList_append, toList_decimal]
    rfl
  rw [thresholdsLine, toList_line, htext]
  clear htext
  induction ts with
  | nil => exact words_blank (by decide)
  | cons t ts ih =>
    rw [List.flatMap_cons, List.append_assoc, List.append_assoc, List.singleton_append,
      words_append (solid_digits _) (digits_ne_nil _) (by decide), ih, List.map_cons]

/-- A table that is not empty and not too long is read back. -/
theorem list_thresholdsLine {limit : Nat} {ts : List UInt32} (hne : ts ≠ []) (hl : ts.length ≤ limit) :
    list limit (thresholdsLine ts).toList = .ok ts := by
  have hwords : (ts.map fun t => digits t.toNat).mapM word = .ok ts := by
    clear hne hl
    induction ts with
    | nil => rfl
    | cons t ts ih =>
      rw [List.map_cons, List.mapM_cons, word_of_digits (trim_of_solid (solid_digits _)), ih]
      rfl
  simp only [list, words_thresholdsLine, hwords, bind, Except.bind]
  rw [if_neg (by simpa [hne] using hl)]

end Panel

/-! ### Requests -/

namespace ModeRequest

theorem number?_digits (w : UInt32) : number? (digits w.toNat) = some w := by
  rw [number?, trim_of_solid (solid_digits _), unsigned_digits w.toNat_lt, Option.map_some,
    UInt32.ofNat_toNat]

/-- No text asks for a rate of zero. -/
theorem rate_ne_zero {s : String} {r : ModeRequest} (h : parse s = .ok r) : r.rate ≠ 0 := by
  unfold parse at h
  split at h
  · next q hq =>
    cases h
    unfold ofChars? at hq
    obtain ⟨⟨size, rate⟩, -, hq⟩ := Option.bind_eq_some_iff.mp hq
    obtain ⟨w, -, hq⟩ := Option.bind_eq_some_iff.mp hq
    split at hq
    · cases hq
    · next hw =>
      cases hq
      exact hw
  · cases h

end ModeRequest

namespace Timing

/-- The request for the size and the rate of a timing. -/
def request (t : Timing) : ModeRequest := { size := some (t.width, t.height), rate := t.rate }

theorem toList_name (t : Timing) : t.name.toList =
    (digits t.width.toNat ++ 'x' :: digits t.height.toNat) ++ '@' :: digits t.rate.toNat := by
  simp only [name, String.toList_append, toList_decimal]
  simp

theorem solid_name (t : Timing) : Solid t.name.toList := by
  have hsize := (solid_digits t.width.toNat).append
    (.cons (c := 'x') (by decide) (solid_digits t.height.toNat))
  rw [toList_name]
  exact hsize.append (.cons (c := '@') (by decide) (solid_digits t.rate.toNat))

theorem name_ne_nil (t : Timing) : t.name.toList ≠ [] := by simp [toList_name]

/-- The name of a timing with another rate than zero asks for that timing. -/
theorem parse_name (t : Timing) (ht : t.rate ≠ 0) :
    ModeRequest.parse (Panel.line t.name) = .ok t.request := by
  have hat : '@' ∉ digits t.width.toNat ++ 'x' :: digits t.height.toNat := by
    simp [not_mem_digits (c := '@') rfl]
  have hsize : ModeRequest.size? (digits t.width.toNat ++ 'x' :: digits t.height.toNat) =
      some (t.width, t.height) := by
    rw [ModeRequest.size?, cut_append (not_mem_digits (c := 'x') rfl _)]
    simp [ModeRequest.number?_digits]
  have hparts : ModeRequest.parts? t.name.toList =
      some (some (t.width, t.height), digits t.rate.toNat) := by
    rw [toList_name, ModeRequest.parts?, cut_append hat]
    split
    · next h => cases h
    · next h => simp at h
    · next h =>
      cases h
      rw [hsize]
      rfl
  have hread : ModeRequest.ofChars? (Panel.line t.name).toList = some t.request := by
    rw [ModeRequest.ofChars?, Panel.trim_line t.solid_name t.name_ne_nil, hparts]
    simp [ModeRequest.number?_digits, ht, request]
  rw [ModeRequest.parse, hread]

theorem name_ne_none (t : Timing) : t.name.toList ≠ "none".toList := by
  intro h
  have hat : '@' ∈ t.name.toList := by simp [toList_name]
  rw [h] at hat
  exact absurd hat (by decide)

theorem fits_iff {t : Timing} {r : ModeRequest} :
    t.fits r = true ↔ r.rate = t.rate ∧ ∀ s, r.size = some s → s = (t.width, t.height) := by
  rw [fits, Bool.and_eq_true, decide_eq_true_eq]
  cases r.size <;> simp

/-- The first timing to fit a request is the first to fit the request for itself. -/
theorem find?_request {ts : List Timing} {r : ModeRequest} {i : Nat} (h : find? ts r = some i) :
    ∃ t, ts[i]? = some t ∧ t.rate = r.rate ∧ find? ts t.request = some i := by
  obtain ⟨hi, hfits, hfirst⟩ := List.findIdx?_eq_some_iff_getElem.mp h
  obtain ⟨hrate, hsize⟩ := fits_iff.mp hfits
  refine ⟨ts[i], List.getElem?_eq_getElem hi, hrate.symm, ?_⟩
  have hself : ts[i].fits ts[i].request = true :=
    fits_iff.mpr ⟨rfl, fun _ hs => (Option.some.inj hs).symm⟩
  refine List.findIdx?_eq_some_iff_getElem.mpr ⟨hi, hself, fun j hj hsame => hfirst j hj ?_⟩
  obtain ⟨hrate', hsize'⟩ := fits_iff.mp hsame
  exact fits_iff.mpr ⟨hrate.trans hrate', fun s hs => (hsize s hs).trans (hsize' _ rfl)⟩

end Timing
end OledPanel
