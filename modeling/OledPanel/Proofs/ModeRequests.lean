import OledPanel.Proofs.Inputs
import OledPanel.Proofs.SignedNumerals

/-! The grammar of mode requests. A number is spelled with digits between blanks, with a plus sign in
front or none, so neither an at sign nor an `x` stands in it, and a text in which such numbers are
put together is cut where they meet. The name of a timing is a request for it, and the first timing
of a list to fit that request is the first of its size and rate. -/

namespace OledPanel

namespace ModeRequest

open Text

variable {c : Char} {cs : List Char} {w : UInt32} {r : ModeRequest}

/-! ### Numbers -/

/-- A text of decimal digits between blanks, with a plus sign in front of them or none. -/
def Spells (cs : List Char) (w : UInt32) : Prop :=
  ∃ ds, (trim cs = ds ∨ trim cs = '+' :: ds) ∧ Digits 10 ds ∧ digitsValue 10 ds = w.toNat

theorem number?_eq_some : number? cs = some w ↔ Spells cs w := by
  have hr : 10 ≤ 16 := by decide
  rw [number?, Option.map_eq_some_iff]
  constructor
  · rintro ⟨n, hn, rfl⟩
    obtain ⟨ds, hcs, hds, hvalue, hlt⟩ := (unsigned_eq_some hr).mp hn
    exact ⟨ds, hcs, hds, by rw [hvalue, UInt32.toNat_ofNat_of_lt' hlt]⟩
  · rintro ⟨ds, hcs, hds, hvalue⟩
    exact ⟨w.toNat, (unsigned_eq_some hr).mpr ⟨ds, hcs, hds, hvalue, w.toNat_lt⟩, UInt32.ofNat_toNat⟩

/-- A mark that separates numbers stands in none of them. -/
theorem Spells.not_mem (h : Spells cs w) (hblank : isBlank c = false) (hdigit : ¬IsDigit 10 c)
    (hplus : c ≠ '+') : c ∉ cs := by
  obtain ⟨ds, hcs, hds, -⟩ := h
  rw [← mem_trim hblank]
  obtain hcs | hcs := hcs
  · rw [hcs]
    exact fun hc => hdigit (hds.digits c hc)
  · rw [hcs, List.mem_cons, not_or]
    exact ⟨hplus, fun hc => hdigit (hds.digits c hc)⟩

theorem Spells.not_mem_at (h : Spells cs w) : '@' ∉ cs :=
  h.not_mem (by decide) (by decide) (by decide)

theorem Spells.not_mem_x (h : Spells cs w) : 'x' ∉ cs :=
  h.not_mem (by decide) (by decide) (by decide)

/-! ### Requests -/

/-- The texts of requests. No request is for a rate of zero. -/
inductive Written : List Char → ModeRequest → Prop where
  | rate {cs : List Char} {rate : UInt32} (h : Spells cs rate) (hne : rate ≠ 0) :
    Written cs ⟨none, rate⟩
  | anySize {cs : List Char} {rate : UInt32} (h : Spells cs rate) (hne : rate ≠ 0) :
    Written ('@' :: cs) ⟨none, rate⟩
  | sized {ws hs cs : List Char} {width height rate : UInt32} (hw : Spells ws width)
    (hh : Spells hs height) (h : Spells cs rate) (hne : rate ≠ 0) :
    Written (ws ++ 'x' :: hs ++ '@' :: cs) ⟨some (width, height), rate⟩

theorem size?_eq_some {width height : UInt32} :
    size? cs = some (width, height) ↔
      ∃ ws hs, cs = ws ++ 'x' :: hs ∧ Spells ws width ∧ Spells hs height := by
  constructor
  · intro h
    obtain ⟨⟨ws, hs⟩, hcut, h⟩ := Option.bind_eq_some_iff.mp h
    obtain ⟨w, hw, h⟩ := Option.bind_eq_some_iff.mp h
    obtain ⟨v, hv, h⟩ := Option.bind_eq_some_iff.mp h
    obtain ⟨rfl, rfl⟩ := Prod.mk.inj (Option.some.inj h)
    exact ⟨ws, hs, (cut_eq_some hcut).1, number?_eq_some.mp hw, number?_eq_some.mp hv⟩
  · rintro ⟨ws, hs, rfl, hw, hh⟩
    rw [size?, cut_append hw.not_mem_x]
    simp [number?_eq_some.mpr hw, number?_eq_some.mpr hh]

/-- What is read of the parts of a text. -/
theorem ofChars?_of_parts {size : Option (UInt32 × UInt32)} {rs : List Char} {rate : UInt32}
    (hparts : parts? (trim cs) = some (size, rs)) (h : Spells rs rate) (hne : rate ≠ 0) :
    ofChars? cs = some ⟨size, rate⟩ := by
  simp [ofChars?, hparts, number?_eq_some.mpr h, hne]

theorem ofChars?_eq_some : ofChars? cs = some r ↔ Written (trim cs) r := by
  constructor
  · intro h
    obtain ⟨⟨size, rs⟩, hparts, h⟩ := Option.bind_eq_some_iff.mp h
    obtain ⟨rate, hrate, h⟩ := Option.bind_eq_some_iff.mp h
    rw [number?_eq_some] at hrate
    have hne : rate ≠ 0 := by
      rintro rfl
      cases h
    rw [if_neg hne] at h
    obtain rfl := Option.some.inj h
    unfold parts? at hparts
    split at hparts
    · cases hparts
      exact .rate hrate hne
    · next rs' hcut =>
      cases hparts
      rw [(cut_eq_some hcut).1]
      exact .anySize hrate hne
    · next before rs' hbefore hcut =>
      obtain ⟨⟨width, height⟩, hsize, hp⟩ := Option.map_eq_some_iff.mp hparts
      cases hp
      obtain ⟨ws, hs, rfl, hw, hh⟩ := size?_eq_some.mp hsize
      rw [(cut_eq_some hcut).1]
      exact .sized hw hh hrate hne
  · intro h
    generalize htext : trim cs = text at h
    cases h with
    | rate h hne =>
      refine ofChars?_of_parts ?_ h hne
      rw [htext, parts?, cut_eq_none h.not_mem_at]
    | anySize h hne =>
      refine ofChars?_of_parts ?_ h hne
      rw [htext, parts?, cut]
      rfl
    | sized hw hh h hne =>
      rename_i ws hs rs width height rate
      have hat : '@' ∉ ws ++ 'x' :: hs := by
        simp [hw.not_mem_at, hh.not_mem_at]
      refine ofChars?_of_parts ?_ h hne
      rw [htext, parts?, cut_append hat]
      split
      · next hcut => cases hcut
      · next hcut => simp at hcut
      · next hcut =>
        cases hcut
        rw [size?_eq_some.mpr ⟨ws, hs, rfl, hw, hh⟩, Option.map_some]

variable {s s' : String} {e : Error}

theorem parse_eq_ok : parse s = .ok r ↔ Written (trim s.toList) r := by
  rw [← ofChars?_eq_some, parse]
  cases ofChars? s.toList <;> simp

/-- A text that is no request is named by the error as it stands between its blanks. -/
theorem parse_eq_error : parse s = .error e ↔
    e = .malformed (.modeText (String.ofList (trim s.toList))) ∧ ∀ r, ¬Written (trim s.toList) r := by
  simp only [← ofChars?_eq_some]
  rw [parse]
  cases ofChars? s.toList <;> simp [eq_comm]

theorem parse_of_trim (h : trim s.toList = trim s'.toList) : parse s = parse s' := by
  simp only [parse, ofChars?, h]

end ModeRequest

namespace Timing

variable {ts : List Timing} {t u : Timing} {i : Nat}

theorem parse_name_alone (ht : t.rate ≠ 0) : ModeRequest.parse t.name = .ok t.request := by
  rw [← parse_name t ht]
  apply ModeRequest.parse_of_trim
  rw [Panel.trim_line t.solid_name t.name_ne_nil, Text.trim_of_solid t.solid_name]

theorem fits_request : u.fits t.request = true ↔ u.request = t.request := by
  rw [fits_iff]
  constructor
  · rintro ⟨hrate, hsize⟩
    have hsize := hsize _ rfl
    rw [request, request, ← hsize]
    exact congrArg _ hrate.symm
  · intro h
    exact ⟨(congrArg ModeRequest.rate h).symm, fun size hsize => Option.some.inj
      (hsize.symm.trans (congrArg ModeRequest.size h).symm)⟩

/-- The first timing of the size and the rate of one in the list is found by its request. -/
theorem find?_request_of_getElem? (ht : ts[i]? = some t) :
    ∃ j ≤ i, find? ts t.request = some j ∧ (∃ u, ts[j]? = some u ∧ u.request = t.request) ∧
      ∀ k < j, ∀ u, ts[k]? = some u → u.request ≠ t.request := by
  obtain ⟨hi, rfl⟩ := List.getElem?_eq_some_iff.mp ht
  have hself : ts[i].fits ts[i].request = true := fits_request.mpr rfl
  cases hfind : find? ts ts[i].request with
  | none => exact absurd hself (by simpa using List.findIdx?_eq_none_iff.mp hfind ts[i] (List.getElem_mem hi))
  | some j =>
    obtain ⟨hj, hfits, hfirst⟩ := List.findIdx?_eq_some_iff_getElem.mp hfind
    refine ⟨j, ?_, rfl, ⟨ts[j], List.getElem?_eq_getElem hj, fits_request.mp hfits⟩, ?_⟩
    · exact Nat.not_lt.mp fun hlt => hfirst i hlt hself
    · intro k hk u hu hsame
      obtain ⟨hk', rfl⟩ := List.getElem?_eq_some_iff.mp hu
      exact hfirst k hk (fits_request.mpr hsame)

end Timing

namespace ModeRequest

open Text

/-- The texts that are read as a request are those of the grammar, with the numbers written there.
The name of a timing is one of them, and finds the first timing of its size and rate. -/
theorem parsed_as_written_and_found_first :
    (∀ (s : String) (r : ModeRequest), parse s = .ok r ↔ Written (trim s.toList) r) ∧
      (∀ (s : String) (e : Error), parse s = .error e ↔
        e = .malformed (.modeText (String.ofList (trim s.toList))) ∧
          ∀ r, ¬Written (trim s.toList) r) ∧
      (∀ t : Timing, t.rate ≠ 0 → parse t.name = .ok ⟨some (t.width, t.height), t.rate⟩) ∧
      ∀ (ts : List Timing) (i : Nat) (t : Timing), ts[i]? = some t → t.rate ≠ 0 →
        ∃ r j, parse t.name = .ok r ∧ Timing.find? ts r = some j ∧ j ≤ i ∧
          (∃ u, ts[j]? = some u ∧ u.width = t.width ∧ u.height = t.height ∧ u.rate = t.rate) ∧
          ∀ k < j, ∀ u, ts[k]? = some u →
            ¬(u.width = t.width ∧ u.height = t.height ∧ u.rate = t.rate) := by
  refine ⟨fun s r => parse_eq_ok, fun s e => parse_eq_error, fun t ht => Timing.parse_name_alone ht,
    fun ts i t hi ht => ?_⟩
  have hsame : ∀ u : Timing,
      u.request = t.request ↔ u.width = t.width ∧ u.height = t.height ∧ u.rate = t.rate :=
    fun u => by simp [Timing.request, and_assoc]
  obtain ⟨j, hj, hfind, ⟨u, hu, hrequest⟩, hfirst⟩ := Timing.find?_request_of_getElem? hi
  exact ⟨t.request, j, Timing.parse_name_alone ht, hfind, hj, ⟨u, hu, (hsame u).mp hrequest⟩,
    fun k hk v hv h => hfirst k hk v hv ((hsame v).mpr h)⟩

/-- Of two timings that differ in their commands alone the first is found, whichever of them is named. -/
theorem parsed_as_written_and_found_first_of_twins :
    let t : Timing := ⟨1080, 2340, 90, { state := .lowPower }⟩
    let ts : List Timing := [⟨1080, 2340, 60, {}⟩, ⟨1080, 2340, 90, {}⟩, t]
    t.name = "1080x2340@90" ∧ ∃ r, parse t.name = .ok r ∧ Timing.find? ts r = some 1 := by
  intro t ts
  obtain ⟨r, j, hparse, hfind, hle, ⟨u, hu, hwidth, hheight, hrate⟩, hfirst⟩ :=
    parsed_as_written_and_found_first.2.2.2 ts 2 t rfl (by decide)
  have hzero : j ≠ 0 := by
    rintro rfl
    cases hu
    exact absurd hrate (by decide)
  have hone : ¬1 < j := fun h => hfirst 1 h _ rfl ⟨rfl, rfl, rfl⟩
  obtain rfl : j = 1 := by omega
  exact ⟨by decide +kernel, r, hparse, hfind⟩

/-- Each number may stand between blanks and behind a plus sign. -/
example : ofChars? " +1080x 2340 @\t+090\n".toList = some ⟨some (1080, 2340), 90⟩ := by
  decide +kernel

end ModeRequest
end OledPanel
