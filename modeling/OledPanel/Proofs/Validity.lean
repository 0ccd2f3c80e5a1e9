import OledPanel.Panel.Operations
import OledPanel.Proofs.Interpolation
import OledPanel.Proofs.Within

/-! States that are possible. Brightness and factors keep to their bounds, the power state has no
bits but those that transitions set, and what stands for a timing, a bin or a table by its number
has a number there is. -/

namespace OledPanel

/-- Only transitions have set bits, and the second low-power level has set the bit of the first. -/
structure PowerBits.Valid (b : PowerBits) : Prop where
  lp : b.lp2 = true → b.lp = true
  suspended : b.suspended = false
  reserved : b.reserved = 0

theorem Dpms.valid_apply (d : Dpms) {b : PowerBits} (h : b.Valid) : (d.apply b).Valid := by
  cases d <;> exact ⟨by simp [apply], h.suspended, h.reserved⟩

namespace Backlight

structure State.Valid (c : Panel.Config) (s : State) : Prop where
  brightness : s.brightness ≤ c.backlight.map.maxBrightness
  power : s.power = .down ↔ s.bits.blanked = true
  bits : s.bits.Valid
  factor : s.factor ≤ Brightness.fullScale
  sunlightFactor : s.sunlightFactor ≤ Brightness.fullScale
  /-- The gate closes on panels that wait for a frame only. -/
  gate : s.gateOpen = false → c.backlight.waitsForFrame = true
  als : ∀ a, s.als = some a → a.thresholds.length ≤ maxThresholds
  bin : ∀ i, s.bin = some i → ∃ bins, c.actuator = .bins bins ∧ i < bins.length

/-- A table is replaced by one that has an entry and not too many. -/
theorem Als.replace_eq_ok {a b : Als} {ts : List UInt32} :
    a.replace ts = .ok b ↔ ts ≠ [] ∧ ts.length ≤ maxThresholds ∧ b = { a with thresholds := ts } := by
  unfold replace
  split
  · next h =>
    refine iff_of_false nofun fun hts => ?_
    rcases h with h | h
    · exact hts.1 (List.isEmpty_iff.mp h)
    · exact absurd hts.2.1 (Nat.not_le.mpr h)
  · next h =>
    rw [not_or, List.isEmpty_iff, Nat.not_lt] at h
    rw [Except.ok.injEq]
    exact ⟨fun hb => ⟨h.1, h.2, hb.symm⟩, fun hts => hts.2.2.symm⟩

theorem Als.thresholds_observe (a : Als) (b : UInt32) : (a.observe b).1.thresholds = a.thresholds := by
  unfold observe
  split
  · split <;> rfl
  · rfl

/-- The brightness of a level read back is one that can be asked for. -/
theorem Config.yields_handoff {σ : Type} [Dsi.Transport σ] (c : Config) :
    Action.Yields (S := σ) (· ≤ c.map.maxBrightness) c.handoff := by
  refine Action.Yields.bind (Action.Yields.of_all (Q := fun _ => True) fun _ => trivial) fun rx _ => ?_
  split
  · intro s b hb
    rw [Action.answer_ofExcept] at hb
    exact LevelMap.brightness_le hb
  · exact Action.Yields.throw _

end Backlight

namespace Panel

structure Refresh.Valid (c : Config) (r : Refresh) : Prop where
  some_iff : r.current.isSome = true ↔ c.timings ≠ []
  current : ∀ i, r.current = some i → i < c.timings.length
  scheduled : ∀ i, r.scheduled = some i → i < c.timings.length
  idle : ∀ i, r.idle = some i → i < c.timings.length

/-- The timings asked for, scheduled and for idling are the same. -/
structure Refresh.SameTimings (r q : Refresh) : Prop where
  current : q.current = r.current
  scheduled : q.scheduled = r.scheduled
  idle : q.idle = r.idle

theorem Refresh.Valid.ask {c : Config} {r : Refresh} (hr : r.Valid c) {i : Nat}
    (hi : i < c.timings.length) : Refresh.Valid c { r with current := some i } where
  some_iff := iff_of_true rfl (List.ne_nil_of_length_pos (Nat.zero_lt_of_lt hi))
  current := fun _ hj => Option.some.inj hj ▸ hi
  scheduled := hr.scheduled
  idle := hr.idle

theorem Refresh.Valid.of_same {c : Config} {r q : Refresh} (hr : r.Valid c) (h : r.SameTimings q) :
    q.Valid c where
  some_iff := h.current ▸ hr.some_iff
  current := h.current ▸ hr.current
  scheduled := h.scheduled ▸ hr.scheduled
  idle := h.idle ▸ hr.idle

/-- The tables of a timing are there. -/
def GammaState.Has (g : GammaState) (i : Nat) : Prop := ∃ b, g.buffers[i]? = some (some b)

/-- There is a place for the tables of each timing, and all are there once they count as read. -/
structure GammaState.Valid (c : Config) (g : GammaState) : Prop where
  length : g.buffers.length = c.timings.length
  ready : g.ready = true → ∀ i < c.timings.length, g.Has i

/-- The places stay, and what is there stays there. -/
structure GammaState.Grows (g k : GammaState) : Prop where
  length : k.buffers.length = g.buffers.length
  has : ∀ i, g.Has i → k.Has i

theorem GammaState.Grows.trans {f g k : GammaState} (h : f.Grows g) (j : g.Grows k) : f.Grows k :=
  ⟨j.length.trans h.length, fun i hi => j.has i (h.has i hi)⟩

theorem GammaState.Valid.grow {c : Config} {g k : GammaState} (hg : g.Valid c) (h : g.Grows k)
    (hr : k.ready = g.ready) : k.Valid c := by
  refine ⟨h.length.trans hg.length, fun hk i hi => h.has i (hg.ready ?_ i hi)⟩
  rw [← hr, hk]

theorem GammaState.has_set (g : GammaState) {i : Nat} (hi : i < g.buffers.length) (b : Gamma.Buffer) :
    GammaState.Has { g with buffers := g.buffers.set i (some b) } i :=
  ⟨b, by simp [hi]⟩

theorem GammaState.grows_set (g : GammaState) (i : Nat) (b : Gamma.Buffer) :
    g.Grows { g with buffers := g.buffers.set i (some b) } := by
  refine ⟨List.length_set, ?_⟩
  rintro j ⟨a, ha⟩
  by_cases hij : i = j
  · subst hij
    exact g.has_set (List.getElem?_eq_some_iff.mp ha).1 b
  · exact ⟨a, by simpa [List.getElem?_set_ne hij] using ha⟩

theorem GammaState.grows_mergeOtp (c : Config) (g : GammaState) :
    g.Grows { g with buffers := mergeOtp c g.buffers } := by
  unfold mergeOtp
  split
  · exact ⟨rfl, fun _ hi => hi⟩
  · next otp _ =>
    refine ⟨by simp, ?_⟩
    rintro i ⟨a, ha⟩
    by_cases hrate : c.hasRate 90 i = true
    · exact ⟨a.merge otp Gamma.tables, by simp [List.getElem?_mapIdx, ha, hrate]⟩
    · exact ⟨a, by simp [List.getElem?_mapIdx, ha, hrate]⟩

theorem lt_of_findTiming {c : Config} {r : ModeRequest} {i : Nat} (h : findTiming c r = .ok i) :
    i < c.timings.length := by
  unfold findTiming at h
  split at h
  · next j hj =>
    cases h
    exact (List.findIdx?_eq_some_iff_findIdx_eq.mp hj).1
  · cases h

theorem lt_of_mapM_findTiming {c : Config} {r : Option ModeRequest} {i : Option Nat}
    (h : r.mapM (findTiming c) = .ok i) : ∀ j, i = some j → j < c.timings.length := by
  rintro j rfl
  cases r with
  | none => cases h
  | some r =>
    rw [Option.mapM_some] at h
    cases hf : findTiming c r with
    | error e =>
      rw [hf] at h
      cases h
    | ok i =>
      rw [hf] at h
      cases h
      exact lt_of_findTiming hf

theorem lt_of_binOf {bins : List LowPower.Bin} {s : Backlight.State} {i : Nat}
    (h : binOf bins s = some i) : i < bins.length := by
  unfold binOf at h
  split at h
  · exact (List.findIdx?_eq_some_iff_findIdx_eq.mp h).1
  · cases h

end Panel
end OledPanel
