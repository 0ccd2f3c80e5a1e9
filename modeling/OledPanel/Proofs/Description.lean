import OledPanel.Panel.Config
import OledPanel.Proofs.Interpolation

/-! What a description warrants of the panel it is read as. Thresholds are no more than there may
be, and a table of levels has one for each brightness. Ranges of high-brightness mode, read one by
one, all reach up to the highest brightness; chained they lie end to end, in ascending order, and
only the last reaches there. So every brightness is within reach of some range. -/

namespace OledPanel

open OledPanel.Action (ok_of_bind)

namespace Hbm

/-- Ranges that lie end to end, the last one up to a brightness. -/
inductive Abut (top : UInt32) : List Range → Prop
  | last {r : Range} (hr : r.userStart ≤ r.userEnd) (he : r.userEnd = top) : Abut top [r]
  | next {r next : Range} {rest : List Range} (hr : r.userStart ≤ r.userEnd)
    (he : r.userEnd + 1 = next.userStart) (h : Abut top (next :: rest)) : Abut top (r :: next :: rest)

/-- A range by itself, with its levels in order, that reaches up to a brightness. -/
structure Range.ReachesTo (top : UInt32) (r : Range) : Prop where
  start : r.userStart ≤ top
  reach : r.userEnd = top
  levels : r.panelStart ≤ r.panelEnd

variable {top b : UInt32} {rs ranges : List Range}

/-- A range is read within the brightnesses there are, with its dimming checked. -/
theorem checked_of_ofNode {n : Node} {r : Range} (h : Range.ofNode top n = .ok r) :
    r.ReachesTo top ∧ checkPair keyStop r.stop r.frames = .ok () := by
  obtain ⟨threshold, -, h⟩ := ok_of_bind h
  dsimp only at h
  split at h
  · cases h
  · next hstart =>
    obtain ⟨panelStart, -, h⟩ := ok_of_bind h
    obtain ⟨panelEnd, -, h⟩ := ok_of_bind h
    split at h
    · cases h
    · next hlevels =>
      obtain ⟨entry, -, h⟩ := ok_of_bind h
      obtain ⟨frames, -, h⟩ := ok_of_bind h
      obtain ⟨stop, -, h⟩ := ok_of_bind h
      obtain ⟨⟨⟩, hpair, h⟩ := ok_of_bind h
      cases h
      exact ⟨⟨UInt32.not_lt.mp hstart, rfl, UInt32.not_lt.mp hlevels⟩, hpair⟩

theorem userStart_of_chain {r : Range} (h : chain (r :: rs) = .ok ranges) :
    ∃ q qs, ranges = q :: qs ∧ q.userStart = r.userStart := by
  cases rs with
  | nil =>
    cases h
    exact ⟨r, [], rfl, rfl⟩
  | cons next rest =>
    rw [chain] at h
    split at h
    · obtain ⟨qs, -, hq⟩ := ok_of_bind h
      cases hq
      exact ⟨_, qs, rfl, rfl⟩
    · cases h

/-- Chaining ends each range before the next. -/
theorem abut_of_chain (hrs : ∀ r ∈ rs, r.ReachesTo top) (hne : rs ≠ [])
    (h : chain rs = .ok ranges) : Abut top ranges := by
  induction rs generalizing ranges with
  | nil => exact absurd rfl hne
  | cons r rs ih =>
    have hr := hrs r (by simp)
    cases rs with
    | nil =>
      cases h
      exact .last (hr.reach ▸ hr.start) hr.reach
    | cons next rest =>
      rw [chain] at h
      split at h
      · next hlt =>
        obtain ⟨chained, hchain, hq⟩ := ok_of_bind h
        cases hq
        have habut : Abut top chained := ih (fun q hq => hrs q (by simp_all)) (by simp) hchain
        obtain ⟨q, qs, rfl, hstart⟩ := userStart_of_chain hchain
        rw [UInt32.lt_iff_toNat_lt] at hlt
        have hone : (1 : UInt32) ≤ next.userStart := by
          rw [UInt32.le_iff_toNat_le]
          change 1 ≤ _
          omega
        refine .next ?_ ?_ habut
        · rw [UInt32.le_iff_toNat_le]
          dsimp only
          rw [UInt32.toNat_sub_of_le _ _ hone]
          change _ ≤ _ - 1
          omega
        · rw [hstart]
          exact UInt32.sub_add_cancel _ _
      · cases h

/-- Chaining changes nothing of the ranges but their ends. -/
theorem forall_of_chain {P : Range → Prop} (hP : ∀ r e, P r → P { r with userEnd := e })
    (hrs : ∀ r ∈ rs, P r) (h : chain rs = .ok ranges) : ∀ r ∈ ranges, P r := by
  induction rs generalizing ranges with
  | nil =>
    cases h
    exact hrs
  | cons r rs ih =>
    cases rs with
    | nil =>
      cases h
      exact hrs
    | cons next rest =>
      rw [chain] at h
      split at h
      · obtain ⟨chained, hchain, hq⟩ := ok_of_bind h
        cases hq
        intro q hq
        obtain rfl | hq := List.mem_cons.mp hq
        · exact hP r _ (hrs r (by simp))
        · exact ih (fun q hq => hrs q (by simp_all)) hchain q hq
      · cases h

theorem Abut.ne_nil (h : Abut top rs) : rs ≠ [] := by cases h <;> simp

theorem Abut.ordered (h : Abut top rs) : ∀ r ∈ rs, r.userStart ≤ r.userEnd := by
  induction h with
  | last hr => simpa using hr
  | next hr _ _ ih => exact List.forall_mem_cons.mpr ⟨hr, ih⟩

theorem Abut.exists_last (h : Abut top rs) : ∃ r ∈ rs, r.userEnd = top := by
  induction h with
  | @last r _ he => exact ⟨r, by simp, he⟩
  | next _ _ _ ih =>
    obtain ⟨r, hr, he⟩ := ih
    exact ⟨r, List.mem_cons_of_mem _ hr, he⟩

/-- Every brightness up to the highest one is within reach of a range. -/
theorem Abut.find (h : Abut top rs) (hb : b ≤ top) :
    ∃ i, rs.findIdx? (b ≤ ·.userEnd) = some i := by
  obtain ⟨r, hr, he⟩ := h.exists_last
  rw [← Option.isSome_iff_exists, List.findIdx?_isSome, List.any_eq_true]
  exact ⟨r, hr, by simpa [he] using hb⟩

namespace Config

/-- The ranges of a description are read and checked one by one and then chained, and the dimming of
the way out is checked. -/
theorem ranges_of_ofChild {n : Node} {h : Config} (hn : ofChild top n = .ok h) :
    ∃ read, read ≠ [] ∧ chain read = .ok h.ranges ∧
      (∀ r ∈ read, r.ReachesTo top ∧ checkPair keyStop r.stop r.frames = .ok ()) ∧
      checkPair keyExitStop h.exitStop h.exitFrames = .ok () := by
  unfold ofChild at hn
  dsimp only at hn
  split at hn
  · cases hn
  · next hcount =>
    obtain ⟨exit, -, hn⟩ := ok_of_bind hn
    obtain ⟨frames, -, hn⟩ := ok_of_bind hn
    obtain ⟨exitStop, -, hn⟩ := ok_of_bind hn
    obtain ⟨⟨⟩, hpair, hn⟩ := ok_of_bind hn
    obtain ⟨irc, -, hn⟩ := ok_of_bind hn
    obtain ⟨read, hread, hn⟩ := ok_of_bind hn
    obtain ⟨ranges, hranges, hn⟩ := ok_of_bind hn
    cases hn
    obtain ⟨hlength, hmem⟩ := Action.mapM_eq_ok hread
    refine ⟨read, ?_, hranges, fun r hr => ?_, hpair⟩
    · rintro rfl
      exact hcount (.inl hlength.symm)
    · obtain ⟨child, -, hchild⟩ := hmem r hr
      exact checked_of_ofNode hchild

theorem ofChild_of_ofNode {n : Node} {h : Config} (hn : ofNode top n = .ok (some h)) :
    ∃ child, ofChild top child = .ok h := by
  unfold ofNode at hn
  split at hn
  · cases hn
  · next child _ =>
    cases hchild : ofChild top child with
    | error e =>
      rw [hchild] at hn
      cases hn
    | ok read =>
      rw [hchild] at hn
      cases hn
      exact ⟨child, hchild⟩

theorem abut_of_ofNode {n : Node} {h : Config} (hn : ofNode top n = .ok (some h)) :
    Abut top h.ranges ∧ ∀ r ∈ h.ranges, r.panelStart ≤ r.panelEnd := by
  obtain ⟨child, hchild⟩ := ofChild_of_ofNode hn
  obtain ⟨read, hne, hranges, hread, -⟩ := ranges_of_ofChild hchild
  have hrs : ∀ r ∈ read, r.ReachesTo top := fun r hr => (hread r hr).1
  exact ⟨abut_of_chain hrs hne hranges,
    forall_of_chain (fun _ _ h => h) (fun r hr => (hrs r hr).levels) hranges⟩

end Config
end Hbm

namespace Panel

variable {c : Config} {n : Node} {hasPwm : Bool}

/-- The backlight and the high-brightness mode of a panel are those of its description. -/
theorem parts_of_ofNode (h : Config.ofNode n hasPwm = .ok c) :
    Backlight.Config.ofNode n = .ok c.backlight ∧
      Hbm.Config.ofNode c.backlight.map.maxBrightness n = .ok c.hbm := by
  obtain ⟨backlight, hbacklight, h⟩ := ok_of_bind h
  obtain ⟨hbm, hhbm, h⟩ := ok_of_bind h
  obtain ⟨timings, -, h⟩ := ok_of_bind h
  obtain ⟨edges, -, h⟩ := ok_of_bind h
  obtain ⟨sets, -, h⟩ := ok_of_bind h
  obtain ⟨actuator, -, h⟩ := ok_of_bind h
  cases h
  exact ⟨hbacklight, hhbm⟩

/-- The map of a backlight is that of its description, and the thresholds are no more than there may
be. -/
theorem backlight_of_ofNode {b : Backlight.Config} (h : Backlight.Config.ofNode n = .ok b) :
    LevelMap.ofNode n = .ok b.map ∧
      ∀ ts, b.thresholds = some ts → ts.length ≤ Backlight.maxThresholds := by
  obtain ⟨kind, -, h⟩ := ok_of_bind h
  obtain ⟨update, -, h⟩ := ok_of_bind h
  obtain ⟨map, hmap, h⟩ := ok_of_bind h
  obtain ⟨cells, -, h⟩ := ok_of_bind h
  obtain ⟨lowBits, -, h⟩ := ok_of_bind h
  obtain ⟨period, -, h⟩ := ok_of_bind h
  cases h
  exact ⟨hmap, fun ts hts => by simpa using (Option.filter_eq_some_iff.mp hts).2⟩

/-- A table has a level for each brightness, and the ranges lie end to end up to the highest
brightness, each with its levels in order. -/
structure Config.Covers (c : Config) : Prop where
  table : ∀ levels, c.backlight.map.table = some levels →
    levels.length = c.backlight.map.maxBrightness.toNat + 1
  ranges : ∀ h, c.hbm = some h → Hbm.Abut c.backlight.map.maxBrightness h.ranges
  levels : ∀ h, c.hbm = some h → ∀ r ∈ h.ranges, r.panelStart ≤ r.panelEnd

theorem covers_of_ofNode (h : Config.ofNode n hasPwm = .ok c) : c.Covers := by
  obtain ⟨hbacklight, hhbm⟩ := parts_of_ofNode h
  have habut (g : Hbm.Config) (hg : c.hbm = some g) := Hbm.Config.abut_of_ofNode (hg ▸ hhbm)
  exact {
    table := fun _ ht => LevelMap.length_table (backlight_of_ofNode hbacklight).1 ht
    ranges := fun g hg => (habut g hg).1
    levels := fun g hg => (habut g hg).2 }

end Panel
end OledPanel
