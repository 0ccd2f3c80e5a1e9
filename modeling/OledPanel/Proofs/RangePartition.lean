import Mathlib.Data.List.Chain
import OledPanel.Proofs.Description
import OledPanel.Proofs.Idempotence
import OledPanel.Proofs.Rounding

/-! The ranges of high-brightness mode as a partition of brightness. Whatever description they are
read from, they ascend, each begins right behind the one before, and the last ends at the highest
brightness. So a brightness lies in one range only, which is the first to reach up to it; those below
all ranges are given to the first. Within a range levels follow brightness, and across ranges they do
if the levels of the ranges ascend as well. -/

namespace OledPanel

namespace Hbm

variable {top b b' : UInt32} {i j : Nat} {r q : Range} {rs ranges : List Range}

/-! ### The partition -/

def Range.Contains (r : Range) (b : UInt32) : Prop := r.userStart ≤ b ∧ b ≤ r.userEnd

structure Partitions (top : UInt32) (rs : List Range) : Prop where
  ascending : rs.Pairwise fun r q => r.userStart < q.userStart
  adjacent : rs.IsChain fun r q => r.userEnd.toNat + 1 = q.userStart.toNat
  last : rs.getLast?.map (·.userEnd) = some top
  ordered : ∀ r ∈ rs, r.userStart ≤ r.userEnd
  levels : ∀ r ∈ rs, r.panelStart ≤ r.panelEnd

theorem Abut.isChain (h : Abut top rs) : rs.IsChain fun r q => r.userEnd + 1 = q.userStart := by
  induction h with
  | last => exact .singleton _
  | next _ he _ ih => exact .cons_cons he ih

theorem Abut.getLast? (h : Abut top rs) : rs.getLast?.map (·.userEnd) = some top := by
  induction h with
  | last _ he => exact congrArg some he
  | next _ _ _ ih => rwa [List.getLast?_cons_cons]

/-- Only ranges in ascending order are chained, and their starts are kept. -/
theorem ascending_of_chain (h : chain rs = .ok ranges) :
    ranges.IsChain fun r q => r.userStart < q.userStart := by
  induction rs generalizing ranges with
  | nil =>
    cases h
    exact .nil
  | cons r rs ih =>
    cases rs with
    | nil =>
      cases h
      exact .singleton r
    | cons next rest =>
      rw [chain] at h
      split at h
      · next hlt =>
        obtain ⟨chained, hchain, hq⟩ := Action.ok_of_bind h
        cases hq
        obtain ⟨q, qs, rfl, hstart⟩ := userStart_of_chain hchain
        exact .cons_cons (hstart ▸ hlt) (ih hchain)
      · cases h

theorem partitions_of_chain (hrs : ∀ r ∈ rs, r.ReachesTo top) (hne : rs ≠ [])
    (h : chain rs = .ok ranges) : Partitions top ranges := by
  have habut := abut_of_chain hrs hne h
  have hascending := ascending_of_chain h
  have htrans : IsTrans Range fun r q => r.userStart < q.userStart :=
    ⟨fun _ _ _ => UInt32.lt_trans⟩
  have hadjacent : ranges.IsChain fun r q => r.userEnd.toNat + 1 = q.userStart.toNat := by
    rw [List.isChain_iff_getElem] at hascending ⊢
    intro i hi
    -- A start above another is not zero, so adding one to the end before it does not wrap.
    have hnext := List.isChain_iff_getElem.mp habut.isChain i hi
    have hlt := UInt32.lt_iff_toNat_lt.mp (hascending i hi)
    rw [← hnext, UInt32.toNat_add] at hlt ⊢
    have hend : ranges[i].userEnd.toNat < 2 ^ 32 := ranges[i].userEnd.toNat_lt
    have hone : (1 : UInt32).toNat = 1 := rfl
    omega
  exact {
    ascending := hascending.pairwise
    adjacent := hadjacent
    last := habut.getLast?
    ordered := habut.ordered
    levels := forall_of_chain (fun _ _ h => h) (fun r hr => (hrs r hr).levels) h }

/-- Frames to count come with commands to end the count, and the other way round. -/
structure Config.Paired (h : Config) : Prop where
  ranges : ∀ r ∈ h.ranges, r.stop.commands ≠ [] ↔ 0 < r.frames
  exit : h.exitStop.commands ≠ [] ↔ 0 < h.exitFrames

theorem paired_of_checkPair {key : String} {stop : Dsi.CommandSet} {frames : Nat}
    (h : checkPair key stop frames = .ok ()) : stop.commands ≠ [] ↔ 0 < frames := by
  unfold checkPair at h
  split at h
  · next he =>
    rw [Dsi.CommandSet.isEmpty, Bool.eq_iff_iff, List.isEmpty_iff, beq_iff_eq] at he
    rw [Ne, he, Nat.pos_iff_ne_zero]
  · cases h

theorem Config.partitions_of_ofNode {n : Node} {h : Config} (hn : ofNode top n = .ok (some h)) :
    Partitions top h.ranges ∧ h.Paired := by
  obtain ⟨child, hchild⟩ := ofChild_of_ofNode hn
  obtain ⟨read, hne, hranges, hread, hexit⟩ := ranges_of_ofChild hchild
  refine ⟨partitions_of_chain (fun r hr => (hread r hr).1) hne hranges, ?_,
    paired_of_checkPair hexit⟩
  exact forall_of_chain (P := fun r => r.stop.commands ≠ [] ↔ 0 < r.frames) (fun _ _ h => h)
    (fun r hr => paired_of_checkPair (hread r hr).2) hranges

/-! ### The range of a brightness -/

/-- A relation from each range to the next holds of any two in order, if the ranges in between let it
through. -/
theorem pairwise_of_isChain {P : Range → Prop} {R : Range → Range → Prop} (hP : ∀ r ∈ rs, P r)
    (hR : ∀ r q s, R r q → P q → R q s → R r s) (h : rs.IsChain R) : rs.Pairwise R := by
  have hchain : rs.IsChain fun r q => R r q ∧ P q :=
    h.imp_of_mem_imp fun _ q _ hq hrq => ⟨hrq, hP q hq⟩
  have htrans : IsTrans Range fun r q => R r q ∧ P q :=
    ⟨fun r q s hrq hqs => ⟨hR r q s hrq.1 hrq.2 hqs.1, hqs.2⟩⟩
  exact hchain.pairwise.imp fun h => h.1

namespace Partitions

variable (hp : Partitions top rs)
include hp

/-- Of any two ranges the earlier one ends before the later one begins. -/
theorem apart : rs.Pairwise fun r q => r.userEnd < q.userStart := by
  refine pairwise_of_isChain hp.ordered (fun r q s hrq hq hqs => ?_) (hp.adjacent.imp fun r q h => ?_)
  · exact UInt32.lt_trans (UInt32.lt_of_lt_of_le hrq hq) hqs
  · rw [UInt32.lt_iff_toNat_lt]
    omega

/-- Levels that ascend from each range to the next ascend from any to any later one. -/
theorem levels_apart (h : rs.IsChain fun r q => r.panelEnd ≤ q.panelStart) :
    rs.Pairwise fun r q => r.panelEnd ≤ q.panelStart := by
  refine pairwise_of_isChain hp.levels (fun r q s hrq hq hqs => ?_) h
  exact UInt32.le_trans (UInt32.le_trans hrq hq) hqs

/-- A brightness lies in no more than one range. -/
theorem unique (hr : rs[i]? = some r) (hq : rs[j]? = some q) (hb : r.Contains b)
    (hb' : q.Contains b) : i = j := by
  obtain ⟨hi, rfl⟩ := List.getElem?_eq_some_iff.mp hr
  obtain ⟨hj, rfl⟩ := List.getElem?_eq_some_iff.mp hq
  have hapart := List.pairwise_iff_getElem.mp hp.apart
  rcases lt_trichotomy i j with hlt | heq | hlt
  · have hends := UInt32.lt_of_le_of_lt hb.2 (hapart i j hi hj hlt)
    exact absurd hb'.1 (UInt32.not_le.mpr hends)
  · exact heq
  · have hends := UInt32.lt_of_le_of_lt hb'.2 (hapart j i hj hi hlt)
    exact absurd hb.1 (UInt32.not_le.mpr hends)

end Partitions

namespace Config

variable {h : Config}

theorem find?_eq_some : h.find? b = some i ↔ ∃ r, h.ranges[i]? = some r ∧ b ≤ r.userEnd ∧
    ∀ j q, j < i → h.ranges[j]? = some q → q.userEnd < b := by
  rw [find?, List.findIdx?_eq_some_iff_getElem]
  simp only [decide_eq_true_eq, UInt32.not_le]
  constructor
  · rintro ⟨hi, hb, hfirst⟩
    refine ⟨_, List.getElem?_eq_getElem hi, hb, fun j q hj hq => ?_⟩
    obtain ⟨-, rfl⟩ := List.getElem?_eq_some_iff.mp hq
    exact hfirst j hj
  · rintro ⟨r, hr, hb, hfirst⟩
    obtain ⟨hi, rfl⟩ := List.getElem?_eq_some_iff.mp hr
    exact ⟨hi, hb, fun j hj => hfirst j _ hj (List.getElem?_eq_getElem (hj.trans hi))⟩

/-- The range found for a brightness that some range contains contains it. -/
theorem contains_of_find? (hp : Partitions top h.ranges) {first : Range}
    (hf : h.ranges.head? = some first) (hb : first.userStart ≤ b) (hi : h.find? b = some i)
    (hr : h.ranges[i]? = some r) : r.Contains b := by
  obtain ⟨q, hq, hend, hbefore⟩ := find?_eq_some.mp hi
  obtain rfl : q = r := Option.some.inj (hq.symm.trans hr)
  refine ⟨?_, hend⟩
  cases i with
  | zero =>
    rw [List.head?_eq_getElem?, hr] at hf
    cases hf
    exact hb
  | succ k =>
    obtain ⟨hk, rfl⟩ := List.getElem?_eq_some_iff.mp hr
    have hadjacent := List.isChain_iff_getElem.mp hp.adjacent k hk
    have hlt := hbefore k _ (Nat.lt_succ_self k) (List.getElem?_eq_getElem (Nat.lt_of_succ_lt hk))
    rw [UInt32.lt_iff_toNat_lt] at hlt
    rw [UInt32.le_iff_toNat_le]
    omega

/-- A brightness below all ranges is given to the first. -/
theorem find?_of_below (hp : Partitions top h.ranges) {first : Range}
    (hf : h.ranges.head? = some first) (hb : b < first.userStart) : h.find? b = some 0 := by
  rw [List.head?_eq_getElem?] at hf
  have hordered := hp.ordered first (List.mem_of_getElem? hf)
  exact find?_eq_some.mpr ⟨first, hf, UInt32.le_of_lt (UInt32.lt_of_lt_of_le hb hordered), nofun⟩

theorem find?_mono (hb : b ≤ b') (hi : h.find? b = some i) (hj : h.find? b' = some j) : i ≤ j := by
  obtain ⟨r, hr, hend, hbefore⟩ := find?_eq_some.mp hi
  obtain ⟨q, hq, hend', -⟩ := find?_eq_some.mp hj
  by_contra hlt
  have hbelow := hbefore j q (Nat.not_le.mp hlt) hq
  exact absurd (UInt32.le_trans hb hend') (UInt32.not_le.mpr hbelow)

/-- A range is the one for a brightness: the only one that contains it, or else the first. -/
structure Serves (h : Config) (b : UInt32) (i : Nat) (r : Range) : Prop where
  found : h.find? b = some i
  range : h.ranges[i]? = some r
  inside : ∀ first, h.ranges.head? = some first → first.userStart ≤ b →
    r.Contains b ∧ ∀ j q, h.ranges[j]? = some q → q.Contains b → j = i
  below : ∀ first, h.ranges.head? = some first → b < first.userStart → i = 0

theorem exists_serves (hp : Partitions top h.ranges) (hb : b ≤ top) : ∃ i r, h.Serves b i r := by
  obtain ⟨last, hlast, hend⟩ := Option.map_eq_some_iff.mp hp.last
  have hany : (h.find? b).isSome = true := by
    rw [find?, List.findIdx?_isSome, List.any_eq_true]
    exact ⟨last, List.mem_of_getLast? hlast, by simpa [hend] using hb⟩
  obtain ⟨i, hi⟩ := Option.isSome_iff_exists.mp hany
  obtain ⟨r, hr, -⟩ := find?_eq_some.mp hi
  refine ⟨i, r, hi, hr, fun first hf hstart => ?_, fun first hf hstart => ?_⟩
  · have hin := contains_of_find? hp hf hstart hi hr
    exact ⟨hin, fun j q hq hqb => hp.unique hq hr hqb hin⟩
  · exact Option.some.inj (hi.symm.trans (find?_of_below hp hf hstart))

end Config

/-! ### The level in a range -/

/-- The level of a brightness in a range. -/
def Range.level (r : Range) (b : UInt32) : Except Error UInt32 :=
  Brightness.interpolate r.userStart r.userEnd r.panelStart r.panelEnd b

theorem Partitions.level_ok (hp : Partitions top rs) (hr : r ∈ rs) (b : UInt32) :
    ∃ l, r.level b = .ok l ∧ r.panelStart ≤ l ∧ l ≤ r.panelEnd := by
  obtain ⟨l, hl⟩ := Brightness.interpolate_ok (hp.ordered r hr) (hp.levels r hr) b
  exact ⟨l, hl, Brightness.interpolate_mem hl⟩

end Hbm

namespace Panel

open Dsi (Transport)

variable {c : Config} {h : Hbm.Config} {top b b' l l' : UInt32} {i : Nat} {r : Hbm.Range}

theorem target?_of_serves (hs : h.Serves b i r) : target? h b = some (i, r) := by
  have hindex : (if b = 0 then some 0 else h.find? b) = some i := by
    split
    · next hzero =>
      -- Every range reaches up to brightness zero, so the first does.
      obtain ⟨-, -, -, hbefore⟩ := Hbm.Config.find?_eq_some.mp hs.found
      cases i with
      | zero => rfl
      | succ k =>
        obtain ⟨hk, -⟩ := List.getElem?_eq_some_iff.mp hs.range
        have hlt := hbefore 0 _ (Nat.succ_pos k)
          (List.getElem?_eq_getElem ((Nat.succ_pos k).trans hk))
        rw [hzero] at hlt
        exact absurd hlt UInt32.not_lt_zero
    · exact hs.found
  rw [target?, hindex, Option.bind_some, hs.range]
  rfl

theorem rangeLevel_of_serves (hh : c.hbm = some h) (hs : h.Serves b i r) :
    c.rangeLevel b = r.level b := by
  rw [Config.rangeLevel, hh]
  simp only [target?_of_serves hs]
  rfl

/-- Across ranges whose levels ascend a brighter one has no lower level. -/
theorem rangeLevel_mono (hh : c.hbm = some h) (hp : Hbm.Partitions top h.ranges)
    (hlevels : h.ranges.IsChain fun r q => r.panelEnd ≤ q.panelStart) (hb : b ≤ b') (ht : b' ≤ top)
    (hl : c.rangeLevel b = .ok l) (hl' : c.rangeLevel b' = .ok l') : l ≤ l' := by
  obtain ⟨i, r, hr⟩ := Hbm.Config.exists_serves hp (UInt32.le_trans hb ht)
  obtain ⟨j, q, hq⟩ := Hbm.Config.exists_serves hp ht
  rw [rangeLevel_of_serves hh hr] at hl
  rw [rangeLevel_of_serves hh hq] at hl'
  rcases (Hbm.Config.find?_mono hb hr.found hq.found).eq_or_lt with rfl | hlt
  · obtain rfl : r = q := Option.some.inj (hr.range.symm.trans hq.range)
    exact Brightness.interpolate_mono hb hl hl'
  · obtain ⟨hi, rfl⟩ := List.getElem?_eq_some_iff.mp hr.range
    obtain ⟨hj, rfl⟩ := List.getElem?_eq_some_iff.mp hq.range
    have hapart := List.pairwise_iff_getElem.mp (hp.levels_apart hlevels) i j hi hj hlt
    calc
      l ≤ h.ranges[i].panelEnd := (Brightness.interpolate_mem hl).2
      _ ≤ h.ranges[j].panelStart := hapart
      _ ≤ l' := (Brightness.interpolate_mem hl').1

variable {σ : Type} [Transport σ]

/-- Ranges read from a description partition the brightnesses from the first start up to the highest
one, and dimming is complete wherever it is used. Every brightness is served by one range and has a
level there, which is the one found in high-brightness mode. Both the range and the level within it
follow the brightness, and so does the level altogether if the levels of the ranges ascend. -/
theorem ranges_partition_brightness {n : Node} (hn : Hbm.Config.ofNode top n = .ok (some h)) :
    Hbm.Partitions top h.ranges ∧ h.Paired ∧
    (∀ b ≤ top, ∃ i r, h.Serves b i r ∧
      ∃ l, r.level b = .ok l ∧ r.panelStart ≤ l ∧ l ≤ r.panelEnd ∧
        ∀ c : Config, c.hbm = some h → c.rangeLevel b = .ok l ∧ ∀ s : State σ,
          (s.hbm.range = some i → (hbmLevel c b).answer s = .ok l) ∧
          ∀ l', (hbmLevel c b).answer s = .ok l' → l' = l) ∧
    (∀ b b' i j, b ≤ b' → h.find? b = some i → h.find? b' = some j → i ≤ j) ∧
    (∀ r ∈ h.ranges, ∀ b b' l l', b ≤ b' → r.level b = .ok l → r.level b' = .ok l' → l ≤ l') ∧
    ((h.ranges.IsChain fun r q => r.panelEnd ≤ q.panelStart) → ∀ c : Config, c.hbm = some h →
      ∀ b b' l l', b ≤ b' → b' ≤ top → c.rangeLevel b = .ok l → c.rangeLevel b' = .ok l' →
        l ≤ l') := by
  obtain ⟨hp, hpaired⟩ := Hbm.Config.partitions_of_ofNode hn
  refine ⟨hp, hpaired, fun b hb => ?served, fun b b' i j => Hbm.Config.find?_mono,
    fun r hr b b' l l' => Brightness.interpolate_mono,
    fun hlevels c hh b b' l l' => rangeLevel_mono hh hp hlevels⟩
  case served =>
    obtain ⟨i, r, hr⟩ := Hbm.Config.exists_serves hp hb
    obtain ⟨l, hl, hlow, hhigh⟩ := hp.level_ok (List.mem_of_getElem? hr.range) b
    refine ⟨i, r, hr, l, hl, hlow, hhigh, fun c hh => ?_⟩
    have hlevel : c.rangeLevel b = .ok l := (rangeLevel_of_serves hh hr).trans hl
    refine ⟨hlevel, fun s => ⟨fun hi => ?_, fun l' hl' => ?_⟩⟩
    · rw [Action.answer, hbmLevel_in_range hh (target?_of_serves hr) hi hl]
    · exact Except.ok.inj ((rangeLevel_of_hbmLevel hl').symm.trans hlevel)

/-- The levels of two ranges that ascend, the second of them dimmed for ten frames. -/
theorem ranges_partition_brightness_of_two :
    let node := Bench.plainNode [Bench.hbmNode [] [Bench.rangeNode 1 100 800 none,
      Bench.rangeNode 201 801 1023 (some (10, [0x53, 0x20]))]]
    let stop : Dsi.CommandSet := { commands := [⟨.shortWriteParam, true, 0, [0x53, 0x20]⟩] }
    let h : Hbm.Config := {
      ranges := [⟨1, 200, 100, 800, {}, {}, 0⟩, ⟨201, 255, 801, 1023, {}, stop, 10⟩]
      exit := {}
      exitStop := {}
      exitFrames := 0
      irc := none }
    let c := Bench.plain (some h)
    Hbm.Config.ofNode 255 node = .ok (some h) ∧ Hbm.Partitions 255 h.ranges ∧
      (h.ranges.IsChain fun r q => r.panelEnd ≤ q.panelStart) ∧
      ∀ b b' l l', b ≤ b' → b' ≤ 255 → c.rangeLevel b = .ok l → c.rangeLevel b' = .ok l' →
        l ≤ l' := by
  intro node stop h c
  have hn : Hbm.Config.ofNode 255 node = .ok (some h) := by decide +kernel
  have hlevels : h.ranges.IsChain fun r q => r.panelEnd ≤ q.panelStart := by decide
  obtain ⟨hp, -, -, -, -, hmono⟩ := ranges_partition_brightness (σ := Bench.Host) hn
  exact ⟨hn, hp, hlevels, hmono hlevels c rfl⟩

end Panel
end OledPanel
