import Mathlib.Data.List.Nodup
import Mathlib.Data.List.Perm.Basic
import OledPanel.LowPower
import OledPanel.Proofs.Within

/-! The order of bins and the choice among them. The bins of a panel are those of its description by
ascending threshold, in the order of the description where thresholds are the same. So the first bin
that serves a brightness is of all that serve it the one with the least threshold, and of several with
that threshold the one described first. -/

namespace OledPanel

namespace Action

variable {α β : Type} {f : α → Except Error β} {xs xs' : List α} {ys : List β}

/-- Values taken from a list are those of its members, one each. -/
theorem mapM_eq_ok_iff_forall₂ :
    xs.mapM f = .ok ys ↔ List.Forall₂ (fun x y => f x = .ok y) xs ys := by
  induction xs generalizing ys with
  | nil => cases ys <;> simp [Pure.pure, Except.pure]
  | cons x xs ih =>
    rw [List.mapM_cons, List.forall₂_cons_left_iff]
    constructor
    · intro h
      obtain ⟨z, hz, h⟩ := ok_of_bind h
      obtain ⟨zs, hzs, h⟩ := ok_of_bind h
      cases h
      exact ⟨z, zs, hz, ih.mp hzs, rfl⟩
    · rintro ⟨z, zs, hz, hzs, rfl⟩
      rw [hz, ih.mpr hzs]
      rfl

/-- In another order there are the same values in another order. -/
theorem mapM_ok_of_perm (h : xs'.Perm xs) (hys : xs.mapM f = .ok ys) :
    ∃ ys', xs'.mapM f = .ok ys' ∧ ys'.Perm ys := by
  obtain ⟨ys', hys', hperm⟩ := List.perm_comp_forall₂ h (mapM_eq_ok_iff_forall₂.mp hys)
  exact ⟨ys', mapM_eq_ok_iff_forall₂.mpr hys', hperm⟩

end Action

namespace LowPower.Bin

open OledPanel.Action (mapM_eq_ok_iff_forall₂ mapM_ok_of_perm ok_of_bind)

variable {declared bins : List Bin} {bin : Bin} {b b' : UInt32} {i j : Nat}

/-! ### Order -/

/-- The bins by ascending threshold, and those of one threshold as they were described. -/
structure Sorted (declared bins : List Bin) : Prop where
  perm : bins.Perm declared
  ascending : bins.Pairwise fun p q => p.threshold ≤ q.threshold
  stable : ∀ t, bins.filter (·.threshold = t) = declared.filter (·.threshold = t)

theorem sorted_sort (declared : List Bin) : Sorted declared (sort declared) := by
  let le : Bin → Bin → Bool := fun p q => p.threshold ≤ q.threshold
  have htrans : ∀ p q r : Bin, le p q = true → le q r = true → le p r = true := by
    intro p q r hpq hqr
    simp only [le, decide_eq_true_eq] at hpq hqr ⊢
    exact UInt32.le_trans hpq hqr
  have htotal : ∀ p q : Bin, (le p q || le q p) = true := by
    intro p q
    simpa [le] using UInt32.le_total p.threshold q.threshold
  have hperm : (sort declared).Perm declared := List.mergeSort_perm declared le
  refine ⟨hperm, ?_, fun t => ?_⟩
  · exact (List.pairwise_mergeSort htrans htotal declared).imp (by simp [le])
  · -- Bins of one threshold are in order as they are, so sorting leaves them in that order.
    have hsame : (declared.filter (·.threshold = t)).Pairwise (fun p q => le p q = true) := by
      refine List.pairwise_of_forall_mem_list fun p hp q hq => ?_
      simp_all [le, List.mem_filter]
    have hsub : (declared.filter (·.threshold = t)).Sublist (sort declared) :=
      List.sublist_mergeSort htrans htotal hsame List.filter_sublist
    have hfilter := hsub.filter (·.threshold = t)
    rw [List.filter_filter] at hfilter
    refine (List.Sublist.eq_of_length (by simpa using hfilter) ?_).symm
    exact ((hperm.filter _).length_eq).symm

/-- Of different thresholds there is one order only. -/
theorem Sorted.unique {bins' declared' : List Bin} (h : Sorted declared bins)
    (h' : Sorted declared' bins') (hperm : declared'.Perm declared)
    (hnodup : (declared.map (·.threshold)).Nodup) : bins' = bins := by
  have hbins : bins'.Perm bins := h'.perm.trans (hperm.trans h.perm.symm)
  refine hbins.eq_of_pairwise (fun p q hp hq hpq hqp => ?_) h'.ascending h.ascending
  have hthreshold : p.threshold = q.threshold := UInt32.le_antisymm hpq hqp
  exact List.inj_on_of_nodup_map hnodup (h.perm.subset (hbins.subset hp)) (h.perm.subset hq) hthreshold

/-! ### Descriptions -/

theorem threshold_of_ofNode {n : Node} (h : ofNode n = .ok bin) :
    ∃ cell, n.cell keyThreshold = .ok cell ∧ bin.threshold = cell.getD 0xFFFFFFFF := by
  obtain ⟨cell, hcell, h⟩ := ok_of_bind h
  obtain ⟨set, -, h⟩ := ok_of_bind h
  cases set with
  | none => cases h
  | some enter =>
    obtain ⟨label, -, h⟩ := ok_of_bind h
    cases h
    exact ⟨cell, hcell, rfl⟩

theorem allOf_eq_some {n : Node} : allOf n = .ok (some bins) ↔ ∃ modes declared,
    n.child? nodeName = some modes ∧ modes.children ≠ [] ∧ modes.children.length ≤ maxBins ∧
      modes.children.mapM ofNode = .ok declared ∧ bins = sort declared := by
  unfold allOf
  cases hchild : n.child? nodeName with
  | none => simp
  | some modes =>
    dsimp only
    by_cases hcount : modes.children.isEmpty ∨ maxBins < modes.children.length
    · rw [if_pos hcount]
      refine iff_of_false nofun ?_
      rintro ⟨_, declared, ⟨⟩, hne, hle, -⟩
      simp [hne] at hcount
      omega
    · rw [if_neg hcount]
      simp only [not_or, Nat.not_lt, List.isEmpty_iff] at hcount
      cases hread : modes.children.mapM ofNode with
      | error e => simp [Except.map, hread]
      | ok declared => simp [Except.map, hread, hcount, eq_comm]

/-- The thresholds of bins are those of their nodes, the greatest there is where a node has none. -/
def Thresholds (children : List Node) (declared : List Bin) : Prop :=
  List.Forall₂ (fun child bin => ∃ cell, child.cell keyThreshold = .ok cell ∧
    bin.threshold = cell.getD 0xFFFFFFFF) children declared

theorem thresholds_of_mapM {children : List Node} (h : children.mapM ofNode = .ok declared) :
    Thresholds children declared :=
  (mapM_eq_ok_iff_forall₂.mp h).imp fun _ _ => threshold_of_ofNode

/-- Bins of different thresholds may be described in any order. -/
theorem allOf_of_perm {n n' modes modes' : Node} (h : allOf n = .ok (some bins))
    (hchild : n.child? nodeName = some modes) (hchild' : n'.child? nodeName = some modes')
    (hperm : modes'.children.Perm modes.children) (hread : modes.children.mapM ofNode = .ok declared)
    (hnodup : (declared.map (·.threshold)).Nodup) : allOf n' = .ok (some bins) := by
  obtain ⟨_, _, hmodes, hne, hle, hdeclared, rfl⟩ := allOf_eq_some.mp h
  obtain rfl := Option.some.inj (hchild.symm.trans hmodes)
  obtain rfl := Except.ok.inj (hread.symm.trans hdeclared)
  obtain ⟨declared', hread', hperm'⟩ := mapM_ok_of_perm hperm hread
  refine allOf_eq_some.mpr ⟨modes', declared', hchild', fun hnil => hne ?_, ?_, hread', ?_⟩
  · rw [hnil] at hperm
    exact hperm.nil_eq.symm
  · rwa [hperm.length_eq]
  · exact ((sorted_sort declared).unique (sorted_sort declared') hperm' hnodup).symm

/-! ### Choice -/

/-- Of the bins that serve a brightness the one with the least threshold, the first described of
several. -/
structure FirstLeast (declared : List Bin) (b : UInt32) (bin : Bin) : Prop where
  serves : b ≤ bin.threshold
  least : ∀ other ∈ declared, b ≤ other.threshold → bin.threshold ≤ other.threshold
  first : declared.find? (·.threshold = bin.threshold) = some bin

theorem select?_eq_some (h : select? bins b = some i) : ∃ bin, bins[i]? = some bin ∧
    b ≤ bin.threshold ∧ ∀ k < i, ∀ other, bins[k]? = some other → other.threshold < b := by
  obtain ⟨hi, hserves, hfirst⟩ := List.findIdx?_eq_some_iff_getElem.mp h
  refine ⟨bins[i], List.getElem?_eq_getElem hi, by simpa using hserves, fun k hk other hother => ?_⟩
  obtain ⟨hk', rfl⟩ := List.getElem?_eq_some_iff.mp hother
  simpa using hfirst k hk

theorem Sorted.firstLeast (hs : Sorted declared bins) (h : select? bins b = some i) :
    ∃ bin, bins[i]? = some bin ∧ FirstLeast declared b bin := by
  obtain ⟨bin, hbin, hserves, hbelow⟩ := select?_eq_some h
  refine ⟨bin, hbin, hserves, fun other hother hb => ?_, ?_⟩
  · obtain ⟨k, hk⟩ := List.getElem?_of_mem (hs.perm.symm.subset hother)
    obtain hki | rfl | hik := Nat.lt_trichotomy k i
    · exact absurd (hbelow k hki other hk) (UInt32.not_lt.mpr hb)
    · obtain rfl := Option.some.inj (hbin.symm.trans hk)
      exact UInt32.le_refl _
    · obtain ⟨hi, rfl⟩ := List.getElem?_eq_some_iff.mp hbin
      obtain ⟨hk', rfl⟩ := List.getElem?_eq_some_iff.mp hk
      exact List.pairwise_iff_getElem.mp hs.ascending i k hi hk' hik
  · obtain ⟨hi, rfl⟩ := List.getElem?_eq_some_iff.mp hbin
    rw [← List.head?_filter, ← hs.stable, List.head?_filter, List.find?_eq_some_iff_getElem]
    refine ⟨by simp, i, hi, rfl, fun k hk => ?_⟩
    have hlt := hbelow k hk bins[k] (List.getElem?_eq_getElem (Nat.lt_trans hk hi))
    have hne : bins[k].threshold ≠ bins[i].threshold := fun heq => by
      rw [heq] at hlt
      exact UInt32.not_lt.mpr hserves hlt
    simpa using hne

theorem Sorted.select?_eq_none (hs : Sorted declared bins) :
    select? bins b = none ↔ ∀ bin ∈ declared, bin.threshold < b := by
  rw [select?, List.findIdx?_eq_none_iff]
  simp only [decide_eq_false_iff_not, UInt32.not_le]
  exact ⟨fun h bin hbin => h bin (hs.perm.symm.subset hbin), fun h bin hbin => h bin (hs.perm.subset hbin)⟩

/-- A lower brightness is served no later. -/
theorem select?_mono (hle : b ≤ b') (h : select? bins b' = some j) :
    ∃ i ≤ j, select? bins b = some i := by
  obtain ⟨bin, hbin, hserves, -⟩ := select?_eq_some h
  cases hi : select? bins b with
  | none =>
    have hnone := List.findIdx?_eq_none_iff.mp hi bin (List.mem_of_getElem? hbin)
    exact absurd (UInt32.le_trans hle hserves) (by simpa using hnone)
  | some i =>
    refine ⟨i, Nat.not_lt.mp fun hji => ?_, rfl⟩
    obtain ⟨-, -, -, hbelow⟩ := select?_eq_some hi
    exact absurd (hbelow j hji bin hbin) (UInt32.not_lt.mpr (UInt32.le_trans hle hserves))

/-- The choice of a bin as a function of the brightness. -/
structure Chooses (declared bins : List Bin) : Prop where
  found : ∀ b i, select? bins b = some i → ∃ bin, bins[i]? = some bin ∧ FirstLeast declared b bin
  none : ∀ b, select? bins b = none ↔ ∀ bin ∈ declared, bin.threshold < b
  mono : ∀ b b' j, b ≤ b' → select? bins b' = some j → ∃ i ≤ j, select? bins b = some i

theorem Sorted.chooses (hs : Sorted declared bins) : Chooses declared bins where
  found _ _ h := hs.firstLeast h
  none _ := hs.select?_eq_none
  mono _ _ _ hle h := select?_mono hle h

end LowPower.Bin
end OledPanel
