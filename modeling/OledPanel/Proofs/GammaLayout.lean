import Mathlib.Logic.ExistsUnique
import OledPanel.Proofs.GammaTables

/-! The tables in a buffer. Whatever is laid over the payloads of a buffer built for tables, the
tables lie in it behind each other, from its first byte to its last, each with its command byte in
front. Merging takes the leading payload bytes of each table from the other buffer and leaves every
other byte where it is. -/

namespace OledPanel.Gamma

/-- A buffer built for tables, with any bytes laid over their payloads. -/
inductive Filled (ts : List Table) : Buffer → Prop where
  | blank : Filled ts (Buffer.blank ts)
  | lay {b : Buffer} {i : Nat} {t : Table} (j : Nat) (data : List UInt8) (h : Filled ts b)
    (ht : ts[i]? = some t) (hj : j + data.length ≤ t.length) : Filled ts (b.setPayload i j data)

/-- Tables that lie in a buffer behind each other, each with its command byte in front. -/
structure Tiled (ts : List Table) (b : Buffer) : Prop where
  /-- Each table has a start of its own. -/
  count : b.starts.length = ts.length
  /-- A table ends where its bytes end, inside the buffer. -/
  stop : ∀ i t, ts[i]? = some t → b.stop i = b.start i + (t.length + 1) ∧ b.stop i ≤ b.bytes.length
  table : ∀ i t, ts[i]? = some t →
    (b.table i).length = t.length + 1 ∧ (b.table i).head? = some t.cmd
  /-- No byte lies in two tables, and none lies outside of them. -/
  cover : ∀ n < b.bytes.length, ∃! i, i < ts.length ∧ b.start i ≤ n ∧ n < b.stop i

variable {ts : List Table} {b b' other : Buffer} {ps : List (List UInt8)} {t : Table} {i : Nat}

/-! ### Places of the tables -/

theorem offset_le_offset (ts : List Table) {i k : Nat} (h : i ≤ k) : offset ts i ≤ offset ts k := by
  induction ts generalizing i k with
  | nil => simp [offset]
  | cons t ts ih =>
    cases i with
    | zero => simp [offset]
    | succ i =>
      obtain ⟨k, rfl⟩ := Nat.exists_eq_add_of_lt (show 0 < k by omega)
      simpa [offset, Nat.add_comm 0 k] using ih (show i ≤ k by omega)

/-- Every place before the end is in some table. -/
theorem exists_offset_le (ts : List Table) (n : Nat) (h : n < offset ts ts.length) :
    ∃ i < ts.length, offset ts i ≤ n ∧ n < offset ts (i + 1) := by
  induction ts generalizing n with
  | nil => simp [offset] at h
  | cons t ts ih =>
    rw [List.length_cons, offset] at h
    by_cases hn : n < t.length + 1
    · refine ⟨0, by simp, by simp [offset], ?_⟩
      rw [offset]
      omega
    · obtain ⟨i, hi, hle, hlt⟩ := ih (n - (t.length + 1)) (by omega)
      refine ⟨i + 1, by simpa using hi, ?_, ?_⟩
      · rw [offset]
        omega
      · rw [offset]
        omega

theorem stop_eq_offset (h : Holds b ts ps) (hi : i < ts.length) : b.stop i = offset ts (i + 1) := by
  have ht := List.getElem?_eq_getElem hi
  rw [stop_eq h ht, offset_succ ts i ht]

theorem Holds.length_bytes (h : Holds b ts ps) : b.bytes.length = offset ts ts.length := by
  rw [h.bytes, length_layout _ _ h.lengths]

theorem Holds.tiled (h : Holds b ts ps) : Tiled ts b where
  count := by simp [h.starts]
  stop i t ht := by
    have hi : i < ts.length := (List.getElem?_eq_some_iff.mp ht).1
    refine ⟨by rw [stop_eq h ht, start_eq h ht], ?_⟩
    rw [stop_eq_offset h hi, h.length_bytes]
    exact offset_le_offset ts hi
  table i t ht := by
    obtain ⟨p, hp, hl⟩ := h.payload? ht
    simp [table_eq h ht hp, hl]
  cover n hn := by
    rw [h.length_bytes] at hn
    have hplaces : ∀ k < ts.length, b.start k = offset ts k ∧ b.stop k = offset ts (k + 1) :=
      fun k hk => ⟨start_eq h (List.getElem?_eq_getElem hk), stop_eq_offset h hk⟩
    obtain ⟨i, hi, hle, hlt⟩ := exists_offset_le ts n hn
    refine ⟨i, ⟨hi, by rwa [(hplaces i hi).1], by rwa [(hplaces i hi).2]⟩, ?_⟩
    rintro k ⟨hk, hkle, hklt⟩
    rw [(hplaces k hk).1] at hkle
    rw [(hplaces k hk).2] at hklt
    -- Of two tables one ends before the other starts.
    obtain hki | rfl | hik := Nat.lt_trichotomy k i
    · have := offset_le_offset ts (show k + 1 ≤ i from hki)
      omega
    · rfl
    · have := offset_le_offset ts (show i + 1 ≤ k from hik)
      omega

/-- A byte of a table, found in the buffer behind the start of the table. -/
theorem Tiled.getElem?_table (h : Tiled ts b) (ht : ts[i]? = some t) {j : Nat} (hj : j ≤ t.length) :
    b.bytes[b.start i + j]? = (b.table i)[j]? := by
  have hstop := (h.stop i t ht).1
  rw [Buffer.table, List.getElem?_drop, List.getElem?_take_of_lt (by omega)]

/-! ### Filled buffers -/

theorem Filled.isLaid (h : Filled ts b) : Laid ts b := by
  induction h with
  | blank => exact laid_blank ts
  | lay j data _ ht hj ih => exact ih.setPayload ht j data hj

theorem Filled.tiled (h : Filled ts b) : Tiled ts b := by
  obtain ⟨ps, hps⟩ := h.isLaid
  exact hps.tiled

theorem Filled.length_payload (h : Filled ts b) (ht : ts[i]? = some t) :
    (b.payload i).length = t.length := by
  rw [Buffer.payload, List.length_tail, (h.tiled.table i t ht).1, Nat.add_sub_cancel]

theorem Filled.length_leading (h : Filled ts b) (ht : ts[i]? = some t) :
    ((b.payload i).take (min t.otpLength t.length)).length = min t.otpLength t.length := by
  rw [List.length_take, h.length_payload ht]
  omega

/-- A buffer is told by the payloads that it holds. -/
theorem Filled.ext (h : Filled ts b) (h' : Filled ts b')
    (hpay : ∀ i t, ts[i]? = some t → b.payload i = b'.payload i) : b = b' := by
  obtain ⟨ps, hps⟩ := h.isLaid
  obtain ⟨qs, hqs⟩ := h'.isLaid
  have hlen := congrArg List.length (hps.lengths.trans hqs.lengths.symm)
  have hpq : ps = qs := by
    refine List.ext_getElem (by simpa using hlen) fun i hi hi' => ?_
    have hts : ps.length = ts.length := by simpa using congrArg List.length hps.lengths
    have ht : ts[i]? = some ts[i] := List.getElem?_eq_getElem (by omega)
    rw [← payload_eq hps ht (List.getElem?_eq_getElem hi), hpay i _ ht,
      payload_eq hqs ht (List.getElem?_eq_getElem hi')]
  subst hpq
  cases b
  cases b'
  simpa using ⟨hps.bytes.trans hqs.bytes.symm, hps.starts.trans hqs.starts.symm⟩

/-- Bytes laid over the front of a list stand before what they leave of it. -/
theorem overwrite_zero (xs bs : List UInt8) (h : xs.length ≤ bs.length) :
    Buffer.overwrite 0 xs bs = xs ++ bs.drop xs.length := by
  refine List.ext_getElem? fun j => ?_
  rw [getElem?_overwrite]
  obtain hj | hj := Nat.lt_or_ge j xs.length
  · simp [hj, Nat.lt_of_lt_of_le hj h, List.getElem?_append_left hj]
  · simp [hj, List.getElem?_append_right hj, List.getElem?_drop]

/-- Any payloads of the right lengths are the contents of some buffer. -/
theorem exists_filled (ts : List Table) (ps : List (List UInt8))
    (h : ps.map List.length = ts.map Table.length) : ∃ b, Filled ts b ∧ Holds b ts ps := by
  have hlen : ps.length = ts.length := by simpa using congrArg List.length h
  suffices ∀ k ≤ ts.length, ∃ b, Filled ts b ∧ Holds b ts
      (ps.take k ++ (ts.drop k).map fun t => List.replicate t.length 0) by
    obtain ⟨b, hb, hh⟩ := this ts.length (Nat.le_refl _)
    rw [List.drop_length, List.map_nil, List.append_nil, ← hlen, List.take_length] at hh
    exact ⟨b, hb, hh⟩
  -- The first `k` payloads are laid already, the others are blank.
  intro k hk
  induction k with
  | zero => exact ⟨_, .blank, by simpa using holds_blank ts⟩
  | succ k ih =>
    obtain ⟨b, hb, hh⟩ := ih (by omega)
    have ht : ts[k]? = some ts[k] := List.getElem?_eq_getElem (by omega)
    have hp : ps[k].length = ts[k].length := by
      have hat := congrArg (·[k]?) h
      simpa [List.getElem?_eq_getElem (show k < ps.length by omega), ht] using hat
    rw [List.drop_eq_getElem_cons (by omega), List.map_cons] at hh
    have hk' : (ps.take k).length = k := by rw [List.length_take]; omega
    have hnext := holds_setPayload_append hh (by rwa [hk']) 0 ps[k] (by omega)
    have hall : Buffer.overwrite 0 ps[k] (List.replicate ts[k].length 0) = ps[k] := by
      rw [overwrite_zero _ _ (by simp [hp])]
      simp [hp]
    rw [hall, hk'] at hnext
    refine ⟨_, hb.lay 0 ps[k] ht (by omega), ?_⟩
    rwa [List.take_succ_eq_append_getElem (by omega), List.append_assoc, List.singleton_append]

/-! ### Merging -/

/-- Merging some of the tables leaves a buffer built for all of them. -/
theorem Filled.mergeTables (h : Filled ts b) (other : Buffer) (us : List (Table × Nat))
    (hus : ∀ u ∈ us, ts[u.2]? = some u.1) :
    Filled ts (us.foldl (fun b u => Buffer.mergeTable other b u.1 u.2) b) := by
  induction us generalizing b with
  | nil => exact h
  | cons u us ih =>
    rw [List.forall_mem_cons] at hus
    exact ih (h.lay 0 _ hus.1 (by rw [List.length_take]; omega)) hus.2

theorem Filled.merge_take (h : Filled ts b) (other : Buffer) (k : Nat) :
    Filled ts (b.merge other (ts.take k)) := by
  refine h.mergeTables other _ fun u hu => ?_
  have hat : (ts.take k)[u.2]? = some u.1 := List.mk_mem_zipIdx_iff_getElem?.mp hu
  rw [List.getElem?_take] at hat
  split at hat
  · exact hat
  · cases hat

theorem Filled.merge (h : Filled ts b) (other : Buffer) : Filled ts (b.merge other ts) := by
  simpa using h.merge_take other ts.length

/-- The leading bytes of a merged payload are those of the other buffer. -/
theorem payload_merge (hb : Filled ts b) (ho : Filled ts other) (ht : ts[i]? = some t) :
    (b.merge other ts).payload i =
      (other.payload i).take (min t.otpLength t.length) ++
        (b.payload i).drop (min t.otpLength t.length) := by
  obtain ⟨ps, hps⟩ := hb.isLaid
  obtain ⟨p, hp, hl⟩ := hps.payload? ht
  have hat : ts.zipIdx[i]? = some (t, i) := by simp [List.getElem?_zipIdx, ht]
  have hlen := ho.length_leading ht
  have hmerged : (b.merge other ts).payload i =
      Buffer.overwrite 0 ((other.payload i).take (min t.otpLength t.length)) p :=
    payload_eq (holds_merge hps other) ht (by rw [List.getElem?_zipWith, hat, hp])
  rw [hmerged, payload_eq hps ht hp, overwrite_zero _ _ (by omega), hlen]

theorem merge_merge (hb : Filled ts b) (ho : Filled ts other) :
    (b.merge other ts).merge other ts = b.merge other ts := by
  refine ((hb.merge other).merge other).ext (hb.merge other) fun i t ht => ?_
  rw [payload_merge (hb.merge other) ho ht, payload_merge hb ho ht, List.drop_append]
  simp [ho.length_payload ht]

theorem getElem?_merge (hb : Filled ts b) (ho : Filled ts other) (ht : ts[i]? = some t) {j : Nat}
    (hj : j ≤ t.length) :
    (b.merge other ts).bytes[(b.merge other ts).start i + j]? =
      if 0 < j ∧ j ≤ min t.otpLength t.length then other.bytes[other.start i + j]?
      else b.bytes[b.start i + j]? := by
  have hcons : ∀ {c : Buffer}, Filled ts c → c.table i = t.cmd :: c.payload i := fun hc => by
    obtain ⟨p, hp⟩ := hc.isLaid.table ht
    rw [Buffer.payload, hp, List.tail_cons]
  rw [(hb.merge other).tiled.getElem?_table ht hj, hb.tiled.getElem?_table ht hj,
    ho.tiled.getElem?_table ht hj, hcons (hb.merge other), hcons hb, hcons ho, payload_merge hb ho ht]
  cases j with
  | zero => simp
  | succ j =>
    have hlen := ho.length_leading ht
    simp only [List.getElem?_cons_succ, Nat.zero_lt_succ, true_and]
    split
    · rw [List.getElem?_append_left (by omega), List.getElem?_take_of_lt (by omega)]
    · rw [List.getElem?_append_right (by omega), hlen, List.getElem?_drop, Nat.add_sub_cancel' (by omega)]

/-- Merging two buffers built for tables changes the leading payload bytes of the tables, and no
other byte. The buffers are any that are built for the tables: whatever payloads the tables are to
have, there is one with them. -/
theorem leading_payload_bytes_merged (hb : Filled ts b) (ho : Filled ts other) :
    Tiled ts b ∧ Tiled ts other ∧ Tiled ts (b.merge other ts) ∧
      (b.merge other ts).starts = b.starts ∧
      (b.merge other ts).bytes.length = b.bytes.length ∧
      (∀ i t, ts[i]? = some t → ∀ j ≤ t.length,
        (b.merge other ts).bytes[b.start i + j]? =
          if 0 < j ∧ j ≤ min t.otpLength t.length then other.bytes[b.start i + j]?
          else b.bytes[b.start i + j]?) ∧
      (b.merge other ts).merge other ts = b.merge other ts ∧
      (∀ ps : List (List UInt8), ps.map List.length = ts.map Table.length →
        ∃ filled, Filled ts filled ∧ Holds filled ts ps) ∧
      -- What is laid over a table, and what it is laid over, is there in full each time.
      ∀ k i t, ts[i]? = some t → Tiled ts (b.merge other (ts.take k)) ∧
        min t.otpLength t.length ≤ (other.payload i).length ∧
        min t.otpLength t.length ≤ ((b.merge other (ts.take k)).payload i).length := by
  have hstarts : ∀ {c : Buffer}, Filled ts c → c.starts = (List.range ts.length).map (offset ts) :=
    fun hc => hc.isLaid.choose_spec.starts
  have hm := hb.merge other
  refine ⟨hb.tiled, ho.tiled, hm.tiled, (hstarts hm).trans (hstarts hb).symm, ?_, ?_,
    merge_merge hb ho, exists_filled ts, fun k i t ht => ⟨(hb.merge_take other k).tiled, ?_, ?_⟩⟩
  · obtain ⟨ps, hps⟩ := hb.isLaid
    rw [hps.length_bytes, (holds_merge hps other).length_bytes]
  · intro i t ht j hj
    have hstart : ∀ {c : Buffer}, Filled ts c → c.start i = offset ts i := fun hc =>
      start_eq hc.isLaid.choose_spec ht
    have hbyte := getElem?_merge hb ho ht hj
    rwa [hstart hm, hstart ho, ← hstart hb] at hbyte
  · rw [ho.length_payload ht]
    omega
  · rw [(hb.merge_take other k).length_payload ht]
    omega

theorem leading_payload_bytes_merged_of_three_tables :
    let ts : List Table := [⟨0xC8, 3, 5, 0, false, 0⟩, ⟨0xC9, 0, 1, 0, false, 0⟩,
      ⟨0xB3, 2, 1, 0, false, 0⟩]
    let b := (Buffer.blank ts).setPayload 2 0 [7, 8]
    let other := ((Buffer.blank ts).setPayload 0 0 [1, 2, 3]).setPayload 2 0 [4, 5]
    b.bytes = [0xC8, 0, 0, 0, 0xC9, 0xB3, 7, 8] ∧
      other.bytes = [0xC8, 1, 2, 3, 0xC9, 0xB3, 4, 5] ∧
      (b.merge other ts).bytes = [0xC8, 1, 2, 3, 0xC9, 0xB3, 4, 8] ∧
      Tiled ts (b.merge other ts) ∧ (b.merge other ts).merge other ts = b.merge other ts := by
  intro ts b other
  have hb : Filled ts b := Filled.blank.lay 0 [7, 8] (t := ts[2]) rfl (by decide)
  have ho : Filled ts other :=
    (Filled.blank.lay 0 [1, 2, 3] (t := ts[0]) rfl (by decide)).lay 0 [4, 5] (t := ts[2]) rfl (by decide)
  obtain ⟨-, -, hm, -, -, -, hmm, -⟩ := leading_payload_bytes_merged hb ho
  exact ⟨by decide, by decide, by decide, hm, hmm⟩

end OledPanel.Gamma
