import OledPanel.Gamma.Buffer

/-! Gamma buffers as lists of payloads. A buffer holds the payloads of tables if it consists of
them, each behind the command byte of its table, and knows where each starts. Laying bytes over
one payload leaves the others and all command bytes, so whatever is read or merged into a buffer,
what it replays begins with the command byte of its table. -/

namespace OledPanel.Gamma

/-! ### Layout -/

/-- Payloads behind each other, each with the command byte of its table in front. -/
def layout : List Table → List (List UInt8) → List UInt8
  | t :: ts, p :: ps => t.cmd :: (p ++ layout ts ps)
  | _, _ => []

/-- The place of a table behind those before it. -/
def offset : List Table → Nat → Nat
  | t :: ts, i + 1 => t.length + 1 + offset ts i
  | _, _ => 0

/-- The buffer consists of payloads of the length of their tables. -/
structure Holds (b : Buffer) (ts : List Table) (ps : List (List UInt8)) : Prop where
  lengths : ps.map List.length = ts.map Table.length
  bytes : b.bytes = layout ts ps
  starts : b.starts = (List.range ts.length).map (offset ts)

theorem offset_append (ts us : List Table) (i : Nat) (hi : i ≤ ts.length) :
    offset (ts ++ us) i = offset ts i := by
  induction ts generalizing i with
  | nil =>
    obtain rfl : i = 0 := by simpa using hi
    cases us <;> rfl
  | cons t ts ih =>
    cases i with
    | zero => rfl
    | succ i => rw [List.cons_append, offset, offset, ih i (by simpa using hi)]

theorem length_layout (ts : List Table) (ps : List (List UInt8))
    (h : ps.map List.length = ts.map Table.length) : (layout ts ps).length = offset ts ts.length := by
  induction ts generalizing ps with
  | nil => cases ps <;> simp_all [layout, offset]
  | cons t ts ih =>
    cases ps with
    | nil => simp at h
    | cons p ps =>
      simp only [List.map_cons, List.cons.injEq] at h
      simp only [layout, List.length_cons, List.length_append, offset, ih ps h.2, h.1]
      omega

theorem layout_append (ts : List Table) (ps : List (List UInt8)) (t : Table) (p : List UInt8)
    (h : ps.map List.length = ts.map Table.length) :
    layout (ts ++ [t]) (ps ++ [p]) = layout ts ps ++ t.cmd :: p := by
  induction ts generalizing ps with
  | nil =>
    obtain rfl : ps = [] := by simpa using h
    simp [layout]
  | cons u ts ih =>
    cases ps with
    | nil => simp at h
    | cons q ps =>
      simp only [List.map_cons, List.cons.injEq] at h
      simp [layout, ih ps h.2]

theorem layout_drop (ts : List Table) (ps : List (List UInt8)) (i : Nat)
    (h : ps.map List.length = ts.map Table.length) :
    (layout ts ps).drop (offset ts i) = layout (ts.drop i) (ps.drop i) := by
  induction ts generalizing ps i with
  | nil =>
    obtain rfl : ps = [] := by simpa using h
    simp [layout]
  | cons t ts ih =>
    cases ps with
    | nil => simp at h
    | cons p ps =>
      simp only [List.map_cons, List.cons.injEq] at h
      cases i with
      | zero => rfl
      | succ i =>
        rw [offset, layout, ← h.1, ← List.drop_drop]
        simpa using ih ps i h.2

theorem offset_succ (ts : List Table) (i : Nat) {t : Table} (ht : ts[i]? = some t) :
    offset ts (i + 1) = offset ts i + (t.length + 1) := by
  induction ts generalizing i with
  | nil => simp at ht
  | cons u ts ih =>
    cases i with
    | zero =>
      obtain rfl : u = t := by simpa using ht
      cases ts <;> simp [offset]
    | succ i =>
      rw [offset, ih i (by simpa using ht), offset]
      omega

/-! ### Blank buffers -/

theorem holds_addTable {b : Buffer} {ts : List Table} {ps : List (List UInt8)} (h : Holds b ts ps)
    (t : Table) : Holds (b.addTable t) (ts ++ [t]) (ps ++ [List.replicate t.length 0]) where
  lengths := by simp [h.lengths]
  bytes := by rw [layout_append _ _ _ _ h.lengths, ← h.bytes, Buffer.addTable]
  starts := by
    have hb : b.bytes.length = offset (ts ++ [t]) ts.length := by
      rw [h.bytes, length_layout _ _ h.lengths, offset_append _ _ _ (Nat.le_refl _)]
    have hs : b.starts = (List.range ts.length).map (offset (ts ++ [t])) := by
      rw [h.starts]
      refine List.map_congr_left fun i hi => (offset_append _ _ _ ?_).symm
      exact Nat.le_of_lt (List.mem_range.mp hi)
    simp [Buffer.addTable, List.range_succ, hb, hs]

theorem holds_addTables {b : Buffer} {ts : List Table} {ps : List (List UInt8)} (h : Holds b ts ps)
    (us : List Table) :
    Holds (us.foldl Buffer.addTable b) (ts ++ us)
      (ps ++ us.map fun t => List.replicate t.length 0) := by
  induction us generalizing b ts ps with
  | nil => simpa using h
  | cons u us ih => simpa using ih (holds_addTable h u)

/-- A blank buffer holds zeros. -/
theorem holds_blank (ts : List Table) :
    Holds (Buffer.blank ts) ts (ts.map fun t => List.replicate t.length 0) := by
  have h : Holds ⟨[], []⟩ [] [] := ⟨rfl, rfl, rfl⟩
  exact holds_addTables h ts

/-! ### Bytes laid over a buffer -/

@[simp] theorem overwrite_nil (n : Nat) (bs : List UInt8) : Buffer.overwrite n [] bs = bs := by
  cases bs <;> cases n <;> rfl

@[simp] theorem overwrite_succ (n : Nat) (xs : List UInt8) (b : UInt8) (bs : List UInt8) :
    Buffer.overwrite (n + 1) xs (b :: bs) = b :: Buffer.overwrite n xs bs := by
  cases xs with
  | nil => simp
  | cons x xs => rw [Buffer.overwrite]; simp

@[simp] theorem length_overwrite (n : Nat) (xs bs : List UInt8) :
    (Buffer.overwrite n xs bs).length = bs.length := by
  fun_induction Buffer.overwrite n xs bs <;> simp_all

/-- Each byte is the one laid over it, if any. -/
theorem getElem?_overwrite (n : Nat) (xs bs : List UInt8) (j : Nat) :
    (Buffer.overwrite n xs bs)[j]? =
      bs[j]?.map fun b => if n ≤ j then (xs[j - n]?).getD b else b := by
  induction bs generalizing n xs j with
  | nil => cases n <;> cases xs <;> rfl
  | cons b bs ih =>
    cases n with
    | zero =>
      cases xs with
      | nil => simp
      | cons x xs => cases j <;> simp [Buffer.overwrite, ih]
    | succ n => cases j <;> simp [ih]

theorem overwrite_append (n : Nat) (xs as bs : List UInt8) :
    Buffer.overwrite (as.length + n) xs (as ++ bs) = as ++ Buffer.overwrite n xs bs := by
  induction as with
  | nil => simp
  | cons a as ih =>
    rw [List.length_cons, Nat.add_right_comm, List.cons_append, overwrite_succ, ih, List.cons_append]

theorem overwrite_append_of_le (n : Nat) (xs as bs : List UInt8) (h : n + xs.length ≤ as.length) :
    Buffer.overwrite n xs (as ++ bs) = Buffer.overwrite n xs as ++ bs := by
  induction as generalizing n xs with
  | nil =>
    obtain rfl : xs = [] := List.length_eq_zero_iff.mp (Nat.add_eq_zero_iff.mp (Nat.le_zero.mp h)).2
    simp
  | cons a as ih =>
    simp only [List.length_cons] at h
    cases n with
    | succ n => simp [ih n xs (by omega)]
    | zero =>
      cases xs with
      | nil => simp
      | cons x xs =>
        simp only [List.length_cons] at h
        simp [Buffer.overwrite, ih 0 xs (by omega)]

theorem overwrite_layout (ts : List Table) (ps : List (List UInt8)) (i j : Nat) (xs : List UInt8)
    {t : Table} (h : ps.map List.length = ts.map Table.length) (ht : ts[i]? = some t)
    (hx : j + xs.length ≤ t.length) :
    Buffer.overwrite (offset ts i + 1 + j) xs (layout ts ps) =
      layout ts (ps.modify i (Buffer.overwrite j xs)) := by
  induction ts generalizing ps i with
  | nil => simp at ht
  | cons u ts ih =>
    cases ps with
    | nil => simp at h
    | cons p ps =>
      simp only [List.map_cons, List.cons.injEq] at h
      cases i with
      | zero =>
        obtain rfl : u = t := by simpa using ht
        have hp := overwrite_append_of_le j xs p (layout ts ps) (by omega)
        have hc := overwrite_append j xs [u.cmd] (p ++ layout ts ps)
        simpa [offset, layout, hp] using hc
      | succ i =>
        have hc := overwrite_append (offset ts i + 1 + j) xs (u.cmd :: p) (layout ts ps)
        rw [ih ps i h.2 (by simpa using ht)] at hc
        rw [offset, show u.length + 1 + offset ts i + 1 + j = (u.cmd :: p).length +
          (offset ts i + 1 + j) by simp only [List.length_cons, h.1]; omega]
        simpa [layout] using hc

/-! ### Tables of a buffer -/

section

variable {b : Buffer} {ts : List Table} {ps : List (List UInt8)} {t : Table} {i : Nat}

theorem start_eq (h : Holds b ts ps) (ht : ts[i]? = some t) : b.start i = offset ts i := by
  have hi : i < ts.length := (List.getElem?_eq_some_iff.mp ht).1
  simp [Buffer.start, h.starts, List.getD_eq_getElem?_getD, hi]

/-- A table ends right behind its payload, also where no table follows. -/
theorem stop_eq (h : Holds b ts ps) (ht : ts[i]? = some t) :
    b.stop i = offset ts i + (t.length + 1) := by
  have hi : i < ts.length := (List.getElem?_eq_some_iff.mp ht).1
  rw [← offset_succ ts i ht]
  by_cases hs : i + 1 < ts.length
  · simp [Buffer.stop, h.starts, List.getD_eq_getElem?_getD, hs]
  · have he : i + 1 = ts.length := by omega
    simp [Buffer.stop, h.starts, List.getD_eq_getElem?_getD, h.bytes, length_layout _ _ h.lengths, he]

/-- Each table has a payload of its length. -/
theorem Holds.payload? (h : Holds b ts ps) (ht : ts[i]? = some t) :
    ∃ p, ps[i]? = some p ∧ p.length = t.length := by
  have hi := congrArg (·[i]?) h.lengths
  simpa [ht] using hi

/-- A table is its command byte and its payload. -/
theorem table_eq {p : List UInt8} (h : Holds b ts ps) (ht : ts[i]? = some t) (hp : ps[i]? = some p) :
    b.table i = t.cmd :: p := by
  obtain ⟨q, hq, hl⟩ := h.payload? ht
  rw [Option.some.inj (hq.symm.trans hp)] at hl
  have hts : ts.drop i = t :: ts.drop (i + 1) := by
    obtain ⟨hi, rfl⟩ := List.getElem?_eq_some_iff.mp ht
    exact List.drop_eq_getElem_cons hi
  have hps : ps.drop i = p :: ps.drop (i + 1) := by
    obtain ⟨hi, rfl⟩ := List.getElem?_eq_some_iff.mp hp
    exact List.drop_eq_getElem_cons hi
  rw [Buffer.table, start_eq h ht, stop_eq h ht, h.bytes, List.drop_take,
    layout_drop _ _ _ h.lengths, hts, hps, layout, Nat.add_sub_cancel_left, ← hl]
  simp

theorem payload_eq {p : List UInt8} (h : Holds b ts ps) (ht : ts[i]? = some t) (hp : ps[i]? = some p) :
    b.payload i = p := by
  rw [Buffer.payload, table_eq h ht hp, List.tail_cons]

theorem holds_setPayload (h : Holds b ts ps) (ht : ts[i]? = some t) (j : Nat) (xs : List UInt8)
    (hx : j + xs.length ≤ t.length) :
    Holds (b.setPayload i j xs) ts (ps.modify i (Buffer.overwrite j xs)) where
  lengths := by
    rw [← h.lengths]
    refine List.ext_getElem (by simp) fun k _ _ => ?_
    simp only [List.getElem_map, List.getElem_modify]
    split <;> simp
  bytes := by rw [Buffer.setPayload, start_eq h ht, h.bytes, overwrite_layout _ _ _ _ _ h.lengths ht hx]
  starts := h.starts

/-- Laying bytes over one payload leaves those before and behind it. -/
theorem holds_setPayload_append {qs rs : List (List UInt8)} {p : List UInt8}
    (h : Holds b ts (qs ++ p :: rs)) (ht : ts[qs.length]? = some t) (j : Nat) (xs : List UInt8)
    (hx : j + xs.length ≤ t.length) :
    Holds (b.setPayload qs.length j xs) ts (qs ++ Buffer.overwrite j xs p :: rs) := by
  have hmodify : (qs ++ p :: rs).modify qs.length (Buffer.overwrite j xs) =
      qs ++ Buffer.overwrite j xs p :: rs := by
    clear h ht
    induction qs with
    | nil => rfl
    | cons q qs ih => simpa using ih
  exact hmodify ▸ holds_setPayload h ht j xs hx

end

/-- The buffer holds payloads of the tables, whichever they are. -/
def Laid (ts : List Table) (b : Buffer) : Prop := ∃ ps, Holds b ts ps

theorem laid_blank (ts : List Table) : Laid ts (Buffer.blank ts) := ⟨_, holds_blank ts⟩

theorem Laid.setPayload {ts : List Table} {b : Buffer} (h : Laid ts b) {i : Nat} {t : Table}
    (ht : ts[i]? = some t) (j : Nat) (xs : List UInt8) (hx : j + xs.length ≤ t.length) :
    Laid ts (b.setPayload i j xs) := by
  obtain ⟨ps, hps⟩ := h
  exact ⟨_, holds_setPayload hps ht j xs hx⟩

/-- What is replayed of a table begins with its command byte. -/
theorem Laid.table {ts : List Table} {b : Buffer} (h : Laid ts b) {i : Nat} {t : Table}
    (ht : ts[i]? = some t) : ∃ p, b.table i = t.cmd :: p := by
  obtain ⟨ps, hps⟩ := h
  obtain ⟨p, hp, -⟩ := hps.payload? ht
  exact ⟨p, table_eq hps ht hp⟩

/-- A table is replayed in full, with its command byte. -/
theorem Laid.length_table {ts : List Table} {b : Buffer} (h : Laid ts b) {i : Nat} {t : Table}
    (ht : ts[i]? = some t) : (b.table i).length = t.length + 1 := by
  obtain ⟨ps, hps⟩ := h
  obtain ⟨p, hp, hl⟩ := hps.payload? ht
  rw [table_eq hps ht hp, List.length_cons, hl]

/-- Merging lays the leading bytes of the other buffer over each payload. -/
theorem holds_merge {ts : List Table} {b : Buffer} {ps : List (List UInt8)} (h : Holds b ts ps)
    (other : Buffer) : Holds (b.merge other ts) ts (List.zipWith (fun u p =>
      Buffer.overwrite 0 ((other.payload u.2).take (min u.1.otpLength u.1.length)) p) ts.zipIdx ps) := by
  suffices ∀ (done todo : List Table) (qs rs : List (List UInt8)) (b : Buffer), ts = done ++ todo →
      qs.length = done.length → rs.length = todo.length → Holds b ts (qs ++ rs) →
      Holds ((todo.zipIdx done.length).foldl (fun b u => Buffer.mergeTable other b u.1 u.2) b) ts
        (qs ++ List.zipWith (fun u p =>
          Buffer.overwrite 0 ((other.payload u.2).take (min u.1.otpLength u.1.length)) p)
          (todo.zipIdx done.length) rs) by
    have hlen : ps.length = ts.length := by simpa using congrArg List.length h.lengths
    exact this [] ts [] ps b rfl rfl hlen h
  intro done todo
  -- Table by table: the payloads of those done are merged, the others are as they were.
  induction todo generalizing done with
  | nil =>
    intro qs rs b _ _ hrs hb
    obtain rfl : rs = [] := List.length_eq_zero_iff.mp hrs
    simpa using hb
  | cons t todo ih =>
    intro qs rs b hts hqs hrs hb
    obtain ⟨r, rs, rfl⟩ := List.exists_cons_of_length_eq_add_one hrs
    have hat : ts[qs.length]? = some t := by simp [hts, hqs]
    have hset := holds_setPayload_append hb hat 0
      ((other.payload done.length).take (min t.otpLength t.length)) (by rw [List.length_take]; omega)
    rw [hqs] at hset
    have hnext := ih (done ++ [t]) (qs ++ [_]) rs _ (by simp [hts]) (by simp [hqs]) (by simpa using hrs)
      (by simpa using hset)
    simpa [List.zipIdx_cons, Buffer.mergeTable] using hnext

theorem Laid.merge {ts : List Table} {b other : Buffer} (h : Laid ts b) : Laid ts (b.merge other ts) := by
  obtain ⟨ps, hps⟩ := h
  exact ⟨_, holds_merge hps other⟩

end OledPanel.Gamma
