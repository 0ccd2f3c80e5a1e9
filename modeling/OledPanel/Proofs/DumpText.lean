import OledPanel.Gamma.Dump
import OledPanel.Proofs.Calibration

/-! The text in which gamma tables are shown tells them. Each byte is shown in two digits, and what
stands around them goes by the number of bytes, so texts of tables of the same lengths are the same
only for the same tables. -/

namespace OledPanel

namespace Text

theorem upperDigit_injective : ∀ m < 16, ∀ n < 16, upperDigit m = upperDigit n → m = n := by decide

theorem byteHex_injective {a b : UInt8} (h : byteHex a = byteHex b) : a = b := by
  have ha := a.toNat_lt
  have hb := b.toNat_lt
  obtain ⟨hhigh, hlow⟩ := List.cons_eq_cons.mp h
  have hhigh := upperDigit_injective _ (by omega) _ (by omega) hhigh
  have hlow := upperDigit_injective _ (by omega) _ (by omega) (List.cons_eq_cons.mp hlow).1
  exact UInt8.toNat_inj.mp (by omega)

end Text

/-- Texts behind each other that are of the same lengths are the same one by one. -/
theorem eq_of_flatMap_eq {α β : Type} {f g : α → List β} {xs : List α}
    (hl : ∀ x ∈ xs, (f x).length = (g x).length) (h : xs.flatMap f = xs.flatMap g) :
    ∀ x ∈ xs, f x = g x := by
  induction xs with
  | nil => exact List.forall_mem_nil _
  | cons x xs ih =>
    rw [List.flatMap_cons, List.flatMap_cons] at h
    obtain ⟨hhead, htail⟩ := List.append_inj h (hl x (by simp))
    exact List.forall_mem_cons.mpr ⟨hhead, ih (fun y hy => hl y (by simp [hy])) htail⟩

namespace Gamma

/-- What stands before a byte goes by its place. -/
theorem toList_rows (j : Nat) (a : UInt8) (as : List UInt8) : (rows j (a :: as)).toList =
    (if 0 < j ∧ j % 8 = 0 then "\n     " else "").toList ++ (' ' :: Text.byteHex a) ++
      (rows (j + 1) as).toList := by
  have hspace : " ".toList = [' '] := by decide
  simp only [rows, String.toList_append, String.toList_ofList, hspace, List.append_assoc,
    List.cons_append, List.nil_append]

theorem length_rows {as bs : List UInt8} (h : as.length = bs.length) (j : Nat) :
    (rows j as).toList.length = (rows j bs).toList.length := by
  induction as generalizing bs j with
  | nil => rw [List.length_eq_zero_iff.mp h.symm]
  | cons a as ih =>
    obtain ⟨b, bs, rfl⟩ := List.exists_cons_of_length_eq_add_one h.symm
    simp [toList_rows, Text.byteHex, ih (by simpa using h)]

theorem rows_injective {as bs : List UInt8} (hl : as.length = bs.length) {j : Nat}
    (h : (rows j as).toList = (rows j bs).toList) : as = bs := by
  induction as generalizing bs j with
  | nil => exact (List.length_eq_zero_iff.mp hl.symm).symm
  | cons a as ih =>
    obtain ⟨b, bs, rfl⟩ := List.exists_cons_of_length_eq_add_one hl.symm
    rw [toList_rows, toList_rows] at h
    obtain ⟨hhead, htail⟩ := List.append_inj h (by simp [Text.byteHex])
    have hbyte := (List.cons_eq_cons.mp (List.append_cancel_left hhead)).2
    rw [Text.byteHex_injective hbyte, ih (by simpa using hl) htail]

/-- A heading, the bytes and a new line. -/
theorem toList_tableText (b : Buffer) (t : Table) (i : Nat) : (tableText b t i).toList =
    ("0x" ++ String.ofList (Text.byteHex t.cmd) ++ ":").toList ++ (rows 0 (b.payload i)).toList ++
      "\n".toList := by
  rw [tableText, String.toList_append, String.toList_append]

variable {p q : Table → List UInt8}

theorem length_tableText {b d : Buffer} {i : Nat} (h : (b.payload i).length = (d.payload i).length)
    (t : Table) : (tableText b t i).toList.length = (tableText d t i).toList.length := by
  rw [toList_tableText, toList_tableText, List.length_append, List.length_append, List.length_append,
    List.length_append, length_rows h]

theorem tableText_injective {b d : Buffer} {i : Nat}
    (hl : (b.payload i).length = (d.payload i).length) {t : Table}
    (h : (tableText b t i).toList = (tableText d t i).toList) : b.payload i = d.payload i := by
  rw [toList_tableText, toList_tableText] at h
  exact rows_injective hl (List.append_cancel_left (List.append_cancel_right h))

theorem toList_bufferText (b : Buffer) : (bufferText (some b)).toList =
    tables.zipIdx.flatMap fun t => (tableText b t.1 t.2).toList := by
  rw [bufferText, String.toList_join, List.flatMap_map]

/-- Payloads of the lengths of the tables are shown in texts of the same length. -/
theorem length_payload_filled (hp : ∀ t, (p t).length = t.length) (hq : ∀ t, (q t).length = t.length)
    {t : Table} {i : Nat} (ht : tables[i]? = some t) :
    ((filled p).payload i).length = ((filled q).payload i).length := by
  rw [payload_filled hp ht, payload_filled hq ht, hp, hq]

theorem length_bufferText (hp : ∀ t, (p t).length = t.length) (hq : ∀ t, (q t).length = t.length) :
    (bufferText (some (filled p))).toList.length = (bufferText (some (filled q))).toList.length := by
  rw [toList_bufferText, toList_bufferText, List.length_flatMap, List.length_flatMap]
  refine congrArg List.sum (List.map_congr_left fun t ht => ?_)
  exact length_tableText (length_payload_filled hp hq (List.mem_zipIdx_iff_getElem?.mp ht)) t.1

theorem bufferText_injective (hp : ∀ t, (p t).length = t.length) (hq : ∀ t, (q t).length = t.length)
    (h : (bufferText (some (filled p))).toList = (bufferText (some (filled q))).toList) :
    ∀ t ∈ tables, p t = q t := by
  rw [toList_bufferText, toList_bufferText] at h
  have hlen (t : Table × Nat) (ht : t ∈ tables.zipIdx) :=
    length_payload_filled hp hq (List.mem_zipIdx_iff_getElem?.mp ht)
  have hsame := eq_of_flatMap_eq (fun t ht => length_tableText (hlen t ht) t.1) h
  intro t ht
  obtain ⟨i, hi⟩ := List.getElem?_of_mem ht
  have hmem : (t, i) ∈ tables.zipIdx := List.mem_zipIdx_iff_getElem?.mpr hi
  have hpayload := tableText_injective (hlen _ hmem) (hsame _ hmem)
  rwa [payload_filled hp hi, payload_filled hq hi] at hpayload

end Gamma

namespace Panel

variable {p q : UInt32 → Gamma.Table → List UInt8} {timings : List Timing}

theorem toList_dump (p : UInt32 → Gamma.Table → List UInt8) (timings : List Timing) :
    (Gamma.dump (timings.map (·.rate)) (buffersOf p timings)).toList = timings.flatMap fun m =>
      ("\n=== " ++ Text.decimal m.rate.toNat ++ "hz Mode Gamma ===\n").toList ++
        (Gamma.bufferText (some (Gamma.filled (p m.rate)))).toList := by
  rw [Gamma.dump, String.toList_join, buffersOf, List.zip_map', List.map_map, List.flatMap_map]
  simp only [Function.comp_apply, String.toList_append]

/-- Dumps of the same timings are the same only for the same tables. -/
theorem dump_injective (hp : ∀ r t, (p r t).length = t.length) (hq : ∀ r t, (q r t).length = t.length)
    (h : Gamma.dump (timings.map (·.rate)) (buffersOf p timings) =
      Gamma.dump (timings.map (·.rate)) (buffersOf q timings)) :
    ∀ m ∈ timings, ∀ t ∈ Gamma.tables, p m.rate t = q m.rate t := by
  have hlist := congrArg String.toList h
  rw [toList_dump, toList_dump] at hlist
  have hlen (m : Timing) := Gamma.length_bufferText (hp m.rate) (hq m.rate)
  have hsame := eq_of_flatMap_eq (fun m _ => ?_) hlist
  · intro m hm
    exact Gamma.bufferText_injective (hp m.rate) (hq m.rate) (List.append_cancel_left (hsame m hm))
  · rw [List.length_append, List.length_append, hlen m]

end Panel
end OledPanel
