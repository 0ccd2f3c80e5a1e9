import OledPanel.Node.Basic
import OledPanel.Proofs.Within

/-! Command sets that are packed into the cells of a property and read back. A record holds the
length of its payload in two bytes, so a payload is read back whole if it has at least one byte and
no more than two bytes count. The record of a longer payload breaks off early, and what is read may
go on in the middle of it; but no command that is read has a payload of such a length, so this never
is the set that was packed. -/

namespace OledPanel

namespace Dsi.CommandSet

open OledPanel.Action (ok_of_bind)

variable {bytes p : List UInt8} {ps : List (List UInt8)} {cs : List Command} {set : CommandSet}

/-- A payload whose length a record can tell. -/
def Fits (p : List UInt8) : Prop := 1 ≤ p.length ∧ p.length ≤ 0xFFFF

/-! ### Plain writes -/

def writeType (p : List UInt8) : PacketType :=
  match p.length with
  | 1 => .shortWrite
  | 2 => .shortWriteParam
  | _ => .longWrite

/-- The plain write of a payload, the last of its group. -/
def write (p : List UInt8) : Command :=
  { type := writeType p, last := true, waitMs := 0, payload := p }

theorem ofLength_length (h : p ≠ []) : PacketType.ofLength p.length = .ok (writeType p) := by
  match p, h with
  | [_], _ => rfl
  | [_, _], _ => rfl
  | _ :: _ :: _ :: _, _ => rfl

theorem ofPayloads_cons : ofPayloads (p :: ps) = (do
    let type ← PacketType.ofLength p.length
    let rest ← ofPayloads ps
    return { commands := { type, last := true, waitMs := 0, payload := p } :: rest.commands }) := by
  simp only [ofPayloads, List.mapM_cons, bind_assoc, pure_bind]

/-- The set of some payloads is their plain writes, and there is none if one of them is empty. -/
theorem ofPayloads_eq_ok : ofPayloads ps = .ok set ↔
    (∀ p ∈ ps, p ≠ []) ∧ set = { commands := ps.map write } := by
  induction ps generalizing set with
  | nil =>
    have hnil : ofPayloads [] = .ok {} := rfl
    simp [hnil, eq_comm]
  | cons p ps ih =>
    rw [ofPayloads_cons, List.forall_mem_cons]
    constructor
    · intro h
      obtain ⟨type, htype, h⟩ := ok_of_bind h
      obtain ⟨rest, hrest, h⟩ := ok_of_bind h
      have hp : p ≠ [] := by
        rintro rfl
        cases htype
      obtain ⟨hps, rfl⟩ := ih.mp hrest
      rw [ofLength_length hp] at htype
      cases htype
      cases h
      exact ⟨⟨hp, hps⟩, rfl⟩
    · rintro ⟨⟨hp, hps⟩, rfl⟩
      rw [ofLength_length hp, ih.mpr ⟨hps, rfl⟩]
      rfl

/-! ### Records -/

/-- The bytes that the cells of a record hold. -/
def recordBytes (p : List UInt8) : List UInt8 :=
  let length := min p.length 0xFFFF
  [(writeType p).code, 1, 0, 0, 0, UInt8.ofNat (length / 256), UInt8.ofNat (length % 256)] ++ p

theorem record_eq (p : List UInt8) : record p = (recordBytes p).map UInt8.toUInt32 := by
  have hcode : (writeType p).code.toUInt32 =
      (match p.length with | 1 => 0x05 | 2 => 0x15 | _ => 0x39 : UInt32) := by
    unfold writeType
    split <;> rfl
  have hcell : ∀ n < 256, (UInt8.ofNat n).toUInt32 = UInt32.ofNat n := fun n hn => by
    rw [← UInt32.toNat_inj, UInt8.toNat_toUInt32, UInt8.toNat_ofNat', UInt32.toNat_ofNat']
    omega
  have hhi : min p.length 0xFFFF / 256 < 256 := by omega
  have hlo : min p.length 0xFFFF % 256 < 256 := Nat.mod_lt _ (by decide)
  simp only [record, recordBytes, List.map_append, List.map_cons, List.map_nil, hcode, hcell _ hhi,
    hcell _ hlo]
  rfl

theorem pack_eq (ps : List (List UInt8)) :
    pack ps = (ps.flatMap recordBytes).map UInt8.toUInt32 := by
  rw [pack, List.map_flatMap, funext record_eq]

theorem ofCode_writeType (p : List UInt8) : PacketType.ofCode (writeType p).code = writeType p := by
  unfold writeType
  split <;> rfl

/-! ### Reading back -/

theorem word_ofNat {n : Nat} (h : n ≤ 0xFFFF) :
    word (UInt8.ofNat (n / 256)) (UInt8.ofNat (n % 256)) = n := by
  rw [word, UInt8.toNat_ofNat', UInt8.toNat_ofNat']
  omega

/-- Two bytes count no further. -/
theorem word_le (hi lo : UInt8) : word hi lo ≤ 0xFFFF := by
  have := hi.toNat_lt
  have := lo.toNat_lt
  unfold word
  omega

/-- The type tells lengths from three on no more apart. -/
theorem writeType_take (p : List UInt8) : writeType (p.take 0xFFFF) = writeType p := by
  match p with
  | [] | [_] | [_, _] => rfl
  | _ :: _ :: _ :: _ => rfl

/-- A record is read as the write of as much of its payload as it counts, and reading goes on
behind that. -/
theorem unpack_recordBytes (hne : p ≠ []) (rest : List UInt8) :
    unpack (recordBytes p ++ rest) =
      (unpack (p.drop 0xFFFF ++ rest)).map (write (p.take 0xFFFF) :: ·) := by
  have hpos : 0 < p.length := List.length_pos_iff.mpr hne
  have hword := word_ofNat (Nat.min_le_right p.length 0xFFFF)
  have hlong : ¬(p ++ rest).length < min p.length 0xFFFF := by
    rw [List.length_append]
    omega
  have htake : (p ++ rest).take (min p.length 0xFFFF) = p.take 0xFFFF := by
    rw [List.take_append_of_le_length (Nat.min_le_left _ _), Nat.min_comm,
      ← List.take_eq_take_min]
  have hdrop : (p ++ rest).drop (min p.length 0xFFFF) = p.drop 0xFFFF ++ rest := by
    rw [List.drop_append_of_le_length (Nat.min_le_left _ _), Nat.min_comm,
      ← List.drop_eq_drop_min]
  simp only [recordBytes, List.cons_append, List.nil_append, unpack]
  rw [hword, if_neg hlong, if_neg (by omega), hdrop, htake, ofCode_writeType, ← writeType_take]
  cases unpack (p.drop 0xFFFF ++ rest) with
  | ok cs => rfl
  | error e => rfl

theorem unpack_recordBytes_of_fits (h : Fits p) (rest : List UInt8) :
    unpack (recordBytes p ++ rest) = (unpack rest).map (write p :: ·) := by
  rw [unpack_recordBytes (List.length_pos_iff.mp h.1), List.drop_eq_nil_of_le h.2,
    List.take_of_length_le h.2, List.nil_append]

theorem unpack_records (h : ∀ p ∈ ps, Fits p) :
    unpack (ps.flatMap recordBytes) = .ok (ps.map write) := by
  induction ps with
  | nil => rw [List.flatMap_nil, unpack, List.map_nil]
  | cons p ps ih =>
    rw [List.flatMap_cons, unpack_recordBytes_of_fits (h p (by simp)),
      ih fun q hq => h q (by simp [hq])]
    rfl

/-- Whatever the bytes are, no command is read with a payload that does not fit. -/
theorem fits_of_unpack (h : unpack bytes = .ok cs) : ∀ c ∈ cs, Fits c.payload := by
  fun_induction unpack bytes generalizing cs with
  | case1 =>
    cases h
    simp
  | case2 => cases h
  | case3 => cases h
  | case4 type last _ _ wait hi lo rest hlong hpos tail htail ih =>
    cases h
    rw [List.forall_mem_cons]
    refine ⟨⟨?_, ?_⟩, ih htail⟩
    · rw [List.length_take]
      omega
    · rw [List.length_take]
      exact Nat.le_trans (Nat.min_le_left _ _) (word_le hi lo)
  | case5 => cases h
  | case6 => cases h

/-- Packed payloads are read back as the set they make exactly if all of them fit. -/
theorem unpack_records_eq_ok :
    (∃ set, unpack (ps.flatMap recordBytes) = .ok set.commands ∧ ofPayloads ps = .ok set) ↔
      ∀ p ∈ ps, Fits p := by
  constructor
  · rintro ⟨set, hread, hset⟩ p hp
    obtain ⟨-, rfl⟩ := ofPayloads_eq_ok.mp hset
    exact fits_of_unpack hread (write p) (List.mem_map_of_mem hp)
  · intro h
    refine ⟨_, unpack_records h, ofPayloads_eq_ok.mpr ⟨fun p hp => ?_, rfl⟩⟩
    rintro rfl
    exact absurd (h [] hp).1 (by decide)

end Dsi.CommandSet

namespace Node

open Dsi (CommandSet)

variable {n : Node} {key stateKey : String} {ps : List (List UInt8)}

/-- Cells that were bytes are bytes. -/
theorem mapM_byte (key : String) (bs : List UInt8) :
    (bs.map UInt8.toUInt32).mapM (byte key) = .ok bs := by
  have hbyte : ∀ b : UInt8, byte key b.toUInt32 = .ok b := fun b => by
    rw [byte, if_pos (UInt32.lt_iff_toNat_lt.mpr (UInt8.toNat_toUInt32 b ▸ b.toNat_lt)),
      UInt8.toUInt8_toUInt32]
  induction bs with
  | nil => rfl
  | cons b bs ih =>
    rw [List.map_cons, List.mapM_cons, hbyte, ih]
    rfl

theorem bytes_of_pack (h : n.property? key = some (.cells (CommandSet.pack ps))) :
    n.bytes key = .ok (some (ps.flatMap CommandSet.recordBytes)) := by
  have hcells :
      n.cells key = .ok (some ((ps.flatMap CommandSet.recordBytes).map UInt8.toUInt32)) := by
    rw [cells, readAs, h, CommandSet.pack_eq]
    rfl
  rw [bytes, hcells]
  simp only [bind, Except.bind, mapM_byte]
  rfl

/-- What is left to read of packed payloads is their records. -/
theorem commandSet_of_pack (hne : ps ≠ [])
    (hkey : n.property? key = some (.cells (CommandSet.pack ps)))
    (hstate : n.property? stateKey = none) :
    n.commandSet key stateKey = (match CommandSet.unpack (ps.flatMap CommandSet.recordBytes) with
      | .ok commands => .ok (some { commands })
      | .error why => .error (.config key (.badCommands why))) := by
  obtain ⟨b, bs, hbs⟩ : ∃ b bs, ps.flatMap CommandSet.recordBytes = b :: bs := by
    cases ps with
    | nil => exact absurd rfl hne
    | cons p ps => exact ⟨_, _, rfl⟩
  have htext : n.text stateKey = .ok none := by
    rw [text, readAs, hstate]
  rw [commandSet, bytes_of_pack hkey, hbs]
  simp only [bind, Except.bind, htext, CommandSet.ofPacked]
  cases CommandSet.unpack (b :: bs) with
  | ok commands => rfl
  | error why => rfl

/-- Packed payloads are read back as the set that they make exactly if each of them has a byte, and
no more of them than two bytes count. -/
theorem commandSet_pack_iff (hne : ps ≠ [])
    (hkey : n.property? key = some (.cells (CommandSet.pack ps)))
    (hstate : n.property? stateKey = none) :
    (∃ set, n.commandSet key stateKey = .ok (some set) ∧ CommandSet.ofPayloads ps = .ok set) ↔
      ∀ p ∈ ps, 1 ≤ p.length ∧ p.length ≤ 0xFFFF := by
  rw [commandSet_of_pack hne hkey hstate]
  refine Iff.trans ⟨?_, ?_⟩ CommandSet.unpack_records_eq_ok
  · rintro ⟨set, hread, hset⟩
    refine ⟨set, ?_, hset⟩
    cases hunpack : CommandSet.unpack (ps.flatMap CommandSet.recordBytes) with
    | ok commands =>
      rw [hunpack] at hread
      cases hread
      rfl
    | error why =>
      rw [hunpack] at hread
      cases hread
  · rintro ⟨set, hread, hset⟩
    obtain ⟨-, rfl⟩ := CommandSet.ofPayloads_eq_ok.mp hset
    exact ⟨_, by rw [hread], hset⟩

/-- The command that enters a range and one of a single byte. -/
theorem commandSet_pack_iff_entry :
    let ps : List (List UInt8) := [[0x53, 0xE8], [0x28]]
    let key := "google,dsi-hbm-range-entry-command"
    let stateKey := "google,dsi-hbm-range-commands-state"
    let n : Node := { properties := [(key, .cells (CommandSet.pack ps))] }
    ps ≠ [] ∧ n.property? key = some (.cells (CommandSet.pack ps)) ∧ n.property? stateKey = none ∧
      ∃ set, n.commandSet key stateKey = .ok (some set) ∧ CommandSet.ofPayloads ps = .ok set := by
  intro ps key stateKey n
  have hne : ps ≠ [] := by decide
  have hkey : n.property? key = some (.cells (CommandSet.pack ps)) := by decide
  have hstate : n.property? stateKey = none := by decide
  exact ⟨hne, hkey, hstate, (commandSet_pack_iff hne hkey hstate).mpr (by decide)⟩

end Node
end OledPanel
