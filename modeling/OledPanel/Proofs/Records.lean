import OledPanel.Proofs.Packing

/-! The packed form of a command set as a language. Its words are the concatenations of records, and
a header tells where its record ends, so a word is one concatenation only and reading has no choice:
it accepts exactly the words, gives a command for each record, and what stands behind a word is read
as if it stood alone. -/

namespace OledPanel.Dsi

open CommandSet (word unpack ofPacked)

/-- A record of the packed form. Its header counts the bytes of the payload, and there is one at
least. -/
structure Record where
  type : UInt8
  last : UInt8
  channel : UInt8
  ack : UInt8
  wait : UInt8
  hi : UInt8
  lo : UInt8
  payload : List UInt8
  counted : payload.length = word hi lo
  filled : 1 ≤ payload.length
deriving DecidableEq

namespace Record

def header (r : Record) : List UInt8 := [r.type, r.last, r.channel, r.ack, r.wait, r.hi, r.lo]

def bytes (r : Record) : List UInt8 := r.header ++ r.payload

def command (r : Record) : Command :=
  { type := .ofCode r.type, last := r.last != 0, waitMs := r.wait.toNat, payload := r.payload }

variable {r q : Record} {rs qs : List Record} {a b : List UInt8}

/-! ### Unique decomposition -/

/-- The header tells how much of what follows it belongs to the record. -/
theorem eq_of_bytes_append (h : r.bytes ++ a = q.bytes ++ b) : r = q ∧ a = b := by
  rw [bytes, bytes, List.append_assoc, List.append_assoc] at h
  obtain ⟨hheader, htail⟩ := List.append_inj h rfl
  obtain ⟨_, _, _, _, _, _, _, p, hp, _⟩ := r
  obtain ⟨_, _, _, _, _, _, _, p', hp', _⟩ := q
  simp only [header, List.cons.injEq, and_true] at hheader htail
  obtain ⟨rfl, rfl, rfl, rfl, rfl, rfl, rfl⟩ := hheader
  obtain ⟨rfl, rfl⟩ := List.append_inj htail (hp.trans hp'.symm)
  exact ⟨rfl, rfl⟩

theorem bytes_ne_nil (r : Record) : r.bytes ≠ [] := List.cons_ne_nil _ _

theorem flatMap_bytes_inj (h : rs.flatMap bytes = qs.flatMap bytes) : rs = qs := by
  induction rs generalizing qs with
  | nil =>
    cases qs with
    | nil => rfl
    | cons q qs => exact absurd (List.append_eq_nil_iff.mp h.symm).1 q.bytes_ne_nil
  | cons r rs ih =>
    cases qs with
    | nil => exact absurd (List.append_eq_nil_iff.mp h).1 r.bytes_ne_nil
    | cons q qs =>
      rw [List.flatMap_cons, List.flatMap_cons] at h
      obtain ⟨rfl, htail⟩ := eq_of_bytes_append h
      rw [ih htail]

/-! ### Reading -/

/-- A record is read as its command, and reading goes on behind it. -/
theorem unpack_bytes_append (r : Record) (rest : List UInt8) :
    unpack (r.bytes ++ rest) = (unpack rest).map (r.command :: ·) := by
  have hlong : ¬(r.payload ++ rest).length < word r.hi r.lo := by
    rw [List.length_append, r.counted]
    omega
  have hfilled : word r.hi r.lo ≠ 0 := by
    have := r.filled
    have := r.counted
    omega
  have htake : (r.payload ++ rest).take (word r.hi r.lo) = r.payload := List.take_left' r.counted
  have hdrop : (r.payload ++ rest).drop (word r.hi r.lo) = rest := List.drop_left' r.counted
  simp only [bytes, header, List.cons_append, List.nil_append, unpack]
  rw [if_neg hlong, if_neg hfilled, hdrop, htake]
  cases unpack rest with
  | ok cs => rfl
  | error e => rfl

theorem unpack_flatMap_append (rs : List Record) (rest : List UInt8) :
    unpack (rs.flatMap bytes ++ rest) = (unpack rest).map (rs.map command ++ ·) := by
  induction rs with
  | nil =>
    rw [List.flatMap_nil, List.nil_append]
    cases unpack rest with
    | ok cs => rfl
    | error e => rfl
  | cons r rs ih =>
    rw [List.flatMap_cons, List.append_assoc, unpack_bytes_append, ih]
    cases unpack rest with
    | ok cs => rfl
    | error e => rfl

theorem unpack_flatMap (rs : List Record) : unpack (rs.flatMap bytes) = .ok (rs.map command) := by
  have h := unpack_flatMap_append rs []
  have hnil : unpack [] = .ok [] := by rw [unpack]
  rw [List.append_nil, hnil] at h
  simpa [Except.map] using h

/-- What is read was made of records. -/
theorem exists_of_unpack {cs : List Command} (h : unpack a = .ok cs) :
    ∃ rs : List Record, a = rs.flatMap bytes ∧ cs = rs.map command := by
  fun_induction unpack a generalizing cs with
  | case1 =>
    cases h
    exact ⟨[], rfl, rfl⟩
  | case2 => cases h
  | case3 => cases h
  | case4 type last channel ack wait hi lo rest hlong hpos tail htail ih =>
    cases h
    obtain ⟨rs, hrs, rfl⟩ := ih htail
    have hlength : (rest.take (word hi lo)).length = word hi lo :=
      List.length_take_of_le (Nat.le_of_not_lt hlong)
    have hfilled : 1 ≤ (rest.take (word hi lo)).length := by
      rw [hlength]
      exact Nat.pos_of_ne_zero hpos
    refine ⟨⟨type, last, channel, ack, wait, hi, lo, rest.take (word hi lo), hlength, hfilled⟩ :: rs,
      ?_, rfl⟩
    · rw [List.flatMap_cons, ← hrs, bytes, List.append_assoc, List.take_append_drop]
      rfl
  | case5 => cases h
  | case6 => cases h

end Record

namespace CommandSet

variable {bytes b : List UInt8} {state : LinkState} {set : CommandSet}

theorem ofPacked_eq_ok : ofPacked bytes state = .ok set ↔
    ∃ rs : List Record, bytes = rs.flatMap Record.bytes ∧
      set = { commands := rs.map Record.command, state } := by
  constructor
  · intro h
    unfold ofPacked at h
    cases hunpack : unpack bytes with
    | ok cs =>
      rw [hunpack] at h
      cases h
      obtain ⟨rs, hrs, rfl⟩ := Record.exists_of_unpack hunpack
      exact ⟨rs, hrs, rfl⟩
    | error e =>
      rw [hunpack] at h
      cases h
  · rintro ⟨rs, rfl, rfl⟩
    rw [ofPacked, Record.unpack_flatMap]
    rfl

theorem ofPacked_flatMap_append (rs : List Record) (b : List UInt8) (state : LinkState) :
    ofPacked (rs.flatMap Record.bytes ++ b) state = (ofPacked b state).map fun back =>
      { commands := rs.map Record.command ++ back.commands, state } := by
  rw [ofPacked, ofPacked, Record.unpack_flatMap_append]
  cases unpack b with
  | ok cs => rfl
  | error e => rfl

/-- Packed command sets are parsed exactly: the accepted inputs are the concatenations of records, each
in one way only, and the set has the command of each record in order. So what stands behind a packed
set decides alone whether both are accepted, and with which error if not. -/
theorem ofPacked_records (state : LinkState) :
    (∀ bytes set, ofPacked bytes state = .ok set ↔
      ∃ rs : List Record, bytes = rs.flatMap Record.bytes ∧
        set = { commands := rs.map Record.command, state }) ∧
    (∀ rs qs : List Record, rs.flatMap Record.bytes = qs.flatMap Record.bytes → rs = qs) ∧
    ∀ a b front, ofPacked a state = .ok front →
      ofPacked (a ++ b) state = (ofPacked b state).map fun back =>
        { commands := front.commands ++ back.commands, state } := by
  refine ⟨fun bytes set => ofPacked_eq_ok, fun rs qs => Record.flatMap_bytes_inj,
    fun a b front hfront => ?_⟩
  obtain ⟨rs, rfl, rfl⟩ := ofPacked_eq_ok.mp hfront
  exact ofPacked_flatMap_append rs b state

/-- A set that breaks off in its second record is refused for what that record lacks. -/
example : ofPacked ([0x15, 1, 0, 0, 10, 0, 2, 0x53, 0x20] ++ [0x39, 1, 0, 0, 0, 0, 3, 0xF0, 0x5A])
    .lowPower = .error (.truncatedPayload 3 2) := by
  simp [ofPacked, unpack, word, Except.map]

end CommandSet

end OledPanel.Dsi
