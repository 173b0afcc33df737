import Enlil.Lib.Run

/-! The tables of System V objects of `kernel/sysv_ipc.c`, and the identifiers that callers know the objects by. -/

namespace Enlil.Sysv

/-- The error codes that the calls return. -/
inductive Errno where
  | enoent
  | eintr
  | eagain
  | enomem
  | eexist
  | einval
  | enospc
  | erange
  | eidrm
  | etimedout
  deriving DecidableEq, Repr

def ipcPrivate : UInt32 := 0
def ipcCreat : UInt32 := 0o1000
def ipcExcl : UInt32 := 0o2000
def ipcNowait : UInt32 := 0o4000
def ipcRmid : Int := 0

/-- A slot of a table, with what the two kinds of objects have in common. -/
structure Slot (α : Type) where
  inUse : Bool
  markedDelete : Bool
  seq : UInt16
  key : UInt32
  body : α

/-- The slots of a table. -/
abbrev Slots (α : Type) := Nat → Slot α

section

variable {α : Type}

/-- The identifier of the object in a slot. -/
def idFromSlot (slot : Nat) (seq : UInt16) : Int32 :=
  UInt32.toInt32 ((seq.toUInt32 + 1) <<< 16 ||| ((UInt32.ofNat slot + 1) &&& 0xFFFF))

/-- The slot that an identifier resolves to. -/
def slotFromId (max : Nat) (slots : Slots α) (id : Int32) : Option Nat :=
  let slot := id.toUInt32 &&& 0xFFFF
  let seq := (id.toUInt32 >>> 16) &&& 0xFFFF
  if id.toInt ≤ 0 then none
  else if slot = 0 ∨ seq = 0 then none
  else if max ≤ slot.toNat - 1 then none
  else if !(slots (slot.toNat - 1)).inUse || (slots (slot.toNat - 1)).seq != (seq - 1).toUInt16 then none
  else some (slot.toNat - 1)

/-- The object with a key that is not marked to be deleted. -/
def findByKey (max : Nat) (slots : Slots α) (key : UInt32) : Option Nat :=
  (List.range max).find? fun i => (slots i).inUse && !(slots i).markedDelete && (slots i).key == key

/-- The slot that a new object takes. -/
def freeSlot (max : Nat) (slots : Slots α) : Option Nat := (List.range max).find? fun i => !(slots i).inUse

/-- The sequence number after that of the slot. -/
def nextSeq (seq : UInt16) : UInt16 := if seq + 1 = 0 then 1 else seq + 1

/-- The key of a call: an object that has it, none if a new object is to be made, or an error. -/
def lookup (max : Nat) (slots : Slots α) (key flags : UInt32) (fits : α → Bool) : Except Errno (Option Nat) :=
  if key = ipcPrivate then .ok none
  else
    match findByKey max slots key with
    | some idx =>
      if flags &&& (ipcCreat ||| ipcExcl) = ipcCreat ||| ipcExcl then .error .eexist
      else if !fits (slots idx).body then .error .einval
      else .ok (some idx)
    | none => if flags &&& ipcCreat = 0 then .error .enoent else .ok none

/-- Makes a new object. -/
def create (max : Nat) (slots : Slots α) (key : UInt32) (valid : Bool) (body : Except Errno α) :
    Except Errno (Slots α × Nat) :=
  if !valid then .error .einval
  else
    match freeSlot max slots with
    | none => .error .enospc
    | some slot =>
      match body with
      | .error error => .error error
      | .ok body => .ok (Function.update slots slot ⟨true, false, nextSeq (slots slot).seq, key, body⟩, slot)

/-- Finds or makes the object of a key, and its slot. -/
def getSlot (max : Nat) (slots : Slots α) (key flags : UInt32) (fits : α → Bool) (valid : Bool)
    (body : Except Errno α) : Except Errno (Slots α × Nat) :=
  match lookup max slots key flags fits with
  | .error error => .error error
  | .ok (some idx) => .ok (slots, idx)
  | .ok none => create max slots key valid body

/-- The slot that a call makes a new object in, if it makes one. -/
def makes (max : Nat) (slots : Slots α) (key flags : UInt32) (fits : α → Bool) (valid : Bool) (body : Except Errno α) :
    Option Nat :=
  match lookup max slots key flags fits, body with
  | .ok none, .ok _ => if valid then freeSlot max slots else none
  | _, _ => none

/-- A slot of a table before its first object, and after it was cleared. -/
def vacant [Inhabited α] : Slot α := ⟨false, false, 0, 0, default⟩

/-- Frees the slot of an object that is marked to be deleted once nothing uses it any more. -/
def tryFree [Inhabited α] (max : Nat) (busy : α → Bool) (slots : Slots α) (slot : Nat) : Slots α :=
  if max ≤ slot then slots
  else if !(slots slot).inUse || !(slots slot).markedDelete || busy (slots slot).body then slots
  else Function.update slots slot vacant

end

section

variable {α : Type} {max slot : Nat} {slots : Slots α} {id : Int32}

theorem idFromSlot_toNat {seq : UInt16} (range : slot < 0xFFFF) (early : seq.toNat < 0xFFFF) :
    (idFromSlot slot seq).toUInt32.toNat = (seq.toNat + 1) * 0x10000 + (slot + 1) := by
  have high : (seq.toUInt32 + 1).toNat = seq.toNat + 1 := by
    rw [UInt32.toNat_add]
    simp
    omega
  have low : ((UInt32.ofNat slot + 1) &&& 0xFFFF).toNat = slot + 1 := by
    have next : (UInt32.ofNat slot + 1).toNat = slot + 1 := by
      rw [UInt32.toNat_add, UInt32.toNat_ofNat_of_lt' (show slot < 2 ^ 32 by omega)]
      show (slot + 1) % 2 ^ 32 = _
      omega
    rw [UInt32.toNat_and, next]
    show slot + 1 &&& 2 ^ 16 - 1 = _
    rw [Nat.and_two_pow_sub_one_eq_mod]
    omega
  have shifted : ((seq.toUInt32 + 1) <<< 16).toNat = (seq.toNat + 1) <<< 16 := by
    rw [UInt32.toNat_shiftLeft, high]
    show (seq.toNat + 1) <<< 16 % 2 ^ 32 = _
    rw [Nat.shiftLeft_eq]
    omega
  rw [idFromSlot, UInt32.toUInt32_toInt32, UInt32.toNat_or, shifted, low,
    ← Nat.shiftLeft_add_eq_or_of_lt (by omega), Nat.shiftLeft_eq]

theorem slotFromId_some_iff :
    slotFromId max slots id = some slot ↔
      0 < id.toInt ∧ id.toUInt32.toNat % 0x10000 = slot + 1 ∧ slot < max ∧ (slots slot).inUse = true ∧
        id.toUInt32.toNat / 0x10000 = (slots slot).seq.toNat + 1 := by
  have low : (id.toUInt32 &&& 0xFFFF).toNat = id.toUInt32.toNat % 0x10000 := by
    rw [UInt32.toNat_and]
    exact Nat.and_two_pow_sub_one_eq_mod _ 16
  have high : ((id.toUInt32 >>> 16) &&& 0xFFFF).toNat = id.toUInt32.toNat / 0x10000 := by
    rw [UInt32.toNat_and, UInt32.toNat_shiftRight]
    show _ >>> 16 &&& 2 ^ 16 - 1 = _
    rw [Nat.and_two_pow_sub_one_eq_mod, Nat.shiftRight_eq_div_pow]
    have := id.toUInt32.toNat_lt
    omega
  have small : id.toUInt32.toNat / 0x10000 < 0x10000 := by
    have := id.toUInt32.toNat_lt
    omega
  have zeros : (id.toUInt32 &&& 0xFFFF = 0 ∨ id.toUInt32 >>> 16 &&& 0xFFFF = 0) ↔
      id.toUInt32.toNat % 0x10000 = 0 ∨ id.toUInt32.toNat / 0x10000 = 0 := by
    rw [← UInt32.toNat_inj, ← UInt32.toNat_inj, low, high]
    rfl
  have seqs (seq : UInt16) (nonzero : id.toUInt32.toNat / 0x10000 ≠ 0) :
      seq = ((id.toUInt32 >>> 16 &&& 0xFFFF) - 1).toUInt16 ↔ id.toUInt32.toNat / 0x10000 = seq.toNat + 1 := by
    have less : (1 : UInt32) ≤ id.toUInt32 >>> 16 &&& 0xFFFF := by
      rw [UInt32.le_iff_toNat_le, high]
      exact Nat.one_le_iff_ne_zero.mpr nonzero
    rw [← UInt16.toNat_inj, UInt32.toNat_toUInt16, UInt32.toNat_sub_of_le _ _ less, high]
    show _ = (_ - 1) % _ ↔ _
    omega
  unfold slotFromId
  simp only [zeros, low]
  split
  · simp
    omega
  split
  · simp
    omega
  split
  · simp
    omega
  rename_i positive nonzero inside
  push Not at nonzero
  split
  · rename_i stale
    refine ⟨nofun, fun ⟨_, mod, _, used, same⟩ => ?_⟩
    rw [show id.toUInt32.toNat % 0x10000 - 1 = slot by omega, used] at stale
    simp only [Bool.not_true, Bool.false_or, bne_iff_ne, ne_eq] at stale
    exact absurd ((seqs _ nonzero.2).mpr same) stale
  · rename_i live
    simp only [Bool.or_eq_true, Bool.not_eq_true', bne_iff_ne, ne_eq, not_or, Bool.not_eq_false, not_not] at live
    refine ⟨fun same => ?_, fun ⟨_, mod, _⟩ => ?_⟩
    · cases same
      exact ⟨by omega, by omega, by omega, live.1, (seqs _ nonzero.2).mp live.2⟩
    · rw [show id.toUInt32.toNat % 0x10000 - 1 = slot by omega]

theorem slotFromId_idFromSlot (inside : slot < max) (small : max ≤ 0xFFFF)
    (used : (slots slot).inUse = true) (early : (slots slot).seq.toNat < 0x7FFF) :
    slotFromId max slots (idFromSlot slot (slots slot).seq) = some slot := by
  have made := @idFromSlot_toNat slot (slots slot).seq (by omega) (by omega)
  have positive : (idFromSlot slot (slots slot).seq).toInt = (idFromSlot slot (slots slot).seq).toUInt32.toNat :=
    BitVec.toInt_eq_toNat_of_lt (show 2 * (idFromSlot slot (slots slot).seq).toUInt32.toNat < 2 ^ 32 by omega)
  exact slotFromId_some_iff.mpr ⟨by omega, by omega, inside, used, by omega⟩

theorem idFromSlot_slotFromId (_ : max ≤ 0xFFFF)
    (found : slotFromId max slots id = some slot) : idFromSlot slot (slots slot).seq = id := by
  obtain ⟨positive, low, inside, used, high⟩ := slotFromId_some_iff.mp found
  have made := @idFromSlot_toNat slot (slots slot).seq (by omega) (by have := id.toUInt32.toNat_lt; omega)
  have same : (idFromSlot slot (slots slot).seq).toUInt32.toNat = id.toUInt32.toNat := by omega
  exact Int32.toBitVec_inj.mp (BitVec.eq_of_toNat_eq same)
theorem freeSlot_spec (found : freeSlot max slots = some slot) : slot < max ∧ (slots slot).inUse = false := by
  have member := List.mem_of_find?_eq_some found
  have free := List.find?_some found
  exact ⟨List.mem_range.mp member, by simpa using free⟩

theorem findByKey_spec {key : UInt32} (found : findByKey max slots key = some slot) :
    slot < max ∧ (slots slot).inUse = true := by
  have member := List.mem_of_find?_eq_some found
  have used := List.find?_some found
  simp only [Bool.and_eq_true] at used
  exact ⟨List.mem_range.mp member, used.1.1⟩

theorem lookup_spec {key flags : UInt32} {fits : α → Bool} (found : lookup max slots key flags fits = .ok (some slot)) :
    slot < max ∧ (slots slot).inUse = true := by
  unfold lookup at found
  split at found
  · cases found
  split at found
  · rename_i idx keyed
    split at found
    · cases found
    split at found
    · cases found
    cases found
    exact findByKey_spec keyed
  · split at found
    · cases found
    · cases found

theorem getSlot_spec {slots' : Slots α} {key flags : UInt32} {fits : α → Bool} {valid : Bool} {body : Except Errno α}
    (got : getSlot max slots key flags fits valid body = .ok (slots', slot)) :
    (slots' = slots ∧ slot < max ∧ (slots slot).inUse = true) ∨
      (makes max slots key flags fits valid body = some slot ∧ freeSlot max slots = some slot ∧
        ∃ made, slots' = Function.update slots slot ⟨true, false, nextSeq (slots slot).seq, key, made⟩) := by
  unfold makes
  unfold getSlot at got
  split at got
  · cases got
  · rename_i idx found
    cases got
    exact .inl ⟨rfl, lookup_spec found⟩
  · rename_i missing
    unfold create at got
    split at got
    · cases got
    rename_i sizes
    split at got
    · cases got
    rename_i free found
    split at got
    · cases got
    rename_i made
    cases got
    refine .inr ⟨?_, found, made, rfl⟩
    rw [missing]
    dsimp only
    rw [if_pos (by simpa using sizes), found]

end

end Enlil.Sysv
