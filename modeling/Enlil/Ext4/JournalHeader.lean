import Enlil.Ext4.JournalWrites

/-! What recovery reads back from a journal header that a commit wrote. -/

namespace Enlil.Ext4

open Machine

theorem packEntries_outside {block : Bytes} {pos p : Nat} (txn : List TxnEntry)
    (outside : p < pos ∨ pos + txn.length * journalEntrySize ≤ p) :
    packEntries block pos txn p = block p := by
  induction txn generalizing block pos with
  | nil => rfl
  | cons entry rest ih =>
    simp only [List.length_cons, journalEntrySize] at outside
    rw [packEntries, ih (by simp only [journalEntrySize]; omega), writeLe_outside (by omega),
      writeLe_outside (by omega), writeLe_outside (by omega)]

theorem readLe_packEntries_before {block : Bytes} {pos place width : Nat} (txn : List TxnEntry)
    (before : place + width ≤ pos) :
    readLe (packEntries block pos txn) place width = readLe block place width :=
  readLe_congr fun _ _ high => packEntries_outside txn (by omega)

theorem packEntries_entry {block : Bytes} {pos i : Nat} {txn : List TxnEntry} {entry : TxnEntry}
    (found : txn[i]? = some entry) :
    readLe (packEntries block pos txn) (pos + i * journalEntrySize) 8 = entry.targetBlock % 2 ^ 64 ∧
      readLe (packEntries block pos txn) (pos + i * journalEntrySize + 8) 4 = entry.dataCrc.toNat := by
  induction txn generalizing block pos i with
  | nil => simp at found
  | cons first rest ih =>
    cases i with
    | zero =>
      obtain rfl : first = entry := by simpa using found
      have crc := first.dataCrc.toNat_lt
      simp only [packEntries, Nat.zero_mul, Nat.add_zero, journalEntrySize]
      constructor
      · rw [readLe_packEntries_before rest (by omega), readLe_writeLe_apart (by omega),
          readLe_writeLe_apart (by omega), readLe_writeLe (Nat.le_refl 8)]
        rfl
      · rw [readLe_packEntries_before rest (by omega), readLe_writeLe_apart (by omega),
          readLe_writeLe (Nat.le_refl 4), Nat.mod_eq_of_lt (by omega)]
    | succ i =>
      rw [packEntries, Nat.add_mul, Nat.one_mul, Nat.add_comm (i * journalEntrySize), ← Nat.add_assoc]
      exact ih (by simpa using found)

section

variable {v : Volume} {txn : List TxnEntry} {state sequence : Nat}

theorem headerFields_crc_zero {p : Nat} (low : 24 ≤ p) (high : p < 28) :
    headerFields v txn state sequence p = 0 := by
  simp only [headerFields]
  rw [packEntries_outside txn (by simp only [journalHeaderSize]; omega), writeLe_outside (by omega),
    writeLe_outside (by omega), writeLe_outside (by omega), writeLe_outside (by omega),
    writeLe_outside (by omega), writeLe_outside (by omega)]

theorem header_without_crc :
    writeLe (journalPackHeader v txn state sequence) journalHeaderCrcOff 4 0 =
      headerFields v txn state sequence := by
  funext p
  by_cases inside : 24 ≤ p ∧ p < 28
  · rw [headerFields_crc_zero inside.1 inside.2, writeLe, if_pos (by simpa [journalHeaderCrcOff] using inside)]
    simp
  · have outside : p < journalHeaderCrcOff ∨ journalHeaderCrcOff + 4 ≤ p := by
      simp only [journalHeaderCrcOff]
      omega
    rw [writeLe_outside outside, journalPackHeader, writeLe_outside outside]

theorem readLe_header {pos width : Nat} (apart : pos + width ≤ 24 ∨ 28 ≤ pos) :
    readLe (journalPackHeader v txn state sequence) pos width =
      readLe (headerFields v txn state sequence) pos width :=
  readLe_writeLe_apart (by simp only [journalHeaderCrcOff]; omega)

theorem headerCrcOk_pack : headerCrcOk v (journalPackHeader v txn state sequence) = true := by
  have crc := (crc32cRaw 0xFFFFFFFF (headerFields v txn state sequence) v.blockSize).toNat_lt
  simp only [headerCrcOk, header_without_crc, decide_eq_true_eq]
  rw [journalPackHeader, readLe_writeLe (Nat.le_refl 4), Nat.mod_eq_of_lt (by omega)]

theorem header_fields (v : Volume) (txn : List TxnEntry) (state sequence : Nat)
    (small : txn.length ≤ journalMaxTxBlocks) (states : state < 2 ^ 32) :
    headerKnown v (journalPackHeader v txn state sequence) = true ∧
      readLe (journalPackHeader v txn state sequence) 8 4 = state ∧
      readLe (journalPackHeader v txn state sequence) 12 4 = txn.length := by
  have blockSize : v.blockSize < 2 ^ 32 := by rcases v.blockSizes with size | size | size <;> omega
  have count : txn.length < 2 ^ 32 := Nat.lt_of_le_of_lt small (by decide)
  -- Every field is read from the write that made it, past the ones after it.
  have field : ∀ {pos value} {block : Bytes}, value < 2 ^ 32 → readLe (writeLe block pos 4 value) pos 4 = value := by
    intro pos value block bound
    rw [readLe_writeLe (Nat.le_refl 4), Nat.mod_eq_of_lt (by omega)]
  have magic : readLe (journalPackHeader v txn state sequence) 0 4 = journalMagic := by
    simp only [readLe_header (Or.inl (by omega : 0 + 4 ≤ 24)), headerFields]
    rw [readLe_packEntries_before txn (by decide), readLe_writeLe_apart (by omega),
      readLe_writeLe_apart (by omega), readLe_writeLe_apart (by omega), readLe_writeLe_apart (by omega),
      readLe_writeLe_apart (by omega), field (by decide)]
  have version : readLe (journalPackHeader v txn state sequence) 4 4 = journalVersion := by
    simp only [readLe_header (Or.inl (by omega : 4 + 4 ≤ 24)), headerFields]
    rw [readLe_packEntries_before txn (by decide), readLe_writeLe_apart (by omega),
      readLe_writeLe_apart (by omega), readLe_writeLe_apart (by omega), readLe_writeLe_apart (by omega),
      field (by decide)]
  have stateField : readLe (journalPackHeader v txn state sequence) 8 4 = state := by
    simp only [readLe_header (Or.inl (by omega : 8 + 4 ≤ 24)), headerFields]
    rw [readLe_packEntries_before txn (by decide), readLe_writeLe_apart (by omega),
      readLe_writeLe_apart (by omega), readLe_writeLe_apart (by omega), field states]
  have countField : readLe (journalPackHeader v txn state sequence) 12 4 = txn.length := by
    simp only [readLe_header (Or.inl (by omega : 12 + 4 ≤ 24)), headerFields]
    rw [readLe_packEntries_before txn (by decide), readLe_writeLe_apart (by omega),
      readLe_writeLe_apart (by omega), field count]
  have sizeField : readLe (journalPackHeader v txn state sequence) 16 4 = v.blockSize := by
    simp only [readLe_header (Or.inl (by omega : 16 + 4 ≤ 24)), headerFields]
    rw [readLe_packEntries_before txn (by decide), readLe_writeLe_apart (by omega), field blockSize]
  exact ⟨by simp [headerKnown, magic, version, sizeField, countField, small], stateField, countField⟩

theorem header_entry (v : Volume) (state sequence : Nat) {i : Nat} {entry : TxnEntry}
    (found : txn[i]? = some entry) :
    headerTarget (journalPackHeader v txn state sequence) i = entry.targetBlock % 2 ^ 64 ∧
      headerDataCrc (journalPackHeader v txn state sequence) i = entry.dataCrc.toNat := by
  simp only [headerTarget, headerDataCrc]
  rw [readLe_header (Or.inr (by simp only [journalHeaderSize]; omega)),
    readLe_header (Or.inr (by simp only [journalHeaderSize]; omega))]
  exact packEntries_entry found

end

theorem sector_mod (v : Volume) (blockNo : Nat) : v.sector (blockNo % 2 ^ 64) = v.sector blockNo := by
  rw [Volume.sector, Volume.sector, Nat.mod_mul_mod]

end Enlil.Ext4
