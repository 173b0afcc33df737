import Enlil.Initrd.Archive

/-! What the parser makes of any bytes, and of the bytes of an archive. -/

namespace Enlil.Initrd

open Newc (slice slice_append slice_slice padded)
open Vfs (isDir)

theorem initrdHexValue_eq (byte : UInt8) : initrdHexValue byte = (Newc.digit byte).map UInt32.ofNat := by
  unfold initrdHexValue Newc.digit
  split_ifs with decimal lower upper
  · rfl
  · simp only [Option.map_some, Option.some.injEq]
    congr 1
    omega
  · simp only [Option.map_some, Option.some.injEq]
    congr 1
    omega
  · rfl

theorem shifted_digit {value nibble : Nat} (room : value < 2 ^ 28) (small : nibble < 16) :
    (UInt32.ofNat value <<< 4) ||| UInt32.ofNat nibble = UInt32.ofNat (16 * value + nibble) := by
  apply UInt32.toNat_inj.mp
  have joined : value <<< 4 ||| nibble = 16 * value + nibble := by
    rw [← Nat.shiftLeft_add_eq_or_of_lt (by omega), Nat.shiftLeft_eq]
    omega
  have shifted : (UInt32.ofNat value <<< 4).toNat = value <<< 4 := by
    have below : value <<< 4 < 2 ^ 32 := by
      rw [Nat.shiftLeft_eq]
      omega
    have whole : value % 2 ^ 32 = value := Nat.mod_eq_of_lt (by omega)
    rw [UInt32.toNat_shiftLeft, UInt32.toNat_ofNat', whole]
    exact Nat.mod_eq_of_lt below
  rw [UInt32.toNat_or, shifted, UInt32.toNat_ofNat', UInt32.toNat_ofNat', Nat.mod_eq_of_lt (by omega : nibble < 2 ^ 32),
    joined, Nat.mod_eq_of_lt (by omega)]

theorem initrdParseHex_eq {digits : List UInt8} (short : digits.length ≤ 8) :
    initrdParseHex digits = (Newc.number digits).map UInt32.ofNat ∧
      ∀ value, Newc.number digits = some value → value < 16 ^ digits.length := by
  induction digits using List.reverseRecOn with
  | nil => exact ⟨rfl, fun value read => by cases read; decide⟩
  | append_singleton digits byte ih =>
    rw [List.length_append, List.length_singleton] at short ⊢
    obtain ⟨same, small⟩ := ih (by omega)
    unfold initrdParseHex at same ⊢
    unfold Newc.number at same small ⊢
    rw [List.foldlM_append, List.foldlM_append, same]
    cases read : List.foldlM (fun value byte => (Newc.digit byte).map (16 * value + ·)) 0 digits with
    | none => exact ⟨rfl, fun value read => by cases read⟩
    | some value =>
      have below := small value read
      have room : 16 ^ digits.length ≤ 16 ^ 7 := Nat.pow_le_pow_right (by omega) (by omega)
      cases last : Newc.digit byte with
      | none => simp [initrdHexValue_eq, last]
      | some nibble =>
        have small := Newc.digit_lt last
        refine ⟨?_, fun value' read => ?_⟩
        · simp only [initrdHexValue_eq, last, List.foldlM_cons, List.foldlM_nil, Option.map_some, Option.bind_eq_bind,
            Option.bind_some, Option.pure_def, Option.some.injEq]
          exact shifted_digit (by omega) small
        · simp only [last, List.foldlM_cons, List.foldlM_nil, Option.map_some, Option.bind_eq_bind,
            Option.bind_some, Option.pure_def, Option.some.injEq] at read
          rw [pow_succ]
          omega

theorem initrdAlign4_toNat {value : UInt32} (room : value.toNat + 3 < 2 ^ 32) :
    (initrdAlign4 value).toNat = padded value.toNat := by
  have added : (value + 3).toNat = value.toNat + 3 := by
    rw [UInt32.toNat_add]
    exact Nat.mod_eq_of_lt room
  have masked : ∀ word : UInt32, (word &&& ~~~3).toNat = word.toNat / 4 * 4 := by
    intro word
    have mask : (~~~3 : UInt32) = 0xFFFFFFFC := by decide
    rw [mask, UInt32.toNat_and]
    have bits : word.toNat &&& 0xFFFFFFFC = (word.toNat >>> 2 &&& (2 ^ 30 - 1)) <<< 2 := by
      apply Nat.eq_of_testBit_eq
      intro i
      rw [Nat.testBit_and, Nat.testBit_shiftLeft, Nat.testBit_and, Nat.testBit_shiftRight, Nat.testBit_two_pow_sub_one]
      have constant : (0xFFFFFFFC : Nat) = (2 ^ 30 - 1) <<< 2 := by decide
      rw [constant, Nat.testBit_shiftLeft, Nat.testBit_two_pow_sub_one]
      by_cases high : 2 ≤ i
      · simp [high, show 2 + (i - 2) = i by omega]
      · simp [high]
    show word.toNat &&& 0xFFFFFFFC = _
    have small := word.toNat_lt
    rw [bits, Nat.and_two_pow_sub_one_eq_mod, Nat.shiftRight_eq_div_pow, Nat.shiftLeft_eq,
      Nat.mod_eq_of_lt (by omega)]
  rw [initrdAlign4, masked, added, padded]

/-- The parent field of a node: the root, or a node before it that is a directory. -/
def ParentBefore (entries : List Entry) (before : Nat) (parent : UInt16) : Prop :=
  parent = initrdParentRoot ∨
    ∃ directory, parent.toNat < before ∧ entries[parent.toNat]? = some directory ∧ isDir directory.mode = true

/-- The parent of a name: the root, or the first node before it with the name of its directory. -/
def Linked (blob : List UInt8) (before : List Entry) (name : List UInt8) (parent : UInt16) : Prop :=
  (slash ∉ name → parent = initrdParentRoot) ∧
    ∀ path base, name = path ++ slash :: base → slash ∉ base →
      ∃ index, before.findIdx? (fun entry => cString blob entry.name == path) = some index ∧ parent = UInt16.ofNat index

/-- What a table is to the archive it is read from. -/
structure Sound (blob : List UInt8) (entries : List Entry) : Prop where
  few : entries.length ≤ initrdMaxEntries
  nameInside : ∀ entry ∈ entries, entry.name + entry.nameLen.toNat < blob.length ∧
    entry.name + (cString blob entry.name).length < blob.length
  dataInside : ∀ entry ∈ entries, entry.data + entry.size.toNat ≤ blob.length
  named : ∀ entry ∈ entries, entry.Named blob
  parents : ∀ index entry, entries[index]? = some entry → ParentBefore entries index entry.parent
  linked : ∀ index entry, entries[index]? = some entry →
    Linked blob (entries.take index) (cString blob entry.name) entry.parent

theorem Sound.nil (blob : List UInt8) : Sound blob [] :=
  ⟨by simp, by simp, by simp, by simp, by simp, by simp⟩

theorem slice_length {blob : List UInt8} {start count : Nat} (inside : start + count ≤ blob.length) :
    (slice blob start count).length = count := by
  simp only [slice, List.length_take, List.length_drop]
  omega

theorem initrdValidateName_text {name : List UInt8} (valid : initrdValidateName name = true) : 0 ∉ name := by
  unfold initrdValidateName at valid
  simp only [Bool.and_eq_true, Bool.not_eq_true', List.contains_eq_mem, decide_eq_false_iff_not] at valid
  exact valid.2.1

theorem initrdParentFromName_root {blob : List UInt8} {entries : List Entry} {name : List UInt8}
    (found : initrdParentFromName blob entries name = .root) : Linked blob entries name initrdParentRoot := by
  unfold initrdParentFromName at found
  split at found
  · rename_i none
    refine ⟨fun _ => rfl, fun path base equal flat => ?_⟩
    rw [equal, lastSlash_split flat] at none
    cases none
  · cases found
  · split at found <;> cases found

theorem initrdParentFromName_entry {blob : List UInt8} {entries : List Entry} {name : List UInt8} {index : Nat}
    (named : ∀ entry ∈ entries, entry.Named blob) (found : initrdParentFromName blob entries name = .entry index) :
    index < entries.length ∧ Linked blob entries name (UInt16.ofNat index) := by
  unfold initrdParentFromName at found
  split at found
  · cases found
  · cases found
  · rename_i place last
    split at found
    · cases found
    · rename_i index' search
      cases found
      rw [initrdFindEntryExact_eq named] at search
      refine ⟨(List.findIdx?_eq_some_iff_getElem.mp search).1, fun flat => ?_, fun path base equal flat => ⟨index, ?_, rfl⟩⟩
      · rw [lastSlash_flat flat] at last
        cases last
      · rw [equal, lastSlash_split flat, Option.some.injEq] at last
        rw [equal, ← last, List.take_left] at search
        exact search

/-- A record that is taken: what was checked about it. -/
structure Taken (blob : List UInt8) (entries : List Entry) (p : Nat) (entry : Entry) : Prop where
  room : entries.length < initrdMaxEntries
  name : entry.name + (cString blob entry.name).length < blob.length
  nameLen : entry.Named blob
  data : entry.data + entry.size.toNat ≤ blob.length
  parent : ParentBefore entries entries.length entry.parent
  linked : Linked blob entries (cString blob entry.name) entry.parent

theorem initrdParseRecord_taken {blob : List UInt8} {entries : List Entry} {p next : Nat} {entry : Entry}
    (named : ∀ entry ∈ entries, entry.Named blob)
    (read : initrdParseRecord blob entries p = .ok (some (entry, next))) : Taken blob entries p entry := by
  unfold initrdParseRecord at read
  rcases ite_eq_iff.mp read with ⟨_, read⟩ | ⟨_, read⟩
  · cases read
  split at read
  · rename_i mode filesize namesize _ _ _
    rcases ite_eq_iff.mp read with ⟨_, read⟩ | ⟨sized, read⟩
    · cases read
    rcases ite_eq_iff.mp read with ⟨_, read⟩ | ⟨ended, read⟩
    · cases read
    rcases ite_eq_iff.mp read with ⟨_, read⟩ | ⟨fits, read⟩
    · cases read
    rcases ite_eq_iff.mp read with ⟨_, read⟩ | ⟨_, read⟩
    · cases read
    rcases ite_eq_iff.mp read with ⟨_, read⟩ | ⟨room, read⟩
    · cases read
    rcases ite_eq_iff.mp read with ⟨_, read⟩ | ⟨valid, read⟩
    · cases read
    replace valid := not_not.mp valid
    rw [not_or] at sized
    obtain ⟨some_, inside⟩ := sized
    have size : 1 ≤ namesize.toNat := by
      by_contra zero
      exact some_ (UInt32.toNat_inj.mp (by rw [show namesize.toNat = 0 by omega]; rfl))
    have text := initrdValidateName_text valid
    have terminated : blob[p + cpioHeaderLen.toNat + (namesize.toNat - 1)]? = some 0 := by
      rw [← not_not.mp ended]
      congr 1
      omega
    have string := cString_eq text terminated
    have length : (slice blob (p + cpioHeaderLen.toNat) (namesize.toNat - 1)).length = namesize.toNat - 1 :=
      slice_length (by omega)
    have taken : ∀ parent, ParentBefore entries entries.length parent →
        Linked blob entries (slice blob (p + cpioHeaderLen.toNat) (namesize.toNat - 1)) parent → Taken blob entries p
        { name := p + cpioHeaderLen.toNat, data := p + (initrdAlign4 (cpioHeaderLen + namesize)).toNat, mode,
          size := filesize, parent, nameLen := UInt16.ofNat (namesize.toNat - 1), valid := true } := by
      intro parent before linked
      rw [← string] at linked
      refine ⟨by omega, ?_, ⟨rfl, ?_⟩, Nat.le_of_not_lt fits, before, linked⟩
      · show p + cpioHeaderLen.toNat + _ < _
        rw [string, length]
        omega
      · show UInt16.ofNat (namesize.toNat - 1) = UInt16.ofNat (cString blob (p + cpioHeaderLen.toNat)).length
        rw [string, length]
    split at read
    · cases read
    · rename_i found
      cases read
      exact taken _ (.inl rfl) (initrdParentFromName_root found)
    · rename_i index found
      split at read
      · rename_i isDirectory
        cases read
        obtain ⟨below, linked⟩ := initrdParentFromName_entry named found
        have kept : (UInt16.ofNat index).toNat = index := by
          rw [UInt16.toNat_ofNat']
          exact Nat.mod_eq_of_lt (by unfold initrdMaxEntries at room; omega)
        obtain ⟨directory, held, dir⟩ := Option.map_eq_some_iff.mp isDirectory
        exact taken _ (.inr ⟨directory, by rw [kept]; exact below, by rw [kept]; exact held, dir⟩) linked
      · cases read
  · cases read

theorem Sound.add {blob : List UInt8} {entries : List Entry} {p : Nat} {entry : Entry} (sound : Sound blob entries)
    (taken : Taken blob entries p entry) : Sound blob (entries ++ [entry]) := by
  have split : ∀ {Holds : Entry → Prop}, (∀ other ∈ entries, Holds other) → Holds entry →
      ∀ other ∈ entries ++ [entry], Holds other := by
    intro Holds old new other member
    rcases List.mem_append.mp member with member | member
    · exact old other member
    · rw [List.mem_singleton.mp member]
      exact new
  refine ⟨?_, split sound.nameInside ⟨?_, taken.name⟩, split sound.dataInside taken.data,
    split sound.named taken.nameLen, ?_, ?_⟩
  · have := taken.room
    rw [List.length_append, List.length_singleton]
    omega
  · -- The field holds the length of the name, or less of it.
    have inside := taken.name
    have wrapped := Nat.mod_le (cString blob entry.name).length (2 ^ 16)
    rw [taken.nameLen.2, UInt16.toNat_ofNat']
    omega
  · -- Parents found before are found in the longer table.
    have longer : ∀ {before : Nat} {parent : UInt16}, ParentBefore entries before parent →
        ParentBefore (entries ++ [entry]) before parent := by
      rintro before parent (root | ⟨directory, below, held, dir⟩)
      · exact .inl root
      · have inside := (List.getElem?_eq_some_iff.mp held).1
        exact .inr ⟨directory, below, by rw [List.getElem?_append_left inside]; exact held, dir⟩
    intro index other held
    by_cases old : index < entries.length
    · rw [List.getElem?_append_left old] at held
      exact longer (sound.parents index other held)
    · rw [List.getElem?_append_right (by omega)] at held
      obtain ⟨here, same⟩ := List.getElem?_eq_some_iff.mp held
      rw [List.length_singleton] at here
      have last : index = entries.length := by omega
      subst last
      simp only [Nat.sub_self, List.getElem_cons_zero] at same
      exact longer (same ▸ taken.parent)
  · intro index other held
    by_cases old : index < entries.length
    · rw [List.getElem?_append_left old] at held
      rw [List.take_append_of_le_length (by omega)]
      exact sound.linked index other held
    · rw [List.getElem?_append_right (by omega)] at held
      obtain ⟨here, same⟩ := List.getElem?_eq_some_iff.mp held
      rw [List.length_singleton] at here
      have last : index = entries.length := by omega
      subst last
      simp only [Nat.sub_self, List.getElem_cons_zero] at same
      rw [List.take_left]
      exact same ▸ taken.linked

theorem initrdParseLoop_sound {blob : List UInt8} {turns p : Nat} {entries table : List Entry}
    {refusal : Option Refusal} (sound : Sound blob entries)
    (read : initrdParseLoop blob turns p entries = some (table, refusal)) : Sound blob table := by
  induction turns generalizing p entries with
  | zero => cases read
  | succ turns ih =>
    unfold initrdParseLoop at read
    split at read
    · split at read
      · cases read
        exact sound
      · cases read
        exact sound
      · rename_i entry next record
        exact ih (sound.add (initrdParseRecord_taken sound.named record)) read
    · cases read
      exact sound

theorem initrdParseLoop_ends {blob : List UInt8} {turns p : Nat} {entries : List Entry}
    (sound : Sound blob entries) (enough : initrdMaxEntries < entries.length + turns) :
    ∃ outcome, initrdParseLoop blob turns p entries = some outcome := by
  induction turns generalizing p entries with
  | zero =>
    have := sound.few
    omega
  | succ turns ih =>
    unfold initrdParseLoop
    split
    · split
      · exact ⟨_, rfl⟩
      · exact ⟨_, rfl⟩
      · rename_i entry next record
        refine ih (sound.add (initrdParseRecord_taken sound.named record)) ?_
        rw [List.length_append, List.length_singleton]
        omega
    · exact ⟨_, rfl⟩

theorem initrdParseLoop_more {blob : List UInt8} {turns more p : Nat} {entries : List Entry}
    {outcome : List Entry × Option Refusal} (read : initrdParseLoop blob turns p entries = some outcome) :
    initrdParseLoop blob (turns + more) p entries = some outcome := by
  induction turns generalizing p entries with
  | zero => cases read
  | succ turns ih =>
    rw [Nat.add_right_comm]
    unfold initrdParseLoop at read ⊢
    split_ifs at read ⊢
    · split at read
      · exact read
      · exact read
      · exact ih read
    · exact read

end Enlil.Initrd
