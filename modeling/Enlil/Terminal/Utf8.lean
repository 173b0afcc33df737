import Enlil.Lib.Memory

/-! The decoder of `kernel/utf8.c`, and the encodings it accepts. -/

namespace Enlil.Utf8

def utf8Replacement : UInt32 := 0xFFFD

/-- What a call gives: the code, how far the pointer moves, and the places that were read, seen from the pointer. -/
structure Decoded where
  code : UInt32
  advance : Nat
  reads : List Nat
  deriving DecidableEq, Repr

/-- The branch of an encoding of two bytes. -/
def decodeTwo (p : Nat → UInt8) : Decoded :=
  let b0 := p 0
  let b1 := p 1
  let cp := (b0 &&& 0x1F).toUInt32 <<< 6 ||| (b1 &&& 0x3F).toUInt32
  if b1 &&& 0xC0 ≠ 0x80 then ⟨utf8Replacement, 1, [0, 1]⟩
  else if cp < 0x80 then ⟨utf8Replacement, 2, [0, 1]⟩
  else ⟨cp, 2, [0, 1]⟩

/-- The branch of an encoding of three bytes; both bytes behind the first are read before either is looked at. -/
def decodeThree (p : Nat → UInt8) : Decoded :=
  let b0 := p 0
  let b1 := p 1
  let b2 := p 2
  let cp := (b0 &&& 0x0F).toUInt32 <<< 12 ||| (b1 &&& 0x3F).toUInt32 <<< 6 ||| (b2 &&& 0x3F).toUInt32
  if b1 &&& 0xC0 ≠ 0x80 then ⟨utf8Replacement, 1, [0, 1, 2]⟩
  else if b2 &&& 0xC0 ≠ 0x80 then ⟨utf8Replacement, 2, [0, 1, 2]⟩
  else if cp < 0x800 then ⟨utf8Replacement, 3, [0, 1, 2]⟩
  else if 0xD800 ≤ cp ∧ cp ≤ 0xDFFF then ⟨utf8Replacement, 3, [0, 1, 2]⟩
  else ⟨cp, 3, [0, 1, 2]⟩

/-- The branch of an encoding of four bytes; all of them are read before any is looked at. -/
def decodeFour (p : Nat → UInt8) : Decoded :=
  let b0 := p 0
  let b1 := p 1
  let b2 := p 2
  let b3 := p 3
  let cp := (b0 &&& 0x07).toUInt32 <<< 18 ||| (b1 &&& 0x3F).toUInt32 <<< 12 ||| (b2 &&& 0x3F).toUInt32 <<< 6 |||
    (b3 &&& 0x3F).toUInt32
  if b1 &&& 0xC0 ≠ 0x80 then ⟨utf8Replacement, 1, [0, 1, 2, 3]⟩
  else if b2 &&& 0xC0 ≠ 0x80 then ⟨utf8Replacement, 2, [0, 1, 2, 3]⟩
  else if b3 &&& 0xC0 ≠ 0x80 then ⟨utf8Replacement, 3, [0, 1, 2, 3]⟩
  else if cp < 0x10000 ∨ 0x10FFFF < cp then ⟨utf8Replacement, 4, [0, 1, 2, 3]⟩
  else ⟨cp, 4, [0, 1, 2, 3]⟩

/-- Decodes what starts at a pointer. -/
def utf8Decode (p : Nat → UInt8) : Decoded :=
  let b0 := p 0
  if b0 = 0 then ⟨0, 0, [0]⟩
  else if b0 < 0x80 then ⟨b0.toUInt32, 1, [0]⟩
  else if b0 < 0xC0 then ⟨utf8Replacement, 1, [0]⟩
  else if b0 < 0xE0 then decodeTwo p
  else if b0 < 0xF0 then decodeThree p
  else if b0 < 0xF8 then decodeFour p
  else ⟨utf8Replacement, 1, [0]⟩

/-- Decodes what starts at a place of the memory. -/
def decodeAt (mem : Nat → UInt8) (i : Nat) : Decoded := utf8Decode fun k => mem (i + k)

/-- Counts what the decoder finds; it is nothing while the loop still runs. -/
def utf8StrlenLoop (mem : Nat → UInt8) : Nat → Nat → UInt32 → Option UInt32
  | 0, _, _ => none
  | turns + 1, i, count =>
    if mem i = 0 then some count else utf8StrlenLoop mem turns (i + (decodeAt mem i).advance) (count + 1)

def utf8Strlen (mem : Nat → UInt8) (turns : Nat) : Option UInt32 := utf8StrlenLoop mem turns 0 0

/-- A string in memory, with its terminator; what lies behind is not part of it. -/
structure Holds (mem : Nat → UInt8) (bytes : List UInt8) : Prop where
  text : ∀ i (inside : i < bytes.length), mem i = bytes[i]
  terminator : mem bytes.length = 0
  some_byte : 0 ∉ bytes

/-- The encoding of a character starts at a pointer. -/
def Starts (p : Nat → UInt8) (bytes : List UInt8) : Prop := ∀ k (inside : k < bytes.length), p k = bytes[k]

/-- The string has an encoding at a place. -/
def EncodedAt (bytes : List UInt8) (i : Nat) (c : Char) : Prop := String.utf8EncodeChar c <+: bytes.drop i

/-- What decoding a string is for. -/
structure Decodes (mem : Nat → UInt8) (bytes : List UInt8) : Prop where
  scalar : ∀ i < bytes.length, ∀ c, EncodedAt bytes i c →
    (decodeAt mem i).code = c.val ∧ (decodeAt mem i).advance = (String.utf8EncodeChar c).length
  malformed : ∀ i < bytes.length, (∀ c, ¬ EncodedAt bytes i c) → (decodeAt mem i).code = utf8Replacement
  within : ∀ i < bytes.length, ∀ k ∈ (decodeAt mem i).reads, i + k ≤ bytes.length
  /-- The places that are decoded follow each other from the start to the terminator. -/
  visits : ∃ stops : List Nat, (stops ++ [bytes.length]).head? = some 0 ∧
    (stops ++ [bytes.length]).IsChain (fun i next => next = i + (decodeAt mem i).advance) ∧
    ∀ turns, stops.length < turns → utf8Strlen mem turns = some (UInt32.ofNat stops.length)

/-- The first byte of a longer encoding stands so near the end that the places behind it are not in the string. -/
def Cut (bytes : List UInt8) (i : Nat) : Prop :=
  ∃ b, bytes[i]? = some b ∧
    (0xE0 ≤ b ∧ b < 0xF0 ∧ bytes.length < i + 2 ∨ 0xF0 ≤ b ∧ b < 0xF8 ∧ bytes.length < i + 3)

section

variable {p : Nat → UInt8}

theorem tail_iff (b : UInt8) : b &&& 0xC0 = 0x80 ↔ 0x80 ≤ b.toNat ∧ b.toNat < 0xC0 := by
  have all : ∀ n : Fin 256, UInt8.ofNat n &&& 0xC0 = 0x80 ↔ 0x80 ≤ n.val ∧ n.val < 0xC0 := by decide +kernel
  simpa using all ⟨b.toNat, b.toNat_lt⟩

theorem bits_toNat (b : UInt8) : (b &&& 0x3F).toUInt32.toNat = b.toNat % 64 ∧ (b &&& 0x1F).toUInt32.toNat = b.toNat % 32 ∧
    (b &&& 0x0F).toUInt32.toNat = b.toNat % 16 ∧ (b &&& 0x07).toUInt32.toNat = b.toNat % 8 := by
  simp only [UInt8.toNat_toUInt32, UInt8.toNat_and]
  exact ⟨Nat.and_two_pow_sub_one_eq_mod _ 6, Nat.and_two_pow_sub_one_eq_mod _ 5, Nat.and_two_pow_sub_one_eq_mod _ 4,
    Nat.and_two_pow_sub_one_eq_mod _ 3⟩

theorem code2_toNat (b0 b1 : UInt8) :
    ((b0 &&& 0x1F).toUInt32 <<< 6 ||| (b1 &&& 0x3F).toUInt32).toNat = b0.toNat % 32 * 64 + b1.toNat % 64 :=
  glue_toNat 6 (shift_toNat 6 (bits_toNat b0).2.1 (by decide) (by omega)) (bits_toNat b1).1 (Nat.mod_lt _ (by decide))

theorem code3_toNat (b0 b1 b2 : UInt8) :
    ((b0 &&& 0x0F).toUInt32 <<< 12 ||| (b1 &&& 0x3F).toUInt32 <<< 6 ||| (b2 &&& 0x3F).toUInt32).toNat =
      b0.toNat % 16 * 4096 + b1.toNat % 64 * 64 + b2.toNat % 64 := by
  have front := glue_toNat 12 (shift_toNat 12 (bits_toNat b0).2.2.1 (by decide) (by omega))
    (shift_toNat 6 (bits_toNat b1).1 (by decide) (by omega)) (by omega)
  have whole := glue_toNat (h := b0.toNat % 16 * 64 + b1.toNat % 64) 6 (front.trans (by omega)) (bits_toNat b2).1
    (Nat.mod_lt _ (by decide))
  exact whole.trans (by omega)

theorem code4_toNat (b0 b1 b2 b3 : UInt8) :
    ((b0 &&& 0x07).toUInt32 <<< 18 ||| (b1 &&& 0x3F).toUInt32 <<< 12 ||| (b2 &&& 0x3F).toUInt32 <<< 6 |||
      (b3 &&& 0x3F).toUInt32).toNat =
      b0.toNat % 8 * 262144 + b1.toNat % 64 * 4096 + b2.toNat % 64 * 64 + b3.toNat % 64 := by
  have front := glue_toNat 18 (shift_toNat 18 (bits_toNat b0).2.2.2 (by decide) (by omega))
    (shift_toNat 12 (bits_toNat b1).1 (by decide) (by omega)) (by omega)
  have middle := glue_toNat (h := b0.toNat % 8 * 64 + b1.toNat % 64) 12 (front.trans (by omega))
    (shift_toNat 6 (bits_toNat b2).1 (by decide) (by omega)) (by omega)
  have whole := glue_toNat (h := b0.toNat % 8 * 4096 + b1.toNat % 64 * 64 + b2.toNat % 64) 6 (middle.trans (by omega))
    (bits_toNat b3).1 (Nat.mod_lt _ (by decide))
  exact whole.trans (by omega)

theorem starts_nil : Starts p [] ↔ True := ⟨fun _ => trivial, fun _ => nofun⟩

theorem starts_cons {b : UInt8} {bytes : List UInt8} :
    Starts p (b :: bytes) ↔ p 0 = b ∧ Starts (fun k => p (k + 1)) bytes := by
  refine ⟨fun starts => ⟨starts 0 (Nat.succ_pos _), fun k inside => starts (k + 1) (Nat.succ_lt_succ inside)⟩, fun starts k => ?_⟩
  cases k with
  | zero => exact fun _ => starts.1
  | succ k => exact fun inside => starts.2 k (Nat.lt_of_succ_lt_succ inside)

/-- An encoding in numbers. -/
theorem starts_iff (c : Char) : Starts p (String.utf8EncodeChar c) ↔
    c.val.toNat < 0x80 ∧ (p 0).toNat = c.val.toNat ∨
    0x80 ≤ c.val.toNat ∧ c.val.toNat < 0x800 ∧ (p 0).toNat = c.val.toNat / 64 + 0xC0 ∧ (p 1).toNat = c.val.toNat % 64 + 0x80 ∨
    0x800 ≤ c.val.toNat ∧ c.val.toNat < 0x10000 ∧ (p 0).toNat = c.val.toNat / 4096 + 0xE0 ∧
      (p 1).toNat = c.val.toNat / 64 % 64 + 0x80 ∧ (p 2).toNat = c.val.toNat % 64 + 0x80 ∨
    0x10000 ≤ c.val.toNat ∧ (p 0).toNat = c.val.toNat / 262144 + 0xF0 ∧ (p 1).toNat = c.val.toNat / 4096 % 64 + 0x80 ∧
      (p 2).toNat = c.val.toNat / 64 % 64 + 0x80 ∧ (p 3).toNat = c.val.toNat % 64 + 0x80 := by
  have bound : c.val.toNat < 0x110000 := by
    rcases c.valid with low | ⟨_, high⟩
    · exact low.trans (by decide)
    · exact high
  unfold String.utf8EncodeChar
  generalize c.val.toNat = v at *
  dsimp only
  split
  · simp only [starts_cons, starts_nil, and_true, ← UInt8.toNat_inj, UInt8.toNat_ofNat']
    constructor
    · intro starts
      refine .inl ?_
      omega
    · rintro (short | two | three | four) <;> omega
  split
  · simp only [starts_cons, starts_nil, and_true, zero_add, ← UInt8.toNat_inj, UInt8.toNat_ofNat']
    constructor
    · intro starts
      refine .inr (.inl ?_)
      omega
    · rintro (short | two | three | four) <;> omega
  split
  · simp only [starts_cons, starts_nil, and_true, zero_add, Nat.reduceAdd, ← UInt8.toNat_inj, UInt8.toNat_ofNat']
    constructor
    · intro starts
      refine .inr (.inr (.inl ?_))
      omega
    · rintro (short | two | three | four) <;> omega
  · simp only [starts_cons, starts_nil, and_true, zero_add, Nat.reduceAdd, ← UInt8.toNat_inj, UInt8.toNat_ofNat']
    constructor
    · intro starts
      refine .inr (.inr (.inr ?_))
      omega
    · rintro (short | two | three | four) <;> omega

theorem encode_length (c : Char) : (String.utf8EncodeChar c).length =
    if c.val.toNat < 0x80 then 1 else if c.val.toNat < 0x800 then 2 else if c.val.toNat < 0x10000 then 3 else 4 := by
  unfold String.utf8EncodeChar
  generalize c.val.toNat = v
  dsimp only
  split
  · rw [if_pos (by omega)]
    rfl
  split
  · rw [if_neg (by omega), if_pos (by omega)]
    rfl
  split
  · rw [if_neg (by omega), if_neg (by omega), if_pos (by omega)]
    rfl
  · rw [if_neg (by omega), if_neg (by omega), if_neg (by omega)]
    rfl

theorem char_valid (c : Char) : c.val.toNat < 0xD800 ∨ 0xDFFF < c.val.toNat ∧ c.val.toNat < 0x110000 := c.valid

/-- What a call does at a place that is not the terminator. -/
structure Outcome (p : Nat → UInt8) (d : Decoded) : Prop where
  result : (∃ c, Starts p (String.utf8EncodeChar c) ∧ d.code = c.val ∧ d.advance = (String.utf8EncodeChar c).length) ∨
    d.code = utf8Replacement ∧ ∀ c, ¬ Starts p (String.utf8EncodeChar c)
  moves : 0 < d.advance
  /-- The pointer does not pass the terminator. -/
  stays : ∀ k < d.advance, p k ≠ 0

theorem Outcome.good {cp : UInt32} {n : Nat} {reads : List Nat} (valid : cp.toNat < 0xD800 ∨ 0xDFFF < cp.toNat ∧ cp.toNat < 0x110000)
    (starts : ∀ c : Char, c.val = cp → Starts p (String.utf8EncodeChar c))
    (length : n = if cp.toNat < 0x80 then 1 else if cp.toNat < 0x800 then 2 else if cp.toNat < 0x10000 then 3 else 4)
    (stays : ∀ k < n, p k ≠ 0) : Outcome p ⟨cp, n, reads⟩ := by
  refine ⟨.inl ⟨⟨cp, valid⟩, starts _ rfl, rfl, ?_⟩, ?_, stays⟩
  · rw [encode_length]
    exact length
  · dsimp only
    rw [length]
    split_ifs <;> decide

theorem Outcome.bad {n : Nat} {reads : List Nat} (none : ∀ c, ¬ Starts p (String.utf8EncodeChar c)) (moves : 0 < n)
    (stays : ∀ k < n, p k ≠ 0) : Outcome p ⟨utf8Replacement, n, reads⟩ := ⟨.inr ⟨rfl, none⟩, moves, stays⟩

theorem toNat_not_lt {b bound : UInt8} (above : ¬ b < bound) : ¬ b.toNat < bound.toNat :=
  mt UInt8.lt_iff_toNat_lt.mpr above

theorem toNat_tail {b : UInt8} (tail : ¬ b &&& 0xC0 ≠ 0x80) : 0x80 ≤ b.toNat ∧ b.toNat < 0xC0 :=
  (tail_iff b).mp (not_not.mp tail)

theorem toNat_not_tail {b : UInt8} (tail : b &&& 0xC0 ≠ 0x80) : b.toNat < 0x80 ∨ 0xC0 ≤ b.toNat := by
  have outside := mt (tail_iff b).mpr tail
  omega

theorem nonzero {b : UInt8} (positive : 0 < b.toNat) : b ≠ 0 := fun zero => by rw [zero] at positive; cases positive

theorem starts_two (lead : 0xC0 ≤ (p 0).toNat) (below : (p 0).toNat < 0xE0) {c : Char} :
    Starts p (String.utf8EncodeChar c) ↔ 0x80 ≤ c.val.toNat ∧ c.val.toNat < 0x800 ∧
      (p 0).toNat = c.val.toNat / 64 + 0xC0 ∧ (p 1).toNat = c.val.toNat % 64 + 0x80 := by
  rw [starts_iff]
  refine ⟨?_, fun two => .inr (.inl two)⟩
  rintro (one | two | three | four)
  · omega
  · exact two
  · omega
  · omega

theorem starts_three (lead : 0xE0 ≤ (p 0).toNat) (below : (p 0).toNat < 0xF0) {c : Char} :
    Starts p (String.utf8EncodeChar c) ↔ 0x800 ≤ c.val.toNat ∧ c.val.toNat < 0x10000 ∧
      (p 0).toNat = c.val.toNat / 4096 + 0xE0 ∧ (p 1).toNat = c.val.toNat / 64 % 64 + 0x80 ∧
      (p 2).toNat = c.val.toNat % 64 + 0x80 := by
  rw [starts_iff]
  refine ⟨?_, fun three => .inr (.inr (.inl three))⟩
  rintro (one | two | three | four)
  · omega
  · omega
  · exact three
  · omega

theorem starts_four (lead : 0xF0 ≤ (p 0).toNat) {c : Char} :
    Starts p (String.utf8EncodeChar c) ↔ 0x10000 ≤ c.val.toNat ∧ (p 0).toNat = c.val.toNat / 262144 + 0xF0 ∧
      (p 1).toNat = c.val.toNat / 4096 % 64 + 0x80 ∧ (p 2).toNat = c.val.toNat / 64 % 64 + 0x80 ∧
      (p 3).toNat = c.val.toNat % 64 + 0x80 := by
  rw [starts_iff]
  refine ⟨?_, fun four => .inr (.inr (.inr four))⟩
  rintro (one | two | three | four)
  · omega
  · omega
  · omega
  · exact four

theorem decodeTwo_outcome (lead : 0xC0 ≤ (p 0).toNat) (below : (p 0).toNat < 0xE0) (stays1 : ∀ k < 1, p k ≠ 0) :
    Outcome p (decodeTwo p) := by
  unfold decodeTwo
  refine iteInduction (motive := Outcome p) (fun tail => ?_) fun tail => ?_
  · replace tail := toNat_not_tail tail
    refine .bad (fun c starts => ?_) one_pos stays1
    obtain ⟨_, _, _, _⟩ := (starts_two lead below).mp starts
    omega
  replace tail := toNat_tail tail
  have code := code2_toNat (p 0) (p 1)
  have stays : ∀ k < 2, p k ≠ 0 := Nat.forall_lt_succ_right.mpr ⟨stays1, nonzero (by omega)⟩
  refine iteInduction (motive := Outcome p) (fun small => ?_) fun large => ?_
  · replace small := UInt32.lt_iff_toNat_lt.mp small
    rw [code] at small
    change _ < 0x80 at small
    refine .bad (fun c starts => ?_) two_pos stays
    obtain ⟨_, _, _, _⟩ := (starts_two lead below).mp starts
    omega
  · replace large := mt UInt32.lt_iff_toNat_lt.mpr large
    rw [code] at large
    change ¬ _ < 0x80 at large
    refine .good (.inl (by rw [code]; omega)) (fun c same => ?_) ?_ stays
    · rw [starts_two lead below, same, code]
      omega
    · rw [code, if_neg large, if_pos (by omega)]

theorem decodeThree_outcome (lead : 0xE0 ≤ (p 0).toNat) (below : (p 0).toNat < 0xF0) (stays1 : ∀ k < 1, p k ≠ 0) :
    Outcome p (decodeThree p) := by
  unfold decodeThree
  refine iteInduction (motive := Outcome p) (fun tail => ?_) fun tail => ?_
  · replace tail := toNat_not_tail tail
    refine .bad (fun c starts => ?_) one_pos stays1
    obtain ⟨_, _, _, _, _⟩ := (starts_three lead below).mp starts
    omega
  replace tail := toNat_tail tail
  have stays2 : ∀ k < 2, p k ≠ 0 := Nat.forall_lt_succ_right.mpr ⟨stays1, nonzero (by omega)⟩
  refine iteInduction (motive := Outcome p) (fun tail' => ?_) fun tail' => ?_
  · replace tail' := toNat_not_tail tail'
    refine .bad (fun c starts => ?_) two_pos stays2
    obtain ⟨_, _, _, _, _⟩ := (starts_three lead below).mp starts
    omega
  replace tail' := toNat_tail tail'
  have code := code3_toNat (p 0) (p 1) (p 2)
  have stays : ∀ k < 3, p k ≠ 0 := Nat.forall_lt_succ_right.mpr ⟨stays2, nonzero (by omega)⟩
  refine iteInduction (motive := Outcome p) (fun small => ?_) fun large => ?_
  · replace small := UInt32.lt_iff_toNat_lt.mp small
    rw [code] at small
    change _ < 0x800 at small
    refine .bad (fun c starts => ?_) three_pos stays
    obtain ⟨_, _, _, _, _⟩ := (starts_three lead below).mp starts
    omega
  replace large := mt UInt32.lt_iff_toNat_lt.mpr large
  rw [code] at large
  change ¬ _ < 0x800 at large
  refine iteInduction (motive := Outcome p) (fun surrogate => ?_) fun plain => ?_
  · rw [UInt32.le_iff_toNat_le, UInt32.le_iff_toNat_le, code] at surrogate
    change 0xD800 ≤ _ ∧ _ ≤ 0xDFFF at surrogate
    refine .bad (fun c starts => ?_) three_pos stays
    have valid := char_valid c
    obtain ⟨_, _, _, _, _⟩ := (starts_three lead below).mp starts
    omega
  · rw [UInt32.le_iff_toNat_le, UInt32.le_iff_toNat_le, code] at plain
    change ¬ (0xD800 ≤ _ ∧ _ ≤ 0xDFFF) at plain
    refine .good (by rw [code]; omega) (fun c same => ?_) ?_ stays
    · rw [starts_three lead below, same, code]
      omega
    · rw [code, if_neg (by omega), if_neg large, if_pos (by omega)]

theorem decodeFour_outcome (lead : 0xF0 ≤ (p 0).toNat) (below : (p 0).toNat < 0xF8) (stays1 : ∀ k < 1, p k ≠ 0) :
    Outcome p (decodeFour p) := by
  unfold decodeFour
  refine iteInduction (motive := Outcome p) (fun tail => ?_) fun tail => ?_
  · replace tail := toNat_not_tail tail
    refine .bad (fun c starts => ?_) one_pos stays1
    obtain ⟨_, _, _, _, _⟩ := (starts_four lead).mp starts
    omega
  replace tail := toNat_tail tail
  have stays2 : ∀ k < 2, p k ≠ 0 := Nat.forall_lt_succ_right.mpr ⟨stays1, nonzero (by omega)⟩
  refine iteInduction (motive := Outcome p) (fun tail' => ?_) fun tail' => ?_
  · replace tail' := toNat_not_tail tail'
    refine .bad (fun c starts => ?_) two_pos stays2
    obtain ⟨_, _, _, _, _⟩ := (starts_four lead).mp starts
    omega
  replace tail' := toNat_tail tail'
  have stays3 : ∀ k < 3, p k ≠ 0 := Nat.forall_lt_succ_right.mpr ⟨stays2, nonzero (by omega)⟩
  refine iteInduction (motive := Outcome p) (fun tail'' => ?_) fun tail'' => ?_
  · replace tail'' := toNat_not_tail tail''
    refine .bad (fun c starts => ?_) three_pos stays3
    obtain ⟨_, _, _, _, _⟩ := (starts_four lead).mp starts
    omega
  replace tail'' := toNat_tail tail''
  have code := code4_toNat (p 0) (p 1) (p 2) (p 3)
  have stays : ∀ k < 4, p k ≠ 0 := Nat.forall_lt_succ_right.mpr ⟨stays3, nonzero (by omega)⟩
  refine iteInduction (motive := Outcome p) (fun outside => ?_) fun inside => ?_
  · rw [UInt32.lt_iff_toNat_lt, UInt32.lt_iff_toNat_lt, code] at outside
    change _ < 0x10000 ∨ 0x10FFFF < _ at outside
    refine .bad (fun c starts => ?_) four_pos stays
    have valid := char_valid c
    obtain ⟨_, _, _, _, _⟩ := (starts_four lead).mp starts
    omega
  · rw [UInt32.lt_iff_toNat_lt, UInt32.lt_iff_toNat_lt, code] at inside
    change ¬ (_ < 0x10000 ∨ 0x10FFFF < _) at inside
    refine .good (.inr (by rw [code]; omega)) (fun c same => ?_) ?_ stays
    · rw [starts_four lead, same, code]
      omega
    · rw [code, if_neg (by omega), if_neg (by omega), if_neg (by omega)]

theorem utf8Decode_outcome (some_byte : p 0 ≠ 0) : Outcome p (utf8Decode p) := by
  have stays : ∀ k < 1, p k ≠ 0 := fun k only => by rwa [Nat.lt_one_iff.mp only]
  unfold utf8Decode
  refine iteInduction (motive := Outcome p) (fun zero => absurd zero some_byte) fun _ => ?_
  refine iteInduction (motive := Outcome p) (fun below => ?_) fun above => ?_
  · replace below : (p 0).toNat < 0x80 := UInt8.lt_iff_toNat_lt.mp below
    refine .good (.inl (by rw [UInt8.toNat_toUInt32]; omega)) (fun c same => ?_) ?_ stays
    · rw [starts_iff, same, UInt8.toNat_toUInt32]
      exact .inl ⟨below, rfl⟩
    · rw [UInt8.toNat_toUInt32, if_pos below]
  replace above : ¬ (p 0).toNat < 0x80 := toNat_not_lt above
  refine iteInduction (motive := Outcome p) (fun below => ?_) fun later => ?_
  · -- A first byte that only continues an encoding.
    replace below : (p 0).toNat < 0xC0 := UInt8.lt_iff_toNat_lt.mp below
    refine .bad (fun c starts => ?_) one_pos stays
    rcases (starts_iff c).mp starts with one | two | three | four <;> omega
  replace later : ¬ (p 0).toNat < 0xC0 := toNat_not_lt later
  refine iteInduction (motive := Outcome p) (fun two => ?_) fun above => ?_
  · exact decodeTwo_outcome (Nat.le_of_not_lt later) (UInt8.lt_iff_toNat_lt.mp two) stays
  refine iteInduction (motive := Outcome p) (fun three => ?_) fun later => ?_
  · exact decodeThree_outcome (Nat.le_of_not_lt (toNat_not_lt above)) (UInt8.lt_iff_toNat_lt.mp three) stays
  refine iteInduction (motive := Outcome p) (fun four => ?_) fun past => ?_
  · exact decodeFour_outcome (Nat.le_of_not_lt (toNat_not_lt later)) (UInt8.lt_iff_toNat_lt.mp four) stays
  · -- A first byte that no encoding has.
    replace past : ¬ (p 0).toNat < 0xF8 := toNat_not_lt past
    refine .bad (fun c starts => ?_) one_pos stays
    have valid := char_valid c
    obtain ⟨_, _, _, _, _⟩ := (starts_four (by omega)).mp starts
    omega

theorem starts_unique {c c' : Char} (starts : Starts p (String.utf8EncodeChar c)) (starts' : Starts p (String.utf8EncodeChar c')) :
    c = c' := by
  have bound := char_valid c
  have bound' := char_valid c'
  rw [starts_iff] at starts starts'
  apply Char.ext
  apply UInt32.toNat_inj.mp
  rcases starts with one | two | three | four <;> rcases starts' with one' | two' | three' | four' <;> omega

theorem decodeTwo_reads : (decodeTwo p).reads = [0, 1] := by
  unfold decodeTwo
  refine iteInduction (motive := fun d : Decoded => d.reads = [0, 1]) (fun _ => rfl) fun _ => ?_
  exact iteInduction (motive := fun d : Decoded => d.reads = [0, 1]) (fun _ => rfl) fun _ => rfl

theorem decodeThree_reads : (decodeThree p).reads = [0, 1, 2] := by
  unfold decodeThree
  iterate 3 refine iteInduction (motive := fun d : Decoded => d.reads = [0, 1, 2]) (fun _ => rfl) fun _ => ?_
  exact iteInduction (motive := fun d : Decoded => d.reads = [0, 1, 2]) (fun _ => rfl) fun _ => rfl

theorem decodeFour_reads : (decodeFour p).reads = [0, 1, 2, 3] := by
  unfold decodeFour
  iterate 3 refine iteInduction (motive := fun d : Decoded => d.reads = [0, 1, 2, 3]) (fun _ => rfl) fun _ => ?_
  exact iteInduction (motive := fun d : Decoded => d.reads = [0, 1, 2, 3]) (fun _ => rfl) fun _ => rfl

theorem reads_within_iff {i length : Nat} (inside : i < length) (some_byte : p 0 ≠ 0) :
    (∀ k ∈ (utf8Decode p).reads, i + k ≤ length) ↔
      ¬ (0xE0 ≤ p 0 ∧ p 0 < 0xF0 ∧ length < i + 2 ∨ 0xF0 ≤ p 0 ∧ p 0 < 0xF8 ∧ length < i + 3) := by
  have le_iff : ∀ a b : UInt8, a ≤ b ↔ ¬ b < a := fun a b => UInt8.not_lt.symm
  have mono : ∀ {b low : UInt8} (high : UInt8), b < low → low.toNat ≤ high.toNat → b < high := fun _ below order =>
    UInt8.lt_iff_toNat_lt.mpr ((UInt8.lt_iff_toNat_lt.mp below).trans_le order)
  rw [le_iff, le_iff]
  unfold utf8Decode
  rw [if_neg some_byte]
  by_cases ascii : p 0 < 0x80
  · rw [if_pos ascii]
    simp [mono 0xE0 ascii (by decide), mono 0xF0 ascii (by decide), inside.le]
  rw [if_neg ascii]
  by_cases stray : p 0 < 0xC0
  · rw [if_pos stray]
    simp [mono 0xE0 stray (by decide), mono 0xF0 stray (by decide), inside.le]
  rw [if_neg stray]
  by_cases two : p 0 < 0xE0
  · rw [if_pos two, decodeTwo_reads]
    simp [two, mono 0xF0 two (by decide), inside.le]
    omega
  rw [if_neg two]
  by_cases three : p 0 < 0xF0
  · rw [if_pos three, decodeThree_reads]
    simp [two, three]
    omega
  rw [if_neg three]
  by_cases four : p 0 < 0xF8
  · rw [if_pos four, decodeFour_reads]
    simp [two, three, four]
    omega
  · rw [if_neg four]
    simp [two, three, four, inside.le]

end

section

variable {mem : Nat → UInt8} {bytes : List UInt8} {i : Nat}

theorem Holds.nonzero (text : Holds mem bytes) (inside : i < bytes.length) : mem i ≠ 0 := by
  rw [text.text i inside]
  exact fun zero => text.some_byte (zero ▸ List.getElem_mem inside)

theorem Holds.outcome (text : Holds mem bytes) (inside : i < bytes.length) :
    Outcome (fun k => mem (i + k)) (decodeAt mem i) := utf8Decode_outcome (text.nonzero inside)

theorem Holds.advance_le (text : Holds mem bytes) (inside : i < bytes.length) :
    i + (decodeAt mem i).advance ≤ bytes.length := by
  by_contra past
  have stays := (text.outcome inside).stays (bytes.length - i) (by omega)
  rw [Nat.add_sub_cancel' inside.le] at stays
  exact stays text.terminator

theorem Holds.starts (text : Holds mem bytes) {c : Char} (encoded : EncodedAt bytes i c) :
    Starts (fun k => mem (i + k)) (String.utf8EncodeChar c) := by
  obtain ⟨rest, split⟩ := encoded
  intro k short
  have long := congrArg List.length split
  rw [List.length_append, List.length_drop] at long
  have inside : k < (bytes.drop i).length := by
    rw [← split, List.length_append]
    omega
  change mem (i + k) = _
  rw [text.text (i + k) (by omega), ← List.getElem_drop (h := inside)]
  simp only [← split]
  rw [List.getElem_append_left short]

theorem Holds.encoded (text : Holds mem bytes) {c : Char} (starts : Starts (fun k => mem (i + k)) (String.utf8EncodeChar c))
    (room : i + (String.utf8EncodeChar c).length ≤ bytes.length) : EncodedAt bytes i c := by
  refine List.prefix_iff_getElem.mpr ⟨by rw [List.length_drop]; omega, fun k short => ?_⟩
  rw [List.getElem_drop, ← text.text (i + k) (by omega)]
  exact (starts k short).symm

theorem Holds.visits (text : Holds mem bytes) (rest : Nat) :
    ∀ i, i + rest = bytes.length → ∃ stops : List Nat, (stops ++ [bytes.length]).head? = some i ∧
      (stops ++ [bytes.length]).IsChain (fun i next => next = i + (decodeAt mem i).advance) ∧
      ∀ turns count, stops.length < turns →
        utf8StrlenLoop mem turns i count = some (count + UInt32.ofNat stops.length) := by
  -- The induction is on what is left of the string.
  induction rest using Nat.strong_induction_on with
  | h rest ih =>
    intro i here
    by_cases last : rest = 0
    · refine ⟨[], by simp; omega, List.isChain_singleton _, fun turns count some_turn => ?_⟩
      obtain ⟨turns, rfl⟩ := Nat.exists_eq_succ_of_ne_zero (Nat.ne_of_gt some_turn)
      have stop : mem i = 0 := by
        rw [show i = bytes.length by omega]
        exact text.terminator
      rw [utf8StrlenLoop, if_pos stop]
      simp
    · have inside : i < bytes.length := by omega
      have moves := (text.outcome inside).moves
      have short := text.advance_le inside
      obtain ⟨stops, head, chain, count⟩ := ih (rest - (decodeAt mem i).advance) (by omega)
        (i + (decodeAt mem i).advance) (by omega)
      refine ⟨i :: stops, rfl, ?_, fun turns start some_turn => ?_⟩
      · rw [List.cons_append]
        exact List.IsChain.cons chain fun next first => by
          rw [head] at first
          exact (Option.some.inj first).symm
      · obtain ⟨turns, rfl⟩ := Nat.exists_eq_succ_of_ne_zero (Nat.ne_of_gt (Nat.zero_lt_of_lt some_turn))
        rw [utf8StrlenLoop, if_neg (text.nonzero inside), count turns (start + 1) (Nat.lt_of_succ_lt_succ some_turn)]
        rw [List.length_cons, UInt32.ofNat_add, add_comm (UInt32.ofNat _), add_assoc]
        rfl

/-- The decoder does on a string what it is for exactly if no encoding is cut off before its last but one byte. -/
theorem utf8Decode_iff (mem : Nat → UInt8) (bytes : List UInt8) (text : Holds mem bytes) :
    Decodes mem bytes ↔ ∀ i, ¬ Cut bytes i := by
  have cut_iff : ∀ i (inside : i < bytes.length), (∀ k ∈ (decodeAt mem i).reads, i + k ≤ bytes.length) ↔ ¬ Cut bytes i := by
    intro i inside
    have some_byte : (fun k => mem (i + k)) 0 ≠ 0 := text.nonzero inside
    rw [decodeAt, reads_within_iff (p := fun k => mem (i + k)) inside some_byte, Cut]
    simp [List.getElem?_eq_getElem inside, text.text i inside]
  constructor
  · intro decodes i cut
    have inside : i < bytes.length := by
      obtain ⟨b, found, _⟩ := cut
      exact (List.getElem?_eq_some_iff.mp found).1
    exact (cut_iff i inside).mp (decodes.within i inside) cut
  · intro whole
    refine ⟨fun i inside c encoded => ?_, fun i inside none => ?_, fun i inside => (cut_iff i inside).mpr (whole i), ?_⟩
    · have starts := text.starts encoded
      rcases (text.outcome inside).result with ⟨c', starts', code, advance⟩ | ⟨_, none⟩
      · rw [starts_unique starts starts']
        exact ⟨code, advance⟩
      · exact absurd starts (none c)
    · rcases (text.outcome inside).result with ⟨c, starts, _, advance⟩ | ⟨code, _⟩
      · have short := text.advance_le inside
        rw [advance] at short
        exact absurd (text.encoded starts short) (none c)
      · exact code
    · obtain ⟨stops, head, chain, count⟩ := text.visits bytes.length 0 (Nat.zero_add _)
      exact ⟨stops, head, chain, fun turns some_turn => by rw [utf8Strlen, count turns 0 some_turn, zero_add]⟩

end

/-- A string of one byte, with what lies behind its terminator. -/
def oneByte (b behind : UInt8) : Nat → UInt8 := fun i => if i = 0 then b else if i = 1 then 0 else behind

theorem oneByte_holds (b behind : UInt8) (some_byte : b ≠ 0) : Holds (oneByte b behind) [b] where
  text i inside := by
    obtain rfl := Nat.lt_one_iff.mp inside
    rfl
  terminator := rfl
  some_byte := by simpa using some_byte.symm

/-- A plain letter is decoded within its string. -/
theorem utf8Decode_letter : Decodes (oneByte 0x41 0) [0x41] ↔ ∀ i, ¬ Cut [0x41] i :=
  utf8Decode_iff _ _ (oneByte_holds 0x41 0 (by decide))

/-- The decoder reads behind the terminator of a string that ends with the first byte of three. -/
theorem utf8Decode_past : ¬ ∀ mem bytes, Holds mem bytes → Decodes mem bytes := by
  intro always
  have within := (always _ _ (oneByte_holds 0xE2 0x82 (by decide))).within 0 (by decide) 2 (by decide)
  exact absurd within (by decide)

end Enlil.Utf8
