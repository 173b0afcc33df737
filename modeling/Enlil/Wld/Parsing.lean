import Enlil.Wld.Framing
import Enlil.Wld.Requests

/-! Where the bytes lie that are read of a message. -/

namespace Enlil.Wld

/-- Where a request has a string, and how long the buffer is that it is read into. -/
def stringAt (type : ObjType) (opcode payloadLen : UInt32) : Option (Nat × UInt32) :=
  match type with
  | .registry => if opcode = 0 ∧ 12 ≤ payloadLen then some (4, 64) else none
  | .xdgTop =>
    if opcode = 2 ∧ 4 ≤ payloadLen then some (0, 64)
    else if opcode = 3 ∧ 4 ≤ payloadLen then some (0, 32)
    else none
  | _ => none

/-- The length of the string of a request does not wrap around when it is padded, or the rest of the message is as long as the buffer. -/
def StringFits (type : ObjType) (opcode payloadLen : UInt32) (memory : Nat → UInt8) : Prop :=
  ∀ off cap, stringAt type opcode payloadLen = some (off, cap) →
    (askU32 off).result memory < 0xFFFFFFF9 ∨ off + 4 + (cap.toNat - 1) ≤ payloadLen.toNat

section

variable {memory : Nat → UInt8} {off : Nat} {avail cap : UInt32}

/-- All questions of a program are for places before a limit. -/
def Within (limit : Nat) (memory : Nat → UInt8) {α : Type} (reads : Reads α) : Prop :=
  ∀ place ∈ reads.questions memory, place < limit

variable {limit : Nat} {α β : Type}

@[simp] theorem within_done (value : α) : Within limit memory (.done value) := nofun

@[simp] theorem within_bind {first : Reads α} {rest : α → Reads β} : Within limit memory (first.bind rest) ↔
    Within limit memory first ∧ Within limit memory (rest (first.result memory)) := by
  simp only [Within, Asks.questions_bind, List.mem_append]
  exact ⟨fun all => ⟨fun place here => all place (.inl here), fun place here => all place (.inr here)⟩,
    fun both place here => here.elim (both.1 place) (both.2 place)⟩

@[simp] theorem within_askU32 : Within limit memory (askU32 off) ↔ off + 4 ≤ limit := by
  simp only [Within, askU32, Asks.questions, List.mem_cons, List.not_mem_nil, or_false, forall_eq_or_imp, forall_eq]
  omega

@[simp] theorem within_askBytes {count : Nat} :
    Within limit memory (askBytes off count) ↔ count = 0 ∨ off + count ≤ limit := by
  induction count generalizing off with
  | zero => simp [askBytes]
  | succ count ih =>
    have first : Within limit memory (askBytes off (count + 1)) ↔
        off < limit ∧ Within limit memory (askBytes (off + 1) count) := by
      simp [Within, askBytes, Asks.questions, Asks.questions_bind]
    rw [first, ih]
    omega

theorem clear_low {n : Nat} (small : n < 2 ^ 32) : n &&& 4294967292 = n / 4 * 4 := by
  have mask : 4294967292 = 2 ^ 2 * (2 ^ 30 - 1) := by decide
  have whole : n / 4 * 4 = 2 ^ 2 * (n / 2 ^ 2) := by omega
  rw [mask, whole]
  apply Nat.eq_of_testBit_eq
  intro i
  rw [Nat.testBit_and, Nat.testBit_two_pow_mul, Nat.testBit_two_pow_mul, Nat.testBit_two_pow_sub_one,
    Nat.testBit_div_two_pow]
  by_cases low : 2 ≤ i
  · by_cases high : i < 32
    · simp [low, show i - 2 < 30 by omega, show i - 2 + 2 = i by omega]
    · have none : n.testBit i = false :=
        Nat.testBit_lt_two_pow (lt_of_lt_of_le small (Nat.pow_le_pow_right (by decide) (by omega)))
      simp [none, show i - 2 + 2 = i by omega]
  · simp [low]

theorem padded_toNat (slen : UInt32) : ((slen + 3) &&& ~~~3).toNat = (slen.toNat + 3) % 2 ^ 32 / 4 * 4 := by
  rw [UInt32.toNat_and, UInt32.toNat_add]
  exact clear_low (Nat.mod_lt _ (by decide))

theorem parseStr_within (some : 4 ≤ avail) (few : avail.toNat < 2 ^ 31) (room : 1 < cap) :
    Within (off + avail.toNat) memory (parseStr off avail cap) ↔
      (askU32 off).result memory < 0xFFFFFFF9 ∨ off + 4 + (cap.toNat - 1) ≤ off + avail.toNat := by
  have four : (4 : UInt32).toNat = 4 := rfl
  rw [UInt32.le_iff_toNat_le, four] at some
  rw [UInt32.lt_iff_toNat_lt] at room ⊢
  have one : (1 : UInt32).toNat = 1 := rfl
  rw [one] at room
  unfold parseStr
  rw [if_neg (by rw [UInt32.lt_iff_toNat_lt, four]; omega), within_bind, within_askU32]
  generalize (askU32 off).result memory = slen
  dsimp only
  have padded := padded_toNat slen
  have sum : (4 + ((slen + 3) &&& ~~~3)).toNat = (4 + (slen.toNat + 3) % 2 ^ 32 / 4 * 4) % 2 ^ 32 := by
    rw [UInt32.toNat_add, padded, four]
  have limit : (0xFFFFFFF9 : UInt32).toNat = 4294967289 := rfl
  have bounded : slen.toNat < 2 ^ 32 := UInt32.toNat_lt slen
  rw [limit]
  split
  · rename_i short
    rw [UInt32.lt_iff_toNat_lt, sum] at short
    simp only [within_done, and_true]
    omega
  · rename_i enough
    rw [UInt32.lt_iff_toNat_lt, sum] at enough
    simp only [within_bind, within_askBytes, within_done, and_true]
    split
    · rename_i less
      rw [UInt32.lt_iff_toNat_lt] at less
      omega
    · rename_i more
      rw [UInt32.lt_iff_toNat_lt] at more
      have last : (cap - 1).toNat = cap.toNat - 1 := UInt32.toNat_sub_of_le _ _ (by
        rw [UInt32.le_iff_toNat_le, one]
        omega)
      rw [last]
      omega

variable {type : ObjType} {opcode payloadLen : UInt32}

theorem readRequest_words (plain : stringAt type opcode payloadLen = none) :
    Within payloadLen.toNat memory (readRequest type opcode payloadLen) := by
  have word {n : UInt32} (enough : n ≤ payloadLen) : n.toNat ≤ payloadLen.toNat := UInt32.le_iff_toNat_le.mp enough
  have four : (4 : UInt32).toNat = 4 := rfl
  have eight : (8 : UInt32).toNat = 8 := rfl
  have twelve : (12 : UInt32).toNat = 12 := rfl
  have all : (24 : UInt32).toNat = 24 := rfl
  cases type with
  | registry =>
    simp only [stringAt, ite_eq_right_iff, reduceCtorEq, imp_false] at plain
    rw [readRequest, if_neg plain]
    exact within_done _
  | xdgTop =>
    simp only [stringAt] at plain
    split at plain
    · cases plain
    · rename_i noTitle
      split at plain
      · cases plain
      · rename_i noAppId
        rw [readRequest, if_neg noTitle, if_neg noAppId]
        exact within_done _
  | _ =>
    unfold readRequest
    try dsimp only
    repeat' split
    all_goals simp only [within_bind, within_askU32, within_done, and_true]
    all_goals
      rename_i asked
      have := word asked.2
      omega

theorem parseStr_consumed : ((parseStr off avail cap).result memory).2 ≤ avail := by
  unfold parseStr
  split
  · exact UInt32.zero_le
  · rw [Asks.result_bind]
    dsimp only
    split
    · exact UInt32.zero_le
    · rename_i enough
      rw [Asks.result_bind]
      exact UInt32.not_lt.mp enough

theorem readRequest_bind (enough : 12 ≤ payloadLen) (few : payloadLen.toNat + 8 ≤ bufLen) :
    Within payloadLen.toNat memory (readRequest .registry 0 payloadLen) ↔
      (askU32 4).result memory < 0xFFFFFFF9 ∨ 4 + 4 + ((64 : UInt32).toNat - 1) ≤ payloadLen.toNat := by
  have four : (4 : UInt32).toNat = 4 := rfl
  have eight : (8 : UInt32).toNat = 8 := rfl
  have long : 12 ≤ payloadLen.toNat := UInt32.le_iff_toNat_le.mp enough
  have avail : (payloadLen - 4).toNat = payloadLen.toNat - 4 := UInt32.toNat_sub_of_le _ _ (by
    rw [UInt32.le_iff_toNat_le, four]
    omega)
  have small : payloadLen.toNat < 2 ^ 31 := lt_of_le_of_lt (Nat.le_of_add_right_le few) (by decide)
  have parsed : Within (4 + (payloadLen - 4).toNat) memory (parseStr 4 (payloadLen - 4) 64) ↔ _ := parseStr_within
    (by rw [UInt32.le_iff_toNat_le, four]; omega) (by omega) (by decide)
  rw [avail, show 4 + (payloadLen.toNat - 4) = payloadLen.toNat by omega] at parsed
  rw [readRequest, if_pos ⟨rfl, enough⟩, within_bind, within_askU32, within_bind, parsed]
  refine ⟨fun all => all.2.1, fun fits => ⟨by omega, fits, ?_⟩⟩
  have consumed : ((parseStr 4 (payloadLen - 4) 64).result memory).2 ≤ payloadLen - 4 := parseStr_consumed
  generalize (parseStr 4 (payloadLen - 4) 64).result memory = text at consumed ⊢
  rw [UInt32.le_iff_toNat_le, avail] at consumed
  split
  · exact within_done _
  · rename_i room
    rw [not_or, UInt32.lt_iff_toNat_lt, UInt32.toNat_add, UInt32.toNat_add, four, eight] at room
    simp only [within_bind, within_askU32, within_done, and_true]
    omega

theorem readRequest_text (enough : 4 ≤ payloadLen) (few : payloadLen.toNat + 8 ≤ bufLen) (room : 1 < cap)
    {request : List UInt8 × UInt32 → Option Request} :
    Within payloadLen.toNat memory ((parseStr 0 payloadLen cap).bind fun parsed => .done (request parsed)) ↔
      (askU32 0).result memory < 0xFFFFFFF9 ∨ 0 + 4 + (cap.toNat - 1) ≤ payloadLen.toNat := by
  have small : payloadLen.toNat < 2 ^ 31 := lt_of_le_of_lt (Nat.le_of_add_right_le few) (by decide)
  have parsed : Within (0 + payloadLen.toNat) memory (parseStr 0 payloadLen cap) ↔ _ := parseStr_within enough small room
  rw [Nat.zero_add] at parsed
  rw [within_bind, parsed]
  simp

theorem readRequest_within (few : payloadLen.toNat + 8 ≤ bufLen) :
    Within payloadLen.toNat memory (readRequest type opcode payloadLen) ↔ StringFits type opcode payloadLen memory := by
  cases place : stringAt type opcode payloadLen with
  | none => exact iff_of_true (readRequest_words place) fun off cap found => by rw [place] at found; cases found
  | some found =>
    have fits : StringFits type opcode payloadLen memory ↔
        (askU32 found.1).result memory < 0xFFFFFFF9 ∨ found.1 + 4 + (found.2.toNat - 1) ≤ payloadLen.toNat := by
      refine ⟨fun all => all found.1 found.2 place, fun here off cap same => ?_⟩
      rw [place] at same
      cases same
      exact here
    rw [fits]
    cases type with
    | registry =>
      rw [stringAt] at place
      split at place
      · rename_i asked
        cases place
        rw [asked.1]
        exact readRequest_bind asked.2 few
      · cases place
    | xdgTop =>
      simp only [stringAt] at place
      split at place
      · rename_i asked
        cases place
        rw [readRequest, if_pos asked]
        exact readRequest_text asked.2 few (by decide)
      · rename_i noTitle
        split at place
        · rename_i asked
          cases place
          rw [readRequest, if_neg noTitle, if_pos asked]
          exact readRequest_text asked.2 few (by decide)
        · cases place
    | _ => cases place

theorem clientProcessInput_fits {c : Inbox} (inside : c.ibuf.length ≤ bufLen)
    (fit : ∀ m ∈ c.dispatched, m.payload.length + 8 ≤ bufLen) :
    (clientProcessInput c).ibuf.length ≤ bufLen ∧
      ∀ m ∈ (clientProcessInput c).dispatched, m.payload.length + 8 ≤ bufLen := by
  induction long : c.ibuf.length using Nat.strong_induction_on generalizing c with
  | _ length ih =>
    rw [clientProcessInput]
    split
    · dsimp only
      split
      · exact ⟨Nat.zero_le _, fit⟩
      · split
        · exact ⟨inside, fit⟩
        · rename_i header enough whole
          refine ih _ ?_ ?_ ?_ rfl
          · simp only [List.length_drop]
            omega
          · simp only [List.length_drop]
            omega
          · intro m member
            rcases List.mem_append.mp member with old | new
            · exact fit m old
            · rw [List.mem_singleton] at new
              rw [new]
              simp only [List.length_drop, List.length_take]
              omega
    · exact ⟨inside, fit⟩

theorem clientTurns_fits (stream : List UInt8) (cuts : List Nat) :
    ∀ m ∈ (cuts.foldl clientTurn (.opened stream)).dispatched, m.payload.length + 8 ≤ bufLen := by
  have all : (cuts.foldl clientTurn (.opened stream)).ibuf.length ≤ bufLen ∧
      ∀ m ∈ (cuts.foldl clientTurn (.opened stream)).dispatched, m.payload.length + 8 ≤ bufLen := by
    refine List.foldlRecOn (motive := fun c : Inbox => c.ibuf.length ≤ bufLen ∧
      ∀ m ∈ c.dispatched, m.payload.length + 8 ≤ bufLen) cuts clientTurn ⟨Nat.zero_le _, nofun⟩ fun c fit asked _ => ?_
    unfold clientTurn
    dsimp only
    split
    · exact clientProcessInput_fits fit.1 fit.2
    · split
      · refine clientProcessInput_fits ?_ fit.2
        simp only [List.length_append, List.length_take]
        omega
      · exact fit
  exact all.2

end

end Enlil.Wld
