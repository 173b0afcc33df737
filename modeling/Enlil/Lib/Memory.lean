import Mathlib

/-! Byte memory, the numbers laid out in it, and lists linked through it. -/

namespace Enlil

/-- A memory, or a part of one, as the byte at each position. -/
abbrev Bytes := Nat → UInt8

/-- The little-endian number in `width` bytes from a position on. -/
def readLe (mem : Bytes) (pos : Nat) : Nat → Nat
  | 0 => 0
  | width + 1 => (mem pos).toNat + 256 * readLe mem (pos + 1) width

/-- A memory with a number stored little-endian in `width` bytes, its excess bits dropped. -/
def writeLe (mem : Bytes) (pos width value : Nat) : Bytes := fun p =>
  if pos ≤ p ∧ p < pos + width then UInt8.ofNat (value / 256 ^ (p - pos)) else mem p

/-- A buffer with `count` bytes of another one, from `pos` on, copied over it at `place`. -/
def memcpy (dst : Bytes) (place : Nat) (src : Bytes) (pos count : Nat) : Bytes := fun p =>
  if place ≤ p ∧ p < place + count then src (pos + (p - place)) else dst p

section

variable {mem mem' : Bytes} {pos width : Nat}

/-- A stored number leaves the bytes outside it alone. -/
theorem writeLe_outside {value p : Nat} (outside : p < pos ∨ pos + width ≤ p) :
    writeLe mem pos width value p = mem p := by
  rw [writeLe, if_neg (by omega)]

/-- A number depends on its own bytes only. -/
theorem readLe_congr (same : ∀ p, pos ≤ p → p < pos + width → mem p = mem' p) :
    readLe mem pos width = readLe mem' pos width := by
  induction width generalizing pos with
  | zero => rfl
  | succ width ih =>
    simp only [readLe]
    rw [same pos (by omega) (by omega), ih fun p low high => same p (by omega) (by omega)]

/-- The low bytes of a number are the number modulo their range. -/
theorem readLe_mod {width' : Nat} (fits : width' ≤ width) :
    readLe mem pos width' = readLe mem pos width % 256 ^ width' := by
  induction width' generalizing pos width with
  | zero => simp [readLe, Nat.mod_one]
  | succ count ih =>
    obtain ⟨rest, rfl⟩ : ∃ rest, width = rest + 1 := ⟨width - 1, by omega⟩
    have byte := (mem pos).toNat_lt
    rw [readLe, readLe, ih (show count ≤ rest by omega), Nat.pow_succ, Nat.mul_comm (256 ^ count) 256,
      Nat.mod_mul]
    have quotient : ((mem pos).toNat + 256 * readLe mem (pos + 1) rest) / 256 =
        readLe mem (pos + 1) rest := by omega
    rw [quotient]
    omega

/-- A number stored elsewhere is not seen. -/
theorem readLe_writeLe_apart {other width' value : Nat}
    (apart : pos + width ≤ other ∨ other + width' ≤ pos) :
    readLe (writeLe mem other width' value) pos width = readLe mem pos width :=
  readLe_congr fun _ low high => writeLe_outside (by omega)

/-- Reading the low bytes of a stored number gives the number modulo their range. -/
theorem readLe_writeLe {width' value : Nat} (fits : width' ≤ width) :
    readLe (writeLe mem pos width value) pos width' = value % 256 ^ width' := by
  -- The bytes are taken one by one, the position inside the stored number moving along.
  have general : ∀ (count skip : Nat), skip + count ≤ width →
      readLe (writeLe mem pos width value) (pos + skip) count = value / 256 ^ skip % 256 ^ count := by
    intro count
    induction count with
    | zero => intro skip _; simp [readLe, Nat.mod_one]
    | succ count ih =>
      intro skip inside
      have inRange : pos ≤ pos + skip ∧ pos + skip < pos + width := by omega
      have rest := ih (skip + 1) (by omega)
      rw [readLe, Nat.add_assoc, rest, writeLe, if_pos inRange, Nat.add_sub_cancel_left,
        UInt8.toNat_ofNat', Nat.pow_succ 256 skip, ← Nat.div_div_eq_div_mul, Nat.pow_succ 256 count,
        Nat.mul_comm (256 ^ count) 256, Nat.mod_mul]
  simpa using general width' 0 (by omega)

end

section

variable {α : Type} {next next' : α → α} {null : α}

/-- The nodes met by following the links from a head until the null link. -/
def Chain (next : α → α) (null : α) : α → List α → Prop
  | head, [] => head = null
  | head, node :: rest => head = node ∧ node ≠ null ∧ Chain next null (next node) rest

/-- A chain depends on the links of its own nodes only. -/
theorem Chain.congr {head : α} {nodes : List α} (chain : Chain next null head nodes)
    (same : ∀ node ∈ nodes, next' node = next node) : Chain next' null head nodes := by
  induction nodes generalizing head with
  | nil => exact chain
  | cons node rest ih =>
    obtain ⟨first, real, tail⟩ := chain
    refine ⟨first, real, ?_⟩
    rw [same node (by simp)]
    exact ih tail fun other member => same other (by simp [member])

/-- A head leads to one list of nodes. -/
theorem Chain.unique {head : α} {nodes nodes' : List α} (chain : Chain next null head nodes)
    (chain' : Chain next null head nodes') : nodes = nodes' := by
  induction nodes generalizing head nodes' with
  | nil =>
    cases nodes' with
    | nil => rfl
    | cons node rest => exact absurd (chain'.1.symm.trans chain) chain'.2.1
  | cons node rest ih =>
    obtain ⟨rfl, real, tail⟩ := chain
    cases nodes' with
    | nil => exact absurd chain' real
    | cons node' rest' =>
      obtain ⟨rfl, _, tail'⟩ := chain'
      rw [ih tail tail']

/-- A chain whose head is not null starts with that head. -/
theorem Chain.nonempty {head : α} {nodes : List α} (chain : Chain next null head nodes)
    (real : head ≠ null) : ∃ rest, nodes = head :: rest ∧ Chain next null (next head) rest := by
  cases nodes with
  | nil => exact absurd chain real
  | cons node rest =>
    obtain ⟨rfl, _, tail⟩ := chain
    exact ⟨rest, rfl, tail⟩

/-- The link of every node of a chain is null or again a node of it. -/
theorem Chain.link {head : α} {nodes : List α} (chain : Chain next null head nodes) {node : α}
    (member : node ∈ nodes) : next node = null ∨ next node ∈ nodes := by
  induction nodes generalizing head with
  | nil => cases member
  | cons first rest ih =>
    obtain ⟨_, _, tail⟩ := chain
    rcases List.mem_cons.mp member with rfl | later
    · cases rest with
      | nil => exact Or.inl tail
      | cons second _ => exact Or.inr (by simp [tail.1])
    · rcases ih tail later with last | inRest
      · exact Or.inl last
      · exact Or.inr (by simp [inRest])

end

end Enlil

/-! Numbers that are put together from shifted pieces. -/

namespace Enlil

/-- Bits set below others are added to them. -/
theorem glue_toNat {high low : UInt32} (k : Nat) {h l : Nat} (high_eq : high.toNat = h * 2 ^ k) (low_eq : low.toNat = l)
    (below : l < 2 ^ k) : (high ||| low).toNat = h * 2 ^ k + l := by
  rw [UInt32.toNat_or, high_eq, low_eq, ← Nat.shiftLeft_eq, Nat.shiftLeft_add_eq_or_of_lt below]

theorem shift_toNat {high : UInt32} (k : Nat) {h : Nat} (high_eq : high.toNat = h) (shift : k < 32)
    (fits : h * 2 ^ k < 2 ^ 32) : (high <<< UInt32.ofNat k).toNat = h * 2 ^ k := by
  rw [UInt32.toNat_shiftLeft, UInt32.toNat_ofNat', Nat.mod_eq_of_lt (a := k) (by omega), Nat.mod_eq_of_lt shift, high_eq,
    Nat.shiftLeft_eq, Nat.mod_eq_of_lt fits]

end Enlil
