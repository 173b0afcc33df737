import Mathlib

/-! The integer conversions of `enlilos-musl/src/stdlib.c`, and what the C standard prescribes for them. -/

namespace Enlil.Strtol

def einval : Nat := 22
def erange : Nat := 34

/-- What a conversion gives: a value, the place that is stored as the end, and the number of the error. -/
structure Result (α : Type) where
  value : α
  endptr : List UInt8
  errno : Nat
  deriving DecidableEq

def isspace (ch : UInt8) : Bool := ch = 0x20 ∨ ch = 0x09 ∨ ch = 0x0A ∨ ch = 0x0D ∨ ch = 0x0C ∨ ch = 0x0B

def skipSpace : List UInt8 → List UInt8
  | [] => []
  | ch :: s => if isspace ch then skipSpace s else ch :: s

def digitValue (ch : UInt8) : Option Nat :=
  if 0x30 ≤ ch ∧ ch ≤ 0x39 then some (ch.toNat - 0x30)
  else if 0x61 ≤ ch ∧ ch ≤ 0x7A then some (ch.toNat - 0x61 + 10)
  else if 0x41 ≤ ch ∧ ch ≤ 0x5A then some (ch.toNat - 0x41 + 10)
  else none

/-- What the loop over the digits gives. -/
structure Core where
  value : UInt64
  overflow : Bool
  any : Bool
  cursor : List UInt8

def coreLoop (base : Nat) (value : UInt64) (overflow any : Bool) : List UInt8 → Core
  | [] => ⟨value, overflow, any, []⟩
  | ch :: s =>
    match digitValue ch with
    | none => ⟨value, overflow, any, ch :: s⟩
    | some digit =>
      if base ≤ digit then ⟨value, overflow, any, ch :: s⟩
      else if (~~~0 - UInt64.ofNat digit) / UInt64.ofNat base < value then coreLoop base (~~~0) true true s
      else if !overflow then coreLoop base (value * UInt64.ofNat base + UInt64.ofNat digit) overflow true s
      else coreLoop base value overflow true s

def parseUnsignedCore (s : List UInt8) (base errno : Nat) : Core × Nat :=
  let core := coreLoop base 0 false false s
  (core, if core.overflow then erange else errno)

/-- Whether a place starts with the mark of base 16. -/
def hexMark (s : List UInt8) : Bool := s.getD 0 0 = 0x30 ∧ (s.getD 1 0 = 0x78 ∨ s.getD 1 0 = 0x58)

/-- Takes a mark of the base off, and gives the base it stands for. -/
def takeMark (cursor : List UInt8) (base : Nat) : List UInt8 × Nat :=
  if base = 0 then
    if hexMark cursor then (cursor.drop 2, 16)
    else if cursor.getD 0 0 = 0x30 then (cursor.drop 1, 8)
    else (cursor, 10)
  else if base = 16 ∧ hexMark cursor then (cursor.drop 2, 16)
  else (cursor, base)

/-- The place of the digits, their base, and the number of the error. -/
def parseIntegerPrefix (cursor : List UInt8) (base errno : Nat) : List UInt8 × Nat × Nat :=
  let (s, base) := takeMark cursor base
  if base < 2 ∨ 36 < base then (cursor, base, einval) else (s, base, errno)

/-- Whether a place starts with a minus, and what follows a sign. -/
def sign (s : List UInt8) : Bool × List UInt8 :=
  if s.getD 0 0 = 0x2B ∨ s.getD 0 0 = 0x2D then (s.getD 0 0 = 0x2D, s.drop 1) else (false, s)

def parseUnsignedInteger (nptr : List UInt8) (base errno : Nat) : Result UInt64 :=
  let (negative, s) := sign (skipSpace nptr)
  let (digits, base, errno) := parseIntegerPrefix s base errno
  if errno = einval then ⟨0, nptr, errno⟩
  else
    let (core, errno) := parseUnsignedCore digits base errno
    if !core.any then ⟨0, nptr, errno⟩
    else ⟨if negative then (-core.value.toInt64).toUInt64 else core.value, core.cursor, errno⟩

def enlilLongMax : Int64 := ((~~~0 : UInt64) >>> 1).toInt64
def enlilLongMin : Int64 := -enlilLongMax - 1
def enlilLlongMax : Int64 := ((~~~0 : UInt64) >>> 1).toInt64
def enlilLlongMin : Int64 := -enlilLlongMax - 1

def parseSignedInteger (nptr : List UInt8) (base errno : Nat) (longLongMode : Bool) : Result Int64 :=
  let (negative, s) := sign (skipSpace nptr)
  let (digits, base, errno) := parseIntegerPrefix s base errno
  if errno = einval then ⟨0, nptr, errno⟩
  else
    let (core, errno) := parseUnsignedCore digits base errno
    if !core.any then ⟨0, nptr, errno⟩
    else
      let limit :=
        if longLongMode then if negative then (~~~0 : UInt64) >>> 1 + 1 else (~~~0 : UInt64) >>> 1
        else
          let maxLong := (~~~0 : UInt64) >>> 1
          if negative then maxLong + 1 else maxLong
      if limit < core.value then
        if longLongMode then ⟨if negative then enlilLlongMin else enlilLlongMax, core.cursor, erange⟩
        else ⟨if negative then enlilLongMin else enlilLongMax, core.cursor, erange⟩
      else
        let result :=
          if negative then
            if core.value = enlilLlongMax.toUInt64 + 1 then enlilLlongMin else -core.value.toInt64
          else core.value.toInt64
        ⟨result, core.cursor, errno⟩

def strtol (nptr : List UInt8) (base errno : Nat) : Result Int64 := parseSignedInteger nptr base errno false
def strtoul (nptr : List UInt8) (base errno : Nat) : Result UInt64 := parseUnsignedInteger nptr base errno
def strtoll (nptr : List UInt8) (base errno : Nat) : Result Int64 := parseSignedInteger nptr base errno true
def strtoull (nptr : List UInt8) (base errno : Nat) : Result UInt64 := parseUnsignedInteger nptr base errno

/-- Whether a character is a digit of a base. -/
def isDigit (base : Nat) (ch : UInt8) : Bool := (digitValue ch).any (· < base)

/-- The number that digits stand for. -/
def valueOf (base : Nat) (digits : List UInt8) : Nat := digits.foldl (fun n ch => n * base + (digitValue ch).getD 0) 0

/-- The forms of a number that the standard expects, and the number each stands for. -/
inductive Expected : Nat → List UInt8 → Nat → Prop
  | plain {base digits} (ranged : 2 ≤ base) (some_digit : digits ≠ []) (all : ∀ ch ∈ digits, isDigit base ch) :
    Expected base digits (valueOf base digits)
  | marked {base x digits} (ranged : base = 0 ∨ base = 16) (mark : x = 0x78 ∨ x = 0x58) (some_digit : digits ≠ [])
    (all : ∀ ch ∈ digits, isDigit 16 ch) : Expected base (0x30 :: x :: digits) (valueOf 16 digits)
  | decimal {ch digits} (first : ch ≠ 0x30) (all : ∀ d ∈ ch :: digits, isDigit 10 d) :
    Expected 0 (ch :: digits) (valueOf 10 (ch :: digits))
  | octal {digits} (all : ∀ ch ∈ digits, isDigit 8 ch) : Expected 0 (0x30 :: digits) (valueOf 8 digits)

/-- The longest beginning of a text that is of an expected form. -/
structure Subject (base : Nat) (text subject : List UInt8) (n : Nat) : Prop where
  starts : subject <+: text
  form : Expected base subject n
  longest : ∀ other m, other <+: text → Expected base other m → other.length ≤ subject.length

/-- What a type of numbers makes of a sign and a number: the value, and the number of the error. -/
inductive Kind where
  | signed
  | unsigned
  deriving DecidableEq

def Kind.convert : Kind → Bool → Nat → Nat → Int × Nat
  | .signed, negative, n, errno =>
    let x : Int := if negative then -n else n
    if 2 ^ 63 ≤ x then (2 ^ 63 - 1, erange) else if x < -2 ^ 63 then (-2 ^ 63, erange) else (x, errno)
  | .unsigned, negative, n, errno =>
    if 2 ^ 64 ≤ n then (2 ^ 64 - 1, erange) else ((if negative then -(n : Int) else n) % 2 ^ 64, errno)

/-- The sign of the text that a call converts, and the text behind it. -/
def negative (nptr : List UInt8) : Bool := (sign (nptr.dropWhile isspace)).1

def text (nptr : List UInt8) : List UInt8 := (sign (nptr.dropWhile isspace)).2

/-- What the standard prescribes for a call. -/
structure Prescribed (kind : Kind) (nptr : List UInt8) (base errno : Nat) (r : Result Int) : Prop where
  converts : ∀ subject n, Subject base (text nptr) subject n →
    let (value, errno') := kind.convert (negative nptr) n errno
    r = ⟨value, (text nptr).drop subject.length, errno'⟩
  refuses : (∀ subject n, ¬ Subject base (text nptr) subject n) → r = ⟨0, nptr, errno⟩

/-- A mark of base 16 that a digit follows. -/
def hexAhead (t : List UInt8) : Bool := hexMark t && isDigit 16 (t.getD 2 0)

def radix (base : Nat) (t : List UInt8) : Nat :=
  if base = 0 then if hexAhead t then 16 else if t.getD 0 0 = 0x30 then 8 else 10 else base

def skipped (base : Nat) (t : List UInt8) : Nat := if (base = 0 ∨ base = 16) ∧ hexAhead t then 2 else 0

/-- The digits of the longest beginning that is of an expected form. -/
def digitsOf (base : Nat) (t : List UInt8) : List UInt8 := (t.drop (skipped base t)).takeWhile (isDigit (radix base t))

section

variable {base n m : Nat} {t q p : List UInt8}

theorem not_hex {x : UInt8} (mark : x = 0x78 ∨ x = 0x58) : isDigit 16 x = false ∧ isDigit 8 x = false := by
  rcases mark with rfl | rfl <;> decide

theorem hexAhead_iff : hexAhead t ↔
    ∃ x h rest, t = 0x30 :: x :: h :: rest ∧ (x = 0x78 ∨ x = 0x58) ∧ isDigit 16 h := by
  constructor
  · intro ahead
    rcases t with _ | ⟨a, _ | ⟨x, _ | ⟨h, rest⟩⟩⟩
    · cases ahead
    · simp [hexAhead, hexMark] at ahead
    · have none : isDigit 16 0 = false := by decide
      simp [hexAhead, none] at ahead
    · obtain ⟨⟨rfl, mark⟩, digit⟩ : (a = 0x30 ∧ (x = 0x78 ∨ x = 0x58)) ∧ isDigit 16 h := by
        simpa [hexAhead, hexMark] using ahead
      exact ⟨x, h, rest, rfl, mark, digit⟩
  · rintro ⟨x, h, rest, rfl, mark, digit⟩
    simp [hexAhead, hexMark, mark, digit]

theorem prefix_takeWhile {P : UInt8 → Bool} (starts : q <+: t) (all : ∀ ch ∈ q, P ch) : q <+: t.takeWhile P := by
  obtain ⟨rest, rfl⟩ := starts
  rw [List.takeWhile_append_of_pos all]
  exact List.prefix_append q _

theorem valueOf_zero (digits : List UInt8) : valueOf base (0x30 :: digits) = valueOf base digits := by
  have zero : (digitValue 0x30).getD 0 = 0 := by decide
  rw [valueOf, List.foldl_cons, zero, Nat.zero_mul]
  rfl

theorem digits_bound (none_skipped : skipped base t = 0) (some_digit : q ≠ []) (starts : q <+: t)
    (all : ∀ ch ∈ q, isDigit (radix base t) ch) :
    digitsOf base t ≠ [] ∧ q.length ≤ skipped base t + (digitsOf base t).length ∧
      (q.length = skipped base t + (digitsOf base t).length →
        valueOf (radix base t) q = valueOf (radix base t) (digitsOf base t)) := by
  have taken : q <+: digitsOf base t := by
    rw [digitsOf, none_skipped]
    exact prefix_takeWhile starts all
  refine ⟨fun none => some_digit (List.prefix_nil.mp (none ▸ taken)), ?_, fun same => ?_⟩
  · exact taken.length_le.trans (Nat.le_add_left _ _)
  · rw [none_skipped, Nat.zero_add] at same
    rw [taken.eq_of_length same]

theorem radix_of_ahead (marked : base = 0 ∨ base = 16) (ahead : hexAhead t) : radix base t = 16 := by
  rcases marked with rfl | rfl
  · rw [radix, if_pos rfl, if_pos ahead]
  · rfl

theorem short_bound (marked : base = 0 ∨ base = 16) (ahead : hexAhead t) (short : q.length ≤ 1) :
    digitsOf base t ≠ [] ∧ q.length ≤ skipped base t + (digitsOf base t).length ∧
      (q.length = skipped base t + (digitsOf base t).length → m = valueOf (radix base t) (digitsOf base t)) := by
  have two : skipped base t = 2 := if_pos ⟨marked, ahead⟩
  have sixteen := radix_of_ahead marked ahead
  obtain ⟨x, h, rest, shape, mark, digit⟩ := hexAhead_iff.mp ahead
  refine ⟨?_, by omega, fun same => by omega⟩
  rw [digitsOf, two, sixteen, shape]
  simp [digit]

theorem expected_bound (starts : q <+: t) (form : Expected base q m) :
    digitsOf base t ≠ [] ∧ q.length ≤ skipped base t + (digitsOf base t).length ∧
      (q.length = skipped base t + (digitsOf base t).length → m = valueOf (radix base t) (digitsOf base t)) := by
  cases form with
  | plain ranged some_digit all =>
    have same : radix base t = base := if_neg (by omega)
    by_cases ahead : base = 16 ∧ hexAhead t
    · obtain ⟨rfl, ahead⟩ := ahead
      refine short_bound (.inr rfl) ahead ?_
      obtain ⟨x, h, rest, rfl, mark, digit⟩ := hexAhead_iff.mp ahead
      -- A second digit would be the letter of the mark.
      rcases q with _ | ⟨a, _ | ⟨b, q⟩⟩
      · exact Nat.zero_le _
      · exact le_rfl
      · obtain ⟨rfl, -⟩ := List.cons_prefix_cons.mp (List.cons_prefix_cons.mp starts).2
        have letter := all b (by simp)
        rw [(not_hex mark).1] at letter
        cases letter
    · have none_skipped : skipped base t = 0 := if_neg (by grind)
      have bound := digits_bound none_skipped some_digit starts (by rwa [same])
      rwa [same] at bound ⊢
  | @marked base x digits ranged mark some_digit all =>
    obtain ⟨rest, rfl⟩ := starts
    obtain ⟨h, digits, rfl⟩ := List.exists_cons_of_ne_nil some_digit
    have ahead : hexAhead (0x30 :: x :: (h :: digits) ++ rest) :=
      hexAhead_iff.mpr ⟨x, h, digits ++ rest, rfl, mark, all h List.mem_cons_self⟩
    have two : skipped base (0x30 :: x :: (h :: digits) ++ rest) = 2 := if_pos ⟨ranged, ahead⟩
    have sixteen := radix_of_ahead ranged ahead
    have taken : h :: digits <+: digitsOf base (0x30 :: x :: (h :: digits) ++ rest) := by
      rw [digitsOf, two, sixteen]
      exact prefix_takeWhile (List.prefix_append _ _) all
    refine ⟨fun none => by rw [none] at taken; simp at taken, ?_, fun same => ?_⟩
    · have short := taken.length_le
      rw [two]
      simp only [List.length_cons] at short ⊢
      omega
    · rw [two] at same
      have length : (h :: digits).length = (digitsOf base (0x30 :: x :: (h :: digits) ++ rest)).length := by
        simp only [List.length_cons] at same ⊢
        omega
      rw [sixteen]
      exact congrArg _ (taken.eq_of_length length)
  | @decimal ch digits first all =>
    obtain ⟨rest, rfl⟩ := starts
    have none_ahead : ¬ hexAhead (ch :: digits ++ rest) := by simp [hexAhead, hexMark, first]
    have none_skipped : skipped 0 (ch :: digits ++ rest) = 0 := if_neg fun both => none_ahead both.2
    have ten : radix 0 (ch :: digits ++ rest) = 10 := by
      rw [radix, if_pos rfl, if_neg none_ahead]
      exact if_neg first
    have bound := digits_bound none_skipped (List.cons_ne_nil ch digits) (List.prefix_append _ rest) (by rwa [ten])
    rwa [ten] at bound ⊢
  | @octal digits all =>
    by_cases ahead : hexAhead t
    · refine short_bound (.inl rfl) ahead ?_
      obtain ⟨x, h, rest, rfl, mark, digit⟩ := hexAhead_iff.mp ahead
      rcases digits with _ | ⟨b, digits⟩
      · exact le_rfl
      · obtain ⟨rfl, starts⟩ := List.cons_prefix_cons.mp (List.cons_prefix_cons.mp starts).2
        have letter := all b (by simp)
        rw [(not_hex mark).2] at letter
        cases letter
    · obtain ⟨rest, rfl⟩ := starts
      have none_skipped : skipped 0 (0x30 :: digits ++ rest) = 0 := by
        rw [skipped, if_neg]
        exact fun both => ahead both.2
      have eight : radix 0 (0x30 :: digits ++ rest) = 8 := by
        rw [radix, if_pos rfl, if_neg ahead]
        rfl
      have all' : ∀ ch ∈ 0x30 :: digits, isDigit 8 ch := List.forall_mem_cons.mpr ⟨by decide, all⟩
      have bound := digits_bound none_skipped (List.cons_ne_nil _ digits) (List.prefix_append _ rest) (by rwa [eight])
      rw [eight] at bound ⊢
      rwa [valueOf_zero] at bound

theorem expected_digitsOf (ranged : base = 0 ∨ 2 ≤ base) (some_digit : digitsOf base t ≠ []) :
    Expected base (t.take (skipped base t + (digitsOf base t).length)) (valueOf (radix base t) (digitsOf base t)) := by
  have taken : digitsOf base t <+: t.drop (skipped base t) := List.takeWhile_prefix _
  have all : ∀ ch ∈ digitsOf base t, isDigit (radix base t) ch := fun ch member => (List.mem_takeWhile_imp member :)
  by_cases marked : (base = 0 ∨ base = 16) ∧ hexAhead t
  · obtain ⟨x, h, rest, shape, mark, digit⟩ := hexAhead_iff.mp marked.2
    have two : skipped base t = 2 := if_pos marked
    have sixteen := radix_of_ahead marked.1 marked.2
    have drops : t.drop 2 = h :: rest := by rw [shape]; rfl
    rw [two, drops] at taken
    have subject : t.take (skipped base t + (digitsOf base t).length) = 0x30 :: x :: digitsOf base t := by
      have ahead : ∀ k, t.take (k + 2) = 0x30 :: x :: (h :: rest).take k := fun k => by rw [shape]; rfl
      rw [two, Nat.add_comm, ahead, ← List.prefix_iff_eq_take.mp taken]
    rw [subject, sixteen]
    rw [sixteen] at all
    exact .marked marked.1 mark some_digit all
  · have none_skipped : skipped base t = 0 := if_neg marked
    rw [none_skipped, Nat.zero_add]
    rw [none_skipped, List.drop_zero] at taken
    rw [← List.prefix_iff_eq_take.mp taken]
    rcases ranged with rfl | ranged
    · have none_ahead : ¬ hexAhead t := fun ahead => marked ⟨.inl rfl, ahead⟩
      obtain ⟨ch, digits, shape⟩ := List.exists_cons_of_ne_nil some_digit
      have head : t.getD 0 0 = ch := by
        rw [shape] at taken
        obtain ⟨rest, rfl⟩ := taken
        rfl
      by_cases zero : ch = 0x30
      · have eight : radix 0 t = 8 := by
          rw [radix, if_pos rfl, if_neg none_ahead, head, if_pos zero]
        rw [eight] at all ⊢
        rw [shape, zero] at all ⊢
        rw [valueOf_zero]
        exact .octal (List.forall_mem_cons.mp all).2
      · have ten : radix 0 t = 10 := by
          rw [radix, if_pos rfl, if_neg none_ahead, head, if_neg zero]
        rw [ten] at all ⊢
        rw [shape] at all ⊢
        exact .decimal zero all
    · have same : radix base t = base := if_neg (by omega)
      rw [same] at all ⊢
      exact .plain ranged some_digit all

theorem subject_iff (ranged : base = 0 ∨ 2 ≤ base) : Subject base t p n ↔
    digitsOf base t ≠ [] ∧ p = t.take (skipped base t + (digitsOf base t).length) ∧
      n = valueOf (radix base t) (digitsOf base t) := by
  constructor
  · intro subject
    obtain ⟨some_digit, short, value⟩ := expected_bound subject.starts subject.form
    have long := subject.longest _ _ (List.take_prefix _ _) (expected_digitsOf ranged some_digit)
    have inside := subject.starts.length_le
    have length : p.length = skipped base t + (digitsOf base t).length := by
      by_contra differs
      have taken : digitsOf base t <+: t.drop (skipped base t) := List.takeWhile_prefix _
      have fits := taken.length_le
      have some_length := List.length_pos_of_ne_nil some_digit
      rw [List.length_drop] at fits
      rw [List.length_take] at long
      omega
    exact ⟨some_digit, length ▸ List.prefix_iff_eq_take.mp subject.starts, value length⟩
  · rintro ⟨some_digit, rfl, rfl⟩
    refine ⟨List.take_prefix _ _, expected_digitsOf ranged some_digit, fun other m starts form => ?_⟩
    have bound := (expected_bound starts form).2.1
    have inside := starts.length_le
    rw [List.length_take]
    omega

end

/-- A number as the loop over the digits keeps it. -/
def Represents (value : UInt64) (overflow : Bool) (n : Nat) : Prop :=
  overflow = false ∧ value.toNat = n ∨ overflow = true ∧ value = ~~~0 ∧ 2 ^ 64 ≤ n

section

variable {base : Nat}

theorem digit_small {ch : UInt8} {digit : Nat} (value : digitValue ch = some digit) : digit < 36 := by
  unfold digitValue at value
  split at value
  · obtain rfl := Option.some.inj value
    rename_i range
    have := UInt8.le_iff_toNat_le.mp range.2
    simp only [UInt8.reduceToNat] at this
    omega
  split at value
  · obtain rfl := Option.some.inj value
    rename_i range
    have := UInt8.le_iff_toNat_le.mp range.2
    simp only [UInt8.reduceToNat] at this
    omega
  split at value
  · obtain rfl := Option.some.inj value
    rename_i range
    have := UInt8.le_iff_toNat_le.mp range.2
    simp only [UInt8.reduceToNat] at this
    omega
  · cases value

theorem small_toNat {n : Nat} (small : n < 100) : (UInt64.ofNat n).toNat = n :=
  UInt64.toNat_ofNat_of_lt' (small.trans (by decide))

theorem full_iff (low : 2 ≤ base) (high : base ≤ 36) {value : UInt64} {digit : Nat} (small : digit < 36) :
    (~~~0 - UInt64.ofNat digit) / UInt64.ofNat base < value ↔ 2 ^ 64 ≤ value.toNat * base + digit := by
  have base_eq : (UInt64.ofNat base).toNat = base := small_toNat (by omega)
  have digit_eq : (UInt64.ofNat digit).toNat = digit := small_toNat (by omega)
  have most : (~~~0 : UInt64).toNat = 2 ^ 64 - 1 := rfl
  have room : (~~~0 - UInt64.ofNat digit).toNat = 2 ^ 64 - 1 - digit := by
    rw [UInt64.toNat_sub_of_le, most, digit_eq]
    rw [UInt64.le_iff_toNat_le, most, digit_eq]
    omega
  rw [UInt64.lt_iff_toNat_lt, UInt64.toNat_div, base_eq, room, Nat.div_lt_iff_lt_mul (by omega)]
  omega

theorem Represents.digit (low : 2 ≤ base) (high : base ≤ 36) {value : UInt64} {overflow : Bool} {n digit : Nat}
    (small : digit < 36) (kept : Represents value overflow n) :
    ((~~~0 - UInt64.ofNat digit) / UInt64.ofNat base < value → Represents (~~~0) true (n * base + digit)) ∧
      (¬ (~~~0 - UInt64.ofNat digit) / UInt64.ofNat base < value →
        overflow = false ∧ Represents (value * UInt64.ofNat base + UInt64.ofNat digit) false (n * base + digit)) := by
  rw [full_iff low high small]
  have base_eq : (UInt64.ofNat base).toNat = base := small_toNat (by omega)
  have digit_eq : (UInt64.ofNat digit).toNat = digit := small_toNat (by omega)
  rcases kept with ⟨rfl, rfl⟩ | ⟨rfl, rfl, past⟩
  · refine ⟨fun full => .inr ⟨rfl, rfl, full⟩, fun fits => ⟨rfl, .inl ⟨rfl, ?_⟩⟩⟩
    rw [UInt64.toNat_add, UInt64.toNat_mul, base_eq, digit_eq, Nat.mod_eq_of_lt (a := _ * _) (by omega), Nat.mod_eq_of_lt (by omega)]
  · have grows : n ≤ n * base := Nat.le_mul_of_pos_right n (by omega)
    refine ⟨fun _ => .inr ⟨rfl, rfl, by omega⟩, fun fits => absurd ?_ fits⟩
    have most : (~~~0 : UInt64).toNat = 2 ^ 64 - 1 := rfl
    rw [most]
    omega

theorem coreLoop_spec (low : 2 ≤ base) (high : base ≤ 36) (s : List UInt8) :
    ∀ any {value overflow n}, Represents value overflow n →
      Represents (coreLoop base value overflow any s).value (coreLoop base value overflow any s).overflow
          ((s.takeWhile (isDigit base)).foldl (fun n ch => n * base + (digitValue ch).getD 0) n) ∧
        (coreLoop base value overflow any s).any = (any || decide (s.takeWhile (isDigit base) ≠ [])) ∧
        (coreLoop base value overflow any s).cursor = s.drop (s.takeWhile (isDigit base)).length := by
  induction s with
  | nil =>
    intro any value overflow n kept
    exact ⟨kept, by simp [coreLoop], rfl⟩
  | cons ch s ih =>
    intro any value overflow n kept
    have stops : isDigit base ch = false → Represents value overflow
          (((ch :: s).takeWhile (isDigit base)).foldl (fun n ch => n * base + (digitValue ch).getD 0) n) ∧
        any = (any || decide ((ch :: s).takeWhile (isDigit base) ≠ [])) ∧
        ch :: s = (ch :: s).drop ((ch :: s).takeWhile (isDigit base)).length := by
      intro none
      rw [List.takeWhile_cons_of_neg (by rw [none]; decide)]
      exact ⟨kept, by simp, rfl⟩
    unfold coreLoop
    rcases value_eq : digitValue ch with _ | digit
    · exact stops (by rw [isDigit, value_eq]; rfl)
    dsimp only
    by_cases large : base ≤ digit
    · rw [if_pos large]
      exact stops (by rw [isDigit, value_eq]; simpa using large)
    rw [if_neg large]
    have digit' : isDigit base ch := by
      rw [isDigit, value_eq]
      simpa using large
    have step := kept.digit low high (digit_small value_eq)
    rw [List.takeWhile_cons_of_pos digit', List.foldl_cons, value_eq]
    have some_digit : decide (ch :: s.takeWhile (isDigit base) ≠ []) = true := by simp
    rw [some_digit, Bool.or_true, List.length_cons, List.drop_succ_cons]
    by_cases full : (~~~0 - UInt64.ofNat digit) / UInt64.ofNat base < value
    · rw [if_pos full]
      obtain ⟨kept, any_eq, cursor⟩ := ih true (step.1 full)
      exact ⟨kept, any_eq, cursor⟩
    · obtain ⟨rfl, more⟩ := step.2 full
      rw [if_neg full, if_pos Bool.not_false]
      obtain ⟨kept, any_eq, cursor⟩ := ih true more
      exact ⟨kept, any_eq, cursor⟩

end

/-- A first zero that the code takes for a mark of the base although no digit of that base follows. -/
def CutOff (base : Nat) (t : List UInt8) : Prop :=
  (base = 0 ∨ base = 16) ∧ hexMark t ∧ ¬ isDigit 16 (t.getD 2 0) ∨
    base = 0 ∧ t.getD 0 0 = 0x30 ∧ ¬ hexMark t ∧ ¬ isDigit 8 (t.getD 1 0)

/-- The digits that the code takes. -/
def takenDigits (base : Nat) (t : List UInt8) : List UInt8 := (takeMark t base).1.takeWhile (isDigit (takeMark t base).2)

section

variable {base : Nat} {t : List UInt8}

theorem takeMark_ranged (ranged : base = 0 ∨ 2 ≤ base ∧ base ≤ 36) :
    2 ≤ (takeMark t base).2 ∧ (takeMark t base).2 ≤ 36 := by
  unfold takeMark
  split
  · split
    · exact ⟨(by decide : 2 ≤ 16), (by decide : 16 ≤ 36)⟩
    split
    · exact ⟨(by decide : 2 ≤ 8), (by decide : 8 ≤ 36)⟩
    · exact ⟨(by decide : 2 ≤ 10), (by decide : 10 ≤ 36)⟩
  · split
    · exact ⟨(by decide : 2 ≤ 16), (by decide : 16 ≤ 36)⟩
    · exact ranged.resolve_left ‹_›

theorem parseIntegerPrefix_eq (ranged : base = 0 ∨ 2 ≤ base ∧ base ≤ 36) (errno : Nat) :
    parseIntegerPrefix t base errno = ((takeMark t base).1, (takeMark t base).2, errno) := by
  obtain ⟨low, high⟩ := takeMark_ranged (t := t) ranged
  rw [parseIntegerPrefix]
  generalize takeMark t base = taken at *
  obtain ⟨s, b⟩ := taken
  exact if_neg (not_or.mpr ⟨Nat.not_lt.mpr low, Nat.not_lt.mpr high⟩)

theorem takeWhile_nil_iff {s : List UInt8} : s.takeWhile (isDigit base) = [] ↔ ¬ isDigit base (s.getD 0 0) := by
  have none : isDigit base 0 = false := rfl
  cases s <;> simp [none]

theorem hexAhead_of_mark (marked : base = 0 ∨ base = 16) (mark : hexMark t) (uncut : ¬ CutOff base t) : hexAhead t := by
  by_contra none
  refine uncut (.inl ⟨marked, mark, fun digit => none ?_⟩)
  rw [hexAhead, mark, digit]
  rfl

theorem takenDigits_uncut (uncut : ¬ CutOff base t) : (takenDigits base t = [] ↔ digitsOf base t = []) ∧
    (takeMark t base).1.drop (takenDigits base t).length = t.drop (skipped base t + (digitsOf base t).length) ∧
    valueOf (takeMark t base).2 (takenDigits base t) = valueOf (radix base t) (digitsOf base t) := by
  have same : (takeMark t base) = (t.drop (skipped base t), radix base t) →
      (takenDigits base t = [] ↔ digitsOf base t = []) ∧
        (takeMark t base).1.drop (takenDigits base t).length = t.drop (skipped base t + (digitsOf base t).length) ∧
        valueOf (takeMark t base).2 (takenDigits base t) = valueOf (radix base t) (digitsOf base t) := by
    intro taken
    rw [takenDigits, taken]
    exact ⟨Iff.rfl, List.drop_drop, rfl⟩
  by_cases mark : (base = 0 ∨ base = 16) ∧ hexMark t
  · have ahead := hexAhead_of_mark mark.1 mark.2 uncut
    refine same ?_
    rw [skipped, if_pos ⟨mark.1, ahead⟩, radix_of_ahead mark.1 ahead, takeMark]
    rcases mark with ⟨rfl | rfl, mark⟩
    · rw [if_pos rfl, if_pos mark]
    · rw [if_neg (by decide), if_pos ⟨rfl, mark⟩]
  have none_ahead : ¬ ((base = 0 ∨ base = 16) ∧ hexAhead t) := fun both => mark ⟨both.1, (Bool.and_eq_true_iff.mp both.2).1⟩
  have none_skipped : skipped base t = 0 := if_neg none_ahead
  by_cases zero : base = 0
  · subst zero
    have plain : ¬ hexMark t := fun hex => mark ⟨.inl rfl, hex⟩
    have none_ahead : ¬ hexAhead t := fun ahead => none_ahead ⟨.inl rfl, ahead⟩
    by_cases octal : t.getD 0 0 = 0x30
    · -- The code takes the first zero for a mark, the standard for a digit.
      obtain ⟨rest, rfl⟩ : ∃ rest, t = 0x30 :: rest := by
        cases t with
        | nil => cases octal
        | cons ch rest => exact ⟨rest, by rw [← show ch = 0x30 from octal]⟩
      have eight : radix 0 (0x30 :: rest) = 8 := by rw [radix, if_pos rfl, if_neg none_ahead, if_pos octal]
      have taken : takeMark (0x30 :: rest) 0 = (rest, 8) := by
        rw [takeMark, if_pos rfl, if_neg plain, if_pos octal]
        rfl
      have digits : digitsOf 0 (0x30 :: rest) = 0x30 :: takenDigits 0 (0x30 :: rest) := by
        rw [digitsOf, takenDigits, none_skipped, eight, taken, List.drop_zero, List.takeWhile_cons_of_pos (by decide)]
      have some_digit : takenDigits 0 (0x30 :: rest) ≠ [] := by
        intro none
        rw [takenDigits, taken] at none
        exact uncut (.inr ⟨rfl, octal, plain, takeWhile_nil_iff.mp none⟩)
      rw [digits, eight, valueOf_zero, none_skipped, Nat.zero_add, taken]
      exact ⟨by simp [some_digit], rfl, rfl⟩
    · refine same ?_
      rw [none_skipped, takeMark, if_pos rfl, if_neg plain, if_neg octal, radix, if_pos rfl, if_neg none_ahead, if_neg octal]
      rfl
  · refine same ?_
    rw [none_skipped, takeMark, if_neg zero, if_neg fun both => mark ⟨.inr both.1, both.2⟩, radix, if_neg zero]
    rfl

theorem takenDigits_cut (cut : CutOff base t) : takenDigits base t = [] ∧ digitsOf base t ≠ [] := by
  have first : ∀ b, isDigit (b + 1) 0x30 := fun b => by
    rw [isDigit, show digitValue 0x30 = some 0 by decide]
    simp
  rcases cut with ⟨marked, mark, none⟩ | ⟨rfl, zero, plain, none⟩
  · have none_ahead : ¬ hexAhead t := fun ahead => none (Bool.and_eq_true_iff.mp ahead).2
    have none_skipped : skipped base t = 0 := if_neg fun both => none_ahead both.2
    have zero : t.getD 0 0 = 0x30 := by
      have both := mark
      simp only [hexMark, decide_eq_true_eq] at both
      exact both.1
    have taken : takeMark t base = (t.drop 2, 16) := by
      rcases marked with rfl | rfl
      · rw [takeMark, if_pos rfl, if_pos mark]
      · rw [takeMark, if_neg (by decide), if_pos ⟨rfl, mark⟩]
    refine ⟨?_, ?_⟩
    · rw [takenDigits, taken]
      refine takeWhile_nil_iff.mpr ?_
      simpa using none
    · rw [digitsOf, none_skipped, Ne, takeWhile_nil_iff, List.drop_zero, zero, not_not]
      rcases marked with rfl | rfl
      · rw [radix, if_pos rfl, if_neg none_ahead, if_pos zero]
        exact first 7
      · exact first 15
  · have none_ahead : ¬ hexAhead t := fun ahead => plain (Bool.and_eq_true_iff.mp ahead).1
    have none_skipped : skipped 0 t = 0 := if_neg fun both => none_ahead both.2
    have taken : takeMark t 0 = (t.drop 1, 8) := by rw [takeMark, if_pos rfl, if_neg plain, if_pos zero]
    refine ⟨?_, ?_⟩
    · rw [takenDigits, taken]
      refine takeWhile_nil_iff.mpr ?_
      simpa using none
    · rw [digitsOf, none_skipped, Ne, takeWhile_nil_iff, List.drop_zero, zero, not_not, radix, if_pos rfl,
        if_neg none_ahead, if_pos zero]
      exact first 7

end

theorem skipSpace_eq (s : List UInt8) : skipSpace s = s.dropWhile isspace := by
  induction s with
  | nil => rfl
  | cons ch s ih =>
    rw [skipSpace, List.dropWhile_cons, ih]

/-- A value in the type that all the results are compared in. -/
def Result.map {α β : Type} (f : α → β) (r : Result α) : Result β := ⟨f r.value, r.endptr, r.errno⟩

/-- What the digits that a call takes give. -/
def found (nptr : List UInt8) (base : Nat) : Nat := valueOf (takeMark (text nptr) base).2 (takenDigits base (text nptr))

def behind (nptr : List UInt8) (base : Nat) : List UInt8 :=
  (takeMark (text nptr) base).1.drop (takenDigits base (text nptr)).length

section

variable {value : UInt64} {overflow : Bool} {n errno : Nat}

theorem Represents.unsigned (kept : Represents value overflow n) (negative : Bool) :
    (((if negative then (-value.toInt64).toUInt64 else value).toNat : Int), if overflow then erange else errno) =
      if negative ∧ 2 ^ 64 ≤ n then (1, erange) else Kind.unsigned.convert negative n errno := by
  rcases kept with ⟨rfl, rfl⟩ | ⟨rfl, rfl, past⟩
  · have bound := value.toNat_lt
    have below : ¬ 2 ^ 64 ≤ value.toNat := Nat.not_le.mpr bound
    have plain : ¬ (negative = true ∧ 2 ^ 64 ≤ value.toNat) := fun both => below both.2
    rw [if_neg plain, Kind.convert, if_neg below]
    refine Prod.ext ?_ rfl
    cases negative
    · simp only [Bool.false_eq_true, if_false]
      omega
    · simp only [if_true]
      rw [show (-value.toInt64).toUInt64 = -value from rfl, UInt64.toNat_neg]
      simp only [UInt64.size]
      omega
  · cases negative
    · have plain : ¬ (false = true ∧ 2 ^ 64 ≤ n) := by simp
      rw [if_neg plain, Kind.convert, if_pos past]
      rfl
    · have both : true = true ∧ 2 ^ 64 ≤ n := ⟨rfl, past⟩
      rw [if_pos both]
      rfl

/-- The largest number that is kept of a sign. -/
def limit (negative : Bool) : UInt64 := if negative then (~~~0 : UInt64) >>> 1 + 1 else (~~~0 : UInt64) >>> 1

theorem Represents.signed (kept : Represents value overflow n) (negative : Bool) :
    (if limit negative < value then ((if negative then enlilLlongMin else enlilLlongMax).toInt, erange)
      else ((if negative then if value = enlilLlongMax.toUInt64 + 1 then enlilLlongMin else -value.toInt64
          else value.toInt64).toInt, if overflow then erange else errno)) =
      Kind.signed.convert negative n errno := by
  rcases kept with ⟨rfl, rfl⟩ | ⟨rfl, rfl, past⟩
  · have value_eq : value.toInt64 = Int64.ofNat value.toNat := by
      rw [← UInt64.toInt64_ofNat', UInt64.ofNat_toNat]
    simp only [UInt64.lt_iff_toNat_lt]
    cases negative
    · rw [show (limit false).toNat = 2 ^ 63 - 1 from rfl, Kind.convert]
      simp only [Bool.false_eq_true, if_false]
      by_cases large : 2 ^ 63 - 1 < value.toNat
      · rw [if_pos large, if_pos (by omega)]
        rfl
      · rw [if_neg large, if_neg (by omega), if_neg (by omega), value_eq, Int64.toInt_ofNat_of_lt (by omega)]
    · rw [show (limit true).toNat = 2 ^ 63 from rfl, Kind.convert]
      simp only [if_true]
      by_cases large : 2 ^ 63 < value.toNat
      · rw [if_pos large, if_neg (by omega), if_pos (by omega)]
        rfl
      have high : ¬ (2 : Int) ^ 63 ≤ -(value.toNat : Int) := by omega
      have low : ¬ -(value.toNat : Int) < -2 ^ 63 := by omega
      rw [if_neg large, if_neg high, if_neg low]
      refine Prod.ext ?_ rfl
      by_cases least : value = enlilLlongMax.toUInt64 + 1
      · rw [if_pos least, least]
        rfl
      · rw [if_neg least, value_eq, Int64.toInt_neg_ofNat_of_le (by omega)]
  · cases negative
    · rw [if_pos (by decide), Kind.convert]
      simp only [Bool.false_eq_true, if_false]
      rw [if_pos (by omega)]
      rfl
    · rw [if_pos (by decide), Kind.convert]
      simp only [if_true]
      rw [if_neg (by omega), if_pos (by omega)]
      rfl

end

section

variable {nptr : List UInt8} {base errno : Nat}

variable (nptr errno) in
theorem parseUnsignedCore_eq (ranged : base = 0 ∨ 2 ≤ base ∧ base ≤ 36) :
    ∃ value overflow, Represents value overflow (found nptr base) ∧
      parseUnsignedCore (takeMark (text nptr) base).1 (takeMark (text nptr) base).2 errno =
        (⟨value, overflow, decide (takenDigits base (text nptr) ≠ []), behind nptr base⟩,
          if overflow then erange else errno) := by
  obtain ⟨low, high⟩ := takeMark_ranged (t := text nptr) ranged
  obtain ⟨kept, any_eq, cursor⟩ := coreLoop_spec low high (takeMark (text nptr) base).1 false (.inl ⟨rfl, UInt64.toNat_zero⟩)
  refine ⟨_, _, kept, ?_⟩
  rw [Bool.false_or] at any_eq
  rw [parseUnsignedCore, takenDigits, ← any_eq, behind, takenDigits, ← cursor]

theorem parseUnsignedInteger_refuses (ranged : base = 0 ∨ 2 ≤ base ∧ base ≤ 36)
    (none : errno = einval ∨ takenDigits base (text nptr) = []) : parseUnsignedInteger nptr base errno = ⟨0, nptr, errno⟩ := by
  obtain ⟨value, overflow, kept, core⟩ := parseUnsignedCore_eq nptr errno ranged
  unfold parseUnsignedInteger
  rw [skipSpace_eq, show sign (nptr.dropWhile isspace) = (negative nptr, text nptr) from rfl]
  dsimp only
  rw [parseIntegerPrefix_eq ranged]
  dsimp only
  by_cases blocked : errno = einval
  · rw [if_pos blocked]
  have empty := none.resolve_left blocked
  rw [if_neg blocked, core]
  have zero : found nptr base = 0 := by
    rw [found, empty]
    rfl
  rw [zero] at kept
  rcases kept with ⟨rfl, _⟩ | ⟨_, _, past⟩
  · simp [empty]
  · exact absurd past (by decide)

theorem parseUnsignedInteger_converts (ranged : base = 0 ∨ 2 ≤ base ∧ base ≤ 36) (clear : errno ≠ einval)
    (some_digit : takenDigits base (text nptr) ≠ []) :
    (parseUnsignedInteger nptr base errno).map (fun v => (v.toNat : Int)) =
      let (value, errno') := if negative nptr ∧ 2 ^ 64 ≤ found nptr base then (1, erange)
        else Kind.unsigned.convert (negative nptr) (found nptr base) errno
      ⟨value, behind nptr base, errno'⟩ := by
  obtain ⟨value, overflow, kept, core⟩ := parseUnsignedCore_eq nptr errno ranged
  rw [← kept.unsigned (negative nptr)]
  unfold parseUnsignedInteger
  rw [skipSpace_eq, show sign (nptr.dropWhile isspace) = (negative nptr, text nptr) from rfl]
  dsimp only
  rw [parseIntegerPrefix_eq ranged]
  dsimp only
  rw [if_neg clear, core]
  dsimp only
  rw [if_neg (by simpa using some_digit)]
  rfl

theorem parseSignedInteger_refuses (ranged : base = 0 ∨ 2 ≤ base ∧ base ≤ 36) (mode : Bool)
    (none : errno = einval ∨ takenDigits base (text nptr) = []) :
    parseSignedInteger nptr base errno mode = ⟨0, nptr, errno⟩ := by
  obtain ⟨value, overflow, kept, core⟩ := parseUnsignedCore_eq nptr errno ranged
  unfold parseSignedInteger
  rw [skipSpace_eq, show sign (nptr.dropWhile isspace) = (negative nptr, text nptr) from rfl]
  dsimp only
  rw [parseIntegerPrefix_eq ranged]
  dsimp only
  by_cases blocked : errno = einval
  · rw [if_pos blocked]
  have empty := none.resolve_left blocked
  rw [if_neg blocked, core]
  have zero : found nptr base = 0 := by
    rw [found, empty]
    rfl
  rw [zero] at kept
  rcases kept with ⟨rfl, _⟩ | ⟨_, _, past⟩
  · simp [empty]
  · exact absurd past (by decide)

theorem parseSignedInteger_converts (ranged : base = 0 ∨ 2 ≤ base ∧ base ≤ 36) (mode : Bool) (clear : errno ≠ einval)
    (some_digit : takenDigits base (text nptr) ≠ []) :
    (parseSignedInteger nptr base errno mode).map Int64.toInt =
      let (value, errno') := Kind.signed.convert (negative nptr) (found nptr base) errno
      ⟨value, behind nptr base, errno'⟩ := by
  obtain ⟨value, overflow, kept, core⟩ := parseUnsignedCore_eq nptr errno ranged
  rw [← kept.signed (negative nptr)]
  unfold parseSignedInteger
  rw [skipSpace_eq, show sign (nptr.dropWhile isspace) = (negative nptr, text nptr) from rfl]
  dsimp only
  rw [parseIntegerPrefix_eq ranged]
  dsimp only
  rw [if_neg clear, core]
  dsimp only
  rw [if_neg (by simpa using some_digit)]
  -- Both modes have the same limit.
  have limit_eq : (if mode then if negative nptr then (~~~0 : UInt64) >>> 1 + 1 else (~~~0 : UInt64) >>> 1
      else if negative nptr then (~~~0 : UInt64) >>> 1 + 1 else (~~~0 : UInt64) >>> 1) = limit (negative nptr) := ite_self _
  rw [limit_eq]
  by_cases large : limit (negative nptr) < value
  · rw [if_pos large, if_pos large]
    cases mode <;> rfl
  · rw [if_neg large, if_neg large]
    rfl

theorem prescribed_iff {kind : Kind} {r : Result Int} (wrong : Prop) (ranged : base = 0 ∨ 2 ≤ base ∧ base ≤ 36)
    (refuses : errno = einval ∨ takenDigits base (text nptr) = [] → r = ⟨0, nptr, errno⟩)
    (right : errno ≠ einval → takenDigits base (text nptr) ≠ [] → ¬ wrong →
      let (value, errno') := kind.convert (negative nptr) (found nptr base) errno
      r = ⟨value, behind nptr base, errno'⟩)
    (differs : errno ≠ einval → takenDigits base (text nptr) ≠ [] → wrong →
      r.value ≠ (kind.convert (negative nptr) (found nptr base) errno).1) :
    Prescribed kind nptr base errno r ↔
      (errno = einval → ∀ subject n, ¬ Subject base (text nptr) subject n) ∧ ¬ CutOff base (text nptr) ∧
        ¬ (wrong ∧ ∃ subject, Subject base (text nptr) subject (found nptr base)) := by
  have low : base = 0 ∨ 2 ≤ base := ranged.imp_right And.left
  -- What is converted ends behind the start of the string.
  have moved : ∀ {subject n}, Subject base (text nptr) subject n → (text nptr).drop subject.length ≠ nptr := by
    intro subject n found same
    obtain ⟨some_digit, rfl, -⟩ := (subject_iff low).mp found
    have length := congrArg List.length same
    have short : (text nptr).length ≤ nptr.length := by
      have spaces := (List.dropWhile_suffix (l := nptr) isspace).length_le
      have signed : (text nptr).length ≤ (nptr.dropWhile isspace).length := by
        unfold text sign
        split
        · exact (List.drop_suffix 1 _).length_le
        · exact le_rfl
      omega
    have some_length := List.length_pos_of_ne_nil some_digit
    have taken : digitsOf base (text nptr) <+: (text nptr).drop (skipped base (text nptr)) := List.takeWhile_prefix _
    have fits := taken.length_le
    simp only [List.length_drop, List.length_take] at length fits
    omega
  constructor
  · intro prescribed
    refine ⟨fun blocked subject n found => ?_, fun cut => ?_, fun ⟨bad, subject, found⟩ => ?_⟩
    · have value := prescribed.converts subject n found
      rw [refuses (.inl blocked)] at value
      exact moved found (congrArg Result.endptr value).symm
    · obtain ⟨none, some_digit⟩ := takenDigits_cut cut
      have found := (subject_iff low).mpr ⟨some_digit, rfl, rfl⟩
      have value := prescribed.converts _ _ found
      rw [refuses (.inr none)] at value
      exact moved found (congrArg Result.endptr value).symm
    · have value := prescribed.converts _ _ found
      by_cases none : errno = einval ∨ takenDigits base (text nptr) = []
      · rw [refuses none] at value
        exact moved found (congrArg Result.endptr value).symm
      · obtain ⟨clear, some_digit⟩ := not_or.mp none
        exact differs clear some_digit bad (congrArg Result.value value)
  · rintro ⟨clear, uncut, fine⟩
    obtain ⟨same_empty, same_end, same_value⟩ := takenDigits_uncut uncut
    constructor
    · intro subject n subject_eq
      obtain ⟨some_digit, rfl, rfl⟩ := (subject_iff low).mp subject_eq
      have taken := mt same_empty.mp some_digit
      have found_eq : found nptr base = valueOf (radix base (text nptr)) (digitsOf base (text nptr)) := same_value
      have value := right (fun blocked => clear blocked _ _ subject_eq) taken fun bad => fine ⟨bad, _, by rwa [found_eq]⟩
      rw [found_eq, behind, same_end] at value
      have whole : skipped base (text nptr) + (digitsOf base (text nptr)).length ≤ (text nptr).length := by
        have prefixed : digitsOf base (text nptr) <+: (text nptr).drop (skipped base (text nptr)) := List.takeWhile_prefix _
        have fits := prefixed.length_le
        have some_length := List.length_pos_of_ne_nil some_digit
        rw [List.length_drop] at fits
        omega
      rw [List.length_take, Nat.min_eq_left whole]
      exact value
    · intro none
      refine refuses (.inr (same_empty.mpr ?_))
      by_contra some_digit
      exact none _ _ ((subject_iff low).mpr ⟨some_digit, rfl, rfl⟩)

end

/-- What the calls on signed numbers need to do what is prescribed: no error of an earlier call that stops them, and no mark of a base that no digit follows. -/
def Plain (nptr : List UInt8) (base errno : Nat) : Prop :=
  (errno = einval → ∀ subject n, ¬ Subject base (text nptr) subject n) ∧ ¬ CutOff base (text nptr)

/-- A negative number that is too large for the type. -/
def NegativeOverflow (nptr : List UInt8) (base : Nat) : Prop :=
  negative nptr ∧ ∃ subject n, Subject base (text nptr) subject n ∧ 2 ^ 64 ≤ n

/-- When the four calls do what is prescribed. -/
theorem strtol_iff (nptr : List UInt8) (base errno : Nat) (ranged : base = 0 ∨ 2 ≤ base ∧ base ≤ 36) :
    (Prescribed .signed nptr base errno ((strtol nptr base errno).map Int64.toInt) ↔ Plain nptr base errno) ∧
      (Prescribed .signed nptr base errno ((strtoll nptr base errno).map Int64.toInt) ↔ Plain nptr base errno) ∧
      (Prescribed .unsigned nptr base errno ((strtoul nptr base errno).map fun v => (v.toNat : Int)) ↔
        Plain nptr base errno ∧ ¬ NegativeOverflow nptr base) ∧
      (Prescribed .unsigned nptr base errno ((strtoull nptr base errno).map fun v => (v.toNat : Int)) ↔
        Plain nptr base errno ∧ ¬ NegativeOverflow nptr base) := by
  have signed : ∀ mode, Prescribed .signed nptr base errno ((parseSignedInteger nptr base errno mode).map Int64.toInt) ↔
      Plain nptr base errno := by
    intro mode
    rw [prescribed_iff False ranged]
    · rw [Plain, false_and, not_false_eq_true, and_true]
    · intro none
      rw [parseSignedInteger_refuses ranged mode none]
      rfl
    · intro clear some_digit _
      exact parseSignedInteger_converts ranged mode clear some_digit
    · exact fun _ _ bad => bad.elim
  have unsigned : Prescribed .unsigned nptr base errno ((parseUnsignedInteger nptr base errno).map fun v => (v.toNat : Int)) ↔
      Plain nptr base errno ∧ ¬ NegativeOverflow nptr base := by
    rw [prescribed_iff (negative nptr ∧ 2 ^ 64 ≤ found nptr base) ranged]
    · refine Iff.trans (and_congr_right fun _ => and_congr_right fun uncut => not_congr ?_) and_assoc.symm
      have low : base = 0 ∨ 2 ≤ base := ranged.imp_right And.left
      have found_eq : found nptr base = valueOf (radix base (text nptr)) (digitsOf base (text nptr)) :=
        (takenDigits_uncut uncut).2.2
      constructor
      · rintro ⟨⟨minus, large⟩, subject, found⟩
        exact ⟨minus, subject, _, found, large⟩
      · rintro ⟨minus, subject, n, found, large⟩
        obtain rfl := ((subject_iff low).mp found).2.2
        rw [← found_eq] at found large
        exact ⟨⟨minus, large⟩, subject, found⟩
    · intro none
      rw [parseUnsignedInteger_refuses ranged none]
      rfl
    · intro clear some_digit fine
      have value := parseUnsignedInteger_converts ranged clear some_digit
      rwa [if_neg fine] at value
    · intro clear some_digit bad
      have value := parseUnsignedInteger_converts ranged clear some_digit
      rw [if_pos bad] at value
      rw [value, Kind.convert, if_pos bad.2]
      exact (by decide : (1 : Int) ≠ 2 ^ 64 - 1)
  exact ⟨signed false, signed true, unsigned, unsigned⟩

/-- The conversion of "42" in base 10. -/
theorem strtol_iff_plain : Prescribed .signed [0x34, 0x32] 10 0 ((strtol [0x34, 0x32] 10 0).map Int64.toInt) ↔
    Plain [0x34, 0x32] 10 0 :=
  (strtol_iff [0x34, 0x32] 10 0 (.inr (by decide))).1

/-- Of "0" in base 0 nothing is converted, although it is a number. -/
theorem strtol_zero : ¬ ∀ nptr base errno, base = 0 ∨ 2 ≤ base ∧ base ≤ 36 →
    Prescribed .signed nptr base errno ((strtol nptr base errno).map Int64.toInt) := by
  intro always
  have form : Expected 0 [0x30] 0 := .octal (List.forall_mem_nil _)
  have longest : Subject 0 (text [0x30]) [0x30] 0 :=
    ⟨⟨[], rfl⟩, form, fun other m starts _ => starts.length_le⟩
  have value := (always [0x30] 0 0 (.inl rfl)).converts [0x30] 0 longest
  exact absurd (congrArg Result.endptr value) (by decide)

end Enlil.Strtol
