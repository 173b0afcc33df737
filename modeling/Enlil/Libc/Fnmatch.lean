import Mathlib

/-! The matcher of `enlilos-musl/src/fnmatch.c`, and the language of a pattern. -/

namespace Enlil.Fnmatch

structure Flags where
  pathname : Bool
  noescape : Bool
  period : Bool

def fnmNomatch : Nat := 1

/-- Whether a string starts with a period that only a period matches; it comes with the character before it. -/
def fnmIsLeadingPeriod (flags : Flags) (before : Option UInt8) (string : List UInt8) : Bool :=
  if !flags.period ∨ string.head? ≠ some 0x2E then false
  else if before = none then true
  else flags.pathname ∧ before = some 0x2F

/-- Takes a character that may stand behind a backslash. -/
def takeChar (flags : Flags) (first : UInt8) : List UInt8 → UInt8 × List UInt8
  | [] => (first, [])
  | c :: p => if first = 0x5C ∧ !flags.noescape then (c, p) else (first, c :: p)

def skipNegation (p : List UInt8) : List UInt8 := if p.head? = some 0x21 ∨ p.head? = some 0x5E then p.tail else p

def skipRight (p : List UInt8) : List UInt8 := if p.head? = some 0x5D then p.tail else p

def classEndLoop (flags : Flags) : List UInt8 → Option (List UInt8)
  | [] => none
  | [c] => if c = 0x5D then some [c] else none
  | c :: d :: p =>
    if c = 0x5C ∧ !flags.noescape then classEndLoop flags p
    else if c = 0x5D then some (c :: d :: p)
    else classEndLoop flags (d :: p)

def fnmFindClassEnd (flags : Flags) (pattern : List UInt8) : Option (List UInt8) :=
  classEndLoop flags (skipRight (skipNegation pattern))

/-- The end of a range, if one follows. -/
def rangeEnd (flags : Flags) : List UInt8 → Option UInt8 × List UInt8
  | 0x2D :: e :: p => if e = 0x5D then (none, 0x2D :: e :: p) else (some (takeChar flags e p).1, (takeChar flags e p).2)
  | p => (none, p)

theorem takeChar_length (flags : Flags) (first : UInt8) (p : List UInt8) : (takeChar flags first p).2.length ≤ p.length := by
  unfold takeChar
  split
  · exact le_rfl
  · split
    · exact Nat.le_succ _
    · exact le_rfl

theorem rangeEnd_length (flags : Flags) (p : List UInt8) : (rangeEnd flags p).2.length ≤ p.length := by
  unfold rangeEnd
  split
  · split
    · exact le_rfl
    · exact (takeChar_length flags _ _).trans ((Nat.le_succ _).trans (Nat.le_succ _))
  · exact le_rfl

theorem item_length (flags : Flags) (first : UInt8) (p : List UInt8) :
    (rangeEnd flags (takeChar flags first p).2).2.length < (first :: p).length :=
  Nat.lt_succ_of_le ((rangeEnd_length flags _).trans (takeChar_length flags first p))

/-- Looks for a character in the brackets. The end of a range is first the character that was read, so that it is the backslash if the start stood behind one. -/
def rangeLoop (flags : Flags) (test : UInt8) (match' : Bool) : List UInt8 → Bool × List UInt8
  | [] => (match', [])
  | first :: p =>
    if first = 0x5D then (match', first :: p)
    else
      let start := (takeChar flags first p).1
      let stop := (rangeEnd flags (takeChar flags first p).2).1.getD first
      rangeLoop flags test (match' || (start ≤ test && test ≤ stop)) (rangeEnd flags (takeChar flags first p).2).2
termination_by p => p.length
decreasing_by exact item_length flags first p

def fnmRangeMatch (flags : Flags) (pattern : List UInt8) (test : UInt8) : Bool × List UInt8 :=
  let negate := decide (pattern.head? = some 0x21 ∨ pattern.head? = some 0x5E)
  let inside := skipNegation pattern
  let found := rangeLoop flags test (inside.head? = some 0x5D ∧ test = 0x5D) (skipRight inside)
  (negate ^^ found.1, skipRight found.2)

theorem skipRight_length (p : List UInt8) : (skipRight p).length ≤ p.length := by
  unfold skipRight
  split
  · exact (List.length_tail (l := p)) ▸ Nat.sub_le _ _
  · exact le_rfl

theorem skipNegation_length (p : List UInt8) : (skipNegation p).length ≤ p.length := by
  unfold skipNegation
  split
  · exact (List.length_tail (l := p)) ▸ Nat.sub_le _ _
  · exact le_rfl

theorem rangeLoop_length (flags : Flags) (test : UInt8) (match' : Bool) (p : List UInt8) :
    (rangeLoop flags test match' p).2.length ≤ p.length := by
  fun_induction rangeLoop flags test match' p with
  | case1 => exact le_rfl
  | case2 => exact le_rfl
  | case3 match' first p _ start stop ih => exact ih.trans (item_length flags first p).le

theorem fnmRangeMatch_length (flags : Flags) (pattern : List UInt8) (test : UInt8) :
    (fnmRangeMatch flags pattern test).2.length ≤ pattern.length :=
  (skipRight_length _).trans ((rangeLoop_length flags test _ _).trans ((skipRight_length _).trans (skipNegation_length _)))

/-- Tries the rest of the pattern at one place of the string after the other. -/
def starLoop (flags : Flags) (here : Option UInt8 → List UInt8 → Bool) (before : Option UInt8) : List UInt8 → Bool
  | [] => here before []
  | c :: string =>
    if here before (c :: string) then true
    else if flags.pathname ∧ c = 0x2F then false
    else starLoop flags here (some c) string

/-- Matches the rest of a pattern with the rest of a string. -/
def fnmMatchHere (flags : Flags) (pattern : List UInt8) (before : Option UInt8) (string : List UInt8) : Bool :=
  match pattern with
  | [] => string.isEmpty
  | pc :: pattern =>
    if pc = 0x3F then
      match string with
      | [] => false
      | c :: rest =>
        if flags.pathname ∧ c = 0x2F then false
        else if fnmIsLeadingPeriod flags before (c :: rest) then false
        else fnmMatchHere flags pattern (some c) rest
    else if pc = 0x2A then
      let later := pattern.dropWhile (· = 0x2A)
      if fnmIsLeadingPeriod flags before string then false
      else if later = [] then if flags.pathname then !string.contains 0x2F else true
      else starLoop flags (fun before string => fnmMatchHere flags later before string) before string
    else if pc = 0x5B then
      match fnmFindClassEnd flags pattern, string with
      | none, [] => false
      | none, c :: rest => if c ≠ 0x5B then false else fnmMatchHere flags pattern (some c) rest
      | some _, [] => false
      | some _, c :: rest =>
        if flags.pathname ∧ c = 0x2F then false
        else if fnmIsLeadingPeriod flags before (c :: rest) then false
        else if !(fnmRangeMatch flags pattern c).1 then false
        else fnmMatchHere flags (fnmRangeMatch flags pattern c).2 (some c) rest
    else
      match string with
      | [] => false
      | c :: rest =>
        if (takeChar flags pc pattern).1 ≠ c then false
        else fnmMatchHere flags (takeChar flags pc pattern).2 (some c) rest
termination_by pattern.length
decreasing_by
  · exact Nat.lt_succ_self _
  · exact Nat.lt_succ_of_le (List.dropWhile_suffix _).length_le
  · exact Nat.lt_succ_self _
  · exact Nat.lt_succ_of_le (fnmRangeMatch_length flags pattern c)
  · exact Nat.lt_succ_of_le (takeChar_length flags pc pattern)

def fnmatch (pattern string : Option (List UInt8)) (flags : Flags) : Nat :=
  match pattern, string with
  | some pattern, some string => if fnmMatchHere flags pattern none string then 0 else fnmNomatch
  | _, _ => fnmNomatch

/-- A character or a range of a bracket expression; it may start behind a backslash. -/
structure Item where
  escaped : Bool
  start : UInt8
  stop : Option UInt8
  deriving DecidableEq

/-- A bracket expression: whether it is negated, whether a right bracket comes first, and what follows. -/
structure Bracket where
  negated : Bool
  lead : Bool
  items : List Item
  deriving DecidableEq

inductive Element where
  | any
  | star
  | set (bracket : Bracket)
  | lit (c : UInt8)
  deriving DecidableEq

/-- The items up to the closing bracket, and what follows it. -/
def items (flags : Flags) : List UInt8 → Option (List Item × List UInt8)
  | [] => none
  | first :: p =>
    if first = 0x5D then some ([], p)
    else
      let item : Item :=
        { escaped := first = 0x5C ∧ !flags.noescape ∧ p ≠ []
          start := (takeChar flags first p).1
          stop := (rangeEnd flags (takeChar flags first p).2).1 }
      (items flags (rangeEnd flags (takeChar flags first p).2).2).map fun (later, rest) => (item :: later, rest)
termination_by p => p.length
decreasing_by exact item_length flags first p

/-- The bracket expression behind a left bracket, if it has an end. -/
def bracket (flags : Flags) (p : List UInt8) : Option (Bracket × List UInt8) :=
  let negated := decide (p.head? = some 0x21 ∨ p.head? = some 0x5E)
  let inside := skipNegation p
  (items flags (skipRight inside)).map fun (found, rest) => (⟨negated, inside.head? = some 0x5D, found⟩, rest)

theorem items_length (flags : Flags) (p : List UInt8) : ∀ found ∈ items flags p, found.2.length ≤ p.length := by
  fun_induction items flags p with
  | case1 => exact nofun
  | case2 p => rintro _ ⟨⟩; exact Nat.le_succ _
  | case3 first p _ item ih =>
    intro found some_found
    obtain ⟨later, more, rfl⟩ := Option.map_eq_some_iff.mp some_found
    exact (ih later more).trans (item_length flags first p).le

theorem bracket_length (flags : Flags) (p : List UInt8) : ∀ found ∈ bracket flags p, found.2.length ≤ p.length := by
  intro found some_found
  obtain ⟨later, more, rfl⟩ := Option.map_eq_some_iff.mp some_found
  exact (items_length flags _ later more).trans ((skipRight_length _).trans (skipNegation_length p))

/-- The elements of a pattern; a left bracket without an end is a character. -/
def elements (flags : Flags) : List UInt8 → List Element
  | [] => []
  | pc :: p =>
    if pc = 0x3F then .any :: elements flags p
    else if pc = 0x2A then .star :: elements flags p
    else if pc = 0x5B then
      match _found : bracket flags p with
      | none => .lit pc :: elements flags p
      | some (b, rest) => .set b :: elements flags rest
    else .lit (takeChar flags pc p).1 :: elements flags (takeChar flags pc p).2
termination_by p => p.length
decreasing_by
  · exact Nat.lt_succ_self _
  · exact Nat.lt_succ_self _
  · exact Nat.lt_succ_self _
  · exact Nat.lt_succ_of_le (bracket_length flags p (b, rest) _found)
  · exact Nat.lt_succ_of_le (takeChar_length flags pc p)

def Item.Has (item : Item) (c : UInt8) : Prop := item.start ≤ c ∧ c ≤ item.stop.getD item.start

def Bracket.Has (b : Bracket) (c : UInt8) : Prop := b.lead ∧ c = 0x5D ∨ ∃ item ∈ b.items, item.Has c

/-- The characters that a bracket expression matches. -/
def Bracket.Takes (b : Bracket) (c : UInt8) : Prop := if b.negated then ¬ b.Has c else b.Has c

/-- A period that only a period matches stands first: at the start, or behind a slash if those are special. -/
def LeadingPeriod (flags : Flags) (before : Option UInt8) (string : List UInt8) : Prop :=
  flags.period ∧ string.head? = some 0x2E ∧ (before = none ∨ flags.pathname ∧ before = some 0x2F)

/-- Something that is no plain character may match the first character of a string. -/
def Wild (flags : Flags) (before : Option UInt8) (c : UInt8) : Prop :=
  (flags.pathname → c ≠ 0x2F) ∧ ¬ LeadingPeriod flags before [c]

/-- The language of a pattern; a string comes with the character before it. -/
def Matches (flags : Flags) : List Element → Option UInt8 → List UInt8 → Prop
  | [], _, s => s = []
  | .lit c :: later, _, s => ∃ rest, s = c :: rest ∧ Matches flags later (some c) rest
  | .any :: later, before, s => ∃ c rest, s = c :: rest ∧ Wild flags before c ∧ Matches flags later (some c) rest
  | .set b :: later, before, s =>
    ∃ c rest, s = c :: rest ∧ Wild flags before c ∧ b.Takes c ∧ Matches flags later (some c) rest
  | .star :: later, before, s =>
    ¬ LeadingPeriod flags before s ∧
      ∃ skipped rest, s = skipped ++ rest ∧ (flags.pathname → 0x2F ∉ skipped) ∧
        Matches flags later (skipped.getLast?.or before) rest

/-- A single character behind a backslash, which the code takes for the range from it to the backslash. -/
def Item.Stretched (item : Item) : Prop := item.escaped ∧ item.stop = none

/-- A character that the code misjudges: one between a character behind a backslash and the backslash that is in nothing else of the brackets, or one above the backslash that is only there behind one. -/
def Bracket.Misreads (b : Bracket) (c : UInt8) : Prop :=
  (∃ item ∈ b.items, item.Stretched ∧ item.start < c ∧ c ≤ 0x5C) ∧ ¬ b.Has c ∨
    b.Has c ∧ 0x5C < c ∧ ¬ (b.lead ∧ c = 0x5D) ∧ ∀ item ∈ b.items, item.Has c → item.Stretched

/-- Where the part of the pattern before it matches the part of the string before, no bracket expression misjudges a character. -/
def ReadsWell (flags : Flags) : List Element → Option UInt8 → List UInt8 → Prop
  | [], _, _ => True
  | .lit c :: later, _, s => ∀ rest, s = c :: rest → ReadsWell flags later (some c) rest
  | .any :: later, before, s => ∀ c rest, s = c :: rest → Wild flags before c → ReadsWell flags later (some c) rest
  | .set b :: later, before, s =>
    ∀ c rest, s = c :: rest → Wild flags before c →
      ¬ b.Misreads c ∧ (b.Takes c → ReadsWell flags later (some c) rest)
  | .star :: later, before, s =>
    ¬ LeadingPeriod flags before s → ∀ skipped rest, s = skipped ++ rest → (flags.pathname → 0x2F ∉ skipped) →
      ReadsWell flags later (skipped.getLast?.or before) rest

/-- What the code takes an item for. -/
def Item.Read (item : Item) (c : UInt8) : Bool :=
  item.start ≤ c && c ≤ item.stop.getD (if item.escaped then 0x5C else item.start)

section

variable {flags : Flags}

theorem leadingPeriod_iff {before : Option UInt8} {s : List UInt8} :
    fnmIsLeadingPeriod flags before s ↔ LeadingPeriod flags before s := by
  unfold fnmIsLeadingPeriod LeadingPeriod
  by_cases period : flags.period <;> by_cases first : s.head? = some 0x2E <;> by_cases start : before = none <;>
    simp [period, first, start]

theorem takeChar_plain {first : UInt8} {p : List UInt8} (plain : ¬ (first = 0x5C ∧ !flags.noescape ∧ p ≠ [])) :
    takeChar flags first p = (first, p) := by
  cases p with
  | nil => rfl
  | cons c p => exact if_neg fun both => plain ⟨both.1, both.2, List.cons_ne_nil c p⟩

theorem classEndLoop_takeChar {first : UInt8} (p : List UInt8) (inside : first ≠ 0x5D) :
    classEndLoop flags (first :: p) = classEndLoop flags (takeChar flags first p).2 := by
  cases p with
  | nil =>
    rw [classEndLoop, if_neg inside]
    rfl
  | cons d p =>
    rw [classEndLoop]
    by_cases escaped : first = 0x5C ∧ !flags.noescape
    · rw [if_pos escaped, takeChar, if_pos escaped]
    · rw [if_neg escaped, if_neg inside, takeChar, if_neg escaped]

theorem classEndLoop_rangeEnd (p : List UInt8) : classEndLoop flags p = classEndLoop flags (rangeEnd flags p).2 := by
  unfold rangeEnd
  split
  · rename_i e p
    by_cases close : e = 0x5D
    · rw [if_pos close]
    · rw [if_neg close, classEndLoop_takeChar (e :: p) (by decide), takeChar_plain (by simp), classEndLoop_takeChar p close]
  · rfl

theorem items_read (flags : Flags) (p : List UInt8) :
    match items flags p with
    | none => classEndLoop flags p = none
    | some (found, rest) => classEndLoop flags p = some (0x5D :: rest) ∧
        ∀ test match', rangeLoop flags test match' p = (match' || found.any (·.Read test), 0x5D :: rest) := by
  fun_induction items flags p with
  | case1 => rfl
  | case2 p =>
    refine ⟨?_, fun test match' => ?_⟩
    · cases p with
      | nil => rfl
      | cons d p => rfl
    · rw [rangeLoop, if_pos rfl, List.any_nil, Bool.or_false]
  | case3 first p inside item ih =>
    have goes : classEndLoop flags (first :: p) = classEndLoop flags (rangeEnd flags (takeChar flags first p).2).2 :=
      (classEndLoop_takeChar p inside).trans (classEndLoop_rangeEnd _)
    rcases later_eq : items flags (rangeEnd flags (takeChar flags first p).2).2 with _ | ⟨later, rest⟩
    · rw [later_eq] at ih
      exact goes.trans ih
    · rw [later_eq] at ih
      refine ⟨goes.trans ih.1, fun test match' => ?_⟩
      -- Without the end of a range, the end is the character that was read.
      have stop_eq : (if item.escaped then 0x5C else item.start) = first := by
        by_cases escaped : first = 0x5C ∧ !flags.noescape ∧ p ≠ []
        · rw [if_pos (decide_eq_true escaped), ← escaped.1]
        · rw [if_neg fun is => escaped (of_decide_eq_true is)]
          exact congrArg Prod.fst (takeChar_plain escaped)
      have read : item.Read test = (decide ((takeChar flags first p).1 ≤ test) &&
          decide (test ≤ (rangeEnd flags (takeChar flags first p).2).1.getD first)) := by rw [Item.Read, stop_eq]
      rw [rangeLoop, if_neg inside, ih.2, List.any_cons, read, Bool.or_assoc]

/-- What the code finds out about a character. -/
def Bracket.Read (b : Bracket) (c : UInt8) : Bool := b.negated ^^ (decide (b.lead ∧ c = 0x5D) || b.items.any (·.Read c))

theorem bracket_read (flags : Flags) (p : List UInt8) :
    match bracket flags p with
    | none => fnmFindClassEnd flags p = none
    | some (b, rest) => fnmFindClassEnd flags p = some (0x5D :: rest) ∧ ∀ c, fnmRangeMatch flags p c = (b.Read c, rest) := by
  have read := items_read flags (skipRight (skipNegation p))
  rcases found_eq : items flags (skipRight (skipNegation p)) with _ | ⟨found, rest⟩
  · rw [found_eq] at read
    rw [bracket, found_eq]
    exact read
  · rw [found_eq] at read
    rw [bracket, found_eq]
    refine ⟨read.1, fun c => ?_⟩
    rw [fnmRangeMatch, read.2, skipRight, if_pos (List.head?_cons ..)]
    simp [Bracket.Read]

theorem Item.read_of_plain {item : Item} {c : UInt8} (plain : ¬ item.Stretched) : item.Read c ↔ item.Has c := by
  have stop_eq : item.stop.getD (if item.escaped then 0x5C else item.start) = item.stop.getD item.start := by
    rcases stop : item.stop with _ | e
    · rw [Option.getD_none, Option.getD_none, if_neg fun escaped => plain ⟨escaped, stop⟩]
    · rfl
  rw [Item.Read, stop_eq, Bool.and_eq_true_iff, decide_eq_true_iff, decide_eq_true_iff, Item.Has]

theorem Item.read_of_stretched {item : Item} {c : UInt8} (stretched : item.Stretched) :
    (item.Read c ↔ item.start ≤ c ∧ c ≤ 0x5C) ∧ (item.Has c ↔ c = item.start) := by
  obtain ⟨escaped, stop⟩ := stretched
  rw [Item.Read, Item.Has, stop, Option.getD_none, Option.getD_none, if_pos escaped, Bool.and_eq_true_iff,
    decide_eq_true_iff, decide_eq_true_iff]
  exact ⟨Iff.rfl, fun both => UInt8.le_antisymm both.2 both.1, fun same => same ▸ ⟨UInt8.le_refl _, UInt8.le_refl _⟩⟩

theorem Bracket.read_iff {b : Bracket} {c : UInt8} : (b.Read c ↔ b.Takes c) ↔ ¬ b.Misreads c := by
  have inside : (b.Read c ↔ b.Takes c) ↔ ((b.lead ∧ c = 0x5D ∨ ∃ item ∈ b.items, item.Read c) ↔ b.Has c) := by
    have found_iff : (decide (b.lead ∧ c = 0x5D) || b.items.any (·.Read c)) ↔
        (b.lead ∧ c = 0x5D ∨ ∃ item ∈ b.items, item.Read c) := by simp
    rw [← found_iff, Bracket.Read, Bracket.Takes]
    generalize (decide (b.lead ∧ c = 0x5D) || b.items.any (·.Read c)) = found
    cases b.negated <;> cases found <;> simp
  rw [inside]
  constructor
  · rintro same (⟨⟨item, member, stretched, above, below⟩, outside⟩ | ⟨has, above, front, only⟩)
    · have le : item.start ≤ c := UInt8.le_of_lt above
      exact outside (same.mp (.inr ⟨item, member, (item.read_of_stretched stretched).1.mpr ⟨le, below⟩⟩))
    · rcases same.mpr has with lead | ⟨item, member, read⟩
      · exact front lead
      · by_cases stretched : item.Stretched
        · exact UInt8.not_le.mpr above ((item.read_of_stretched stretched).1.mp read).2
        · exact stretched (only item member ((item.read_of_plain stretched).mp read))
  · intro fine
    constructor
    · rintro (lead | ⟨item, member, read⟩)
      · exact .inl lead
      by_cases stretched : item.Stretched
      · by_contra outside
        obtain ⟨le, below⟩ := (item.read_of_stretched stretched).1.mp read
        have other : item.start ≠ c := fun same =>
          outside (.inr ⟨item, member, (item.read_of_stretched stretched).2.mpr same.symm⟩)
        exact fine (.inl ⟨⟨item, member, stretched, UInt8.lt_of_le_of_ne le other, below⟩, outside⟩)
      · exact .inr ⟨item, member, (item.read_of_plain stretched).mp read⟩
    · intro has
      by_contra unread
      obtain ⟨front, unread⟩ := not_or.mp unread
      have only : ∀ item ∈ b.items, item.Has c → item.Stretched := fun item member has => by
        by_contra plain
        exact unread ⟨item, member, (item.read_of_plain plain).mpr has⟩
      obtain ⟨item, member, this⟩ := has.resolve_left front
      refine fine (.inr ⟨has, ?_, front, only⟩)
      have stretched := only item member this
      by_contra below
      have same := (item.read_of_stretched stretched).2.mp this
      exact unread ⟨item, member, (item.read_of_stretched stretched).1.mpr ⟨same ▸ UInt8.le_refl _, UInt8.not_lt.mp below⟩⟩

theorem matches_star_star {later : List Element} {before : Option UInt8} {s : List UInt8} :
    Matches flags (.star :: .star :: later) before s ↔ Matches flags (.star :: later) before s := by
  simp only [Matches]
  constructor
  · rintro ⟨plain, skipped, _, rfl, slashes, -, skipped', rest, rfl, slashes', found⟩
    refine ⟨plain, skipped ++ skipped', rest, (List.append_assoc ..).symm, fun special => ?_, ?_⟩
    · simp [slashes special, slashes' special]
    · rwa [List.getLast?_append, Option.or_assoc]
  · rintro ⟨plain, found⟩
    exact ⟨plain, [], s, rfl, fun _ => List.not_mem_nil, plain, found⟩

theorem readsWell_star_star {later : List Element} {before : Option UInt8} {s : List UInt8}
    (well : ReadsWell flags (.star :: .star :: later) before s) : ReadsWell flags (.star :: later) before s := by
  simp only [ReadsWell] at well ⊢
  intro plain
  exact well plain [] s rfl (fun _ => List.not_mem_nil) plain

theorem elements_star (p : List UInt8) : elements flags (0x2A :: p) = .star :: elements flags p := by
  rw [elements]
  rfl

theorem elements_stars (p : List UInt8) {before : Option UInt8} {s : List UInt8} :
    (Matches flags (.star :: elements flags p) before s ↔
      Matches flags (.star :: elements flags (p.dropWhile (· = 0x2A))) before s) ∧
    (ReadsWell flags (.star :: elements flags p) before s →
      ReadsWell flags (.star :: elements flags (p.dropWhile (· = 0x2A))) before s) := by
  induction p with
  | nil => exact ⟨Iff.rfl, id⟩
  | cons c p ih =>
    by_cases star : c = 0x2A
    · subst star
      rw [List.dropWhile_cons_of_pos (by decide), elements_star]
      exact ⟨matches_star_star.trans ih.1, fun well => ih.2 (readsWell_star_star well)⟩
    · rw [List.dropWhile_cons_of_neg (by simpa using star)]
      exact ⟨Iff.rfl, id⟩

theorem starLoop_iff (here : Option UInt8 → List UInt8 → Bool) (before : Option UInt8) (s : List UInt8) :
    starLoop flags here before s ↔ ∃ skipped rest, s = skipped ++ rest ∧ (flags.pathname → 0x2F ∉ skipped) ∧
      here (skipped.getLast?.or before) rest := by
  induction s generalizing before with
  | nil =>
    refine ⟨fun found => ⟨[], [], rfl, fun _ => List.not_mem_nil, found⟩, ?_⟩
    rintro ⟨skipped, rest, whole, -, found⟩
    obtain ⟨rfl, rfl⟩ := List.append_eq_nil_iff.mp whole.symm
    exact found
  | cons c s ih =>
    rw [starLoop]
    by_cases now : here before (c :: s)
    · rw [if_pos now]
      exact ⟨fun _ => ⟨[], c :: s, rfl, fun _ => List.not_mem_nil, now⟩, fun _ => rfl⟩
    rw [if_neg now]
    have last : ∀ l : List UInt8, (c :: l).getLast?.or before = l.getLast?.or (some c) := fun l => by
      rw [List.getLast?_cons, Option.some_or]
      cases l.getLast? <;> rfl
    have later : (∃ skipped rest, c :: s = skipped ++ rest ∧ (flags.pathname → 0x2F ∉ skipped) ∧
        here (skipped.getLast?.or before) rest) ↔ ¬ (flags.pathname ∧ c = 0x2F) ∧ ∃ skipped rest, s = skipped ++ rest ∧
          (flags.pathname → 0x2F ∉ skipped) ∧ here (skipped.getLast?.or (some c)) rest := by
      constructor
      · rintro ⟨skipped, rest, whole, slashes, found⟩
        rcases skipped with _ | ⟨d, skipped⟩
        · obtain rfl : c :: s = rest := whole
          exact absurd found now
        · obtain ⟨rfl, rfl⟩ := List.cons.inj whole
          refine ⟨fun slash => slashes slash.1 (slash.2 ▸ List.mem_cons_self), skipped, rest, rfl,
            fun special inside => slashes special (List.mem_cons_of_mem _ inside), ?_⟩
          rwa [last] at found
      · rintro ⟨plain, skipped, rest, rfl, slashes, found⟩
        refine ⟨c :: skipped, rest, rfl, fun special inside => ?_, ?_⟩
        · rcases List.mem_cons.mp inside with same | inside
          · exact plain ⟨special, same.symm⟩
          · exact slashes special inside
        · rwa [last]
    rw [later]
    by_cases slash : flags.pathname ∧ c = 0x2F
    · rw [if_pos slash]
      exact ⟨nofun, fun both => absurd slash both.1⟩
    · rw [if_neg slash, ih]
      exact ⟨fun found => ⟨slash, found⟩, And.right⟩

theorem wild_iff {before : Option UInt8} {c : UInt8} {rest : List UInt8} {found : Bool} :
    (if flags.pathname ∧ c = 0x2F then false else if fnmIsLeadingPeriod flags before (c :: rest) then false else found) ↔
      Wild flags before c ∧ found := by
  have same : fnmIsLeadingPeriod flags before (c :: rest) ↔ LeadingPeriod flags before [c] := leadingPeriod_iff
  rw [Wild, ← same]
  by_cases slash : flags.pathname ∧ c = 0x2F
  · rw [if_pos slash]
    exact ⟨nofun, fun both => absurd slash.2 (both.1.1 slash.1)⟩
  · rw [if_neg slash]
    have plain : flags.pathname → c ≠ 0x2F := fun special same => slash ⟨special, same⟩
    by_cases leading : fnmIsLeadingPeriod flags before (c :: rest)
    · rw [if_pos leading]
      exact ⟨nofun, fun both => absurd leading both.1.2⟩
    · rw [if_neg leading]
      exact ⟨fun is => ⟨⟨plain, leading⟩, is⟩, And.right⟩

theorem elements_any (p : List UInt8) : elements flags (0x3F :: p) = .any :: elements flags p := by
  rw [elements]
  rfl

theorem elements_open {p : List UInt8} (unclosed : bracket flags p = none) :
    elements flags (0x5B :: p) = .lit 0x5B :: elements flags p := by
  rw [elements, if_neg (by decide), if_neg (by decide), if_pos rfl]
  split
  · rfl
  · rename_i closed
    rw [unclosed] at closed
    cases closed

theorem elements_set {p rest : List UInt8} {b : Bracket} (closed : bracket flags p = some (b, rest)) :
    elements flags (0x5B :: p) = .set b :: elements flags rest := by
  rw [elements, if_neg (by decide), if_neg (by decide), if_pos rfl]
  split
  · rename_i unclosed
    rw [closed] at unclosed
    cases unclosed
  · rename_i closed'
    obtain ⟨rfl, rfl⟩ := Prod.mk.inj (Option.some.inj (closed.symm.trans closed'))
    rfl

theorem exists_first_iff {c : UInt8} {rest : List UInt8} {Q : UInt8 → List UInt8 → Prop} :
    (∃ c' rest', c :: rest = c' :: rest' ∧ Q c' rest') ↔ Q c rest := by
  constructor
  · rintro ⟨_, _, whole, holds⟩
    obtain ⟨rfl, rfl⟩ := List.cons.inj whole
    exact holds
  · exact fun holds => ⟨c, rest, rfl, holds⟩

theorem not_exists_first {Q : UInt8 → List UInt8 → Prop} : ¬ ∃ c rest, [] = c :: rest ∧ Q c rest := by
  rintro ⟨_, _, whole, _⟩
  cases whole

theorem literal_iff {lit c : UInt8} {rest : List UInt8} {differs : Prop} [Decidable differs] {found : Bool}
    {Q : List UInt8 → Prop} (differs_iff : differs ↔ lit ≠ c) (same : lit = c → (found ↔ Q rest)) :
    (if differs then false else found) ↔ ∃ rest', c :: rest = lit :: rest' ∧ Q rest' := by
  by_cases equal : lit = c
  · subst equal
    rw [if_neg fun differs => differs_iff.mp differs rfl, same rfl]
    constructor
    · exact fun holds => ⟨rest, rfl, holds⟩
    · rintro ⟨_, whole, holds⟩
      obtain ⟨-, rfl⟩ := List.cons.inj whole
      exact holds
  · rw [if_pos (differs_iff.mpr equal)]
    refine ⟨nofun, ?_⟩
    rintro ⟨_, whole, -⟩
    exact absurd (List.cons.inj whole).1.symm equal

theorem fnmMatchHere_iff (p : List UInt8) : ∀ {before : Option UInt8} {s : List UInt8},
    ReadsWell flags (elements flags p) before s →
      (fnmMatchHere flags p before s ↔ Matches flags (elements flags p) before s) := by
  -- The induction is on the length of the pattern, which all calls make shorter.
  induction length_eq : p.length using Nat.strong_induction_on generalizing p with
  | h n ih =>
    intro before s well
    cases p with
    | nil =>
      rw [fnmMatchHere, elements, Matches]
      exact List.isEmpty_iff
    | cons pc p =>
      have shorter : ∀ {q : List UInt8}, q.length ≤ p.length → q.length < n := fun le =>
        length_eq ▸ Nat.lt_succ_of_le le
      rw [fnmMatchHere.eq_def]
      dsimp only
      by_cases question : pc = 0x3F
      · subst question
        rw [elements_any] at well ⊢
        rw [if_pos rfl, Matches]
        rcases s with _ | ⟨c, rest⟩
        · exact ⟨nofun, fun found => absurd found not_exists_first⟩
        rw [exists_first_iff, wild_iff]
        exact and_congr_right fun wild => ih _ (shorter le_rfl) p rfl (well c rest rfl wild)
      rw [if_neg question]
      by_cases star : pc = 0x2A
      · subst star
        rw [elements_star] at well ⊢
        rw [if_pos rfl, (elements_stars p).1]
        replace well := (elements_stars p).2 well
        have short : (p.dropWhile (· = 0x2A)).length ≤ p.length := (List.dropWhile_suffix _).length_le
        rw [Matches]
        by_cases code_leading : fnmIsLeadingPeriod flags before s
        · rw [if_pos code_leading]
          exact ⟨nofun, fun both => absurd (leadingPeriod_iff.mp code_leading) both.1⟩
        rw [if_neg code_leading]
        have leading := mt leadingPeriod_iff.mpr code_leading
        by_cases last : p.dropWhile (· = 0x2A) = []
        · rw [if_pos last, last, elements]
          have slashes : (if flags.pathname then !s.contains 0x2F else true) ↔ (flags.pathname → 0x2F ∉ s) := by
            cases flags.pathname <;> simp
          rw [slashes]
          constructor
          · exact fun plain => ⟨leading, s, [], (List.append_nil s).symm, plain, rfl⟩
          · rintro ⟨-, skipped, rest, rfl, plain, rfl⟩
            rwa [List.append_nil]
        rw [if_neg last, starLoop_iff]
        refine ⟨?_, ?_⟩
        · rintro ⟨skipped, rest, whole, slashes, found⟩
          exact ⟨leading, skipped, rest, whole, slashes,
            (ih _ (shorter short) _ rfl (well leading skipped rest whole slashes)).mp found⟩
        · rintro ⟨-, skipped, rest, whole, slashes, found⟩
          exact ⟨skipped, rest, whole, slashes,
            (ih _ (shorter short) _ rfl (well leading skipped rest whole slashes)).mpr found⟩
      rw [if_neg star]
      by_cases left : pc = 0x5B
      · subst left
        rw [if_pos rfl]
        have read := bracket_read flags p
        rcases closed : bracket flags p with _ | ⟨b, later⟩
        · rw [closed] at read
          rw [elements_open closed] at well ⊢
          rw [read, Matches]
          rcases s with _ | ⟨c, rest⟩
          · exact ⟨nofun, fun ⟨_, whole, _⟩ => nomatch whole⟩
          refine literal_iff ne_comm fun same => ?_
          rw [← same]
          exact ih _ (shorter le_rfl) p rfl (well rest (by rw [same]))
        · rw [closed] at read
          rw [elements_set closed] at well ⊢
          rw [read.1, Matches]
          rcases s with _ | ⟨c, rest⟩
          · exact ⟨nofun, fun found => absurd found not_exists_first⟩
          rw [exists_first_iff]
          dsimp only
          rw [wild_iff, read.2]
          refine and_congr_right fun wild => ?_
          obtain ⟨fine, later_well⟩ := well c rest rfl wild
          have takes : b.Read c ↔ b.Takes c := Bracket.read_iff.mpr fine
          have short : later.length ≤ p.length := bracket_length flags p _ closed
          rcases taken : b.Read c with _ | _
          · exact ⟨nofun, fun both => absurd (takes.mpr both.1) (by rw [taken]; decide)⟩
          · have inside := takes.mp taken
            exact (ih _ (shorter short) later rfl (later_well inside)).trans ⟨fun found => ⟨inside, found⟩, And.right⟩
      rw [if_neg left]
      have plain : elements flags (pc :: p) = .lit (takeChar flags pc p).1 :: elements flags (takeChar flags pc p).2 := by
        rw [elements, if_neg question, if_neg star, if_neg left]
      rw [plain] at well ⊢
      rw [Matches]
      rcases s with _ | ⟨c, rest⟩
      · exact ⟨nofun, fun ⟨_, whole, _⟩ => nomatch whole⟩
      refine literal_iff Iff.rfl fun same => ?_
      rw [← same]
      exact ih _ (shorter (takeChar_length flags pc p)) _ rfl (well rest (by rw [same]))

theorem elements_eq_nil {p : List UInt8} (empty : elements flags p = []) : p = [] := by
  cases p with
  | nil => rfl
  | cons pc p =>
    rw [elements] at empty
    split at empty
    · cases empty
    split at empty
    · cases empty
    split at empty
    · split at empty
      · cases empty
      · cases empty
    · cases empty

theorem elements_eq_set {p : List UInt8} {b : Bracket} (single : elements flags p = [.set b]) :
    ∃ q, p = 0x5B :: q ∧ bracket flags q = some (b, []) := by
  cases p with
  | nil =>
    rw [elements] at single
    cases single
  | cons pc p =>
    rw [elements] at single
    split at single
    · cases single
    split at single
    · cases single
    split at single
    · rename_i left
      split at single
      · cases single
      · rename_i closed
        obtain ⟨rfl, empty⟩ := List.cons.inj single |>.imp Element.set.inj id
        rw [elements_eq_nil empty] at closed
        exact ⟨p, by rw [left], closed⟩
    · cases single

theorem fnmMatchHere_set {p : List UInt8} {b : Bracket} {before : Option UInt8} {c : UInt8}
    (closed : bracket flags p = some (b, [])) :
    fnmMatchHere flags (0x5B :: p) before [c] ↔ Wild flags before c ∧ b.Read c := by
  have read := bracket_read flags p
  rw [closed] at read
  rw [fnmMatchHere.eq_def]
  dsimp only
  rw [if_neg (by decide), if_neg (by decide), if_pos rfl, read.1]
  dsimp only
  rw [wild_iff, read.2, fnmMatchHere]
  cases b.Read c <;> simp

end

theorem fnmatch_eq_zero {flags : Flags} {pattern string : List UInt8} :
    fnmatch (some pattern) (some string) flags = 0 ↔ fnmMatchHere flags pattern none string := by
  rw [fnmatch]
  cases fnmMatchHere flags pattern none string <;> simp [fnmNomatch]

/-- The code matches the strings of the language where no bracket expression misjudges a character it meets, and for a single bracket expression and character only there. -/
theorem fnmatch_iff_matches (flags : Flags) (pattern string : List UInt8) :
    (ReadsWell flags (elements flags pattern) none string →
      (fnmatch (some pattern) (some string) flags = 0 ↔ Matches flags (elements flags pattern) none string)) ∧
    ∀ b c, elements flags pattern = [.set b] → string = [c] →
      (fnmatch (some pattern) (some string) flags = 0 ↔ Matches flags (elements flags pattern) none string) →
      ReadsWell flags (elements flags pattern) none string := by
  refine ⟨fun well => fnmatch_eq_zero.trans (fnmMatchHere_iff pattern well), ?_⟩
  rintro b c single rfl same
  obtain ⟨q, rfl, closed⟩ := elements_eq_set single
  rw [fnmatch_eq_zero, fnmMatchHere_set closed, single, Matches, exists_first_iff] at same
  rw [single, ReadsWell]
  intro c' rest whole wild
  obtain ⟨rfl, rfl⟩ := List.cons.inj whole
  refine ⟨Bracket.read_iff.mp ⟨fun read => (same.mp ⟨wild, read⟩).2.1, fun takes => ?_⟩, fun _ => trivial⟩
  exact (same.mpr ⟨wild, takes, rfl⟩).2

/-- The star matches a file's name. -/
theorem fnmatch_star : fnmatch (some [0x2A]) (some [0x61]) ⟨true, false, true⟩ = 0 ↔
    Matches ⟨true, false, true⟩ (elements ⟨true, false, true⟩ [0x2A]) none [0x61] :=
  (fnmatch_iff_matches ⟨true, false, true⟩ [0x2A] [0x61]).1 (by
    rw [elements_star, elements]
    exact fun _ _ _ _ _ => trivial)

/-- A letter behind a backslash in brackets is not matched. -/
theorem fnmatch_escape : ¬ ∀ flags pattern string,
    fnmatch (some pattern) (some string) flags = 0 ↔ Matches flags (elements flags pattern) none string := by
  intro always
  have same := always ⟨false, false, false⟩ [0x5B, 0x5C, 0x61, 0x5D] [0x61]
  have closed : bracket ⟨false, false, false⟩ [0x5C, 0x61, 0x5D] = some (⟨false, false, [⟨true, 0x61, none⟩]⟩, []) := by
    simp [bracket, items, skipNegation, skipRight, takeChar, rangeEnd]
  rw [elements_set closed, elements, fnmatch_eq_zero, fnmMatchHere_set closed, Matches, exists_first_iff] at same
  have wild : Wild ⟨false, false, false⟩ none 0x61 := ⟨nofun, fun period => nomatch period.1⟩
  have has : Bracket.Has ⟨false, false, [⟨true, 0x61, none⟩]⟩ 0x61 := .inr ⟨_, List.mem_cons_self, by decide, by decide⟩
  exact absurd (same.mpr ⟨wild, has, rfl⟩).2 (by decide)

end Enlil.Fnmatch
