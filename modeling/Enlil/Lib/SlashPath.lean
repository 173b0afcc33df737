import Mathlib

/-! Absolute paths as texts with slashes, and as the lists of their names. -/

namespace Enlil.SlashPath

/-- A name between two slashes that stands for itself, and not for the same directory or the one above. -/
structure IsName (name : List Char) : Prop where
  nonempty : name ≠ []
  slash : '/' ∉ name
  same : name ≠ ['.']
  up : name ≠ ['.', '.']

instance (name : List Char) : Decidable (IsName name) :=
  decidable_of_iff (name ≠ [] ∧ '/' ∉ name ∧ name ≠ ['.'] ∧ name ≠ ['.', '.'])
    ⟨fun h => ⟨h.1, h.2.1, h.2.2.1, h.2.2.2⟩, fun h => ⟨h.nonempty, h.slash, h.same, h.up⟩⟩

/-- Names, each after a slash. -/
def slashed (names : List (List Char)) : List Char := names.flatMap ('/' :: ·)

/-- The text of the path with some names. -/
def render (names : List (List Char)) : List Char := if names = [] then ['/'] else slashed names

/-- A text that is over, or goes on with a slash. -/
def Stops (text : List Char) : Prop := text = [] ∨ text.head? = some '/'

/-- Names that can be told apart in the text of a path. -/
def Plain (names : List (List Char)) : Prop := ∀ name ∈ names, name ≠ [] ∧ '/' ∉ name

/-- Names that all stand for themselves. -/
def Proper (names : List (List Char)) : Prop := ∀ name ∈ names, IsName name

/-- The text of a path without detours. -/
def Normal (text : List Char) : Prop := ∃ names, Proper names ∧ text = render names

section

variable {names others : List (List Char)} {name other : List Char} {text more : List Char}

theorem Proper.plain (proper : Proper names) : Plain names := fun name mem =>
  ⟨(proper name mem).nonempty, (proper name mem).slash⟩

theorem Plain.tail (plain : Plain (name :: names)) : Plain names := fun other mem => plain other (List.mem_cons_of_mem _ mem)

theorem Proper.append (proper : Proper names) (good : IsName name) : Proper (names ++ [name]) := by
  intro other mem
  rcases List.mem_append.mp mem with mem | mem
  · exact proper other mem
  · exact List.mem_singleton.mp mem ▸ good

theorem Proper.dropLast (proper : Proper names) : Proper names.dropLast := fun other mem =>
  proper other (List.dropLast_subset names mem)

theorem Proper.of_append (proper : Proper (names ++ others)) : Proper others := fun other mem =>
  proper other (List.mem_append_right _ mem)

@[simp] theorem slashed_nil : slashed [] = [] := rfl

@[simp] theorem slashed_cons : slashed (name :: names) = '/' :: (name ++ slashed names) := rfl

@[simp] theorem slashed_append : slashed (names ++ others) = slashed names ++ slashed others := List.flatMap_append

theorem slashed_stops (names : List (List Char)) : Stops (slashed names) := by
  cases names with
  | nil => exact .inl rfl
  | cons name names => exact .inr rfl

theorem render_of_ne (some_name : names ≠ []) : render names = slashed names := if_neg some_name

@[simp] theorem render_nil : render [] = ['/'] := rfl

@[simp] theorem render_cons : render (name :: names) = '/' :: (name ++ slashed names) := rfl

theorem render_head (names : List (List Char)) : (render names).head? = some '/' := by
  cases names <;> rfl

/-- A text without a slash ends where a slash or the end follows. -/
theorem stops_unique (first : '/' ∉ name) (second : '/' ∉ other) (stops : Stops text) (stops' : Stops more)
    (same : name ++ text = other ++ more) : name = other ∧ text = more := by
  induction name generalizing other with
  | nil =>
    cases other with
    | nil => exact ⟨rfl, same⟩
    | cons c other =>
      -- The other name would start with what follows the first, which is a slash.
      rcases stops with rfl | slash
      · cases same
      · rw [List.nil_append] at same
        rw [same] at slash
        exact absurd (Option.some.inj slash ▸ List.mem_cons_self) second
  | cons c name ih =>
    cases other with
    | nil =>
      rcases stops' with rfl | slash
      · cases same
      · rw [List.nil_append] at same
        rw [← same] at slash
        exact absurd (Option.some.inj slash ▸ List.mem_cons_self) first
    | cons d other =>
      obtain ⟨rfl, behind⟩ := List.cons.inj same
      obtain ⟨rfl, ends⟩ := ih (fun mem => first (List.mem_cons_of_mem _ mem))
        (fun mem => second (List.mem_cons_of_mem _ mem)) behind
      exact ⟨rfl, ends⟩

theorem Stops.append (stops : Stops text) (stops' : Stops more) : Stops (text ++ more) := by
  rcases stops with rfl | slash
  · exact stops'
  · refine .inr ?_
    cases text with
    | nil => cases slash
    | cons c text => exact slash

/-- Slashed names that go on with a slash, or not at all, begin another list of names only if the lists begin alike. -/
theorem prefix_slashed (plain : Plain names) (plain' : Plain others) :
    (∃ rest, Stops rest ∧ slashed names ++ rest = slashed others) ↔ names <+: others := by
  constructor
  · rintro ⟨rest, stops, same⟩
    induction names generalizing others with
    | nil => exact List.nil_prefix
    | cons name names ih =>
      cases others with
      | nil => cases same
      | cons other others =>
        rw [slashed_cons, slashed_cons, List.cons_append, List.append_assoc] at same
        obtain ⟨rfl, behind⟩ := stops_unique (plain name List.mem_cons_self).2 (plain' other List.mem_cons_self).2
          ((slashed_stops names).append stops) (slashed_stops others) (List.cons.inj same).2
        exact List.cons_prefix_cons.mpr ⟨rfl, ih plain.tail plain'.tail behind⟩
  · rintro ⟨rest, rfl⟩
    exact ⟨slashed rest, slashed_stops rest, slashed_append.symm⟩

theorem slashed_inj (plain : Plain names) (plain' : Plain others) (same : slashed names = slashed others) : names = others := by
  have front := (prefix_slashed plain plain').mp ⟨[], .inl rfl, by rw [List.append_nil, same]⟩
  have back := (prefix_slashed plain' plain).mp ⟨[], .inl rfl, by rw [List.append_nil, same]⟩
  exact front.eq_of_length_le back.length_le

/-- The text of a path tells its names. -/
theorem render_inj (plain : Plain names) (plain' : Plain others) (same : render names = render others) : names = others := by
  cases names with
  | nil =>
    cases others with
    | nil => rfl
    | cons other others =>
      have longer := congrArg List.length same
      have some_char := List.length_pos_iff.mpr (plain' other List.mem_cons_self).1
      simp only [render_nil, render_cons, List.length_cons, List.length_nil, List.length_append] at longer
      omega
  | cons name names =>
    cases others with
    | nil =>
      have longer := congrArg List.length same
      have some_char := List.length_pos_iff.mpr (plain name List.mem_cons_self).1
      simp only [render_nil, render_cons, List.length_cons, List.length_nil, List.length_append] at longer
      omega
    | cons other others => exact slashed_inj plain plain' same

/-- More names make a longer text. -/
theorem render_length_lt (plain : Plain others) (front : names <+: others) (more : names ≠ others) :
    (render names).length < (render others).length := by
  obtain ⟨rest, rfl⟩ := front
  cases rest with
  | nil => exact absurd (List.append_nil names).symm more
  | cons name rest =>
    have some_char := List.length_pos_iff.mpr (plain name (by simp)).1
    cases names with
    | nil =>
      simp only [List.nil_append, render_nil, render_cons, List.length_cons, List.length_nil, List.length_append]
      omega
    | cons other names =>
      rw [render_of_ne (by simp), render_of_ne (by simp), slashed_append, List.length_append]
      simp only [slashed_cons, List.length_cons, List.length_append]
      omega

end

/-- The names between the slashes of a text, the first of which has begun already. -/
def segmentsFrom (begun : List Char) : List Char → List (List Char)
  | [] => if begun = [] then [] else [begun]
  | c :: rest =>
    if c = '/' then if begun = [] then segmentsFrom [] rest else begun :: segmentsFrom [] rest
    else segmentsFrom (begun ++ [c]) rest

/-- The names between the slashes of a text. -/
def segments (text : List Char) : List (List Char) := segmentsFrom [] text

section

variable {names : List (List Char)} {name begun : List Char}

theorem segmentsFrom_plain (clear : '/' ∉ begun) (text : List Char) : Plain (segmentsFrom begun text) := by
  induction text generalizing begun with
  | nil =>
    intro name mem
    rw [segmentsFrom] at mem
    split at mem
    · cases mem
    · rename_i some_char
      exact List.mem_singleton.mp mem ▸ ⟨some_char, clear⟩
  | cons c rest ih =>
    rw [segmentsFrom]
    split
    · split
      · exact ih List.not_mem_nil
      · rename_i some_char
        intro name mem
        rcases List.mem_cons.mp mem with rfl | mem
        · exact ⟨some_char, clear⟩
        · exact ih List.not_mem_nil name mem
    · rename_i other
      refine ih fun mem => ?_
      rcases List.mem_append.mp mem with mem | mem
      · exact clear mem
      · exact other (List.mem_singleton.mp mem).symm

theorem segments_plain (text : List Char) : Plain (segments text) := segmentsFrom_plain List.not_mem_nil text

/-- A name without a slash is read as a whole. -/
theorem segmentsFrom_append (clear : '/' ∉ name) (text : List Char) :
    segmentsFrom begun (name ++ text) = segmentsFrom (begun ++ name) text := by
  induction name generalizing begun with
  | nil => rw [List.nil_append, List.append_nil]
  | cons c name ih =>
    have other : c ≠ '/' := fun same => clear (same ▸ List.mem_cons_self)
    rw [List.cons_append, segmentsFrom, if_neg other, ih fun mem => clear (List.mem_cons_of_mem _ mem), List.append_assoc]
    rfl

theorem segmentsFrom_slashed (plain : Plain names) :
    segmentsFrom begun (slashed names) = if begun = [] then names else begun :: names := by
  induction names generalizing begun with
  | nil => rfl
  | cons name names ih =>
    obtain ⟨some_char, clear⟩ := plain name List.mem_cons_self
    rw [slashed_cons, segmentsFrom, if_pos rfl, segmentsFrom_append clear, List.nil_append, ih plain.tail, if_neg some_char]

/-- What is read before a slash does not depend on what follows it. -/
theorem segmentsFrom_slash (begun text more : List Char) :
    segmentsFrom begun (text ++ '/' :: more) = segmentsFrom begun text ++ segments more := by
  induction text generalizing begun with
  | nil =>
    rw [List.nil_append, segmentsFrom, segmentsFrom, if_pos rfl]
    split <;> rfl
  | cons c text ih =>
    rw [List.cons_append, segmentsFrom, segmentsFrom]
    split
    · split
      · exact ih []
      · rw [ih [], List.cons_append]
    · exact ih (begun ++ [c])

/-- The names of a text around a slash are those before it and those behind it. -/
theorem segments_slash (text more : List Char) : segments (text ++ '/' :: more) = segments text ++ segments more :=
  segmentsFrom_slash [] text more

/-- Slashes at the start of a text change nothing. -/
theorem segments_dropWhile (text : List Char) : segments (text.dropWhile (· == '/')) = segments text := by
  induction text with
  | nil => rfl
  | cons c text ih =>
    by_cases slash : c = '/'
    · subst slash
      rw [List.dropWhile_cons_of_pos (by simp), ih]
      exact (segments_slash [] text).symm
    · rw [List.dropWhile_cons_of_neg (by simpa using slash)]

/-- A name is read alone when a slash or the end follows. -/
theorem segments_name (clear : '/' ∉ name) (some_char : name ≠ []) {text : List Char} (stops : Stops text) :
    segments (name ++ text) = name :: segments text := by
  rw [segments, segmentsFrom_append clear, List.nil_append]
  rcases stops with rfl | slash
  · rw [segmentsFrom, if_neg some_char]
    rfl
  · obtain ⟨more, rfl⟩ := List.head?_eq_some_iff.mp slash
    rw [segmentsFrom, if_pos rfl, if_neg some_char]
    exact congrArg _ (segments_slash [] more).symm

/-- The names of a path are read back from its text. -/
theorem segments_render (plain : Plain names) : segments (render names) = names := by
  cases names with
  | nil => rfl
  | cons name names =>
    rw [segments, render_of_ne (by simp), segmentsFrom_slashed plain, if_pos rfl]

end

/-- The directory reached over the names of a text: a point stays, two points go one up. -/
def goes (names : List (List Char)) (name : List Char) : List (List Char) :=
  if name = ['.'] then names else if name = ['.', '.'] then names.dropLast else names ++ [name]

/-- Each step keeps a path without detours. -/
theorem Proper.goes {names : List (List Char)} {name : List Char} (proper : Proper names) (plain : name ≠ [] ∧ '/' ∉ name) :
    Proper (goes names name) := by
  unfold SlashPath.goes
  split
  · exact proper
  · split
    · exact proper.dropLast
    · rename_i same up
      exact proper.append ⟨plain.1, plain.2, same, up⟩

end Enlil.SlashPath
