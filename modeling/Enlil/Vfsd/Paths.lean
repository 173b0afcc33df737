import Enlil.Lib.Run
import Enlil.Lib.SlashPath
import Enlil.Vfs.Paths

/-! How `user/vfsd.c` compares, joins and normalizes paths. -/

namespace Enlil.Vfsd

open Enlil.SlashPath
open Enlil.Vfs (CString skipSlashes)

/-- Size of the texts a request or an answer carries. -/
def vfsdIoBytes : Nat := 192

/-- Size of the paths the mount table keeps. -/
def vfsdPathBytes : Nat := 96

/-- The errors of the server, and those of the kernel that it only passes on. -/
inductive Errno where
  | eio
  | enoent
  | enomem
  | ebusy
  | enotdir
  | einval
  | enospc
  | enametoolong
  | enosys
  | kernel (code : Nat)
  deriving DecidableEq, Repr

/-- A text as it is copied into so many bytes. -/
def vfsdStrlcpy (src : CString) (cap : Nat) : CString := src.take (cap - 1)

/-- A path is another one, or lies below it. -/
def vfsdPathHasPrefix (path root : CString) : Bool :=
  if root = ['/'] then path.head? == some '/'
  else root.isPrefixOf path && ((path.drop root.length).head? == none || (path.drop root.length).head? == some '/')

/-- A path without the characters at its end that are of some kind, its first character apart. -/
def stripEnd (kind : Char → Bool) (path : CString) : CString :=
  path.take 1 ++ ((path.drop 1).reverse.dropWhile kind).reverse

/-- A path without its last component. -/
def vfsdPathPop (path : CString) : CString :=
  if path.length ≤ 1 then ['/']
  else
    let path := stripEnd (· != '/') (stripEnd (· == '/') path)
    if path.length > 1 then path.dropLast else path

/-- A path with one more component. -/
def vfsdPathAppendSeg (out : CString) (cap : Nat) (seg : CString) : Except Errno CString :=
  if seg = [] then .ok out
  else if out.head? ≠ some '/' then .error .einval
  else if out.length > 1 ∧ out.length + 1 ≥ cap then .error .enametoolong
  else
    let out := if out.length > 1 then out ++ ['/'] else out
    if out.length + seg.length ≥ cap then .error .enametoolong else .ok (out ++ seg)

/-- What normalizing does at one component of a path. -/
def normalizeSeg (cap : Nat) (out : CString) (seg : CString) : Except Errno CString :=
  if seg = ['.'] then .ok out
  else if seg = ['.', '.'] then .ok (vfsdPathPop out)
  else
    match vfsdPathAppendSeg out cap seg with
    | .ok out => .ok out
    | .error _ => .error .enametoolong

/-- The text that is normalized: the input, or the base with the input behind it. -/
def normalizeInput (base input : CString) : Except Errno CString :=
  if input.head? = some '/' then .ok (vfsdStrlcpy input vfsdIoBytes)
  else
    let root := if base.head? = some '/' then base else ['/']
    if root.length + 1 ≥ vfsdIoBytes then .error .enametoolong
    else
      let tmp := if root.length > 1 ∧ root.getLast? ≠ some '/' then root ++ ['/'] else root
      if tmp.length + input.length ≥ vfsdIoBytes then .error .enametoolong else .ok (tmp ++ input)

/-- An absolute path without detours, from a directory and a path that may be relative to it. -/
def vfsdPathNormalize (base input : CString) (cap : Nat) : Except Errno CString :=
  if cap < 2 then .error .einval
  else normalizeInput base input >>= fun tmp => (segments tmp).foldlM (normalizeSeg cap) ['/']

/-- A path below another. -/
def vfsdPathJoin (root suffix : CString) (cap : Nat) : Except Errno CString :=
  if cap < 2 ∨ root = [] then .error .einval
  else
    let rest := skipSlashes suffix
    if root = ['/'] then
      if rest = [] then .ok ['/'] else if 1 + rest.length ≥ cap then .error .enametoolong else .ok ('/' :: rest)
    else if root.length + 1 ≥ cap then .error .enametoolong
    else if rest = [] then .ok root
    else
      let out := if root.getLast? = some '/' then root else root ++ ['/']
      if out.length + rest.length ≥ cap then .error .enametoolong else .ok (out ++ rest)

/-- A path as it is seen from a root it lies below. -/
def vfsdPathRebaseUnder (root path : CString) (cap : Nat) : Except Errno CString :=
  if cap < 2 then .error .einval
  else if vfsdPathHasPrefix path root = false then .error .einval
  else if root = ['/'] then .ok (vfsdStrlcpy path cap)
  else if path.drop root.length = [] then .ok ['/']
  else vfsdPathJoin ['/'] (path.drop root.length) cap

section

variable {names others : List CString} {name : CString} {cap : Nat}

theorem hasPrefix_render (plain : Plain names) (plain' : Plain others) :
    vfsdPathHasPrefix (render others) (render names) = true ↔ names <+: others := by
  cases names with
  | nil => simp [vfsdPathHasPrefix, render_head]
  | cons name names =>
    have longer : render (name :: names) ≠ ['/'] := by
      obtain ⟨some_char, _⟩ := plain name List.mem_cons_self
      simp [some_char]
    rw [vfsdPathHasPrefix, if_neg longer]
    rw [render_of_ne (by simp)] at longer ⊢
    -- The root is no prefix of anything else; a longer path is compared with the text before a slash or the end.
    cases others with
    | nil =>
      obtain ⟨some_char, _⟩ := plain name List.mem_cons_self
      simp [some_char, List.isPrefixOf_iff_prefix]
    | cons other others =>
      rw [render_of_ne (by simp), ← prefix_slashed plain plain', Bool.and_eq_true, List.isPrefixOf_iff_prefix,
        Bool.or_eq_true, beq_iff_eq, beq_iff_eq, List.head?_eq_none_iff]
      constructor
      · rintro ⟨⟨rest, same⟩, stops⟩
        rw [← same, List.drop_left] at stops
        exact ⟨rest, stops, same⟩
      · rintro ⟨rest, stops, same⟩
        rw [← same, List.drop_left]
        exact ⟨⟨rest, rfl⟩, stops⟩

theorem stripEnd_slashes (plain : name ≠ [] ∧ '/' ∉ name) (front : CString) :
    stripEnd (· == '/') ('/' :: (front ++ name)) = '/' :: (front ++ name) := by
  obtain ⟨init, last, rfl⟩ := (List.eq_nil_or_concat' name).resolve_left plain.1
  have other : last ≠ '/' := fun same => plain.2 (same ▸ List.mem_append_right _ List.mem_cons_self)
  simp [stripEnd, other]

theorem dropWhile_name (clear : '/' ∉ name) : name.reverse.dropWhile (· != '/') = [] := by
  rw [List.dropWhile_eq_nil_iff]
  intro c mem
  rw [bne_iff_ne]
  rintro rfl
  exact clear (List.mem_reverse.mp mem)

theorem stripEnd_name (clear : '/' ∉ name) (front : CString) :
    stripEnd (· != '/') ('/' :: (front ++ '/' :: name)) = '/' :: (front ++ ['/']) := by
  simp [stripEnd, List.dropWhile_append, dropWhile_name clear]

theorem stripEnd_only (clear : '/' ∉ name) : stripEnd (· != '/') ('/' :: name) = ['/'] := by
  simp [stripEnd, dropWhile_name clear]

theorem vfsdPathPop_render (plain : Plain names) : vfsdPathPop (render names) = render names.dropLast := by
  rcases List.eq_nil_or_concat' names with rfl | ⟨front, name, rfl⟩
  · rfl
  have last := plain name (List.mem_append_right _ List.mem_cons_self)
  rw [List.dropLast_concat]
  cases front with
  | nil =>
    have kept := stripEnd_slashes last []
    rw [List.nil_append] at kept
    rw [vfsdPathPop, if_neg (by simp [last.1])]
    simp [kept, stripEnd_only last.2]
  | cons other front =>
    -- The last name is cut off behind its slash, and then the slash.
    have text : render (other :: front ++ [name]) = '/' :: ((other ++ slashed front) ++ '/' :: name) := by simp
    have kept := stripEnd_slashes last ((other ++ slashed front) ++ ['/'])
    rw [List.append_assoc, List.singleton_append] at kept
    have cut : ('/' :: (other ++ slashed front ++ ['/'])).dropLast = '/' :: (other ++ slashed front) := by
      rw [← List.cons_append, List.dropLast_concat]
    rw [text, vfsdPathPop, if_neg (by simp), kept, stripEnd_name last.2, if_pos (by simp), cut]
    rfl

theorem render_length_gt (plain : Plain names) : 1 < (render names).length ↔ names ≠ [] := by
  cases names with
  | nil => simp
  | cons name names =>
    have some_char := List.length_pos_iff.mpr (plain name List.mem_cons_self).1
    simp only [render_cons, List.length_cons, List.length_append, ne_eq, reduceCtorEq, not_false_eq_true, iff_true]
    omega

theorem vfsdPathAppendSeg_render (plain : Plain names) (last : name ≠ []) {out : CString}
    (appended : vfsdPathAppendSeg (render names) cap name = .ok out) : out = render (names ++ [name]) := by
  rw [vfsdPathAppendSeg, if_neg last, if_neg (by simp [render_head])] at appended
  simp only [gt_iff_lt, render_length_gt plain] at appended
  cases names with
  | nil =>
    simp only [ne_eq, not_true_eq_false, false_and, if_false] at appended
    split at appended
    · cases appended
    · simpa using (Except.ok.inj appended).symm
  | cons other names =>
    simp only [ne_eq, reduceCtorEq, not_false_eq_true, true_and, if_true] at appended
    split at appended
    · cases appended
    · split at appended
      · cases appended
      · simpa using (Except.ok.inj appended).symm

theorem normalizeSeg_render (plain : Plain names) (last : name ≠ []) {out : CString}
    (went : normalizeSeg cap (render names) name = .ok out) : out = render (goes names name) := by
  unfold normalizeSeg at went
  unfold goes
  split at went
  · rename_i same
    rw [if_pos same]
    exact (Except.ok.inj went).symm
  · rename_i same
    rw [if_neg same]
    split at went
    · rename_i up
      rw [if_pos up, ← vfsdPathPop_render plain]
      exact (Except.ok.inj went).symm
    · rename_i up
      rw [if_neg up]
      cases appended : vfsdPathAppendSeg (render names) cap name with
      | error error =>
        rw [appended] at went
        cases went
      | ok longer =>
        rw [appended] at went
        rw [← Except.ok.inj went]
        exact vfsdPathAppendSeg_render plain last appended

theorem foldlM_normalizeSeg (names segs : List CString) (proper : Proper names) (plain : Plain segs) {out : CString}
    (went : segs.foldlM (normalizeSeg cap) (render names) = .ok out) :
    out = render (segs.foldl goes names) ∧ Proper (segs.foldl goes names) := by
  -- The names reached so far are proper, whatever the components are.
  induction segs generalizing names with
  | nil => exact ⟨(Except.ok.inj went).symm, proper⟩
  | cons seg segs ih =>
    rw [List.foldlM_cons] at went
    obtain ⟨next, step, rest⟩ := bind_ok went
    have this_one := plain seg List.mem_cons_self
    rw [normalizeSeg_render proper.plain this_one.1 step] at rest
    exact ih _ (proper.goes this_one) plain.tail rest

theorem vfsdPathNormalize_names {base input out : CString} (normalized : vfsdPathNormalize base input cap = .ok out) :
    ∃ tmp, normalizeInput base input = .ok tmp ∧ out = render ((segments tmp).foldl goes []) ∧
      Proper ((segments tmp).foldl goes []) := by
  rw [vfsdPathNormalize] at normalized
  split at normalized
  · cases normalized
  · obtain ⟨tmp, input, went⟩ := bind_ok normalized
    exact ⟨tmp, input, foldlM_normalizeSeg [] _ (fun _ mem => (List.not_mem_nil mem).elim) (segments_plain tmp) went⟩

theorem vfsdPathNormalize_normal {base input out : CString} (normalized : vfsdPathNormalize base input cap = .ok out) :
    Normal out := by
  obtain ⟨tmp, _, rfl, proper⟩ := vfsdPathNormalize_names normalized
  exact ⟨_, proper, rfl⟩

theorem vfsdPathPop_length (plain : Plain names) : (vfsdPathPop (render names)).length ≤ (render names).length := by
  rw [vfsdPathPop_render plain]
  rcases List.eq_nil_or_concat' names with rfl | ⟨front, name, rfl⟩
  · exact le_refl _
  · rw [List.dropLast_concat]
    cases front <;> simp

theorem vfsdPathNormalize_length {base input out : CString} (normalized : vfsdPathNormalize base input cap = .ok out) :
    out.length < cap := by
  rw [vfsdPathNormalize] at normalized
  split at normalized
  · cases normalized
  rename_i room
  obtain ⟨text, _, went⟩ := bind_ok normalized
  -- The text fits after each of the components.
  have fits : ∀ (segs names : List CString), Proper names → Plain segs → (render names).length < cap →
      segs.foldlM (normalizeSeg cap) (render names) = .ok out → out.length < cap := by
    intro segs
    induction segs with
    | nil =>
      intro names _ _ short went
      exact Except.ok.inj went ▸ short
    | cons seg segs ih =>
      intro names proper plain short went
      rw [List.foldlM_cons] at went
      obtain ⟨next, step, rest⟩ := bind_ok went
      have this_one := plain seg List.mem_cons_self
      have reached := normalizeSeg_render proper.plain this_one.1 step
      subst reached
      refine ih _ (proper.goes this_one) plain.tail ?_ rest
      unfold normalizeSeg at step
      split at step
      · exact Except.ok.inj step ▸ short
      · split at step
        · rw [← Except.ok.inj step]
          exact lt_of_le_of_lt (vfsdPathPop_length proper.plain) short
        · split at step
          · rename_i longer appended
            rw [← Except.ok.inj step]
            unfold vfsdPathAppendSeg at appended
            grind
          · cases step
  exact fits _ [] (fun _ mem => (List.not_mem_nil mem).elim) (segments_plain text) (by simp; omega) went

theorem vfsdPathRebaseUnder_render (plain : Plain (names ++ others)) (some_name : names ≠ []) {out : CString}
    (rebased : vfsdPathRebaseUnder (render names) (render (names ++ others)) cap = .ok out) : out = render others := by
  have longer : render names ≠ ['/'] := by
    intro same
    have count := (render_length_gt fun name mem => plain name (List.mem_append_left _ mem)).mpr some_name
    rw [same] at count
    simp at count
  rw [vfsdPathRebaseUnder, render_of_ne (by simp [some_name]), render_of_ne some_name, slashed_append, List.drop_left] at rebased
  rw [render_of_ne some_name] at longer
  split at rebased
  · cases rebased
  · split at rebased
    · cases rebased
    · cases others with
      | nil => exact (Except.ok.inj rebased).symm
      | cons other others =>
        rw [if_neg (by simp), vfsdPathJoin] at rebased
        have rest : skipSlashes (slashed (other :: others)) = other ++ slashed others := by
          obtain ⟨some_char, clear⟩ := plain other (by simp)
          cases other with
          | nil => exact absurd rfl some_char
          | cons c other =>
            have first : c ≠ '/' := fun same => clear (same ▸ List.mem_cons_self)
            simp [skipSlashes, first]
        simp only [rest] at rebased
        rw [render_cons]
        grind

end

end Enlil.Vfsd
