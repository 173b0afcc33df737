import Enlil.Vfs.Paths
import Enlil.Lib.SlashPath

/-! The components of a path, as `kernel/vfs.c` takes them off its text and puts them together again. -/

namespace Enlil.Vfs

open SlashPath

section

variable {names dir : List CString} {name comp : CString} {path base rel out : CString} {cap : Nat}

theorem skipSlashes_head (path : CString) : (skipSlashes path).head? ≠ some '/' := by
  intro slash
  have not_slash := List.head?_dropWhile_not (· == '/') path
  rw [← skipSlashes, slash] at not_slash
  cases not_slash

theorem component_clear (path : CString) : '/' ∉ component path := fun mem => by
  have other := List.mem_takeWhile_imp mem
  simp at other

theorem component_ne (some_char : path ≠ []) (start : path.head? ≠ some '/') : component path ≠ [] := by
  cases path with
  | nil => exact absurd rfl some_char
  | cons c path =>
    have other : c ≠ '/' := fun same => start (same ▸ rfl)
    rw [component, List.takeWhile_cons_of_pos (by simpa using other)]
    simp

theorem dropWhile_stops (path : CString) : Stops (path.dropWhile (· != '/')) := by
  cases rest : path.dropWhile (· != '/') with
  | nil => exact .inl rfl
  | cons c more =>
    have slash := List.head?_dropWhile_not (· != '/') path
    rw [rest] at slash
    exact .inr (congrArg some (by simpa using slash))

theorem segments_component (some_char : path ≠ []) (start : path.head? ≠ some '/') :
    segments path = component path :: segments (afterComponent path) := by
  have split : path = component path ++ path.dropWhile (· != '/') := (List.takeWhile_append_dropWhile).symm
  conv_lhs => rw [split]
  rw [segments_name (component_clear path) (component_ne some_char start) (dropWhile_stops path), afterComponent, skipSlashes,
    segments_dropWhile]

theorem afterComponent_lt (some_comp : component path ≠ []) : (afterComponent path).length < path.length := by
  have shorter : (afterComponent path).length ≤ (path.dropWhile (· != '/')).length := (List.dropWhile_sublist _).length_le
  have split := congrArg List.length (List.takeWhile_append_dropWhile (p := (· != '/')) (l := path))
  have some_char := List.length_pos_iff.mpr some_comp
  rw [List.length_append] at split
  unfold component at some_char
  omega

theorem component_append (clear : '/' ∉ name) {rest : CString} (stops : Stops rest) : component (name ++ rest) = name := by
  have whole : ∀ c ∈ name, (c != '/') = true := fun c mem => by
    rw [bne_iff_ne]
    rintro rfl
    exact clear mem
  rw [component, List.takeWhile_append_of_pos whole]
  rcases stops with rfl | slash
  · simp
  · obtain ⟨more, rfl⟩ := List.head?_eq_some_iff.mp slash
    simp

theorem afterComponent_append (clear : '/' ∉ name) {rest : CString} (stops : Stops rest) :
    afterComponent (name ++ rest) = skipSlashes rest := by
  have whole : ∀ c ∈ name, (c != '/') = true := fun c mem => by
    rw [bne_iff_ne]
    rintro rfl
    exact clear mem
  rw [afterComponent, List.dropWhile_append_of_pos whole]
  rcases stops with rfl | slash
  · rfl
  · obtain ⟨more, rfl⟩ := List.head?_eq_some_iff.mp slash
    simp

theorem vfsPathPopLast_render (plain : Plain names) : vfsPathPopLast (render names) = render names.dropLast := by
  rcases List.eq_nil_or_concat' names with rfl | ⟨front, name, rfl⟩
  · rfl
  obtain ⟨some_char, clear⟩ := plain name (List.mem_append_right _ List.mem_cons_self)
  obtain ⟨init, last, rfl⟩ := (List.eq_nil_or_concat' name).resolve_left some_char
  have other : last ≠ '/' := fun same => clear (same ▸ List.mem_append_right _ List.mem_cons_self)
  have clean : ∀ c ∈ init.reverse, (c != '/') = true := fun c mem => by
    rw [bne_iff_ne]
    rintro rfl
    exact clear (List.mem_append_left _ (List.mem_reverse.mp mem))
  -- What stands before the last name is the text of the others and a slash.
  have text : (render (front ++ [init ++ [last]])).reverse = last :: (init.reverse ++ '/' :: (slashed front).reverse) := by
    rw [render_of_ne (by simp)]
    simp
  have cut : ((render (front ++ [init ++ [last]])).reverse.dropWhile (· == '/')).dropWhile (· != '/') =
      '/' :: (slashed front).reverse := by
    rw [text, List.dropWhile_cons_of_neg (by simpa using other), List.dropWhile_cons_of_pos (by simpa using other),
      List.dropWhile_append_of_pos clean, List.dropWhile_cons_of_neg (by simp)]
  rw [vfsPathPopLast, if_neg (by simp [render_head]), cut, List.dropLast_concat]
  cases front with
  | nil => simp
  | cons other front =>
    rw [if_neg (by simp), List.tail_cons, List.reverse_reverse, render_of_ne (by simp)]

theorem render_slash (plain : Plain dir) :
    (if render dir = ['/'] then render dir else render dir ++ ['/']) ++ comp = render (dir ++ [comp]) := by
  cases dir with
  | nil => simp
  | cons name dir =>
    have some_char := (plain name List.mem_cons_self).1
    rw [if_neg (by simp [some_char]), render_of_ne (by simp), render_of_ne (by simp)]
    simp

theorem vfsPathAppendComponent_render (plain : Plain dir) (some_char : comp ≠ []) (room : 2 ≤ cap) :
    vfsPathAppendComponent (render dir) comp cap =
      if cap < (render (dir ++ [comp])).length + 1 then .error .enametoolong else .ok (render (dir ++ [comp])) := by
  have longer := List.length_pos_iff.mpr some_char
  rw [vfsPathAppendComponent, if_neg (by simp only [some_char, false_or]; omega), if_neg (by simp [render_head]),
    ← List.length_append, render_slash plain]
  split
  · -- Where there is no room for the slash, there is none for the component.
    rename_i full
    rw [if_pos]
    rw [← render_slash plain, if_neg full.1]
    simp only [List.length_append, List.length_singleton]
    omega
  · rfl

theorem segments_vfsPathJoin (joined : vfsPathJoin base rel cap = .ok out) : segments out = segments base ++ segments rel := by
  have same : segments (skipSlashes rel) = segments rel := segments_dropWhile rel
  unfold vfsPathJoin at joined
  split_ifs at joined with _ _ empty _ ends
  · rw [← Except.ok.inj joined, ← same, empty]
    exact (List.append_nil _).symm
  · obtain ⟨front, rfl⟩ := List.getLast?_eq_some_iff.mp ends
    have front_only : segments (front ++ ['/']) = segments front := by
      rw [segments_slash]
      exact List.append_nil _
    rw [← Except.ok.inj joined, front_only, List.append_assoc, List.singleton_append, segments_slash, same]
  · rw [← Except.ok.inj joined, List.append_assoc, List.singleton_append, segments_slash, same]

theorem vfsPathJoin_length (joined : vfsPathJoin base rel cap = .ok out) (fits : base.length < cap) : out.length < cap := by
  unfold vfsPathJoin at joined
  split_ifs at joined with _ _ empty _ ends
  · exact Except.ok.inj joined ▸ fits
  · rw [← Except.ok.inj joined, List.length_append]
    omega
  · rw [← Except.ok.inj joined, List.length_append]
    omega

theorem segments_remaining {remaining merged : CString}
    (joined : (if remaining = [] then if cap < base.length + 1 then .error .enametoolong else .ok base
      else vfsPathJoin base remaining cap) = Except.ok merged) : segments merged = segments base ++ segments remaining := by
  split_ifs at joined with none long
  · rw [← Except.ok.inj joined, none]
    exact (List.append_nil _).symm
  · exact segments_vfsPathJoin joined

theorem segments_vfsJoinSymlinkTarget (plain : Plain (dir ++ [name])) {target remaining merged : CString}
    (joined : vfsJoinSymlinkTarget (render (dir ++ [name])) target remaining cap = .ok merged) :
    segments merged = (if target.head? = some '/' then [] else dir) ++ segments target ++ segments remaining := by
  unfold vfsJoinSymlinkTarget at joined
  by_cases absolute : target.head? = some '/'
  · rw [if_pos absolute] at joined ⊢
    by_cases long : vfsPathMax < target.length + 1
    · rw [if_pos long] at joined
      cases joined
    · rw [if_neg long] at joined
      exact segments_remaining joined
  · rw [if_neg absolute, vfsPathDirname, if_neg (by decide)] at joined
    rw [if_neg absolute]
    by_cases long : vfsPathMax < (render (dir ++ [name])).length + 1
    · rw [if_pos long] at joined
      cases joined
    · rw [if_neg long, vfsPathPopLast_render plain, List.dropLast_concat] at joined
      cases based : vfsPathJoin (render dir) target vfsPathMax with
      | error error =>
        simp [based, bind, Except.bind] at joined
      | ok base =>
        have joined := segments_remaining (by simpa [based, bind, Except.bind] using joined)
        rw [joined, segments_vfsPathJoin based, segments_render fun other mem => plain other (List.mem_append_left _ mem)]

theorem vfsPathPopLast_length (path : CString) : (vfsPathPopLast path).length ≤ path.length := by
  have shorter : ((path.reverse.dropWhile (· == '/')).dropWhile (· != '/')).length ≤ path.length := by
    have inner := (List.dropWhile_sublist (· == '/') (l := path.reverse)).length_le
    have outer := (List.dropWhile_sublist (· != '/') (l := path.reverse.dropWhile (· == '/'))).length_le
    rw [List.length_reverse] at inner
    omega
  unfold vfsPathPopLast
  split_ifs with start
  · exact Nat.le_refl _
  · cases path with
    | nil => simp at start
    | cons c path => simp
  · rw [List.length_reverse, List.length_tail]
    omega

theorem vfsJoinSymlinkTarget_length {linkPath target remaining merged : CString}
    (joined : vfsJoinSymlinkTarget linkPath target remaining vfsPathMax = .ok merged) : merged.length < vfsPathMax := by
  have remains {base : CString} (fits : base.length < vfsPathMax)
      (joined : (if remaining = [] then if vfsPathMax < base.length + 1 then .error .enametoolong else .ok base
        else vfsPathJoin base remaining vfsPathMax) = Except.ok merged) : merged.length < vfsPathMax := by
    split_ifs at joined
    · exact Except.ok.inj joined ▸ fits
    · exact vfsPathJoin_length joined fits
  unfold vfsJoinSymlinkTarget at joined
  by_cases absolute : target.head? = some '/'
  · rw [if_pos absolute] at joined
    by_cases long : vfsPathMax < target.length + 1
    · rw [if_pos long] at joined
      cases joined
    · rw [if_neg long] at joined
      exact remains (by omega) joined
  · rw [if_neg absolute, vfsPathDirname, if_neg (by decide)] at joined
    by_cases long : vfsPathMax < linkPath.length + 1
    · rw [if_pos long] at joined
      cases joined
    · rw [if_neg long] at joined
      have shorter := vfsPathPopLast_length linkPath
      cases based : vfsPathJoin (vfsPathPopLast linkPath) target vfsPathMax with
      | error error =>
        simp [based, bind, Except.bind] at joined
      | ok base =>
        exact remains (vfsPathJoin_length based (by omega)) (by simpa [based, bind, Except.bind] using joined)

end

end Enlil.Vfs
