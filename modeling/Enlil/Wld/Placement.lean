import Enlil.Wld.Acts

/-! Where surfaces are placed: never left of the screen, and no wider than their buffers or the screen. -/

namespace Enlil.Wld

/-- No surface starts left of the screen. -/
def Right (w : Compositor) : Prop := ∀ si, 0 ≤ (w.surfs si).x

/-- A surface that is shown is as wide as its buffer, as its buffer and a frame, or not wider than the screen. -/
def Sized (w : Compositor) (surf : WSurf) : Prop :=
  wsurfIsViewable w surf = true →
    surf.viewW = (w.buffers surf.currentBuf).width ∨
      surf.viewW = (w.buffers surf.currentBuf).width + frameBorder * 2 ∨ surf.viewW.toNat ≤ 800

section

variable {w w' : Compositor} {surf : WSurf} {ci si i place : Nat} {colW visible : UInt32} {sendCfg : Bool}

theorem Right.setSurf (right : Right w) (start : 0 ≤ surf.x) : Right (w.setSurf si surf) := by
  intro i
  rw [setSurf_surfs]
  split
  · exact start
  · exact right i

theorem Right.same (right : Right w) (same : w'.surfs = w.surfs) : Right w' := by
  intro i
  rw [same]
  exact right i

theorem putPlaced_surfs (sendCfg : Bool) (w : Compositor) (si i : Nat) (surf : WSurf) :
    (putPlaced sendCfg w si surf).surfs i = if i = si then surf else w.surfs i := by
  unfold putPlaced
  dsimp only
  rw [← setSurf_surfs w si i surf]
  split <;> rfl

theorem viewable_buffer (shown : wsurfIsViewable w surf = true) :
    surf.currentBuf < maxBuffers ∧ (w.buffers surf.currentBuf).alive = true := by
  simp only [wsurfIsViewable, Bool.and_eq_true, decide_eq_true_eq] at shown
  exact ⟨shown.1.2, shown.2⟩

theorem dockPlaced_spec (shown : wsurfIsViewable w surf = true) :
    (dockPlaced w surf).x = 0 ∧ (dockPlaced w surf).currentBuf = surf.currentBuf ∧
      (dockPlaced w surf).viewW = (w.buffers surf.currentBuf).width := by
  unfold dockPlaced dockSized
  rw [if_pos (viewable_buffer shown)]
  exact ⟨rfl, rfl, rfl⟩

theorem floatPlaced_spec (shown : wsurfIsViewable w surf = true) (start : 0 ≤ surf.x) (defaultW defaultH : UInt32) :
    0 ≤ (floatPlaced w surf defaultW defaultH).x ∧
      (floatPlaced w surf defaultW defaultH).currentBuf = surf.currentBuf ∧
      (floatPlaced w surf defaultW defaultH).viewW = (w.buffers surf.currentBuf).width + frameBorder * 2 := by
  unfold floatPlaced floatSized
  rw [if_pos (viewable_buffer shown)]
  dsimp only
  split
  · exact ⟨start, rfl, rfl⟩
  · exact ⟨centered_nonneg _ _ (by decide), rfl, rfl⟩

theorem relayoutTurn_spec (sendCfg : Bool) (i : Nat) (right : Right w) (narrow : colW.toNat ≤ 776) (few : visible.toNat < 24) :
    Right (relayoutTurn sendCfg colW (w, visible) i).1 ∧
      Sized (relayoutTurn sendCfg colW (w, visible) i).1 ((relayoutTurn sendCfg colW (w, visible) i).1.surfs i) ∧
      (∀ j, j ≠ i → (relayoutTurn sendCfg colW (w, visible) i).1.surfs j = w.surfs j) ∧
      (relayoutTurn sendCfg colW (w, visible) i).2.toNat ≤ visible.toNat + 1 := by
  have buffers : (relayoutTurn sendCfg colW (w, visible) i).1.buffers = w.buffers :=
    (SameBy.relayoutTurn sendCfg colW (w, visible) i).buffers
  have one : (visible + 1).toNat = visible.toNat + 1 := by
    rw [UInt32.toNat_add]
    exact Nat.mod_eq_of_lt (by show visible.toNat + 1 < _; omega)
  unfold Sized wsurfIsViewable
  rw [buffers]
  unfold relayoutTurn
  dsimp only
  have start := right i
  -- A surface that is put where it starts on the screen, and is as wide as it should be.
  have put (surf : WSurf) (start : 0 ≤ surf.x) (sized : Sized w surf) (count : UInt32)
      (fits : count.toNat ≤ visible.toNat + 1) :
      Right (putPlaced sendCfg w i surf) ∧ Sized w ((putPlaced sendCfg w i surf).surfs i) ∧
        (∀ j, j ≠ i → (putPlaced sendCfg w i surf).surfs j = w.surfs j) ∧ count.toNat ≤ visible.toNat + 1 := by
    refine ⟨fun j => ?_, ?_, fun j other => ?_, fits⟩
    · rw [putPlaced_surfs]
      split
      · exact start
      · exact right j
    · rw [putPlaced_surfs, if_pos rfl]
      exact sized
    · rw [putPlaced_surfs, if_neg other]
  split
  · rename_i hidden
    refine ⟨right.setSurf start, ?_, fun j other => ?_, Nat.le_succ _⟩
    · dsimp only
      rw [setSurf_surfs, if_pos rfl]
      intro shown
      simp [wsurfIsViewable, shown] at hidden
    · rw [setSurf_surfs, if_neg other]
  · rename_i shown
    rw [Bool.not_eq_eq_eq_not, Bool.not_true, Bool.not_eq_false] at shown
    split
    · obtain ⟨x, same, width⟩ := dockPlaced_spec shown
      exact put _ (by rw [x]) (fun _ => .inl (by rw [width, same])) visible (Nat.le_succ _)
    · split
      · obtain ⟨x, same, width⟩ := floatPlaced_spec shown start 364 246
        refine put _ ?_ (fun _ => .inr (.inl ?_)) visible (Nat.le_succ _)
        · exact x
        · dsimp only
          rw [width, same]
      · split
        · obtain ⟨x, same, width⟩ := floatPlaced_spec shown start 320 220
          refine put _ ?_ (fun _ => .inr (.inl ?_)) visible (Nat.le_succ _)
          · exact x
          · dsimp only
            rw [width, same]
        · refine put _ ?_ (fun _ => .inr (.inr ?_)) (visible + 1) one.le
          · have place : (12 + visible * (colW + 12)).toNat = 12 + visible.toNat * (colW.toNat + 12) := by
              have inner : (colW + 12).toNat = colW.toNat + 12 := by
                rw [UInt32.toNat_add]
                exact Nat.mod_eq_of_lt (by show colW.toNat + 12 < _; omega)
              have product : visible.toNat * (colW.toNat + 12) ≤ 24 * 788 :=
                Nat.mul_le_mul (by omega) (by omega)
              rw [UInt32.toNat_add, UInt32.toNat_mul, inner, Nat.mod_eq_of_lt (a := visible.toNat * _) (by omega)]
              exact Nat.mod_eq_of_lt (by show 12 + _ < _; omega)
            have product : visible.toNat * (colW.toNat + 12) ≤ 24 * 788 :=
              Nat.mul_le_mul (by omega) (by omega)
            dsimp only
            rw [toInt32_of_lt (by omega)]
            exact Int.natCast_nonneg _
          · dsimp only
            omega

theorem relayoutTurns_spec (sendCfg : Bool) (xs : List Nat) (s : Compositor × UInt32) (right : Right s.1) (narrow : colW.toNat ≤ 776)
    (few : s.2.toNat + xs.length ≤ 24) :
    Right (xs.foldl (relayoutTurn sendCfg colW) s).1 ∧
      (∀ si ∈ xs, Sized (xs.foldl (relayoutTurn sendCfg colW) s).1
        ((xs.foldl (relayoutTurn sendCfg colW) s).1.surfs si)) ∧
      ∀ si, si ∉ xs → (xs.foldl (relayoutTurn sendCfg colW) s).1.surfs si = s.1.surfs si := by
  induction xs generalizing s with
  | nil => exact ⟨right, nofun, fun _ _ => rfl⟩
  | cons x xs ih =>
    rw [List.length_cons] at few
    obtain ⟨right', sized, others, count⟩ :=
      relayoutTurn_spec sendCfg x right narrow (by omega : s.2.toNat < 24)
    obtain ⟨right'', rest, kept⟩ := ih (relayoutTurn sendCfg colW s x) right' (by
      have : (relayoutTurn sendCfg colW s x).2.toNat ≤ s.2.toNat + 1 := count
      omega)
    have buffers : (xs.foldl (relayoutTurn sendCfg colW) (relayoutTurn sendCfg colW s x)).1.buffers =
        (relayoutTurn sendCfg colW s x).1.buffers :=
      (SameBy.relayoutTurns sendCfg colW xs _).buffers
    refine ⟨right'', fun si member => ?_, fun si outside => ?_⟩
    · rw [List.foldl_cons]
      by_cases later : si ∈ xs
      · exact rest si later
      · have here : si = x := (List.mem_cons.mp member).resolve_right later
        rw [kept si later, here]
        unfold Sized wsurfIsViewable at sized ⊢
        rw [buffers]
        exact sized
    · rw [List.mem_cons, not_or] at outside
      rw [List.foldl_cons, kept si outside.2, others si outside.1]

theorem Right.relayout_spec (right : Right w) (sendCfg : Bool) :
    Right (wldRelayout w sendCfg) ∧
      ∀ si < maxSurfaces, Sized (wldRelayout w sendCfg) ((wldRelayout w sendCfg).surfs si) := by
  have narrow : (columnWidth (wldCountTiledViewable w)).toNat ≤ 776 := by
    refine columnWidth_le ?_
    unfold wldCountTiledViewable
    refine (List.length_filter_le _ _).trans ?_
    rw [List.length_range, maxSurfaces]
  have focused : Right (wldFocusSanitize w) := right.same (by
    unfold wldFocusSanitize
    split <;> rfl)
  unfold wldRelayout
  dsimp only
  obtain ⟨right', sized, _⟩ := relayoutTurns_spec sendCfg (List.range maxSurfaces) (wldFocusSanitize w, 0) focused
    narrow (by rw [List.length_range]; exact le_refl 24)
  exact ⟨right', fun si inside => sized si (List.mem_range.mpr inside)⟩

theorem Right.relayout (right : Right w) (sendCfg : Bool) : Right (wldRelayout w sendCfg) :=
  (right.relayout_spec sendCfg).1

theorem Right.acts {mine tells : Nat → Prop} {makes : Prop} (right : Right w) (acts : Acts mine makes tells w w') :
    Right w' := by
  refine acts.preserves Right right ?_ ?_ ?_ ?_ ?_ ?_ ?_
  · intro w' w'' right _ _ _ surfs _
    exact right.same surfs
  · intro w' ci send right _
    exact right
  · intro w' si surf right start
    exact right.setSurf (start (right si))
  · intro w' ci c right _
    exact right
  · intro w' sendCfg right
    exact right.relayout sendCfg
  · intro w' pi pool right _
    exact right
  · intro w' bi buf right _
    exact right

end

end Enlil.Wld
