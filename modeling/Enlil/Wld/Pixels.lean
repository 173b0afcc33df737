import Enlil.Wld.Composite

/-! What drawing reads of the segments of the clients, and where it writes. -/

namespace Enlil.Wld

/-- A blit is drawn of a surface: of its window, or as the dock. -/
def Drawn (w : Compositor) (si : Nat) (b : Blit) : Prop :=
  (∃ second, windowBlit w second si = some b) ∨ dockBlit w si = some b

section

variable {w : Compositor} {b : Blit} {answers : Peek → UInt32} {question : Peek} {write : Write} {si dy dx : Nat}

theorem mem_drawAll_questions {α : Type} {draw : α → Draws (List Write)} {xs : List α} :
    question ∈ (drawAll draw xs).questions answers ↔ ∃ x ∈ xs, question ∈ (draw x).questions answers := by
  induction xs with
  | nil => simp [drawAll]
  | cons x xs ih => simp [drawAll, Asks.questions_bind, ih]

theorem mem_drawAll_result {α : Type} {draw : α → Draws (List Write)} {xs : List α} :
    write ∈ (drawAll draw xs).result answers ↔ ∃ x ∈ xs, write ∈ (draw x).result answers := by
  induction xs with
  | nil => simp [drawAll]
  | cons x xs ih => simp [drawAll, Asks.result_bind, ih]

theorem fbIndex_lt {x y : Int} (shown : onScreen x y = true) : fbIndex x y < 800 * 600 := by
  simp only [onScreen, Bool.and_eq_true, decide_eq_true_eq] at shown
  unfold fbIndex
  omega

theorem length_columnMap (dw sw : UInt32) : (columnMap dw sw).length = min dw.toNat 800 := by
  have width : fbW.toNat = 800 := rfl
  rw [columnMap, List.length_map, List.length_range]
  split
  · rename_i narrow
    rw [UInt32.lt_iff_toNat_lt] at narrow
    omega
  · rename_i wide
    rw [UInt32.lt_iff_toNat_lt] at wide
    omega

theorem last_toNat {size : UInt32} (some : size ≠ 0) : (size - 1).toNat = size.toNat - 1 ∧ 0 < size.toNat := by
  have positive : 0 < size.toNat := Nat.pos_of_ne_zero fun zero => some (UInt32.toNat_inj.mp zero)
  have one : (1 : UInt32) ≤ size := UInt32.le_iff_toNat_le.mpr positive
  exact ⟨UInt32.toNat_sub_of_le _ _ one, positive⟩

theorem xMap_lt {dw sw : UInt32} (some : sw ≠ 0) (dx : Nat) : (xMap dw sw dx).toNat < sw.toNat := by
  unfold xMap
  dsimp only
  rw [UInt32.toNat_toUInt16]
  refine lt_of_le_of_lt (Nat.mod_le _ _) ?_
  split
  · rename_i less
    exact UInt32.lt_iff_toNat_lt.mp less
  · have := last_toNat some
    omega

theorem yMap_lt {dh sh : UInt32} (some : sh ≠ 0) (dy : Nat) : (yMap dh sh dy).toNat < sh.toNat := by
  unfold yMap
  dsimp only
  split
  · have := last_toNat some
    omega
  · rename_i less
    rw [UInt32.le_iff_toNat_le] at less
    omega

theorem toInt32_ofNat {n : Nat} (small : n < 2 ^ 31) : toInt32 (.ofNat n) = n := by
  have value : (UInt32.ofNat n).toBitVec.toNat = n := by
    rw [UInt32.toBitVec_ofNat', BitVec.toNat_ofNat, Nat.mod_eq_of_lt (by omega)]
  show (UInt32.ofNat n).toBitVec.toInt = n
  rw [BitVec.toInt_eq_toNat_of_lt (by omega), value]

theorem blit_questions (asked : question ∈ (wldBlitScaled b).questions answers) :
    b.sw ≠ 0 ∧ b.sh ≠ 0 ∧ ∃ dy, ∃ dx < b.dw.toNat, question ∈ (blitColumn b dy dx).questions answers := by
  unfold wldBlitScaled at asked
  split at asked
  · simp at asked
  · rename_i some
    rw [not_or, not_or, not_or] at some
    obtain ⟨dy, _, row⟩ := mem_drawAll_questions.mp asked
    unfold blitRow at row
    dsimp only at row
    split at row
    · simp at row
    · obtain ⟨dx, inside, column⟩ := mem_drawAll_questions.mp row
      exact ⟨some.1, some.2.1, dy, dx, List.mem_range.mp inside, column⟩

theorem blit_reads (some : ¬ (b.sw = 0 ∨ b.sh = 0 ∨ b.dw = 0 ∨ b.dh = 0)) (row : dy < b.dh.toNat)
    (shown : ¬ (b.dy0 + toInt32 (.ofNat dy) < 0 ∨ 600 ≤ b.dy0 + toInt32 (.ofNat dy))) (column : dx < b.dw.toNat)
    (asked : question ∈ (blitColumn b dy dx).questions answers) : question ∈ (wldBlitScaled b).questions answers := by
  rw [wldBlitScaled, if_neg some]
  refine mem_drawAll_questions.mpr ⟨dy, List.mem_range.mpr row, ?_⟩
  unfold blitRow
  dsimp only
  rw [if_neg shown]
  exact mem_drawAll_questions.mpr ⟨dx, List.mem_range.mpr column, asked⟩

theorem column_questions (asked : question ∈ (blitColumn b dy dx).questions answers) :
    0 ≤ b.dx0 + toInt32 (.ofNat dx) ∧ b.dx0 + toInt32 (.ofNat dx) < 800 ∧
      ((dx < 800 ∧ dx < b.dw.toNat ∧ question = .pixel b.src (b.offset.toNat +
          4 * ((yMap b.dh b.sh dy * b.stridePx).toNat + (xMap b.dw b.sw dx).toNat))) ∨
        (min b.dw.toNat 800 ≤ dx ∧ (question = .beyond dx ∨ ∃ byte, question = .pixel b.src byte))) := by
  unfold blitColumn at asked
  dsimp only at asked
  split at asked
  · simp at asked
  · rename_i shown
    rw [not_or, not_lt, not_le] at shown
    refine ⟨shown.1, shown.2, ?_⟩
    split at asked
    · rename_i column found
      obtain ⟨inside, equal⟩ := List.getElem?_eq_some_iff.mp found
      rw [length_columnMap] at inside
      refine .inl ⟨by omega, by omega, ?_⟩
      simp only [columnMap, List.getElem_map, List.getElem_range] at equal
      simpa [Asks.questions, equal] using asked
    · rename_i none
      rw [List.getElem?_eq_none_iff, length_columnMap] at none
      refine .inr ⟨none, ?_⟩
      simp only [Asks.questions, List.mem_cons, List.not_mem_nil, or_false] at asked
      exact asked.imp id fun equal => ⟨_, equal⟩

theorem blit_source {src : Mapping} {byte : Nat} (asked : .pixel src byte ∈ (wldBlitScaled b).questions answers) :
    src = b.src := by
  obtain ⟨_, _, dy, dx, _, column⟩ := blit_questions asked
  obtain ⟨_, _, ⟨_, _, equal⟩ | ⟨_, other | ⟨_, equal⟩⟩⟩ := column_questions column
  · injection equal
  · cases other
  · injection equal

theorem blit_inside (right : 0 ≤ b.dx0)
    (fits : b.sw ≠ 0 → b.sh ≠ 0 → b.dw.toNat < 2 ^ 31 ∧
      b.offset.toNat + 4 * ((b.sh.toNat - 1) * b.stridePx.toNat + b.sw.toNat) ≤ b.src.length)
    (asked : question ∈ (wldBlitScaled b).questions answers) :
    ∃ byte, question = .pixel b.src byte ∧ byte + 4 ≤ b.src.length := by
  obtain ⟨some, some', dy, dx, inside, column⟩ := blit_questions asked
  obtain ⟨narrow, fits⟩ := fits some some'
  obtain ⟨_, left, ⟨_, _, equal⟩ | ⟨beyond, _⟩⟩ := column_questions column
  · refine ⟨_, equal, ?_⟩
    have row : (yMap b.dh b.sh dy * b.stridePx).toNat ≤ (b.sh.toNat - 1) * b.stridePx.toNat := by
      rw [UInt32.toNat_mul]
      refine (Nat.mod_le _ _).trans (Nat.mul_le_mul_right _ ?_)
      have inside : (yMap b.dh b.sh dy).toNat < b.sh.toNat := yMap_lt some' dy
      omega
    have inside : (xMap b.dw b.sw dx).toNat < b.sw.toNat := xMap_lt some dx
    omega
  · rw [toInt32_ofNat (by omega)] at left
    omega

theorem fillRect_inside {x y : Int} {width height color : UInt32} (written : write ∈ wldFillRect x y width height color) :
    write.1 < 800 * 600 := by
  simp only [wldFillRect, List.mem_flatMap] at written
  obtain ⟨row, _, col, _, here⟩ := written
  split at here
  · rename_i shown
    rw [List.mem_singleton] at here
    subst here
    exact fbIndex_lt shown
  · cases here

theorem black_inside (written : write ∈ blackScreen) : write.1 < 800 * 600 := by
  rw [blackScreen, List.mem_map] at written
  obtain ⟨index, inside, equal⟩ := written
  rw [← equal]
  exact List.mem_range.mp inside

theorem cursor_inside {x y : Int} {buttons : UInt32} (written : write ∈ wldDrawCursor x y buttons) :
    write.1 < 800 * 600 := by
  have one {shown : Bool} {x y : Int} {stroke : Stroke} (holds : shown = true → onScreen x y = true)
      (here : write ∈ if shown then [(fbIndex x y, stroke)] else []) : write.1 < 800 * 600 := by
    split at here
    · rename_i shown
      rw [List.mem_singleton] at here
      subst here
      exact fbIndex_lt (holds shown)
    · cases here
  unfold wldDrawCursor at written
  dsimp only at written
  rw [List.mem_append] at written
  rcases written with mask | spot
  · simp only [List.mem_flatMap] at mask
    obtain ⟨row, _, col, _, here⟩ := mask
    split at here
    · exact (List.mem_append.mp here).elim (one id) (one id)
    · cases here
  · exact one id spot

theorem column_inside (rowShown : ¬ (b.dy0 + toInt32 (.ofNat dy) < 0 ∨ 600 ≤ b.dy0 + toInt32 (.ofNat dy)))
    (written : write ∈ (blitColumn b dy dx).result answers) : write.1 < 800 * 600 := by
  unfold blitColumn at written
  dsimp only at written
  split at written
  · simp at written
  · rename_i shown
    have index := fbIndex_lt (x := b.dx0 + toInt32 (.ofNat dx)) (y := b.dy0 + toInt32 (.ofNat dy))
      (by simp only [onScreen, Bool.and_eq_true, decide_eq_true_eq]; omega)
    split at written
    · simp only [Asks.result, List.mem_singleton] at written
      rw [written]
      exact index
    · simp only [Asks.result, List.mem_singleton] at written
      rw [written]
      exact index

theorem blit_writes (written : write ∈ (wldBlitScaled b).result answers) : write.1 < 800 * 600 := by
  unfold wldBlitScaled at written
  split at written
  · simp at written
  · obtain ⟨dy, _, row⟩ := mem_drawAll_result.mp written
    unfold blitRow at row
    dsimp only at row
    split at row
    · simp at row
    · rename_i shown
      obtain ⟨dx, _, column⟩ := mem_drawAll_result.mp row
      exact column_inside shown column

theorem sourceOf_some {surf : WSurf} {buf : WBuf} {src : Mapping} (source : sourceOf w surf = some (buf, src)) :
    buf = w.buffers surf.currentBuf ∧ buf.alive = true ∧ (w.pools buf.poolIdx).alive = true ∧
      (w.pools buf.poolIdx).ptr = some src := by
  unfold sourceOf at source
  dsimp only at source
  split at source
  · cases source
  · rename_i there
    obtain ⟨ptr, attached, equal⟩ := Option.map_eq_some_iff.mp source
    cases equal
    simp only [Bool.or_eq_true, Bool.not_eq_eq_eq_not, Bool.not_true, not_or, Bool.not_eq_false] at there
    exact ⟨rfl, there.1.1, there.2, attached⟩

theorem windowBlit_some {second : Bool} (drawn : windowBlit w second si = some b) :
    wsurfIsViewable w (w.surfs si) = true ∧ wldIsDockSurface (w.surfs si) = false ∧
      ∃ buf src, sourceOf w (w.surfs si) = some (buf, src) ∧ frameBorder * 2 < (frameSize (w.surfs si) buf).1 ∧
        b = { dx0 := (w.surfs si).x + 2
              dy0 := (w.surfs si).y + 22 + 2
              dw := (frameSize (w.surfs si) buf).1 - frameBorder * 2
              dh := (frameSize (w.surfs si) buf).2 - titleH - frameBorder * 2
              src := src
              offset := buf.offset
              sw := buf.width
              sh := buf.height
              stridePx := buf.stride / 4
              alpha := fadeAlpha (w.surfs si) } := by
  unfold windowBlit at drawn
  dsimp only at drawn
  split at drawn
  · cases drawn
  · rename_i shown
    split at drawn
    · cases drawn
    · rename_i buf src source
      split at drawn
      · cases drawn
      · rename_i large
        cases drawn
        simp only [Bool.or_eq_true, Bool.not_eq_eq_eq_not, Bool.not_true, not_or, Bool.not_eq_false,
          Bool.not_eq_true] at shown
        exact ⟨shown.1.1, shown.1.2, buf, src, source, UInt32.not_le.mp (not_or.mp large).1, rfl⟩

theorem dockBlit_some (drawn : dockBlit w si = some b) :
    wsurfIsViewable w (w.surfs si) = true ∧ wldIsDockSurface (w.surfs si) = true ∧
      ∃ buf src, sourceOf w (w.surfs si) = some (buf, src) ∧
        b = { dx0 := (w.surfs si).x
              dy0 := (w.surfs si).y
              dw := (w.surfs si).viewW
              dh := (w.surfs si).viewH
              src := src
              offset := buf.offset
              sw := buf.width
              sh := buf.height
              stridePx := buf.stride / 4
              alpha := 255 } := by
  unfold dockBlit at drawn
  dsimp only at drawn
  split at drawn
  · cases drawn
  · rename_i shown
    split at drawn
    · cases drawn
    · rename_i buf src source
      cases drawn
      simp only [Bool.or_eq_true, Bool.not_eq_eq_eq_not, Bool.not_true, not_or, Bool.not_eq_false] at shown
      exact ⟨shown.1, shown.2, buf, src, source, rfl⟩

theorem Drawn.source (drawn : Drawn w si b) : wsurfIsViewable w (w.surfs si) = true ∧
    ∃ buf, sourceOf w (w.surfs si) = some (buf, b.src) ∧ b.offset = buf.offset ∧ b.sw = buf.width ∧
      b.sh = buf.height ∧ b.stridePx = buf.stride / 4 := by
  rcases drawn with ⟨second, window⟩ | dock
  · obtain ⟨shown, _, buf, src, source, _, equal⟩ := windowBlit_some window
    subst equal
    exact ⟨shown, buf, source, rfl, rfl, rfl, rfl⟩
  · obtain ⟨shown, _, buf, src, source, equal⟩ := dockBlit_some dock
    subst equal
    exact ⟨shown, buf, source, rfl, rfl, rfl, rfl⟩

theorem drawWindow_questions {second : Bool} (asked : question ∈ (drawWindow w second si).questions answers) :
    ∃ b, Drawn w si b ∧ question ∈ (wldBlitScaled b).questions answers := by
  unfold drawWindow at asked
  split at asked
  · simp at asked
  · rename_i b window
    rw [Asks.questions_bind, Asks.questions_done, List.append_nil] at asked
    exact ⟨b, .inl ⟨second, window⟩, asked⟩

theorem drawDock_questions (asked : question ∈ (drawDock w si).questions answers) :
    ∃ b, Drawn w si b ∧ question ∈ (wldBlitScaled b).questions answers := by
  unfold drawDock at asked
  split at asked
  · simp at asked
  · rename_i b dock
    exact ⟨b, .inr dock, asked⟩

theorem composite_questions (asked : question ∈ (compositeAndPresent w).1.questions answers) :
    ∃ si < maxSurfaces, ∃ b, Drawn (wldRelayout w false) si b ∧ question ∈ (wldBlitScaled b).questions answers := by
  simp only [compositeAndPresent, drawSurfaces, Asks.questions_bind, Asks.questions_done, List.append_nil,
    List.mem_append] at asked
  rcases asked with behind | front | docks
  · obtain ⟨si, inside, window⟩ := mem_drawAll_questions.mp behind
    exact ⟨si, List.mem_range.mp inside, drawWindow_questions window⟩
  · obtain ⟨si, inside, window⟩ := mem_drawAll_questions.mp front
    exact ⟨si, List.mem_range.mp inside, drawWindow_questions window⟩
  · obtain ⟨si, inside, dock⟩ := mem_drawAll_questions.mp docks
    exact ⟨si, List.mem_range.mp inside, drawDock_questions dock⟩

theorem composite_reads {second : Bool} (inside : si < maxSurfaces) (drawn : windowBlit (wldRelayout w false) second si = some b)
    (asked : question ∈ (wldBlitScaled b).questions answers) : question ∈ (compositeAndPresent w).1.questions answers := by
  have window : question ∈ (drawWindow (wldRelayout w false) second si).questions answers := by
    unfold drawWindow
    rw [drawn]
    dsimp only
    rw [Asks.questions_bind]
    exact List.mem_append_left _ asked
  have among := mem_drawAll_questions.mpr ⟨si, List.mem_range.mpr inside, window⟩
  simp only [compositeAndPresent, drawSurfaces, Asks.questions_bind, Asks.questions_done, List.append_nil, List.mem_append]
  cases second with
  | false => exact .inl among
  | true => exact .inr (.inl among)

theorem decorations_inside {surf : WSurf} {frameW frameH : UInt32} {focused : Bool}
    (written : write ∈ decorations surf frameW frameH focused) : write.1 < 800 * 600 := by
  simp only [decorations, List.mem_append] at written
  rcases written with (((((((shadow | frame) | title) | close) | spawn) | bar) | bar) | bar) | background
  all_goals exact fillRect_inside ‹_›

theorem drawWindow_writes {second : Bool} (written : write ∈ (drawWindow w second si).result answers) :
    write.1 < 800 * 600 := by
  unfold drawWindow at written
  split at written
  · simp at written
  · rw [Asks.result_bind, Asks.result_done, List.mem_append] at written
    exact written.elim decorations_inside blit_writes

theorem drawDock_writes (written : write ∈ (drawDock w si).result answers) : write.1 < 800 * 600 := by
  unfold drawDock at written
  split at written
  · simp at written
  · exact blit_writes written

theorem drawSurfaces_writes (written : write ∈ (drawSurfaces w).result answers) : write.1 < 800 * 600 := by
  simp only [drawSurfaces, Asks.result_bind, Asks.result_done, List.mem_append] at written
  rcases written with (behind | front) | docks
  · obtain ⟨si, _, window⟩ := mem_drawAll_result.mp behind
    exact drawWindow_writes window
  · obtain ⟨si, _, window⟩ := mem_drawAll_result.mp front
    exact drawWindow_writes window
  · obtain ⟨si, _, dock⟩ := mem_drawAll_result.mp docks
    exact drawDock_writes dock

theorem composite_writes (written : write ∈ (compositeAndPresent w).1.result answers) : write.1 < 800 * 600 := by
  unfold compositeAndPresent at written
  dsimp only at written
  generalize wldRelayout w false = w at written
  rw [Asks.result_bind, Asks.result_done, List.mem_append, List.mem_append] at written
  rcases written with (black | surfaces) | cursor
  · exact black_inside black
  · exact drawSurfaces_writes surfaces
  · exact cursor_inside cursor

end

end Enlil.Wld
