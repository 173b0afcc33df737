import Enlil.Terminal.Screen

/-! The cursor stays on the screen, and where cursor moves end. -/

namespace Enlil.Term80

/-- The cursor is on the screen, and all cells that are no column of a row are zero: the ends of the rows, and what is outside of the buffer. -/
structure Screen.Valid (s : Screen) : Prop where
  row : s.row.toNat < term80Rows.toNat
  col : s.col.toNat < term80Cols.toNat
  frame : ∀ row col, term80Rows.toNat ≤ row ∨ term80Cols.toNat ≤ col → s.cells row col = 0
  buffered : s.csiBuf.length < csiBufSize

/-- A cursor move that a control sequence ends with lands where its parameter says, or at the edge of the screen. -/
structure Screen.Lands (s : Screen) (c : UInt8) (s' : Screen) : Prop where
  up : c = 0x41 → s'.row.toNat = s.row.toNat - (term80ParseParam s 0 1).toNat ∧ s'.col = s.col
  down : c = 0x42 → s'.row.toNat = min (s.row.toNat + (term80ParseParam s 0 1).toNat) (term80Rows.toNat - 1) ∧ s'.col = s.col
  right : c = 0x43 → s'.col.toNat = min (s.col.toNat + (term80ParseParam s 0 1).toNat) (term80Cols.toNat - 1) ∧ s'.row = s.row
  left : c = 0x44 → s'.col.toNat = s.col.toNat - (term80ParseParam s 0 1).toNat ∧ s'.row = s.row

/-- The place that a move down or to the right asks for can be written in 32 bits. -/
def Screen.Fits (s : Screen) (c : UInt8) : Prop :=
  (c = 0x42 → s.row.toNat + (term80ParseParam s 0 1).toNat < 2 ^ 32) ∧
    (c = 0x43 → s.col.toNat + (term80ParseParam s 0 1).toNat < 2 ^ 32)

section

variable {s s' : Screen} {cells : Nat → Nat → UInt8} {c : UInt8}

/-- Cells that are zero around the columns of the rows. -/
def Framed (cells : Nat → Nat → UInt8) : Prop :=
  ∀ row col, term80Rows.toNat ≤ row ∨ term80Cols.toNat ≤ col → cells row col = 0

theorem Framed.fillRows (framed : Framed cells) {first past : Nat} (inside : past ≤ term80Rows.toNat) :
    Framed (fillRows cells first past) := by
  intro row col outside
  unfold Term80.fillRows term80FillSpaces
  split
  · dsimp only
    rw [if_neg (by omega)]
    split
    · rfl
    · exact framed row col outside
  · exact framed row col outside

theorem Framed.fillCols (framed : Framed cells) {row first past : Nat} (inRow : row < term80Rows.toNat)
    (inside : past ≤ term80Cols.toNat) : Framed (fillCols cells row first past) := by
  intro r col outside
  unfold Term80.fillCols
  rw [if_neg (by omega)]
  exact framed r col outside

theorem Framed.setCell (framed : Framed cells) {row col : UInt32} (inRow : row.toNat < term80Rows.toNat)
    (inCol : col.toNat < term80Cols.toNat) : Framed (setCell cells row col c) := by
  intro r k outside
  unfold Term80.setCell
  rw [if_neg (by omega)]
  exact framed r k outside

theorem framed_empty : Framed (fillRows (fun _ _ => 0) 0 term80Rows.toNat) :=
  Framed.fillRows (fun _ _ _ => rfl) le_rfl

theorem firstRow : (0 : UInt32).toNat < term80Rows.toNat := by decide

theorem firstCol : (0 : UInt32).toNat < term80Cols.toNat := by decide

theorem lastRow : (term80Rows - 1).toNat < term80Rows.toNat := by decide

theorem noBytes : ([] : List UInt8).length < csiBufSize := by decide

theorem Screen.Valid.reset (valid : s.Valid) : (term80ParserReset s).Valid := ⟨valid.row, valid.col, valid.frame, noBytes⟩

theorem Screen.Valid.clear (valid : s.Valid) : (term80Clear s).Valid :=
  ⟨firstRow, firstCol, Framed.fillRows valid.frame le_rfl, noBytes⟩

theorem Screen.Valid.newline (valid : s.Valid) : (term80Newline s).Valid := by
  unfold term80Newline
  dsimp only
  split
  · refine ⟨lastRow, firstCol, Framed.fillRows (fun row col outside => ?_) le_rfl, valid.buffered⟩
    dsimp only
    split
    · rename_i moved
      exact valid.frame (row + 1) col (by omega)
    · exact valid.frame row col outside
  · rename_i above
    refine ⟨?_, firstCol, valid.frame, valid.buffered⟩
    show (s.row + 1).toNat < _
    rw [UInt32.le_iff_toNat_le, Nat.not_le] at above
    exact above

theorem Screen.Valid.putVisible (valid : s.Valid) (c : UInt8) : (term80PutVisible s c).Valid := by
  have put (c : UInt8) : Screen.Valid { s with cells := setCell s.cells s.row s.col c } :=
    ⟨valid.row, valid.col, Framed.setCell valid.frame valid.row valid.col, valid.buffered⟩
  unfold term80PutVisible
  dsimp only
  split
  · have moved := (put (if c < 32 ∨ 126 < c then 0x3F else c)).newline
    exact ⟨moved.row, moved.col, moved.frame, moved.buffered⟩
  · rename_i before
    rw [UInt32.le_iff_toNat_le, Nat.not_le] at before
    exact ⟨valid.row, before, (put _).frame, valid.buffered⟩

theorem Screen.Valid.putPlain (valid : s.Valid) (c : UInt8) : (putPlain s c).Valid := by
  unfold Term80.putPlain
  split
  · exact valid.clear
  split
  · exact ⟨valid.row, firstCol, valid.frame, valid.buffered⟩
  split
  · exact ⟨valid.newline.row, valid.newline.col, valid.newline.frame, valid.newline.buffered⟩
  split
  · split
    · rename_i right
      have back : (s.col - 1).toNat < term80Cols.toNat := by
        have less : (s.col - 1).toNat = s.col.toNat - 1 := by
          rw [UInt32.toNat_sub_of_le]
          · rfl
          · exact UInt32.le_iff_toNat_le.mpr (UInt32.lt_iff_toNat_lt.mp right)
        have inCol := valid.col
        omega
      exact ⟨valid.row, back, Framed.setCell valid.frame valid.row back, valid.buffered⟩
    · exact ⟨valid.row, valid.col, valid.frame, valid.buffered⟩
  split
  · exact ⟨valid.row, valid.col, valid.frame, valid.buffered⟩
  · exact valid.putVisible c

theorem back_toNat (at_ n : UInt32) : (if n > at_ then 0 else at_ - n).toNat = at_.toNat - n.toNat := by
  split
  · rename_i past
    have past : at_.toNat < n.toNat := UInt32.lt_iff_toNat_lt.mp past
    show 0 = _
    omega
  · rename_i within
    exact UInt32.toNat_sub_of_le _ _ (UInt32.le_iff_toNat_le.mpr (Nat.not_lt.mp fun past => within (UInt32.lt_iff_toNat_lt.mpr past)))

theorem on_toNat (at_ n count : UInt32) (some : 0 < count.toNat) :
    (if count ≤ at_ + n then count - 1 else at_ + n).toNat = min ((at_.toNat + n.toNat) % 2 ^ 32) (count.toNat - 1) := by
  have sum : (at_ + n).toNat = (at_.toNat + n.toNat) % 2 ^ 32 := UInt32.toNat_add ..
  have less : (count - 1).toNat = count.toNat - 1 := UInt32.toNat_sub_of_le _ _ (UInt32.le_iff_toNat_le.mpr some)
  split
  · rename_i past
    rw [UInt32.le_iff_toNat_le, sum] at past
    omega
  · rename_i within
    rw [UInt32.le_iff_toNat_le, sum] at within
    omega

theorem absolute_lt (n count : UInt32) (some : 0 < count.toNat) : (absolute n count).toNat < count.toNat := by
  unfold absolute
  dsimp only
  generalize (if n = 0 then 1 else n) = place
  split
  · rename_i inside
    exact UInt32.lt_iff_toNat_lt.mp inside
  · have less : (count - 1).toNat = count.toNat - 1 := UInt32.toNat_sub_of_le _ _ (UInt32.le_iff_toNat_le.mpr some)
    omega

theorem Screen.Valid.handleCsi (valid : s.Valid) (c : UInt8) : (term80HandleCsi s c).Valid := by
  have inRow := valid.row
  have inCol := valid.col
  unfold term80HandleCsi
  -- One goal for each command, in the order of the code.
  refine iteInduction (motive := Screen.Valid) (fun _ => ?_) fun _ => ?_
  · refine ⟨?_, inCol, valid.frame, valid.buffered⟩
    dsimp only
    rw [back_toNat]
    omega
  refine iteInduction (motive := Screen.Valid) (fun _ => ?_) fun _ => ?_
  · refine ⟨?_, inCol, valid.frame, valid.buffered⟩
    dsimp only
    rw [on_toNat _ _ _ (by omega)]
    omega
  refine iteInduction (motive := Screen.Valid) (fun _ => ?_) fun _ => ?_
  · refine ⟨inRow, ?_, valid.frame, valid.buffered⟩
    dsimp only
    rw [on_toNat _ _ _ (by omega)]
    omega
  refine iteInduction (motive := Screen.Valid) (fun _ => ?_) fun _ => ?_
  · refine ⟨inRow, ?_, valid.frame, valid.buffered⟩
    dsimp only
    rw [back_toNat]
    omega
  refine iteInduction (motive := Screen.Valid) (fun _ => ?_) fun _ => ?_
  · exact ⟨inRow, absolute_lt _ _ (by omega), valid.frame, valid.buffered⟩
  refine iteInduction (motive := Screen.Valid) (fun _ => ?_) fun _ => ?_
  · exact ⟨absolute_lt _ _ (by omega), absolute_lt _ _ (by omega), valid.frame, valid.buffered⟩
  refine iteInduction (motive := Screen.Valid) (fun _ => ?_) fun _ => ?_
  · refine iteInduction (motive := Screen.Valid) (fun _ => ?_) fun _ => ?_
    · exact ⟨inRow, inCol, Framed.fillRows (Framed.fillCols valid.frame inRow le_rfl) le_rfl, valid.buffered⟩
    refine iteInduction (motive := Screen.Valid) (fun _ => ?_) fun _ => valid.clear
    exact ⟨inRow, inCol, Framed.fillCols (Framed.fillRows valid.frame inRow.le) inRow (Nat.min_le_right _ _), valid.buffered⟩
  refine iteInduction (motive := Screen.Valid) (fun _ => ?_) fun _ => valid
  refine iteInduction (motive := Screen.Valid) (fun _ => ?_) fun _ => ?_
  · exact ⟨inRow, inCol, Framed.fillCols valid.frame inRow le_rfl, valid.buffered⟩
  refine iteInduction (motive := Screen.Valid) (fun _ => ?_) fun _ => ?_
  · exact ⟨inRow, inCol, Framed.fillCols valid.frame inRow (Nat.min_le_right _ _), valid.buffered⟩
  · exact ⟨inRow, inCol, Framed.fillRows valid.frame inRow, valid.buffered⟩

theorem Screen.Valid.putEscape (valid : s.Valid) (c : UInt8) : (putEscape s c).Valid := by
  unfold Term80.putEscape
  split
  · split
    · exact ⟨valid.row, valid.col, valid.frame, noBytes⟩
    · exact valid.reset
  split
  · split
    · rename_i room
      refine ⟨valid.row, valid.col, valid.frame, ?_⟩
      rw [List.length_append]
      exact room
    · exact valid
  split
  · exact (valid.handleCsi c).reset
  · exact valid.reset

theorem and_three (n : UInt32) : n &&& 3 = 0 ↔ n.toNat % 4 = 0 := by
  rw [← UInt32.toNat_inj, UInt32.toNat_and]
  show n.toNat &&& (2 ^ 2 - 1) = 0 ↔ _
  rw [Nat.and_two_pow_sub_one_eq_mod]

theorem space_col (valid : s.Valid) : (putPlain s 0x20).col.toNat = s.col.toNat + 1 ∨ (putPlain s 0x20).col = 0 := by
  have plain : Term80.putPlain s 0x20 = term80PutVisible s 0x20 := rfl
  rw [plain]
  unfold term80PutVisible
  dsimp only
  split
  · right
    unfold term80Newline
    dsimp only
    split <;> rfl
  · left
    have inCol : s.col.toNat < 80 := valid.col
    show (s.col + 1).toNat = _
    rw [UInt32.toNat_add]
    show (s.col.toNat + 1) % 2 ^ 32 = _
    omega

theorem Screen.Valid.tabLoop {fuel : Nat} (valid : s.Valid) (enough : 4 ≤ fuel + s.col.toNat % 4) :
    ∃ s', tabLoop fuel s = some s' ∧ s'.Valid := by
  induction fuel generalizing s with
  | zero => omega
  | succ fuel ih =>
    have put := valid.putPlain 0x20
    unfold Term80.tabLoop
    dsimp only
    split
    · rename_i further
      rw [Ne, and_three] at further
      -- Not at a stop, the cursor went on by one column.
      rcases space_col valid with next | start
      · exact ih put (by omega)
      · rw [start] at further
        exact absurd rfl further
    · exact ⟨_, rfl, put⟩

theorem Screen.Valid.putc (valid : s.Valid) (c : UInt8) : ∃ s', term80Putc s c = some s' ∧ s'.Valid := by
  unfold term80Putc
  split
  · exact ⟨s, rfl, valid⟩
  split
  · exact ⟨_, rfl, valid.putEscape c⟩
  split
  · refine valid.tabLoop ?_
    have columns : term80Cols.toNat = 80 := rfl
    omega
  · exact ⟨_, rfl, valid.putPlain c⟩

theorem Screen.Valid.write (valid : s.Valid) (buf : List UInt8) : ∃ s', term80Write s buf = some s' ∧ s'.Valid := by
  induction buf generalizing s with
  | nil => exact ⟨s, rfl, valid⟩
  | cons c buf ih =>
    obtain ⟨put, returned, valid'⟩ := valid.putc c
    obtain ⟨s', rest, valid''⟩ := ih valid'
    refine ⟨s', ?_, valid''⟩
    unfold term80Write at rest ⊢
    rw [List.foldlM_cons, returned]
    exact rest

theorem Screen.Valid.exec (valid : s.Valid) (op : Op) : ∃ s', exec s op = .ok s' ∧ s'.Valid := by
  have empty : Framed (Term80.fillRows s.cells 0 term80Rows.toNat) := Framed.fillRows valid.frame le_rfl
  cases op with
  | activate => exact ⟨_, rfl, firstRow, firstCol, empty, noBytes⟩
  | deactivate => exact ⟨_, rfl, valid.row, valid.col, valid.frame, noBytes⟩
  | clear => exact ⟨_, rfl, valid.clear⟩
  | putc c =>
    obtain ⟨s', returned, valid'⟩ := valid.putc c
    refine ⟨s', ?_, valid'⟩
    show (term80Putc s c).elim _ _ = _
    rw [returned]
    rfl
  | write buf =>
    obtain ⟨s', returned, valid'⟩ := valid.write buf
    refine ⟨s', ?_, valid'⟩
    show (term80Write s buf).elim _ _ = _
    rw [returned]
    rfl
  | takeDirty => exact ⟨_, rfl, valid.row, valid.col, valid.frame, valid.buffered⟩

theorem Screen.Valid.lands_iff (valid : s.Valid) (active : s.active = true) (csi : s.escState = .csi)
    (ran : term80Putc s c = some s') : s.Lands c s' ↔ s.Fits c := by
  have inRow : s.row.toNat < 25 := valid.row
  have inCol : s.col.toNat < 80 := valid.col
  have rows : term80Rows.toNat = 25 := rfl
  have cols : term80Cols.toNat = 80 := rfl
  have inParam := (term80ParseParam s 0 1).toNat_lt
  unfold term80Putc at ran
  rw [if_neg (by rw [active]; exact Bool.noConfusion), csi, if_pos (by decide)] at ran
  cases ran
  have final (isFinal : 0x40 ≤ c ∧ c ≤ 0x7E) (noDigit : ¬(0x30 ≤ c ∧ c ≤ 0x39 ∨ c = 0x3B ∨ c = 0x3F)) :
      Term80.putEscape s c = term80ParserReset (term80HandleCsi s c) := by
    unfold Term80.putEscape
    rw [csi, if_neg (by decide), if_neg noDigit, if_pos isFinal]
  by_cases up : c = 0x41
  · subst up
    rw [final (by decide) (by decide)]
    refine iff_of_true ⟨fun _ => ⟨?_, rfl⟩, nofun, nofun, nofun⟩ ⟨nofun, nofun⟩
    exact back_toNat ..
  by_cases down : c = 0x42
  · subst down
    rw [final (by decide) (by decide)]
    have lands := on_toNat s.row (term80ParseParam s 0 1) term80Rows (by decide)
    constructor
    · intro lands'
      refine ⟨fun _ => ?_, nofun⟩
      have at_ := (lands'.down rfl).1.symm.trans lands
      omega
    · intro fits
      have fits := fits.1 rfl
      refine ⟨nofun, fun _ => ⟨?_, rfl⟩, nofun, nofun⟩
      rw [Nat.mod_eq_of_lt fits] at lands
      exact lands
  by_cases right : c = 0x43
  · subst right
    rw [final (by decide) (by decide)]
    have lands := on_toNat s.col (term80ParseParam s 0 1) term80Cols (by decide)
    constructor
    · intro lands'
      refine ⟨nofun, fun _ => ?_⟩
      have at_ := (lands'.right rfl).1.symm.trans lands
      omega
    · intro fits
      have fits := fits.2 rfl
      refine ⟨nofun, nofun, fun _ => ⟨?_, rfl⟩, nofun⟩
      rw [Nat.mod_eq_of_lt fits] at lands
      exact lands
  by_cases left : c = 0x44
  · subst left
    rw [final (by decide) (by decide)]
    refine iff_of_true ⟨nofun, nofun, nofun, fun _ => ⟨?_, rfl⟩⟩ ⟨nofun, nofun⟩
    exact back_toNat ..
  · exact iff_of_true ⟨fun h => absurd h up, fun h => absurd h down, fun h => absurd h right, fun h => absurd h left⟩
      ⟨fun h => absurd h down, fun h => absurd h right⟩

theorem run_valid (run : Run exec (fun _ _ => True) term80Init s) : s.Valid := by
  refine Run.invariant ⟨firstRow, firstCol, framed_empty, noBytes⟩ (fun {s s' op} valid _ ran => ?_) run
  obtain ⟨after, returned, valid'⟩ := valid.exec op
  rw [returned] at ran
  cases ran
  exact valid'

/-- In every run the screen is valid and every call returns; a cursor move ends where it should just when what it asks for can be written in 32 bits. -/
theorem run_lands_iff (run : Run exec (fun _ _ => True) term80Init s) :
    s.Valid ∧ (∀ op, ∃ s', exec s op = .ok s') ∧
      ∀ c s', s.active = true → s.escState = .csi → term80Putc s c = some s' → (s.Lands c s' ↔ s.Fits c) :=
  ⟨run_valid run, fun op => (run_valid run).exec op |>.imp fun _ both => both.1,
    fun _ _ active csi ran => (run_valid run).lands_iff active csi ran⟩

/-- The console is active and is told to move by five columns; the final byte is still missing. -/
def rightByFive : List Op := [.activate, .write [0x1B, 0x5B, 0x35]]

theorem run_lands_iff_rightByFive : ∃ s s', Run exec (fun _ _ => True) term80Init s ∧
    term80Putc s 0x43 = some s' ∧ s.Lands 0x43 s' := by
  have found : (runList exec (fun _ _ => True) term80Init rightByFive).any fun s =>
      s.active && s.escState == .csi && s.col == 0 && term80ParseParam s 0 1 == 5 := by
    decide
  obtain ⟨s, run, seen⟩ := runList_any found
  simp only [Bool.and_eq_true, beq_iff_eq] at seen
  obtain ⟨⟨⟨active, csi⟩, col⟩, five⟩ := seen
  obtain ⟨s', ran, _⟩ := (run_valid run).putc 0x43
  refine ⟨s, s', run, ran, ((run_lands_iff run).2.2 0x43 s' active csi ran).mpr ⟨nofun, fun _ => ?_⟩⟩
  rw [col, five]
  decide

/-- The cursor is in the second row, and is told to move down by as much as a parameter can say. -/
def downTooFar : List Op :=
  [.activate, .write [0x0A, 0x1B, 0x5B, 0x34, 0x32, 0x39, 0x34, 0x39, 0x36, 0x37, 0x32, 0x39, 0x35]]

theorem run_not_lands : ¬ ∀ s, Run exec (fun _ _ => True) term80Init s →
    ∀ c s', s.active = true → s.escState = .csi → term80Putc s c = some s' → s.Lands c s' := by
  intro lands
  have found : (runList exec (fun _ _ => True) term80Init downTooFar).any fun s =>
      s.active && s.escState == .csi && s.row == 1 && term80ParseParam s 0 1 == 0xFFFFFFFF := by
    decide
  obtain ⟨s, run, seen⟩ := runList_any found
  simp only [Bool.and_eq_true, beq_iff_eq] at seen
  obtain ⟨⟨⟨active, csi⟩, row⟩, most⟩ := seen
  obtain ⟨s', ran, _⟩ := (run_valid run).putc 0x42
  have fits := (((run_valid run).lands_iff active csi ran).mp (lands s run 0x42 s' active csi ran)).1 rfl
  rw [row, most] at fits
  exact absurd fits (by decide)

end

end Enlil.Term80
