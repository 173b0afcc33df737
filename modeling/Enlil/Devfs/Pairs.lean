import Enlil.Lib.Asks
import Enlil.Terminal.Line
import Enlil.Vfs.Mounts

/-! The device files of `kernel/vfs.c`, and the pseudo-terminal pairs behind them. -/

namespace Enlil.Devfs

open Vfs (CString Errno)
open Terminal (Pty)

def ptyMax : Nat := 8

/-- The pairs that are in use. -/
abbrev Pool := Fin ptyMax → Option Pty

/-- An open device file. -/
inductive File where
  | dir
  | device (name : CString)
  | ptmx (i : Fin ptyMax)
  | ptsDir
  | pts (i : Fin ptyMax)
  deriving DecidableEq

/-- The devices without a state of their own. -/
def plainDevices : List CString :=
  [['c', 'o', 'n', 's', 'o', 'l', 'e'], ['t', 't', 'y'], ['s', 't', 'd', 'i', 'n'], ['s', 't', 'd', 'o', 'u', 't'],
    ['s', 't', 'd', 'e', 'r', 'r'], ['n', 'u', 'l', 'l'], ['z', 'e', 'r', 'o'], ['u', 'r', 'a', 'n', 'd', 'o', 'm'],
    ['r', 'a', 'n', 'd', 'o', 'm']]

/-- A path below the mount without the slash at its start. -/
def deviceName (relpath : CString) : CString := if relpath.head? = some '/' then relpath.tail else relpath

/-- Reads decimal digits, and says what follows them. -/
def readDigits : CString → UInt32 → UInt32 × CString
  | [], n => (n, [])
  | c :: rest, n =>
    if '0' ≤ c ∧ c ≤ '9' then readDigits rest (n * 10 + (c.toNat - 48).toUInt32) else (n, c :: rest)

/-- The number of a pair, as it stands behind `pts/`. -/
def ptsNumber (name : CString) : Option (Fin ptyMax) :=
  match readDigits name 0 with
  | (n, []) => if inside : n.toNat < ptyMax then some ⟨n.toNat, inside⟩ else none
  | _ => none

/-- Takes the first pair that is not in use. -/
def ptyAlloc (pool : Pool) : Option (Fin ptyMax × Pool) :=
  ((List.finRange ptyMax).find? fun i => (pool i).isNone).map fun i => (i, Function.update pool i (some Terminal.ptyAlloc))

/-- Opens a slave for a task of a session, if it is unlocked. -/
def ptsOpen (pool : Pool) (sid : Nat) (name : CString) : Except Errno File × Pool :=
  match ptsNumber name with
  | none => (.error .enoent, pool)
  | some i =>
    match pool i with
    | none => (.error .enoent, pool)
    | some p =>
      if p.locked then (.error .eio, pool)
      else (.ok (.pts i), Function.update pool i (some (Terminal.ptyOpenSlave p 0 sid)))

def devfsOpen (pool : Pool) (sid : Nat) (relpath : CString) : Except Errno File × Pool :=
  let name := deviceName relpath
  if name = [] then (.ok .dir, pool)
  else if name ∈ plainDevices then (.ok (.device name), pool)
  else if name = ['p', 't', 'm', 'x'] then
    match ptyAlloc pool with
    | none => (.error .enomem, pool)
    | some (i, pool) => (.ok (.ptmx i), pool)
  else if name = ['p', 't', 's'] then (.ok .ptsDir, pool)
  else if name.take 4 = ['p', 't', 's', '/'] then
    if name.drop 4 = [] then (.ok .ptsDir, pool) else ptsOpen pool sid (name.drop 4)
  else (.error .enoent, pool)

/-- The mode of an open device file. -/
def devfsStat : File → UInt32
  | .dir | .ptsDir => 0x4124
  | _ => 0x21B6

/-- Closes the master of a pair, which is free then unless its slave is open. -/
def ptyCloseMaster (pool : Pool) (i : Fin ptyMax) : Pool :=
  match pool i with
  | none => pool
  | some p => Function.update pool i (if p.slaveOpen then some (Terminal.ptyCloseMaster p) else none)

/-- Closes the slave of a pair, which is free then unless its master is open. -/
def ptyCloseSlave (pool : Pool) (i : Fin ptyMax) : Pool :=
  match pool i with
  | none => pool
  | some p => Function.update pool i (if p.masterOpen then some (Terminal.ptyCloseSlave p) else none)

def devfsClose (pool : Pool) : File → Pool
  | .ptmx i => ptyCloseMaster pool i
  | .pts i => ptyCloseSlave pool i
  | _ => pool

/-- Opens a device file, asks for its mode and closes it: what is done for a mount that cannot look at a path. -/
def devfsLook (sid : Nat) (relpath : CString) (pool : Pool) : Except Errno UInt32 × Pool :=
  match devfsOpen pool sid relpath with
  | (.error error, pool) => (.error error, pool)
  | (.ok file, pool) => (.ok (devfsStat file), devfsClose pool file)

/-- A pair without who waits for it and which group its slave belongs to. -/
def bare (p : Pty) : Pty := { p with slaveSid := 0, slavePgid := 0, masterReader := none }

/-- What a lookup is to leave as it is: which pairs are in use, what of them is open and what is in their buffers. -/
def shown (pool : Pool) : Pool := fun i => (pool i).map bare

/-- The slave of a pair is open. -/
def slaveOpen (pool : Pool) (i : Fin ptyMax) : Bool := (pool i).any (·.slaveOpen)

/-- The pair whose slave a path below the mount is. -/
def slaveAt (relpath : CString) : Option (Fin ptyMax) :=
  if (deviceName relpath).take 4 = ['p', 't', 's', '/'] ∧ (deviceName relpath).drop 4 ≠ [] then
    ptsNumber ((deviceName relpath).drop 4)
  else none

/-- A path is that of a slave that is open and unlocked. -/
def Disturbs (pool : Pool) (relpath : CString) : Prop :=
  ∃ i ∈ slaveAt relpath, ∃ p ∈ pool i, p.slaveOpen = true ∧ p.locked = false

/-- Of every pair in use one side is open. -/
def Sound (pool : Pool) : Prop := ∀ i, ∀ p ∈ pool i, p.masterOpen = true ∨ p.slaveOpen = true

section

variable {pool pool' : Pool} {i j : Fin ptyMax} {p : Pty} {sid : Nat} {relpath : CString} {file : File}

theorem slaveOpen_shown : slaveOpen (shown pool) = slaveOpen pool := by
  funext i
  unfold slaveOpen shown
  cases pool i <;> rfl

theorem disturbs_shown : Disturbs (shown pool) relpath ↔ Disturbs pool relpath := by
  unfold Disturbs shown
  refine exists_congr fun i => and_congr_right fun _ => ?_
  cases pool i with
  | none => simp
  | some p => simp [bare]

theorem ptyAlloc_some (made : ptyAlloc pool = some (i, pool')) :
    pool i = none ∧ pool' = Function.update pool i (some Terminal.ptyAlloc) := by
  obtain ⟨free, found, same⟩ := Option.map_eq_some_iff.mp made
  cases same
  exact ⟨by simpa using List.find?_some found, rfl⟩

theorem ptsOpen_cases (pool : Pool) (sid : Nat) (name : CString) :
    (∃ i p, ptsNumber name = some i ∧ pool i = some p ∧ p.locked = false ∧
      ptsOpen pool sid name = (.ok (.pts i), Function.update pool i (some (Terminal.ptyOpenSlave p 0 sid)))) ∨
    (∃ error, ptsOpen pool sid name = (.error error, pool) ∧ ∀ i ∈ ptsNumber name, ∀ p ∈ pool i, p.locked = true) := by
  unfold ptsOpen
  cases number : ptsNumber name with
  | none => exact .inr ⟨_, rfl, nofun⟩
  | some i =>
    cases used : pool i with
    | none =>
      refine .inr ⟨.enoent, by simp only [used], fun j same p found => ?_⟩
      cases same
      rw [used] at found
      cases found
    | some p =>
      by_cases locked : p.locked = true
      · refine .inr ⟨.eio, by simp only [used, locked, if_true], fun j same q found => ?_⟩
        cases same
        rw [used] at found
        cases found
        exact locked
      · refine .inl ⟨i, p, rfl, used, Bool.eq_false_iff.mpr locked, ?_⟩
        simp only [used]
        exact if_neg locked

theorem plainDevices_take {name : CString} (pts : name.take 4 = ['p', 't', 's', '/']) :
    name ≠ [] ∧ name ∉ plainDevices ∧ name ≠ ['p', 't', 'm', 'x'] ∧ name ≠ ['p', 't', 's'] := by
  have apart : ∀ device ∈ plainDevices, device.take 4 ≠ ['p', 't', 's', '/'] := by decide
  refine ⟨?_, fun member => apart name member pts, ?_, ?_⟩
  · rintro rfl
    cases pts
  · rintro rfl
    revert pts
    decide
  · rintro rfl
    revert pts
    decide

theorem devfsOpen_cases (pool : Pool) (sid : Nat) (relpath : CString) :
    (∃ i pool', devfsOpen pool sid relpath = (.ok (.ptmx i), pool') ∧ ptyAlloc pool = some (i, pool') ∧
      slaveAt relpath = none) ∨
    (∃ i p, slaveAt relpath = some i ∧ pool i = some p ∧ p.locked = false ∧
      devfsOpen pool sid relpath = (.ok (.pts i), Function.update pool i (some (Terminal.ptyOpenSlave p 0 sid)))) ∨
    (∃ opened, devfsOpen pool sid relpath = (opened, pool) ∧ (∀ i, opened ≠ .ok (.ptmx i) ∧ opened ≠ .ok (.pts i)) ∧
      ∀ i ∈ slaveAt relpath, ∀ p ∈ pool i, p.locked = true) := by
  have elsewhere (other : (deviceName relpath).take 4 ≠ ['p', 't', 's', '/'] ∨ (deviceName relpath).drop 4 = []) :
      slaveAt relpath = none := if_neg fun ⟨pts, more⟩ => other.elim (· pts) more
  by_cases slave : (deviceName relpath).take 4 = ['p', 't', 's', '/']
  · obtain ⟨named, apart, notPtmx, notPts⟩ := plainDevices_take slave
    unfold devfsOpen
    simp only [if_neg named, if_neg apart, if_neg notPtmx, if_neg notPts, if_pos slave]
    by_cases last : (deviceName relpath).drop 4 = []
    · rw [if_pos last, elsewhere (.inr last)]
      exact .inr (.inr ⟨.ok .ptsDir, rfl, fun _ => ⟨nofun, nofun⟩, nofun⟩)
    · rw [if_neg last, show slaveAt relpath = ptsNumber ((deviceName relpath).drop 4) from if_pos ⟨slave, last⟩]
      rcases ptsOpen_cases pool sid ((deviceName relpath).drop 4) with opened | ⟨error, failed, locked⟩
      · exact .inr (.inl opened)
      · exact .inr (.inr ⟨.error error, failed, fun _ => ⟨nofun, nofun⟩, locked⟩)
  · rw [elsewhere (.inl slave)]
    unfold devfsOpen
    simp only [if_neg slave]
    split
    · exact .inr (.inr ⟨_, rfl, fun _ => ⟨nofun, nofun⟩, nofun⟩)
    split
    · exact .inr (.inr ⟨_, rfl, fun _ => ⟨nofun, nofun⟩, nofun⟩)
    split
    · split
      · exact .inr (.inr ⟨_, rfl, fun _ => ⟨nofun, nofun⟩, nofun⟩)
      · rename_i i pool' made
        exact .inl ⟨i, pool', rfl, made, trivial⟩
    split
    · exact .inr (.inr ⟨_, rfl, fun _ => ⟨nofun, nofun⟩, nofun⟩)
    · exact .inr (.inr ⟨_, rfl, fun _ => ⟨nofun, nofun⟩, nofun⟩)

theorem devfsLook_cases (sid : Nat) (relpath : CString) (pool : Pool) :
    (∃ i p, slaveAt relpath = some i ∧ pool i = some p ∧ p.locked = false ∧
      (devfsLook sid relpath pool).2 = Function.update pool i
        (if p.masterOpen then some (Terminal.ptyCloseSlave (Terminal.ptyOpenSlave p 0 sid)) else none)) ∨
    ((devfsLook sid relpath pool).2 = pool ∧ ∀ i ∈ slaveAt relpath, ∀ p ∈ pool i, p.locked = true) := by
  unfold devfsLook
  rcases devfsOpen_cases pool sid relpath with ⟨i, pool', opened, made, other⟩ | ⟨i, p, slave, used, unlocked, opened⟩ |
    ⟨answer, opened, other, locked⟩
  · -- The new pair is gone again as soon as its master is closed.
    obtain ⟨free, rfl⟩ := ptyAlloc_some made
    rw [opened]
    refine .inr ⟨?_, by rw [other]; nofun⟩
    show ptyCloseMaster _ i = pool
    unfold ptyCloseMaster
    rw [Function.update_self]
    show Function.update (Function.update pool i _) i none = pool
    rw [Function.update_idem, ← free, Function.update_eq_self]
  · refine .inl ⟨i, p, slave, used, unlocked, ?_⟩
    rw [opened]
    show ptyCloseSlave _ i = _
    unfold ptyCloseSlave
    rw [Function.update_self]
    exact Function.update_idem _ _ _
  · rw [opened]
    refine .inr ⟨?_, locked⟩
    cases answer with
    | error => rfl
    | ok file =>
      cases file with
      | ptmx i => exact absurd rfl (other i).1
      | pts i => exact absurd rfl (other i).2
      | dir => rfl
      | ptsDir => rfl
      | device => rfl

theorem ptsOpen_shown (pool : Pool) (sid sid' : Nat) (name : CString) :
    (ptsOpen (shown pool) sid name).1 = (ptsOpen pool sid' name).1 := by
  unfold ptsOpen shown
  cases ptsNumber name with
  | none => rfl
  | some i =>
    cases used : pool i with
    | none => simp only [used, Option.map_none]
    | some p =>
      simp only [used, Option.map_some, bare]
      split <;> rfl

theorem devfsOpen_shown (pool : Pool) (sid sid' : Nat) (relpath : CString) :
    (devfsOpen (shown pool) sid relpath).1 = (devfsOpen pool sid' relpath).1 := by
  have free : ((List.finRange ptyMax).find? fun i => (shown pool i).isNone) =
      (List.finRange ptyMax).find? fun i => (pool i).isNone := by
    simp only [shown, Option.isNone_map]
  unfold devfsOpen ptyAlloc
  simp only [free]
  split_ifs
  · rfl
  · rfl
  · cases (List.finRange ptyMax).find? fun i => (pool i).isNone <;> rfl
  · rfl
  · rfl
  · exact ptsOpen_shown pool sid sid' _
  · rfl

theorem devfsLook_shown (pool : Pool) (sid sid' : Nat) (relpath : CString) :
    (devfsLook sid relpath (shown pool)).1 = (devfsLook sid' relpath pool).1 := by
  have same := devfsOpen_shown pool sid sid' relpath
  unfold devfsLook
  rcases first : devfsOpen (shown pool) sid relpath with ⟨one, left⟩
  rcases second : devfsOpen pool sid' relpath with ⟨other, right⟩
  rw [first, second] at same
  cases same
  cases one <;> rfl

theorem Sound.update (sound : Sound pool) {pair : Option Pty}
    (open_ : ∀ p ∈ pair, p.masterOpen = true ∨ p.slaveOpen = true) : Sound (Function.update pool i pair) := by
  intro j p used
  by_cases same : j = i
  · subst same
    rw [Function.update_self] at used
    exact open_ p used
  · rw [Function.update_of_ne same] at used
    exact sound j p used

theorem Sound.devfsLook (sound : Sound pool) (sid : Nat) (relpath : CString) :
    Sound (devfsLook sid relpath pool).2 := by
  rcases devfsLook_cases sid relpath pool with ⟨i, p, _, _, _, looked⟩ | ⟨looked, _⟩
  · rw [looked]
    refine sound.update fun q same => ?_
    split at same
    · rename_i master
      cases same
      exact .inl master
    · cases same
  · rw [looked]
    exact sound

theorem slaveOpen_update (pair : Option Pty) :
    slaveOpen (Function.update pool i pair) = Function.update (slaveOpen pool) i (pair.any (·.slaveOpen)) := by
  funext j
  unfold slaveOpen
  by_cases same : j = i
  · subst same
    rw [Function.update_self, Function.update_self]
  · rw [Function.update_of_ne same, Function.update_of_ne same]

theorem shown_update (pair : Option Pty) :
    shown (Function.update pool i pair) = Function.update (shown pool) i (pair.map bare) := by
  funext j
  unfold shown
  by_cases same : j = i
  · subst same
    rw [Function.update_self, Function.update_self]
  · rw [Function.update_of_ne same, Function.update_of_ne same]

theorem closed_any (p q : Pty) :
    (if p.masterOpen then some (Terminal.ptyCloseSlave q) else none).any (·.slaveOpen) = false := by
  split <;> rfl

theorem devfsLook_falls (sid : Nat) (relpath : CString) (pool : Pool) :
    slaveOpen (devfsLook sid relpath pool).2 ≤ slaveOpen pool := by
  rcases devfsLook_cases sid relpath pool with ⟨i, p, _, _, _, looked⟩ | ⟨looked, _⟩
  · rw [looked, slaveOpen_update, closed_any]
    exact update_le_self_iff.mpr (Bool.false_le _)
  · rw [looked]

theorem devfsLook_disturbs (sid : Nat) (disturbs : Disturbs pool relpath) :
    slaveOpen (devfsLook sid relpath pool).2 < slaveOpen pool := by
  obtain ⟨i, slave, p, used, opened, unlocked⟩ := disturbs
  refine lt_of_le_not_ge (devfsLook_falls sid relpath pool) fun above => ?_
  rcases devfsLook_cases sid relpath pool with ⟨j, q, slave', _, _, looked⟩ | ⟨_, locked⟩
  · obtain rfl : j = i := Option.some.inj (slave'.symm.trans slave)
    have at_i : slaveOpen pool j = true := by
      unfold slaveOpen
      rw [used]
      exact opened
    have here := above j
    rw [looked, slaveOpen_update, Function.update_self, at_i, closed_any] at here
    exact Bool.false_ne_true (here rfl)
  · rw [locked i slave p used] at unlocked
    cases unlocked

theorem devfsLook_quiet (sound : Sound pool) (sid : Nat) (quiet : ¬ Disturbs pool relpath) :
    shown (devfsLook sid relpath pool).2 = shown pool := by
  rcases devfsLook_cases sid relpath pool with ⟨i, p, slave, used, unlocked, looked⟩ | ⟨looked, _⟩
  · -- The slave is not open, so that its master is, and the pair stays in use.
    have closed : p.slaveOpen = false := Bool.eq_false_iff.mpr fun opened => quiet ⟨i, slave, p, used, opened, unlocked⟩
    have master : p.masterOpen = true := (sound i p used).resolve_right (by rw [closed]; nofun)
    have same : bare (Terminal.ptyCloseSlave (Terminal.ptyOpenSlave p 0 sid)) = bare p := by
      show { bare p with slaveOpen := false } = bare p
      rw [← closed]
      rfl
    rw [looked, shown_update, if_pos master, Option.map_some, same]
    exact Function.update_eq_self_iff.mpr (by rw [shown, used]; rfl)
  · rw [looked]

theorem devfsLook_observed (sid : Nat) : Asks.Observed (devfsLook sid) Sound shown slaveOpen Disturbs where
  kept relpath pool sound := sound.devfsLook sid relpath
  answered relpath s t same := by rw [← devfsLook_shown s sid sid, same, devfsLook_shown t sid sid]
  quiet relpath s sound quiet := devfsLook_quiet sound sid fun disturbs => quiet (disturbs_shown.mpr disturbs)
  falls relpath s := by
    rw [slaveOpen_shown, slaveOpen_shown]
    exact devfsLook_falls sid relpath s
  lost relpath s disturbs := by
    rw [slaveOpen_shown, slaveOpen_shown]
    exact devfsLook_disturbs sid (disturbs_shown.mp disturbs)

end

end Enlil.Devfs
