import Enlil.Lib.Run
import Enlil.Vfs.Readonly
import Enlil.Devfs.Lookups

/-! What lookups of paths and the handles of slaves do to pseudo-terminal pairs, over all runs. -/

namespace Enlil.Devfs

open Vfs (CString Errno Kernel)
open Terminal (Pty Action Termios)

/-- The calls on an open pair that neither open nor close a side. -/
inductive Call where
  | masterWrite (data : List UInt8)
  | masterRead (task count : Nat) (nonblock : Bool)
  | masterWoken (task count : Nat)
  | slaveWrite (data : List UInt8)
  | slaveRead (task pgid count : Nat) (nonblock : Bool)
  | slaveWoken (task count : Nat)
  | tcsetattr (action : Action) (t : Termios)
  | setLocked (locked : Bool)
  | tcsetpgrp (sid pgid : Nat)
  | setCtty (sid pgid : Nat)

/-- Gives the slave of a session another foreground group. -/
def ptyTcsetpgrp (p : Pty) (sid pgid : Nat) : Pty :=
  if pgid = 0 ∨ sid = 0 ∨ (p.slaveSid ≠ 0 ∧ p.slaveSid ≠ sid) then p else { p with slaveSid := sid, slavePgid := pgid }

/-- Makes a slave the terminal of a session. -/
def ptySetCtty (p : Pty) (sid pgid : Nat) : Pty :=
  if sid = 0 ∨ (p.slaveSid ≠ 0 ∧ p.slaveSid ≠ sid) then p
  else { p with slaveSid := sid, slavePgid := if pgid ≠ 0 then pgid else p.slavePgid }

/-- What a call leaves of a pair. -/
def Call.on (p : Pty) : Call → Pty
  | .masterWrite data => (Terminal.ptyMasterWrite p data).2
  | .masterRead task count nonblock => (Terminal.ptyMasterRead p task count nonblock).2
  | .masterWoken task count => (Terminal.masterReadTurn { p with masterReader := none } task count false).2
  | .slaveWrite data => (Terminal.ptySlaveWrite p data).2
  | .slaveRead task pgid count nonblock => (Terminal.ptySlaveRead p task pgid count nonblock).2
  | .slaveWoken task count => (Terminal.slaveReadTurn { p with slaveReader := none } task count false).2
  | .tcsetattr action t => Terminal.ptyTcsetattr p action t
  | .setLocked locked => { p with locked }
  | .tcsetpgrp sid pgid => ptyTcsetpgrp p sid pgid
  | .setCtty sid pgid => ptySetCtty p sid pgid

/-- A task is gone and waits for nothing any more. -/
def ptyTaskCleanup (p : Pty) (task : Nat) : Pty :=
  { p with
    slaveReader := if p.slaveReader = some task then none else p.slaveReader
    masterReader := if p.masterReader = some task then none else p.masterReader }

/-- The pairs and the open device files. -/
structure State where
  pool : Pool
  handles : List File

/-- What is done to device files: a lookup comes with the mounts and files it finds. -/
inductive Op (β : Type) where
  | lookup (k : Kernel β) (files : β) (sid : Nat) (asked : Lookup)
  | «open» (sid : Nat) (relpath : CString)
  | close (file : File)
  | call (i : Fin ptyMax) (call : Call)
  | exit (task : Nat)

/-- The pairs behind a lookup by a task of a session. -/
def Lookup.leaves {β : Type} (k : Kernel β) (files : β) (sid : Nat) (asked : Lookup) (pool : Pool) : Pool :=
  ((asked.look k files).run (devfsLook sid) pool).2

def exec {β : Type} (s : State) : Op β → Except Empty State
  | .lookup k files sid asked => .ok { s with pool := asked.leaves k files sid s.pool }
  | .open sid relpath =>
    match devfsOpen s.pool sid relpath with
    | (.error _, pool) => .ok { s with pool }
    | (.ok file, pool) => .ok ⟨pool, file :: s.handles⟩
  | .close file => if file ∈ s.handles then .ok ⟨devfsClose s.pool file, s.handles.erase file⟩ else .ok s
  | .call i call => .ok { s with pool := Function.update s.pool i ((s.pool i).map call.on) }
  | .exit task => .ok { s with pool := fun i => (s.pool i).map (ptyTaskCleanup · task) }

/-- No pair is in use, and nothing is open. -/
def ptyInit : State := ⟨fun _ => none, []⟩

/-- The paths of device files that a lookup asks for, as the devices are at its start. -/
def Lookup.looksAt {β : Type} (k : Kernel β) (files : β) (asked : Lookup) (pool : Pool) : List CString :=
  (asked.look k files).questions fun relpath => (devfsLook 0 relpath pool).1

/-- A lookup does not come to the path of a slave that is open and unlocked. -/
def Lookup.Quiet {β : Type} (k : Kernel β) (files : β) (asked : Lookup) (pool : Pool) : Prop :=
  ∀ relpath ∈ asked.looksAt k files pool, ¬ Disturbs pool relpath

/-- The discipline of a run: a lookup is quiet, and a slave is closed by its only handle. -/
def Careful {β : Type} (s : State) : Op β → Prop
  | .lookup k files _ asked => asked.Quiet k files s.pool
  | .close (.pts i) => s.handles.count (.pts i) = 1
  | _ => True

/-- The master of a pair is told that there is no slave. -/
def HungUp (pool : Pool) (i : Fin ptyMax) : Prop := slaveOpen pool i = false

/-- A slave that somebody has open is not hung up. -/
def State.Connected (s : State) : Prop := ∀ i, File.pts i ∈ s.handles → ¬ HungUp s.pool i

/-- Which sides of a pair are open. -/
def sides (p : Pty) : Bool × Bool := (p.masterOpen, p.slaveOpen)

section

open Terminal

variable {p : Pty}

theorem foldl_sides {α : Type} {f : Pty → α → Pty} (kept : ∀ p c, sides (f p c) = sides p) (items : List α) :
    ∀ p, sides (items.foldl f p) = sides p := by
  induction items with
  | nil => exact fun _ => rfl
  | cons c rest ih => exact fun p => (ih (f p c)).trans (kept p c)

theorem s2mPushes_sides (p : Pty) (bytes : List UInt8) : sides (s2mPushes p bytes) = sides p :=
  foldl_sides (fun p c => by unfold s2mPush; split <;> rfl) bytes p

theorem m2sPushes_sides (p : Pty) (bytes : List UInt8) : sides (m2sPushes p bytes) = sides p :=
  foldl_sides (fun p c => by unfold m2sPush; split <;> rfl) bytes p

theorem echoBytes_sides (p : Pty) (bytes : List UInt8) : sides (echoBytes p bytes) = sides p := by
  unfold echoBytes
  split
  · exact s2mPushes_sides p bytes
  · rfl

theorem ldSignal_sides (p : Pty) (signal : Signal) (name : UInt8) : sides (ldSignal p signal name) = sides p := by
  show sides (echoBytes (signalForeground p signal) _) = _
  rw [echoBytes_sides]
  unfold signalForeground
  split <;> rfl

theorem ldErase_sides (p : Pty) : sides (ldErase p) = sides p := by
  unfold ldErase
  split
  · rw [s2mPushes_sides]
    rfl
  · rfl

theorem ldKill_sides (n : Nat) : ∀ p, sides (ldKill p n) = sides p := by
  induction n with
  | zero => exact fun _ => rfl
  | succ n ih => exact fun p => (ih (ldErase p)).trans (ldErase_sides p)

theorem ptyLdByte_sides (p : Pty) (c : UInt8) : sides (ptyLdByte p c) = sides p := by
  unfold ptyLdByte
  generalize inputOf p.termios c = c
  unfold ldInput
  refine iteInduction (motive := fun q => sides q = sides p) (fun _ => ldSignal_sides p _ _) fun _ => ?_
  refine iteInduction (motive := fun q => sides q = sides p) (fun _ => ldSignal_sides p _ _) fun _ => ?_
  refine iteInduction (motive := fun q => sides q = sides p) (fun _ => ?_) fun _ => ?_
  · refine iteInduction (motive := fun q => sides q = sides p) (fun _ => ?_) fun _ => ?_
    · exact iteInduction (motive := fun q => sides q = sides p) (fun _ => rfl) fun _ => ldErase_sides p
    refine iteInduction (motive := fun q => sides q = sides p) (fun _ => ldKill_sides _ p) fun _ => ?_
    refine iteInduction (motive := fun q => sides q = sides p) (fun _ => ?_) fun _ => ?_
    · exact iteInduction (motive := fun q => sides q = sides p) (fun _ => rfl) fun _ => m2sPushes_sides p p.edit
    refine iteInduction (motive := fun q => sides q = sides p) (fun _ => ?_) fun _ => ?_
    · exact (m2sPushes_sides _ _).trans (echoBytes_sides p _)
    refine iteInduction (motive := fun q => sides q = sides p) (fun _ => ?_) fun _ => rfl
    rw [echoBytes_sides]
    unfold ldAppend
    split <;> rfl
  · rw [echoBytes_sides]
    unfold m2sPush
    split <;> rfl

theorem masterTake_sides (n : Nat) : ∀ p, sides (masterTake p n).2 = sides p := by
  induction n with
  | zero => exact fun _ => rfl
  | succ n ih =>
    intro p
    unfold masterTake s2mPop
    cases p.s2m.pop with
    | none => rfl
    | some taken => exact ih _

theorem slaveTake_sides (n : Nat) : ∀ p, sides (slaveTake p n).2 = sides p := by
  induction n with
  | zero => exact fun _ => rfl
  | succ n ih =>
    intro p
    unfold slaveTake m2sPop
    cases p.m2s.pop with
    | none => rfl
    | some taken =>
      dsimp only [Option.map_some]
      split
      · rfl
      · exact ih _

theorem masterReadTurn_sides (p : Pty) (task count : Nat) (nonblock : Bool) :
    sides (masterReadTurn p task count nonblock).2 = sides p := by
  have taken := masterTake_sides count p
  unfold masterReadTurn
  dsimp only
  split_ifs <;> exact taken

theorem slaveReadTurn_sides (p : Pty) (task count : Nat) (nonblock : Bool) :
    sides (slaveReadTurn p task count nonblock).2 = sides p := by
  have taken := slaveTake_sides count p
  unfold slaveReadTurn
  dsimp only
  split_ifs
  · rfl
  all_goals exact taken

theorem Call.on_sides (p : Pty) (call : Call) : sides (call.on p) = sides p := by
  cases call with
  | masterWrite data =>
    show sides (ptyMasterWrite p data).2 = _
    unfold ptyMasterWrite
    split
    · rfl
    · exact foldl_sides ptyLdByte_sides data p
  | masterRead task count nonblock =>
    show sides (ptyMasterRead p task count nonblock).2 = _
    unfold ptyMasterRead
    split
    · rfl
    · exact masterReadTurn_sides p task count nonblock
  | masterWoken task count => exact masterReadTurn_sides { p with masterReader := none } task count false
  | slaveWrite data =>
    show sides (ptySlaveWrite p data).2 = _
    unfold ptySlaveWrite
    split
    · rfl
    · exact foldl_sides (fun p c => s2mPushes_sides p _) data p
  | slaveRead task pgid count nonblock =>
    show sides (ptySlaveRead p task pgid count nonblock).2 = _
    unfold ptySlaveRead
    split
    · rfl
    · exact slaveReadTurn_sides _ task count nonblock
  | slaveWoken task count => exact slaveReadTurn_sides { p with slaveReader := none } task count false
  | tcsetattr action t =>
    show sides (ptyTcsetattr p action t) = _
    unfold ptyTcsetattr
    split <;> rfl
  | setLocked locked => rfl
  | tcsetpgrp sid pgid =>
    show sides (ptyTcsetpgrp p sid pgid) = _
    unfold ptyTcsetpgrp
    split_ifs <;> rfl
  | setCtty sid pgid =>
    show sides (ptySetCtty p sid pgid) = _
    unfold ptySetCtty
    split_ifs <;> rfl

end

section

variable {β : Type} {k : Kernel β} {files : β} {s s' : State} {pool : Pool} {i : Fin ptyMax}

theorem slaveOpen_sides {p : Pty} (used : pool i = some p) : slaveOpen pool i = (sides p).2 := by
  rw [slaveOpen, used]
  rfl

theorem leaves_iff (sound : Sound pool) (sid : Nat) (asked : Lookup) :
    shown (asked.leaves k files sid pool) = shown pool ↔ asked.Quiet k files pool := by
  have answers : (fun relpath => (devfsLook sid relpath pool).1) = fun relpath => (devfsLook 0 relpath pool).1 :=
    funext fun relpath => (devfsLook_shown pool sid sid relpath).symm.trans (devfsLook_shown pool sid 0 relpath)
  unfold Lookup.leaves Lookup.Quiet Lookup.looksAt
  rw [(devfsLook_observed sid).run_seen_iff (asked.look k files) sound, answers]
  exact forall_congr' fun relpath => imp_congr_right fun _ => not_congr disturbs_shown

/-- Such a lookup comes to where the lookup of the mounts does, if the devices there answer as these do. -/
theorem run_resolve (sound : Sound pool) (sid : Nat) {followFinal allowMissingFinal : Bool} {path : CString}
    (devices : k.devfsMode = fun relpath => (devfsLook sid relpath pool).1)
    (quiet : (Lookup.resolve followFinal allowMissingFinal path).Quiet k files pool) :
    (((Lookup.resolve followFinal allowMissingFinal path).look k files).run (devfsLook sid) pool).1 =
      (Vfs.resolve k files followFinal allowMissingFinal path).map .path := by
  have answers : (fun relpath => (devfsLook 0 relpath pool).1) = fun relpath => (devfsLook sid relpath pool).1 :=
    funext fun relpath => (devfsLook_shown pool 0 0 relpath).symm.trans (devfsLook_shown pool 0 sid relpath)
  rw [(devfsLook_observed sid).run_result _ sound ?_, ← devices]
  · show (Look.thenLook _ _).result k.devfsMode = _
    rw [thenLook_result, resolve_result, looks_result]
    rfl
  · intro relpath asked
    refine fun disturbs => quiet relpath ?_ (disturbs_shown.mp disturbs)
    unfold Lookup.looksAt
    rw [answers]
    exact asked

/-- The mounts over devices of which no pair is in use. -/
def withDevices : Kernel (List CString) := { Vfs.mounted with devfsMode := fun relpath => (devfsLook 0 relpath ptyInit.pool).1 }

theorem run_resolve_null :
    (((Lookup.resolve true false ['/', 'd', 'e', 'v', '/', 'n', 'u', 'l', 'l']).look withDevices []).run (devfsLook 0) ptyInit.pool).1 =
      (Vfs.resolve withDevices [] true false ['/', 'd', 'e', 'v', '/', 'n', 'u', 'l', 'l']).map .path :=
  run_resolve (fun _ _ used => by cases used) 0 rfl ((leaves_iff (fun _ _ used => by cases used) 0 _).mp (by rfl))

theorem Sound.open_ (sound : Sound pool) (sid : Nat) (relpath : CString) : Sound (devfsOpen pool sid relpath).2 := by
  rcases devfsOpen_cases pool sid relpath with ⟨i, pool', opened, made, _⟩ | ⟨i, p, _, used, _, opened⟩ |
    ⟨answer, opened, _⟩
  · rw [opened, (ptyAlloc_some made).2]
    exact sound.update fun p same => by cases same; exact .inl rfl
  · rw [opened]
    exact sound.update fun q same => by cases same; exact .inr rfl
  · rw [opened]
    exact sound

theorem Sound.close (sound : Sound pool) (file : File) : Sound (devfsClose pool file) := by
  cases file with
  | ptmx i =>
    show Sound (ptyCloseMaster pool i)
    unfold ptyCloseMaster
    split
    · exact sound
    · refine sound.update fun q same => ?_
      split at same
      · rename_i opened
        cases same
        exact .inr opened
      · cases same
  | pts i =>
    show Sound (ptyCloseSlave pool i)
    unfold ptyCloseSlave
    split
    · exact sound
    · refine sound.update fun q same => ?_
      split at same
      · rename_i opened
        cases same
        exact .inl opened
      · cases same
  | dir => exact sound
  | ptsDir => exact sound
  | device => exact sound

theorem Sound.exec {op : Op β} (sound : Sound s.pool) (ran : exec s op = .ok s') : Sound s'.pool := by
  cases op with
  | lookup k files sid asked =>
    cases ran
    exact Asks.run_invariant (devfsLook_observed sid).kept _ sound
  | «open» sid relpath =>
    have opened := sound.open_ sid relpath
    unfold Devfs.exec at ran
    dsimp only at ran
    split at ran <;> rename_i done
    all_goals
      rw [done] at opened
      cases ran
      exact opened
  | close file =>
    unfold Devfs.exec at ran
    dsimp only at ran
    split at ran <;> cases ran
    · exact sound.close file
    · exact sound
  | call i call =>
    cases ran
    refine sound.update fun q same => ?_
    obtain ⟨p, used, rfl⟩ := Option.map_eq_some_iff.mp same
    have kept := call.on_sides p
    have one := sound i p used
    unfold sides at kept
    rw [Prod.mk.injEq] at kept
    rw [kept.1, kept.2]
    exact one
  | exit task =>
    cases ran
    intro i q same
    obtain ⟨p, used, rfl⟩ := Option.map_eq_some_iff.mp same
    exact sound i p used

theorem run_sound {allowed : State → Op β → Prop} (run : Run exec allowed ptyInit s) : Sound s.pool :=
  @Run.invariant _ _ _ exec allowed (fun s => Sound s.pool) ptyInit (fun _ _ used => by cases used)
    (fun sound _ ran => sound.exec ran) s run

theorem call_slaveOpen (call : Call) :
    slaveOpen (Function.update pool i ((pool i).map call.on)) = slaveOpen pool := by
  rw [slaveOpen_update]
  refine Function.update_eq_self_iff.mpr ?_
  unfold slaveOpen
  cases pool i with
  | none => rfl
  | some p => exact congrArg Prod.snd (call.on_sides p)

theorem exit_slaveOpen (task : Nat) : slaveOpen (fun i => (pool i).map (ptyTaskCleanup · task)) = slaveOpen pool := by
  funext i
  unfold slaveOpen
  rw [Option.any_map]
  rfl

theorem closeMaster_slaveOpen : slaveOpen (ptyCloseMaster pool i) = slaveOpen pool := by
  unfold ptyCloseMaster
  cases used : pool i with
  | none => rfl
  | some p =>
    dsimp only
    rw [slaveOpen_update]
    refine Function.update_eq_self_iff.mpr ?_
    rw [slaveOpen_sides used]
    show _ = p.slaveOpen
    cases opened : p.slaveOpen with
    | false => rfl
    | true => exact opened

theorem closeSlave_slaveOpen : slaveOpen (ptyCloseSlave pool i) = Function.update (slaveOpen pool) i false := by
  unfold ptyCloseSlave
  cases used : pool i with
  | none =>
    have closed : slaveOpen pool i = false := by rw [slaveOpen, used]; rfl
    exact (Function.update_eq_self_iff.mpr closed.symm).symm
  | some p =>
    dsimp only
    rw [slaveOpen_update, closed_any]

theorem State.Connected.exec {op : Op β} (connected : s.Connected) (sound : Sound s.pool) (careful : Careful s op)
    (ran : exec s op = .ok s') : s'.Connected := by
  have kept {pool : Pool} {handles : List File} (same : slaveOpen pool = slaveOpen s.pool)
      (fewer : ∀ i, File.pts i ∈ handles → File.pts i ∈ s.handles) : State.Connected ⟨pool, handles⟩ := by
    intro i held hung
    rw [HungUp, same] at hung
    exact connected i (fewer i held) hung
  cases op with
  | lookup k files sid asked =>
    cases ran
    refine kept ?_ fun _ held => held
    have same := (leaves_iff sound sid asked).mpr careful
    rw [← slaveOpen_shown, same, slaveOpen_shown]
  | «open» sid relpath =>
    unfold Devfs.exec at ran
    dsimp only at ran
    rcases devfsOpen_cases s.pool sid relpath with ⟨j, pool, opened, made, _⟩ | ⟨j, p, _, used, _, opened⟩ |
      ⟨answer, opened, other, _⟩
    · obtain ⟨free, rfl⟩ := ptyAlloc_some made
      rw [opened] at ran
      cases ran
      refine kept ?_ fun i held => (List.mem_cons.mp held).resolve_left nofun
      rw [slaveOpen_update]
      exact Function.update_eq_self_iff.mpr (by rw [slaveOpen, free]; rfl)
    · rw [opened] at ran
      cases ran
      intro i held hung
      rw [HungUp, slaveOpen_update] at hung
      by_cases same : i = j
      · rw [same, Function.update_self] at hung
        cases hung
      · rw [Function.update_of_ne same] at hung
        exact connected i ((List.mem_cons.mp held).resolve_left fun new => same (File.pts.inj new)) hung
    · rw [opened] at ran
      cases answer with
      | error error =>
        cases ran
        exact connected
      | ok file =>
        cases ran
        exact kept rfl fun i held => (List.mem_cons.mp held).resolve_left fun new => (other i).2 (by rw [new])
  | close file =>
    unfold Devfs.exec at ran
    dsimp only at ran
    split at ran <;> cases ran
    · cases file with
      | ptmx j => exact kept closeMaster_slaveOpen fun _ held => List.mem_of_mem_erase held
      | pts j =>
        intro i held hung
        rw [HungUp, show slaveOpen (devfsClose s.pool (.pts j)) = _ from closeSlave_slaveOpen] at hung
        by_cases same : i = j
        · -- Nobody else had it open.
          subst same
          have none := List.count_erase_self (a := File.pts i) (l := s.handles)
          rw [show s.handles.count (.pts i) = 1 from careful] at none
          exact List.count_eq_zero.mp none held
        · rw [Function.update_of_ne same] at hung
          exact connected i (List.mem_of_mem_erase held) hung
      | dir => exact kept rfl fun _ held => List.mem_of_mem_erase held
      | ptsDir => exact kept rfl fun _ held => List.mem_of_mem_erase held
      | device => exact kept rfl fun _ held => List.mem_of_mem_erase held
    · exact connected
  | call i call =>
    cases ran
    exact kept (call_slaveOpen call) fun _ held => held
  | exit task =>
    cases ran
    exact kept (exit_slaveOpen task) fun _ held => held

/-- Whatever was done before, a lookup leaves the pairs as they were exactly if it does not come to the path of a slave that is open and unlocked, and opening and closing a slave hangs its pair up whoever else has it open; slaves stay connected in runs where neither is done to an open one. -/
theorem lookups_and_handles :
    (∀ s, Run (exec (β := β)) (fun _ _ => True) ptyInit s → ∀ (k : Kernel β) files sid (asked : Lookup),
      shown (asked.leaves k files sid s.pool) = shown s.pool ↔ asked.Quiet k files s.pool) ∧
    (∀ s, Run (exec (β := β)) Careful ptyInit s → s.Connected) ∧
    ∀ s, Run (exec (β := β)) (fun _ _ => True) ptyInit s → ∀ i sid relpath pool,
      devfsOpen s.pool sid relpath = (.ok (.pts i), pool) → HungUp (devfsClose pool (.pts i)) i := by
  refine ⟨fun s run k files sid asked => leaves_iff (run_sound run) sid asked, fun s run => ?_, ?_⟩
  · have both : Sound s.pool ∧ s.Connected := by
      refine @Run.invariant _ _ _ exec Careful (fun s => Sound s.pool ∧ s.Connected) ptyInit
        ⟨(fun _ _ used => by cases used), nofun⟩ ?_ s run
      exact fun ⟨sound, connected⟩ careful ran => ⟨sound.exec ran, connected.exec sound careful ran⟩
    exact both.2
  · intro s _ i sid relpath pool _
    rw [HungUp, show slaveOpen (devfsClose pool (.pts i)) = _ from closeSlave_slaveOpen]
    exact Function.update_self _ _ _

end

def firstPair : Fin ptyMax := ⟨0, by decide⟩

/-- A pair is made and unlocked, and its slave is opened. -/
def openSlave : List (Op (List CString)) :=
  [.open 0 ['/', 'p', 't', 'm', 'x'], .call firstPair (.setLocked false), .open 0 ['/', 'p', 't', 's', '/', '0']]

def devPts0 : Lookup := .lstat ['/', 'd', 'e', 'v', '/', 'p', 't', 's', '/', '0']

/-- Looking at the path of the slave hangs the pair up. -/
theorem lookup_hangsUp : ¬ ∀ s, Run (exec (β := List CString)) (fun _ _ => True) ptyInit s →
    ∀ (k : Kernel (List CString)) files sid (asked : Lookup), shown (asked.leaves k files sid s.pool) = shown s.pool := by
  intro claim
  have found : (runList exec (fun _ _ => True) ptyInit openSlave).any (fun s =>
      slaveOpen s.pool firstPair && !slaveOpen (devPts0.leaves Vfs.mounted [] 0 s.pool) firstPair) = true := by decide
  obtain ⟨s, run, seen⟩ := runList_any found
  rw [Bool.and_eq_true, Bool.not_eq_true'] at seen
  have same := congrFun (congrArg slaveOpen (claim s run Vfs.mounted [] 0 devPts0)) firstPair
  rw [slaveOpen_shown, slaveOpen_shown, seen.1, seen.2] at same
  cases same

end Enlil.Devfs
