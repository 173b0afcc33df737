import Enlil.Lib.Run

/-! Epoll sets of `kernel/syscall.c`: their interests, what a scan does to each of them, and the calls that change them. -/

namespace Enlil.Fd

/-- The number of descriptors of a process, and of interests of a set. -/
def maxFd : Nat := 64
def epollInterestMax : Nat := maxFd
def epollSetMax : Nat := 16

def linuxPollin : UInt32 := 0x0001
def linuxPollpri : UInt32 := 0x0002
def linuxPollout : UInt32 := 0x0004
def linuxPollerr : UInt32 := 0x0008
def linuxPollhup : UInt32 := 0x0010
def linuxPollnval : UInt32 := 0x0020
def linuxEpollrdhup : UInt32 := 0x2000
def linuxEpollet : UInt32 := 0x80000000

/-- The error codes of the calls on descriptors. -/
inductive Errno where
  | enoent
  | eintr
  | ebadf
  | eagain
  | enomem
  | eacces
  | efault
  | ebusy
  | eexist
  | einval
  | enfile
  | emfile
  | enospc
  | epipe
  deriving DecidableEq, Repr

/-- What a set remembers about a descriptor; the object is known by its place in the pool, and for the proofs also by its number among all objects made. -/
structure Interest where
  inUse : Bool
  edgeTriggered : Bool
  fd : Nat
  events : UInt32
  lastReady : Bool
  data : UInt64
  obj : Nat
  birth : Nat

/-- An interest after it was cleared. -/
def Interest.zero : Interest := ⟨false, false, 0, 0, false, 0, 0, 0⟩

structure EpollSet where
  inUse : Bool
  interests : Nat → Interest

/-- A set after it was cleared. -/
def EpollSet.zero : EpollSet := ⟨false, fun _ => .zero⟩

/-- An event as it is given to the caller. -/
structure EpollEvent where
  events : UInt32
  data : UInt64
  deriving DecidableEq

/-- The slot of the interest in a descriptor. -/
def epollFindInterest (set : EpollSet) (fd : Nat) : Option Nat :=
  (List.range epollInterestMax).find? fun i => (set.interests i).inUse && (set.interests i).fd == fd

/-- The slot of a new interest. -/
def epollAllocInterest (set : EpollSet) : Option Nat :=
  (List.range epollInterestMax).find? fun i => !(set.interests i).inUse

/-- The place of a new set. -/
def epollSetAlloc (sets : Nat → EpollSet) : Option Nat := (List.range epollSetMax).find? fun i => !(sets i).inUse

def EpollSet.put (set : EpollSet) (slot : Nat) (interest : Interest) : EpollSet :=
  { set with interests := Function.update set.interests slot interest }

@[simp] theorem EpollSet.put_self (set : EpollSet) (slot : Nat) (interest : Interest) :
    (set.put slot interest).interests slot = interest := Function.update_self ..

@[simp] theorem EpollSet.put_of_ne (set : EpollSet) {slot other : Nat} (interest : Interest) (differ : other ≠ slot) :
    (set.put slot interest).interests other = set.interests other := Function.update_of_ne differ ..

/-- The commands of a call that changes a set. -/
inductive EpollOp where
  | add
  | mod
  | del
  | other
  deriving DecidableEq

/-- The flags that an interest may ask for. -/
def epollSupported : UInt32 :=
  linuxPollin ||| linuxPollpri ||| linuxPollout ||| linuxPollerr ||| linuxPollhup ||| linuxEpollrdhup ||| linuxEpollet

/-- The interest that a call asks for. -/
def Interest.asked (fd target birth : Nat) (ev : EpollEvent) : Interest :=
  ⟨true, ev.events &&& linuxEpollet != 0, fd, ev.events, false, ev.data, target, birth⟩

/-- Changes a set, once the descriptors and the event of the call are known. -/
def epollCtl (set : EpollSet) (op : EpollOp) (fd target birth : Nat) (ev : EpollEvent) : Except Errno EpollSet :=
  match op, epollFindInterest set fd with
  | .add, some _ => .error .eexist
  | .add, none =>
    match epollAllocInterest set with
    | none => .error .enospc
    | some slot => .ok (set.put slot (.asked fd target birth ev))
  | .mod, none => .error .enoent
  | .mod, some slot => .ok (set.put slot (.asked fd target birth ev))
  | .del, none => .error .enoent
  | .del, some slot => .ok (set.put slot .zero)
  | .other, _ => .error .einval

/-- What a scan has found so far: the number of interests to report, and the events that are stored for the caller. -/
structure Scan where
  ready : Nat
  events : List EpollEvent

/-- A scan comes to an interest in use that shows the given events. -/
def scanInterest (it : Interest) (revents : UInt16) (maxevents : Nat) (consume : Bool) (scan : Scan) : Interest × Scan :=
  let currentNonzero := revents != 0
  let consumed : Interest := { it with lastReady := currentNonzero }
  if it.edgeTriggered && (!currentNonzero || it.lastReady) then (if consume then consumed else it, scan)
  else if !it.edgeTriggered && revents == 0 then (if consume then { it with lastReady := false } else it, scan)
  else
    (if consume then consumed else it,
      { ready := scan.ready + 1
        events := if scan.ready < maxevents then scan.events ++ [⟨revents.toUInt32, it.data⟩] else scan.events })

section

variable {set set' : EpollSet} {fd target birth slot : Nat} {ev : EpollEvent} {op : EpollOp} {sets : Nat → EpollSet}
  {it : Interest} {revents : UInt16} {maxevents : Nat} {consume : Bool} {scan : Scan}

theorem epollFindInterest_spec (found : epollFindInterest set fd = some slot) :
    slot < epollInterestMax ∧ (set.interests slot).inUse = true ∧ (set.interests slot).fd = fd := by
  have member := List.mem_of_find?_eq_some found
  have test := List.find?_some found
  simp only [Bool.and_eq_true, beq_iff_eq] at test
  exact ⟨List.mem_range.mp member, test⟩

theorem epollSetAlloc_spec {place : Nat} (found : epollSetAlloc sets = some place) : (sets place).inUse = false := by
  simpa using List.find?_some found

theorem epollCtl_spec (changed : epollCtl set op fd target birth ev = .ok set') :
    ∃ slot interest, set' = set.put slot interest ∧
      (interest = .zero ∨ (op ≠ .del ∧ slot < epollInterestMax ∧ interest = .asked fd target birth ev)) := by
  unfold epollCtl at changed
  split at changed
  · cases changed
  · split at changed
    · cases changed
    · rename_i slot free
      cases changed
      exact ⟨slot, _, rfl, .inr ⟨nofun, List.mem_range.mp (List.mem_of_find?_eq_some free), rfl⟩⟩
  · cases changed
  · rename_i slot found
    cases changed
    exact ⟨slot, _, rfl, .inr ⟨nofun, (epollFindInterest_spec found).1, rfl⟩⟩
  · cases changed
  · cases changed
    exact ⟨_, _, rfl, .inl rfl⟩
  · cases changed

/-- An interest is reported if it shows something, and was not seen to do so before if it is edge-triggered. -/
def Interest.reports (it : Interest) (revents : UInt16) : Bool := revents != 0 && !(it.edgeTriggered && it.lastReady)

theorem scanInterest_consume :
    scanInterest it revents maxevents true scan =
      ({ it with lastReady := revents != 0 },
        if it.reports revents then
          { ready := scan.ready + 1
            events := if scan.ready < maxevents then scan.events ++ [⟨revents.toUInt32, it.data⟩] else scan.events }
        else scan) := by
  unfold scanInterest Interest.reports
  dsimp only
  cases edge : it.edgeTriggered <;> cases seen : it.lastReady <;> by_cases shown : revents = 0 <;> simp [shown]

end

end Enlil.Fd
