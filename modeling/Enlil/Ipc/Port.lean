import Enlil.Sched.Turns

/-! Synchronous calls through ports, as `kernel/microkernel.c` makes them over the scheduler. -/

namespace Enlil.Ipc

/-- Number of ports. -/
def maxPorts : Nat := 128

/-- Size of the payload of a message. -/
def ipcMsgMaxSize : Nat := 256

/-- Size up to which a payload counts as inline. -/
def ipcSmallMsgMax : Nat := 64

/-- The errors the calls return. -/
inductive Errno where
  | enoent
  | einval
  | eperm
  | ebusy
  | eagain
  deriving DecidableEq, Repr

/-- A message, whose length is that of its payload. -/
structure Message where
  senderTid : Nat
  receiverTid : Nat
  msgType : UInt32
  isInline : Bool
  payload : List UInt8
  deriving DecidableEq, Repr

/-- Makes a message; what does not fit is cut off. -/
def buildMsg (senderTid receiverTid : Nat) (msgType : UInt32) (data : List UInt8) : Message where
  senderTid := senderTid
  receiverTid := receiverTid
  msgType := msgType
  isInline := (data.take ipcMsgMaxSize).length ≤ ipcSmallMsgMax
  payload := data.take ipcMsgMaxSize

/--
A port; a thread id that is zero stands for none.

The last three fields follow the requests: the one accepted last, the one received last, and the one that was received
last when the reply was made.
-/
structure Port where
  portId : UInt32
  ownerTid : Nat
  active : Bool
  latencyBudgetCycles : UInt64
  lastCallCycles : UInt64
  worstCallCycles : UInt64
  totalCalls : UInt32
  budgetMisses : UInt32
  inlineCalls : UInt32
  waitingTid : Nat
  activeClientTid : Nat
  activeStartCycles : UInt64
  pendingValid : Bool
  replyValid : Bool
  pendingMsg : Message
  replyMsg : Message
  request : Nat
  served : Option Nat
  answers : Option Nat

/-- Where a task is in its call, between two sections or steps outside of them. -/
inductive Place where
  | idle
  | calling (slot owner : Nat) (msg : Message)
  | donating (slot owner : Nat) (wakes : Bool) (request : Nat)
  | waking (slot owner request : Nat)
  | blocking (slot request : Nat)
  | collecting (slot request : Nat)
  | receiving (slot : Nat) (waits : Bool)
  | resting (slot : Nat)
  | fetching (slot : Nat)
  | replying (slot : Nat) (msgType : UInt32) (data : List UInt8)
  | clearing (slot client : Nat)
  | rousing (client : Nat)
  deriving DecidableEq

/-- The port and the number of the request that a task waits for the reply to. -/
def Place.request : Place → Option (Nat × Nat)
  | .donating slot _ _ request | .waking slot _ request | .blocking slot request | .collecting slot request =>
    some (slot, request)
  | .idle | .calling .. | .receiving .. | .resting _ | .fetching _ | .replying .. | .clearing .. | .rousing _ => none

/-- A call that has just returned; an accepted request has a number, and its reply was made for some request. -/
structure Return where
  task : Nat
  request : Option Nat
  result : Except Errno (Option Message)
  answers : Option Nat

/--
The static data of the ports, the scheduler and where each task is in its call.

The requests are numbered as they are accepted, and it is counted how often each is received.
-/
structure State where
  sched : Sched.State
  ports : Nat → Port
  nextPortId : UInt32
  cntfrq : UInt64
  place : Nat → Place
  requests : Nat
  received : Nat → Nat
  returned : Option Return

/-- The ways in which a step does not come to an end. -/
inductive Halt where
  | sched (halt : Sched.Halt)
  | elsewhere
  deriving DecidableEq

def State.setPort (k : State) (slot : Nat) (change : Port → Port) : State :=
  { k with ports := Function.update k.ports slot (change (k.ports slot)) }

def State.go (k : State) (t : Nat) (place : Place) : State := { k with place := Function.update k.place t place }

/-- A call returns. -/
def State.returns (k : State) (t : Nat) (request : Option Nat) (result : Except Errno (Option Message))
    (answers : Option Nat) : State :=
  { k.go t .idle with returned := some ⟨t, request, result, answers⟩ }

/-- A call returns that is not an accepted request. -/
def State.ends (k : State) (t : Nat) (result : Except Errno (Option Message)) : State := k.returns t none result none

def portById (k : State) (id : UInt32) : Option Nat :=
  (List.range maxPorts).find? fun slot => (k.ports slot).active && (k.ports slot).portId = id

/-- The thread id of the current task. -/
def currentTid (k : State) : Nat := (k.sched.tcb k.sched.current).pid

/-- Creates a port for an owner in the first free slot. -/
def portCreate (k : State) (ownerTid : Nat) : State :=
  match (List.range maxPorts).find? fun slot => !(k.ports slot).active with
  | none => k
  | some slot =>
    { k.setPort slot fun port =>
        { port with
          portId := k.nextPortId
          ownerTid := ownerTid
          active := true
          latencyBudgetCycles := k.cntfrq / 100
          lastCallCycles := 0
          worstCallCycles := 0
          totalCalls := 0
          budgetMisses := 0
          inlineCalls := 0
          waitingTid := 0
          activeClientTid := 0
          activeStartCycles := 0
          pendingValid := false
          replyValid := false } with
      nextPortId := k.nextPortId + 1 }

/-- A port that nobody uses. -/
def Port.unused (port : Port) : Bool :=
  port.activeClientTid = 0 && !port.pendingValid && !port.replyValid && port.waitingTid = 0

def portDestroy (k : State) (id : UInt32) : State :=
  match portById k id with
  | none => k
  | some slot => if (k.ports slot).unused then k.setPort slot fun port => { port with active := false } else k

/-- Gives a port to another owner. -/
def portRebind (k : State) (id : UInt32) (ownerTid : Nat) : State :=
  match portById k id with
  | none => k
  | some slot => if (k.ports slot).unused then k.setPort slot fun port => { port with ownerTid := ownerTid } else k

/-- A call of the current task up to its first section. -/
def ipcCall (k : State) (id : UInt32) (msgType : UInt32) (data : List UInt8) : State :=
  let t := k.sched.current
  match portById k id with
  | none => k.ends t (.error .enoent)
  | some slot =>
    let ownerTid := (k.ports slot).ownerTid
    if currentTid k = 0 ∨ currentTid k = ownerTid then k.ends t (.error .einval)
    else
      match Sched.schedTaskFind k.sched ownerTid with
      | none => k.ends t (.error .enoent)
      | some owner => k.go t (.calling slot owner (buildMsg (currentTid k) ownerTid msgType data))

/-- A call that only the owner of a port may make, up to its first section. -/
def asOwner (k : State) (id : UInt32) (place : Nat → Place) : State :=
  let t := k.sched.current
  match portById k id with
  | none => k.ends t (.error .enoent)
  | some slot => if currentTid k ≠ (k.ports slot).ownerTid then k.ends t (.error .eperm) else k.go t (place slot)

def ipcWait (k : State) (id : UInt32) : State := asOwner k id (.receiving · true)

def ipcPoll (k : State) (id : UInt32) : State := asOwner k id (.receiving · false)

def ipcReply (k : State) (id : UInt32) (msgType : UInt32) (data : List UInt8) : State :=
  asOwner k id (.replying · msgType data)

/-- The section in which a request is accepted, unless the port is in use. -/
def accept (k : State) (slot owner : Nat) (msg : Message) (now : UInt64) : State :=
  let t := k.sched.current
  let port := k.ports slot
  if port.activeClientTid ≠ 0 ∨ port.pendingValid ∨ port.replyValid then k.ends t (.error .ebusy)
  else
    let k' := k.setPort slot fun port =>
      { port with
        activeClientTid := currentTid k
        activeStartCycles := now
        inlineCalls := if msg.isInline then port.inlineCalls + 1 else port.inlineCalls
        pendingMsg := msg
        pendingValid := true
        waitingTid := 0
        request := k.requests }
    { k' with requests := k.requests + 1 }.go t (.donating slot owner (port.waitingTid ≠ 0) k.requests)

/-- The section in which a client takes the reply, if there is one for it. -/
def collect (k : State) (slot request : Nat) : State :=
  let t := k.sched.current
  let port := k.ports slot
  if port.activeClientTid ≠ currentTid k ∨ !port.replyValid then k.returns t (some request) (.error .eagain) none
  else
    (k.setPort slot fun port => { port with activeClientTid := 0, activeStartCycles := 0, replyValid := false }).returns t
      (some request) (.ok (some port.replyMsg)) port.answers

/-- The server takes the pending request. -/
def receive (k : State) (slot : Nat) : State :=
  let port := k.ports slot
  let k' := k.setPort slot fun port => { port with pendingValid := false, served := some port.request }
  { k' with received := Function.update k.received port.request (k.received port.request + 1) }.ends k.sched.current
    (.ok (some port.pendingMsg))

/-- The first section of a server that waits for a request or asks for one. -/
def firstLook (k : State) (slot : Nat) (waits : Bool) : State :=
  let t := k.sched.current
  let port := k.ports slot
  if port.activeClientTid ≠ 0 ∧ !port.pendingValid then k.ends t (.error .ebusy)
  else if port.pendingValid then receive k slot
  else if waits then (k.setPort slot fun port => { port with waitingTid := currentTid k }).go t (.resting slot)
  else k.ends t (.error .eagain)

/-- The section in which a server that has waited looks again. -/
def secondLook (k : State) (slot : Nat) : State :=
  if (k.ports slot).pendingValid then receive k slot else k.ends k.sched.current (.error .eagain)

/-- The section in which a reply is made, if there is a client without one. -/
def answer (k : State) (slot : Nat) (msgType : UInt32) (data : List UInt8) (now : UInt64) : State :=
  let t := k.sched.current
  let port := k.ports slot
  if port.activeClientTid = 0 ∨ port.replyValid then k.ends t (.error .eagain)
  else
    let elapsed := now - port.activeStartCycles
    (k.setPort slot fun port =>
      { port with
        replyMsg := buildMsg (currentTid k) port.activeClientTid msgType data
        replyValid := true
        lastCallCycles := elapsed
        worstCallCycles := if elapsed > port.worstCallCycles then elapsed else port.worstCallCycles
        totalCalls := port.totalCalls + 1
        budgetMisses := if port.latencyBudgetCycles ≠ 0 ∧ elapsed > port.latencyBudgetCycles then port.budgetMisses + 1
          else port.budgetMisses
        answers := port.served }).go t (.clearing slot port.activeClientTid)

/-- A step of the scheduler on the way of the current task, which goes on to another place. -/
def State.then (k : State) (sched : Sched.State) (place : Place) : State :=
  { k with sched := sched }.go k.sched.current place

/-- The current task blocks. -/
def blockAt (k : State) (place : Place) : Except Halt State :=
  match Sched.schedBlock k.sched with
  | some sched => .ok (k.then sched place)
  | none => .error (.sched .spin)

/-- The next section or step of the current task on the way of its call. -/
def advance (k : State) (now : UInt64) : Except Halt State :=
  let s := k.sched
  match k.place s.current with
  | .idle => .error .elsewhere
  | .calling slot owner msg => .ok (accept k slot owner msg now)
  | .donating slot owner wakes request =>
    .ok (k.then (Sched.schedTaskDonatePriority s owner (s.effPrio s.current))
      (if wakes then .waking slot owner request else .blocking slot request))
  | .waking slot owner request => .ok (k.then (Sched.schedUnblock s owner) (.blocking slot request))
  | .blocking slot request => blockAt k (.collecting slot request)
  | .collecting slot request => .ok (collect k slot request)
  | .receiving slot waits => .ok (firstLook k slot waits)
  | .resting slot => blockAt k (.fetching slot)
  | .fetching slot => .ok (secondLook k slot)
  | .replying slot msgType data => .ok (answer k slot msgType data now)
  | .clearing slot client =>
    .ok (k.then (match Sched.schedTaskFind s (k.ports slot).ownerTid with
      | some owner => Sched.schedTaskClearDonation s owner
      | none => s) (.rousing client))
  | .rousing client =>
    .ok ({ k with
      sched := match Sched.schedTaskFind s client with
        | some t => Sched.schedUnblock s t
        | none => s }.ends s.current (.ok none))

/-- A step of the current task, or a step of the scheduler. -/
inductive Op where
  | create (ownerTid : Nat)
  | destroy (id : UInt32)
  | rebind (id : UInt32) (ownerTid : Nat)
  | call (id msgType : UInt32) (data : List UInt8)
  | wait (id : UInt32)
  | poll (id : UInt32)
  | reply (id msgType : UInt32) (data : List UInt8)
  | advance (now : UInt64)
  | turn (op : Sched.Op)

/-- The current task has not ended. -/
def Alive (k : State) : Prop := (k.sched.tcb k.sched.current).state ≠ .zombie

instance (k : State) : Decidable (Alive k) := inferInstanceAs (Decidable (_ ≠ _))

/-- A call that the current task makes when it is in no other. -/
def fromIdle (k : State) (k' : State) : Except Halt State :=
  if Alive k ∧ k.place k.sched.current = .idle then .ok k' else .error .elsewhere

/-- The steps of the scheduler by which the current task stops to run of its own accord. -/
def stopsItself : Sched.Op → Bool
  | .block | .stop => true
  | _ => false

/-- A step of the scheduler; only a task that is in no call here blocks or stops by itself. -/
def turn (k : State) (op : Sched.Op) : Except Halt State :=
  match Sched.exec k.sched op with
  | .error halt => .error (.sched halt)
  | .ok sched => if stopsItself op then fromIdle k { k with sched := sched } else .ok { k with sched := sched }

/-- Takes one step. -/
def perform (k : State) : Op → Except Halt State
  | .create ownerTid => fromIdle k (portCreate k ownerTid)
  | .destroy id => fromIdle k (portDestroy k id)
  | .rebind id ownerTid => fromIdle k (portRebind k id ownerTid)
  | .call id msgType data => fromIdle k (ipcCall k id msgType data)
  | .wait id => fromIdle k (ipcWait k id)
  | .poll id => fromIdle k (ipcPoll k id)
  | .reply id msgType data => fromIdle k (ipcReply k id msgType data)
  | .advance now => if Alive k then advance k now else .error .elsewhere
  | .turn op => turn k op

/-- Takes one step, after which at most its own return is the last one. -/
def exec (k : State) (op : Op) : Except Halt State := perform { k with returned := none } op

/-- A port before its first use. -/
def Port.clear : Port where
  portId := 0
  ownerTid := 0
  active := false
  latencyBudgetCycles := 0
  lastCallCycles := 0
  worstCallCycles := 0
  totalCalls := 0
  budgetMisses := 0
  inlineCalls := 0
  waitingTid := 0
  activeClientTid := 0
  activeStartCycles := 0
  pendingValid := false
  replyValid := false
  pendingMsg := ⟨0, 0, 0, false, []⟩
  replyMsg := ⟨0, 0, 0, false, []⟩
  request := 0
  served := none
  answers := none

/-- No port is there yet. -/
def noPorts (cntfrq : UInt64) : State where
  sched := Sched.schedInit
  ports := fun _ => Port.clear
  nextPortId := 1
  cntfrq := cntfrq
  place := fun _ => .idle
  requests := 0
  received := fun _ => 0
  returned := none

/-- The six ports of the system servers, which nobody owns yet. -/
def mkInit (cntfrq : UInt64) : State := (List.replicate 6 0).foldl portCreate (noPorts cntfrq)

end Enlil.Ipc
