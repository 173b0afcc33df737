import Enlil.Lib.Asks
import Enlil.Wld.Layout

/-! The requests of a client: how their arguments are read, and what they do. -/

namespace Enlil.Wld

/-- The requests that do something, with their arguments. -/
inductive Request where
  | getRegistry (regId : UInt32)
  | sync (cbId : UInt32)
  | bind (name newId : UInt32)
  | createSurface (newId : UInt32)
  | createPoolSysv (newId shmid size : UInt32)
  | createBuffer (newId offset width height stride format : UInt32)
  | poolDestroy
  | bufferDestroy
  | attach (bufId : UInt32)
  | frame (cbId : UInt32)
  | commit
  | surfaceDestroy
  | getXdgSurface (newId surfId : UInt32)
  | getToplevel (newId : UInt32)
  | setTitle (title : List UInt8)
  | setAppId (appId : List UInt8)
  | setLayout (mode : UInt32)
  | focusNext
  | focusPrev
  | closeFocused
  | getState
  | setFocusPolicy (policy : UInt32)
  | attachTerm (surfId : UInt32)
  | releaseTerm
  deriving DecidableEq

/-- Programs that read bytes of a payload. -/
abbrev Reads (α : Type) : Type := Asks Nat UInt8 α

/-- Reads a word of the payload. -/
def askU32 (off : Nat) : Reads UInt32 :=
  .ask off fun a => .ask (off + 1) fun b => .ask (off + 2) fun c => .ask (off + 3) fun d =>
    .done (inU32 [a, b, c, d] 0)

/-- Reads so many bytes of the payload. -/
def askBytes : Nat → Nat → Reads (List UInt8)
  | _, 0 => .done []
  | off, count + 1 => .ask off fun a => (askBytes (off + 1) count).bind fun rest => .done (a :: rest)

/-- Reads a string into a buffer of a length, and says how many bytes of the payload it takes; the string ends at its first NUL. -/
def parseStr (off : Nat) (avail cap : UInt32) : Reads (List UInt8 × UInt32) :=
  if avail < 4 then .done ([], 0)
  else
    (askU32 off).bind fun slen =>
      let plen := (slen + 3) &&& ~~~3
      if avail < 4 + plen then .done ([], 0)
      else
        let copy := if slen < cap then slen else cap - 1
        (askBytes (off + 4) copy.toNat).bind fun text => .done (text.takeWhile (· ≠ 0), 4 + plen)

/-- Reads the arguments of a request to an object of a type. -/
def readRequest (type : ObjType) (opcode payloadLen : UInt32) : Reads (Option Request) :=
  match type with
  | .display =>
    if opcode = 1 ∧ 4 ≤ payloadLen then (askU32 0).bind fun regId => .done (some (.getRegistry regId))
    else if opcode = 0 ∧ 4 ≤ payloadLen then (askU32 0).bind fun cbId => .done (some (.sync cbId))
    else .done none
  | .registry =>
    if opcode = 0 ∧ 12 ≤ payloadLen then
      (askU32 0).bind fun name =>
        (parseStr 4 (payloadLen - 4) 64).bind fun parsed =>
          if parsed.2 = 0 ∨ payloadLen < 4 + parsed.2 + 8 then .done none
          else (askU32 (4 + parsed.2.toNat + 4)).bind fun newId => .done (some (.bind name newId))
    else .done none
  | .compositor =>
    if opcode = 0 ∧ 4 ≤ payloadLen then (askU32 0).bind fun newId => .done (some (.createSurface newId))
    else .done none
  | .shm =>
    if opcode = 0 ∧ 12 ≤ payloadLen then
      (askU32 0).bind fun newId => (askU32 4).bind fun shmid => (askU32 8).bind fun size =>
        .done (some (.createPoolSysv newId shmid size))
    else .done none
  | .shmPool =>
    if opcode = 0 ∧ 24 ≤ payloadLen then
      (askU32 0).bind fun newId => (askU32 4).bind fun offset => (askU32 8).bind fun width =>
        (askU32 12).bind fun height => (askU32 16).bind fun stride => (askU32 20).bind fun format =>
          .done (some (.createBuffer newId offset width height stride format))
    else if opcode = 1 then .done (some .poolDestroy)
    else .done none
  | .buffer => .done (if opcode = 0 then some .bufferDestroy else none)
  | .surface =>
    if opcode = 1 ∧ 12 ≤ payloadLen then (askU32 0).bind fun bufId => .done (some (.attach bufId))
    else if opcode = 3 ∧ 4 ≤ payloadLen then (askU32 0).bind fun cbId => .done (some (.frame cbId))
    else if opcode = 6 then .done (some .commit)
    else if opcode = 0 then .done (some .surfaceDestroy)
    else .done none
  | .xdgWm =>
    if opcode = 2 ∧ 8 ≤ payloadLen then
      (askU32 0).bind fun newId => (askU32 4).bind fun surfId => .done (some (.getXdgSurface newId surfId))
    else .done none
  | .xdgSurf =>
    if opcode = 1 ∧ 4 ≤ payloadLen then (askU32 0).bind fun newId => .done (some (.getToplevel newId))
    else .done none
  | .xdgTop =>
    if opcode = 2 ∧ 4 ≤ payloadLen then
      (parseStr 0 payloadLen 64).bind fun parsed => .done (if 0 < parsed.2 then some (.setTitle parsed.1) else none)
    else if opcode = 3 ∧ 4 ≤ payloadLen then
      (parseStr 0 payloadLen 32).bind fun parsed => .done (if 0 < parsed.2 then some (.setAppId parsed.1) else none)
    else .done none
  | .enlilWm =>
    if opcode = 0 ∧ 4 ≤ payloadLen then (askU32 0).bind fun mode => .done (some (.setLayout mode))
    else if opcode = 1 then .done (some .focusNext)
    else if opcode = 2 then .done (some .focusPrev)
    else if opcode = 3 then .done (some .closeFocused)
    else if opcode = 4 then .done (some .getState)
    else if opcode = 5 ∧ 4 ≤ payloadLen then (askU32 0).bind fun policy => .done (some (.setFocusPolicy policy))
    else .done none
  | .enlilTerm =>
    if opcode = 0 ∧ 4 ≤ payloadLen then (askU32 0).bind fun surfId => .done (some (.attachTerm surfId))
    else if opcode = 1 then .done (some .releaseTerm)
    else .done none
  | .callback | .seat | .output | .pointer => .done none

/-- What a request finds outside of the compositor: the segment that is attached, if any, and the time. -/
structure Surroundings where
  attached : Option Mapping
  timeMs : UInt32

/-- A callback that is done at once. -/
def handleSync (w : Compositor) (ci : Nat) (around : Surroundings) (cbId : UInt32) : Compositor :=
  (w.alloc ci cbId .callback 0).send ci (.callbackDone cbId around.timeMs)

def handleBind (w : Compositor) (ci : Nat) (name newId : UInt32) : Compositor :=
  if name = 1 then w.alloc ci newId .compositor 0
  else if name = 2 then (w.alloc ci newId .shm 0).send ci (.shmFormats newId)
  else if name = 3 then w.alloc ci newId .xdgWm 0
  else if name = 4 then (w.alloc ci newId .seat 0).send ci (.seatCaps newId)
  else if name = 5 then (w.alloc ci newId .output 0).send ci (.outputInfo newId w.displayW w.displayH)
  else if name = 6 then wldSendWmState (w.alloc ci newId .enlilWm 0) ci newId
  else if name = 7 then w.alloc ci newId .enlilTerm 0
  else if name = 8 then
    let w := w.alloc ci newId .pointer 0
    w.setClient ci { w.clients ci with pointerObjId := newId }
  else w

def handleCreateSurface (w : Compositor) (ci : Nat) (newId : UInt32) : Compositor :=
  let si := surfAlloc w
  if si = noSlot then w
  else
    (w.setSurf si
      { WSurf.zero with
        alive := true, clientIdx := ci, surfaceObj := newId, pendingBuf := noSlot, currentBuf := noSlot,
        viewW := 320, viewH := 220, fadeTicks := 8 }).alloc ci newId .surface si

def handleCreatePool (w : Compositor) (ci : Nat) (around : Surroundings) (newId shmid size : UInt32) : Compositor :=
  let pi := poolAlloc w
  if pi = noSlot then w
  else
    match around.attached with
    | none => w
    | some ptr => (w.setPool pi ⟨some ptr, shmid, size, true⟩).alloc ci newId .shmPool pi

def handleCreateBuffer (w : Compositor) (ci pi : Nat) (newId offset width height stride format : UInt32) : Compositor :=
  let bi := bufAlloc w
  if bi = noSlot then w
  else (w.setBuf bi ⟨pi, offset, width, height, stride, format, true⟩).alloc ci newId .buffer bi

def handlePoolDestroy (w : Compositor) (ci place pi : Nat) : Compositor :=
  let w :=
    if pi < maxPools ∧ (w.pools pi).alive then w.setPool pi { w.pools pi with ptr := none, alive := false } else w
  w.setClient ci ((w.clients ci).kill place)

def handleBufferDestroy (w : Compositor) (ci place bi : Nat) : Compositor :=
  let w := if bi < maxBuffers then w.setBuf bi { w.buffers bi with alive := false } else w
  w.setClient ci ((w.clients ci).kill place)

/-- The slot of an object with an id, if the object is of a type. -/
def slotOf (c : WClient) (id : UInt32) (type : ObjType) : Option Nat :=
  match wobjFind c id with
  | none => none
  | some place => if c.typeAt place = some type then some (c.extraAt place) else none

def handleAttach (w : Compositor) (ci si : Nat) (bufId : UInt32) : Compositor :=
  if si < maxSurfaces then
    w.setSurf si { w.surfs si with pendingBuf := (slotOf (w.clients ci) bufId .buffer).getD noSlot }
  else w

def handleFrame (w : Compositor) (ci si : Nat) (cbId : UInt32) : Compositor :=
  if si < maxSurfaces then
    let w := w.alloc ci cbId .callback 0
    w.setSurf si { w.surfs si with frameCbId := cbId }
  else w

/-- A surface takes the focus if no surface that is shown has it. -/
def focusIfNone (w : Compositor) (si : Nat) : Compositor :=
  if decide (maxSurfaces ≤ w.focusIdx) || !wsurfIsViewable w (w.surfs w.focusIdx) then { w with focusIdx := si } else w

/-- A surface is configured. -/
def configure (w : Compositor) (ci si : Nat) : Compositor :=
  let w := w.setSurf si { w.surfs si with configured := true }
  sendConfigure w ci (w.surfs si)

def handleCommit (w : Compositor) (ci si : Nat) : Compositor :=
  if si < maxSurfaces then
    let w := w.setSurf si
      { w.surfs si with currentBuf := (w.surfs si).pendingBuf, closing := false, closeSent := false, fadeTicks := 8 }
    let w := wldRelayout (focusIfNone w si) true
    if (w.surfs si).xdgSurfObj ≠ 0 ∧ !(w.surfs si).configured then configure w ci si else w
  else w

def handleSurfaceDestroy (w : Compositor) (ci place si : Nat) : Compositor :=
  if si < maxSurfaces then
    let c := w.clients ci
    let c := if c.termSurfaceObj = (w.surfs si).surfaceObj then { c with termSurfaceObj := 0 } else c
    let w := if w.dragActive ∧ w.dragIdx = si then { w with dragActive := false, dragIdx := noSlot } else w
    let w := w.setSurf si { w.surfs si with alive := false }
    wldRelayout (w.setClient ci (c.kill place)) true
  else w

def handleGetXdgSurface (w : Compositor) (ci : Nat) (newId surfId : UInt32) : Compositor :=
  match slotOf (w.clients ci) surfId .surface with
  | none => w
  | some si =>
    if maxObjs ≤ (w.clients ci).objs.length then w
    else
      let w := w.alloc ci newId .xdgSurf si
      if si < maxSurfaces then w.setSurf si { w.surfs si with xdgSurfObj := newId } else w

def handleGetToplevel (w : Compositor) (ci si : Nat) (newId : UInt32) : Compositor :=
  let w := w.alloc ci newId .xdgTop si
  if si < maxSurfaces then
    let w := w.setSurf si { w.surfs si with xdgTopObj := newId }
    if !(w.surfs si).configured then configure w ci si else w
  else w

def handleSetTitle (w : Compositor) (si : Nat) (title : List UInt8) : Compositor :=
  if si < maxSurfaces then w.setSurf si { w.surfs si with title := title } else w

/-- A surface floats, or does not, from now on; if it is shown, everything is placed anew. -/
def refloat (w : Compositor) (si : Nat) (floating : Bool) : Compositor :=
  let w := w.setSurf si { w.surfs si with floating := floating, placed := false }
  if wsurfIsViewable w (w.surfs si) then wldRelayout w true else w

/-- The dock, the finder and the hello window are placed in their own ways. -/
def handleSetAppId (w : Compositor) (si : Nat) (appId : List UInt8) : Compositor :=
  if si < maxSurfaces then
    let w := w.setSurf si { w.surfs si with appId := appId }
    if wldIsHelloSurface (w.surfs si) || wldIsFinderSurface (w.surfs si) then refloat w si true
    else if wldIsDockSurface (w.surfs si) then refloat w si false
    else w
  else w

def handleSetLayout (w : Compositor) (ci : Nat) (objId mode : UInt32) : Compositor :=
  let w := if mode = 1 then { w with layoutMode := mode } else w
  wldSendWmState (wldRelayout w true) ci objId

def handleAttachTerm (w : Compositor) (ci : Nat) (objId surfId : UInt32) : Compositor :=
  match slotOf (w.clients ci) surfId .surface with
  | none => w
  | some _ => w.setClient ci { w.clients ci with termObjId := objId, termSurfaceObj := surfId }

/-- Does what a request to the object at a place asks for. -/
def handle (w : Compositor) (ci : Nat) (objId : UInt32) (place : Nat) (around : Surroundings) :
    Request → Compositor
  | .getRegistry regId => (w.alloc ci regId .registry 0).send ci (.globals regId)
  | .sync cbId => handleSync w ci around cbId
  | .bind name newId => handleBind w ci name newId
  | .createSurface newId => handleCreateSurface w ci newId
  | .createPoolSysv newId shmid size => handleCreatePool w ci around newId shmid size
  | .createBuffer newId offset width height stride format =>
    handleCreateBuffer w ci ((w.clients ci).extraAt place) newId offset width height stride format
  | .poolDestroy => handlePoolDestroy w ci place ((w.clients ci).extraAt place)
  | .bufferDestroy => handleBufferDestroy w ci place ((w.clients ci).extraAt place)
  | .attach bufId => handleAttach w ci ((w.clients ci).extraAt place) bufId
  | .frame cbId => handleFrame w ci ((w.clients ci).extraAt place) cbId
  | .commit => handleCommit w ci ((w.clients ci).extraAt place)
  | .surfaceDestroy => handleSurfaceDestroy w ci place ((w.clients ci).extraAt place)
  | .getXdgSurface newId surfId => handleGetXdgSurface w ci newId surfId
  | .getToplevel newId => handleGetToplevel w ci ((w.clients ci).extraAt place) newId
  | .setTitle title => handleSetTitle w ((w.clients ci).extraAt place) title
  | .setAppId appId => handleSetAppId w ((w.clients ci).extraAt place) appId
  | .setLayout mode => handleSetLayout w ci objId mode
  | .focusNext => wldSendWmState (wldFocusRotate w true) ci objId
  | .focusPrev => wldSendWmState (wldFocusRotate w false) ci objId
  | .closeFocused => wldSendWmState (wldRequestCloseFocused w) ci objId
  | .getState => wldSendWmState w ci objId
  | .setFocusPolicy policy => wldSendWmState { w with focusFollowPointer := policy = 1 } ci objId
  | .attachTerm surfId => handleAttachTerm w ci objId surfId
  | .releaseTerm => w.setClient ci { w.clients ci with termObjId := 0, termSurfaceObj := 0 }

/-- The type of the object that a message is for; the display needs no lookup. -/
def targetType (c : WClient) (objId : UInt32) : Option ObjType :=
  if objId = 1 then some .display
  else
    match wobjFind c objId with
    | none => none
    | some place => if c.typeAt place = some .display then none else c.typeAt place

/-- Dispatches a request, whose payload lies in memory at the places from zero on. -/
def dispatchMsg (w : Compositor) (ci : Nat) (objId opcode : UInt32) (payload : Nat → UInt8) (payloadLen : UInt32)
    (around : Surroundings) : Compositor :=
  match targetType (w.clients ci) objId with
  | none => w
  | some type =>
    match (readRequest type opcode payloadLen).result payload with
    | none => w
    | some request => handle w ci objId ((wobjFind (w.clients ci) objId).getD 0) around request

/-- The request that a message of a client stands for. -/
def requestOf (c : WClient) (objId opcode : UInt32) (payload : Nat → UInt8) (payloadLen : UInt32) : Option Request :=
  (targetType c objId).bind fun type => (readRequest type opcode payloadLen).result payload

/-- The slot of the object that a message is for. -/
def slotFor (c : WClient) (objId : UInt32) : Nat := c.extraAt ((wobjFind c objId).getD 0)

theorem dispatchMsg_eq (w : Compositor) (ci : Nat) (objId opcode : UInt32) (payload : Nat → UInt8) (payloadLen : UInt32)
    (around : Surroundings) : dispatchMsg w ci objId opcode payload payloadLen around =
      match requestOf (w.clients ci) objId opcode payload payloadLen with
      | none => w
      | some request => handle w ci objId ((wobjFind (w.clients ci) objId).getD 0) around request := by
  unfold dispatchMsg requestOf
  cases targetType (w.clients ci) objId with
  | none => rfl
  | some type => rfl

end Enlil.Wld
