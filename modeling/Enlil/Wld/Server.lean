import Enlil.Wld.Layout
import Enlil.Wld.Composite
import Enlil.Lib.Run

/-! What the keyboard and the mouse do to the surfaces. -/

namespace Enlil.Wld

/-- The client whose terminal has the focus. -/
def wldFocusedTermClient (w : Compositor) : Option Nat :=
  if maxSurfaces ≤ w.focusIdx then none
  else
    let surf := w.surfs w.focusIdx
    if !wsurfIsViewable w surf || maxClients ≤ surf.clientIdx then none
    else
      let c := w.clients surf.clientIdx
      if !c.alive || c.termObjId == 0 || c.termSurfaceObj != surf.surfaceObj then none else some surf.clientIdx

/-- What a pressed key asks for. -/
inductive KeyAction where
  | closeFocused
  | focusRotate (forward : Bool)
  | text (bytes : List UInt8)
  | other

/-- Does what a key asks for: text goes to the focused terminal. -/
def wldHandleKey (w : Compositor) : KeyAction → Compositor
  | .closeFocused => wldRequestCloseFocused w
  | .focusRotate forward => wldFocusRotate w forward
  | .text bytes =>
    let w := wldFocusSanitize w
    match wldFocusedTermClient w with
    | none => w
    | some ci => if bytes.length = 0 then w else w.send ci (.termInput (w.clients ci).termObjId bytes)
  | .other => w

/-- An event of the mouse. -/
structure MouseEvent where
  absolute : Bool
  move : Bool
  dx : Int
  dy : Int
  x : UInt32
  y : UInt32
  buttons : UInt32

/-- The left button is down. -/
def leftDown (buttons : UInt32) : Bool := buttons &&& 1 != 0

/-- A place is in a rectangle. -/
def inside (px py x y : Int) (w h : Int) : Bool :=
  decide (x ≤ px) && decide (px < x + w) && decide (y ≤ py) && decide (py < y + h)

def wldHitTestSurface (w : Compositor) (px py : Int) : Nat :=
  let hits (i : Nat) : Bool :=
    wsurfIsViewable w (w.surfs i) &&
      inside px py (w.surfs i).x (w.surfs i).y (toInt32 (w.surfs i).viewW) (toInt32 (w.surfs i).viewH)
  if decide (w.focusIdx < maxSurfaces) && hits w.focusIdx then w.focusIdx
  else ((List.range maxSurfaces).find? hits).getD noSlot

def wldSurfaceCloseHit (surf : WSurf) (px py : Int) : Bool :=
  !decide (surf.viewW ≤ titleBtnPad * 2 + titleBtnSz) && inside px py (surf.x + 5) (surf.y + 5) 12 12

def wldSurfaceSpawnHit (surf : WSurf) (px py : Int) : Bool :=
  !decide (surf.viewW ≤ titleBtnPad * 3 + titleBtnSz * 2) &&
    inside px py (surf.x + toInt32 surf.viewW - 5 - 12) (surf.y + 5) 12 12

def wldSurfaceTitleHit (surf : WSurf) (px py : Int) : Bool :=
  inside px py surf.x (surf.y + 2) (toInt32 surf.viewW) 22 && !wldSurfaceCloseHit surf px py &&
    !wldSurfaceSpawnHit surf px py

/-- The pointer moves, but not off the screen. -/
def movePointer (w : Compositor) (ev : MouseEvent) : Compositor :=
  let x := if ev.absolute then toInt32 ev.x else w.pointerX + ev.dx
  let y := if ev.absolute then toInt32 ev.y else w.pointerY + ev.dy
  { w with
    pointerX := min (max x 0) 799
    pointerY := min (max y 0) 599
    pointerButtons := ev.buttons }

/-- Sends the pointer to all clients that listen. -/
def wldBroadcastPointer (w : Compositor) (buttons : UInt32) : Compositor :=
  (List.range maxClients).foldl
    (fun w ci =>
      let c := w.clients ci
      if !c.alive || c.pointerObjId == 0 then w
      else w.send ci (.pointerEvent c.pointerObjId (.ofInt w.pointerX) (.ofInt w.pointerY) buttons))
    w

/-- The window whose title was pressed is taken along with the pointer. -/
def startDrag (w : Compositor) (hit : Nat) : Compositor :=
  let w := wldFocusSet w hit
  let w := w.setSurf hit { w.surfs hit with floating := true, placed := true }
  { w with
    dragActive := true
    dragIdx := hit
    dragOffX := w.pointerX - (w.surfs hit).x
    dragOffY := w.pointerY - (w.surfs hit).y }

/-- How far a window can be moved from the edge. -/
def dragLimit (full view : UInt32) : Int := if view < full then toInt32 (full - view) else 0

theorem dragLimit_nonneg (full view : UInt32) (small : full.toNat < 2 ^ 31) : 0 ≤ dragLimit full view := by
  unfold dragLimit
  split
  · rename_i less
    rw [toInt32_of_lt]
    · exact Int.natCast_nonneg _
    · rw [UInt32.toNat_sub_of_le _ _ (UInt32.le_of_lt less)]
      omega
  · exact le_refl 0

/-- The window that is dragged follows the pointer. -/
def moveDragged (w : Compositor) (ev : MouseEvent) : Compositor :=
  let surf := w.surfs w.dragIdx
  if ev.move && w.dragActive && decide (w.dragIdx < maxSurfaces) && surf.alive && surf.floating && leftDown ev.buttons then
    w.setSurf w.dragIdx
      { surf with
        x := min (max (w.pointerX - w.dragOffX) 0) (dragLimit fbW surf.viewW)
        y := min (max (w.pointerY - w.dragOffY) 0) (dragLimit fbH surf.viewH)
        placed := true }
  else w

/-- What follows for the surface under the pointer; nothing more is done with a press on it. -/
def pressSurface (w : Compositor) (hit : Nat) : Compositor :=
  if wldSurfaceCloseHit (w.surfs hit) w.pointerX w.pointerY then wldRequestCloseFocused (wldFocusSet w hit)
  else if wldSurfaceSpawnHit (w.surfs hit) w.pointerX w.pointerY then wldFocusSet w hit
  else if wldSurfaceTitleHit (w.surfs hit) w.pointerX w.pointerY then startDrag w hit
  else wldFocusSet w hit

/-- The clients that listen hear of changed buttons, and of moves with a button down. -/
def tellPointer (w : Compositor) (changed : UInt32) (ev : MouseEvent) : Compositor :=
  if changed ≠ 0 ∨ (ev.move ∧ w.pointerButtons ≠ 0) then wldBroadcastPointer w ev.buttons else w

/-- Handles one event of the mouse. -/
def wldHandleMouse (w : Compositor) (ev : MouseEvent) : Compositor :=
  let oldButtons := w.pointerButtons
  let w := movePointer w ev
  let hit := wldHitTestSurface w w.pointerX w.pointerY
  let changed := oldButtons ^^^ ev.buttons
  let w := tellPointer w changed ev
  if hit ≠ noSlot ∧ wldIsDockSurface (w.surfs hit) then w
  else if hit ≠ noSlot ∧ leftDown (changed &&& ev.buttons) then pressSurface w hit
  else
    let w :=
      if hit ≠ noSlot ∧ w.focusFollowPointer ∧ ev.move ∧ hit ≠ w.focusIdx then wldFocusSet w hit else w
    let w := moveDragged w ev
    if w.dragActive && !leftDown ev.buttons then { w with dragActive := false, dragIdx := noSlot } else w

end Enlil.Wld

/-! The main loop: clients come, send requests and go, and the screen is drawn. -/

namespace Enlil.Wld

/-- Takes a connection in, if a place for a client is free; its first object is the display. -/
def acceptClient (w : Compositor) : Compositor :=
  match (List.range maxClients).find? fun i => !(w.clients i).alive with
  | none => w
  | some slot => (w.setClient slot { WClient.zero with alive := true }).alloc slot 1 .display 0

/-- Frees a surface of a client that is closed, and the buffer it shows. -/
def closeSurface (ci : Nat) (w : Compositor) (si : Nat) : Compositor :=
  let surf := w.surfs si
  if surf.alive && surf.clientIdx == ci then
    let w :=
      if surf.currentBuf < maxBuffers then
        w.setBuf surf.currentBuf { w.buffers surf.currentBuf with alive := false }
      else w
    w.setSurf si { surf with alive := false }
  else w

/-- Frees the pool of an object of a client that is closed. -/
def closePool (w : Compositor) (o : Wobj) : Compositor :=
  if o.alive && o.type == .shmPool && decide (o.extra < maxPools) && (w.pools o.extra).alive then
    w.setPool o.extra { w.pools o.extra with alive := false }
  else w

/-- Closes a client and frees what it is known to have. -/
def clientClose (w : Compositor) (ci : Nat) : Compositor :=
  let w := (List.range maxSurfaces).foldl (closeSurface ci) w
  let w := (w.clients ci).objs.foldl closePool w
  wldRelayout (w.setClient ci .zero) true

/-- A surface that has faded out is told to close, and is not shown any more. -/
def pendingCloseTurn (w : Compositor) (i : Nat) : Compositor :=
  let surf := w.surfs i
  if !surf.alive || !surf.closing || surf.closeSent || surf.fadeTicks != 0 || maxClients ≤ surf.clientIdx ||
      !(w.clients surf.clientIdx).alive || surf.xdgTopObj == 0 then w
  else
    let w := w.send surf.clientIdx (.toplevelClose surf.xdgTopObj)
    let w := w.setSurf i { surf with closeSent := true, alive := false, pendingBuf := noSlot, currentBuf := noSlot }
    let w := if w.focusIdx = i then wldFocusSanitize w else w
    wldRelayout w true

def wldProcessPendingCloses (w : Compositor) : Compositor := (List.range maxSurfaces).foldl pendingCloseTurn w

/-- The frame callback of a surface is done. -/
def frameDoneTurn (timeMs : UInt32) (w : Compositor) (si : Nat) : Compositor :=
  let surf := w.surfs si
  if !surf.alive || surf.frameCbId == 0 || maxClients ≤ surf.clientIdx || !(w.clients surf.clientIdx).alive then w
  else
    (w.setSurf si { surf with frameCbId := 0 }).send surf.clientIdx (.callbackDone surf.frameCbId timeMs)

def sendFrameDones (w : Compositor) (timeMs : UInt32) : Compositor :=
  (List.range maxSurfaces).foldl (frameDoneTurn timeMs) w

/-- The memory from the payload of a message on, with what lies behind it. -/
def Message.memory (m : Message) (behind : Nat → UInt8) (place : Nat) : UInt8 := m.payload.getD place (behind place)

def Message.payloadLen (m : Message) : UInt32 := .ofNat m.payload.length

/-- What the main loop does, one thing at a time. -/
inductive Step where
  | accept
  | message (ci : Nat) (m : Message) (behind : Nat → UInt8) (around : Surroundings)
  | close (ci : Nat)
  | key (action : KeyAction)
  | mouse (ev : MouseEvent)
  | present (timeMs : UInt32)

/-- Does one thing; only clients that are there send requests or leave. -/
def step (w : Compositor) : Step → Compositor
  | .accept => acceptClient w
  | .message ci m behind around =>
    if ci < maxClients ∧ (w.clients ci).alive then
      dispatchMsg w ci m.objId m.opcode (m.memory behind) m.payloadLen around
    else w
  | .close ci => if ci < maxClients ∧ (w.clients ci).alive then clientClose w ci else w
  | .key action => wldHandleKey w action
  | .mouse ev => wldHandleMouse w ev
  | .present timeMs => sendFrameDones (wldProcessPendingCloses (compositeAndPresent w).2) timeMs

/-- Every step of the main loop returns. -/
def exec (w : Compositor) (s : Step) : Except Empty Compositor := .ok (step w s)

end Enlil.Wld
