import Enlil.Wld.Wire

/-! What the compositor keeps: the objects of its clients, and the slots of pools, buffers and surfaces. -/

namespace Enlil.Wld

def maxClients : Nat := 8
def maxSurfaces : Nat := 24
def maxPools : Nat := 16
def maxBuffers : Nat := 32
def maxObjs : Nat := 80

/-- The index that stands for no slot. -/
def noSlot : Nat := 0xFFFF

def fbW : UInt32 := 800
def fbH : UInt32 := 600
def titleH : UInt32 := 22
def frameBorder : UInt32 := 2
def titleBtnSz : UInt32 := 12
def titleBtnPad : UInt32 := 5

/-- The types of objects that are ever made. -/
inductive ObjType where
  | display | registry | compositor | shm | shmPool | surface | buffer | xdgWm | xdgSurf | xdgTop
  | callback | seat | output | enlilWm | enlilTerm | pointer
  deriving DecidableEq

/-- An object of a client; for pools, buffers, surfaces and their roles, `extra` is a slot. -/
structure Wobj where
  id : UInt32
  type : ObjType
  alive : Bool
  extra : Nat
  deriving DecidableEq

/-- Where a shared segment is attached, and how long it is; the kernel makes none of more than 4 MiB. -/
structure Mapping where
  addr : Nat
  length : Nat
  small : length ≤ 2 ^ 22
  deriving DecidableEq

structure WPool where
  ptr : Option Mapping
  shmid : UInt32
  size : UInt32
  alive : Bool
  deriving DecidableEq

structure WBuf where
  poolIdx : Nat
  offset : UInt32
  width : UInt32
  height : UInt32
  stride : UInt32
  format : UInt32
  alive : Bool
  deriving DecidableEq

structure WSurf where
  alive : Bool
  clientIdx : Nat
  surfaceObj : UInt32
  xdgSurfObj : UInt32
  xdgTopObj : UInt32
  pendingBuf : Nat
  currentBuf : Nat
  frameCbId : UInt32
  x : Int
  y : Int
  viewW : UInt32
  viewH : UInt32
  title : List UInt8
  appId : List UInt8
  configured : Bool
  focused : Bool
  fadeTicks : Nat
  closing : Bool
  closeSent : Bool
  floating : Bool
  placed : Bool
  deriving DecidableEq

/-- A client; its objects stand in the order in which they were made. -/
structure WClient where
  alive : Bool
  termObjId : UInt32
  termSurfaceObj : UInt32
  pointerObjId : UInt32
  objs : List Wobj
  deriving DecidableEq

def WPool.zero : WPool := ⟨none, 0, 0, false⟩

def WBuf.zero : WBuf := ⟨0, 0, 0, 0, 0, 0, false⟩

def WSurf.zero : WSurf :=
  { alive := false, clientIdx := 0, surfaceObj := 0, xdgSurfObj := 0, xdgTopObj := 0, pendingBuf := 0, currentBuf := 0,
    frameCbId := 0, x := 0, y := 0, viewW := 0, viewH := 0, title := [], appId := [], configured := false,
    focused := false, fadeTicks := 0, closing := false, closeSent := false, floating := false, placed := false }

def WClient.zero : WClient := ⟨false, 0, 0, 0, []⟩

/-- The state of the compositor, with the calls that sent events, and to which clients, in their order. -/
structure Compositor where
  clients : Nat → WClient
  pools : Nat → WPool
  buffers : Nat → WBuf
  surfs : Nat → WSurf
  frameSerial : UInt32
  presentCount : UInt32
  layoutMode : UInt32
  focusIdx : Nat
  pointerX : Int
  pointerY : Int
  pointerButtons : UInt32
  focusFollowPointer : Bool
  dragActive : Bool
  dragIdx : Nat
  dragOffX : Int
  dragOffY : Int
  displayW : UInt32
  displayH : UInt32
  sends : List (Nat × Send)

/-- The state before the first turn of the main loop. -/
def Compositor.init : Compositor where
  clients _ := .zero
  pools _ := .zero
  buffers _ := .zero
  surfs _ := .zero
  frameSerial := 1
  presentCount := 0
  layoutMode := 1
  focusIdx := noSlot
  pointerX := 400
  pointerY := 300
  pointerButtons := 0
  focusFollowPointer := false
  dragActive := false
  dragIdx := noSlot
  dragOffX := 0
  dragOffY := 0
  displayW := fbW
  displayH := fbH
  sends := []

/-- The place of the first live object with an id. -/
def wobjFind (c : WClient) (id : UInt32) : Option Nat := c.objs.findIdx? fun o => o.alive && o.id == id

/-- The type and the slot of the object at a place. -/
def WClient.typeAt (c : WClient) (place : Nat) : Option ObjType := c.objs[place]?.map (·.type)

def WClient.extraAt (c : WClient) (place : Nat) : Nat := (c.objs[place]?.map (·.extra)).getD 0

/-- Makes an object, unless all places are taken. -/
def wobjAlloc (c : WClient) (id : UInt32) (type : ObjType) (extra : Nat) : WClient :=
  if maxObjs ≤ c.objs.length then c else { c with objs := c.objs ++ [⟨id, type, true, extra⟩] }

/-- The object at a place is not alive any more. -/
def WClient.kill (c : WClient) (place : Nat) : WClient :=
  { c with objs := c.objs.modify place fun o => { o with alive := false } }

def poolAlloc (w : Compositor) : Nat := ((List.range maxPools).find? fun i => !(w.pools i).alive).getD noSlot

def bufAlloc (w : Compositor) : Nat := ((List.range maxBuffers).find? fun i => !(w.buffers i).alive).getD noSlot

def surfAlloc (w : Compositor) : Nat := ((List.range maxSurfaces).find? fun i => !(w.surfs i).alive).getD noSlot

def Compositor.setClient (w : Compositor) (ci : Nat) (c : WClient) : Compositor := { w with clients := Function.update w.clients ci c }

def Compositor.setPool (w : Compositor) (pi : Nat) (pool : WPool) : Compositor := { w with pools := Function.update w.pools pi pool }

def Compositor.setBuf (w : Compositor) (bi : Nat) (buf : WBuf) : Compositor := { w with buffers := Function.update w.buffers bi buf }

def Compositor.setSurf (w : Compositor) (si : Nat) (surf : WSurf) : Compositor := { w with surfs := Function.update w.surfs si surf }

/-- Makes an object of a client. -/
def Compositor.alloc (w : Compositor) (ci : Nat) (id : UInt32) (type : ObjType) (extra : Nat) : Compositor :=
  w.setClient ci (wobjAlloc (w.clients ci) id type extra)

/-- A call sends events to a client. -/
def Compositor.send (w : Compositor) (ci : Nat) (send : Send) : Compositor := { w with sends := w.sends ++ [(ci, send)] }

section

variable (w : Compositor) (ci pi bi si i : Nat) (c : WClient) (pool : WPool) (buf : WBuf) (surf : WSurf)

@[simp] theorem setClient_clients : (w.setClient ci c).clients i = if i = ci then c else w.clients i :=
  Function.update_apply ..

@[simp] theorem setClient_pools : (w.setClient ci c).pools = w.pools := rfl

@[simp] theorem setClient_buffers : (w.setClient ci c).buffers = w.buffers := rfl

@[simp] theorem setClient_surfs : (w.setClient ci c).surfs = w.surfs := rfl

@[simp] theorem setPool_clients : (w.setPool pi pool).clients = w.clients := rfl

@[simp] theorem setPool_pools : (w.setPool pi pool).pools i = if i = pi then pool else w.pools i :=
  Function.update_apply ..

@[simp] theorem setPool_buffers : (w.setPool pi pool).buffers = w.buffers := rfl

@[simp] theorem setPool_surfs : (w.setPool pi pool).surfs = w.surfs := rfl

@[simp] theorem setBuf_clients : (w.setBuf bi buf).clients = w.clients := rfl

@[simp] theorem setBuf_pools : (w.setBuf bi buf).pools = w.pools := rfl

@[simp] theorem setBuf_buffers : (w.setBuf bi buf).buffers i = if i = bi then buf else w.buffers i :=
  Function.update_apply ..

@[simp] theorem setBuf_surfs : (w.setBuf bi buf).surfs = w.surfs := rfl

@[simp] theorem setSurf_clients : (w.setSurf si surf).clients = w.clients := rfl

@[simp] theorem setSurf_pools : (w.setSurf si surf).pools = w.pools := rfl

@[simp] theorem setSurf_buffers : (w.setSurf si surf).buffers = w.buffers := rfl

@[simp] theorem setSurf_surfs : (w.setSurf si surf).surfs i = if i = si then surf else w.surfs i :=
  Function.update_apply ..

end

end Enlil.Wld
