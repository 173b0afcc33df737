import Enlil.Wld.State

/-! Which surfaces are shown, which one has the focus, and where they are placed. -/

namespace Enlil.Wld

def wldIsHelloSurface (surf : WSurf) : Bool := surf.appId = ascii "enlil-hello"

def wldIsDockSurface (surf : WSurf) : Bool := surf.appId = ascii "enlil-dock"

def wldIsFinderSurface (surf : WSurf) : Bool := surf.appId = ascii "enlil-finder"

def wsurfIsViewable (w : Compositor) (surf : WSurf) : Bool :=
  surf.alive && surf.xdgTopObj != 0 && surf.currentBuf != noSlot && decide (surf.currentBuf < maxBuffers) &&
    (w.buffers surf.currentBuf).alive

def wldCountViewable (w : Compositor) : Nat := ((List.range maxSurfaces).filter fun i => wsurfIsViewable w (w.surfs i)).length

/-- The focus stays where it is while that surface is shown; else it goes to the first one shown that is no dock. -/
def wldFocusSanitize (w : Compositor) : Compositor :=
  if w.focusIdx < maxSurfaces && wsurfIsViewable w (w.surfs w.focusIdx) then w
  else
    { w with
      focusIdx :=
        ((List.range maxSurfaces).find? fun i =>
          wsurfIsViewable w (w.surfs i) && !wldIsDockSurface (w.surfs i)).getD noSlot }

def wldSendWmState (w : Compositor) (ci : Nat) (objId : UInt32) : Compositor :=
  w.send ci (.wmState objId w.layoutMode (.ofNat (wldCountViewable w)) (.ofNat w.focusIdx) w.presentCount)

/-- Sends a surface its size, under a new serial. -/
def sendConfigure (w : Compositor) (ci : Nat) (surf : WSurf) : Compositor :=
  let w := { w with frameSerial := w.frameSerial + 1 }
  w.send ci (.configure surf.xdgTopObj surf.xdgSurfObj surf.viewW surf.viewH w.frameSerial)

/-- Marks the focused surface to be closed. -/
def wldRequestCloseFocused (w : Compositor) : Compositor :=
  let w := wldFocusSanitize w
  if maxSurfaces ≤ w.focusIdx then w
  else
    let surf := w.surfs w.focusIdx
    if surf.closing || maxClients ≤ surf.clientIdx || !(w.clients surf.clientIdx).alive || surf.xdgTopObj == 0 then w
    else w.setSurf w.focusIdx { surf with closing := true, closeSent := false, fadeTicks := 8 }

def wldCountTiledViewable (w : Compositor) : Nat :=
  ((List.range maxSurfaces).filter fun i =>
    wsurfIsViewable w (w.surfs i) && !wldIsHelloSurface (w.surfs i) && !wldIsDockSurface (w.surfs i) &&
      !(w.surfs i).floating).length

/-- A word as a signed number. -/
def toInt32 (v : UInt32) : Int := v.toInt32.toInt

theorem toInt32_of_lt {v : UInt32} (small : v.toNat < 2 ^ 31) : toInt32 v = v.toNat := by
  show v.toBitVec.toInt = v.toNat
  rw [BitVec.toInt_eq_toNat_of_lt (by show 2 * v.toNat < _; omega)]
  rfl

/-- The middle of what is left, or the edge if nothing is left. -/
def centered (full view : UInt32) : Int := toInt32 (if full > view then (full - view) / 2 else 0)

theorem centered_nonneg (full view : UInt32) (small : full.toNat < 2 ^ 31) : 0 ≤ centered full view := by
  unfold centered
  rw [toInt32_of_lt]
  · exact Int.natCast_nonneg _
  · split
    · rename_i less
      rw [UInt32.toNat_div, UInt32.toNat_sub_of_le _ _ (UInt32.le_of_lt less)]
      exact lt_of_le_of_lt (Nat.div_le_self _ _) (by omega)
    · decide

/-- The dock is as large as its buffer. -/
def dockSized (w : Compositor) (surf : WSurf) : WSurf :=
  if surf.currentBuf < maxBuffers ∧ (w.buffers surf.currentBuf).alive then
    { surf with viewW := (w.buffers surf.currentBuf).width, viewH := (w.buffers surf.currentBuf).height }
  else
    { surf with
      viewW := if surf.viewW = 0 then fbW else surf.viewW
      viewH := if surf.viewH = 0 then 56 else surf.viewH }

/-- The dock stands at the lower edge. -/
def dockPlaced (w : Compositor) (surf : WSurf) : WSurf :=
  let surf := dockSized w surf
  { surf with x := 0, y := toInt32 (fbH - surf.viewH), placed := true }

/-- A window that floats is as large as its buffer and its frame. -/
def floatSized (w : Compositor) (surf : WSurf) (defaultW defaultH : UInt32) : WSurf :=
  if surf.currentBuf < maxBuffers ∧ (w.buffers surf.currentBuf).alive then
    { surf with
      viewW := (w.buffers surf.currentBuf).width + frameBorder * 2
      viewH := (w.buffers surf.currentBuf).height + titleH + frameBorder * 2 }
  else
    { surf with
      viewW := if surf.viewW = 0 then defaultW else surf.viewW
      viewH := if surf.viewH = 0 then defaultH else surf.viewH }

/-- It is placed once, in the middle, which is never beyond the edge. -/
def floatPlaced (w : Compositor) (surf : WSurf) (defaultW defaultH : UInt32) : WSurf :=
  let surf := floatSized w surf defaultW defaultH
  if surf.placed then surf
  else { surf with x := centered fbW surf.viewW, y := centered fbH surf.viewH, placed := true }

/-- The width of a column where so many surfaces share the screen. -/
def columnWidth (count : Nat) : UInt32 :=
  if count = 0 then 0 else if count = 1 then fbW - 12 * 2 else (fbW - 12 * (.ofNat count + 1)) / .ofNat count

theorem columnWidth_le {count : Nat} (few : count ≤ 24) : (columnWidth count).toNat ≤ 776 := by
  have all : ∀ n < 25, (columnWidth n).toNat ≤ 776 := by decide
  exact all count (by omega)

/-- Puts a surface where it is placed, and tells its client if asked to. -/
def putPlaced (sendCfg : Bool) (w : Compositor) (i : Nat) (surf : WSurf) : Compositor :=
  let w := w.setSurf i surf
  if sendCfg && decide (surf.clientIdx < maxClients) && (w.clients surf.clientIdx).alive then
    sendConfigure w surf.clientIdx surf
  else w

/-- One turn of the loop that places the surfaces; the second part counts the columns used. -/
def relayoutTurn (sendCfg : Bool) (colW : UInt32) (s : Compositor × UInt32) (i : Nat) : Compositor × UInt32 :=
  let (w, visible) := s
  let surf := { w.surfs i with focused := false }
  let focused := i = w.focusIdx
  if !wsurfIsViewable w surf then (w.setSurf i surf, visible)
  else if wldIsDockSurface surf then (putPlaced sendCfg w i (dockPlaced w surf), visible)
  else if wldIsHelloSurface surf then
    (putPlaced sendCfg w i { floatPlaced w surf 364 246 with focused := focused }, visible)
  else if surf.floating then
    (putPlaced sendCfg w i { floatPlaced w surf 320 220 with focused := focused }, visible)
  else
    (putPlaced sendCfg w i
      { surf with
        x := toInt32 (12 + visible * (colW + 12))
        y := 12
        viewW := colW
        viewH := fbH - 12 * 2
        focused := focused }, visible + 1)

/-- Places all surfaces that are shown, and tells their clients if asked to. -/
def wldRelayout (w : Compositor) (sendCfg : Bool) : Compositor :=
  let colW := columnWidth (wldCountTiledViewable w)
  let w := wldFocusSanitize w
  ((List.range maxSurfaces).foldl (relayoutTurn sendCfg colW) (w, 0)).1

/-- One turn of the search for the next surface shown, forwards or backwards. -/
def nextIdx (forward : Bool) (idx : Nat) : Nat :=
  if forward then (idx + 1) % maxSurfaces else if idx = 0 then maxSurfaces - 1 else idx - 1

def rotateLoop (w : Compositor) (forward : Bool) : Nat → Nat → Nat
  | 0, _ => w.focusIdx
  | n + 1, idx =>
    let idx := nextIdx forward idx
    if wsurfIsViewable w (w.surfs idx) then idx else rotateLoop w forward n idx

/-- The focus goes to the next surface shown. -/
def wldFocusRotate (w : Compositor) (forward : Bool) : Compositor :=
  if wldCountViewable w = 0 then w
  else
    let w := wldFocusSanitize w
    if maxSurfaces ≤ w.focusIdx then wldRelayout (wldFocusSanitize w) false
    else
      let start := w.focusIdx
      let w := { w with focusIdx := rotateLoop w forward maxSurfaces start }
      let w := if w.focusIdx = start && !wsurfIsViewable w (w.surfs w.focusIdx) then wldFocusSanitize w else w
      wldRelayout w false

def wldFocusSet (w : Compositor) (idx : Nat) : Compositor :=
  if maxSurfaces ≤ idx || !wsurfIsViewable w (w.surfs idx) then w
  else if w.focusIdx = idx then w
  else wldRelayout { w with focusIdx := idx } false

end Enlil.Wld
