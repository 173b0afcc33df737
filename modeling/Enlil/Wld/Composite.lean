import Enlil.Wld.Requests

/-! Drawing the surfaces: what is read from the pools of the clients, and what is written to the framebuffer. -/

namespace Enlil.Wld

/-- What drawing asks the memory for: four bytes of a segment, or an entry behind the end of the column map. -/
inductive Peek where
  | pixel (src : Mapping) (byte : Nat)
  | beyond (dx : Nat)
  deriving DecidableEq

/-- Programs that read pixels. -/
abbrev Draws (α : Type) : Type := Asks Peek UInt32 α

/-- What is done to a pixel of the framebuffer. -/
inductive Stroke where
  | fill (color : UInt32)
  | blend (color : UInt32) (alpha : UInt8)
  deriving DecidableEq

/-- A write to the framebuffer, at an index. -/
abbrev Write : Type := Nat × Stroke

/-- Whether a place is on the screen. -/
def onScreen (x y : Int) : Bool := decide (0 ≤ x) && decide (x < 800) && decide (0 ≤ y) && decide (y < 600)

/-- The index of a place on the screen. -/
def fbIndex (x y : Int) : Nat := y.toNat * 800 + x.toNat

def wldFillRect (x y : Int) (w h color : UInt32) : List Write :=
  (List.range h.toNat).flatMap fun row =>
    (List.range w.toNat).flatMap fun col =>
      let dy := y + toInt32 (.ofNat row)
      let dx := x + toInt32 (.ofNat col)
      if onScreen dx dy then [(fbIndex dx dy, .fill color)] else []

/-- A pixel of the framebuffer mixed with another. -/
def wldBlendRgb (dst src : UInt32) (alpha : UInt8) : UInt32 :=
  let inv := (255 - alpha).toUInt32
  let mix (shift : UInt32) : UInt32 :=
    (((dst >>> shift) &&& 0xFF) * inv + ((src >>> shift) &&& 0xFF) * alpha.toUInt32) / 255
  mix 16 <<< 16 ||| mix 8 <<< 8 ||| mix 0

/-- The pixel that a stroke leaves. -/
def Stroke.apply (old : UInt32) : Stroke → UInt32
  | fill color => color
  | blend color alpha => wldBlendRgb old color alpha

/-- The column of the buffer that a column shows. -/
def xMap (dw sw : UInt32) (dx : Nat) : UInt16 :=
  let sx := (UInt32.ofNat dx * sw) / dw
  (if sx < sw then sx else sw - 1).toUInt16

/-- The entries of the column map that are written. -/
def columnMap (dw sw : UInt32) : List UInt16 := (List.range (if dw < fbW then dw else fbW).toNat).map (xMap dw sw)

/-- The row of the buffer that a row shows. -/
def yMap (dh sh : UInt32) (dy : Nat) : UInt32 :=
  let sy := (UInt32.ofNat dy * sh) / dh
  if sh ≤ sy then sh - 1 else sy

/-- A buffer to be drawn into a rectangle. -/
structure Blit where
  dx0 : Int
  dy0 : Int
  dw : UInt32
  dh : UInt32
  src : Mapping
  offset : UInt32
  sw : UInt32
  sh : UInt32
  stridePx : UInt32
  alpha : UInt8
  deriving DecidableEq

/-- Draws one column of a row: the pixel is read where the column map says. -/
def blitColumn (b : Blit) (dy dx : Nat) : Draws (List Write) :=
  let outX := b.dx0 + toInt32 (.ofNat dx)
  let outY := b.dy0 + toInt32 (.ofNat dy)
  if outX < 0 ∨ 800 ≤ outX then .done []
  else
    let row := (yMap b.dh b.sh dy * b.stridePx).toNat
    let read (column : Nat) : Draws (List Write) :=
      .ask (.pixel b.src (b.offset.toNat + 4 * (row + column))) fun pix =>
        .done [(fbIndex outX outY, if b.alpha = 255 then .fill pix else .blend pix b.alpha)]
    match (columnMap b.dw b.sw)[dx]? with
    | some column => read column.toNat
    | none => .ask (.beyond dx) fun entry => read entry.toUInt16.toNat

/-- Draws one part after the other. -/
def drawAll {α : Type} (draw : α → Draws (List Write)) : List α → Draws (List Write)
  | [] => .done []
  | x :: xs => (draw x).bind fun first => (drawAll draw xs).bind fun rest => .done (first ++ rest)

def blitRow (b : Blit) (dy : Nat) : Draws (List Write) :=
  let outY := b.dy0 + toInt32 (.ofNat dy)
  if outY < 0 ∨ 600 ≤ outY then .done [] else drawAll (blitColumn b dy) (List.range b.dw.toNat)

def wldBlitScaled (b : Blit) : Draws (List Write) :=
  if b.sw = 0 ∨ b.sh = 0 ∨ b.dw = 0 ∨ b.dh = 0 then .done []
  else drawAll (blitRow b) (List.range b.dh.toNat)

/-- The buffer of a surface and the segment it lies in, if both are still there. -/
def sourceOf (w : Compositor) (surf : WSurf) : Option (WBuf × Mapping) :=
  let buf := w.buffers surf.currentBuf
  if !buf.alive || maxPools ≤ buf.poolIdx || !(w.pools buf.poolIdx).alive then none
  else (w.pools buf.poolIdx).ptr.map fun ptr => (buf, ptr)

/-- How opaque a surface is while it fades in or out. -/
def fadeAlpha (surf : WSurf) : UInt8 :=
  if surf.fadeTicks = 0 then 255
  else if surf.closing then .ofNat (min 255 (surf.fadeTicks * 255 / 8))
  else .ofNat (min 255 ((9 - surf.fadeTicks) * 255 / 8))

/-- The size of the frame of a window. -/
def frameSize (surf : WSurf) (buf : WBuf) : UInt32 × UInt32 :=
  (if surf.viewW ≠ 0 then surf.viewW else buf.width,
    if surf.viewH ≠ 0 then surf.viewH else buf.height + titleH + frameBorder)

/-- What is drawn of a window in one of the two passes over all windows, of which the second is for the focused one. -/
def windowBlit (w : Compositor) (second : Bool) (si : Nat) : Option Blit :=
  let surf := w.surfs si
  if !wsurfIsViewable w surf || wldIsDockSurface surf || second != decide (si = w.focusIdx) then none
  else
    match sourceOf w surf with
    | none => none
    | some (buf, ptr) =>
      let (frameW, frameH) := frameSize surf buf
      if frameW ≤ frameBorder * 2 ∨ frameH ≤ titleH + frameBorder * 2 then none
      else
        some
          { dx0 := surf.x + 2
            dy0 := surf.y + 22 + 2
            dw := frameW - frameBorder * 2
            dh := frameH - titleH - frameBorder * 2
            src := ptr
            offset := buf.offset
            sw := buf.width
            sh := buf.height
            stridePx := buf.stride / 4
            alpha := fadeAlpha surf }

/-- The rectangles of a window: its shadow, its frame, its title with two buttons, and its background. -/
def decorations (surf : WSurf) (frameW frameH : UInt32) (focused : Bool) : List Write :=
  let right := surf.x + toInt32 frameW - 5 - 12
  wldFillRect (surf.x + 4) (surf.y + 4) frameW frameH 0x00101822 ++
    wldFillRect surf.x surf.y frameW frameH (if focused then 0x0000d6b8 else 0x0053647d) ++
    wldFillRect (surf.x + 2) (surf.y + 2) (frameW - 4) titleH (if focused then 0x00324766 else 0x002a3648) ++
    wldFillRect (surf.x + 5) (surf.y + 5) 12 12 0x00D64545 ++
    wldFillRect right (surf.y + 5) 12 12 0x0034D17B ++
    wldFillRect (surf.x + 5 + 3) (surf.y + 5 + 6) 6 2 0x00FFFFFF ++
    wldFillRect (right + 6 - 1) (surf.y + 5 + 2) 2 8 0x00FFFFFF ++
    wldFillRect (right + 2) (surf.y + 5 + 6 - 1) 8 2 0x00FFFFFF ++
    wldFillRect (surf.x + 2) (surf.y + 22 + 2) (frameW - 4) (frameH - titleH - 4) 0x00070a10

/-- Draws a window with what surrounds it. -/
def drawWindow (w : Compositor) (second : Bool) (si : Nat) : Draws (List Write) :=
  match windowBlit w second si with
  | none => .done []
  | some b =>
    (wldBlitScaled b).bind fun inner =>
      .done (decorations (w.surfs si) (b.dw + 4) (b.dh + titleH + 4) second ++ inner)

/-- What is drawn of the dock. -/
def dockBlit (w : Compositor) (si : Nat) : Option Blit :=
  let surf := w.surfs si
  if !wsurfIsViewable w surf || !wldIsDockSurface surf then none
  else
    match sourceOf w surf with
    | none => none
    | some (buf, ptr) =>
      some
        { dx0 := surf.x
          dy0 := surf.y
          dw := surf.viewW
          dh := surf.viewH
          src := ptr
          offset := buf.offset
          sw := buf.width
          sh := buf.height
          stridePx := buf.stride / 4
          alpha := 255 }

def drawDock (w : Compositor) (si : Nat) : Draws (List Write) :=
  match dockBlit w si with
  | none => .done []
  | some b => wldBlitScaled b

/-- The cursor's mask, a row of sixteen pixels each. -/
def cursorMask : List UInt16 :=
  [0x8000, 0xC000, 0xE000, 0xF000, 0xF800, 0xFC00, 0xFE00, 0xFF00, 0xFF80, 0xFFC0, 0xFFE0, 0xFFF0,
    0xFE00, 0xCE00, 0x8E00, 0x0E00, 0x0F00, 0x0780, 0x0780, 0x03C0, 0x03C0, 0x01E0, 0x0000, 0x0000]

/-- Whether a pixel of the cursor is set. -/
def cursorBit (row col : Nat) : Bool := (cursorMask.getD row 0).toNat.testBit (15 - col)

/-- Whether a pixel of the cursor is at its edge. -/
def cursorEdge (row col : Nat) : Bool :=
  col = 0 || !cursorBit row (col - 1) || col = 15 || !cursorBit row (col + 1) || row = 0 || !cursorBit (row - 1) col ||
    row = 23 || !cursorBit (row + 1) col

def wldDrawCursor (x y : Int) (buttons : UInt32) : List Write :=
  let color : UInt32 := if buttons &&& 1 ≠ 0 then 0x00FFD166 else 0x00FFFFFF
  ((List.range 24).flatMap fun row => (List.range 16).flatMap fun col =>
    if cursorBit row col then
      let px := x + col
      let py := y + row
      (if onScreen (px + 1) (py + 1) then [(fbIndex (px + 1) (py + 1), .blend 0x00202020 120)] else []) ++
        (if onScreen px py then [(fbIndex px py, .fill (if cursorEdge row col then 0 else color))] else [])
    else []) ++
    (if onScreen x y then [(fbIndex x y, .fill 0x00FF3B30)] else [])

/-- The screen is black at first. -/
def blackScreen : List Write := (List.range (800 * 600)).map fun index => (index, .fill 0)

/-- All that is drawn of the surfaces where they are placed: the windows, then the docks. -/
def drawSurfaces (w : Compositor) : Draws (List Write) :=
  (drawAll (drawWindow w false) (List.range maxSurfaces)).bind fun behind =>
    (drawAll (drawWindow w true) (List.range maxSurfaces)).bind fun front =>
      (drawAll (drawDock w) (List.range maxSurfaces)).bind fun docks => .done (behind ++ front ++ docks)

/-- A window that was drawn while it fades fades by one tick. -/
def fadeTurn (w : Compositor) (si : Nat) : Compositor :=
  if (windowBlit w (decide (si = w.focusIdx)) si).isSome then
    w.setSurf si { w.surfs si with fadeTicks := (w.surfs si).fadeTicks - 1 }
  else w

/-- Draws everything anew and presents it: what is read and written, and the state afterwards. -/
def compositeAndPresent (w : Compositor) : Draws (List Write) × Compositor :=
  let w := wldRelayout w false
  let draws := (drawSurfaces w).bind fun surfaces =>
    .done (blackScreen ++ surfaces ++ wldDrawCursor w.pointerX w.pointerY w.pointerButtons)
  let w := (List.range maxSurfaces).foldl fadeTurn w
  (draws, { w with presentCount := w.presentCount + 1 })

end Enlil.Wld
