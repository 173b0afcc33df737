import Enlil.Lib.Frames

/-! The messages of a client's connection: how requests come out of the bytes received, and how events become bytes. -/

namespace Enlil.Wld

/-- The length of a client's input buffer and of its output buffer. -/
def bufLen : Nat := 8192

/-- The bytes of a 32-bit word, the lowest first. -/
def le32 (v : UInt32) : List UInt8 := [v.toUInt8, (v >>> 8).toUInt8, (v >>> 16).toUInt8, (v >>> 24).toUInt8]

/-- Reads a 32-bit word, the lowest byte first. -/
def inU32 (p : List UInt8) (off : Nat) : UInt32 :=
  (p.getD off 0).toUInt32 ||| (p.getD (off + 1) 0).toUInt32 <<< 8 |||
    (p.getD (off + 2) 0).toUInt32 <<< 16 ||| (p.getD (off + 3) 0).toUInt32 <<< 24

/-- A request of a client, as its message is dispatched. -/
structure Message where
  objId : UInt32
  opcode : UInt32
  payload : List UInt8
  deriving DecidableEq

/-- The message that a frame on the wire stands for. -/
def Message.ofFrame (frame : List UInt8) : Message :=
  ⟨inU32 frame 0, inU32 frame 4 &&& 0xFFFF, frame.drop 8⟩

/-- The input side of a connection: the input buffer, the messages dispatched, and what the client sent and nobody received yet. -/
structure Inbox where
  ibuf : List UInt8
  dispatched : List Message
  unread : List UInt8

/-- Dispatches the whole messages in the input buffer; a header that gives less than its own size empties it. -/
def clientProcessInput (c : Inbox) : Inbox :=
  if _ : 8 ≤ c.ibuf.length then
    let objId := inU32 c.ibuf 0
    let hdr2 := inU32 c.ibuf 4
    let size := (hdr2 >>> 16).toNat
    let opcode := hdr2 &&& 0xFFFF
    if _ : size < 8 then { c with ibuf := [] }
    else if _ : c.ibuf.length < size then c
    else
      clientProcessInput
        { c with
          ibuf := c.ibuf.drop size
          dispatched := c.dispatched ++ [⟨objId, opcode, (c.ibuf.take size).drop 8⟩] }
  else c
termination_by c.ibuf.length
decreasing_by
  simp +zetaDelta only [List.length_drop] at *
  omega

/-- The turn of a client in the main loop, where at most so many bytes are there to receive. -/
def clientTurn (c : Inbox) (asked : Nat) : Inbox :=
  let avail := bufLen - c.ibuf.length
  if avail = 0 then clientProcessInput c
  else
    let n := (c.unread.take (min asked avail)).length
    if 0 < n then clientProcessInput { c with ibuf := c.ibuf ++ c.unread.take n, unread := c.unread.drop n }
    else c

/-- A connection on which the client sends a stream. -/
def Inbox.opened (stream : List UInt8) : Inbox := ⟨[], [], stream⟩

/-- The output side of a connection: the output buffer, the bytes that left it, and what the next calls of send will return. -/
structure Outbox where
  obuf : List UInt8
  flushed : List UInt8
  answers : List (List Int)

def outU32 (c : Outbox) (v : UInt32) : Outbox :=
  if bufLen < c.obuf.length + 4 then c else { c with obuf := c.obuf ++ le32 v }

/-- The bytes that bring a length up to a multiple of four. -/
def padded (length : Nat) : Nat := (length + 3) / 4 * 4

/-- Writes a string of bytes before its NUL: the length with the NUL, the bytes, and padding. -/
def outStr (c : Outbox) (s : List UInt8) : Outbox :=
  let slen := s.length + 1
  let plen := padded slen
  let c := outU32 c (.ofNat slen)
  if bufLen < c.obuf.length + plen then c
  else { c with obuf := c.obuf ++ s ++ List.replicate (plen - s.length) 0 }

def msgBegin (c : Outbox) (objId opcode payloadBytes : UInt32) : Outbox :=
  let size := 8 + payloadBytes
  outU32 (outU32 c objId) (size <<< 16 ||| opcode)

/-- How much of the output buffer is sent before a call of send sends nothing. -/
def sendLoop (olen : Nat) : List Int → Nat → Nat
  | [], sent => sent
  | r :: answers, sent =>
    if sent < olen then
      if r ≤ 0 then sent else sendLoop olen answers (min (sent + r.toNat) olen)
    else sent

/-- Sends what can be sent, and moves the rest to the front. -/
def clientFlush (c : Outbox) : Outbox :=
  if c.obuf.length = 0 then c
  else
    let sent := sendLoop c.obuf.length (c.answers.headD []) 0
    { obuf := c.obuf.drop sent, flushed := c.flushed ++ c.obuf.take sent, answers := c.answers.tail }

/-- The calls that send events to a client, with all they read of the rest of the compositor. -/
inductive Send where
  | globals (regId : UInt32)
  | shmFormats (shmId : UInt32)
  | configure (xdgTopObj xdgSurfObj viewW viewH serial : UInt32)
  | seatCaps (seatId : UInt32)
  | outputInfo (outId displayW displayH : UInt32)
  | callbackDone (cbId time : UInt32)
  | wmState (objId layoutMode viewable focusIdx presentCount : UInt32)
  | pointerEvent (pointerObjId px py buttons : UInt32)
  | termInput (termObjId : UInt32) (bytes : List UInt8)
  | toplevelClose (xdgTopObj : UInt32)
  deriving DecidableEq

/-- The bytes of a text. -/
def ascii (text : String) : List UInt8 := text.toUTF8.data.toList

/-- The globals of the registry: name, interface and version. -/
def globalList : List (UInt32 × List UInt8 × UInt32) :=
  [(1, ascii "wl_compositor", 4), (2, ascii "wl_shm", 1), (3, ascii "xdg_wm_base", 1),
    (4, ascii "wl_seat", 5), (5, ascii "wl_output", 3), (6, ascii "enlil_wm_v1", 1),
    (7, ascii "enlil_term_v1", 1), (8, ascii "enlil_pointer_v1", 1)]

def Outbox.sendGlobals (c : Outbox) (regId : UInt32) : Outbox :=
  globalList.foldl
    (fun c entry =>
      let plen := padded (entry.2.1.length + 1)
      let c := msgBegin c regId 0 (.ofNat (4 + 4 + plen + 4))
      let c := outU32 c entry.1
      let c := outStr c entry.2.1
      let c := outU32 c entry.2.2
      clientFlush c)
    c

def Outbox.sendShmFormats (c : Outbox) (shmId : UInt32) : Outbox :=
  let c := outU32 (msgBegin c shmId 0 4) 0
  let c := outU32 (msgBegin c shmId 0 4) 1
  clientFlush c

def Outbox.sendConfigure (c : Outbox) (xdgTopObj xdgSurfObj viewW viewH serial : UInt32) : Outbox :=
  let width := if viewW > 4 then viewW - 4 else 0
  let height := if viewH > 26 then viewH - 26 else 0
  let c := if xdgTopObj ≠ 0 then outU32 (outU32 (outU32 (msgBegin c xdgTopObj 0 12) width) height) 0 else c
  let c := if xdgSurfObj ≠ 0 then outU32 (msgBegin c xdgSurfObj 0 4) serial else c
  clientFlush c

def Outbox.sendSeatCaps (c : Outbox) (seatId : UInt32) : Outbox := clientFlush (outU32 (msgBegin c seatId 0 4) 3)

def Outbox.sendOutputInfo (c : Outbox) (outId displayW displayH : UInt32) : Outbox :=
  let c := msgBegin c outId 0 44
  let c := outU32 (outU32 c 0) 0
  let c := outU32 (outU32 c 200) 150
  let c := outU32 c 0
  let c := outStr c (ascii "wld")
  let c := outStr c (ascii "virt")
  let c := outU32 c 0
  let c := msgBegin c outId 1 16
  let c := outU32 (outU32 (outU32 c 1) displayW) displayH
  let c := outU32 c 60000
  let c := msgBegin c outId 3 0
  clientFlush c

/-- A callback is done, and its id may be used again. -/
def Outbox.sendCallbackDone (c : Outbox) (cbId time : UInt32) : Outbox :=
  let c := outU32 (msgBegin c cbId 0 4) time
  let c := outU32 (msgBegin c 1 1 4) cbId
  clientFlush c

def Outbox.wldSendWmState (c : Outbox) (objId layoutMode viewable focusIdx presentCount : UInt32) : Outbox :=
  let c := msgBegin c objId 0 16
  clientFlush (outU32 (outU32 (outU32 (outU32 c layoutMode) viewable) focusIdx) presentCount)

def Outbox.sendPointerEvent (c : Outbox) (pointerObjId px py buttons : UInt32) : Outbox :=
  let c := msgBegin c pointerObjId 0 12
  clientFlush (outU32 (outU32 (outU32 c px) py) buttons)

/-- Key bytes for a terminal; unlike the other events, they are sent only where there is room for all of them. -/
def Outbox.wldSendTermInput (c : Outbox) (termObjId : UInt32) (buf : List UInt8) : Outbox :=
  if buf.length = 0 ∨ termObjId = 0 then c
  else
    let pad := padded buf.length
    if bufLen < 8 + 4 + pad then c
    else
      let c := if bufLen < c.obuf.length + 8 + 4 + pad then clientFlush c else c
      if bufLen < c.obuf.length + 8 + 4 + pad then c
      else
        let c := msgBegin c termObjId 0 (.ofNat (4 + pad))
        let c := outU32 c (.ofNat buf.length)
        clientFlush { c with obuf := c.obuf ++ buf ++ List.replicate (pad - buf.length) 0 }

def Outbox.sendToplevelClose (c : Outbox) (xdgTopObj : UInt32) : Outbox := clientFlush (msgBegin c xdgTopObj 1 0)

/-- Makes one of the calls. -/
def Send.apply (c : Outbox) : Send → Outbox
  | globals regId => Outbox.sendGlobals c regId
  | shmFormats shmId => Outbox.sendShmFormats c shmId
  | configure xdgTopObj xdgSurfObj viewW viewH serial => Outbox.sendConfigure c xdgTopObj xdgSurfObj viewW viewH serial
  | seatCaps seatId => Outbox.sendSeatCaps c seatId
  | outputInfo outId displayW displayH => Outbox.sendOutputInfo c outId displayW displayH
  | callbackDone cbId time => Outbox.sendCallbackDone c cbId time
  | wmState objId layoutMode viewable focusIdx presentCount =>
    Outbox.wldSendWmState c objId layoutMode viewable focusIdx presentCount
  | pointerEvent pointerObjId px py buttons => Outbox.sendPointerEvent c pointerObjId px py buttons
  | termInput termObjId bytes => Outbox.wldSendTermInput c termObjId bytes
  | toplevelClose xdgTopObj => Outbox.sendToplevelClose c xdgTopObj

end Enlil.Wld
