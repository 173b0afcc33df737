import Enlil.Lib.Run

/-! The connections of the TCP stack of `user/net_stack.c`: what they do with segments, and the calls on them. -/

namespace Enlil.Net

def netStackTcpConns : Nat := 4
def netStackTcpRxbuf : Nat := 2048
def tcpMss : UInt16 := 1460
def ipHdrLen : Nat := 20
def tcpHdrLen : Nat := 20
def nsErrConnrefused : Int := 111

def tcpFlagFin : UInt8 := 0x01
def tcpFlagSyn : UInt8 := 0x02
def tcpFlagRst : UInt8 := 0x04
def tcpFlagPsh : UInt8 := 0x08
def tcpFlagAck : UInt8 := 0x10

inductive TcpState where
  | closed
  | synSent
  | synRcvd
  | established
  | finWait1
  | finWait2
  | closeWait
  | lastAck
  deriving DecidableEq

structure TcpConn where
  allocated : Bool
  state : TcpState
  preserveOnClose : Bool
  peerClosed : Bool
  localPort : UInt16
  remotePort : UInt16
  remoteIp : UInt32
  sndNxt : UInt32
  rcvNxt : UInt32
  sndWin : UInt16
  soError : Int
  /-- Whether the application is called with data. -/
  dataCb : Bool
  /-- The bytes of the buffer that are in use. -/
  rxBuf : List UInt8
  /-- The number of the connection among all that were made, and since it was established: how far the expected number has moved, and the bytes that calls have returned and that the application was called with. The source has none of these. -/
  number : Nat
  rcvd : Nat
  returned : List UInt8
  delivered : List UInt8

/-- A connection after it was cleared. -/
def TcpConn.zero : TcpConn :=
  ⟨false, .closed, false, false, 0, 0, 0, 0, 0, 0, 0, false, [], 0, 0, [], []⟩

structure TcpListen where
  port : UInt16
  dataCb : Bool
  active : Bool

/-- A segment that was sent for a connection; what was expected and what had been placed then is noted for the proofs. -/
structure Sent where
  number : Nat
  flags : UInt8
  seq : UInt32
  ack : UInt32
  payload : List UInt8
  rcvd : Nat
  placed : Nat

structure Stack where
  conns : Nat → TcpConn
  listens : Nat → TcpListen
  isnSeed : UInt32
  ephemeral : UInt16
  sent : List Sent
  /-- How many connections have been made; the source does not have it. -/
  made : Nat

/-- What the stack reads of a segment. -/
structure Segment where
  srcIp : UInt32
  sport : UInt16
  dport : UInt16
  seq : UInt32
  ack : UInt32
  flags : UInt8
  window : UInt16
  data : List UInt8
  deriving DecidableEq

def rd16 (bytes : List UInt8) (off : Nat) : UInt16 :=
  (bytes.getD off 0).toUInt16 <<< 8 ||| (bytes.getD (off + 1) 0).toUInt16

def rd32 (bytes : List UInt8) (off : Nat) : UInt32 :=
  (bytes.getD off 0).toUInt32 <<< 24 ||| (bytes.getD (off + 1) 0).toUInt32 <<< 16 |||
    (bytes.getD (off + 2) 0).toUInt32 <<< 8 ||| (bytes.getD (off + 3) 0).toUInt32

/-- Reads a segment from a packet; one that is too short is dropped. -/
def parse (packet : List UInt8) : Option Segment :=
  let tcp := packet.drop ipHdrLen
  let hdrLen := ((tcp.getD 12 0 >>> 4) &&& 0xF).toNat * 4
  if packet.length < ipHdrLen + tcpHdrLen ∨ hdrLen < tcpHdrLen ∨ packet.length < ipHdrLen + hdrLen then none
  else
    some
      { srcIp := rd32 packet 12
        sport := rd16 tcp 0
        dport := rd16 tcp 2
        seq := rd32 tcp 4
        ack := rd32 tcp 8
        flags := tcp.getD 13 0
        window := rd16 tcp 14
        data := tcp.drop hdrLen }

/-- Whether a segment has a flag. -/
def Segment.has (seg : Segment) (flag : UInt8) : Bool := seg.flags &&& flag ≠ 0

def Stack.setConn (s : Stack) (ci : Nat) (conn : TcpConn) : Stack :=
  { s with conns := Function.update s.conns ci conn }

def tcpAllocConn (s : Stack) : Option Nat := (List.range netStackTcpConns).find? fun i => !(s.conns i).allocated

/-- Tries the ports one after the other until one is in no connection, or all have been tried. -/
def ephemeralLoop (s : Stack) (start : UInt16) : Nat → UInt16 → UInt16 × UInt16
  | 0, port => (0, port)
  | fuel + 1, port =>
    let next := if port = 65535 then 49152 else port + 1
    if (List.range netStackTcpConns).any fun i => (s.conns i).allocated && (s.conns i).localPort == port then
      if next = start then (0, next) else ephemeralLoop s start fuel next
    else (port, next)

def tcpAllocEphemeralPort (s : Stack) : UInt16 × Stack :=
  let found := ephemeralLoop s s.ephemeral 65536 s.ephemeral
  (found.1, { s with ephemeral := found.2 })

/-- Sends a segment for a connection. -/
def tcpSendSeg (s : Stack) (ci : Nat) (flags : UInt8) (seq ack : UInt32) (payload : List UInt8) : Stack :=
  let c := s.conns ci
  { s with sent := s.sent ++ [⟨c.number, flags, seq, ack, payload, c.rcvd, (c.returned ++ c.rxBuf).length⟩] }

def tcpCloseConn (s : Stack) (ci : Nat) : Stack :=
  let c := s.conns ci
  if c.preserveOnClose then s.setConn ci { c with peerClosed := true, state := .closed } else s.setConn ci .zero

/-- The connection that a segment is for. -/
def findConn (s : Stack) (seg : Segment) : Option Nat :=
  (List.range netStackTcpConns).find? fun i =>
    (s.conns i).state != .closed && (s.conns i).localPort == seg.dport && (s.conns i).remotePort == seg.sport &&
      (s.conns i).remoteIp == seg.srcIp

/-- A connection that another host opens. -/
def accept (s : Stack) (seg : Segment) (dataCb : Bool) (ci : Nat) : Stack :=
  let conn : TcpConn :=
    { TcpConn.zero with
      allocated := true
      state := .synRcvd
      localPort := seg.dport
      remotePort := seg.sport
      remoteIp := seg.srcIp
      rcvNxt := seg.seq + 1
      sndNxt := s.isnSeed
      sndWin := seg.window
      dataCb
      number := s.made + 1 }
  let made := { s.setConn ci conn with isnSeed := s.isnSeed + 0x10000, made := s.made + 1 }
  let sent := tcpSendSeg made ci (tcpFlagSyn ||| tcpFlagAck) conn.sndNxt conn.rcvNxt []
  sent.setConn ci { conn with sndNxt := conn.sndNxt + 1 }

/-- A segment that is for no connection; those that are refused are answered with a reset, which belongs to no connection. -/
def rxNew (s : Stack) (seg : Segment) : Stack :=
  if !seg.has tcpFlagSyn || seg.has tcpFlagAck then s
  else
    match (List.range netStackTcpConns).find? fun i => (s.listens i).active && (s.listens i).port == seg.dport with
    | none => s
    | some i =>
      match tcpAllocConn s with
      | none => s
      | some ci => accept s seg (s.listens i).dataCb ci

/-- Answers with the number that is expected next. -/
def sendAck (s : Stack) (ci : Nat) (flags : UInt8) : Stack :=
  tcpSendSeg s ci flags (s.conns ci).sndNxt (s.conns ci).rcvNxt []

/-- Data for a connection: what there is room for is placed in the buffer, and all of it is acknowledged. -/
def rxData (s : Stack) (ci : Nat) (data : List UInt8) : Stack :=
  let c := s.conns ci
  let copied := data.take (min data.length (netStackTcpRxbuf - c.rxBuf.length))
  let placed := s.setConn ci
    { c with
      rcvNxt := c.rcvNxt + UInt32.ofNat data.length
      rcvd := c.rcvd + data.length
      rxBuf := c.rxBuf ++ copied
      delivered := if c.dataCb then c.delivered ++ copied else c.delivered }
  sendAck placed ci tcpFlagAck

/-- The expected number moves past the end of the peer's stream. -/
def TcpConn.takeFin (c : TcpConn) : TcpConn := { c with rcvNxt := c.rcvNxt + 1, rcvd := c.rcvd + 1 }

/-- The peer ends its stream; the connection is closed from this side, too. -/
def rxFin (s : Stack) (ci : Nat) : Stack :=
  let acked := sendAck (s.setConn ci (s.conns ci).takeFin) ci tcpFlagAck
  let ended := sendAck acked ci (tcpFlagFin ||| tcpFlagAck)
  ended.setConn ci { ended.conns ci with sndNxt := (ended.conns ci).sndNxt + 1, state := .lastAck }

/-- The peer ends its stream on a connection that was closed from this side. -/
def rxLastFin (s : Stack) (ci : Nat) : Stack :=
  tcpCloseConn (sendAck (s.setConn ci (s.conns ci).takeFin) ci tcpFlagAck) ci

/-- A segment for a connection that is established. -/
def rxEstablished (s : Stack) (ci : Nat) (seg : Segment) : Stack :=
  let windowed := if seg.has tcpFlagAck then s.setConn ci { s.conns ci with sndWin := seg.window } else s
  let placed := if seg.data ≠ [] then rxData windowed ci seg.data else windowed
  if seg.has tcpFlagFin then rxFin placed ci else placed

/-- A segment for a connection. -/
def rxConn (s : Stack) (ci : Nat) (seg : Segment) : Stack :=
  let c := s.conns ci
  if seg.has tcpFlagRst then
    tcpCloseConn (if c.state = .synSent then s.setConn ci { c with soError := nsErrConnrefused } else s) ci
  else
    match c.state with
    | .synSent =>
      if seg.has tcpFlagSyn && seg.has tcpFlagAck && seg.ack == c.sndNxt then
        sendAck (s.setConn ci { c with sndWin := seg.window, rcvNxt := seg.seq + 1, state := .established }) ci tcpFlagAck
      else s
    | .synRcvd =>
      if seg.has tcpFlagAck && seg.ack == c.sndNxt then s.setConn ci { c with state := .established, rcvNxt := seg.seq }
      else s
    | .established => rxEstablished s ci seg
    | .lastAck => if seg.has tcpFlagAck && seg.ack == c.sndNxt then tcpCloseConn s ci else s
    | .finWait1 =>
      let acked := if seg.has tcpFlagAck then s.setConn ci { c with state := .finWait2 } else s
      if seg.has tcpFlagFin then rxLastFin acked ci else acked
    | .finWait2 => if seg.has tcpFlagFin then rxLastFin s ci else s
    | .closed | .closeWait => s

/-- A packet with a segment arrives. -/
def tcpRx (s : Stack) (packet : List UInt8) : Stack :=
  match parse packet with
  | none => s
  | some seg =>
    match findConn s seg with
    | none => rxNew s seg
    | some ci => rxConn s ci seg

def netStackTcpListen (s : Stack) (port : UInt16) (dataCb : Bool) : Stack × Int :=
  match (List.range netStackTcpConns).find? fun i => !(s.listens i).active with
  | none => (s, -1)
  | some i => ({ s with listens := Function.update s.listens i ⟨port, dataCb, true⟩ }, i)

/-- Opens a connection from a port, once a place for it is found. -/
def connectFrom (s : Stack) (dstIp : UInt32) (dstPort localPort : UInt16) (dataCb : Bool) (ci : Nat) : Stack :=
  let conn : TcpConn :=
    { TcpConn.zero with
      allocated := true
      preserveOnClose := true
      state := .synSent
      localPort
      remotePort := dstPort
      remoteIp := dstIp
      sndNxt := s.isnSeed
      sndWin := tcpMss
      dataCb
      number := s.made + 1 }
  let made := { s.setConn ci conn with isnSeed := s.isnSeed + 0x10000, made := s.made + 1 }
  let sent := tcpSendSeg made ci tcpFlagSyn conn.sndNxt 0 []
  sent.setConn ci { conn with sndNxt := conn.sndNxt + 1 }

def netStackTcpConnect (s : Stack) (dstIp : UInt32) (dstPort localPort : UInt16) (dataCb : Bool) : Stack × Int :=
  match tcpAllocConn s with
  | none => (s, -1)
  | some ci =>
    if localPort ≠ 0 then (connectFrom s dstIp dstPort localPort dataCb ci, ci)
    else
      let (port, s) := tcpAllocEphemeralPort s
      if port = 0 then (s, -1) else (connectFrom s dstIp dstPort port dataCb ci, ci)

def netStackTcpSend (s : Stack) (conn : Nat) (data : List UInt8) : Stack × Int :=
  if netStackTcpConns ≤ conn then (s, -1)
  else
    let c := s.conns conn
    if c.state ≠ .established then (s, -1)
    else if data = [] then (s, 0)
    else
      let maxSend := if c.sndWin < tcpMss then c.sndWin else tcpMss
      if maxSend = 0 then (s, -1)
      else
        let part := data.take maxSend.toNat
        let sent := tcpSendSeg s conn (tcpFlagPsh ||| tcpFlagAck) c.sndNxt c.rcvNxt part
        (sent.setConn conn { c with sndNxt := c.sndNxt + UInt32.ofNat part.length }, part.length)

/-- Takes bytes from the buffer of a connection; `-1` is for none, and zero for the end. -/
def netStackTcpRecv (s : Stack) (conn : Nat) (maxlen : UInt16) : Stack × Except Int (List UInt8) :=
  if netStackTcpConns ≤ conn ∨ maxlen = 0 then (s, .error (-1))
  else
    let c := s.conns conn
    if c.allocated = false then (s, .error (-1))
    else if c.rxBuf = [] then (s, if c.state = .closed ∨ c.peerClosed then .ok [] else .error (-1))
    else
      let copied := c.rxBuf.take maxlen.toNat
      (s.setConn conn { c with rxBuf := c.rxBuf.drop maxlen.toNat, returned := c.returned ++ copied }, .ok copied)

def netStackTcpClose (s : Stack) (conn : Nat) : Stack :=
  if netStackTcpConns ≤ conn then s
  else
    let c := s.conns conn
    if c.allocated = false then s
    else if c.state = .synSent then s.setConn conn { c with state := .closed, peerClosed := true }
    else if c.state ≠ .established ∧ c.state ≠ .closeWait then s
    else
      (sendAck s conn (tcpFlagFin ||| tcpFlagAck)).setConn conn { c with sndNxt := c.sndNxt + 1, state := .finWait1 }

def netStackTcpRelease (s : Stack) (conn : Nat) : Stack :=
  if netStackTcpConns ≤ conn then s else s.setConn conn .zero

/-- What happens to the stack; of a packet it is noted where in its peer's stream it was sent from. -/
inductive Op where
  | rx (packet : List UInt8) (place : Nat)
  | listen (port : UInt16) (dataCb : Bool)
  | connect (dstIp : UInt32) (dstPort localPort : UInt16) (dataCb : Bool)
  | send (conn : Nat) (data : List UInt8)
  | recv (conn : Nat) (maxlen : UInt16)
  | close (conn : Nat)
  | release (conn : Nat)

def Op.after (s : Stack) : Op → Stack
  | .rx packet _ => tcpRx s packet
  | .listen port dataCb => (netStackTcpListen s port dataCb).1
  | .connect dstIp dstPort localPort dataCb => (netStackTcpConnect s dstIp dstPort localPort dataCb).1
  | .send conn data => (netStackTcpSend s conn data).1
  | .recv conn maxlen => (netStackTcpRecv s conn maxlen).1
  | .close conn => netStackTcpClose s conn
  | .release conn => netStackTcpRelease s conn

def exec (s : Stack) (op : Op) : Except Empty Stack := .ok (op.after s)

end Enlil.Net
