import Enlil.Net.Tcp

/-! What the application gets of a connection is a prefix of what its peer sends, if nothing arrives out of order or without room for it. -/

namespace Enlil.Net

/-- The connection with a number is established, and nothing of its peer's stream has arrived yet; nothing has been sent since. -/
structure Starts (s : Stack) (number : Nat) (first : UInt32) : Prop where
  known : 0 < number ∧ number ≤ s.made
  conns : ∀ ci, (s.conns ci).number = number → (s.conns ci).state = .established ∧ (s.conns ci).rcvNxt = first ∧
    (s.conns ci).rxBuf = [] ∧ (s.conns ci).rcvd = 0 ∧ (s.conns ci).returned = [] ∧ (s.conns ci).delivered = []
  sent : s.sent = []

/-- A packet for the connection carries what its peer's stream has at the place it was sent from, and is numbered by it; the end of the stream is said at its end only. -/
def FromPeer (stream : List UInt8) (first : UInt32) (number : Nat) (s : Stack) : Op → Prop
  | .rx packet place => ∀ seg ci, parse packet = some seg → findConn s seg = some ci → (s.conns ci).number = number →
      seg.seq = first + UInt32.ofNat place ∧ seg.data = (stream.drop place).take seg.data.length ∧
        (seg.has tcpFlagFin = true → place + seg.data.length = stream.length)
  | _ => True

/-- A segment arrives where it is expected and with room for it; after a close from this side only the end of the stream counts. -/
def InPlace (c : TcpConn) (seg : Segment) (place : Nat) : Prop :=
  match c.state with
  | .established => seg.data ≠ [] ∨ seg.has tcpFlagFin = true →
      place = c.rcvd ∧ seg.data.length ≤ netStackTcpRxbuf - c.rxBuf.length
  | .finWait1 | .finWait2 => seg.has tcpFlagFin = true → place = c.rcvd ∧ seg.data = []
  | _ => True

/-- The condition on a packet for the connection; one that resets it is not looked at further. -/
def Careful (number : Nat) (s : Stack) : Op → Prop
  | .rx packet place => ∀ seg ci, parse packet = some seg → findConn s seg = some ci → (s.conns ci).number = number →
      seg.has tcpFlagRst = false → InPlace (s.conns ci) seg place
  | _ => True

/-- The bytes that calls on the connection have returned, and those that the application was called with, are the first of its peer's stream, and every number that was sent for it acknowledges only bytes that had been placed. -/
structure InOrder (stream : List UInt8) (first : UInt32) (number : Nat) (s : Stack) : Prop where
  given : ∀ ci, (s.conns ci).number = number → (s.conns ci).returned <+: stream ∧ (s.conns ci).delivered <+: stream
  acks : ∀ seg ∈ s.sent, seg.number = number →
    seg.ack = first + UInt32.ofNat seg.rcvd ∧ min seg.rcvd stream.length ≤ seg.placed

/-- What holds of the connection throughout: its bytes are the first of the stream, and the expected number is behind them. -/
structure Placed (stream : List UInt8) (first : UInt32) (c : TcpConn) : Prop where
  placed : c.returned ++ c.rxBuf <+: stream
  delivered : c.delivered = if c.dataCb then c.returned ++ c.rxBuf else []
  next : c.rcvNxt = first + UInt32.ofNat c.rcvd
  acked : min c.rcvd stream.length ≤ (c.returned ++ c.rxBuf).length

/-- The connection is past its beginning, and as long as its peer may send, the expected number is just behind its bytes. -/
structure Awaits (c : TcpConn) : Prop where
  past : c.state ≠ .synSent ∧ c.state ≠ .synRcvd
  behind : c.state ≠ .lastAck → c.state ≠ .closed → c.rcvd = (c.returned ++ c.rxBuf).length

/-- What holds of the whole stack, for the connection with a number. -/
structure Sound (stream : List UInt8) (first : UInt32) (number : Nat) (s : Stack) : Prop where
  known : 0 < number ∧ number ≤ s.made
  conns : ∀ ci, (s.conns ci).number = number → Placed stream first (s.conns ci)
  acks : ∀ seg ∈ s.sent, seg.number = number →
    seg.ack = first + UInt32.ofNat seg.rcvd ∧ min seg.rcvd stream.length ≤ seg.placed

section

variable {stream : List UInt8} {first : UInt32} {number ci : Nat} {s s' : Stack} {c : TcpConn} {seg : Segment}

theorem setConn_conns (s : Stack) (ci : Nat) (conn : TcpConn) (other : Nat) :
    (s.setConn ci conn).conns other = if other = ci then conn else s.conns other := by
  unfold Stack.setConn
  by_cases here : other = ci
  · rw [if_pos here, here]
    exact Function.update_self ..
  · rw [if_neg here]
    exact Function.update_of_ne here ..

theorem Sound.setConn (sound : Sound stream first number s) {conn : TcpConn}
    (placed : conn.number = number → Placed stream first conn) : Sound stream first number (s.setConn ci conn) := by
  refine ⟨sound.known, fun other => ?_, sound.acks⟩
  rw [setConn_conns]
  split
  · exact placed
  · exact sound.conns other

theorem Sound.sendSeg (sound : Sound stream first number s) {flags : UInt8} {seq ack : UInt32} {payload : List UInt8}
    (expected : (s.conns ci).number = number → ack = (s.conns ci).rcvNxt) :
    Sound stream first number (tcpSendSeg s ci flags seq ack payload) := by
  refine ⟨sound.known, sound.conns, fun seg member isHere => ?_⟩
  rcases List.mem_append.mp member with old | new
  · exact sound.acks seg old isHere
  · rw [List.mem_singleton] at new
    subst new
    have placed := sound.conns ci isHere
    exact ⟨(expected isHere).trans placed.next, placed.acked⟩

theorem Sound.sendAck (sound : Sound stream first number s) (flags : UInt8) : Sound stream first number (sendAck s ci flags) :=
  sound.sendSeg fun _ => rfl

theorem Sound.clear (sound : Sound stream first number s) : Sound stream first number (s.setConn ci .zero) :=
  sound.setConn fun none => absurd none (Nat.ne_of_lt sound.known.1)

theorem Sound.closeConn (sound : Sound stream first number s) : Sound stream first number (tcpCloseConn s ci) := by
  unfold tcpCloseConn
  dsimp only
  split
  · refine sound.setConn fun here => ?_
    have placed := sound.conns ci here
    exact ⟨placed.placed, placed.delivered, placed.next, placed.acked⟩
  · exact sound.clear

theorem Sound.newConn (sound : Sound stream first number s) {conn : TcpConn} (new : conn.number = s.made + 1)
    {isnSeed : UInt32} {flags : UInt8} {ack : UInt32} :
    Sound stream first number
      ((tcpSendSeg { s.setConn ci conn with isnSeed, made := s.made + 1 } ci flags conn.sndNxt ack []).setConn ci
        { conn with sndNxt := conn.sndNxt + 1 }) := by
  have differ : conn.number ≠ number := by
    have inside := sound.known.2
    omega
  have made : Sound stream first number { s.setConn ci conn with isnSeed, made := s.made + 1 } := by
    have set := @Sound.setConn _ _ _ ci _ sound conn fun here => absurd here differ
    exact ⟨⟨sound.known.1, sound.known.2.trans (Nat.le_succ _)⟩, set.conns, set.acks⟩
  refine (made.sendSeg fun here => ?_).setConn fun here => absurd here differ
  have same : (s.setConn ci conn).conns ci = conn := (setConn_conns ..).trans (if_pos rfl)
  have here : ((s.setConn ci conn).conns ci).number = number := here
  rw [same] at here
  exact absurd here differ

theorem Placed.take (placed : Placed stream first c) (behind : c.rcvd = (c.returned ++ c.rxBuf).length) {data : List UInt8}
    (slice : data = (stream.drop c.rcvd).take data.length) (room : data.length ≤ netStackTcpRxbuf - c.rxBuf.length) :
    Placed stream first
      { c with
        rcvNxt := c.rcvNxt + UInt32.ofNat data.length
        rcvd := c.rcvd + data.length
        rxBuf := c.rxBuf ++ data.take (min data.length (netStackTcpRxbuf - c.rxBuf.length))
        delivered :=
          if c.dataCb then c.delivered ++ data.take (min data.length (netStackTcpRxbuf - c.rxBuf.length))
          else c.delivered } := by
  have all : data.take (min data.length (netStackTcpRxbuf - c.rxBuf.length)) = data := by
    rw [Nat.min_eq_left room, List.take_length]
  have upto : c.returned ++ c.rxBuf = stream.take c.rcvd := by
    rw [behind]
    exact List.prefix_iff_eq_take.mp placed.placed
  rw [all]
  refine ⟨?_, ?_, ?_, ?_⟩
  · show c.returned ++ (c.rxBuf ++ data) <+: stream
    rw [← List.append_assoc, upto, slice, ← List.take_add]
    exact List.take_prefix ..
  · show (if c.dataCb then c.delivered ++ data else c.delivered) = if c.dataCb then c.returned ++ (c.rxBuf ++ data) else []
    have delivered := placed.delivered
    split
    · rename_i called
      rw [if_pos called] at delivered
      rw [delivered, List.append_assoc]
    · rename_i silent
      rw [if_neg silent] at delivered
      exact delivered
  · show c.rcvNxt + UInt32.ofNat data.length = first + UInt32.ofNat (c.rcvd + data.length)
    rw [placed.next, UInt32.ofNat_add, UInt32.add_assoc]
  · show min (c.rcvd + data.length) stream.length ≤ (c.returned ++ (c.rxBuf ++ data)).length
    rw [← List.append_assoc, List.length_append, ← behind]
    exact Nat.min_le_left ..

theorem Placed.takeFin (placed : Placed stream first c) (behind : c.rcvd = (c.returned ++ c.rxBuf).length)
    (ends : c.rcvd = stream.length) : Placed stream first c.takeFin := by
  refine ⟨placed.placed, placed.delivered, ?_, ?_⟩
  · show c.rcvNxt + 1 = first + UInt32.ofNat (c.rcvd + 1)
    rw [placed.next, UInt32.ofNat_add, UInt32.add_assoc]
    rfl
  · show min (c.rcvd + 1) stream.length ≤ _
    rw [← ends]
    exact (Nat.min_le_right ..).trans behind.le

def Awaiting (number : Nat) (s : Stack) : Prop := ∀ ci, (s.conns ci).number = number → Awaits (s.conns ci)

theorem Awaiting.setConn (awaiting : Awaiting number s) {conn : TcpConn} (awaits : conn.number = number → Awaits conn) :
    Awaiting number (s.setConn ci conn) := by
  intro other
  rw [setConn_conns]
  split
  · exact awaits
  · exact awaiting other

theorem Awaiting.closeConn (awaiting : Awaiting number s) (positive : 0 < number) : Awaiting number (tcpCloseConn s ci) := by
  unfold tcpCloseConn
  dsimp only
  split
  · exact awaiting.setConn fun _ => ⟨⟨nofun, nofun⟩, fun _ notClosed => absurd rfl notClosed⟩
  · exact awaiting.setConn fun none => absurd none (Nat.ne_of_lt positive)

structure Fitting (stream : List UInt8) (c : TcpConn) (data : List UInt8) : Prop where
  behind : c.rcvd = (c.returned ++ c.rxBuf).length
  slice : data = (stream.drop c.rcvd).take data.length
  room : data.length ≤ netStackTcpRxbuf - c.rxBuf.length

theorem Sound.rxData (sound : Sound stream first number s) {data : List UInt8}
    (fitting : (s.conns ci).number = number → Fitting stream (s.conns ci) data) :
    Sound stream first number (rxData s ci data) := by
  refine Sound.sendAck (sound.setConn fun here => ?_) _
  exact (sound.conns ci here).take (fitting here).behind (fitting here).slice (fitting here).room

theorem rxData_conns (s : Stack) (ci : Nat) (data : List UInt8) (other : Nat) : (rxData s ci data).conns other =
    if other = ci then
      { s.conns ci with
        rcvNxt := (s.conns ci).rcvNxt + UInt32.ofNat data.length
        rcvd := (s.conns ci).rcvd + data.length
        rxBuf := (s.conns ci).rxBuf ++ data.take (min data.length (netStackTcpRxbuf - (s.conns ci).rxBuf.length))
        delivered :=
          if (s.conns ci).dataCb then
            (s.conns ci).delivered ++ data.take (min data.length (netStackTcpRxbuf - (s.conns ci).rxBuf.length))
          else (s.conns ci).delivered }
    else s.conns other :=
  setConn_conns ..

theorem Fitting.behind_rxData {data : List UInt8} (fitting : Fitting stream (s.conns ci) data) :
    ((rxData s ci data).conns ci).rcvd =
      (((rxData s ci data).conns ci).returned ++ ((rxData s ci data).conns ci).rxBuf).length := by
  rw [rxData_conns, if_pos rfl]
  show (s.conns ci).rcvd + data.length = ((s.conns ci).returned ++ ((s.conns ci).rxBuf ++ _)).length
  rw [Nat.min_eq_left fitting.room, List.take_length, ← List.append_assoc, List.length_append, ← fitting.behind]

theorem Awaiting.rxData (awaiting : Awaiting number s) {data : List UInt8}
    (fitting : (s.conns ci).number = number → Fitting stream (s.conns ci) data) : Awaiting number (rxData s ci data) := by
  intro other
  by_cases here : other = ci
  · subst here
    intro same
    have before : (s.conns other).number = number := by
      rw [rxData_conns, if_pos rfl] at same
      exact same
    refine ⟨?_, fun _ _ => (fitting before).behind_rxData⟩
    rw [rxData_conns, if_pos rfl]
    exact (awaiting other before).past
  · rw [rxData_conns, if_neg here]
    exact awaiting other

structure Ending (stream : List UInt8) (c : TcpConn) : Prop where
  behind : c.rcvd = (c.returned ++ c.rxBuf).length
  ends : c.rcvd = stream.length

theorem Sound.takeFin (sound : Sound stream first number s) (ending : (s.conns ci).number = number → Ending stream (s.conns ci)) :
    Sound stream first number (s.setConn ci (s.conns ci).takeFin) :=
  sound.setConn fun here => (sound.conns ci here).takeFin (ending here).behind (ending here).ends

theorem Sound.rxFin (sound : Sound stream first number s) (ending : (s.conns ci).number = number → Ending stream (s.conns ci)) :
    Sound stream first number (rxFin s ci) := by
  have acked : Sound stream first number
      (Net.sendAck (Net.sendAck (s.setConn ci (s.conns ci).takeFin) ci tcpFlagAck) ci (tcpFlagFin ||| tcpFlagAck)) :=
    ((sound.takeFin ending).sendAck _).sendAck _
  refine acked.setConn fun here => ?_
  have placed := acked.conns ci here
  exact ⟨placed.placed, placed.delivered, placed.next, placed.acked⟩

theorem Awaiting.rxFin (awaiting : Awaiting number s) : Awaiting number (rxFin s ci) := by
  intro other
  unfold Net.rxFin
  dsimp only
  rw [setConn_conns]
  split
  · exact fun _ => ⟨⟨nofun, nofun⟩, fun notLast _ => absurd rfl notLast⟩
  · rename_i differ
    have same : (s.setConn ci (s.conns ci).takeFin).conns other = s.conns other := by
      rw [setConn_conns, if_neg differ]
    show ((s.setConn ci (s.conns ci).takeFin).conns other).number = number →
      Awaits ((s.setConn ci (s.conns ci).takeFin).conns other)
    rw [same]
    exact awaiting other

theorem Sound.rxLastFin (sound : Sound stream first number s)
    (ending : (s.conns ci).number = number → Ending stream (s.conns ci)) : Sound stream first number (rxLastFin s ci) :=
  ((sound.takeFin ending).sendAck _).closeConn

theorem Awaiting.rxLastFin (awaiting : Awaiting number s) (positive : 0 < number) : Awaiting number (rxLastFin s ci) := by
  intro other
  unfold Net.rxLastFin tcpCloseConn
  dsimp only
  have same (differ : other ≠ ci) : (s.setConn ci (s.conns ci).takeFin).conns other = s.conns other := by
    rw [setConn_conns, if_neg differ]
  split
  · rw [setConn_conns]
    split
    · exact fun _ => ⟨⟨nofun, nofun⟩, fun _ notClosed => absurd rfl notClosed⟩
    · rename_i differ
      show ((s.setConn ci (s.conns ci).takeFin).conns other).number = number → Awaits ((s.setConn ci (s.conns ci).takeFin).conns other)
      rw [same differ]
      exact awaiting other
  · rw [setConn_conns]
    split
    · exact fun none => absurd none (Nat.ne_of_lt positive)
    · rename_i differ
      show ((s.setConn ci (s.conns ci).takeFin).conns other).number = number → Awaits ((s.setConn ci (s.conns ci).takeFin).conns other)
      rw [same differ]
      exact awaiting other

/-- The stack in a run, for the connection with a number. -/
structure Steady (stream : List UInt8) (first : UInt32) (number : Nat) (s : Stack) : Prop where
  sound : Sound stream first number s
  awaiting : Awaiting number s

theorem Steady.setConn (steady : Steady stream first number s) {conn : TcpConn} (same : conn.number = (s.conns ci).number)
    (placed : Placed stream first (s.conns ci) → Placed stream first conn) (awaits : Awaits (s.conns ci) → Awaits conn) :
    Steady stream first number (s.setConn ci conn) where
  sound := steady.sound.setConn fun here => placed (steady.sound.conns ci (same.symm.trans here))
  awaiting := steady.awaiting.setConn fun here => awaits (steady.awaiting ci (same.symm.trans here))

theorem Steady.sendSeg (steady : Steady stream first number s) {flags : UInt8} {seq ack : UInt32} {payload : List UInt8}
    (expected : (s.conns ci).number = number → ack = (s.conns ci).rcvNxt) :
    Steady stream first number (tcpSendSeg s ci flags seq ack payload) :=
  ⟨steady.sound.sendSeg expected, steady.awaiting⟩

theorem Steady.sendAck (steady : Steady stream first number s) (flags : UInt8) :
    Steady stream first number (sendAck s ci flags) :=
  steady.sendSeg fun _ => rfl

theorem Steady.newConn (steady : Steady stream first number s) {conn : TcpConn} (new : conn.number = s.made + 1)
    {isnSeed : UInt32} {flags : UInt8} {ack : UInt32} :
    Steady stream first number
      ((tcpSendSeg { s.setConn ci conn with isnSeed, made := s.made + 1 } ci flags conn.sndNxt ack []).setConn ci
        { conn with sndNxt := conn.sndNxt + 1 }) := by
  have differ : conn.number ≠ number := by
    have inside := steady.sound.known.2
    omega
  refine ⟨steady.sound.newConn new, Awaiting.setConn (fun other => ?_) fun here => absurd here differ⟩
  exact (steady.awaiting.setConn fun here => absurd here differ) other

theorem Steady.closeConn (steady : Steady stream first number s) : Steady stream first number (tcpCloseConn s ci) :=
  ⟨steady.sound.closeConn, steady.awaiting.closeConn steady.sound.known.1⟩

/-- What a packet for the connection brings, as its peer sends it and the condition asks for. -/
structure Arrives (stream : List UInt8) (c : TcpConn) (seg : Segment) (place : Nat) : Prop where
  slice : seg.data = (stream.drop place).take seg.data.length
  ends : seg.has tcpFlagFin = true → place + seg.data.length = stream.length
  inPlace : InPlace c seg place

theorem Steady.rxEstablished (steady : Steady stream first number s) (established : (s.conns ci).state = .established)
    {place : Nat} (arrives : (s.conns ci).number = number → Arrives stream (s.conns ci) seg place) :
    Steady stream first number (rxEstablished s ci seg) := by
  unfold Net.rxEstablished
  dsimp only
  generalize windowedIs : (if seg.has tcpFlagAck then s.setConn ci { s.conns ci with sndWin := seg.window } else s) = windowed
  have same : ∃ sndWin, windowed.conns ci = { s.conns ci with sndWin } := by
    rw [← windowedIs]
    split
    · exact ⟨seg.window, (setConn_conns ..).trans (if_pos rfl)⟩
    · exact ⟨_, rfl⟩
  have steadyW : Steady stream first number windowed := by
    rw [← windowedIs]
    split
    · exact steady.setConn rfl (fun placed => ⟨placed.placed, placed.delivered, placed.next, placed.acked⟩)
        fun awaits => ⟨awaits.past, awaits.behind⟩
    · exact steady
  obtain ⟨sndWin, same⟩ := same
  -- For the connection itself, a segment that counts is in place.
  have counts (here : (windowed.conns ci).number = number) (some : seg.data ≠ [] ∨ seg.has tcpFlagFin = true) :
      Fitting stream (windowed.conns ci) seg.data ∧ (seg.has tcpFlagFin = true →
        (windowed.conns ci).rcvd + seg.data.length = stream.length) := by
    rw [same] at here ⊢
    have here : (s.conns ci).number = number := here
    obtain ⟨slice, ends, inPlace⟩ := arrives here
    unfold InPlace at inPlace
    rw [established] at inPlace
    obtain ⟨place, room⟩ := inPlace some
    subst place
    have behind := (steady.awaiting ci here).behind (by rw [established]; nofun) (by rw [established]; nofun)
    exact ⟨⟨behind, slice, room⟩, ends⟩
  have steadyD : Steady stream first number (if seg.data ≠ [] then rxData windowed ci seg.data else windowed) := by
    split
    · rename_i data
      exact ⟨steadyW.sound.rxData fun here => (counts here (.inl data)).1,
        steadyW.awaiting.rxData fun here => (counts here (.inl data)).1⟩
    · exact steadyW
  split
  · rename_i fin
    refine ⟨steadyD.sound.rxFin fun here => ?_, steadyD.awaiting.rxFin⟩
    split at here
    · rename_i data
      rw [if_pos data]
      have before : (windowed.conns ci).number = number := by
        rw [rxData_conns, if_pos rfl] at here
        exact here
      obtain ⟨fitting, ends⟩ := counts before (.inr fin)
      refine ⟨fitting.behind_rxData, ?_⟩
      rw [rxData_conns, if_pos rfl]
      exact ends fin
    · rename_i empty
      rw [if_neg empty]
      obtain ⟨fitting, ends⟩ := counts here (.inr fin)
      refine ⟨fitting.behind, ?_⟩
      have ends := ends fin
      rw [not_not.mp empty] at ends
      exact ends
  · exact steadyD

theorem Steady.rxLastFin (steady : Steady stream first number s)
    (state : (s.conns ci).state = .finWait1 ∨ (s.conns ci).state = .finWait2) (place : Nat) (fin : seg.has tcpFlagFin = true)
    (arrives : (s.conns ci).number = number → Arrives stream (s.conns ci) seg place) :
    Steady stream first number (rxLastFin s ci) := by
  refine ⟨steady.sound.rxLastFin fun here => ?_, steady.awaiting.rxLastFin steady.sound.known.1⟩
  obtain ⟨_, ends, inPlace⟩ := arrives here
  have behind := (steady.awaiting ci here).behind
  unfold InPlace at inPlace
  rcases state with state | state <;> rw [state] at inPlace behind <;> obtain ⟨place, empty⟩ := inPlace fin <;> subst place
  all_goals
    have ends := ends fin
    rw [empty] at ends
    exact ⟨behind nofun nofun, ends⟩

theorem Steady.rxConn (steady : Steady stream first number s) (place : Nat)
    (arrives : (s.conns ci).number = number → seg.has tcpFlagRst = false → Arrives stream (s.conns ci) seg place) :
    Steady stream first number (rxConn s ci seg) := by
  have known := steady.sound.known
  unfold Net.rxConn
  dsimp only
  split
  · refine Steady.closeConn ?_
    split
    · exact steady.setConn rfl (fun placed => ⟨placed.placed, placed.delivered, placed.next, placed.acked⟩)
        fun awaits => ⟨awaits.past, awaits.behind⟩
    · exact steady
  rename_i noRst
  have arrives (here : (s.conns ci).number = number) := arrives here (by simpa using noRst)
  -- A connection that is still opened is another one.
  have opening (early : (s.conns ci).state = .synSent ∨ (s.conns ci).state = .synRcvd) {conn : TcpConn}
      (same : conn.number = (s.conns ci).number) : Steady stream first number (s.setConn ci conn) := by
    have differ : conn.number ≠ number := by
      intro here
      obtain ⟨notSent, notRcvd⟩ := (steady.awaiting ci (same.symm.trans here)).past
      exact early.elim notSent notRcvd
    exact ⟨steady.sound.setConn fun here => absurd here differ, steady.awaiting.setConn fun here => absurd here differ⟩
  split
  · rename_i state
    split
    · refine Steady.sendAck (opening (.inl state) ?_) _
      rfl
    · exact steady
  · rename_i state
    split
    · exact opening (.inr state) rfl
    · exact steady
  · rename_i state
    exact steady.rxEstablished state arrives
  · split
    · exact steady.closeConn
    · exact steady
  · rename_i state
    generalize ackedIs : (if seg.has tcpFlagAck then s.setConn ci { s.conns ci with state := .finWait2 } else s) = acked
    have steadyA : Steady stream first number acked ∧
        ∃ last, acked.conns ci = { s.conns ci with state := last } ∧ (last = .finWait1 ∨ last = .finWait2) := by
      rw [← ackedIs]
      split
      · refine ⟨steady.setConn rfl (fun placed => ⟨placed.placed, placed.delivered, placed.next, placed.acked⟩)
          fun awaits => ⟨⟨nofun, nofun⟩, fun _ _ => awaits.behind (by rw [state]; nofun) (by rw [state]; nofun)⟩,
          .finWait2, (setConn_conns ..).trans (if_pos rfl), .inr rfl⟩
      · exact ⟨steady, .finWait1, by rw [← state], .inl rfl⟩
    obtain ⟨steadyA, last, same, isLast⟩ := steadyA
    split
    · rename_i fin
      refine steadyA.rxLastFin (by rw [same]; exact isLast) place fin fun here => ?_
      rw [same] at here ⊢
      obtain ⟨slice, ends, inPlace⟩ := arrives here
      refine ⟨slice, ends, ?_⟩
      unfold InPlace at inPlace ⊢
      rw [state] at inPlace
      rcases isLast with rfl | rfl <;> exact inPlace
    · exact steadyA
  · rename_i state
    split
    · rename_i fin
      exact steady.rxLastFin (.inr state) place fin arrives
    · exact steady
  · exact steady
  · exact steady

theorem Steady.rxNew (steady : Steady stream first number s) : Steady stream first number (rxNew s seg) := by
  unfold Net.rxNew
  split
  · exact steady
  split
  · exact steady
  split
  · exact steady
  · exact steady.newConn rfl

theorem Steady.recv (steady : Steady stream first number s) (conn : Nat) (maxlen : UInt16) :
    Steady stream first number (netStackTcpRecv s conn maxlen).1 := by
  unfold netStackTcpRecv
  split
  · exact steady
  dsimp only
  split
  · exact steady
  split
  · exact steady
  have same : (s.conns conn).returned ++ (s.conns conn).rxBuf.take maxlen.toNat ++ (s.conns conn).rxBuf.drop maxlen.toNat =
      (s.conns conn).returned ++ (s.conns conn).rxBuf := by
    rw [List.append_assoc, List.take_append_drop]
  refine steady.setConn rfl (fun placed => ?_) fun awaits => ⟨awaits.past, fun notLast notClosed => ?_⟩
  · refine ⟨?_, ?_, placed.next, ?_⟩ <;> dsimp only <;> rw [same]
    · exact placed.placed
    · exact placed.delivered
    · exact placed.acked
  · dsimp only
    rw [same]
    exact awaits.behind notLast notClosed

theorem Steady.send (steady : Steady stream first number s) (conn : Nat) (data : List UInt8) :
    Steady stream first number (netStackTcpSend s conn data).1 := by
  unfold netStackTcpSend
  split
  · exact steady
  dsimp only
  split
  · exact steady
  split
  · exact steady
  generalize (if (s.conns conn).sndWin < tcpMss then (s.conns conn).sndWin else tcpMss) = maxSend
  split
  · exact steady
  · refine Steady.setConn (steady.sendSeg fun _ => rfl) rfl
      (fun placed => ⟨placed.placed, placed.delivered, placed.next, placed.acked⟩) fun awaits => ⟨awaits.past, awaits.behind⟩

theorem Steady.close (steady : Steady stream first number s) (conn : Nat) :
    Steady stream first number (netStackTcpClose s conn) := by
  unfold netStackTcpClose
  split
  · exact steady
  dsimp only
  split
  · exact steady
  split
  · exact steady.setConn rfl (fun placed => ⟨placed.placed, placed.delivered, placed.next, placed.acked⟩)
      fun _ => ⟨⟨nofun, nofun⟩, fun _ notClosed => absurd rfl notClosed⟩
  split
  · exact steady
  rename_i open_
  have sent : Steady stream first number (Net.sendAck s conn (tcpFlagFin ||| tcpFlagAck)) := steady.sendSeg fun _ => rfl
  refine sent.setConn rfl (fun placed => ⟨placed.placed, placed.delivered, placed.next, placed.acked⟩)
    fun awaits => ⟨⟨nofun, nofun⟩, fun _ _ => awaits.behind ?_ ?_⟩
  · intro last
    exact open_ ⟨by rw [show (s.conns conn).state = .lastAck from last]; nofun, by rw [show (s.conns conn).state = .lastAck from last]; nofun⟩
  · intro closed
    exact open_ ⟨by rw [show (s.conns conn).state = .closed from closed]; nofun, by rw [show (s.conns conn).state = .closed from closed]; nofun⟩

theorem Steady.connect (steady : Steady stream first number s) (dstIp : UInt32) (dstPort localPort : UInt16) (dataCb : Bool) :
    Steady stream first number (netStackTcpConnect s dstIp dstPort localPort dataCb).1 := by
  unfold netStackTcpConnect
  split
  · exact steady
  split
  · exact steady.newConn rfl
  dsimp only
  have moved : Steady stream first number (tcpAllocEphemeralPort s).2 :=
    ⟨⟨steady.sound.known, steady.sound.conns, steady.sound.acks⟩, steady.awaiting⟩
  split
  · exact moved
  · exact moved.newConn rfl

theorem Steady.after (steady : Steady stream first number s) {op : Op} (peer : FromPeer stream first number s op)
    (careful : Careful number s op) : Steady stream first number (op.after s) := by
  cases op with
  | rx packet place =>
    show Steady stream first number (tcpRx s packet)
    unfold tcpRx
    split
    · exact steady
    rename_i seg parsed
    split
    · exact steady.rxNew
    · rename_i ci found
      refine steady.rxConn place fun here noRst => ?_
      obtain ⟨_, slice, ends⟩ := peer seg ci parsed found here
      exact ⟨slice, ends, careful seg ci parsed found here noRst⟩
  | listen port dataCb =>
    show Steady stream first number (netStackTcpListen s port dataCb).1
    unfold netStackTcpListen
    split
    · exact steady
    · exact ⟨⟨steady.sound.known, steady.sound.conns, steady.sound.acks⟩, steady.awaiting⟩
  | connect dstIp dstPort localPort dataCb => exact steady.connect dstIp dstPort localPort dataCb
  | send conn data => exact steady.send conn data
  | recv conn maxlen => exact steady.recv conn maxlen
  | close conn => exact steady.close conn
  | release conn =>
    show Steady stream first number (netStackTcpRelease s conn)
    unfold netStackTcpRelease
    split
    · exact steady
    · exact ⟨steady.sound.clear, steady.awaiting.setConn fun none => absurd none (Nat.ne_of_lt steady.sound.known.1)⟩

theorem Starts.steady (starts : Starts s number first) : Steady stream first number s := by
  refine ⟨⟨starts.known, fun ci here => ?_, by simp [starts.sent]⟩, fun ci here => ?_⟩
  · obtain ⟨_, next, buf, rcvd, returned, delivered⟩ := starts.conns ci here
    refine ⟨?_, ?_, ?_, ?_⟩
    · rw [buf, returned]
      exact List.nil_prefix
    · rw [buf, returned, delivered]
      split <;> rfl
    · rw [next, rcvd]
      exact (UInt32.add_zero first).symm
    · rw [rcvd, Nat.zero_min]
      exact Nat.zero_le _
  · obtain ⟨state, _, buf, rcvd, returned, _⟩ := starts.conns ci here
    refine ⟨by rw [state]; exact ⟨nofun, nofun⟩, fun _ _ => ?_⟩
    rw [buf, rcvd, returned]
    rfl

/-- In every run whose packets for the connection are in place, what the application gets of it is a prefix of its peer's stream, and only bytes that were placed are acknowledged. -/
theorem run_inOrder {start : Stack} (starts : Starts start number first)
    (run : Run exec (fun s op => FromPeer stream first number s op ∧ Careful number s op) start s) :
    InOrder stream first number s := by
  have steady : Steady stream first number s := by
    refine Run.invariant starts.steady (fun {s s' op} steady allowed ran => ?_) run
    cases ran
    exact steady.after allowed.1 allowed.2
  refine ⟨fun ci here => ?_, steady.sound.acks⟩
  have placed := steady.sound.conns ci here
  have returned : (s.conns ci).returned <+: stream := (List.prefix_append ..).trans placed.placed
  refine ⟨returned, ?_⟩
  rw [placed.delivered]
  split
  · exact placed.placed
  · exact List.nil_prefix

/-- A stack with one connection, which is established. -/
def opened : Stack :=
  { conns := fun ci => if ci = 0 then
      { TcpConn.zero with
        allocated := true, state := .established, localPort := 80, remotePort := 5000, remoteIp := 0x0A000202, rcvNxt := 1000
        number := 1 }
      else .zero
    listens := fun _ => ⟨0, false, false⟩, isnSeed := 0, ephemeral := 49152, sent := [], made := 1 }

theorem opened_starts : Starts opened 1 1000 := by
  refine ⟨by decide, fun ci here => ?_, rfl⟩
  by_cases isFirst : ci = 0
  · subst isFirst
    exact ⟨rfl, rfl, rfl, rfl, rfl, rfl⟩
  · have zero : opened.conns ci = .zero := if_neg isFirst
    rw [zero] at here
    cases here

/-- A packet for this connection with the first two bytes of a stream. -/
def firstTwo : List UInt8 :=
  [0x45, 0, 0, 42, 0, 0, 0, 0, 64, 6, 0, 0, 10, 0, 2, 2, 10, 0, 2, 15,
    0x13, 0x88, 0, 80, 0, 0, 0x03, 0xE8, 0, 0, 0, 0, 0x50, 0x18, 0x10, 0, 0, 0, 0, 0, 1, 2]

theorem firstTwo_parse : parse firstTwo = some ⟨0x0A000202, 5000, 80, 1000, 0, 0x18, 0x1000, [1, 2]⟩ := by
  decide

theorem firstTwo_fromPeer (s : Stack) : FromPeer [1, 2] 1000 1 s (.rx firstTwo 0) := by
  intro seg ci parsed _ _
  rw [firstTwo_parse] at parsed
  cases parsed
  exact ⟨rfl, rfl, nofun⟩

theorem run_inOrder_firstTwo : ∃ s, InOrder [1, 2] 1000 1 s ∧ (s.conns 0).returned = [1, 2] := by
  have careful : Careful 1 opened (.rx firstTwo 0) := by
    intro seg ci parsed found _ _
    rw [firstTwo_parse] at parsed
    cases parsed
    have first : ci = 0 := by
      have isFirst : findConn opened ⟨0x0A000202, 5000, 80, 1000, 0, 0x18, 0x1000, [1, 2]⟩ = some 0 := by decide
      rw [isFirst] at found
      exact (Option.some.inj found).symm
    subst first
    exact fun _ => ⟨rfl, by decide⟩
  let allowed := fun s op => FromPeer [1, 2] 1000 1 s op ∧ Careful 1 s op
  have began : Run exec allowed opened opened := .start
  have arrived : Run exec allowed opened (Op.after opened (.rx firstTwo 0)) :=
    .call (.rx firstTwo 0) began ⟨firstTwo_fromPeer _, careful⟩ rfl
  have taken : Run exec allowed opened (Op.after (Op.after opened (.rx firstTwo 0)) (.recv 0 10)) :=
    .call (.recv 0 10) arrived ⟨trivial, trivial⟩ rfl
  exact ⟨_, run_inOrder opened_starts taken, by decide⟩

theorem run_not_inOrder : ¬ ∀ (stream : List UInt8) (first : UInt32) (number : Nat) (start s : Stack),
    Starts start number first → Run exec (FromPeer stream first number) start s → InOrder stream first number s := by
  intro inOrder
  let twice := Op.after (Op.after opened (.rx firstTwo 0)) (.rx firstTwo 0)
  have began : Run exec (FromPeer [1, 2] 1000 1) opened opened := .start
  have once : Run exec (FromPeer [1, 2] 1000 1) opened (Op.after opened (.rx firstTwo 0)) :=
    .call (.rx firstTwo 0) began (firstTwo_fromPeer _) rfl
  have arrived : Run exec (FromPeer [1, 2] 1000 1) opened twice := .call (.rx firstTwo 0) once (firstTwo_fromPeer _) rfl
  have taken : Run exec (FromPeer [1, 2] 1000 1) opened (Op.after twice (.recv 0 10)) := .call (.recv 0 10) arrived trivial rfl
  -- The packet that came twice is in the buffer twice.
  have given := ((inOrder _ _ _ _ _ opened_starts taken).given 0 (by decide)).1
  exact absurd given (by decide)

end

end Enlil.Net
