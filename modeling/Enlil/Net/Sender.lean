import Enlil.Net.Stream

/-! What a connection sends is one stream of bytes, each segment numbered by those before it, and what the other end's application gets is a prefix of that stream. -/

namespace Enlil.Net

/-- The segments that were sent for a connection, the first one first. -/
def sentFor (number : Nat) (sent : List Sent) : List Sent := sent.filter fun seg => seg.number = number

def bytesOf (sent : List Sent) : List UInt8 := sent.flatMap Sent.payload

def Sent.fin (seg : Sent) : Bool := seg.flags &&& tcpFlagFin ≠ 0

/-- How far some segments move the number of the next one; the end of the stream counts one. -/
def span (sent : List Sent) : Nat := (bytesOf sent).length + sent.countP Sent.fin

/-- The segments behind the one that opens a connection are numbered by what was sent before them, and behind the end of the stream there are only acknowledgements. -/
def Numbered (first : UInt32) (sent : List Sent) : Prop :=
  ∀ front seg back, sent = front ++ seg :: back → seg.seq = first + UInt32.ofNat (span front) ∧
    (seg.fin = true → seg.payload = []) ∧ (0 < front.countP Sent.fin → seg.payload = [] ∧ seg.fin = false)

/-- In these states nothing more of the stream is sent. -/
def TcpState.Final : TcpState → Prop
  | .finWait1 | .finWait2 | .lastAck | .closed => True
  | _ => False

/-- A connection goes on behind the segments it has sent. -/
structure Continues (first : UInt32) (sent : List Sent) (c : TcpConn) : Prop where
  next : c.sndNxt = first + UInt32.ofNat (span sent)
  final : 0 < sent.countP Sent.fin → c.state.Final

/-- What holds of everything a stack has sent. -/
structure Sending (s : Stack) : Prop where
  conns : ∀ ci, (s.conns ci).number ≤ s.made
  sent : ∀ seg ∈ s.sent, seg.number ≤ s.made
  one : ∀ ci ci', 0 < (s.conns ci).number → (s.conns ci).number = (s.conns ci').number → ci = ci'
  numbered : ∀ number, 0 < number → number ≤ s.made → ∃ syn rest, sentFor number s.sent = syn :: rest ∧
    syn.payload = [] ∧ Numbered (syn.seq + 1) rest ∧
    ∀ ci, (s.conns ci).number = number → Continues (syn.seq + 1) rest (s.conns ci)

structure Keeps (c c' : TcpConn) : Prop where
  number : c'.number = c.number
  sndNxt : c'.sndNxt = c.sndNxt
  final : c.state.Final → c'.state.Final

section

variable {first : UInt32} {number ci : Nat} {s s' : Stack} {c conn : TcpConn} {seg : Segment} {sent front back : List Sent} {x : Sent}

theorem bytesOf_append : bytesOf (front ++ back) = bytesOf front ++ bytesOf back := List.flatMap_append

theorem span_concat : span (sent ++ [x]) = span sent + (x.payload.length + if x.fin then 1 else 0) := by
  rw [span, span, bytesOf_append, List.countP_append, List.length_append, List.countP_singleton,
    show bytesOf [x] = x.payload from List.append_nil _]
  omega

theorem Numbered.concat (numbered : Numbered first sent) (seq : x.seq = first + UInt32.ofNat (span sent))
    (alone : x.fin = true → x.payload = []) (after : 0 < sent.countP Sent.fin → x.payload = [] ∧ x.fin = false) :
    Numbered first (sent ++ [x]) := by
  intro front seg back split
  rcases List.eq_nil_or_concat back with rfl | ⟨init, last, rfl⟩
  · obtain ⟨rfl, same⟩ := List.append_inj' split rfl
    obtain rfl := (List.cons.inj same).1
    exact ⟨seq, alone, after⟩
  · rw [List.concat_eq_append, ← List.cons_append, ← List.append_assoc] at split
    exact numbered front seg init (List.append_inj' split rfl).1

theorem Numbered.place (numbered : Numbered first (front ++ x :: back)) :
    x.seq = first + UInt32.ofNat (span front) ∧
      x.payload = ((bytesOf (front ++ x :: back)).drop (span front)).take x.payload.length ∧
      (x.fin = true → span front + x.payload.length = (bytesOf (front ++ x :: back)).length) := by
  obtain ⟨seq, alone, after⟩ := numbered front x back rfl
  refine ⟨seq, ?_, fun fin => ?_⟩
  · rcases Nat.eq_zero_or_pos (front.countP Sent.fin) with none | ended
    · rw [span, none, bytesOf_append, Nat.add_zero, List.drop_left]
      exact List.take_left.symm
    · rw [(after ended).1]
      rfl
  · have none : front.countP Sent.fin = 0 := by
      by_contra ended
      rw [(after (Nat.pos_of_ne_zero ended)).2] at fin
      cases fin
    -- Nothing is carried behind the end.
    have empty : bytesOf back = [] := by
      refine List.flatMap_eq_nil_iff.mpr fun y later => ?_
      obtain ⟨mid, rest, rfl⟩ := List.append_of_mem later
      have split : front ++ x :: (mid ++ y :: rest) = (front ++ x :: mid) ++ y :: rest := by simp
      refine ((numbered _ y rest split).2.2 ?_).1
      exact List.countP_pos_iff.mpr ⟨x, by simp, fin⟩
    rw [span, none, alone fin, bytesOf_append, show bytesOf (x :: back) = x.payload ++ bytesOf back from rfl, alone fin, empty]
    simp

theorem Sending.follow (sending : Sending s) (sent : s'.sent = s.sent) (made : s'.made = s.made)
    (each : ∀ ci, (s'.conns ci).number = 0 ∨ Keeps (s.conns ci) (s'.conns ci)) : Sending s' := by
  have kept : ∀ ci, 0 < (s'.conns ci).number → Keeps (s.conns ci) (s'.conns ci) := fun ci real =>
    (each ci).resolve_left (Nat.ne_of_gt real)
  constructor
  · intro ci
    rw [made]
    rcases each ci with none | keeps
    · rw [none]
      exact Nat.zero_le _
    · rw [keeps.number]
      exact sending.conns ci
  · rw [sent, made]
    exact sending.sent
  · intro ci ci' real same
    have number := (kept ci real).number
    have number' := (kept ci' (same ▸ real)).number
    exact sending.one ci ci' (number ▸ real) (number.symm.trans (same.trans number'))
  · intro number real known
    rw [sent]
    obtain ⟨syn, rest, split, plain, numbered, continues⟩ := sending.numbered number real (made ▸ known)
    refine ⟨syn, rest, split, plain, numbered, fun ci here => ?_⟩
    have keeps := kept ci (here ▸ real)
    have before := continues ci (keeps.number.symm.trans here)
    exact ⟨keeps.sndNxt.trans before.next, fun ended => keeps.final (before.final ended)⟩

theorem Sending.setConn (sending : Sending s) (keeps : conn.number = 0 ∨ Keeps (s.conns ci) conn) : Sending (s.setConn ci conn) := by
  refine sending.follow rfl rfl fun other => ?_
  rw [setConn_conns]
  split
  · rename_i here
    exact here ▸ keeps
  · exact .inr ⟨rfl, rfl, id⟩

theorem Sending.send (sending : Sending s) {flags : UInt8} {ack : UInt32} {payload : List UInt8} (isFin : Bool)
    (fin : decide (flags &&& tcpFlagFin ≠ 0) = isFin) (same : conn.number = (s.conns ci).number)
    (next : conn.sndNxt = (s.conns ci).sndNxt + UInt32.ofNat (payload.length + if isFin then 1 else 0))
    (alone : isFin = true → payload = []) (opened : (s.conns ci).state.Final → payload = [] ∧ isFin = false)
    (final : isFin = true ∨ (s.conns ci).state.Final → conn.state.Final) :
    Sending ((tcpSendSeg s ci flags (s.conns ci).sndNxt ack payload).setConn ci conn) := by
  let x : Sent := ⟨(s.conns ci).number, flags, (s.conns ci).sndNxt, ack, payload, (s.conns ci).rcvd,
    ((s.conns ci).returned ++ (s.conns ci).rxBuf).length⟩
  have sentIs : ((tcpSendSeg s ci flags (s.conns ci).sndNxt ack payload).setConn ci conn).sent = s.sent ++ [x] := rfl
  have finIs : x.fin = isFin := fin
  have connsIs : ∀ other, ((tcpSendSeg s ci flags (s.conns ci).sndNxt ack payload).setConn ci conn).conns other =
      if other = ci then conn else s.conns other := fun other => setConn_conns ..
  have numbers : ∀ other, (((tcpSendSeg s ci flags (s.conns ci).sndNxt ack payload).setConn ci conn).conns other).number =
      (s.conns other).number := by
    intro other
    rw [connsIs]
    split
    · rename_i here
      rw [same, here]
    · rfl
  constructor
  · intro other
    rw [numbers]
    exact sending.conns other
  · rw [sentIs]
    intro seg member
    rcases List.mem_append.mp member with old | new
    · exact sending.sent seg old
    · rw [List.mem_singleton.mp new]
      exact sending.conns ci
  · intro other other' real alike
    rw [numbers] at real alike
    rw [numbers] at alike
    exact sending.one other other' real alike
  · intro number real known
    obtain ⟨syn, rest, split, plain, numbered, continues⟩ := sending.numbered number real known
    rw [sentIs, sentFor, List.filter_append, ← sentFor, split]
    by_cases here : (s.conns ci).number = number
    · have before := continues ci here
      have only : [x].filter (fun seg => seg.number = number) = [x] := List.filter_eq_self.mpr (by simpa [x] using here)
      rw [only]
      refine ⟨syn, rest ++ [x], rfl, plain, numbered.concat before.next (finIs ▸ alone) fun ended => ?_, fun other there => ?_⟩
      · rw [finIs]
        exact opened (before.final ended)
      · rw [numbers] at there
        obtain rfl := sending.one other ci (there ▸ real) (there.trans here.symm)
        rw [connsIs, if_pos rfl]
        refine ⟨?_, fun ended => final ?_⟩
        · rw [next, before.next, span_concat, finIs, UInt32.add_assoc, ← UInt32.ofNat_add]
        · rw [List.countP_append, List.countP_singleton, finIs] at ended
          rcases Nat.eq_zero_or_pos (rest.countP Sent.fin) with none | ended
          · rw [none] at ended
            cases isFin
            · cases ended
            · exact .inl rfl
          · exact .inr (before.final ended)
    · have none : [x].filter (fun seg => seg.number = number) = [] := by simpa [x] using here
      rw [none]
      refine ⟨syn, rest, List.append_nil _, plain, numbered, fun other there => ?_⟩
      rw [numbers] at there
      have differ : other ≠ ci := fun alike => here (alike ▸ there)
      rw [connsIs, if_neg differ]
      exact continues other there

theorem Sending.newConn (sending : Sending s) (new : conn.number = s.made + 1) {isnSeed : UInt32} {flags : UInt8} {ack : UInt32} :
    Sending ((tcpSendSeg { s.setConn ci conn with isnSeed, made := s.made + 1 } ci flags conn.sndNxt ack []).setConn ci
      { conn with sndNxt := conn.sndNxt + 1 }) := by
  have made : (s.setConn ci conn).conns ci = conn := (setConn_conns ..).trans (if_pos rfl)
  let x : Sent := ⟨s.made + 1, flags, conn.sndNxt, ack, [], conn.rcvd, (conn.returned ++ conn.rxBuf).length⟩
  have sentIs : ((tcpSendSeg { s.setConn ci conn with isnSeed, made := s.made + 1 } ci flags conn.sndNxt ack []).setConn ci
      { conn with sndNxt := conn.sndNxt + 1 }).sent = s.sent ++ [x] := by
    show s.sent ++ [_] = _
    simp only [made, new, x]
  have connsIs : ∀ other, ((tcpSendSeg { s.setConn ci conn with isnSeed, made := s.made + 1 } ci flags conn.sndNxt ack []).setConn
      ci { conn with sndNxt := conn.sndNxt + 1 }).conns other =
      if other = ci then { conn with sndNxt := conn.sndNxt + 1 } else s.conns other := by
    intro other
    rw [setConn_conns]
    split
    · rfl
    · rename_i differ
      exact (setConn_conns ..).trans (if_neg differ)
  have bound := sending.conns
  constructor
  · intro other
    show _ ≤ s.made + 1
    rw [connsIs]
    split
    · exact new.le
    · exact (bound other).trans (Nat.le_succ _)
  · rw [sentIs]
    intro seg member
    rcases List.mem_append.mp member with old | isNew
    · exact (sending.sent seg old).trans (Nat.le_succ _)
    · rw [List.mem_singleton.mp isNew]
      exact le_rfl
  · intro other other' real alike
    rw [connsIs] at real alike
    rw [connsIs] at alike
    have low := bound other
    have low' := bound other'
    split at alike <;> split at alike
    · rename_i here here'
      exact here.trans here'.symm
    · dsimp only at alike
      omega
    · dsimp only at alike
      omega
    · rename_i differ _
      rw [if_neg differ] at real
      exact sending.one other other' real alike
  · intro number real known
    have known : number ≤ s.made + 1 := known
    rw [sentIs, sentFor, List.filter_append, ← sentFor]
    rcases Nat.lt_or_eq_of_le known with old | rfl
    · obtain ⟨syn, rest, split, plain, numbered, continues⟩ := sending.numbered number real (Nat.le_of_lt_succ old)
      have none : [x].filter (fun seg => seg.number = number) = [] := by
        simpa [x] using (Nat.ne_of_gt old)
      rw [none, List.append_nil]
      refine ⟨syn, rest, split, plain, numbered, fun other there => ?_⟩
      rw [connsIs] at there ⊢
      split at there
      · dsimp only at there
        omega
      · rename_i differ
        rw [if_neg differ]
        exact continues other there
    · have none : sentFor (s.made + 1) s.sent = [] := by
        refine List.filter_eq_nil_iff.mpr fun seg member => ?_
        have low := sending.sent seg member
        simp only [decide_eq_true_eq]
        omega
      rw [none, show [x].filter (fun seg => seg.number = s.made + 1) = [x] by simp [x]]
      refine ⟨x, [], rfl, rfl, fun front seg back split => by simp at split, fun other there => ?_⟩
      rw [connsIs] at there ⊢
      split at there
      · rename_i here
        rw [if_pos here]
        exact ⟨(UInt32.add_zero _).symm, fun ended => absurd ended (Nat.lt_irrefl 0)⟩
      · have low := bound other
        omega

theorem Sending.ack (sending : Sending s) : Sending (sendAck s ci tcpFlagAck) := by
  have sent : Sending ((sendAck s ci tcpFlagAck).setConn ci (s.conns ci)) :=
    sending.send false (by decide) rfl (UInt32.add_zero _).symm nofun (fun _ => ⟨rfl, rfl⟩) fun either => either.resolve_left nofun
  refine sent.follow rfl rfl fun other => .inr ?_
  rw [setConn_conns]
  split
  · rename_i here
    exact here ▸ ⟨rfl, rfl, id⟩
  · exact ⟨rfl, rfl, id⟩

theorem Sending.end (sending : Sending s) (opened : ¬ (s.conns ci).state.Final) (same : conn.number = (s.conns ci).number)
    (next : conn.sndNxt = (s.conns ci).sndNxt + 1) (final : conn.state.Final) :
    Sending ((sendAck s ci (tcpFlagFin ||| tcpFlagAck)).setConn ci conn) :=
  sending.send true (by decide) same next (fun _ => rfl) (fun closed => absurd closed opened) fun _ => final

theorem Sending.closeConn (sending : Sending s) : Sending (tcpCloseConn s ci) := by
  unfold tcpCloseConn
  dsimp only
  split
  · exact sending.setConn (.inr ⟨rfl, rfl, fun _ => trivial⟩)
  · exact sending.setConn (.inl rfl)

theorem Sending.rxData (sending : Sending s) (data : List UInt8) : Sending (rxData s ci data) :=
  Sending.ack (sending.setConn (.inr ⟨rfl, rfl, id⟩))

theorem Sending.rxFin (sending : Sending s) (opened : ¬ (s.conns ci).state.Final) : Sending (rxFin s ci) := by
  have same : (s.setConn ci (s.conns ci).takeFin).conns ci = (s.conns ci).takeFin := (setConn_conns ..).trans (if_pos rfl)
  refine Sending.end (Sending.ack (sending.setConn (.inr ⟨rfl, rfl, id⟩))) ?_ rfl rfl trivial
  show ¬ ((s.setConn ci (s.conns ci).takeFin).conns ci).state.Final
  rw [same]
  exact opened

theorem Sending.rxLastFin (sending : Sending s) : Sending (rxLastFin s ci) :=
  Sending.closeConn (Sending.ack (sending.setConn (.inr ⟨rfl, rfl, id⟩)))

theorem Sending.rxEstablished (sending : Sending s) (established : (s.conns ci).state = .established) :
    Sending (rxEstablished s ci seg) := by
  unfold Net.rxEstablished
  dsimp only
  generalize windowedIs : (if seg.has tcpFlagAck then s.setConn ci { s.conns ci with sndWin := seg.window } else s) = windowed
  have windowed' : Sending windowed ∧ (windowed.conns ci).state = .established := by
    rw [← windowedIs]
    split
    · refine ⟨sending.setConn (.inr ⟨rfl, rfl, id⟩), ?_⟩
      rw [setConn_conns, if_pos rfl]
      exact established
    · exact ⟨sending, established⟩
  generalize placedIs : (if seg.data ≠ [] then Net.rxData windowed ci seg.data else windowed) = placed
  have placed' : Sending placed ∧ (placed.conns ci).state = .established := by
    rw [← placedIs]
    split
    · refine ⟨windowed'.1.rxData _, ?_⟩
      rw [rxData_conns, if_pos rfl]
      exact windowed'.2
    · exact windowed'
  split
  · exact placed'.1.rxFin (by rw [placed'.2]; exact id)
  · exact placed'.1

theorem Sending.rxConn (sending : Sending s) : Sending (rxConn s ci seg) := by
  unfold Net.rxConn
  dsimp only
  split
  · refine Sending.closeConn ?_
    split
    · exact sending.setConn (.inr ⟨rfl, rfl, id⟩)
    · exact sending
  split
  · rename_i state
    split
    · exact Sending.ack (sending.setConn (.inr ⟨rfl, rfl, fun final => by rw [state] at final; exact final⟩))
    · exact sending
  · rename_i state
    split
    · exact sending.setConn (.inr ⟨rfl, rfl, fun final => by rw [state] at final; exact final⟩)
    · exact sending
  · rename_i state
    exact sending.rxEstablished state
  · split
    · exact sending.closeConn
    · exact sending
  · have acked : Sending (if seg.has tcpFlagAck then s.setConn ci { s.conns ci with state := .finWait2 } else s) := by
      split
      · exact sending.setConn (.inr ⟨rfl, rfl, fun _ => trivial⟩)
      · exact sending
    split
    · exact acked.rxLastFin
    · exact acked
  · split
    · exact sending.rxLastFin
    · exact sending
  · exact sending
  · exact sending

theorem Sending.after (sending : Sending s) (op : Op) : Sending (op.after s) := by
  have same : ∀ c : TcpConn, c.number = 0 ∨ Keeps c c := fun c => .inr ⟨rfl, rfl, id⟩
  cases op with
  | rx packet place =>
    show Sending (tcpRx s packet)
    unfold tcpRx
    split
    · exact sending
    split
    · unfold rxNew
      split
      · exact sending
      split
      · exact sending
      split
      · exact sending
      · exact sending.newConn rfl
    · exact sending.rxConn
  | listen port dataCb =>
    show Sending (netStackTcpListen s port dataCb).1
    unfold netStackTcpListen
    split
    · exact sending
    · exact sending.follow rfl rfl fun ci => same _
  | connect dstIp dstPort localPort dataCb =>
    show Sending (netStackTcpConnect s dstIp dstPort localPort dataCb).1
    have moved : Sending (tcpAllocEphemeralPort s).2 := sending.follow rfl rfl fun ci => same _
    unfold netStackTcpConnect
    split
    · exact sending
    split
    · exact sending.newConn rfl
    dsimp only
    split
    · exact moved
    · exact moved.newConn rfl
  | send conn data =>
    show Sending (netStackTcpSend s conn data).1
    unfold netStackTcpSend
    split
    · exact sending
    dsimp only
    split
    · exact sending
    rename_i established
    split
    · exact sending
    generalize (if (s.conns conn).sndWin < tcpMss then (s.conns conn).sndWin else tcpMss) = maxSend
    split
    · exact sending
    · rw [not_not] at established
      exact sending.send false (by decide) rfl rfl nofun (by rw [established]; exact False.elim)
        fun either => either.resolve_left nofun
  | recv conn maxlen =>
    show Sending (netStackTcpRecv s conn maxlen).1
    unfold netStackTcpRecv
    split
    · exact sending
    dsimp only
    split
    · exact sending
    split
    · exact sending
    · exact sending.setConn (.inr ⟨rfl, rfl, id⟩)
  | close conn =>
    show Sending (netStackTcpClose s conn)
    unfold netStackTcpClose
    split
    · exact sending
    dsimp only
    split
    · exact sending
    split
    · exact sending.setConn (.inr ⟨rfl, rfl, fun _ => trivial⟩)
    split
    · exact sending
    rename_i ending
    refine sending.end (fun final => ending ?_) rfl rfl trivial
    constructor <;> intro state <;> rw [state] at final <;> exact final
  | release conn =>
    show Sending (netStackTcpRelease s conn)
    unfold netStackTcpRelease
    split
    · exact sending
    · exact sending.setConn (.inl rfl)

def netStackInit : Stack := ⟨fun _ => .zero, fun _ => ⟨0, false, false⟩, 0xA5A5A500, 49152, [], 0⟩

theorem run_sending (run : Run exec (fun _ _ => True) netStackInit s) : Sending s := by
  refine Run.invariant ⟨fun _ => le_rfl, List.forall_mem_nil _, fun _ _ real => absurd real (Nat.lt_irrefl 0),
    fun number real known => absurd known (Nat.not_le_of_gt real)⟩ (fun {s s' op} sending _ ran => ?_) run
  cases ran
  exact sending.after op

/-- The packets for a connection are segments that the other end has sent behind the one that opened its own; the place of each is what was sent before it. -/
def Carries (rest : List Sent) (number : Nat) (s : Stack) : Op → Prop
  | .rx packet place => ∀ seg ci, parse packet = some seg → findConn s seg = some ci → (s.conns ci).number = number →
      ∃ front x back, rest = front ++ x :: back ∧ place = span front ∧ seg.seq = x.seq ∧ seg.data = x.payload ∧ seg.flags = x.flags
  | _ => True

theorem Numbered.fromPeer {rest : List Sent} {op : Op} (numbered : Numbered first rest) (carries : Carries rest number s op) :
    FromPeer (bytesOf rest) first number s op := by
  cases op with
  | rx packet place =>
    intro seg ci parsed found here
    obtain ⟨front, x, back, rfl, rfl, seq, data, flags⟩ := carries seg ci parsed found here
    obtain ⟨seq', slice, ends⟩ := numbered.place
    rw [seq, data]
    refine ⟨seq', slice, fun fin => ends ?_⟩
    unfold Segment.has at fin
    rwa [flags] at fin
  | _ => exact trivial

/-- Two stacks, in any order of their steps: what the application on one gets of a connection is a prefix of what the other has sent on it, if its packets arrive in place. -/
theorem run_endToEnd {a start b : Stack} {number number' : Nat} {syn : Sent} {rest : List Sent}
    (sender : Run exec (fun _ _ => True) netStackInit a) (real : 0 < number) (sent : sentFor number a.sent = syn :: rest)
    (starts : Starts start number' (syn.seq + 1))
    (receiver : Run exec (fun s op => Carries rest number' s op ∧ Careful number' s op) start b) :
    Numbered (syn.seq + 1) rest ∧ InOrder (bytesOf rest) (syn.seq + 1) number' b := by
  have sending := run_sending sender
  have known : number ≤ a.made := by
    have member : syn ∈ sentFor number a.sent := sent ▸ List.mem_cons_self
    obtain ⟨inside, here⟩ := List.mem_filter.mp member
    exact of_decide_eq_true here ▸ sending.sent syn inside
  obtain ⟨_, _, split, _, numbered, _⟩ := sending.numbered number real known
  obtain ⟨rfl, rfl⟩ := List.cons.inj (sent.symm.trans split)
  refine ⟨numbered, ?_⟩
  have steady : Steady (bytesOf rest) (syn.seq + 1) number' b := by
    refine Run.invariant starts.steady (fun {s s' op} steady allowed ran => ?_) receiver
    cases ran
    exact steady.after (numbered.fromPeer allowed.1) allowed.2
  refine ⟨fun ci here => ?_, steady.sound.acks⟩
  have placed := steady.sound.conns ci here
  have returned : (b.conns ci).returned <+: bytesOf rest := (List.prefix_append ..).trans placed.placed
  refine ⟨returned, ?_⟩
  rw [placed.delivered]
  split
  · exact placed.placed
  · exact List.nil_prefix

end

def synAck : List UInt8 :=
  [0x45, 0, 0, 40, 0, 0, 0, 0, 64, 6, 0, 0, 10, 0, 2, 15, 10, 0, 2, 2,
    0, 80, 0x13, 0x88, 0, 0, 0, 9, 0xA5, 0xA5, 0xA5, 0x01, 0x50, 0x12, 0x08, 0, 0, 0, 0, 0]

def twoSent : Stack :=
  let connecting := Op.after netStackInit (.connect 0x0A00020F 80 5000 false)
  Op.after (Op.after connecting (.rx synAck 0)) (.send 0 [1, 2])

def answered : Stack := { opened with conns := fun ci => { opened.conns ci with rcvNxt := 0xA5A5A501 } }

def twoBytes : List UInt8 :=
  [0x45, 0, 0, 42, 0, 0, 0, 0, 64, 6, 0, 0, 10, 0, 2, 2, 10, 0, 2, 15,
    0x13, 0x88, 0, 80, 0xA5, 0xA5, 0xA5, 0x01, 0, 0, 0, 10, 0x50, 0x18, 0x08, 0, 0, 0, 0, 0, 1, 2]

theorem twoBytes_parse : parse twoBytes = some ⟨0x0A000202, 5000, 80, 0xA5A5A501, 10, 0x18, 0x800, [1, 2]⟩ := by
  decide

theorem run_endToEnd_twoBytes : ∃ b, InOrder [1, 2] 0xA5A5A501 1 b ∧ (b.conns 0).returned = [1, 2] := by
  have connected : Run exec (fun _ _ => True) netStackInit twoSent :=
    (((Run.start.call (.connect 0x0A00020F 80 5000 false) trivial rfl).call (.rx synAck 0) trivial rfl).call (.send 0 [1, 2])
      trivial rfl)
  let syn : Sent := ⟨1, 0x02, 0xA5A5A500, 0, [], 0, 0⟩
  let ack : Sent := ⟨1, 0x10, 0xA5A5A501, 10, [], 0, 0⟩
  let data : Sent := ⟨1, 0x18, 0xA5A5A501, 10, [1, 2], 0, 0⟩
  have sent : sentFor 1 twoSent.sent = syn :: [ack, data] := by rfl
  have starts : Starts answered 1 (syn.seq + 1) := by
    obtain ⟨known, conns, none⟩ := opened_starts
    refine ⟨known, fun ci here => ?_, none⟩
    obtain ⟨state, _, rest⟩ := conns ci here
    exact ⟨state, rfl, rest⟩
  have carried : ∀ s, Carries [ack, data] 1 s (.rx twoBytes 0) := by
    intro s seg ci parsed _ _
    rw [twoBytes_parse] at parsed
    cases parsed
    exact ⟨[ack], data, [], rfl, by decide, rfl, rfl, rfl⟩
  have careful : Careful 1 answered (.rx twoBytes 0) := by
    intro seg ci parsed found here _
    obtain ⟨state, _, buf, rcvd, _⟩ := starts.conns ci here
    rw [twoBytes_parse] at parsed
    cases parsed
    unfold InPlace
    rw [state, buf, rcvd]
    exact fun _ => ⟨rfl, by decide⟩
  let allowed := fun s op => Carries [ack, data] 1 s op ∧ Careful 1 s op
  have arrived : Run exec allowed answered (Op.after answered (.rx twoBytes 0)) := .call (.rx twoBytes 0) .start ⟨carried _, careful⟩ rfl
  have taken : Run exec allowed answered (Op.after (Op.after answered (.rx twoBytes 0)) (.recv 0 10)) :=
    .call (.recv 0 10) arrived ⟨trivial, trivial⟩ rfl
  exact ⟨_, (run_endToEnd connected (by decide) sent starts taken).2, by decide⟩

end Enlil.Net
