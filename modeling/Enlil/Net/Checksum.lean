import Enlil.Net.Tcp
import Enlil.Lib.Memory

/-! The packets that `user/net_stack.c` puts together, and that their checksums verify. -/

namespace Enlil.Net.Wire

def ethHlen : Nat := 14
def ethProtoArp : UInt16 := 0x0806
def ethProtoIpv4 : UInt16 := 0x0800
def ipProtoIcmp : UInt8 := 1
def ipProtoTcp : UInt8 := 6
def icmpEchoReq : UInt8 := 8
def icmpEchoReply : UInt8 := 0
def icmpHdrLen : Nat := 8
def tcpSynHdrLen : Nat := 24
def arpLen : Nat := 28

/-- The bytes behind a pointer. -/
abbrev Buffer := Nat → UInt8

/-- Some bytes of a buffer. -/
def window (buf : Buffer) (p n : Nat) : List UInt8 := (List.range n).map fun i => buf (p + i)

def wr16 (buf : Buffer) (p : Nat) (v : UInt16) : Buffer :=
  Function.update (Function.update buf p (v >>> 8).toUInt8) (p + 1) (v &&& 0xFF).toUInt8

def wr32 (buf : Buffer) (p : Nat) (v : UInt32) : Buffer :=
  let b0 := Function.update buf p (v >>> 24).toUInt8
  let b1 := Function.update b0 (p + 1) ((v >>> 16) &&& 0xFF).toUInt8
  let b2 := Function.update b1 (p + 2) ((v >>> 8) &&& 0xFF).toUInt8
  Function.update b2 (p + 3) (v &&& 0xFF).toUInt8

def nsMemset (buf : Buffer) (p : Nat) (val : UInt8) (n : Nat) : Buffer :=
  fun i => if p ≤ i ∧ i < p + n then val else buf i

def nsMemcpy (buf : Buffer) (p : Nat) (src : Buffer) (n : Nat) : Buffer :=
  fun i => if p ≤ i ∧ i < p + n then src (i - p) else buf i

/-- Adds the bytes to the sum in pairs; one that is left counts as the first of a pair. -/
def cksumAcc (buf : Buffer) : UInt32 → Nat → Nat → UInt32
  | acc, p, len + 2 => cksumAcc buf (acc + ((buf p).toUInt32 <<< 8 ||| (buf (p + 1)).toUInt32)) (p + 2) len
  | acc, p, 1 => acc + (buf p).toUInt32 <<< 8
  | acc, _, 0 => acc

theorem foldStep_toNat (acc : UInt32) :
    ((acc &&& (0xFFFF : UInt32)) + (acc >>> (16 : UInt32))).toNat = acc.toNat % 65536 + acc.toNat / 65536 := by
  have bound := acc.toNat_lt
  have low : acc.toNat &&& 65535 = acc.toNat % 65536 := Nat.and_two_pow_sub_one_eq_mod _ 16
  simp only [UInt32.toNat_add, UInt32.toNat_and, UInt32.toNat_shiftRight, UInt32.reduceToNat, low, Nat.reduceMod,
    Nat.shiftRight_eq_div_pow, Nat.reducePow]
  exact Nat.mod_eq_of_lt (by omega)

theorem carry_iff (acc : UInt32) : acc >>> 16 ≠ 0 ↔ acc.toNat / 65536 ≠ 0 := by
  rw [Ne, ← UInt32.toNat_inj]
  simp [Nat.shiftRight_eq_div_pow]

/-- Folds the carries back until there is none. -/
def cksumFold (acc : UInt32) : UInt32 :=
  if acc >>> 16 ≠ 0 then cksumFold ((acc &&& (0xFFFF : UInt32)) + (acc >>> (16 : UInt32))) else acc
termination_by acc.toNat
decreasing_by
  rename_i carries
  have high := (carry_iff acc).mp carries
  rw [foldStep_toNat]
  omega

def cksumFin (acc : UInt32) : UInt16 := (~~~ cksumFold acc).toUInt16

def ipCksum (buf : Buffer) (p len : Nat) : UInt16 := cksumFin (cksumAcc buf 0 p len)

/-- The twelve bytes that stand for the header of the packet in the sum of a segment. -/
def pseudoHeader (srcIp dstIp : UInt32) (proto : UInt8) (segLen : UInt16) : Buffer :=
  let addresses := wr32 (wr32 (fun _ => 0) 0 srcIp) 4 dstIp
  wr16 (Function.update (Function.update addresses 8 0) 9 proto) 10 segLen

/-- The sum of a segment before it is folded. -/
def transportAcc (srcIp dstIp : UInt32) (proto : UInt8) (buf : Buffer) (seg : Nat) (segLen : UInt16) : UInt32 :=
  cksumAcc buf (cksumAcc (pseudoHeader srcIp dstIp proto segLen) 0 0 12) seg segLen.toNat

def transportCksum (srcIp dstIp : UInt32) (proto : UInt8) (buf : Buffer) (seg : Nat) (segLen : UInt16) : UInt16 :=
  cksumFin (transportAcc srcIp dstIp proto buf seg segLen)

/-- A packet that waits for the address of its next hop. -/
structure ArpPending where
  dstIp : UInt32
  frame : List UInt8

/-- What the stack keeps to send packets. -/
structure Host where
  mac : Buffer
  ip : UInt32
  mask : UInt32
  gw : UInt32
  ipId : UInt16
  arpLookup : UInt32 → Option Buffer
  arpPending : Option ArpPending
  /-- The buffer of the frame that is built. -/
  tx : Buffer

/-- What becomes of a frame: it is sent, or kept until the address of its next hop is known, or dropped. -/
inductive Emission where
  | sent (frame : List UInt8)
  | pending (frame : List UInt8)
  | dropped

/-- The frame that was produced. -/
def Emission.frame? : Emission → Option (List UInt8)
  | .sent frame => some frame
  | .pending frame => some frame
  | .dropped => none

def ethHdrFill (h : Host) (buf dstMac : Buffer) (proto : UInt16) : Buffer :=
  wr16 (nsMemcpy (nsMemcpy buf 0 dstMac 6) 6 h.mac 6) 12 proto

/-- Writes the request for an address into the buffer. -/
def arpSendRequest (h : Host) (targetIp : UInt32) : Host :=
  let arp := ethHlen
  let eth := ethHdrFill h h.tx (fun _ => 0xFF) ethProtoArp
  let kinds := wr16 (wr16 eth arp 1) (arp + 2) 0x0800
  let lengths := Function.update (Function.update kinds (arp + 4) 6) (arp + 5) 4
  let sender := wr32 (nsMemcpy (wr16 lengths (arp + 6) 1) (arp + 8) h.mac 6) (arp + 14) h.ip
  { h with tx := wr32 (nsMemcpy sender (arp + 18) (fun _ => 0) 6) (arp + 24) targetIp }

/-- The header of a packet before its checksum is known. -/
def ipHdrBlank (h : Host) (buf : Buffer) (p : Nat) (proto : UInt8) (dst : UInt32) (totLen : UInt16) : Buffer :=
  let cleared := Function.update (nsMemset buf p 0 ipHdrLen) p 0x45
  let lengths := wr16 (wr16 cleared (p + 2) totLen) (p + 4) h.ipId
  let kinds := Function.update (Function.update lengths (p + 8) 64) (p + 9) proto
  wr32 (wr32 kinds (p + 12) h.ip) (p + 16) dst

def ipHdrFill (h : Host) (buf : Buffer) (p : Nat) (proto : UInt8) (dst : UInt32) (totLen : UInt16) : Buffer :=
  let blank := ipHdrBlank h buf p proto dst totLen
  wr16 blank (p + 10) (ipCksum blank p ipHdrLen)

def nextHop (h : Host) (dstIp : UInt32) : UInt32 := if dstIp &&& h.mask = h.ip &&& h.mask then dstIp else h.gw

def ipv4SendAssembled (h : Host) (proto : UInt8) (dstIp : UInt32) (transportLen : UInt16) : Host × Emission :=
  let totLen := UInt16.ofNat ipHdrLen + transportLen
  let filled := ipHdrFill h h.tx ethHlen proto dstIp totLen
  let h := { h with ipId := h.ipId + 1 }
  match h.arpLookup (nextHop h dstIp) with
  | some dstMac =>
    let tx := ethHdrFill h filled dstMac ethProtoIpv4
    ({ h with tx }, .sent (window tx 0 (ethHlen + totLen.toNat)))
  | none =>
    match h.arpPending with
    | none =>
      let tx := ethHdrFill h filled (fun _ => 0xFF) ethProtoIpv4
      let frame := window tx 0 (ethHlen + totLen.toNat)
      (arpSendRequest { h with tx, arpPending := some ⟨nextHop h dstIp, frame⟩ } (nextHop h dstIp), .pending frame)
    | some _ => ({ h with tx := filled }, .dropped)

/-- Answers an echo request; the length is the one in the header of the packet. -/
def icmpRx (h : Host) (packet : Buffer) (ipLen : UInt16) : Host × Emission :=
  if ipLen.toNat < ipHdrLen + icmpHdrLen then (h, .dropped)
  else
    let icmp : Buffer := fun i => packet (ipHdrLen + i)
    let icmpLen := ipLen - UInt16.ofNat ipHdrLen
    let srcIp := (packet 12).toUInt32 <<< 24 ||| (packet 13).toUInt32 <<< 16 ||| (packet 14).toUInt32 <<< 8 |||
      (packet 15).toUInt32
    if icmp 0 ≠ icmpEchoReq then (h, .dropped)
    else
      let out := ethHlen + ipHdrLen
      let copied := nsMemcpy h.tx out icmp icmpLen.toNat
      let blank := wr16 (Function.update (Function.update copied out icmpEchoReply) (out + 1) 0) (out + 2) 0
      let tx := wr16 blank (out + 2) (ipCksum blank out icmpLen.toNat)
      ipv4SendAssembled { h with tx } ipProtoIcmp srcIp icmpLen

/-- Sends a segment of a connection; a payload that is not given stands in the buffer. -/
def tcpSendSeg (h : Host) (c : TcpConn) (flags : UInt8) (seq ack : UInt32) (payload : Option Buffer) (payloadLen : UInt16)
    (withMss : Bool) : Host × Emission :=
  let hlen : UInt16 := if withMss then UInt16.ofNat tcpSynHdrLen else UInt16.ofNat tcpHdrLen
  let segLen := hlen + payloadLen
  let tcp := ethHlen + ipHdrLen
  let ports := wr16 (wr16 (nsMemset h.tx tcp 0 hlen.toNat) tcp c.localPort) (tcp + 2) c.remotePort
  let numbers := wr32 (wr32 ports (tcp + 4) seq) (tcp + 8) ack
  let kinds := Function.update (Function.update numbers (tcp + 12) ((hlen / 4) <<< 4).toUInt8) (tcp + 13) flags
  let fixed := wr16 kinds (tcp + 14) (UInt16.ofNat netStackTcpRxbuf)
  let options :=
    if withMss then
      wr16 (Function.update (Function.update fixed (tcp + tcpHdrLen) 2) (tcp + tcpHdrLen + 1) 4) (tcp + tcpHdrLen + 2) tcpMss
    else fixed
  let filled :=
    match payload with
    | some payload => nsMemcpy options (tcp + hlen.toNat) payload payloadLen.toNat
    | none => options
  let blank := wr16 filled (tcp + 16) 0
  let tx := wr16 blank (tcp + 16) (transportCksum h.ip c.remoteIp ipProtoTcp blank tcp segLen)
  ipv4SendAssembled { h with tx } ipProtoTcp c.remoteIp segLen

/-- The segment that refuses another, before its checksum is known. -/
def tcpRstBlank (h : Host) (dstPort srcPort : UInt16) (seq ack : UInt32) (flags : UInt8) : Buffer :=
  let tcp := ethHlen + ipHdrLen
  let ports := wr16 (wr16 (nsMemset h.tx tcp 0 tcpHdrLen) tcp srcPort) (tcp + 2) dstPort
  let numbers :=
    if flags &&& tcpFlagAck ≠ 0 then Function.update (wr32 ports (tcp + 4) ack) (tcp + 13) tcpFlagRst
    else Function.update (wr32 (wr32 ports (tcp + 4) 0) (tcp + 8) (seq + 1)) (tcp + 13) (tcpFlagRst ||| tcpFlagAck)
  wr16 (Function.update numbers (tcp + 12) ((UInt16.ofNat tcpHdrLen / 4) <<< 4).toUInt8) (tcp + 16) 0

/-- Refuses a segment; nothing is sent while the address is not known. -/
def tcpSendRst (h : Host) (dstIp : UInt32) (dstPort srcPort : UInt16) (seq ack : UInt32) (flags : UInt8) : Host × Emission :=
  let tcp := ethHlen + ipHdrLen
  let blank := tcpRstBlank h dstPort srcPort seq ack flags
  let sealed := wr16 blank (tcp + 16) (transportCksum h.ip dstIp ipProtoTcp blank tcp (UInt16.ofNat tcpHdrLen))
  let totLen := UInt16.ofNat ipHdrLen + UInt16.ofNat tcpHdrLen
  let filled := ipHdrFill h sealed ethHlen ipProtoTcp dstIp totLen
  let h := { h with ipId := h.ipId + 1 }
  match h.arpLookup (nextHop h dstIp) with
  | some dmac =>
    let tx := ethHdrFill h filled dmac ethProtoIpv4
    ({ h with tx }, .sent (window tx 0 (ethHlen + totLen.toNat)))
  | none => ({ h with tx := filled }, .dropped)

/-- The pairs of some bytes as numbers; one that is left is the first of a pair. -/
def words : List UInt8 → List Nat
  | a :: b :: rest => (a.toNat * 256 + b.toNat) :: words rest
  | [a] => [a.toNat * 256]
  | [] => []

/-- Addition in one's complement: a carry is added back. -/
def onesAdd (a b : Nat) : Nat := if a + b < 65536 then a + b else a + b - 65535

def onesSum (bytes : List UInt8) : Nat := (words bytes).foldl onesAdd 0

/-- The header of the packet in a frame, and what follows it. -/
def ipHdr (frame : List UInt8) : List UInt8 := (frame.drop ethHlen).take ipHdrLen

def transport (frame : List UInt8) : List UInt8 := frame.drop (ethHlen + ipHdrLen)

/-- The bytes that a receiver puts before a segment to verify it. -/
def receiverHeader (frame : List UInt8) : List UInt8 :=
  (ipHdr frame).drop 12 ++ [0, (ipHdr frame).getD 9 0] ++
    [UInt8.ofNat ((transport frame).length / 256), UInt8.ofNat ((transport frame).length % 256)]

/-- What is left of a sum when its carries are added back. -/
structure Folds (folded sum : Nat) : Prop where
  short : folded < 65536
  same : folded % 65535 = sum % 65535
  zero : folded = 0 ↔ sum = 0

theorem Folds.complement {folded sum total : Nat} (folds : Folds folded sum) (all : Folds total (sum + (65535 - folded))) :
    total = 65535 := by
  obtain ⟨short, same, zero⟩ := folds
  obtain ⟨short', same', zero'⟩ := all
  omega

theorem onesAdd_folds {a b sum : Nat} (folds : Folds a sum) (short : b < 65536) : Folds (onesAdd a b) (sum + b) := by
  obtain ⟨short', same, zero⟩ := folds
  unfold onesAdd
  constructor <;> split <;> omega

theorem foldl_onesAdd {ws : List Nat} (short : ∀ w ∈ ws, w < 65536) :
    ∀ {a sum : Nat}, Folds a sum → Folds (ws.foldl onesAdd a) (sum + ws.sum) := by
  induction ws with
  | nil => exact fun folds => folds
  | cons w ws ih =>
    intro a sum folds
    rw [List.foldl_cons, List.sum_cons, ← Nat.add_assoc]
    exact ih (fun w' later => short w' (List.mem_cons_of_mem w later)) (onesAdd_folds folds (short w List.mem_cons_self))

theorem words_short (bytes : List UInt8) : ∀ w ∈ words bytes, w < 65536 := by
  fun_induction words bytes with
  | case1 a b rest ih =>
    refine List.forall_mem_cons.mpr ⟨?_, ih⟩
    have := a.toNat_lt
    have := b.toNat_lt
    omega
  | case2 a =>
    have := a.toNat_lt
    exact List.forall_mem_singleton.mpr (by omega)
  | case3 => exact List.forall_mem_nil _

theorem onesSum_folds (bytes : List UInt8) : Folds (onesSum bytes) (words bytes).sum := by
  have folds := @foldl_onesAdd _ (words_short bytes) 0 0 ⟨by decide, rfl, Iff.rfl⟩
  rwa [Nat.zero_add] at folds

theorem cksumFold_folds (acc : UInt32) : Folds (cksumFold acc).toNat acc.toNat := by
  fun_induction cksumFold acc with
  | case1 acc carries ih =>
    have high := (carry_iff acc).mp carries
    obtain ⟨short, same, zero⟩ := ih
    rw [foldStep_toNat] at same zero
    exact ⟨short, by omega, by omega⟩
  | case2 acc none =>
    have none := mt (carry_iff acc).mpr none
    exact ⟨by omega, rfl, Iff.rfl⟩

theorem cksumFin_toNat (acc : UInt32) : (cksumFin acc).toNat = 65535 - (cksumFold acc).toNat := by
  have short := (cksumFold_folds acc).short
  rw [cksumFin, UInt32.toNat_toUInt16, UInt32.toNat_not]
  simp only [UInt32.size]
  omega

/-- What a byte counts in the sum of a buffer. -/
def weight (i : Nat) : Nat := if i % 2 = 0 then 256 else 1

/-- The sum of the pairs of a buffer. -/
def byteSum (buf : Buffer) (p n : Nat) : Nat := ∑ i ∈ Finset.range n, weight i * (buf (p + i)).toNat

section

variable (buf : Buffer) (p n : Nat)

theorem byteSum_pair : byteSum buf p (n + 2) = (buf p).toNat * 256 + (buf (p + 1)).toNat + byteSum buf (p + 2) n := by
  have shift : ∀ i, weight (i + 1 + 1) * (buf (p + (i + 1 + 1))).toNat = weight i * (buf (p + 2 + i)).toNat := fun i => by
    rw [weight, weight, show (i + 1 + 1) % 2 = i % 2 by omega, show p + (i + 1 + 1) = p + 2 + i by omega]
  rw [byteSum, Finset.sum_range_succ', Finset.sum_range_succ', Finset.sum_congr rfl fun i _ => shift i, byteSum]
  simp only [weight, Nat.add_zero, Nat.zero_add, Nat.reduceMod, if_true, one_ne_zero, if_false]
  ring

theorem byteSum_one : byteSum buf p 1 = (buf p).toNat * 256 := by simp [byteSum, weight, Nat.mul_comm]

theorem byteSum_le : byteSum buf p n ≤ n * 65280 := by
  refine (Finset.sum_le_card_nsmul (Finset.range n) _ 65280 fun i _ => ?_).trans (by simp)
  have := (buf (p + i)).toNat_lt
  unfold weight
  split <;> omega

theorem window_succ : window buf p (n + 1) = buf p :: window buf (p + 1) n := by
  rw [window, List.range_succ_eq_map, List.map_cons, List.map_map]
  simp [window, Function.comp_def, Nat.add_comm, Nat.add_left_comm]

@[simp] theorem window_length : (window buf p n).length = n := by rw [window, List.length_map, List.length_range]

theorem words_window : (words (window buf p n)).sum = byteSum buf p n := by
  induction n using Nat.twoStepInduction generalizing p with
  | zero => rfl
  | one => rw [byteSum_one]; simp [window, words]
  | more n ih _ => rw [byteSum_pair, window_succ, window_succ, words, List.sum_cons, ih]

theorem pair_toNat (a b : UInt8) : (a.toUInt32 <<< 8 ||| b.toUInt32).toNat = a.toNat * 256 + b.toNat := by
  have bound := a.toNat_lt
  exact glue_toNat 8 (shift_toNat 8 (UInt8.toNat_toUInt32 a) (by decide) (by omega)) (UInt8.toNat_toUInt32 b) b.toNat_lt

theorem cksumAcc_toNat (acc : UInt32) (fits : acc.toNat + byteSum buf p n < 2 ^ 32) :
    (cksumAcc buf acc p n).toNat = acc.toNat + byteSum buf p n := by
  fun_induction cksumAcc buf acc p n with
  | case1 acc p n ih =>
    rw [byteSum_pair, ← Nat.add_assoc] at fits ⊢
    have step : (acc + ((buf p).toUInt32 <<< 8 ||| (buf (p + 1)).toUInt32)).toNat =
        acc.toNat + ((buf p).toNat * 256 + (buf (p + 1)).toNat) := by
      rw [UInt32.toNat_add, pair_toNat, Nat.mod_eq_of_lt ((Nat.le_add_right _ _).trans_lt fits)]
    rw [step] at ih
    exact ih fits
  | case2 acc p =>
    rw [byteSum_one] at fits ⊢
    have shifted := pair_toNat (buf p) 0
    rw [show (0 : UInt8).toUInt32 = 0 from rfl, UInt32.or_zero, UInt8.toNat_zero, Nat.add_zero] at shifted
    rw [UInt32.toNat_add, shifted, Nat.mod_eq_of_lt fits]
  | case3 acc p => rfl

end

/-- The sum of a buffer is exact at each of its steps. -/
def Exact (buf : Buffer) (acc : UInt32) (p n : Nat) : Prop :=
  ∀ k ≤ n, (cksumAcc buf acc p k).toNat = acc.toNat + (words (window buf p k)).sum

theorem exact_of_fits {buf : Buffer} {acc : UInt32} {p n : Nat} (fits : acc.toNat + n * 65280 < 2 ^ 32) : Exact buf acc p n := by
  intro k inside
  have bound := byteSum_le buf p k
  rw [words_window, cksumAcc_toNat]
  omega

theorem Exact.end_eq {buf : Buffer} {acc : UInt32} {p n : Nat} (exact' : Exact buf acc p n) :
    (cksumAcc buf acc p n).toNat = acc.toNat + byteSum buf p n := by rw [exact' n le_rfl, words_window]

theorem ipCksum_exact (buf : Buffer) (p : Nat) (len : UInt16) : Exact buf 0 p len.toNat := by
  have bound := len.toNat_lt
  refine exact_of_fits ?_
  rw [UInt32.toNat_zero]
  omega

section

variable (srcIp dstIp : UInt32) (proto : UInt8) (buf : Buffer) (seg : Nat) (segLen : UInt16)

theorem pseudoHeader_exact : Exact (pseudoHeader srcIp dstIp proto segLen) 0 0 12 := exact_of_fits (by decide)

theorem transportAcc_exact : Exact buf (cksumAcc (pseudoHeader srcIp dstIp proto segLen) 0 0 12) seg segLen.toNat := by
  have bound := segLen.toNat_lt
  have front := byteSum_le (pseudoHeader srcIp dstIp proto segLen) 0 12
  refine exact_of_fits ?_
  rw [(pseudoHeader_exact srcIp dstIp proto segLen).end_eq, UInt32.toNat_zero]
  omega

theorem transportAcc_toNat : (transportAcc srcIp dstIp proto buf seg segLen).toNat =
    (words (window (pseudoHeader srcIp dstIp proto segLen) 0 12)).sum + byteSum buf seg segLen.toNat := by
  rw [transportAcc, (transportAcc_exact srcIp dstIp proto buf seg segLen).end_eq,
    (pseudoHeader_exact srcIp dstIp proto segLen).end_eq, words_window, UInt32.toNat_zero, Nat.zero_add]

end

theorem words_append {front : List UInt8} (even : front.length % 2 = 0) (rest : List UInt8) :
    words (front ++ rest) = words front ++ words rest := by
  fun_induction words front with
  | case1 a b front ih =>
    rw [List.cons_append, List.cons_append, words, ih (by simpa [Nat.add_assoc] using even), List.cons_append]
  | case2 a => cases even
  | case3 => rfl

section

variable {buf : Buffer} {p n k : Nat}

theorem byteSum_update (inside : k < n) (zero : buf (p + k) = 0) (b : UInt8) :
    byteSum (Function.update buf (p + k) b) p n = byteSum buf p n + weight k * b.toNat := by
  have member := Finset.mem_range.mpr inside
  rw [byteSum, byteSum, ← Finset.add_sum_erase _ _ member, ← Finset.add_sum_erase _ _ member, Function.update_self, zero,
    UInt8.toNat_zero, Nat.mul_zero, Nat.zero_add, Nat.add_comm]
  congr 1
  refine Finset.sum_congr rfl fun i other => ?_
  rw [Function.update_of_ne]
  exact fun same => Finset.ne_of_mem_erase other (Nat.add_left_cancel same)

theorem byteSum_wr16 (even : k % 2 = 0) (inside : k + 2 ≤ n) (zero : buf (p + k) = 0) (zero' : buf (p + (k + 1)) = 0)
    (v : UInt16) : byteSum (wr16 buf (p + k) v) p n = byteSum buf p n + v.toNat := by
  have low : v.toNat &&& 255 = v.toNat % 256 := Nat.and_two_pow_sub_one_eq_mod _ 8
  have bound := v.toNat_lt
  rw [wr16, Nat.add_assoc, byteSum_update (by omega), byteSum_update (by omega) zero]
  · simp only [weight, even, if_true, show (k + 1) % 2 = 1 by omega, one_ne_zero, if_false, UInt16.toNat_toUInt8,
      UInt16.toNat_shiftRight, UInt16.toNat_and, UInt16.reduceToNat, low, Nat.reduceMod, Nat.shiftRight_eq_div_pow, Nat.reducePow]
    omega
  · rw [Function.update_of_ne (by omega), zero']

theorem onesSum_sealed (front : List UInt8) {acc : UInt32} (pairs : front.length % 2 = 0)
    (sum : acc.toNat = (words front).sum + byteSum buf p n) (even : k % 2 = 0) (inside : k + 2 ≤ n) (zero : buf (p + k) = 0)
    (zero' : buf (p + (k + 1)) = 0) : onesSum (front ++ window (wr16 buf (p + k) (cksumFin acc)) p n) = 65535 := by
  have all := onesSum_folds (front ++ window (wr16 buf (p + k) (cksumFin acc)) p n)
  rw [words_append pairs, List.sum_append, words_window, byteSum_wr16 even inside zero zero', cksumFin_toNat,
    ← Nat.add_assoc, ← sum] at all
  exact (cksumFold_folds acc).complement all

/-- Only some bytes of a buffer are changed. -/
def Only (buf buf' : Buffer) (p n : Nat) : Prop := ∀ i, i < p ∨ p + n ≤ i → buf' i = buf i

theorem Only.widen {buf' : Buffer} {r l : Nat} (only : Only buf buf' p n) (start : r ≤ p) (stop : p + n ≤ r + l) :
    Only buf buf' r l :=
  fun i outside => only i (by omega)

theorem Only.also {buf' buf'' : Buffer} {q m : Nat} (first : Only buf buf' p n) (second : Only buf' buf'' q m)
    (inside : p ≤ q ∧ q + m ≤ p + n) : Only buf buf'' p n :=
  fun i outside => (second.widen inside.1 inside.2 i outside).trans (first i outside)

theorem Only.window {buf' : Buffer} {q m : Nat} (only : Only buf buf' p n) (apart : q + m ≤ p ∨ p + n ≤ q) :
    window buf' q m = window buf q m :=
  List.map_congr_left fun i inside => only (q + i) (by have := List.mem_range.mp inside; omega)

theorem update_only (buf : Buffer) (p : Nat) (b : UInt8) : Only buf (Function.update buf p b) p 1 :=
  fun i outside => Function.update_of_ne (by omega) b buf

theorem wr16_only (buf : Buffer) (p : Nat) (v : UInt16) : Only buf (wr16 buf p v) p 2 :=
  ((update_only buf p _).widen le_rfl (Nat.le_succ _)).also (update_only _ (p + 1) _) (by omega)

theorem wr32_only (buf : Buffer) (p : Nat) (v : UInt32) : Only buf (wr32 buf p v) p 4 :=
  have one : Only buf _ p 4 := (update_only buf p _).widen le_rfl (by omega)
  ((one.also (update_only _ (p + 1) _) (by omega)).also (update_only _ (p + 2) _) (by omega)).also (update_only _ (p + 3) _)
    (by omega)

theorem nsMemset_only (buf : Buffer) (p : Nat) (val : UInt8) (n : Nat) : Only buf (nsMemset buf p val n) p n :=
  fun _ outside => if_neg (by omega)

theorem nsMemcpy_only (buf : Buffer) (p : Nat) (src : Buffer) (n : Nat) : Only buf (nsMemcpy buf p src n) p n :=
  fun _ outside => if_neg (by omega)

end

theorem window_drop (buf : Buffer) (p n k : Nat) : (window buf p n).drop k = window buf (p + k) (n - k) := by
  refine List.ext_getElem (by simp) fun i _ _ => ?_
  simp [window, Nat.add_assoc]

theorem window_take (buf : Buffer) (p n k : Nat) : (window buf p n).take k = window buf p (min k n) := by
  refine List.ext_getElem (by simp) fun i _ _ => ?_
  simp [window]

theorem wr16_apply (buf : Buffer) (p : Nat) (v : UInt16) (i : Nat) :
    wr16 buf p v i = if i = p + 1 then (v &&& 0xFF).toUInt8 else if i = p then (v >>> 8).toUInt8 else buf i := by
  simp only [wr16, Function.update_apply]

theorem wr32_apply (buf : Buffer) (p : Nat) (v : UInt32) (i : Nat) :
    wr32 buf p v i = if i = p + 3 then (v &&& 0xFF).toUInt8 else if i = p + 2 then ((v >>> 8) &&& 0xFF).toUInt8
      else if i = p + 1 then ((v >>> 16) &&& 0xFF).toUInt8 else if i = p then (v >>> 24).toUInt8 else buf i := by
  simp only [wr32, Function.update_apply]

section

variable (h : Host) (buf : Buffer) (p : Nat) (proto : UInt8) (dst : UInt32) (totLen : UInt16)

theorem ipHdrBlank_only : Only buf (ipHdrBlank h buf p proto dst totLen) p 20 := by
  have cleared : Only buf _ p 20 := nsMemset_only buf p 0 ipHdrLen
  have lengths := ((cleared.also (update_only _ p 0x45) (by omega)).also (wr16_only _ (p + 2) totLen) (by omega)).also
    (wr16_only _ (p + 4) h.ipId) (by omega)
  have kinds := (lengths.also (update_only _ (p + 8) 64) (by omega)).also (update_only _ (p + 9) proto) (by omega)
  exact (kinds.also (wr32_only _ (p + 12) h.ip) (by omega)).also (wr32_only _ (p + 16) dst) (by omega)

theorem ipHdrFill_only : Only buf (ipHdrFill h buf p proto dst totLen) p 20 :=
  (ipHdrBlank_only h buf p proto dst totLen).also (wr16_only _ (p + 10) _) (by omega)

theorem onesSum_ipHdrFill : onesSum (window (ipHdrFill h buf p proto dst totLen) p ipHdrLen) = 65535 := by
  have sum : (cksumAcc (ipHdrBlank h buf p proto dst totLen) 0 p ipHdrLen).toNat =
      (words []).sum + byteSum (ipHdrBlank h buf p proto dst totLen) p ipHdrLen :=
    (ipCksum_exact _ p (UInt16.ofNat ipHdrLen)).end_eq
  have zero : ipHdrBlank h buf p proto dst totLen (p + 10) = 0 := by
    simp [ipHdrBlank, wr16_apply, wr32_apply, nsMemset, ipHdrLen]
  have zero' : ipHdrBlank h buf p proto dst totLen (p + (10 + 1)) = 0 := by
    simp [ipHdrBlank, wr16_apply, wr32_apply, nsMemset, ipHdrLen]
  have all := onesSum_sealed [] (p := p) (k := 10) rfl sum rfl (by decide) zero zero'
  rwa [List.nil_append] at all

theorem ipHdrFill_proto : ipHdrFill h buf p proto dst totLen (p + 9) = proto := by
  simp [ipHdrFill, ipHdrBlank, wr16_apply, wr32_apply]

theorem ipHdrFill_addresses (segLen : UInt16) :
    window (ipHdrFill h buf p proto dst totLen) (p + 12) 8 = window (pseudoHeader h.ip dst proto segLen) 0 8 := by
  simp [window, List.range_succ, ipHdrFill, ipHdrBlank, pseudoHeader, wr16_apply, wr32_apply, Function.update_apply]

end

theorem ethHdrFill_only (h : Host) (buf dstMac : Buffer) (proto : UInt16) : Only buf (ethHdrFill h buf dstMac proto) 0 14 :=
  have first : Only buf _ 0 14 := (nsMemcpy_only buf 0 dstMac 6).widen le_rfl (by decide)
  (first.also (nsMemcpy_only _ 6 h.mac 6) (by omega)).also (wr16_only _ 12 proto) (by omega)

/-- The frame of a packet whose transport part stands in a buffer. -/
def assemble (h : Host) (buf mac : Buffer) (proto : UInt8) (dst : UInt32) (transportLen : UInt16) : List UInt8 :=
  let totLen := UInt16.ofNat ipHdrLen + transportLen
  window (ethHdrFill h (ipHdrFill h buf ethHlen proto dst totLen) mac ethProtoIpv4) 0 (ethHlen + totLen.toNat)

section

variable {h : Host} {buf mac : Buffer} {proto : UInt8} {dst : UInt32} {transportLen : UInt16}

theorem totLen_toNat (fits : transportLen.toNat + 20 < 65536) :
    (UInt16.ofNat ipHdrLen + transportLen).toNat = 20 + transportLen.toNat := by
  rw [UInt16.toNat_add]
  exact Nat.mod_eq_of_lt (by rw [show (UInt16.ofNat ipHdrLen).toNat = 20 from rfl]; omega)

theorem ipHdr_assemble (fits : transportLen.toNat + 20 < 65536) :
    ipHdr (assemble h buf mac proto dst transportLen) =
      window (ipHdrFill h buf ethHlen proto dst (UInt16.ofNat ipHdrLen + transportLen)) ethHlen ipHdrLen := by
  rw [ipHdr, assemble, totLen_toNat fits, window_drop, window_take, (ethHdrFill_only h _ mac ethProtoIpv4).window]
  · rw [Nat.zero_add, Nat.min_eq_left (by simp only [ipHdrLen, ethHlen]; omega)]
  · exact .inr (by decide)

theorem transport_assemble (fits : transportLen.toNat + 20 < 65536) :
    transport (assemble h buf mac proto dst transportLen) = window buf (ethHlen + ipHdrLen) transportLen.toNat := by
  have length : ethHlen + (20 + transportLen.toNat) - (ethHlen + ipHdrLen) = transportLen.toNat := by
    simp only [ipHdrLen, ethHlen]
    omega
  rw [transport, assemble, totLen_toNat fits, window_drop, length, Nat.zero_add,
    (ethHdrFill_only h _ mac ethProtoIpv4).window (.inr (by decide)),
    (ipHdrFill_only h buf ethHlen proto dst _).window (.inr (by decide))]

theorem receiverHeader_assemble (fits : transportLen.toNat + 20 < 65536) :
    receiverHeader (assemble h buf mac proto dst transportLen) = window (pseudoHeader h.ip dst proto transportLen) 0 12 := by
  have bound := transportLen.toNat_lt
  rw [receiverHeader, transport_assemble fits, ipHdr_assemble fits, window_drop, window_length]
  have protoByte : (window (ipHdrFill h buf ethHlen proto dst (UInt16.ofNat ipHdrLen + transportLen)) ethHlen ipHdrLen).getD 9 0 = proto := by
    have value := ipHdrFill_proto h buf ethHlen proto dst (UInt16.ofNat ipHdrLen + transportLen)
    simpa [window, ipHdrLen] using value
  have high : UInt8.ofNat (transportLen.toNat / 256) = (transportLen >>> 8).toUInt8 := by
    rw [← UInt8.toNat_inj]
    simp [Nat.shiftRight_eq_div_pow]
  have low : UInt8.ofNat (transportLen.toNat % 256) = (transportLen &&& 0xFF).toUInt8 := by
    have low : transportLen.toNat &&& 255 = transportLen.toNat % 256 := Nat.and_two_pow_sub_one_eq_mod _ 8
    rw [← UInt8.toNat_inj]
    simp only [UInt8.toNat_ofNat', UInt16.toNat_toUInt8, UInt16.toNat_and, UInt16.reduceToNat, low, Nat.reducePow]
  have addresses := ipHdrFill_addresses h buf ethHlen proto dst (UInt16.ofNat ipHdrLen + transportLen) transportLen
  rw [protoByte, high, low, show ipHdrLen - 12 = 8 from rfl, addresses]
  simp [window, List.range_succ, pseudoHeader, wr16_apply, wr32_apply, Function.update_apply]

end

theorem ipv4SendAssembled_frame {h : Host} {proto : UInt8} {dst : UInt32} {transportLen : UInt16} {frame : List UInt8}
    (sent : frame ∈ (ipv4SendAssembled h proto dst transportLen).2.frame?) :
    ∃ mac, frame = assemble h h.tx mac proto dst transportLen := by
  unfold ipv4SendAssembled at sent
  dsimp only at sent
  split at sent
  · exact ⟨_, (Option.some.inj sent).symm⟩
  · split at sent
    · exact ⟨_, (Option.some.inj sent).symm⟩
    · cases sent

/-- A receiver finds the header of a packet in order. -/
def HeaderVerifies (frame : List UInt8) : Prop := onesSum (ipHdr frame) = 0xFFFF

/-- A receiver finds a reply to an echo request in order. -/
def ReplyVerifies (frame : List UInt8) : Prop := onesSum (transport frame) = 0xFFFF

/-- A receiver finds a segment in order. -/
def SegmentVerifies (frame : List UInt8) : Prop := onesSum (receiverHeader frame ++ transport frame) = 0xFFFF

section

variable {h : Host} {buf mac : Buffer} {proto : UInt8} {dst : UInt32} {transportLen : UInt16}

theorem headerVerifies_assemble (fits : transportLen.toNat + 20 < 65536) :
    HeaderVerifies (assemble h buf mac proto dst transportLen) := by
  rw [HeaderVerifies, ipHdr_assemble fits]
  exact onesSum_ipHdrFill h buf ethHlen proto dst _

theorem replyVerifies_assemble (fits : transportLen.toNat + 20 < 65536) (room : 4 ≤ transportLen.toNat)
    (zero : buf (ethHlen + ipHdrLen + 2) = 0) (zero' : buf (ethHlen + ipHdrLen + 3) = 0) :
    ReplyVerifies (assemble h (wr16 buf (ethHlen + ipHdrLen + 2) (ipCksum buf (ethHlen + ipHdrLen) transportLen.toNat)) mac
      proto dst transportLen) := by
  rw [ReplyVerifies, transport_assemble fits]
  exact onesSum_sealed [] rfl (ipCksum_exact buf _ transportLen).end_eq rfl room zero zero'

theorem segmentVerifies_assemble (fits : transportLen.toNat + 20 < 65536) (room : 18 ≤ transportLen.toNat)
    (zero : buf (ethHlen + ipHdrLen + 16) = 0) (zero' : buf (ethHlen + ipHdrLen + 17) = 0) :
    SegmentVerifies (assemble h (wr16 buf (ethHlen + ipHdrLen + 16)
      (transportCksum h.ip dst proto buf (ethHlen + ipHdrLen) transportLen)) mac proto dst transportLen) := by
  rw [SegmentVerifies, receiverHeader_assemble fits, transport_assemble fits]
  have pairs : (window (pseudoHeader h.ip dst proto transportLen) 0 12).length % 2 = 0 := by rw [window_length]
  exact onesSum_sealed _ pairs (transportAcc_toNat h.ip dst proto buf _ transportLen) rfl room zero zero'

end

theorem wr16_zero (buf : Buffer) (p : Nat) : wr16 buf p 0 p = 0 ∧ wr16 buf p 0 (p + 1) = 0 := by
  rw [wr16_apply, wr16_apply, if_neg (by omega), if_pos rfl, if_pos rfl]
  exact ⟨rfl, rfl⟩

theorem icmpRx_verifies {h : Host} {packet : Buffer} {ipLen : UInt16} {frame : List UInt8}
    (sent : frame ∈ (icmpRx h packet ipLen).2.frame?) : HeaderVerifies frame ∧ ReplyVerifies frame := by
  unfold icmpRx at sent
  split at sent
  · cases sent
  rename_i long
  dsimp only at sent
  have inside : ipHdrLen + icmpHdrLen = 28 := rfl
  have length : (ipLen - UInt16.ofNat ipHdrLen).toNat = ipLen.toNat - 20 := by
    rw [UInt16.toNat_sub_of_le]
    · rfl
    · exact UInt16.le_iff_toNat_le.mpr (by rw [show (UInt16.ofNat ipHdrLen).toNat = 20 from rfl]; omega)
  have bound := ipLen.toNat_lt
  split at sent
  · cases sent
  obtain ⟨mac, rfl⟩ := ipv4SendAssembled_frame sent
  have zero := wr16_zero
  exact ⟨headerVerifies_assemble (by omega), replyVerifies_assemble (by omega) (by omega) (zero _ _).1 (zero _ _).2⟩

theorem tcpSendSeg_verifies {h : Host} {c : TcpConn} {flags : UInt8} {seq ack : UInt32} {payload : Option Buffer}
    {payloadLen : UInt16} {withMss : Bool} {frame : List UInt8} (short : payloadLen ≤ tcpMss)
    (sent : frame ∈ (tcpSendSeg h c flags seq ack payload payloadLen withMss).2.frame?) :
    HeaderVerifies frame ∧ SegmentVerifies frame := by
  unfold tcpSendSeg at sent
  dsimp only at sent
  generalize hlen_eq : (if withMss then UInt16.ofNat tcpSynHdrLen else UInt16.ofNat tcpHdrLen) = hlen at sent
  have hlen_cases : hlen.toNat = 24 ∨ hlen.toNat = 20 := by
    rw [← hlen_eq]
    cases withMss
    · exact .inr rfl
    · exact .inl rfl
  have short : payloadLen.toNat ≤ 1460 := UInt16.le_iff_toNat_le.mp short
  have length : (hlen + payloadLen).toNat = hlen.toNat + payloadLen.toNat := by
    rw [UInt16.toNat_add, Nat.mod_eq_of_lt (by omega)]
  obtain ⟨mac, rfl⟩ := ipv4SendAssembled_frame sent
  have zero := wr16_zero
  exact ⟨headerVerifies_assemble (by omega), segmentVerifies_assemble (h := h) (by omega) (by omega) (zero _ _).1 (zero _ _).2⟩

theorem tcpSendRst_verifies {h : Host} {dstIp : UInt32} {dstPort srcPort : UInt16} {seq ack : UInt32} {flags : UInt8}
    {frame : List UInt8} (sent : frame ∈ (tcpSendRst h dstIp dstPort srcPort seq ack flags).2.frame?) :
    HeaderVerifies frame ∧ SegmentVerifies frame := by
  unfold tcpSendRst at sent
  dsimp only at sent
  have zero := wr16_zero
  split at sent
  · rename_i mac _
    have assembled : assemble h _ mac ipProtoTcp dstIp (UInt16.ofNat tcpHdrLen) = frame := Option.some.inj sent
    rw [← assembled]
    exact ⟨headerVerifies_assemble (by decide), segmentVerifies_assemble (by decide) (by decide)
      (zero _ _).1 (zero _ _).2⟩
  · cases sent

/-- A host that knows every address. -/
def plainHost : Host := ⟨fun _ => 2, 0x0A00020F, 0xFFFFFF00, 0x0A000202, 1, fun _ => some fun _ => 4, none, fun _ => 0⟩

end Enlil.Net.Wire
