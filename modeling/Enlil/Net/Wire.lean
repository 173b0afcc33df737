import Enlil.Net.Checksum

/-! What a stack writes into a segment is what a stack reads of it, and a change on the way is found. -/

namespace Enlil.Net.Wire

/-- The bytes of a number, the highest first, give the number. -/
theorem join16 (v : UInt16) : ((v >>> 8).toUInt8).toUInt16 <<< 8 ||| ((v &&& 0xFF).toUInt8).toUInt16 = v := by
  have bound := v.toNat_lt
  have low : v.toNat &&& 255 = v.toNat % 256 := Nat.and_two_pow_sub_one_eq_mod _ 8
  rw [← UInt16.toNat_inj]
  simp only [UInt16.toNat_or, UInt16.toNat_shiftLeft, UInt8.toNat_toUInt16, UInt16.toNat_toUInt8, UInt16.toNat_shiftRight,
    UInt16.toNat_and, UInt16.reduceToNat, Nat.reduceMod, Nat.reducePow, low, Nat.shiftRight_eq_div_pow]
  rw [Nat.mod_eq_of_lt (a := _ <<< 8), ← Nat.shiftLeft_add_eq_or_of_lt (by omega), Nat.shiftLeft_eq]
  · omega
  · rw [Nat.shiftLeft_eq]
    omega

theorem join32 (v : UInt32) :
    ((v >>> 24).toUInt8).toUInt32 <<< 24 ||| (((v >>> 16) &&& 0xFF).toUInt8).toUInt32 <<< 16 |||
      (((v >>> 8) &&& 0xFF).toUInt8).toUInt32 <<< 8 ||| ((v &&& 0xFF).toUInt8).toUInt32 = v := by
  have bound := v.toNat_lt
  have byte : ∀ w : UInt32, ((w &&& 0xFF).toUInt8).toUInt32.toNat = w.toNat % 256 := by
    intro w
    have low : w.toNat &&& 255 = w.toNat % 256 := Nat.and_two_pow_sub_one_eq_mod _ 8
    simp only [UInt8.toNat_toUInt32, UInt32.toNat_toUInt8, UInt32.toNat_and, UInt32.reduceToNat, low, Nat.reducePow, Nat.mod_mod]
  have top : ((v >>> 24).toUInt8).toUInt32.toNat = v.toNat / 2 ^ 24 := by
    simp only [UInt8.toNat_toUInt32, UInt32.toNat_toUInt8, UInt32.toNat_shiftRight, UInt32.reduceToNat, Nat.reduceMod,
      Nat.shiftRight_eq_div_pow]
    omega
  have second : (v >>> 16).toNat % 256 = v.toNat / 2 ^ 16 % 256 := by simp [Nat.shiftRight_eq_div_pow]
  have third : (v >>> 8).toNat % 256 = v.toNat / 2 ^ 8 % 256 := by simp [Nat.shiftRight_eq_div_pow]
  rw [← UInt32.toNat_inj]
  have two := glue_toNat 24 (shift_toNat 24 top (by decide) (by omega))
    (shift_toNat 16 ((byte _).trans second) (by decide) (by omega)) (by omega)
  have three := glue_toNat (h := v.toNat / 2 ^ 16) 16 (two.trans (by omega))
    (shift_toNat 8 ((byte _).trans third) (by decide) (by omega)) (by omega)
  have four := glue_toNat (h := v.toNat / 2 ^ 8) 8 (three.trans (by omega)) (byte v) (by omega)
  exact four.trans (by omega)

section

variable {buf : Buffer} {p n off : Nat}

theorem window_getD (inside : off < n) : (window buf p n).getD off 0 = buf (p + off) := by
  simp [window, inside]

theorem rd16_window {v : UInt16} (inside : off + 2 ≤ n) (high : buf (p + off) = (v >>> 8).toUInt8)
    (low : buf (p + (off + 1)) = (v &&& 0xFF).toUInt8) : rd16 (window buf p n) off = v := by
  rw [rd16, window_getD (by omega), window_getD (by omega), high, low, join16]

theorem rd32_window {v : UInt32} (inside : off + 4 ≤ n) (first : buf (p + off) = (v >>> 24).toUInt8)
    (second : buf (p + (off + 1)) = ((v >>> 16) &&& 0xFF).toUInt8) (third : buf (p + (off + 2)) = ((v >>> 8) &&& 0xFF).toUInt8)
    (last : buf (p + (off + 3)) = (v &&& 0xFF).toUInt8) : rd32 (window buf p n) off = v := by
  rw [rd32, window_getD (by omega), window_getD (by omega), window_getD (by omega), window_getD (by omega), first, second,
    third, last, join32]

end

/-- A packet is read as its transport part is, and its sender is the host. -/
theorem parse_assemble {h : Host} {tx mac : Buffer} {proto : UInt8} {dst : UInt32} {segLen : UInt16} {hlen : Nat}
    (fits : segLen.toNat + 20 < 65536) (low : 20 ≤ hlen) (high : hlen ≤ segLen.toNat)
    (header : ((tx (ethHlen + ipHdrLen + 12) >>> 4) &&& 0xF).toNat * 4 = hlen) :
    parse ((assemble h tx mac proto dst segLen).drop ethHlen) = some
      { srcIp := h.ip
        sport := rd16 (window tx (ethHlen + ipHdrLen) segLen.toNat) 0
        dport := rd16 (window tx (ethHlen + ipHdrLen) segLen.toNat) 2
        seq := rd32 (window tx (ethHlen + ipHdrLen) segLen.toNat) 4
        ack := rd32 (window tx (ethHlen + ipHdrLen) segLen.toNat) 8
        flags := tx (ethHlen + ipHdrLen + 13)
        window := rd16 (window tx (ethHlen + ipHdrLen) segLen.toNat) 14
        data := window tx (ethHlen + ipHdrLen + hlen) (segLen.toNat - hlen) } := by
  have tcp : ((assemble h tx mac proto dst segLen).drop ethHlen).drop ipHdrLen =
      window tx (ethHlen + ipHdrLen) segLen.toNat := by
    rw [List.drop_drop]
    exact transport_assemble fits
  have packet : (assemble h tx mac proto dst segLen).drop ethHlen =
      window (ipHdrFill h tx ethHlen proto dst (UInt16.ofNat ipHdrLen + segLen)) ethHlen (20 + segLen.toNat) := by
    rw [assemble, totLen_toNat fits, window_drop, (ethHdrFill_only h _ mac ethProtoIpv4).window (.inr (by decide)), Nat.zero_add,
      Nat.add_sub_cancel_left]
  have source : rd32 ((assemble h tx mac proto dst segLen).drop ethHlen) 12 = h.ip := by
    rw [packet]
    refine rd32_window (by omega) ?_ ?_ ?_ ?_ <;> simp [ipHdrFill, ipHdrBlank, wr16_apply, wr32_apply, ethHlen]
  have length : ((assemble h tx mac proto dst segLen).drop ethHlen).length = 20 + segLen.toNat := by
    rw [packet, window_length]
  unfold parse
  dsimp only
  rw [tcp, source, length, window_getD (by omega), window_getD (by omega), header, window_drop,
    if_neg (by simp only [ipHdrLen, tcpHdrLen]; omega)]

/-- The fixed part of the header of a segment. -/
def fixedPart (buf : Buffer) (c : TcpConn) (flags : UInt8) (seq ack : UInt32) (hlen : UInt16) : Buffer :=
  let tcp := ethHlen + ipHdrLen
  let ports := wr16 (wr16 (nsMemset buf tcp 0 hlen.toNat) tcp c.localPort) (tcp + 2) c.remotePort
  let numbers := wr32 (wr32 ports (tcp + 4) seq) (tcp + 8) ack
  let kinds := Function.update (Function.update numbers (tcp + 12) ((hlen / 4) <<< 4).toUInt8) (tcp + 13) flags
  wr16 kinds (tcp + 14) (UInt16.ofNat netStackTcpRxbuf)

section

variable {h : Host} {c : TcpConn} {flags : UInt8} {seq ack : UInt32} {hlen : UInt16}

variable (c flags seq ack) in
theorem fixedPart_only (buf : Buffer) (room : 20 ≤ hlen.toNat) :
    Only buf (fixedPart buf c flags seq ack hlen) (ethHlen + ipHdrLen) hlen.toNat := by
  have cleared : Only buf _ (ethHlen + ipHdrLen) hlen.toNat := nsMemset_only buf (ethHlen + ipHdrLen) 0 hlen.toNat
  have ports := (cleared.also (wr16_only _ (ethHlen + ipHdrLen) c.localPort) (by omega)).also
    (wr16_only _ (ethHlen + ipHdrLen + 2) c.remotePort) (by omega)
  have numbers := (ports.also (wr32_only _ (ethHlen + ipHdrLen + 4) seq) (by omega)).also
    (wr32_only _ (ethHlen + ipHdrLen + 8) ack) (by omega)
  have kinds := (numbers.also (update_only _ (ethHlen + ipHdrLen + 12) ((hlen / 4) <<< 4).toUInt8) (by omega)).also
    (update_only _ (ethHlen + ipHdrLen + 13) flags) (by omega)
  exact kinds.also (wr16_only _ (ethHlen + ipHdrLen + 14) _) (by omega)

theorem options_only (buf : Buffer) : Only buf
    (wr16 (Function.update (Function.update buf (ethHlen + ipHdrLen + tcpHdrLen) 2) (ethHlen + ipHdrLen + tcpHdrLen + 1) 4)
      (ethHlen + ipHdrLen + tcpHdrLen + 2) tcpMss) (ethHlen + ipHdrLen + tcpHdrLen) 4 :=
  have kind : Only buf _ (ethHlen + ipHdrLen + tcpHdrLen) 4 := (update_only buf _ 2).widen le_rfl (by decide)
  (kind.also (update_only _ (ethHlen + ipHdrLen + tcpHdrLen + 1) 4) (by omega)).also
    (wr16_only _ (ethHlen + ipHdrLen + tcpHdrLen + 2) tcpMss) (by omega)

/-- A packet whose segment starts with a fixed part. -/
theorem parse_fixedPart {tx mac buf : Buffer} {proto : UInt8} {dst : UInt32} {segLen : UInt16} (kind : hlen = 24 ∨ hlen = 20)
    (fits : segLen.toNat + 20 < 65536) (high : hlen.toNat ≤ segLen.toNat)
    (kept : ∀ i < 16, tx (ethHlen + ipHdrLen + i) = fixedPart buf c flags seq ack hlen (ethHlen + ipHdrLen + i)) :
    parse ((assemble h tx mac proto dst segLen).drop ethHlen) = some
      { srcIp := h.ip, sport := c.localPort, dport := c.remotePort, seq, ack, flags, window := UInt16.ofNat netStackTcpRxbuf
        data := window tx (ethHlen + ipHdrLen + hlen.toNat) (segLen.toNat - hlen.toNat) } := by
  have room : 20 ≤ hlen.toNat := by rcases kind with rfl | rfl <;> decide
  have header : ((tx (ethHlen + ipHdrLen + 12) >>> 4) &&& 0xF).toNat * 4 = hlen.toNat := by
    rw [kept 12 (by decide)]
    rcases kind with rfl | rfl <;> simp [fixedPart, wr16_apply]
  refine (parse_assemble fits room high header).trans (congrArg some ?_)
  congr 1
  · refine rd16_window (by omega) ?_ ?_ <;> rw [kept _ (by decide)] <;>
      simp [fixedPart, wr16_apply, wr32_apply, ethHlen, ipHdrLen]
  · refine rd16_window (by omega) ?_ ?_ <;> rw [kept _ (by decide)] <;>
      simp [fixedPart, wr16_apply, wr32_apply, ethHlen, ipHdrLen]
  · refine rd32_window (by omega) ?_ ?_ ?_ ?_ <;> rw [kept _ (by decide)] <;>
      simp [fixedPart, wr16_apply, wr32_apply, ethHlen, ipHdrLen]
  · refine rd32_window (by omega) ?_ ?_ ?_ ?_ <;> rw [kept _ (by decide)] <;>
      simp [fixedPart, wr16_apply, wr32_apply, ethHlen, ipHdrLen]
  · rw [kept 13 (by decide)]
    simp [fixedPart, wr16_apply]
  · refine rd16_window (by omega) ?_ ?_ <;> rw [kept _ (by decide)] <;> simp [fixedPart, wr16_apply, ethHlen, ipHdrLen]

end

section

variable {front back : List UInt8} {a b a' b' : UInt8}

/-- Two numbers that a sum in one's complement does not tell apart. -/
def Alike (v w : Nat) : Prop := v = w ∨ v = 0 ∧ w = 65535 ∨ v = 65535 ∧ w = 0

/-- A pair cannot be changed in a sum that is in order, but from all zeros to all ones. -/
theorem onesSum_altered (even : front.length % 2 = 0) (sum : onesSum (front ++ a :: b :: back) = 65535)
    (sum' : onesSum (front ++ a' :: b' :: back) = 65535) :
    Alike (a.toNat * 256 + b.toNat) (a'.toNat * 256 + b'.toNat) := by
  have folds := onesSum_folds (front ++ a :: b :: back)
  have folds' := onesSum_folds (front ++ a' :: b' :: back)
  rw [sum, words_append even, words, List.sum_append, List.sum_cons] at folds
  rw [sum', words_append even, words, List.sum_append, List.sum_cons] at folds'
  have same := folds.same
  have same' := folds'.same
  have := a.toNat_lt
  have := b.toNat_lt
  have := a'.toNat_lt
  have := b'.toNat_lt
  unfold Alike
  omega

theorem ipHdr_pair (start : ethHlen ≤ front.length) (inside : front.length + 2 ≤ ethHlen + ipHdrLen) :
    ipHdr (front ++ a :: b :: back) =
      front.drop ethHlen ++ a :: b :: back.take (ethHlen + ipHdrLen - (front.length + 2)) := by
  rw [ipHdr, List.drop_append_of_le_length start, List.take_append, List.take_of_length_le (by rw [List.length_drop]; omega),
    List.length_drop, show ipHdrLen - (front.length - ethHlen) = ethHlen + ipHdrLen - (front.length + 2) + 2 by omega]
  rfl

end

end Enlil.Net.Wire
