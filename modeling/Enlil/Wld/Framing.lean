import Enlil.Wld.Events

/-! Requests come out of the received bytes as they were sent, and events go out whole. -/

namespace Enlil.Wld

/-- The messages that a stream of bytes starts with. -/
def parse (stream : List UInt8) : List Message := (wire.frames stream).map Message.ofFrame

/-- The messages dispatched are those of the bytes received, neither a whole message nor a malformed header is left in the input buffer, and more can be received. -/
structure Inbox.Follows (stream : List UInt8) (c : Inbox) : Prop where
  parsed : ∃ received, stream = received ++ c.unread ∧ c.dispatched = parse received
  complete : ¬ wire.Complete c.ibuf
  malformed : ¬ wire.Malformed c.ibuf
  going : c.unread ≠ [] → c.ibuf.length < bufLen

section

variable {c : Inbox} {stream : List UInt8}

theorem inU32_take {bytes : List UInt8} {off count : Nat} (inside : off + 4 ≤ count) :
    inU32 (bytes.take count) off = inU32 bytes off := by
  simp only [inU32, List.getD_eq_getElem?_getD]
  rw [List.getElem?_take_of_lt (by omega), List.getElem?_take_of_lt (by omega), List.getElem?_take_of_lt (by omega),
    List.getElem?_take_of_lt (by omega)]

theorem clientProcessInput_eq (c : Inbox) : clientProcessInput c =
    ⟨(wire.consume c.ibuf).2, c.dispatched ++ (wire.consume c.ibuf).1.map Message.ofFrame, c.unread⟩ := by
  induction long : c.ibuf.length using Nat.strong_induction_on generalizing c with
  | _ length ih =>
    have size : wire.size c.ibuf = (inU32 c.ibuf 4 >>> 16).toNat := rfl
    rw [clientProcessInput]
    split
    · rename_i header
      dsimp only
      rw [← size]
      split
      · rename_i small
        have bad : wire.Malformed c.ibuf := ⟨header, small⟩
        rw [Format.consume_malformed bad]
        simp
      · rename_i enough
        split
        · rename_i part
          have settled : wire.Settled c.ibuf :=
            ⟨fun whole => absurd whole.2.2 (by omega), fun bad => enough bad.2⟩
          rw [Format.consume_settled settled]
          simp
        · rename_i room
          have whole : wire.Complete c.ibuf := ⟨header, by show 8 ≤ _; omega, by omega⟩
          rw [ih _ (by simp only [List.length_drop]; omega) _ rfl, Format.consume_complete whole]
          simp only [List.map_cons, List.append_assoc, List.cons_append, List.nil_append, Message.ofFrame]
          rw [inU32_take (by omega), inU32_take (by omega)]
    · rename_i few
      have settled : wire.Settled c.ibuf := ⟨fun whole => few whole.1, fun bad => few bad.1⟩
      rw [Format.consume_settled settled]
      simp

theorem clientTurn_eq (settled : wire.Settled c.ibuf) {asked : Nat} (positive : 0 < asked) :
    clientTurn c asked =
      ⟨(wire.read bufLen asked ⟨c.ibuf, c.unread⟩).2.buffer,
        c.dispatched ++ (wire.read bufLen asked ⟨c.ibuf, c.unread⟩).1.map Message.ofFrame,
        (wire.read bufLen asked ⟨c.ibuf, c.unread⟩).2.unread⟩ := by
  unfold clientTurn Format.read
  dsimp only
  split
  · rename_i full
    rw [clientProcessInput_eq, full]
    simp
  · rename_i avail
    split
    · rename_i some
      rw [clientProcessInput_eq]
      rw [List.length_take] at some ⊢
      dsimp only
      have taken : c.unread.take (min (min asked (bufLen - c.ibuf.length)) c.unread.length) =
          c.unread.take (min asked (bufLen - c.ibuf.length)) := by
        rw [List.take_eq_take_iff]
        omega
      have dropped : c.unread.drop (min (min asked (bufLen - c.ibuf.length)) c.unread.length) =
          c.unread.drop (min asked (bufLen - c.ibuf.length)) := by
        rcases le_total (min asked (bufLen - c.ibuf.length)) c.unread.length with less | more
        · rw [Nat.min_eq_left less]
        · rw [Nat.min_eq_right more, List.drop_length, List.drop_eq_nil_of_le more]
      rw [taken, dropped]
    · rename_i none
      have nothing : c.unread = [] := by
        rw [List.length_take] at none
        apply List.length_eq_zero_iff.mp
        omega
      rw [nothing, List.take_nil, List.drop_nil, List.append_nil, Format.consume_settled settled, List.map_nil,
        List.append_nil]
      cases c
      simp_all

theorem turns_eq {cuts : List Nat} (positive : ∀ asked ∈ cuts, 0 < asked) (settled : wire.Settled c.ibuf) :
    cuts.foldl clientTurn c =
      ⟨(wire.reads bufLen cuts ⟨c.ibuf, c.unread⟩).2.buffer,
        c.dispatched ++ (wire.reads bufLen cuts ⟨c.ibuf, c.unread⟩).1.map Message.ofFrame,
        (wire.reads bufLen cuts ⟨c.ibuf, c.unread⟩).2.unread⟩ := by
  induction cuts generalizing c with
  | nil => simp [Format.reads]
  | cons asked cuts ih =>
    have first := clientTurn_eq settled (positive asked List.mem_cons_self)
    have kept : wire.Settled (clientTurn c asked).ibuf := by
      rw [first]
      exact Format.consume_settles _
    rw [List.foldl_cons, ih (fun asked member => positive asked (List.mem_cons_of_mem _ member)) kept, first]
    simp only [Format.reads, List.map_append, List.append_assoc]

theorem turns_follows {cuts : List Nat} (positive : ∀ asked ∈ cuts, 0 < asked) :
    Inbox.Follows stream (cuts.foldl clientTurn (Inbox.opened stream)) ↔
      wire.Follows bufLen Message.ofFrame stream (wire.reads bufLen cuts ⟨[], stream⟩) := by
  have same := turns_eq (c := Inbox.opened stream) positive Format.Settled.nil
  rw [same]
  constructor
  · intro ⟨parsed, complete, malformed, going⟩
    exact ⟨parsed, ⟨complete, malformed⟩, going⟩
  · intro ⟨parsed, settled, going⟩
    exact ⟨parsed, settled.1, settled.2, going⟩

end

/-- Requests are dispatched as they were sent, however the stream is cut, exactly if the stream is regular: no message is larger than the input buffer, and no message follows a malformed header wherever reading goes on behind it. In a run of calls whose events find room, or are left out as a whole, everything that was written for the client is a sequence of whole events. -/
theorem messages_whole (stream : List UInt8) (answers : List (List Int)) (sends : List Send) :
    ((∀ cuts : List Nat, (∀ asked ∈ cuts, 0 < asked) →
        (cuts.foldl clientTurn (Inbox.opened stream)).Follows stream) ↔ wire.Regular bufLen stream) ∧
      (SendsFit ⟨[], [], answers⟩ sends →
        ∃ es : List Event, es.Sublist (sends.flatMap Send.events) ∧
          (∀ e ∈ es, wire.Complete e.encode ∧ wire.size e.encode = e.encode.length) ∧
          (sends.foldl Send.apply ⟨[], [], answers⟩).flushed ++ (sends.foldl Send.apply ⟨[], [], answers⟩).obuf =
            es.flatMap Event.encode) := by
  constructor
  · rw [← Format.follows_iff Message.ofFrame (by decide : wire.header ≤ bufLen)]
    exact forall_congr' fun cuts => forall_congr' fun positive => turns_follows positive
  · intro fit
    obtain ⟨es, among, room, all⟩ := fit.wrote
    refine ⟨es, among, fun e member => ?_, all⟩
    obtain ⟨send, _, among⟩ := List.mem_flatMap.mp (among.subset member)
    exact Send.complete among (room e member)

/-- One request is dispatched however it is cut, and one event is written whole. -/
theorem messages_whole_one :
    (∀ cuts : List Nat, (∀ asked ∈ cuts, 0 < asked) →
        (cuts.foldl clientTurn (Inbox.opened [1, 0, 0, 0, 0, 0, 12, 0, 2, 0, 0, 0])).Follows
          [1, 0, 0, 0, 0, 0, 12, 0, 2, 0, 0, 0]) ∧
      ∃ es : List Event, es.Sublist ([.seatCaps 3].flatMap Send.events) ∧
        (∀ e ∈ es, wire.Complete e.encode ∧ wire.size e.encode = e.encode.length) ∧
        ([.seatCaps 3].foldl Send.apply ⟨[], [], [[100]]⟩).flushed ++
          ([.seatCaps 3].foldl Send.apply ⟨[], [], [[100]]⟩).obuf = es.flatMap Event.encode := by
  have both := messages_whole [1, 0, 0, 0, 0, 0, 12, 0, 2, 0, 0, 0] [[100]] [.seatCaps 3]
  have complete : wire.Complete [1, 0, 0, 0, 0, 0, 12, 0, 2, 0, 0, 0] := by decide
  exact ⟨both.1.mpr (.frame complete (by decide) (.short (by decide))), both.2 ⟨⟨.inl (by decide), trivial⟩, trivial⟩⟩

/-- A malformed header, and a request to be answered at once behind it. -/
def malformedFirst : List UInt8 := [1, 0, 0, 0, 0, 0, 0, 0, 1, 0, 0, 0, 0, 0, 12, 0, 2, 0, 0, 0]

/-- What is dispatched of a stream may depend on how it is cut. -/
theorem messages_cut :
    ([20].foldl clientTurn (Inbox.opened malformedFirst)).dispatched = [] ∧
      ([8, 12].foldl clientTurn (Inbox.opened malformedFirst)).dispatched = [⟨1, 0, [2, 0, 0, 0]⟩] := by
  constructor
  · simp [clientTurn, clientProcessInput, malformedFirst, Inbox.opened, bufLen, inU32]
  · simp [clientTurn, clientProcessInput, malformedFirst, Inbox.opened, bufLen, inU32]
    rfl

end Enlil.Wld
