import Enlil.Wld.Wire

/-! The events that the calls of the compositor stand for, and when they arrive whole in the output buffer. -/

namespace Enlil.Wld

/-- Messages on the wire: eight bytes of header, of which the last two are the size of the message. -/
def wire : Format UInt8 where
  header := 8
  size bytes := (inU32 bytes 4 >>> 16).toNat
  header_pos := by decide
  size_append more long := by
    simp only [inU32, List.getD_eq_getElem?_getD]
    rw [List.getElem?_append_left, List.getElem?_append_left, List.getElem?_append_left, List.getElem?_append_left]
      <;> omega

/-- An argument of an event. -/
inductive Arg where
  | word (v : UInt32)
  | str (s : List UInt8)
  | array (bytes : List UInt8)

/-- The bytes of an argument: a word, or a length and the contents, padded. -/
def Arg.encode : Arg → List UInt8
  | word v => le32 v
  | str s => le32 (.ofNat (s.length + 1)) ++ s ++ List.replicate (padded (s.length + 1) - s.length) 0
  | array bytes => le32 (.ofNat bytes.length) ++ bytes ++ List.replicate (padded bytes.length - bytes.length) 0

/-- An event of an object. -/
structure Event where
  objId : UInt32
  opcode : UInt32
  args : List Arg

/-- The bytes of the arguments of an event. -/
def Event.payload (e : Event) : List UInt8 := e.args.flatMap Arg.encode

/-- The bytes of a whole event. -/
def Event.encode (e : Event) : List UInt8 :=
  le32 e.objId ++ le32 ((8 + UInt32.ofNat e.payload.length) <<< 16 ||| e.opcode) ++ e.payload

/-- The size of an event can be written in its header. -/
def Event.Small (e : Event) : Prop := 8 + e.payload.length < 2 ^ 16 ∧ e.opcode.toNat < 2 ^ 16

instance (e : Event) : Decidable e.Small := inferInstanceAs (Decidable (_ ∧ _))

/-- What a call does to the output buffer: it writes an event, or it flushes. -/
inductive Action where
  | write (e : Event)
  | flush

/-- The events and flushes of a call. -/
def Send.actions : Send → List Action
  | globals regId => globalList.flatMap fun entry =>
      [.write ⟨regId, 0, [.word entry.1, .str entry.2.1, .word entry.2.2]⟩, .flush]
  | shmFormats shmId => [.write ⟨shmId, 0, [.word 0]⟩, .write ⟨shmId, 0, [.word 1]⟩, .flush]
  | configure xdgTopObj xdgSurfObj viewW viewH serial =>
    -- The last word of the first event is the length of its array of states, which is empty.
    (if xdgTopObj ≠ 0 then
        [.write ⟨xdgTopObj, 0, [.word (if viewW > 4 then viewW - 4 else 0),
          .word (if viewH > 26 then viewH - 26 else 0), .word 0]⟩]
      else []) ++
      (if xdgSurfObj ≠ 0 then [.write ⟨xdgSurfObj, 0, [.word serial]⟩] else []) ++ [.flush]
  | seatCaps seatId => [.write ⟨seatId, 0, [.word 3]⟩, .flush]
  | outputInfo outId displayW displayH =>
    [.write ⟨outId, 0, [.word 0, .word 0, .word 200, .word 150, .word 0, .str (ascii "wld"), .str (ascii "virt"), .word 0]⟩,
      .write ⟨outId, 1, [.word 1, .word displayW, .word displayH, .word 60000]⟩, .write ⟨outId, 3, []⟩, .flush]
  | callbackDone cbId time => [.write ⟨cbId, 0, [.word time]⟩, .write ⟨1, 1, [.word cbId]⟩, .flush]
  | wmState objId layoutMode viewable focusIdx presentCount =>
    [.write ⟨objId, 0, [.word layoutMode, .word viewable, .word focusIdx, .word presentCount]⟩, .flush]
  | pointerEvent pointerObjId px py buttons => [.write ⟨pointerObjId, 0, [.word px, .word py, .word buttons]⟩, .flush]
  | termInput termObjId bytes => [.write ⟨termObjId, 0, [.array bytes]⟩, .flush]
  | toplevelClose xdgTopObj => [.write ⟨xdgTopObj, 1, []⟩, .flush]

/-- The events of a call. -/
def Send.events (send : Send) : List Event :=
  send.actions.filterMap fun
    | .write e => some e
    | .flush => none

/-- Writes an argument, with a check of the room for each of its parts. -/
def writeArg (c : Outbox) : Arg → Outbox
  | .word v => outU32 c v
  | .str s => outStr c s
  | .array bytes =>
    let c := outU32 c (.ofNat bytes.length)
    if bufLen < c.obuf.length + padded bytes.length then c
    else { c with obuf := c.obuf ++ bytes ++ List.replicate (padded bytes.length - bytes.length) 0 }

/-- Writes an event field by field. -/
def writeEvent (c : Outbox) (e : Event) : Outbox :=
  e.args.foldl writeArg (msgBegin c e.objId e.opcode (.ofNat e.payload.length))

def Action.apply (c : Outbox) : Action → Outbox
  | write e => writeEvent c e
  | flush => clientFlush c

/-- There is room for a whole event, or not even for its first word. -/
def Fits (c : Outbox) (e : Event) : Prop :=
  c.obuf.length + e.encode.length ≤ bufLen ∨ bufLen < c.obuf.length + 4

/-- Every event of a list of actions finds room when its turn comes, or is left out as a whole. -/
def ActionsFit : Outbox → List Action → Prop
  | _, [] => True
  | c, .write e :: actions => Fits c e ∧ ActionsFit (writeEvent c e) actions
  | c, .flush :: actions => ActionsFit (clientFlush c) actions

/-- Every event of a call finds room or is left out as a whole; a call that looks for room first always does so. -/
def Send.Fits (c : Outbox) : Send → Prop
  | termInput _ _ => True
  | send => ActionsFit c send.actions

/-- Every call of a run does so. -/
def SendsFit : Outbox → List Send → Prop
  | _, [] => True
  | c, send :: sends => send.Fits c ∧ SendsFit (send.apply c) sends

section

variable {c : Outbox} {e : Event}

theorem le32_length (v : UInt32) : (le32 v).length = 4 := rfl

theorem le_padded (length : Nat) : length ≤ padded length := by
  unfold padded
  omega

theorem inU32_le32 (v : UInt32) (rest : List UInt8) : inU32 (le32 v ++ rest) 0 = v := by
  have shift8 : (UInt32.toBitVec 8 % 32) = 8#32 := by decide
  have shift16 : (UInt32.toBitVec 16 % 32) = 16#32 := by decide
  have shift24 : (UInt32.toBitVec 24 % 32) = 24#32 := by decide
  apply UInt32.eq_of_toBitVec_eq
  apply BitVec.eq_of_getLsbD_eq
  intro i small
  -- Each of the 32 bits comes from one of the four bytes.
  simp only [inU32, le32, List.cons_append, List.getD_cons_zero, List.getD_cons_succ, zero_add, List.nil_append,
    UInt32.toBitVec_or, UInt32.toBitVec_shiftLeft, UInt8.toBitVec_toUInt32, UInt32.toBitVec_toUInt8,
    UInt32.toBitVec_shiftRight, BitVec.getLsbD_or, BitVec.getLsbD_setWidth, shift8, shift16, shift24,
    BitVec.shiftLeft_eq', BitVec.ushiftRight_eq', BitVec.toNat_ofNat, BitVec.getLsbD_shiftLeft,
    BitVec.getLsbD_ushiftRight]
  interval_cases i <;> simp

theorem size_header (objId opcode : UInt32) {size : UInt32} (rest : List UInt8) (small : size.toNat < 2 ^ 16)
    (low : opcode.toNat < 2 ^ 16) :
    wire.size (le32 objId ++ le32 (size <<< 16 ||| opcode) ++ rest) = size.toNat := by
  have second : inU32 (le32 objId ++ le32 (size <<< 16 ||| opcode) ++ rest) 4 = size <<< 16 ||| opcode :=
    inU32_le32 _ rest
  show (inU32 _ 4 >>> 16).toNat = _
  rw [second, UInt32.toNat_shiftRight, UInt32.toNat_or, UInt32.toNat_shiftLeft]
  show (size.toNat <<< 16 % 2 ^ 32 ||| opcode.toNat) >>> 16 = size.toNat
  rw [Nat.shiftRight_or_distrib, Nat.shiftRight_eq_div_pow opcode.toNat, Nat.div_eq_of_lt low, Nat.or_zero,
    Nat.shiftLeft_eq, Nat.mod_eq_of_lt (by omega), Nat.shiftRight_eq_div_pow, Nat.mul_div_cancel _ (by decide)]

theorem Event.Small.complete (small : e.Small) : wire.Complete e.encode ∧ wire.size e.encode = e.encode.length := by
  obtain ⟨size, low⟩ := small
  have length : e.encode.length = 8 + e.payload.length := by
    simp only [Event.encode, List.length_append, le32_length]
  have written : (8 + UInt32.ofNat e.payload.length).toNat = 8 + e.payload.length := by
    rw [UInt32.toNat_add, UInt32.toNat_ofNat']
    show (8 + _) % _ = _
    rw [Nat.mod_eq_of_lt (by omega), Nat.mod_eq_of_lt (by omega)]
  have read : wire.size e.encode = e.encode.length := by
    rw [Event.encode, size_header e.objId e.opcode _ (by rw [written]; exact size) low, written, ← length]
    rfl
  refine ⟨⟨?_, ?_, read.le⟩, read⟩
  · rw [length]
    exact Nat.le_add_right _ _
  · rw [read, length]
    exact Nat.le_add_right _ _

theorem outU32_room {v : UInt32} (room : c.obuf.length + 4 ≤ bufLen) :
    outU32 c v = { c with obuf := c.obuf ++ le32 v } := by
  rw [outU32, if_neg (by omega)]

theorem outU32_full {v : UInt32} (full : bufLen < c.obuf.length + 4) : outU32 c v = c := by
  rw [outU32, if_pos full]

theorem writeArg_room {arg : Arg} (room : c.obuf.length + arg.encode.length ≤ bufLen) :
    writeArg c arg = { c with obuf := c.obuf ++ arg.encode } := by
  cases arg with
  | word v => exact outU32_room room
  | str s =>
    have pad := le_padded (s.length + 1)
    simp only [Arg.encode, List.length_append, le32_length, List.length_replicate] at room
    simp only [writeArg, outStr]
    rw [outU32_room (by omega), if_neg (by simp only [List.length_append, le32_length]; omega)]
    simp only [Arg.encode, List.append_assoc]
  | array bytes =>
    have pad := le_padded bytes.length
    simp only [Arg.encode, List.length_append, le32_length, List.length_replicate] at room
    simp only [writeArg]
    rw [outU32_room (by omega), if_neg (by simp only [List.length_append, le32_length]; omega)]
    simp only [Arg.encode, List.append_assoc]

theorem writeArg_full {arg : Arg} (full : bufLen < c.obuf.length + 4) : writeArg c arg = c := by
  cases arg with
  | word v => exact outU32_full full
  | str s =>
    simp only [writeArg, outStr]
    rw [outU32_full full, if_pos (by unfold padded; omega)]
  | array bytes =>
    simp only [writeArg]
    rw [outU32_full full]
    split
    · rfl
    · rename_i room
      have empty : bytes = [] := by
        apply List.length_eq_zero_iff.mp
        unfold padded at room
        omega
      simp [empty, padded]

theorem writeArgs_room {args : List Arg} (room : c.obuf.length + (args.flatMap Arg.encode).length ≤ bufLen) :
    args.foldl writeArg c = { c with obuf := c.obuf ++ args.flatMap Arg.encode } := by
  induction args generalizing c with
  | nil => simp
  | cons arg args ih =>
    rw [List.flatMap_cons, List.length_append] at room
    rw [List.foldl_cons, writeArg_room (by omega), ih (by simp only [List.length_append]; omega)]
    simp only [List.flatMap_cons, List.append_assoc]

theorem writeArgs_full {args : List Arg} (full : bufLen < c.obuf.length + 4) : args.foldl writeArg c = c := by
  induction args with
  | nil => rfl
  | cons arg args ih => rw [List.foldl_cons, writeArg_full full, ih]

theorem writeEvent_room (room : c.obuf.length + e.encode.length ≤ bufLen) :
    writeEvent c e = { c with obuf := c.obuf ++ e.encode } := by
  simp only [Event.encode, List.length_append, le32_length] at room
  have begun : msgBegin c e.objId e.opcode (.ofNat e.payload.length) =
      { c with obuf := c.obuf ++ le32 e.objId ++ le32 ((8 + UInt32.ofNat e.payload.length) <<< 16 ||| e.opcode) } := by
    rw [msgBegin, outU32_room (c := c) (by omega)]
    exact outU32_room (by simp only [List.length_append, le32_length]; omega)
  rw [writeEvent, begun, writeArgs_room]
  · simp only [Event.encode, Event.payload, List.append_assoc]
  · simp only [List.length_append, le32_length]
    change _ + e.payload.length ≤ _
    omega

theorem writeEvent_full (full : bufLen < c.obuf.length + 4) : writeEvent c e = c := by
  rw [writeEvent, msgBegin, outU32_full full, outU32_full full, writeArgs_full full]

/-- All bytes that were written for the client, whether they were sent or not. -/
def Outbox.written (c : Outbox) : List UInt8 := c.flushed ++ c.obuf

theorem clientFlush_written (c : Outbox) : (clientFlush c).written = c.written := by
  unfold clientFlush Outbox.written
  split
  · rfl
  · dsimp only
    rw [List.append_assoc, List.take_append_drop]

/-- Some of these events were written for the client, in this order, each of them whole. -/
def Wrote (c c' : Outbox) (events : List Event) : Prop :=
  ∃ es : List Event, es.Sublist events ∧ (∀ e ∈ es, e.encode.length ≤ bufLen) ∧
    c'.written = c.written ++ es.flatMap Event.encode

theorem ActionsFit.wrote {actions : List Action} (fit : ActionsFit c actions) :
    Wrote c (actions.foldl Action.apply c) (actions.filterMap fun
      | .write e => some e
      | .flush => none) := by
  induction actions generalizing c with
  | nil => exact ⟨[], List.Sublist.refl _, by simp, by simp⟩
  | cons action actions ih =>
    cases action with
    | write e =>
      obtain ⟨fits, rest⟩ := fit
      obtain ⟨es, among, fit, all⟩ := ih rest
      rw [List.foldl_cons, Action.apply]
      rcases fits with room | full
      · refine ⟨e :: es, among.cons_cons e, ?_, ?_⟩
        · rw [List.forall_mem_cons]
          exact ⟨by omega, fit⟩
        · rw [all, writeEvent_room room]
          simp [Outbox.written]
      · refine ⟨es, among.cons e, fit, ?_⟩
        rw [all, writeEvent_full full]
    | flush =>
      obtain ⟨es, among, fit, all⟩ := ih fit
      exact ⟨es, among, fit, by rw [List.foldl_cons, Action.apply, all, clientFlush_written]⟩

theorem str_length (s : List UInt8) : (Arg.str s).encode.length = 4 + padded (s.length + 1) := by
  have := le_padded (s.length + 1)
  simp only [Arg.encode, List.length_append, le32_length, List.length_replicate]
  omega

theorem global_payload (regId name version : UInt32) (s : List UInt8) :
    (Event.payload ⟨regId, 0, [.word name, .str s, .word version]⟩).length = 4 + 4 + padded (s.length + 1) + 4 := by
  simp only [Event.payload, List.flatMap_cons, List.flatMap_nil, List.length_append, str_length, List.append_nil]
  simp only [Arg.encode, le32_length]
  omega

theorem words_payload (objId opcode : UInt32) (words : List UInt32) :
    (Event.payload ⟨objId, opcode, words.map .word⟩).length = 4 * words.length := by
  simp only [Event.payload]
  induction words with
  | nil => rfl
  | cons word words ih =>
    rw [List.map_cons, List.flatMap_cons, List.length_append, ih, Arg.encode, le32_length, List.length_cons]
    omega

theorem geometry_payload (outId x y w h subpixel transform : UInt32) :
    (Event.payload ⟨outId, 0, [.word x, .word y, .word w, .word h, .word subpixel, .str (ascii "wld"),
      .str (ascii "virt"), .word transform]⟩).length = 44 := by
  have make : (ascii "wld").length = 3 := rfl
  have model : (ascii "virt").length = 4 := rfl
  simp only [Event.payload, List.flatMap_cons, List.flatMap_nil, List.length_append, str_length, make, model]
  simp only [Arg.encode, le32_length, List.length_nil, padded]

theorem writeEvent_words (c : Outbox) (objId opcode : UInt32) (words : List UInt32) :
    writeEvent c ⟨objId, opcode, words.map .word⟩ =
      words.foldl outU32 (msgBegin c objId opcode (.ofNat (4 * words.length))) := by
  rw [writeEvent, words_payload, List.foldl_map]
  rfl

theorem Send.apply_eq {send : Send} (unchecked : ∀ termObjId bytes, send ≠ .termInput termObjId bytes) :
    send.apply c = send.actions.foldl Action.apply c := by
  have nothing (c : Outbox) (objId opcode : UInt32) := writeEvent_words c objId opcode []
  have one (c : Outbox) (objId opcode v : UInt32) := writeEvent_words c objId opcode [v]
  have three (c : Outbox) (objId opcode v w x : UInt32) := writeEvent_words c objId opcode [v, w, x]
  have four (c : Outbox) (objId opcode v w x y : UInt32) := writeEvent_words c objId opcode [v, w, x, y]
  simp only [List.map_cons, List.map_nil, List.foldl_cons, List.foldl_nil, List.length_cons, List.length_nil] at nothing one three four
  cases send with
  | globals regId =>
    rw [Send.actions, List.foldl_flatMap]
    show Outbox.sendGlobals c regId = _
    rw [Outbox.sendGlobals]
    refine List.foldl_ext _ _ _ fun c entry _ => ?_
    simp only [List.foldl_cons, List.foldl_nil, Action.apply, writeEvent, global_payload, writeArg]
  | shmFormats shmId =>
    simp only [Send.actions, List.foldl_cons, List.foldl_nil, Action.apply, one]
    rfl
  | configure xdgTopObj xdgSurfObj viewW viewH serial =>
    simp only [Send.apply, Outbox.sendConfigure, Send.actions]
    split <;> split <;> simp only [List.nil_append, List.cons_append, List.foldl_cons, List.foldl_nil, Action.apply, one, three]
    · rfl
    · rfl
    · rfl
  | seatCaps seatId =>
    simp only [Send.actions, List.foldl_cons, List.foldl_nil, Action.apply, one]
    rfl
  | outputInfo outId displayW displayH =>
    simp only [Send.actions, List.foldl_cons, List.foldl_nil, Action.apply, four, nothing]
    simp only [writeEvent, geometry_payload, writeArg, List.foldl_cons, List.foldl_nil]
    rfl
  | callbackDone cbId time =>
    simp only [Send.actions, List.foldl_cons, List.foldl_nil, Action.apply, one]
    rfl
  | wmState objId layoutMode viewable focusIdx presentCount =>
    simp only [Send.actions, List.foldl_cons, List.foldl_nil, Action.apply, four]
    rfl
  | pointerEvent pointerObjId px py buttons =>
    simp only [Send.actions, List.foldl_cons, List.foldl_nil, Action.apply, three]
    rfl
  | termInput termObjId bytes => exact absurd rfl (unchecked termObjId bytes)
  | toplevelClose xdgTopObj =>
    simp only [Send.actions, List.foldl_cons, List.foldl_nil, Action.apply, nothing]
    rfl

theorem array_encode (objId : UInt32) (buf : List UInt8) : Event.encode ⟨objId, 0, [.array buf]⟩ =
    le32 objId ++ (le32 ((8 + UInt32.ofNat (4 + padded buf.length)) <<< 16 ||| 0) ++
      (le32 (.ofNat buf.length) ++ (buf ++ List.replicate (padded buf.length - buf.length) 0))) := by
  have pad := le_padded buf.length
  have payload : (Event.payload ⟨objId, 0, [.array buf]⟩).length = 4 + padded buf.length := by
    simp only [Event.payload, List.flatMap_cons, List.flatMap_nil, Arg.encode, List.length_append, le32_length,
      List.length_replicate, List.length_nil]
    omega
  rw [Event.encode, payload]
  simp only [Event.payload, List.flatMap_cons, List.flatMap_nil, Arg.encode, List.append_nil, List.append_assoc]

theorem array_begun (objId size count : UInt32) (room : c.obuf.length + 12 ≤ bufLen) :
    outU32 (msgBegin c objId 0 size) count =
      { c with obuf := c.obuf ++ (le32 objId ++ (le32 ((8 + size) <<< 16 ||| 0) ++ le32 count)) } := by
  have first := outU32_room (c := c) (v := objId) (by omega)
  have second := outU32_room (c := { c with obuf := c.obuf ++ le32 objId }) (v := (8 + size) <<< 16 ||| 0)
    (by simp only [List.length_append, le32_length]; omega)
  rw [msgBegin, first, second, outU32_room (by simp only [List.length_append, le32_length]; omega)]
  simp only [List.append_assoc]

theorem wldSendTermInput_wrote (c : Outbox) (termObjId : UInt32) (buf : List UInt8) :
    Wrote c (Outbox.wldSendTermInput c termObjId buf) [⟨termObjId, 0, [.array buf]⟩] := by
  have nothing {c' : Outbox} (same : c'.written = c.written) : Wrote c c' [⟨termObjId, 0, [.array buf]⟩] :=
    ⟨[], List.nil_sublist _, by simp, by simpa using same⟩
  have pad := le_padded buf.length
  unfold Outbox.wldSendTermInput
  split
  · exact nothing rfl
  · dsimp only
    split
    · exact nothing rfl
    · -- Where there is no room, the buffer is flushed first; where there still is none, nothing is sent.
      generalize flushed : (if bufLen < c.obuf.length + 8 + 4 + padded buf.length then clientFlush c else c) = c'
      have same : c'.written = c.written := by
        rw [← flushed]
        split
        · exact clientFlush_written c
        · rfl
      split
      · exact nothing same
      · rename_i room
        refine ⟨[⟨termObjId, 0, [.array buf]⟩], List.Sublist.refl _, ?_, ?_⟩
        · simp only [List.mem_singleton, forall_eq, array_encode, List.length_append, le32_length, List.length_replicate]
          omega
        · rw [clientFlush_written, array_begun _ _ _ (by omega), ← same, List.flatMap_singleton, array_encode]
          simp only [Outbox.written, List.append_assoc]

theorem Send.Fits.wrote {send : Send} (fits : send.Fits c) : Wrote c (send.apply c) send.events := by
  by_cases checked : ∃ termObjId bytes, send = .termInput termObjId bytes
  · obtain ⟨termObjId, bytes, rfl⟩ := checked
    exact wldSendTermInput_wrote c termObjId bytes
  · have unchecked : ∀ termObjId bytes, send ≠ .termInput termObjId bytes := fun termObjId bytes same =>
      checked ⟨termObjId, bytes, same⟩
    rw [Send.apply_eq unchecked]
    apply ActionsFit.wrote
    cases send with
    | termInput termObjId bytes => exact absurd rfl (unchecked termObjId bytes)
    | _ => exact fits

theorem SendsFit.wrote {sends : List Send} (fit : SendsFit c sends) :
    Wrote c (sends.foldl Send.apply c) (sends.flatMap Send.events) := by
  induction sends generalizing c with
  | nil => exact ⟨[], List.Sublist.refl _, by simp, by simp⟩
  | cons send sends ih =>
    obtain ⟨es, among, fits, all⟩ := fit.1.wrote
    obtain ⟨es', among', fits', all'⟩ := ih fit.2
    refine ⟨es ++ es', ?_, ?_, ?_⟩
    · rw [List.flatMap_cons]
      exact among.append among'
    · intro e member
      rcases List.mem_append.mp member with first | rest
      · exact fits e first
      · exact fits' e rest
    · rw [List.foldl_cons, all', all, List.flatMap_append, List.append_assoc]

theorem Send.opcode {send : Send} (member : e ∈ send.events) : e.opcode = 0 ∨ e.opcode = 1 ∨ e.opcode = 3 := by
  cases send with
  | globals regId =>
    simp only [Send.events, Send.actions, List.mem_filterMap, List.mem_flatMap] at member
    obtain ⟨action, ⟨entry, _, among⟩, seen⟩ := member
    simp only [List.mem_cons, List.not_mem_nil, or_false] at among
    rcases among with rfl | rfl
    · cases seen
      exact .inl rfl
    · cases seen
  | configure xdgTopObj xdgSurfObj viewW viewH serial =>
    simp only [Send.events, Send.actions] at member
    split at member <;> split at member <;> simp at member <;> grind
  | outputInfo outId displayW displayH =>
    simp [Send.events, Send.actions] at member
    rcases member with rfl | rfl | rfl
    · exact .inl rfl
    · exact .inr (.inl rfl)
    · exact .inr (.inr rfl)
  | _ =>
    simp [Send.events, Send.actions] at member
    grind

theorem Send.complete {send : Send} (member : e ∈ send.events) (room : e.encode.length ≤ bufLen) :
    wire.Complete e.encode ∧ wire.size e.encode = e.encode.length := by
  refine Event.Small.complete ⟨?_, ?_⟩
  · simp only [Event.encode, List.length_append, le32_length] at room
    have : bufLen < 2 ^ 16 := by decide
    omega
  · rcases Send.opcode member with code | code | code <;> rw [code] <;> decide

end

end Enlil.Wld
