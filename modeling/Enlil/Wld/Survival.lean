import Enlil.Wld.Isolation
import Enlil.Wld.Parsing
import Enlil.Wld.Placement

/-! Whatever clients send, drawing reads only what they passed to the compositor, and parsing only what they sent. -/

namespace Enlil.Wld

/-- A buffer has no pixels, or all of them lie within a segment of a length. -/
def WBuf.Fits (buf : WBuf) (length : Nat) : Prop :=
  buf.width = 0 ∨ buf.height = 0 ∨
    buf.offset.toNat + 4 * ((buf.height.toNat - 1) * (buf.stride / 4).toNat + buf.width.toNat) ≤ length

instance (buf : WBuf) (length : Nat) : Decidable (buf.Fits length) := inferInstanceAs (Decidable (_ ∨ _ ∨ _))

/-- What a request must do for its buffers to stay in their segments: a pool gets a slot that no buffer refers to any more, and a buffer fits the segment of its pool. -/
def Request.Sound (w : Compositor) (slot : Nat) : Request → Prop
  | .createPoolSysv _ _ _ => ∀ bi < maxBuffers, (w.buffers bi).alive → (w.buffers bi).poolIdx ≠ poolAlloc w
  | .createBuffer _ offset width height stride format =>
    ∀ src ∈ (w.pools slot).ptr, WBuf.Fits ⟨slot, offset, width, height, stride, format, true⟩ src.length
  | _ => True

def Step.Sound (w : Compositor) : Step → Prop
  | .message ci m behind _ =>
    ∀ request ∈ requestOf (w.clients ci) m.objId m.opcode (m.memory behind) m.payloadLen,
      request.Sound w (slotFor (w.clients ci) m.objId)
  | _ => True

instance (w : Compositor) (slot : Nat) (request : Request) : Decidable (request.Sound w slot) := by
  apply Request.casesOn (motive := fun r => Decidable (r.Sound w slot)) request <;> (intros; dsimp only [Request.Sound]; infer_instance)

instance (w : Compositor) (s : Step) : Decidable (s.Sound w) := by
  apply Step.casesOn (motive := fun s => Decidable (s.Sound w)) s <;> (intros; dsimp only [Step.Sound]; infer_instance)

/-- The compositor, and for every buffer the segment of the pool that its client made it in. -/
structure Traced where
  now : Compositor
  made : Nat → Option Mapping

def Traced.init : Traced := ⟨.init, fun _ => none⟩

def Traced.madeAfter (t : Traced) : Step → Nat → Option Mapping
  | .message ci m behind _ =>
    if ci < maxClients ∧ (t.now.clients ci).alive then
      match requestOf (t.now.clients ci) m.objId m.opcode (m.memory behind) m.payloadLen with
      | some (.createBuffer _ _ _ _ _ _) =>
        Function.update t.made (bufAlloc t.now) (t.now.pools (slotFor (t.now.clients ci) m.objId)).ptr
      | _ => t.made
    else t.made
  | _ => t.made

def Traced.exec (t : Traced) (s : Step) : Except Empty Traced := .ok ⟨step t.now s, t.madeAfter s⟩

/-- The pools that buffers refer to have the segments in which the buffers were made, and the buffers fit them. -/
structure Backed (t : Traced) : Prop where
  inside : ∀ {bi}, (t.now.buffers bi).alive = true → bi < maxBuffers
  source : ∀ {bi src}, (t.now.buffers bi).alive = true → (t.now.pools (t.now.buffers bi).poolIdx).alive = true →
    (t.now.pools (t.now.buffers bi).poolIdx).ptr = some src → t.made bi = some src ∧ (t.now.buffers bi).Fits src.length

section

variable {w w' : Compositor} {made : Nat → Option Mapping} {ci si place : Nat} {newId : UInt32} {around : Surroundings}

/-- Buffers and pools may be freed; those that are left stay what they were. -/
structure Frees (w w' : Compositor) : Prop where
  buffers : ∀ bi, (w'.buffers bi).alive = true → w'.buffers bi = w.buffers bi
  pools : ∀ pi, (w'.pools pi).alive = true → w'.pools pi = w.pools pi

theorem Frees.refl (w : Compositor) : Frees w w := ⟨fun _ _ => rfl, fun _ _ => rfl⟩

theorem Frees.same (buffers : w'.buffers = w.buffers) (pools : w'.pools = w.pools) : Frees w w' :=
  ⟨fun bi _ => by rw [buffers], fun pi _ => by rw [pools]⟩

theorem Frees.trans {w'' : Compositor} (first : Frees w w') (second : Frees w' w'') : Frees w w'' where
  buffers bi alive := by
    have same := second.buffers bi alive
    rw [same] at alive ⊢
    exact first.buffers bi alive
  pools pi alive := by
    have same := second.pools pi alive
    rw [same] at alive ⊢
    exact first.pools pi alive

theorem Backed.frees (backed : Backed ⟨w, made⟩) (frees : Frees w w') : Backed ⟨w', made⟩ where
  inside alive := by
    have same := frees.buffers _ alive
    rw [show (Traced.now ⟨w', made⟩) = w' from rfl, same] at alive
    exact backed.inside alive
  source {bi src} alive pool ptr := by
    have same := frees.buffers _ alive
    dsimp only at alive pool ptr ⊢
    rw [same] at alive pool ptr ⊢
    have samePool := frees.pools _ pool
    rw [samePool] at pool ptr
    exact backed.source alive pool ptr

theorem Frees.acts {mine tells : Nat → Prop} (acts : Acts mine False tells w w') : Frees w w' := by
  refine acts.preserves (Frees w) (.refl w) ?_ ?_ ?_ ?_ ?_ ?_ ?_
  · intro w' w'' frees _ pools buffers _ _
    exact frees.trans (.same buffers pools)
  · intro w' ci send frees _
    exact frees.trans (.same rfl rfl)
  · intro w' si surf frees _
    exact frees.trans (.same rfl rfl)
  · intro w' ci c frees _
    exact frees.trans (.same rfl rfl)
  · intro w' sendCfg frees
    have same := SameBy.relayout w' sendCfg
    exact frees.trans (.same same.buffers same.pools)
  · intro w' pi pool frees free
    refine frees.trans ⟨fun _ _ => rfl, fun i alive => ?_⟩
    rw [setPool_pools] at alive ⊢
    split
    · rename_i here
      rw [if_pos here, free.resolve_right id] at alive
      cases alive
    · rfl
  · intro w' bi buf frees free
    refine frees.trans ⟨fun i alive => ?_, fun _ _ => rfl⟩
    rw [setBuf_buffers] at alive ⊢
    split
    · rename_i here
      rw [if_pos here, free.resolve_right id] at alive
      cases alive
    · rfl

theorem Backed.init : Backed .init where
  inside alive := by cases alive
  source alive := by cases alive

theorem Backed.createPool (backed : Backed ⟨w, made⟩)
    (fresh : ∀ bi < maxBuffers, (w.buffers bi).alive = true → (w.buffers bi).poolIdx ≠ poolAlloc w)
    (newId shmid size : UInt32) : Backed ⟨handleCreatePool w ci around newId shmid size, made⟩ := by
  unfold handleCreatePool
  dsimp only
  split
  · exact backed
  · split
    · exact backed
    · rename_i ptr attached
      refine ⟨backed.inside, fun {bi src} alive pool source => ?_⟩
      have other : (w.buffers bi).poolIdx ≠ poolAlloc w := fresh bi (backed.inside alive) alive
      have same : ((w.setPool (poolAlloc w) ⟨some ptr, shmid, size, true⟩).pools (w.buffers bi).poolIdx) =
          w.pools (w.buffers bi).poolIdx := by rw [setPool_pools, if_neg other]
      have there : ((w.setPool (poolAlloc w) ⟨some ptr, shmid, size, true⟩).pools (w.buffers bi).poolIdx).alive = true := pool
      have shown : ((w.setPool (poolAlloc w) ⟨some ptr, shmid, size, true⟩).pools (w.buffers bi).poolIdx).ptr = some src :=
        source
      rw [same] at there shown
      exact backed.source alive there shown

theorem Backed.createBuffer (backed : Backed ⟨w, made⟩) {pi : Nat} {offset width height stride format : UInt32}
    (fits : ∀ src ∈ (w.pools pi).ptr, WBuf.Fits ⟨pi, offset, width, height, stride, format, true⟩ src.length) :
    Backed ⟨handleCreateBuffer w ci pi newId offset width height stride format,
      Function.update made (bufAlloc w) (w.pools pi).ptr⟩ := by
  unfold handleCreateBuffer
  dsimp only
  split
  · rename_i full
    refine ⟨backed.inside, fun {bi src} alive pool source => ?_⟩
    have small := backed.inside alive
    have other : bi ≠ bufAlloc w := by
      rw [full]
      exact (lt_trans small (by decide)).ne
    dsimp only
    rw [Function.update_of_ne other]
    exact backed.source alive pool source
  · rename_i free
    have inside : bufAlloc w < maxBuffers := (find_free rfl free).1
    generalize bufAlloc w = slot at inside ⊢
    have buffers (bi : Nat) : ((w.setBuf slot ⟨pi, offset, width, height, stride, format, true⟩).alloc ci newId .buffer
        slot).buffers bi = if bi = slot then ⟨pi, offset, width, height, stride, format, true⟩ else w.buffers bi :=
      setBuf_buffers w slot bi _
    refine ⟨fun {bi} alive => ?_, fun {bi src} alive pool source => ?_⟩
    · by_cases here : bi = slot
      · rw [here]
        exact inside
      · dsimp only at alive
        rw [buffers, if_neg here] at alive
        exact backed.inside alive
    · dsimp only at alive pool source ⊢
      by_cases here : bi = slot
      · rw [buffers, if_pos here] at source ⊢
        rw [here, Function.update_self]
        exact ⟨source, fits src source⟩
      · rw [buffers, if_neg here] at alive pool source ⊢
        rw [Function.update_of_ne here]
        exact backed.source alive pool source

theorem Backed.step {t : Traced} (backed : Backed t) {s : Step} (sound : s.Sound t.now) :
    Backed ⟨step t.now s, t.madeAfter s⟩ := by
  cases s with
  | accept =>
    refine backed.frees (w := t.now) ?_
    show Frees t.now (acceptClient t.now)
    unfold acceptClient
    split
    · exact .refl t.now
    · exact .same rfl rfl
  | message ci m behind around =>
    have traced : t.madeAfter (.message ci m behind around) = if _ then _ else _ := rfl
    rw [traced, Wld.step]
    split
    · rw [dispatchMsg_eq]
      have sound := sound
      unfold Step.Sound at sound
      cases asked : requestOf (t.now.clients ci) m.objId m.opcode (m.memory behind) m.payloadLen with
      | none => exact backed
      | some request =>
        have sound := sound request asked
        have acts := handle_acts t.now ci m.objId ((wobjFind (t.now.clients ci) m.objId).getD 0) around request
        cases request with
        | createPoolSysv newId shmid size => exact backed.createPool sound newId shmid size
        | createBuffer newId offset width height stride format => exact backed.createBuffer sound
        | _ => exact backed.frees (.acts acts)
    · exact backed
  | close ci =>
    refine backed.frees (w := t.now) ?_
    show Frees t.now (if _ then _ else _)
    split
    · exact .acts (close_acts t.now ci)
    · exact .refl t.now
  | key action =>
    have acts : Acts nobody False nobody t.now (wldHandleKey t.now action) := Acts.start.handleKey action
    exact backed.frees (.acts acts)
  | mouse ev =>
    have acts : Acts nobody False nobody t.now (wldHandleMouse t.now ev) := Acts.start.handleMouse ev
    exact backed.frees (.acts acts)
  | present timeMs => exact backed.frees (.acts (present_acts t.now timeMs))

theorem Drawn.start {b : Blit} (drawn : Drawn w si b) (start : 0 ≤ (w.surfs si).x) : 0 ≤ b.dx0 := by
  rcases drawn with ⟨second, window⟩ | dock
  · obtain ⟨_, _, buf, src, _, _, equal⟩ := windowBlit_some window
    rw [equal]
    dsimp only
    omega
  · obtain ⟨_, _, buf, src, _, equal⟩ := dockBlit_some dock
    rw [equal]
    exact start

theorem Drawn.narrow {b : Blit} (drawn : Drawn w si b) (sized : Sized w (w.surfs si))
    (small : (w.buffers (w.surfs si).currentBuf).width.toNat ≤ 2 ^ 20) : b.dw.toNat < 2 ^ 31 := by
  have four : (frameBorder * 2).toNat = 4 := rfl
  have width {v : UInt32} (one : v = (w.buffers (w.surfs si).currentBuf).width ∨
      v = (w.buffers (w.surfs si).currentBuf).width + frameBorder * 2 ∨ v.toNat ≤ 800) : v.toNat ≤ 2 ^ 20 + 4 := by
    rcases one with equal | equal | less
    · rw [equal]
      omega
    · rw [equal, UInt32.toNat_add, four, Nat.mod_eq_of_lt (by omega)]
      omega
    · omega
  rcases drawn with ⟨second, window⟩ | dock
  · obtain ⟨shown, _, buf, src, source, large, equal⟩ := windowBlit_some window
    obtain ⟨rfl, _⟩ := sourceOf_some source
    have frame : (frameSize (w.surfs si) (w.buffers (w.surfs si).currentBuf)).1.toNat ≤ 2 ^ 20 + 4 := by
      unfold frameSize
      dsimp only
      split
      · exact width (sized shown)
      · exact width (.inl rfl)
    rw [equal]
    dsimp only
    rw [UInt32.toNat_sub_of_le _ _ (UInt32.le_of_lt large)]
    omega
  · obtain ⟨shown, _, buf, src, source, equal⟩ := dockBlit_some dock
    rw [equal]
    exact lt_of_le_of_lt (width (sized shown)) (by decide)

theorem Backed.drawn {t : Traced} (backed : Backed t) (right : Right t.now) {answers : Peek → UInt32} {question : Peek}
    (asked : question ∈ (compositeAndPresent t.now).1.questions answers) :
    ∃ bi src byte, question = .pixel src byte ∧ t.made bi = some src ∧ byte + 4 ≤ src.length := by
  obtain ⟨si, inside, b, drawn, read⟩ := composite_questions asked
  obtain ⟨right, sized⟩ := right.relayout_spec false
  have sized := sized si inside
  have start := right si
  have placed := SameBy.relayout t.now false
  generalize wldRelayout t.now false = w at drawn start sized placed
  obtain ⟨_, buf, source, offset, sw, sh, stridePx⟩ := drawn.source
  obtain ⟨rfl, alive, pool, ptr⟩ := sourceOf_some source
  rw [placed.buffers] at alive
  rw [placed.buffers, placed.pools] at pool ptr
  obtain ⟨made, fits⟩ := backed.source alive pool ptr
  rw [← placed.buffers] at fits
  -- A buffer with pixels that fits is not wider than its segment is long.
  have room (columns : b.sw ≠ 0) (rows : b.sh ≠ 0) : b.dw.toNat < 2 ^ 31 ∧
      b.offset.toNat + 4 * ((b.sh.toNat - 1) * b.stridePx.toNat + b.sw.toNat) ≤ b.src.length := by
    rw [sw] at columns
    rw [sh] at rows
    have fits := (fits.resolve_left columns).resolve_left rows
    have small := b.src.small
    refine ⟨drawn.narrow sized (by omega), ?_⟩
    rw [offset, sw, sh, stridePx]
    exact fits
  obtain ⟨byte, equal, within⟩ := blit_inside (drawn.start start) room read
  exact ⟨_, b.src, byte, equal, made, within⟩

end

/-- In a run in which every buffer fits the segment of its pool and no pool gets a slot that buffers still refer to, drawing reads pixels only within the segments in which the buffers were made. It never writes outside of the framebuffer, nor has the column map more entries than it has room for. And of the messages that are dispatched, whatever bytes a client sends, a request is read inside of its message exactly if its string fits. -/
theorem compositor_survives {t : Traced} (run : Run Traced.exec (fun t s => s.Sound t.now) .init t) :
    (∀ answers, ∀ question ∈ (compositeAndPresent t.now).1.questions answers,
        ∃ bi src byte, question = .pixel src byte ∧ t.made bi = some src ∧ byte + 4 ≤ src.length) ∧
      (∀ answers, ∀ write ∈ (compositeAndPresent t.now).1.result answers, write.1 < 800 * 600) ∧
      (∀ dw sw, (columnMap dw sw).length ≤ 800) ∧
      ∀ (stream : List UInt8) (cuts : List Nat), ∀ m ∈ (cuts.foldl clientTurn (.opened stream)).dispatched, ∀ type behind,
        (∀ place ∈ (readRequest type m.opcode m.payloadLen).questions (m.memory behind), place < m.payload.length) ↔
          StringFits type m.opcode m.payloadLen (m.memory behind) := by
  have right : Right t.now := by
    induction run with
    | start => exact fun _ => le_refl 0
    | call s _ _ done ih =>
      cases done
      exact ih.acts (step_acts _ s)
  have backed : Backed t := run.invariant .init fun backed sound done => by
    cases done
    exact backed.step sound
  refine ⟨fun answers question asked => backed.drawn right asked, fun answers write written => composite_writes written,
    fun dw sw => ?_, fun stream cuts m member type behind => ?_⟩
  · rw [length_columnMap]
    exact min_le_right _ _
  · have fits := clientTurns_fits stream cuts m member
    have length : m.payloadLen.toNat = m.payload.length :=
      UInt32.toNat_ofNat_of_lt' (lt_of_le_of_lt (Nat.le_of_add_right_le fits) (by decide))
    have within : Within m.payloadLen.toNat (m.memory behind) (readRequest type m.opcode m.payloadLen) ↔
        StringFits type m.opcode m.payloadLen (m.memory behind) := readRequest_within (by rw [length]; exact fits)
    rw [length] at within
    exact within

/-- A client opens a window with a title, whose pixels lie in its segment. -/
def titled : List Step := .accept :: (opening ++ [request 10 2 [3, 0x00414141], commit]).map (sent 0)

/-- A client makes a buffer of 64 pixels in a segment of one, and shows it. -/
def oversized : List Step :=
  .accept :: (opening.map fun m => if m = request 7 0 [8, 0, 1, 1, 4, 0] then request 7 0 [8, 0, 64, 1, 256, 0] else m).map
    (sent 0) ++ [sent 0 commit]

theorem windows_seen :
    (runList Traced.exec (fun t s => s.Sound t.now) .init titled).any (fun t =>
      decide (t.made 0 = some ⟨4096, 4, by decide⟩) && wsurfIsViewable t.now (t.now.surfs 0)) = true ∧
    (runList Traced.exec (fun _ _ => True) .init oversized).any (fun t =>
      decide (windowBlit (wldRelayout t.now false) true 0 =
        some ⟨14, 36, 772, 550, ⟨4096, 4, by decide⟩, 0, 64, 1, 64, 31⟩)) = true ∧
    (columnMap 772 64)[771]? = some 63 := by
  decide +kernel

/-- The run in which a window is opened is sound, and a pixel of it is drawn. -/
theorem compositor_survives_window : ∃ t, Run Traced.exec (fun t s => s.Sound t.now) .init t ∧
    t.made 0 = some ⟨4096, 4, by decide⟩ ∧ wsurfIsViewable t.now (t.now.surfs 0) = true ∧
      ∀ answers, ∀ question ∈ (compositeAndPresent t.now).1.questions answers,
        ∃ bi src byte, question = .pixel src byte ∧ t.made bi = some src ∧ byte + 4 ≤ src.length := by
  obtain ⟨t, run, seen⟩ := runList_any windows_seen.1
  rw [Bool.and_eq_true, decide_eq_true_eq] at seen
  exact ⟨t, run, seen.1, seen.2, (compositor_survives run).1⟩

/-- Then its last pixel is read far behind the end of the segment; and a title whose length wraps around when it is padded is read behind the end of its message. -/
theorem compositor_misled :
    (∃ t, Run Traced.exec (fun _ _ => True) .init t ∧
      ∀ answers, .pixel ⟨4096, 4, by decide⟩ 252 ∈ (compositeAndPresent t.now).1.questions answers) ∧
      ∃ place ∈ (readRequest .xdgTop 2 (request 10 2 [0xFFFFFFFF]).payloadLen).questions
        ((request 10 2 [0xFFFFFFFF]).memory fun _ => 0), (request 10 2 [0xFFFFFFFF]).payload.length ≤ place := by
  refine ⟨?_, 66, by decide, by decide⟩
  obtain ⟨t, run, seen⟩ := runList_any windows_seen.2.1
  refine ⟨t, run, fun answers => composite_reads (by decide) (of_decide_eq_true seen) ?_⟩
  refine blit_reads (by decide) (by decide : 0 < (550 : UInt32).toNat) (by decide) (by decide : 771 < (772 : UInt32).toNat) ?_
  have entry := windows_seen.2.2
  simp only [blitColumn, entry]
  rw [if_neg (by decide)]
  exact List.mem_cons_self

end Enlil.Wld
