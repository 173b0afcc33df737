import Enlil.Wld.Owners

/-! Everything that the main loop does is a sequence of a few kinds of acts. -/

namespace Enlil.Wld

def Send.isDone : Send → Bool
  | .callbackDone _ _ => true
  | _ => false

/-- What is done one act after the other: surfaces change, or are placed anew, the objects of some clients change, pools and buffers are freed, or made, and events are sent, of which some only to some clients. -/
inductive Acts (mine : Nat → Prop) (makes : Prop) (tells : Nat → Prop) (w : Compositor) : Compositor → Prop where
  | start : Acts mine makes tells w w
  | quiet {w' w'' : Compositor} : Acts mine makes tells w w' → w''.clients = w'.clients → w''.pools = w'.pools →
      w''.buffers = w'.buffers → w''.surfs = w'.surfs → w''.sends = w'.sends → Acts mine makes tells w w''
  | send {w' : Compositor} (ci : Nat) (send : Send) : Acts mine makes tells w w' → (send.isDone = true → tells ci) →
      Acts mine makes tells w (w'.send ci send)
  | surf {w' : Compositor} (si : Nat) (surf : WSurf) : Acts mine makes tells w w' → (0 ≤ (w'.surfs si).x → 0 ≤ surf.x) →
      Acts mine makes tells w (w'.setSurf si surf)
  | client {w' : Compositor} {ci : Nat} (c : WClient) : Acts mine makes tells w w' → mine ci →
      Acts mine makes tells w (w'.setClient ci c)
  | relayout {w' : Compositor} (sendCfg : Bool) : Acts mine makes tells w w' → Acts mine makes tells w (wldRelayout w' sendCfg)
  | freePool {w' : Compositor} (pi : Nat) {pool : WPool} : Acts mine makes tells w w' → pool.alive = false →
      Acts mine makes tells w (w'.setPool pi pool)
  | freeBuf {w' : Compositor} (bi : Nat) {buf : WBuf} : Acts mine makes tells w w' → buf.alive = false →
      Acts mine makes tells w (w'.setBuf bi buf)
  | makePool {w' : Compositor} (pi : Nat) (pool : WPool) : Acts mine makes tells w w' → makes →
      Acts mine makes tells w (w'.setPool pi pool)
  | makeBuf {w' : Compositor} (bi : Nat) (buf : WBuf) : Acts mine makes tells w w' → makes →
      Acts mine makes tells w (w'.setBuf bi buf)

section

variable {mine : Nat → Prop} {makes : Prop} {tells : Nat → Prop} {w w' : Compositor} {ci si place : Nat} {newId : UInt32}
  {around : Surroundings}

namespace Acts

theorem preserves (Inv : Compositor → Prop) (acts : Acts mine makes tells w w') (holds : Inv w)
    (quiet : ∀ {w' w'' : Compositor}, Inv w' → w''.clients = w'.clients → w''.pools = w'.pools →
      w''.buffers = w'.buffers → w''.surfs = w'.surfs → w''.sends = w'.sends → Inv w'')
    (send : ∀ {w' : Compositor} (ci : Nat) (send : Send), Inv w' → (send.isDone = true → tells ci) → Inv (w'.send ci send))
    (surf : ∀ {w' : Compositor} (si : Nat) {surf : WSurf}, Inv w' → (0 ≤ (w'.surfs si).x → 0 ≤ surf.x) →
      Inv (w'.setSurf si surf))
    (client : ∀ {w' : Compositor} {ci : Nat} (c : WClient), Inv w' → mine ci → Inv (w'.setClient ci c))
    (relayout : ∀ {w' : Compositor} (sendCfg : Bool), Inv w' → Inv (wldRelayout w' sendCfg))
    (pool : ∀ {w' : Compositor} (pi : Nat) {pool : WPool}, Inv w' → pool.alive = false ∨ makes → Inv (w'.setPool pi pool))
    (buf : ∀ {w' : Compositor} (bi : Nat) {buf : WBuf}, Inv w' → buf.alive = false ∨ makes → Inv (w'.setBuf bi buf)) :
    Inv w' := by
  induction acts with
  | start => exact holds
  | quiet _ clients pools buffers surfs sends ih => exact quiet ih clients pools buffers surfs sends
  | send ci call _ told ih => exact send ci call ih told
  | surf si changed _ start ih => exact surf si ih start
  | client c _ owned ih => exact client c ih owned
  | relayout sendCfg _ ih => exact relayout sendCfg ih
  | freePool pi _ free ih => exact pool pi ih (.inl free)
  | freeBuf bi _ free ih => exact buf bi ih (.inl free)
  | makePool pi p _ made ih => exact pool pi ih (.inr made)
  | makeBuf bi b _ made ih => exact buf bi ih (.inr made)

theorem mono {mine' tells' : Nat → Prop} {makes' : Prop} (acts : Acts mine makes tells w w') (more : ∀ ci, mine ci → mine' ci)
    (made : makes → makes') (heard : ∀ ci, tells ci → tells' ci) : Acts mine' makes' tells' w w' := by
  induction acts with
  | start => exact .start
  | quiet _ clients pools buffers surfs sends ih => exact ih.quiet clients pools buffers surfs sends
  | send ci send _ told ih => exact ih.send ci send fun done => heard ci (told done)
  | surf si surf _ start ih => exact ih.surf si surf start
  | client c _ owned ih => exact ih.client c (more _ owned)
  | relayout sendCfg _ ih => exact ih.relayout sendCfg
  | freePool pi _ free ih => exact ih.freePool pi free
  | freeBuf bi _ free ih => exact ih.freeBuf bi free
  | makePool pi pool _ some ih => exact ih.makePool pi pool (made some)
  | makeBuf bi buf _ some ih => exact ih.makeBuf bi buf (made some)

theorem others (acts : Acts mine makes tells w w') {cj : Nat} (other : ¬ mine cj) : w'.clients cj = w.clients cj := by
  refine acts.preserves (fun w' => w'.clients cj = w.clients cj) rfl ?_ ?_ ?_ ?_ ?_ ?_ ?_
  · intro w' w'' same clients _ _ _ _
    rw [clients, same]
  · intro w' ci send same _
    exact same
  · intro w' si surf same _
    exact same
  · intro w' ci c same owned
    rw [setClient_clients, if_neg]
    · exact same
    · rintro rfl
      exact other owned
  · intro w' sendCfg same
    rw [(SameBy.relayout w' sendCfg).clients, same]
  · intro w' pi pool same _
    exact same
  · intro w' bi buf same _
    exact same

theorem relayout_sends (w : Compositor) (sendCfg : Bool) :
    ∃ new, (wldRelayout w sendCfg).sends = w.sends ++ new ∧ ∀ call ∈ new, call.2.isDone = false := by
  have placed (w' : Compositor) (i : Nat) (surf : WSurf) :
      ∃ new, (putPlaced sendCfg w' i surf).sends = w'.sends ++ new ∧ ∀ call ∈ new, call.2.isDone = false := by
    unfold putPlaced
    dsimp only
    split
    · exact ⟨[(surf.clientIdx, .configure surf.xdgTopObj surf.xdgSurfObj surf.viewW surf.viewH (w'.frameSerial + 1))], rfl,
        by simp [Send.isDone]⟩
    · exact ⟨[], (List.append_nil _).symm, nofun⟩
  have turn (colW : UInt32) (s : Compositor × UInt32) (i : Nat) :
      ∃ new, (relayoutTurn sendCfg colW s i).1.sends = s.1.sends ++ new ∧ ∀ call ∈ new, call.2.isDone = false := by
    obtain ⟨w', visible⟩ := s
    unfold relayoutTurn
    dsimp only
    split
    · exact ⟨[], (List.append_nil _).symm, nofun⟩
    · split
      · exact placed w' i _
      · split
        · exact placed w' i _
        · split <;> exact placed w' i _
  have turns (colW : UInt32) (s : Compositor × UInt32) (xs : List Nat) :
      ∃ new, (xs.foldl (relayoutTurn sendCfg colW) s).1.sends = s.1.sends ++ new ∧ ∀ call ∈ new, call.2.isDone = false := by
    induction xs generalizing s with
    | nil => exact ⟨[], (List.append_nil _).symm, nofun⟩
    | cons i xs ih =>
      obtain ⟨first, same, plain⟩ := turn colW s i
      obtain ⟨rest, same', plain'⟩ := ih (relayoutTurn sendCfg colW s i)
      refine ⟨first ++ rest, ?_, fun call member => (List.mem_append.mp member).elim (plain call) (plain' call)⟩
      rw [List.foldl_cons, same', same, List.append_assoc]
  obtain ⟨new, same, plain⟩ := turns (columnWidth (wldCountTiledViewable w)) (wldFocusSanitize w, 0) (List.range maxSurfaces)
  have sanitized : (wldFocusSanitize w).sends = w.sends := by
    unfold wldFocusSanitize
    split <;> rfl
  refine ⟨new, ?_, plain⟩
  unfold wldRelayout
  dsimp only
  rw [same]
  exact congrArg (· ++ new) sanitized

theorem sends (acts : Acts mine makes tells w w') :
    ∃ new, w'.sends = w.sends ++ new ∧ ∀ call ∈ new, call.2.isDone = true → tells call.1 := by
  refine acts.preserves (fun w' => ∃ new, w'.sends = w.sends ++ new ∧ ∀ call ∈ new, call.2.isDone = true → tells call.1)
    ⟨[], (List.append_nil _).symm, nofun⟩ ?_ ?_ ?_ ?_ ?_ ?_ ?_
  · intro w' w'' holds _ _ _ _ same
    rw [same]
    exact holds
  · rintro w' ci send ⟨new, same, told⟩ allowed
    refine ⟨new ++ [(ci, send)], ?_, fun call member => ?_⟩
    · show w'.sends ++ [(ci, send)] = _
      rw [same, List.append_assoc]
    · rcases List.mem_append.mp member with old | here
      · exact told call old
      · rw [List.mem_singleton] at here
        rw [here]
        exact allowed
  · intro w' si surf holds _
    exact holds
  · intro w' ci c holds _
    exact holds
  · rintro w' sendCfg ⟨new, same, told⟩
    obtain ⟨more, same', plain⟩ := relayout_sends w' sendCfg
    refine ⟨new ++ more, by rw [same', same, List.append_assoc], fun call member => ?_⟩
    rcases List.mem_append.mp member with old | here
    · exact told call old
    · rw [plain call here]
      exact nofun
  · intro w' pi pool holds _
    exact holds
  · intro w' bi buf holds _
    exact holds

theorem tell (acts : Acts mine makes tells w w') (ci : Nat) (send : Send) (plain : send.isDone = false) :
    Acts mine makes tells w (w'.send ci send) :=
  acts.send ci send fun done => by
    rw [plain] at done
    cases done

theorem sendWmState (acts : Acts mine makes tells w w') (ci : Nat) (objId : UInt32) :
    Acts mine makes tells w (wldSendWmState w' ci objId) :=
  acts.tell ci _ rfl

theorem alloc (acts : Acts mine makes tells w w') (owned : mine ci) (id : UInt32) (type : ObjType) (extra : Nat) :
    Acts mine makes tells w (w'.alloc ci id type extra) :=
  acts.client _ owned

theorem sanitize (acts : Acts mine makes tells w w') : Acts mine makes tells w (wldFocusSanitize w') := by
  refine acts.quiet ?_ ?_ ?_ ?_ ?_ <;> (unfold wldFocusSanitize; split <;> rfl)

theorem focus (acts : Acts mine makes tells w w') (idx : Nat) : Acts mine makes tells w { w' with focusIdx := idx } :=
  acts.quiet rfl rfl rfl rfl rfl

theorem focusIfNone (acts : Acts mine makes tells w w') (si : Nat) : Acts mine makes tells w (focusIfNone w' si) := by
  unfold Wld.focusIfNone
  split
  · exact acts.focus si
  · exact acts

theorem sendConfigure (acts : Acts mine makes tells w w') (ci : Nat) (surf : WSurf) :
    Acts mine makes tells w (sendConfigure w' ci surf) := by
  have numbered : Acts mine makes tells w { w' with frameSerial := w'.frameSerial + 1 } := acts.quiet rfl rfl rfl rfl rfl
  exact numbered.tell ci (.configure surf.xdgTopObj surf.xdgSurfObj surf.viewW surf.viewH (w'.frameSerial + 1)) rfl

theorem configure (acts : Acts mine makes tells w w') (ci si : Nat) : Acts mine makes tells w (configure w' ci si) :=
  (acts.surf si { w'.surfs si with configured := true } id).sendConfigure ci _

theorem focusSet (acts : Acts mine makes tells w w') (idx : Nat) : Acts mine makes tells w (wldFocusSet w' idx) := by
  unfold wldFocusSet
  split
  · exact acts
  · split
    · exact acts
    · exact (acts.focus idx).relayout false

theorem focusRotate (acts : Acts mine makes tells w w') (forward : Bool) : Acts mine makes tells w (wldFocusRotate w' forward) := by
  unfold wldFocusRotate
  dsimp only
  split
  · exact acts
  · split
    · exact acts.sanitize.sanitize.relayout false
    · refine relayout false ?_
      split
      · exact (acts.sanitize.focus _).sanitize
      · exact acts.sanitize.focus _

theorem requestClose (acts : Acts mine makes tells w w') : Acts mine makes tells w (wldRequestCloseFocused w') := by
  unfold wldRequestCloseFocused
  dsimp only
  split
  · exact acts.sanitize
  · split
    · exact acts.sanitize
    · exact acts.sanitize.surf _ _ id

theorem handleKey (acts : Acts mine makes tells w w') (action : KeyAction) : Acts mine makes tells w (wldHandleKey w' action) := by
  cases action with
  | closeFocused => exact acts.requestClose
  | focusRotate forward => exact acts.focusRotate forward
  | text bytes =>
    unfold wldHandleKey
    dsimp only
    split
    · exact acts.sanitize
    · split
      · exact acts.sanitize
      · exact acts.sanitize.tell _ _ rfl
  | other => exact acts

theorem tellPointer (acts : Acts mine makes tells w w') (changed : UInt32) (ev : MouseEvent) :
    Acts mine makes tells w (tellPointer w' changed ev) := by
  unfold Wld.tellPointer
  split
  · refine List.foldlRecOn (motive := Acts mine makes tells w) (List.range maxClients) _ acts fun w'' acts ci _ => ?_
    dsimp only
    split
    · exact acts
    · exact acts.tell _ _ rfl
  · exact acts

theorem pressSurface (acts : Acts mine makes tells w w') (hit : Nat) : Acts mine makes tells w (pressSurface w' hit) := by
  unfold Wld.pressSurface
  split
  · exact (acts.focusSet hit).requestClose
  · split
    · exact acts.focusSet hit
    · split
      · have taken := (acts.focusSet hit).surf hit
          { (wldFocusSet w' hit).surfs hit with floating := true, placed := true } id
        exact taken.quiet rfl rfl rfl rfl rfl
      · exact acts.focusSet hit

theorem moveDragged (acts : Acts mine makes tells w w') (ev : MouseEvent) : Acts mine makes tells w (moveDragged w' ev) := by
  unfold Wld.moveDragged
  dsimp only
  split
  · refine acts.surf _ _ fun _ => ?_
    have := dragLimit_nonneg fbW (w'.surfs w'.dragIdx).viewW (by decide)
    exact le_min (le_max_right _ _) this
  · exact acts

theorem handleMouse (acts : Acts mine makes tells w w') (ev : MouseEvent) : Acts mine makes tells w (wldHandleMouse w' ev) := by
  unfold wldHandleMouse
  dsimp only
  have moved : Acts mine makes tells w (movePointer w' ev) := acts.quiet rfl rfl rfl rfl rfl
  have told := moved.tellPointer (w'.pointerButtons ^^^ ev.buttons) ev
  generalize wldHitTestSurface (movePointer w' ev) _ _ = hit
  generalize Wld.tellPointer (movePointer w' ev) _ ev = w₁ at told ⊢
  split
  · exact told
  · split
    · exact told.pressSurface hit
    · have followed : Acts mine makes tells w
          (if hit ≠ noSlot ∧ w₁.focusFollowPointer = true ∧ ev.move = true ∧ hit ≠ w₁.focusIdx then
            wldFocusSet w₁ hit else w₁) := by
        split
        · exact told.focusSet hit
        · exact told
      have moved := followed.moveDragged ev
      generalize Wld.moveDragged _ ev = w₂ at moved ⊢
      split
      · exact moved.quiet rfl rfl rfl rfl rfl
      · exact moved

theorem refloat (acts : Acts mine makes tells w w') (si : Nat) (floating : Bool) :
    Acts mine makes tells w (refloat w' si floating) := by
  unfold Wld.refloat
  dsimp only
  have freed := acts.surf si { w'.surfs si with floating := floating, placed := false } id
  split
  · exact freed.relayout true
  · exact freed

theorem commit (acts : Acts mine makes tells w w') (ci si : Nat) : Acts mine makes tells w (handleCommit w' ci si) := by
  unfold handleCommit
  split
  · dsimp only
    have placed := ((acts.surf si { w'.surfs si with
      currentBuf := (w'.surfs si).pendingBuf, closing := false, closeSent := false, fadeTicks := 8 }
        id).focusIfNone si).relayout true
    generalize wldRelayout _ true = w₂ at placed ⊢
    split
    · exact placed.configure ci si
    · exact placed
  · exact acts

theorem surfaceDestroy (acts : Acts mine makes tells w w') (owned : mine ci) (place si : Nat) :
    Acts mine makes tells w (handleSurfaceDestroy w' ci place si) := by
  unfold handleSurfaceDestroy
  split
  · dsimp only
    have dragged : Acts mine makes tells w (if w'.dragActive = true ∧ w'.dragIdx = si then
        { w' with dragActive := false, dragIdx := noSlot } else w') := by
      split
      · exact acts.quiet rfl rfl rfl rfl rfl
      · exact acts
    generalize (if w'.dragActive = true ∧ w'.dragIdx = si then
      { w' with dragActive := false, dragIdx := noSlot } else w') = w₁ at dragged ⊢
    exact ((dragged.surf si { w₁.surfs si with alive := false } id).client _ owned).relayout true
  · exact acts

theorem getToplevel (acts : Acts mine makes tells w w') (owned : mine ci) (si : Nat) (newId : UInt32) :
    Acts mine makes tells w (handleGetToplevel w' ci si newId) := by
  unfold handleGetToplevel
  split
  · dsimp only
    have made := (acts.alloc owned newId .xdgTop si).surf si
      { (w'.alloc ci newId .xdgTop si).surfs si with xdgTopObj := newId } id
    split
    · exact made.configure ci si
    · exact made
  · exact acts.alloc owned newId .xdgTop si

theorem setAppId (acts : Acts mine makes tells w w') (si : Nat) (appId : List UInt8) :
    Acts mine makes tells w (handleSetAppId w' si appId) := by
  unfold handleSetAppId
  split
  · dsimp only
    have named := acts.surf si { w'.surfs si with appId := appId } id
    split
    · exact named.refloat si true
    · split
      · exact named.refloat si false
      · exact named
  · exact acts

theorem bind (acts : Acts mine makes tells w w') (owned : mine ci) (name newId : UInt32) :
    Acts mine makes tells w (handleBind w' ci name newId) := by
  unfold handleBind
  dsimp only
  split_ifs
  · exact acts.alloc owned newId .compositor 0
  · exact (acts.alloc owned newId .shm 0).tell ci _ rfl
  · exact acts.alloc owned newId .xdgWm 0
  · exact (acts.alloc owned newId .seat 0).tell ci _ rfl
  · exact (acts.alloc owned newId .output 0).tell ci _ rfl
  · exact (acts.alloc owned newId .enlilWm 0).sendWmState ci newId
  · exact acts.alloc owned newId .enlilTerm 0
  · exact (acts.alloc owned newId .pointer 0).client _ owned
  · exact acts

end Acts

/-- A request makes a pool or a buffer. -/
def Request.Makes : Request → Prop
  | .createPoolSysv _ _ _ | .createBuffer _ _ _ _ _ _ => True
  | _ => False

def nobody (_ : Nat) : Prop := False

def only (ci cj : Nat) : Prop := cj = ci

/-- A request has a callback of its client done. -/
def Request.Tells (ci : Nat) (request : Request) (cj : Nat) : Prop := cj = ci ∧ ∃ cbId, request = .sync cbId

theorem handle_acts (w : Compositor) (ci : Nat) (objId : UInt32) (place : Nat) (around : Surroundings) (request : Request) :
    Acts (only ci) request.Makes (request.Tells ci) w (handle w ci objId place around request) := by
  have owned : only ci ci := rfl
  have nothing : Acts (only ci) request.Makes (request.Tells ci) w w := .start
  cases request with
  | getRegistry regId => exact (nothing.alloc owned regId .registry 0).tell ci _ rfl
  | sync cbId => exact (nothing.alloc owned cbId .callback 0).send ci _ fun _ => ⟨rfl, cbId, rfl⟩
  | bind name newId => exact nothing.bind owned name newId
  | createSurface newId =>
    show Acts _ _ _ w (handleCreateSurface w ci newId)
    unfold handleCreateSurface
    dsimp only
    split
    · exact nothing
    · exact (nothing.surf _ _ fun _ => le_refl (0 : Int)).alloc owned newId .surface _
  | createPoolSysv newId shmid size =>
    show Acts _ _ _ w (handleCreatePool w ci around newId shmid size)
    unfold handleCreatePool
    dsimp only
    split
    · exact nothing
    · split
      · exact nothing
      · exact (nothing.makePool _ _ trivial).alloc owned newId .shmPool _
  | createBuffer newId offset width height stride format =>
    show Acts _ _ _ w (handleCreateBuffer w ci _ newId offset width height stride format)
    unfold handleCreateBuffer
    dsimp only
    split
    · exact nothing
    · exact (nothing.makeBuf _ _ trivial).alloc owned newId .buffer _
  | poolDestroy =>
    show Acts _ _ _ w (handlePoolDestroy w ci place _)
    unfold handlePoolDestroy
    dsimp only
    split
    · exact (nothing.freePool _ rfl).client _ owned
    · exact nothing.client _ owned
  | bufferDestroy =>
    show Acts _ _ _ w (handleBufferDestroy w ci place _)
    unfold handleBufferDestroy
    dsimp only
    split
    · exact (nothing.freeBuf _ rfl).client _ owned
    · exact nothing.client _ owned
  | attach bufId =>
    show Acts _ _ _ w (handleAttach w ci _ bufId)
    unfold handleAttach
    split
    · exact nothing.surf _ _ id
    · exact nothing
  | frame cbId =>
    show Acts _ _ _ w (handleFrame w ci _ cbId)
    unfold handleFrame
    split
    · exact (nothing.alloc owned cbId .callback 0).surf _ _ id
    · exact nothing
  | commit => exact nothing.commit ci _
  | surfaceDestroy => exact nothing.surfaceDestroy owned place _
  | getXdgSurface newId surfId =>
    show Acts _ _ _ w (handleGetXdgSurface w ci newId surfId)
    unfold handleGetXdgSurface
    split
    · exact nothing
    · split
      · exact nothing
      · dsimp only
        split
        · exact (nothing.alloc owned newId .xdgSurf _).surf _ _ id
        · exact nothing.alloc owned newId .xdgSurf _
  | getToplevel newId => exact nothing.getToplevel owned _ newId
  | setTitle title =>
    show Acts _ _ _ w (handleSetTitle w _ title)
    unfold handleSetTitle
    split
    · exact nothing.surf _ _ id
    · exact nothing
  | setAppId appId => exact nothing.setAppId _ appId
  | setLayout mode =>
    show Acts _ _ _ w (handleSetLayout w ci objId mode)
    unfold handleSetLayout
    have chosen : Acts (only ci) (Request.setLayout mode).Makes ((Request.setLayout mode).Tells ci) w
        (if mode = 1 then { w with layoutMode := mode } else w) := by
      split
      · exact nothing.quiet rfl rfl rfl rfl rfl
      · exact nothing
    exact (chosen.relayout true).sendWmState ci objId
  | focusNext => exact (nothing.focusRotate true).sendWmState ci objId
  | focusPrev => exact (nothing.focusRotate false).sendWmState ci objId
  | closeFocused => exact nothing.requestClose.sendWmState ci objId
  | getState => exact nothing.sendWmState ci objId
  | setFocusPolicy policy =>
    have followed : Acts (only ci) (Request.setFocusPolicy policy).Makes ((Request.setFocusPolicy policy).Tells ci) w
        { w with focusFollowPointer := policy = 1 } := nothing.quiet rfl rfl rfl rfl rfl
    exact followed.sendWmState ci objId
  | attachTerm surfId =>
    show Acts _ _ _ w (handleAttachTerm w ci objId surfId)
    unfold handleAttachTerm
    split
    · exact nothing
    · exact nothing.client _ owned
  | releaseTerm => exact nothing.client _ owned

theorem close_acts (w : Compositor) (ci : Nat) : Acts (only ci) False nobody w (clientClose w ci) := by
  have owned : only ci ci := rfl
  unfold clientClose
  dsimp only
  have surfs : Acts (only ci) False nobody w ((List.range maxSurfaces).foldl (closeSurface ci) w) :=
    List.foldlRecOn (motive := Acts (only ci) False nobody w) _ _ .start fun w' acts si _ => by
      unfold closeSurface
      dsimp only
      split
      · refine .surf _ _ ?_ ?_
        · split
          · exact acts.freeBuf _ rfl
          · exact acts
        · split <;> exact id
      · exact acts
  have pools (objs : List Wobj) :
      Acts (only ci) False nobody w (objs.foldl closePool ((List.range maxSurfaces).foldl (closeSurface ci) w)) :=
    List.foldlRecOn (motive := Acts (only ci) False nobody w) _ _ surfs fun w' acts o _ => by
      unfold closePool
      split
      · exact acts.freePool _ rfl
      · exact acts
  exact ((pools _).client .zero owned).relayout true

/-- A client waits for the frame callback of one of its surfaces. -/
def Compositor.Waits (w : Compositor) (ci : Nat) : Prop :=
  ∃ si < maxSurfaces, (w.surfs si).alive = true ∧ (w.surfs si).clientIdx = ci ∧ (w.surfs si).frameCbId ≠ 0

/-- Surfaces may go, and frame callbacks may be done; none is new. -/
def FewerFrames (w w' : Compositor) : Prop :=
  ∀ si, (w'.surfs si).alive = true → (w'.surfs si).frameCbId ≠ 0 →
    (w.surfs si).alive = true ∧ (w'.surfs si).clientIdx = (w.surfs si).clientIdx ∧ (w.surfs si).frameCbId ≠ 0

theorem FewerFrames.refl (w : Compositor) : FewerFrames w w := fun _ alive waits => ⟨alive, rfl, waits⟩

theorem FewerFrames.same (frames : FewerFrames w w') {w'' : Compositor} (same : SameContents w' w'') : FewerFrames w w'' := by
  intro si alive waits
  have kept := same.surfs si
  have sameAlive : (w''.surfs si).alive = (w'.surfs si).alive := congrArg Contents.alive kept
  have client : (w''.surfs si).clientIdx = (w'.surfs si).clientIdx := congrArg Contents.clientIdx kept
  have frame : (w''.surfs si).frameCbId = (w'.surfs si).frameCbId := congrArg Contents.frameCbId kept
  rw [sameAlive] at alive
  rw [frame] at waits
  rw [client]
  exact frames si alive waits

theorem FewerFrames.setSurf (frames : FewerFrames w w') {surf : WSurf} (si : Nat)
    (gone : surf.alive = false ∨ surf.frameCbId = 0) : FewerFrames w (w'.setSurf si surf) := by
  intro i alive waits
  rw [setSurf_surfs] at alive waits ⊢
  split at alive
  · rename_i here
    rw [if_pos here] at waits
    rcases gone with dead | done
    · rw [dead] at alive
      cases alive
    · exact absurd done waits
  · rename_i other
    rw [if_neg other] at waits ⊢
    exact frames i alive waits

theorem present_acts (w : Compositor) (timeMs : UInt32) :
    Acts nobody False w.Waits w (sendFrameDones (wldProcessPendingCloses (compositeAndPresent w).2) timeMs) := by
  have faded : Acts nobody False w.Waits w ((List.range maxSurfaces).foldl fadeTurn (wldRelayout w false)) ∧
      FewerFrames w ((List.range maxSurfaces).foldl fadeTurn (wldRelayout w false)) := by
    refine List.foldlRecOn (motive := fun w' => Acts nobody False w.Waits w w' ∧ FewerFrames w w') _ _
      ⟨Acts.start.relayout false, (FewerFrames.refl w).same (SameBy.relayout w false).contents⟩ fun w' acts si _ => ?_
    unfold fadeTurn
    split
    · exact ⟨acts.1.surf _ _ id, acts.2.same (.setSurf rfl)⟩
    · exact acts
  have drawn : Acts nobody False w.Waits w (compositeAndPresent w).2 ∧ FewerFrames w (compositeAndPresent w).2 := by
    unfold compositeAndPresent
    dsimp only
    generalize (List.range maxSurfaces).foldl fadeTurn (wldRelayout w false) = w₁ at faded ⊢
    exact ⟨faded.1.quiet rfl rfl rfl rfl rfl, faded.2⟩
  have closed : Acts nobody False w.Waits w (wldProcessPendingCloses (compositeAndPresent w).2) ∧
      FewerFrames w (wldProcessPendingCloses (compositeAndPresent w).2) := by
    refine List.foldlRecOn (motive := fun w' => Acts nobody False w.Waits w w' ∧ FewerFrames w w') _ _ drawn
      fun w' acts i _ => ?_
    unfold pendingCloseTurn
    dsimp only
    split
    · exact acts
    · have dead := (acts.1.tell (w'.surfs i).clientIdx (.toplevelClose (w'.surfs i).xdgTopObj) rfl).surf i
        { w'.surfs i with closeSent := true, alive := false, pendingBuf := noSlot, currentBuf := noSlot } id
      have told : FewerFrames w (w'.send (w'.surfs i).clientIdx (.toplevelClose (w'.surfs i).xdgTopObj)) := acts.2
      have fewer : FewerFrames w ((w'.send (w'.surfs i).clientIdx (.toplevelClose (w'.surfs i).xdgTopObj)).setSurf i
          { w'.surfs i with closeSent := true, alive := false, pendingBuf := noSlot, currentBuf := noSlot }) :=
        told.setSurf i (.inl rfl)
      generalize (w'.send _ _).setSurf i _ = w₁ at dead fewer ⊢
      split
      · exact ⟨dead.sanitize.relayout true, fewer.same ((SameBy.focusSanitize w₁).trans (SameBy.relayout _ true).contents)⟩
      · exact ⟨dead.relayout true, fewer.same (SameBy.relayout _ true).contents⟩
  have done : Acts nobody False w.Waits w (sendFrameDones (wldProcessPendingCloses (compositeAndPresent w).2) timeMs) ∧
      FewerFrames w (sendFrameDones (wldProcessPendingCloses (compositeAndPresent w).2) timeMs) := by
    refine List.foldlRecOn (motive := fun w' => Acts nobody False w.Waits w w' ∧ FewerFrames w w') _ _ closed
      fun w' acts si member => ?_
    unfold frameDoneTurn
    dsimp only
    split
    · exact acts
    · rename_i waits
      simp only [Bool.or_eq_true, not_or, Bool.not_eq_eq_eq_not, Bool.not_true, Bool.not_eq_false, beq_iff_eq] at waits
      obtain ⟨alive, client, frame⟩ := acts.2 si waits.1.1.1 waits.1.1.2
      refine ⟨(acts.1.surf si { w'.surfs si with frameCbId := 0 } id).send _ _ fun _ => ?_, acts.2.setSurf si (.inr rfl)⟩
      exact ⟨si, List.mem_range.mp member, alive, client.symm, frame⟩
  exact done.1

/-- The clients whose objects a step may change. -/
def Step.owners (w : Compositor) : Step → Nat → Prop
  | .accept, ci => (w.clients ci).alive = false
  | .message cj _ _ _, ci | .close cj, ci => ci = cj
  | _, _ => False

/-- The clients that a step may tell that a callback is done. -/
def Step.hearers (w : Compositor) : Step → Nat → Prop
  | .message ci m behind _, cj => cj = ci ∧
    ∃ cbId, requestOf (w.clients ci) m.objId m.opcode (m.memory behind) m.payloadLen = some (.sync cbId)
  | .present _, ci => w.Waits ci
  | _, _ => False

theorem step_acts (w : Compositor) (s : Step) : Acts (s.owners w) True (s.hearers w) w (step w s) := by
  cases s with
  | accept =>
    show Acts _ True _ w (acceptClient w)
    unfold acceptClient
    split
    · exact .start
    · rename_i slot found
      have free : (Step.accept).owners w slot := by simpa [Step.owners] using List.find?_some found
      exact (Acts.start.client _ free).client _ free
  | message ci m behind around =>
    show Acts _ True _ w (if _ then _ else _)
    split
    · rw [dispatchMsg_eq]
      split
      · exact .start
      · rename_i request asked
        refine (handle_acts w ci _ _ around request).mono (fun _ => id) (fun _ => trivial) fun cj => ?_
        rintro ⟨here, cbId, rfl⟩
        exact ⟨here, cbId, asked⟩
    · exact .start
  | close ci =>
    show Acts _ True _ w (if _ then _ else _)
    split
    · exact (close_acts w ci).mono (fun _ => id) False.elim fun _ => False.elim
    · exact .start
  | key action => exact Acts.start.handleKey action
  | mouse ev => exact Acts.start.handleMouse ev
  | present timeMs => exact (present_acts w timeMs).mono (fun _ => False.elim) False.elim fun _ => id

end

end Enlil.Wld
