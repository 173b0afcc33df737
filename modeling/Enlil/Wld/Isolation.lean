import Enlil.Wld.Pixels
import Enlil.Wld.Tidy

/-! Clients that give back nothing still in use keep apart: what each of them changes, what is drawn, and what is left behind. -/

namespace Enlil.Wld

/-- The type of the objects that a request is for. -/
def Request.target : Request → ObjType
  | .getRegistry _ | .sync _ => .display
  | .bind _ _ => .registry
  | .createSurface _ => .compositor
  | .createPoolSysv _ _ _ => .shm
  | .createBuffer _ _ _ _ _ _ | .poolDestroy => .shmPool
  | .bufferDestroy => .buffer
  | .attach _ | .frame _ | .commit | .surfaceDestroy => .surface
  | .getXdgSurface _ _ => .xdgWm
  | .getToplevel _ => .xdgSurf
  | .setTitle _ | .setAppId _ => .xdgTop
  | .setLayout _ | .focusNext | .focusPrev | .closeFocused | .getState | .setFocusPolicy _ => .enlilWm
  | .attachTerm _ | .releaseTerm => .enlilTerm

/-- What a request must not do: destroy what is still referred to, or make a pool, a buffer or a surface without a place for its object. -/
def Request.Orderly (w : Compositor) (c : WClient) (slot : Nat) : Request → Prop
  | .createSurface _ | .createPoolSysv _ _ _ | .createBuffer _ _ _ _ _ _ => c.objs.length < maxObjs
  | .poolDestroy => ∀ bi ∈ c.slots .buffer, (w.buffers bi).poolIdx ≠ slot
  | .bufferDestroy => ∀ si ∈ c.slots .surface, (w.surfs si).pendingBuf ≠ slot ∧ (w.surfs si).currentBuf ≠ slot
  | .surfaceDestroy => slot ∉ c.slots .xdgSurf ∧ slot ∉ c.slots .xdgTop
  | _ => True

/-- A step in order: its request is, a client that leaves shows all its buffers, and no window is about to have faded out for good. -/
def Step.Orderly (w : Compositor) : Step → Prop
  | .message ci m behind _ =>
    ∀ request, requestOf (w.clients ci) m.objId m.opcode (m.memory behind) m.payloadLen = some request →
      request.Orderly w (w.clients ci) (slotFor (w.clients ci) m.objId)
  | .close ci => ∀ bi ∈ (w.clients ci).slots .buffer, ∃ si ∈ (w.clients ci).slots .surface, (w.surfs si).currentBuf = bi
  | .present _ => ∀ si < maxSurfaces, (w.surfs si).closing → (w.surfs si).closeSent ∨ 1 < (w.surfs si).fadeTicks
  | _ => True

instance (w : Compositor) (c : WClient) (slot : Nat) (request : Request) : Decidable (request.Orderly w c slot) := by
  cases request <;> (unfold Request.Orderly; infer_instance)

instance (w : Compositor) (s : Step) : Decidable (s.Orderly w) :=
  match s with
  | .accept | .key _ | .mouse _ => isTrue trivial
  | .message ci m behind _ =>
    match asked : requestOf (w.clients ci) m.objId m.opcode (m.memory behind) m.payloadLen with
    | none => isTrue fun _ found => by rw [asked] at found; cases found
    | some request =>
      decidable_of_iff (request.Orderly w (w.clients ci) (slotFor (w.clients ci) m.objId))
        ⟨fun orderly _ found => by rw [asked] at found; cases found; exact orderly, fun orderly => orderly _ asked⟩
  | .close ci =>
    inferInstanceAs (Decidable (∀ bi ∈ (w.clients ci).slots .buffer,
      ∃ si ∈ (w.clients ci).slots .surface, (w.surfs si).currentBuf = bi))
  | .present _ =>
    inferInstanceAs (Decidable (∀ si < maxSurfaces,
      (w.surfs si).closing = true → (w.surfs si).closeSent = true ∨ 1 < (w.surfs si).fadeTicks))

section

variable {w w' : Compositor} {ci place : Nat} {objId opcode payloadLen : UInt32} {payload : Nat → UInt8}
  {type : ObjType} {request : Request}

theorem readRequest_target (read : (readRequest type opcode payloadLen).result payload = some request) :
    request.target = type := by
  unfold readRequest at read
  split at read
  all_goals repeat' split at read
  all_goals simp only [Asks.result_bind, Asks.result_done] at read
  all_goals repeat' split at read
  all_goals try simp only [Asks.result_bind, Asks.result_done] at read
  all_goals cases read
  all_goals rfl

theorem requestOf_some {c : WClient} (asked : requestOf c objId opcode payload payloadLen = some request) :
    request.target = .display ∨ ∃ place, wobjFind c objId = some place ∧ c.typeAt place = some request.target := by
  obtain ⟨type, target, read⟩ := Option.bind_eq_some_iff.mp asked
  have same := readRequest_target read
  unfold targetType at target
  split at target
  · cases target
    exact .inl same
  · split at target
    · cases target
    · rename_i place found
      split at target
      · cases target
      · exact .inr ⟨place, found, by rw [same]; exact target⟩

theorem Tidy.bind (tidy : Tidy w) (alive : (w.clients ci).alive = true) (name newId : UInt32) :
    Moves ci w (handleBind w ci name newId) := by
  have made (type : ObjType) (plain : type.slotted = false) : Moves ci w (w.alloc ci newId type 0) :=
    tidy.alloc alive newId 0 plain
  unfold handleBind
  refine iteInduction (motive := Moves ci w) (fun _ => made .compositor rfl) fun _ => ?_
  refine iteInduction (motive := Moves ci w) (fun _ => (made .shm rfl).same (.send _ ci _)) fun _ => ?_
  refine iteInduction (motive := Moves ci w) (fun _ => made .xdgWm rfl) fun _ => ?_
  refine iteInduction (motive := Moves ci w) (fun _ => (made .seat rfl).same (.send _ ci _)) fun _ => ?_
  refine iteInduction (motive := Moves ci w) (fun _ => (made .output rfl).same (.send _ ci _)) fun _ => ?_
  refine iteInduction (motive := Moves ci w) (fun _ => (made .enlilWm rfl).same (.sendWmState _ ci newId)) fun _ => ?_
  refine iteInduction (motive := Moves ci w) (fun _ => made .enlilTerm rfl) fun _ => ?_
  refine iteInduction (motive := Moves ci w) (fun _ => ?_) fun _ => ⟨tidy, ChangesOwn.refl ci w⟩
  have here : ((w.alloc ci newId .pointer 0).clients ci).alive = true := by
    rw [Compositor.alloc, setClient_clients, if_pos rfl, wobjAlloc]
    split <;> exact alive
  refine (made .pointer rfl).trans ((made .pointer rfl).tidy.setClient (fun t _ => rfl) here) fun t slot member => ?_
  rw [setClient_clients, if_pos rfl]
  exact member

theorem Tidy.handle (tidy : Tidy w) (alive : (w.clients ci).alive = true) (around : Surroundings)
    (orderly : request.Orderly w (w.clients ci) ((w.clients ci).extraAt place))
    (here : request.target = .display ∨
      wobjFind (w.clients ci) objId = some place ∧ (w.clients ci).typeAt place = some request.target) :
    Moves ci w (handle w ci objId place around request) := by
  have stays : Moves ci w w := ⟨tidy, ChangesOwn.refl ci w⟩
  have slot (plain : request.target ≠ .display) :
      (w.clients ci).extraAt place ∈ (w.clients ci).slots request.target :=
    (here.resolve_left plain).elim extraAt_mem
  have other (c : WClient) (objs : c.objs = (w.clients ci).objs) (alive : c.alive = true) :
      Moves ci w (w.setClient ci c) :=
    tidy.setClient (fun t _ => by simp only [WClient.slots, objs]) alive
  cases request with
  | getRegistry regId => exact (tidy.alloc alive regId 0 rfl).same (.send _ ci _)
  | sync cbId => exact (tidy.alloc alive cbId 0 rfl).same (.send _ ci _)
  | bind name newId => exact tidy.bind alive name newId
  | createSurface newId => exact tidy.createSurface alive orderly newId
  | createPoolSysv newId shmid size => exact tidy.createPool alive orderly around newId shmid size
  | createBuffer newId offset width height stride format =>
    exact tidy.createBuffer alive orderly (slot (by rintro ⟨⟩)) newId offset width height stride format
  | poolDestroy => exact tidy.poolDestroy alive (here.resolve_left (by rintro ⟨⟩)).1 (here.resolve_left (by rintro ⟨⟩)).2 orderly
  | bufferDestroy => exact tidy.bufferDestroy alive (here.resolve_left (by rintro ⟨⟩)).1 (here.resolve_left (by rintro ⟨⟩)).2 orderly
  | attach bufId => exact tidy.attach (slot (by rintro ⟨⟩)) bufId
  | frame cbId => exact tidy.frame alive (slot (by rintro ⟨⟩)) cbId
  | commit => exact tidy.commit (slot (by rintro ⟨⟩))
  | surfaceDestroy => exact tidy.surfaceDestroy alive (here.resolve_left (by rintro ⟨⟩)).1 (here.resolve_left (by rintro ⟨⟩)).2 orderly
  | getXdgSurface newId surfId =>
    cases found : slotOf (w.clients ci) surfId .surface with
    | none =>
      simp only [Wld.handle, handleGetXdgSurface, found]
      exact stays
    | some si => exact tidy.getXdgSurface alive (slotOf_mem found) newId surfId found
  | getToplevel newId => exact tidy.getToplevel alive (tidy.xdgSurf (slot (by rintro ⟨⟩))) newId
  | setTitle title => exact tidy.setTitle (tidy.xdgTop (slot (by rintro ⟨⟩))) title
  | setAppId appId => exact tidy.setAppId (tidy.xdgTop (slot (by rintro ⟨⟩))) appId
  | setLayout mode =>
    refine stays.same (SameBy.trans ?_ (((SameBy.relayout _ true).own).trans (.sendWmState _ ci objId)))
    split
    · exact ⟨rfl, rfl, rfl, fun _ => rfl⟩
    · exact .refl w
  | focusNext => exact stays.same ((SameBy.focusRotate w true).own.trans (.sendWmState _ ci objId))
  | focusPrev => exact stays.same ((SameBy.focusRotate w false).own.trans (.sendWmState _ ci objId))
  | closeFocused => exact stays.same ((SameBy.requestClose w).trans (.sendWmState _ ci objId))
  | getState => exact stays.same (.sendWmState w ci objId)
  | setFocusPolicy policy =>
    exact stays.same (@SameBy.trans _ _ w { w with focusFollowPointer := policy = 1 } _ ⟨rfl, rfl, rfl, fun _ => rfl⟩
      (.sendWmState _ ci objId))
  | attachTerm surfId =>
    show Moves ci w (handleAttachTerm w ci objId surfId)
    unfold handleAttachTerm
    split
    · exact stays
    · exact other _ rfl alive
  | releaseTerm => exact other _ rfl alive

theorem Tidy.dispatch (tidy : Tidy w) (alive : (w.clients ci).alive = true) (around : Surroundings)
    (orderly : ∀ request, requestOf (w.clients ci) objId opcode payload payloadLen = some request →
      request.Orderly w (w.clients ci) (slotFor (w.clients ci) objId)) :
    Moves ci w (dispatchMsg w ci objId opcode payload payloadLen around) := by
  rw [dispatchMsg_eq]
  cases asked : requestOf (w.clients ci) objId opcode payload payloadLen with
  | none => exact ⟨tidy, ChangesOwn.refl ci w⟩
  | some request =>
    refine tidy.handle alive around (orderly request asked) ((requestOf_some asked).imp id ?_)
    rintro ⟨place, found, typed⟩
    simp only [found, Option.getD_some]
    exact ⟨trivial, typed⟩

theorem Tidy.accept (tidy : Tidy w) : Tidy (acceptClient w) := by
  unfold acceptClient
  split
  · exact tidy
  · rename_i slot found
    have free : (w.clients slot).alive = false := by simpa using List.find?_some found
    have opened : Moves slot w (w.setClient slot { WClient.zero with alive := true }) := tidy.setClient
      (fun t _ => by simp only [WClient.slots, tidy.gone free]; rfl) rfl
    exact (opened.tidy.alloc (by rw [setClient_clients, if_pos rfl]) 1 0 rfl).tidy

/-- Part of the slots of surfaces and buffers is freed, and what they refer to stays the same. -/
structure Freed (surf buf : Nat → Prop) (w w' : Compositor) : Prop where
  clients : w'.clients = w.clients
  pools : w'.pools = w.pools
  surfAlive : ∀ si, (w'.surfs si).alive = true ↔ (w.surfs si).alive = true ∧ ¬ surf si
  clientIdx : ∀ si, (w'.surfs si).clientIdx = (w.surfs si).clientIdx
  pending : ∀ si, (w'.surfs si).pendingBuf = (w.surfs si).pendingBuf
  current : ∀ si, (w'.surfs si).currentBuf = (w.surfs si).currentBuf
  bufAlive : ∀ bi, (w'.buffers bi).alive = true ↔ (w.buffers bi).alive = true ∧ ¬ buf bi
  poolIdx : ∀ bi, (w'.buffers bi).poolIdx = (w.buffers bi).poolIdx

/-- A surface that closing a client frees. -/
def Closes (ci : Nat) (w : Compositor) (si : Nat) : Prop := (w.surfs si).alive = true ∧ (w.surfs si).clientIdx = ci

theorem closeSurface_freed (ci : Nat) (w : Compositor) (x : Nat) :
    Freed (fun si => si = x ∧ Closes ci w x)
      (fun bi => bi < maxBuffers ∧ Closes ci w x ∧ (w.surfs x).currentBuf = bi) w (closeSurface ci w x) := by
  unfold closeSurface
  dsimp only
  split
  · rename_i mine
    rw [Bool.and_eq_true, beq_iff_eq] at mine
    refine ⟨?_, ?_, fun si => ?_, fun si => ?_, fun si => ?_, fun si => ?_, fun bi => ?_, fun bi => ?_⟩
    all_goals simp only [setSurf_clients, setSurf_pools, setSurf_surfs, setSurf_buffers, Closes]
    all_goals split
    all_goals grind [setBuf_clients, setBuf_pools, setBuf_surfs, setBuf_buffers]
  · rename_i other
    rw [Bool.and_eq_true, beq_iff_eq] at other
    exact ⟨rfl, rfl, fun si => by grind [Closes], fun _ => rfl, fun _ => rfl, fun _ => rfl, fun bi => by grind [Closes],
      fun _ => rfl⟩

theorem closeSurfaces_freed (ci : Nat) (xs : List Nat) (w : Compositor) :
    Freed (fun si => si ∈ xs ∧ Closes ci w si)
      (fun bi => bi < maxBuffers ∧ ∃ si ∈ xs, Closes ci w si ∧ (w.surfs si).currentBuf = bi) w
      (xs.foldl (closeSurface ci) w) := by
  induction xs generalizing w with
  | nil => exact ⟨rfl, rfl, by simp, fun _ => rfl, fun _ => rfl, fun _ => rfl, by simp, fun _ => rfl⟩
  | cons x xs ih =>
    have first := closeSurface_freed ci w x
    have rest := ih (closeSurface ci w x)
    refine ⟨rest.clients.trans first.clients, rest.pools.trans first.pools, fun si => ?_,
      fun si => (rest.clientIdx si).trans (first.clientIdx si), fun si => (rest.pending si).trans (first.pending si),
      fun si => (rest.current si).trans (first.current si), fun bi => ?_,
      fun bi => (rest.poolIdx bi).trans (first.poolIdx bi)⟩
    · rw [List.foldl_cons, rest.surfAlive, first.surfAlive]
      simp only [Closes, first.surfAlive, first.clientIdx, List.mem_cons]
      grind
    · rw [List.foldl_cons, rest.bufAlive, first.bufAlive]
      simp only [Closes, first.surfAlive, first.clientIdx, first.current, List.mem_cons]
      grind

theorem closePools_freed (objs : List Wobj) (w : Compositor) :
    (objs.foldl closePool w).clients = w.clients ∧ (objs.foldl closePool w).surfs = w.surfs ∧
      (objs.foldl closePool w).buffers = w.buffers ∧
      ∀ pi, ((objs.foldl closePool w).pools pi).alive = true ↔ (w.pools pi).alive = true ∧
        ¬ (pi < maxPools ∧ ∃ o ∈ objs, o.alive = true ∧ o.type = .shmPool ∧ o.extra = pi) := by
  induction objs generalizing w with
  | nil => simp
  | cons o objs ih =>
    have first : (closePool w o).clients = w.clients ∧ (closePool w o).surfs = w.surfs ∧
        (closePool w o).buffers = w.buffers ∧ ∀ pi, ((closePool w o).pools pi).alive = true ↔
          (w.pools pi).alive = true ∧ ¬ (pi < maxPools ∧ o.alive = true ∧ o.type = .shmPool ∧ o.extra = pi) := by
      unfold closePool
      split
      · rename_i mine
        simp only [Bool.and_eq_true, beq_iff_eq, decide_eq_true_eq] at mine
        refine ⟨rfl, rfl, rfl, fun pi => ?_⟩
        rw [setPool_pools]
        split
        · rename_i equal
          simp [equal, mine]
        · rename_i differ
          simp [Ne.symm differ]
      · rename_i other
        simp only [Bool.and_eq_true, beq_iff_eq, decide_eq_true_eq] at other
        refine ⟨rfl, rfl, rfl, fun pi => ?_⟩
        constructor
        · intro alive
          refine ⟨alive, fun ⟨small, live, type, equal⟩ => other ?_⟩
          rw [equal]
          exact ⟨⟨⟨live, type⟩, small⟩, alive⟩
        · exact And.left
    obtain ⟨clients, surfs, buffers, pools⟩ := first
    obtain ⟨clients', surfs', buffers', pools'⟩ := ih (closePool w o)
    refine ⟨clients'.trans clients, surfs'.trans surfs, buffers'.trans buffers, fun pi => ?_⟩
    rw [List.foldl_cons, pools', pools]
    simp only [List.mem_cons]
    grind

theorem mem_slots {c : WClient} {slot : Nat} :
    slot ∈ c.slots type ↔ ∃ o ∈ c.objs, o.alive = true ∧ o.type = type ∧ o.extra = slot := by
  simp only [WClient.slots, List.mem_map, List.mem_filter, Bool.and_eq_true, beq_iff_eq]
  constructor
  · rintro ⟨o, ⟨here, live, typed⟩, equal⟩
    exact ⟨o, here, live, typed, equal⟩
  · rintro ⟨o, here, live, typed, equal⟩
    exact ⟨o, ⟨here, live, typed⟩, equal⟩

theorem Tidy.closes_iff (tidy : Tidy w) {si : Nat} :
    si ∈ List.range maxSurfaces ∧ Closes ci w si ↔ si ∈ (w.clients ci).slots .surface := by
  constructor
  · rintro ⟨_, alive, client⟩
    obtain ⟨j, member⟩ := tidy.surfs.held alive
    rwa [(tidy.surf member).client.symm.trans client] at member
  · intro member
    have live := tidy.surfs.live member
    exact ⟨List.mem_range.mpr live.1, live.2, (tidy.surf member).client⟩

theorem Tidy.close (tidy : Tidy w) (orderly : (Step.close ci).Orderly w) :
    Tidy (clientClose w ci) ∧
      (∀ pi ∈ (w.clients ci).slots .shmPool, ((clientClose w ci).pools pi).alive = false) ∧
      (∀ bi ∈ (w.clients ci).slots .buffer, ((clientClose w ci).buffers bi).alive = false) ∧
      ∀ si ∈ (w.clients ci).slots .surface, ((clientClose w ci).surfs si).alive = false := by
  unfold clientClose
  dsimp only
  have freed := closeSurfaces_freed ci (List.range maxSurfaces) w
  generalize (List.range maxSurfaces).foldl (closeSurface ci) w = w₁ at freed ⊢
  obtain ⟨clients, surfs, buffers, pools⟩ := closePools_freed (w₁.clients ci).objs w₁
  generalize (w₁.clients ci).objs.foldl closePool w₁ = w₂ at clients surfs buffers pools ⊢
  have same := (SameBy.relayout (w₂.setClient ci .zero) true).contents
  -- In each table exactly the client's slots are freed.
  have surfAlive (si : Nat) : (w₂.surfs si).alive = true ↔
      (w.surfs si).alive = true ∧ si ∉ (w.clients ci).slots .surface := by
    rw [surfs, freed.surfAlive, tidy.closes_iff]
  have bufAlive (bi : Nat) : (w₂.buffers bi).alive = true ↔
      (w.buffers bi).alive = true ∧ bi ∉ (w.clients ci).slots .buffer := by
    rw [buffers, freed.bufAlive]
    refine and_congr_right fun _ => not_congr ⟨fun ⟨small, si, inside, closes, shown⟩ => ?_, fun member => ?_⟩
    · rcases (tidy.surf (tidy.closes_iff.mp ⟨inside, closes⟩)).current with none | some
      · rw [← shown, none] at small
        exact absurd small (by decide)
      · exact shown ▸ some
    · obtain ⟨si, here, shown⟩ := orderly bi member
      have closes := tidy.closes_iff.mpr here
      exact ⟨(tidy.buffers.live member).1, si, closes.1, closes.2, shown⟩
  have poolAlive (pi : Nat) : (w₂.pools pi).alive = true ↔
      (w.pools pi).alive = true ∧ pi ∉ (w.clients ci).slots .shmPool := by
    rw [pools, freed.clients, freed.pools, ← mem_slots]
    exact and_congr_right fun _ => not_congr
      ⟨And.right, fun member => ⟨(tidy.pools.live member).1, member⟩⟩
  have nothing (t : ObjType) : ((w₂.setClient ci .zero).clients ci).slots t = [] := by
    rw [setClient_clients, if_pos rfl]
    rfl
  have others {cj : Nat} (other : cj ≠ ci) : (w₂.setClient ci .zero).clients cj = w.clients cj := by
    rw [setClient_clients, if_neg other, clients, freed.clients]
  have mem {cj slot : Nat} {t : ObjType} (member : slot ∈ ((w₂.setClient ci .zero).clients cj).slots t) :
      cj ≠ ci ∧ slot ∈ (w.clients cj).slots t := by
    by_cases here : cj = ci
    · rw [here, nothing] at member
      cases member
    · rw [others here] at member
      exact ⟨here, member⟩
  have left : Tidy (w₂.setClient ci .zero) := by
    refine ⟨tidy.pools.leave (nothing _) poolAlive fun cj other => by rw [others other],
      tidy.buffers.leave (nothing _) bufAlive fun cj other => by rw [others other],
      tidy.surfs.leave (nothing _) surfAlive fun cj other => by rw [others other],
      fun {cj bi} member => ?_, fun {cj si} member => ?_, fun {cj si} member => ?_, fun {cj si} member => ?_,
      fun {cj} dead => ?_⟩
    · obtain ⟨other, old⟩ := mem member
      rw [others other, setClient_buffers, buffers, freed.poolIdx]
      exact tidy.backed old
    · obtain ⟨other, old⟩ := mem member
      obtain ⟨client, pending, current⟩ := tidy.surf old
      rw [others other, setClient_surfs, surfs]
      exact ⟨by rw [freed.clientIdx, client], by rw [freed.pending]; exact pending,
        by rw [freed.current]; exact current⟩
    · obtain ⟨other, old⟩ := mem member
      rw [others other]
      exact tidy.xdgSurf old
    · obtain ⟨other, old⟩ := mem member
      rw [others other]
      exact tidy.xdgTop old
    · rw [setClient_clients] at dead ⊢
      split
      · rfl
      · rename_i other
        rw [if_neg other, clients, freed.clients] at dead
        rw [clients, freed.clients]
        exact tidy.gone dead
  generalize wldRelayout (w₂.setClient ci .zero) true = w₄ at same ⊢
  refine ⟨left.same same, fun pi member => ?_, fun bi member => ?_, fun si member => ?_⟩
  · rw [same.pools, ← Bool.not_eq_true]
    exact fun alive => ((poolAlive pi).mp alive).2 member
  · rw [same.buffers, ← Bool.not_eq_true]
    exact fun alive => ((bufAlive bi).mp alive).2 member
  · have kept : (w₄.surfs si).alive = (w₂.surfs si).alive := congrArg Contents.alive (same.surfs si)
    rw [kept, ← Bool.not_eq_true]
    exact fun alive => ((surfAlive si).mp alive).2 member

theorem fadeTurns_spec {xs : List Nat} (once : xs.Nodup) (w : Compositor) :
    SameContents w (xs.foldl fadeTurn w) ∧ ∀ si,
      ((xs.foldl fadeTurn w).surfs si).closing = (w.surfs si).closing ∧
      ((xs.foldl fadeTurn w).surfs si).closeSent = (w.surfs si).closeSent ∧
      (w.surfs si).fadeTicks ≤ ((xs.foldl fadeTurn w).surfs si).fadeTicks + 1 ∧
      (si ∉ xs → ((xs.foldl fadeTurn w).surfs si).fadeTicks = (w.surfs si).fadeTicks) := by
  induction xs generalizing w with
  | nil => exact ⟨.refl w, fun si => ⟨rfl, rfl, Nat.le_succ _, fun _ => rfl⟩⟩
  | cons x xs ih =>
    obtain ⟨fresh, once⟩ := List.nodup_cons.mp once
    have first : SameContents w (fadeTurn w x) ∧ ∀ si, ((fadeTurn w x).surfs si).closing = (w.surfs si).closing ∧
        ((fadeTurn w x).surfs si).closeSent = (w.surfs si).closeSent ∧
        (w.surfs si).fadeTicks ≤ ((fadeTurn w x).surfs si).fadeTicks + 1 ∧
        (si ≠ x → ((fadeTurn w x).surfs si).fadeTicks = (w.surfs si).fadeTicks) := by
      unfold fadeTurn
      split
      · refine ⟨.setSurf rfl, fun si => ?_⟩
        rw [setSurf_surfs]
        split
        · rename_i equal
          subst equal
          exact ⟨rfl, rfl, by dsimp only; omega, fun differ => absurd rfl differ⟩
        · exact ⟨rfl, rfl, Nat.le_succ _, fun _ => rfl⟩
      · exact ⟨.refl w, fun si => ⟨rfl, rfl, Nat.le_succ _, fun _ => rfl⟩⟩
    obtain ⟨same, rest⟩ := ih once (fadeTurn w x)
    refine ⟨first.1.trans same, fun si => ?_⟩
    obtain ⟨closing, closeSent, fade, kept⟩ := first.2 si
    obtain ⟨closing', closeSent', fade', kept'⟩ := rest si
    rw [List.foldl_cons]
    refine ⟨closing'.trans closing, closeSent'.trans closeSent, ?_, fun outside => ?_⟩
    · by_cases here : si = x
      · subst here
        rw [kept' fresh]
        exact fade
      · rw [← kept here]
        exact fade'
    · rw [List.mem_cons, not_or] at outside
      exact (kept' outside.2).trans (kept outside.1)

theorem composite_spec (w : Compositor) :
    SameContents w (compositeAndPresent w).2 ∧ ∀ si,
      ((compositeAndPresent w).2.surfs si).closing = (w.surfs si).closing ∧
      ((compositeAndPresent w).2.surfs si).closeSent = (w.surfs si).closeSent ∧
      (w.surfs si).fadeTicks ≤ ((compositeAndPresent w).2.surfs si).fadeTicks + 1 := by
  unfold compositeAndPresent
  dsimp only
  have placed := SameBy.relayout w false
  generalize wldRelayout w false = w₁ at placed ⊢
  obtain ⟨same, fades⟩ := fadeTurns_spec (List.nodup_range (n := maxSurfaces)) w₁
  generalize (List.range maxSurfaces).foldl fadeTurn w₁ = w₂ at same fades ⊢
  refine ⟨(placed.contents.trans same).trans ⟨rfl, rfl, rfl, fun _ => rfl⟩, fun si => ?_⟩
  have lasting := placed.surfs si
  obtain ⟨closing, closeSent, fade, _⟩ := fades si
  have fadeTicks : (w₁.surfs si).fadeTicks = (w.surfs si).fadeTicks := congrArg (·.2.2.1) lasting
  refine ⟨closing.trans (congrArg (·.2.2.2.1) lasting), closeSent.trans (congrArg (·.2.2.2.2.1) lasting), ?_⟩
  rw [← fadeTicks]
  exact fade

theorem pendingCloses_none
    (quiet : ∀ si < maxSurfaces,
      (w.surfs si).closing = true → (w.surfs si).closeSent = true ∨ (w.surfs si).fadeTicks ≠ 0) :
    wldProcessPendingCloses w = w := by
  have turn {i : Nat} (inside : i < maxSurfaces) : pendingCloseTurn w i = w := by
    unfold pendingCloseTurn
    dsimp only
    rw [if_pos]
    by_cases closing : (w.surfs i).closing = true
    · rcases quiet i inside closing with sent | fading
      · simp [sent]
      · simp [fading]
    · simp [closing]
  exact List.foldlRecOn (motive := fun w' => w' = w) (List.range maxSurfaces) pendingCloseTurn rfl
    fun w' same i member => by rw [same, turn (List.mem_range.mp member)]

theorem Tidy.frameDones (tidy : Tidy w) (timeMs : UInt32) : Tidy (sendFrameDones w timeMs) := by
  unfold sendFrameDones
  induction List.range maxSurfaces generalizing w with
  | nil => exact tidy
  | cons x xs ih =>
    refine ih ?_
    unfold frameDoneTurn
    dsimp only
    split
    · exact tidy
    · rename_i done
      simp only [Bool.or_eq_true, not_or, Bool.not_eq_true, Bool.not_eq_eq_eq_not, Bool.not_true] at done
      have alive : (w.surfs x).alive = true := by simpa using done.1.1.1
      obtain ⟨j, member⟩ := tidy.surfs.held alive
      have moved : Moves j w (w.setSurf x { w.surfs x with frameCbId := 0 }) := tidy.change member alive rfl rfl rfl
      exact moved.tidy.same (.send _ _ _)

theorem Tidy.step {s : Step} (tidy : Tidy w) (orderly : s.Orderly w) : Tidy (step w s) := by
  cases s with
  | accept => exact tidy.accept
  | message ci m behind around =>
    show Tidy (if _ then _ else _)
    split
    · rename_i here
      exact (tidy.dispatch here.2 around orderly).tidy
    · exact tidy
  | close ci =>
    show Tidy (if _ then _ else _)
    split
    · exact (tidy.close orderly).1
    · exact tidy
  | key action => exact tidy.same (.handleKey w action)
  | mouse ev => exact tidy.same (.handleMouse w ev)
  | present timeMs =>
    obtain ⟨same, fades⟩ := composite_spec w
    show Tidy (sendFrameDones (wldProcessPendingCloses (compositeAndPresent w).2) timeMs)
    rw [pendingCloses_none fun si inside closing => ?_]
    · exact (tidy.same same).frameDones timeMs
    · obtain ⟨same, sent, fade⟩ := fades si
      rw [same] at closing
      rcases orderly si inside closing with told | fading
      · exact .inl (sent.trans told)
      · exact .inr (by omega)

theorem Tidy.init : Tidy .init where
  pools := .empty (fun _ => rfl) fun _ => rfl
  buffers := .empty (fun _ => rfl) fun _ => rfl
  surfs := .empty (fun _ => rfl) fun _ => rfl
  backed := nofun
  surf := nofun
  xdgSurf := nofun
  xdgTop := nofun
  gone _ := rfl

theorem Tidy.drawn (tidy : Tidy w) {si : Nat} (member : si ∈ (w.clients ci).slots .surface) {b : Blit}
    (drawn : Drawn w si b) : ∃ pi ∈ (w.clients ci).slots .shmPool, (w.pools pi).ptr = some b.src := by
  obtain ⟨shown, buf, source, _⟩ := drawn.source
  obtain ⟨rfl, _, _, ptr⟩ := sourceOf_some source
  refine ⟨_, tidy.backed ((tidy.surf member).current.resolve_left fun none => ?_), ptr⟩
  rw [wsurfIsViewable, none] at shown
  simp at shown

end

/-- In a run in order, the slots in use are those of the objects that the clients have, each of one; a message of a client changes only what is its own, apart from where surfaces are placed, the focus and the marks of closing; what is drawn of its surfaces comes from its pools; and once it has left, none of its slots is in use. -/
theorem clients_isolated {w : Compositor} (run : Run exec (fun w s => s.Orderly w) .init w) :
    Tidy w ∧
      (∀ ci m behind around, (Step.message ci m behind around).Orderly w →
        ChangesOwn ci w (step w (.message ci m behind around))) ∧
      (∀ ci, ∀ si ∈ (w.clients ci).slots .surface, ∀ answers src byte,
        ((∃ second, .pixel src byte ∈ (drawWindow (wldRelayout w false) second si).questions answers) ∨
          .pixel src byte ∈ (drawDock (wldRelayout w false) si).questions answers) →
        ∃ pi ∈ (w.clients ci).slots .shmPool, (w.pools pi).ptr = some src) ∧
      ∀ ci, ci < maxClients → (w.clients ci).alive = true → (Step.close ci).Orderly w →
        (∀ pi ∈ (w.clients ci).slots .shmPool, ((step w (.close ci)).pools pi).alive = false) ∧
          (∀ bi ∈ (w.clients ci).slots .buffer, ((step w (.close ci)).buffers bi).alive = false) ∧
          ∀ si ∈ (w.clients ci).slots .surface, ((step w (.close ci)).surfs si).alive = false := by
  have tidy : Tidy w := run.invariant .init fun tidy orderly done => by
    cases done
    exact tidy.step orderly
  refine ⟨tidy, fun ci m behind around orderly => ?_, fun ci si member answers src byte asked => ?_,
    fun ci inside alive orderly => ?_⟩
  · show ChangesOwn ci w (if _ then _ else _)
    split
    · rename_i here
      exact (tidy.dispatch here.2 around orderly).own
    · exact .refl ci w
  · have placed := (SameBy.relayout w false).contents
    have tidy := tidy.same placed
    rw [← placed.clients] at member ⊢
    rw [← placed.pools]
    obtain ⟨b, drawn, read⟩ := asked.elim (fun ⟨_, window⟩ => drawWindow_questions window) drawDock_questions
    rw [blit_source read]
    exact tidy.drawn member drawn
  · have closed : step w (.close ci) = clientClose w ci := if_pos ⟨inside, alive⟩
    rw [closed]
    exact (tidy.close orderly).2

/-- A message to an object, with words as its payload. -/
def request (objId opcode : UInt32) (words : List UInt32) : Message := ⟨objId, opcode, words.flatMap le32⟩

/-- What a client sends until it has a window: all but the last of it. -/
def opening : List Message :=
  [request 1 1 [2], request 2 0 [1, 0, 1, 3], request 2 0 [2, 0, 1, 4], request 2 0 [3, 0, 1, 5], request 3 0 [6],
    request 4 0 [7, 1, 4], request 7 0 [8, 0, 1, 1, 4, 0], request 5 2 [9, 6], request 9 1 [10], request 6 1 [8, 0, 0]]

/-- The last of it: the window is shown. -/
def commit : Message := request 6 6 []

/-- A client sends a message, and segments are attached where it asks for pools. -/
def sent (ci : Nat) (m : Message) : Step := .message ci m (fun _ => 0) ⟨some ⟨4096 * (ci + 1), 4, by decide⟩, 0⟩

/-- Two clients open a window each; the second one has not shown its window yet. -/
def twoWindows : List Step :=
  [.accept, .accept] ++ (opening ++ [commit]).map (sent 0) ++ opening.map (sent 1)

theorem twoWindows_seen : (runList exec (fun w s => s.Orderly w) .init twoWindows).any (fun w =>
    decide ((w.clients 0).slots .surface ≠ [] ∧ (w.clients 1).slots .surface ≠ [] ∧ (sent 1 commit).Orderly w ∧
      (w.surfs 0).alive = true ∧ (w.surfs 0).clientIdx = 0 ∧ (w.surfs 0).viewW = 776 ∧
        ((step w (sent 1 commit)).surfs 0).viewW = 382)) = true := by
  decide +kernel

/-- The run of two windows is in order, and what follows for it says something about both clients. -/
theorem clients_isolated_two : ∃ w, Run exec (fun w s => s.Orderly w) .init w ∧
    (∃ ci cj, ci ≠ cj ∧ (w.clients ci).slots .surface ≠ [] ∧ (w.clients cj).slots .surface ≠ []) ∧
      ChangesOwn 1 w (step w (sent 1 commit)) := by
  obtain ⟨w, run, seen⟩ := runList_any twoWindows_seen
  obtain ⟨first, second, orderly, _⟩ := of_decide_eq_true seen
  exact ⟨w, run, ⟨0, 1, by decide, first, second⟩, (clients_isolated run).2.1 1 commit _ _ orderly⟩

/-- Where the second client shows its window, that of the first one gets half of the screen only, though it is another client's, and alive. -/
theorem tiling_shared : ∃ w, Run exec (fun w s => s.Orderly w) .init w ∧ (sent 1 commit).Orderly w ∧
    (w.surfs 0).alive = true ∧ (w.surfs 0).clientIdx = 0 ∧ (w.surfs 0).viewW = 776 ∧
      ((step w (sent 1 commit)).surfs 0).viewW = 382 := by
  obtain ⟨w, run, seen⟩ := runList_any twoWindows_seen
  exact ⟨w, run, (of_decide_eq_true seen).2.2⟩

end Enlil.Wld
