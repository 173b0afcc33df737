import Enlil.Wld.Acts
import Enlil.Wld.Isolation

/-! The objects of a client, as the protocol has them and as the compositor keeps them. -/

namespace Enlil.Wld

def globalType (name : UInt32) : Option ObjType :=
  if name = 1 then some .compositor
  else if name = 2 then some .shm
  else if name = 3 then some .xdgWm
  else if name = 4 then some .seat
  else if name = 5 then some .output
  else if name = 6 then some .enlilWm
  else if name = 7 then some .enlilTerm
  else if name = 8 then some .pointer
  else none

def Request.newObject : Request → Option (UInt32 × ObjType)
  | .getRegistry regId => some (regId, .registry)
  | .sync cbId | .frame cbId => some (cbId, .callback)
  | .bind name newId => (globalType name).map fun type => (newId, type)
  | .createSurface newId => some (newId, .surface)
  | .createPoolSysv newId _ _ => some (newId, .shmPool)
  | .createBuffer newId _ _ _ _ _ => some (newId, .buffer)
  | .getXdgSurface newId _ => some (newId, .xdgSurf)
  | .getToplevel newId => some (newId, .xdgTop)
  | _ => none

def Request.surface : Request → Option UInt32
  | .getXdgSurface _ surfId => some surfId
  | _ => none

/-- The live objects of a client in the protocol; of some the compositor knows no type. -/
abbrev Live : Type := List (UInt32 × Option ObjType)

def typeIn (live : Live) (id : UInt32) : Option ObjType := (live.find? fun o => o.1 == id).bind (·.2)

def isDestructor : ObjType → UInt32 → Bool
  | .shmPool, opcode => opcode = 1
  | .buffer, opcode | .surface, opcode | .xdgWm, opcode | .xdgSurf, opcode | .xdgTop, opcode => opcode = 0
  | _, _ => false

/-- The requests that make a region or a positioner. -/
def makesForeign : ObjType → UInt32 → Bool
  | .compositor, opcode | .xdgWm, opcode => opcode = 1
  | _, _ => false

/-- The object that a message to an object of a type makes. -/
def Message.newObject (m : Message) (type : ObjType) (behind : Nat → UInt8) : Option (UInt32 × Option ObjType) :=
  if makesForeign type m.opcode then some ((askU32 0).result (m.memory behind), none)
  else
    (((readRequest type m.opcode m.payloadLen).result (m.memory behind)).bind Request.newObject).map fun o => (o.1, some o.2)

def afterMessage (live : Live) (m : Message) (behind : Nat → UInt8) : Live :=
  match typeIn live m.objId with
  | none => live
  | some type =>
    (if isDestructor type m.opcode then live.filter fun o => o.1 != m.objId else live) ++ (m.newObject type behind).toList

/-- A call tells a client that a callback is done, and that its id may be used again. -/
def deletes (ci : Nat) (id : UInt32) : Nat × Send → Bool
  | (cj, .callbackDone cbId _) => decide (cj = ci) && cbId == id
  | _ => false

structure Session where
  now : Compositor
  live : Live

def Session.init : Session := ⟨.init, []⟩

/-- A client sends messages only as long as it is there. -/
def Session.here (ci : Nat) (t : Session) : Prop := ci < maxClients ∧ (t.now.clients ci).alive = true

instance (ci : Nat) (t : Session) : Decidable (t.here ci) := inferInstanceAs (Decidable (_ ∧ _))

/-- The live objects of a client after a step, but for those that end in it by an event. -/
def Session.liveBefore (ci : Nat) (t : Session) : Step → Live
  | .accept =>
    if !(t.now.clients ci).alive && ((step t.now .accept).clients ci).alive then [(1, some .display)] else t.live
  | .message cj m behind _ => if cj = ci ∧ t.here ci then afterMessage t.live m behind else t.live
  | .close cj => if cj = ci ∧ t.here ci then [] else t.live
  | _ => t.live

def Session.liveAfter (ci : Nat) (t : Session) (s : Step) : Live :=
  (t.liveBefore ci s).filter fun o => !((step t.now s).sends.drop t.now.sends.length).any (deletes ci o.1)

def Session.exec (ci : Nat) (t : Session) (s : Step) : Except Empty Session := .ok ⟨step t.now s, t.liveAfter ci s⟩

/-- A client keeps to the protocol: its messages are for live objects and refer to live objects, and new objects get ids that none has. -/
def Step.Conforming (ci : Nat) (t : Session) : Step → Prop
  | .message cj m behind _ => cj = ci → t.here ci → ∃ type ∈ typeIn t.live m.objId,
      (∀ o ∈ m.newObject type behind, o.1 ∉ t.live.map (·.1)) ∧
        ∀ request ∈ (readRequest type m.opcode m.payloadLen).result (m.memory behind),
          ∀ surfId ∈ request.surface, typeIn t.live surfId = some .surface
  | _ => True

instance (ci : Nat) (t : Session) (s : Step) : Decidable (s.Conforming ci t) := by
  cases s <;> (unfold Step.Conforming; infer_instance)

/-- A request that makes an object finds all it needs, and no callback is done at once. -/
def Request.Lasts (w : Compositor) (around : Surroundings) : Request → Prop
  | .sync _ => False
  | .createSurface _ => surfAlloc w ≠ noSlot
  | .createPoolSysv _ _ _ => poolAlloc w ≠ noSlot ∧ around.attached ≠ none
  | .createBuffer _ _ _ _ _ _ => bufAlloc w ≠ noSlot
  | _ => True

/-- No object of a client ends in a step, and a new one finds all it needs. -/
def Step.Lasting (ci : Nat) (t : Session) : Step → Prop
  | .message cj m behind around => cj = ci → t.here ci → ∀ type ∈ typeIn t.live m.objId,
      isDestructor type m.opcode = false ∧ makesForeign type m.opcode = false ∧
        ((m.newObject type behind).isSome = true → t.live.length < maxObjs) ∧
        ∀ request ∈ (readRequest type m.opcode m.payloadLen).result (m.memory behind), request.Lasts t.now around
  | .present _ => ¬ t.now.Waits ci
  | _ => True

/-- The law of object ids: no two live objects of a client have one id, as many places are occupied as there are live objects, and every live object is found by its id. -/
structure IdLaw (c : WClient) (live : Live) : Prop where
  unique : ((c.objs.filter (·.alive)).map (·.id)).Nodup
  occupied : c.objs.length = live.length
  found : ∀ o ∈ live, o.2 ≠ none ∧ (wobjFind c o.1).bind c.typeAt = o.2

/-- The objects that a client has are its live objects, in the order in which they were made. -/
structure Exact (c : WClient) (live : Live) : Prop where
  objs : c.objs.map (fun o => (o.id, some o.type)) = live
  alive : ∀ o ∈ c.objs, o.alive = true
  unique : (c.objs.map (·.id)).Nodup
  display : c.alive = true → ∃ o ∈ c.objs, o.id = 1 ∧ o.type = .display
  first : ∀ o ∈ c.objs, o.type = .display → o.id = 1
  slots : ∀ o ∈ c.objs, o.type = .surface → o.extra < maxSurfaces
  gone : c.alive = false → c.objs = []

section

variable {w w' w'' : Compositor} {c : WClient} {live : Live} {ci place : Nat} {objId : UInt32} {made : Option (UInt32 × ObjType)}

theorem wobjFind_type (c : WClient) (id : UInt32) :
    (wobjFind c id).bind c.typeAt = (c.objs.find? fun o => o.alive && o.id == id).map (·.type) := by
  unfold wobjFind WClient.typeAt
  cases found : c.objs.findIdx? fun o => o.alive && o.id == id with
  | none =>
    rw [List.findIdx?_eq_none_iff] at found
    have none : (c.objs.find? fun o => o.alive && o.id == id) = none :=
      List.find?_eq_none.mpr fun o member => by rw [found o member]; exact Bool.false_ne_true
    rw [none]
    rfl
  | some i =>
    obtain ⟨inside, holds, before⟩ := List.findIdx?_eq_some_iff_getElem.mp found
    have some : (c.objs.find? fun o => o.alive && o.id == id) = some c.objs[i] :=
      List.find?_eq_some_iff_getElem.mpr ⟨holds, i, inside, rfl, fun j less => by rw [Bool.not_eq_true']; exact Bool.eq_false_iff.mpr (before j less)⟩
    rw [some, Option.bind_some, List.getElem?_eq_getElem inside]

theorem Exact.typeIn_eq (exact : Exact c live) (id : UInt32) : typeIn live id = (wobjFind c id).bind c.typeAt := by
  have same : (c.objs.find? fun o => o.alive && o.id == id) = c.objs.find? fun o => o.id == id :=
    List.find?_congr fun o member => by rw [exact.alive o member, Bool.true_and]
  have mapped : ((fun o : UInt32 × Option ObjType => o.1 == id) ∘ fun o : Wobj => (o.id, some o.type)) = fun o => o.id == id :=
    rfl
  rw [wobjFind_type, same, typeIn, ← exact.objs, List.find?_map, mapped]
  cases c.objs.find? fun o => o.id == id <;> rfl

theorem Exact.target (exact : Exact c live) (here : c.alive = true) (objId : UInt32) :
    targetType c objId = typeIn live objId := by
  rw [exact.typeIn_eq]
  unfold targetType
  split
  · rename_i first
    obtain ⟨o, member, id, type⟩ := exact.display here
    rw [wobjFind_type, first]
    cases found : c.objs.find? fun o => o.alive && o.id == 1 with
    | none =>
      have none := List.find?_eq_none.mp found o member
      simp [exact.alive o member, id] at none
    | some o' =>
      have holds := List.find?_some found
      rw [Bool.and_eq_true, beq_iff_eq] at holds
      have equal := List.inj_on_of_nodup_map exact.unique (List.mem_of_find?_eq_some found) member (holds.2.trans id.symm)
      rw [equal, Option.map_some, type]
  · rename_i other
    cases found : wobjFind c objId with
    | none => rfl
    | some place =>
      dsimp only [Option.bind_some]
      split
      · rename_i display
        obtain ⟨o, at_place, _, id⟩ := wobjFind_some found
        simp only [WClient.typeAt, at_place, Option.map_some, Option.some.injEq] at display
        exact absurd (id.symm.trans (exact.first o (List.mem_of_getElem? at_place) display)) other
      · rfl

theorem Exact.law (exact : Exact c live) : IdLaw c live where
  unique := by
    rw [List.filter_eq_self.mpr exact.alive]
    exact exact.unique
  occupied := by rw [← exact.objs, List.length_map]
  found o member := by
    rw [← exact.objs, List.mem_map] at member
    obtain ⟨own, here, rfl⟩ := member
    refine ⟨nofun, ?_⟩
    rw [wobjFind_type]
    cases found : c.objs.find? fun o => o.alive && o.id == own.id with
    | none =>
      have none := List.find?_eq_none.mp found own here
      simp [exact.alive own here] at none
    | some o' =>
      have holds := List.find?_some found
      rw [Bool.and_eq_true, beq_iff_eq] at holds
      rw [List.inj_on_of_nodup_map exact.unique (List.mem_of_find?_eq_some found) here holds.2]
      rfl

theorem alloc_clients (w : Compositor) (ci : Nat) (id : UInt32) (type : ObjType) (extra cj : Nat) :
    (w.alloc ci id type extra).clients cj = if cj = ci then wobjAlloc (w.clients ci) id type extra else w.clients cj :=
  setClient_clients ..

/-- A client has one more object, if one is made. -/
structure Grows (ci : Nat) (made : Option (UInt32 × ObjType)) (w w' : Compositor) : Prop where
  alive : (w'.clients ci).alive = (w.clients ci).alive
  objs : ∃ extra, (∀ o ∈ made, o.2 = .surface → extra < maxSurfaces) ∧
    (w'.clients ci).objs = (w.clients ci).objs ++ (made.map fun o => ⟨o.1, o.2, true, extra⟩).toList

theorem Grows.still (alive : (w'.clients ci).alive = (w.clients ci).alive) (objs : (w'.clients ci).objs = (w.clients ci).objs) :
    Grows ci none w w' := ⟨alive, 0, nofun, by simpa using objs⟩

theorem Grows.clients (same : w'.clients ci = w.clients ci) : Grows ci none w w' := .still (by rw [same]) (by rw [same])

theorem Grows.behind (grows : Grows ci made w w') (same : w''.clients = w'.clients) : Grows ci made w w'' := by
  refine ⟨?_, ?_⟩
  · rw [same]
    exact grows.alive
  · rw [same]
    exact grows.objs

theorem Grows.alloc (before : w'.clients = w.clients) (room : (w.clients ci).objs.length < maxObjs) (id : UInt32)
    (type : ObjType) {extra : Nat} (slot : type = .surface → extra < maxSurfaces) :
    Grows ci (some (id, type)) w (w'.alloc ci id type extra) := by
  have same : (w'.alloc ci id type extra).clients ci = wobjAlloc (w.clients ci) id type extra := by
    rw [alloc_clients, if_pos rfl, before]
  rw [wobjAlloc, if_neg (by omega)] at same
  refine ⟨by rw [same], extra, fun o here => ?_, by rw [same]; rfl⟩
  cases here
  exact slot

theorem handle_grows {request : Request} (around : Surroundings) (lasts : request.Lasts w around)
    (ends : request ≠ .poolDestroy ∧ request ≠ .bufferDestroy ∧ request ≠ .surfaceDestroy)
    (room : request.newObject.isSome = true → (w.clients ci).objs.length < maxObjs)
    (slot : request.target = .surface → (w.clients ci).extraAt place < maxSurfaces)
    (refers : ∀ surfId ∈ request.surface, slotOf (w.clients ci) surfId .surface ≠ none) :
    Grows ci request.newObject w (handle w ci objId place around request) := by
  -- Acts that change no objects at all.
  have plain {w' : Compositor} (acts : Acts nobody True nobody w w') : Grows ci none w w' := .clients (acts.others id)
  cases request with
  | getRegistry regId => exact (Grows.alloc rfl (room rfl) regId .registry nofun).behind rfl
  | sync cbId => exact lasts.elim
  | bind name newId =>
    show Grows ci _ w (handleBind w ci name newId)
    have made (type : ObjType) (named : globalType name = some type) (other : type ≠ .surface) :
        Grows ci (Request.bind name newId).newObject w (w.alloc ci newId type 0) := by
      have new : (Request.bind name newId).newObject = some (newId, type) := by rw [Request.newObject, named]; rfl
      rw [new] at room ⊢
      exact .alloc rfl (room rfl) newId type fun same => absurd same other
    unfold handleBind
    refine iteInduction (motive := Grows ci (Request.bind name newId).newObject w) (fun same => ?_) fun not1 => ?_
    · exact made .compositor (by rw [same]; rfl) nofun
    refine iteInduction (motive := Grows ci (Request.bind name newId).newObject w) (fun same => ?_) fun not2 => ?_
    · exact (made .shm (by rw [same]; rfl) nofun).behind rfl
    refine iteInduction (motive := Grows ci (Request.bind name newId).newObject w) (fun same => ?_) fun not3 => ?_
    · exact made .xdgWm (by rw [same]; rfl) nofun
    refine iteInduction (motive := Grows ci (Request.bind name newId).newObject w) (fun same => ?_) fun not4 => ?_
    · exact (made .seat (by rw [same]; rfl) nofun).behind rfl
    refine iteInduction (motive := Grows ci (Request.bind name newId).newObject w) (fun same => ?_) fun not5 => ?_
    · exact (made .output (by rw [same]; rfl) nofun).behind rfl
    refine iteInduction (motive := Grows ci (Request.bind name newId).newObject w) (fun same => ?_) fun not6 => ?_
    · exact (made .enlilWm (by rw [same]; rfl) nofun).behind rfl
    refine iteInduction (motive := Grows ci (Request.bind name newId).newObject w) (fun same => ?_) fun not7 => ?_
    · exact made .enlilTerm (by rw [same]; rfl) nofun
    refine iteInduction (motive := Grows ci (Request.bind name newId).newObject w) (fun same => ?_) fun not8 => ?_
    · have grown := made .pointer (by rw [same]; rfl) nofun
      refine ⟨?_, ?_⟩
      · rw [setClient_clients, if_pos rfl]
        exact grown.alive
      · rw [setClient_clients, if_pos rfl]
        exact grown.objs
    · -- No global has the name.
      have none : globalType name = none := by
        rw [globalType, if_neg not1, if_neg not2, if_neg not3, if_neg not4, if_neg not5, if_neg not6, if_neg not7, if_neg not8]
      have new : (Request.bind name newId).newObject = Option.none := by rw [Request.newObject, none]; rfl
      rw [new]
      exact .clients rfl
  | createSurface newId =>
    show Grows ci _ w (handleCreateSurface w ci newId)
    unfold handleCreateSurface
    dsimp only
    rw [if_neg lasts]
    have inside : surfAlloc w < maxSurfaces := (find_free rfl lasts).1
    exact .alloc (by rfl) (room rfl) newId .surface fun _ => inside
  | createPoolSysv newId shmid size =>
    show Grows ci _ w (handleCreatePool w ci around newId shmid size)
    obtain ⟨free, attached⟩ := lasts
    obtain ⟨ptr, attached⟩ := Option.ne_none_iff_exists'.mp attached
    unfold handleCreatePool
    simp only [if_neg free, attached]
    exact .alloc (by rfl) (room rfl) newId .shmPool nofun
  | createBuffer newId offset width height stride format =>
    show Grows ci _ w (handleCreateBuffer w ci _ newId offset width height stride format)
    unfold handleCreateBuffer
    dsimp only
    rw [if_neg lasts]
    exact .alloc (by rfl) (room rfl) newId .buffer nofun
  | poolDestroy => exact absurd rfl ends.1
  | bufferDestroy => exact absurd rfl ends.2.1
  | attach bufId =>
    show Grows ci _ w (handleAttach w ci _ bufId)
    unfold handleAttach
    split <;> exact .clients rfl
  | frame cbId =>
    show Grows ci _ w (handleFrame w ci _ cbId)
    unfold handleFrame
    rw [if_pos (slot rfl)]
    exact (Grows.alloc rfl (room rfl) cbId .callback nofun).behind rfl
  | commit => exact plain (Acts.start.commit ci _)
  | surfaceDestroy => exact absurd rfl ends.2.2
  | getXdgSurface newId surfId =>
    show Grows ci _ w (handleGetXdgSurface w ci newId surfId)
    obtain ⟨si, found⟩ := Option.ne_none_iff_exists'.mp (refers surfId rfl)
    have made : Grows ci (some (newId, .xdgSurf)) w (w.alloc ci newId .xdgSurf si) :=
      .alloc rfl (room rfl) newId .xdgSurf nofun
    have few := room rfl
    unfold handleGetXdgSurface
    simp only [found]
    rw [if_neg (by omega)]
    split
    · exact made.behind rfl
    · exact made
  | getToplevel newId =>
    show Grows ci _ w (handleGetToplevel w ci _ newId)
    have made : Grows ci (some (newId, .xdgTop)) w (w.alloc ci newId .xdgTop ((w.clients ci).extraAt place)) :=
      .alloc rfl (room rfl) newId .xdgTop nofun
    unfold handleGetToplevel
    dsimp only
    split
    · split <;> exact made.behind rfl
    · exact made
  | setTitle title =>
    show Grows ci _ w (handleSetTitle w _ title)
    unfold handleSetTitle
    split <;> exact .clients rfl
  | setAppId appId => exact plain (Acts.start.setAppId _ appId)
  | setLayout mode =>
    have chosen : Acts nobody True nobody w (if mode = 1 then { w with layoutMode := mode } else w) := by
      split
      · exact Acts.start.quiet rfl rfl rfl rfl rfl
      · exact .start
    exact plain ((chosen.relayout true).sendWmState ci objId)
  | focusNext => exact plain ((Acts.start.focusRotate true).sendWmState ci objId)
  | focusPrev => exact plain ((Acts.start.focusRotate false).sendWmState ci objId)
  | closeFocused => exact plain (Acts.start.requestClose.sendWmState ci objId)
  | getState => exact .clients rfl
  | setFocusPolicy policy => exact .clients rfl
  | attachTerm surfId =>
    show Grows ci _ w (handleAttachTerm w ci objId surfId)
    unfold handleAttachTerm
    split
    · exact .clients rfl
    · refine .still ?_ ?_ <;> simp
  | releaseTerm =>
    show Grows ci _ w (w.setClient ci _)
    refine .still ?_ ?_ <;> simp

theorem Exact.same {c' : WClient} (exact : Exact c live) (alive : c'.alive = c.alive) (objs : c'.objs = c.objs) :
    Exact c' live := by
  refine ⟨?_, ?_, ?_, ?_, ?_, ?_, ?_⟩
  all_goals rw [objs]
  · exact exact.objs
  · exact exact.alive
  · exact exact.unique
  · rw [alive]
    exact exact.display
  · exact exact.first
  · exact exact.slots
  · rw [alive]
    exact exact.gone

theorem Exact.grow {c' : WClient} (exact : Exact c live) (alive : c'.alive = c.alive) {id : UInt32} {type : ObjType} {extra : Nat}
    (objs : c'.objs = c.objs ++ [⟨id, type, true, extra⟩]) (fresh : id ∉ live.map (·.1)) (plain : type ≠ .display)
    (here : c.alive = true) (slot : type = .surface → extra < maxSurfaces) : Exact c' (live ++ [(id, some type)]) := by
  have ids : live.map (·.1) = c.objs.map (·.id) := by
    rw [← exact.objs, List.map_map]
    rfl
  rw [ids] at fresh
  refine ⟨?_, fun o member => ?_, ?_, fun _ => ?_, fun o member display => ?_, fun o member surface => ?_, fun dead => ?_⟩
  · rw [objs, List.map_append, exact.objs]
    rfl
  · rw [objs, List.mem_append, List.mem_singleton] at member
    rcases member with old | rfl
    · exact exact.alive o old
    · rfl
  · rw [objs, List.map_append]
    exact exact.unique.append (List.nodup_singleton _) (by simpa using fresh)
  · obtain ⟨o, member, first⟩ := exact.display here
    exact ⟨o, by rw [objs]; exact List.mem_append_left _ member, first⟩
  · rw [objs, List.mem_append, List.mem_singleton] at member
    rcases member with old | rfl
    · exact exact.first o old display
    · exact absurd display plain
  · rw [objs, List.mem_append, List.mem_singleton] at member
    rcases member with old | rfl
    · exact exact.slots o old surface
    · exact slot surface
  · rw [alive, here] at dead
    cases dead

theorem readRequest_destroys {type : ObjType} {opcode payloadLen : UInt32} {memory : Nat → UInt8} {request : Request}
    (read : (readRequest type opcode payloadLen).result memory = some request) (kept : isDestructor type opcode = false) :
    request ≠ .poolDestroy ∧ request ≠ .bufferDestroy ∧ request ≠ .surfaceDestroy := by
  refine ⟨?_, ?_, ?_⟩
  all_goals rintro rfl
  all_goals have target := readRequest_target read
  all_goals subst target
  all_goals simp only [isDestructor, Request.target, decide_eq_false_iff_not] at kept
  all_goals simp only [readRequest, Request.target, if_neg kept] at read
  all_goals repeat' split at read
  all_goals simp only [Asks.result_bind, Asks.result_done] at read
  all_goals cases read

theorem globalType_ne (name : UInt32) : globalType name ≠ some .display := by
  unfold globalType
  iterate 8 refine iteInduction (motive := fun type => type ≠ some ObjType.display) (fun _ => nofun) fun _ => ?_
  nofun

theorem newObject_type {request : Request} {id : UInt32} {type : ObjType} (new : request.newObject = some (id, type)) :
    type ≠ .display := by
  rintro rfl
  cases request with
  | bind name newId =>
    obtain ⟨type, found, made⟩ := Option.map_eq_some_iff.mp new
    cases made
    exact globalType_ne name found
  | _ => simp [Request.newObject] at new

theorem kept_ids {t : Session} {s : Step} (quiet : ¬ s.hearers t.now ci) : t.liveAfter ci s = t.liveBefore ci s := by
  obtain ⟨new, sends, told⟩ := (step_acts t.now s).sends
  unfold Session.liveAfter
  refine List.filter_eq_self.mpr fun o _ => ?_
  rw [sends, List.drop_left, Bool.not_eq_true', List.any_eq_false]
  rintro ⟨cj, call⟩ member deleted
  cases call with
  | callbackDone cbId time =>
    simp only [deletes, Bool.and_eq_true, decide_eq_true_eq] at deleted
    exact quiet (deleted.1 ▸ told _ member rfl)
  | _ => cases deleted

theorem Exact.message {t : Session} (exact : Exact (t.now.clients ci) t.live) (here : t.here ci) (m : Message)
    (behind : Nat → UInt8) (around : Surroundings) (conforming : (Step.message ci m behind around).Conforming ci t)
    (lasting : (Step.message ci m behind around).Lasting ci t) :
    Exact ((step t.now (.message ci m behind around)).clients ci) (t.liveAfter ci (.message ci m behind around)) := by
  obtain ⟨type, typed, fresh, refers⟩ := conforming rfl here
  obtain ⟨kept, known, room, lasts⟩ := lasting rfl here type typed
  have target : targetType (t.now.clients ci) m.objId = some type := (exact.target here.2 m.objId).trans typed
  have asked : requestOf (t.now.clients ci) m.objId m.opcode (m.memory behind) m.payloadLen =
      (readRequest type m.opcode m.payloadLen).result (m.memory behind) := by
    rw [requestOf, target]
    rfl
  have quiet : ¬ (Step.message ci m behind around).hearers t.now ci := by
    rintro ⟨_, cbId, sync⟩
    rw [asked] at sync
    exact lasts _ sync
  have stepped : step t.now (.message ci m behind around) =
      dispatchMsg t.now ci m.objId m.opcode (m.memory behind) m.payloadLen around := if_pos here
  have live : t.liveBefore ci (.message ci m behind around) = t.live ++ (m.newObject type behind).toList := by
    have typed : typeIn t.live m.objId = some type := typed
    rw [Session.liveBefore, if_pos ⟨rfl, here⟩, afterMessage, typed]
    dsimp only
    rw [kept]
    rfl
  have new : m.newObject type behind =
      (((readRequest type m.opcode m.payloadLen).result (m.memory behind)).bind Request.newObject).map
        fun o => (o.1, some o.2) := by
    rw [Message.newObject, known]
    rfl
  rw [kept_ids quiet, stepped, live, dispatchMsg_eq, asked]
  cases read : (readRequest type m.opcode m.payloadLen).result (m.memory behind) with
  | none =>
    rw [new, read]
    simpa using exact
  | some request =>
    have length : t.live.length = (t.now.clients ci).objs.length := exact.law.occupied.symm
    rw [read, Option.bind_some] at new
    rw [new, length, Option.isSome_map] at room
    -- The message's object is found, and is of the request's type.
    have found : (wobjFind (t.now.clients ci) m.objId).bind (t.now.clients ci).typeAt = some type :=
      (exact.typeIn_eq m.objId).symm.trans typed
    obtain ⟨place, found, typed⟩ := Option.bind_eq_some_iff.mp found
    have slot : request.target = .surface → (t.now.clients ci).extraAt place < maxSurfaces := by
      intro surface
      obtain ⟨o, there, _, _⟩ := wobjFind_some found
      rw [readRequest_target read] at surface
      simp only [WClient.typeAt, there, Option.map_some, Option.some.injEq] at typed
      simp only [WClient.extraAt, there, Option.map_some, Option.getD_some]
      exact exact.slots o (List.mem_of_getElem? there) (typed.trans surface)
    have surfaces : ∀ surfId ∈ request.surface, slotOf (t.now.clients ci) surfId .surface ≠ none := by
      intro surfId asked
      have surface := refers request read surfId asked
      rw [exact.typeIn_eq] at surface
      obtain ⟨at_place, there, surface⟩ := Option.bind_eq_some_iff.mp surface
      simp only [slotOf, there, surface, if_true]
      exact Option.some_ne_none _
    have grown : Grows ci request.newObject t.now (handle t.now ci m.objId place around request) :=
      handle_grows around (lasts request read) (readRequest_destroys read kept) room slot surfaces
    rw [found, Option.getD_some]
    cases made : request.newObject with
    | none =>
      rw [made] at grown new
      obtain ⟨alive, extra, _, objs⟩ := grown
      rw [new]
      simpa using exact.same alive (by simpa using objs)
    | some o =>
      obtain ⟨id, objType⟩ := o
      rw [made] at grown new
      obtain ⟨alive, extra, inside, objs⟩ := grown
      rw [new]
      refine exact.grow alive objs ?_ (newObject_type made) here.2 (inside _ rfl)
      exact fresh _ (by rw [new]; rfl)

theorem Exact.init : Exact .zero [] := ⟨rfl, nofun, List.nodup_nil, nofun, nofun, nofun, fun _ => rfl⟩

theorem Exact.accepted : Exact (wobjAlloc { WClient.zero with alive := true } 1 .display 0) [(1, some .display)] := by
  have objs : (wobjAlloc { WClient.zero with alive := true } 1 .display 0).objs = [⟨1, .display, true, 0⟩] := rfl
  have alive : (wobjAlloc { WClient.zero with alive := true } 1 .display 0).alive = true := rfl
  refine ⟨by rw [objs]; rfl, ?_, ?_, fun _ => ?_, ?_, ?_, fun gone => ?_⟩
  · rw [objs]
    simp
  · rw [objs]
    exact List.nodup_singleton _
  · rw [objs]
    exact ⟨_, List.mem_singleton_self _, rfl, rfl⟩
  · rw [objs]
    simp
  · rw [objs]
    simp
  · rw [alive] at gone
    cases gone

theorem Exact.step {t : Session} (exact : Exact (t.now.clients ci) t.live) {s : Step} (conforming : s.Conforming ci t)
    (lasting : s.Lasting ci t) : Exact ((step t.now s).clients ci) (t.liveAfter ci s) := by
  -- Steps that leave the client alone.
  have alone (others : ¬ s.owners t.now ci) (quiet : ¬ s.hearers t.now ci) (live : t.liveBefore ci s = t.live) :
      Exact ((Wld.step t.now s).clients ci) (t.liveAfter ci s) := by
    rw [kept_ids quiet, live, (step_acts t.now s).others others]
    exact exact
  -- Steps that do nothing at all, as the client is not there.
  have nothing (same : Wld.step t.now s = t.now) (live : t.liveBefore ci s = t.live) :
      Exact ((Wld.step t.now s).clients ci) (t.liveAfter ci s) := by
    have all : t.liveAfter ci s = t.live := by
      rw [Session.liveAfter, live, same, List.drop_length]
      simp
    rw [all, same]
    exact exact
  cases s with
  | accept =>
    rw [kept_ids (by exact id), Session.liveBefore]
    show Exact ((acceptClient t.now).clients ci) (if !(t.now.clients ci).alive && ((acceptClient t.now).clients ci).alive then _ else _)
    unfold acceptClient
    split
    · simpa using exact
    · rename_i slot found
      have free : (t.now.clients slot).alive = false := by simpa using List.find?_some found
      rw [alloc_clients, setClient_clients, if_pos rfl]
      split
      · rename_i here
        rw [here, free]
        exact .accepted
      · rename_i other
        rw [setClient_clients, if_neg other]
        simpa using exact
  | message cj m behind around =>
    by_cases mine : cj = ci
    · subst mine
      by_cases here : t.here cj
      · exact exact.message here m behind around conforming lasting
      · exact nothing (if_neg here) (if_neg fun both => here both.2)
    · exact alone (Ne.symm mine) (fun hears => mine hears.1.symm) (if_neg fun both => mine both.1)
  | close cj =>
    by_cases mine : cj = ci
    · subst mine
      by_cases here : t.here cj
      · have closed : Wld.step t.now (.close cj) = clientClose t.now cj := if_pos here
        have gone : (clientClose t.now cj).clients cj = .zero := by
          unfold clientClose
          dsimp only
          rw [(SameBy.relayout _ true).clients, setClient_clients, if_pos rfl]
        have live : t.liveBefore cj (.close cj) = [] := if_pos ⟨rfl, here⟩
        rw [kept_ids (by exact id), closed, gone, live]
        exact .init
      · exact nothing (if_neg here) (if_neg fun both => here both.2)
    · exact alone (Ne.symm mine) id (if_neg fun both => mine both.1)
  | key action => exact alone id id rfl
  | mouse ev => exact alone id id rfl
  | present timeMs => exact alone id lasting rfl

end

/-- In a run of a client that keeps to the protocol and whose objects do not end before it leaves, the law of object ids holds; so no new object is refused before all places are taken. -/
theorem ids_kept {ci : Nat} {t : Session}
    (run : Run (Session.exec ci) (fun t s => s.Conforming ci t ∧ s.Lasting ci t) .init t) :
    IdLaw (t.now.clients ci) t.live := by
  have exact : Exact (t.now.clients ci) t.live := by
    induction run with
    | start => exact .init
    | call s _ allowed done ih =>
      cases done
      exact ih.step allowed.1 allowed.2
  exact exact.law

def registryAsked : Step := sent 0 (request 1 1 [3])

theorem registryAsked_conforming {t : Session} (live : t.live = [(1, some .display)]) : registryAsked.Conforming 0 t := by
  refine fun _ _ => ⟨.display, ?_, ?_, fun request asked surfId refers => ?_⟩
  · rw [live]
    rfl
  · rw [live]
    decide
  · cases asked
    cases refers

/-- A client that has just come asks for the registry, and has it. -/
theorem ids_kept_registry : ∃ t : Session, IdLaw (t.now.clients 0) t.live ∧ t.live = [(1, some .display), (3, some .registry)] := by
  have run : Run (Session.exec 0) (fun t s => s.Conforming 0 t ∧ s.Lasting 0 t) .init _ :=
    .call .accept .start ⟨trivial, trivial⟩ rfl
  refine ⟨_, ids_kept (.call registryAsked run ⟨registryAsked_conforming rfl, fun _ _ type typed => ?_⟩ rfl), ?_⟩
  · cases typed
    exact ⟨rfl, rfl, fun _ => by decide, fun request asked => by cases asked; trivial⟩
  · decide

def syncDone : Step := sent 0 (request 1 0 [2])

/-- A client whose only live object is the display has had callbacks done, and their objects stay. -/
structure Synced (occupied : Nat) (t : Session) : Prop where
  here : t.here 0
  live : t.live = [(1, some .display)]
  occupied : (t.now.clients 0).objs.length = occupied
  ids : ∀ o ∈ (t.now.clients 0).objs, o.id ≠ 3

theorem Synced.conforming {t : Session} {occupied : Nat} (synced : Synced occupied t) : syncDone.Conforming 0 t := by
  refine fun _ _ => ⟨.display, ?_, ?_, fun request asked surfId refers => ?_⟩
  · rw [synced.live]
    rfl
  · rw [synced.live]
    decide
  · cases asked
    cases refers

theorem Synced.next {t : Session} {occupied : Nat} (synced : Synced occupied t) (room : occupied < maxObjs) :
    ∃ t', Session.exec 0 t syncDone = .ok t' ∧ Synced (occupied + 1) t' := by
  have stepped : step t.now syncDone = (t.now.alloc 0 2 .callback 0).send 0 (.callbackDone 2 0) :=
    (if_pos synced.here).trans (dispatchMsg_eq ..)
  have client : (step t.now syncDone).clients 0 = wobjAlloc (t.now.clients 0) 2 .callback 0 := by
    rw [stepped]
    exact (alloc_clients t.now 0 2 .callback 0 0).trans (if_pos rfl)
  have few := synced.occupied
  rw [wobjAlloc, if_neg (by omega)] at client
  refine ⟨_, rfl, ⟨synced.here.1, ?_⟩, ?_, ?_, ?_⟩
  · show ((step t.now syncDone).clients 0).alive = true
    rw [client]
    exact synced.here.2
  · have sends : (step t.now syncDone).sends = t.now.sends ++ [(0, .callbackDone 2 0)] := by rw [stepped]; rfl
    have live : t.liveBefore 0 syncDone = [(1, some .display), (2, some .callback)] := by
      refine (if_pos ⟨rfl, synced.here⟩).trans ?_
      rw [synced.live]
      rfl
    show t.liveAfter 0 syncDone = _
    rw [Session.liveAfter, live, sends, List.drop_left]
    rfl
  · show ((step t.now syncDone).clients 0).objs.length = occupied + 1
    rw [client, List.length_append, few]
    rfl
  · show ∀ o ∈ ((step t.now syncDone).clients 0).objs, o.id ≠ 3
    rw [client]
    intro o member
    rcases List.mem_append.mp member with old | new
    · exact synced.ids o old
    · rw [List.mem_singleton.mp new]
      decide

theorem synced_run (n : Nat) (few : n < maxObjs) :
    ∃ t, Run (Session.exec 0) (fun t s => s.Conforming 0 t) .init t ∧ Synced (n + 1) t := by
  induction n with
  | zero =>
    exact ⟨_, .call .accept .start trivial rfl, ⟨by decide, rfl⟩, rfl, rfl, by decide⟩
  | succ n ih =>
    obtain ⟨t, run, synced⟩ := ih (by omega)
    obtain ⟨t', done, after⟩ := synced.next few
    exact ⟨t', .call _ run synced.conforming done, after⟩

/-- With two live objects it is refused the second one. -/
theorem registry_refused : ∃ t, Run (Session.exec 0) (fun t s => s.Conforming 0 t) .init t ∧
    t.live = [(1, some .display), (3, some .registry)] ∧ wobjFind (t.now.clients 0) 3 = none := by
  obtain ⟨t, run, synced⟩ := synced_run 79 (by decide)
  have conforming := registryAsked_conforming synced.live
  have stepped : step t.now registryAsked = (t.now.alloc 0 3 .registry 0).send 0 (.globals 3) :=
    (if_pos synced.here).trans (dispatchMsg_eq ..)
  refine ⟨_, .call registryAsked run conforming rfl, ?_, ?_⟩
  · have sends : (step t.now registryAsked).sends = t.now.sends ++ [(0, .globals 3)] := by rw [stepped]; rfl
    have live : t.liveBefore 0 registryAsked = [(1, some .display), (3, some .registry)] := by
      refine (if_pos ⟨rfl, synced.here⟩).trans ?_
      rw [synced.live]
      rfl
    show t.liveAfter 0 registryAsked = _
    rw [Session.liveAfter, live, sends, List.drop_left]
    rfl
  · have client : (step t.now registryAsked).clients 0 = t.now.clients 0 := by
      rw [stepped]
      refine (alloc_clients t.now 0 3 .registry 0 0).trans ((if_pos rfl).trans ?_)
      rw [wobjAlloc, if_pos (show maxObjs ≤ _ from synced.occupied.ge)]
    show wobjFind ((step t.now registryAsked).clients 0) 3 = none
    rw [client, wobjFind, List.findIdx?_eq_none_iff]
    intro o member
    rw [beq_eq_false_iff_ne.mpr (synced.ids o member), Bool.and_false]

end Enlil.Wld
