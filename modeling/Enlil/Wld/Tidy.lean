import Enlil.Wld.Owners

/-! Every slot in use belongs to one object of one client, and requests that give back nothing still in use leave it so. -/

namespace Enlil.Wld

/-- A surface of a client shows, or is about to show, no buffers but those of the client. -/
structure SurfOk (c : WClient) (ci : Nat) (surf : WSurf) : Prop where
  client : surf.clientIdx = ci
  pending : surf.pendingBuf = noSlot ∨ surf.pendingBuf ∈ c.slots .buffer
  current : surf.currentBuf = noSlot ∨ surf.currentBuf ∈ c.slots .buffer

/-- The slots in use are those of the live objects, each of one; objects, surfaces and buffers refer to slots of the same client. -/
structure Tidy (w : Compositor) : Prop where
  pools : Owned (fun pi => (w.pools pi).alive) maxPools fun ci => (w.clients ci).slots .shmPool
  buffers : Owned (fun bi => (w.buffers bi).alive) maxBuffers fun ci => (w.clients ci).slots .buffer
  surfs : Owned (fun si => (w.surfs si).alive) maxSurfaces fun ci => (w.clients ci).slots .surface
  backed : ∀ {ci bi}, bi ∈ (w.clients ci).slots .buffer → (w.buffers bi).poolIdx ∈ (w.clients ci).slots .shmPool
  surf : ∀ {ci si}, si ∈ (w.clients ci).slots .surface → SurfOk (w.clients ci) ci (w.surfs si)
  xdgSurf : ∀ {ci si}, si ∈ (w.clients ci).slots .xdgSurf → si ∈ (w.clients ci).slots .surface
  xdgTop : ∀ {ci si}, si ∈ (w.clients ci).slots .xdgTop → si ∈ (w.clients ci).slots .surface
  gone : ∀ {ci}, (w.clients ci).alive = false → (w.clients ci).objs = []

/-- What changes of the other clients, of the pools, of the buffers, and of what clients decide about surfaces belongs to one client, before or afterwards. -/
structure ChangesOwn (ci : Nat) (w w' : Compositor) : Prop where
  clients : ∀ cj, cj ≠ ci → w'.clients cj = w.clients cj
  pools : ∀ pi, w'.pools pi ≠ w.pools pi → pi ∈ (w.clients ci).slots .shmPool ∨ pi ∈ (w'.clients ci).slots .shmPool
  buffers : ∀ bi, w'.buffers bi ≠ w.buffers bi →
    bi ∈ (w.clients ci).slots .buffer ∨ bi ∈ (w'.clients ci).slots .buffer
  surfs : ∀ si, (w'.surfs si).own ≠ (w.surfs si).own →
    si ∈ (w.clients ci).slots .surface ∨ si ∈ (w'.clients ci).slots .surface

section

variable {w w' w'' : Compositor} {c : WClient} {ci cj si place slot : Nat} {objId newId : UInt32} {type t : ObjType}

theorem slots_alloc (c : WClient) (newId : UInt32) (type t : ObjType) (extra : Nat) (room : c.objs.length < maxObjs) :
    (wobjAlloc c newId type extra).slots t = c.slots t ++ if t = type then [extra] else [] := by
  rw [wobjAlloc, if_neg (by omega)]
  simp only [WClient.slots, List.filter_append, List.map_append]
  by_cases same : t = type
  · simp [same]
  · simp [same, Ne.symm same]

theorem slots_alloc_other (c : WClient) (newId : UInt32) (extra : Nat) (differ : t ≠ type) :
    (wobjAlloc c newId type extra).slots t = c.slots t := by
  by_cases room : c.objs.length < maxObjs
  · rw [slots_alloc c newId type t extra room, if_neg differ, List.append_nil]
  · rw [wobjAlloc, if_pos (by omega)]

theorem wobjFind_some (found : wobjFind c objId = some place) :
    ∃ o, c.objs[place]? = some o ∧ o.alive = true ∧ o.id = objId := by
  obtain ⟨inside, holds, _⟩ := List.findIdx?_eq_some_iff_getElem.mp found
  rw [Bool.and_eq_true, beq_iff_eq] at holds
  exact ⟨c.objs[place], List.getElem?_eq_getElem inside, holds⟩

theorem extraAt_mem (found : wobjFind c objId = some place) (typed : c.typeAt place = some type) :
    c.extraAt place ∈ c.slots type := by
  obtain ⟨o, here, alive, _⟩ := wobjFind_some found
  simp only [WClient.typeAt, here, Option.map_some, Option.some.injEq] at typed
  simp only [WClient.extraAt, here, Option.map_some, Option.getD_some, WClient.slots, List.mem_map, List.mem_filter]
  exact ⟨o, ⟨List.mem_of_getElem? here, by simp [alive, typed]⟩, rfl⟩

theorem slotOf_mem (found : slotOf c objId type = some slot) : slot ∈ c.slots type := by
  unfold slotOf at found
  split at found
  · cases found
  · rename_i place here
    split at found
    · rename_i typed
      cases found
      exact extraAt_mem here typed
    · cases found

theorem kill_split {o : Wobj} (here : c.objs[place]? = some o) : ∃ before after, c.objs = before ++ o :: after ∧
    (c.kill place).objs = before ++ { o with alive := false } :: after := by
  obtain ⟨inside, same⟩ := List.getElem?_eq_some_iff.mp here
  refine ⟨c.objs.take place, c.objs.drop (place + 1), ?_, ?_⟩
  · rw [← same, List.cons_getElem_drop_succ, List.take_append_drop]
  · rw [WClient.kill]
    dsimp only
    rw [List.modify_eq_take_cons_drop inside, same]

theorem slots_kill (found : wobjFind c objId = some place) (typed : c.typeAt place = some type) :
    (c.slots type).Perm (c.extraAt place :: (c.kill place).slots type) := by
  obtain ⟨o, here, alive, _⟩ := wobjFind_some found
  obtain ⟨before, after, split, killed⟩ := kill_split here
  simp only [WClient.typeAt, here, Option.map_some, Option.some.injEq] at typed
  simp only [WClient.extraAt, here, Option.map_some, Option.getD_some, WClient.slots, killed]
  rw [split]
  simp only [List.filter_append, List.map_append]
  rw [List.filter_cons_of_pos (by simp [alive, typed]), List.filter_cons_of_neg (by simp), List.map_cons]
  exact List.perm_middle

theorem slots_kill_other (typed : c.typeAt place = some type) (differ : t ≠ type) :
    (c.kill place).slots t = c.slots t := by
  obtain ⟨o, here, same⟩ := Option.map_eq_some_iff.mp typed
  obtain ⟨before, after, split, killed⟩ := kill_split here
  simp only [WClient.slots, killed]
  rw [split]
  simp only [List.filter_append, List.map_append]
  rw [List.filter_cons_of_neg (by simp), List.filter_cons_of_neg (by simp [same, Ne.symm differ])]

/-- What happens in a step of a client leaves things in order and changes only what is its own. -/
structure Moves (ci : Nat) (w w' : Compositor) : Prop where
  tidy : Tidy w'
  own : ChangesOwn ci w w'

theorem ChangesOwn.refl (ci : Nat) (w : Compositor) : ChangesOwn ci w w where
  clients _ _ := rfl
  pools _ differ := absurd rfl differ
  buffers _ differ := absurd rfl differ
  surfs _ differ := absurd rfl differ

theorem Tidy.same (tidy : Tidy w) (same : SameContents w w') : Tidy w' := by
  have alive (i : Nat) : (w'.surfs i).alive = (w.surfs i).alive := congrArg Contents.alive (same.surfs i)
  have client (i : Nat) : (w'.surfs i).clientIdx = (w.surfs i).clientIdx := congrArg Contents.clientIdx (same.surfs i)
  have pending (i : Nat) : (w'.surfs i).pendingBuf = (w.surfs i).pendingBuf := congrArg Contents.pendingBuf (same.surfs i)
  have current (i : Nat) : (w'.surfs i).currentBuf = (w.surfs i).currentBuf := congrArg Contents.currentBuf (same.surfs i)
  refine ⟨?_, ?_, ?_, ?_, fun {ci si} member => ?_, ?_, ?_, ?_⟩
  · rw [same.pools, same.clients]
    exact tidy.pools
  · rw [same.buffers, same.clients]
    exact tidy.buffers
  · rw [same.clients]
    simpa only [alive] using tidy.surfs
  · rw [same.buffers, same.clients]
    exact tidy.backed
  · rw [same.clients] at member ⊢
    obtain ⟨ofClient, old, shown⟩ := tidy.surf member
    exact ⟨by rw [client, ofClient], by rw [pending]; exact old, by rw [current]; exact shown⟩
  · rw [same.clients]
    exact tidy.xdgSurf
  · rw [same.clients]
    exact tidy.xdgTop
  · rw [same.clients]
    exact tidy.gone

theorem ChangesOwn.same (own : ChangesOwn ci w w') (same : SameOwn w' w'') : ChangesOwn ci w w'' where
  clients cj other := by rw [same.clients, own.clients cj other]
  pools pi differ := by
    rw [same.pools] at differ
    rw [same.clients]
    exact own.pools pi differ
  buffers bi differ := by
    rw [same.buffers] at differ
    rw [same.clients]
    exact own.buffers bi differ
  surfs si differ := by
    rw [same.surfs] at differ
    rw [same.clients]
    exact own.surfs si differ

theorem Moves.same (moves : Moves ci w w') (same : SameOwn w' w'') : Moves ci w w'' :=
  ⟨moves.tidy.same same.ownContents, moves.own.same same⟩

theorem Moves.trans (first : Moves ci w w') (second : Moves ci w' w'')
    (kept : ∀ t slot, slot ∈ (w'.clients ci).slots t → slot ∈ (w''.clients ci).slots t) : Moves ci w w'' := by
  refine ⟨second.tidy, fun cj other => (second.own.clients cj other).trans (first.own.clients cj other),
    fun pi differ => ?_, fun bi differ => ?_, fun si differ => ?_⟩
  · by_cases early : w'.pools pi = w.pools pi
    · rw [← early] at differ
      exact .inr ((second.own.pools pi differ).elim (kept _ _) id)
    · exact (first.own.pools pi early).imp id (kept _ _)
  · by_cases early : w'.buffers bi = w.buffers bi
    · rw [← early] at differ
      exact .inr ((second.own.buffers bi differ).elim (kept _ _) id)
    · exact (first.own.buffers bi early).imp id (kept _ _)
  · by_cases early : (w'.surfs si).own = (w.surfs si).own
    · rw [← early] at differ
      exact .inr ((second.own.surfs si differ).elim (kept _ _) id)
    · exact (first.own.surfs si early).imp id (kept _ _)

/-- The types of objects that have slots. -/
def ObjType.slotted : ObjType → Bool
  | .shmPool | .buffer | .surface | .xdgSurf | .xdgTop => true
  | _ => false

theorem Tidy.setClient (tidy : Tidy w) (same : ∀ t, t.slotted → c.slots t = (w.clients ci).slots t)
    (alive : c.alive = true) : Moves ci w (w.setClient ci c) := by
  have slots (cj : Nat) (t : ObjType) (slotted : t.slotted = true) :
      ((w.setClient ci c).clients cj).slots t = (w.clients cj).slots t := by
    rw [setClient_clients]
    split
    · rename_i equal
      rw [equal, same t slotted]
    · rfl
  have pool cj := slots cj .shmPool rfl
  have buffer cj := slots cj .buffer rfl
  have surface cj := slots cj .surface rfl
  have xdgSurf cj := slots cj .xdgSurf rfl
  have xdgTop cj := slots cj .xdgTop rfl
  refine ⟨⟨?_, ?_, ?_, ?_, fun {cj sj} member => ?_, ?_, ?_, fun {cj} dead => ?_⟩, ?_⟩
  · exact tidy.pools.congr (fun _ => rfl) pool
  · exact tidy.buffers.congr (fun _ => rfl) buffer
  · exact tidy.surfs.congr (fun _ => rfl) surface
  · intro cj bi
    rw [pool, buffer]
    exact tidy.backed
  · rw [surface] at member
    obtain ⟨client, pending, current⟩ := tidy.surf member
    refine ⟨client, ?_, ?_⟩
    · rw [buffer]
      exact pending
    · rw [buffer]
      exact current
  · intro cj sj
    rw [xdgSurf, surface]
    exact tidy.xdgSurf
  · intro cj sj
    rw [xdgTop, surface]
    exact tidy.xdgTop
  · rw [setClient_clients] at dead ⊢
    split at dead
    · rw [alive] at dead
      cases dead
    · rename_i other
      rw [if_neg other]
      exact tidy.gone dead
  · refine ⟨fun cj other => ?_, fun _ differ => absurd rfl differ, fun _ differ => absurd rfl differ,
      fun _ differ => absurd rfl differ⟩
    rw [setClient_clients, if_neg other]

theorem Tidy.alloc (tidy : Tidy w) (alive : (w.clients ci).alive = true) (newId : UInt32) (extra : Nat)
    (plain : type.slotted = false) : Moves ci w (w.alloc ci newId type extra) := by
  refine tidy.setClient (fun t slotted => slots_alloc_other _ _ _ ?_) ?_
  · rintro rfl
    rw [plain] at slotted
    cases slotted
  · rw [wobjAlloc]
    split <;> exact alive

theorem Tidy.setSurf (tidy : Tidy w) (member : si ∈ (w.clients ci).slots .surface) {surf : WSurf}
    (alive : surf.alive = true) (ok : SurfOk (w.clients ci) ci surf) : Moves ci w (w.setSurf si surf) := by
  have surfs (i : Nat) : (w.setSurf si surf).surfs i = if i = si then surf else w.surfs i := setSurf_surfs w si i surf
  have used (i : Nat) : ((w.setSurf si surf).surfs i).alive = (w.surfs i).alive := by
    rw [surfs]
    split
    · rename_i equal
      rw [equal, alive, (tidy.surfs.live member).2]
    · rfl
  refine ⟨⟨tidy.pools, tidy.buffers, ?_, tidy.backed, fun {cj sj} here => ?_, tidy.xdgSurf, tidy.xdgTop, tidy.gone⟩,
    fun _ _ => rfl, fun _ differ => absurd rfl differ, fun _ differ => absurd rfl differ, fun sj differ => ?_⟩
  · exact tidy.surfs.congr used fun _ => rfl
  · rw [surfs]
    split
    · rename_i equal
      subst equal
      have owner := tidy.surfs.apart here member
      rw [owner]
      exact ok
    · exact tidy.surf here
  · rw [surfs] at differ
    split at differ
    · rename_i equal
      rw [equal]
      exact .inl member
    · exact absurd rfl differ

theorem find_free {alive : Nat → Bool} {limit : Nat}
    (taken : ((List.range limit).find? fun i => !alive i).getD noSlot = slot) (some : slot ≠ noSlot) :
    slot < limit ∧ alive slot = false := by
  cases found : (List.range limit).find? fun i => !alive i with
  | none =>
    rw [found] at taken
    exact absurd taken.symm some
  | some i =>
    rw [found] at taken
    cases taken
    exact ⟨List.mem_range.mp (List.mem_of_find?_eq_some found), by simpa using List.find?_some found⟩

theorem alloc_slots (w : Compositor) (ci cj : Nat) (newId : UInt32) (type t : ObjType) (extra : Nat)
    (room : (w.clients ci).objs.length < maxObjs) : ((w.alloc ci newId type extra).clients cj).slots t =
      (w.clients cj).slots t ++ if cj = ci ∧ t = type then [extra] else [] := by
  rw [Compositor.alloc, setClient_clients]
  by_cases here : cj = ci
  · rw [if_pos here, here, slots_alloc _ _ _ _ _ room]
    simp
  · rw [if_neg here, if_neg fun both => here both.1, List.append_nil]

theorem alloc_gone (gone : ∀ {cj}, (w.clients cj).alive = false → (w.clients cj).objs = [])
    (alive : (w.clients ci).alive = true) (extra : Nat)
    (dead : ((w.alloc ci newId type extra).clients cj).alive = false) :
    ((w.alloc ci newId type extra).clients cj).objs = [] := by
  rw [Compositor.alloc, setClient_clients] at dead ⊢
  split at dead
  · have same : (wobjAlloc (w.clients ci) newId type extra).alive = (w.clients ci).alive := by
      rw [wobjAlloc]
      split <;> rfl
    rw [same, alive] at dead
    cases dead
  · rename_i other
    rw [if_neg other]
    exact gone dead

theorem SurfOk.mono {c' : WClient} {surf : WSurf} (ok : SurfOk c ci surf)
    (kept : ∀ bi ∈ c.slots .buffer, bi ∈ c'.slots .buffer) : SurfOk c' ci surf :=
  ⟨ok.client, ok.pending.imp id (kept _), ok.current.imp id (kept _)⟩

/-- What a new object leaves of the slots: a client has one more slot of the object's type, and nothing else changes. -/
structure Made (ci : Nat) (type : ObjType) (slot : Nat) (before after : Nat → WClient) : Prop where
  others : ∀ {cj}, cj ≠ ci → after cj = before cj
  same : ∀ {cj t}, t ≠ type → (after cj).slots t = (before cj).slots t
  new : (after ci).slots type = (before ci).slots type ++ [slot]
  gone : ∀ {cj}, (after cj).alive = false → (after cj).objs = []

theorem Made.alloc (gone : ∀ {cj}, (w.clients cj).alive = false → (w.clients cj).objs = [])
    (alive : (w.clients ci).alive = true) (room : (w.clients ci).objs.length < maxObjs) (newId : UInt32) :
    Made ci type slot w.clients (w.alloc ci newId type slot).clients where
  others other := by rw [Compositor.alloc, setClient_clients, if_neg other]
  same differ := by rw [alloc_slots w _ _ newId type _ slot room, if_neg fun both => differ both.2, List.append_nil]
  new := by rw [alloc_slots w _ _ newId type _ slot room, if_pos ⟨rfl, rfl⟩]
  gone dead := alloc_gone gone alive slot dead

theorem Made.mem (made : Made ci type slot w.clients w'.clients) {other : Nat} (member : other ∈ (w'.clients cj).slots t) :
    other ∈ (w.clients cj).slots t ∨ (cj = ci ∧ t = type ∧ other = slot) := by
  by_cases differ : t = type
  · by_cases here : cj = ci
    · subst differ here
      rw [made.new, List.mem_append, List.mem_singleton] at member
      exact member.imp id fun equal => ⟨rfl, rfl, equal⟩
    · rw [made.others here] at member
      exact .inl member
  · rw [made.same differ] at member
    exact .inl member

theorem Made.kept (made : Made ci type slot w.clients w'.clients) {other : Nat} (member : other ∈ (w.clients cj).slots t) :
    other ∈ (w'.clients cj).slots t := by
  by_cases differ : t = type
  · by_cases here : cj = ci
    · subst differ here
      rw [made.new]
      exact List.mem_append_left _ member
    · rw [made.others here]
      exact member
  · rw [made.same differ]
    exact member

theorem Made.mine (made : Made ci type slot w.clients w'.clients) : slot ∈ (w'.clients ci).slots type := by
  rw [made.new]
  exact List.mem_append_right _ (List.mem_singleton_self _)

theorem Made.table (made : Made ci type slot w.clients w'.clients) (differ : t ≠ type) {alive alive' : Nat → Bool} {limit : Nat}
    (owned : Owned alive limit fun cj => (w.clients cj).slots t) (used : ∀ i, alive' i = alive i) :
    Owned alive' limit fun cj => (w'.clients cj).slots t :=
  owned.congr used fun _ => made.same differ

theorem Made.taken (made : Made ci type slot w.clients w'.clients) {alive alive' : Nat → Bool} {limit : Nat}
    (owned : Owned alive limit fun cj => (w.clients cj).slots type) (inside : slot < limit) (free : alive slot = false)
    (used : ∀ other, alive' other = if other = slot then true else alive other) :
    Owned alive' limit fun cj => (w'.clients cj).slots type :=
  owned.take inside free used made.new fun _ other => by rw [made.others other]

theorem Tidy.allocRole (tidy : Tidy w) (alive : (w.clients ci).alive = true) (newId : UInt32)
    (role : type = .xdgSurf ∨ type = .xdgTop) (member : si ∈ (w.clients ci).slots .surface) :
    Moves ci w (w.alloc ci newId type si) := by
  by_cases room : (w.clients ci).objs.length < maxObjs
  · have made : Made ci type si w.clients (w.alloc ci newId type si).clients := Made.alloc tidy.gone alive room newId
    have differ (t : ObjType) (plain : t ≠ .xdgSurf ∧ t ≠ .xdgTop) : t ≠ type := by
      rintro rfl
      exact role.elim plain.1 plain.2
    -- The new object's surface is there, and the others' surfaces are still there.
    have roles {cj sj : Nat} {t : ObjType}
        (old : ∀ {cj sj}, sj ∈ (w.clients cj).slots t → sj ∈ (w.clients cj).slots .surface)
        (here : sj ∈ ((w.alloc ci newId type si).clients cj).slots t) :
        sj ∈ ((w.alloc ci newId type si).clients cj).slots .surface := by
      rcases made.mem here with before | ⟨rfl, _, rfl⟩
      · exact made.kept (old before)
      · exact made.kept member
    refine ⟨⟨made.table (differ _ (by decide)) tidy.pools fun _ => rfl,
      made.table (differ _ (by decide)) tidy.buffers fun _ => rfl,
      made.table (differ _ (by decide)) tidy.surfs fun _ => rfl, fun {cj bi} here => ?_, fun {cj sj} here => ?_,
      roles tidy.xdgSurf, roles tidy.xdgTop, made.gone⟩, fun cj other => made.others other,
      fun _ differ => absurd rfl differ, fun _ differ => absurd rfl differ, fun _ differ => absurd rfl differ⟩
    · rw [made.same (differ _ (by decide))] at here
      exact made.kept (tidy.backed here)
    · rw [made.same (differ _ (by decide))] at here
      exact (tidy.surf here).mono fun bi => made.kept
  · have nothing : w.alloc ci newId type si = w := by
      rw [Compositor.alloc, wobjAlloc, if_pos (by omega)]
      simp [Compositor.setClient]
    rw [nothing]
    exact ⟨tidy, ChangesOwn.refl ci w⟩

theorem Tidy.createSurface (tidy : Tidy w) (alive : (w.clients ci).alive = true)
    (room : (w.clients ci).objs.length < maxObjs) (newId : UInt32) : Moves ci w (handleCreateSurface w ci newId) := by
  unfold handleCreateSurface
  dsimp only
  split
  · exact ⟨tidy, ChangesOwn.refl ci w⟩
  · rename_i free
    generalize taken : surfAlloc w = si at free ⊢
    obtain ⟨inside, unused⟩ := find_free taken free
    generalize fresh : ({ WSurf.zero with
      alive := true, clientIdx := ci, surfaceObj := newId, pendingBuf := noSlot, currentBuf := noSlot,
      viewW := 320, viewH := 220, fadeTicks := 8 } : WSurf) = surf
    have made : Made ci .surface si w.clients ((w.setSurf si surf).alloc ci newId .surface si).clients :=
      Made.alloc (w := w.setSurf si surf) tidy.gone alive room newId
    have surfs (i : Nat) : ((w.setSurf si surf).alloc ci newId .surface si).surfs i = if i = si then surf else w.surfs i :=
      setSurf_surfs w si i surf
    refine ⟨⟨made.table (by decide) tidy.pools fun _ => rfl, made.table (by decide) tidy.buffers fun _ => rfl,
      made.taken tidy.surfs inside unused fun i => ?_, fun {cj bi} member => ?_, fun {cj sj} member => ?_,
      fun {cj sj} member => ?_, fun {cj sj} member => ?_, made.gone⟩,
      fun cj other => made.others other, fun _ differ => absurd rfl differ, fun _ differ => absurd rfl differ,
      fun sj differ => ?_⟩
    · rw [surfs]
      split
      · rw [← fresh]
      · rfl
    · rw [made.same (by decide)] at member ⊢
      exact tidy.backed member
    · rw [surfs]
      rcases made.mem member with old | ⟨rfl, _, rfl⟩
      · have used : sj ≠ si := fun equal => by
          have := (tidy.surfs.live old).2
          rw [equal, unused] at this
          cases this
        rw [if_neg used]
        exact (tidy.surf old).mono fun bi => made.kept
      · rw [if_pos rfl, ← fresh]
        exact ⟨rfl, .inl rfl, .inl rfl⟩
    · rw [made.same (by decide)] at member
      exact made.kept (tidy.xdgSurf member)
    · rw [made.same (by decide)] at member
      exact made.kept (tidy.xdgTop member)
    · rw [surfs] at differ
      split at differ
      · rename_i equal
        rw [equal]
        exact .inr made.mine
      · exact absurd rfl differ

theorem Tidy.createPool (tidy : Tidy w) (alive : (w.clients ci).alive = true)
    (room : (w.clients ci).objs.length < maxObjs) (around : Surroundings) (newId shmid size : UInt32) :
    Moves ci w (handleCreatePool w ci around newId shmid size) := by
  unfold handleCreatePool
  dsimp only
  split
  · exact ⟨tidy, ChangesOwn.refl ci w⟩
  · rename_i free
    generalize taken : poolAlloc w = pi at free ⊢
    obtain ⟨inside, unused⟩ := find_free taken free
    split
    · exact ⟨tidy, ChangesOwn.refl ci w⟩
    · rename_i ptr _
      generalize fresh : (⟨some ptr, shmid, size, true⟩ : WPool) = pool
      have made : Made ci .shmPool pi w.clients ((w.setPool pi pool).alloc ci newId .shmPool pi).clients :=
        Made.alloc (w := w.setPool pi pool) tidy.gone alive room newId
      have pools (i : Nat) : ((w.setPool pi pool).alloc ci newId .shmPool pi).pools i = if i = pi then pool else w.pools i :=
        setPool_pools w pi i pool
      refine ⟨⟨made.taken tidy.pools inside unused fun i => ?_, made.table (by decide) tidy.buffers fun _ => rfl,
        made.table (by decide) tidy.surfs fun _ => rfl, fun {cj bi} member => ?_, fun {cj sj} member => ?_,
        fun {cj sj} member => ?_, fun {cj sj} member => ?_, made.gone⟩,
        fun cj other => made.others other, fun qi differ => ?_, fun _ differ => absurd rfl differ,
        fun _ differ => absurd rfl differ⟩
      · rw [pools]
        split
        · rw [← fresh]
        · rfl
      · rw [made.same (by decide)] at member
        exact made.kept (tidy.backed member)
      · rw [made.same (by decide)] at member
        exact (tidy.surf member).mono fun bi => made.kept
      · rw [made.same (by decide)] at member ⊢
        exact tidy.xdgSurf member
      · rw [made.same (by decide)] at member ⊢
        exact tidy.xdgTop member
      · rw [pools] at differ
        split at differ
        · rename_i equal
          rw [equal]
          exact .inr made.mine
        · exact absurd rfl differ

theorem Tidy.createBuffer (tidy : Tidy w) (alive : (w.clients ci).alive = true)
    (room : (w.clients ci).objs.length < maxObjs) {pi : Nat} (backing : pi ∈ (w.clients ci).slots .shmPool)
    (newId offset width height stride format : UInt32) :
    Moves ci w (handleCreateBuffer w ci pi newId offset width height stride format) := by
  unfold handleCreateBuffer
  dsimp only
  split
  · exact ⟨tidy, ChangesOwn.refl ci w⟩
  · rename_i free
    generalize taken : bufAlloc w = bi at free ⊢
    obtain ⟨inside, unused⟩ := find_free taken free
    generalize fresh : (⟨pi, offset, width, height, stride, format, true⟩ : WBuf) = buf
    have made : Made ci .buffer bi w.clients ((w.setBuf bi buf).alloc ci newId .buffer bi).clients :=
      Made.alloc (w := w.setBuf bi buf) tidy.gone alive room newId
    have buffers (i : Nat) : ((w.setBuf bi buf).alloc ci newId .buffer bi).buffers i = if i = bi then buf else w.buffers i :=
      setBuf_buffers w bi i buf
    refine ⟨⟨made.table (by decide) tidy.pools fun _ => rfl, made.taken tidy.buffers inside unused fun i => ?_,
      made.table (by decide) tidy.surfs fun _ => rfl, fun {cj bj} member => ?_, fun {cj sj} member => ?_,
      fun {cj sj} member => ?_, fun {cj sj} member => ?_, made.gone⟩,
      fun cj other => made.others other, fun _ differ => absurd rfl differ, fun bj differ => ?_,
      fun _ differ => absurd rfl differ⟩
    · rw [buffers]
      split
      · rw [← fresh]
      · rfl
    · rw [made.same (by decide), buffers]
      rcases made.mem member with old | ⟨rfl, _, rfl⟩
      · have used : bj ≠ bi := fun equal => by
          have := (tidy.buffers.live old).2
          rw [equal, unused] at this
          cases this
        rw [if_neg used]
        exact tidy.backed old
      · rw [if_pos rfl, ← fresh]
        exact backing
    · rw [made.same (by decide)] at member
      exact (tidy.surf member).mono fun bi => made.kept
    · rw [made.same (by decide)] at member ⊢
      exact tidy.xdgSurf member
    · rw [made.same (by decide)] at member ⊢
      exact tidy.xdgTop member
    · rw [buffers] at differ
      split at differ
      · rename_i equal
        rw [equal]
        exact .inr made.mine
      · exact absurd rfl differ

/-- What is left of the slots when an object is not alive any more: a client has one slot of its type less. -/
structure Killed (ci : Nat) (type : ObjType) (slot : Nat) (before after : Nat → WClient) : Prop where
  others : ∀ {cj}, cj ≠ ci → after cj = before cj
  same : ∀ {cj t}, t ≠ type → (after cj).slots t = (before cj).slots t
  given : ((before ci).slots type).Perm (slot :: (after ci).slots type)
  gone : ∀ {cj}, (after cj).alive = false → (after cj).objs = []

theorem Killed.kill (gone : ∀ {cj}, (w.clients cj).alive = false → (w.clients cj).objs = [])
    (found : wobjFind (w.clients ci) objId = some place) (typed : (w.clients ci).typeAt place = some type) (w₀ : Compositor) (clients : w₀.clients = w.clients)
    (objs : c.objs = (w.clients ci).objs) (here : c.alive = true) :
    Killed ci type ((w.clients ci).extraAt place) w.clients (w₀.setClient ci (c.kill place)).clients := by
  have slots (t : ObjType) : (c.kill place).slots t = ((w.clients ci).kill place).slots t := by
    simp only [WClient.slots, WClient.kill, objs]
  refine ⟨fun other => ?_, fun {cj t} differ => ?_, ?_, fun {cj} dead => ?_⟩
  · rw [setClient_clients, if_neg other, clients]
  · rw [setClient_clients, clients]
    split
    · rename_i equal
      rw [equal, slots, slots_kill_other typed differ]
    · rfl
  · rw [setClient_clients, if_pos rfl, slots]
    exact slots_kill found typed
  · rw [setClient_clients] at dead ⊢
    split at dead
    · rw [show (c.kill place).alive = c.alive from rfl, here] at dead
      cases dead
    · rename_i other
      rw [if_neg other, clients]
      rw [clients] at dead
      exact gone dead

theorem Killed.mem (killed : Killed ci type slot w.clients w'.clients) {other : Nat}
    (member : other ∈ (w'.clients cj).slots t) : other ∈ (w.clients cj).slots t := by
  by_cases differ : t = type
  · by_cases here : cj = ci
    · subst differ here
      exact killed.given.mem_iff.mpr (List.mem_cons_of_mem _ member)
    · rwa [killed.others here] at member
  · rwa [killed.same differ] at member

theorem Killed.kept (killed : Killed ci type slot w.clients w'.clients) {other : Nat}
    (member : other ∈ (w.clients cj).slots t) (differ : cj = ci → other ≠ slot) : other ∈ (w'.clients cj).slots t := by
  by_cases same : t = type
  · by_cases here : cj = ci
    · subst same here
      exact (List.mem_cons.mp (killed.given.mem_iff.mp member)).resolve_left (differ rfl)
    · rwa [killed.others here]
  · rwa [killed.same same]

theorem Killed.mine (killed : Killed ci type slot w.clients w'.clients) : slot ∈ (w.clients ci).slots type :=
  killed.given.mem_iff.mpr List.mem_cons_self

theorem Killed.table (killed : Killed ci type slot w.clients w'.clients) (differ : t ≠ type)
    {alive alive' : Nat → Bool} {limit : Nat} (owned : Owned alive limit fun cj => (w.clients cj).slots t)
    (used : ∀ i, alive' i = alive i) : Owned alive' limit fun cj => (w'.clients cj).slots t :=
  owned.congr used fun _ => killed.same differ

theorem Killed.freed (killed : Killed ci type slot w.clients w'.clients) {alive alive' : Nat → Bool} {limit : Nat}
    (owned : Owned alive limit fun cj => (w.clients cj).slots type)
    (used : ∀ other, alive' other = if other = slot then false else alive other) :
    Owned alive' limit fun cj => (w'.clients cj).slots type :=
  owned.free killed.given used fun _ other => by rw [killed.others other]

section

variable (tidy : Tidy w) (alive : (w.clients ci).alive = true) (found : wobjFind (w.clients ci) objId = some place)

include tidy alive found

theorem Tidy.poolDestroy (typed : (w.clients ci).typeAt place = some .shmPool)
    (orderly : ∀ bi ∈ (w.clients ci).slots .buffer, (w.buffers bi).poolIdx ≠ (w.clients ci).extraAt place) :
    Moves ci w (handlePoolDestroy w ci place ((w.clients ci).extraAt place)) := by
  have mine := extraAt_mem found typed
  generalize slot : (w.clients ci).extraAt place = pi at *
  unfold handlePoolDestroy
  dsimp only
  rw [if_pos (tidy.pools.live mine), setPool_clients]
  generalize dead : ({ w.pools pi with ptr := none, alive := false } : WPool) = pool
  have killed : Killed ci .shmPool pi w.clients ((w.setPool pi pool).setClient ci ((w.clients ci).kill place)).clients :=
    slot ▸ Killed.kill tidy.gone found typed _ rfl rfl alive
  have pools (i : Nat) := setPool_pools w pi i pool
  refine ⟨⟨killed.freed tidy.pools fun i => ?_, killed.table (by decide) tidy.buffers fun _ => rfl,
    killed.table (by decide) tidy.surfs fun _ => rfl, fun {cj bi} member => ?_, fun {cj sj} member => ?_,
    fun {cj sj} member => ?_, fun {cj sj} member => ?_, killed.gone⟩, fun cj other => killed.others other,
    fun qi differ => ?_, fun _ differ => absurd rfl differ, fun _ differ => absurd rfl differ⟩
  · rw [setClient_pools, pools, ← dead]
    split <;> rfl
  · rw [killed.same (by decide)] at member
    refine killed.kept (tidy.backed member) fun here => ?_
    subst here
    exact orderly bi member
  · rw [killed.same (by decide)] at member
    exact (tidy.surf member).mono fun bi => by rw [killed.same (by decide)]; exact id
  · rw [killed.same (by decide)] at member ⊢
    exact tidy.xdgSurf member
  · rw [killed.same (by decide)] at member ⊢
    exact tidy.xdgTop member
  · rw [setClient_pools, pools] at differ
    split at differ
    · rename_i equal
      rw [equal]
      exact .inl mine
    · exact absurd rfl differ

theorem Tidy.bufferDestroy (typed : (w.clients ci).typeAt place = some .buffer)
    (orderly : ∀ si ∈ (w.clients ci).slots .surface, (w.surfs si).pendingBuf ≠ (w.clients ci).extraAt place ∧
      (w.surfs si).currentBuf ≠ (w.clients ci).extraAt place) :
    Moves ci w (handleBufferDestroy w ci place ((w.clients ci).extraAt place)) := by
  have mine := extraAt_mem found typed
  generalize slot : (w.clients ci).extraAt place = bi at *
  unfold handleBufferDestroy
  dsimp only
  rw [if_pos (tidy.buffers.live mine).1, setBuf_clients]
  generalize dead : ({ w.buffers bi with alive := false } : WBuf) = buf
  have killed : Killed ci .buffer bi w.clients ((w.setBuf bi buf).setClient ci ((w.clients ci).kill place)).clients :=
    slot ▸ Killed.kill tidy.gone found typed _ rfl rfl alive
  have buffers (i : Nat) := setBuf_buffers w bi i buf
  refine ⟨⟨killed.table (by decide) tidy.pools fun _ => rfl, killed.freed tidy.buffers fun i => ?_,
    killed.table (by decide) tidy.surfs fun _ => rfl, fun {cj bj} member => ?_, fun {cj sj} member => ?_,
    fun {cj sj} member => ?_, fun {cj sj} member => ?_, killed.gone⟩, fun cj other => killed.others other,
    fun _ differ => absurd rfl differ, fun bj differ => ?_, fun _ differ => absurd rfl differ⟩
  · rw [setClient_buffers, buffers, ← dead]
    split <;> rfl
  · have pool : ((w.setBuf bi buf).buffers bj).poolIdx = (w.buffers bj).poolIdx := by
      rw [buffers, ← dead]
      split
      · rename_i equal
        rw [equal]
      · rfl
    rw [setClient_buffers, pool, killed.same (by decide)]
    exact tidy.backed (killed.mem member)
  · rw [killed.same (by decide)] at member
    obtain ⟨client, pending, current⟩ := tidy.surf member
    -- No surface of the client shows the buffer, and surfaces of others do not show it either.
    refine ⟨client, pending.imp id fun here => killed.kept here fun same => ?_,
      current.imp id fun here => killed.kept here fun same => ?_⟩
    · subst same
      exact (orderly sj member).1
    · subst same
      exact (orderly sj member).2
  · rw [killed.same (by decide)] at member ⊢
    exact tidy.xdgSurf member
  · rw [killed.same (by decide)] at member ⊢
    exact tidy.xdgTop member
  · rw [setClient_buffers, buffers] at differ
    split at differ
    · rename_i equal
      rw [equal]
      exact .inl mine
    · exact absurd rfl differ

theorem Tidy.surfaceDestroy (typed : (w.clients ci).typeAt place = some .surface)
    (orderly : (w.clients ci).extraAt place ∉ (w.clients ci).slots .xdgSurf ∧
      (w.clients ci).extraAt place ∉ (w.clients ci).slots .xdgTop) :
    Moves ci w (handleSurfaceDestroy w ci place ((w.clients ci).extraAt place)) := by
  have mine := extraAt_mem found typed
  generalize slot : (w.clients ci).extraAt place = si at *
  unfold handleSurfaceDestroy
  dsimp only
  rw [if_pos (tidy.surfs.live mine).1]
  refine Moves.same ?_ (SameBy.relayout _ true).own
  -- A drag of the surface ends, and it is no terminal any more; neither concerns any slot.
  generalize dragged : (if w.dragActive = true ∧ w.dragIdx = si then
    { w with dragActive := false, dragIdx := noSlot } else w) = w₀
  have sameSurfs : w₀.surfs = w.surfs := by
    rw [← dragged]
    split <;> rfl
  have sameClients : w₀.clients = w.clients := by
    rw [← dragged]
    split <;> rfl
  have samePools : w₀.pools = w.pools := by
    rw [← dragged]
    split <;> rfl
  have sameBuffers : w₀.buffers = w.buffers := by
    rw [← dragged]
    split <;> rfl
  rw [sameSurfs]
  generalize dead : ({ w.surfs si with alive := false } : WSurf) = surf
  generalize term : (if (w.clients ci).termSurfaceObj = (w.surfs si).surfaceObj then
    { w.clients ci with termSurfaceObj := 0 } else w.clients ci) = c
  have killed : Killed ci .surface si w.clients ((w₀.setSurf si surf).setClient ci (c.kill place)).clients := by
    refine slot ▸ Killed.kill tidy.gone found typed _ sameClients ?_ ?_
    · rw [← term]
      split <;> rfl
    · rw [← term]
      split <;> exact alive
  have surfs (i : Nat) : ((w₀.setSurf si surf).setClient ci (c.kill place)).surfs i = if i = si then surf else w.surfs i := by
    rw [setClient_surfs, setSurf_surfs, sameSurfs]
  refine ⟨⟨killed.table (by decide) tidy.pools fun i => ?_, killed.table (by decide) tidy.buffers fun i => ?_,
    killed.freed tidy.surfs fun i => ?_, fun {cj bi} member => ?_, fun {cj sj} member => ?_,
    fun {cj sj} member => ?_, fun {cj sj} member => ?_, killed.gone⟩, fun cj other => killed.others other,
    fun i differ => ?_, fun i differ => ?_, fun sj differ => ?_⟩
  · rw [setClient_pools, setSurf_pools, samePools]
  · rw [setClient_buffers, setSurf_buffers, sameBuffers]
  · rw [surfs, ← dead]
    split <;> rfl
  · rw [killed.same (by decide)] at member ⊢
    rw [setClient_buffers, setSurf_buffers, sameBuffers]
    exact tidy.backed member
  · have old : SurfOk (((w₀.setSurf si surf).setClient ci (c.kill place)).clients cj) cj _ :=
      (tidy.surf (killed.mem member)).mono fun bi here => by rw [killed.same (by decide)]; exact here
    rw [surfs, ← dead]
    split
    · rename_i equal
      rw [← equal]
      exact ⟨old.client, old.pending, old.current⟩
    · exact old
  · rw [killed.same (by decide)] at member
    refine killed.kept (tidy.xdgSurf member) fun here => ?_
    rintro rfl
    exact orderly.1 (here ▸ member)
  · rw [killed.same (by decide)] at member
    refine killed.kept (tidy.xdgTop member) fun here => ?_
    rintro rfl
    exact orderly.2 (here ▸ member)
  · rw [setClient_pools, setSurf_pools, samePools] at differ
    exact absurd rfl differ
  · rw [setClient_buffers, setSurf_buffers, sameBuffers] at differ
    exact absurd rfl differ
  · rw [surfs] at differ
    split at differ
    · rename_i equal
      rw [equal]
      exact .inl mine
    · exact absurd rfl differ

end

section

variable (tidy : Tidy w) (alive : (w.clients ci).alive = true) (member : si ∈ (w.clients ci).slots .surface)

include tidy member

theorem Tidy.change {surf : WSurf} (alive : surf.alive = true) (client : surf.clientIdx = (w.surfs si).clientIdx)
    (pending : surf.pendingBuf = (w.surfs si).pendingBuf) (current : surf.currentBuf = (w.surfs si).currentBuf) :
    Moves ci w (w.setSurf si surf) := by
  have ok := tidy.surf member
  refine tidy.setSurf member alive ⟨?_, ?_, ?_⟩
  · rw [client]
    exact ok.client
  · rw [pending]
    exact ok.pending
  · rw [current]
    exact ok.current

theorem Tidy.attach (bufId : UInt32) : Moves ci w (handleAttach w ci si bufId) := by
  have live := tidy.surfs.live member
  have ok := tidy.surf member
  unfold handleAttach
  rw [if_pos live.1]
  refine tidy.setSurf member live.2 ⟨ok.client, ?_, ok.current⟩
  cases attached : slotOf (w.clients ci) bufId .buffer with
  | none => exact .inl rfl
  | some bi => exact .inr (slotOf_mem attached)

theorem Tidy.setTitle (title : List UInt8) : Moves ci w (handleSetTitle w si title) := by
  have live := tidy.surfs.live member
  unfold handleSetTitle
  rw [if_pos live.1]
  exact tidy.change member live.2 rfl rfl rfl

theorem Tidy.configure : Moves ci w (configure w ci si) := by
  have told : Moves ci w (w.setSurf si { w.surfs si with configured := true }) :=
    tidy.change member (tidy.surfs.live member).2 rfl rfl rfl
  exact told.same (.sendConfigure _ ci _)

theorem Tidy.refloat (floating : Bool) : Moves ci w (refloat w si floating) := by
  unfold Wld.refloat
  dsimp only
  have freed : Moves ci w (w.setSurf si { w.surfs si with floating := floating, placed := false }) :=
    tidy.change member (tidy.surfs.live member).2 rfl rfl rfl
  split
  · exact freed.same (SameBy.relayout _ true).own
  · exact freed

theorem Tidy.setAppId (appId : List UInt8) : Moves ci w (handleSetAppId w si appId) := by
  have live := tidy.surfs.live member
  unfold handleSetAppId
  rw [if_pos live.1]
  dsimp only
  have named : Moves ci w (w.setSurf si { w.surfs si with appId := appId }) := tidy.change member live.2 rfl rfl rfl
  have still : si ∈ ((w.setSurf si { w.surfs si with appId := appId }).clients ci).slots .surface := member
  generalize w.setSurf si { w.surfs si with appId := appId } = w₁ at named still ⊢
  have kept (floating : Bool) : (Wld.refloat w₁ si floating).clients = w₁.clients := by
    unfold Wld.refloat
    dsimp only
    split
    · exact (SameBy.relayout _ true).clients
    · rfl
  split
  · exact named.trans (named.tidy.refloat still true) fun _ _ => by rw [kept]; exact id
  · split
    · exact named.trans (named.tidy.refloat still false) fun _ _ => by rw [kept]; exact id
    · exact named

theorem Tidy.commit : Moves ci w (handleCommit w ci si) := by
  have live := tidy.surfs.live member
  have ok := tidy.surf member
  unfold handleCommit
  rw [if_pos live.1]
  dsimp only
  have shown : Moves ci w (w.setSurf si
      { w.surfs si with
        currentBuf := (w.surfs si).pendingBuf, closing := false, closeSent := false, fadeTicks := 8 }) :=
    tidy.setSurf member live.2 ⟨ok.client, ok.pending, ok.pending⟩
  have same := (SameBy.focusIfNone (w.setSurf si
    { w.surfs si with
      currentBuf := (w.surfs si).pendingBuf, closing := false, closeSent := false, fadeTicks := 8 }) si).trans
        (.relayout _ true)
  have placed := shown.same same.own
  have still : si ∈ ((wldRelayout (focusIfNone (w.setSurf si
      { w.surfs si with
        currentBuf := (w.surfs si).pendingBuf, closing := false, closeSent := false, fadeTicks := 8 })
          si) true).clients ci).slots .surface := by
    rw [same.clients]
    exact member
  generalize wldRelayout _ true = w₂ at placed still ⊢
  split
  · exact placed.trans (placed.tidy.configure still) fun _ _ => id
  · exact placed

include alive

theorem Tidy.frame (cbId : UInt32) : Moves ci w (handleFrame w ci si cbId) := by
  have live := tidy.surfs.live member
  unfold handleFrame
  rw [if_pos live.1]
  dsimp only
  have made : Moves ci w (w.alloc ci cbId .callback 0) := tidy.alloc alive cbId 0 rfl
  have still : si ∈ ((w.alloc ci cbId .callback 0).clients ci).slots .surface := by
    rw [Compositor.alloc, setClient_clients, if_pos rfl, slots_alloc_other _ _ _ (by decide)]
    exact member
  exact made.trans (made.tidy.change still (made.tidy.surfs.live still).2 rfl rfl rfl) fun _ _ => id

theorem Tidy.role (newId : UInt32) {type : ObjType} (role : type = .xdgSurf ∨ type = .xdgTop) {surf : WSurf}
    (alive' : surf.alive = true) (client : surf.clientIdx = (w.surfs si).clientIdx)
    (pending : surf.pendingBuf = (w.surfs si).pendingBuf) (current : surf.currentBuf = (w.surfs si).currentBuf) :
    Moves ci w ((w.alloc ci newId type si).setSurf si surf) := by
  have made := tidy.allocRole alive newId role member
  have still : si ∈ ((w.alloc ci newId type si).clients ci).slots .surface := by
    rw [Compositor.alloc, setClient_clients, if_pos rfl, slots_alloc_other _ _ _ ?_]
    · exact member
    · rintro rfl
      rcases role with same | same <;> cases same
  exact made.trans (made.tidy.change still alive' client pending current) fun _ _ => id

theorem Tidy.getToplevel (newId : UInt32) : Moves ci w (handleGetToplevel w ci si newId) := by
  have live := tidy.surfs.live member
  unfold handleGetToplevel
  rw [if_pos live.1]
  dsimp only
  have made : Moves ci w ((w.alloc ci newId .xdgTop si).setSurf si
      { (w.alloc ci newId .xdgTop si).surfs si with xdgTopObj := newId }) :=
    tidy.role alive member newId (.inr rfl) live.2 rfl rfl rfl
  have still : si ∈ ((w.alloc ci newId .xdgTop si).clients ci).slots .surface := by
    rw [Compositor.alloc, setClient_clients, if_pos rfl, slots_alloc_other _ _ _ (by decide)]
    exact member
  have still : si ∈ (((w.alloc ci newId .xdgTop si).setSurf si
      { (w.alloc ci newId .xdgTop si).surfs si with xdgTopObj := newId }).clients ci).slots .surface := still
  generalize (w.alloc ci newId .xdgTop si).setSurf si _ = w₁ at made still ⊢
  split
  · exact made.trans (made.tidy.configure still) fun _ _ => id
  · exact made

theorem Tidy.getXdgSurface (newId surfId : UInt32) (found : slotOf (w.clients ci) surfId .surface = some si) :
    Moves ci w (handleGetXdgSurface w ci newId surfId) := by
  have live := tidy.surfs.live member
  unfold handleGetXdgSurface
  simp only [found]
  split
  · exact ⟨tidy, ChangesOwn.refl ci w⟩
  · rw [if_pos live.1]
    exact tidy.role alive member newId (.inl rfl) live.2 rfl rfl rfl

end

end

end Enlil.Wld
