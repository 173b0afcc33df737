import Enlil.Lib.Slots
import Enlil.Wld.Server

/-! Who the slots of pools, buffers and surfaces belong to, and what leaves that as it is. -/

namespace Enlil.Wld

/-- The slots that the live objects of a type refer to. -/
def WClient.slots (c : WClient) (type : ObjType) : List Nat :=
  (c.objs.filter fun o => o.alive && o.type == type).map (·.extra)

/-- What a surface is apart from where it is placed, what it looks like, and whether it is being closed. -/
structure Contents where
  alive : Bool
  clientIdx : Nat
  surfaceObj : UInt32
  xdgSurfObj : UInt32
  xdgTopObj : UInt32
  pendingBuf : Nat
  currentBuf : Nat
  frameCbId : UInt32
  title : List UInt8
  appId : List UInt8

def WSurf.contents (surf : WSurf) : Contents :=
  ⟨surf.alive, surf.clientIdx, surf.surfaceObj, surf.xdgSurfObj, surf.xdgTopObj, surf.pendingBuf, surf.currentBuf,
    surf.frameCbId, surf.title, surf.appId⟩

/-- What a surface is apart from where it is placed, whether it has the focus, and whether it is being closed, with what else its client decides. -/
def WSurf.own (surf : WSurf) : Contents × Bool × Bool := (surf.contents, surf.configured, surf.floating)

/-- What a surface is apart from where it is placed and whether it has the focus. -/
def WSurf.lasting (surf : WSurf) : Contents × Bool × Nat × Bool × Bool × Bool :=
  (surf.contents, surf.configured, surf.fadeTicks, surf.closing, surf.closeSent, surf.floating)

/-- The objects of the clients, the pools, the buffers, and what is seen of the surfaces are the same. -/
structure SameBy {β : Type} (view : WSurf → β) (w w' : Compositor) : Prop where
  clients : w'.clients = w.clients
  pools : w'.pools = w.pools
  buffers : w'.buffers = w.buffers
  surfs : ∀ si, view (w'.surfs si) = view (w.surfs si)

/-- The contents of the surfaces are the same. -/
abbrev SameContents : Compositor → Compositor → Prop := SameBy WSurf.contents

/-- What the clients decide about the surfaces is the same. -/
abbrev SameOwn : Compositor → Compositor → Prop := SameBy WSurf.own

/-- The surfaces are the same, but may be placed anew. -/
abbrev SameLasting : Compositor → Compositor → Prop := SameBy WSurf.lasting

section

variable {β : Type} {view : WSurf → β} {w w' w'' : Compositor} {ci si : Nat}

namespace SameBy

theorem refl (w : Compositor) : SameBy view w w := ⟨rfl, rfl, rfl, fun _ => rfl⟩

theorem trans (first : SameBy view w w') (second : SameBy view w' w'') : SameBy view w w'' :=
  ⟨second.clients.trans first.clients, second.pools.trans first.pools, second.buffers.trans first.buffers,
    fun si => (second.surfs si).trans (first.surfs si)⟩

theorem contents (same : SameLasting w w') : SameContents w w' :=
  ⟨same.clients, same.pools, same.buffers, fun si => congrArg Prod.fst (same.surfs si)⟩

theorem own (same : SameLasting w w') : SameOwn w w' :=
  ⟨same.clients, same.pools, same.buffers, fun si => congrArg (fun l => (l.1, l.2.1, l.2.2.2.2.2)) (same.surfs si)⟩

theorem ownContents (same : SameOwn w w') : SameContents w w' :=
  ⟨same.clients, same.pools, same.buffers, fun si => congrArg Prod.fst (same.surfs si)⟩

theorem setSurf {surf : WSurf} (same : view surf = view (w.surfs si)) : SameBy view w (w.setSurf si surf) := by
  refine ⟨rfl, rfl, rfl, fun i => ?_⟩
  rw [setSurf_surfs]
  split
  · rename_i equal
    rw [equal, same]
  · rfl

theorem send (w : Compositor) (ci : Nat) (send : Send) : SameBy view w (w.send ci send) :=
  ⟨rfl, rfl, rfl, fun _ => rfl⟩

theorem foldl {α : Type} {turn : Compositor → α → Compositor} (each : ∀ w x, SameBy view w (turn w x)) (xs : List α)
    (w : Compositor) : SameBy view w (xs.foldl turn w) := by
  induction xs generalizing w with
  | nil => exact refl w
  | cons x xs ih => exact (each w x).trans (ih (turn w x))

theorem focusSanitize (w : Compositor) : SameBy view w (wldFocusSanitize w) := by
  unfold wldFocusSanitize
  split
  · exact refl w
  · exact ⟨rfl, rfl, rfl, fun _ => rfl⟩

theorem sendConfigure (w : Compositor) (ci : Nat) (surf : WSurf) : SameBy view w (sendConfigure w ci surf) :=
  ⟨rfl, rfl, rfl, fun _ => rfl⟩

theorem sendWmState (w : Compositor) (ci : Nat) (objId : UInt32) : SameBy view w (wldSendWmState w ci objId) :=
  ⟨rfl, rfl, rfl, fun _ => rfl⟩

theorem dockPlaced_lasting (w : Compositor) (surf : WSurf) : (dockPlaced w surf).lasting = surf.lasting := by
  unfold dockPlaced dockSized
  split <;> rfl

theorem floatPlaced_lasting (w : Compositor) (surf : WSurf) (defaultW defaultH : UInt32) :
    (floatPlaced w surf defaultW defaultH).lasting = surf.lasting := by
  have sized : (floatSized w surf defaultW defaultH).lasting = surf.lasting := by
    unfold floatSized
    split <;> rfl
  rw [← sized]
  unfold floatPlaced
  dsimp only
  split <;> rfl

theorem putPlaced (sendCfg : Bool) {surf : WSurf} (same : surf.lasting = (w.surfs si).lasting) :
    SameLasting w (putPlaced sendCfg w si surf) := by
  unfold Wld.putPlaced
  dsimp only
  refine (setSurf same).trans ?_
  split
  · exact sendConfigure _ _ surf
  · exact refl _

theorem relayoutTurn (sendCfg : Bool) (colW : UInt32) (s : Compositor × UInt32) (i : Nat) :
    SameLasting s.1 (relayoutTurn sendCfg colW s i).1 := by
  obtain ⟨w, visible⟩ := s
  unfold Wld.relayoutTurn
  dsimp only
  split
  · exact setSurf rfl
  · split
    · exact putPlaced sendCfg (dockPlaced_lasting w _)
    · split
      · exact putPlaced sendCfg (floatPlaced_lasting w _ 364 246)
      · split
        · exact putPlaced sendCfg (floatPlaced_lasting w _ 320 220)
        · exact putPlaced sendCfg rfl

theorem relayoutTurns (sendCfg : Bool) (colW : UInt32) (xs : List Nat) (s : Compositor × UInt32) :
    SameLasting s.1 (xs.foldl (Wld.relayoutTurn sendCfg colW) s).1 := by
  induction xs generalizing s with
  | nil => exact refl s.1
  | cons i xs ih => exact (relayoutTurn sendCfg colW s i).trans (ih _)

theorem relayout (w : Compositor) (sendCfg : Bool) : SameLasting w (wldRelayout w sendCfg) := by
  unfold wldRelayout
  dsimp only
  exact (focusSanitize w).trans (relayoutTurns sendCfg _ _ (wldFocusSanitize w, 0))

theorem focusIdx (w : Compositor) (idx : Nat) : SameLasting w { w with focusIdx := idx } :=
  ⟨rfl, rfl, rfl, fun _ => rfl⟩

theorem focusRotate (w : Compositor) (forward : Bool) : SameLasting w (wldFocusRotate w forward) := by
  unfold wldFocusRotate
  dsimp only
  split
  · exact refl w
  · split
    · exact (focusSanitize w).trans ((focusSanitize _).trans (relayout _ false))
    · refine (focusSanitize w).trans (SameBy.trans ?_ (relayout _ false))
      split
      · exact (focusIdx _ _).trans (focusSanitize _)
      · exact focusIdx _ _

theorem focusSet (w : Compositor) (idx : Nat) : SameLasting w (wldFocusSet w idx) := by
  unfold wldFocusSet
  split
  · exact refl w
  · split
    · exact refl w
    · exact (focusIdx w idx).trans (relayout _ false)

theorem focusIfNone (w : Compositor) (si : Nat) : SameLasting w (focusIfNone w si) := by
  unfold Wld.focusIfNone
  split
  · exact focusIdx w si
  · exact refl w

theorem requestClose (w : Compositor) : SameOwn w (wldRequestCloseFocused w) := by
  unfold wldRequestCloseFocused
  dsimp only
  refine (focusSanitize w).trans ?_
  split
  · exact refl _
  · split
    · exact refl _
    · exact setSurf rfl

theorem handleKey (w : Compositor) (action : KeyAction) : SameContents w (wldHandleKey w action) := by
  cases action with
  | closeFocused => exact (requestClose w).ownContents
  | focusRotate forward => exact (focusRotate w forward).contents
  | text bytes =>
    refine (focusSanitize w).trans ?_
    unfold wldHandleKey
    dsimp only
    split
    · exact refl _
    · split
      · exact refl _
      · exact send _ _ _
  | other => exact refl w

theorem pressSurface (w : Compositor) (hit : Nat) : SameContents w (pressSurface w hit) := by
  unfold Wld.pressSurface
  split
  · exact (focusSet w hit).contents.trans (requestClose _).ownContents
  · split
    · exact (focusSet w hit).contents
    · split
      · refine (focusSet w hit).contents.trans ?_
        have freed : SameContents (wldFocusSet w hit) ((wldFocusSet w hit).setSurf hit
            { (wldFocusSet w hit).surfs hit with floating := true, placed := true }) := setSurf rfl
        exact freed.trans ⟨rfl, rfl, rfl, fun _ => rfl⟩
      · exact (focusSet w hit).contents

theorem moveDragged (w : Compositor) (ev : MouseEvent) : SameContents w (moveDragged w ev) := by
  unfold Wld.moveDragged
  dsimp only
  split
  · exact setSurf rfl
  · exact refl w

theorem tellPointer (w : Compositor) (changed : UInt32) (ev : MouseEvent) :
    SameContents w (tellPointer w changed ev) := by
  unfold Wld.tellPointer
  split
  · refine foldl (fun w ci => ?_) _ _
    dsimp only
    split
    · exact refl w
    · exact send _ _ _
  · exact refl _

theorem handleMouse (w : Compositor) (ev : MouseEvent) : SameContents w (wldHandleMouse w ev) := by
  unfold wldHandleMouse
  dsimp only
  have moved : SameContents w (movePointer w ev) := ⟨rfl, rfl, rfl, fun _ => rfl⟩
  refine moved.trans ((tellPointer _ (w.pointerButtons ^^^ ev.buttons) ev).trans ?_)
  generalize wldHitTestSurface (movePointer w ev) _ _ = hit
  generalize Wld.tellPointer (movePointer w ev) _ ev = w₁
  split
  · exact refl _
  · split
    · exact pressSurface _ hit
    · have followed (w : Compositor) : SameContents w
          (if hit ≠ noSlot ∧ w.focusFollowPointer = true ∧ ev.move = true ∧ hit ≠ w.focusIdx then
            wldFocusSet w hit else w) := by
        split
        · exact (focusSet w hit).contents
        · exact refl w
      refine (followed _).trans ((moveDragged _ ev).trans ?_)
      generalize Wld.moveDragged _ ev = w₂
      split
      · exact ⟨rfl, rfl, rfl, fun _ => rfl⟩
      · exact refl _

end SameBy

end

end Enlil.Wld
