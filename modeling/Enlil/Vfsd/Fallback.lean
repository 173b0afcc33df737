import Enlil.Vfsd.MountTable

/-! The turns of the lookups that fall back from a mount for Linux programs to another mount. -/

namespace Enlil.Vfsd

open Enlil.Vfs (CString)

section

variable {σ α : Type} (ns : Namespace)

/-- The mounts that a lookup tries, one after the other. -/
def visitedMounts (virtualPath : CString) (attempt : σ → NsMount → CString → σ × Except Errno α) :
    Nat → σ → Option Nat → List Nat
  | _, _, none => []
  | 0, _, some _ => []
  | turns + 1, st, some i =>
    i :: match vfsdNamespaceMountJoin (ns.mounts i) virtualPath with
      | .error _ => []
      | .ok backend =>
        match attempt st (ns.mounts i) backend with
        | (_, .ok _) => []
        | (st, .error error) =>
          if (ns.mounts i).linuxCompat = false ∨ isMissing error = false then []
          else visitedMounts virtualPath attempt turns st (vfsdNamespaceMountBestExcluding ns virtualPath (some i))

end

/-- The places of the mounts for Linux programs that a namespace starts with. -/
def compatPlaces : List (Nat × CString) := [(5, lib), (6, usr), (9, binSh)]

/-- Every mount for Linux programs is one of those that the namespace started with. -/
def Namespace.Seeded (ns : Namespace) : Prop :=
  ∀ i, (ns.mounts i).active = true → (ns.mounts i).linuxCompat = true → (i, (ns.mounts i).mountAt) ∈ compatPlaces

section

variable {ns ns' : Namespace} {mountAt backend : CString}

theorem vfsdNamespaceSeed_seeded : vfsdNamespaceSeed.Seeded := by
  intro i active compat
  have inside : i < seedMounts.length := by
    by_contra outside
    have cleared : vfsdNamespaceSeed.mounts i = .none := List.getD_eq_default _ _ (Nat.le_of_not_lt outside)
    rw [cleared] at active
    cases active
  have all : ∀ i < seedMounts.length, (vfsdNamespaceSeed.mounts i).linuxCompat = true →
      (i, (vfsdNamespaceSeed.mounts i).mountAt) ∈ compatPlaces := by decide
  exact all i inside compat

theorem Namespace.Seeded.setMount (seeded : ns.Seeded) {i : Nat} {mount : NsMount}
    (kept : mount.active = true → mount.linuxCompat = true → (i, mount.mountAt) ∈ compatPlaces) :
    (ns.setMount i mount).Seeded := by
  intro j active compat
  rw [Namespace.setMount] at *
  by_cases here : j = i
  · subst here
    simp only [Function.update_self] at *
    exact kept active compat
  · simp only [Function.update_of_ne here] at *
    exact seeded j active compat

theorem Namespace.Seeded.add (seeded : ns.Seeded) {readonly : Bool}
    (added : vfsdNamespaceMountAdd ns mountAt backend readonly false = .ok ns') : ns'.Seeded := by
  obtain ⟨_, i, _, rfl⟩ := mountAdd_ok added
  exact seeded.setMount fun _ => nofun

theorem Namespace.Seeded.umount (seeded : ns.Seeded) (removed : vfsdNamespaceUmount ns mountAt = .ok ns') :
    ns'.Seeded := by
  obtain ⟨_, i, _, rfl, _⟩ := umount_ok removed
  exact seeded.setMount nofun

theorem Namespace.Seeded.pivot (seeded : ns.Seeded) {oldRebased newBackend : CString}
    (pivoted : pivotMounts ns oldRebased newBackend = .ok ns') : ns'.Seeded := by
  unfold pivotMounts at pivoted
  split at pivoted
  · cases pivoted
  rename_i i found
  have top : (ns.mounts i).linuxCompat = false := by
    obtain ⟨active, place⟩ := mountExact_some found
    by_contra compat
    have seed := seeded i active.2 (by simpa using compat)
    rw [place] at seed
    simp [compatPlaces, root, lib, usr, binSh] at seed
  split at pivoted
  · cases pivoted
  split at pivoted
  · cases pivoted
  · rename_i added
    cases pivoted
    rw [top] at added
    have kept := seeded.add added
    exact kept.setMount fun active compat => kept i active compat

end

/-- All namespaces of a server have only mounts for Linux programs that were there at the start. -/
def Server.Seeded (s : Server) : Prop := ∀ n, (s.namespaces n).Seeded

section

variable {s s' : Server} {c : Nat}

theorem vfsdInit_seeded : vfsdInit.Seeded := by
  intro n
  by_cases first : n = 0
  · subst first
    exact vfsdNamespaceSeed_seeded
  · rw [vfsdInit]
    simp only [Function.update_of_ne first]
    intro _ active
    cases active

theorem Server.Seeded.setNamespace (seeded : s.Seeded) {n : Nat} {ns : Namespace} (kept : ns.Seeded) :
    (s.setNamespace n ns).Seeded := by
  intro m
  rw [Server.setNamespace]
  by_cases here : m = n
  · subst here
    simpa using kept
  · simpa [here] using seeded m

theorem Server.Seeded.alloc (seeded : s.Seeded) {result : Option Nat}
    (allocated : vfsdNamespaceAlloc s = (s', result)) : s'.Seeded := by
  unfold vfsdNamespaceAlloc at allocated
  split at allocated
  · cases allocated
    exact seeded
  · rename_i n _
    cases allocated
    exact seeded.setNamespace (n := n) (seeded n)

theorem Server.Seeded.clone (seeded : s.Seeded) {nsId : Nat} {result : Option Nat}
    (cloned : vfsdNamespaceClone s nsId = (s', result)) : s'.Seeded := by
  unfold vfsdNamespaceClone at cloned
  dsimp only at cloned
  split at cloned
  · rename_i src s₁ dst _ allocated
    cases cloned
    have kept := seeded.alloc allocated
    exact kept.setNamespace (kept src)
  · rename_i allocated _
    cases cloned
    exact seeded.alloc allocated

theorem Server.Seeded.effect (seeded : s.Seeded) {request : Request} {response : Response}
    (effect : Effect s c request response s') : s'.Seeded := by
  cases effect with
  | nothing undone => exact seeded
  | unshareFailed cloned => exact seeded.clone cloned
  | chdir normalized => exact seeded
  | mount normalized below found added => exact seeded.setNamespace ((seeded _).add added)
  | umount normalized found removed => exact seeded.setNamespace ((seeded _).umount removed)
  | unshare cloned =>
    have kept := seeded.clone cloned
    exact kept
  | pivotRoot paths found pivoted => exact seeded.setNamespace ((seeded _).pivot pivoted)

theorem Server.Seeded.serve (seeded : s.Seeded) {σ : Type} {boot : Boot σ} {st st' : σ}
    {taskinfo : Nat → Option TaskInfo} {sender : Nat} {request : Request} {response : Response}
    (served : serve boot st s taskinfo sender request = some (st', s', response)) : s'.Seeded := by
  have met : ∀ {met result}, vfsdClientGetOrCreate taskinfo s sender = (met, result) → met.Seeded := by
    intro met result got
    rw [Server.Seeded, getOrCreate_namespaces got]
    exact seeded
  rcases serve_effect served with ⟨_, rfl⟩ | ⟨_, _, got, rfl, _⟩ | ⟨_, _, _, got, effect⟩
  · exact seeded
  · exact met got
  · exact (met got).effect effect

end

section

variable {σ α : Type} {ns : Namespace} {path : CString} {i j : Nat}

theorem compat_front (seeded : ns.Seeded) (active : (ns.mounts i).active = true)
    (compat : (ns.mounts i).linuxCompat = true) (on : vfsdPathHasPrefix path (ns.mounts i).mountAt = true) :
    ∃ entry ∈ compatPlaces, entry.1 = i ∧ entry.2.isPrefixOf path = true := by
  have place := seeded i active compat
  refine ⟨_, place, rfl, ?_⟩
  have below : (ns.mounts i).mountAt ≠ ['/'] := by
    intro top
    rw [top] at place
    simp [compatPlaces, lib, usr, binSh] at place
  rw [vfsdPathHasPrefix, if_neg below, Bool.and_eq_true] at on
  exact on.1

theorem compat_unique (seeded : ns.Seeded) (active : (ns.mounts i).active = true)
    (compat : (ns.mounts i).linuxCompat = true) (on : vfsdPathHasPrefix path (ns.mounts i).mountAt = true)
    (active' : (ns.mounts j).active = true) (compat' : (ns.mounts j).linuxCompat = true)
    (on' : vfsdPathHasPrefix path (ns.mounts j).mountAt = true) : i = j := by
  obtain ⟨entry, mem, rfl, front⟩ := compat_front seeded active compat on
  obtain ⟨entry', mem', rfl, front'⟩ := compat_front seeded active' compat' on'
  -- The second characters of the three places differ.
  have apart : ∀ entry ∈ compatPlaces, ∀ entry' ∈ compatPlaces, entry.2[1]? = entry'.2[1]? → entry = entry' := by decide
  have second : ∀ entry ∈ compatPlaces, entry.2.isPrefixOf path = true → path[1]? = entry.2[1]? := by
    intro entry mem front
    obtain ⟨rest, rfl⟩ := List.isPrefixOf_iff_prefix.mp front
    have long : ∀ entry ∈ compatPlaces, 1 < entry.2.length := by decide
    rw [List.getElem?_append_left (long entry mem)]
  rw [apart entry mem entry' mem' ((second entry mem front).symm.trans (second entry' mem' front'))]

theorem best_on {exclude : Option Nat} (best : vfsdNamespaceMountBestExcluding ns path exclude = some i) :
    (ns.mounts i).active = true ∧ some i ≠ exclude ∧ vfsdPathHasPrefix path (ns.mounts i).mountAt = true := by
  have mem := List.argmax_mem best
  simp only [candidates, List.mem_filter, Bool.and_eq_true, bne_iff_ne] at mem
  exact ⟨mem.2.1.1, mem.2.1.2, mem.2.2⟩

variable (attempt : σ → NsMount → CString → σ × Except Errno α)

variable (path) in
theorem plain_ends (plain : (ns.mounts i).linuxCompat = false) (turns : Nat) (st : σ) (error : Errno) :
    overMounts ns path attempt (turns + 1) st (some i) error ≠ none ∧
      visitedMounts ns path attempt (turns + 1) st (some i) = [i] := by
  rw [overMounts, visitedMounts]
  cases vfsdNamespaceMountJoin (ns.mounts i) path with
  | error error => exact ⟨nofun, rfl⟩
  | ok backend =>
    dsimp only
    obtain ⟨st', result⟩ := attempt st (ns.mounts i) backend
    cases result with
    | ok value => exact ⟨nofun, rfl⟩
    | error error =>
      dsimp only
      rw [if_pos (.inl plain), if_pos (.inl plain)]
      exact ⟨nofun, rfl⟩

theorem visitedMounts_grows (turns : Nat) (st : σ) (best : Option Nat) :
    visitedMounts ns path attempt turns st best <+: visitedMounts ns path attempt (turns + 1) st best := by
  induction turns generalizing st best with
  | zero => cases best <;> exact List.nil_prefix
  | succ turns ih =>
    cases best with
    | none => exact List.nil_prefix
    | some i =>
      rw [visitedMounts, visitedMounts]
      refine (List.prefix_cons_inj i).mpr ?_
      cases vfsdNamespaceMountJoin (ns.mounts i) path with
      | error error => exact List.nil_prefix
      | ok backend =>
        dsimp only
        obtain ⟨st', result⟩ := attempt st (ns.mounts i) backend
        cases result with
        | ok value => exact List.nil_prefix
        | error error =>
          dsimp only
          split
          · exact List.nil_prefix
          · exact ih st' _

theorem fallback_ends (seeded : ns.Seeded) (turns : Nat) (st : σ) :
    overMounts ns path attempt (turns + 2) st (vfsdNamespaceMountBest ns path) .enoent ≠ none ∧
      (visitedMounts ns path attempt (turns + 2) st (vfsdNamespaceMountBest ns path)).Nodup := by
  cases best : vfsdNamespaceMountBest ns path with
  | none => exact ⟨nofun, List.nodup_nil⟩
  | some i =>
    obtain ⟨active, _, on⟩ := best_on best
    cases compat : (ns.mounts i).linuxCompat with
    | false =>
      have ends := plain_ends path attempt compat (turns + 1) st .enoent
      exact ⟨ends.1, ends.2 ▸ List.nodup_singleton i⟩
    | true =>
      rw [overMounts, visitedMounts]
      cases vfsdNamespaceMountJoin (ns.mounts i) path with
      | error error => exact ⟨nofun, List.nodup_singleton i⟩
      | ok backend =>
        dsimp only
        obtain ⟨st', result⟩ := attempt st (ns.mounts i) backend
        cases result with
        | ok value => exact ⟨nofun, List.nodup_singleton i⟩
        | error error =>
          dsimp only
          split
          · exact ⟨nofun, List.nodup_singleton i⟩
          · cases next : vfsdNamespaceMountBestExcluding ns path (some i) with
            | none => exact ⟨nofun, List.nodup_singleton i⟩
            | some j =>
              -- The second mount is another one, so it is not for Linux programs as well.
              obtain ⟨active', other, on'⟩ := best_on next
              have apart : i ≠ j := fun same => other (congrArg some same.symm)
              have plain : (ns.mounts j).linuxCompat = false := by
                by_contra compat'
                exact apart (compat_unique seeded active compat on active' (by simpa using compat') on')
              have ends := plain_ends path attempt plain turns st' error
              exact ⟨ends.1, ends.2 ▸ by simp [apart]⟩

end

section

variable {σ : Type} (boot : Boot σ)

/-- A request to the server, with what the kernel says about its sender. -/
structure Asked where
  taskinfo : Nat → Option TaskInfo
  sender : Nat
  request : Request

/-- Answers one request; it fails only where the server has no answer. -/
def answerAsked (w : σ × Server) (asked : Asked) : Except Unit (σ × Server) :=
  match serve boot w.1 w.2 asked.taskinfo asked.sender asked.request with
  | some (st, s, _) => .ok (st, s)
  | none => .error ()

/-- The mounts that a lookup of an existing path tries. -/
def resolveVisits (ns : Namespace) (st : σ) (virtualPath : CString) (turns : Nat) : List Nat :=
  visitedMounts ns virtualPath
    (fun st mount backend =>
      if mount.linuxCompat = false then (st, .ok (backend, mount.readonly, mount.linuxCompat))
      else
        match vfsdBootPathStat boot st backend with
        | (st, .ok _) => (st, .ok (backend, mount.readonly, mount.linuxCompat))
        | (st, .error error) => (st, .error error))
    turns st (vfsdNamespaceMountBest ns virtualPath)

/-- The mounts that an open of an existing path tries. -/
def openVisits (ns : Namespace) (st : σ) (virtualPath : CString) (flags : UInt32) (turns : Nat) : List Nat :=
  visitedMounts ns virtualPath (fun st _ backend => boot.openNow st backend flags) turns st
    (vfsdNamespaceMountBest ns virtualPath)

variable {boot}

theorem run_seeded {st : σ} {w : σ × Server} (run : Run (answerAsked boot) (fun _ _ => True) (st, vfsdInit) w) :
    w.2.Seeded := by
  refine @Run.invariant _ _ _ _ _ (fun w => w.2.Seeded) _ vfsdInit_seeded (fun {w w' asked} seeded _ ran => ?_) _ run
  unfold answerAsked at ran
  split at ran
  · rename_i served
    cases ran
    exact seeded.serve served
  · cases ran

/-- In every namespace that requests lead to, both lookups end and try no mount twice, whatever the backends answer. -/
theorem fallback_terminates (st : σ) (w : σ × Server) (run : Run (answerAsked boot) (fun _ _ => True) (st, vfsdInit) w)
    (n : Nat) (now : σ) (path : CString) (flags : UInt32) :
    (∃ outcome, vfsdNamespaceResolveExisting boot (w.2.namespaces n) now path = some outcome) ∧
      (∃ outcome, vfsdNamespaceOpenExisting boot (w.2.namespaces n) now path flags = some outcome) ∧
      ∀ turns, (resolveVisits boot (w.2.namespaces n) now path turns).Nodup ∧
        (openVisits boot (w.2.namespaces n) now path flags turns).Nodup := by
  have seeded := run_seeded run n
  have once : ∀ {α : Type} (attempt : σ → NsMount → CString → σ × Except Errno α) (turns : Nat),
      (visitedMounts (w.2.namespaces n) path attempt turns now (vfsdNamespaceMountBest (w.2.namespaces n) path)).Nodup :=
    fun attempt turns => (fallback_ends attempt seeded turns now).2.sublist
      ((visitedMounts_grows attempt turns now _).trans (visitedMounts_grows attempt (turns + 1) now _)).sublist
  refine ⟨Option.ne_none_iff_exists'.mp ?_, Option.ne_none_iff_exists'.mp ?_, fun turns => ⟨once _ turns, once _ turns⟩⟩
  · exact (fallback_ends _ seeded 14 now).1
  · exact (fallback_ends _ seeded 14 now).1

/-- The lookups of the shell, which lies on a mount for Linux programs. -/
theorem fallback_terminates_binSh :
    (∃ outcome, vfsdNamespaceResolveExisting directories (vfsdInit.namespaces 0) () binSh = some outcome) ∧
      (∃ outcome, vfsdNamespaceOpenExisting directories (vfsdInit.namespaces 0) () binSh 0 = some outcome) ∧
      ∀ turns, (resolveVisits directories (vfsdInit.namespaces 0) () binSh turns).Nodup ∧
        (openVisits directories (vfsdInit.namespaces 0) () binSh 0 turns).Nodup :=
  fallback_terminates () ((), vfsdInit) .start 0 () binSh 0

end

end Enlil.Vfsd
