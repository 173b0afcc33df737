import Enlil.Vfsd.Server

/-! What a request about paths can change: its client, a namespace, or nothing. -/

namespace Enlil.Vfsd

open Enlil.Vfs (CString)

/-- The requests that change what the server knows when they are done. -/
def Request.changes : Request → Bool
  | .chdir _ | .mount _ _ _ _ | .umount _ | .unshare _ | .pivotRoot _ _ => true
  | _ => false

/-- The changes that a request of a client can make, with the answers it gets. -/
inductive Effect (s : Server) (c : Nat) : Request → Response → Server → Prop where
  | nothing {request : Request} {response : Response} (undone : request.changes = true → response ≠ .done) :
    Effect s c request response s
  | unshareFailed {flags : UInt32} {s' : Server} (cloned : vfsdNamespaceClone s (s.clients c).nsId = (s', none)) :
    Effect s c (.unshare flags) (.failed .enomem) s'
  | chdir {path virtualPath : CString}
    (normalized : vfsdPathNormalize (s.clients c).cwd path vfsdIoBytes = .ok virtualPath) :
    Effect s c (.chdir path) .done (s.setClient c { s.clients c with cwd := virtualPath })
  | mount {fsType : FsType} {flags : UInt32} {src target targetVirtual backend : CString} {readonly : Bool} {n : Nat}
    {ns : Namespace} (normalized : vfsdPathNormalize (s.clients c).cwd target vfsdIoBytes = .ok targetVirtual)
    (below : targetVirtual ≠ root) (found : vfsdNamespaceFind s (s.clients c).nsId = some n)
    (added : vfsdNamespaceMountAdd (s.namespaces n) targetVirtual backend readonly false = .ok ns) :
    Effect s c (.mount fsType flags src target) .done (s.setNamespace n ns)
  | umount {path targetVirtual : CString} {n : Nat} {ns : Namespace}
    (normalized : vfsdPathNormalize (s.clients c).cwd path vfsdIoBytes = .ok targetVirtual)
    (found : vfsdNamespaceFind s (s.clients c).nsId = some n)
    (removed : vfsdNamespaceUmount (s.namespaces n) targetVirtual = .ok ns) :
    Effect s c (.umount path) .done (s.setNamespace n ns)
  | unshare {flags : UInt32} {s' : Server} {n : Nat}
    (cloned : vfsdNamespaceClone s (s.clients c).nsId = (s', some n)) :
    Effect s c (.unshare flags) .done (s'.setClient c { s'.clients c with nsId := (s'.namespaces n).nsId })
  | pivotRoot {newRoot oldRoot newVirtual oldVirtual oldRebased newBackend : CString} {n : Nat} {ns : Namespace}
    (paths : pivotPaths s c newRoot oldRoot = .ok (newVirtual, oldVirtual, oldRebased))
    (found : vfsdNamespaceFind s (s.clients c).nsId = some n)
    (pivoted : pivotMounts (s.namespaces n) oldRebased newBackend = .ok ns) :
    Effect s c (.pivotRoot newRoot oldRoot) .done ((s.setNamespace n ns).setClient c { s.clients c with cwd := root })

section

variable {σ : Type} {boot : Boot σ} {st st' : σ} {s s' : Server} {c : Nat}

theorem Effect.failed {request : Request} {error : Errno} : Effect s c request (.failed error) s := .nothing fun _ => nofun

theorem chdir_effect {path : CString} {result : Except Errno Unit}
    (ran : vfsdClientChdir boot st s c path = some (st', s', result)) :
    Effect s c (.chdir path) (answer (fun _ => .done) result) s' := by
  unfold vfsdClientChdir at ran
  split at ran
  · cases ran
    exact .failed
  rename_i virtualPath normalized
  have short := vfsdPathNormalize_length normalized
  repeat' split at ran
  all_goals cases ran
  · exact .failed
  · exact .failed
  · exact .failed
  · exact .failed
  · rw [vfsdStrlcpy, List.take_of_length_le (by unfold vfsdIoBytes at *; omega)]
    exact .chdir normalized

theorem mount_effect {fsType : FsType} {flags : UInt32} {src target : CString} {result : Except Errno Unit}
    (ran : vfsdClientMount boot st s c fsType flags src target = some (st', s', result)) :
    Effect s c (.mount fsType flags src target) (answer (fun _ => .done) result) s' := by
  unfold vfsdClientMount at ran
  split at ran
  · cases ran
    exact .failed
  rename_i targetVirtual normalized
  split at ran
  · cases ran
    exact .failed
  rename_i below
  split at ran
  · cases ran
  · cases ran
    exact .failed
  rename_i backend readonly _
  split at ran
  · cases ran
    exact .failed
  rename_i n found
  split at ran
  · cases ran
    exact .failed
  · rename_i ns added
    cases ran
    exact .mount normalized below found added

theorem umount_effect {path : CString} :
    Effect s c (.umount path) (answer (fun _ => .done) (vfsdClientUmount s c path).2) (vfsdClientUmount s c path).1 := by
  unfold vfsdClientUmount
  split
  · exact .failed
  rename_i targetVirtual normalized
  split
  · exact .failed
  rename_i n found
  split
  · exact .failed
  · rename_i ns removed
    exact .umount normalized found removed

theorem unshare_effect {flags : UInt32} :
    Effect s c (.unshare flags) (answer (fun _ => .done) (vfsdClientUnshare s c flags).2) (vfsdClientUnshare s c flags).1 := by
  unfold vfsdClientUnshare
  split
  · exact .failed
  · split
    · rename_i s' cloned
      exact .unshareFailed cloned
    · rename_i s' n cloned
      exact .unshare cloned

theorem pivotRoot_effect {newRoot oldRoot : CString} {result : Except Errno Unit}
    (ran : vfsdClientPivotRoot boot st s c newRoot oldRoot = some (st', s', result)) :
    Effect s c (.pivotRoot newRoot oldRoot) (answer (fun _ => .done) result) s' := by
  unfold vfsdClientPivotRoot at ran
  split at ran
  · cases ran
    exact .failed
  rename_i newVirtual oldVirtual oldRebased paths
  split at ran
  · cases ran
  · cases ran
    exact .failed
  rename_i newBackend _
  split at ran
  · cases ran
    exact .failed
  split at ran
  · cases ran
    exact .failed
  split at ran
  · cases ran
    exact .failed
  rename_i n found
  split at ran
  · cases ran
    exact .failed
  · rename_i ns pivoted
    cases ran
    exact .pivotRoot paths found pivoted

theorem serveClient_effect {request : Request} {response : Response}
    (served : serveClient boot st s c request = some (st', s', response)) : Effect s c request response s' := by
  cases request with
  | «open» path flags =>
    obtain ⟨r, _, same⟩ := Option.map_eq_some_iff.mp served
    cases same
    exact .nothing nofun
  | resolve path =>
    obtain ⟨r, _, same⟩ := Option.map_eq_some_iff.mp served
    cases same
    exact .nothing nofun
  | chdir path =>
    obtain ⟨r, ran, same⟩ := Option.map_eq_some_iff.mp served
    cases same
    exact chdir_effect ran
  | getcwd =>
    cases served
    exact .nothing nofun
  | mount fsType flags src target =>
    obtain ⟨r, ran, same⟩ := Option.map_eq_some_iff.mp served
    cases same
    exact mount_effect ran
  | umount path =>
    cases served
    exact umount_effect
  | unshare flags =>
    cases served
    exact unshare_effect
  | pivotRoot newRoot oldRoot =>
    obtain ⟨r, ran, same⟩ := Option.map_eq_some_iff.mp served
    cases same
    exact pivotRoot_effect ran
  | read handle count | write handle data | readdir handle | stat handle | close handle | lseek handle offset whence
  | other =>
    cases served
    exact .failed

theorem serve_effect {taskinfo : Nat → Option TaskInfo} {sender : Nat} {request : Request} {response : Response}
    (served : serve boot st s taskinfo sender request = some (st', s', response)) :
    (request.needsClient = false ∧ s' = s) ∨
      (request.needsClient = true ∧ ∃ met, vfsdClientGetOrCreate taskinfo s sender = (met, none) ∧ s' = met ∧
        response = .failed .enomem) ∨
      (request.needsClient = true ∧ ∃ met c, vfsdClientGetOrCreate taskinfo s sender = (met, some c) ∧
        Effect met c request response s') := by
  unfold serve at served
  split at served
  · rename_i needs
    split at served
    · rename_i met none_found
      cases served
      exact .inr (.inl ⟨needs, _, none_found, rfl, rfl⟩)
    · rename_i met c found
      exact .inr (.inr ⟨needs, met, c, found, serveClient_effect served⟩)
  · rename_i other
    cases served
    exact .inl ⟨by simpa using other, rfl⟩

end

end Enlil.Vfsd
