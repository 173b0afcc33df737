import Enlil.Vfs.Mounts
import Enlil.Vfsd.Namespaces

/-! The clients of `user/vfsd.c`, and the requests it serves for them. -/

namespace Enlil.Vfsd

open Enlil.Vfs (CString isDir oCreat)

def vfsdMaxClients : Nat := 64
def msRdonly : UInt32 := 1
def cloneNewns : UInt32 := 0x20000

/-- What the server knows of a process. -/
structure Client where
  inUse : Bool
  tgid : Nat
  parentPid : Nat
  nsId : Nat
  cwd : CString

/-- The static data of the server. -/
structure Server where
  namespaces : Nat → Namespace
  clients : Nat → Client
  nextNsId : Nat

/-- What the kernel says about a task. -/
structure TaskInfo where
  tgid : Nat
  parentPid : Nat

/-- The kinds of file systems a mount can name. -/
inductive FsType where
  | bind
  | initrd
  | devfs
  | procfs
  | ext4Data
  | ext4Sysroot
  | other
  deriving DecidableEq, Repr

inductive Request where
  | «open» (path : CString) (flags : UInt32)
  | read (handle count : Nat)
  | write (handle : Nat) (data : List UInt8)
  | readdir (handle : Nat)
  | stat (handle : Nat)
  | close (handle : Nat)
  | lseek (handle : Nat) (offset : Int) (whence : UInt32)
  | resolve (path : CString)
  | chdir (path : CString)
  | getcwd
  | mount (fsType : FsType) (flags : UInt32) (src target : CString)
  | umount (path : CString)
  | unshare (flags : UInt32)
  | pivotRoot (newRoot oldRoot : CString)
  | other
  deriving DecidableEq

inductive Response where
  | failed (error : Errno)
  | done
  | handle (handle : Nat)
  | count (count : Nat)
  | data (bytes : List UInt8)
  | stat (mode : UInt32)
  | path (path : CString) (linuxCompat : Bool)
  deriving DecidableEq

/-- The requests about paths, which need to know the process they come from. -/
def Request.needsClient : Request → Bool
  | .open _ _ | .resolve _ | .chdir _ | .getcwd | .mount _ _ _ _ | .umount _ | .unshare _ | .pivotRoot _ _ => true
  | .read _ _ | .write _ _ | .readdir _ | .stat _ | .close _ | .lseek _ _ _ | .other => false

/-- What a 32-bit word keeps of a number. -/
def u32 (n : Nat) : Nat := n % 2 ^ 32

/-- The server after its start. -/
def vfsdInit : Server where
  namespaces := Function.update (fun _ => ⟨false, 0, fun _ => .none⟩) 0 vfsdNamespaceSeed
  clients := fun _ => ⟨false, 0, 0, 0, []⟩
  nextNsId := vfsdRootNsId + 1

/-- Changes one client. -/
def Server.setClient (s : Server) (c : Nat) (client : Client) : Server :=
  { s with clients := Function.update s.clients c client }

/-- Changes one namespace. -/
def Server.setNamespace (s : Server) (n : Nat) (ns : Namespace) : Server :=
  { s with namespaces := Function.update s.namespaces n ns }

def vfsdNamespaceFind (s : Server) (nsId : Nat) : Option Nat :=
  (List.range vfsdMaxNamespaces).find? fun n => (s.namespaces n).inUse && (s.namespaces n).nsId == nsId

/-- Takes a namespace that is not in use, and gives it the next number. -/
def vfsdNamespaceAlloc (s : Server) : Server × Option Nat :=
  match (List.range vfsdMaxNamespaces).find? fun n => !(s.namespaces n).inUse with
  | none => (s, none)
  | some n =>
    ({ s.setNamespace n { s.namespaces n with inUse := true, nsId := s.nextNsId } with
        nextNsId := u32 (s.nextNsId + 1) }, some n)

/-- A new namespace with the mounts of another. -/
def vfsdNamespaceClone (s : Server) (srcNsId : Nat) : Server × Option Nat :=
  let src := vfsdNamespaceFind s srcNsId
  match src, vfsdNamespaceAlloc s with
  | some src, (s, some dst) =>
    (s.setNamespace dst ⟨true, u32 (s.nextNsId + 0xFFFFFFFF), (s.namespaces src).mounts⟩, some dst)
  | _, (s, _) => (s, none)

def vfsdClientFind (s : Server) (tgid : Nat) : Option Nat :=
  (List.range vfsdMaxClients).find? fun c => (s.clients c).inUse && (s.clients c).tgid == tgid

def vfsdClientAlloc (s : Server) : Option Nat := (List.range vfsdMaxClients).find? fun c => !(s.clients c).inUse

/-- The record of a process that was not known, with the namespace and directory of its parent's record. -/
def newClient (s : Server) (info : TaskInfo) : Client :=
  match vfsdClientFind s info.parentPid with
  | some parent => ⟨true, info.tgid, info.parentPid, (s.clients parent).nsId, (s.clients parent).cwd⟩
  | none => ⟨true, info.tgid, info.parentPid, vfsdRootNsId, root⟩

/-- The record of the process that a sender belongs to, made now if there was none. -/
def vfsdClientGetOrCreate (taskinfo : Nat → Option TaskInfo) (s : Server) (pid : Nat) : Server × Option Nat :=
  match vfsdClientFind s pid with
  | some c => (s, some c)
  | none =>
    match taskinfo pid with
    | none => (s, none)
    | some info =>
      match vfsdClientFind s info.tgid with
      | some c => (s, some c)
      | none =>
        match vfsdClientAlloc s with
        | none => (s, none)
        | some c => (s.setClient c (newClient s info), some c)

/-- The path a client means. -/
def vfsdClientVirtualPath (s : Server) (c : Nat) (input : CString) : Except Errno CString :=
  vfsdPathNormalize (s.clients c).cwd input vfsdIoBytes

section

variable {σ : Type} (boot : Boot σ) (st : σ) (s : Server) (c : Nat)

/-- The path that a client means and what is behind it. -/
def vfsdClientBackendPath (input : CString) : Option (σ × Except Errno CString) :=
  match vfsdClientVirtualPath s c input with
  | .error _ => some (st, .error .enametoolong)
  | .ok virtualPath =>
    match vfsdNamespaceFind s (s.clients c).nsId with
    | none => some (st, .error .enoent)
    | some n => (vfsdNamespaceResolveExisting boot (s.namespaces n) st virtualPath).map fun r => (r.1, r.2.map (·.1))

/-- Where the files of a new mount are, and whether they are read-only. -/
def vfsdMountBackendFor (fsType : FsType) (src : CString) : Option (σ × Except Errno (CString × Bool)) :=
  match fsType with
  | .bind =>
    if src = [] then some (st, .error .einval)
    else
      match vfsdClientBackendPath boot st s c src with
      | none => none
      | some (st, .error error) => some (st, .error error)
      | some (st, .ok backend) =>
        match vfsdBootPathStat boot st backend with
        | (st, .error error) => some (st, .error error)
        | (st, .ok _) => some (st, .ok (backend, false))
  | .initrd => some (st, .ok (root, true))
  | .devfs => some (st, .ok (dev, false))
  | .procfs => some (st, .ok (proc, true))
  | .ext4Sysroot => some (st, .ok (sysroot, false))
  | .ext4Data => some (st, .ok (if src = sysroot.tail then sysroot else data, false))
  | .other => some (st, .error .einval)

def vfsdClientChdir (path : CString) : Option (σ × Server × Except Errno Unit) :=
  match vfsdClientVirtualPath s c path with
  | .error error => some (st, s, .error error)
  | .ok virtualPath =>
    match vfsdNamespaceFind s (s.clients c).nsId with
    | none => some (st, s, .error .enoent)
    | some n =>
      match vfsdNamespaceResolveExisting boot (s.namespaces n) st virtualPath with
      | none => none
      | some (st, .error error) => some (st, s, .error error)
      | some (st, .ok (backend, _, _)) =>
        match vfsdBootPathStat boot st backend with
        | (st, .error error) => some (st, s, .error error)
        | (st, .ok mode) =>
          if isDir mode = false then some (st, s, .error .enotdir)
          else some (st, s.setClient c { s.clients c with cwd := vfsdStrlcpy virtualPath vfsdIoBytes }, .ok ())

def vfsdClientMount (fsType : FsType) (flags : UInt32) (src target : CString) : Option (σ × Server × Except Errno Unit) :=
  match vfsdPathNormalize (s.clients c).cwd target vfsdIoBytes with
  | .error error => some (st, s, .error error)
  | .ok targetVirtual =>
    if targetVirtual = root then some (st, s, .error .ebusy)
    else
      match vfsdMountBackendFor boot st s c fsType src with
      | none => none
      | some (st, .error error) => some (st, s, .error error)
      | some (st, .ok (backend, readonly)) =>
        match vfsdNamespaceFind s (s.clients c).nsId with
        | none => some (st, s, .error .enoent)
        | some n =>
          match vfsdNamespaceMountAdd (s.namespaces n) targetVirtual backend (readonly || flags &&& msRdonly != 0) false with
          | .error error => some (st, s, .error error)
          | .ok ns => some (st, s.setNamespace n ns, .ok ())

def vfsdClientUmount (path : CString) : Server × Except Errno Unit :=
  match vfsdPathNormalize (s.clients c).cwd path vfsdIoBytes with
  | .error error => (s, .error error)
  | .ok targetVirtual =>
    match vfsdNamespaceFind s (s.clients c).nsId with
    | none => (s, .error .enoent)
    | some n =>
      match vfsdNamespaceUmount (s.namespaces n) targetVirtual with
      | .error error => (s, .error error)
      | .ok ns => (s.setNamespace n ns, .ok ())

def vfsdClientUnshare (flags : UInt32) : Server × Except Errno Unit :=
  if flags ≠ cloneNewns then (s, .error .einval)
  else
    match vfsdNamespaceClone s (s.clients c).nsId with
    | (s, none) => (s, .error .enomem)
    | (s, some n) => (s.setClient c { s.clients c with nsId := (s.namespaces n).nsId }, .ok ())

/-- The new and the old root of a change of root, and the old root as the new one shows it. -/
def pivotPaths (newRoot oldRoot : CString) : Except Errno (CString × CString × CString) := do
  let newVirtual ← vfsdPathNormalize (s.clients c).cwd newRoot vfsdIoBytes
  let oldVirtual ← vfsdPathNormalize (s.clients c).cwd oldRoot vfsdIoBytes
  if newVirtual = root ∨ oldVirtual = root ∨ newVirtual = oldVirtual ∨ vfsdPathHasPrefix oldVirtual newVirtual = false then
    .error .einval
  else
    let oldRebased ← vfsdPathRebaseUnder newVirtual oldVirtual vfsdIoBytes
    if oldRebased = root then .error .einval else .ok (newVirtual, oldVirtual, oldRebased)

/-- Changes the mount at the root, and keeps the old one at another path. -/
def pivotMounts (ns : Namespace) (oldRebased newBackend : CString) : Except Errno Namespace :=
  match vfsdNamespaceMountExact ns root with
  | none => .error .eio
  | some i =>
    if (vfsdNamespaceMountExact ns oldRebased).isSome then .error .ebusy
    else
      match vfsdNamespaceMountAdd ns oldRebased (vfsdStrlcpy (ns.mounts i).backend vfsdPathBytes) (ns.mounts i).readonly
          (ns.mounts i).linuxCompat with
      | .error error => .error error
      | .ok ns =>
        .ok (ns.setMount i
          { ns.mounts i with
            backend := vfsdStrlcpy newBackend vfsdPathBytes
            readonly := vfsdBackendReadonly newBackend })

def vfsdClientPivotRoot (newRoot oldRoot : CString) : Option (σ × Server × Except Errno Unit) :=
  match pivotPaths s c newRoot oldRoot with
  | .error error => some (st, s, .error error)
  | .ok (_, _, oldRebased) =>
    match vfsdClientBackendPath boot st s c newRoot with
    | none => none
    | some (st, .error error) => some (st, s, .error error)
    | some (st, .ok newBackend) =>
      match vfsdBootPathStat boot st newBackend with
      | (st, .error error) => some (st, s, .error error)
      | (st, .ok mode) =>
        if isDir mode = false then some (st, s, .error .enotdir)
        else
          match vfsdNamespaceFind s (s.clients c).nsId with
          | none => some (st, s, .error .enoent)
          | some n =>
            match pivotMounts (s.namespaces n) oldRebased newBackend with
            | .error error => some (st, s, .error error)
            | .ok ns => some (st, (s.setNamespace n ns).setClient c { s.clients c with cwd := root }, .ok ())

/-- Opens a path for a client; a file that may be made is opened behind the mount its path lies on. -/
def serveOpen (path : CString) (flags : UInt32) : Option (σ × Except Errno Nat) :=
  match vfsdClientVirtualPath s c path with
  | .error error => some (st, .error error)
  | .ok virtualPath =>
    match vfsdNamespaceFind s (s.clients c).nsId with
    | none => some (st, .error .enoent)
    | some n =>
      if flags &&& oCreat ≠ 0 then
        match vfsdNamespaceResolve (s.namespaces n) virtualPath with
        | .error error => some (st, .error error)
        | .ok backend => some (boot.openNow st backend flags)
      else vfsdNamespaceOpenExisting boot (s.namespaces n) st virtualPath flags

/-- Looks a path up for a client. -/
def serveResolve (path : CString) : Option (σ × Except Errno (CString × Bool)) :=
  match vfsdClientVirtualPath s c path with
  | .error _ => some (st, .error .enametoolong)
  | .ok virtualPath =>
    match vfsdNamespaceFind s (s.clients c).nsId with
    | none => some (st, .error .enoent)
    | some n =>
      (vfsdNamespaceResolveExisting boot (s.namespaces n) st virtualPath).map fun r =>
        (r.1, r.2.map fun found => (found.1, found.2.2))

/-- The answer that a result stands for. -/
def answer {α : Type} (good : α → Response) : Except Errno α → Response
  | .ok result => good result
  | .error error => .failed error

/-- Serves a request about paths for a client. -/
def serveClient : Request → Option (σ × Server × Response)
  | .open path flags => (serveOpen boot st s c path flags).map fun r => (r.1, s, answer .handle r.2)
  | .resolve path => (serveResolve boot st s c path).map fun r => (r.1, s, answer (fun found => .path found.1 found.2) r.2)
  | .chdir path => (vfsdClientChdir boot st s c path).map fun r => (r.1, r.2.1, answer (fun _ => .done) r.2.2)
  | .getcwd => some (st, s, .path (s.clients c).cwd false)
  | .mount fsType flags src target =>
    (vfsdClientMount boot st s c fsType flags src target).map fun r => (r.1, r.2.1, answer (fun _ => .done) r.2.2)
  | .umount path => some (st, (vfsdClientUmount s c path).1, answer (fun _ => .done) (vfsdClientUmount s c path).2)
  | .unshare flags => some (st, (vfsdClientUnshare s c flags).1, answer (fun _ => .done) (vfsdClientUnshare s c flags).2)
  | .pivotRoot newRoot oldRoot =>
    (vfsdClientPivotRoot boot st s c newRoot oldRoot).map fun r => (r.1, r.2.1, answer (fun _ => .done) r.2.2)
  | .read _ _ | .write _ _ | .readdir _ | .stat _ | .close _ | .lseek _ _ _ | .other => some (st, s, .failed .enosys)

/-- Serves a request about an open handle. -/
def serveHandle : Request → σ × Response
  | .read handle count =>
    match boot.readNow st handle (min count vfsdIoBytes) with
    | (st, result) => (st, answer .data result)
  | .write handle data =>
    match boot.writeNow st handle (data.take vfsdIoBytes) with
    | (st, result) => (st, answer .count result)
  | .readdir handle =>
    match boot.readdirNow st handle with
    | (st, result) => (st, answer .data result)
  | .stat handle =>
    match boot.statNow st handle with
    | (st, result) => (st, answer .stat result)
  | .close handle =>
    match boot.closeNow st handle with
    | (st, result) => (st, answer (fun _ => .done) result)
  | .lseek handle offset whence =>
    match boot.lseekNow st handle offset whence with
    | (st, result) => (st, answer .count result)
  | _ => (st, .failed .enosys)

/-- One turn of the server's loop, for a request and its sender; `none` where it does not come to an end. -/
def serve (taskinfo : Nat → Option TaskInfo) (sender : Nat) (request : Request) : Option (σ × Server × Response) :=
  if request.needsClient = true then
    match vfsdClientGetOrCreate taskinfo s sender with
    | (s, none) => some (st, s, .failed .enomem)
    | (s, some c) => serveClient boot st s c request
  else
    match serveHandle boot st request with
    | (st, response) => some (st, s, response)

end

end Enlil.Vfsd
