import Enlil.Sched.Lineage
import Enlil.Vfsd.Effects

/-! The processes that the server knows, and the namespace and directory it uses for each of them. -/

namespace Enlil.Vfsd

open Enlil.Vfs (CString)

/-- The namespace and the directory that paths of a process are taken from. -/
structure View where
  nsId : Nat
  cwd : CString
  deriving DecidableEq

/-- A view after a request of its own process was done; a namespace that is made gets a fresh number. -/
def View.moved (view : View) (fresh : Nat) : Request → View
  | .chdir path =>
    match vfsdPathNormalize view.cwd path vfsdIoBytes with
    | .ok cwd => { view with cwd := cwd }
    | .error _ => view
  | .unshare _ => { view with nsId := fresh }
  | .pivotRoot _ _ => { view with cwd := root }
  | _ => view

/-- The view of a process that takes none over. -/
def View.first : View := ⟨vfsdRootNsId, root⟩

/-- What the server is for: views of processes, in the order of their first requests, and the mounts of namespaces. -/
structure Model where
  known : List Nat
  views : Nat → View
  tables : Nat → Nat → NsMount
  next : Nat

def Model.init : Model where
  known := []
  views := fun _ => .first
  tables := fun _ => vfsdNamespaceSeed.mounts
  next := vfsdRootNsId + 1

/-- The processes that found room. -/
def Model.served (m : Model) : List Nat := m.known.take vfsdMaxClients

/-- The process a sender is taken for, which is its own as long as it has not ended. -/
def Model.process (m : Model) (taskinfo : Nat → Option TaskInfo) (pid : Nat) : Option TaskInfo :=
  if pid ∈ m.served then some ⟨pid, 0⟩ else taskinfo pid

/-- The first request of a process gives it the view its parent has then. -/
def Model.meet (m : Model) (info : TaskInfo) : Model :=
  if info.tgid ∈ m.known then m
  else
    { m with
      known := m.known ++ [info.tgid]
      views := Function.update m.views info.tgid
        (if info.parentPid ∈ m.served then m.views info.parentPid else .first) }

/-- A request that is done changes the view of its process, and the mounts of no other namespace than its own. -/
def Model.change (m : Model) (p : Nat) (table : Nat → Nat → NsMount) (request : Request) : Model :=
  { m with
    views := Function.update m.views p ((m.views p).moved m.next request)
    tables :=
      match request with
      | .unshare _ => Function.update m.tables m.next (m.tables (m.views p).nsId)
      | .mount _ _ _ _ | .umount _ | .pivotRoot _ _ =>
        Function.update m.tables (m.views p).nsId (table (m.views p).nsId)
      | _ => m.tables
    next :=
      match request with
      | .unshare _ => m.next + 1
      | _ => m.next }

/-- What a request and its answer come to. -/
def Model.request (m : Model) (taskinfo : Nat → Option TaskInfo) (sender : Nat) (table : Nat → Nat → NsMount)
    (request : Request) (response : Response) : Model :=
  if request.needsClient = false then m
  else
    match m.process taskinfo sender with
    | none => m
    | some info => if response = .done then (m.meet info).change info.tgid table request else m.meet info

/-- The mounts of the namespace with a number. -/
def tableOf (s : Server) (nsId : Nat) : Nat → NsMount :=
  match vfsdNamespaceFind s nsId with
  | some n => (s.namespaces n).mounts
  | none => fun _ => .none

/-- The server knows just what the model says. -/
structure Matches (s : Server) (m : Model) : Prop where
  nodup : m.known.Nodup
  record : ∀ c < vfsdMaxClients, ∀ p, m.known[c]? = some p → (s.clients c).inUse = true ∧ (s.clients c).tgid = p ∧
    (s.clients c).nsId = (m.views p).nsId ∧ (s.clients c).cwd = (m.views p).cwd
  free : ∀ c < vfsdMaxClients, m.known[c]? = none → (s.clients c).inUse = false
  next : s.nextNsId = m.next
  begun : vfsdRootNsId < m.next
  room : m.next ≤ vfsdMaxNamespaces + 1
  space : ∀ n, n + 1 < m.next → (s.namespaces n).inUse = true ∧ (s.namespaces n).nsId = n + 1 ∧
    (s.namespaces n).mounts = m.tables (n + 1)
  unused : ∀ n < vfsdMaxNamespaces, m.next ≤ n + 1 → (s.namespaces n).inUse = false
  view : ∀ p ∈ m.served, 0 < (m.views p).nsId ∧ (m.views p).nsId < m.next

section

variable {s s' : Server} {m : Model} {p c n : Nat}

theorem mem_served : p ∈ m.served ↔ ∃ c < vfsdMaxClients, m.known[c]? = some p := by
  rw [Model.served, List.mem_iff_getElem?]
  constructor
  · rintro ⟨c, found⟩
    rw [List.getElem?_take] at found
    split at found
    · exact ⟨c, ‹_›, found⟩
    · cases found
  · rintro ⟨c, inside, found⟩
    exact ⟨c, by rw [List.getElem?_take, if_pos inside, found]⟩

theorem vfsdClientFind_some (found : vfsdClientFind s p = some c) :
    c < vfsdMaxClients ∧ (s.clients c).inUse = true ∧ (s.clients c).tgid = p := by
  have inside := List.mem_of_find?_eq_some found
  have used := List.find?_some found
  simp only [Bool.and_eq_true, beq_iff_eq] at used
  exact ⟨List.mem_range.mp inside, used⟩

theorem Matches.find (same : Matches s m) (mem : p ∈ m.served) :
    ∃ c < vfsdMaxClients, vfsdClientFind s p = some c ∧ m.known[c]? = some p := by
  obtain ⟨c, inside, at_⟩ := mem_served.mp mem
  have used := same.record c inside p at_
  cases found : vfsdClientFind s p with
  | none =>
    have missing := List.find?_eq_none.mp found c (List.mem_range.mpr inside)
    simp [used] at missing
  | some d =>
    obtain ⟨inside', used', own⟩ := vfsdClientFind_some found
    cases there : m.known[d]? with
    | none =>
      rw [same.free d inside' there] at used'
      cases used'
    | some q =>
      rw [(same.record d inside' q there).2.1] at own
      exact ⟨d, inside', rfl, own ▸ there⟩

theorem Matches.find_none (same : Matches s m) (unknown : p ∉ m.served) : vfsdClientFind s p = none := by
  cases found : vfsdClientFind s p with
  | none => rfl
  | some c =>
    obtain ⟨inside, used, own⟩ := vfsdClientFind_some found
    cases there : m.known[c]? with
    | none =>
      rw [same.free c inside there] at used
      cases used
    | some q =>
      rw [(same.record c inside q there).2.1] at own
      exact absurd (mem_served.mpr ⟨c, inside, own ▸ there⟩) unknown

theorem find_range_from {count first : Nat} {free : Nat → Bool} (from_first : ∀ i < count, free i = decide (first ≤ i)) :
    (List.range count).find? free = if first < count then some first else none := by
  split
  · rename_i room
    rw [List.find?_range_eq_some]
    refine ⟨by simp [from_first first room], List.mem_range.mpr room, fun i before => ?_⟩
    simp [from_first i (before.trans room), before]
  · rename_i full
    rw [List.find?_eq_none]
    intro i inside
    have small := List.mem_range.mp inside
    simp [from_first i small]
    omega

theorem Matches.alloc (same : Matches s m) :
    vfsdClientAlloc s = if m.known.length < vfsdMaxClients then some m.known.length else none := by
  refine find_range_from fun c inside => ?_
  cases there : m.known[c]? with
  | none =>
    have past := List.getElem?_eq_none_iff.mp there
    simp [same.free c inside there, past]
  | some q =>
    have taken := (List.getElem?_eq_some_iff.mp there).1
    simp [(same.record c inside q there).1, taken]

theorem Matches.namespaceFind (same : Matches s m) {nsId : Nat} (positive : 0 < nsId) (made : nsId < m.next) :
    ∃ n, nsId = n + 1 ∧ n < vfsdMaxNamespaces ∧ vfsdNamespaceFind s nsId = some n := by
  obtain ⟨n, rfl⟩ := Nat.exists_eq_succ_of_ne_zero positive.ne'
  have room := same.room
  refine ⟨n, rfl, by omega, ?_⟩
  obtain ⟨used, own, _⟩ := same.space n made
  rw [vfsdNamespaceFind, List.find?_range_eq_some]
  refine ⟨by simp [used, own], List.mem_range.mpr (by omega), fun i before => ?_⟩
  obtain ⟨_, other, _⟩ := same.space i (by omega)
  simp [other]
  omega

theorem Matches.tableOf (same : Matches s m) {nsId : Nat} (positive : 0 < nsId) (made : nsId < m.next) :
    Vfsd.tableOf s nsId = m.tables nsId := by
  obtain ⟨n, rfl, _, found⟩ := same.namespaceFind positive made
  rw [Vfsd.tableOf, found]
  exact (same.space n made).2.2

theorem Matches.newClient (same : Matches s m) (info : TaskInfo) :
    (Vfsd.newClient s info).inUse = true ∧ (Vfsd.newClient s info).tgid = info.tgid ∧
      (Vfsd.newClient s info).nsId = (if info.parentPid ∈ m.served then m.views info.parentPid else .first).nsId ∧
      (Vfsd.newClient s info).cwd = (if info.parentPid ∈ m.served then m.views info.parentPid else .first).cwd := by
  by_cases mem : info.parentPid ∈ m.served
  · obtain ⟨c, inside, found, there⟩ := same.find mem
    obtain ⟨_, _, nsId, cwd⟩ := same.record c inside _ there
    simp [Vfsd.newClient, found, mem, nsId, cwd]
  · simp [Vfsd.newClient, same.find_none mem, mem, View.first]

theorem Matches.meet_full (same : Matches s m) (info : TaskInfo) (unknown : info.tgid ∉ m.served)
    (full : vfsdMaxClients ≤ m.known.length) : Matches s (m.meet info) ∧ (m.meet info).served = m.served := by
  unfold Model.meet
  split
  · exact ⟨same, rfl⟩
  rename_i fresh
  have served : ({ m with
      known := m.known ++ [info.tgid]
      views := Function.update m.views info.tgid
        (if info.parentPid ∈ m.served then m.views info.parentPid else .first) } : Model).served = m.served := by
    simp [Model.served, List.take_append_of_le_length full]
  refine ⟨⟨?_, fun c inside p there => ?_, fun c inside there => ?_, same.next, same.begun, same.room, same.space, same.unused,
    fun p mem => ?_⟩, served⟩
  · exact List.nodup_append.mpr ⟨same.nodup, List.nodup_singleton _, fun p mem q last => by
      rw [List.mem_singleton.mp last]
      exact fun own => fresh (own ▸ mem)⟩
  · dsimp only at there
    rw [List.getElem?_append_left (by omega)] at there
    have other : p ≠ info.tgid := fun own => unknown (own ▸ mem_served.mpr ⟨c, inside, there⟩)
    dsimp only
    rw [Function.update_of_ne other]
    exact same.record c inside p there
  · dsimp only at there
    rw [List.getElem?_append_left (by omega)] at there
    exact same.free c inside there
  · rw [served] at mem
    have other : p ≠ info.tgid := fun own => unknown (own ▸ mem)
    dsimp only
    rw [Function.update_of_ne other]
    exact same.view p mem

theorem Matches.meet_room (same : Matches s m) (info : TaskInfo) (unknown : info.tgid ∉ m.served)
    (room : m.known.length < vfsdMaxClients) :
    (m.meet info).known[m.known.length]? = some info.tgid ∧
      Matches (s.setClient m.known.length (Vfsd.newClient s info)) (m.meet info) := by
  have fresh : info.tgid ∉ m.known := by
    rwa [Model.served, List.take_of_length_le (by omega)] at unknown
  unfold Model.meet
  rw [if_neg fresh]
  refine ⟨by simp, ?_, fun c inside p there => ?_, fun c inside there => ?_, same.next, same.begun, same.room, same.space,
    same.unused, fun p mem => ?_⟩
  · exact List.nodup_append.mpr ⟨same.nodup, List.nodup_singleton _, fun p mem q last => by
      rw [List.mem_singleton.mp last]
      exact fun own => fresh (own ▸ mem)⟩
  · dsimp only at there
    by_cases last : c = m.known.length
    · subst last
      rw [List.getElem?_concat_length] at there
      cases there
      simpa [Server.setClient] using same.newClient info
    · have before : c < m.known.length := by
        have small := (List.getElem?_eq_some_iff.mp there).1
        simp at small
        omega
      rw [List.getElem?_append_left before] at there
      have other : p ≠ info.tgid := fun own => fresh (own ▸ List.mem_of_getElem? there)
      simp only [Server.setClient, Function.update_of_ne last, Function.update_of_ne other]
      exact same.record c inside p there
  · have past := List.getElem?_eq_none_iff.mp there
    simp at past
    rw [Server.setClient]
    dsimp only
    rw [Function.update_of_ne (by omega)]
    exact same.free c inside (List.getElem?_eq_none_iff.mpr (by omega))
  · dsimp only
    by_cases own : p = info.tgid
    · subst own
      rw [Function.update_self]
      split
      · exact same.view _ ‹_›
      · exact ⟨by decide, same.begun⟩
    · rw [Function.update_of_ne own]
      refine same.view p ?_
      obtain ⟨c, inside, there⟩ := mem_served.mp mem
      dsimp only at there
      by_cases last : c = m.known.length
      · subst last
        rw [List.getElem?_concat_length] at there
        exact absurd (Option.some.inj there).symm own
      · have before : c < m.known.length := by
          have small := (List.getElem?_eq_some_iff.mp there).1
          simp at small
          omega
        rw [List.getElem?_append_left before] at there
        exact mem_served.mpr ⟨c, inside, there⟩

theorem Matches.getOrCreate (same : Matches s m) (taskinfo : Nat → Option TaskInfo) (pid : Nat) :
    match m.process taskinfo pid, vfsdClientGetOrCreate taskinfo s pid with
    | none, (s', result) => s' = s ∧ result = none
    | some info, (s', none) => Matches s' (m.meet info) ∧ info.tgid ∉ (m.meet info).served
    | some info, (s', some c) => Matches s' (m.meet info) ∧ c < vfsdMaxClients ∧ (m.meet info).known[c]? = some info.tgid := by
  have old : ∀ {info : TaskInfo} {c : Nat}, m.known[c]? = some info.tgid → m.meet info = m := fun there => by
    rw [Model.meet, if_pos (List.mem_of_getElem? there)]
  unfold Model.process vfsdClientGetOrCreate
  by_cases known : pid ∈ m.served
  · obtain ⟨c, inside, found, there⟩ := same.find known
    have kept : m.meet ⟨pid, 0⟩ = m := old there
    simp only [if_pos known, found, kept]
    exact ⟨same, inside, there⟩
  · simp only [if_neg known, same.find_none known]
    cases taskinfo pid with
    | none => exact ⟨rfl, rfl⟩
    | some info =>
      by_cases known' : info.tgid ∈ m.served
      · obtain ⟨c, inside, found, there⟩ := same.find known'
        simp only [found, old there]
        exact ⟨same, inside, there⟩
      · simp only [same.find_none known', same.alloc]
        by_cases room : m.known.length < vfsdMaxClients
        · obtain ⟨there, met⟩ := same.meet_room info known' room
          simp only [if_pos room]
          exact ⟨met, room, there⟩
        · obtain ⟨met, served⟩ := same.meet_full info known' (by omega)
          simp only [if_neg room]
          exact ⟨met, served ▸ known'⟩

theorem Matches.setView (same : Matches s m) (inside : c < vfsdMaxClients) (there : m.known[c]? = some p) (client : Client)
    (view : View) (used : client.inUse = true) (own : client.tgid = p) (nsId : client.nsId = view.nsId)
    (cwd : client.cwd = view.cwd) (positive : 0 < view.nsId) (made : view.nsId < m.next) :
    Matches (s.setClient c client) { m with views := Function.update m.views p view } := by
  refine ⟨same.nodup, fun d inside' q there' => ?_, fun d inside' there' => ?_, same.next, same.begun, same.room, same.space,
    same.unused, fun q mem => ?_⟩
  · by_cases place : d = c
    · subst place
      cases there.symm.trans there'
      simp [Server.setClient, used, own, nsId, cwd]
    · have other : q ≠ p := by
        rintro rfl
        exact place ((List.getElem?_inj (List.getElem?_eq_some_iff.mp there').1 same.nodup).mp (there'.trans there.symm))
      simp only [Server.setClient, Function.update_of_ne place, Function.update_of_ne other]
      exact same.record d inside' q there'
  · have other : d ≠ c := by
      rintro rfl
      cases there.symm.trans there'
    simp only [Server.setClient, Function.update_of_ne other]
    exact same.free d inside' there'
  · by_cases own' : q = p
    · subst own'
      simpa using ⟨positive, made⟩
    · simp only [Function.update_of_ne own']
      exact same.view q mem

theorem Matches.setTable (same : Matches s m) (made : n + 1 < m.next) {ns : Namespace} (used : ns.inUse = true)
    (own : ns.nsId = n + 1) :
    Matches (s.setNamespace n ns) { m with tables := Function.update m.tables (n + 1) ns.mounts } := by
  refine ⟨same.nodup, same.record, same.free, same.next, same.begun, same.room, fun i before => ?_, fun i inside past => ?_,
    same.view⟩
  · by_cases place : i = n
    · subst place
      simp [Server.setNamespace, used, own]
    · have other : i + 1 ≠ n + 1 := by omega
      simp only [Server.setNamespace, Function.update_of_ne place, Function.update_of_ne other]
      exact same.space i before
  · have other : i ≠ n := by
      rintro rfl
      dsimp only at past
      omega
    simp only [Server.setNamespace, Function.update_of_ne other]
    exact same.unused i inside past

theorem Matches.alloc_namespace (same : Matches s m) :
    ((List.range vfsdMaxNamespaces).find? fun n => !(s.namespaces n).inUse) =
      if m.next - 1 < vfsdMaxNamespaces then some (m.next - 1) else none := by
  have begun := same.begun
  refine find_range_from fun n inside => ?_
  by_cases before : n + 1 < m.next
  · rw [(same.space n before).1]
    simp
    omega
  · rw [same.unused n inside (by omega)]
    simp
    omega

theorem u32_small {k : Nat} (small : k < 2 ^ 32) : u32 k = k := Nat.mod_eq_of_lt small

theorem u32_pred {k : Nat} (small : k < 2 ^ 32) : u32 (k + 1 + 0xFFFFFFFF) = k := by
  unfold u32
  omega

theorem Matches.clone_eq (same : Matches s m) (made : n + 1 < m.next) (room : m.next ≤ vfsdMaxNamespaces) :
    vfsdNamespaceClone s (n + 1) =
      ({ s.setNamespace (m.next - 1) ⟨true, m.next, m.tables (n + 1)⟩ with nextNsId := m.next + 1 }, some (m.next - 1)) := by
  have begun := same.begun
  have small : m.next + 1 < 2 ^ 32 := by
    unfold vfsdMaxNamespaces at room
    omega
  obtain ⟨_, own, _, found⟩ := same.namespaceFind (Nat.succ_pos n) made
  cases own
  have apart : n ≠ m.next - 1 := by omega
  rw [vfsdNamespaceClone, found, vfsdNamespaceAlloc, same.alloc_namespace, if_pos (by omega)]
  simp only [same.next, u32_small small, u32_pred (Nat.lt_of_succ_lt small)]
  simp [Server.setNamespace, Function.update_of_ne apart, (same.space n made).2.2]

theorem Matches.clone (same : Matches s m) {nsId : Nat} (positive : 0 < nsId) (made : nsId < m.next) {s' : Server} :
    (vfsdNamespaceClone s nsId = (s', none) → s' = s) ∧
      (∀ n, vfsdNamespaceClone s nsId = (s', some n) → (s'.namespaces n).nsId = m.next ∧ s'.clients = s.clients ∧
        Matches s' { m with tables := Function.update m.tables m.next (m.tables nsId), next := m.next + 1 }) := by
  have begun := same.begun
  obtain ⟨src, rfl, small, found⟩ := same.namespaceFind positive made
  by_cases room : m.next ≤ vfsdMaxNamespaces
  · rw [same.clone_eq made room]
    refine ⟨fun failed => by simp at failed, fun n cloned => ?_⟩
    simp only [Prod.mk.injEq, Option.some.injEq] at cloned
    obtain ⟨rfl, rfl⟩ := cloned
    refine ⟨by simp [Server.setNamespace], rfl, same.nodup, same.record, same.free, rfl, begun.trans (Nat.lt_succ_self _),
      Nat.succ_le_succ room, fun i before => ?_, fun i inside past => ?_, fun q mem => ?_⟩
    · dsimp only at before
      by_cases last : i = m.next - 1
      · subst last
        have own : m.next - 1 + 1 = m.next := by omega
        simp [Server.setNamespace, own]
      · have other : i + 1 ≠ m.next := by omega
        simp only [Server.setNamespace, Function.update_of_ne last, Function.update_of_ne other]
        exact same.space i (by omega)
    · dsimp only at past
      have last : i ≠ m.next - 1 := by omega
      simp only [Server.setNamespace, Function.update_of_ne last]
      exact same.unused i inside (by omega)
    · have before := same.view q mem
      exact ⟨before.1, before.2.trans (Nat.lt_succ_self _)⟩
  · have full : vfsdNamespaceClone s (src + 1) = (s, none) := by
      rw [vfsdNamespaceClone, found, vfsdNamespaceAlloc, same.alloc_namespace, if_neg (by omega)]
    rw [full]
    exact ⟨fun failed => (congrArg Prod.fst failed).symm, fun n cloned => by simp at cloned⟩

theorem mountAdd_frame {ns ns' : Namespace} {mountAt backend : CString} {readonly linuxCompat : Bool}
    (added : vfsdNamespaceMountAdd ns mountAt backend readonly linuxCompat = .ok ns') :
    ns'.inUse = ns.inUse ∧ ns'.nsId = ns.nsId := by
  unfold vfsdNamespaceMountAdd at added
  split at added
  · cases added
  · split at added
    · cases added
    · cases added
      exact ⟨rfl, rfl⟩

theorem umount_frame {ns ns' : Namespace} {mountAt : CString} (removed : vfsdNamespaceUmount ns mountAt = .ok ns') :
    ns'.inUse = ns.inUse ∧ ns'.nsId = ns.nsId := by
  unfold vfsdNamespaceUmount at removed
  repeat' split at removed
  all_goals cases removed
  exact ⟨rfl, rfl⟩

theorem pivotMounts_frame {ns ns' : Namespace} {oldRebased newBackend : CString}
    (pivoted : pivotMounts ns oldRebased newBackend = .ok ns') : ns'.inUse = ns.inUse ∧ ns'.nsId = ns.nsId := by
  unfold pivotMounts at pivoted
  split at pivoted
  · cases pivoted
  · split at pivoted
    · cases pivoted
    · split at pivoted
      · cases pivoted
      · rename_i added
        have frame := mountAdd_frame added
        cases pivoted
        exact frame

theorem Matches.changeTable (same : Matches s m) {nsId : Nat} (positive : 0 < nsId) (made : nsId < m.next)
    (found : vfsdNamespaceFind s nsId = some n) {ns : Namespace}
    (frame : ns.inUse = (s.namespaces n).inUse ∧ ns.nsId = (s.namespaces n).nsId) :
    Matches (s.setNamespace n ns)
      { m with tables := Function.update m.tables nsId (Vfsd.tableOf (s.setNamespace n ns) nsId) } := by
  obtain ⟨i, rfl, _, found'⟩ := same.namespaceFind positive made
  cases found.symm.trans found'
  obtain ⟨used, own, _⟩ := same.space n made
  have changed := same.setTable made (frame.1.trans used) (frame.2.trans own)
  have table := changed.tableOf (Nat.succ_pos n) made
  rw [table]
  simpa using changed

theorem Model.views_self (m : Model) (p : Nat) : { m with views := Function.update m.views p (m.views p) } = m := by
  rw [Function.update_eq_self]

theorem Matches.effect (same : Matches s m) (inside : c < vfsdMaxClients) (there : m.known[c]? = some p)
    {request : Request} {response : Response} (needs : request.needsClient = true)
    (effect : Effect s c request response s') :
    Matches s' (if response = .done then m.change p (Vfsd.tableOf s') request else m) := by
  obtain ⟨used, own, nsId, cwd⟩ := same.record c inside p there
  obtain ⟨positive, made⟩ := same.view p (mem_served.mpr ⟨c, inside, there⟩)
  cases effect with
  | nothing undone =>
    split
    · rename_i done
      -- A request that is done and changes nothing is none of those that change the model.
      have still : m.change p (Vfsd.tableOf s) request = m := by
        cases request with
        | chdir path | mount fsType flags src target | umount path | unshare flags | pivotRoot newRoot oldRoot =>
          exact absurd done (undone rfl)
        | _ => exact m.views_self p
      rw [still]
      exact same
    · exact same
  | unshareFailed cloned =>
    rw [nsId] at cloned
    rw [if_neg (by simp), (same.clone positive made).1 cloned]
    exact same
  | chdir normalized =>
    rename_i virtualPath
    rw [cwd] at normalized
    rw [if_pos rfl]
    have moved := same.setView inside there
      ⟨(s.clients c).inUse, (s.clients c).tgid, (s.clients c).parentPid, (s.clients c).nsId, virtualPath⟩
      ⟨(m.views p).nsId, virtualPath⟩
      used own nsId rfl positive made
    simpa only [Model.change, View.moved, normalized] using moved
  | mount normalized below found added =>
    rw [nsId] at found
    rw [if_pos rfl]
    have kept := same.changeTable positive made found (mountAdd_frame added)
    simpa only [Model.change, View.moved, Function.update_eq_self] using kept
  | umount normalized found removed =>
    rw [nsId] at found
    rw [if_pos rfl]
    have kept := same.changeTable positive made found (umount_frame removed)
    simpa only [Model.change, View.moved, Function.update_eq_self] using kept
  | unshare cloned =>
    rw [nsId] at cloned
    obtain ⟨number, clients, copied⟩ := (same.clone positive made).2 _ cloned
    rw [if_pos rfl, number, clients]
    exact copied.setView inside there
      ⟨(s.clients c).inUse, (s.clients c).tgid, (s.clients c).parentPid, m.next, (s.clients c).cwd⟩
      ⟨m.next, (m.views p).cwd⟩
      used own rfl cwd (Nat.zero_lt_of_lt same.begun) (Nat.lt_succ_self _)
  | pivotRoot paths found pivoted =>
    rw [nsId] at found
    rw [if_pos rfl]
    have kept := same.changeTable positive made found (pivotMounts_frame pivoted)
    exact kept.setView inside there
      ⟨(s.clients c).inUse, (s.clients c).tgid, (s.clients c).parentPid, (s.clients c).nsId, root⟩
      ⟨(m.views p).nsId, root⟩
      used own nsId rfl positive made

theorem Matches.serve (same : Matches s m) {σ : Type} {boot : Boot σ} {st st' : σ} {taskinfo : Nat → Option TaskInfo}
    {sender : Nat} {request : Request} {response : Response}
    (served : Vfsd.serve boot st s taskinfo sender request = some (st', s', response)) :
    Matches s' (m.request taskinfo sender (Vfsd.tableOf s') request response) := by
  have met := same.getOrCreate taskinfo sender
  rcases serve_effect served with ⟨needs, rfl⟩ | ⟨needs, s'', got, rfl, rfl⟩ | ⟨needs, s'', c, got, effect⟩
  · rw [Model.request, if_pos needs]
    exact same
  · rw [got] at met
    rw [Model.request, if_neg (by simp [needs])]
    cases process : m.process taskinfo sender with
    | none =>
      rw [process] at met
      exact met.1 ▸ same
    | some info =>
      rw [process] at met
      simpa using met.1
  · rw [got] at met
    rw [Model.request, if_neg (by simp [needs])]
    cases process : m.process taskinfo sender with
    | none =>
      rw [process] at met
      cases met.2
    | some info =>
      rw [process] at met
      obtain ⟨met, inside, there⟩ := met
      exact met.effect inside there needs effect

theorem vfsdInit_matches : Matches vfsdInit .init := by
  refine ⟨List.nodup_nil, fun c _ p there => ?_, fun c _ _ => rfl, rfl, by decide, by decide, fun n before => ?_,
    fun n _ past => ?_, fun p mem => ?_⟩
  · simp [Model.init] at there
  · have first : n = 0 := by
      simp only [Model.init, vfsdRootNsId] at before
      omega
    subst first
    exact ⟨rfl, rfl, rfl⟩
  · have later : n ≠ 0 := by
      rintro rfl
      simp [Model.init, vfsdRootNsId] at past
    simp [vfsdInit, later]
  · simp [Model.served, Model.init] at mem

end

end Enlil.Vfsd
