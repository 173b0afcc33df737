import Enlil.Vfsd.Processes

/-! The mounts of every namespace: where they are, and which of them a path is looked up on. -/

namespace Enlil.Vfsd

open Enlil.SlashPath
open Enlil.Vfs (CString)

/-- A path is another one or lies above it, name by name. -/
def Above (path below : CString) : Prop :=
  ∃ names others, Proper names ∧ Proper others ∧ path = render names ∧ below = render others ∧ names <+: others

/-- A slot of the mount table that holds a mount. -/
def Namespace.Active (ns : Namespace) (i : Nat) : Prop := i < vfsdMaxNsMounts ∧ (ns.mounts i).active = true

instance (ns : Namespace) (i : Nat) : Decidable (ns.Active i) := inferInstanceAs (Decidable (_ ∧ _))

/-- The mounts of a namespace lie at the paths that were asked for, each at one of its own. -/
structure Mounted (ns : Namespace) (targets : Nat → CString) : Prop where
  normal : ∀ i, ns.Active i → Normal (ns.mounts i).mountAt
  asked : ∀ i, ns.Active i → (ns.mounts i).mountAt = targets i
  distinct : ∀ i j, ns.Active i → ns.Active j → (ns.mounts i).mountAt = (ns.mounts j).mountAt → i = j

/--
What holds of the mounts of a namespace.

Each is found again at the path that was asked for, a path is looked up on the mount with the longest path above it,
and no mount lies below one that is taken away.
-/
structure Resolves (ns : Namespace) (targets : Nat → CString) : Prop extends Mounted ns targets where
  found : ∀ i, ns.Active i → vfsdNamespaceMountExact ns (targets i) = some i
  umounted : ∀ i, ns.Active i → vfsdNamespaceUmount ns (targets i) = .error .ebusy ∨
    vfsdNamespaceUmount ns (targets i) = .ok (ns.setMount i .none)
  longest : ∀ path, Normal path → ∀ i, vfsdNamespaceMountBest ns path = some i ↔
    ns.Active i ∧ Above (ns.mounts i).mountAt path ∧
      ∀ j, ns.Active j → Above (ns.mounts j).mountAt path → j ≠ i →
        (ns.mounts j).mountAt.length < (ns.mounts i).mountAt.length
  empty : ∀ path, Normal path → ∀ ns', vfsdNamespaceUmount ns path = .ok ns' →
    ∀ j, ns.Active j → Above path (ns.mounts j).mountAt → (ns.mounts j).mountAt = path

section

variable {ns ns' : Namespace} {targets : Nat → CString} {path mountAt backend : CString} {i : Nat}

theorem above_iff {path below : CString} (normal : Normal path) (normal' : Normal below) :
    vfsdPathHasPrefix below path = true ↔ Above path below := by
  obtain ⟨names, proper, rfl⟩ := normal
  obtain ⟨others, proper', rfl⟩ := normal'
  rw [hasPrefix_render proper.plain proper'.plain]
  constructor
  · exact fun front => ⟨names, others, proper, proper', rfl, rfl, front⟩
  · rintro ⟨names', others', good, good', same, same', front⟩
    rw [render_inj proper.plain good.plain same, render_inj proper'.plain good'.plain same']
    exact front

theorem above_length {path other below : CString} (front : Above path below) (front' : Above other below)
    (length : path.length = other.length) : path = other := by
  obtain ⟨names, others, proper, proper', rfl, rfl, front⟩ := front
  obtain ⟨names', others', good, good', rfl, same, front'⟩ := front'
  cases render_inj proper'.plain good'.plain same
  by_contra apart
  -- Of the two lists of names one begins the other, and has a shorter text.
  rcases List.prefix_or_prefix_of_prefix front front' with shorter | shorter
  · have less := render_length_lt good.plain shorter fun same => apart (congrArg render same)
    exact absurd length less.ne
  · have less := render_length_lt proper.plain shorter fun same => apart (congrArg render same.symm)
    exact absurd length less.ne'

theorem mountExact_some (found : vfsdNamespaceMountExact ns mountAt = some i) :
    ns.Active i ∧ (ns.mounts i).mountAt = mountAt := by
  have inside := List.mem_range.mp (List.mem_of_find?_eq_some found)
  have there := List.find?_some found
  simp only [Bool.and_eq_true, beq_iff_eq] at there
  exact ⟨⟨inside, there.1⟩, there.2⟩

theorem mountExact_none (missing : vfsdNamespaceMountExact ns mountAt = none) {j : Nat} (active : ns.Active j) :
    (ns.mounts j).mountAt ≠ mountAt := by
  have other := List.find?_eq_none.mp missing j (List.mem_range.mpr active.1)
  simpa [active.2] using other

theorem mem_candidates {exclude : Option Nat} : i ∈ candidates ns path exclude ↔
    ns.Active i ∧ some i ≠ exclude ∧ vfsdPathHasPrefix path (ns.mounts i).mountAt = true := by
  simp only [candidates, List.mem_filter, List.mem_range, Bool.and_eq_true, bne_iff_ne, Namespace.Active]
  tauto

theorem best_longest {exclude : Option Nat} (best : vfsdNamespaceMountBestExcluding ns path exclude = some i) {j : Nat}
    (mem : j ∈ candidates ns path exclude) : (ns.mounts j).mountAt.length ≤ (ns.mounts i).mountAt.length :=
  List.le_of_mem_argmax (f := fun i => (ns.mounts i).mountAt.length) mem (Option.mem_def.mpr best)

theorem Mounted.exact_found (mounted : Mounted ns targets) (active : ns.Active i) :
    vfsdNamespaceMountExact ns (targets i) = some i := by
  cases found : vfsdNamespaceMountExact ns (targets i) with
  | none => exact absurd (mounted.asked i active) (mountExact_none found active)
  | some j =>
    obtain ⟨active', same⟩ := mountExact_some found
    rw [mounted.distinct j i active' active (same.trans (mounted.asked i active).symm)]

theorem Mounted.best_iff (mounted : Mounted ns targets) (normal : Normal path) :
    vfsdNamespaceMountBest ns path = some i ↔ ns.Active i ∧ Above (ns.mounts i).mountAt path ∧
      ∀ j, ns.Active j → Above (ns.mounts j).mountAt path → j ≠ i →
        (ns.mounts j).mountAt.length < (ns.mounts i).mountAt.length := by
  have candidate : ∀ j, j ∈ candidates ns path none ↔ ns.Active j ∧ Above (ns.mounts j).mountAt path := by
    intro j
    rw [mem_candidates]
    constructor
    · rintro ⟨active, _, front⟩
      exact ⟨active, (above_iff (mounted.normal j active) normal).mp front⟩
    · rintro ⟨active, front⟩
      exact ⟨active, nofun, (above_iff (mounted.normal j active) normal).mpr front⟩
  have shorter : ∀ k j, ns.Active k → ns.Active j → Above (ns.mounts k).mountAt path → Above (ns.mounts j).mountAt path →
      j ≠ k → (ns.mounts j).mountAt.length ≤ (ns.mounts k).mountAt.length →
        (ns.mounts j).mountAt.length < (ns.mounts k).mountAt.length := by
    intro k j active active' front front' apart least
    refine lt_of_le_of_ne least fun length => apart ?_
    exact mounted.distinct j k active' active (above_length front' front length)
  constructor
  · intro best
    have mem := List.argmax_mem (Option.mem_def.mpr best)
    obtain ⟨active, front⟩ := (candidate i).mp mem
    refine ⟨active, front, fun j active' front' apart => shorter i j active active' front front' apart ?_⟩
    exact best_longest best ((candidate j).mpr ⟨active', front'⟩)
  · rintro ⟨active, front, longest⟩
    cases best : vfsdNamespaceMountBest ns path with
    | none =>
      have empty := List.argmax_eq_none.mp best
      have mem := (candidate i).mpr ⟨active, front⟩
      rw [empty] at mem
      cases mem
    | some k =>
      obtain ⟨active', front'⟩ := (candidate k).mp (List.argmax_mem (Option.mem_def.mpr best))
      have least := best_longest best ((candidate i).mpr ⟨active, front⟩)
      by_contra other
      have apart : k ≠ i := fun same => other (congrArg some same)
      have less := longest k active' front' apart
      omega

theorem umount_ok (removed : vfsdNamespaceUmount ns mountAt = .ok ns') :
    mountAt ≠ root ∧ ∃ i, vfsdNamespaceMountExact ns mountAt = some i ∧ ns' = ns.setMount i .none ∧
      ∀ j, ns.Active j → (ns.mounts j).mountAt ≠ mountAt → vfsdPathHasPrefix (ns.mounts j).mountAt mountAt = false := by
  unfold vfsdNamespaceUmount at removed
  split at removed
  · cases removed
  rename_i below
  split at removed
  · cases removed
  rename_i clear
  split at removed
  · cases removed
  · rename_i i found
    cases removed
    refine ⟨below, i, found, rfl, fun j active other => ?_⟩
    simp only [List.any_eq_true, List.mem_range, not_exists, not_and, Bool.and_eq_true, bne_iff_ne] at clear
    simpa [active.2, other] using clear j active.1

theorem Mounted.resolves (mounted : Mounted ns targets) : Resolves ns targets := by
  refine ⟨mounted, fun i active => mounted.exact_found active, fun i active => ?_,
    fun path normal i => mounted.best_iff normal, fun path normal ns' removed j active front => ?_⟩
  · unfold vfsdNamespaceUmount
    split
    · exact .inl rfl
    · split
      · exact .inl rfl
      · rw [mounted.exact_found active]
        exact .inr rfl
  · obtain ⟨_, _, _, _, clear⟩ := umount_ok removed
    by_contra other
    have missing := clear j active other
    rw [(above_iff normal (mounted.normal j active)).mpr front] at missing
    cases missing

theorem mountAdd_ok {readonly linuxCompat : Bool} (added : vfsdNamespaceMountAdd ns mountAt backend readonly linuxCompat = .ok ns') :
    vfsdNamespaceMountExact ns mountAt = none ∧ ∃ i, (ns.mounts i).active = false ∧
      ns' = ns.setMount i
        ⟨true, readonly, linuxCompat, vfsdStrlcpy mountAt vfsdPathBytes, vfsdStrlcpy backend vfsdPathBytes⟩ := by
  unfold vfsdNamespaceMountAdd at added
  split at added
  · cases added
  rename_i missing
  split at added
  · cases added
  · rename_i i free
    cases added
    have unused := List.find?_some free
    exact ⟨by simpa using missing, i, by simpa using unused, rfl⟩

theorem Mounted.congr (mounted : Mounted ns targets) (mounts : ∀ i, ns'.Active i →
      ns.Active i ∧ (ns'.mounts i).mountAt = (ns.mounts i).mountAt) {targets' : Nat → CString}
    (same : ∀ i, ns'.Active i → targets' i = targets i) : Mounted ns' targets' := by
  refine ⟨fun i active => ?_, fun i active => ?_, fun i j active active' equal => ?_⟩
  · rw [(mounts i active).2]
    exact mounted.normal i (mounts i active).1
  · rw [(mounts i active).2, same i active]
    exact mounted.asked i (mounts i active).1
  · rw [(mounts i active).2, (mounts j active').2] at equal
    exact mounted.distinct i j (mounts i active).1 (mounts j active').1 equal

theorem setMount_self (mount : NsMount) : (ns.setMount i mount).mounts i = mount := Function.update_self _ _ _

theorem setMount_active {mount : NsMount} {j : Nat} (active : (ns.setMount i mount).Active j) (other : j ≠ i) :
    ns.Active j ∧ (ns.setMount i mount).mounts j = ns.mounts j := by
  have same : (ns.setMount i mount).mounts j = ns.mounts j := Function.update_of_ne other _ _
  exact ⟨⟨active.1, same ▸ active.2⟩, same⟩

theorem Mounted.add (mounted : Mounted ns targets) (normal : Normal mountAt) (short : mountAt.length < vfsdPathBytes)
    {readonly linuxCompat : Bool} (added : vfsdNamespaceMountAdd ns mountAt backend readonly linuxCompat = .ok ns')
    {targets' : Nat → CString} (new : ∀ i, (ns.mounts i).active = false → ns'.Active i → targets' i = mountAt)
    (old : ∀ i, ns.Active i → targets' i = targets i) : Mounted ns' targets' := by
  obtain ⟨missing, i, free, rfl⟩ := mountAdd_ok added
  have whole : vfsdStrlcpy mountAt vfsdPathBytes = mountAt := List.take_of_length_le (by omega)
  refine ⟨fun j active => ?_, fun j active => ?_, fun j k active active' equal => ?_⟩
  · by_cases own : j = i
    · rw [own, setMount_self]
      exact whole.symm ▸ normal
    · obtain ⟨before, same⟩ := setMount_active active own
      exact same ▸ mounted.normal j before
  · by_cases own : j = i
    · subst own
      rw [setMount_self, new j free active]
      exact whole
    · obtain ⟨before, same⟩ := setMount_active active own
      rw [same, old j before]
      exact mounted.asked j before
  · -- The path of the new mount is none of the old ones.
    by_cases own : j = i
    · by_cases own' : k = i
      · exact own.trans own'.symm
      · obtain ⟨before, same⟩ := setMount_active active' own'
        rw [own, setMount_self, same, whole] at equal
        exact absurd equal.symm (mountExact_none missing before)
    · obtain ⟨before, same⟩ := setMount_active active own
      by_cases own' : k = i
      · rw [own', setMount_self, same, whole] at equal
        exact absurd equal (mountExact_none missing before)
      · obtain ⟨before', same'⟩ := setMount_active active' own'
        rw [same, same'] at equal
        exact mounted.distinct j k before before' equal

end

/-- The path at which a request asks for a mount. -/
def Request.target (s : Server) (c : Nat) : Request → Option CString
  | .mount _ _ _ target => (vfsdPathNormalize (s.clients c).cwd target vfsdIoBytes).toOption
  | .pivotRoot newRoot oldRoot => (pivotPaths s c newRoot oldRoot).toOption.map (·.2.2)
  | _ => none

/-- The paths that were asked for: a new namespace has those of the one it is copied from, a new mount the one of its request. -/
def note (before after : Server) (src : Nat) (target : CString) (targets : Nat → Nat → CString) (n i : Nat) : CString :=
  if (before.namespaces n).inUse = false ∧ (after.namespaces n).inUse = true then targets src i
  else if ((before.namespaces n).mounts i).active = false ∧ ((after.namespaces n).mounts i).active = true then target
  else targets n i

/-- A run of the processes and the server, with the paths at which mounts were asked for. -/
structure Session (σ : Type) where
  world : World σ
  targets : Nat → Nat → CString

section

variable {σ : Type} (boot : Boot σ)

/-- What an operation adds to the paths that were asked for. -/
def noteOp (w w' : World σ) (op : Op σ) (targets : Nat → Nat → CString) : Nat → Nat → CString :=
  match op with
  | .request sender request =>
    match vfsdClientGetOrCreate (taskinfo w.kernel.sched) w.server sender with
    | (s, some c) =>
      note s w'.server ((vfsdNamespaceFind s (s.clients c).nsId).getD 0) ((request.target s c).getD []) targets
    | (_, none) => targets
  | .process _ | .files _ => targets

def execNoted (r : Session σ) (op : Op σ) : Except Unit (Session σ) :=
  match exec boot r.world op with
  | .ok w => .ok ⟨w, noteOp r.world w op r.targets⟩
  | .error halt => .error halt

/-- The path of a new mount fits into the mount table. -/
def Op.Fits (w : World σ) : Op σ → Prop
  | .request sender asked =>
    match vfsdClientGetOrCreate (taskinfo w.kernel.sched) w.server sender with
    | (s, some c) => ∀ target ∈ asked.target s c, target.length < vfsdPathBytes
    | (_, none) => True
  | .process _ | .files _ => True

instance (w : World σ) (op : Op σ) : Decidable (op.Fits w) :=
  match op with
  | .request sender asked =>
    match got : vfsdClientGetOrCreate (taskinfo w.kernel.sched) w.server sender with
    | (s, some c) => decidable_of_iff (∀ target ∈ asked.target s c, target.length < vfsdPathBytes) (by simp [Op.Fits, got])
    | (_, none) => .isTrue (by simp [Op.Fits, got])
  | .process _ | .files _ => .isTrue trivial

def startNoted (st : σ) : Session σ := ⟨start st, fun _ i => (vfsdNamespaceSeed.mounts i).mountAt⟩

variable {boot} {s s' : Server} {m : Model} {targets : Nat → Nat → CString} {c n p : Nat}

/-- The mounts of every namespace in use lie where they were asked for. -/
def Tables (s : Server) (targets : Nat → Nat → CString) : Prop :=
  ∀ n < vfsdMaxNamespaces, (s.namespaces n).inUse = true → Mounted (s.namespaces n) (targets n)

theorem note_same {target : CString} {src i : Nat} (same : s'.namespaces n = s.namespaces n) :
    note s s' src target targets n i = targets n i := by
  rw [note, if_neg, if_neg]
  · rw [same]
    rintro ⟨free, active⟩
    rw [free] at active
    cases active
  · rw [same]
    rintro ⟨free, used⟩
    rw [free] at used
    cases used

theorem Tables.same (tables : Tables s targets) (same : s'.namespaces = s.namespaces) (src : Nat) (target : CString) :
    Tables s' (note s s' src target targets) := by
  intro n small used
  rw [same] at used
  rw [same]
  refine (tables n small used).congr (fun i active => ⟨active, rfl⟩) fun i _ => ?_
  exact note_same (congrFun same n)

theorem Tables.set (tables : Tables s targets) {ns : Namespace} (namespaces : s'.namespaces = Function.update s.namespaces n ns)
    (used : (s.namespaces n).inUse = true) (src : Nat) (target : CString)
    (mounted : ∀ targets', (∀ i, ((s.namespaces n).mounts i).active = false → ns.Active i → targets' i = target) →
      (∀ i, (s.namespaces n).Active i → targets' i = targets n i) → Mounted ns targets') :
    Tables s' (note s s' src target targets) := by
  intro k small used'
  by_cases own : k = n
  · subst own
    have now : s'.namespaces k = ns := by rw [namespaces, Function.update_self]
    have copied : ¬ ((s.namespaces k).inUse = false ∧ (s'.namespaces k).inUse = true) := by
      rw [used]
      exact nofun
    rw [now]
    refine mounted _ (fun i free active => ?_) fun i active => ?_
    · rw [note, if_neg copied, if_pos ⟨free, now ▸ active.2⟩]
    · rw [note, if_neg copied, if_neg]
      rw [active.2]
      exact nofun
  · have still : s'.namespaces k = s.namespaces k := by rw [namespaces, Function.update_of_ne own]
    rw [still] at used' ⊢
    exact (tables k small used').congr (fun i active => ⟨active, rfl⟩) fun i _ => note_same still

theorem Tables.copy (tables : Tables s targets) {src : Nat} {ns : Namespace}
    (namespaces : s'.namespaces = Function.update s.namespaces n ns) (unused : (s.namespaces n).inUse = false)
    (small : src < vfsdMaxNamespaces) (used : (s.namespaces src).inUse = true) (copied : ns.inUse = true)
    (mounts : ns.mounts = (s.namespaces src).mounts) (target : CString) : Tables s' (note s s' src target targets) := by
  intro k small' used'
  by_cases own : k = n
  · subst own
    have now : s'.namespaces k = ns := by rw [namespaces, Function.update_self]
    rw [now]
    refine (tables src small used).congr (fun i active => ?_) fun i _ => ?_
    · rw [Namespace.Active, mounts] at active
      exact ⟨active, by rw [mounts]⟩
    · rw [note, if_pos ⟨unused, now.symm ▸ copied⟩]
  · have still : s'.namespaces k = s.namespaces k := by rw [namespaces, Function.update_of_ne own]
    rw [still] at used' ⊢
    exact (tables k small' used').congr (fun i active => ⟨active, rfl⟩) fun i _ => note_same still

theorem pivotPaths_normal {newRoot oldRoot newVirtual oldVirtual oldRebased : CString}
    (paths : pivotPaths s c newRoot oldRoot = .ok (newVirtual, oldVirtual, oldRebased)) : Normal oldRebased := by
  unfold pivotPaths at paths
  obtain ⟨new, first, paths⟩ := bind_ok paths
  obtain ⟨old, second, paths⟩ := bind_ok paths
  split at paths
  · cases paths
  rename_i good
  obtain ⟨rebased, third, paths⟩ := bind_ok paths
  split at paths
  · cases paths
  cases paths
  push Not at good
  obtain ⟨below, _, _, front⟩ := good
  obtain ⟨names, proper, rfl⟩ := vfsdPathNormalize_normal first
  obtain ⟨others, proper', rfl⟩ := vfsdPathNormalize_normal second
  obtain ⟨rest, rfl⟩ := (hasPrefix_render proper.plain proper'.plain).mp (by simpa using front)
  have some_name : names ≠ [] := by
    rintro rfl
    exact below rfl
  exact ⟨rest, proper'.of_append, vfsdPathRebaseUnder_render proper'.plain some_name third⟩

theorem Tables.effect (tables : Tables s targets) (same : Matches s m) (inside : c < vfsdMaxClients)
    (there : m.known[c]? = some p) {request : Request} {response : Response}
    (fits : ∀ target ∈ request.target s c, target.length < vfsdPathBytes) (effect : Effect s c request response s') :
    Tables s' (note s s' ((vfsdNamespaceFind s (s.clients c).nsId).getD 0) ((request.target s c).getD []) targets) := by
  obtain ⟨_, _, nsId, _⟩ := same.record c inside p there
  obtain ⟨positive, made⟩ := same.view p (mem_served.mpr ⟨c, inside, there⟩)
  have inUse : ∀ n, vfsdNamespaceFind s (s.clients c).nsId = some n →
      n < vfsdMaxNamespaces ∧ (s.namespaces n).inUse = true := by
    intro n found
    have used := List.find?_some found
    simp only [Bool.and_eq_true] at used
    exact ⟨List.mem_range.mp (List.mem_of_find?_eq_some found), used.1⟩
  cases effect with
  | nothing undone => exact tables.same rfl _ _
  | unshareFailed cloned =>
    rw [nsId] at cloned
    rw [(same.clone positive made).1 cloned]
    exact tables.same rfl _ _
  | chdir normalized => exact tables.same rfl _ _
  | mount normalized below found added =>
    rename_i fsType flags src target targetVirtual backend readonly n ns
    have asked : Request.target s c (.mount fsType flags src target) = some targetVirtual := by
      simp [Request.target, normalized, Except.toOption]
    have short := fits targetVirtual asked
    obtain ⟨small, used⟩ := inUse n found
    rw [asked]
    exact tables.set rfl used _ _ fun targets' new old =>
      (tables n small used).add (vfsdPathNormalize_normal normalized) short added new old
  | umount normalized found removed =>
    rename_i path targetVirtual n ns
    obtain ⟨small, used⟩ := inUse n found
    obtain ⟨_, i, _, rfl, _⟩ := umount_ok removed
    refine tables.set rfl used _ _ fun targets' new old => ?_
    have kept : ∀ j, ((s.namespaces n).setMount i .none).Active j → j ≠ i := by
      rintro j active rfl
      have gone := active.2
      rw [setMount_self] at gone
      cases gone
    refine (tables n small used).congr (fun j active => ?_) fun j active => ?_
    · obtain ⟨before, still⟩ := setMount_active active (kept j active)
      exact ⟨before, by rw [still]⟩
    · exact old j (setMount_active active (kept j active)).1
  | unshare cloned =>
    rename_i flags s'' n
    rw [nsId] at cloned
    obtain ⟨src, own, small, found⟩ := same.namespaceFind positive made
    rw [own] at cloned made found
    by_cases room : m.next ≤ vfsdMaxNamespaces
    · rw [same.clone_eq made room] at cloned
      simp only [Prod.mk.injEq, Option.some.injEq] at cloned
      obtain ⟨rfl, rfl⟩ := cloned
      rw [nsId, own, found]
      have begun := same.begun
      have unused := same.unused (m.next - 1) (by omega) (by omega)
      obtain ⟨used, _, mounts⟩ := same.space src made
      exact tables.copy rfl unused small used rfl mounts.symm _
    · rw [vfsdNamespaceClone, found, vfsdNamespaceAlloc, same.alloc_namespace, if_neg (by omega)] at cloned
      simp at cloned
  | pivotRoot paths found pivoted =>
    rename_i newRoot oldRoot newVirtual oldVirtual oldRebased newBackend n ns
    have asked : Request.target s c (.pivotRoot newRoot oldRoot) = some oldRebased := by
      simp [Request.target, paths, Except.toOption]
    have short := fits oldRebased asked
    obtain ⟨small, used⟩ := inUse n found
    rw [asked]
    refine tables.set rfl used _ _ fun targets' new old => ?_
    unfold pivotMounts at pivoted
    split at pivoted
    · cases pivoted
    rename_i i _
    split at pivoted
    · cases pivoted
    split at pivoted
    · cases pivoted
    rename_i withOld added
    cases pivoted
    -- The root mount stays where it is.
    have still : ∀ j, ((withOld.setMount i
        { withOld.mounts i with
          backend := vfsdStrlcpy newBackend vfsdPathBytes
          readonly := vfsdBackendReadonly newBackend }).Active j ↔ withOld.Active j) ∧
        ((withOld.setMount i
        { withOld.mounts i with
          backend := vfsdStrlcpy newBackend vfsdPathBytes
          readonly := vfsdBackendReadonly newBackend }).mounts j).mountAt = (withOld.mounts j).mountAt := by
      intro j
      by_cases own : j = i
      · subst own
        simp [Namespace.Active, Namespace.setMount]
      · simp [Namespace.Active, Namespace.setMount, own]
    have mounted := (tables n small used).add (pivotPaths_normal paths) short added
      (fun j free active => new j free ((still j).1.mpr active)) old
    exact mounted.congr (fun j active => ⟨(still j).1.mp active, (still j).2⟩) fun _ _ => rfl

theorem getOrCreate_namespaces {info : Nat → Option TaskInfo} {pid : Nat} {result : Option Nat}
    (got : vfsdClientGetOrCreate info s pid = (s', result)) : s'.namespaces = s.namespaces := by
  unfold vfsdClientGetOrCreate at got
  repeat' split at got
  all_goals
    cases got
    rfl

theorem Tables.frame (tables : Tables s targets) (same : s'.namespaces = s.namespaces) : Tables s' targets := by
  unfold Tables
  rw [same]
  exact tables

theorem Tables.step {r r' : Session σ} (tables : Tables r.world.server r.targets) (sound : Sound r.world) {op : Op σ}
    (fits : op.Fits r.world) (ran : execNoted boot r op = .ok r') : Tables r'.world.server r'.targets := by
  unfold execNoted at ran
  split at ran
  · rename_i w stepped
    cases ran
    cases op with
    | process call =>
      unfold exec at stepped
      dsimp only at stepped
      split at stepped
      · cases stepped
        exact tables
      · cases stepped
    | files st =>
      cases stepped
      exact tables
    | request sender asked =>
      unfold exec at stepped
      dsimp only at stepped
      split at stepped
      · cases stepped
      rename_i st s response served
      cases stepped
      unfold Op.Fits at fits
      unfold noteOp
      dsimp only at fits ⊢
      have met := sound.same.getOrCreate (taskinfo r.world.kernel.sched) sender
      rcases serve_effect served with ⟨_, rfl⟩ | ⟨_, s', got, rfl, _⟩ | ⟨_, s', c, got, effect⟩
      · cases got : vfsdClientGetOrCreate (taskinfo r.world.kernel.sched) r.world.server sender with
        | mk s' result =>
          cases result with
          | none => exact tables
          | some c =>
            have same := getOrCreate_namespaces got
            exact (tables.frame same).same same.symm _ _
      · rw [got]
        exact tables.frame (getOrCreate_namespaces got)
      · rw [got] at fits met ⊢
        dsimp only at fits ⊢
        cases process : r.world.model.process (taskinfo r.world.kernel.sched) sender with
        | none =>
          rw [process] at met
          cases met.2
        | some info =>
          rw [process] at met
          obtain ⟨same, inside, there⟩ := met
          exact (tables.frame (getOrCreate_namespaces got)).effect same inside there fits effect
  · cases ran

theorem seed_mounted : Mounted vfsdNamespaceSeed fun i => (vfsdNamespaceSeed.mounts i).mountAt := by
  have seeds : ∀ i < vfsdMaxNsMounts, (vfsdNamespaceSeed.mounts i).active = true →
      (∀ name ∈ segments (vfsdNamespaceSeed.mounts i).mountAt, IsName name) ∧
        (vfsdNamespaceSeed.mounts i).mountAt = render (segments (vfsdNamespaceSeed.mounts i).mountAt) := by
    decide
  have apart : ∀ i < vfsdMaxNsMounts, ∀ j < vfsdMaxNsMounts, (vfsdNamespaceSeed.mounts i).active = true →
      (vfsdNamespaceSeed.mounts j).active = true →
      (vfsdNamespaceSeed.mounts i).mountAt = (vfsdNamespaceSeed.mounts j).mountAt → i = j := by
    decide
  exact ⟨fun i active => ⟨_, seeds i active.1 active.2⟩, fun i _ => rfl,
    fun i j active active' => apart i active.1 j active'.1 active.2 active'.2⟩

theorem start_tables (st : σ) : Tables (start st).server (startNoted st).targets := by
  intro n _ used
  by_cases first : n = 0
  · subst first
    exact seed_mounted
  · simp [start, vfsdInit, first] at used

/-- In every run whose new mounts all fit into the table, the mounts of every namespace resolve as they should. -/
theorem run_longest_mount {st : σ} {r : Session σ}
    (run : Run (execNoted boot) (fun r op => op.Valid r.world ∧ op.Fits r.world) (startNoted st) r) :
    ∀ n < vfsdMaxNamespaces, (r.world.server.namespaces n).inUse = true →
      Resolves (r.world.server.namespaces n) (r.targets n) := by
  have kept : Sound r.world ∧ Tables r.world.server r.targets := by
    refine @Run.invariant _ _ _ _ _ (fun r => Sound r.world ∧ Tables r.world.server r.targets) _
      ⟨start_sound st, start_tables st⟩ ?_ _ run
    rintro before after op ⟨sound, tables⟩ ⟨valid, fits⟩ ran
    refine ⟨?_, tables.step sound fits ran⟩
    unfold execNoted at ran
    split at ran
    · rename_i w stepped
      cases ran
      exact sound.step valid stepped
    · cases ran
  exact fun n small used => (kept.2 n small used).resolves

end

/-- A mount in a directory of its own. -/
def mountOnce : List (Op Unit) :=
  [.process (.step (.createUser 100)), .process (.step .block), .request 2 (.mount .devfs 0 [] (root ++ ['m', 'n', 't']))]

/-- Two mounts at one relative path, which is too long for the table below the directory it is taken from. -/
def mountTwice : List (Op Unit) :=
  [.process (.step (.createUser 100)), .process (.step .block), .request 2 (.chdir data),
    .request 2 (.mount .devfs 0 [] (List.replicate 95 'a')), .request 2 (.mount .devfs 0 [] (List.replicate 95 'a'))]

theorem mounts_seen :
    (runList (execNoted directories) (fun r op => op.Valid r.world ∧ op.Fits r.world) (startNoted ()) mountOnce).any
      (fun r => r.targets 0 10 = root ++ ['m', 'n', 't'] ∧ (r.world.server.namespaces 0).inUse = true) = true ∧
    (runList (execNoted directories) (fun r op => op.Valid r.world) (startNoted ()) mountTwice).any
      (fun r => (r.world.server.namespaces 0).inUse = true ∧ (r.world.server.namespaces 0).Active 10 ∧
        (r.world.server.namespaces 0).Active 11 ∧
        ((r.world.server.namespaces 0).mounts 10).mountAt = ((r.world.server.namespaces 0).mounts 11).mountAt) = true := by
  decide +kernel

theorem run_longest_mount_mountOnce :
    ∃ r, Run (execNoted directories) (fun r op => op.Valid r.world ∧ op.Fits r.world) (startNoted ()) r ∧
      r.targets 0 10 = root ++ ['m', 'n', 't'] ∧ Resolves (r.world.server.namespaces 0) (r.targets 0) := by
  obtain ⟨r, run, facts⟩ := runList_any mounts_seen.1
  obtain ⟨target, used⟩ := of_decide_eq_true facts
  exact ⟨r, run, target, run_longest_mount run 0 (by decide) used⟩

/-- Both mounts are made, and lie at one path, which is not the one that was asked for. -/
theorem run_not_longest_mount :
    ¬ ∀ r, Run (execNoted directories) (fun r op => op.Valid r.world) (startNoted ()) r →
      ∀ n < vfsdMaxNamespaces, (r.world.server.namespaces n).inUse = true →
        Resolves (r.world.server.namespaces n) (r.targets n) := by
  intro always
  obtain ⟨r, run, seen⟩ := runList_any mounts_seen.2
  obtain ⟨used, first, second, same⟩ := of_decide_eq_true seen
  have apart := (always r run 0 (by decide) used).distinct 10 11 first second same
  cases apart

end Enlil.Vfsd
