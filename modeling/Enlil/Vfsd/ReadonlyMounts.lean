import Enlil.Lib.Run
import Enlil.Vfsd.Kernel

/-! Requests for paths of read-only mounts, and when the files behind them stay as they are. -/

namespace Enlil.Vfsd

open Enlil.Vfs (CString Kernel Behind wantsWrite reaches oCreat)

section

variable {σ α : Type} {boot : Boot σ} {ns : Namespace} {I : σ → Prop} {st st' : σ}

theorem overMounts_keeps {virtualPath : CString} {attempt : σ → NsMount → CString → σ × Except Errno α}
    (keeps : ∀ {st mount backend st' result}, I st → attempt st mount backend = (st', result) → I st') {turns : Nat}
    {best : Option Nat} {error : Errno} {result : Except Errno α} (holds : I st)
    (ran : overMounts ns virtualPath attempt turns st best error = some (st', result)) : I st' := by
  induction turns generalizing st best error with
  | zero =>
    cases best with
    | none =>
      cases ran
      exact holds
    | some i => cases ran
  | succ turns ih =>
    cases best with
    | none =>
      cases ran
      exact holds
    | some i =>
      unfold overMounts at ran
      split at ran
      · cases ran
        exact holds
      split at ran
      · rename_i attempted
        cases ran
        exact keeps holds attempted
      · rename_i attempted
        split at ran
        · cases ran
          exact keeps holds attempted
        · exact ih (keeps holds attempted) ran

variable (keeps : ∀ {st path st' result}, I st → vfsdBootPathStat boot st path = (st', result) → I st')

include keeps

theorem resolveExisting_keeps {virtualPath : CString} {result : Except Errno (CString × Bool × Bool)} (holds : I st)
    (ran : vfsdNamespaceResolveExisting boot ns st virtualPath = some (st', result)) : I st' := by
  refine overMounts_keeps (fun {st mount backend st' result} holds attempted => ?_) holds ran
  split at attempted
  · cases attempted
    exact holds
  · split at attempted
    all_goals
      rename_i looked
      cases attempted
      exact keeps holds looked

variable {s s' : Server} {c : Nat}

theorem backendPath_keeps {input : CString} {result : Except Errno CString} (holds : I st)
    (ran : vfsdClientBackendPath boot st s c input = some (st', result)) : I st' := by
  unfold vfsdClientBackendPath at ran
  split at ran
  · cases ran
    exact holds
  split at ran
  · cases ran
    exact holds
  · obtain ⟨⟨st'', result'⟩, resolved, same⟩ := Option.map_eq_some_iff.mp ran
    cases same
    exact resolveExisting_keeps keeps holds resolved

theorem mountBackendFor_keeps {fsType : FsType} {src : CString} {result : Except Errno (CString × Bool)} (holds : I st)
    (ran : vfsdMountBackendFor boot st s c fsType src = some (st', result)) : I st' := by
  unfold vfsdMountBackendFor at ran
  split at ran
  case h_1 =>
    split at ran
    · cases ran
      exact holds
    split at ran
    · cases ran
    · rename_i found
      cases ran
      exact backendPath_keeps keeps holds found
    · rename_i found
      have after := backendPath_keeps keeps holds found
      split at ran
      all_goals
        rename_i looked
        cases ran
        exact keeps after looked
  all_goals
    cases ran
    exact holds

theorem serveClient_keeps {request : Request} {response : Response} (other : ∀ path flags, request ≠ .open path flags)
    (holds : I st) (ran : serveClient boot st s c request = some (st', s', response)) : I st' := by
  cases request with
  | «open» path flags => exact absurd rfl (other path flags)
  | resolve path =>
    obtain ⟨⟨st'', result⟩, served, same⟩ := Option.map_eq_some_iff.mp ran
    cases same
    unfold serveResolve at served
    split at served
    · cases served
      exact holds
    split at served
    · cases served
      exact holds
    · obtain ⟨⟨st'', result'⟩, resolved, same⟩ := Option.map_eq_some_iff.mp served
      cases same
      exact resolveExisting_keeps keeps holds resolved
  | chdir path =>
    obtain ⟨⟨st'', s'', result⟩, served, same⟩ := Option.map_eq_some_iff.mp ran
    cases same
    unfold vfsdClientChdir at served
    split at served
    · cases served
      exact holds
    split at served
    · cases served
      exact holds
    split at served
    · cases served
    · rename_i resolved
      cases served
      exact resolveExisting_keeps keeps holds resolved
    · rename_i resolved
      have after := resolveExisting_keeps keeps holds resolved
      split at served
      · rename_i looked
        cases served
        exact keeps after looked
      · rename_i looked
        have later := keeps after looked
        split at served
        all_goals
          cases served
          exact later
  | mount fsType flags src target =>
    obtain ⟨⟨st'', s'', result⟩, served, same⟩ := Option.map_eq_some_iff.mp ran
    cases same
    unfold vfsdClientMount at served
    split at served
    · cases served
      exact holds
    split at served
    · cases served
      exact holds
    split at served
    · cases served
    · rename_i found
      cases served
      exact mountBackendFor_keeps keeps holds found
    · rename_i found
      have after := mountBackendFor_keeps keeps holds found
      split at served
      · cases served
        exact after
      split at served
      all_goals
        cases served
        exact after
  | pivotRoot newRoot oldRoot =>
    obtain ⟨⟨st'', s'', result⟩, served, same⟩ := Option.map_eq_some_iff.mp ran
    cases same
    unfold vfsdClientPivotRoot at served
    split at served
    · cases served
      exact holds
    split at served
    · cases served
    · rename_i found
      cases served
      exact backendPath_keeps keeps holds found
    · rename_i found
      have after := backendPath_keeps keeps holds found
      split at served
      · rename_i looked
        cases served
        exact keeps after looked
      · rename_i looked
        have later := keeps after looked
        split at served
        · cases served
          exact later
        split at served
        · cases served
          exact later
        split at served
        all_goals
          cases served
          exact later
  | getcwd | umount | unshare | read | write | readdir | stat | close | lseek | other =>
    cases ran
    exact holds

end

section

variable {β : Type} (k : Kernel β) (readers : Readers β)

/-- Says whether an open leads to the disk; one that does not is made. -/
def attemptReaches (flags : UInt32) (s : Vfs.Session β) (_ : NsMount) (backend : CString) : Vfs.Session β × Except Errno Bool :=
  if reaches k k.stack s.state.files backend flags then (s, .ok true)
  else
    match sysVfsBootOpen k s backend flags with
    | (s, .ok _) => (s, .ok false)
    | (s, .error error) => (s, .error error)

/-- The answer that an open leads to the disk. -/
def isReached : Option (Vfs.Session β × Except Errno Bool) → Bool
  | some (_, .ok found) => found
  | _ => false

/-- An open of a virtual path leads to the disk behind one of the mounts that are tried for it. -/
def leadsToDisk (s : Vfs.Session β) (ns : Namespace) (virtualPath : CString) (flags : UInt32) : Bool :=
  if flags &&& oCreat ≠ 0 then
    match vfsdNamespaceResolve ns virtualPath with
    | .error _ => false
    | .ok backend => reaches k k.stack s.state.files backend flags
  else isReached (overMounts ns virtualPath (attemptReaches k flags) vfsdMaxNsMounts s (vfsdNamespaceMountBest ns virtualPath) .enoent)

/-- The namespace and the virtual path that a sender means by a path. -/
def meant (info : Nat → Option TaskInfo) (s : Server) (sender : Nat) (path : CString) : Option (Namespace × CString) :=
  match vfsdClientGetOrCreate info s sender with
  | (_, none) => none
  | (s, some c) =>
    match vfsdClientVirtualPath s c path, vfsdNamespaceFind s (s.clients c).nsId with
    | .ok virtualPath, some n => some (s.namespaces n, virtualPath)
    | _, _ => none

/-- The mount with the longest path that a virtual path lies on is read-only. -/
def onReadonly (ns : Namespace) (virtualPath : CString) : Bool :=
  (vfsdNamespaceMountBest ns virtualPath).any fun i => (ns.mounts i).readonly

/-- The server, its open files, and the handles that were opened on read-only mounts, which are no part of the server. -/
structure Site (β : Type) where
  server : Server
  session : Vfs.Session β
  guarded : Nat → Bool

/-- What can happen: a request of a task, about which the kernel says something, and anything that others do to files. -/
inductive Act (β : Type) where
  | request (info : Nat → Option TaskInfo) (sender : Nat) (request : Request)
  | others (state : Vfs.State β)

/-- The handles that were opened on read-only mounts, after an answer. -/
def noteOpen (guarded : Nat → Bool) (readonly : Bool) : Request → Response → Nat → Bool
  | .open _ _, .handle handle => Function.update guarded handle readonly
  | _, _ => guarded

/-- A request opens a path on a read-only mount. -/
def asksReadonly (info : Nat → Option TaskInfo) (s : Server) (sender : Nat) : Request → Bool
  | .open path _ => (meant info s sender path).any fun (ns, virtualPath) => onReadonly ns virtualPath
  | _ => false

def perform (s : Site β) : Act β → Except Unit (Site β)
  | .request info sender request =>
    match serve (kernelBoot k readers) s.session s.server info sender request with
    | none => .error ()
    | some (session, server, response) =>
      .ok ⟨server, session, noteOpen s.guarded (asksReadonly info s.server sender request) request response⟩
  | .others state => .ok { s with session := { s.session with state } }

/-- Others leave the handles alone that are behind the server's open files. -/
def Act.Valid (s : Site β) : Act β → Prop
  | .request _ _ _ => True
  | .others state => ∀ slot file handles mount flags, s.session.opened slot = some file →
      Behind s.session.state file handles mount flags → ∀ i ∈ handles, state.bindfsHandles i = s.session.state.bindfsHandles i

/-- What is opened on a read-only mount is not opened for writing, or does not lead to the disk. -/
def Act.Careful (s : Site β) : Act β → Prop
  | .request info sender (.open path flags) =>
    ∀ ns virtualPath, meant info s.server sender path = some (ns, virtualPath) → onReadonly ns virtualPath = true →
      wantsWrite flags = false ∨ leadsToDisk k s.session ns virtualPath flags = false
  | _ => True

/-- An open of a path on a read-only mount, and a write to a handle that was opened on one. -/
def Act.Readonly (s : Site β) : Act β → Prop
  | .request info sender asked =>
    asksReadonly info s.server sender asked = true ∨ ∃ handle data, asked = .write handle data ∧ s.guarded handle = true
  | .others _ => False

def site (state : Vfs.State β) : Site β := ⟨vfsdInit, ⟨state, fun _ => none⟩, fun _ => false⟩

variable {k readers} {s s' : Vfs.Session β} {guarded : Nat → Bool} {flags : UInt32} {ns : Namespace} {virtualPath : CString}

/-- What a request for an open comes to, for what makes it a safe one. -/
structure Outcome (s : Vfs.Session β) (guarded : Nat → Bool) (safe : Prop) (s' : Vfs.Session β) (result : Except Errno Nat) :
    Prop where
  files : safe → s'.state.files = s.state.files
  failed : ∀ error, result = .error error → Guards s' guarded
  made : ∀ handle, result = .ok handle → ∀ readonly, (readonly = true → safe) → Guards s' (Function.update guarded handle readonly)

theorem Outcome.open {path : CString} {safe : Prop} {result : Except Errno Nat} (guards : Guards s guarded)
    (opens : safe → OpensSafely k s path flags) (ran : sysVfsBootOpen k s path flags = (s', result)) :
    Outcome s guarded safe s' result := by
  obtain ⟨files, failed, made⟩ := guards.open ran
  exact ⟨fun safe => files (opens safe), failed,
    fun handle same readonly allowed => (made handle same).2 readonly fun guards => opens (allowed guards)⟩

theorem openExisting_outcome {turns : Nat} {best : Option Nat} {error : Errno} {result : Except Errno Nat}
    (guards : Guards s guarded)
    (ran : overMounts ns virtualPath (fun s _ backend => sysVfsBootOpen k s backend flags) turns s best error = some (s', result)) :
    Outcome s guarded
      (wantsWrite flags = false ∨ isReached (overMounts ns virtualPath (attemptReaches k flags) turns s best error) = false)
      s' result := by
  induction turns generalizing s best error with
  | zero =>
    cases best with
    | none =>
      cases ran
      exact ⟨fun _ => rfl, fun _ _ => guards, nofun⟩
    | some i => cases ran
  | succ turns ih =>
    cases best with
    | none =>
      cases ran
      exact ⟨fun _ => rfl, fun _ _ => guards, nofun⟩
    | some i =>
      unfold overMounts at ran
      split at ran
      · cases ran
        exact ⟨fun _ => rfl, fun _ _ => guards, nofun⟩
      rename_i backend joined
      -- What is reached by the first mount is reached.
      have first (safe : wantsWrite flags = false ∨ isReached (overMounts ns virtualPath (attemptReaches k flags)
          (turns + 1) s (some i) error) = false) : OpensSafely k s backend flags := by
        refine safe.imp_right fun away => ?_
        cases reached : reaches k k.stack s.state.files backend flags with
        | false => rfl
        | true =>
          unfold overMounts attemptReaches at away
          simp only [joined, reached, if_true] at away
          cases away
      split at ran
      · rename_i opened
        cases ran
        exact .open guards first opened
      · rename_i s₁ error₁ opened
        have outcome := Outcome.open guards first opened
        split at ran
        · cases ran
          exact outcome
        · rename_i goesOn
          have later := ih (outcome.failed error₁ rfl) ran
          have next (safe : wantsWrite flags = false ∨ isReached (overMounts ns virtualPath (attemptReaches k flags)
              (turns + 1) s (some i) error) = false) :
              wantsWrite flags = false ∨ isReached (overMounts ns virtualPath (attemptReaches k flags) turns s₁
                (vfsdNamespaceMountBestExcluding ns virtualPath (some i)) error₁) = false := by
            rcases first safe with reads | away
            · exact .inl reads
            refine safe.imp_right fun rest => ?_
            have attempted : attemptReaches k flags s (ns.mounts i) backend = (s₁, .error error₁) := by
              unfold attemptReaches
              rw [away, if_neg Bool.false_ne_true, opened]
            unfold overMounts at rest
            simp only [joined, attempted, goesOn, if_false] at rest
            exact rest
          exact ⟨fun safe => (later.files (next safe)).trans (outcome.files safe), later.failed,
            fun handle same readonly allowed => later.made handle same readonly fun guards => next (allowed guards)⟩

theorem serveOpen_outcome {server : Server} {c : Nat} {path : CString} {result : Except Errno Nat} (guards : Guards s guarded)
    (ran : serveOpen (kernelBoot k readers) s server c path flags = some (s', result)) :
    Outcome s guarded (∀ virtualPath n, vfsdClientVirtualPath server c path = .ok virtualPath →
      vfsdNamespaceFind server (server.clients c).nsId = some n →
      wantsWrite flags = false ∨ leadsToDisk k s (server.namespaces n) virtualPath flags = false) s' result := by
  unfold serveOpen at ran
  split at ran
  · cases ran
    exact ⟨fun _ => rfl, fun _ _ => guards, nofun⟩
  rename_i virtualPath normalized
  split at ran
  · cases ran
    exact ⟨fun _ => rfl, fun _ _ => guards, nofun⟩
  rename_i n found
  split at ran
  · rename_i creates
    split at ran
    · cases ran
      exact ⟨fun _ => rfl, fun _ _ => guards, nofun⟩
    · rename_i backend resolved
      refine Outcome.open guards (fun safe => ?_) (Option.some.inj ran)
      have safe := safe virtualPath n normalized found
      unfold leadsToDisk at safe
      rwa [if_pos creates, resolved] at safe
  · rename_i creates
    have outcome := openExisting_outcome guards ran
    have weaker (safe : ∀ virtualPath' n', vfsdClientVirtualPath server c path = .ok virtualPath' →
        vfsdNamespaceFind server (server.clients c).nsId = some n' →
        wantsWrite flags = false ∨ leadsToDisk k s (server.namespaces n') virtualPath' flags = false) := by
      have safe := safe virtualPath n normalized found
      unfold leadsToDisk at safe
      rw [if_neg creates] at safe
      exact safe
    exact ⟨fun safe => outcome.files (weaker safe), outcome.failed,
      fun handle same readonly allowed => outcome.made handle same readonly fun guards => weaker (allowed guards)⟩

theorem perform_step {st st' : Site β} {act : Act β} (guards : Guards st.session st.guarded) (valid : act.Valid st)
    (careful : act.Careful k st) (ran : perform k readers st act = .ok st') :
    Guards st'.session st'.guarded ∧ (act.Readonly st → st'.session.state.files = st.session.state.files) := by
  cases act with
  | others state =>
    cases ran
    obtain ⟨chain, chained⟩ := guards
    refine ⟨⟨chain, chained.kept state fun slot file open_ => ?_⟩, False.elim⟩
    obtain ⟨mount, flags, behind, -⟩ := chained.behind slot file open_
    exact valid slot file (chain slot) mount flags open_ behind
  | request info sender asked =>
    unfold perform at ran
    dsimp only at ran
    split at ran
    · cases ran
    rename_i session server response served
    cases ran
    dsimp only
    -- A request that opens nothing keeps the files and the guards.
    have quiet (other : ∀ path flags, asked ≠ .open path flags) :
        noteOpen st.guarded (asksReadonly info st.server sender asked) asked response = st.guarded ∧
          asksReadonly info st.server sender asked = false := by
      cases asked with
      | «open» path flags => exact absurd rfl (other path flags)
      | _ => exact ⟨rfl, rfl⟩
    unfold serve at served
    split at served
    · split at served
      · rename_i creating
        cases served
        cases asked with
        | «open» path flags =>
          refine ⟨guards, fun _ => rfl⟩
        | _ => exact ⟨guards, fun _ => rfl⟩
      · rename_i s₁ c creating
        by_cases isOpen : ∃ path flags, asked = .open path flags
        · obtain ⟨path, flags, rfl⟩ := isOpen
          obtain ⟨⟨session', result⟩, opened, same⟩ := Option.map_eq_some_iff.mp served
          have outcome := serveOpen_outcome guards opened
          cases same
          have safe (readonly : asksReadonly info st.server sender (.open path flags) = true) : ∀ virtualPath n,
              vfsdClientVirtualPath server c path = .ok virtualPath → vfsdNamespaceFind server (server.clients c).nsId = some n →
              wantsWrite flags = false ∨ leadsToDisk k st.session (server.namespaces n) virtualPath flags = false := by
            intro virtualPath n normalized found
            have means : meant info st.server sender path = some (server.namespaces n, virtualPath) := by
              unfold meant
              rw [creating]
              simp only [normalized, found]
            unfold asksReadonly at readonly
            dsimp only at readonly
            rw [means] at readonly
            exact careful _ _ means (by simpa using readonly)
          refine ⟨?_, fun asks => ?_⟩
          · cases result with
            | error error => exact outcome.failed error rfl
            | ok handle => exact outcome.made handle rfl _ safe
          · rcases asks with readonly | ⟨handle, data, write, -⟩
            · exact outcome.files (safe readonly)
            · cases write
        · have other : ∀ path flags, asked ≠ .open path flags := fun path flags same => isOpen ⟨path, flags, same⟩
          obtain ⟨sameGuards, noOpen⟩ := quiet other
          rw [sameGuards]
          have kept := serveClient_keeps
            (I := fun s : Vfs.Session β => Guards s st.guarded ∧ s.state.files = st.session.state.files)
            (fun {s path s' result} holds looked => by
              obtain ⟨guards', files⟩ := Guards.stat holds.1 looked
              exact ⟨guards', files.trans holds.2⟩) other ⟨guards, rfl⟩ served
          exact ⟨kept.1, fun _ => kept.2⟩
    · cases handled : serveHandle (kernelBoot k readers) st.session asked with
      | mk session' response' =>
        rw [handled] at served
        cases served
        cases asked with
        | read handle count =>
          unfold serveHandle at handled
          cases ran : sysVfsBootRead k readers st.session handle (min count vfsdIoBytes) with
          | mk s₁ result =>
            simp only [kernelBoot, ran] at handled
            cases handled
            obtain ⟨guards', files⟩ := guards.read ran
            exact ⟨guards', fun _ => files⟩
        | write handle data =>
          unfold serveHandle at handled
          cases ran : sysVfsBootWrite k readers st.session handle (data.take vfsdIoBytes) with
          | mk s₁ result =>
            simp only [kernelBoot, ran] at handled
            cases handled
            obtain ⟨guards', files⟩ := guards.write ran
            refine ⟨guards', fun asks => ?_⟩
            rcases asks with readonly | ⟨handle', data', same, guarded⟩
            · cases readonly
            · cases same
              exact files guarded
        | close handle =>
          unfold serveHandle at handled
          cases ran : sysVfsBootClose k st.session handle with
          | mk s₁ result =>
            simp only [kernelBoot, ran] at handled
            cases handled
            obtain ⟨guards', files, -⟩ := guards.close ran
            exact ⟨guards', fun _ => files⟩
        | lseek handle offset whence =>
          unfold serveHandle at handled
          cases ran : sysVfsBootLseek readers st.session handle offset whence with
          | mk s₁ result =>
            simp only [kernelBoot, ran] at handled
            cases handled
            obtain ⟨guards', files⟩ := guards.seek ran
            exact ⟨guards', fun _ => files⟩
        | readdir handle | stat handle =>
          cases handled
          exact ⟨guards, fun _ => rfl⟩
        | «open» | resolve | chdir | getcwd | mount | umount | unshare | pivotRoot | other =>
          cases handled
          exact ⟨guards, fun _ => rfl⟩

/-- In every run in which nothing on a read-only mount is opened for writing that leads to the disk, the files stay as they are
by what is opened on a read-only mount, and by what is written to it. -/
theorem run_readonly {state : Vfs.State β} {st : Site β}
    (run : Run (perform k readers) (fun st act => act.Valid st ∧ act.Careful k st) (site state) st) :
    ∀ act st', act.Valid st → act.Careful k st → act.Readonly st → perform k readers st act = .ok st' →
      st'.session.state.files = st.session.state.files := by
  have guards : Guards st.session st.guarded := by
    refine @Run.invariant _ _ _ _ _ (fun st : Site β => Guards st.session st.guarded) _ ?_ ?_ _ run
    · exact ⟨fun _ => [], nofun, nofun⟩
    · intro before after act guards allowed ran
      exact (perform_step guards allowed.1 allowed.2 ran).1
  intro act st' valid careful readonly ran
  exact (perform_step guards valid careful ran).2 readonly

end

/-- Readers that see empty files. -/
def blind : Readers (List CString) where
  read _ _ _ := .ok []
  readdir _ _ := .error .enoent
  stat _ _ := .ok Vfs.sIfdir
  seek _ _ _ _ := .ok 0
  size _ _ := 0

/-- The first process asks for something. -/
def ask (request : Request) : Act (List CString) := .request (fun _ => some ⟨1, 0⟩) 1 request

/-- A disk with one directory, on which the programs are. -/
def usrOnly : Site (List CString) := site ⟨[Vfs.usr], fun _ => ⟨false, none⟩⟩

theorem opens_seen :
    (perform Vfs.mounted blind usrOnly (ask (.open Vfs.usr 0))).toOption.any
      (fun st => st.guarded 1 && (perform Vfs.mounted blind st (ask (.write 1 [1]))).toOption.isSome) = true ∧
    asksReadonly (fun _ => some ⟨1, 0⟩) usrOnly.server 1 (.open Vfs.usrBin 0x42) = true ∧
    (perform Vfs.mounted blind usrOnly (ask (.open Vfs.usrBin 0x42))).toOption.any
      (fun st => st.session.state.files != [Vfs.usr]) = true := by
  decide

/-- The directory of the programs is opened for reading, and then written to in vain. -/
theorem run_readonly_readUsr : ∃ st, Run (perform Vfs.mounted blind) (fun st act => act.Valid st ∧ act.Careful Vfs.mounted st)
    usrOnly st ∧ ∃ st', perform Vfs.mounted blind st (ask (.write 1 [1])) = .ok st' ∧
      st'.session.state.files = st.session.state.files := by
  have found := opens_seen.1
  cases opened : perform Vfs.mounted blind usrOnly (ask (.open Vfs.usr 0)) with
  | error _ =>
    rw [opened] at found
    cases found
  | ok st =>
    rw [opened] at found
    obtain ⟨guarded, wrote⟩ := Bool.and_eq_true_iff.mp found
    cases ran : perform Vfs.mounted blind st (ask (.write 1 [1])) with
    | error _ =>
      rw [ran] at wrote
      cases wrote
    | ok st' =>
      have run : Run (perform Vfs.mounted blind) (fun st act => act.Valid st ∧ act.Careful Vfs.mounted st) usrOnly st :=
        .call (ask (.open Vfs.usr 0)) .start ⟨trivial, fun _ _ _ _ => .inl (by decide)⟩ opened
      exact ⟨st, run, st', ran, run_readonly run (ask (.write 1 [1])) st' trivial trivial (.inr ⟨1, [1], rfl, guarded⟩) ran⟩

/-- A file that is made on the read-only mount of the programs is made on the disk. -/
theorem run_not_readonly :
    ¬∀ st, Run (perform Vfs.mounted blind) (fun st act => act.Valid st) usrOnly st →
      ∀ act st', act.Valid st → act.Readonly st → perform Vfs.mounted blind st act = .ok st' →
        st'.session.state.files = st.session.state.files := by
  intro claim
  obtain ⟨_, asks, found⟩ := opens_seen
  cases opened : perform Vfs.mounted blind usrOnly (ask (.open Vfs.usrBin 0x42)) with
  | error _ =>
    rw [opened] at found
    cases found
  | ok st' =>
    rw [opened] at found
    have same : st'.session.state.files = [Vfs.usr] :=
      claim usrOnly .start (ask (.open Vfs.usrBin 0x42)) st' trivial (.inl asks) opened
    simp [Except.toOption, same] at found

end Enlil.Vfsd
