import Enlil.Lib.Run
import Enlil.Vfsd.Clients

/-! Processes that are made, send requests to the server and end, in any order. -/

namespace Enlil.Vfsd

open Enlil.Vfs (CString)

/-- What the kernel says about the task with a pid. -/
def taskinfo (k : Sched.State) (pid : Nat) : Option TaskInfo :=
  if pid = 0 then none else (Sched.schedTaskFind k pid).map fun t => ⟨Sched.tgidOf k t, Sched.parentPidOf k t⟩

/--
The kernel's tasks, its files and the server.

The rest is no part of them: what the server should know, and the views that processes would have
if each took its parent's over when it was made.
-/
structure World (σ : Type) where
  kernel : Sched.Session
  files : σ
  server : Server
  model : Model
  forked : Nat → View

/-- What can happen: a call that makes or ends tasks, a request of a task, and any change of files; an exec is none of them. -/
inductive Op (σ : Type) where
  | process (call : Sched.Call)
  | request (sender : Nat) (request : Request)
  | files (st : σ)

/-- New processes take the views of their parents over. -/
def inherit (before after : Sched.State) (forked : Nat → View) (p : Nat) : View :=
  if before.taskCount ≤ p ∧ p < after.taskCount ∧ Sched.tgidOf after p = p then forked (Sched.parentPidOf after p)
  else forked p

/-- A request that is done changes the view of its process. -/
def moveOwn (taskinfo : Nat → Option TaskInfo) (sender fresh : Nat) (request : Request) (response : Response)
    (forked : Nat → View) (p : Nat) : View :=
  if response = .done ∧ (taskinfo sender).any (fun info => info.tgid == p) = true then (forked p).moved fresh request
  else forked p

section

variable {σ : Type} (boot : Boot σ)

def exec (w : World σ) : Op σ → Except Unit (World σ)
  | .process call =>
    match call.exec w.kernel with
    | .ok kernel => .ok { w with kernel := kernel, forked := inherit w.kernel.sched kernel.sched w.forked }
    | .error _ => .error ()
  | .request sender request =>
    match serve boot w.files w.server (taskinfo w.kernel.sched) sender request with
    | none => .error ()
    | some (st, s, response) =>
      .ok { w with
        files := st
        server := s
        model := w.model.request (taskinfo w.kernel.sched) sender (tableOf s) request response
        forked := moveOwn (taskinfo w.kernel.sched) sender w.model.next request response w.forked }
  | .files st => .ok { w with files := st }

/-- Calls about tasks are as the kernel allows them; anything may be asked of the server. -/
def Op.Valid (w : World σ) : Op σ → Prop
  | .process call => call.Valid w.kernel
  | .request _ _ | .files _ => True

instance (w : World σ) (op : Op σ) : Decidable (op.Valid w) :=
  match op with
  | .process call => inferInstanceAs (Decidable (call.Valid w.kernel))
  | .request _ _ | .files _ => inferInstanceAs (Decidable True)

def start (st : σ) : World σ := ⟨⟨Sched.schedInit, []⟩, st, vfsdInit, .init, fun _ => .first⟩

/-- The server knows what the model says, and a process it knows by a number is the only one that has had it. -/
structure Sound (w : World σ) : Prop where
  intact : Sched.Intact w.kernel.sched w.kernel.log
  same : Matches w.server w.model
  old : ∀ p ∈ w.model.known, p < w.kernel.sched.taskCount
  named : ∀ p ∈ w.model.known, (w.kernel.sched.tcb p).state ≠ .zombie → Sched.tgidOf w.kernel.sched p = p

variable {boot} {w w' : World σ} {t p : Nat}

theorem taskinfo_task {k : Sched.State} (counted : Sched.Counted k) (inside : t < k.taskCount) (kernel : t ≠ 0) :
    taskinfo k t = some ⟨Sched.tgidOf k t, Sched.parentPidOf k t⟩ := by
  rw [taskinfo, if_neg kernel, counted.find inside]
  rfl

theorem taskinfo_named {k : Sched.State} (counted : Sched.Counted k) {pid : Nat} {info : TaskInfo}
    (found : taskinfo k pid = some info) :
    info.tgid < k.taskCount ∧ ((k.tcb info.tgid).state ≠ .zombie → Sched.tgidOf k info.tgid = info.tgid) := by
  unfold taskinfo at found
  split at found
  · cases found
  obtain ⟨t, there, rfl⟩ := Option.map_eq_some_iff.mp found
  have inside := List.mem_range.mp (List.mem_of_find?_eq_some there)
  dsimp only
  cases proc : Sched.procOf k t with
  | none =>
    -- A task without a process has ended, and goes by its own number.
    have own : Sched.tgidOf k t = t := by
      rw [Sched.tgidOf, proc]
      exact counted.pid t inside
    rw [own]
    exact ⟨inside, fun _ => own⟩
  | some found =>
    unfold Sched.procOf at proc
    dsimp only at proc
    split at proc
    · rename_i used
      obtain ⟨leads, slot⟩ := counted.leader _ used.1 used.2
      have own : Sched.tgidOf k t = (k.procs (k.tcb t).procSlot).tgid := by simp [Sched.tgidOf, Sched.procOf, used]
      rw [own]
      refine ⟨leads, fun lives => ?_⟩
      rw [counted.tgidOf_live leads lives, slot]
    · cases proc

theorem Sound.process (sound : Sound w) (inside : t < w.kernel.sched.taskCount)
    (lives : (w.kernel.sched.tcb t).state ≠ .zombie) (kernel : t ≠ 0) :
    ∃ parentPid, w.model.process (taskinfo w.kernel.sched) t = some ⟨Sched.tgidOf w.kernel.sched t, parentPid⟩ := by
  unfold Model.process
  split
  · rename_i known
    exact ⟨0, by rw [sound.named t (List.mem_of_mem_take known) lives]⟩
  · exact ⟨_, taskinfo_task sound.intact.counted inside kernel⟩

theorem known_request (m : Model) (info : Nat → Option TaskInfo) (sender : Nat) (table : Nat → Nat → NsMount) (request : Request)
    (response : Response) (known : p ∈ (m.request info sender table request response).known) :
    p ∈ m.known ∨ ∃ found, info sender = some found ∧ p = found.tgid := by
  unfold Model.request at known
  split at known
  · exact .inl known
  cases process : m.process info sender with
  | none =>
    rw [process] at known
    exact .inl known
  | some found =>
    have met : p ∈ (m.meet found).known := by
      rw [process] at known
      dsimp only at known
      split at known
      · exact known
      · exact known
    unfold Model.meet at met
    split at met
    · exact .inl met
    · rename_i fresh
      rcases List.mem_append.mp met with old | last
      · exact .inl old
      · refine .inr ⟨found, ?_, List.mem_singleton.mp last⟩
        unfold Model.process at process
        split at process
        · rename_i served
          cases process
          exact absurd (List.mem_of_mem_take served) fresh
        · exact process

theorem Sound.step (sound : Sound w) {op : Op σ} (valid : op.Valid w) (ran : exec boot w op = .ok w') : Sound w' := by
  cases op with
  | process call =>
    unfold exec at ran
    dsimp only at ran
    split at ran
    · rename_i kernel called
      cases ran
      have kin := sound.intact.call_kin valid called
      have after := sound.intact.call valid called
      refine ⟨after, sound.same, fun p known => lt_of_lt_of_le (sound.old p known) kin.grown, fun p known lives => ?_⟩
      have old := sound.old p known
      rw [(kin.tgidOf sound.intact.counted after.counted old lives).1]
      exact sound.named p known (kin.alive p old lives)
    · cases ran
  | request sender request =>
    unfold exec at ran
    dsimp only at ran
    split at ran
    · cases ran
    · rename_i st s response served
      cases ran
      refine ⟨sound.intact, sound.same.serve served, fun p known => ?_, fun p known lives => ?_⟩
      · rcases known_request _ _ _ _ _ _ known with old | ⟨info, found, rfl⟩
        · exact sound.old p old
        · exact (taskinfo_named sound.intact.counted found).1
      · rcases known_request _ _ _ _ _ _ known with old | ⟨info, found, rfl⟩
        · exact sound.named p old lives
        · exact (taskinfo_named sound.intact.counted found).2 lives
  | files st =>
    cases ran
    exact ⟨sound.intact, sound.same, sound.old, sound.named⟩

theorem Sound.run {from_ : World σ} (sound : Sound from_) (run : Run (exec boot) (fun w op => op.Valid w) from_ w) : Sound w :=
  run.invariant sound fun sound valid ran => sound.step valid ran

theorem start_sound (st : σ) : Sound (start st) :=
  ⟨Sched.schedInit_intact, vfsdInit_matches, fun _ mem => (List.not_mem_nil mem).elim,
    fun _ mem => (List.not_mem_nil mem).elim⟩

theorem mem_take_concat {known : List Nat} {room : Nat} (mem : p ∈ known) :
    p ∈ known.take room ↔ p ∈ (known ++ [p]).take room := by
  by_cases full : room ≤ known.length
  · rw [List.take_append_of_le_length full]
  · rw [List.take_of_length_le (by omega), List.take_of_length_le (by simp; omega)]
    simp [mem]

theorem Sound.getOrCreate_iff (sound : Sound w) (inside : t < w.kernel.sched.taskCount)
    (lives : (w.kernel.sched.tcb t).state ≠ .zombie) (kernel : t ≠ 0) :
    (vfsdClientGetOrCreate (taskinfo w.kernel.sched) w.server t).2.isSome = true ↔
      Sched.tgidOf w.kernel.sched t ∈ (w.model.known ++ [Sched.tgidOf w.kernel.sched t]).take vfsdMaxClients := by
  obtain ⟨parentPid, process⟩ := sound.process inside lives kernel
  have met := sound.same.getOrCreate (taskinfo w.kernel.sched) t
  rw [process] at met
  -- Either way the processes that are served then are the first of those that have asked.
  have served : Sched.tgidOf w.kernel.sched t ∈ (w.model.meet ⟨Sched.tgidOf w.kernel.sched t, parentPid⟩).served ↔
      Sched.tgidOf w.kernel.sched t ∈ (w.model.known ++ [Sched.tgidOf w.kernel.sched t]).take vfsdMaxClients := by
    unfold Model.meet
    split
    · rename_i known
      exact mem_take_concat known
    · rfl
  rw [← served]
  cases got : vfsdClientGetOrCreate (taskinfo w.kernel.sched) w.server t with
  | mk s result =>
    rw [got] at met
    cases result with
    | none => simpa using met.2
    | some c => simpa using mem_served.mpr ⟨c, met.2⟩

theorem Sound.getOrCreate_own (sound : Sound w) (inside : t < w.kernel.sched.taskCount)
    (lives : (w.kernel.sched.tcb t).state ≠ .zombie) (kernel : t ≠ 0) {s : Server} {c : Nat}
    (got : vfsdClientGetOrCreate (taskinfo w.kernel.sched) w.server t = (s, some c)) :
    c < vfsdMaxClients ∧ (s.clients c).inUse = true ∧ (s.clients c).tgid = Sched.tgidOf w.kernel.sched t := by
  obtain ⟨parentPid, process⟩ := sound.process inside lives kernel
  have met := sound.same.getOrCreate (taskinfo w.kernel.sched) t
  rw [process, got] at met
  obtain ⟨same, small, there⟩ := met
  obtain ⟨used, own, _⟩ := same.record c small _ there
  exact ⟨small, used, own⟩

theorem Sound.fresh (sound : Sound w) {call : Sched.Call} {kernel : Sched.Session} (valid : call.Valid w.kernel)
    (called : call.exec w.kernel = .ok kernel) (new : w.kernel.sched.taskCount ≤ t) (inside : t < kernel.sched.taskCount)
    {c : Nat} (small : c < vfsdMaxClients) (used : (w.server.clients c).inUse = true) :
    (w.server.clients c).tgid ≠ (kernel.sched.tcb t).pid := by
  rw [(sound.intact.call valid called).counted.pid t inside]
  cases there : w.model.known[c]? with
  | none =>
    rw [sound.same.free c small there] at used
    cases used
  | some p =>
    rw [(sound.same.record c small p there).2.1]
    exact ne_of_lt (lt_of_lt_of_le (sound.old p (List.mem_of_getElem? there)) new)

/--
In every run, a task that has not ended is given a record exactly when its process is one of the first 64 that asked.

The record is that of its process, and no record has the number of a task that is made later.
-/
theorem run_getOrCreate {st : σ} (run : Run (exec boot) (fun w op => op.Valid w) (start st) w) :
    (∀ t < w.kernel.sched.taskCount, (w.kernel.sched.tcb t).state ≠ .zombie → t ≠ 0 →
      ((vfsdClientGetOrCreate (taskinfo w.kernel.sched) w.server t).2.isSome = true ↔
        Sched.tgidOf w.kernel.sched t ∈ (w.model.known ++ [Sched.tgidOf w.kernel.sched t]).take vfsdMaxClients) ∧
      ∀ s c, vfsdClientGetOrCreate (taskinfo w.kernel.sched) w.server t = (s, some c) →
        c < vfsdMaxClients ∧ (s.clients c).inUse = true ∧ (s.clients c).tgid = Sched.tgidOf w.kernel.sched t) ∧
      ∀ (call : Sched.Call) (kernel : Sched.Session), call.Valid w.kernel → call.exec w.kernel = .ok kernel →
        ∀ t, w.kernel.sched.taskCount ≤ t →
        t < kernel.sched.taskCount → ∀ c < vfsdMaxClients, (w.server.clients c).inUse = true →
          (w.server.clients c).tgid ≠ (kernel.sched.tcb t).pid := by
  have sound := (start_sound st).run run
  exact ⟨fun t inside lives kernel => ⟨sound.getOrCreate_iff inside lives kernel,
      fun s c got => sound.getOrCreate_own inside lives kernel got⟩,
    fun call kernel valid called t new inside c small used => sound.fresh valid called new inside small used⟩

theorem Sound.getOrCreate_view (sound : Sound w) (inside : t < w.kernel.sched.taskCount)
    (lives : (w.kernel.sched.tcb t).state ≠ .zombie) (kernel : t ≠ 0) {s : Server} {c : Nat}
    (got : vfsdClientGetOrCreate (taskinfo w.kernel.sched) w.server t = (s, some c)) :
    ⟨(s.clients c).nsId, (s.clients c).cwd⟩ =
      (w.model.meet ⟨Sched.tgidOf w.kernel.sched t, Sched.parentPidOf w.kernel.sched t⟩).views
        (Sched.tgidOf w.kernel.sched t) := by
  have met := sound.same.getOrCreate (taskinfo w.kernel.sched) t
  unfold Model.process at met
  by_cases known : t ∈ w.model.served
  · have named := sound.named t (List.mem_of_mem_take known) lives
    rw [if_pos known, got] at met
    obtain ⟨same, small, there⟩ := met
    obtain ⟨_, _, nsId, cwd⟩ := same.record c small _ there
    rw [nsId, cwd, named]
    simp [Model.meet, List.mem_of_mem_take known]
  · rw [if_neg known, taskinfo_task sound.intact.counted inside kernel, got] at met
    obtain ⟨same, small, there⟩ := met
    obtain ⟨_, _, nsId, cwd⟩ := same.record c small _ there
    rw [nsId, cwd]

theorem request_view {m : Model} {info : Nat → Option TaskInfo} {sender : Nat} {table : Nat → Nat → NsMount} {request : Request}
    {response : Response} (known : p ∈ m.known) :
    p ∈ (m.request info sender table request response).known ∧
      m.next ≤ (m.request info sender table request response).next ∧
      (((m.request info sender table request response).views p).nsId = (m.views p).nsId ∨
        ((m.request info sender table request response).views p).nsId = m.next) := by
  have met : ∀ found, p ∈ (m.meet found).known ∧ (m.meet found).views p = m.views p ∧ (m.meet found).next = m.next := by
    intro found
    unfold Model.meet
    split
    · exact ⟨known, rfl, rfl⟩
    · rename_i fresh
      have other : p ≠ found.tgid := fun own => fresh (own ▸ known)
      exact ⟨List.mem_append_left _ known, Function.update_of_ne other _ _, rfl⟩
  unfold Model.request
  split
  · exact ⟨known, le_refl _, .inl rfl⟩
  split
  · exact ⟨known, le_refl _, .inl rfl⟩
  rename_i found _
  obtain ⟨known', view, next⟩ := met found
  split
  · refine ⟨known', ?_, ?_⟩
    · unfold Model.change
      dsimp only
      split
      · rw [next]
        exact Nat.le_succ _
      · exact next.ge
    · unfold Model.change
      dsimp only
      by_cases own : p = found.tgid
      · subst own
        rw [Function.update_self, view, next]
        unfold View.moved
        split
        · split <;> exact .inl rfl
        · exact .inr rfl
        · exact .inl rfl
        · exact .inl rfl
      · rw [Function.update_of_ne own, view]
        exact .inl rfl
  · exact ⟨known', next.ge, .inl (by rw [view])⟩

theorem request_view_other {m : Model} {info : Nat → Option TaskInfo} {sender : Nat} {table : Nat → Nat → NsMount}
    {request : Request} {response : Response} {found : TaskInfo} (process : m.process info sender = some found)
    (other : p ≠ found.tgid) : (m.request info sender table request response).views p = m.views p := by
  have met : (m.meet found).views p = m.views p := by
    unfold Model.meet
    split
    · rfl
    · exact Function.update_of_ne other _ _
  unfold Model.request
  split
  · rfl
  rw [process]
  dsimp only
  split
  · exact (Function.update_of_ne other _ _).trans met
  · exact met

theorem run_apart {after : World σ} {q : Nat} (run : Run (exec boot) (fun w op => op.Valid w) w' after)
    (known : q ∈ w'.model.known) {nsId : Nat} (made : nsId < w'.model.next) (apart : (w'.model.views q).nsId ≠ nsId) :
    (after.model.views q).nsId ≠ nsId := by
  have kept : q ∈ after.model.known ∧ nsId < after.model.next ∧ (after.model.views q).nsId ≠ nsId := by
    refine @Run.invariant _ _ _ _ _
      (fun w => q ∈ w.model.known ∧ nsId < w.model.next ∧ (w.model.views q).nsId ≠ nsId) _ ⟨known, made, apart⟩ ?_ _ run
    rintro before later op ⟨known, made, apart⟩ _ ran
    cases op with
    | process call =>
      unfold exec at ran
      dsimp only at ran
      split at ran
      · cases ran
        exact ⟨known, made, apart⟩
      · cases ran
    | request sender request =>
      unfold exec at ran
      dsimp only at ran
      split at ran
      · cases ran
      · cases ran
        obtain ⟨known', next, same | fresh⟩ := request_view known
        · exact ⟨known', lt_of_lt_of_le made next, same ▸ apart⟩
        · exact ⟨known', lt_of_lt_of_le made next, fresh ▸ made.ne'⟩
    | files st =>
      cases ran
      exact ⟨known, made, apart⟩
  exact kept.2.2

theorem request_tables {m : Model} {info : Nat → Option TaskInfo} {sender : Nat} {table : Nat → Nat → NsMount}
    {request : Request} {response : Response} {found : TaskInfo} (process : m.process info sender = some found) {nsId : Nat}
    (made : nsId < m.next) (apart : nsId ≠ ((m.meet found).views found.tgid).nsId) :
    (m.request info sender table request response).tables nsId = m.tables nsId := by
  have kept : (m.meet found).tables = m.tables ∧ (m.meet found).next = m.next := by
    unfold Model.meet
    split <;> exact ⟨rfl, rfl⟩
  unfold Model.request
  split
  · rfl
  rw [process]
  dsimp only
  split
  · unfold Model.change
    dsimp only
    rw [← kept.1]
    split
    · exact Function.update_of_ne (by rw [kept.2]; exact made.ne) _ _
    · exact Function.update_of_ne apart _ _
    · exact Function.update_of_ne apart _ _
    · exact Function.update_of_ne apart _ _
    · rfl
  · rw [kept.1]

theorem Sound.used (sound : Sound w) (served : p ∈ w.model.served) :
    ∃ c n, vfsdClientFind w.server p = some c ∧ (w.server.clients c).nsId = (w.model.views p).nsId ∧
      (w.server.clients c).cwd = (w.model.views p).cwd ∧
      vfsdNamespaceFind w.server (w.model.views p).nsId = some n ∧
      (w.server.namespaces n).mounts = w.model.tables (w.model.views p).nsId := by
  obtain ⟨c, small, found, there⟩ := sound.same.find served
  obtain ⟨_, _, nsId, cwd⟩ := sound.same.record c small p there
  obtain ⟨positive, made⟩ := sound.same.view p served
  obtain ⟨n, own, _, place⟩ := sound.same.namespaceFind positive made
  rw [own] at made place ⊢
  exact ⟨c, n, found, by rw [nsId, own], cwd, place, (sound.same.space n made).2.2⟩

/--
In every run, a task that has not ended is served with the view its parent had when its process asked first,
as changed by requests of its own process.

A process keeps the mounts it has when another changes those of another namespace, and never comes to use a namespace
that was made for another after it was known.
-/
theorem run_views {st : σ} (run : Run (exec boot) (fun w op => op.Valid w) (start st) w) :
    (∀ t < w.kernel.sched.taskCount, (w.kernel.sched.tcb t).state ≠ .zombie → t ≠ 0 → ∀ s c,
        vfsdClientGetOrCreate (taskinfo w.kernel.sched) w.server t = (s, some c) →
        ⟨(s.clients c).nsId, (s.clients c).cwd⟩ =
          (w.model.meet ⟨Sched.tgidOf w.kernel.sched t, Sched.parentPidOf w.kernel.sched t⟩).views
            (Sched.tgidOf w.kernel.sched t)) ∧
      (∀ p ∈ w.model.served, ∃ c n, vfsdClientFind w.server p = some c ∧
        (w.server.clients c).nsId = (w.model.views p).nsId ∧ (w.server.clients c).cwd = (w.model.views p).cwd ∧
        vfsdNamespaceFind w.server (w.model.views p).nsId = some n ∧
        (w.server.namespaces n).mounts = w.model.tables (w.model.views p).nsId) ∧
      (∀ sender request w', exec boot w (.request sender request) = .ok w' → ∀ found,
        w.model.process (taskinfo w.kernel.sched) sender = some found → ∀ nsId < w.model.next,
        nsId ≠ ((w.model.meet found).views found.tgid).nsId → w'.model.tables nsId = w.model.tables nsId) ∧
      ∀ sender flags w', exec boot w (.request sender (.unshare flags)) = .ok w' → w.model.next < w'.model.next →
        ∀ after, Run (exec boot) (fun w op => op.Valid w) w' after → ∀ q ∈ w.model.served, ∀ found,
        w.model.process (taskinfo w.kernel.sched) sender = some found → q ≠ found.tgid →
        (after.model.views q).nsId ≠ w.model.next := by
  have sound := (start_sound st).run run
  refine ⟨fun t inside lives kernel s c got => sound.getOrCreate_view inside lives kernel got, fun p served => sound.used served,
    fun sender request w' ran found process nsId made apart => ?_,
    fun sender flags w' ran made after later q served found process other => ?_⟩
  · unfold exec at ran
    dsimp only at ran
    split at ran
    · cases ran
    · cases ran
      exact request_tables process made apart
  · have known := List.mem_of_mem_take served
    unfold exec at ran
    dsimp only at ran
    split at ran
    · cases ran
    · cases ran
      refine run_apart later (request_view known).1 made ?_
      dsimp only
      rw [request_view_other process other]
      exact (sound.same.view q served).2.ne

end

/-- Files of which each is a directory. -/
def directories : Boot Unit where
  openNow := fun st _ _ => (st, .ok 1)
  statNow := fun st _ => (st, .ok 0x4000)
  closeNow := fun st _ => (st, .ok ())
  readNow := fun st _ _ => (st, .ok [])
  writeNow := fun st _ _ => (st, .ok 0)
  readdirNow := fun st _ => (st, .ok [])
  lseekNow := fun st _ _ _ => (st, .ok 0)

/-- A process forks, and changes its directory before the child asks for anything. -/
def forkThenChdir : List (Op Unit) :=
  [.process (.step (.createUser 100)), .process (.step .block), .process (.fork true), .request 2 (.chdir data)]

/-- A process that has asked once. -/
def oneProcess : List (Op Unit) :=
  [.process (.step (.createUser 100)), .process (.step .block), .request 2 .getcwd]

theorem asks_seen :
    (runList (exec directories) (fun w op => op.Valid w) (start ()) forkThenChdir).any
      (fun w => w.model.views 2 = ⟨1, data⟩ ∧ 2 ∈ w.model.served) = true ∧
    (runList (exec directories) (fun w op => op.Valid w) (start ()) oneProcess).any
      (fun w => w.model.known = [2] ∧ 2 < w.kernel.sched.taskCount ∧ (w.kernel.sched.tcb 2).state ≠ .zombie) = true := by
  decide +kernel

theorem run_views_forkThenChdir :
    ∃ w, Run (exec directories) (fun w op => op.Valid w) (start ()) w ∧ w.model.views 2 = ⟨1, data⟩ ∧
      ∃ c n, vfsdClientFind w.server 2 = some c ∧ (w.server.clients c).nsId = (w.model.views 2).nsId ∧
        (w.server.clients c).cwd = (w.model.views 2).cwd ∧
        vfsdNamespaceFind w.server (w.model.views 2).nsId = some n ∧
        (w.server.namespaces n).mounts = w.model.tables (w.model.views 2).nsId := by
  obtain ⟨w, run, known⟩ := runList_any asks_seen.1
  obtain ⟨view, served⟩ := of_decide_eq_true known
  exact ⟨w, run, view, (run_views run).2.1 2 served⟩

/-- The child is served in the directory that its parent went to after the fork. -/
theorem run_not_forked :
    ¬ ∀ w, Run (exec directories) (fun w op => op.Valid w) (start ()) w →
      ∀ t < w.kernel.sched.taskCount, (w.kernel.sched.tcb t).state ≠ .zombie → t ≠ 0 → ∀ s c,
        vfsdClientGetOrCreate (taskinfo w.kernel.sched) w.server t = (s, some c) →
        ⟨(s.clients c).nsId, (s.clients c).cwd⟩ = w.forked (Sched.tgidOf w.kernel.sched t) := by
  intro always
  have bad : (runList (exec directories) (fun w op => op.Valid w) (start ()) forkThenChdir).any
      (fun w => (3 < w.kernel.sched.taskCount ∧ (w.kernel.sched.tcb 3).state ≠ .zombie : Bool) &&
        match vfsdClientGetOrCreate (taskinfo w.kernel.sched) w.server 3 with
        | (s, some c) => ⟨(s.clients c).nsId, (s.clients c).cwd⟩ ≠ w.forked (Sched.tgidOf w.kernel.sched 3)
        | (_, none) => false) = true := by
    decide +kernel
  obtain ⟨w, run, seen⟩ := runList_any bad
  obtain ⟨alive, wrong⟩ := Bool.and_eq_true_iff.mp seen
  obtain ⟨inside, lives⟩ := of_decide_eq_true alive
  split at wrong
  · rename_i s c got
    exact of_decide_eq_true wrong (always w run 3 inside lives (by decide) s c got)
  · cases wrong

theorem run_getOrCreate_oneProcess :
    ∃ w, Run (exec directories) (fun w op => op.Valid w) (start ()) w ∧ w.model.known = [2] ∧
      ((vfsdClientGetOrCreate (taskinfo w.kernel.sched) w.server 2).2.isSome = true ↔
        Sched.tgidOf w.kernel.sched 2 ∈ ([2] ++ [Sched.tgidOf w.kernel.sched 2]).take vfsdMaxClients) := by
  obtain ⟨w, run, facts⟩ := runList_any asks_seen.2
  obtain ⟨known, inside, lives⟩ := of_decide_eq_true facts
  refine ⟨w, run, known, ?_⟩
  have first := ((run_getOrCreate run).1 2 inside lives (by decide)).1
  rwa [known] at first

/-- The number of tasks that have not ended. -/
def alive (k : Sched.State) : Nat := (List.range k.taskCount).countP fun t => (k.tcb t).state ≠ .zombie

theorem alive_le (k : Sched.State) : alive k ≤ k.taskCount := by
  rw [alive]
  exact List.countP_le_length.trans_eq List.length_range

/-- A process and sixty children ask; then four times a child ends, and another process is made and asks. -/
def manyProcesses : List (Op Unit) :=
  oneProcess ++ (List.range 60).flatMap (fun i => [.process (.fork true), .request (i + 3) .getcwd]) ++
    [.process (.step .yield)] ++
    (List.range 4).flatMap fun i => [.process (.exit 0 []), .process (.fork true), .request (i + 63) .getcwd]

set_option maxRecDepth 100000 in
/-- The sixty-fifth process that asks is refused, although only sixty-three tasks have not ended. -/
theorem run_getOrCreate_refused :
    ¬ ∀ w, Run (exec directories) (fun w op => op.Valid w ∧ alive w.kernel.sched < vfsdMaxClients) (start ()) w →
      alive w.kernel.sched < vfsdMaxClients → ∀ t < w.kernel.sched.taskCount,
        (w.kernel.sched.tcb t).state ≠ .zombie → t ≠ 0 →
          (vfsdClientGetOrCreate (taskinfo w.kernel.sched) w.server t).2.isSome = true := by
  intro always
  -- The tasks are counted only once so many were made that the count could be reached.
  have bad : (runList (exec directories)
      (fun w op => op.Valid w ∧ (w.kernel.sched.taskCount < vfsdMaxClients ∨ alive w.kernel.sched < vfsdMaxClients)) (start ())
      manyProcesses).any (fun w => alive w.kernel.sched < vfsdMaxClients ∧ 66 < w.kernel.sched.taskCount ∧
        (w.kernel.sched.tcb 66).state ≠ .zombie ∧
          (vfsdClientGetOrCreate (taskinfo w.kernel.sched) w.server 66).2.isSome = false) = true := by
    decide +kernel
  obtain ⟨w, run, seen⟩ := runList_any bad
  obtain ⟨few, inside, lives, refused⟩ := of_decide_eq_true seen
  have living : Run (exec directories) (fun w op => op.Valid w ∧ alive w.kernel.sched < vfsdMaxClients) (start ()) w :=
    run.mono fun w op allowed => ⟨allowed.1, allowed.2.elim (alive_le w.kernel.sched).trans_lt id⟩
  rw [always w living few 66 inside lives (by decide)] at refused
  cases refused

end Enlil.Vfsd
