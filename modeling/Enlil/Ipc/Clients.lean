import Enlil.Ipc.Steps

/-! Which runs never leave a port in the hands of a client that is gone. -/

namespace Enlil.Ipc

/-- The client of a port in use is alive and inside of its call on that port. -/
def Attended (k : State) (slot : Nat) : Prop :=
  (k.ports slot).activeClientTid ≠ 0 →
    ∃ t request, (k.sched.tcb t).pid = (k.ports slot).activeClientTid ∧ (k.sched.tcb t).state ≠ .zombie ∧
      (k.place t).request = some (slot, request)

/-- A client looks for its reply only when it is there, and none is ended while a port is in its hands. -/
def Patient (k : State) : Op → Prop
  | .advance _ =>
    match k.place k.sched.current with
    | .collecting slot _ => (k.ports slot).activeClientTid = currentTid k → (k.ports slot).replyValid = true
    | _ => True
  | .turn (.exitEnd t _) =>
    ∀ slot < maxPorts, (k.ports slot).activeClientTid ≠ 0 → (k.ports slot).activeClientTid ≠ (k.sched.tcb t).pid
  | _ => True

instance (k : State) : (op : Op) → Decidable (Patient k op)
  | .advance _ =>
    match here : k.place k.sched.current with
    | .collecting slot _ =>
      decidable_of_iff ((k.ports slot).activeClientTid = currentTid k → (k.ports slot).replyValid = true)
        (by rw [Patient, here])
    | .idle | .calling .. | .donating .. | .waking .. | .blocking .. | .receiving .. | .resting _ | .fetching _
    | .replying .. | .clearing .. | .rousing _ => .isTrue (by rw [Patient, here]; trivial)
  | .turn op =>
    match op with
    | .exitEnd t _ => inferInstanceAs (Decidable (∀ slot < maxPorts, (k.ports slot).activeClientTid ≠ 0 →
        (k.ports slot).activeClientTid ≠ (k.sched.tcb t).pid))
    | .createTask _ | .createUser _ | .forkUser _ | .cloneThread _ | .schedule | .exception | .yield | .block
    | .unblock _ | .stop | .continue _ | .kill _ | .tick .. | .donate .. | .clear _ | .exitBegin .. => .isTrue trivial
  | .create _ | .destroy _ | .rebind .. | .call .. | .wait _ | .poll _ | .reply .. => .isTrue trivial

section

variable {k k' : State}

theorem Attended.keep {op : Op} {slot : Nat} (attended : Attended k slot) (sane : Sane k) (patient : Patient k op)
    (done : exec k op = .ok k') (small : slot < maxPorts)
    (same : (k'.uses slot).client ≠ 0 → (k'.uses slot).client = (k.uses slot).client)
    (stays : (k'.uses slot).client ≠ 0 → ∀ t request, k.waits t = some (slot, request) →
      (k.sched.tcb t).pid = (k.uses slot).client → k'.waits t = some (slot, request)) : Attended k' slot := by
  intro used
  have before : (k.ports slot).activeClientTid ≠ 0 := by
    change (k.uses slot).client ≠ 0
    rw [← same used]
    exact used
  obtain ⟨t, request, name, alive, inside⟩ := attended before
  have named : (k.sched.tcb t).pid ≠ 0 := by
    rw [name]
    exact before
  refine ⟨t, request, ?_, exec_alive done alive ?_, stays used t request inside name⟩
  · rw [sane.pid done named, name]
    exact (same used).symm
  · rintro code rfl
    exact patient slot small before name.symm

theorem Attended.step {op : Op} {slot : Nat} (attended : Attended k slot) (sane : Sane k) (patient : Patient k op)
    (done : exec k op = .ok k') (small : slot < maxPorts) : Attended k' slot := by
  cases exec_step done with
  | still uses waits =>
    refine attended.keep sane patient done small (fun _ => by rw [uses]; rfl) fun _ t request inside _ => ?_
    rw [waits]
    exact inside
  | @created made uses waits =>
    refine attended.keep sane patient done small (fun used => ?_) fun _ t request inside _ => ?_
    · by_cases own : slot = made
      · rw [own, uses, Function.update_self] at used
        exact absurd rfl used
      · rw [uses, Function.update_of_ne own]
        rfl
    · rw [waits]
      exact inside
  | @accepted taken owner msg now again here unused _ _ uses waits =>
    subst again
    change k.place k.sched.current = _ at here
    by_cases own : slot = taken
    · subst own
      intro used
      have named : currentTid k ≠ 0 := sane.client k.sched.current (by rw [here]; rfl)
      refine ⟨k.sched.current, k.requests, ?_, exec_alive done (exec_advance done) (by simp), ?_⟩
      · rw [sane.pid done named]
        show currentTid k = (k'.uses slot).client
        rw [uses, Function.update_self]
        rfl
      · show k'.waits k.sched.current = _
        rw [waits]
        exact Function.update_self _ _ _
    · refine attended.keep sane patient done small (fun _ => by rw [uses, Function.update_of_ne own]; rfl)
        fun _ t request inside _ => ?_
      -- A task that begins a call has not been in another one.
      have apart : t ≠ k.sched.current := by
        rintro rfl
        change (k.place k.sched.current).request = _ at inside
        rw [here] at inside
        cases inside
      rw [waits]
      exact (Function.update_of_ne apart _ _).trans inside
  | @received taken nothing pending uses waits =>
    refine attended.keep sane patient done small (fun _ => ?_) fun _ t request inside _ => ?_
    · by_cases own : slot = taken
      · rw [uses, own, Function.update_self]
        rfl
      · rw [uses, Function.update_of_ne own]
        rfl
    · rw [waits]
      exact inside
  | @answered taken msgType data now again here open' _ uses waits =>
    refine attended.keep sane patient done small (fun _ => ?_) fun _ t request inside _ => ?_
    · by_cases own : slot = taken
      · rw [uses, own, Function.update_self]
        rfl
      · rw [uses, Function.update_of_ne own]
        rfl
    · rw [waits]
      exact inside
  | @collected taken request now again here client reply uses waits =>
    change k.place k.sched.current = _ at here
    by_cases own : slot = taken
    · intro used
      change (k'.uses slot).client ≠ 0 at used
      rw [own, uses, Function.update_self] at used
      exact absurd rfl used
    · refine attended.keep sane patient done small (fun _ => by rw [uses, Function.update_of_ne own]; rfl)
        fun _ t request' inside _ => ?_
      have apart : t ≠ k.sched.current := by
        rintro rfl
        change (k.place k.sched.current).request = _ at inside
        rw [here] at inside
        cases inside
        exact own rfl
      rw [waits]
      exact (Function.update_of_ne apart _ _).trans inside
  | @missed taken request now again here gone uses waits =>
    subst again
    change k.place k.sched.current = _ at here
    refine attended.keep sane patient done small (fun _ => by rw [uses]; rfl) fun _ t request' inside name => ?_
    -- A client that finds no reply has lost the port before.
    have apart : t ≠ k.sched.current := by
      rintro rfl
      change (k.place k.sched.current).request = _ at inside
      rw [here] at inside
      cases inside
      rw [Patient, here] at patient
      have there : (k.uses slot).reply = true := patient name.symm
      have missing : (k.uses slot).reply = false := gone name.symm
      rw [there] at missing
      cases missing
    rw [waits]
    exact (Function.update_of_ne apart _ _).trans inside

end

theorem attended_mkInit (cntfrq : UInt64) (slot : Nat) : Attended (mkInit cntfrq) slot := by
  intro used
  change ((mkInit cntfrq).uses slot).client ≠ 0 at used
  rw [(unused_mkInit cntfrq).uses] at used
  exact absurd rfl used

/--
In every patient run, the client of every port in use is alive and inside of its call.

This is about all orders of calls, waits, replies, signals and ends of tasks.
-/
theorem run_attended {cntfrq : UInt64} {k : State} (run : Run exec Patient (mkInit cntfrq) k) :
    ∀ slot < maxPorts, Attended k slot := by
  intro slot small
  induction run with
  | start => exact attended_mkInit cntfrq slot
  | call op before patient done ih => exact ih.step (run_sane before) patient done small

/-- A server waits for a request, and a client makes one and blocks. -/
def requestMade : List Op :=
  [.turn (.createTask 64), .turn (.createUser 64), .create 2, .turn .block, .wait 7, .advance 0, .advance 0,
    .call 7 1 [1, 2], .advance 0, .advance 0, .advance 0, .advance 0]

/-- The same, but a signal lets the client go on before there is a reply. -/
def continuedTooEarly : List Op :=
  [.turn (.createTask 64), .turn (.createUser 64), .create 2, .turn .block, .wait 7, .advance 0, .advance 0,
    .call 7 1 [1, 2], .advance 0, .advance 0, .advance 0, .advance 0, .turn (.continue 3), .turn .yield, .advance 0]

theorem calls_seen :
    (runList exec Patient (mkInit 100) requestMade).any (fun k => (k.ports 6).activeClientTid = 3) = true ∧
    (runList exec (fun _ _ => True) (mkInit 100) continuedTooEarly).any
      (fun k => (k.ports 6).activeClientTid = (k.sched.tcb 3).pid ∧ (k.sched.tcb 3).pid ≠ 0 ∧ k.place 3 = .idle) = true := by
  decide +kernel

theorem run_attended_requestMade : ∃ k, Run exec Patient (mkInit 100) k ∧ (k.ports 6).activeClientTid = 3 ∧
    ∀ slot < maxPorts, Attended k slot := by
  obtain ⟨k, run, seen⟩ := runList_any calls_seen.1
  exact ⟨k, run, of_decide_eq_true seen, run_attended run⟩

/-- A client that a signal wakes leaves its call, and the port stays in its hands. -/
theorem continued_client_keeps_port :
    ¬ ∀ k, Run exec (fun _ _ => True) (mkInit 100) k → ∀ slot < maxPorts, Attended k slot := by
  intro always
  obtain ⟨k, run, seen⟩ := runList_any calls_seen.2
  obtain ⟨client, named, idle⟩ := of_decide_eq_true seen
  have sane : Sane k := run_sane run
  obtain ⟨t, request, name, -, inside⟩ := always k run 6 (by decide) (by rw [client]; exact named)
  have same : (k.sched.tcb 3).pid = (k.sched.tcb t).pid := client.symm.trans name.symm
  rw [← sane.same named same, idle] at inside
  cases inside

end Enlil.Ipc
