import Enlil.Lib.Run
import Enlil.Ipc.Port

/-! What each step of the calls through ports can do to the requests. -/

namespace Enlil.Ipc

/-- What a port has to do with requests. -/
structure Use where
  client : Nat
  pending : Bool
  reply : Bool
  request : Nat
  served : Option Nat
  answers : Option Nat

def Port.use (port : Port) : Use :=
  ⟨port.activeClientTid, port.pendingValid, port.replyValid, port.request, port.served, port.answers⟩

def State.uses (k : State) : Nat → Use := fun slot => (k.ports slot).use

/-- The port and the request that each task waits for the reply to. -/
def State.waits (k : State) : Nat → Option (Nat × Nat) := fun t => (k.place t).request

/-- A task that makes a call of its own, from its first section on. -/
def Place.isClient : Place → Bool
  | .calling .. | .donating .. | .waking .. | .blocking .. | .collecting .. => true
  | .idle | .receiving .. | .resting _ | .fetching _ | .replying .. | .clearing .. | .rousing _ => false

/-- The tasks are named by their places in the pool, and only a task with a name makes calls. -/
structure Sane (k : State) : Prop where
  named : Sched.Named k.sched
  client : ∀ t, (k.place t).isClient = true → (k.sched.tcb t).pid ≠ 0

/-- What the current task does to the requests in one step. -/
inductive Step (k : State) (op : Op) (k' : State) : Prop where
  | still : k'.uses = k.uses → k'.waits = k.waits → k'.requests = k.requests → k'.received = k.received →
      (∀ ret, k'.returned = some ret → ret.request = none) → Step k op k'
  | created {slot : Nat} :
      k'.uses = Function.update k.uses slot { k.uses slot with client := 0, pending := false, reply := false } →
      k'.waits = k.waits → k'.requests = k.requests → k'.received = k.received → k'.returned = none → Step k op k'
  | accepted {slot owner : Nat} {msg : Message} {now : UInt64} : op = .advance now → k.place k.sched.current = .calling slot owner msg →
      (k.uses slot).client = 0 → (k.uses slot).pending = false → (k.uses slot).reply = false →
      k'.uses = Function.update k.uses slot
        { k.uses slot with client := currentTid k, pending := true, request := k.requests } →
      k'.waits = Function.update k.waits k.sched.current (some (slot, k.requests)) → k'.requests = k.requests + 1 →
      k'.received = k.received → k'.returned = none → Step k op k'
  | received {slot : Nat} : k.waits k.sched.current = none → (k.uses slot).pending = true →
      k'.uses = Function.update k.uses slot { k.uses slot with pending := false, served := some (k.uses slot).request } →
      k'.waits = k.waits → k'.requests = k.requests →
      k'.received = Function.update k.received (k.uses slot).request (k.received (k.uses slot).request + 1) →
      (∀ ret, k'.returned = some ret → ret.request = none) → Step k op k'
  | answered {slot : Nat} {msgType : UInt32} {data : List UInt8} {now : UInt64} : op = .advance now →
      k.place k.sched.current = .replying slot msgType data →
      (k.uses slot).client ≠ 0 → (k.uses slot).reply = false →
      k'.uses = Function.update k.uses slot { k.uses slot with reply := true, answers := (k.uses slot).served } →
      k'.waits = k.waits → k'.requests = k.requests → k'.received = k.received → k'.returned = none → Step k op k'
  | collected {slot request : Nat} {now : UInt64} : op = .advance now → k.place k.sched.current = .collecting slot request →
      (k.uses slot).client = currentTid k → (k.uses slot).reply = true →
      k'.uses = Function.update k.uses slot { k.uses slot with client := 0, reply := false } →
      k'.waits = Function.update k.waits k.sched.current none → k'.requests = k.requests → k'.received = k.received →
      (∃ msg, k'.returned = some ⟨k.sched.current, some request, .ok msg, (k.uses slot).answers⟩) → Step k op k'
  | missed {slot request : Nat} {now : UInt64} : op = .advance now → k.place k.sched.current = .collecting slot request →
      ((k.uses slot).client = currentTid k → (k.uses slot).reply = false) → k'.uses = k.uses →
      k'.waits = Function.update k.waits k.sched.current none → k'.requests = k.requests → k'.received = k.received →
      (∃ error, k'.returned = some ⟨k.sched.current, some request, .error error, none⟩) → Step k op k'

section

variable {k k' : State} {op : Op} {t slot : Nat} {now : UInt64}

theorem uses_of_ports {port : Port} (ports : k'.ports = Function.update k.ports slot port) :
    k'.uses = Function.update k.uses slot port.use := by
  funext s
  by_cases own : s = slot
  · subst own
    simp [State.uses, ports]
  · simp [State.uses, ports, own]

theorem uses_same {port : Port} (ports : k'.ports = Function.update k.ports slot port)
    (same : port.use = (k.ports slot).use) : k'.uses = k.uses := by
  rw [uses_of_ports ports, same]
  exact Function.update_eq_self slot k.uses

theorem waits_of_place {place : Place} (places : k'.place = Function.update k.place t place) :
    k'.waits = Function.update k.waits t place.request := by
  funext u
  by_cases own : u = t
  · subst own
    simp [State.waits, places]
  · simp [State.waits, places, own]

theorem waits_same {place : Place} (places : k'.place = Function.update k.place t place)
    (same : place.request = k.waits t) : k'.waits = k.waits := by
  rw [waits_of_place places, same]
  exact Function.update_eq_self t k.waits

theorem Step.going {place : Place} (fresh : k.returned = none) (same : place.request = k.waits t) :
    Step k op (k.go t place) := by
  refine .still rfl (waits_same rfl same) rfl rfl ?_
  intro ret returned
  change k.returned = some ret at returned
  rw [fresh] at returned
  cases returned

theorem Step.ending {result : Except Errno (Option Message)} (nothing : k.waits t = none) : Step k op (k.ends t result) := by
  refine .still rfl (waits_same rfl nothing.symm) rfl rfl ?_
  rintro ret ⟨⟩
  rfl

theorem step_create (fresh : k.returned = none) (ownerTid : Nat) : Step k op (portCreate k ownerTid) := by
  unfold portCreate
  split
  · exact .still rfl rfl rfl rfl fun ret returned => by rw [fresh] at returned; cases returned
  · exact .created (Eq.trans (uses_of_ports rfl) rfl) rfl rfl rfl fresh

theorem step_destroy (fresh : k.returned = none) (id : UInt32) : Step k op (portDestroy k id) := by
  have none : ∀ ret, k.returned = some ret → ret.request = Option.none := fun ret returned => by
    rw [fresh] at returned
    cases returned
  unfold portDestroy
  split
  · exact .still rfl rfl rfl rfl none
  · split
    · exact .still (uses_same rfl rfl) rfl rfl rfl none
    · exact .still rfl rfl rfl rfl none

theorem step_rebind (fresh : k.returned = none) (id : UInt32) (ownerTid : Nat) : Step k op (portRebind k id ownerTid) := by
  have none : ∀ ret, k.returned = some ret → ret.request = Option.none := fun ret returned => by
    rw [fresh] at returned
    cases returned
  unfold portRebind
  split
  · exact .still rfl rfl rfl rfl none
  · split
    · exact .still (uses_same rfl rfl) rfl rfl rfl none
    · exact .still rfl rfl rfl rfl none

theorem step_call (fresh : k.returned = none) (nothing : k.waits k.sched.current = none) (id msgType : UInt32)
    (data : List UInt8) : Step k op (ipcCall k id msgType data) := by
  unfold ipcCall
  dsimp only
  split
  · exact .ending nothing
  · split
    · exact .ending nothing
    · split
      · exact .ending nothing
      · exact .going fresh nothing.symm

theorem step_asOwner (fresh : k.returned = none) (nothing : k.waits k.sched.current = none) (id : UInt32)
    {place : Nat → Place} (without : ∀ slot, (place slot).request = none) : Step k op (asOwner k id place) := by
  unfold asOwner
  dsimp only
  split
  · exact .ending nothing
  · split
    · exact .ending nothing
    · exact .going fresh ((without _).trans nothing.symm)

theorem step_accept (fresh : k.returned = none) {owner : Nat} {msg : Message}
    (here : k.place k.sched.current = .calling slot owner msg) : Step k (.advance now) (accept k slot owner msg now) := by
  have nothing : k.waits k.sched.current = none := by
    show (k.place k.sched.current).request = none
    rw [here]
    rfl
  unfold accept
  dsimp only
  split
  · exact .ending nothing
  · rename_i free
    rw [not_or, not_or, not_not, Bool.not_eq_true, Bool.not_eq_true] at free
    exact .accepted rfl here free.1 free.2.1 free.2.2 (Eq.trans (uses_of_ports rfl) rfl)
      (Eq.trans (waits_of_place rfl) rfl) rfl rfl fresh

theorem step_receive (nothing : k.waits k.sched.current = none) (pending : (k.ports slot).pendingValid = true) :
    Step k op (receive k slot) := by
  refine .received nothing pending (Eq.trans (uses_of_ports rfl) rfl) (waits_same rfl nothing.symm) rfl rfl ?_
  rintro ret ⟨⟩
  rfl

theorem step_firstLook (fresh : k.returned = none) (nothing : k.waits k.sched.current = none) (waits : Bool) :
    Step k op (firstLook k slot waits) := by
  unfold firstLook
  dsimp only
  split
  · exact .ending nothing
  · split
    · rename_i pending
      exact step_receive nothing pending
    · split
      · refine .still (uses_same rfl rfl) (waits_same rfl nothing.symm) rfl rfl ?_
        intro ret returned
        change k.returned = some ret at returned
        rw [fresh] at returned
        cases returned
      · exact .ending nothing

theorem step_secondLook (nothing : k.waits k.sched.current = none) : Step k op (secondLook k slot) := by
  unfold secondLook
  split
  · rename_i pending
    exact step_receive nothing pending
  · exact .ending nothing

theorem step_answer (fresh : k.returned = none) {msgType : UInt32} {data : List UInt8}
    (here : k.place k.sched.current = .replying slot msgType data) : Step k (.advance now) (answer k slot msgType data now) := by
  have nothing : k.waits k.sched.current = none := by
    show (k.place k.sched.current).request = none
    rw [here]
    rfl
  unfold answer
  dsimp only
  split
  · exact .ending nothing
  · rename_i open'
    rw [not_or, Bool.not_eq_true] at open'
    exact .answered rfl here open'.1 open'.2 (Eq.trans (uses_of_ports rfl) rfl) (waits_same rfl nothing.symm) rfl rfl fresh

theorem step_collect {request : Nat} (here : k.place k.sched.current = .collecting slot request) :
    Step k (.advance now) (collect k slot request) := by
  unfold collect
  dsimp only
  split
  · rename_i missing
    refine .missed rfl here ?_ rfl (Eq.trans (waits_of_place rfl) rfl) rfl rfl ⟨_, rfl⟩
    intro client
    rcases missing with other | none
    · exact absurd client other
    · rw [Bool.not_eq_true'] at none
      exact none
  · rename_i there
    rw [not_or, not_not, Bool.not_eq_true', Bool.not_eq_false] at there
    exact .collected rfl here there.1 there.2 (Eq.trans (uses_of_ports rfl) rfl) (Eq.trans (waits_of_place rfl) rfl) rfl rfl
      ⟨_, rfl⟩

theorem step_then (fresh : k.returned = none) {sched : Sched.State} {place : Place}
    (same : place.request = k.waits k.sched.current) : Step k op (k.then sched place) := by
  refine .still rfl (waits_same rfl same) rfl rfl ?_
  intro ret returned
  change k.returned = some ret at returned
  rw [fresh] at returned
  cases returned

theorem blockAt_ok {place : Place} (done : blockAt k place = .ok k') :
    ∃ sched, Sched.schedBlock k.sched = some sched ∧ k' = k.then sched place := by
  unfold blockAt at done
  split at done
  · rename_i sched blocked
    cases done
    exact ⟨sched, blocked, rfl⟩
  · cases done

theorem fromIdle_ok {after : State} (done : fromIdle k after = .ok k') :
    Alive k ∧ k.place k.sched.current = .idle ∧ k' = after := by
  unfold fromIdle at done
  split at done
  · rename_i both
    cases done
    exact ⟨both.1, both.2, rfl⟩
  · cases done

theorem turn_ok {op : Sched.Op} (done : turn k op = .ok k') :
    ∃ sched, Sched.exec k.sched op = .ok sched ∧ k' = { k with sched := sched } := by
  unfold turn at done
  split at done
  · cases done
  · rename_i sched ran
    split at done
    · exact ⟨sched, ran, (fromIdle_ok done).2.2⟩
    · cases done
      exact ⟨sched, ran, rfl⟩

theorem step_advance (fresh : k.returned = none) (done : advance k now = .ok k') : Step k (.advance now) k' := by
  have nothing : (k.place k.sched.current).request = none → k.waits k.sched.current = none := id
  unfold advance at done
  dsimp only at done
  split at done
  · cases done
  · rename_i here
    cases done
    exact step_accept fresh here
  · rename_i slot owner wakes request here
    cases done
    refine step_then fresh ?_
    show _ = (k.place k.sched.current).request
    rw [here]
    split <;> rfl
  · rename_i here
    cases done
    refine step_then fresh ?_
    show _ = (k.place k.sched.current).request
    rw [here]
    rfl
  · rename_i here
    obtain ⟨sched, -, rfl⟩ := blockAt_ok done
    refine step_then fresh ?_
    show _ = (k.place k.sched.current).request
    rw [here]
    rfl
  · rename_i here
    cases done
    exact step_collect here
  · rename_i here
    cases done
    exact step_firstLook fresh (nothing (by rw [here]; rfl)) _
  · rename_i here
    obtain ⟨sched, -, rfl⟩ := blockAt_ok done
    refine step_then fresh ?_
    show _ = (k.place k.sched.current).request
    rw [here]
    rfl
  · rename_i here
    cases done
    exact step_secondLook (nothing (by rw [here]; rfl))
  · rename_i here
    cases done
    exact step_answer fresh here
  · rename_i here
    cases done
    refine step_then fresh ?_
    show _ = (k.place k.sched.current).request
    rw [here]
    rfl
  · rename_i client here
    cases done
    refine .still rfl (waits_same rfl (nothing (by rw [here]; rfl)).symm) rfl rfl ?_
    rintro ret ⟨⟩
    rfl

theorem exec_step (done : exec k op = .ok k') : Step { k with returned := none } op k' := by
  have idle : ∀ {k : State}, k.place k.sched.current = .idle → k.waits k.sched.current = none := by
    intro k here
    show (k.place k.sched.current).request = none
    rw [here]
    rfl
  rw [exec] at done
  cases op with
  | create ownerTid =>
    obtain ⟨-, -, rfl⟩ := fromIdle_ok done
    exact step_create rfl ownerTid
  | destroy id =>
    obtain ⟨-, -, rfl⟩ := fromIdle_ok done
    exact step_destroy rfl id
  | rebind id ownerTid =>
    obtain ⟨-, -, rfl⟩ := fromIdle_ok done
    exact step_rebind rfl id ownerTid
  | call id msgType data =>
    obtain ⟨-, here, rfl⟩ := fromIdle_ok done
    exact step_call rfl (idle here) id msgType data
  | wait id =>
    obtain ⟨-, here, rfl⟩ := fromIdle_ok done
    exact step_asOwner rfl (idle here) id fun _ => rfl
  | poll id =>
    obtain ⟨-, here, rfl⟩ := fromIdle_ok done
    exact step_asOwner rfl (idle here) id fun _ => rfl
  | reply id msgType data =>
    obtain ⟨-, here, rfl⟩ := fromIdle_ok done
    exact step_asOwner rfl (idle here) id fun _ => rfl
  | advance now =>
    rw [perform] at done
    split at done
    · exact step_advance rfl done
    · cases done
  | turn op =>
    obtain ⟨sched, -, rfl⟩ := turn_ok done
    exact .still rfl rfl rfl rfl fun ret returned => by cases returned

theorem advance_sched (done : advance k now = .ok k') : k'.sched = k.sched ∨
    ∃ step, Sched.exec k.sched step = .ok k'.sched ∧ ∀ t code, step ≠ .exitEnd t code := by
  unfold advance at done
  dsimp only at done
  split at done
  · cases done
  · cases done
    left
    unfold accept
    dsimp only
    split <;> rfl
  · cases done
    exact .inr ⟨.donate _ _, rfl, by simp⟩
  · cases done
    exact .inr ⟨.unblock _, rfl, by simp⟩
  · obtain ⟨sched, blocked, rfl⟩ := blockAt_ok done
    refine .inr ⟨.block, ?_, by simp⟩
    rw [Sched.exec, blocked]
    rfl
  · cases done
    left
    unfold collect
    dsimp only
    split <;> rfl
  · cases done
    left
    unfold firstLook
    dsimp only
    repeat' split
    all_goals rfl
  · obtain ⟨sched, blocked, rfl⟩ := blockAt_ok done
    refine .inr ⟨.block, ?_, by simp⟩
    rw [Sched.exec, blocked]
    rfl
  · cases done
    left
    unfold secondLook
    split <;> rfl
  · cases done
    left
    unfold answer
    dsimp only
    split <;> rfl
  · cases done
    cases Sched.schedTaskFind k.sched (k.ports _).ownerTid with
    | none => exact .inl rfl
    | some owner => exact .inr ⟨.clear owner, rfl, by simp⟩
  · rename_i client here
    cases done
    cases Sched.schedTaskFind k.sched client with
    | none => exact .inl rfl
    | some owner => exact .inr ⟨.unblock owner, rfl, by simp⟩

theorem ipcCall_sched (id msgType : UInt32) (data : List UInt8) : (ipcCall k id msgType data).sched = k.sched := by
  unfold ipcCall
  dsimp only
  split
  · rfl
  · split
    · rfl
    · split <;> rfl

theorem asOwner_sched (id : UInt32) (place : Nat → Place) : (asOwner k id place).sched = k.sched := by
  unfold asOwner
  dsimp only
  split
  · rfl
  · split <;> rfl

theorem exec_sched (done : exec k op = .ok k') : k'.sched = k.sched ∨
    ∃ step, Sched.exec k.sched step = .ok k'.sched ∧ ∀ t code, step = .exitEnd t code → op = .turn (.exitEnd t code) := by
  rw [exec] at done
  cases op with
  | create ownerTid =>
    obtain ⟨-, -, rfl⟩ := fromIdle_ok done
    left
    unfold portCreate
    split <;> rfl
  | destroy id =>
    obtain ⟨-, -, rfl⟩ := fromIdle_ok done
    left
    unfold portDestroy
    split
    · rfl
    · split <;> rfl
  | rebind id ownerTid =>
    obtain ⟨-, -, rfl⟩ := fromIdle_ok done
    left
    unfold portRebind
    split
    · rfl
    · split <;> rfl
  | call id msgType data =>
    obtain ⟨-, -, rfl⟩ := fromIdle_ok done
    exact .inl (ipcCall_sched id msgType data)
  | wait id =>
    obtain ⟨-, -, rfl⟩ := fromIdle_ok done
    exact .inl (asOwner_sched id _)
  | poll id =>
    obtain ⟨-, -, rfl⟩ := fromIdle_ok done
    exact .inl (asOwner_sched id _)
  | reply id msgType data =>
    obtain ⟨-, -, rfl⟩ := fromIdle_ok done
    exact .inl (asOwner_sched id _)
  | advance now =>
    rw [perform] at done
    split at done
    · refine (advance_sched done).imp_right fun ⟨step, ran, other⟩ => ⟨step, ran, fun t code same => ?_⟩
      exact absurd same (other t code)
    · cases done
  | turn op =>
    obtain ⟨sched, ran, rfl⟩ := turn_ok done
    exact .inr ⟨op, ran, fun t code same => by rw [same]⟩

/-- The current task goes to a place, where it makes a call only if it did so before. -/
def Follows (k k' : State) : Prop :=
  ∃ place, k'.place = Function.update k.place k.sched.current place ∧
    (place.isClient = true → (k.place k.sched.current).isClient = true)

theorem follows_other (place : Place) (other : place.isClient = false)
    (places : k'.place = Function.update k.place k.sched.current place) : Follows k k' := by
  refine ⟨place, places, fun client => ?_⟩
  rw [other] at client
  cases client

theorem advance_follows (done : advance k now = .ok k') : Follows k k' := by
  unfold advance at done
  dsimp only at done
  split at done
  · cases done
  · rename_i here
    cases done
    unfold accept
    dsimp only
    split
    · exact follows_other _ rfl rfl
    · exact ⟨_, rfl, fun _ => by rw [here]; rfl⟩
  · rename_i here
    cases done
    exact ⟨_, rfl, fun _ => by rw [here]; rfl⟩
  · rename_i here
    cases done
    exact ⟨_, rfl, fun _ => by rw [here]; rfl⟩
  · rename_i here
    obtain ⟨sched, -, rfl⟩ := blockAt_ok done
    exact ⟨_, rfl, fun _ => by rw [here]; rfl⟩
  · cases done
    refine follows_other .idle rfl ?_
    unfold collect
    dsimp only
    split <;> rfl
  · cases done
    unfold firstLook
    dsimp only
    split
    · exact follows_other _ rfl rfl
    · split
      · exact follows_other _ rfl rfl
      · split
        · exact follows_other _ rfl rfl
        · exact follows_other _ rfl rfl
  · obtain ⟨sched, -, rfl⟩ := blockAt_ok done
    exact follows_other _ rfl rfl
  · cases done
    refine follows_other .idle rfl ?_
    unfold secondLook
    split <;> rfl
  · cases done
    unfold answer
    dsimp only
    split
    · exact follows_other _ rfl rfl
    · exact follows_other _ rfl rfl
  · cases done
    exact follows_other _ rfl rfl
  · cases done
    exact follows_other _ rfl rfl

theorem Follows.client (follows : Follows k k') (client : (k'.place t).isClient = true) :
    (k.place t).isClient = true := by
  obtain ⟨place, places, before⟩ := follows
  rw [places] at client
  by_cases own : t = k.sched.current
  · rw [own, Function.update_self] at client
    rw [own]
    exact before client
  · rw [Function.update_of_ne own] at client
    exact client

theorem asOwner_follows (id : UInt32) {place : Nat → Place} (other : ∀ slot, (place slot).isClient = false) :
    Follows k (asOwner k id place) := by
  unfold asOwner
  dsimp only
  split
  · exact follows_other _ rfl rfl
  · split
    · exact follows_other _ rfl rfl
    · exact follows_other _ (other _) rfl

theorem ipcCall_client (id msgType : UInt32) (data : List UInt8)
    (client : ((ipcCall k id msgType data).place t).isClient = true) :
    (k.place t).isClient = true ∨ t = k.sched.current ∧ currentTid k ≠ 0 := by
  have failed : ∀ {result}, ((k.ends k.sched.current result).place t).isClient = true → (k.place t).isClient = true :=
    fun client => Follows.client (follows_other _ rfl rfl) client
  unfold ipcCall at client
  dsimp only at client
  split at client
  · exact .inl (failed client)
  · split at client
    · exact .inl (failed client)
    · rename_i named
      rw [not_or] at named
      split at client
      · exact .inl (failed client)
      · by_cases own : t = k.sched.current
        · exact .inr ⟨own, named.1⟩
        · left
          simpa [State.go, own] using client

theorem perform_clients (done : perform k op = .ok k') (client : (k'.place t).isClient = true) :
    (k.place t).isClient = true ∨ t = k.sched.current ∧ currentTid k ≠ 0 := by
  cases op with
  | create ownerTid =>
    obtain ⟨-, -, rfl⟩ := fromIdle_ok done
    left
    unfold portCreate at client
    split at client <;> exact client
  | destroy id =>
    obtain ⟨-, -, rfl⟩ := fromIdle_ok done
    left
    unfold portDestroy at client
    split at client
    · exact client
    · split at client <;> exact client
  | rebind id ownerTid =>
    obtain ⟨-, -, rfl⟩ := fromIdle_ok done
    left
    unfold portRebind at client
    split at client
    · exact client
    · split at client <;> exact client
  | call id msgType data =>
    obtain ⟨-, -, rfl⟩ := fromIdle_ok done
    exact ipcCall_client id msgType data client
  | wait id =>
    obtain ⟨-, -, rfl⟩ := fromIdle_ok done
    have follows : Follows k (ipcWait k id) := asOwner_follows id fun _ => rfl
    exact .inl (follows.client client)
  | poll id =>
    obtain ⟨-, -, rfl⟩ := fromIdle_ok done
    have follows : Follows k (ipcPoll k id) := asOwner_follows id fun _ => rfl
    exact .inl (follows.client client)
  | reply id msgType data =>
    obtain ⟨-, -, rfl⟩ := fromIdle_ok done
    have follows : Follows k (ipcReply k id msgType data) := asOwner_follows id fun _ => rfl
    exact .inl (follows.client client)
  | advance now =>
    rw [perform] at done
    split at done
    · exact .inl ((advance_follows done).client client)
    · cases done
  | turn op =>
    obtain ⟨sched, -, rfl⟩ := turn_ok done
    exact .inl client

theorem Sane.step (sane : Sane k) (done : exec k op = .ok k') :
    Sane k' ∧ k.sched.taskCount ≤ k'.sched.taskCount := by
  have names : Sched.Named k'.sched ∧ k.sched.taskCount ≤ k'.sched.taskCount := by
    rcases exec_sched done with same | ⟨step, ran, -⟩
    · rw [same]
      exact ⟨sane.named, Nat.le_refl _⟩
    · exact sane.named.exec ran
  obtain ⟨named, more⟩ := names
  refine ⟨⟨named, fun t client => ?_⟩, more⟩
  have old : (k.sched.tcb t).pid ≠ 0 := by
    rcases perform_clients done client with before | ⟨rfl, name⟩
    · exact sane.client t before
    · exact name
  rw [sane.named.pid] at old
  rw [named.pid]
  split at old
  · rename_i inside
    rw [if_pos (Nat.lt_of_lt_of_le inside more)]
    exact old
  · exact absurd rfl old

theorem Sane.pid (sane : Sane k) (done : exec k op = .ok k') (name : (k.sched.tcb t).pid ≠ 0) :
    (k'.sched.tcb t).pid = (k.sched.tcb t).pid := by
  obtain ⟨sane', more⟩ := sane.step done
  rw [sane.named.pid] at name ⊢
  rw [sane'.named.pid]
  split at name
  · rename_i inside
    rw [if_pos inside, if_pos (Nat.lt_of_lt_of_le inside more)]
  · exact absurd rfl name

theorem Sane.waiting {pair : Nat × Nat} (sane : Sane k) (inside : k.waits t = some pair) :
    (k.sched.tcb t).pid ≠ 0 := by
  apply sane.client
  change (k.place t).request = some pair at inside
  cases here : k.place t <;> rw [here] at inside <;> first | rfl | cases inside

theorem Sane.same {u : Nat} (sane : Sane k) (name : (k.sched.tcb t).pid ≠ 0)
    (same : (k.sched.tcb t).pid = (k.sched.tcb u).pid) : t = u := by
  rw [sane.named.pid] at name same
  rw [sane.named.pid] at same
  split at name
  · rename_i inside
    rw [if_pos inside] at same
    split at same
    · exact same
    · exact absurd same name
  · exact absurd rfl name

theorem exec_advance (done : exec k (.advance now) = .ok k') : Alive k := by
  rw [exec, perform] at done
  split at done
  · rename_i alive
    exact alive
  · cases done

theorem exec_alive (done : exec k op = .ok k') (alive : (k.sched.tcb t).state ≠ .zombie)
    (other : ∀ code, op ≠ .turn (.exitEnd t code)) : (k'.sched.tcb t).state ≠ .zombie := by
  rcases exec_sched done with same | ⟨step, ran, ends⟩
  · rw [same]
    exact alive
  · exact Sched.exec_alive ran alive fun code same => other code (ends t code same)

end

theorem mkInit_holds {Inv : State → Prop} {cntfrq : UInt64} (start : Inv (noPorts cntfrq))
    (created : ∀ {k}, Inv k → Inv (portCreate k 0)) : Inv (mkInit cntfrq) := by
  have all : ∀ n k, Inv k → Inv ((List.replicate n 0).foldl portCreate k) := by
    intro n
    induction n with
    | zero => exact fun k holds => holds
    | succ n ih => exact fun k holds => ih (portCreate k 0) (created holds)
  exact all 6 _ start

theorem sane_mkInit (cntfrq : UInt64) : Sane (mkInit cntfrq) := by
  refine mkInit_holds ⟨Sched.named_schedInit, fun t client => by cases client⟩ ?_
  intro k sane
  unfold portCreate
  split <;> exact ⟨sane.named, sane.client⟩

/-- No request has been made yet. -/
structure Unused (k : State) : Prop where
  uses : ∀ slot, k.uses slot = Port.clear.use
  waits : ∀ t, k.waits t = none
  received : ∀ request, k.received request = 0
  returned : k.returned = none

theorem unused_mkInit (cntfrq : UInt64) : Unused (mkInit cntfrq) := by
  refine mkInit_holds ⟨fun _ => rfl, fun _ => rfl, fun _ => rfl, rfl⟩ ?_
  intro k unused
  unfold portCreate
  split
  · exact unused
  · rename_i made _
    refine ⟨fun slot => ?_, unused.waits, unused.received, unused.returned⟩
    have before := unused.uses made
    by_cases own : slot = made
    · subst own
      simp only [State.uses, State.setPort, Function.update_self]
      simp only [State.uses, Port.use, Port.clear, Use.mk.injEq] at before ⊢
      simp [before]
    · simp only [State.uses, State.setPort, Function.update_of_ne own]
      exact unused.uses slot

theorem run_sane {cntfrq : UInt64} {allowed : State → Op → Prop} {k : State} (run : Run exec allowed (mkInit cntfrq) k) :
    Sane k := by
  induction run with
  | start => exact sane_mkInit cntfrq
  | call op _ _ done ih => exact (ih.step done).1

end Enlil.Ipc
