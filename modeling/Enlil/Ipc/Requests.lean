import Enlil.Ipc.Steps

/-! Which runs match every reply with its request. -/

namespace Enlil.Ipc

/-- A call that has just returned with a reply got it for its own request, and that had been received. -/
def Answered (k : State) : Prop :=
  ∀ ret request msg, k.returned = some ret → ret.request = some request → ret.result = .ok msg →
    ret.answers = some request ∧ k.received request = 1

/-- The client of a pending request is inside of the call that made it. -/
def PendingInside (k : State) : Prop :=
  ∀ slot < maxPorts, (k.ports slot).pendingValid = true →
    ∃ t, (k.place t).request = some (slot, (k.ports slot).request)

/-- No reply is made to a request that is still pending, and no call returns while its request is. -/
def Orderly (k : State) : Op → Prop
  | .advance _ =>
    match k.place k.sched.current with
    | .replying slot _ _ => (k.ports slot).activeClientTid ≠ 0 → (k.ports slot).replyValid = false →
      (k.ports slot).pendingValid = false
    | .collecting slot request => (k.ports slot).pendingValid = true → (k.ports slot).request ≠ request
    | _ => True
  | _ => True

instance (k : State) : (op : Op) → Decidable (Orderly k op)
  | .advance _ =>
    match here : k.place k.sched.current with
    | .replying slot _ _ => decidable_of_iff ((k.ports slot).activeClientTid ≠ 0 → (k.ports slot).replyValid = false →
        (k.ports slot).pendingValid = false) (by rw [Orderly, here])
    | .collecting slot request =>
      decidable_of_iff ((k.ports slot).pendingValid = true → (k.ports slot).request ≠ request) (by rw [Orderly, here])
    | .idle | .calling .. | .donating .. | .waking .. | .blocking .. | .receiving .. | .resting _ | .fetching _
    | .clearing .. | .rousing _ => .isTrue (by rw [Orderly, here]; trivial)
  | .create _ | .destroy _ | .rebind .. | .call .. | .wait _ | .poll _ | .reply .. | .turn _ => .isTrue trivial

/-- The state of a port fits the receptions: a pending request has had none, and one that is served or answered one. -/
structure Use.Fits (use : Use) (requests : Nat) (received : Nat → Nat) : Prop where
  unread : use.pending = true → use.request < requests ∧ received use.request = 0
  served : use.client ≠ 0 → use.pending = false → use.served = some use.request ∧ received use.request = 1
  answers : use.reply = true → use.answers = some use.request ∧ received use.request = 1

/-- The requests accepted so far, their receptions and replies fit together. -/
structure Ordered (k : State) : Prop where
  once : ∀ request, k.received request ≤ 1
  fresh : ∀ request, k.requests ≤ request → k.received request = 0
  fits : ∀ slot, (k.uses slot).Fits k.requests k.received
  apart : ∀ slot slot', (k.uses slot).pending = true → (k.uses slot').pending = true →
    (k.uses slot).request = (k.uses slot').request → slot = slot'
  mine : ∀ t slot request, k.waits t = some (slot, request) → (k.uses slot).client = (k.sched.tcb t).pid →
    request = (k.uses slot).request
  left : ∀ slot, (k.uses slot).pending = true → ∃ t, k.waits t = some (slot, (k.uses slot).request)

section

variable {k k' : State} {op : Op} {slot : Nat} {use : Use}

theorem Ordered.change (ordered : Ordered k) (sane : Sane k) (done : exec k op = .ok k')
    (uses : k'.uses = Function.update k.uses slot use) (requests : k'.requests = k.requests)
    (received : k'.received = k.received) (fits : use.Fits k.requests k.received)
    (same : use.request = (k.uses slot).request) (pending : use.pending = true → (k.uses slot).pending = true)
    (client : use.client = 0 ∨ use.client = (k.uses slot).client)
    (waits : ∀ t s request, k'.waits t = some (s, request) → k.waits t = some (s, request))
    (stays : ∀ t s, k.waits t = some (s, (k.uses s).request) → (k'.uses s).pending = true →
      k'.waits t = some (s, (k.uses s).request)) : Ordered k' := by
  have old : ∀ s, (k'.uses s).request = (k.uses s).request ∧ ((k'.uses s).pending = true → (k.uses s).pending = true) ∧
      ((k'.uses s).client = 0 ∨ (k'.uses s).client = (k.uses s).client) := by
    intro s
    rw [uses]
    by_cases own : s = slot
    · subst own
      rw [Function.update_self]
      exact ⟨same, pending, client⟩
    · rw [Function.update_of_ne own]
      exact ⟨rfl, id, .inr rfl⟩
  refine ⟨?_, ?_, ?_, ?_, ?_, ?_⟩
  · rw [received]
    exact ordered.once
  · rw [requests, received]
    exact ordered.fresh
  · intro s
    rw [requests, received, uses]
    by_cases own : s = slot
    · subst own
      rw [Function.update_self]
      exact fits
    · rw [Function.update_of_ne own]
      exact ordered.fits s
  · intro s s' first second equal
    rw [(old s).1, (old s').1] at equal
    exact ordered.apart s s' ((old s).2.1 first) ((old s').2.1 second) equal
  · intro t s request inside name
    have before := waits t s request inside
    rw [(old s).1]
    have named : (k.sched.tcb t).pid ≠ 0 := sane.waiting before
    rw [sane.pid done named] at name
    refine ordered.mine t s request before ?_
    rcases (old s).2.2 with none | kept
    · rw [none] at name
      exact absurd name.symm named
    · rw [← kept]
      exact name
  · intro s first
    obtain ⟨t, inside⟩ := ordered.left s ((old s).2.1 first)
    rw [(old s).1]
    exact ⟨t, stays t s inside first⟩

theorem Ordered.accept (ordered : Ordered k) (sane : Sane k) (done : exec k op = .ok k')
    (client : (k.place k.sched.current).isClient = true) (nothing : k.waits k.sched.current = none)
    (unused : (k.uses slot).reply = false)
    (uses : k'.uses = Function.update k.uses slot
      { k.uses slot with client := currentTid k, pending := true, request := k.requests })
    (waits : k'.waits = Function.update k.waits k.sched.current (some (slot, k.requests)))
    (requests : k'.requests = k.requests + 1) (received : k'.received = k.received) : Ordered k' := by
  have self : k'.uses slot = { k.uses slot with client := currentTid k, pending := true, request := k.requests } := by
    rw [uses, Function.update_self]
  have others : ∀ s, s ≠ slot → k'.uses s = k.uses s := fun s other => by rw [uses, Function.update_of_ne other]
  have named : currentTid k ≠ 0 := sane.client _ client
  refine ⟨?_, ?_, ?_, ?_, ?_, ?_⟩
  · rw [received]
    exact ordered.once
  · intro request later
    rw [requests] at later
    rw [received]
    exact ordered.fresh request (by omega)
  · intro s
    rw [requests, received]
    by_cases own : s = slot
    · subst own
      rw [self]
      refine ⟨fun _ => ⟨Nat.lt_succ_self _, ordered.fresh _ (Nat.le_refl _)⟩, ?_, ?_⟩
      · intro _ read
        cases read
      · intro reply
        rw [unused] at reply
        cases reply
    · rw [others s own]
      have fits := ordered.fits s
      refine { fits with unread := fun pending => ?_ }
      obtain ⟨small, unread⟩ := fits.unread pending
      exact ⟨Nat.lt_succ_of_lt small, unread⟩
  · -- The new number is greater than those of all pending requests.
    have later : ∀ s, s ≠ slot → (k'.uses s).pending = true → (k'.uses s).request < k.requests := by
      intro s other pending
      rw [others s other] at pending ⊢
      exact ((ordered.fits s).unread pending).1
    have number : (k'.uses slot).request = k.requests := by rw [self]
    intro s s' first second equal
    by_cases own : s = slot
    · by_cases own' : s' = slot
      · rw [own, own']
      · have small := later s' own' second
        rw [← equal, own, number] at small
        exact absurd small (Nat.lt_irrefl _)
    · by_cases own' : s' = slot
      · have small := later s own first
        rw [equal, own', number] at small
        exact absurd small (Nat.lt_irrefl _)
      · rw [others s own] at first equal
        rw [others s' own'] at second equal
        exact ordered.apart s s' first second equal
  · intro t s request inside name
    rw [waits] at inside
    by_cases current : t = k.sched.current
    · subst current
      rw [Function.update_self] at inside
      cases inside
      rw [self]
    · rw [Function.update_of_ne current] at inside
      have given : (k.sched.tcb t).pid ≠ 0 := sane.waiting inside
      rw [sane.pid done given] at name
      by_cases own : s = slot
      · -- The port has gone to another task.
        subst own
        rw [self] at name
        exact absurd (sane.same named name).symm current
      · rw [others s own] at name ⊢
        exact ordered.mine t s request inside name
  · intro s pending
    rw [waits]
    by_cases own : s = slot
    · subst own
      refine ⟨k.sched.current, ?_⟩
      rw [Function.update_self, self]
    · rw [others s own] at pending ⊢
      obtain ⟨t, inside⟩ := ordered.left s pending
      have other : t ≠ k.sched.current := by
        rintro rfl
        rw [nothing] at inside
        cases inside
      exact ⟨t, (Function.update_of_ne other _ _).trans inside⟩

theorem Ordered.receive (ordered : Ordered k) (sane : Sane k) (done : exec k op = .ok k')
    (pending : (k.uses slot).pending = true)
    (uses : k'.uses = Function.update k.uses slot
      { k.uses slot with pending := false, served := some (k.uses slot).request })
    (waits : k'.waits = k.waits) (requests : k'.requests = k.requests)
    (received : k'.received = Function.update k.received (k.uses slot).request (k.received (k.uses slot).request + 1)) :
    Ordered k' := by
  obtain ⟨small, unread⟩ := (ordered.fits slot).unread pending
  have self : k'.uses slot = { k.uses slot with pending := false, served := some (k.uses slot).request } := by
    rw [uses, Function.update_self]
  have others : ∀ s, s ≠ slot → k'.uses s = k.uses s := fun s other => by rw [uses, Function.update_of_ne other]
  have now : k'.received (k.uses slot).request = 1 := by rw [received, Function.update_self, unread]
  have before : ∀ request, request ≠ (k.uses slot).request → k'.received request = k.received request :=
    fun request other => by rw [received, Function.update_of_ne other]
  -- What had been received before was another request.
  have still : ∀ request, k.received request = 1 → k'.received request = 1 := by
    intro request one
    rw [before request ?_]
    · exact one
    · rintro rfl
      rw [unread] at one
      cases one
  have old : ∀ s, (k'.uses s).request = (k.uses s).request ∧ (k'.uses s).client = (k.uses s).client ∧
      ((k'.uses s).pending = true → (k.uses s).pending = true ∧ s ≠ slot) := by
    intro s
    by_cases own : s = slot
    · subst own
      rw [self]
      exact ⟨rfl, rfl, fun none => by cases none⟩
    · rw [others s own]
      exact ⟨rfl, rfl, fun some => ⟨some, own⟩⟩
  refine ⟨?_, ?_, ?_, ?_, ?_, ?_⟩
  · intro request
    by_cases own : request = (k.uses slot).request
    · rw [own, now]
    · rw [before request own]
      exact ordered.once request
  · intro request later
    rw [requests] at later
    rw [before request (by omega)]
    exact ordered.fresh request later
  · intro s
    rw [requests]
    have fits := ordered.fits s
    by_cases own : s = slot
    · subst own
      rw [self]
      refine ⟨?_, fun _ _ => ⟨rfl, now⟩, ?_⟩
      · intro none
        cases none
      · intro reply
        rw [(fits.answers reply).2] at unread
        cases unread
    · rw [others s own]
      refine ⟨fun waiting => ?_, fun used read => ?_, fun reply => ?_⟩
      · obtain ⟨small', unread'⟩ := fits.unread waiting
        rw [before _ fun equal => own (ordered.apart s slot waiting pending equal)]
        exact ⟨small', unread'⟩
      · obtain ⟨which, one⟩ := fits.served used read
        exact ⟨which, still _ one⟩
      · obtain ⟨which, one⟩ := fits.answers reply
        exact ⟨which, still _ one⟩
  · intro s s' first second equal
    rw [(old s).1, (old s').1] at equal
    exact ordered.apart s s' ((old s).2.2 first).1 ((old s').2.2 second).1 equal
  · intro t s request inside name
    rw [waits] at inside
    rw [sane.pid done (sane.waiting inside), (old s).2.1] at name
    rw [(old s).1]
    exact ordered.mine t s request inside name
  · intro s waiting
    rw [waits, (old s).1]
    exact ordered.left s ((old s).2.2 waiting).1

theorem Ordered.leave {request : Nat} (ordered : Ordered k) (sane : Sane k) (done : exec k op = .ok k')
    (here : k.place k.sched.current = .collecting slot request)
    (orderly : (k.uses slot).pending = true → (k.uses slot).request ≠ request)
    (uses : k'.uses = Function.update k.uses slot use) (requests : k'.requests = k.requests)
    (received : k'.received = k.received) (fits : use.Fits k.requests k.received)
    (same : use.request = (k.uses slot).request) (pending : use.pending = (k.uses slot).pending)
    (client : use.client = 0 ∨ use.client = (k.uses slot).client)
    (waits : k'.waits = Function.update k.waits k.sched.current none) : Ordered k' := by
  have inside : k.waits k.sched.current = some (slot, request) := by
    show (k.place k.sched.current).request = _
    rw [here]
    rfl
  refine ordered.change sane done uses requests received fits same (by rw [pending]; exact id) client ?_ ?_
  · intro t s number waiting
    rw [waits] at waiting
    by_cases own : t = k.sched.current
    · rw [own, Function.update_self] at waiting
      cases waiting
    · rw [Function.update_of_ne own] at waiting
      exact waiting
  · intro t s waiting still
    have other : t ≠ k.sched.current := by
      rintro rfl
      rw [inside] at waiting
      have which : slot = s := by
        injection waiting with pair
        injection pair
      subst which
      rw [uses, Function.update_self, pending] at still
      apply orderly still
      injection waiting with pair
      injection pair with _ number
      exact number.symm
    rw [waits, Function.update_of_ne other]
    exact waiting

theorem Ordered.step (ordered : Ordered k) (sane : Sane k) (orderly : Orderly k op) (done : exec k op = .ok k') :
    Ordered k' ∧ Answered k' := by
  have nobody : (∀ ret, k'.returned = some ret → ret.request = none) → Answered k' := by
    intro none ret request msg returned which
    rw [none ret returned] at which
    cases which
  cases exec_step done with
  | still uses waits requests received returned =>
    refine ⟨⟨?_, ?_, ?_, ?_, ?_, ?_⟩, nobody returned⟩
    · rw [received]
      exact ordered.once
    · rw [received, requests]
      exact ordered.fresh
    · rw [uses, received, requests]
      exact ordered.fits
    · rw [uses]
      exact ordered.apart
    · rw [uses, waits]
      intro t s request inside name
      rw [sane.pid done (sane.waiting inside)] at name
      exact ordered.mine t s request inside name
    · rw [uses, waits]
      exact ordered.left
  | @created made uses waits requests received returned =>
    refine ⟨?_, nobody (by rw [returned]; simp)⟩
    refine ordered.change sane done uses requests received ⟨by simp, by simp, by simp⟩ rfl (by simp) (.inl rfl) ?_ ?_
    · rw [waits]
      exact fun _ _ _ => id
    · rw [waits]
      exact fun _ _ inside _ => inside
  | @accepted slot owner msg now again here client pending reply uses waits requests received returned =>
    change k.place k.sched.current = _ at here
    have nothing : k.waits k.sched.current = none := by
      show (k.place k.sched.current).request = none
      rw [here]
      rfl
    refine ⟨?_, nobody (by rw [returned]; simp)⟩
    exact ordered.accept sane done (by rw [here]; rfl) nothing reply uses waits requests received
  | received nothing pending uses waits requests received returned =>
    exact ⟨ordered.receive sane done pending uses waits requests received, nobody returned⟩
  | @answered slot msgType data now again here client reply uses waits requests received returned =>
    subst again
    change k.place k.sched.current = _ at here
    rw [Orderly, here] at orderly
    have read : (k.uses slot).pending = false := orderly client reply
    have fits := ordered.fits slot
    refine ⟨?_, nobody (by rw [returned]; simp)⟩
    refine ordered.change sane done uses requests received ⟨fits.unread, fits.served, fun _ => fits.served client read⟩ rfl
      id (.inr rfl) ?_ ?_
    · rw [waits]
      exact fun _ _ _ => id
    · rw [waits]
      exact fun _ _ inside _ => inside
  | @collected slot request now again here client reply uses waits requests received returned =>
    subst again
    change k.place k.sched.current = _ at here
    rw [Orderly, here] at orderly
    have fits := ordered.fits slot
    constructor
    · exact ordered.leave sane done here orderly uses requests received ⟨fits.unread, by simp, by simp⟩ rfl rfl (.inl rfl)
        waits
    · intro ret number msg back which ok
      obtain ⟨msg', returned⟩ := returned
      rw [returned] at back
      cases back
      cases which
      -- The port was in the hands of this client, and so the reply is the one to its request.
      have inside : k.waits k.sched.current = some (slot, request) := by
        show (k.place k.sched.current).request = _
        rw [here]
        rfl
      have own := ordered.mine k.sched.current slot request inside client
      rw [received, own]
      exact fits.answers reply
  | @missed slot request now again here gone uses waits requests received returned =>
    subst again
    change k.place k.sched.current = _ at here
    rw [Orderly, here] at orderly
    constructor
    · have same : k'.uses = Function.update k.uses slot (k.uses slot) := by
        rw [Function.update_eq_self]
        exact uses
      exact ordered.leave sane done here orderly same requests received (ordered.fits slot) rfl rfl (.inr rfl) waits
    · intro ret number msg back which ok
      obtain ⟨error, returned⟩ := returned
      rw [returned] at back
      cases back
      cases ok

end

theorem ordered_mkInit (cntfrq : UInt64) : Ordered (mkInit cntfrq) ∧ Answered (mkInit cntfrq) := by
  have unused := unused_mkInit cntfrq
  refine ⟨⟨?_, fun request _ => unused.received request, ?_, ?_, ?_, ?_⟩, ?_⟩
  · intro request
    rw [unused.received]
    exact Nat.zero_le _
  · intro slot
    rw [unused.uses]
    refine ⟨?_, fun used => absurd rfl used, ?_⟩
    · intro pending
      cases pending
    · intro reply
      cases reply
  · intro slot slot' pending
    rw [unused.uses] at pending
    cases pending
  · intro t slot request inside
    rw [unused.waits] at inside
    cases inside
  · intro slot pending
    rw [unused.uses] at pending
    cases pending
  · intro ret request msg returned
    rw [unused.returned] at returned
    cases returned

/--
In every orderly run, no request is received twice, every reply that a call returns was made for its request, and the
client of every pending request is still inside of its call.
-/
theorem run_matched {cntfrq : UInt64} {k : State} (run : Run exec Orderly (mkInit cntfrq) k) :
    (∀ request, k.received request ≤ 1) ∧ Answered k ∧ PendingInside k := by
  have both : Ordered k ∧ Answered k := by
    induction run with
    | start => exact ordered_mkInit cntfrq
    | call op before orderly done ih => exact ih.1.step (run_sane before) orderly done
  exact ⟨both.1.once, both.2, fun slot _ => both.1.left slot⟩

/-- A server waits for a request, a client makes one, and gets the reply to it. -/
def requestAnswered : List Op :=
  [.turn (.createTask 64), .turn (.createUser 64), .create 2, .turn .block, .wait 7, .advance 0, .advance 0,
    .call 7 1 [1, 2], .advance 0, .advance 0, .advance 0, .advance 0, .advance 0, .reply 7 2 [3], .advance 9, .advance 9,
    .advance 9, .turn .yield, .advance 9]

/-- The server replies without having received the request. -/
def answeredUnread : List Op :=
  [.turn (.createTask 64), .turn (.createUser 64), .create 2, .turn .block, .turn .yield, .call 7 1 [1, 2], .advance 0,
    .advance 0, .advance 0, .reply 7 2 [3], .advance 9, .advance 9, .advance 9, .turn .yield, .advance 9]

theorem replies_seen :
    (runList exec Orderly (mkInit 100) requestAnswered).any
      (fun k => k.returned.any fun ret => ret.request = some 0 ∧ ret.answers = some 0) = true ∧
    (runList exec (fun _ _ => True) (mkInit 100) answeredUnread).any
      (fun k => k.returned.any fun ret => ret.request = some 0 ∧ ret.answers = none ∧ ret.result.isOk) = true := by
  decide +kernel

theorem run_matched_requestAnswered : ∃ k, Run exec Orderly (mkInit 100) k ∧
    (∃ ret, k.returned = some ret ∧ ret.request = some 0 ∧ ret.answers = some 0) ∧
    (∀ request, k.received request ≤ 1) ∧ Answered k ∧ PendingInside k := by
  obtain ⟨k, run, seen⟩ := runList_any replies_seen.1
  obtain ⟨ret, returned, which⟩ := (Option.any_eq_true _ _).mp seen
  exact ⟨k, run, ⟨ret, returned, of_decide_eq_true which⟩, run_matched run⟩

/-- A call can return with a reply that was made before its request was received, and leave the request pending. -/
theorem early_reply_matches_nothing : ¬ ∀ k, Run exec (fun _ _ => True) (mkInit 100) k →
    (∀ request, k.received request ≤ 1) ∧ Answered k ∧ PendingInside k := by
  intro always
  obtain ⟨k, run, seen⟩ := runList_any replies_seen.2
  obtain ⟨ret, returned, which⟩ := (Option.any_eq_true _ _).mp seen
  obtain ⟨request, answers, ok⟩ := of_decide_eq_true which
  cases result : ret.result with
  | error error =>
    rw [result] at ok
    cases ok
  | ok msg =>
    have matched := ((always k run).2.1 ret 0 msg returned request result).1
    rw [answers] at matched
    cases matched

end Enlil.Ipc
