import LLMRuntime.Workers.Serving

namespace LLMRuntime

open Transition

namespace MetricsCollector

@[simp] theorem recordSuccess_batches (m : MetricsCollector) (request : RuntimeRequest) (n : Nat) :
    (m.recordSuccess request n).batches = m.batches := by
  rw [recordSuccess, recordTiming_batches]
  rfl

@[simp] theorem recordFailure_batches (m : MetricsCollector) (request : RuntimeRequest) :
    (m.recordFailure request).batches = m.batches := by
  rw [recordFailure, recordTiming_batches]
  rfl

end MetricsCollector

section Methods

variable (clock : Clock) (s : Services) (item : ScheduledRequest)

theorem completeItem_batches (tokens : List String) (batchStart : ℚ) :
    (completeItem clock s item tokens batchStart).services.metrics.batches = s.metrics.batches := by
  have recorded (t : Services) (item : ScheduledRequest) (elapsedMs : ℚ) :
      (recordCompletion t item tokens elapsedMs).services.metrics.batches = t.metrics.batches :=
    t.metrics.recordSuccess_batches _ _
  unfold completeItem
  split
  · rfl
  · dsimp only
    split
    · split
      · exact recorded _ _ _
      · split
        · exact recorded _ _ _
        · rfl
    · split
      · rfl
      · exact recorded _ _ _

theorem failItem_batches (exc : PyException) :
    (failItem clock s item exc).services.metrics.batches = s.metrics.batches := by
  have recorded : (s.recordFailure clock item.request).2.metrics.batches = s.metrics.batches :=
    s.metrics.recordFailure_batches _
  unfold failItem
  split
  · rfl
  · dsimp only
    split
    · split
      · exact recorded
      · split <;> exact recorded
    · exact recorded

theorem deliverToken_batches (token : String) :
    (deliverToken clock s item token).services.metrics.batches = s.metrics.batches := by
  unfold deliverToken
  cases item.handle <;> cases item.request.firstTokenAt <;> rfl

end Methods

namespace BatchState

variable (clock : Clock) (st : BatchState)

theorem handleEvent_batches (batchStart : ℚ) (event : BatchEvent) :
    (st.handleEvent clock batchStart event).1.services.metrics.batches = st.services.metrics.batches := by
  unfold handleEvent
  split
  · rfl
  · split
    · rfl
    · split
      · rfl
      · split
        · exact deliverToken_batches clock st.services _ _
        · dsimp only
          split <;> exact completeItem_batches clock st.services _ _ _

theorem sweep_batches {finish : Services → ScheduledRequest → List String → ItemResult}
    (spec : ∀ s item tokens, (finish s item tokens).services.metrics.batches = s.metrics.batches) (ids : List String) :
    (st.sweep finish ids).1.services.metrics.batches = st.services.metrics.batches := by
  induction ids generalizing st with
  | nil => rfl
  | cons id rest ih =>
    rw [sweep]
    split
    · rfl
    · next item found =>
      split
      · exact ih st
      · dsimp only
        split
        · exact spec _ _ _
        · exact (ih _).trans (spec _ _ _)

end BatchState

namespace Pool

variable {n : Nat} {M : SchedulerModel n} {p q : Pool M} {cfg : WorkerConfig} {i : Fin n} {execution : Execution}

theorem fail_batches (st : BatchState) (exc : PyException) :
    (p.fail cfg i st exc).services.metrics.batches = st.services.metrics.batches :=
  st.sweep_batches (fun s item _ => failItem_batches cfg.clock s item exc) (cfg.iter st.pending)

theorem yields_batches (event : BatchEvent) :
    (p.yields cfg i execution event).services.metrics.batches = p.services.metrics.batches := by
  have handled := (p.load execution).handleEvent_batches cfg.clock execution.batchStart event
  unfold yields
  split
  · next st same =>
    rw [same] at handled
    exact handled
  · next st exc same =>
    rw [same] at handled
    exact (fail_batches st exc).trans handled

theorem ends_batches (ending : Ending) :
    (p.ends cfg i execution ending).services.metrics.batches = p.services.metrics.batches := by
  cases ending with
  | raised exc => exact fail_batches (p.load execution) exc
  | normal =>
    have swept := (p.load execution).sweep_batches
      (fun s item tokens => completeItem_batches cfg.clock s item tokens execution.batchStart)
      (cfg.iter (p.load execution).pending)
    unfold ends
    dsimp only
    split
    · next st same =>
      rw [same] at swept
      exact swept
    · next st exc same =>
      rw [same] at swept
      exact (fail_batches st exc).trans swept

theorem start_batches (items : List ScheduledRequest) : (p.start cfg i items).services.metrics.batches =
    (p.services.metrics.batchCount + 1, p.services.metrics.batchSizes ++ [items.length]) := by
  unfold start
  dsimp only
  split <;> rfl

/-- The requests that the scheduler has not returned yet, and those that it has. -/
def dealt (places : Places n) : Multiset String :=
  places.waiting + places.queue + Custody.total places.held +
    (places.returned.flatMap fun dispatched => requestIds dispatched.items : List String)

/-- The collector has counted every batch that was returned, and every request is somewhere. -/
structure Batched (p : Pool M) : Prop where
  batches : p.services.metrics.batches =
    ((p.places.returned.length : Int), p.places.returned.map fun dispatched => dispatched.items.length)
  dealt : p.phase = .serving → (p.known : Multiset String) = dealt p.places

theorem dealt_enter (places : Places n) (id : String) : dealt (places.enter id) = dealt places + {id} := by
  simp only [dealt, Places.enter, ← Multiset.coe_add, Multiset.coe_singleton]
  abel

theorem dealt_put (places : Places n) (id : String) : dealt (places.put id) = dealt places + {id} := by
  simp only [dealt, Places.put, ← Multiset.coe_add, Multiset.coe_singleton]
  abel

theorem dealt_turn {places later : Places n} (turn : places.Turn i later) : dealt later = dealt places := by
  cases turn with
  | quiet same => rw [same]
  | takes id waiting queue held returned =>
    have queued : (places.queue : Multiset String) = {id} + later.queue :=
      Multiset.coe_eq_coe.mpr queue
    rw [dealt, dealt, waiting, held, returned, queued, Custody.total_push]
    abel
  | dispatches dispatched taken waiting queue items held returned =>
    have queued : (places.queue : Multiset String) = taken + later.queue :=
      Multiset.coe_eq_coe.mpr queue
    have cleared := Custody.total_clear places.held i
    rw [dealt, dealt, waiting, held, returned, queued, ← cleared, List.flatMap_append, ← Multiset.coe_add]
    simp only [List.flatMap_cons, List.flatMap_nil, List.append_nil, items, ← Multiset.coe_add]
    abel

theorem Batched.follow {action : M.Action} {t : M.State} (batched : p.Batched)
    (returned : (M.places t).returned = p.places.returned)
    (moved : p.phase = .serving → ((p.receive action).known : Multiset String) = Pool.dealt (M.places t)) :
    (p.advance cfg action t).Batched := by
  rw [advance_quiet returned]
  have services : (p.follow action t).services = p.services := by
    unfold Pool.follow receive
    cases M.submits? action <;> rfl
  have phase : (p.follow action t).phase = p.phase := by
    unfold Pool.follow receive
    cases M.submits? action <;> rfl
  have places : (p.follow action t).places = M.places t := rfl
  constructor
  · rw [services, places, returned]
    exact batched.batches
  · intro serving
    rw [phase] at serving
    exact moved serving

theorem Batched.turn {action : M.Action} {t : M.State} (batched : p.Batched) (submits : M.submits? action = none)
    (consumer : M.consumer? p.scheduler action = some i) (turn : p.places.Turn i (M.places t)) :
    (p.advance cfg action t).Batched := by
  have known : p.phase = .serving → (p.known : Multiset String) = Pool.dealt (M.places t) := fun serving => by
    rw [dealt_turn turn]
    exact batched.dealt serving
  have quiet : (M.places t).returned = p.places.returned → (p.advance cfg action t).Batched := fun returned => by
    apply batched.follow returned
    rw [receive_none submits]
    exact known
  cases turn with
  | quiet same => exact quiet (congrArg Places.returned same)
  | takes id waiting queue held returned => exact quiet returned
  | dispatches dispatched taken waiting queue items held returned =>
    rw [advance_dispatch consumer returned]
    have frame : ∀ r : Pool M, (r.start cfg i dispatched.items).places = r.places ∧
        (r.start cfg i dispatched.items).known = r.known ∧ (r.start cfg i dispatched.items).phase = r.phase := by
      intro r
      unfold start
      dsimp only
      split <;> exact ⟨rfl, rfl, rfl⟩
    have here := frame (p.follow action t)
    have followed : p.follow action t = { p with
        scheduler := t, caught := p.caught ++ p.catches t, resisted := p.resisted || p.Resists action t } := by
      rw [Pool.follow, receive_none submits]
    constructor
    · rw [start_batches, here.1, followed]
      have before := Prod.mk.inj batched.batches
      change (p.services.metrics.batchCount + 1, p.services.metrics.batchSizes ++ [dispatched.items.length]) =
        (((M.places t).returned.length : Int), (M.places t).returned.map fun dispatched => dispatched.items.length)
      rw [returned, before.1, before.2]
      simp
    · rw [here.1, here.2.1, here.2.2, followed]
      exact known

theorem schedule_batched {action : M.Action} {t : M.State} (lawful : M.Lawful) (batched : p.Batched)
    (moved : M.step p.scheduler action = some t) : (p.advance cfg action t).Batched := by
  have joined (item : ScheduledRequest) (submits : M.submits? action = some item) (serving : p.phase = .serving)
      (total : Pool.dealt (M.places t) = Pool.dealt p.places + {item.requestId}) :
      ((p.receive action).known : Multiset String) = Pool.dealt (M.places t) := by
    rw [receive_some submits, total, ← batched.dealt serving, ← Multiset.coe_singleton, Multiset.coe_add]
  cases lawful.flow p.scheduler action t moved with
  | waits item submits places =>
    apply batched.follow (by rw [places]; rfl)
    intro serving
    apply joined item submits serving
    rw [places]
    exact dealt_enter p.places item.requestId
  | appends item submits places =>
    apply batched.follow (by rw [places]; rfl)
    intro serving
    apply joined item submits serving
    rw [places]
    exact dealt_put p.places item.requestId
  | granted id submits nobody waiting places =>
    apply batched.follow (by rw [places]; rfl)
    intro serving
    rw [receive_none submits, batched.dealt serving]
    have before : (p.places.waiting : Multiset String) = {id} + (M.places t).waiting := by
      change ((M.places p.scheduler).waiting : Multiset String) = _
      rw [waiting, ← Multiset.cons_coe, Multiset.singleton_add]
    have after : Pool.dealt (M.places t) =
        Pool.dealt { p.places.put id with waiting := (M.places t).waiting } := congrArg Pool.dealt places
    rw [after, Pool.dealt, before]
    simp only [Pool.dealt, Places.put, ← Multiset.coe_add, Multiset.coe_singleton]
    abel
  | turn i submits consumer turn own => exact batched.turn submits consumer turn
  | aside i submits consumer turn returned detached => exact batched.turn submits consumer turn

theorem yields_kept (event : BatchEvent) : (p.yields cfg i execution event).scheduler = p.scheduler ∧
    (p.yields cfg i execution event).known = p.known ∧ (p.yields cfg i execution event).phase = p.phase := by
  unfold yields
  split <;> exact ⟨rfl, rfl, rfl⟩

theorem ends_kept (ending : Ending) : (p.ends cfg i execution ending).scheduler = p.scheduler ∧
    (p.ends cfg i execution ending).known = p.known ∧ (p.ends cfg i execution ending).phase = p.phase := by
  cases ending with
  | raised exc => exact ⟨rfl, rfl, rfl⟩
  | normal =>
    unfold ends
    dsimp only
    split <;> exact ⟨rfl, rfl, rfl⟩

theorem Batched.kept (batched : p.Batched) (batches : q.services.metrics.batches = p.services.metrics.batches)
    (kept : q.scheduler = p.scheduler ∧ q.known = p.known ∧ q.phase = p.phase) : q.Batched where
  batches := by
    rw [batches, places, kept.1]
    exact batched.batches
  dealt serving := by
    rw [kept.2.2] at serving
    rw [kept.2.1, places, kept.1]
    exact batched.dealt serving

theorem step_batched {action : PoolAction M} (lawful : M.Lawful) (sound : p.Sound) (batched : p.Batched)
    (taken : p.step cfg action = some q) : q.Batched := by
  cases step_moves taken with
  | schedule admits enables moved => exact schedule_batched lawful batched moved
  | yields executes => exact batched.kept (yields_batches _) (yields_kept _)
  | ends executes => exact batched.kept (ends_batches _) (ends_kept _)
  | cancel => exact ⟨batched.batches, batched.dealt⟩
  | stop serving => exact ⟨batched.batches, fun now => nomatch now⟩
  | throws executes cancelling => exact ⟨batched.batches, batched.dealt⟩
  | swallows => exact ⟨batched.batches, batched.dealt⟩
  | @interrupts i wakes t idle cancelling moved =>
    have dropped : (M.places t).returned = p.places.returned := by
      rw [lawful.interrupt _ _ _ _ moved]
      rfl
    constructor
    · change p.services.metrics.batches = (((M.places t).returned.length : Int), (M.places t).returned.map _)
      rw [dropped]
      exact batched.batches
    · intro serving
      exact absurd serving (sound.cancelling i cancelling)
  | returns => exact ⟨batched.batches, fun now => nomatch now⟩

theorem run_batched {acts : List (PoolAction M)} (lawful : M.Lawful) (run : exec (step cfg) {} acts = some p) :
    p.Batched := by
  have empty : ({} : Pool M).places = ⟨[], [], fun _ => [], []⟩ := lawful.init
  have begin : ({} : Pool M).Batched := by
    constructor
    · rw [empty]
      rfl
    · intro _
      rw [empty, Pool.dealt]
      simp [Custody.total]
  have kept (p : Pool M) (action : PoolAction M) (q : Pool M) (held : p.Batched ∧ p.Sound) (_ : True)
      (taken : step cfg p action = some q) : q.Batched ∧ q.Sound :=
    ⟨step_batched lawful held.2 held.1 taken, step_sound lawful held.2 taken⟩
  exact (exec_invariant kept ⟨begin, init_sound lawful⟩ (fun _ _ => True.intro) run).1

end Pool

/-- The batches of the collector are the returned ones, in order; while the pool serves every request that was ever
    submitted waits for the lock, is queued, is held in one partial batch or was in exactly one returned batch. -/
theorem Scheduling.batches_account_for_requests (scheduling : Scheduling) (n : Nat) (cfg : WorkerConfig)
    {acts : List (PoolAction (scheduling.model n))} {p : Pool (scheduling.model n)}
    (run : exec (Pool.step cfg) {} acts = some p) :
    p.services.metrics.batchCount = p.services.metrics.batchSizes.length ∧
      p.services.metrics.batchSizes = p.places.returned.map (fun dispatched => dispatched.items.length) ∧
      (p.phase = .serving →
        (p.known : Multiset String) = p.places.waiting + p.places.queue + Custody.total p.places.held +
          (p.places.returned.flatMap fun dispatched => requestIds dispatched.items : List String) ∧
        p.known.length = p.places.waiting.length + p.places.queue.length + (Custody.total p.places.held).card +
          p.services.metrics.batchSizes.sum) := by
  have batched := Pool.run_batched (scheduling.model_lawful n) run
  have counts := Prod.mk.inj batched.batches
  refine ⟨?_, counts.2, fun serving => ⟨batched.dealt serving, ?_⟩⟩
  · rw [counts.1, counts.2, List.length_map]
  · have total := congrArg Multiset.card (batched.dealt serving)
    simp only [Pool.dealt, Multiset.card_add, Multiset.coe_card, List.length_flatMap] at total
    rw [total, counts.2]
    simp [requestIds]

theorem Scheduling.batches_account_for_requests_batch :
    ∃ p, servedBatch = some p ∧ p.services.metrics.batchSizes = [2] ∧
      3 = p.places.waiting.length + p.places.queue.length + (Custody.total p.places.held).card + 2 := by
  have served : servedBatch.any (fun p => p.phase = .serving ∧ p.known.length = 3 ∧
      p.services.metrics.batchSizes = [2]) = true := by
    decide +kernel
  rcases (Option.any_eq_true _ _).mp served with ⟨p, run, held⟩
  rcases of_decide_eq_true held with ⟨serving, known, sizes⟩
  have total := ((batches_account_for_requests ticking 1 _ run).2.2 serving).2
  rw [known, sizes] at total
  exact ⟨p, run, sizes, total⟩

end LLMRuntime
