import LLMRuntime.Api.Accounting
import LLMRuntime.Workers.Answered
import LLMRuntime.Workers.Shutdown

namespace LLMRuntime

open Transition ResponseHandle

namespace Pool

variable {n : Nat} {M : SchedulerModel n} {p q : Pool M} {cfg : WorkerConfig}

/-- The terminal records are those of the answered requests, one each, and no worker ends while the pool serves. -/
structure Accounted (p : Pool M) : Prop where
  distinct : p.known.Nodup
  once : (p.services.terminal.map Prod.fst).Nodup
  recorded : ∀ id, id ∈ p.services.terminal.map Prod.fst ↔ id ∈ p.known ∧ (p.handles id).signalled = true
  errors : p.services.invalidStateErrors = 0
  keyed : ∀ i execution, p.executions i = some execution → ∀ id item,
    execution.state.items id = some item → item.request.requestId = id
  alive : p.phase = .serving → ∀ i, p.ended i = false

theorem Accounted.kept (accounted : p.Accounted) (known : q.known = p.known)
    (terminal : q.services.terminal = p.services.terminal)
    (errors : q.services.invalidStateErrors = p.services.invalidStateErrors)
    (handles : ∀ id ∈ p.known, (q.handles id).signalled = (p.handles id).signalled)
    (keyed : ∀ i execution, q.executions i = some execution → ∀ id item,
      execution.state.items id = some item → item.request.requestId = id)
    (alive : q.phase = .serving → ∀ i, q.ended i = false) : q.Accounted where
  distinct := known ▸ accounted.distinct
  once := terminal ▸ accounted.once
  recorded id := by
    rw [terminal, accounted.recorded, known]
    apply and_congr_right
    intro inside
    rw [handles id inside]
  errors := errors.trans accounted.errors
  keyed := keyed
  alive := alive

section Running

variable {i : Fin n} {execution : Execution}

theorem load_signalled (id : String) : (p.load execution).signalled id =
    ((execution.state.items id).isSome && (p.handles id).signalled) := by
  have loaded : (p.load execution).items id =
      (execution.state.items id).map fun item => { item with handle := p.handles id } := rfl
  rw [BatchState.signalled, loaded]
  cases execution.state.items id <;> rfl

theorem load_keyed (accounted : p.Accounted) (executes : p.executions i = some execution) :
    (p.load execution).Keyed := by
  intro id item found
  rcases Option.map_eq_some_iff.mp found with ⟨loaded, before, rfl⟩
  exact accounted.keyed i execution executes id loaded before

theorem store_signalled {st : BatchState} (present : ∀ id, (st.items id).isSome = ((p.load execution).items id).isSome)
    (id : String) : ((p.store st).handles id).signalled =
      if (execution.state.items id).isSome then st.signalled id else (p.handles id).signalled := by
  have here := present id
  change ((((st.items id).map (·.handle)).getD (p.handles id))).signalled = _
  have loaded : ((p.load execution).items id).isSome = (execution.state.items id).isSome := by
    simp [load]
  rw [loaded] at here
  unfold BatchState.signalled
  cases found : st.items id with
  | none =>
    rw [found] at here
    rw [← here]
    rfl
  | some item =>
    rw [found] at here
    rw [← here]
    rfl

theorem Accounted.stored {st : BatchState} {ids : List String} {after : Option Execution} (accounted : p.Accounted)
    (sound : p.Sound) (executes : p.executions i = some execution) (records : (p.load execution).Records st ids)
    (keyed : ∀ later, after = some later → later.state.items = st.items) :
    ((p.store st).setExecution i after).Accounted := by
  have inHand := hands_executing sound executes
  have known : ∀ id ∈ ids, id ∈ p.known := by
    intro id inside
    apply sound.known id
    apply mem_custody_of_hands
    rw [inHand]
    exact records.pending id inside
  have here : ∀ id ∈ ids, (execution.state.items id).isSome = true := fun id inside =>
    (sound.executing i execution executes).2 id (records.pending id inside)
  have before : ∀ id ∈ ids, (p.handles id).signalled = false := by
    intro id inside
    have unset := records.before id inside
    rwa [load_signalled, here id inside, Bool.true_and] at unset
  have handles : ∀ id, ((p.store st).handles id).signalled =
      if id ∈ ids then true else (p.handles id).signalled := by
    intro id
    rw [store_signalled records.present]
    by_cases inside : id ∈ ids
    · rw [if_pos (here id inside), if_pos inside]
      exact records.after id inside
    · rw [if_neg inside]
      split
      · next loaded =>
        rw [records.others id inside, load_signalled, loaded, Bool.true_and]
      · rfl
  have terminal : (p.store st).services.terminal.map Prod.fst = p.services.terminal.map Prod.fst ++ ids :=
    records.terminal
  exact {
    distinct := accounted.distinct
    once := by
      change ((p.store st).services.terminal.map Prod.fst).Nodup
      rw [terminal]
      apply accounted.once.append records.nodup
      intro id early late
      have answered := ((accounted.recorded id).mp early).2
      rw [before id late] at answered
      cases answered
    recorded := by
      intro id
      change id ∈ (p.store st).services.terminal.map Prod.fst ↔ id ∈ p.known ∧ ((p.store st).handles id).signalled = true
      rw [terminal, List.mem_append, accounted.recorded, handles]
      by_cases inside : id ∈ ids
      · simp [inside, known id inside]
      · simp [inside]
    errors := records.errors.trans accounted.errors
    keyed := by
      intro j later runs id item found
      have now : Function.update p.executions i after j = some later := runs
      by_cases same : j = i
      · subst same
        rw [Function.update_self] at now
        rw [keyed later now] at found
        exact records.keyed (load_keyed accounted executes) id item found
      · rw [Function.update_of_ne same] at now
        exact accounted.keyed j later now id item found
    alive := accounted.alive }

theorem yields_accounted (accounted : p.Accounted) (sound : p.Sound) (executes : p.executions i = some execution)
    (event : BatchEvent) : (p.yields cfg i execution event).Accounted := by
  have ready := load_ready sound executes
  rcases BatchState.handleEvent_progress cfg.clock ready execution.batchStart event with ⟨next, handled, -⟩
  rcases BatchState.handleEvent_records cfg.clock ready (load_keyed accounted executes) execution.batchStart event with
    ⟨ids, records⟩
  unfold yields
  rw [handled] at records ⊢
  apply accounted.stored sound executes records
  intro later same
  cases same
  rfl

/-- The sweep at the end of a batch answers and records what is left of it. -/
theorem sweep_accounted (accounted : p.Accounted) (sound : p.Sound) (executes : p.executions i = some execution)
    (cfg : WorkerConfig) {finish : Services → ScheduledRequest → List String → ItemResult}
    (spec : ∀ s item tokens, item.handle.Unanswered → item.cancelled = false → (finish s item tokens).Answers s item)
    {st : BatchState} (swept : (p.load execution).sweep finish (cfg.iter execution.state.pending) = (st, none)) :
    ((p.store st).setExecution i none).Accounted := by
  have ready := load_ready sound executes
  have order := cfg.anyOrder execution.state.pending
  rcases BatchState.sweep_records (p.load execution) spec (load_keyed accounted executes)
    (order.nodup_iff.mpr ready.nodup) order.subset fun id member => ready.unanswered id (order.subset member) with
    ⟨ids, records⟩
  rw [swept] at records
  apply accounted.stored sound executes records
  intro later same
  cases same

theorem ends_accounted (accounted : p.Accounted) (sound : p.Sound) (executes : p.executions i = some execution)
    (ending : Ending) : (p.ends cfg i execution ending).Accounted := by
  cases ending with
  | normal =>
    rcases sweep_shift sound executes cfg fun s item tokens =>
      completeItem_closes cfg.clock (s := s) tokens execution.batchStart with ⟨st, swept, -⟩
    have done : (p.load execution).sweep (fun s item tokens => completeItem cfg.clock s item tokens execution.batchStart)
        (cfg.iter (p.load execution).pending) = (st, none) := swept
    unfold ends
    dsimp only
    rw [done]
    exact sweep_accounted accounted sound executes cfg
      (fun s item tokens => completeItem_answers cfg.clock tokens execution.batchStart) swept
  | raised exc =>
    rcases sweep_shift sound executes cfg fun s item _ => failItem_closes cfg.clock (s := s) exc with ⟨st, swept, -⟩
    have done : (p.load execution).sweep (fun s item _ => failItem cfg.clock s item exc)
        (cfg.iter (p.load execution).pending) = (st, none) := swept
    have stored := sweep_accounted accounted sound executes cfg
      (fun s item _ => failItem_answers cfg.clock exc) swept
    unfold ends
    dsimp only
    unfold fail
    rw [done]
    have same : Function.update p.ended i (p.ended i || (none : Option PyException).isSome) = p.ended := by
      rw [Option.isSome_none, Bool.or_false, Function.update_eq_self]
    dsimp only
    rw [same]
    exact stored

end Running

theorem receive_accounted {action : M.Action} (accounted : p.Accounted) (admits : p.Admits action) :
    (p.receive action).Accounted := by
  cases submits : M.submits? action with
  | none =>
    rw [receive_none submits]
    exact accounted
  | some item =>
    rcases admits item submits with ⟨fresh, created⟩
    have unset : item.handle.signalled = false := (unanswered_fresh created).not_signalled
    have unrecorded : item.requestId ∉ p.services.terminal.map Prod.fst := fun inside =>
      fresh ((accounted.recorded _).mp inside).1
    rw [receive_some submits]
    exact { accounted with
      distinct := by
        apply List.Nodup.append accounted.distinct (List.nodup_singleton _)
        intro id known new
        exact fresh (List.mem_singleton.mp new ▸ known)
      recorded := by
        intro id
        change _ ↔ id ∈ p.known ++ [item.requestId] ∧
          (Function.update p.handles item.requestId item.handle id).signalled = true
        by_cases same : id = item.requestId
        · subst same
          rw [Function.update_self, unset]
          simp [unrecorded]
        · rw [Function.update_of_ne same, accounted.recorded]
          simp [same] }

theorem start_accounted (accounted : p.Accounted) (cfg : WorkerConfig) (i : Fin n) (items : List ScheduledRequest) :
    (p.start cfg i items).Accounted := by
  unfold start
  dsimp only
  split
  · exact accounted.kept rfl rfl rfl (fun _ _ => rfl) accounted.keyed accounted.alive
  · refine accounted.kept rfl rfl rfl (fun _ _ => rfl) ?_ accounted.alive
    intro j execution runs id item found
    by_cases same : j = i
    · subst same
      simp only [setExecution, Function.update_self, Option.some.injEq] at runs
      subst runs
      exact (mem_of_itemsById found).2
    · simp only [setExecution, Function.update_of_ne same] at runs
      exact accounted.keyed j execution runs id item found

theorem schedule_accounted {action : M.Action} (accounted : p.Accounted) (admits : p.Admits action) (t : M.State) :
    (p.advance cfg action t).Accounted := by
  have received := receive_accounted accounted admits
  have followed : (p.follow action t).Accounted :=
    received.kept rfl rfl rfl (fun _ _ => rfl) received.keyed received.alive
  unfold advance
  split
  · exact start_accounted followed cfg _ _
  · exact followed

theorem cancel_accounted (accounted : p.Accounted) (requestId : String) : (p.cancel requestId).Accounted := by
  refine accounted.kept rfl rfl rfl ?_ accounted.keyed accounted.alive
  intro id _
  by_cases same : id = requestId
  · subst same
    simp [cancel, signalled_cancel]
  · simp [cancel, same]

theorem step_accounted {action : PoolAction M} (accounted : p.Accounted) (sound : p.Sound)
    (taken : p.step cfg action = some q) : q.Accounted := by
  have stopping : ∀ i, p.cancelling i = true → p.phase = .serving → False := fun i cancels serving =>
    sound.cancelling i cancels serving
  cases step_moves taken with
  | schedule admits enables moved => exact schedule_accounted accounted admits _
  | yields executes => exact yields_accounted accounted sound executes _
  | ends executes => exact ends_accounted accounted sound executes _
  | cancel => exact cancel_accounted accounted _
  | stop serving =>
    refine accounted.kept rfl rfl rfl (fun _ _ => rfl) accounted.keyed ?_
    intro now
    cases now
  | @throws i wakes execution executes cancelling =>
    refine accounted.kept rfl rfl rfl (fun _ _ => rfl) ?_ fun now => (stopping _ cancelling now).elim
    intro j later runs
    by_cases same : j = i
    · subst same
      simp [setExecution] at runs
    · simp only [setExecution, Function.update_of_ne same] at runs
      exact accounted.keyed j later runs
  | swallows => exact accounted.kept rfl rfl rfl (fun _ _ => rfl) accounted.keyed accounted.alive
  | interrupts idle cancelling moved =>
    exact accounted.kept rfl rfl rfl (fun _ _ => rfl) accounted.keyed fun now => (stopping _ cancelling now).elim
  | returns =>
    refine accounted.kept rfl rfl rfl (fun _ _ => rfl) accounted.keyed ?_
    intro now
    cases now

theorem run_accounted {acts : List (PoolAction M)} (lawful : M.Lawful) (run : exec (step cfg) {} acts = some p) :
    p.Accounted ∧ p.Sound := by
  have begin : ({} : Pool M).Accounted ∧ ({} : Pool M).Sound := by
    refine ⟨⟨List.nodup_nil, List.nodup_nil, ?_, rfl, ?_, fun _ _ => rfl⟩, init_sound lawful⟩
    · simp
    · intro i execution runs
      cases runs
  have kept (p : Pool M) (action : PoolAction M) (q : Pool M) (held : p.Accounted ∧ p.Sound) (_ : True)
      (taken : step cfg p action = some q) : q.Accounted ∧ q.Sound :=
    ⟨step_accounted held.1 held.2 taken, step_sound lawful held.2 taken⟩
  exact exec_invariant kept begin (fun _ _ => True.intro) run

theorem Accounted.recordsOf (accounted : p.Accounted) {id : String} (known : id ∈ p.known) :
    (p.services.recordsOf id).length = if (p.handles id).signalled then 1 else 0 := by
  have counted : (p.services.recordsOf id).length = (p.services.terminal.map Prod.fst).count id := by
    rw [Services.recordsOf, List.length_map, ← List.countP_eq_length_filter, List.count, List.countP_map]
    rfl
  rw [counted]
  split
  · next answered => exact List.count_eq_one_of_mem accounted.once ((accounted.recorded id).mpr ⟨known, answered⟩)
  · next open_ => exact List.count_eq_zero.mpr fun inside => open_ ((accounted.recorded id).mp inside).2

theorem Accounted.settled (accounted : p.Accounted) :
    p.services.metrics.completedCount + p.services.metrics.failedCount =
      (p.known.filter fun id => (p.handles id).signalled).length := by
  have total := tally_total (p.services.terminal.map Prod.snd)
  rw [← p.services.counted] at total
  simp only [MetricsCollector.settled, List.length_map] at total
  have same : (p.services.terminal.map Prod.fst).Perm (p.known.filter fun id => (p.handles id).signalled) := by
    apply (List.perm_ext_iff_of_nodup accounted.once (accounted.distinct.filter _)).mpr
    intro id
    rw [accounted.recorded, List.mem_filter]
  have lengths := same.length_eq
  rw [List.length_map] at lengths
  rw [total, lengths]

end Pool

/-- Whatever the workers and the callers do, also while `stop` cancels them, the workers have made one terminal record
    of a request if it has been answered and none otherwise; until `stop` is called no worker ends, and every request that its caller
    has not given up and nobody has answered is in exactly one place. -/
theorem Scheduling.serves_exactly_once (scheduling : Scheduling) (n : Nat) (cfg : WorkerConfig)
    {acts : List (PoolAction (scheduling.model n))} {p : Pool (scheduling.model n)}
    (run : exec (Pool.step cfg) {} acts = some p) :
    (∀ id ∈ p.known, (p.services.recordsOf id).length = if (p.handles id).signalled then 1 else 0) ∧
      p.services.metrics.completedCount + p.services.metrics.failedCount =
        (p.known.filter fun id => (p.handles id).signalled).length ∧
      p.services.invalidStateErrors = 0 ∧
      (p.phase = .serving → (∀ i, p.ended i = false) ∧ p.custody.Nodup ∧
        ∀ id ∈ p.known, (p.handles id).closed = false → id ∈ p.custody) := by
  rcases Pool.run_accounted (scheduling.model_lawful n) run with ⟨accounted, sound⟩
  refine ⟨fun id known => accounted.recordsOf known, accounted.settled, accounted.errors, fun serving => ?_⟩
  refine ⟨accounted.alive serving, sound.nodup, fun id known opened => ?_⟩
  rcases sound.covered id known with closed | placed | caught
  · rw [opened] at closed
    cases closed
  · exact placed
  · exact absurd serving (sound.stopping id caught)

namespace Scheduling

theorem inOrder_perm (ids : List String) : (id ids).Perm ids := .refl ids

/-- Two of three requests are batched; one is completed before the backend raises. -/
def servedBatch : Option (Pool (ticking.model 1)) :=
  let item (id : String) := ScheduledRequest.ofBody { messages := [] } id 0
  let cfg : WorkerConfig :=
    { clock := ⟨fun tick => tick, monotone_tick⟩, maxBatchSize := 2, batchTimeoutMs := 0, iter := id
      anyOrder := inOrder_perm }
  let only : Fin 1 := ⟨0, Nat.one_pos⟩
  exec (Pool.step cfg) {} [.schedule (FifoAction.submit (item "a") none), .schedule (FifoAction.submit (item "b") none),
    .schedule (FifoAction.submit (item "c") none), .schedule (FifoAction.call only (.batch 2 0)),
    .schedule (FifoAction.collect only), .schedule (FifoAction.collect only), .yields only (.token "a" "x"),
    .yields only (.completed "a"), .ends only (.raised (.other "RuntimeError" "down"))]

theorem serves_exactly_once_batch :
    ∃ p, servedBatch = some p ∧ (p.services.recordsOf "b").length = 1 ∧ (p.services.recordsOf "c").length = 0 ∧
      "c" ∈ p.custody := by
  have served : servedBatch.any (fun p => p.phase = .serving ∧ p.known = ["a", "b", "c"] ∧
      (p.handles "b").signalled = true ∧ (p.handles "c").closed = false) = true := by
    decide +kernel
  rcases (Option.any_eq_true _ _).mp served with ⟨p, run, held⟩
  rcases of_decide_eq_true held with ⟨serving, known, answered, opened⟩
  rcases serves_exactly_once ticking 1 _ run with ⟨records, -, -, alive⟩
  have unsignalled : (p.handles "c").signalled = false := (Bool.or_eq_false_iff.mp opened).2
  have second := records "b" (by simp [known])
  have third := records "c" (by simp [known])
  rw [answered] at second
  rw [unsignalled] at third
  exact ⟨p, run, second, third, (alive serving).2.2 "c" (by simp [known]) opened⟩

end Scheduling

end LLMRuntime
