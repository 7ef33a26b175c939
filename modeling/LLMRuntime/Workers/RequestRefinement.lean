import LLMRuntime.Api.Delivery
import LLMRuntime.Workers.RequestAgreement

namespace LLMRuntime

open Transition ResponseHandle

namespace Pool

variable {n : Nat} {M : SchedulerModel n} {p q : Pool M} {cfg : WorkerConfig} {st t : InFlight} {id : String}
  {r : Accepted} {i : Fin n} {action : M.Action} {s : M.State}

section Executing

variable {execution : Execution} {next : BatchState} {views : String → Option ItemView} {after : Option Execution}

/-- The items of a batch, with their records left to the collector. -/
def batchViews (p : Pool M) (execution : Execution) (id : String) : Option ItemView :=
  (execution.state.items id).map fun _ =>
    { handle := p.handles id, tokens := execution.state.tokens id, pending := decide (id ∈ execution.state.pending) }

theorem load_refines (accounted : p.Accounted) (sound : p.Sound) (executes : p.executions i = some execution) :
    (p.load execution).Refines p.services (p.batchViews execution) := by
  refine ⟨rfl, (load_ready sound executes).nodup, fun id => ?_, fun _ _ => rfl⟩
  cases found : execution.state.items id with
  | none =>
    refine .inr ⟨by simp [load, found], by simp [batchViews, found], fun pending => ?_⟩
    have present := (sound.executing i execution executes).2 id pending
    rw [found] at present
    cases present
  | some item =>
    refine .inl ⟨{ item with handle := p.handles id }, _, by simp [load, found], by rw [batchViews, found]; rfl, ?_⟩
    exact ⟨accounted.keyed i execution executes id item found, rfl, rfl, by simp [load], by simp [load]⟩

structure Writes (p : Pool M) (i : Fin n) (next : BatchState) (after : Option Execution) (q : Pool M) : Prop where
  known : q.known = p.known
  places : q.places = p.places
  services : q.services = next.services
  handles : q.handles = (p.store next).handles
  executions : q.executions = Function.update p.executions i after
  follows : ∀ later, after = some later → later.state = next

theorem Writes.queued (writes : p.Writes i next after q) (queued : q.Queued id) : p.Queued id := by
  unfold Queued at queued
  rwa [writes.places] at queued

theorem Writes.viewed {v : ItemView} (writes : p.Writes i next after q) (refines : next.Refines p.services views)
    (viewed : views id = some v) :
    q.handles id = v.handle ∧ q.services.recordsOf id = p.services.recordsOf id ++ v.records := by
  rcases refines.lookup viewed with ⟨item, found, tracks⟩
  constructor
  · rw [writes.handles, ← tracks.handle]
    simp [store, found]
  · rw [writes.services]
    exact tracks.records

theorem Writes.runs {v : ItemView} {tokens : List String} (writes : p.Writes i next after q)
    (refines : next.Refines p.services views) (viewed : views id = some v) (runs : q.Runs id tokens) :
    after.isSome = true ∧ v.pending = true ∧ tokens = v.tokens ∨ ∃ j, j ≠ i ∧ id ∈ p.hands j ∧ p.Runs id tokens := by
  rcases runs with ⟨j, later, executes, pending, received⟩
  rw [writes.executions] at executes
  by_cases same : j = i
  · left
    subst same
    rw [Function.update_self] at executes
    rw [writes.follows later executes] at pending received
    rcases refines.lookup viewed with ⟨item, -, tracks⟩
    exact ⟨by rw [executes]; rfl, tracks.pending.mp pending, received.symm.trans tracks.tokens⟩
  · right
    rw [Function.update_of_ne same] at executes
    refine ⟨j, same, ?_, j, later, executes, pending, received⟩
    rw [hands, executes]
    exact List.mem_append_right _ pending

theorem Writes.keeps (writes : p.Writes i next after q) (refines : next.Refines p.services views)
    (executes : p.executions i = some execution) (same : views id = p.batchViews execution id) : p.Keeps id q := by
  cases found : execution.state.items id with
  | none =>
    have missing : views id = none := by rw [same, batchViews, found]; rfl
    rcases refines.each id with ⟨item, v, -, viewed, -⟩ | ⟨absent, -, out⟩
    · cases missing.symm.trans viewed
    · refine ⟨?_, writes.queued, fun tokens runs => ?_, ?_⟩
      · rw [writes.handles]
        simp [store, absent]
      · rcases runs with ⟨j, later, runs, pending, received⟩
        rw [writes.executions] at runs
        by_cases mine : j = i
        · subst mine
          rw [Function.update_self] at runs
          rw [writes.follows later runs] at pending
          exact absurd pending out
        · rw [Function.update_of_ne mine] at runs
          exact ⟨j, later, runs, pending, received⟩
      · rw [writes.services]
        exact refines.others id absent
  | some item =>
    let v : ItemView :=
      { handle := p.handles id, tokens := execution.state.tokens id, pending := decide (id ∈ execution.state.pending) }
    have viewed : views id = some v := by rw [same, batchViews, found]; rfl
    rcases writes.viewed refines viewed with ⟨handle, records⟩
    refine ⟨handle, writes.queued, fun tokens runs => ?_, by rw [records, List.append_nil]⟩
    rcases writes.runs refines viewed runs with ⟨-, pending, rfl⟩ | ⟨j, -, -, before⟩
    · exact ⟨i, execution, executes, of_decide_eq_true pending, rfl⟩
    · exact before

theorem Agrees.wrote {ids : List String} (agrees : p.Agrees st) (sound : p.Sound)
    (executes : p.executions i = some execution) (writes : p.Writes i next after q)
    (refines : next.Refines p.services views) (touches : st.Touches ids t) (within : ids ⊆ execution.state.pending)
    (others : ∀ id, id ∉ ids → views id = p.batchViews execution id)
    (moved : ∀ id ∈ ids, ∃ v worker, views id = some v ∧ st.Became id v worker t ∧ worker ≠ .absent ∧
      (∀ caller : Caller, caller.Waits (p.handles id) → caller.Waits v.handle) ∧
      v.handle.cancelled = (p.handles id).cancelled ∧
      (after.isSome = true → v.pending = true → (∃ batchStart, worker = .running v.tokens batchStart) ∧
        ItemView.Phase { handle := v.handle, tokens := v.tokens })) : q.Agrees t := by
  have inHand := hands_executing sound executes
  have asked : ids ⊆ p.known := by
    intro id inside
    exact known_of_runs sound ⟨i, execution, executes, within inside, rfl⟩
  apply agrees.touched touches writes.known _ _ asked
  · exact fun id outside => writes.keeps refines executes (others id outside)
  · intro id inside
    rcases agrees.mirrors id (asked inside) with ⟨r, found, mirrors⟩
    rcases moved id inside with ⟨v, worker, viewed, became, submitted, waits, cancelled, continues⟩
    rcases writes.viewed refines viewed with ⟨handle, records⟩
    have here : p.Runs id (execution.state.tokens id) := ⟨i, execution, executes, within inside, rfl⟩
    constructor
    · apply mirrors.became found became handle (waits _ mirrors.waits) submitted
      · exact fun queued => mirrors.not_both (writes.queued queued) here
      · intro tokens runs
        rcases writes.runs refines viewed runs with ⟨isSome, pending, rfl⟩ | ⟨j, other, elsewhere, -⟩
        · exact continues isSome pending
        · -- no request is in the hands of two workers
          have mine : id ∈ p.hands i := inHand ▸ within inside
          have apart : Disjoint (p.rest i) (p.hands i : Multiset String) :=
            (Multiset.nodup_add.mp (custody_eq p i ▸ sound.nodup)).2.2
          exact absurd mine (Multiset.disjoint_left.mp apart (mem_rest_of_hands other elsewhere))
    · intro opened
      rw [handle, cancelled] at opened
      rcases became with ⟨-, -, -, -, -, -, -, -, recorded⟩
      rw [recorded, records, agrees.records id fun _ => opened]

theorem Agrees.pending (agrees : p.Agrees st) (sound : p.Sound) (executes : p.executions i = some execution)
    (pending : id ∈ execution.state.pending) :
    ∃ r batchStart, st.requests id = some r ∧ r.item.request.requestId = id ∧ r.item.handle = p.handles id ∧
      r.worker = .running (execution.state.tokens id) batchStart ∧
      ItemView.Phase { handle := p.handles id, tokens := execution.state.tokens id } ∧
      p.batchViews execution id = some { handle := p.handles id, tokens := execution.state.tokens id } := by
  have runs : p.Runs id (execution.state.tokens id) := ⟨i, execution, executes, pending, rfl⟩
  rcases agrees.mirrors id (known_of_runs sound runs) with ⟨r, found, mirrors⟩
  rcases mirrors.runs _ runs with ⟨⟨batchStart, running⟩, phase⟩
  refine ⟨r, batchStart, found, mirrors.named, mirrors.handle, running, phase, ?_⟩
  rcases Option.isSome_iff_exists.mp ((sound.executing i execution executes).2 id pending) with ⟨item, present⟩
  simp [batchViews, present, pending]

/-- The token that a worker hears for a request: what its backend yields for it while it is pending. -/
def heard (id : String) (p : Pool M) : PoolAction M → Option String
  | .yields i (.token requestId text) =>
    if requestId = id ∧ id ∈ Execution.pending (p.executions i) then some text else none
  | _ => none

theorem heard_yields (executes : p.executions i = some execution) (event : BatchEvent) (id : String) :
    heard id p (.yields i event) =
      if event.requestId ∈ execution.state.pending then event.move.token? id else none := by
  cases event with
  | completed requestId => simp [heard, BatchEvent.move, InFlightAction.token?]
  | token requestId text =>
    by_cases same : requestId = id
    · subst same
      simp [heard, executes, Execution.pending, BatchEvent.move, InFlightAction.token?, BatchEvent.requestId]
    · simp [heard, same, BatchEvent.move, InFlightAction.token?]

/-- An event of the backend is handled without an exception, and the batch is left as its items are. -/
theorem Agrees.yields_writes (agrees : p.Agrees st) (accounted : p.Accounted) (sound : p.Sound)
    (executes : p.executions i = some execution) (event : BatchEvent) (cfg : WorkerConfig) :
    ∃ next, p.Writes i next (some { execution with state := next }) (p.yields cfg i execution event) ∧
      next.Refines p.services (BatchState.viewsAfter (p.batchViews execution) (.event event)) := by
  have phase (v : ItemView) (viewed : p.batchViews execution event.requestId = some v) (pending : v.pending = true) :
      v.Phase := by
    have inside : event.requestId ∈ execution.state.pending := by
      rcases Option.map_eq_some_iff.mp viewed with ⟨item, -, rfl⟩
      exact of_decide_eq_true pending
    rcases agrees.pending sound executes inside with ⟨r, batchStart, -, -, -, -, phase, same⟩
    cases viewed.symm.trans same
    exact phase
  rcases (load_refines accounted sound executes).eventOf cfg.clock execution.batchStart event phase with
    ⟨next, acted, refines⟩
  have handled : (p.load execution).handleEvent cfg.clock execution.batchStart event = (next, none) := acted
  have yields : p.yields cfg i execution event =
      (p.store next).setExecution i (some { execution with state := next }) := by
    rw [Pool.yields, handled]
  refine ⟨next, ?_, refines⟩
  rw [yields]
  refine ⟨rfl, rfl, rfl, rfl, rfl, ?_⟩
  rintro later ⟨⟩
  rfl

theorem viewsAfter_idle {event : BatchEvent} (idle : event.requestId ∉ execution.state.pending) :
    BatchState.viewsAfter (p.batchViews execution) (.event event) = p.batchViews execution := by
  have same : (p.batchViews execution event.requestId).map
      (fun v => ItemView.step event.requestId v (.event event)) = p.batchViews execution event.requestId := by
    cases found : execution.state.items event.requestId <;> simp [batchViews, found, ItemView.step, idle]
  exact Function.update_eq_self_iff.mpr same

theorem Agrees.yielded (agrees : p.Agrees st) (accounted : p.Accounted) (sound : p.Sound)
    (executes : p.executions i = some execution) (event : BatchEvent) (cfg : WorkerConfig) (requestTimeoutS : ℚ) :
    ∃ run t, exec (InFlight.step cfg.clock requestTimeoutS) st run = some t ∧
      (p.yields cfg i execution event).Agrees t ∧
      ∀ id, run.filterMap (·.token? id) = (heard id p (.yields i event)).toList := by
  rcases agrees.yields_writes accounted sound executes event cfg with ⟨next, writes, refines⟩
  by_cases pending : event.requestId ∈ execution.state.pending
  · rcases agrees.pending sound executes pending with ⟨r, batchStart, found, named, handle, running, ready, viewed⟩
    let v : ItemView := { handle := p.handles event.requestId, tokens := execution.state.tokens event.requestId }
    let moved := v.step event.requestId (.event event)
    let worker : WorkerPoint := if moved.pending then .running moved.tokens batchStart else .done
    have viewedAfter : BatchState.viewsAfter (p.batchViews execution) (.event event) event.requestId = some moved := by
      apply (Function.update_self _ _ _).trans
      exact congrArg (Option.map _) viewed
    rcases Accepted.event_becomes cfg.clock requestTimeoutS st.services running (handle ▸ ready) event with
      ⟨s', r', taken, becomes⟩
    rw [named, handle] at becomes
    rw [← event.move_requestId] at found named
    rcases InFlight.step_becomes found named taken becomes with ⟨t, stepped, touches, became⟩
    rw [event.move_requestId] at touches became
    refine ⟨[event.move], t, exec_cons_some.mpr ⟨t, stepped, rfl⟩, ?_, ?_⟩
    · apply agrees.wrote sound executes writes refines touches
      · simpa using pending
      · intro id outside
        exact Function.update_of_ne (List.ne_of_not_mem_cons outside) _ _
      · intro id inside
        cases List.mem_singleton.mp inside
        refine ⟨moved, worker, viewedAfter, became, ?_, ?_, v.event_cancelled event.requestId event, ?_⟩
        · unfold worker
          split <;> simp
        · exact fun caller waits => Caller.Waits.event (v := v) waits event.requestId event
        · intro _ continues
          refine ⟨⟨batchStart, if_pos continues⟩, ?_⟩
          have stepped : moved.Phase := ready.step (.event event)
          exact stepped.again continues
    · intro id
      rw [heard_yields executes, if_pos pending]
      cases shown : event.move.token? id <;> simp [shown]
  · rw [viewsAfter_idle pending] at refines
    refine ⟨[], st, rfl, agrees.still writes.known fun id => writes.keeps refines executes rfl, fun id => ?_⟩
    rw [heard_yields executes, if_neg pending]
    rfl

theorem ending_silent (ending : Ending) (ids : List String) (id : String) :
    (ids.map ending.move).filterMap (·.token? id) = [] := by
  rw [List.filterMap_map]
  apply List.filterMap_eq_nil_iff.mpr
  intro other _
  cases ending <;> rfl

theorem Agrees.swept (agrees : p.Agrees st) (accounted : p.Accounted) (sound : p.Sound)
    (executes : p.executions i = some execution) (ending : Ending) (cfg : WorkerConfig) (requestTimeoutS : ℚ)
    {finish : Services → ScheduledRequest → List String → ItemResult}
    (spec : ∀ s item tokens sent, item.handle.Open sent → (finish s item tokens).Leaves s item
      (item.handle.finish ending item.request.requestId tokens) [ending.outcome tokens]) :
    ∃ next run t, (p.load execution).sweep finish (cfg.iter execution.state.pending) = (next, none) ∧
      exec (InFlight.step cfg.clock requestTimeoutS) st run = some t ∧ (∀ q, p.Writes i next none q → q.Agrees t) ∧
      ∀ id, run.filterMap (·.token? id) = [] := by
  have nodup : execution.state.pending.Nodup := (load_ready sound executes).nodup
  have order := cfg.anyOrder execution.state.pending
  have ready : ∀ id ∈ cfg.iter execution.state.pending,
      ∃ v, p.batchViews execution id = some v ∧ v.pending = true ∧ v.Phase := by
    intro id inside
    rcases agrees.pending sound executes (order.subset inside) with ⟨r, batchStart, -, -, -, -, phase, viewed⟩
    exact ⟨_, viewed, rfl, phase⟩
  rcases (load_refines accounted sound executes).sweep ending spec _ (order.nodup_iff.mpr nodup) ready with
    ⟨next, swept, refines⟩
  let ended (id : String) : ItemView :=
    ItemView.finish id { handle := p.handles id, tokens := execution.state.tokens id } ending
  have each : ∀ id ∈ execution.state.pending, ∃ r, st.requests id = some r ∧ r.item.request.requestId = id ∧
      ∀ s, ∃ v worker s' r', InFlight.act cfg.clock requestTimeoutS s r (ending.move id) = some (s', r') ∧
        r.Becomes s v worker r' s' ∧ v = ended id ∧ worker = .done := by
    intro id inside
    rcases agrees.pending sound executes inside with ⟨r, batchStart, found, named, handle, running, phase, viewed⟩
    refine ⟨r, found, named, fun s => ?_⟩
    rcases Accepted.finish_becomes cfg.clock requestTimeoutS s running (handle ▸ phase) ending id with
      ⟨s', r', taken, becomes⟩
    rw [named, handle] at becomes
    exact ⟨_, _, s', r', taken, becomes, rfl, rfl⟩
  rcases InFlight.exec_each nodup (fun id _ => ending.move_requestId id) each with ⟨t, run, touches, moved⟩
  refine ⟨next, _, t, swept, run, fun q writes => ?_, ending_silent ending execution.state.pending⟩
  apply agrees.wrote sound executes writes refines touches (List.Subset.refl _)
  · intro id outside
    exact if_neg fun inside => outside (order.subset inside)
  · intro id inside
    rcases agrees.pending sound executes inside with ⟨r, batchStart, -, -, -, -, -, viewed⟩
    rcases moved id inside with ⟨v, worker, became, rfl, rfl⟩
    refine ⟨ended id, .done, ?_, became, by simp, ?_, ItemView.finish_cancelled _ id ending, ?_⟩
    · rw [if_pos (order.symm.subset inside), viewed]
      rfl
    · intro caller waits
      exact waits.finish (v := { handle := p.handles id, tokens := execution.state.tokens id }) id ending
    · intro isSome
      cases isSome

theorem Agrees.ended (agrees : p.Agrees st) (accounted : p.Accounted) (sound : p.Sound)
    (executes : p.executions i = some execution) (ending : Ending) (cfg : WorkerConfig) (requestTimeoutS : ℚ) :
    ∃ run t, exec (InFlight.step cfg.clock requestTimeoutS) st run = some t ∧
      (p.ends cfg i execution ending).Agrees t ∧ ∀ id, run.filterMap (·.token? id) = [] := by
  cases ending with
  | normal =>
    rcases agrees.swept accounted sound executes .normal cfg requestTimeoutS fun s item tokens sent isOpen =>
      completeItem_open cfg.clock s item tokens sent execution.batchStart isOpen with
      ⟨next, run, t, swept, ran, agreed, silent⟩
    have done : (p.load execution).sweep
        (fun s item tokens => completeItem cfg.clock s item tokens execution.batchStart)
        (cfg.iter (p.load execution).pending) = (next, none) := swept
    refine ⟨run, t, ran, agreed _ ?_, silent⟩
    unfold Pool.ends
    dsimp only
    rw [done]
    refine ⟨rfl, rfl, rfl, rfl, rfl, fun later same => ?_⟩
    cases same
  | raised exc =>
    rcases agrees.swept accounted sound executes (.raised exc) cfg requestTimeoutS fun s item tokens sent isOpen =>
      failItem_open cfg.clock s item exc sent isOpen with
      ⟨next, run, t, swept, ran, agreed, silent⟩
    have done : (p.load execution).sweep (fun s item _ => failItem cfg.clock s item exc)
        (cfg.iter (p.load execution).pending) = (next, none) := swept
    refine ⟨run, t, ran, agreed _ ?_, silent⟩
    unfold Pool.ends
    dsimp only
    unfold Pool.fail
    rw [done]
    refine ⟨rfl, rfl, rfl, rfl, rfl, fun later same => ?_⟩
    cases same

end Executing

theorem Agrees.cancelled (agrees : p.Agrees st) (known : id ∈ p.known) (cfg : WorkerConfig) (requestTimeoutS : ℚ) :
    ∃ run t, exec (InFlight.step cfg.clock requestTimeoutS) st run = some t ∧ (p.cancel id).Agrees t ∧
      ∀ other, run.filterMap (·.token? other) = [] := by
  rcases agrees.mirrors id known with ⟨r, found, mirrors⟩
  have own : (p.cancel id).handles id = (p.handles id).cancel := Function.update_self _ _ _
  cases flag : (p.handles id).cancelled with
  | true =>
    have same : p.cancel id = p := by
      rw [Pool.cancel, mirrors.waits.cancel.2 flag, Function.update_eq_self]
    exact ⟨[], st, rfl, same.symm ▸ agrees, fun _ => rfl⟩
  | false =>
    have waits : r.caller.Waits r.item.handle := by
      rw [mirrors.handle]
      exact mirrors.waits
    have live : r.item.handle.cancelled = false := by rw [mirrors.handle, flag]
    rcases InFlight.exec_withdrawal cfg.clock requestTimeoutS found mirrors.named mirrors.submitted waits live with
      ⟨t, r', run, touches, after, named, handle, worker, waiting⟩
    have left : r'.item.handle = (p.cancel id).handles id := by rw [handle, mirrors.handle, own]
    refine ⟨_, t, run, ?_, fun other => InFlight.withdrawal_silent id other r.caller⟩
    have same : (p.cancel id).known = p.known := rfl
    apply agrees.touched touches same
    · intro other outside
      exact ⟨Function.update_of_ne (List.ne_of_not_mem_cons outside) _ _, fun queued => queued, fun _ runs => runs, rfl⟩
    · intro other inside
      cases List.mem_singleton.mp inside
      refine ⟨⟨r', after, named, left, left ▸ waiting, worker ▸ mirrors.submitted, fun queued => ?_,
        fun tokens runs => ?_⟩, ?_⟩
      · rcases mirrors.queued queued with ⟨queues, fresh⟩
        refine ⟨worker.trans queues, ?_⟩
        rw [own]
        rcases fresh with isOpen | withdrawn
        · exact .inr isOpen.cancel
        · exact .inr (withdrawn.cancel.symm ▸ withdrawn)
      · rcases mirrors.runs tokens runs with ⟨⟨batchStart, running⟩, phase⟩
        refine ⟨⟨batchStart, worker.trans running⟩, ?_⟩
        rw [own]
        have gone : (ItemView.step id { handle := p.handles id, tokens } (.cancel id)).Phase := phase.step (.cancel id)
        exact gone
      · intro opened
        rw [own, mirrors.waits.cancel.1] at opened
        cases opened
    · simpa using known

theorem queued_of_taken {i : Fin n} {new : String} (waiting : (M.places s).waiting = p.places.waiting)
    (queue : p.places.queue.Perm (new :: (M.places s).queue))
    (held : (M.places s).held = Function.update p.places.held i (p.places.held i ++ [new]))
    (queued : (M.places s).Holds id) : p.Queued id := by
  unfold Places.Holds at queued
  rw [waiting, held] at queued
  rcases queued with waits | queued | ⟨j, inHand⟩
  · exact .inl waits
  · exact .inr (.inl (queue.symm.subset (List.mem_cons_of_mem _ queued)))
  · by_cases same : j = i
    · subst same
      rw [Function.update_self] at inHand
      rcases List.mem_append.mp inHand with before | fresh
      · exact .inr (.inr ⟨j, before⟩)
      · exact .inr (.inl (queue.symm.subset (List.mem_singleton.mp fresh ▸ List.mem_cons_self)))
    · rw [Function.update_of_ne same] at inHand
      exact .inr (.inr ⟨j, inHand⟩)

/-- A worker's turn at the scheduler starts what it hands out, and moves nobody otherwise. -/
theorem Agrees.turned {i : Fin n} (agrees : p.Agrees st) (sound : p.Sound) (enables : p.Enables cfg action)
    (submits : M.submits? action = none) (consumer : M.consumer? p.scheduler action = some i)
    (turn : p.places.Turn i (M.places s)) (requestTimeoutS : ℚ) :
    ∃ run t, exec (InFlight.step cfg.clock requestTimeoutS) st run = some t ∧ (p.advance cfg action s).Agrees t ∧
      ∀ id, run.filterMap (·.token? id) = [] := by
  cases turn with
  | quiet same =>
    rw [advance_quiet (congrArg Places.returned same)]
    refine ⟨[], st, rfl, agrees.followed submits fun id queued => ?_, fun _ => rfl⟩
    rw [same] at queued
    exact queued
  | takes new waiting queue held returned =>
    rw [advance_quiet returned]
    refine ⟨[], st, rfl, agrees.followed submits fun id queued => ?_, fun _ => rfl⟩
    exact queued_of_taken waiting queue held queued
  | dispatches dispatched taken waiting queue items held returned =>
    rw [advance_dispatch consumer returned]
    have starts := dispatch_starts sound (enables.idle consumer) submits cfg waiting queue items held
    exact agrees.started sound starts cfg requestTimeoutS

theorem Agrees.scheduled (agrees : p.Agrees st) (sound : p.Sound) (lawful : M.Lawful) (admits : p.Admits action)
    (enables : p.Enables cfg action) (moved : M.step p.scheduler action = some s) (requestTimeoutS : ℚ) :
    ∃ run t, exec (InFlight.step cfg.clock requestTimeoutS) st run = some t ∧ (p.advance cfg action s).Agrees t ∧
      ∀ id, run.filterMap (·.token? id) = [] := by
  cases lawful.flow p.scheduler action s moved with
  | waits item submits places =>
    rw [advance_quiet (by rw [places]; rfl)]
    apply agrees.submitted sound submits admits cfg requestTimeoutS
    intro id queued
    rw [places] at queued
    rcases queued with waits | queued | inHand
    · exact (List.mem_append.mp waits).imp .inl List.mem_singleton.mp
    · exact .inl (.inr (.inl queued))
    · exact .inl (.inr (.inr inHand))
  | appends item submits places =>
    rw [advance_quiet (by rw [places]; rfl)]
    apply agrees.submitted sound submits admits cfg requestTimeoutS
    intro id queued
    rw [places] at queued
    rcases queued with waits | queued | inHand
    · exact .inl (.inl waits)
    · exact (List.mem_append.mp queued).imp (fun before => .inr (.inl before)) List.mem_singleton.mp
    · exact .inl (.inr (.inr inHand))
  | granted id submits consumer waiting places =>
    rw [advance_quiet (by rw [places]; rfl)]
    refine ⟨[], st, rfl, agrees.followed submits fun other queued => ?_, fun _ => rfl⟩
    have waits : p.places.waiting = id :: (M.places s).waiting := waiting
    rw [places] at queued
    rcases queued with still | queued | inHand
    · exact .inl (waits ▸ List.mem_cons_of_mem _ still)
    · rcases List.mem_append.mp queued with before | put
      · exact .inr (.inl before)
      · exact .inl (waits ▸ List.mem_singleton.mp put ▸ List.mem_cons_self)
    · exact .inr (.inr inHand)
  | turn i submits consumer turn own => exact agrees.turned sound enables submits consumer turn requestTimeoutS
  | aside i submits consumer turn returned detached =>
    exact agrees.turned sound enables submits consumer turn requestTimeoutS

/-- Each step of the pool is a run of its requests, in which they hear what the pool's workers hear. -/
theorem Agrees.step {action : PoolAction M} (agrees : p.Agrees st) (accounted : p.Accounted) (sound : p.Sound)
    (lawful : M.Lawful) (taken : p.step cfg action = some q) (requestTimeoutS : ℚ) :
    ∃ run t, exec (InFlight.step cfg.clock requestTimeoutS) st run = some t ∧ q.Agrees t ∧
      ∀ id, run.filterMap (·.token? id) = (heard id p action).toList := by
  have still (known : q.known = p.known) (keeps : ∀ id, p.Keeps id q) (silent : ∀ id, heard id p action = none) :
      ∃ run t, exec (InFlight.step cfg.clock requestTimeoutS) st run = some t ∧ q.Agrees t ∧
        ∀ id, run.filterMap (·.token? id) = (heard id p action).toList := by
    refine ⟨[], st, rfl, agrees.still known keeps, fun id => ?_⟩
    rw [silent]
    rfl
  cases step_moves taken with
  | schedule admits enables moved => exact agrees.scheduled sound lawful admits enables moved requestTimeoutS
  | yields executes => exact agrees.yielded accounted sound executes _ cfg requestTimeoutS
  | ends executes => exact agrees.ended accounted sound executes _ cfg requestTimeoutS
  | @cancel id =>
    have known : id ∈ p.known := by
      simp only [Pool.step] at taken
      split at taken
      · next allowed => exact allowed.2
      · cases taken
    exact agrees.cancelled known cfg requestTimeoutS
  | stop => exact still rfl (fun id => ⟨rfl, fun queued => queued, fun _ runs => runs, rfl⟩) fun _ => rfl
  | @throws i wakes execution executes cancelling =>
    refine still rfl (fun id => ⟨rfl, fun queued => queued, fun tokens runs => ?_, rfl⟩) fun _ => rfl
    rcases runs with ⟨j, later, runs, pending, received⟩
    by_cases same : j = i
    · subst same
      simp [setExecution] at runs
    · simp only [setExecution, Function.update_of_ne same] at runs
      exact ⟨j, later, runs, pending, received⟩
  | swallows => exact still rfl (fun id => ⟨rfl, fun queued => queued, fun _ runs => runs, rfl⟩) fun _ => rfl
  | @interrupts i wakes s idle cancelling moved =>
    refine still rfl (fun id => ⟨rfl, fun queued => ?_, fun _ runs => runs, rfl⟩) fun _ => rfl
    have places := lawful.interrupt _ _ _ _ moved
    have now : (M.places s).Holds id := queued
    rw [places] at now
    rcases now with waits | queued | ⟨j, inHand⟩
    · exact .inl waits
    · exact .inr (.inl queued)
    · by_cases same : j = i
      · subst same
        simp [Places.drop] at inHand
      · simp only [Places.drop, Function.update_of_ne same] at inHand
        exact .inr (.inr ⟨j, inHand⟩)
  | returns => exact still rfl (fun id => ⟨rfl, fun queued => queued, fun _ runs => runs, rfl⟩) fun _ => rfl

theorem run_agrees {acts : List (PoolAction M)} (lawful : M.Lawful) (requestTimeoutS : ℚ)
    (run : exec (Pool.step cfg) {} acts = some p) :
    ∃ requestRun st, exec (InFlight.step cfg.clock requestTimeoutS) InFlight.start requestRun = some st ∧ p.Agrees st ∧
      ∀ id, generated requestRun id = observe (Pool.step cfg) (heard id) {} acts := by
  have begin : ({} : Pool M).Agrees InFlight.start ∧ ({} : Pool M).Accounted ∧ ({} : Pool M).Sound := by
    have nothing : exec (Pool.step cfg) ({} : Pool M) [] = some {} := rfl
    refine ⟨⟨rfl, fun id asked => ?_, fun _ _ => rfl⟩, run_accounted lawful nothing⟩
    cases asked
  have answered (p : Pool M) (st : InFlight) (action : PoolAction M) (q : Pool M)
      (related : p.Agrees st ∧ p.Accounted ∧ p.Sound) (taken : Pool.step cfg p action = some q) :
      ∃ more t, exec (InFlight.step cfg.clock requestTimeoutS) st more = some t ∧
        (q.Agrees t ∧ q.Accounted ∧ q.Sound) ∧
        ∀ id, more.filterMap (fun action => action.token? id) = (heard id p action).toList := by
    rcases related with ⟨agrees, accounted, sound⟩
    rcases agrees.step accounted sound lawful taken requestTimeoutS with ⟨more, t, ran, agreed, hears⟩
    exact ⟨more, t, ran, ⟨agreed, step_accounted accounted sound taken, step_sound lawful sound taken⟩, hears⟩
  rcases exec_answers (fun p st => p.Agrees st ∧ p.Accounted ∧ p.Sound) answered begin run with
    ⟨requestRun, st, ran, related, hears⟩
  exact ⟨requestRun, st, ran, related.1, hears⟩

end Pool

/-- The pool of workers, with either scheduler and whatever its callers, its backends and `stop` do, is the requests of
    the API each by itself: every run of it is a run of theirs, with the same handles, the same progress and, unless a
    caller has given up, the same records, in which each request hears what the workers heard for it. -/
theorem Scheduling.refines_requests (scheduling : Scheduling) (n : Nat) (cfg : WorkerConfig) (requestTimeoutS : ℚ)
    {acts : List (PoolAction (scheduling.model n))} {p : Pool (scheduling.model n)}
    (run : exec (Pool.step cfg) {} acts = some p) :
    ∃ requestRun st, exec (InFlight.step cfg.clock requestTimeoutS) InFlight.start requestRun = some st ∧
      st.accepted = p.known ∧
      (∀ id, generated requestRun id = observe (Pool.step cfg) (Pool.heard id) {} acts) ∧
      ∀ id ∈ p.known, ∃ r, st.requests id = some r ∧ r.item.handle = p.handles id ∧
        (p.Queued id → r.worker = .queued) ∧
        (∀ tokens, p.Runs id tokens → ∃ batchStart, r.worker = .running tokens batchStart) ∧
        ((p.handles id).cancelled = false → st.services.recordsOf id = p.services.recordsOf id) := by
  rcases Pool.run_agrees (scheduling.model_lawful n) requestTimeoutS run with ⟨requestRun, st, ran, agrees, hears⟩
  refine ⟨requestRun, st, ran, agrees.accepted, hears, fun id known => ?_⟩
  rcases agrees.mirrors id known with ⟨r, found, mirrors⟩
  refine ⟨r, found, mirrors.handle, fun queued => (mirrors.queued queued).1, fun tokens runs => ?_, fun opened => ?_⟩
  · exact (mirrors.runs tokens runs).1
  · exact agrees.records id fun _ => opened

theorem Scheduling.refines_requests_batch :
    ∃ p requestRun st r, servedBatch = some p ∧
      exec (InFlight.step ⟨fun tick => tick, monotone_tick⟩ 30) InFlight.start requestRun = some st ∧
      st.accepted = ["a", "b", "c"] ∧ st.requests "a" = some r ∧ r.item.handle.verdict = some (.success ["x"]) := by
  have served : servedBatch.any (fun p => p.known = ["a", "b", "c"] ∧
      (p.handles "a").verdict = some (.success ["x"])) = true := by
    decide +kernel
  rcases (Option.any_eq_true _ _).mp served with ⟨p, run, held⟩
  rcases of_decide_eq_true held with ⟨known, verdict⟩
  rcases refines_requests ticking 1 _ 30 run with ⟨requestRun, st, ran, accepted, -, each⟩
  rcases each "a" (by simp [known]) with ⟨r, found, handle, -⟩
  exact ⟨p, requestRun, st, r, run, ran, accepted.trans known, found, by rw [handle, verdict]⟩

namespace Pool

variable {n : Nat} {M : SchedulerModel n} {p : Pool M} {st : InFlight} {id : String} {r : Accepted}

/-- What a caller can have got of the tokens `heard`: some of them, or all and then the end. -/
structure Handover (heard : List String) (h : ResponseHandle) : Prop where
  success : ∀ tokens, h.verdict = some (.success tokens) → tokens = heard
  queued : ∀ handle, h = .streaming handle → ∃ delivered ending, handle.queue = delivered.map .token ++ ending ∧
    delivered <+: heard ∧ (ending = [] ∨ delivered = heard ∧ ∃ last, ending = [last] ∧ last.isTerminal = true)

theorem handover_of_emitted {v : Served} {worker : WorkerPoint} {handle : StreamingHandle}
    (emitted : Emitted v worker handle.queue) :
    Handover v.tokens (.streaming handle) ∧
      ∀ tokens, (ResponseHandle.streaming handle).verdict = some (.success tokens) →
        v.counted (.success v.tokens.length) := by
  rcases emitted.taken List.prefix_rfl with ⟨delivered, ending, queue, first, ended⟩
  cases ended with
  | going =>
    rw [List.append_nil] at queue
    have unended : (ResponseHandle.streaming handle).verdict = none := by
      rw [ResponseHandle.verdict, queue]
      cases delivered using List.reverseRecOn <;> simp
    refine ⟨⟨fun tokens success => ?_, ?_⟩, fun tokens success => ?_⟩
    · rw [unended] at success
      cases success
    · rintro _ ⟨⟩
      exact ⟨delivered, [], by rw [queue, List.append_nil], first, .inl rfl⟩
    · rw [unended] at success
      cases success
  | completed whole counted =>
    refine ⟨⟨fun tokens success => ?_, ?_⟩, fun _ _ => counted⟩
    · rw [ResponseHandle.verdict, queue] at success
      simp [StreamEvent.text?, List.filterMap_cons] at success
      exact success.symm.trans whole
    · rintro _ ⟨⟩
      exact ⟨delivered, _, queue, first, .inr ⟨whole, _, rfl, rfl⟩⟩
  | failed exc whole raised =>
    have failure : (ResponseHandle.streaming handle).verdict = some (.failure exc.str) := by
      rw [ResponseHandle.verdict, queue]
      simp
    refine ⟨⟨fun tokens success => ?_, ?_⟩, fun tokens success => ?_⟩
    · rw [failure] at success
      cases success
    · rintro _ ⟨⟩
      exact ⟨delivered, _, queue, first, .inr ⟨whole, _, rfl, rfl⟩⟩
    · rw [failure] at success
      cases success

theorem handover_of_computed {v : Served} {worker : WorkerPoint} {handle : CompletionHandle}
    (computed : Computed v id worker handle.future) :
    Handover v.tokens (.completion handle) ∧
      ∀ tokens, (ResponseHandle.completion handle).verdict = some (.success tokens) →
        v.counted (.success v.tokens.length) := by
  have resolved (tokens : List String) (success : (ResponseHandle.completion handle).verdict = some (.success tokens)) :
      tokens = v.tokens ∧ v.counted (.success v.tokens.length) := by
    simp only [ResponseHandle.verdict] at success
    split at success
    · next value future =>
      rw [future] at computed
      rcases computed.counted with ⟨rfl, counted⟩
      cases success
      exact ⟨rfl, counted⟩
    · cases success
    · cases success
  refine ⟨⟨fun tokens success => (resolved tokens success).1, ?_⟩, fun tokens success => (resolved tokens success).2⟩
  intro other same
  cases same

theorem Mirrors.handover {v : Served} {model : String} {asked : RuntimeRequest} (mirrors : p.Mirrors id r)
    (delivers : r.Delivers v model asked) :
    Handover v.tokens (p.handles id) ∧ (∀ tokens, p.Runs id tokens → tokens = v.tokens) ∧
      ∀ tokens, (p.handles id).verdict = some (.success tokens) → v.counted (.success v.tokens.length) := by
  have waits := mirrors.waits
  rw [← mirrors.handle] at waits ⊢
  cases delivers with
  | stream generator handle streams handles named chosen taken sent emitted =>
    rw [streams, handles] at waits
    cases waits with
    | stream _ untaken _ _ =>
      have nothing : taken = [] := by
        rw [untaken] at sent
        exact List.map_eq_nil_iff.mp sent.symm
      rw [nothing, List.nil_append] at emitted
      rcases handover_of_emitted emitted with ⟨handover, counted⟩
      rw [handles]
      refine ⟨handover, fun tokens runs => ?_, counted⟩
      rcases (mirrors.runs tokens runs).1 with ⟨batchStart, running⟩
      rw [running] at emitted
      generalize handle.queue = events at emitted
      cases emitted
      rfl
  | handler point handle handles plain computed replied =>
    rcases handover_of_computed computed with ⟨handover, counted⟩
    rw [plain]
    refine ⟨handover, fun tokens runs => ?_, counted⟩
    rcases (mirrors.runs tokens runs).1 with ⟨batchStart, running⟩
    rw [running] at computed
    exact computed.unresolved.1.symm

end Pool

/-- What a caller is handed is what the workers heard for its request, in order: on the queue of a stream is put a part
    of it, or all of it and then one terminal event; a result is all of it, and is counted once, with that many tokens,
    unless the caller has given up since. -/
theorem Scheduling.hands_over_what_was_heard (scheduling : Scheduling) (n : Nat) (cfg : WorkerConfig)
    {acts : List (PoolAction (scheduling.model n))} {p : Pool (scheduling.model n)}
    (run : exec (Pool.step cfg) {} acts = some p) {id : String} (known : id ∈ p.known) :
    Pool.Handover (observe (Pool.step cfg) (Pool.heard id) {} acts) (p.handles id) ∧
      (∀ tokens, p.Runs id tokens → tokens = observe (Pool.step cfg) (Pool.heard id) {} acts) ∧
      ∀ tokens, (p.handles id).verdict = some (.success tokens) → (p.handles id).cancelled = false →
        p.services.recordsOf id = [.success tokens.length] := by
  have lawful := scheduling.model_lawful n
  rcases Pool.run_agrees lawful 0 run with ⟨requestRun, st, ran, agrees, hears⟩
  rcases Pool.run_accounted lawful run with ⟨accounted, -⟩
  rcases agrees.mirrors id known with ⟨r, found, mirrors⟩
  rcases (InFlight.delivering_of_exec ran).delivers id r found with
    ⟨body, admission, createdAt, -, -, -, -, -, delivers⟩
  rcases mirrors.handover delivers with ⟨handover, runs, counted⟩
  change Pool.Handover (generated requestRun id) (p.handles id) at handover
  change ∀ tokens, p.Runs id tokens → tokens = generated requestRun id at runs
  rw [hears id] at handover runs
  refine ⟨handover, runs, fun tokens success opened => ?_⟩
  have recorded : (id, .success (generated requestRun id).length) ∈ st.services.terminal := counted tokens success
  rw [hears id, ← handover.success tokens success] at recorded
  have mine : Outcome.success tokens.length ∈ p.services.recordsOf id := by
    rw [← agrees.records id fun _ => opened]
    exact List.mem_map.mpr ⟨_, List.mem_filter.mpr ⟨recorded, by simp⟩, rfl⟩
  -- a request has one record at most
  have single : (p.services.recordsOf id).length = 1 := by
    have positive := List.length_pos_of_mem mine
    have once := accounted.recordsOf known
    split at once <;> omega
  rcases List.length_eq_one_iff.mp single with ⟨o, same⟩
  rw [same] at mine ⊢
  rw [List.mem_singleton.mp mine]

theorem Scheduling.hands_over_what_was_heard_batch :
    ∃ p, servedBatch = some p ∧ (p.handles "a").verdict = some (.success ["x"]) ∧
      p.services.recordsOf "a" = [.success 1] := by
  have served : servedBatch.any (fun p => p.known = ["a", "b", "c"] ∧ (p.handles "a").cancelled = false ∧
      (p.handles "a").verdict = some (.success ["x"])) = true := by
    decide +kernel
  rcases (Option.any_eq_true _ _).mp served with ⟨p, run, held⟩
  rcases of_decide_eq_true held with ⟨known, opened, verdict⟩
  have asked : "a" ∈ p.known := by simp [known]
  have handed := hands_over_what_was_heard ticking 1 _ run asked
  exact ⟨p, run, verdict, handed.2.2 ["x"] verdict opened⟩

end LLMRuntime
