import LLMRuntime.Api.ItemMoves
import LLMRuntime.Workers.Serving

namespace LLMRuntime

open Transition ResponseHandle

/-- The places of requests that no worker executes. -/
def Places.Holds {n : Nat} (places : Places n) (id : String) : Prop :=
  id ∈ places.waiting ∨ id ∈ places.queue ∨ ∃ i, id ∈ places.held i

namespace Pool

variable {n : Nat} {M : SchedulerModel n} {p q : Pool M} {cfg : WorkerConfig} {st t : InFlight} {id : String}
  {r : Accepted}

def Queued (p : Pool M) (id : String) : Prop := p.places.Holds id

def Runs (p : Pool M) (id : String) (tokens : List String) : Prop :=
  ∃ i execution, p.executions i = some execution ∧ id ∈ execution.state.pending ∧ execution.state.tokens id = tokens

/-- An accepted request is as far as the pool has got with it. -/
structure Mirrors (p : Pool M) (id : String) (r : Accepted) : Prop where
  named : r.item.request.requestId = id
  handle : r.item.handle = p.handles id
  waits : r.caller.Waits (p.handles id)
  submitted : r.worker ≠ .absent
  queued : p.Queued id → r.worker = .queued ∧ (p.handles id).Fresh
  runs : ∀ tokens, p.Runs id tokens →
    (∃ batchStart, r.worker = .running tokens batchStart) ∧ ItemView.Phase { handle := p.handles id, tokens }

/-- The requests of the pool are those that were accepted; the records agree unless a caller has given up. -/
structure Agrees (p : Pool M) (st : InFlight) : Prop where
  accepted : st.accepted = p.known
  mirrors : ∀ id ∈ p.known, ∃ r, st.requests id = some r ∧ p.Mirrors id r
  records : ∀ id, (id ∈ p.known → (p.handles id).cancelled = false) →
    st.services.recordsOf id = p.services.recordsOf id

/-- A step of the pool that has not moved a request. -/
structure Keeps (p : Pool M) (id : String) (q : Pool M) : Prop where
  handle : q.handles id = p.handles id
  queued : q.Queued id → p.Queued id
  runs : ∀ tokens, q.Runs id tokens → p.Runs id tokens
  records : q.services.recordsOf id = p.services.recordsOf id

theorem Mirrors.kept (mirrors : p.Mirrors id r) (keeps : p.Keeps id q) : q.Mirrors id r where
  named := mirrors.named
  handle := mirrors.handle.trans keeps.handle.symm
  waits := keeps.handle ▸ mirrors.waits
  submitted := mirrors.submitted
  queued queued := by
    rw [keeps.handle]
    exact mirrors.queued (keeps.queued queued)
  runs tokens runs := by
    rw [keeps.handle]
    exact mirrors.runs tokens (keeps.runs tokens runs)

theorem Mirrors.not_both {tokens : List String} (mirrors : p.Mirrors id r) (queued : p.Queued id)
    (runs : p.Runs id tokens) : False := by
  rcases mirrors.runs tokens runs with ⟨⟨batchStart, running⟩, -⟩
  have waits := (mirrors.queued queued).1
  rw [running] at waits
  cases waits

theorem Mirrors.became {v : ItemView} {worker : WorkerPoint} (mirrors : p.Mirrors id r)
    (found : st.requests id = some r) (became : st.Became id v worker t) (handle : q.handles id = v.handle)
    (waits : r.caller.Waits v.handle) (submitted : worker ≠ .absent) (queued : ¬ q.Queued id)
    (runs : ∀ tokens, q.Runs id tokens →
      (∃ batchStart, worker = .running tokens batchStart) ∧ ItemView.Phase { handle := v.handle, tokens }) :
    ∃ r', t.requests id = some r' ∧ q.Mirrors id r' := by
  rcases became with ⟨before, r', present, after, caller, named, left, arrived, -⟩
  cases found.symm.trans present
  refine ⟨r', after, named.trans mirrors.named, left.trans handle.symm, ?_, ?_, fun inside => absurd inside queued, ?_⟩
  · rw [caller, handle]
    exact waits
  · rw [arrived]
    exact submitted
  · rw [arrived, handle]
    exact runs

theorem Agrees.touched {ids : List String} (agrees : p.Agrees st) (touches : st.Touches ids t)
    (known : q.known = p.known) (others : ∀ id, id ∉ ids → p.Keeps id q)
    (moved : ∀ id ∈ ids, (∃ r, t.requests id = some r ∧ q.Mirrors id r) ∧
      ((q.handles id).cancelled = false → t.services.recordsOf id = q.services.recordsOf id))
    (within : ids ⊆ p.known) : q.Agrees t where
  accepted := by rw [touches.accepted, agrees.accepted, known]
  mirrors id asked := by
    by_cases inside : id ∈ ids
    · exact (moved id inside).1
    · rw [known] at asked
      rcases agrees.mirrors id asked with ⟨r, found, mirrors⟩
      refine ⟨r, ?_, mirrors.kept (others id inside)⟩
      rw [touches.requests id inside, found]
  records id opened := by
    by_cases inside : id ∈ ids
    · exact (moved id inside).2 (opened (known ▸ within inside))
    · rw [touches.records id inside, (others id inside).records]
      apply agrees.records id
      rw [← known, ← (others id inside).handle]
      exact opened

theorem Agrees.still (agrees : p.Agrees st) (known : q.known = p.known) (keeps : ∀ id, p.Keeps id q) : q.Agrees st := by
  have nothing : st.Touches [] st := ⟨rfl, fun _ _ => rfl, fun _ _ => rfl⟩
  apply agrees.touched nothing known (fun id _ => keeps id)
  · intro id inside
    cases inside
  · exact List.nil_subset _

variable {i : Fin n} {action : M.Action} {s : M.State}

/-- The scheduler has moved on by itself; whoever is queued then was queued before. -/
theorem Agrees.followed (agrees : p.Agrees st) (submits : M.submits? action = none)
    (queued : ∀ id, (M.places s).Holds id → p.Queued id) :
    (p.follow action s).Agrees st := by
  rw [follow, receive_none submits]
  apply agrees.still
  · rfl
  · exact fun id => ⟨rfl, queued id, fun _ runs => runs, rfl⟩

theorem known_of_runs {tokens : List String} (sound : p.Sound) (runs : p.Runs id tokens) : id ∈ p.known := by
  rcases runs with ⟨i, execution, executes, pending, -⟩
  apply sound.known id
  apply mem_custody_of_hands
  rw [hands_executing sound executes]
  exact pending

theorem follow_some {item : ScheduledRequest} (submits : M.submits? action = some item) :
    (p.follow action s).known = p.known ++ [item.requestId] ∧
      (p.follow action s).handles = Function.update p.handles item.requestId item.handle ∧
      (p.follow action s).services = p.services ∧ (p.follow action s).executions = p.executions ∧
      (p.follow action s).places = M.places s := by
  rw [follow, receive_some submits]
  exact ⟨rfl, rfl, rfl, rfl, rfl⟩

theorem keeps_submitted {item : ScheduledRequest} (submits : M.submits? action = some item)
    (queued : ∀ id, (M.places s).Holds id → p.Queued id ∨ id = item.requestId) (differs : id ≠ item.requestId) :
    p.Keeps id (p.follow action s) := by
  rcases follow_some (p := p) (s := s) submits with ⟨-, handles, services, executions, places⟩
  constructor
  · rw [handles, Function.update_of_ne differs]
  · intro now
    unfold Queued at now
    rw [places] at now
    exact (queued id now).resolve_right differs
  · intro tokens runs
    unfold Runs at runs
    rwa [executions] at runs
  · rw [services]

theorem Agrees.submitted {item : ScheduledRequest} (agrees : p.Agrees st) (sound : p.Sound)
    (submits : M.submits? action = some item) (admits : p.Admits action) (cfg : WorkerConfig) (requestTimeoutS : ℚ)
    (queued : ∀ id, (M.places s).Holds id → p.Queued id ∨ id = item.requestId) :
    ∃ run t, exec (InFlight.step cfg.clock requestTimeoutS) st run = some t ∧ (p.follow action s).Agrees t ∧
      ∀ id, run.filterMap (·.token? id) = [] := by
  rcases admits item submits with ⟨fresh, created⟩
  have chosen : ∃ stream : Bool, item.handle = if stream then .streaming .create else .completion .create := by
    rcases created with plain | streams
    · exact ⟨false, plain⟩
    · exact ⟨true, streams⟩
  rcases chosen with ⟨stream, handle⟩
  have unknown : item.requestId ∉ st.accepted := by
    rw [agrees.accepted]
    exact fresh
  rcases InFlight.exec_submission cfg.clock requestTimeoutS stream unknown with
    ⟨t, r, run, enters, made, waits, worker⟩
  refine ⟨_, t, run, ?_, fun id => InFlight.submission_silent item.requestId id stream⟩
  rcases follow_some (p := p) (s := s) submits with ⟨known, handles, services, executions, places⟩
  have other (id : String) (differs : id ≠ item.requestId) : p.Keeps id (p.follow action s) :=
    keeps_submitted submits queued differs
  generalize p.follow action s = q at known handles services executions places other ⊢
  have own : q.handles item.requestId = r.item.handle := by
    rw [handles, Function.update_self, handle, made]
  constructor
  · rw [enters.accepted, agrees.accepted, known]
  · intro id asked
    by_cases same : id = item.requestId
    · subst same
      refine ⟨r, by rw [enters.requests, Function.update_self], enters.named, own.symm, own ▸ waits, ?_, ?_, ?_⟩
      · rw [worker]
        simp
      · intro _
        refine ⟨worker, ?_⟩
        rw [own, made]
        cases stream <;> exact .inl rfl
      · intro tokens runs
        unfold Runs at runs
        rw [executions] at runs
        exact absurd (known_of_runs sound runs) fresh
    · rw [known] at asked
      have before : id ∈ p.known := (List.mem_append.mp asked).resolve_right fun new => same (List.mem_singleton.mp new)
      rcases agrees.mirrors id before with ⟨r', found, mirrors⟩
      exact ⟨r', by rw [enters.requests, Function.update_of_ne same, found], mirrors.kept (other id same)⟩
  · intro id opened
    rw [enters.records, services]
    apply agrees.records id
    intro asked
    have differs : id ≠ item.requestId := fun same => fresh (same ▸ asked)
    rw [← (other id differs).handle]
    exact opened (known ▸ List.mem_append_left _ asked)

theorem mem_rest_of_queued (empty : p.places.held i = []) (queued : p.Queued id) : id ∈ p.rest i := by
  rcases queued with waits | queued | ⟨j, held⟩
  · exact mem_rest_of_waiting i waits
  · exact mem_rest_of_queue i queued
  · have other : j ≠ i := by
      rintro rfl
      rw [empty] at held
      cases held
    exact mem_rest_of_hands other (List.mem_append_left _ held)

theorem start_runs (cfg : WorkerConfig) (p : Pool M) (i : Fin n) (items : List ScheduledRequest) :
    (p.start cfg i items).known = p.known ∧ (p.start cfg i items).handles = p.handles ∧
      (p.start cfg i items).places = p.places ∧ (p.start cfg i items).services.terminal = p.services.terminal ∧
      ∀ id tokens, (p.start cfg i items).Runs id tokens →
        p.Runs id tokens ∨ tokens = [] ∧ id ∈ requestIds items ∧ (p.handles id).cancelled = false := by
  unfold start
  dsimp only
  split
  · exact ⟨rfl, rfl, rfl, rfl, fun _ _ runs => .inl runs⟩
  · refine ⟨rfl, rfl, rfl, rfl, fun id tokens runs => ?_⟩
    rcases runs with ⟨j, execution, executes, pending, received⟩
    by_cases same : j = i
    · subst same
      right
      simp only [setExecution, Function.update_self, Option.some.injEq] at executes
      subst executes
      rcases List.mem_map.mp (List.mem_dedup.mp pending) with ⟨item, active, named⟩
      rcases List.mem_filter.mp active with ⟨member, live⟩
      rcases List.mem_map.mp member with ⟨asked, listed, rfl⟩
      have here : asked.requestId = id := named
      subst here
      exact ⟨received.symm, List.mem_map_of_mem listed, by simpa [ScheduledRequest.cancelled] using live⟩
    · left
      simp only [setExecution, Function.update_of_ne same] at executes
      exact ⟨j, execution, executes, pending, received⟩

theorem startBatch_silent (ids : List String) (id : String) :
    (ids.map InFlightAction.startBatch).filterMap (·.token? id) = [] := by
  rw [List.filterMap_map]
  exact List.filterMap_eq_nil_iff.mpr fun _ _ => rfl

/-- Some queued requests leave their places; their worker executes those that nobody has cancelled. -/
structure Starts (p : Pool M) (ids : List String) (q : Pool M) : Prop where
  known : q.known = p.known
  handles : q.handles = p.handles
  records : ∀ id, q.services.recordsOf id = p.services.recordsOf id
  nodup : ids.Nodup
  before : ∀ id ∈ ids, p.Queued id
  after : ∀ id, q.Queued id → p.Queued id ∧ id ∉ ids
  runs : ∀ id tokens, q.Runs id tokens →
    p.Runs id tokens ∨ tokens = [] ∧ id ∈ ids ∧ (p.handles id).cancelled = false

theorem dispatch_starts {dispatched : Dispatched} {taken : List String} (sound : p.Sound) (idle : p.executions i = none)
    (submits : M.submits? action = none) (cfg : WorkerConfig) (waiting : (M.places s).waiting = p.places.waiting)
    (queue : p.places.queue.Perm (taken ++ (M.places s).queue))
    (items : requestIds dispatched.items = p.places.held i ++ taken)
    (held : (M.places s).held = Function.update p.places.held i []) :
    p.Starts (requestIds dispatched.items) ((p.follow action s).start cfg i dispatched.items) := by
  rcases dispatch_shift cfg sound idle submits waiting queue items held with ⟨kept, shift⟩
  rcases start_runs cfg (p.follow action s) i dispatched.items with ⟨known, handles, places, terminal, runs⟩
  have mine : p.hands i ++ taken = requestIds dispatched.items := by rw [items, hands_idle idle]
  generalize (p.follow action s).start cfg i dispatched.items = q at known handles places terminal runs shift ⊢
  have followed : p.follow action s = { p with
      scheduler := s, caught := p.caught ++ p.catches s, resisted := p.resisted || p.Resists action s } := by
    rw [follow, receive_none submits]
  rw [followed] at known handles places terminal runs
  have now : q.places = M.places s := places
  constructor
  · exact known
  · exact handles
  · intro id
    rw [Services.recordsOf, terminal]
    rfl
  · have all : (↑(p.hands i ++ taken) : Multiset String).Nodup :=
      Multiset.nodup_of_le (shift.before ▸ Multiset.le_add_left _ _) sound.nodup
    rwa [mine] at all
  · intro id inside
    rw [items] at inside
    rcases List.mem_append.mp inside with inHand | fresh
    · exact .inr (.inr ⟨i, inHand⟩)
    · exact .inr (.inl (queue.symm.subset (List.mem_append_left _ fresh)))
  · intro id queued
    constructor
    · unfold Queued Places.Holds at queued
      rw [now, waiting, held] at queued
      rcases queued with waits | queued | ⟨j, inHand⟩
      · exact .inl waits
      · exact .inr (.inl (queue.symm.subset (List.mem_append_right _ queued)))
      · refine .inr (.inr ⟨j, ?_⟩)
        by_cases same : j = i
        · subst same
          rw [Function.update_self] at inHand
          cases inHand
        · rwa [Function.update_of_ne same] at inHand
    · have empty : q.places.held i = [] := by rw [now, held, Function.update_self]
      rw [← mine]
      exact Multiset.disjoint_left.mp (shift.disjoint sound) (mem_rest_of_queued empty queued)
  · exact runs

theorem known_of_queued (sound : p.Sound) (queued : p.Queued id) : id ∈ p.known := by
  apply sound.known id
  rcases queued with waits | queued | ⟨j, inHand⟩
  · exact mem_custody.mpr (.inl waits)
  · exact mem_custody.mpr (.inr (.inl queued))
  · exact mem_custody_of_hands (List.mem_append_left _ inHand)

/-- The call of a worker returns: each of its requests is started or, when it is cancelled, dropped. -/
theorem Agrees.started {ids : List String} (agrees : p.Agrees st) (sound : p.Sound) (starts : p.Starts ids q)
    (cfg : WorkerConfig) (requestTimeoutS : ℚ) :
    ∃ run t, exec (InFlight.step cfg.clock requestTimeoutS) st run = some t ∧ q.Agrees t ∧
      ∀ id, run.filterMap (·.token? id) = [] := by
  have asked : ids ⊆ p.known := fun id inside => known_of_queued sound (starts.before id inside)
  have each : ∀ id ∈ ids, ∃ r, st.requests id = some r ∧ r.item.request.requestId = id ∧
      ∀ u, ∃ v worker s' r', InFlight.act cfg.clock requestTimeoutS u r (.startBatch id) = some (s', r') ∧
        r.Becomes u v worker r' s' ∧ v = { handle := p.handles id } ∧
          ∃ batchStart, worker = if (p.handles id).cancelled then .done else .running [] batchStart := by
    intro id inside
    rcases agrees.mirrors id (asked inside) with ⟨r, found, mirrors⟩
    refine ⟨r, found, mirrors.named, fun u => ?_⟩
    have queued := (mirrors.queued (starts.before id inside)).1
    rcases Accepted.start_becomes cfg.clock requestTimeoutS u queued id with ⟨batchStart, s', r', acted, becomes⟩
    rw [mirrors.handle] at becomes
    exact ⟨_, _, s', r', acted, becomes, rfl, batchStart, rfl⟩
  rcases InFlight.exec_each starts.nodup (fun _ _ => rfl) each with ⟨t, run, touches, moved⟩
  refine ⟨_, t, run, agrees.touched touches starts.known ?_ ?_ asked, startBatch_silent _⟩
  · intro id outside
    refine ⟨by rw [starts.handles], fun queued => (starts.after id queued).1, fun tokens runs => ?_, starts.records id⟩
    exact (starts.runs id tokens runs).resolve_right fun begun => outside begun.2.1
  · intro id inside
    rcases agrees.mirrors id (asked inside) with ⟨r, found, mirrors⟩
    rcases moved id inside with ⟨v, worker, became, rfl, batchStart, rfl⟩
    constructor
    · apply mirrors.became found became
      · rw [starts.handles]
      · exact mirrors.waits
      · split <;> simp
      · exact fun queued => (starts.after id queued).2 inside
      · intro tokens runs
        rcases starts.runs id tokens runs with earlier | ⟨rfl, -, opened⟩
        · exact (mirrors.not_both (starts.before id inside) earlier).elim
        · have fresh := (mirrors.queued (starts.before id inside)).2
          exact ⟨⟨batchStart, by rw [opened]; rfl⟩, ItemView.Phase.of_fresh fresh⟩
    · intro opened
      rcases became with ⟨-, -, -, -, -, -, -, -, recorded⟩
      rw [recorded, List.append_nil, starts.records]
      exact agrees.records id fun _ => starts.handles ▸ opened

end Pool

end LLMRuntime
