import Mathlib.Data.Fintype.Basic
import LLMRuntime.Workers.BatchOutcome
import LLMRuntime.Workers.Pool

namespace LLMRuntime

open ResponseHandle

namespace Pool

variable {n : Nat} {M : SchedulerModel n}

section Custody

variable (p : Pool M)

def custody : Multiset String := p.places.waiting + p.places.queue + Custody.total p.hands

def rest (i : Fin n) : Multiset String :=
  p.places.waiting + p.places.queue + Custody.total (Function.update p.hands i [])

theorem custody_eq (i : Fin n) : p.custody = p.rest i + p.hands i := by
  rw [custody, rest, add_assoc (_ + _), Custody.total_clear]

variable {p} {id : String}

theorem mem_custody :
    id ∈ p.custody ↔ id ∈ p.places.waiting ∨ id ∈ p.places.queue ∨ ∃ i, id ∈ p.hands i := by
  rw [custody, Multiset.mem_add, Multiset.mem_add, Custody.mem_total, or_assoc]
  rfl

theorem mem_rest_of_waiting (i : Fin n) (waits : id ∈ p.places.waiting) : id ∈ p.rest i :=
  Multiset.mem_add.mpr (.inl (Multiset.mem_add.mpr (.inl waits)))

theorem mem_rest_of_queue (i : Fin n) (queued : id ∈ p.places.queue) : id ∈ p.rest i :=
  Multiset.mem_add.mpr (.inl (Multiset.mem_add.mpr (.inr queued)))

theorem mem_rest_of_hands {i j : Fin n} (other : j ≠ i) (inHand : id ∈ p.hands j) : id ∈ p.rest i := by
  apply Multiset.mem_add.mpr
  right
  apply Custody.mem_total.mpr
  exact ⟨j, by rwa [Function.update_of_ne other]⟩

theorem mem_custody_of_hands {i : Fin n} (inHand : id ∈ p.hands i) : id ∈ p.custody :=
  mem_custody.mpr (.inr (.inr ⟨i, inHand⟩))

theorem hands_idle {i : Fin n} (idle : p.executions i = none) : p.hands i = p.places.held i := by
  rw [hands, idle, Execution.pending, List.append_nil]

end Custody

/-- No request is in two places, whoever has a request has not answered it, and a request that nobody has is
    closed or was caught by `stop`. -/
structure Sound (p : Pool M) : Prop where
  nodup : p.custody.Nodup
  known : ∀ id ∈ p.custody, id ∈ p.known
  unanswered : ∀ id ∈ p.custody, (p.handles id).Unanswered
  covered : ∀ id ∈ p.known, (p.handles id).closed = true ∨ id ∈ p.custody ∨ id ∈ p.caught
  executing : ∀ i execution, p.executions i = some execution →
    p.places.held i = [] ∧ ∀ id ∈ execution.state.pending, (execution.state.items id).isSome = true
  outside : ∀ id ∈ p.caught, id ∈ p.known ∧ id ∉ p.places.waiting ∧ id ∉ p.places.queue
  stopping : ∀ id ∈ p.caught, p.phase ≠ .serving
  grasped : p.phase ≠ .serving → ∀ i, ∀ id ∈ p.hands i, id ∈ p.caught
  cancelling : ∀ i, p.cancelling i = true → p.phase ≠ .serving

/-- What a step of one worker may do: it takes some requests out of the queue and has `items` in hand afterwards,
    and the requests that leave its hands are closed or were caught. -/
structure Shift (p : Pool M) (i : Fin n) (taken items : List String) (q : Pool M) : Prop where
  waiting : q.places.waiting = p.places.waiting
  queue : p.places.queue.Perm (taken ++ q.places.queue)
  hands : q.hands = Function.update p.hands i items
  within : items.Subperm (p.hands i ++ taken)
  handles : ∀ id, id ∉ p.hands i → q.handles id = p.handles id
  unanswered : ∀ id ∈ items, (q.handles id).Unanswered
  gone : ∀ id ∈ p.hands i ++ taken, id ∉ items → (q.handles id).closed = true ∨ id ∈ q.caught
  known : q.known = p.known
  phase : q.phase = p.phase
  cancelling : ∀ j, q.cancelling j = true → p.cancelling j = true
  kept : ∀ id ∈ p.caught, id ∈ q.caught
  caught : ∀ id ∈ q.caught, id ∈ p.caught ∨ p.phase ≠ .serving ∧ id ∈ taken
  catches : p.phase ≠ .serving → ∀ id ∈ taken, id ∈ q.caught
  executing : ∀ j execution, q.executions j = some execution →
    q.places.held j = [] ∧ ∀ id ∈ execution.state.pending, (execution.state.items id).isSome = true

namespace Shift

variable {p q : Pool M} {i : Fin n} {taken items : List String}

theorem before (shift : p.Shift i taken items q) : p.custody = q.rest i + ↑(p.hands i ++ taken) := by
  have queue : (p.places.queue : Multiset String) = taken + q.places.queue := Multiset.coe_eq_coe.mpr shift.queue
  rw [custody_eq p i, rest, rest, shift.waiting, shift.hands, Function.update_idem, queue, ← Multiset.coe_add]
  abel

theorem after (shift : p.Shift i taken items q) : q.custody = q.rest i + ↑items := by
  rw [custody_eq q i, shift.hands, Function.update_self]

theorem disjoint (shift : p.Shift i taken items q) (sound : p.Sound) :
    Disjoint (q.rest i) (↑(p.hands i ++ taken) : Multiset String) :=
  (Multiset.nodup_add.mp (shift.before ▸ sound.nodup)).2.2

theorem custody_le (shift : p.Shift i taken items q) : q.custody ≤ p.custody := by
  rw [shift.before, shift.after]
  exact add_le_add_right (Multiset.coe_le.mpr shift.within) _

theorem mem_or_mem_items {id : String} (shift : p.Shift i taken items q) (inside : id ∈ q.custody) :
    id ∈ q.rest i ∨ id ∈ items := by
  rw [shift.after] at inside
  exact Multiset.mem_add.mp inside

theorem mem_of_left {id : String} (shift : p.Shift i taken items q) (inside : id ∈ p.custody) (left : id ∉ q.custody) :
    id ∈ p.hands i ++ taken ∧ id ∉ items := by
  rw [shift.after, Multiset.mem_add, not_or] at left
  rw [shift.before] at inside
  exact ⟨(Multiset.mem_add.mp inside).resolve_left left.1, left.2⟩

theorem sound (shift : p.Shift i taken items q) (sound : p.Sound) : q.Sound where
  nodup := Multiset.nodup_of_le shift.custody_le sound.nodup
  known id inside := shift.known ▸ sound.known id (Multiset.mem_of_le shift.custody_le inside)
  unanswered id inside := by
    rcases shift.mem_or_mem_items inside with elsewhere | mine
    · have outside : id ∉ p.hands i := fun inHand =>
        Multiset.disjoint_left.mp (shift.disjoint sound) elsewhere (List.mem_append_left _ inHand)
      rw [shift.handles id outside]
      exact sound.unanswered id (Multiset.mem_of_le shift.custody_le inside)
    · exact shift.unanswered id mine
  covered id known := by
    by_cases inside : id ∈ p.custody
    · by_cases stays : id ∈ q.custody
      · exact .inr (.inl stays)
      · obtain ⟨moved, dropped⟩ := shift.mem_of_left inside stays
        exact (shift.gone id moved dropped).imp_right .inr
    · rcases sound.covered id (shift.known ▸ known) with closed | inCustody | caught
      · rw [shift.handles id fun inHand => inside (mem_custody_of_hands inHand)]
        exact .inl closed
      · exact absurd inCustody inside
      · exact .inr (.inr (shift.kept id caught))
  executing := shift.executing
  outside id caught := by
    rcases shift.caught id caught with before | ⟨-, fresh⟩
    · obtain ⟨known, waiting, queue⟩ := sound.outside id before
      rw [shift.waiting, shift.known]
      exact ⟨known, waiting, fun queued => queue (shift.queue.symm.subset (List.mem_append_right _ queued))⟩
    · have moved : id ∈ p.hands i ++ taken := List.mem_append_right _ fresh
      have apart := fun elsewhere => Multiset.disjoint_left.mp (shift.disjoint sound) elsewhere moved
      refine ⟨?_, fun waits => apart (mem_rest_of_waiting i waits), fun queued => apart (mem_rest_of_queue i queued)⟩
      rw [shift.known]
      exact sound.known id (shift.before ▸ Multiset.mem_add.mpr (.inr moved))
  stopping id caught := by
    rw [shift.phase]
    exact (shift.caught id caught).elim (sound.stopping id) And.left
  grasped stopping j id inHand := by
    have before : p.phase ≠ .serving := shift.phase ▸ stopping
    rw [shift.hands] at inHand
    by_cases same : j = i
    · subst same
      rw [Function.update_self] at inHand
      rcases List.mem_append.mp (shift.within.subset inHand) with mine | fresh
      · exact shift.kept id (sound.grasped before j id mine)
      · exact shift.catches before id fresh
    · rw [Function.update_of_ne same] at inHand
      exact shift.kept id (sound.grasped before j id inHand)
  cancelling j cancels := shift.phase ▸ sound.cancelling j (shift.cancelling j cancels)

end Shift

section Turns

variable {p q : Pool M} {i : Fin n} {taken kept : List String} {t : M.State}

theorem hands_update {items : List String} (held : ∀ j, j ≠ i → q.places.held j = p.places.held j)
    (executions : ∀ j, j ≠ i → q.executions j = p.executions j) (mine : q.hands i = items) :
    q.hands = Function.update p.hands i items := by
  funext j
  by_cases same : j = i
  · subst same
    rw [Function.update_self, mine]
  · rw [Function.update_of_ne same, hands, hands, held j same, executions j same]

theorem mem_catches {id : String} (queue : p.places.queue.Perm (taken ++ (M.places t).queue))
    (caught : id ∈ p.catches t) : p.phase ≠ .serving ∧ id ∈ taken := by
  unfold catches at caught
  split at caught
  · cases caught
  · next stopping =>
    obtain ⟨queued, left⟩ := List.mem_filter.mp caught
    refine ⟨stopping, ?_⟩
    exact (List.mem_append.mp (queue.subset queued)).resolve_right (of_decide_eq_true left)

theorem mem_catches_of_taken {id : String} (sound : p.Sound) (queue : p.places.queue.Perm (taken ++ (M.places t).queue))
    (stopping : p.phase ≠ .serving) (fresh : id ∈ taken) : id ∈ p.catches t := by
  have nodup : p.places.queue.Nodup := by
    have inner := (Multiset.nodup_add.mp sound.nodup).1
    exact (Multiset.nodup_add.mp inner).2.1
  have apart := List.disjoint_of_nodup_append (queue.nodup_iff.mp nodup)
  rw [catches, if_neg stopping]
  exact List.mem_filter.mpr ⟨queue.symm.subset (List.mem_append_left _ fresh), decide_eq_true fun stays => apart fresh stays⟩

/-- A worker between two batches moves on in its call; it may go on to execute what the call returns. -/
theorem turn_shift (sound : p.Sound) (s : Services) {execution : Option Execution} (resisted : Bool)
    (waiting : (M.places t).waiting = p.places.waiting)
    (queue : p.places.queue.Perm (taken ++ (M.places t).queue))
    (held : (M.places t).held = Function.update p.places.held i kept)
    (ready : ∀ started, execution = some started →
      kept = [] ∧ ∀ id ∈ started.state.pending, (started.state.items id).isSome = true)
    (within : (kept ++ Execution.pending execution).Subperm (p.hands i ++ taken))
    (gone : ∀ id ∈ p.hands i ++ taken, id ∉ kept ++ Execution.pending execution → (p.handles id).closed = true) :
    p.Shift i taken (kept ++ Execution.pending execution)
      { p with
        scheduler := t, services := s, caught := p.caught ++ p.catches t, resisted
        executions := Function.update p.executions i execution } where
  waiting := waiting
  queue := queue
  hands := by
    have mine : (M.places t).held i ++ Execution.pending (Function.update p.executions i execution i) =
        kept ++ Execution.pending execution := by
      rw [held, Function.update_self, Function.update_self]
    refine hands_update (fun j differ => ?_) (fun j differ => Function.update_of_ne differ _ _) mine
    exact (congrFun held j).trans (Function.update_of_ne differ _ _)
  within := within
  handles _ _ := rfl
  unanswered id inside := by
    rcases List.mem_append.mp (within.subset inside) with mine | fresh
    · exact sound.unanswered id (mem_custody_of_hands mine)
    · exact sound.unanswered id (mem_custody.mpr (.inr (.inl (queue.symm.subset (List.mem_append_left _ fresh)))))
  gone id moved dropped := .inl (gone id moved dropped)
  known := rfl
  phase := rfl
  cancelling _ cancels := cancels
  kept _ caught := List.mem_append_left _ caught
  caught _ caught := (List.mem_append.mp caught).imp_right (mem_catches queue)
  catches stopping _ fresh := List.mem_append_right _ (mem_catches_of_taken sound queue stopping fresh)
  executing j started executes := by
    have here : Function.update p.executions i execution j = some started := executes
    change (M.places t).held j = [] ∧ _
    rw [held]
    by_cases same : j = i
    · subst same
      rw [Function.update_self] at here ⊢
      exact ready started here
    · rw [Function.update_of_ne same] at here ⊢
      exact sound.executing j started here

variable {cfg : WorkerConfig} {action : M.Action}

theorem receive_none (submits : M.submits? action = none) : p.receive action = p := by
  rw [receive, submits]

theorem advance_quiet (same : (M.places t).returned = p.places.returned) : p.advance cfg action t = p.follow action t := by
  unfold advance
  rw [same, List.drop_length]
  split
  · next called dropped =>
    cases dropped
  · rfl

theorem advance_dispatch {dispatched : Dispatched} (consumer : M.consumer? p.scheduler action = some i)
    (returned : (M.places t).returned = p.places.returned ++ [dispatched]) :
    p.advance cfg action t = (p.follow action t).start cfg i dispatched.items := by
  unfold advance
  rw [consumer, returned, List.drop_left]

theorem follow_sound (sound : p.Sound) (idle : p.executions i = none) (submits : M.submits? action = none)
    (waiting : (M.places t).waiting = p.places.waiting) (queue : p.places.queue.Perm (taken ++ (M.places t).queue))
    (held : (M.places t).held = Function.update p.places.held i (p.places.held i ++ taken)) :
    (p.follow action t).Sound := by
  have stays : Function.update p.executions i none = p.executions := Function.update_eq_self_iff.mpr idle.symm
  have all : p.places.held i ++ taken ++ Execution.pending none = p.hands i ++ taken := by
    rw [Execution.pending, List.append_nil, hands_idle idle]
  have within : (p.places.held i ++ taken ++ Execution.pending none).Subperm (p.hands i ++ taken) := by
    rw [all]
  have ready (started : Execution) (same : none = some started) : p.places.held i ++ taken = [] ∧
      ∀ id ∈ started.state.pending, (started.state.items id).isSome = true := by
    cases same
  have gone (id : String) (moved : id ∈ p.hands i ++ taken)
      (dropped : id ∉ p.places.held i ++ taken ++ Execution.pending none) : (p.handles id).closed = true := by
    rw [all] at dropped
    exact absurd moved dropped
  have shift := turn_shift sound p.services (p.resisted || p.Resists action t) waiting queue held ready within gone
  rw [stays] at shift
  rw [follow, receive_none submits]
  exact shift.sound sound

def current (p : Pool M) (items : List ScheduledRequest) : List ScheduledRequest :=
  items.map fun item => { item with handle := p.handles item.requestId }

theorem requestIds_current (items : List ScheduledRequest) : requestIds (p.current items) = requestIds items := by
  simp [current, requestIds, ScheduledRequest.requestId]

theorem start_cases (cfg : WorkerConfig) (p : Pool M) {i : Fin n} (idle : p.executions i = none)
    (items : List ScheduledRequest) :
    ∃ s execution, p.start cfg i items = { p with services := s, executions := Function.update p.executions i execution } ∧
      Execution.pending execution = (requestIds (activeItems (p.current items))).dedup ∧
      ∀ started, execution = some started → ∀ id ∈ started.state.pending, (started.state.items id).isSome = true := by
  unfold start
  dsimp only
  split
  · next empty =>
    have none : activeItems (p.current items) = [] := List.isEmpty_iff.mp empty
    let s := (p.services.recordBatch items.length).emit (.batchFormed items.length (requestIds items))
    refine ⟨s, .none, ?_, ?_, ?_⟩
    · rw [Function.update_eq_self_iff.mpr idle.symm]
    · rw [none]
      rfl
    · intro started same
      cases same
  · refine ⟨_, some _, rfl, rfl, ?_⟩
    intro started same id inside
    cases same
    have listed : id ∈ (activeItems (p.current items)).map fun item => item.request.requestId := List.mem_dedup.mp inside
    cases found : itemsById (activeItems (p.current items)) id with
    | none => exact absurd listed (itemsById_none_iff.mp found)
    | some item => exact (congrArg Option.isSome found).trans rfl

theorem closed_of_inactive {items : List ScheduledRequest} {id : String} (listed : id ∈ requestIds items)
    (inactive : id ∉ requestIds (activeItems (p.current items))) : (p.handles id).closed = true := by
  obtain ⟨item, member, rfl⟩ := List.mem_map.mp listed
  by_contra opened
  have live : (p.handles item.requestId).cancelled = false := by
    by_contra cancelled
    exact opened (closed_of_cancelled (Bool.not_eq_false _ ▸ cancelled))
  refine inactive (List.mem_map.mpr ⟨{ item with handle := p.handles item.requestId }, ?_, rfl⟩)
  exact List.mem_filter.mpr ⟨List.mem_map_of_mem member, by simp [ScheduledRequest.cancelled, live]⟩

theorem dispatch_shift (cfg : WorkerConfig) (sound : p.Sound) (idle : p.executions i = none)
    (submits : M.submits? action = none) {dispatched : Dispatched} (waiting : (M.places t).waiting = p.places.waiting)
    (queue : p.places.queue.Perm (taken ++ (M.places t).queue))
    (items : requestIds dispatched.items = p.places.held i ++ taken)
    (held : (M.places t).held = Function.update p.places.held i []) :
    ∃ items, p.Shift i taken items ((p.follow action t).start cfg i dispatched.items) := by
  rw [follow, receive_none submits]
  obtain ⟨s, execution, started, pending, present⟩ := start_cases cfg
    { p with
      scheduler := t, caught := p.caught ++ p.catches t, resisted := p.resisted || p.Resists action t } idle
    dispatched.items
  rw [started]
  let active := requestIds (activeItems (p.current dispatched.items))
  have inHand : p.hands i ++ taken = requestIds dispatched.items := by rw [items, hands_idle idle]
  have stays : [] ++ Execution.pending execution = active.dedup := pending
  have within : ([] ++ Execution.pending execution).Subperm (p.hands i ++ taken) := by
    have filtered : active.Sublist (requestIds (p.current dispatched.items)) := List.filter_sublist.map _
    rw [requestIds_current] at filtered
    rw [stays, inHand]
    exact ((List.dedup_sublist active).trans filtered).subperm
  refine ⟨_, turn_shift sound _ _ waiting queue held (fun begun same => ⟨rfl, present begun same⟩) within ?_⟩
  intro id moved dropped
  rw [inHand] at moved
  rw [stays, List.mem_dedup] at dropped
  exact closed_of_inactive moved dropped

theorem dispatch_sound (sound : p.Sound) (idle : p.executions i = none) (submits : M.submits? action = none)
    {dispatched : Dispatched} (waiting : (M.places t).waiting = p.places.waiting)
    (queue : p.places.queue.Perm (taken ++ (M.places t).queue))
    (items : requestIds dispatched.items = p.places.held i ++ taken)
    (held : (M.places t).held = Function.update p.places.held i []) :
    ((p.follow action t).start cfg i dispatched.items).Sound := by
  rcases dispatch_shift cfg sound idle submits waiting queue items held with ⟨kept, shift⟩
  exact shift.sound sound

theorem turn_sound (sound : p.Sound) (idle : p.executions i = none) (submits : M.submits? action = none)
    (consumer : M.consumer? p.scheduler action = some i) (turn : p.places.Turn i (M.places t)) :
    (p.advance cfg action t).Sound := by
  cases turn with
  | quiet same =>
    rw [advance_quiet (congrArg Places.returned same)]
    have queue : p.places.queue.Perm ([] ++ (M.places t).queue) := by rw [same, List.nil_append]
    refine follow_sound sound idle submits (congrArg Places.waiting same) queue ?_
    rw [same, List.append_nil, Function.update_eq_self]
  | takes id waiting queue held returned =>
    rw [advance_quiet returned]
    exact follow_sound sound idle submits waiting queue held
  | dispatches dispatched taken waiting queue items held returned =>
    rw [advance_dispatch consumer returned]
    exact dispatch_sound sound idle submits waiting queue items held

end Turns

section Submissions

variable {p : Pool M} {t : M.State} {cfg : WorkerConfig} {action : M.Action} {item : ScheduledRequest}

theorem catches_nil (stays : ∀ id ∈ p.places.queue, id ∈ (M.places t).queue) : p.catches t = [] := by
  unfold catches
  split
  · rfl
  · exact List.filter_eq_nil_iff.mpr fun id queued left => of_decide_eq_true left (stays id queued)

theorem unanswered_fresh {handle : ResponseHandle} (fresh : handle = .completion .create ∨ handle = .streaming .create) :
    handle.Unanswered := by
  rcases fresh with rfl | rfl
  · exact .inl rfl
  · intro event member
    cases member

theorem receive_some (submits : M.submits? action = some item) : p.receive action =
    { p with
      known := p.known ++ [item.requestId], handles := Function.update p.handles item.requestId item.handle } := by
  rw [receive, submits]

theorem submit_sound (sound : p.Sound) (submits : M.submits? action = some item) (admits : p.Admits action)
    (waiting : ∀ id, id ∈ (M.places t).waiting → id ∈ p.places.waiting ∨ id = item.requestId)
    (queue : ∀ id, id ∈ (M.places t).queue → id ∈ p.places.queue ∨ id = item.requestId)
    (stays : ∀ id ∈ p.places.queue, id ∈ (M.places t).queue) (held : (M.places t).held = p.places.held)
    (custody : ((M.places t).waiting : Multiset String) + (M.places t).queue =
      {item.requestId} + (p.places.waiting + p.places.queue)) :
    (p.follow action t).Sound := by
  obtain ⟨fresh, unanswered⟩ := admits item submits
  have follows : p.follow action t =
      { p with
        scheduler := t, known := p.known ++ [item.requestId]
        handles := Function.update p.handles item.requestId item.handle
        resisted := p.resisted || p.Resists action t } := by
    rw [follow, receive_some submits, catches_nil stays, List.append_nil]
  have hands : (p.follow action t).hands = p.hands := by
    rw [follows]
    exact funext fun i => congrArg (· ++ _) (congrFun held i)
  have total : (p.follow action t).custody = {item.requestId} + p.custody := by
    rw [Pool.custody, Pool.custody, hands, ← add_assoc, ← custody]
    rfl
  have differs (id : String) (known : id ∈ p.known) : id ≠ item.requestId := fun same => fresh (same ▸ known)
  have handles (id : String) (known : id ∈ p.known) :
      Function.update p.handles item.requestId item.handle id = p.handles id :=
    Function.update_of_ne (differs id known) _ _
  rw [follows] at hands total ⊢
  exact {
    nodup := by
      rw [total, Multiset.singleton_add]
      exact Multiset.nodup_cons.mpr ⟨fun inside => fresh (sound.known _ inside), sound.nodup⟩
    known := by
      intro id inside
      rw [total, Multiset.singleton_add, Multiset.mem_cons] at inside
      rcases inside with rfl | inside
      · exact List.mem_append_right _ List.mem_cons_self
      · exact List.mem_append_left _ (sound.known id inside)
    unanswered := by
      intro id inside
      rw [total, Multiset.singleton_add, Multiset.mem_cons] at inside
      rcases inside with rfl | inside
      · change (Function.update p.handles item.requestId item.handle item.requestId).Unanswered
        rw [Function.update_self]
        exact unanswered_fresh unanswered
      · change (Function.update p.handles item.requestId item.handle id).Unanswered
        rw [handles id (sound.known id inside)]
        exact sound.unanswered id inside
    covered := by
      intro id listed
      rw [total, Multiset.singleton_add, Multiset.mem_cons]
      rcases List.mem_append.mp listed with known | new
      · rcases sound.covered id known with closed | inside | caught
        · exact .inl ((congrArg ResponseHandle.closed (handles id known)).trans closed)
        · exact .inr (.inl (.inr inside))
        · exact .inr (.inr caught)
      · exact .inr (.inl (.inl (List.mem_singleton.mp new)))
    executing := by
      intro i execution executes
      obtain ⟨empty, present⟩ := sound.executing i execution executes
      exact ⟨(congrFun held i).trans empty, present⟩
    outside := by
      intro id caught
      obtain ⟨known, absent, apart⟩ := sound.outside id caught
      refine ⟨List.mem_append_left _ known, fun waits => ?_, fun queued => ?_⟩
      · exact (waiting id waits).elim absent (differs id known)
      · exact (queue id queued).elim apart (differs id known)
    stopping := sound.stopping
    grasped := fun stopping i id inHand => sound.grasped stopping i id (congrFun hands i ▸ inHand)
    cancelling := sound.cancelling }

theorem waits_sound (sound : p.Sound) (submits : M.submits? action = some item) (admits : p.Admits action)
    (places : M.places t = p.places.enter item.requestId) : (p.follow action t).Sound := by
  refine submit_sound sound submits admits ?_ ?_ ?_ ?_ ?_ <;> rw [places]
  · intro id waits
    exact (List.mem_append.mp waits).imp_right List.mem_singleton.mp
  · exact fun id queued => .inl queued
  · exact fun id queued => queued
  · rfl
  · change ((p.places.waiting ++ [item.requestId] : List String) : Multiset String) + p.places.queue = _
    rw [← Multiset.coe_add, Multiset.coe_singleton]
    abel

theorem appends_sound (sound : p.Sound) (submits : M.submits? action = some item) (admits : p.Admits action)
    (places : M.places t = p.places.put item.requestId) : (p.follow action t).Sound := by
  refine submit_sound sound submits admits ?_ ?_ ?_ ?_ ?_ <;> rw [places]
  · exact fun id waits => .inl waits
  · intro id queued
    exact (List.mem_append.mp queued).imp_right List.mem_singleton.mp
  · exact fun id queued => List.mem_append_left _ queued
  · rfl
  · change (p.places.waiting : Multiset String) + (p.places.queue ++ [item.requestId] : List String) = _
    rw [← Multiset.coe_add, Multiset.coe_singleton]
    abel

theorem granted_sound {id : String} (sound : p.Sound) (submits : M.submits? action = none)
    (waiting : p.places.waiting = id :: (M.places t).waiting)
    (places : M.places t = { p.places.put id with waiting := (M.places t).waiting }) : (p.follow action t).Sound := by
  have queue : (M.places t).queue = p.places.queue ++ [id] := by
    rw [places]
    rfl
  have held : (M.places t).held = p.places.held := by
    rw [places]
    rfl
  have follows : p.follow action t = { p with scheduler := t, resisted := p.resisted || p.Resists action t } := by
    have none : p.catches t = [] := catches_nil fun other queued => queue ▸ List.mem_append_left _ queued
    rw [follow, receive_none submits, none, List.append_nil]
  have hands : (p.follow action t).hands = p.hands := by
    rw [follows]
    exact funext fun i => congrArg (· ++ _) (congrFun held i)
  have total : (p.follow action t).custody = p.custody := by
    have here : (p.follow action t).places = M.places t := by rw [follows]; rfl
    rw [custody, custody, hands, here, queue, waiting, ← Multiset.coe_add, Multiset.coe_singleton, ← Multiset.cons_coe,
      ← Multiset.singleton_add]
    abel
  rw [follows] at hands total ⊢
  exact {
    nodup := total ▸ sound.nodup
    known := fun other inside => sound.known other (total ▸ inside)
    unanswered := fun other inside => sound.unanswered other (total ▸ inside)
    covered := fun other known => (sound.covered other known).imp_right fun placed => placed.imp_left (total.symm ▸ ·)
    executing := by
      intro i execution executes
      obtain ⟨empty, present⟩ := sound.executing i execution executes
      exact ⟨(congrFun held i).trans empty, present⟩
    outside := by
      intro other caught
      obtain ⟨known, absent, apart⟩ := sound.outside other caught
      rw [waiting, List.mem_cons, not_or] at absent
      refine ⟨known, absent.2, fun queued => ?_⟩
      change other ∈ (M.places t).queue at queued
      rw [queue, List.mem_append, List.mem_singleton] at queued
      exact queued.elim apart absent.1
    stopping := sound.stopping
    grasped := fun stopping i other inHand => sound.grasped stopping i other (congrFun hands i ▸ inHand)
    cancelling := sound.cancelling }

end Submissions

end Pool

end LLMRuntime
