import LLMRuntime.Workers.PoolCustody

namespace LLMRuntime

open ResponseHandle

namespace Pool

variable {n : Nat} {M : SchedulerModel n}

section Steps

variable {p q : Pool M} {cfg : WorkerConfig}

inductive Moves (cfg : WorkerConfig) (p : Pool M) : PoolAction M → Pool M → Prop where
  | schedule {action : M.Action} {t : M.State} (admits : p.Admits action) (enables : p.Enables cfg action)
      (moved : M.step p.scheduler action = some t) : p.Moves cfg (.schedule action) (p.advance cfg action t)
  | yields {i : Fin n} {event : BatchEvent} {execution : Execution} (executes : p.executions i = some execution)
      (running : p.cancelling i = false) (lives : p.ended i = false) :
      p.Moves cfg (.yields i event) (p.yields cfg i execution event)
  | ends {i : Fin n} {ending : Ending} {execution : Execution} (executes : p.executions i = some execution)
      (running : p.cancelling i = false) (lives : p.ended i = false) :
      p.Moves cfg (.ends i ending) (p.ends cfg i execution ending)
  | cancel {requestId : String} : p.Moves cfg (.cancel requestId) (p.cancel requestId)
  | stop (serving : p.phase = .serving) : p.Moves cfg .stop p.stop
  | throws {i : Fin n} {wakes : Option (Fin n)} {execution : Execution} (executes : p.executions i = some execution)
      (cancelling : p.cancelling i = true) : p.Moves cfg (.interrupt i wakes)
        { p.setExecution i none with ended := Function.update p.ended i true }
  | swallows {i : Fin n} {wakes : Option (Fin n)} (swallows : M.swallows p.scheduler i = true) : p.Moves cfg
      (.interrupt i wakes) { p with cancelling := Function.update p.cancelling i false, resisted := true }
  | interrupts {i : Fin n} {wakes : Option (Fin n)} {t : M.State} (idle : p.executions i = none)
      (cancelling : p.cancelling i = true) (moved : M.interrupt p.scheduler i wakes = some t) :
      p.Moves cfg (.interrupt i wakes) { p with scheduler := t, ended := Function.update p.ended i true }
  | returns (stopping : p.phase ≠ .serving) : p.Moves cfg .returns { p with phase := .stopped }

theorem schedule_moves {action : M.Action} (taken : p.schedule cfg action = some q) : p.Moves cfg (.schedule action) q := by
  unfold schedule at taken
  split at taken
  · next allowed =>
    obtain ⟨t, moved, rfl⟩ := Option.map_eq_some_iff.mp taken
    exact .schedule allowed.1 allowed.2 moved
  · cases taken

theorem interrupt_moves {i : Fin n} {wakes : Option (Fin n)} (cancelling : p.cancelling i = true)
    (taken : p.interrupt i wakes = some q) : p.Moves cfg (.interrupt i wakes) q := by
  unfold interrupt at taken
  split at taken
  · next execution executes =>
    cases taken
    exact .throws executes cancelling
  · next idle =>
    split at taken
    · next swallows =>
      cases taken
      exact .swallows swallows
    · obtain ⟨t, moved, rfl⟩ := Option.map_eq_some_iff.mp taken
      exact .interrupts idle cancelling moved

theorem step_moves {action : PoolAction M} (taken : p.step cfg action = some q) : p.Moves cfg action q := by
  cases action with
  | schedule action => exact schedule_moves taken
  | yields i event =>
    simp only [step] at taken
    split at taken
    · next allowed =>
      obtain ⟨execution, executes, rfl⟩ := Option.map_eq_some_iff.mp taken
      exact .yields executes allowed.2.1 allowed.2.2
    · cases taken
  | ends i ending =>
    simp only [step] at taken
    split at taken
    · next allowed =>
      obtain ⟨execution, executes, rfl⟩ := Option.map_eq_some_iff.mp taken
      exact .ends executes allowed.2.1 allowed.2.2
    · cases taken
  | cancel requestId =>
    simp only [step] at taken
    split at taken
    · cases taken
      exact .cancel
    · cases taken
  | stop =>
    simp only [step] at taken
    split at taken
    · next allowed =>
      cases taken
      exact .stop allowed.2
    · cases taken
  | interrupt i wakes =>
    simp only [step] at taken
    split at taken
    · next allowed => exact interrupt_moves allowed.2.1 taken
    · cases taken
  | returns =>
    simp only [step] at taken
    split at taken
    · next allowed =>
      cases taken
      refine .returns ?_
      rw [allowed.2.1]
      decide
    · cases taken

theorem Enables.idle {action : M.Action} {i : Fin n} (enables : p.Enables cfg action)
    (consumer : M.consumer? p.scheduler action = some i) : p.executions i = none :=
  Option.isNone_iff_eq_none.mp (enables.2 i consumer).2.2

theorem schedule_sound {action : M.Action} {t : M.State} (lawful : M.Lawful) (sound : p.Sound)
    (admits : p.Admits action) (enables : p.Enables cfg action) (moved : M.step p.scheduler action = some t) :
    (p.advance cfg action t).Sound := by
  cases lawful.flow p.scheduler action t moved with
  | waits item submits places =>
    have returned : (M.places t).returned = p.places.returned := by
      rw [places]
      rfl
    rw [advance_quiet returned]
    exact waits_sound sound submits admits places
  | appends item submits places =>
    have returned : (M.places t).returned = p.places.returned := by
      rw [places]
      rfl
    rw [advance_quiet returned]
    exact appends_sound sound submits admits places
  | granted id submits consumer waiting places =>
    have returned : (M.places t).returned = p.places.returned := by
      rw [places]
      rfl
    rw [advance_quiet returned]
    exact granted_sound sound submits waiting places
  | turn i submits consumer turn own => exact turn_sound sound (enables.idle consumer) submits consumer turn
  | aside i submits consumer turn returned detached =>
    exact turn_sound sound (enables.idle consumer) submits consumer turn

section Executing

variable {i : Fin n} {execution : Execution} (sound : p.Sound) (executes : p.executions i = some execution)

include sound executes

theorem hands_executing : p.hands i = execution.state.pending := by
  rw [hands, (sound.executing i execution executes).1, executes]
  rfl

theorem load_ready : (p.load execution).Ready where
  nodup := by
    have mine : ((p.hands i : List String) : Multiset String).Nodup :=
      Multiset.nodup_of_le (custody_eq p i ▸ Multiset.le_add_left _ _) sound.nodup
    rw [hands_executing sound executes] at mine
    exact mine
  unanswered id inside := by
    obtain ⟨item, present⟩ := Option.isSome_iff_exists.mp ((sound.executing i execution executes).2 id inside)
    refine ⟨{ item with handle := p.handles id }, ?_, ?_⟩
    · change (execution.state.items id).map _ = _
      rw [present]
      rfl
    · exact sound.unanswered id (mem_custody_of_hands (hands_executing sound executes ▸ inside))

theorem store_shift {st : BatchState} (after : Option Execution) (ended : Fin n → Bool)
    (others : ∀ id, id ∉ execution.state.pending → st.items id = (p.load execution).items id)
    (remains : (Execution.pending after).Sublist execution.state.pending)
    (closes : ∀ id ∈ execution.state.pending, id ∉ Execution.pending after →
      ∃ item, st.items id = some item ∧ item.handle.closed = true)
    (unanswered : ∀ id ∈ Execution.pending after, ∃ item, st.items id = some item ∧ item.handle.Unanswered)
    (present : ∀ later, after = some later → ∀ id ∈ later.state.pending, (later.state.items id).isSome = true) :
    p.Shift i [] (Execution.pending after) { (p.store st).setExecution i after with ended } := by
  have inHand := hands_executing sound executes
  have empty := (sound.executing i execution executes).1
  have stored {id : String} {item : ScheduledRequest} (found : st.items id = some item) :
      ((st.items id).map (·.handle)).getD (p.handles id) = item.handle := by
    rw [found]
    rfl
  exact {
    waiting := rfl
    queue := .refl _
    hands := by
      refine hands_update (fun _ _ => rfl) (fun j differ => Function.update_of_ne differ _ _) ?_
      change p.places.held i ++ Execution.pending (Function.update p.executions i after i) = _
      rw [empty, Function.update_self, List.nil_append]
    within := by
      rw [inHand, List.append_nil]
      exact remains.subperm
    handles := by
      intro id outside
      rw [inHand] at outside
      change ((st.items id).map (·.handle)).getD (p.handles id) = p.handles id
      rw [others id outside]
      change (((execution.state.items id).map fun item => { item with handle := p.handles id }).map (·.handle)).getD
        (p.handles id) = p.handles id
      cases execution.state.items id <;> rfl
    unanswered := by
      intro id inside
      obtain ⟨item, found, unset⟩ := unanswered id inside
      change (((st.items id).map (·.handle)).getD (p.handles id)).Unanswered
      rw [stored found]
      exact unset
    gone := by
      intro id moved dropped
      rw [inHand, List.append_nil] at moved
      obtain ⟨item, found, closed⟩ := closes id moved dropped
      refine .inl ?_
      change (((st.items id).map (·.handle)).getD (p.handles id)).closed = true
      rw [stored found]
      exact closed
    known := rfl
    phase := rfl
    cancelling := fun _ cancels => cancels
    kept := fun _ caught => caught
    caught := fun _ caught => .inl caught
    catches := by
      intro _ id fresh
      cases fresh
    executing := by
      intro j later runs
      have here : Function.update p.executions i after j = some later := runs
      by_cases same : j = i
      · subst same
        rw [Function.update_self] at here
        exact ⟨empty, present later here⟩
      · rw [Function.update_of_ne same] at here
        exact sound.executing j later here }

theorem yields_sound (event : BatchEvent) : (p.yields cfg i execution event).Sound := by
  obtain ⟨next, handled, progress⟩ := BatchState.handleEvent_progress cfg.clock (load_ready sound executes)
    execution.batchStart event
  unfold yields
  rw [handled]
  refine (store_shift sound executes (some { execution with state := next }) p.ended
    progress.others progress.pending progress.closed progress.unanswered ?_).sound sound
  intro later same id inside
  cases same
  obtain ⟨item, found, -⟩ := progress.unanswered id inside
  exact Option.isSome_iff_exists.mpr ⟨item, found⟩

theorem sweep_shift (cfg : WorkerConfig) {finish : Services → ScheduledRequest → List String → ItemResult}
    (spec : ∀ s item tokens, item.handle.Unanswered → item.cancelled = false →
      (finish s item tokens).raised = none ∧ (finish s item tokens).item.handle.closed = true) :
    ∃ st, (p.load execution).sweep finish (cfg.iter execution.state.pending) = (st, none) ∧
      ∀ ended, p.Shift i [] [] { (p.store st).setExecution i none with ended } := by
  have ready := load_ready sound executes
  have order := cfg.anyOrder execution.state.pending
  obtain ⟨st, swept, others, ends⟩ := BatchState.sweep_closes (p.load execution) spec (order.nodup_iff.mpr ready.nodup)
    fun id member => ready.unanswered id (order.subset member)
  refine ⟨st, swept, fun ended => ?_⟩
  refine store_shift sound executes none ended ?_ (List.nil_sublist _) ?_ ?_ ?_
  · exact fun id outside => others id fun member => outside (order.subset member)
  · exact fun id inside _ => ends id (order.symm.subset inside)
  · intro id inside
    cases inside
  · intro later same
    cases same

theorem ends_sound (ending : Ending) : (p.ends cfg i execution ending).Sound := by
  cases ending with
  | normal =>
    obtain ⟨st, swept, shift⟩ := sweep_shift sound executes cfg
      fun s item tokens => completeItem_closes cfg.clock (s := s) tokens execution.batchStart
    have done : (p.load execution).sweep (fun s item tokens => completeItem cfg.clock s item tokens execution.batchStart)
        (cfg.iter (p.load execution).pending) = (st, none) := swept
    unfold ends
    dsimp only
    rw [done]
    exact (shift p.ended).sound sound
  | raised exc =>
    obtain ⟨st, swept, shift⟩ := sweep_shift sound executes cfg
      fun s item _ => failItem_closes cfg.clock (s := s) exc
    have done : (p.load execution).sweep (fun s item _ => failItem cfg.clock s item exc)
        (cfg.iter (p.load execution).pending) = (st, none) := swept
    unfold ends
    dsimp only
    unfold fail
    rw [done]
    exact (shift _).sound sound

end Executing

/-- A worker ends with an exception; what it had in hand is nowhere else, and `stop` has seen to it. -/
theorem abandon_sound {i : Fin n} {t : M.State} (ended : Fin n → Bool) (sound : p.Sound) (stopping : p.phase ≠ .serving)
    (waiting : (M.places t).waiting = p.places.waiting) (queue : (M.places t).queue = p.places.queue)
    (others : ∀ j, j ≠ i → (M.places t).held j = p.places.held j) (empty : (M.places t).held i = []) :
    ({ p.setExecution i none with scheduler := t, ended } : Pool M).Sound := by
  have shift : p.Shift i [] [] { p.setExecution i none with scheduler := t, ended } := {
    waiting := waiting
    queue := List.Perm.of_eq queue.symm
    hands := by
      refine hands_update others (fun j differ => Function.update_of_ne differ _ _) ?_
      change (M.places t).held i ++ Execution.pending (Function.update p.executions i none i) = []
      rw [empty, Function.update_self]
      rfl
    within := List.nil_subperm
    handles := fun _ _ => rfl
    unanswered := by
      intro id inside
      cases inside
    gone := by
      intro id moved _
      rw [List.append_nil] at moved
      exact .inr (sound.grasped stopping i id moved)
    known := rfl
    phase := rfl
    cancelling := fun _ cancels => cancels
    kept := fun _ caught => caught
    caught := fun _ caught => .inl caught
    catches := by
      intro _ id fresh
      cases fresh
    executing := by
      intro j execution executes
      have here : Function.update p.executions i none j = some execution := executes
      by_cases same : j = i
      · subst same
        rw [Function.update_self] at here
        cases here
      · rw [Function.update_of_ne same] at here
        obtain ⟨nothing, present⟩ := sound.executing j execution here
        exact ⟨(others j same).trans nothing, present⟩ }
  exact shift.sound sound

theorem interrupts_sound {i : Fin n} {wakes : Option (Fin n)} {t : M.State} {ended : Fin n → Bool} (lawful : M.Lawful)
    (sound : p.Sound) (idle : p.executions i = none) (cancelling : p.cancelling i = true)
    (moved : M.interrupt p.scheduler i wakes = some t) : ({ p with scheduler := t, ended } : Pool M).Sound := by
  have places := lawful.interrupt p.scheduler i wakes t moved
  have stays : Function.update p.executions i none = p.executions := Function.update_eq_self_iff.mpr idle.symm
  have held : (M.places t).held = Function.update p.places.held i [] := by
    rw [places]
    rfl
  have ends := abandon_sound ended sound (sound.cancelling i cancelling) (i := i) (t := t)
    (by rw [places]; rfl) (by rw [places]; rfl) (fun j differ => by rw [held, Function.update_of_ne differ])
    (by rw [held, Function.update_self])
  rw [setExecution, stays] at ends
  exact ends

theorem swallows_sound (sound : p.Sound) (i : Fin n) :
    ({ p with cancelling := Function.update p.cancelling i false, resisted := true } : Pool M).Sound := by
  refine { sound with cancelling := fun j cancels => ?_ }
  have here : Function.update p.cancelling i false j = true := cancels
  by_cases same : j = i
  · subst same
    rw [Function.update_self] at here
    cases here
  · rw [Function.update_of_ne same] at here
    exact sound.cancelling j here

theorem cancel_sound (sound : p.Sound) (requestId : String) : (p.cancel requestId).Sound := by
  have handles (id : String) : (p.cancel requestId).handles id = p.handles id ∨
      (p.cancel requestId).handles id = (p.handles id).cancel := by
    by_cases same : id = requestId
    · subst same
      exact .inr (Function.update_self _ _ _)
    · exact .inl (Function.update_of_ne same _ _)
  refine { sound with unanswered := fun id inside => ?_, covered := fun id known => ?_ }
  · have before := sound.unanswered id inside
    rcases handles id with same | cancelled
    · rw [same]
      exact before
    · rw [cancelled]
      exact before.cancel
  · refine (sound.covered id known).imp_left fun closed => ?_
    rcases handles id with same | cancelled
    · rw [same]
      exact closed
    · rw [cancelled]
      exact closed_cancel closed

theorem mem_stop_caught {id : String} : id ∈ p.stop.caught ↔ ∃ i, id ∈ p.hands i := by
  simp [stop]

theorem stop_sound (sound : p.Sound) (serving : p.phase = .serving) : p.stop.Sound where
  nodup := sound.nodup
  known := sound.known
  unanswered := sound.unanswered
  covered id known := by
    refine (sound.covered id known).imp_right fun placed => .inl (placed.resolve_right fun caught => ?_)
    exact sound.stopping id caught serving
  executing := sound.executing
  outside id caught := by
    obtain ⟨i, inHand⟩ := mem_stop_caught.mp caught
    have inside := custody_eq p i ▸ sound.nodup
    have apart (elsewhere : id ∈ p.rest i) : id ∉ p.hands i :=
      Multiset.disjoint_left.mp (Multiset.nodup_add.mp inside).2.2 elsewhere
    exact ⟨sound.known id (mem_custody_of_hands inHand), fun waits => apart (mem_rest_of_waiting i waits) inHand,
      fun queued => apart (mem_rest_of_queue i queued) inHand⟩
  stopping _ _ := nofun
  grasped _ i _ inHand := mem_stop_caught.mpr ⟨i, inHand⟩
  cancelling _ _ := nofun

theorem step_sound {action : PoolAction M} (lawful : M.Lawful) (sound : p.Sound) (taken : p.step cfg action = some q) :
    q.Sound := by
  cases step_moves taken with
  | schedule admits enables moved => exact schedule_sound lawful sound admits enables moved
  | yields executes => exact yields_sound sound executes _
  | ends executes => exact ends_sound sound executes _
  | cancel => exact cancel_sound sound _
  | stop serving => exact stop_sound sound serving
  | throws executes cancelling =>
    exact abandon_sound _ sound (sound.cancelling _ cancelling) rfl rfl (fun _ _ => rfl) (sound.executing _ _ executes).1
  | swallows => exact swallows_sound sound _
  | interrupts idle cancelling moved => exact interrupts_sound lawful sound idle cancelling moved
  | returns stopping =>
    exact {
      sound with
      stopping := fun _ _ => nofun
      grasped := fun _ => sound.grasped stopping
      cancelling := fun _ _ => nofun }

theorem init_sound (lawful : M.Lawful) : ({} : Pool M).Sound := by
  have nobody (id : String) : id ∉ ({} : Pool M).custody := by
    have places : ({} : Pool M).places = ⟨[], [], fun _ => [], []⟩ := lawful.init
    rw [mem_custody, places]
    rintro (waits | queued | ⟨i, inHand⟩)
    · cases waits
    · cases queued
    · rw [hands, places] at inHand
      cases inHand
  exact {
    nodup := by
      rw [Multiset.eq_zero_of_forall_notMem nobody]
      exact Multiset.nodup_zero
    known := fun id inside => absurd inside (nobody id)
    unanswered := fun id inside => absurd inside (nobody id)
    covered := by
      intro id inside
      cases inside
    executing := by
      intro i execution running
      cases running
    outside := by
      intro id inside
      cases inside
    stopping := by
      intro id inside
      cases inside
    grasped := fun stopping => absurd rfl stopping
    cancelling := by
      intro i cancelling
      cases cancelling }

end Steps

end Pool

end LLMRuntime
