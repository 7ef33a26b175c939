import LLMRuntime.Foundation.Deal
import LLMRuntime.Scheduler.FifoWakeup

namespace LLMRuntime

open Transition

/-- How a call of a consumer ends: it returns requests, or it is cancelled with those it had taken. -/
inductive CallEnd where
  | returned (ids : List String)
  | lost (ids : List String)
  deriving DecidableEq, Repr

def CallEnd.requestIds : CallEnd → List String
  | .returned ids => ids
  | .lost ids => ids

def FifoMove.submitted {n : Nat} : FifoMove n → List String
  | .act action => (action.submits?.map ScheduledRequest.requestId).toList
  | .interrupt _ _ => []

namespace Places

variable {n : Nat} {p q : Places n} {i : Fin n}

/-- A turn that takes at most the head of the queue deals it to the consumer whose turn it is. -/
theorem Turn.dealt (turn : p.Turn i q) {front : List String} (queued : p.queue = front ++ q.queue)
    (short : front.length ≤ 1) :
    ∃ log, Deal.Dealt log p.queue p.held [] (p.outcome q i) q.queue q.held := by
  refine ⟨front.map fun id => (i, id), ?_, fun j => ?_⟩
  · rw [List.append_nil, queued, List.map_map]
    simp [Function.comp_def]
  · rw [← turn.hands (List.Perm.of_eq queued) short j]
    by_cases mine : j = i
    · rw [mine, Deal.hand_to_self, if_pos rfl]
    · rw [Deal.hand_to_other i mine, if_neg mine]

end Places

namespace FifoState

variable {n : Nat} (version : PythonVersion) (clock : Clock)

/-- The call of consumer `i` that a move ends. -/
def ends (i : Fin n) (st : FifoState n) : FifoMove n → Option CallEnd
  | .act action =>
    (st.step version clock action).bind fun t =>
      if consumer? action = some i then
        t.returned[st.returned.length]?.map fun dispatched => .returned (requestIds dispatched.items)
      else none
  | .interrupt j _ => if j = i then some (.lost (requestIds (st.consumers i).held)) else none

variable {version clock} {st t : FifoState n} {i : Fin n}

/-- No step but `submit` does more to the queue than to take its head. -/
def TakesHead (st t : FifoState n) : Prop := t.queue = st.queue ∨ ∃ item, st.queue = item :: t.queue

theorem TakesHead.front (takes : st.TakesHead t) :
    ∃ front, st.places.queue = front ++ t.places.queue ∧ front.length ≤ 1 := by
  rcases takes with same | ⟨item, queued⟩
  · exact ⟨[], congrArg requestIds same.symm, Nat.zero_le _⟩
  · exact ⟨[item.requestId], congrArg requestIds queued, le_refl _⟩

theorem takeFirst_takesHead (call : Call) : st.TakesHead (st.takeFirst clock i call) := by
  unfold takeFirst
  split
  · exact .inl rfl
  · next item queue queued =>
    right
    refine ⟨item, ?_⟩
    rw [queued]
    cases call <;> rfl

theorem takeMore_takesHead (version : PythonVersion) {batch : PartialBatch}
    (room : (batch.items.length : Int) < batch.maxBatchSize) : st.TakesHead (st.takeMore version i batch room) := by
  unfold takeMore
  split
  · exact .inl rfl
  · next item queue queued =>
    right
    refine ⟨item, ?_⟩
    rw [queued]
    cases version <;> rfl

theorem call_takesHead {call : Call} (taken : st.call clock i call = some t) : st.TakesHead t := by
  unfold FifoState.call at taken
  split at taken
  · cases taken
    exact takeFirst_takesHead call
  · cases taken

theorem wake_takesHead {wakes : Option (Fin n)} (taken : st.wake version clock i wakes = some t) : st.TakesHead t := by
  unfold wake at taken
  split at taken
  · cases taken
    exact takeFirst_takesHead _
  · next batch room here =>
    cases taken
    exact takeMore_takesHead version room
  · exact .inl (abandon_queue taken)
  · cases taken

theorem startGet_takesHead (taken : st.startGet version i = some t) : st.TakesHead t := by
  unfold startGet at taken
  split at taken
  · next batch room here =>
    cases taken
    exact takeMore_takesHead version room
  · cases taken

theorem collect_takesHead (taken : st.collect version clock i = some t) : st.TakesHead t := by
  unfold collect at taken
  split at taken
  · next batch here =>
    split at taken
    · next room =>
      split at taken
      · split at taken
        · cases taken
          exact .inl rfl
        · next item queue queued =>
          cases taken
          exact .inr ⟨item, queued⟩
      · dsimp only at taken
        split at taken
        · cases taken
          exact .inl rfl
        · cases taken
          unfold waitForMore
          cases version with
          | py311 => exact .inl rfl
          | py312 =>
            have waits : ({ st with ticks := st.ticks + 1, running := none } : FifoState n).TakesHead _ :=
              takeMore_takesHead (i := i) .py312 room
            exact waits
    · cases taken
      exact .inl rfl
  · cases taken

theorem step_takesHead {action : FifoAction n} (quiet : action.submits? = none)
    (taken : st.step version clock action = some t) : st.TakesHead t := by
  rcases step_cases taken with ⟨-, moved⟩ | ⟨i, -, rfl, moved⟩
  · cases action with
    | submit item wakes => cases quiet
    | call i call => exact call_takesHead moved
    | wake i wakes => exact wake_takesHead moved
    | expire i => exact .inl (expire_queue moved)
    | startGet i => exact startGet_takesHead moved
    | resume i => exact .inl (resume_queue moved)
    | collect i => cases moved
  · exact collect_takesHead moved

/-- What a move deals. -/
def Deals (version : PythonVersion) (clock : Clock) (st : FifoState n) (move : FifoMove n) (t : FifoState n) : Prop :=
  ∃ log, Deal.Dealt log st.places.queue st.places.held move.submitted
    (fun i => (ends version clock i st move).toList.flatMap CallEnd.requestIds) t.places.queue t.places.held

theorem turn_deals {action : FifoAction n} (taken : st.step version clock action = some t)
    (quiet : action.submits? = none) (consumer : consumer? action = some i) (turn : st.places.Turn i t.places) :
    Deals version clock st (.act action) t := by
  obtain ⟨front, queued, short⟩ := (step_takesHead quiet taken).front
  obtain ⟨log, dealt⟩ := turn.dealt queued short
  have nothing : (FifoMove.act action).submitted = [] := by rw [FifoMove.submitted, quiet]; rfl
  refine ⟨log, nothing ▸ dealt.queue, fun j => ?_⟩
  rw [dealt.hands]
  refine congrArg (· ++ t.places.held j) ?_
  simp only [ends, taken, consumer, Option.bind_some, Option.some_inj, Places.outcome]
  change (if i = j then (t.returned[st.returned.length]?).toList.flatMap _ else []) = _
  split
  · cases t.returned[st.returned.length]? <;> rfl
  · rfl

theorem step_deals {action : FifoAction n} (taken : st.step version clock action = some t) :
    Deals version clock st (.act action) t := by
  have flow : (fifoModel version clock n).Flow st action t := step_flow taken
  cases flow with
  | waits item submits places =>
    have waiting : t.places.waiting = [] ++ [item.requestId] := congrArg Places.waiting places
    cases waiting
  | granted id submits consumer waiting places => cases waiting
  | turn i submits consumer turn own => exact turn_deals taken submits consumer turn
  | aside i submits consumer turn returned detached => exact turn_deals taken submits consumer turn
  | appends item submits places =>
    have submitted : action.submits? = some item := submits
    have reached : t.places = st.places.put item.requestId := places
    have nobody : consumer? action = none := by
      cases action with
      | submit item wakes => rfl
      | call i call => cases submitted
      | wake i wakes => cases submitted
      | expire i => cases submitted
      | startGet i => cases submitted
      | resume i => cases submitted
      | collect i => cases submitted
    refine ⟨[], ?_, fun j => ?_⟩
    · rw [reached, FifoMove.submitted, submitted]
      rfl
    · rw [reached]
      simp [ends, taken, nobody, Places.put]

theorem interrupt_deals {wakes : Option (Fin n)} (taken : st.interrupt i wakes = some t) :
    Deals version clock st (.interrupt i wakes) t := by
  have dropped := interrupt_places taken
  refine ⟨[], ?_, fun j => ?_⟩
  · rw [dropped]
    exact List.append_nil _
  · rw [dropped, Deal.hand_nil, List.append_nil]
    by_cases own : j = i
    · subst own
      simp [ends, places, Places.drop, CallEnd.requestIds]
    · simp [ends, places, Places.drop, own, Ne.symm own]

theorem move_deals {move : FifoMove n} (taken : st.move version clock move = some t) :
    Deals version clock st move t := by
  cases move with
  | act action => exact step_deals taken
  | interrupt i wakes =>
    unfold FifoState.move at taken
    dsimp only at taken
    split at taken
    · exact interrupt_deals taken
    · cases taken

end FifoState

/-- Requests are dealt to the consumers in the order of submission, each to one of them, and every consumer returns
    or loses those it was dealt in that order. With one consumer nothing is overtaken. -/
theorem FifoState.deals_in_submission_order (version : PythonVersion) (clock : Clock) {n : Nat}
    {moves : List (FifoMove n)} {st : FifoState n} (run : exec (FifoState.move version clock) {} moves = some st) :
    let submitted := moves.flatMap FifoMove.submitted
    let ended (i : Fin n) := (observe (FifoState.move version clock) (FifoState.ends version clock i) {} moves).flatMap
      CallEnd.requestIds
    (∃ log : List (Fin n × String), submitted = log.map Prod.snd ++ requestIds st.queue ∧
      ∀ i, Deal.hand log i = ended i ++ requestIds (st.consumers i).held) ∧
    (∀ i, (ended i).Sublist submitted) ∧
    (n = 1 → ∀ i, submitted = ended i ++ requestIds (st.consumers i).held ++ requestIds st.queue) := by
  intro submitted ended
  have one (s : FifoState n) (move : FifoMove n) (t : FifoState n) (taken : s.move version clock move = some t) :=
    FifoState.move_deals taken
  obtain ⟨log, queue, hands⟩ := Deal.exec_dealt (fun s : FifoState n => s.places.queue) (fun s => s.places.held)
    FifoMove.submitted (FifoState.ends version clock) CallEnd.requestIds one run
  have dealt (i : Fin n) : Deal.hand log i = ended i ++ requestIds (st.consumers i).held := hands i
  have order : submitted = log.map Prod.snd ++ requestIds st.queue := queue
  refine ⟨⟨log, order, dealt⟩, fun i => ?_, fun single i => ?_⟩
  · have earlier : (ended i).Sublist (Deal.hand log i) := by
      rw [dealt i]
      exact List.sublist_append_left _ _
    rw [order]
    exact (earlier.trans (Deal.hand_sublist log i)).trans (List.sublist_append_left _ _)
  · subst single
    rw [order, ← Deal.hand_of_single log i fun j => Subsingleton.elim j i, dealt i]

/-- The second consumer is cancelled with the two requests that it holds. -/
theorem FifoState.deals_in_submission_order_two :
    let clock : Clock := ⟨fun tick => tick, monotone_tick⟩
    let item (id : String) := ScheduledRequest.ofBody { messages := [] } id 0
    let moves : List (FifoMove 2) := [.act (.submit (item "a") none), .act (.submit (item "b") none),
      .act (.submit (item "c") none), .act (.call 0 .request), .act (.call 1 (.batch 3 9000)), .act (.collect 1),
      .act (.collect 1), .interrupt 1 none]
    let ended (i : Fin 2) := observe (FifoState.move .py312 clock) (FifoState.ends .py312 clock i) {} moves
    ended 0 = [.returned ["a"]] ∧ ended 1 = [.lost ["b", "c"]] ∧
      ∀ i, ((ended i).flatMap CallEnd.requestIds).Sublist (moves.flatMap FifoMove.submitted) := by
  intro clock item moves ended
  have done : (exec (FifoState.move .py312 clock) {} moves).isSome = true := by decide +kernel
  obtain ⟨st, run⟩ := Option.isSome_iff_exists.mp done
  have both : ended 0 = [.returned ["a"]] ∧ ended 1 = [.lost ["b", "c"]] := by decide +kernel
  exact ⟨both.1, both.2, (deals_in_submission_order .py312 clock run).2.1⟩

end LLMRuntime
