import LLMRuntime.Scheduler.Conservation
import LLMRuntime.Scheduler.FifoModel

namespace LLMRuntime

open Transition

def FifoAction.calls {n : Nat} : FifoAction n → Prop
  | .call _ _ => True
  | _ => False

def SchedulerAction.calls {n : Nat} : SchedulerAction n → Prop
  | .call _ _ => True
  | _ => False

namespace FifoState

variable {n : Nat} {version : PythonVersion} {clock : Clock} {st t : FifoState n} {i : Fin n}
  {maxBatchSize : Int} {need : Nat} {returned : List Dispatched}

/-- A call with a partial batch has, or can take without waiting, as many items as it needs. -/
def Reaches (maxBatchSize : Int) (need queued : Nat) : FifoPoint → Prop
  | .collecting b => b.maxBatchSize = maxBatchSize ∧ need ≤ b.items.length + queued
  | .more b _ .spawned => b.maxBatchSize = maxBatchSize ∧ need ≤ b.items.length + queued
  | .more b _ (.handedBack (some _)) => b.maxBatchSize = maxBatchSize ∧ need ≤ b.items.length + 1 + queued
  | .more b _ _ => b.maxBatchSize = maxBatchSize ∧ need ≤ b.items.length
  | _ => False

/-- Consumer `i` is in a `next_batch` call, and nobody else is active. -/
structure Gathers (i : Fin n) (maxBatchSize : Int) (need : Nat) (returned : List Dispatched) (st : FifoState n) :
    Prop where
  alone : ∀ j, j ≠ i → st.consumers j = .idle
  reaches : Reaches maxBatchSize need st.queue.length (st.consumers i)
  returned : st.returned = returned

structure Returned (returned : List Dispatched) (dispatched : Dispatched) (st : FifoState n) : Prop where
  idle : ∀ j, st.consumers j = .idle
  running : st.running = none
  returned : st.returned = returned ++ [dispatched]

/-- A deadline is not checked too late: as long as the batch is smaller than it could be, time is left. -/
def InTime (clock : Clock) (need : Nat) (st : FifoState n) : FifoAction n → Prop
  | .collect i => ∀ b, st.consumers i = .collecting b → b.items.length < need →
      b.batchTimeoutMs = 0 ∨ clock.reading st.ticks < b.deadline
  | _ => True

theorem setPoint_self (st : FifoState n) (i : Fin n) (point : FifoPoint) :
    (st.setPoint i point).consumers i = point := by
  simp [setPoint]

theorem alone_setPoint {point : FifoPoint} (alone : ∀ j, j ≠ i → st.consumers j = .idle) :
    ∀ j, j ≠ i → (st.setPoint i point).consumers j = .idle := by
  intro j other
  exact (Function.update_of_ne other point st.consumers).trans (alone j other)

theorem finish_returned (st : FifoState n) (clock : Clock) (b : PartialBatch)
    (alone : ∀ j, j ≠ i → st.consumers j = .idle) (history : st.returned = returned) :
    ∃ dispatched, (st.finish clock i b).Returned returned dispatched ∧ dispatched.items.length = b.items.length := by
  refine ⟨.batch b.maxBatchSize ⟨markStartedAll clock st.ticks b.items, clock.reading (st.ticks + b.items.length)⟩,
    ⟨?_, rfl, ?_⟩, ?_⟩
  · intro j
    by_cases own : j = i
    · rw [own]
      exact Function.update_self i _ _
    · exact alone_setPoint alone j own
  · rw [← history]
    rfl
  · exact PriorityState.length_markStartedAll _ _ _

theorem wakeupNext_eq {wakes : Option (Fin n)} (settled : ∀ j, (st.consumers j).unnotified = false)
    (taken : st.wakeupNext wakes = some t) : t = st := by
  unfold wakeupNext at taken
  split at taken
  · next can =>
    cases wakes with
    | none =>
      cases taken
      rfl
    | some j =>
      have parked : (st.consumers j).unnotified = true := can
      rw [settled j] at parked
      cases parked
  · cases taken

theorem Reaches.notify {queued : Nat} {point : FifoPoint} (reaches : Reaches maxBatchSize need queued point) :
    Reaches maxBatchSize need queued point.notify := by
  cases point with
  | idle => exact reaches
  | first call notified => exact reaches
  | collecting b => exact reaches
  | more b room point => cases point <;> exact reaches

theorem Reaches.grow {queued more : Nat} {point : FifoPoint} (reaches : Reaches maxBatchSize need queued point)
    (order : queued ≤ more) : Reaches maxBatchSize need more point := by
  unfold Reaches at reaches ⊢
  split <;> simp_all <;> omega

theorem Gathers.setPoint (gathers : st.Gathers i maxBatchSize need returned) {point : FifoPoint}
    (reaches : Reaches maxBatchSize need st.queue.length point) :
    (st.setPoint i point).Gathers i maxBatchSize need returned where
  alone := alone_setPoint gathers.alone
  reaches := by
    rw [setPoint_self]
    exact reaches
  returned := gathers.returned

theorem Gathers.submit (gathers : st.Gathers i maxBatchSize need returned) {item : ScheduledRequest}
    {wakes : Option (Fin n)} (taken : st.submit clock item wakes = some t) :
    t.Gathers i maxBatchSize need returned := by
  have grown : Reaches maxBatchSize need (st.queue.length + 1) (st.consumers i) :=
    gathers.reaches.grow (Nat.le_succ _)
  have appended : Gathers i maxBatchSize need returned { st with
      ticks := st.ticks + 1
      queue := st.queue ++ [{ item with request := item.request.markEnqueued (clock.reading st.ticks) }] } := by
    refine ⟨gathers.alone, ?_, gathers.returned⟩
    rw [List.length_append, List.length_singleton]
    exact grown
  unfold FifoState.submit wakeupNext at taken
  dsimp only at taken
  split at taken
  · next can =>
    cases wakes with
    | none =>
      cases taken
      exact appended
    | some j =>
      cases taken
      by_cases own : j = i
      · rw [own]
        exact appended.setPoint appended.reaches.notify
      · have parked : (st.consumers j).unnotified = true := can
        rw [gathers.alone j own] at parked
        cases parked
  · cases taken

section More

variable {b : PartialBatch} {room : (b.items.length : Int) < b.maxBatchSize}

theorem extend_gathers {item : ScheduledRequest} (alone : ∀ j, j ≠ i → st.consumers j = .idle)
    (history : st.returned = returned) (limit : b.maxBatchSize = maxBatchSize)
    (enough : need ≤ b.items.length + 1 + st.queue.length) :
    (st.extend i b room item).Gathers i maxBatchSize need returned := by
  refine ⟨alone_setPoint alone, ?_, history⟩
  rw [extend, setPoint_self]
  refine ⟨limit, ?_⟩
  rw [PartialBatch.push, List.length_append, List.length_singleton]
  exact enough

theorem takeMore_gathers (st : FifoState n) (version : PythonVersion) (alone : ∀ j, j ≠ i → st.consumers j = .idle) (history : st.returned = returned)
    (limit : b.maxBatchSize = maxBatchSize) (enough : need ≤ b.items.length + st.queue.length) :
    (st.takeMore version i b room).Gathers i maxBatchSize need returned := by
  unfold takeMore
  split
  · next empty =>
    rw [empty] at enough
    refine ⟨alone_setPoint alone, ?_, history⟩
    rw [setPoint_self]
    exact ⟨limit, enough⟩
  · next item queue queued =>
    have enough : need ≤ b.items.length + 1 + queue.length := by
      rw [queued, List.length_cons] at enough
      omega
    cases version with
    | py311 =>
      refine ⟨alone_setPoint alone, ?_, history⟩
      rw [setPoint_self]
      exact ⟨limit, enough⟩
    | py312 => exact extend_gathers alone history limit enough

theorem abandon_gathers {notifiedBefore : Bool} {wakes : Option (Fin n)}
    (alone : ∀ j, j ≠ i → st.consumers j = .idle) (history : st.returned = returned)
    (limit : b.maxBatchSize = maxBatchSize) (enough : need ≤ b.items.length)
    (taken : st.abandon version clock i b room notifiedBefore wakes = some t) :
    t.Gathers i maxBatchSize need returned ∨
      ∃ dispatched, t.Returned returned dispatched ∧ need ≤ dispatched.items.length := by
  have ended : ∀ u : FifoState n, (∀ j, (u.consumers j).unnotified = false) →
      (if notifiedBefore && !st.queue.isEmpty then u.wakeupNext wakes else some u) = some t → t = u := by
    intro u settled done
    split at done
    · exact wakeupNext_eq settled done
    · cases done
      rfl
  cases version with
  | py311 =>
    left
    have same := ended (st.setPoint i (.more b room (.handedBack none))) ?_ taken
    · rw [same]
      refine ⟨alone_setPoint alone, ?_, history⟩
      rw [setPoint_self]
      exact ⟨limit, enough⟩
    · intro j
      by_cases own : j = i
      · rw [own, setPoint_self]
        rfl
      · rw [alone_setPoint alone j own]
        rfl
  | py312 =>
    right
    obtain ⟨dispatched, isOver, length⟩ := finish_returned st clock b alone history
    have same := ended (st.finish clock i b) ?_ taken
    · rw [same]
      exact ⟨dispatched, isOver, by omega⟩
    · intro j
      rw [isOver.idle j]
      rfl

end More

theorem Gathers.collect (gathers : st.Gathers i maxBatchSize need returned) (bounded : (need : Int) ≤ maxBatchSize)
    (taken : st.collect version clock i = some t) :
    (t.Gathers i maxBatchSize need returned ∧ InTime clock need st (.collect i)) ∨
      ∃ dispatched, t.Returned returned dispatched ∧
        (need ≤ dispatched.items.length ↔ InTime clock need st (.collect i)) := by
  obtain ⟨alone, reaches, history⟩ := gathers
  unfold FifoState.collect at taken
  split at taken
  · next b collecting =>
    rw [collecting] at reaches
    obtain ⟨limit, enough⟩ := reaches
    have inTime : InTime clock need st (.collect i) ↔
        (b.items.length < need → b.batchTimeoutMs = 0 ∨ clock.reading st.ticks < b.deadline) := by
      constructor
      · intro timed
        exact timed b collecting
      · intro timed other same
        rw [collecting] at same
        cases same
        exact timed
    rw [inTime]
    split at taken
    · next room =>
      split at taken
      · next untimed =>
        split at taken
        · next empty =>
          cases taken
          right
          obtain ⟨dispatched, isOver, length⟩ := finish_returned st clock b alone history
          rw [empty, List.length_nil] at enough
          exact ⟨dispatched, isOver, iff_of_true (by omega) fun _ => .inl untimed⟩
        · next item queue queued =>
          cases taken
          left
          rw [queued, List.length_cons] at enough
          exact ⟨extend_gathers alone history limit (show need ≤ b.items.length + 1 + queue.length by omega),
            fun _ => .inl untimed⟩
      · next timed =>
        dsimp only at taken
        split at taken
        · next late =>
          cases taken
          right
          obtain ⟨dispatched, isOver, length⟩ :=
            finish_returned { st with ticks := st.ticks + 1 } clock b alone history
          refine ⟨dispatched, isOver, ?_⟩
          have passed : ¬ (b.batchTimeoutMs = 0 ∨ clock.reading st.ticks < b.deadline) := by
            rintro (untimed | left)
            · exact timed untimed
            · linarith
          constructor
          · intro filled short
            omega
          · intro timed
            by_contra short
            exact passed (timed (by omega))
        · next left =>
          cases taken
          left
          refine ⟨?_, fun _ => .inr (by linarith)⟩
          unfold waitForMore
          cases version with
          | py311 =>
            refine ⟨alone_setPoint alone, ?_, history⟩
            rw [setPoint_self]
            exact ⟨limit, enough⟩
          | py312 =>
            have waits : (FifoState.takeMore .py312 { st with ticks := st.ticks + 1, running := none } i b room).Gathers i
                maxBatchSize need returned := takeMore_gathers _ .py312 alone history limit enough
            exact waits
    · next full =>
      cases taken
      right
      obtain ⟨dispatched, isOver, length⟩ := finish_returned st clock b alone history
      refine ⟨dispatched, isOver, iff_of_true ?_ fun short => ?_⟩ <;> omega
  · cases taken

theorem Gathers.wake (gathers : st.Gathers i maxBatchSize need returned) {j : Fin n} {wakes : Option (Fin n)}
    (taken : st.wake version clock j wakes = some t) :
    t.Gathers i maxBatchSize need returned ∨
      ∃ dispatched, t.Returned returned dispatched ∧ need ≤ dispatched.items.length := by
  obtain ⟨alone, reaches, history⟩ := gathers
  by_cases own : j = i
  · subst own
    unfold FifoState.wake at taken
    split at taken
    · next call parked =>
      rw [parked] at reaches
      exact reaches.elim
    · next b room parked =>
      rw [parked] at reaches
      cases taken
      exact .inl (takeMore_gathers st version alone history reaches.1 (reaches.2.trans (Nat.le_add_right _ _)))
    · next b room notifiedBefore parked =>
      rw [parked] at reaches
      exact abandon_gathers alone history reaches.1 reaches.2 taken
    · cases taken
  · simp [FifoState.wake, alone j own] at taken

theorem Gathers.expire (gathers : st.Gathers i maxBatchSize need returned) {j : Fin n}
    (taken : st.expire j = some t) : t.Gathers i maxBatchSize need returned := by
  by_cases own : j = i
  · subst own
    have reaches := gathers.reaches
    unfold FifoState.expire at taken
    split at taken
    · next b room parked =>
      rw [parked] at reaches
      cases taken
      exact gathers.setPoint reaches
    · next b room parked =>
      rw [parked] at reaches
      cases taken
      exact gathers.setPoint reaches
    · cases taken
  · simp [FifoState.expire, gathers.alone j own] at taken

theorem Gathers.startGet (gathers : st.Gathers i maxBatchSize need returned) {j : Fin n}
    (taken : st.startGet version j = some t) : t.Gathers i maxBatchSize need returned := by
  obtain ⟨alone, reaches, history⟩ := gathers
  by_cases own : j = i
  · subst own
    unfold FifoState.startGet at taken
    split at taken
    · next b room spawned =>
      rw [spawned] at reaches
      cases taken
      exact takeMore_gathers st version alone history reaches.1 reaches.2
    · cases taken
  · simp [FifoState.startGet, alone j own] at taken

theorem Gathers.resume (gathers : st.Gathers i maxBatchSize need returned) {j : Fin n}
    (taken : st.resume clock j = some t) :
    t.Gathers i maxBatchSize need returned ∨
      ∃ dispatched, t.Returned returned dispatched ∧ need ≤ dispatched.items.length := by
  obtain ⟨alone, reaches, history⟩ := gathers
  by_cases own : j = i
  · subst own
    unfold FifoState.resume at taken
    split at taken
    · next b room item handedBack =>
      rw [handedBack] at reaches
      cases taken
      exact .inl (extend_gathers alone history reaches.1 reaches.2)
    · next b room handedBack =>
      rw [handedBack] at reaches
      cases taken
      obtain ⟨dispatched, isOver, length⟩ := finish_returned st clock b alone history
      exact .inr ⟨dispatched, isOver, length ▸ reaches.2⟩
    · cases taken
  · simp [FifoState.resume, alone j own] at taken

theorem Gathers.step (gathers : st.Gathers i maxBatchSize need returned) (bounded : (need : Int) ≤ maxBatchSize)
    {action : FifoAction n} (quiet : ¬ action.calls) (taken : st.step version clock action = some t) :
    (t.Gathers i maxBatchSize need returned ∧ InTime clock need st action) ∨
      ∃ dispatched, t.Returned returned dispatched ∧
        (need ≤ dispatched.items.length ↔ InTime clock need st action) := by
  have moves : ∀ {P : Prop}, P →
      (t.Gathers i maxBatchSize need returned ∨
        ∃ dispatched, t.Returned returned dispatched ∧ need ≤ dispatched.items.length) →
      (t.Gathers i maxBatchSize need returned ∧ P) ∨
        ∃ dispatched, t.Returned returned dispatched ∧ (need ≤ dispatched.items.length ↔ P) := by
    rintro P holds (more | ⟨dispatched, isOver, enough⟩)
    · exact .inl ⟨more, holds⟩
    · exact .inr ⟨dispatched, isOver, iff_of_true enough holds⟩
  rcases step_cases taken with ⟨-, moved⟩ | ⟨j, -, rfl, moved⟩
  · cases action with
    | submit item wakes => exact moves True.intro (.inl (gathers.submit moved))
    | call j call => exact (quiet True.intro).elim
    | wake j wakes => exact moves True.intro (gathers.wake moved)
    | expire j => exact moves True.intro (.inl (gathers.expire moved))
    | startGet j => exact moves True.intro (.inl (gathers.startGet moved))
    | resume j => exact moves True.intro (gathers.resume moved)
    | collect j => cases moved
  · by_cases own : j = i
    · rw [own] at moved ⊢
      exact gathers.collect bounded moved
    · simp [FifoState.collect, gathers.alone j own] at moved

theorem Returned.step {dispatched : Dispatched} (isOver : st.Returned returned dispatched) {action : FifoAction n}
    (quiet : ¬ action.calls) (taken : st.step version clock action = some t) : t.Returned returned dispatched := by
  obtain ⟨idle, running, history⟩ := isOver
  rcases step_cases taken with ⟨-, moved⟩ | ⟨j, busy, -, -⟩
  · cases action with
    | submit item wakes =>
      have same := wakeupNext_eq (fun j => by rw [idle j]; rfl) (show FifoState.wakeupNext { st with
        ticks := st.ticks + 1
        queue := st.queue ++ [{ item with request := item.request.markEnqueued (clock.reading st.ticks) }] } wakes =
          some t from moved)
      rw [same]
      exact ⟨idle, running, history⟩
    | call j call => exact (quiet True.intro).elim
    | wake j wakes => simp [eventStep, FifoState.wake, idle j] at moved
    | expire j => simp [eventStep, FifoState.expire, idle j] at moved
    | startGet j => simp [eventStep, FifoState.startGet, idle j] at moved
    | resume j => simp [eventStep, FifoState.resume, idle j] at moved
    | collect j => cases moved
  · rw [running] at busy
    cases busy

theorem Returned.inTime {dispatched : Dispatched} (isOver : st.Returned returned dispatched) (action : FifoAction n) :
    InTime clock need st action := by
  cases action with
  | collect j =>
    intro b collecting
    rw [isOver.idle j] at collecting
    cases collecting
  | _ => exact True.intro

/-- In the loop of a call without a timeout, which does not suspend. -/
def Untimed (i : Fin n) (maxBatchSize : Int) (waiting : Nat) (returned : List Dispatched) (st : FifoState n) : Prop :=
  (∀ j, j ≠ i → st.consumers j = .idle) ∧ st.returned = returned ∧ st.running = some i ∧
    ∃ b, st.consumers i = .collecting b ∧ b.maxBatchSize = maxBatchSize ∧ b.batchTimeoutMs = 0 ∧
      b.items.length + st.queue.length = waiting

theorem Untimed.step {waiting : Nat} (untimed : Untimed i maxBatchSize waiting returned st)
    (positive : 1 ≤ maxBatchSize) {action : FifoAction n} (taken : st.step version clock action = some t) :
    Untimed i maxBatchSize waiting returned t ∨
      ∃ dispatched, t.Returned returned dispatched ∧ dispatched.items.length = min maxBatchSize.toNat waiting := by
  obtain ⟨alone, history, running, b, collecting, limit, instant, count⟩ := untimed
  have sized := b.sized
  rcases step_cases taken with ⟨suspended, -⟩ | ⟨j, busy, rfl, moved⟩
  · rw [running] at suspended
    cases suspended
  · rw [running] at busy
    cases busy
    rw [FifoState.collect, collecting] at moved
    dsimp only at moved
    split at moved
    · next room =>
      split at moved
      · next empty =>
        cases moved
        right
        obtain ⟨dispatched, isOver, length⟩ := finish_returned st clock b alone history
        refine ⟨dispatched, isOver, ?_⟩
        rw [empty, List.length_nil] at count
        omega
      · next item queue queued =>
        cases moved
        refine .inl ⟨alone_setPoint alone, history, rfl, b.push item room, setPoint_self _ _ _, limit, instant, ?_⟩
        rw [queued, List.length_cons] at count
        rw [PartialBatch.push, List.length_append, List.length_singleton]
        change b.items.length + 1 + queue.length = waiting
        omega
    · next full =>
      cases moved
      right
      obtain ⟨dispatched, isOver, length⟩ := finish_returned st clock b alone history
      exact ⟨dispatched, isOver, by omega⟩

/-- The batch of a call is as large as the waiting requests allow exactly when no deadline is checked too late;
    without a timeout it is never larger. -/
theorem batch_of_waiting {batchTimeoutMs : Int} (positive : 1 ≤ maxBatchSize) (waiting : st.queue ≠ [])
    (alone : ∀ j, j ≠ i → st.consumers j = .idle) {acts : List (FifoAction n)} (quiet : ∀ a ∈ acts, ¬ a.calls)
    (run : exec (step version clock) (st.takeFirst clock i (.batch maxBatchSize batchTimeoutMs)) acts = some t)
    {dispatched : Dispatched} (history : t.returned = st.returned ++ [dispatched]) :
    (min maxBatchSize.toNat st.size ≤ dispatched.items.length ↔
      Guarded (step version clock) (InTime clock (min maxBatchSize.toNat st.size))
        (st.takeFirst clock i (.batch maxBatchSize batchTimeoutMs)) acts) ∧
    (batchTimeoutMs = 0 → dispatched.items.length = min maxBatchSize.toNat st.size) := by
  obtain ⟨first, rest, queued⟩ := List.exists_cons_of_ne_nil waiting
  have size : st.size = 1 + rest.length := by
    rw [FifoState.size, queued, List.length_cons, Nat.add_comm]
  have same : ∀ {other : Dispatched} {u : FifoState n}, u.Returned st.returned other →
      u.returned = st.returned ++ [dispatched] → other = dispatched := by
    intro other u isOver now
    have both := isOver.returned.symm.trans now
    exact List.singleton_inj.mp (List.append_cancel_left both)
  constructor
  · have begun : (st.takeFirst clock i (.batch maxBatchSize batchTimeoutMs)).Gathers i maxBatchSize
        (min maxBatchSize.toNat st.size) st.returned := by
      rw [takeFirst, queued]
      refine ⟨alone_setPoint alone, ?_, rfl⟩
      rw [setPoint_self]
      refine ⟨rfl, ?_⟩
      change min maxBatchSize.toNat st.size ≤ 1 + rest.length
      omega
    have bounded : ((min maxBatchSize.toNat st.size : Nat) : Int) ≤ maxBatchSize := by
      omega
    rcases exec_outcome (fun _ _ _ gathers quiet taken => gathers.step bounded quiet taken)
      (fun _ _ action _ isOver quiet taken => ⟨isOver.step quiet taken, isOver.inTime action⟩) begun quiet run with still | ⟨other, isOver, exact⟩
    · have nothing := still.returned.symm.trans history
      simp at nothing
    · rw [same isOver history] at exact
      exact exact
  · intro instant
    have begun : Untimed i maxBatchSize st.size st.returned
        (st.takeFirst clock i (.batch maxBatchSize batchTimeoutMs)) := by
      rw [takeFirst, queued]
      exact ⟨alone_setPoint alone, rfl, rfl, _, setPoint_self _ _ _, rfl, instant, size.symm⟩
    rcases exec_ends (fun _ _ _ untimed _ taken => untimed.step positive taken)
      (fun _ _ _ _ isOver quiet taken => isOver.step quiet taken) begun quiet run with still | ⟨other, isOver, exact⟩
    · have nothing := still.2.1.symm.trans history
      simp at nothing
    · rw [same isOver history] at exact
      exact exact

end FifoState

namespace PriorityState

variable {n : Nat} {cfg : SchedulerConfig} {st t : PriorityState n} {i : Fin n} {maxBatchSize : Int} {need : Nat}
  {returned : List Dispatched}

/-- A call that waits has as many items as it needs; one that does not wait can take them. -/
def Reaches (maxBatchSize : Int) (need queued : Nat) : ConsumerPoint → Prop
  | .collecting b => b.maxBatchSize = maxBatchSize ∧ need ≤ b.items.length + queued
  | .more b _ => b.maxBatchSize = maxBatchSize ∧ need ≤ b.items.length
  | _ => False

structure Gathers (i : Fin n) (maxBatchSize : Int) (need : Nat) (returned : List Dispatched)
    (st : PriorityState n) : Prop where
  alone : ∀ j, j ≠ i → st.consumers j = .idle
  reaches : Reaches maxBatchSize need st.items.length (st.consumers i)
  returned : st.returned = returned

structure Returned (returned : List Dispatched) (dispatched : Dispatched) (st : PriorityState n) : Prop where
  idle : ∀ j, st.consumers j = .idle
  running : st.running = none
  returned : st.returned = returned ++ [dispatched]

theorem setPoint_self (st : PriorityState n) (i : Fin n) (point : ConsumerPoint) :
    (st.setPoint i point).consumers i = point := by
  simp [setPoint]

theorem alone_setPoint {point : ConsumerPoint} (alone : ∀ j, j ≠ i → st.consumers j = .idle) :
    ∀ j, j ≠ i → (st.setPoint i point).consumers j = .idle := by
  intro j other
  exact (Function.update_of_ne other point st.consumers).trans (alone j other)

theorem finish_returned (st : PriorityState n) (cfg : SchedulerConfig) (b : PartialBatch)
    (alone : ∀ j, j ≠ i → st.consumers j = .idle) (history : st.returned = returned) :
    ∃ dispatched, (st.finish cfg i b).Returned returned dispatched ∧ dispatched.items.length = b.items.length := by
  refine ⟨.batch b.maxBatchSize ⟨LLMRuntime.markStartedAll cfg.perfCounter st.ticks b.items,
    cfg.perfCounter.reading (st.ticks + b.items.length)⟩, ⟨?_, rfl, ?_⟩, ?_⟩
  · intro j
    by_cases own : j = i
    · rw [own]
      exact Function.update_self i _ _
    · exact alone_setPoint alone j own
  · rw [← history]
    rfl
  · exact length_markStartedAll _ _ _

theorem Reaches.notify {queued : Nat} {point : ConsumerPoint} (reaches : Reaches maxBatchSize need queued point) :
    Reaches maxBatchSize need queued point.notify := by
  cases point with
  | idle => exact reaches
  | first call point => exact reaches.elim
  | collecting b => exact reaches
  | more b point =>
    cases point <;> exact reaches

theorem Reaches.grow {queued more : Nat} {point : ConsumerPoint} (reaches : Reaches maxBatchSize need queued point)
    (order : queued ≤ more) : Reaches maxBatchSize need more point := by
  cases point with
  | collecting b => exact ⟨reaches.1, reaches.2.trans (Nat.add_le_add_left order _)⟩
  | more b point => exact reaches
  | idle => exact reaches
  | first call point => exact reaches

theorem Gathers.setPoint (gathers : st.Gathers i maxBatchSize need returned) {point : ConsumerPoint}
    (reaches : Reaches maxBatchSize need st.items.length point) :
    (st.setPoint i point).Gathers i maxBatchSize need returned where
  alone := alone_setPoint gathers.alone
  reaches := by
    rw [setPoint_self]
    exact reaches
  returned := gathers.returned

theorem Gathers.append (gathers : st.Gathers i maxBatchSize need returned) {item : ScheduledRequest}
    {wakes : Option (Fin n)} (taken : st.append cfg item wakes = some t) :
    t.Gathers i maxBatchSize need returned := by
  have grown : Reaches maxBatchSize need (st.items.length + 1) (st.consumers i) :=
    gathers.reaches.grow (Nat.le_succ _)
  unfold PriorityState.append at taken
  split at taken
  · next can =>
    have appended : ∀ items : List QueuedRequest, items.length = st.items.length + 1 →
        Gathers i maxBatchSize need returned { st with
          ticks := st.ticks + 1, counter := st.counter + 1, items, submitted := st.submitted ++ [item] } := by
      intro items length
      refine ⟨gathers.alone, ?_, gathers.returned⟩
      rw [length]
      exact grown
    cases wakes with
    | none =>
      cases taken
      exact appended _ (by simp)
    | some j =>
      cases taken
      by_cases own : j = i
      · rw [own]
        have placed := appended (st.items ++ [⟨item.request.priority, st.counter + 1, cfg.timeFn.reading st.ticks, item⟩])
          (by simp)
        exact placed.setPoint placed.reaches.notify
      · have parked : (st.consumers j).unnotified = true := can
        rw [gathers.alone j own] at parked
        cases parked
  · cases taken

theorem Gathers.submit (gathers : st.Gathers i maxBatchSize need returned) {item : ScheduledRequest}
    {wakes : Option (Fin n)} (taken : st.submit cfg item wakes = some t) :
    t.Gathers i maxBatchSize need returned := by
  unfold PriorityState.submit at taken
  dsimp only at taken
  split at taken
  · have ticked : Gathers i maxBatchSize need returned { st with ticks := st.ticks + 1 } :=
      ⟨gathers.alone, gathers.reaches, gathers.returned⟩
    exact ticked.append taken
  · cases taken
    exact ⟨gathers.alone, gathers.reaches, gathers.returned⟩

section More

variable {b : PartialBatch}

theorem more_gathers (st : PriorityState n) (alone : ∀ j, j ≠ i → st.consumers j = .idle) (history : st.returned = returned)
    (limit : b.maxBatchSize = maxBatchSize) (enough : need ≤ b.items.length) (point : MorePoint) :
    (st.setPoint i (.more b point)).Gathers i maxBatchSize need returned := by
  refine ⟨alone_setPoint alone, ?_, history⟩
  rw [setPoint_self]
  exact ⟨limit, enough⟩

theorem queueFor_gathers (st : PriorityState n) (alone : ∀ j, j ≠ i → st.consumers j = .idle)
    (history : st.returned = returned) (limit : b.maxBatchSize = maxBatchSize) (enough : need ≤ b.items.length)
    (point : MorePoint) : (st.queueFor i (.more b point)).Gathers i maxBatchSize need returned :=
  more_gathers { st with lockWaiters := st.lockWaiters ++ [LockWaiter.consumer i] } alone history limit enough point

theorem continueBatch_gathers (alone : ∀ j, j ≠ i → st.consumers j = .idle) (history : st.returned = returned)
    (limit : b.maxBatchSize = maxBatchSize) (enough : need ≤ b.items.length) (expired : Bool) :
    (st.continueBatch cfg i b expired).Gathers i maxBatchSize need returned ∨
      ∃ dispatched, (st.continueBatch cfg i b expired).Returned returned dispatched ∧
        need ≤ dispatched.items.length := by
  cases expired with
  | true =>
    obtain ⟨dispatched, isOver, length⟩ := finish_returned st cfg b alone history
    exact .inr ⟨dispatched, isOver, length ▸ enough⟩
  | false =>
    left
    refine ⟨alone_setPoint alone, ?_, history⟩
    change Reaches maxBatchSize need st.items.length ((PriorityState.setPoint _ i (.collecting b)).consumers i)
    rw [setPoint_self]
    exact ⟨limit, enough.trans (Nat.le_add_right _ _)⟩

theorem rejoin_gathers (alone : ∀ j, j ≠ i → st.consumers j = .idle) (history : st.returned = returned)
    (limit : b.maxBatchSize = maxBatchSize) (enough : need ≤ b.items.length) (expired : Bool) :
    (st.rejoin cfg i b expired).Gathers i maxBatchSize need returned ∨
      ∃ dispatched, (st.rejoin cfg i b expired).Returned returned dispatched ∧ need ≤ dispatched.items.length := by
  unfold rejoin
  split
  · exact .inl (more_gathers { st with locked := true } alone history limit enough _)
  · exact continueBatch_gathers alone history limit enough expired

end More

theorem Gathers.acquired (gathers : st.Gathers i maxBatchSize need returned) {j : Fin n}
    (taken : st.acquired cfg j = some t) :
    t.Gathers i maxBatchSize need returned ∨
      ∃ dispatched, t.Returned returned dispatched ∧ need ≤ dispatched.items.length := by
  obtain ⟨alone, reaches, history⟩ := gathers
  by_cases own : j = i
  · subst own
    unfold PriorityState.acquired at taken
    split at taken
    · next call entering =>
      rw [entering] at reaches
      exact reaches.elim
    · next call reacquiring =>
      rw [reacquiring] at reaches
      exact reaches.elim
    · next b expired reacquiring =>
      rw [reacquiring] at reaches
      cases taken
      exact rejoin_gathers alone history reaches.1 reaches.2 expired
    · cases taken
  · simp [PriorityState.acquired, alone j own] at taken

theorem Gathers.grant (gathers : st.Gathers i maxBatchSize need returned) {wakes : Option (Fin n)}
    (taken : st.grant cfg wakes = some t) :
    t.Gathers i maxBatchSize need returned ∨
      ∃ dispatched, t.Returned returned dispatched ∧ need ≤ dispatched.items.length := by
  have shorter : ∀ lockWaiters, Gathers i maxBatchSize need returned { st with lockWaiters } :=
    fun _ => ⟨gathers.alone, gathers.reaches, gathers.returned⟩
  unfold PriorityState.grant at taken
  split at taken
  · cases taken
  · split at taken
    · cases taken
    · next item rest queue => exact .inl ((shorter rest).append taken)
    · next j rest queue => exact (shorter rest).acquired taken

theorem Gathers.wake (gathers : st.Gathers i maxBatchSize need returned) {j : Fin n}
    (taken : st.wake cfg j = some t) :
    t.Gathers i maxBatchSize need returned ∨
      ∃ dispatched, t.Returned returned dispatched ∧ need ≤ dispatched.items.length := by
  obtain ⟨alone, reaches, history⟩ := gathers
  by_cases own : j = i
  · subst own
    unfold PriorityState.wake at taken
    split at taken
    · next call parked =>
      rw [parked] at reaches
      exact reaches.elim
    · cases taken
    · next b mark _ parked =>
      rw [parked] at reaches
      dsimp only at taken
      split at taken
      · cases taken
        exact rejoin_gathers alone history reaches.1 reaches.2 _
      · cases taken
        exact .inl (queueFor_gathers st alone history reaches.1 reaches.2 _)
    · cases taken
  · simp [PriorityState.wake, alone j own] at taken

theorem Gathers.expire (gathers : st.Gathers i maxBatchSize need returned) {j : Fin n}
    (taken : st.expire j = some t) : t.Gathers i maxBatchSize need returned := by
  obtain ⟨alone, reaches, history⟩ := gathers
  by_cases own : j = i
  · subst own
    unfold PriorityState.expire at taken
    split at taken
    · cases taken
    · next b mark _ parked =>
      rw [parked] at reaches
      cases taken
      exact more_gathers st alone history reaches.1 reaches.2 _
    · next b reacquiring =>
      rw [reacquiring] at reaches
      cases taken
      exact queueFor_gathers { st with lockWaiters := st.lockWaiters.erase (LockWaiter.consumer j) } alone history
        reaches.1 reaches.2 _
    · cases taken
  · simp [PriorityState.expire, alone j own] at taken

theorem Gathers.startWait (gathers : st.Gathers i maxBatchSize need returned) {j : Fin n}
    (taken : st.startWait j = some t) : t.Gathers i maxBatchSize need returned := by
  obtain ⟨alone, reaches, history⟩ := gathers
  by_cases own : j = i
  · subst own
    unfold PriorityState.startWait at taken
    split at taken
    · next b spawned =>
      rw [spawned] at reaches
      cases taken
      exact more_gathers { st with locked := false } alone history reaches.1 reaches.2 _
    · cases taken
  · simp [PriorityState.startWait, alone j own] at taken

theorem Gathers.resume (gathers : st.Gathers i maxBatchSize need returned) {j : Fin n}
    (taken : st.resume cfg j = some t) :
    t.Gathers i maxBatchSize need returned ∨
      ∃ dispatched, t.Returned returned dispatched ∧ need ≤ dispatched.items.length := by
  obtain ⟨alone, reaches, history⟩ := gathers
  by_cases own : j = i
  · subst own
    unfold PriorityState.resume at taken
    split at taken
    · next b expired handedBack =>
      rw [handedBack] at reaches
      cases taken
      exact continueBatch_gathers alone history reaches.1 reaches.2 expired
    · cases taken
  · simp [PriorityState.resume, alone j own] at taken

theorem Gathers.collect (gathers : st.Gathers i maxBatchSize need returned) (bounded : (need : Int) ≤ maxBatchSize)
    {j : Fin n} (taken : st.collect cfg j = some t) :
    t.Gathers i maxBatchSize need returned ∨
      ∃ dispatched, t.Returned returned dispatched ∧ need ≤ dispatched.items.length := by
  obtain ⟨alone, reaches, history⟩ := gathers
  by_cases own : j = i
  · subst own
    unfold PriorityState.collect at taken
    split at taken
    · next b collecting =>
      rw [collecting] at reaches
      obtain ⟨limit, enough⟩ := reaches
      split at taken
      · next room =>
        split at taken
        · next queued items found =>
          cases taken
          left
          have popped := (popNextLocked_perm found).length_eq
          refine ⟨alone_setPoint alone, ?_, history⟩
          rw [setPoint_self]
          refine ⟨limit, ?_⟩
          rw [PartialBatch.push, List.length_append, List.length_singleton]
          change need ≤ b.items.length + 1 + items.length
          rw [List.length_cons] at popped
          omega
        · next found =>
          -- Nothing waits any more, so what the deadline says does not matter.
          rw [popNextLocked_eq_none_iff.mp found, List.length_nil, Nat.add_zero] at enough
          split at taken
          · cases taken
            obtain ⟨dispatched, isOver, length⟩ := finish_returned st cfg b alone history
            exact .inr ⟨dispatched, isOver, length ▸ enough⟩
          · dsimp only at taken
            split at taken
            · cases taken
              obtain ⟨dispatched, isOver, length⟩ :=
                finish_returned { st with ticks := st.ticks + 1 } cfg b alone history
              exact .inr ⟨dispatched, isOver, length ▸ enough⟩
            · cases taken
              left
              unfold waitForMore
              split
              · exact more_gathers { st with ticks := st.ticks + 1, running := none } alone history limit enough _
              · exact more_gathers { st with ticks := st.ticks + 1, running := none, locked := false } alone history
                  limit enough _
      · next full =>
        cases taken
        obtain ⟨dispatched, isOver, length⟩ := finish_returned st cfg b alone history
        exact .inr ⟨dispatched, isOver, by omega⟩
    · cases taken
  · simp [PriorityState.collect, alone j own] at taken

theorem Gathers.step (gathers : st.Gathers i maxBatchSize need returned) (bounded : (need : Int) ≤ maxBatchSize)
    {action : SchedulerAction n} (quiet : ¬ action.calls) (taken : st.step cfg action = some t) :
    t.Gathers i maxBatchSize need returned ∨
      ∃ dispatched, t.Returned returned dispatched ∧ need ≤ dispatched.items.length := by
  rcases step_cases taken with ⟨-, moved⟩ | ⟨j, -, rfl, moved⟩
  · cases action with
    | submit item wakes => exact .inl (gathers.submit moved)
    | call j call => exact (quiet True.intro).elim
    | grant wakes => exact gathers.grant moved
    | wake j => exact gathers.wake moved
    | expire j => exact .inl (gathers.expire moved)
    | startWait j => exact .inl (gathers.startWait moved)
    | resume j => exact gathers.resume moved
    | collect j => cases moved
  · exact gathers.collect bounded moved

theorem Returned.append {dispatched : Dispatched} (isOver : st.Returned returned dispatched) {item : ScheduledRequest}
    {wakes : Option (Fin n)} (taken : st.append cfg item wakes = some t) : t.Returned returned dispatched := by
  unfold PriorityState.append at taken
  split at taken
  · next can =>
    cases wakes with
    | none =>
      cases taken
      exact ⟨isOver.idle, isOver.running, isOver.returned⟩
    | some j =>
      have parked : (st.consumers j).unnotified = true := can
      rw [isOver.idle j] at parked
      cases parked
  · cases taken

theorem Returned.step {dispatched : Dispatched} (isOver : st.Returned returned dispatched)
    {action : SchedulerAction n} (quiet : ¬ action.calls) (taken : st.step cfg action = some t) :
    t.Returned returned dispatched := by
  have idle := isOver.idle
  rcases step_cases taken with ⟨-, moved⟩ | ⟨j, busy, -, -⟩
  · cases action with
    | submit item wakes =>
      simp only [eventStep, PriorityState.submit] at moved
      split at moved
      · have ticked : Returned returned dispatched { st with ticks := st.ticks + 1 } :=
          ⟨isOver.idle, isOver.running, isOver.returned⟩
        exact ticked.append moved
      · cases moved
        exact ⟨isOver.idle, isOver.running, isOver.returned⟩
    | call j call => exact (quiet True.intro).elim
    | grant wakes =>
      simp only [eventStep, PriorityState.grant] at moved
      split at moved
      · cases moved
      · split at moved
        · cases moved
        · next item rest queue =>
          have shorter : Returned returned dispatched { st with lockWaiters := rest } :=
            ⟨isOver.idle, isOver.running, isOver.returned⟩
          exact shorter.append moved
        · next j rest queue => simp [PriorityState.acquired, idle j] at moved
    | wake j => simp [eventStep, PriorityState.wake, idle j] at moved
    | expire j => simp [eventStep, PriorityState.expire, idle j] at moved
    | startWait j => simp [eventStep, PriorityState.startWait, idle j] at moved
    | resume j => simp [eventStep, PriorityState.resume, idle j] at moved
    | collect j => cases moved
  · rw [isOver.running] at busy
    cases busy

/-- In the loop of a call without a timeout, which does not suspend. -/
def Untimed (i : Fin n) (maxBatchSize : Int) (waiting : Nat) (returned : List Dispatched) (st : PriorityState n) :
    Prop :=
  (∀ j, j ≠ i → st.consumers j = .idle) ∧ st.returned = returned ∧ st.running = some i ∧
    ∃ b, st.consumers i = .collecting b ∧ b.maxBatchSize = maxBatchSize ∧ b.batchTimeoutMs = 0 ∧
      b.items.length + st.items.length = waiting

theorem Untimed.step {waiting : Nat} (untimed : Untimed i maxBatchSize waiting returned st)
    (positive : 1 ≤ maxBatchSize) {action : SchedulerAction n} (taken : st.step cfg action = some t) :
    Untimed i maxBatchSize waiting returned t ∨
      ∃ dispatched, t.Returned returned dispatched ∧ dispatched.items.length = min maxBatchSize.toNat waiting := by
  obtain ⟨alone, history, running, b, collecting, limit, instant, count⟩ := untimed
  have sized := b.sized
  rcases step_cases taken with ⟨suspended, -⟩ | ⟨j, busy, rfl, moved⟩
  · rw [running] at suspended
    cases suspended
  · rw [running] at busy
    cases busy
    rw [PriorityState.collect, collecting] at moved
    dsimp only at moved
    split at moved
    · next room =>
      split at moved
      · next queued items found =>
        cases moved
        have popped := (popNextLocked_perm found).length_eq
        left
        refine ⟨alone_setPoint alone, history, running, b.push queued.item room, setPoint_self _ _ _, limit, instant, ?_⟩
        rw [PartialBatch.push, List.length_append, List.length_singleton]
        change b.items.length + 1 + items.length = waiting
        rw [List.length_cons] at popped
        omega
      · next found =>
        cases moved
        right
        obtain ⟨dispatched, isOver, length⟩ := finish_returned st cfg b alone history
        refine ⟨dispatched, isOver, ?_⟩
        rw [popNextLocked_eq_none_iff.mp found, List.length_nil] at count
        omega
    · next full =>
      cases moved
      right
      obtain ⟨dispatched, isOver, length⟩ := finish_returned st cfg b alone history
      exact ⟨dispatched, isOver, by omega⟩

theorem batch_of_waiting {batchTimeoutMs : Int} (positive : 1 ≤ maxBatchSize) (waiting : st.items ≠ [])
    (alone : ∀ j, j ≠ i → st.consumers j = .idle) {acts : List (SchedulerAction n)} (quiet : ∀ a ∈ acts, ¬ a.calls)
    (run : exec (step cfg) (st.takeFirst cfg i (.batch maxBatchSize batchTimeoutMs)) acts = some t)
    {dispatched : Dispatched} (history : t.returned = st.returned ++ [dispatched]) :
    min maxBatchSize.toNat st.size ≤ dispatched.items.length ∧
      (batchTimeoutMs = 0 → dispatched.items.length = min maxBatchSize.toNat st.size) := by
  cases found : LLMRuntime.popNextLocked cfg.agingBoostIntervalS (cfg.timeFn.reading st.ticks) st.items with
  | none => exact absurd (popNextLocked_eq_none_iff.mp found) waiting
  | some both =>
    obtain ⟨queued, rest⟩ := both
    have size : st.size = 1 + rest.length := by
      rw [PriorityState.size, (popNextLocked_perm found).length_eq, List.length_cons, Nat.add_comm]
    have same : ∀ {other : Dispatched} {u : PriorityState n}, u.Returned st.returned other →
        u.returned = st.returned ++ [dispatched] → other = dispatched := by
      intro other u isOver now
      have both := isOver.returned.symm.trans now
      exact List.singleton_inj.mp (List.append_cancel_left both)
    constructor
    · have begun : (st.takeFirst cfg i (.batch maxBatchSize batchTimeoutMs)).Gathers i maxBatchSize
          (min maxBatchSize.toNat st.size) st.returned := by
        rw [takeFirst, found]
        refine ⟨alone_setPoint alone, ?_, rfl⟩
        rw [setPoint_self]
        refine ⟨rfl, ?_⟩
        change min maxBatchSize.toNat st.size ≤ 1 + rest.length
        omega
      have bounded : ((min maxBatchSize.toNat st.size : Nat) : Int) ≤ maxBatchSize := by
        omega
      rcases exec_ends (fun _ _ _ gathers quiet taken => gathers.step bounded quiet taken)
        (fun _ _ _ _ isOver quiet taken => isOver.step quiet taken) begun quiet run with still | ⟨other, isOver, enough⟩
      · have nothing := still.returned.symm.trans history
        simp at nothing
      · rw [same isOver history] at enough
        exact enough
    · intro instant
      have begun : Untimed i maxBatchSize st.size st.returned
          (st.takeFirst cfg i (.batch maxBatchSize batchTimeoutMs)) := by
        rw [takeFirst, found]
        exact ⟨alone_setPoint alone, rfl, rfl, _, setPoint_self _ _ _, rfl, instant, size.symm⟩
      rcases exec_ends (fun _ _ _ untimed _ taken => untimed.step positive taken)
        (fun _ _ _ _ isOver quiet taken => isOver.step quiet taken) begun quiet run with still | ⟨other, isOver, exact⟩
      · have nothing := still.2.1.symm.trans history
        simp at nothing
      · rw [same isOver history] at exact
        exact exact

end PriorityState

/-- Requests that wait when `next_batch` takes its first one are batched. `PriorityScheduler` looks at its queue
    before the clock, so a timeout costs it nothing; `FIFOScheduler` checks the deadline first, and returns fewer
    exactly when a check comes too late. Without a timeout both return what waits, up to the limit. -/
theorem waiting_requests_batched {n : Nat} (i : Fin n) {maxBatchSize batchTimeoutMs : Int}
    (positive : 1 ≤ maxBatchSize) :
    (∀ (cfg : SchedulerConfig) (st t : PriorityState n) (acts : List (SchedulerAction n)) (dispatched : Dispatched),
      st.items ≠ [] → (∀ j, j ≠ i → st.consumers j = .idle) → (∀ a ∈ acts, ¬ a.calls) →
      exec (PriorityState.step cfg) (st.takeFirst cfg i (.batch maxBatchSize batchTimeoutMs)) acts = some t →
      t.returned = st.returned ++ [dispatched] →
      min maxBatchSize.toNat st.size ≤ dispatched.items.length ∧
        (batchTimeoutMs = 0 → dispatched.items.length = min maxBatchSize.toNat st.size)) ∧
    ∀ (version : PythonVersion) (clock : Clock) (st t : FifoState n) (acts : List (FifoAction n))
      (dispatched : Dispatched),
      st.queue ≠ [] → (∀ j, j ≠ i → st.consumers j = .idle) → (∀ a ∈ acts, ¬ a.calls) →
      exec (FifoState.step version clock) (st.takeFirst clock i (.batch maxBatchSize batchTimeoutMs)) acts = some t →
      t.returned = st.returned ++ [dispatched] →
      (min maxBatchSize.toNat st.size ≤ dispatched.items.length ↔
        Guarded (FifoState.step version clock) (FifoState.InTime clock (min maxBatchSize.toNat st.size))
          (st.takeFirst clock i (.batch maxBatchSize batchTimeoutMs)) acts) ∧
      (batchTimeoutMs = 0 → dispatched.items.length = min maxBatchSize.toNat st.size) := by
  constructor
  · intro cfg st t acts dispatched waiting alone quiet run history
    exact PriorityState.batch_of_waiting positive waiting alone quiet run history
  · intro version clock st t acts dispatched waiting alone quiet run history
    exact FifoState.batch_of_waiting positive waiting alone quiet run history

def secondsClock : Clock := ⟨fun tick => tick, monotone_tick⟩

def twoSubmits : List (SchedulerAction 1) :=
  [.submit (.ofBody { messages := [] } "a" 0) none, .submit (.ofBody { messages := [] } "b" 0) none]

theorem waiting_requests_batched_late :
    ∃ st t dispatched, exec (PriorityState.step (.ticking .py312)) {} twoSubmits = some st ∧ st.size = 2 ∧
      exec (PriorityState.step (.ticking .py312)) (st.takeFirst (.ticking .py312) 0 (.batch 2 1))
        [.collect 0, .collect 0] = some t ∧
      t.returned = st.returned ++ [dispatched] ∧ 2 ≤ dispatched.items.length := by
  have done : (exec (PriorityState.step (.ticking .py312)) {} twoSubmits).bind (fun st =>
      (exec (PriorityState.step (.ticking .py312)) (st.takeFirst (.ticking .py312) 0 (.batch 2 1))
        [.collect 0, .collect 0]).map fun t => (st.size, st.returned.length, t.returned.length)) =
          some (2, 0, 1) := by
    decide +kernel
  obtain ⟨st, submitted, rest⟩ := Option.bind_eq_some_iff.mp done
  obtain ⟨t, run, counts⟩ := Option.map_eq_some_iff.mp rest
  simp only [Prod.mk.injEq] at counts
  obtain ⟨size, before, after⟩ := counts
  obtain ⟨dispatched, returned⟩ := List.length_eq_one_iff.mp after
  have history : t.returned = st.returned ++ [dispatched] := by
    rw [List.length_eq_zero_iff.mp before, returned]
    rfl
  have waiting : st.items ≠ [] := by
    intro empty
    rw [PriorityState.size, empty] at size
    cases size
  have batched := (waiting_requests_batched 0 (by decide)).1 (.ticking .py312) st t [.collect 0, .collect 0]
    dispatched waiting (fun j other => absurd (Subsingleton.elim j 0) other)
    (by simp [SchedulerAction.calls]) run history
  refine ⟨st, t, dispatched, submitted, size, run, history, ?_⟩
  rw [size] at batched
  exact batched.1

/-- On the same queue and clock `FIFOScheduler` returns one request of two, a positive timeout notwithstanding. -/
theorem late_deadline_leaves_waiting :
    ∃ (st t : FifoState 1) (dispatched : Dispatched),
      exec (FifoState.step .py312 secondsClock) {}
        [.submit (.ofBody { messages := [] } "a" 0) none, .submit (.ofBody { messages := [] } "b" 0) none] = some st ∧
      exec (FifoState.step .py312 secondsClock) (st.takeFirst secondsClock 0 (.batch 2 1)) [.collect 0] = some t ∧
      t.returned = st.returned ++ [dispatched] ∧ st.size = 2 ∧ ¬ 2 ≤ dispatched.items.length := by
  have done : (exec (FifoState.step .py312 secondsClock) ({} : FifoState 1)
      [.submit (.ofBody { messages := [] } "a" 0) none, .submit (.ofBody { messages := [] } "b" 0) none]).bind
        (fun st => (exec (FifoState.step .py312 secondsClock) (st.takeFirst secondsClock 0 (.batch 2 1))
          [.collect 0]).map fun t => (st.size, st.returned.length, t.returned.map (·.items.length))) =
          some (2, 0, [1]) := by
    decide +kernel
  obtain ⟨st, submitted, rest⟩ := Option.bind_eq_some_iff.mp done
  obtain ⟨t, run, counts⟩ := Option.map_eq_some_iff.mp rest
  simp only [Prod.mk.injEq] at counts
  obtain ⟨size, before, after⟩ := counts
  obtain ⟨dispatched, returned, length⟩ := List.map_eq_singleton_iff.mp after
  refine ⟨st, t, dispatched, submitted, run, ?_, size, by omega⟩
  rw [List.length_eq_zero_iff.mp before, returned]
  rfl

end LLMRuntime
