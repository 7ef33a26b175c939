import Mathlib.Data.Fintype.Basic
import LLMRuntime.Core.Lifecycle
import LLMRuntime.Foundation.Custody
import LLMRuntime.Scheduler.Lock

namespace LLMRuntime

/-- Notified in `condition.wait()` and not resumed yet. -/
def ConsumerPoint.notified : ConsumerPoint → Bool
  | .first _ (.parked notified) => notified
  | .more _ (.parked mark) => mark == .notified
  | _ => false

theorem ConsumerPoint.not_notified_of_unnotified {point : ConsumerPoint} (parked : point.unnotified = true) :
    point.notified = false := by
  unfold unnotified at parked
  split at parked
  · next call notified => simpa [ConsumerPoint.notified] using parked
  · next batch mark =>
    cases mark with
    | waiting => rfl
    | notified => cases parked
    | cancelled => rfl
  · cases parked

def SchedulerAction.CallsWith {n : Nat} (maxBatchSize batchTimeoutMs : Int) : SchedulerAction n → Prop
  | .call _ made => made = .batch maxBatchSize batchTimeoutMs
  | _ => True

namespace PriorityState

open Transition

def notifiedCount {n : Nat} (st : PriorityState n) : Nat :=
  (Finset.univ.filter fun i => (st.consumers i).notified = true).card

/-- While anyone is parked un-notified, no more requests are queued than wakeups are under way. -/
def NoLostWakeup {n : Nat} (st : PriorityState n) : Prop :=
  ∀ i, (st.consumers i).unnotified = true → st.items.length ≤ st.notifiedCount

variable {cfg : SchedulerConfig}

section OneWorker

variable {st t : PriorityState 1} {i : Fin 1}

def Settles (items : List QueuedRequest) (locked : Bool) : ConsumerPoint → Prop
  | .first _ (.parked false) => items = []
  | .more _ (.parked .waiting) => items = []
  | .more _ .spawned => items = [] ∧ locked = true
  | .collecting _ => locked = true
  | _ => True

theorem Settles.empty {items : List QueuedRequest} {locked : Bool} {point : ConsumerPoint}
    (settles : Settles items locked point) (parked : point.unnotified = true) : items = [] := by
  unfold ConsumerPoint.unnotified at parked
  split at parked
  · next call notified =>
    cases notified with
    | true => cases parked
    | false => exact settles
  · next batch mark =>
    cases mark with
    | waiting => exact settles
    | notified => cases parked
    | cancelled => cases parked
  · cases parked

theorem Settles.grow {items more : List QueuedRequest} {point : ConsumerPoint}
    (settles : Settles items false point) (parked : point.unnotified = false) : Settles more false point := by
  unfold Settles at settles
  split at settles
  · cases parked
  · cases parked
  · cases settles.2
  · cases settles
  · next idle firsts mores spawns =>
    unfold Settles
    split <;> simp_all

theorem settles_notify {items : List QueuedRequest} {locked : Bool} {point : ConsumerPoint}
    (parked : point.unnotified = true) : Settles items locked point.notify := by
  unfold ConsumerPoint.unnotified at parked
  split at parked
  · exact True.intro
  · exact True.intro
  · cases parked

def Settled (st : PriorityState 1) : Prop := Settles st.items st.locked (st.consumers ⟨0, Nat.one_pos⟩)

theorem Settled.at (settled : st.Settled) (i : Fin 1) : Settles st.items st.locked (st.consumers i) := by
  rw [Subsingleton.elim i ⟨0, Nat.one_pos⟩]
  exact settled

theorem settled_setPoint {point : ConsumerPoint} (settles : Settles st.items st.locked point) :
    (st.setPoint i point).Settled := by
  have only : (st.setPoint i point).consumers ⟨0, Nat.one_pos⟩ = point := by
    rw [Subsingleton.elim i ⟨0, Nat.one_pos⟩]
    simp [setPoint]
  unfold Settled
  rw [only]
  exact settles

theorem Settled.noLostWakeup (settled : st.Settled) : st.NoLostWakeup := by
  intro i parked
  rw [(settled.at i).empty parked]
  exact Nat.zero_le _

theorem takeFirst_settled (call : Call) : (st.takeFirst cfg i call).Settled := by
  unfold takeFirst
  split
  · next empty => exact settled_setPoint (popNextLocked_eq_none_iff.mp empty)
  · cases call with
    | request => exact settled_setPoint True.intro
    | batch maxBatchSize batchTimeoutMs => exact settled_setPoint rfl

theorem finish_settled (batch : PartialBatch) : (st.finish cfg i batch).Settled := settled_setPoint True.intro

theorem continueBatch_settled (batch : PartialBatch) (expired : Bool) :
    (st.continueBatch cfg i batch expired).Settled := by
  unfold continueBatch
  split
  · exact finish_settled batch
  · exact settled_setPoint rfl

theorem rejoin_settled (batch : PartialBatch) (expired : Bool) : (st.rejoin cfg i batch expired).Settled := by
  unfold rejoin
  split
  · exact settled_setPoint True.intro
  · exact continueBatch_settled batch expired

theorem append_settled {item : ScheduledRequest} {wakes : Option (Fin 1)} (free : st.locked = false)
    (settled : st.Settled) (taken : st.append cfg item wakes = some t) : t.Settled := by
  unfold append at taken
  split at taken
  · next allowed =>
    cases taken
    cases wakes with
    | some i => exact settled_setPoint (settles_notify allowed)
    | none =>
      unfold Settled at settled
      rw [free] at settled
      unfold Settled
      show Settles _ st.locked _
      rw [free]
      exact settled.grow (allowed 0)
  · cases taken

theorem submit_settled {item : ScheduledRequest} {wakes : Option (Fin 1)} (settled : st.Settled)
    (taken : st.submit cfg item wakes = some t) : t.Settled := by
  unfold submit at taken
  dsimp only at taken
  split at taken
  · next free =>
    have unlocked : st.locked = false := by
      simp only [lockFree, Bool.and_eq_true, Bool.not_eq_true'] at free
      exact free.1
    have ticked : ({ st with ticks := st.ticks + 1 } : PriorityState 1).Settled := settled
    refine append_settled ?_ ticked taken
    exact unlocked
  · cases taken
    exact settled

theorem call_settled {call : Call} (taken : st.call cfg i call = some t) : t.Settled := by
  unfold PriorityState.call at taken
  split at taken
  · split at taken
    · cases taken
      exact takeFirst_settled call
    · cases taken
      exact settled_setPoint True.intro
  · cases taken

theorem acquired_settled (taken : st.acquired cfg i = some t) : t.Settled := by
  unfold acquired at taken
  split at taken
  · cases taken
    exact takeFirst_settled _
  · cases taken
    exact takeFirst_settled _
  · cases taken
    exact rejoin_settled _ _
  · cases taken

theorem grant_settled {wakes : Option (Fin 1)} (settled : st.Settled) (taken : st.grant cfg wakes = some t) :
    t.Settled := by
  unfold grant at taken
  split at taken
  · cases taken
  · next unlocked =>
    split at taken
    · cases taken
    · next item rest queue =>
      have dequeued : ({ st with lockWaiters := rest } : PriorityState 1).Settled := settled
      refine append_settled ?_ dequeued taken
      simpa using unlocked
    · exact acquired_settled taken

theorem wake_settled (taken : st.wake cfg i = some t) : t.Settled := by
  unfold wake at taken
  split at taken
  · split at taken
    · cases taken
      exact takeFirst_settled _
    · cases taken
      exact settled_setPoint True.intro
  · cases taken
  · dsimp only at taken
    split at taken
    · cases taken
      exact rejoin_settled _ _
    · cases taken
      exact settled_setPoint True.intro
  · cases taken

theorem expire_settled (taken : st.expire i = some t) : t.Settled := by
  unfold expire at taken
  split at taken
  · cases taken
  · cases taken
    exact settled_setPoint True.intro
  · cases taken
    exact settled_setPoint True.intro
  · cases taken

theorem startWait_settled (settled : st.Settled) (taken : st.startWait i = some t) : t.Settled := by
  have settles := settled.at i
  unfold startWait at taken
  split at taken
  · next batch spawned =>
    rw [spawned] at settles
    cases taken
    exact settled_setPoint settles.1
  · cases taken

theorem resume_settled (taken : st.resume cfg i = some t) : t.Settled := by
  unfold resume at taken
  split at taken
  · cases taken
    exact continueBatch_settled _ _
  · cases taken

theorem collect_settled (settled : st.Settled) (taken : st.collect cfg i = some t) : t.Settled := by
  have settles := settled.at i
  unfold collect at taken
  split at taken
  · next batch collecting =>
    rw [collecting] at settles
    split at taken
    · split at taken
      · cases taken
        exact settled_setPoint settles
      · next empty =>
        have nothing := popNextLocked_eq_none_iff.mp empty
        split at taken
        · cases taken
          exact finish_settled batch
        · dsimp only at taken
          split at taken
          · cases taken
            exact finish_settled batch
          · cases taken
            unfold waitForMore
            split
            · exact settled_setPoint ⟨nothing, settles⟩
            · exact settled_setPoint nothing
    · cases taken
      exact finish_settled batch
  · cases taken

theorem step_settled {action : SchedulerAction 1} (settled : st.Settled)
    (taken : st.step cfg action = some t) : t.Settled := by
  rcases step_cases taken with ⟨-, moved⟩ | ⟨i, -, -, moved⟩
  · cases action with
    | submit item wakes => exact submit_settled settled moved
    | call i call => exact call_settled moved
    | grant wakes => exact grant_settled settled moved
    | wake i => exact wake_settled moved
    | expire i => exact expire_settled moved
    | startWait i => exact startWait_settled settled moved
    | resume i => exact resume_settled moved
    | collect i => cases moved
  · exact collect_settled settled moved

end OneWorker

section SingleDispatch

variable {n : Nat} {st t : PriorityState n} {i : Fin n}

def DispatchesOne : ConsumerPoint → Prop
  | .idle => True
  | .first call (.parked _) => call = .batch 1 0
  | .collecting batch => batch.maxBatchSize = 1
  | _ => False

theorem DispatchesOne.parked {point : ConsumerPoint} (one : DispatchesOne point)
    (parked : point.unnotified = true) : point = .first (.batch 1 0) (.parked false) := by
  unfold ConsumerPoint.unnotified at parked
  split at parked
  · next call notified =>
    cases notified with
    | true => cases parked
    | false =>
      have made : call = .batch 1 0 := one
      rw [made]
  · cases one
  · cases parked

structure OneByOne (st : PriorityState n) : Prop where
  idle : st.LockIdle
  points : ∀ i, DispatchesOne (st.consumers i)
  wakeups : st.NoLostWakeup

def wakeupsOf (point : ConsumerPoint) : Nat := if point.notified = true then 1 else 0

theorem wakeupsOf_le (point : ConsumerPoint) : wakeupsOf point ≤ 1 := by
  unfold wakeupsOf
  split <;> omega

variable {point : ConsumerPoint}

theorem notifiedCount_update (moved : t.consumers = Function.update st.consumers i point) :
    t.notifiedCount + wakeupsOf (st.consumers i) = st.notifiedCount + wakeupsOf point := by
  have shares : (fun j => wakeupsOf (t.consumers j)) =
      Function.update (fun j => wakeupsOf (st.consumers j)) i (wakeupsOf point) := by
    rw [moved]
    exact funext fun j => Function.apply_update (fun _ => wakeupsOf) st.consumers i point j
  have changed := Custody.sum_update (fun j => wakeupsOf (st.consumers j)) i (wakeupsOf point)
  rw [← shares] at changed
  simp only [notifiedCount, Finset.card_filter]
  exact changed

/-- A worker that takes as many items as it gives up wakeups keeps the law, if it does not park. -/
theorem NoLostWakeup.update (wakeups : st.NoLostWakeup) (moved : t.consumers = Function.update st.consumers i point)
    (awake : point.unnotified = false)
    (balance : t.items.length + wakeupsOf (st.consumers i) ≤ st.items.length + wakeupsOf point) :
    t.NoLostWakeup := by
  intro j parked
  have elsewhere : (st.consumers j).unnotified = true := by
    rw [moved] at parked
    by_cases same : j = i
    · subst same
      rw [Function.update_self, awake] at parked
      cases parked
    · rwa [Function.update_of_ne same] at parked
  have before := wakeups j elsewhere
  have counted := notifiedCount_update moved
  omega

theorem takeFirst_oneByOne (one : st.OneByOne) : (st.takeFirst cfg i (.batch 1 0)).OneByOne := by
  refine ⟨takeFirst_lockIdle _ one.idle, ?_, ?_⟩
  · unfold takeFirst
    split
    · exact points_update one.points rfl rfl
    · exact points_update one.points rfl rfl
  · unfold takeFirst
    split
    · next empty =>
      intro j parked
      show st.items.length ≤ _
      rw [popNextLocked_eq_none_iff.mp empty]
      exact Nat.zero_le _
    · next queued rest found =>
      refine one.wakeups.update rfl rfl ?_
      have popped := (popNextLocked_perm found).length_eq
      have atMostOne := wakeupsOf_le (st.consumers i)
      rw [List.length_cons] at popped
      show rest.length + _ ≤ st.items.length + 0
      omega

theorem append_oneByOne {item : ScheduledRequest} {wakes : Option (Fin n)} (one : st.OneByOne)
    (taken : st.append cfg item wakes = some t) : t.OneByOne := by
  have idle := append_lockIdle one.idle taken
  unfold append at taken
  split at taken
  · next allowed =>
    cases taken
    cases wakes with
    | none =>
      refine ⟨idle, one.points, fun j parked => ?_⟩
      have awake : (st.consumers j).unnotified = false := allowed j
      exact absurd parked (by simp [notify, awake])
    | some i =>
      -- The item and the wakeup it sends balance.
      have point := (one.points i).parked allowed
      have moved : (st.consumers i).notify = .first (.batch 1 0) (.parked true) := by
        rw [point]
        rfl
      have none : wakeupsOf (st.consumers i) = 0 := by
        rw [point]
        rfl
      refine ⟨idle, points_update one.points rfl (by rw [moved]; rfl),
        one.wakeups.update rfl (by rw [moved]; rfl) ?_⟩
      rw [none, moved]
      show (st.items ++ [_]).length ≤ _
      rw [List.length_append]
      exact le_refl _
  · cases taken

theorem submit_oneByOne {item : ScheduledRequest} {wakes : Option (Fin n)} (one : st.OneByOne)
    (suspended : st.running = none) (taken : st.submit cfg item wakes = some t) : t.OneByOne := by
  have free := one.idle.lockFree suspended
  have ticked : ({ st with ticks := st.ticks + 1 } : PriorityState n).OneByOne :=
    ⟨one.idle.tick, one.points, one.wakeups⟩
  unfold submit at taken
  dsimp only at taken
  split at taken
  · exact append_oneByOne ticked taken
  · next busy => exact absurd free busy

theorem call_oneByOne {call : Call} (worker : call = .batch 1 0) (one : st.OneByOne)
    (suspended : st.running = none) (taken : st.call cfg i call = some t) : t.OneByOne := by
  subst worker
  unfold PriorityState.call at taken
  split at taken
  · split at taken
    · cases taken
      exact takeFirst_oneByOne one
    · next busy => exact absurd (one.idle.lockFree suspended) busy
  · cases taken

theorem OneByOne.not_more (one : st.OneByOne) {batch : PartialBatch} {point : MorePoint} :
    st.consumers i ≠ .more batch point := by
  intro more
  have dispatches := one.points i
  rw [more] at dispatches
  cases dispatches

theorem wake_oneByOne (one : st.OneByOne) (suspended : st.running = none)
    (taken : st.wake cfg i = some t) : t.OneByOne := by
  have dispatches := one.points i
  unfold wake at taken
  split at taken
  · next call parked =>
    rw [parked] at dispatches
    have worker : call = .batch 1 0 := dispatches
    subst worker
    split at taken
    · cases taken
      exact takeFirst_oneByOne one
    · next busy => exact absurd (one.idle.lockFree suspended) busy
  · cases taken
  · next more => exact absurd more one.not_more
  · cases taken

theorem expire_oneByOne (one : st.OneByOne) : st.expire i = none := by
  unfold expire
  split
  · rfl
  · next more => exact absurd more one.not_more
  · next more => exact absurd more one.not_more
  · rfl

theorem collect_oneByOne (one : st.OneByOne) (taken : st.collect cfg i = some t) : t.OneByOne := by
  have dispatches := one.points i
  unfold collect at taken
  split at taken
  · next batch collecting =>
    rw [collecting] at dispatches
    have full : ¬ (batch.items.length : Int) < batch.maxBatchSize := by
      have sized := batch.sized.1
      have bound : batch.maxBatchSize = 1 := dispatches
      omega
    split at taken
    · next room => exact absurd room full
    · cases taken
      refine ⟨finish_lockIdle batch one.idle, points_update one.points rfl True.intro,
        one.wakeups.update rfl rfl ?_⟩
      rw [collecting]
      exact le_refl _
  · cases taken

theorem step_oneByOne {action : SchedulerAction n} (worker : action.CallsWith 1 0) (one : st.OneByOne)
    (taken : st.step cfg action = some t) : t.OneByOne := by
  rcases step_cases taken with ⟨suspended, moved⟩ | ⟨i, -, -, moved⟩
  · cases action with
    | submit item wakes => exact submit_oneByOne one suspended moved
    | call i call => exact call_oneByOne worker one suspended moved
    | grant wakes => simp [eventStep, grant, one.idle.waiters] at moved
    | wake i => exact wake_oneByOne one suspended moved
    | expire i => simp [eventStep, expire_oneByOne one] at moved
    | startWait i => simp [eventStep, one.idle.startWait_none] at moved
    | resume i => simp [eventStep, one.idle.resume_none] at moved
    | collect i => cases moved
  · exact collect_oneByOne one moved

end SingleDispatch

theorem run_noLostWakeup {n : Nat} {maxBatchSize batchTimeoutMs : Int} {acts : List (SchedulerAction n)}
    {st : PriorityState n} (shape : n = 1 ∨ 0 < n ∧ maxBatchSize = 1 ∧ batchTimeoutMs = 0)
    (worker : ∀ action ∈ acts, action.CallsWith maxBatchSize batchTimeoutMs)
    (run : exec (step cfg) {} acts = some st) : st.NoLostWakeup := by
  rcases shape with rfl | ⟨-, rfl, rfl⟩
  · have start : ({} : PriorityState 1).Settled := True.intro
    have settled : st.Settled :=
      exec_invariant (fun _ _ _ settled _ taken => step_settled settled taken) start worker run
    exact settled.noLostWakeup
  · have start : ({} : PriorityState n).OneByOne := ⟨lockIdle_init, fun _ => True.intro, nofun⟩
    have one : st.OneByOne :=
      exec_invariant (fun _ _ _ one allowed taken => step_oneByOne allowed one taken) start worker run
    exact one.wakeups

/-- Under the layouts the runtime builds, no wakeup is lost: while some worker is parked un-notified, no more
    requests are queued than notified workers are still to resume; with all of them parked so, none is. -/
theorem no_lost_wakeup (cfg : SchedulerConfig) (layout : WorkerLayout)
    {acts : List (SchedulerAction layout.workers)} {st : PriorityState layout.workers}
    (worker : ∀ action ∈ acts, action.CallsWith layout.maxBatchSize layout.batchTimeoutMs)
    (run : exec (step cfg) {} acts = some st) :
    st.NoLostWakeup ∧ ((∀ i, (st.consumers i).unnotified = true) → st.items = []) := by
  have wakeups := run_noLostWakeup layout.shape worker run
  refine ⟨wakeups, fun parked => ?_⟩
  have nobody : st.notifiedCount = 0 := by
    refine Finset.card_eq_zero.mpr (Finset.filter_eq_empty_iff.mpr fun i _ => ?_)
    rw [ConsumerPoint.not_notified_of_unnotified (parked i)]
    exact Bool.false_ne_true
  have bound := wakeups ⟨0, layout.workers_pos⟩ (parked _)
  rw [nobody] at bound
  exact List.eq_nil_of_length_eq_zero (Nat.le_zero.mp bound)

theorem no_lost_wakeup_native :
    let layout := RuntimeServices.workerLayout { nativeBackendConcurrency := 2 } { nativeBatching := true }
    ∃ st : PriorityState layout.workers,
      exec (step (.ticking .py311)) {}
        [.call ⟨0, layout.workers_pos⟩ (.batch 1 0), .call ⟨1, by decide⟩ (.batch 1 0),
          .submit (.ofBody { messages := [] } "a" 0) (some ⟨0, layout.workers_pos⟩)] = some st ∧
      st.items.length = 1 ∧ st.NoLostWakeup := by
  intro layout
  have done : (exec (step (.ticking .py311)) ({} : PriorityState layout.workers)
      [.call ⟨0, layout.workers_pos⟩ (.batch 1 0), .call ⟨1, by decide⟩ (.batch 1 0),
        .submit (.ofBody { messages := [] } "a" 0) (some ⟨0, layout.workers_pos⟩)]).map (·.items.length) =
      some 1 := by
    decide +kernel
  obtain ⟨st, run, length⟩ := Option.map_eq_some_iff.mp done
  refine ⟨st, run, length, (no_lost_wakeup _ layout ?_ run).1⟩
  intro action member
  simp only [List.mem_cons, List.not_mem_nil, or_false] at member
  rcases member with rfl | rfl | rfl
  · rfl
  · rfl
  · exact True.intro

end PriorityState

end LLMRuntime
