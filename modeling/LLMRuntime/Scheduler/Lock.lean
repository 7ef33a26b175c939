import LLMRuntime.Scheduler.PrioritySystem

namespace LLMRuntime

/-- Neither in the lock's queue nor suspended with the lock held. -/
def ConsumerPoint.ClearOfLock : ConsumerPoint → Prop
  | .first _ (.parked _) => True
  | .first _ _ => False
  | .more _ (.parked _) => True
  | .more _ _ => False
  | _ => True

namespace PriorityState

variable {n : Nat} {cfg : SchedulerConfig} {st t : PriorityState n} {i : Fin n} {point : ConsumerPoint}

theorem points_update {P : ConsumerPoint → Prop} (points : ∀ j, P (st.consumers j))
    (moved : t.consumers = Function.update st.consumers i point) (one : P point) (j : Fin n) :
    P (t.consumers j) := by
  rw [moved]
  by_cases same : j = i
  · subst same
    rwa [Function.update_self]
  · rw [Function.update_of_ne same]
    exact points j

/-- The lock is held only while a consumer runs, so nobody waits for it. -/
structure LockIdle (st : PriorityState n) : Prop where
  unlocked : st.running = none → st.locked = false
  waiters : st.lockWaiters = []
  points : ∀ i, (st.consumers i).ClearOfLock

theorem lockIdle_init : ({} : PriorityState n).LockIdle := ⟨fun _ => rfl, rfl, fun _ => True.intro⟩

theorem LockIdle.tick (idle : st.LockIdle) : ({ st with ticks := st.ticks + 1 } : PriorityState n).LockIdle :=
  ⟨idle.unlocked, idle.waiters, idle.points⟩

theorem LockIdle.lockFree (idle : st.LockIdle) (suspended : st.running = none) : st.lockFree = true := by
  simp [PriorityState.lockFree, idle.unlocked suspended, idle.waiters]

theorem ConsumerPoint.clearOfLock_notify (clear : point.ClearOfLock) : point.notify.ClearOfLock := by
  unfold ConsumerPoint.notify
  split
  · exact True.intro
  · exact True.intro
  · exact clear

theorem takeFirst_lockIdle (call : Call) (idle : st.LockIdle) : (st.takeFirst cfg i call).LockIdle := by
  obtain ⟨unlocked, waiters, points⟩ := idle
  unfold takeFirst
  split
  · exact ⟨fun _ => rfl, waiters, points_update points rfl True.intro⟩
  · cases call with
    | request => exact ⟨fun _ => rfl, waiters, points_update points rfl True.intro⟩
    | batch maxBatchSize batchTimeoutMs => exact ⟨nofun, waiters, points_update points rfl True.intro⟩

theorem finish_lockIdle (batch : PartialBatch) (idle : st.LockIdle) : (st.finish cfg i batch).LockIdle :=
  ⟨fun _ => rfl, idle.waiters, points_update idle.points rfl True.intro⟩

theorem continueBatch_lockIdle (batch : PartialBatch) (expired : Bool) (idle : st.LockIdle) :
    (st.continueBatch cfg i batch expired).LockIdle := by
  unfold continueBatch
  split
  · exact finish_lockIdle batch idle
  · exact ⟨nofun, idle.waiters, points_update idle.points rfl True.intro⟩

theorem append_lockIdle {item : ScheduledRequest} {wakes : Option (Fin n)} (idle : st.LockIdle)
    (taken : st.append cfg item wakes = some t) : t.LockIdle := by
  obtain ⟨unlocked, waiters, points⟩ := idle
  unfold append at taken
  split at taken
  · cases taken
    cases wakes with
    | none => exact ⟨unlocked, waiters, points⟩
    | some i => exact ⟨unlocked, waiters, points_update points rfl (ConsumerPoint.clearOfLock_notify (points i))⟩
  · cases taken

theorem submit_lockIdle {item : ScheduledRequest} {wakes : Option (Fin n)} (idle : st.LockIdle)
    (suspended : st.running = none) (taken : st.submit cfg item wakes = some t) : t.LockIdle := by
  have free := idle.lockFree suspended
  unfold submit at taken
  dsimp only at taken
  split at taken
  · exact append_lockIdle idle.tick taken
  · next busy => exact absurd free busy

theorem call_lockIdle {call : Call} (idle : st.LockIdle) (suspended : st.running = none)
    (taken : st.call cfg i call = some t) : t.LockIdle := by
  unfold PriorityState.call at taken
  split at taken
  · split at taken
    · cases taken
      exact takeFirst_lockIdle call idle
    · next busy => exact absurd (idle.lockFree suspended) busy
  · cases taken

theorem expire_lockIdle (idle : st.LockIdle) (taken : st.expire i = some t) : t.LockIdle := by
  have clear := idle.points i
  unfold expire at taken
  split at taken
  · cases taken
  · cases taken
    exact ⟨idle.unlocked, idle.waiters, points_update idle.points rfl True.intro⟩
  · next batch reacquiring =>
    rw [reacquiring] at clear
    cases clear
  · cases taken

theorem LockIdle.startWait_none (idle : st.LockIdle) : st.startWait i = none := by
  have clear := idle.points i
  unfold startWait
  split
  · next batch spawned =>
    rw [spawned] at clear
    cases clear
  · rfl

theorem LockIdle.resume_none (idle : st.LockIdle) : st.resume cfg i = none := by
  have clear := idle.points i
  unfold resume
  split
  · next batch expired handedBack =>
    rw [handedBack] at clear
    cases clear
  · rfl

section Inline

variable (inline : cfg.version = .py312)

include inline

theorem rejoin_lockIdle (batch : PartialBatch) (expired : Bool) (idle : st.LockIdle) :
    (st.rejoin cfg i batch expired).LockIdle := by
  unfold rejoin
  rw [inline]
  exact continueBatch_lockIdle batch expired idle

theorem wake_lockIdle (idle : st.LockIdle) (suspended : st.running = none)
    (taken : st.wake cfg i = some t) : t.LockIdle := by
  unfold wake at taken
  split at taken
  · split at taken
    · cases taken
      exact takeFirst_lockIdle _ idle
    · next busy => exact absurd (idle.lockFree suspended) busy
  · cases taken
  · dsimp only at taken
    split at taken
    · cases taken
      exact rejoin_lockIdle inline _ _ idle
    · next busy => exact absurd (idle.lockFree suspended) busy
  · cases taken

theorem collect_lockIdle (idle : st.LockIdle) (taken : st.collect cfg i = some t) : t.LockIdle := by
  unfold collect at taken
  split at taken
  · next batch collecting =>
    split at taken
    · split at taken
      · cases taken
        exact ⟨idle.unlocked, idle.waiters, points_update idle.points rfl True.intro⟩
      · split at taken
        · cases taken
          exact finish_lockIdle batch idle
        · dsimp only at taken
          split at taken
          · cases taken
            exact finish_lockIdle batch idle.tick
          · cases taken
            unfold waitForMore
            rw [inline]
            exact ⟨fun _ => rfl, idle.waiters, points_update idle.points rfl True.intro⟩
    · cases taken
      exact finish_lockIdle batch idle
  · cases taken

theorem step_lockIdle {action : SchedulerAction n} (idle : st.LockIdle)
    (taken : st.step cfg action = some t) : t.LockIdle := by
  rcases step_cases taken with ⟨suspended, moved⟩ | ⟨i, -, -, moved⟩
  · cases action with
    | submit item wakes => exact submit_lockIdle idle suspended moved
    | call i call => exact call_lockIdle idle suspended moved
    | grant wakes => simp [eventStep, grant, idle.waiters] at moved
    | wake i => exact wake_lockIdle inline idle suspended moved
    | expire i => exact expire_lockIdle idle moved
    | startWait i => simp [eventStep, idle.startWait_none] at moved
    | resume i => simp [eventStep, idle.resume_none] at moved
    | collect i => cases moved
  · exact collect_lockIdle inline idle moved

end Inline

end PriorityState

end LLMRuntime
