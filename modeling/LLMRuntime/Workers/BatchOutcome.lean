import Mathlib.Data.List.Induction
import LLMRuntime.Workers.BatchRefinement
import LLMRuntime.Workers.Fate

namespace LLMRuntime

open Transition

section ItemsById

variable {active : List ScheduledRequest} {id : String}

theorem itemsById_snoc (active : List ScheduledRequest) (item : ScheduledRequest) :
    itemsById (active ++ [item]) =
      Function.update (itemsById active) item.request.requestId (some item) := by
  simp [itemsById]

theorem mem_of_itemsById {item : ScheduledRequest} (found : itemsById active id = some item) :
    item ∈ active ∧ item.request.requestId = id := by
  induction active using List.reverseRecOn with
  | nil => simp [itemsById] at found
  | append_singleton active last ih =>
    rw [itemsById_snoc] at found
    by_cases same : id = last.request.requestId
    · subst same
      rw [Function.update_self] at found
      cases found
      simp
    · rw [Function.update_of_ne same] at found
      obtain ⟨member, named⟩ := ih found
      exact ⟨List.mem_append_left _ member, named⟩

theorem itemsById_none_iff :
    itemsById active id = none ↔ id ∉ active.map fun item => item.request.requestId := by
  induction active using List.reverseRecOn with
  | nil => simp [itemsById]
  | append_singleton active last ih =>
    rw [itemsById_snoc, List.map_append, List.mem_append, not_or, ← ih]
    by_cases same : id = last.request.requestId
    · subst same
      simp
    · simp [same]

theorem itemsById_of_mem (distinct : (active.map fun item => item.request.requestId).Nodup)
    {item : ScheduledRequest} (member : item ∈ active) :
    itemsById active item.request.requestId = some item := by
  cases found : itemsById active item.request.requestId with
  | none => exact absurd (List.mem_map_of_mem member) (itemsById_none_iff.mp found)
  | some other =>
    obtain ⟨present, named⟩ := mem_of_itemsById found
    rw [List.inj_on_of_nodup_map distinct present member named]

end ItemsById

open BatchState

def startViews (batch : List ScheduledRequest) (id : String) : Option ItemView :=
  (itemsById (activeItems batch) id).map fun item => { handle := item.handle }

def finalViews (batch : List ScheduledRequest) (actions : List BatchAction) (ending : Ending) (id : String) :
    Option ItemView :=
  (itemsById (activeItems batch) id).map fun item => ItemView.alone item actions ending

section Batch

variable (clock : Clock) {iter : List String → List String} {batch : List ScheduledRequest}

theorem startViews_phases (fresh : ∀ item ∈ batch, item.handle.Fresh) : AllPhases (startViews batch) := by
  intro id v found
  obtain ⟨item, present, rfl⟩ := Option.map_eq_some_iff.mp found
  have member := (mem_of_itemsById present).1
  exact ItemView.Phase.of_fresh (fresh item (List.mem_of_mem_filter member))

theorem finalViews_eq (batch : List ScheduledRequest) (actions : List BatchAction) (ending : Ending) :
    (fun id => (actions.foldl viewsAfter (startViews batch) id).map fun v => v.finish id ending) =
      finalViews batch actions ending := by
  funext id
  rw [foldl_productStep, startViews, finalViews]
  cases found : itemsById (activeItems batch) id with
  | none => rfl
  | some item =>
    obtain ⟨-, rfl⟩ := mem_of_itemsById found
    rfl

theorem refines_start (batch : List ScheduledRequest) {prior s : Services}
    (terminal : s.terminal = prior.terminal) (errors : s.invalidStateErrors = prior.invalidStateErrors) :
    Refines prior
      { services := s, items := itemsById (activeItems batch), tokens := fun _ => []
        pending := ((activeItems batch).map fun item => item.request.requestId).dedup }
      (startViews batch) := by
  have sameRecords : ∀ id, s.recordsOf id = prior.recordsOf id := by
    intro id
    rw [Services.recordsOf, Services.recordsOf, terminal]
  refine ⟨errors, List.nodup_dedup _, fun id => ?_, fun id _ => sameRecords id⟩
  cases found : itemsById (activeItems batch) id with
  | none =>
    have absent := itemsById_none_iff.mp found
    exact .inr ⟨found, by simp [startViews, found], by simpa using absent⟩
  | some item =>
    obtain ⟨member, named⟩ := mem_of_itemsById found
    refine .inl ⟨item, { handle := item.handle }, found, by simp [startViews, found], ?_⟩
    refine ⟨named, rfl, rfl, by simp [sameRecords], ?_⟩
    simp only [List.mem_dedup, iff_true]
    exact named ▸ List.mem_map_of_mem member

/-- The whole batch is the product of its items' machines, and `_execute_batch` raises nothing. -/
theorem executeBatch_refines (anyOrder : ∀ ids, (iter ids).Perm ids) (s : Services)
    (fresh : ∀ item ∈ batch, item.handle.Fresh) (actions : List BatchAction) (ending : Ending) :
    (executeBatch clock iter s batch actions ending).raised = none ∧
      (executeBatch clock iter s batch actions ending).state.Refines s (finalViews batch actions ending) := by
  by_cases nobody : (activeItems batch).isEmpty
  · have noItems : activeItems batch = [] := List.isEmpty_iff.mp nobody
    have unchanged : finalViews batch actions ending = startViews batch := by
      funext id
      simp [finalViews, startViews, noItems, itemsById]
    rw [unchanged]
    simp only [executeBatch, nobody, if_true]
    exact ⟨True.intro, refines_start batch rfl rfl⟩
  · obtain ⟨last, ran, refined, phased⟩ := (refines_start batch
      (s.perfCounter_terminal clock) (s.perfCounter_invalidStateErrors clock)).runActions clock
      (s.perfCounter clock).1 (startViews_phases fresh) actions
    rw [← finalViews_eq]
    cases ending with
    | normal =>
      obtain ⟨next, swept, finished⟩ := refined.sweepAll .normal
        (fun t item tokens sent isOpen =>
          completeItem_open clock t item tokens sent (s.perfCounter clock).1 isOpen)
        phased (iter last.pending) (anyOrder _)
      have result : executeBatch clock iter s batch actions .normal =
          { state := next, passed := some ((activeItems batch).map (·.request)), raised := none } := by
        simp [executeBatch, nobody, ran, swept]
      rw [result]
      exact ⟨rfl, finished⟩
    | raised exc =>
      obtain ⟨next, swept, finished⟩ := refined.sweepAll (.raised exc)
        (fun t item tokens sent isOpen => failItem_open clock t item exc sent isOpen)
        phased (iter last.pending) (anyOrder _)
      have result : executeBatch clock iter s batch actions (.raised exc) =
          { state := next, passed := some ((activeItems batch).map (·.request)), raised := none } := by
        simp [executeBatch, nobody, ran, swept]
      rw [result]
      exact ⟨rfl, finished⟩

theorem executeBatch_item (anyOrder : ∀ ids, (iter ids).Perm ids) (s : Services)
    (distinct : (batch.map fun item => item.request.requestId).Nodup)
    (fresh : ∀ item ∈ batch, item.handle.Fresh) (actions : List BatchAction) (ending : Ending)
    {item : ScheduledRequest} (member : item ∈ batch) :
    ((executeBatch clock iter s batch actions ending).item item).handle =
        (ItemView.alone item actions ending).handle ∧
      (executeBatch clock iter s batch actions ending).state.services.recordsOf item.request.requestId =
        s.recordsOf item.request.requestId ++ (ItemView.alone item actions ending).records := by
  obtain ⟨-, refines⟩ := executeBatch_refines clock anyOrder s fresh actions ending
  cases flag : item.cancelled with
  | false =>
    have active : item ∈ activeItems batch := by simp [activeItems, member, flag]
    have distinctActive : ((activeItems batch).map fun item => item.request.requestId).Nodup :=
      distinct.sublist (List.filter_sublist.map _)
    have viewed : finalViews batch actions ending item.request.requestId =
        some (ItemView.alone item actions ending) := by
      rw [finalViews, itemsById_of_mem distinctActive active, Option.map_some]
    obtain ⟨left, present, tracks⟩ := refines.lookup viewed
    rw [BatchResult.item, present]
    exact ⟨tracks.handle, tracks.records⟩
  | true =>
    have withdrawn : item.handle.Withdrawn := by
      rcases fresh item member with isOpen | withdrawn
      · have live := isOpen.not_cancelled
        rw [← ScheduledRequest.cancelled, flag] at live
        contradiction
      · exact withdrawn
    obtain ⟨sameHandle, noRecords⟩ := ItemView.alone_withdrawn withdrawn actions ending
    have absent : finalViews batch actions ending item.request.requestId = none := by
      rw [finalViews, Option.map_eq_none_iff, itemsById_none_iff]
      intro inside
      obtain ⟨other, active, named⟩ := List.mem_map.mp inside
      have same := List.inj_on_of_nodup_map distinct (List.mem_of_mem_filter active) member named
      rw [same] at active
      simp [activeItems, flag] at active
    rcases refines.each item.request.requestId with ⟨-, v, -, viewed, -⟩ | ⟨missing, -, -⟩
    · rw [viewed] at absent
      contradiction
    · rw [BatchResult.item, missing, refines.others _ missing, sameHandle, noRecords]
      simp

theorem executeBatch_passed (iter : List String → List String) (s : Services) (batch : List ScheduledRequest)
    (actions : List BatchAction) (ending : Ending) {passed : List RuntimeRequest}
    (called : (executeBatch clock iter s batch actions ending).passed = some passed) :
    passed = (activeItems batch).map (·.request) := by
  by_cases nobody : (activeItems batch).isEmpty
  · simp only [executeBatch, nobody, if_true] at called
    cases called
  · simp only [executeBatch, if_neg nobody] at called
    split at called
    all_goals exact (Option.some.inj called).symm

/-- `_execute_batch` returns, and every item ends settled with one record or withdrawn with none. -/
theorem executeBatch_one_outcome (anyOrder : ∀ ids, (iter ids).Perm ids) (s : Services)
    (distinct : (batch.map fun item => item.request.requestId).Nodup)
    (fresh : ∀ item ∈ batch, item.handle.Fresh) (actions : List BatchAction) (ending : Ending) :
    let r := executeBatch clock iter s batch actions ending
    r.raised = none ∧ r.state.services.invalidStateErrors = s.invalidStateErrors ∧
      ∀ item ∈ batch,
        let requestId := item.request.requestId
        let early := item.cancelled = true ∨ CancelledFirst requestId actions
        ((r.item item).cancelled = false → ∃ o, (r.item item).handle.Settled o ∧
          r.state.services.recordsOf requestId = s.recordsOf requestId ++ [o]) ∧
        (¬ early → ∃ o, (r.item item).handle.Settled o ∧
          r.state.services.recordsOf requestId = s.recordsOf requestId ++ [o]) ∧
        (early → (r.item item).handle.Withdrawn ∧
          r.state.services.recordsOf requestId = s.recordsOf requestId) ∧
        (item.cancelled = true → ∀ passed, r.passed = some passed →
          requestId ∉ passed.map fun request => request.requestId) := by
  intro r
  obtain ⟨raised, refines⟩ := executeBatch_refines clock anyOrder s fresh actions ending
  refine ⟨raised, refines.errors, fun item member => ?_⟩
  intro requestId early
  obtain ⟨sameHandle, sameRecords⟩ := executeBatch_item clock anyOrder s distinct fresh actions ending member
  obtain ⟨verdict, -⟩ := ItemView.alone_verdict (fresh item member) actions ending
  have earlyIff : early ↔ (ItemView.alone item actions ending).handle.verdict = none := by
    rw [verdict]
    cases flag : item.cancelled with
    | true => simp [early, flag]
    | false => simp [early, flag, fate_eq_none_iff, requestId]
  have settled : ¬ early → ∃ o, (r.item item).handle.Settled o ∧
      r.state.services.recordsOf requestId = s.recordsOf requestId ++ [o] := by
    intro late
    rcases ItemView.alone_ends (fresh item member) actions ending with ⟨o, settled, recorded⟩ | ⟨withdrawn, -⟩
    · exact ⟨o, sameHandle ▸ settled, by rw [sameRecords, recorded]⟩
    · exact absurd (earlyIff.mpr withdrawn.verdict) late
  have withdrawn : early → (r.item item).handle.Withdrawn ∧
      r.state.services.recordsOf requestId = s.recordsOf requestId := by
    intro isEarly
    rcases ItemView.alone_ends (fresh item member) actions ending with ⟨o, settled, -⟩ | ⟨withdrawn, recorded⟩
    · exact absurd (earlyIff.mp isEarly) settled.verdict
    · exact ⟨sameHandle ▸ withdrawn, by rw [sameRecords, recorded, List.append_nil]⟩
  refine ⟨fun live => settled fun isEarly => ?_, settled, withdrawn, fun flag passed called inside => ?_⟩
  · have flag := (withdrawn isEarly).1.cancelled
    rw [← ScheduledRequest.cancelled, live] at flag
    contradiction
  · rw [executeBatch_passed clock iter s batch actions ending called, List.map_map] at inside
    obtain ⟨other, active, named⟩ := List.mem_map.mp inside
    have same := List.inj_on_of_nodup_map distinct (List.mem_of_mem_filter active) member named
    rw [same] at active
    simp [activeItems, flag] at active

theorem executeBatch_one_outcome_pair :
    let plain := ScheduledRequest.ofBody { messages := [] } "plain" 0
    let streamed := ScheduledRequest.ofBody { messages := [], stream := true } "streamed" 0
    let r := executeBatch ⟨fun _ => 0, monotone_const⟩ id {} [plain, streamed]
      [.event (.token "streamed" "x"), .cancel "streamed", .event (.completed "plain"),
        .event (.completed "streamed")] (.raised (.other "RuntimeError" "lost"))
    r.raised = none ∧ (∃ o, (r.item plain).handle.Settled o ∧ r.state.services.recordsOf "plain" = [o]) ∧
      (r.item streamed).handle.Withdrawn ∧ r.state.services.recordsOf "streamed" = [] := by
  intro plain streamed r
  obtain ⟨raised, -, each⟩ := @executeBatch_one_outcome ⟨fun _ => 0, monotone_const⟩ id [plain, streamed]
    (fun ids => List.Perm.refl ids) {} (by decide)
    (by
      intro item member
      rcases List.mem_pair.mp member with rfl | rfl
      · exact .inl rfl
      · exact .inl rfl)
    [.event (.token "streamed" "x"), .cancel "streamed", .event (.completed "plain"),
      .event (.completed "streamed")] (.raised (.other "RuntimeError" "lost"))
  obtain ⟨-, settled, -, -⟩ := each plain (by simp)
  obtain ⟨-, -, withdrawn, -⟩ := each streamed (by simp)
  refine ⟨raised, ?_, ?_⟩
  · exact settled (by
      rintro (flag | ⟨before, after, split, -⟩)
      · cases flag
      · have member : BatchAction.cancel "plain" ∈ before ++ .cancel "plain" :: after := by simp
        rw [show plain.request.requestId = "plain" from rfl] at split
        rw [← split] at member
        simp at member)
  · exact withdrawn (.inr ⟨[.event (.token "streamed" "x")], _, rfl, by decide⟩)

end Batch

end LLMRuntime
