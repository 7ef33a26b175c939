import LLMRuntime.Foundation.Transition
import LLMRuntime.Workers.ItemMachine

namespace LLMRuntime

open Transition

/-- Item `item` of the batch state is the local machine `v`; its records come after those of `prior`. -/
structure BatchState.Tracks (prior : Services) (st : BatchState) (id : String) (item : ScheduledRequest)
    (v : ItemView) : Prop where
  requestId : item.request.requestId = id
  handle : item.handle = v.handle
  tokens : st.tokens id = v.tokens
  records : st.services.recordsOf id = prior.recordsOf id ++ v.records
  pending : id ∈ st.pending ↔ v.pending = true

/-- The batch is the product of one local machine per active item, and no future was ever set twice. -/
structure BatchState.Refines (prior : Services) (st : BatchState) (views : String → Option ItemView) :
    Prop where
  errors : st.services.invalidStateErrors = prior.invalidStateErrors
  nodup : st.pending.Nodup
  each : ∀ id, (∃ item v, st.items id = some item ∧ views id = some v ∧ st.Tracks prior id item v) ∨
    (st.items id = none ∧ views id = none ∧ id ∉ st.pending)
  others : ∀ id, st.items id = none → st.services.recordsOf id = prior.recordsOf id

namespace BatchState

variable {prior : Services} {st : BatchState} {views : String → Option ItemView}

theorem Refines.lookup (refines : st.Refines prior views) {id : String} {v : ItemView}
    (found : views id = some v) : ∃ item, st.items id = some item ∧ st.Tracks prior id item v := by
  rcases refines.each id with ⟨item, w, present, same, tracks⟩ | ⟨-, absent, -⟩
  · cases found.symm.trans same
    exact ⟨item, present, tracks⟩
  · cases found.symm.trans absent

theorem Refines.view_of_pending (refines : st.Refines prior views) {id : String} (pending : id ∈ st.pending) :
    ∃ v, views id = some v ∧ v.pending = true := by
  rcases refines.each id with ⟨item, v, -, found, tracks⟩ | ⟨-, -, absent⟩
  · exact ⟨v, found, tracks.pending.mp pending⟩
  · exact absurd pending absent

theorem Refines.setItem (refines : st.Refines prior views) {id : String} {item : ScheduledRequest}
    {v : ItemView} (found : st.items id = some item) (viewed : views id = some v)
    {r : ItemResult} {handle : ResponseHandle} {records : List Outcome}
    (leaves : r.Leaves st.services item handle records) (tokens : List String) :
    (({ st with tokens := Function.update st.tokens id tokens }).setItem id r).Refines prior
      (Function.update views id (some { v with handle, tokens, records := v.records ++ records })) := by
  obtain ⟨present, has, tracks⟩ := refines.lookup viewed
  cases found.symm.trans has
  have recordsAt := leaves.recorded.recordsOf
  rw [tracks.requestId] at recordsAt
  refine ⟨leaves.errors.trans refines.errors, refines.nodup, fun other => ?_, fun other absent => ?_⟩
  · by_cases same : other = id
    · subst same
      refine .inl ⟨r.item, { v with handle, tokens, records := v.records ++ records }, ?_, ?_, ?_⟩
      · simp [BatchState.setItem]
      · simp
      · exact ⟨leaves.requestId.trans tracks.requestId, leaves.handle, by simp [BatchState.setItem],
          by simp [BatchState.setItem, recordsAt, tracks.records], by
            simpa [BatchState.setItem] using tracks.pending⟩
    · rcases refines.each other with ⟨item', v', present', viewed', tracks'⟩ | ⟨absent, missing, out⟩
      · refine .inl ⟨item', v', ?_, ?_, ?_⟩
        · simpa [BatchState.setItem, Function.update_of_ne same] using present'
        · simpa [Function.update_of_ne same] using viewed'
        · refine ⟨tracks'.requestId, tracks'.handle, ?_, ?_, tracks'.pending⟩
          · simpa [BatchState.setItem, Function.update_of_ne same] using tracks'.tokens
          · simpa [BatchState.setItem, recordsAt, same] using tracks'.records
      · refine .inr ⟨?_, ?_, out⟩
        · simpa [BatchState.setItem, Function.update_of_ne same] using absent
        · simpa [Function.update_of_ne same] using missing
  · have different : other ≠ id := by
      intro same
      subst same
      simp [BatchState.setItem] at absent
    simp only [BatchState.setItem, Function.update_of_ne different] at absent ⊢
    simpa [recordsAt, different] using refines.others other absent

theorem Refines.discard (refines : st.Refines prior views) {id : String} {v : ItemView}
    (viewed : views id = some v) :
    (st.discard id).Refines prior (Function.update views id (some { v with pending := false })) := by
  obtain ⟨item, present, tracks⟩ := refines.lookup viewed
  refine ⟨refines.errors, refines.nodup.filter _, fun other => ?_, refines.others⟩
  by_cases same : other = id
  · subst same
    refine .inl ⟨item, { v with pending := false }, present, by simp, ?_⟩
    exact ⟨tracks.requestId, tracks.handle, tracks.tokens, tracks.records, by simp [BatchState.discard]⟩
  · have kept : other ∈ (st.discard id).pending ↔ other ∈ st.pending := by
      simp [BatchState.discard, same]
    rcases refines.each other with ⟨item', v', present', viewed', tracks'⟩ | ⟨absent, missing, out⟩
    · refine .inl ⟨item', v', present', by simpa [Function.update_of_ne same] using viewed', ?_⟩
      exact ⟨tracks'.requestId, tracks'.handle, tracks'.tokens, tracks'.records, kept.trans tracks'.pending⟩
    · exact .inr ⟨absent, by simpa [Function.update_of_ne same] using missing, fun inside => out (kept.mp inside)⟩

abbrev viewsAfter (views : String → Option ItemView) (action : BatchAction) : String → Option ItemView :=
  productStep BatchAction.requestId (fun id v a => ItemView.step id v a) views action

def AllPhases (views : String → Option ItemView) : Prop := ∀ id v, views id = some v → v.Phase

theorem AllPhases.after (phases : AllPhases views) (action : BatchAction) :
    AllPhases (viewsAfter views action) := by
  intro id v found
  by_cases own : id = action.requestId
  · subst own
    simp only [viewsAfter, productStep, Function.update_self, Option.map_eq_some_iff] at found
    obtain ⟨w, before, rfl⟩ := found
    exact (phases _ w before).step action
  · simp only [viewsAfter, productStep, Function.update_of_ne own] at found
    exact phases id v found

theorem Refines.cancel (clock : Clock) (batchStart : ℚ) (refines : st.Refines prior views) (id : String) :
    ∃ next, st.act clock batchStart (.cancel id) = (next, none) ∧
      next.Refines prior (viewsAfter views (.cancel id)) := by
  refine ⟨_, rfl, ?_⟩
  rcases refines.each id with ⟨item, v, present, viewed, tracks⟩ | ⟨absent, missing, out⟩
  · have leaves : (ItemResult.mk item.cancel st.services none).Leaves st.services item v.handle.cancel [] :=
      ⟨rfl, congrArg ResponseHandle.cancel tracks.handle, rfl, by simp, rfl⟩
    have moved := refines.setItem present viewed leaves (st.tokens id)
    rw [Function.update_eq_self] at moved
    simpa [viewsAfter, productStep, BatchAction.requestId, ItemView.step, viewed, present,
      BatchState.setItem, tracks.tokens] using moved
  · have keepItems : Function.update st.items id none = st.items := by
      rw [← absent, Function.update_eq_self]
    have keepViews : Function.update views id none = views := by
      rw [← missing, Function.update_eq_self]
    simpa [viewsAfter, productStep, BatchAction.requestId, absent, missing, keepItems, keepViews] using refines

theorem Refines.eventOf (clock : Clock) (batchStart : ℚ) (refines : st.Refines prior views) (yielded : BatchEvent)
    (phase : ∀ v, views yielded.requestId = some v → v.pending = true → v.Phase) :
    ∃ next, st.act clock batchStart (.event yielded) = (next, none) ∧
      next.Refines prior (viewsAfter views (.event yielded)) := by
  have afterIs : viewsAfter views (.event yielded) = Function.update views yielded.requestId
      ((views yielded.requestId).map fun v => v.step yielded.requestId (.event yielded)) := rfl
  by_cases pending : yielded.requestId ∈ st.pending
  · obtain ⟨v, viewed, waiting⟩ := refines.view_of_pending pending
    obtain ⟨item, present, tracks⟩ := refines.lookup viewed
    have sameFlag : item.cancelled = v.handle.cancelled := congrArg ResponseHandle.cancelled tracks.handle
    cases live : v.handle.cancelled with
    | true =>
      refine ⟨st.discard yielded.requestId, ?_, ?_⟩
      · simp [act, handleEvent, pending, present, sameFlag, live]
      · have moved := refines.discard viewed
        simpa [afterIs, viewed, ItemView.step, waiting, live] using moved
    | false =>
      have isOpen := (phase v viewed waiting).open_of_live waiting live
      rw [← tracks.handle] at isOpen
      cases yielded with
      | token id token =>
        simp only [BatchEvent.requestId] at pending viewed present tracks afterIs
        have leaves := deliverToken_leaves clock st.services item token
        rw [tracks.handle] at leaves
        have moved := refines.setItem present viewed leaves (st.tokens id ++ [token])
        refine ⟨({ st with tokens := Function.update st.tokens id (st.tokens id ++ [token]) }).setItem id
          (deliverToken clock st.services item token), ?_, ?_⟩
        · simp [act, handleEvent, pending, present, sameFlag, live, BatchEvent.requestId]
        · simpa [afterIs, viewed, ItemView.step, ItemView.event, waiting, live, tracks.tokens] using moved
      | completed id =>
        simp only [BatchEvent.requestId] at pending viewed present tracks afterIs
        have leaves := completeItem_open clock st.services item (st.tokens id) v.tokens batchStart isOpen
        rw [tracks.handle, tracks.requestId] at leaves
        have moved := refines.setItem present viewed leaves (st.tokens id)
        rw [Function.update_eq_self] at moved
        have done := moved.discard (Function.update_self _ _ _)
        refine ⟨(st.setItem id (completeItem clock st.services item (st.tokens id) batchStart)).discard id,
          ?_, ?_⟩
        · simp [act, handleEvent, pending, present, sameFlag, live, leaves.raised, BatchEvent.requestId]
        · simpa [afterIs, viewed, ItemView.step, ItemView.event, waiting, live, tracks.tokens] using done
  · refine ⟨st, by simp [act, handleEvent, pending], ?_⟩
    have same : viewsAfter views (.event yielded) = views := by
      rw [afterIs]
      rcases refines.each yielded.requestId with ⟨item, v, present, viewed, tracks⟩ | ⟨-, missing, -⟩
      · have idle : v.pending = false := by
          have notPending := fun h => pending (tracks.pending.mpr h)
          simpa using notPending
        rw [viewed, Option.map_some, ItemView.step, if_pos idle, ← viewed, Function.update_eq_self]
      · rw [missing, Option.map_none, ← missing, Function.update_eq_self]
    rw [same]
    exact refines

theorem Refines.event (clock : Clock) (batchStart : ℚ) (refines : st.Refines prior views)
    (phases : AllPhases views) (yielded : BatchEvent) :
    ∃ next, st.act clock batchStart (.event yielded) = (next, none) ∧
      next.Refines prior (viewsAfter views (.event yielded)) :=
  refines.eventOf clock batchStart yielded fun v viewed _ => phases _ v viewed

/-- The event loop runs to its end without an exception of its own and refines the product run. -/
theorem Refines.runActions (clock : Clock) (batchStart : ℚ) (refines : st.Refines prior views)
    (phases : AllPhases views) (actions : List BatchAction) :
    ∃ next, st.runActions clock batchStart actions = (next, none) ∧
      next.Refines prior (actions.foldl viewsAfter views) ∧ AllPhases (actions.foldl viewsAfter views) := by
  induction actions generalizing st views with
  | nil => exact ⟨st, rfl, refines, phases⟩
  | cons action actions ih =>
    have taken : ∃ next, st.act clock batchStart action = (next, none) ∧
        next.Refines prior (viewsAfter views action) := by
      cases action with
      | event yielded => exact refines.event clock batchStart phases yielded
      | cancel id => exact refines.cancel clock batchStart id
    obtain ⟨next, acted, moved⟩ := taken
    obtain ⟨last, ran, refined, phased⟩ := ih moved (phases.after action)
    exact ⟨last, by simp [BatchState.runActions, acted, ran], refined, phased⟩

theorem Refines.sweep {finish : Services → ScheduledRequest → List String → ItemResult} (ending : Ending)
    (spec : ∀ s item tokens sent, item.handle.Open sent → (finish s item tokens).Leaves s item
      (item.handle.finish ending item.request.requestId tokens) [ending.outcome tokens])
    (refines : st.Refines prior views) (ids : List String) (nodup : ids.Nodup)
    (ready : ∀ id ∈ ids, ∃ v, views id = some v ∧ v.pending = true ∧ v.Phase) :
    ∃ next, st.sweep finish ids = (next, none) ∧ next.Refines prior
      fun id => if id ∈ ids then (views id).map fun v => v.finish id ending else views id := by
  induction ids generalizing st views with
  | nil => exact ⟨st, rfl, by simpa using refines⟩
  | cons id rest ih =>
    obtain ⟨fresh, nodupRest⟩ := List.nodup_cons.mp nodup
    obtain ⟨v, viewed, pending, phase⟩ := ready id (by simp)
    obtain ⟨item, present, tracks⟩ := refines.lookup viewed
    have sameFlag : item.cancelled = v.handle.cancelled := congrArg ResponseHandle.cancelled tracks.handle
    have regroup : ∀ after : String → Option ItemView, after id = some (v.finish id ending) →
        (∀ other, other ≠ id → after other = views other) →
        (fun other => if other ∈ rest then (after other).map fun v => v.finish other ending else after other) =
          fun other => if other ∈ id :: rest then (views other).map fun v => v.finish other ending
            else views other := by
      intro after own others
      funext other
      by_cases same : other = id
      · subst same
        simp [fresh, own, viewed]
      · simp [same, others other same]
    cases live : v.handle.cancelled with
    | true =>
      have unchanged : views id = some (v.finish id ending) := by
        simp [ItemView.finish, live, viewed]
      obtain ⟨next, swept, refined⟩ := ih refines nodupRest fun other member =>
        ready other (List.mem_cons_of_mem _ member)
      refine ⟨next, by simp [BatchState.sweep, present, sameFlag, live, swept], ?_⟩
      rw [← regroup views unchanged fun _ _ => rfl]
      exact refined
    | false =>
      have isOpen := phase.open_of_live pending live
      rw [← tracks.handle] at isOpen
      have leaves := spec st.services item (st.tokens id) v.tokens isOpen
      rw [tracks.handle, tracks.requestId] at leaves
      have moved := refines.setItem present viewed leaves (st.tokens id)
      rw [Function.update_eq_self] at moved
      obtain ⟨next, swept, refined⟩ := ih moved nodupRest (by
        intro other member
        have different : other ≠ id := fun same => fresh (same ▸ member)
        simpa [Function.update_of_ne different] using ready other (List.mem_cons_of_mem _ member))
      refine ⟨next, by simp [BatchState.sweep, present, sameFlag, live, leaves.raised, swept], ?_⟩
      let after := Function.update views id (some { v with
        handle := v.handle.finish ending id (st.tokens id)
        tokens := st.tokens id
        records := v.records ++ [ending.outcome (st.tokens id)] })
      have own : after id = some (v.finish id ending) := by
        simp [after, ItemView.finish, pending, live, tracks.tokens]
      rw [← regroup after own fun other different => Function.update_of_ne different _ _]
      exact refined

theorem Refines.sweepAll {finish : Services → ScheduledRequest → List String → ItemResult} (ending : Ending)
    (spec : ∀ s item tokens sent, item.handle.Open sent → (finish s item tokens).Leaves s item
      (item.handle.finish ending item.request.requestId tokens) [ending.outcome tokens])
    (refines : st.Refines prior views) (phases : AllPhases views) (ids : List String)
    (order : ids.Perm st.pending) :
    ∃ next, st.sweep finish ids = (next, none) ∧
      next.Refines prior fun id => (views id).map fun v => v.finish id ending := by
  obtain ⟨next, swept, refined⟩ := refines.sweep ending spec ids (order.nodup_iff.mpr refines.nodup) (by
    intro id member
    obtain ⟨v, viewed, pending⟩ := refines.view_of_pending (order.mem_iff.mp member)
    exact ⟨v, viewed, pending, phases id v viewed⟩)
  refine ⟨next, swept, ?_⟩
  have same : (fun id => if id ∈ ids then (views id).map fun v => v.finish id ending else views id) =
      fun id => (views id).map fun v => v.finish id ending := by
    funext id
    by_cases inside : id ∈ ids
    · simp [inside]
    · rcases refines.each id with ⟨item, v, -, viewed, tracks⟩ | ⟨-, missing, -⟩
      · have idle : v.pending = false := by
          have notPending := fun h => inside (order.mem_iff.mpr (tracks.pending.mpr h))
          simpa using notPending
        simp [inside, viewed, ItemView.finish, idle]
      · simp [missing]
  rw [← same]
  exact refined

end BatchState

end LLMRuntime
