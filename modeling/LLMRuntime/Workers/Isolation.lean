import Mathlib.Algebra.BigOperators.Group.Finset.Piecewise
import LLMRuntime.Api.Schemas
import LLMRuntime.Api.Streaming
import LLMRuntime.Workers.BatchOutcome

namespace LLMRuntime

section Tokens

def tokenFor (requestId : String) : BatchAction → Option String
  | .event (.token target token) => if target = requestId then some token else none
  | _ => none

def tokensUntilCompleted (requestId : String) (actions : List BatchAction) : List String :=
  (actions.takeWhile fun action => action ≠ .event (.completed requestId)).filterMap (tokenFor requestId)

theorem fate_success {requestId : String} {ending : Ending} {tokens delivered : List String}
    {actions : List BatchAction} (success : fate requestId ending tokens actions = some (.success delivered)) :
    delivered = tokens ++ tokensUntilCompleted requestId actions := by
  induction actions generalizing tokens with
  | nil =>
    cases ending with
    | normal =>
      cases success
      simp [tokensUntilCompleted]
    | raised exc => simp [fate, Ending.verdict] at success
  | cons action actions ih =>
    cases action with
    | cancel target =>
      rw [fate] at success
      split at success
      · cases success
      · simpa [tokensUntilCompleted, List.filterMap_cons, tokenFor] using ih success
    | event yielded =>
      cases yielded with
      | token target token =>
        have rest := ih success
        by_cases own : target = requestId
        · simpa [tokensUntilCompleted, tokenFor, own] using rest
        · simpa [tokensUntilCompleted, tokenFor, own] using rest
      | completed target =>
        rw [fate] at success
        split at success
        · next own =>
          cases success
          simp [tokensUntilCompleted, own]
        · next other => simpa [tokensUntilCompleted, List.filterMap_cons, tokenFor, other] using ih success

end Tokens

section Contributions

theorem tally_by_request (ids : Finset String) (terminal : List (String × Outcome))
    (known : ∀ record ∈ terminal, record.1 ∈ ids) :
    tally (terminal.map Prod.snd) =
      ∑ id ∈ ids, tally ((terminal.filter fun record => record.1 = id).map Prod.snd) := by
  induction terminal with
  | nil => simp
  | cons record terminal ih =>
    have rest := ih fun other member => known other (List.mem_cons_of_mem _ member)
    have split : ∀ id, tally (((record :: terminal).filter fun other => other.1 = id).map Prod.snd) =
        (if record.1 = id then record.2.worth else 0) +
          tally ((terminal.filter fun other => other.1 = id).map Prod.snd) := by
      intro id
      by_cases same : record.1 = id
      · simp [same, tally]
      · simp [same]
    rw [Finset.sum_congr rfl fun id _ => split id, Finset.sum_add_distrib, ← rest,
      Finset.sum_ite_eq, if_pos (known record (by simp))]
    simp [tally]

/-- What a run adds to the counters is the sum of what it adds for each request it records. -/
theorem settled_of_records {s t : Services} {ids : List String} (distinct : ids.Nodup)
    (others : ∀ id, id ∉ ids → t.recordsOf id = s.recordsOf id) :
    t.metrics.settled =
      s.metrics.settled + (ids.map fun id => tally (t.recordsOf id) - tally (s.recordsOf id)).sum := by
  let known : Finset String :=
    (s.terminal.map Prod.fst).toFinset ∪ (t.terminal.map Prod.fst).toFinset ∪ ids.toFinset
  have before := tally_by_request known s.terminal fun record member => by
    simp only [known, Finset.mem_union, List.mem_toFinset]
    exact .inl (.inl (List.mem_map_of_mem member))
  have after := tally_by_request known t.terminal fun record member => by
    simp only [known, Finset.mem_union, List.mem_toFinset]
    exact .inl (.inr (List.mem_map_of_mem member))
  have outside : ∀ id ∈ known, id ∉ ids.toFinset → tally (t.recordsOf id) - tally (s.recordsOf id) = 0 := by
    intro id _ absent
    rw [others id (by simpa using absent), sub_self]
  calc t.metrics.settled = ∑ id ∈ known, tally (t.recordsOf id) := by
        rw [t.counted, after]
        rfl
    _ = ∑ id ∈ known, tally (s.recordsOf id) +
          ∑ id ∈ known, (tally (t.recordsOf id) - tally (s.recordsOf id)) := by
        rw [← Finset.sum_add_distrib]
        simp
    _ = s.metrics.settled + ∑ id ∈ ids.toFinset, (tally (t.recordsOf id) - tally (s.recordsOf id)) := by
        rw [s.counted, before, Finset.sum_subset Finset.subset_union_right outside]
        rfl
    _ = s.metrics.settled + (ids.map fun id => tally (t.recordsOf id) - tally (s.recordsOf id)).sum := by
        rw [List.sum_toFinset _ distinct]

end Contributions

section Isolation

variable {iter iterAlone : List String → List String} {batch : List ScheduledRequest}

abbrev actionsOf (requestId : String) (actions : List BatchAction) : List BatchAction :=
  actions.filter fun action => action.requestId = requestId

theorem ItemView.alone_actionsOf (item : ScheduledRequest) (actions : List BatchAction) (ending : Ending) :
    ItemView.alone item (actionsOf item.request.requestId actions) ending =
      ItemView.alone item actions ending := by
  rw [alone, alone, actionsOf, List.filter_filter]
  simp

theorem executeBatch_settled (clock : Clock) (anyOrder : ∀ ids, (iter ids).Perm ids) (s : Services)
    (distinct : (batch.map fun item => item.request.requestId).Nodup)
    (fresh : ∀ item ∈ batch, item.handle.Fresh) (actions : List BatchAction) (ending : Ending) :
    (executeBatch clock iter s batch actions ending).state.services.metrics.settled =
      s.metrics.settled + (batch.map fun item => tally (ItemView.alone item actions ending).records).sum := by
  obtain ⟨-, refines⟩ := executeBatch_refines clock anyOrder s fresh actions ending
  rw [settled_of_records (s := s) distinct, List.map_map]
  · congr 2
    apply List.map_congr_left
    intro item member
    have recorded := (executeBatch_item clock anyOrder s distinct fresh actions ending member).2
    simp [recorded]
  · intro id absent
    apply refines.others
    rcases refines.each id with ⟨-, v, -, viewed, -⟩ | ⟨missing, -, -⟩
    · obtain ⟨item, present, -⟩ := Option.map_eq_some_iff.mp viewed
      obtain ⟨active, rfl⟩ := mem_of_itemsById present
      exact absurd (List.mem_map_of_mem (List.mem_of_mem_filter active)) absent
    · exact missing

theorem ResponseHandle.Settled.queue {stream : StreamingHandle} {o : Outcome} {tokens : List String}
    (settled : (ResponseHandle.streaming stream).Settled o)
    (success : (ResponseHandle.streaming stream).verdict = some (.success tokens)) :
    stream.queue = tokens.map StreamEvent.token ++ [.completed "stop"] := by
  cases settled with
  | completed sent cancelled =>
    have same : sent = tokens := by
      simpa [ResponseHandle.verdict, List.filterMap_cons, StreamEvent.text?] using success
    rw [same]
  | error sent message cancelled => simp [ResponseHandle.verdict] at success

/-- The same request with the same fate so far, whatever the kind of its handle. -/
structure ScheduledRequest.TwinOf (twin item : ScheduledRequest) : Prop where
  requestId : twin.request.requestId = item.request.requestId
  cancelled : twin.cancelled = item.cancelled

/-- In a batch an item sees what it would see alone, and a stream shows the text of the JSON answer. -/
theorem executeBatch_isolated (clock clockAlone : Clock) (anyOrder : ∀ ids, (iter ids).Perm ids)
    (anyOrderAlone : ∀ ids, (iterAlone ids).Perm ids) (s sAlone : Services)
    (distinct : (batch.map fun item => item.request.requestId).Nodup)
    (fresh : ∀ item ∈ batch, item.handle.Fresh) (actions : List BatchAction) (ending : Ending) :
    let r := executeBatch clock iter s batch actions ending
    let solo := fun item : ScheduledRequest =>
      executeBatch clockAlone iterAlone sAlone [item] (actionsOf item.request.requestId actions) ending
    let gain := fun item : ScheduledRequest =>
      (solo item).state.services.metrics.settled - sAlone.metrics.settled
    r.state.services.metrics.settled = s.metrics.settled + (batch.map gain).sum ∧
      ∀ item ∈ batch,
        let requestId := item.request.requestId
        (r.item item).handle = ((solo item).item item).handle ∧
        (∃ records, r.state.services.recordsOf requestId = s.recordsOf requestId ++ records ∧
          (solo item).state.services.recordsOf requestId = sAlone.recordsOf requestId ++ records ∧
          gain item = tally records) ∧
        (∀ tokens, (r.item item).handle.verdict = some (.success tokens) →
          tokens = tokensUntilCompleted requestId actions) ∧
        ∀ twin twinBatch, twin.TwinOf item → twin ∈ twinBatch →
          (twinBatch.map fun item => item.request.requestId).Nodup →
          (∀ item ∈ twinBatch, item.handle.Fresh) →
          let twinHandle := ((executeBatch clock iter s twinBatch actions ending).item twin).handle
          twinHandle.verdict = (r.item item).handle.verdict ∧
            ∀ handle result stream model, (r.item item).handle = .completion handle →
              handle.future = .result result → twinHandle = .streaming stream →
              deltaContents (chatCompletionStream requestId model stream.queue) =
                (ChatCompletionResponse.ofResult model item.request result).content := by
  intro r solo gain
  have soloItem : ∀ item ∈ batch, ((solo item).item item).handle = (ItemView.alone item actions ending).handle ∧
      (solo item).state.services.recordsOf item.request.requestId =
        sAlone.recordsOf item.request.requestId ++ (ItemView.alone item actions ending).records := by
    intro item member
    have freshAlone : ∀ other ∈ [item], other.handle.Fresh := by simpa using fresh item member
    have ran := executeBatch_item clockAlone anyOrderAlone sAlone (by simp) freshAlone
      (actionsOf item.request.requestId actions) ending (List.mem_singleton_self item)
    rwa [ItemView.alone_actionsOf] at ran
  have gained : ∀ item ∈ batch, gain item = tally (ItemView.alone item actions ending).records := by
    intro item member
    have freshAlone : ∀ other ∈ [item], other.handle.Fresh := by simpa using fresh item member
    have settled := executeBatch_settled clockAlone anyOrderAlone sAlone (by simp) freshAlone
      (actionsOf item.request.requestId actions) ending
    rw [List.map_singleton, List.sum_singleton, ItemView.alone_actionsOf] at settled
    simp only [gain, solo, settled, add_sub_cancel_left]
  have total := executeBatch_settled clock anyOrder s distinct fresh actions ending
  rw [← List.map_congr_left gained] at total
  refine ⟨total, fun item member => ?_⟩
  intro requestId
  obtain ⟨sameHandle, sameRecords⟩ := executeBatch_item clock anyOrder s distinct fresh actions ending member
  obtain ⟨soloHandle, soloRecords⟩ := soloItem item member
  obtain ⟨verdict, -⟩ := ItemView.alone_verdict (fresh item member) actions ending
  rw [← sameHandle] at verdict
  refine ⟨sameHandle.trans soloHandle.symm, ⟨_, sameRecords, soloRecords, gained item member⟩, ?_, ?_⟩
  · intro tokens success
    rw [verdict] at success
    split at success
    · cases success
    · simpa using fate_success success
  · intro twin twinBatch isTwin twinMember twinDistinct twinFresh twinHandle
    obtain ⟨twinSame, -⟩ := executeBatch_item clock anyOrder s twinDistinct twinFresh actions ending twinMember
    obtain ⟨twinVerdict, -⟩ := ItemView.alone_verdict (twinFresh twin twinMember) actions ending
    rw [← twinSame, isTwin.requestId, isTwin.cancelled, ← verdict] at twinVerdict
    refine ⟨twinVerdict, ?_⟩
    intro handle result stream model isCompletion resolved isStreaming
    have success : twinHandle.verdict = some (.success result.tokens) := by
      rw [twinVerdict, isCompletion]
      simp [ResponseHandle.verdict, resolved]
    have settled : ∃ o, twinHandle.Settled o := by
      rcases ItemView.alone_ends (twinFresh twin twinMember) actions ending with ⟨o, settled, -⟩ | ⟨withdrawn, -⟩
      · rw [← twinSame] at settled
        exact ⟨o, settled⟩
      · rw [← twinSame] at withdrawn
        rw [withdrawn.verdict] at success
        cases success
    obtain ⟨o, settled⟩ := settled
    rw [isStreaming] at settled success
    rw [settled.queue success, deltaContents_completed]
    simp [ChatCompletionResponse.ofResult, ChatCompletionResponse.content]

theorem executeBatch_isolated_pair :
    let clock : Clock := ⟨fun _ => 0, monotone_const⟩
    let plain := ScheduledRequest.ofBody { messages := [] } "plain" 0
    let twin := ScheduledRequest.ofBody { messages := [], stream := true } "plain" 0
    let other := ScheduledRequest.ofBody { messages := [] } "other" 0
    let actions : List BatchAction := [.event (.token "plain" "Hel"), .event (.token "other" "x"),
      .event (.token "plain" "lo"), .event (.completed "plain"), .cancel "other"]
    let ending : Ending := .raised (.other "RuntimeError" "lost")
    let r := executeBatch clock id {} [plain, other] actions ending
    (r.item plain).handle =
        ((executeBatch clock id {} [plain] (actionsOf "plain" actions) ending).item plain).handle ∧
      ((executeBatch clock id {} [other, twin] actions ending).item twin).handle.verdict =
        (r.item plain).handle.verdict ∧
      (r.item plain).handle.verdict = some (.success ["Hel", "lo"]) ∧
      tokensUntilCompleted "plain" actions = ["Hel", "lo"] := by
  intro clock plain twin other actions ending r
  have fresh : ∀ item ∈ [plain, other], item.handle.Fresh := by
    intro item member
    rcases List.mem_pair.mp member with rfl | rfl <;> exact .inl rfl
  have freshTwin : ∀ item ∈ [other, twin], item.handle.Fresh := by
    intro item member
    rcases List.mem_pair.mp member with rfl | rfl <;> exact .inl rfl
  obtain ⟨-, each⟩ := executeBatch_isolated clock clock (fun ids => List.Perm.refl (id ids))
    (fun ids => List.Perm.refl (id ids)) {} {} (by decide) fresh actions ending
  obtain ⟨same, -, delivered, twins⟩ := each plain (by simp)
  have verdict : (r.item plain).handle.verdict = some (.success ["Hel", "lo"]) := by decide +kernel
  refine ⟨same, (twins twin [other, twin] ⟨rfl, rfl⟩ (by simp) (by decide) freshTwin).1, verdict, ?_⟩
  exact (delivered _ verdict).symm

end Isolation

end LLMRuntime
