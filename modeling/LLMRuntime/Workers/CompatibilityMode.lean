import LLMRuntime.Workers.Isolation

namespace LLMRuntime

section Events

variable {generate : RuntimeRequest → Generation}

/-- Behind requests that complete, one request's share of the batch is what it is alone. -/
theorem actionsOf_generateBatch {before after : List RuntimeRequest} {request : RuntimeRequest}
    (distinct : ((before ++ request :: after).map RuntimeRequest.requestId).Nodup)
    (normal : ∀ other ∈ before, (generate other).ending = .normal) :
    actionsOf request.requestId ((generateBatch generate (before ++ request :: after)).1.map .event) =
      (generateBatch generate [request]).1.map .event := by
  rw [List.map_append, List.map_cons, List.nodup_append'] at distinct
  obtain ⟨-, distinctAfter, apart⟩ := distinct
  obtain ⟨notAfter, -⟩ := List.nodup_cons.mp distinctAfter
  have nothing : ∀ events : List BatchEvent, (∀ event ∈ events, event.requestId ≠ request.requestId) →
      actionsOf request.requestId (events.map .event) = [] := by
    intro events others
    rw [actionsOf, List.filter_eq_nil_iff]
    intro action member
    obtain ⟨event, inside, rfl⟩ := List.mem_map.mp member
    exact fun same => others event inside (of_decide_eq_true same)
  have everything : ∀ events : List BatchEvent, (∀ event ∈ events, event.requestId = request.requestId) →
      actionsOf request.requestId (events.map .event) = events.map .event := by
    intro events own
    rw [actionsOf, List.filter_eq_self]
    intro action member
    obtain ⟨event, inside, rfl⟩ := List.mem_map.mp member
    exact decide_eq_true (own event inside)
  have earlier : actionsOf request.requestId ((before.flatMap (completedEvents generate)).map .event) = [] := by
    apply nothing
    intro event member
    obtain ⟨other, inside, yielded⟩ := List.mem_flatMap.mp member
    have named := completedEvents_owner yielded
    rw [named]
    intro same
    exact apart (List.mem_map_of_mem inside) (same ▸ List.mem_cons_self)
  have later : actionsOf request.requestId ((generateBatch generate after).1.map .event) = [] := by
    apply nothing
    intro event member
    obtain ⟨other, inside, named⟩ := generateBatch_owner member
    rw [named]
    intro same
    exact notAfter (same ▸ List.mem_map_of_mem inside)
  have alone : actionsOf request.requestId ((generateBatch generate [request]).1.map .event) =
      (generateBatch generate [request]).1.map .event := by
    apply everything
    intro event member
    obtain ⟨other, inside, named⟩ := generateBatch_owner member
    rw [named, List.mem_singleton.mp inside]
  rw [generateBatch_append _ normal, List.map_append, actionsOf, List.filter_append]
  rw [actionsOf] at earlier later alone
  rw [earlier, List.nil_append]
  cases ending : (generate request).ending with
  | raised error =>
    rw [generateBatch_raised after ending, ← generateBatch_raised [] ending]
    exact alone
  | normal =>
    rw [generateBatch_normal [] ending] at alone ⊢
    rw [generateBatch_normal after ending]
    simp only [List.map_append, List.filter_append, later, List.append_nil, generateBatch] at alone ⊢
    exact alone

/-- Nothing of a request reaches the worker when a request before it in the batch fails. -/
theorem actionsOf_behind_failure {before after : List RuntimeRequest} {failing request : RuntimeRequest}
    {error : PyException} (distinct : ((before ++ failing :: after).map RuntimeRequest.requestId).Nodup)
    (member : request ∈ after) (normal : ∀ other ∈ before, (generate other).ending = .normal)
    (raised : (generate failing).ending = .raised error) :
    (generateBatch generate (before ++ failing :: after)).2 = .raised error ∧
      actionsOf request.requestId ((generateBatch generate (before ++ failing :: after)).1.map .event) = [] := by
  rw [List.map_append, List.map_cons, List.nodup_append'] at distinct
  obtain ⟨-, distinctAfter, apart⟩ := distinct
  obtain ⟨notFailing, -⟩ := List.nodup_cons.mp distinctAfter
  rw [generateBatch_append _ normal, generateBatch_raised after raised]
  refine ⟨rfl, ?_⟩
  rw [actionsOf, List.filter_eq_nil_iff]
  intro action yielded
  obtain ⟨event, inside, rfl⟩ := List.mem_map.mp yielded
  intro same
  have named : event.requestId = request.requestId := of_decide_eq_true same
  rcases List.mem_append.mp inside with first | last
  · obtain ⟨other, earlier, own⟩ := List.mem_flatMap.mp first
    rw [completedEvents_owner own] at named
    exact apart (List.mem_map_of_mem earlier) (named ▸ List.mem_cons_of_mem _ (List.mem_map_of_mem member))
  · obtain ⟨text, -, rfl⟩ := List.mem_map.mp last
    have sameId : failing.requestId = request.requestId := named
    exact notFailing (sameId ▸ List.mem_map_of_mem member)

end Events

namespace ItemView

theorem alone_congr {item : ScheduledRequest} {actions actions' : List BatchAction}
    (same : actionsOf item.request.requestId actions = actionsOf item.request.requestId actions')
    (ending : Ending) : alone item actions ending = alone item actions' ending := by
  rw [alone, alone]
  exact congrArg (fun acts => run _ _ acts ending) same

theorem alone_completed {item : ScheduledRequest} {actions before : List BatchAction} {id : String}
    (completed : actionsOf item.request.requestId actions = before ++ [.event (.completed id)])
    (ending ending' : Ending) : alone item actions ending = alone item actions ending' := by
  have settled : ∀ v : ItemView, (v.step item.request.requestId (.event (.completed id))).pending = false := by
    intro v
    rw [ItemView.step]
    split
    · assumption
    · split <;> rfl
  rw [actionsOf] at completed
  rw [alone, alone, completed, run, run, List.foldl_append]
  simp [finish, settled]

end ItemView

section Share

variable {generate : RuntimeRequest → Generation}

theorem fate_tokens (requestId : String) (ending : Ending) (sent tokens : List String)
    (actions : List BatchAction) :
    fate requestId ending sent
        ((tokens.map (BatchEvent.token requestId)).map BatchAction.event ++ actions) =
      fate requestId ending (sent ++ tokens) actions := by
  induction tokens generalizing sent with
  | nil => simp
  | cons token tokens ih =>
    rw [List.map_cons, List.map_cons, List.cons_append, fate, if_pos rfl, ih]
    simp

theorem fate_generateBatch (request : RuntimeRequest) :
    fate request.requestId (generateBatch generate [request]).2 []
        ((generateBatch generate [request]).1.map .event) =
      some ((generate request).ending.verdict (generate request).tokens) := by
  cases ending : (generate request).ending with
  | raised error =>
    have share := fate_tokens request.requestId (.raised error) [] (generate request).tokens []
    rw [List.append_nil, List.nil_append] at share
    rw [generateBatch_raised [] ending, share, fate]
  | normal =>
    rw [generateBatch_normal [] ending]
    simp only [completedEvents, generateBatch, List.append_nil, List.map_append]
    rw [fate_tokens]
    simp [fate, Ending.verdict]

theorem alone_generateBatch {item : ScheduledRequest} {before after : List RuntimeRequest}
    (distinct : ((before ++ item.request :: after).map RuntimeRequest.requestId).Nodup)
    (normal : ∀ other ∈ before, (generate other).ending = .normal) :
    ItemView.alone item ((generateBatch generate (before ++ item.request :: after)).1.map .event)
        (generateBatch generate (before ++ item.request :: after)).2 =
      ItemView.alone item ((generateBatch generate [item.request]).1.map .event)
        (generateBatch generate [item.request]).2 := by
  have share := actionsOf_generateBatch distinct normal
  have shareAlone := @actionsOf_generateBatch generate [] [] item.request (by simp) (by simp)
  rw [List.nil_append] at shareAlone
  rw [ItemView.alone_congr (share.trans shareAlone.symm)]
  cases ending : (generate item.request).ending with
  | raised error => rw [generateBatch_append _ normal, generateBatch_raised _ ending, generateBatch_raised _ ending]
  | normal =>
    rw [generateBatch_normal [] ending] at shareAlone ⊢
    simp only [completedEvents, generateBatch, List.append_nil, List.map_append, List.map_singleton] at shareAlone ⊢
    exact ItemView.alone_completed shareAlone _ _

end Share

section Batch

variable {iter iterAlone : List String → List String} {batch : List ScheduledRequest}

def executeCompatible (clock : Clock) (iter : List String → List String) (s : Services)
    (generate : RuntimeRequest → Generation) (batch : List ScheduledRequest) : BatchResult :=
  let (events, ending) := generateBatch generate ((activeItems batch).map (·.request))
  executeBatch clock iter s batch (events.map .event) ending

theorem activeItems_of_open (waiting : ∀ item ∈ batch, item.handle.Open []) : activeItems batch = batch := by
  rw [activeItems, List.filter_eq_self]
  intro item member
  have live : item.cancelled = false := (waiting item member).not_cancelled
  simp [live]

/-- In compatibility mode the requests up to the first failing one fare as they do alone, and every
    later request is failed with that one's error. -/
theorem executeCompatible_fates (clock clockAlone : Clock) (anyOrder : ∀ ids, (iter ids).Perm ids)
    (anyOrderAlone : ∀ ids, (iterAlone ids).Perm ids) (s sAlone : Services)
    (distinct : (batch.map fun item => item.request.requestId).Nodup)
    (waiting : ∀ item ∈ batch, item.handle.Open []) (generate : RuntimeRequest → Generation) :
    let r := executeCompatible clock iter s generate batch
    let solo := fun item : ScheduledRequest => executeCompatible clockAlone iterAlone sAlone generate [item]
    (∀ before item after, batch = before ++ item :: after →
      (∀ other ∈ before, (generate other.request).ending = .normal) →
      let generation := generate item.request
      let requestId := item.request.requestId
      (r.item item).handle = ((solo item).item item).handle ∧
        (r.item item).handle.verdict = some (generation.ending.verdict generation.tokens) ∧
        ∃ records, r.state.services.recordsOf requestId = s.recordsOf requestId ++ records ∧
          (solo item).state.services.recordsOf requestId = sAlone.recordsOf requestId ++ records) ∧
    ∀ before failing after error, batch = before ++ failing :: after →
      (∀ other ∈ before, (generate other.request).ending = .normal) →
      (generate failing.request).ending = .raised error →
      ∀ item ∈ after, (r.item item).handle = item.handle.fail error ∧
        r.state.services.recordsOf item.request.requestId =
          s.recordsOf item.request.requestId ++ [.failure] := by
  intro r solo
  have fresh : ∀ item ∈ batch, item.handle.Fresh := fun item member => .inl (waiting item member)
  have ran : ∀ item ∈ batch,
      let (events, ending) := generateBatch generate (batch.map (·.request))
      (r.item item).handle = (ItemView.alone item (events.map .event) ending).handle ∧
        r.state.services.recordsOf item.request.requestId = s.recordsOf item.request.requestId ++
          (ItemView.alone item (events.map .event) ending).records := by
    intro item member
    have here := executeBatch_item clock anyOrder s distinct fresh
      ((generateBatch generate (batch.map (·.request))).1.map .event)
      (generateBatch generate (batch.map (·.request))).2 member
    simpa only [r, executeCompatible, activeItems_of_open waiting] using here
  have ranAlone : ∀ item ∈ batch,
      let (events, ending) := generateBatch generate [item.request]
      ((solo item).item item).handle = (ItemView.alone item (events.map .event) ending).handle ∧
        (solo item).state.services.recordsOf item.request.requestId =
          sAlone.recordsOf item.request.requestId ++
            (ItemView.alone item (events.map .event) ending).records := by
    intro item member
    have waitingAlone : ∀ other ∈ [item], other.handle.Open [] := by simpa using waiting item member
    have here := executeBatch_item clockAlone anyOrderAlone sAlone (by simp)
      (fun other single => .inl (waitingAlone other single))
      ((generateBatch generate [item.request]).1.map .event) (generateBatch generate [item.request]).2
      (List.mem_singleton_self item)
    simpa only [solo, executeCompatible, activeItems_of_open waitingAlone, List.map_cons, List.map_nil] using here
  have distinctRequests : ((batch.map (·.request)).map RuntimeRequest.requestId).Nodup := by
    rw [List.map_map]
    exact distinct
  constructor
  · intro before item after split normal generation requestId
    have member : item ∈ batch := by simp [split]
    have normalRequests : ∀ other ∈ before.map (·.request), (generate other).ending = .normal := by
      intro other inside
      obtain ⟨earlier, present, rfl⟩ := List.mem_map.mp inside
      exact normal earlier present
    have same : ItemView.alone item ((generateBatch generate (batch.map (·.request))).1.map .event)
        (generateBatch generate (batch.map (·.request))).2 =
        ItemView.alone item ((generateBatch generate [item.request]).1.map .event)
          (generateBatch generate [item.request]).2 := by
      rw [split, List.map_append, List.map_cons] at distinctRequests ⊢
      exact alone_generateBatch distinctRequests normalRequests
    obtain ⟨handle, records⟩ := ran item member
    obtain ⟨handleAlone, recordsAlone⟩ := ranAlone item member
    rw [same] at handle records
    refine ⟨handle.trans handleAlone.symm, ?_, _, records, recordsAlone⟩
    rw [handle, (ItemView.alone_verdict (fresh item member) _ _).1]
    have live : item.cancelled = false := (waiting item member).not_cancelled
    simp only [live, fate_generateBatch, Bool.false_eq_true, if_false, generation]
  · intro before failing after error split normal raised item behind
    have member : item ∈ batch := by simp [split, behind]
    have normalRequests : ∀ other ∈ before.map (·.request), (generate other).ending = .normal := by
      intro other inside
      obtain ⟨earlier, present, rfl⟩ := List.mem_map.mp inside
      exact normal earlier present
    rw [split, List.map_append, List.map_cons] at distinctRequests
    obtain ⟨ending, nothing⟩ := actionsOf_behind_failure distinctRequests (List.mem_map_of_mem behind)
      normalRequests raised
    obtain ⟨handle, records⟩ := ran item member
    have live : item.handle.cancelled = false := (waiting item member).not_cancelled
    rw [split, List.map_append, List.map_cons, ending] at handle records
    rw [actionsOf] at nothing
    rw [ItemView.alone, nothing] at handle records
    exact ⟨by simpa [ItemView.run, ItemView.finish, live, ResponseHandle.finish] using handle,
      by simpa [ItemView.run, ItemView.finish, live, Ending.outcome] using records⟩

def mixedGenerations (request : RuntimeRequest) : Generation :=
  if request.requestId = "good" then { tokens := ["ok"], ending := .normal }
  else { tokens := ["par"], ending := .raised (.other "RuntimeError" ("lost " ++ request.requestId)) }

theorem executeCompatible_spreads_error :
    let clock : Clock := ⟨fun _ => 0, monotone_const⟩
    let bad := ScheduledRequest.ofBody { messages := [] } "bad" 0
    let good := ScheduledRequest.ofBody { messages := [] } "good" 0
    ((executeCompatible clock id {} mixedGenerations [bad, good]).item good).handle.verdict =
        some (.failure "lost bad") ∧
      ((executeCompatible clock id {} mixedGenerations [good]).item good).handle.verdict =
        some (.success ["ok"]) := by
  decide +kernel

theorem executeCompatible_fates_three :
    let clock : Clock := ⟨fun _ => 0, monotone_const⟩
    let good := ScheduledRequest.ofBody { messages := [] } "good" 0
    let bad := ScheduledRequest.ofBody { messages := [], stream := true } "bad" 0
    let last := ScheduledRequest.ofBody { messages := [] } "last" 0
    let r := executeCompatible clock id {} mixedGenerations [good, bad, last]
    (r.item good).handle.verdict = some (.success ["ok"]) ∧
      (r.item bad).handle.verdict = some (.failure "lost bad") ∧
      (r.item last).handle = last.handle.fail (.other "RuntimeError" "lost bad") := by
  intro clock good bad last r
  have waiting : ∀ item ∈ [good, bad, last], item.handle.Open [] := by
    intro item member
    simp only [List.mem_cons, List.not_mem_nil, or_false] at member
    rcases member with rfl | rfl | rfl <;> rfl
  obtain ⟨upToFailure, behind⟩ := executeCompatible_fates clock clock (fun ids => List.Perm.refl (id ids))
    (fun ids => List.Perm.refl (id ids)) {} {} (by decide) waiting mixedGenerations
  have goodNormal : ∀ other ∈ [good], (mixedGenerations other.request).ending = .normal := by
    intro other member
    rw [List.mem_singleton.mp member]
    decide
  exact ⟨(upToFailure [] good [bad, last] rfl (by simp)).2.1,
    (upToFailure [good] bad [last] rfl goodNormal).2.1,
    (behind [good] bad [last] (.other "RuntimeError" "lost bad") rfl goodNormal (by decide) last (by simp)).1⟩

end Batch

end LLMRuntime
