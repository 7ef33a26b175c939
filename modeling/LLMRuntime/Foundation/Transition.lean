import Mathlib.Logic.Function.Basic
import Mathlib.Tactic.Common

namespace Transition

variable {σ α : Type*}

/-- The state a list of actions leads to; `none` when one of them is not enabled where it is taken. -/
def exec (step : σ → α → Option σ) : σ → List α → Option σ
  | s, [] => some s
  | s, a :: as =>
    match step s a with
    | none => none
    | some t => exec step t as

/-- `law` holds in every state that the run visits, its first and last included. -/
def Throughout (step : σ → α → Option σ) (law : σ → Prop) : σ → List α → Prop
  | s, [] => law s
  | s, a :: as => law s ∧ ∀ t, step s a = some t → Throughout step law t as

/-- Every step of the run is taken from a state that satisfies `guard` for that action. -/
def Guarded (step : σ → α → Option σ) (guard : σ → α → Prop) : σ → List α → Prop
  | _, [] => True
  | s, a :: as => ∀ t, step s a = some t → guard s a ∧ Guarded step guard t as

variable {step : σ → α → Option σ}

@[simp] theorem exec_nil (s : σ) : exec step s [] = some s := rfl

theorem exec_cons_some {s u : σ} {a : α} {as : List α} :
    exec step s (a :: as) = some u ↔ ∃ t, step s a = some t ∧ exec step t as = some u := by
  simp only [exec]
  cases step s a with
  | none => simp
  | some t => simp

/-- An invariant kept by every step from an allowed action holds wherever an allowed run ends. -/
theorem exec_invariant {I : σ → Prop} {allowed : α → Prop}
    (kept : ∀ s a t, I s → allowed a → step s a = some t → I t) {s t : σ} {acts : List α}
    (start : I s) (allowedRun : ∀ a ∈ acts, allowed a) (run : exec step s acts = some t) : I t := by
  induction acts generalizing s with
  | nil =>
    cases run
    exact start
  | cons a as ih =>
    obtain ⟨u, taken, rest⟩ := exec_cons_some.mp run
    exact ih (kept s a u start (allowedRun a (by simp)) taken)
      (fun b member => allowedRun b (List.mem_cons_of_mem _ member)) rest

theorem exec_history {I : List α → σ → Prop}
    (kept : ∀ past s a t, I past s → step s a = some t → I (past ++ [a]) t) {s t : σ} {acts : List α}
    (start : I [] s) (run : exec step s acts = some t) : I acts t := by
  have later (past : List α) (now : I past s) : I (past ++ acts) t := by
    clear start
    induction acts generalizing s past with
    | nil =>
      cases run
      rwa [List.append_nil]
    | cons a as ih =>
      obtain ⟨u, taken, rest⟩ := exec_cons_some.mp run
      have next := ih rest (past ++ [a]) (kept past s a u now taken)
      rwa [List.append_assoc] at next
  exact later [] start

theorem exec_guarded {I : σ → Prop} {guard : σ → α → Prop}
    (kept : ∀ s a t, I s → guard s a → step s a = some t → I t) {s t : σ} {acts : List α}
    (start : I s) (guarded : Guarded step guard s acts) (run : exec step s acts = some t) : I t := by
  induction acts generalizing s with
  | nil =>
    cases run
    exact start
  | cons a as ih =>
    obtain ⟨u, taken, rest⟩ := exec_cons_some.mp run
    obtain ⟨holds, later⟩ := guarded u taken
    exact ih (kept s a u start holds taken) later rest

theorem Guarded.of_forall {guard : σ → α → Prop} {acts : List α} (always : ∀ a ∈ acts, ∀ s, guard s a)
    (s : σ) : Guarded step guard s acts := by
  induction acts generalizing s with
  | nil => exact True.intro
  | cons a as ih =>
    intro t _
    exact ⟨always a (by simp) s, ih (fun b member => always b (List.mem_cons_of_mem _ member)) t⟩

/-- A run on which a test of the actions passes before every step. -/
def passes (step : σ → α → Option σ) (test : σ → α → Bool) : σ → List α → Bool
  | _, [] => true
  | s, a :: as => (step s a).all fun t => test s a && passes step test t as

theorem Guarded.of_passes {guard : σ → α → Prop} (test : σ → α → Bool) (sound : ∀ s a, test s a = true → guard s a)
    {s : σ} {acts : List α} (passed : passes step test s acts = true) : Guarded step guard s acts := by
  induction acts generalizing s with
  | nil => exact True.intro
  | cons a as ih =>
    intro t taken
    rw [passes, taken, Option.all_some, Bool.and_eq_true] at passed
    exact ⟨sound s a passed.1, ih passed.2⟩

theorem Guarded.of_invariant {I : σ → Prop} {guard : σ → α → Prop} {allowed : α → Prop}
    (kept : ∀ s a t, I s → allowed a → step s a = some t → I t ∧ guard s a) {s : σ} {acts : List α}
    (start : I s) (allowedRun : ∀ a ∈ acts, allowed a) : Guarded step guard s acts := by
  induction acts generalizing s with
  | nil => exact True.intro
  | cons a as ih =>
    intro t taken
    obtain ⟨next, holds⟩ := kept s a t start (allowedRun a (by simp)) taken
    exact ⟨holds, ih next fun b member => allowedRun b (List.mem_cons_of_mem _ member)⟩

theorem Throughout.head {law : σ → Prop} {s : σ} {acts : List α}
    (throughout : Throughout step law s acts) : law s := by
  cases acts with
  | nil => exact throughout
  | cons a as => exact throughout.1

/-- The law holds along a run exactly when its steps are guarded, provided the guard is what keeps the
    invariant and a step outside the guard breaks the law. -/
theorem throughout_iff_guarded {I law : σ → Prop} {guard : σ → α → Prop} {allowed : α → Prop}
    (lawful : ∀ s, I s → law s)
    (kept : ∀ s a t, I s → allowed a → guard s a → step s a = some t → I t)
    (broken : ∀ s a t, I s → allowed a → ¬ guard s a → step s a = some t → ¬ law t)
    {s : σ} {acts : List α} (start : I s) (allowedRun : ∀ a ∈ acts, allowed a) :
    Throughout step law s acts ↔ Guarded step guard s acts := by
  induction acts generalizing s with
  | nil => exact ⟨fun _ => True.intro, fun _ => lawful s start⟩
  | cons a as ih =>
    have first := allowedRun a (by simp)
    have later : ∀ b ∈ as, allowed b := fun b member => allowedRun b (List.mem_cons_of_mem _ member)
    constructor
    · rintro ⟨-, rest⟩ t taken
      have holds : guard s a := by
        by_contra missing
        exact broken s a t start first missing taken (rest t taken).head
      exact ⟨holds, (ih (kept s a t start first holds taken) later).mp (rest t taken)⟩
    · intro guarded
      refine ⟨lawful s start, fun t taken => ?_⟩
      obtain ⟨holds, rest⟩ := guarded t taken
      exact (ih (kept s a t start first holds taken) later).mpr rest

section Outcome

variable {ρ : Type*} {active : σ → Prop} {ended : ρ → σ → Prop} {good : ρ → Prop} {guard : σ → α → Prop}
  {allowed : α → Prop}

theorem Guarded.cons_iff {s t : σ} {a : α} {as : List α} (taken : step s a = some t) :
    Guarded step guard s (a :: as) ↔ guard s a ∧ Guarded step guard t as := by
  constructor
  · intro guarded
    exact guarded t taken
  · intro both u same
    rw [taken] at same
    cases same
    exact both

/-- A task that ends with an outcome: the outcome is good exactly when every step was guarded, provided that this
    is so of the step that ends it. -/
theorem exec_outcome
    (during : ∀ s a t, active s → allowed a → step s a = some t →
      (active t ∧ guard s a) ∨ ∃ r, ended r t ∧ (good r ↔ guard s a))
    (after : ∀ r s a t, ended r s → allowed a → step s a = some t → ended r t ∧ guard s a)
    {s t : σ} {acts : List α} (start : active s) (allowedRun : ∀ a ∈ acts, allowed a)
    (run : exec step s acts = some t) :
    active t ∨ ∃ r, ended r t ∧ (good r ↔ Guarded step guard s acts) := by
  induction acts generalizing s with
  | nil =>
    cases run
    exact .inl start
  | cons a as ih =>
    obtain ⟨next, taken, rest⟩ := exec_cons_some.mp run
    have first := allowedRun a (by simp)
    have later : ∀ b ∈ as, allowed b := fun b member => allowedRun b (List.mem_cons_of_mem _ member)
    rcases during s a next start first taken with ⟨more, guarded⟩ | ⟨r, isOver, exact⟩
    · rcases ih more later rest with still | ⟨r, isOver, exact⟩
      · exact .inl still
      · right
        refine ⟨r, isOver, exact.trans ?_⟩
        rw [Guarded.cons_iff taken, and_iff_right guarded]
    · right
      have kept : ∀ s a t, ended r s → allowed a → step s a = some t → ended r t :=
        fun s a t isOver admitted taken => (after r s a t isOver admitted taken).1
      have quiet : Guarded step guard next as := .of_invariant (after r) isOver later
      refine ⟨r, exec_invariant kept isOver later rest, exact.trans ?_⟩
      rw [Guarded.cons_iff taken, and_iff_left quiet]

theorem exec_ends
    (during : ∀ s a t, active s → allowed a → step s a = some t → active t ∨ ∃ r, ended r t ∧ good r)
    (after : ∀ r s a t, ended r s → allowed a → step s a = some t → ended r t)
    {s t : σ} {acts : List α} (start : active s) (allowedRun : ∀ a ∈ acts, allowed a)
    (run : exec step s acts = some t) : active t ∨ ∃ r, ended r t ∧ good r := by
  have free : Guarded step (fun _ _ => True) s acts := .of_forall (fun _ _ _ => True.intro) s
  have either : active t ∨ ∃ r, ended r t ∧ (good r ↔ Guarded step (fun _ _ => True) s acts) := by
    apply exec_outcome _ _ start allowedRun run
    · intro s a t now admitted taken
      rcases during s a t now admitted taken with more | ⟨r, isOver, well⟩
      · exact .inl ⟨more, True.intro⟩
      · exact .inr ⟨r, isOver, iff_of_true well True.intro⟩
    · intro r s a t isOver admitted taken
      exact ⟨after r s a t isOver admitted taken, True.intro⟩
  rcases either with still | ⟨r, isOver, well⟩
  · exact .inl still
  · exact .inr ⟨r, isOver, well.mpr free⟩

end Outcome

section Purge

variable {β : Type*} (step) (drop : σ → α → Bool) (obs : σ → α → Option β)

def purge : σ → List α → List α
  | _, [] => []
  | s, a :: as =>
    match step s a with
    | none => a :: as
    | some t => if drop s a then purge t as else a :: purge t as

/-- What the steps of a run show, in order. -/
def observe : σ → List α → List β
  | _, [] => []
  | s, a :: as =>
    match step s a with
    | none => []
    | some t => (obs s a).toList ++ observe t as

variable {step drop obs}

theorem observe_eq_filterMap {shown : α → Option β} {s t : σ} {acts : List α} (run : exec step s acts = some t) :
    observe step (fun _ a => shown a) s acts = acts.filterMap shown := by
  induction acts generalizing s with
  | nil => rfl
  | cons a as ih =>
    obtain ⟨next, taken, rest⟩ := exec_cons_some.mp run
    simp only [observe, taken, List.filterMap_cons, ih rest]
    cases shown a <;> rfl

theorem forall_observe {P : β → Prop} {I : σ → Prop}
    (one : ∀ s a t, I s → step s a = some t → I t ∧ ∀ b ∈ obs s a, P b) {s t : σ} {acts : List α} (start : I s)
    (run : exec step s acts = some t) : ∀ b ∈ observe step obs s acts, P b := by
  induction acts generalizing s with
  | nil =>
    intro b shown
    cases shown
  | cons a as ih =>
    obtain ⟨next, taken, rest⟩ := exec_cons_some.mp run
    obtain ⟨kept, first⟩ := one s a next start taken
    intro b shown
    rw [observe, taken] at shown
    rcases List.mem_append.mp shown with now | later
    · exact first b (Option.mem_toList.mp now)
    · exact ih kept rest b later

/-- What a stock holds and gains is what it gives away and holds afterwards, over a step and so over a run. -/
theorem observe_balance {γ δ : Type*} {gain : σ → α → Option β} {loss : σ → α → Option γ} {gains : β → List δ}
    {losses : γ → List δ} {stock : σ → List δ}
    (one : ∀ s a t, step s a = some t →
      stock s ++ (gain s a).toList.flatMap gains = (loss s a).toList.flatMap losses ++ stock t)
    {s t : σ} {acts : List α} (run : exec step s acts = some t) :
    stock s ++ (observe step gain s acts).flatMap gains = (observe step loss s acts).flatMap losses ++ stock t := by
  induction acts generalizing s with
  | nil =>
    cases run
    exact List.append_nil _
  | cons a as ih =>
    obtain ⟨next, taken, rest⟩ := exec_cons_some.mp run
    simp only [observe, taken, List.flatMap_append]
    rw [← List.append_assoc, one s a next taken, List.append_assoc, ih rest, List.append_assoc]

variable (drop obs) in
/-- When dropped steps are invisible to `R` and the others are matched by it, the purged run is enabled and
    shows what the others showed. -/
theorem exec_purge (R : σ → σ → Prop) (guard : σ → α → Prop)
    (invisible : ∀ s u a t, R s u → guard s a → drop s a = true → step s a = some t → R t u)
    (matched : ∀ s u a t, R s u → guard s a → drop s a = false → step s a = some t →
      obs u a = obs s a ∧ ∃ v, step u a = some v ∧ R t v)
    {s u t : σ} {acts : List α} (start : R s u) (guarded : Guarded step guard s acts)
    (run : exec step s acts = some t) :
    ∃ v, exec step u (purge step drop s acts) = some v ∧ R t v ∧
      observe step obs u (purge step drop s acts) =
        observe step (fun s a => if drop s a then none else obs s a) s acts := by
  induction acts generalizing s u with
  | nil =>
    cases run
    exact ⟨u, rfl, start, rfl⟩
  | cons a as ih =>
    obtain ⟨next, taken, rest⟩ := exec_cons_some.mp run
    obtain ⟨holds, later⟩ := guarded next taken
    cases dropped : drop s a with
    | true =>
      obtain ⟨v, done, related, same⟩ := ih (invisible s u a next start holds dropped taken) later rest
      simp only [purge, observe, taken, dropped, if_true]
      exact ⟨v, done, related, by simpa using same⟩
    | false =>
      obtain ⟨shown, following, moved, related⟩ := matched s u a next start holds dropped taken
      obtain ⟨v, done, related, same⟩ := ih related later rest
      simp only [purge, observe, taken, dropped]
      exact ⟨v, exec_cons_some.mpr ⟨following, moved, done⟩, related, by simp [moved, shown, same, observe]⟩

end Purge

section Simulation

variable {τ β : Type*} {step' : τ → α → Option τ} {view : σ → β} {view' : τ → β}

variable (step view) in
def trail : σ → List α → List β := observe step fun s a => (step s a).map view

/-- A forward simulation that respects the views carries runs over, with the same trail. -/
theorem exec_simulation (R : σ → τ → Prop) (allowed : α → Prop) (shows : ∀ s u, R s u → view s = view' u)
    (matched : ∀ s u a t, R s u → allowed a → step s a = some t → ∃ v, step' u a = some v ∧ R t v)
    {s t : σ} {u : τ} {acts : List α} (start : R s u) (allowedRun : ∀ a ∈ acts, allowed a)
    (run : exec step s acts = some t) :
    ∃ v, exec step' u acts = some v ∧ R t v ∧ trail step' view' u acts = trail step view s acts := by
  induction acts generalizing s u with
  | nil =>
    cases run
    exact ⟨u, rfl, start, rfl⟩
  | cons a as ih =>
    obtain ⟨next, taken, rest⟩ := exec_cons_some.mp run
    obtain ⟨following, moved, related⟩ := matched s u a next start (allowedRun a (by simp)) taken
    obtain ⟨v, done, final, same⟩ := ih related (fun b member => allowedRun b (List.mem_cons_of_mem _ member)) rest
    refine ⟨v, exec_cons_some.mpr ⟨following, moved, done⟩, final, ?_⟩
    simp only [trail, observe, taken, moved, Option.map_some, shows next following related] at same ⊢
    rw [same]

/-- The same action again and again while `busy`; `none` when `fuel` steps do not suffice. -/
def runWhile (step : σ → α → Option σ) (busy : σ → Bool) (a : α) : Nat → σ → Option σ
  | 0, s => if busy s then none else some s
  | fuel + 1, s => if busy s then (step s a).bind (runWhile step busy a fuel) else some s

theorem runWhile_idle {busy : σ → Bool} {a : α} {s : σ} (idle : busy s = false) (fuel : Nat) :
    runWhile step busy a fuel s = some s := by
  cases fuel <;> simp [runWhile, idle]

theorem runWhile_exec {busy : σ → Bool} {a : α} {fuel : Nat} {s t : σ} (run : runWhile step busy a fuel s = some t) :
    ∃ count, exec step s (List.replicate count a) = some t := by
  induction fuel generalizing s with
  | zero =>
    rw [runWhile] at run
    split at run
    · cases run
    · exact ⟨0, run⟩
  | succ fuel ih =>
    rw [runWhile] at run
    split at run
    · obtain ⟨next, taken, rest⟩ := Option.bind_eq_some_iff.mp run
      obtain ⟨count, later⟩ := ih rest
      exact ⟨count + 1, exec_cons_some.mpr ⟨next, taken, later⟩⟩
    · exact ⟨0, run⟩

end Simulation

section Answers

variable {τ β ι γ : Type*} {step' : τ → β → Option τ} {obs : ι → σ → α → Option γ} {shown : ι → β → Option γ}

theorem exec_append {s t u : σ} {front back : List α} (first : exec step s front = some t)
    (second : exec step t back = some u) : exec step s (front ++ back) = some u := by
  induction front generalizing s with
  | nil =>
    cases first
    exact second
  | cons a as ih =>
    obtain ⟨next, taken, rest⟩ := exec_cons_some.mp first
    exact exec_cons_some.mpr ⟨next, taken, ih rest⟩

/-- A simulation that answers each step with a run carries runs over, and what every observer sees of them. -/
theorem exec_answers (R : σ → τ → Prop)
    (answered : ∀ s u a t, R s u → step s a = some t →
      ∃ bs v, exec step' u bs = some v ∧ R t v ∧ ∀ i, bs.filterMap (shown i) = (obs i s a).toList)
    {s t : σ} {u : τ} {acts : List α} (start : R s u) (run : exec step s acts = some t) :
    ∃ bs v, exec step' u bs = some v ∧ R t v ∧ ∀ i, bs.filterMap (shown i) = observe step (obs i) s acts := by
  induction acts generalizing s u with
  | nil =>
    cases run
    exact ⟨[], u, rfl, start, fun _ => rfl⟩
  | cons a as ih =>
    obtain ⟨next, taken, rest⟩ := exec_cons_some.mp run
    obtain ⟨front, middle, moved, related, seen⟩ := answered s u a next start taken
    obtain ⟨back, v, done, final, later⟩ := ih related rest
    refine ⟨front ++ back, v, exec_append moved done, final, fun i => ?_⟩
    rw [List.filterMap_append, seen, later, observe, taken]

end Answers

/-- After one of many machines has moved, what holds of it and of all others holds of all. -/
theorem forall_update_some {ι β : Type*} [DecidableEq ι] {views : ι → Option β} {i : ι} {v : β} {P : ι → β → Prop}
    (own : P i v) (others : ∀ j w, j ≠ i → views j = some w → P j w) :
    ∀ j w, Function.update views i (some v) j = some w → P j w := by
  intro j w found
  by_cases same : j = i
  · subst same
    rw [Function.update_self] at found
    cases found
    exact own
  · rw [Function.update_of_ne same] at found
    exact others j w same found

section Product

variable {ι β : Type*} [DecidableEq ι] (owner : α → ι) (localStep : ι → β → α → β)

/-- Machines indexed by `ι` side by side: an action moves its owner, if it is there, and nobody else. -/
def productStep (views : ι → Option β) (a : α) : ι → Option β :=
  Function.update views (owner a) ((views (owner a)).map fun v => localStep (owner a) v a)

theorem foldl_productStep (acts : List α) (views : ι → Option β) (i : ι) :
    acts.foldl (productStep owner localStep) views i =
      (views i).map fun v => (acts.filter fun a => owner a = i).foldl (localStep i) v := by
  induction acts generalizing views with
  | nil => simp
  | cons a as ih =>
    rw [List.foldl_cons, ih]
    by_cases own : owner a = i
    · subst own
      simp [productStep, Function.comp_def]
    · simp [productStep, own, Function.update_of_ne (Ne.symm own)]

end Product

end Transition
