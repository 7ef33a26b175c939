import Mathlib.Algebra.BigOperators.Group.List.Basic
import Mathlib.Algebra.Order.BigOperators.Group.List
import Mathlib.Algebra.Order.Field.Basic
import Mathlib.Data.List.Induction
import Mathlib.Tactic.Linarith
import Mathlib.Tactic.Ring

namespace TokenBucket

/-- A balance that grows at `rate`, never above `capacity`; `level` is its value at time `stamp`. -/
structure Bucket (K : Type*) where
  capacity : K
  rate : K
  level : K
  stamp : K

variable {K : Type*} [Field K]

def spentFrom (past : List (K × K)) (j : Nat) : K := ((past.drop j).map Prod.snd).sum

theorem spentFrom_snoc (past : List (K × K)) (entry : K × K) (j : Nat) (bound : j ≤ past.length) :
    spentFrom (past ++ [entry]) j = spentFrom past j + entry.2 := by
  simp [spentFrom, List.drop_append_of_le_length bound]

variable [LinearOrder K]

def within (a d t : K) : Bool := decide (a ≤ t ∧ t ≤ a + d)

def Bucket.refill (b : Bucket K) (t : K) : Bucket K :=
  { b with level := min b.capacity (b.level + (t - b.stamp) * b.rate), stamp := t }

def Bucket.spend (b : Bucket K) (amount : K) : Bucket K := { b with level := b.level - amount }

def Bucket.replay (b : Bucket K) (past : List (K × K)) : Bucket K :=
  past.foldl (fun b entry => (b.refill entry.1).spend entry.2) b

def Bucket.Covers (b : Bucket K) (past : List (K × K)) : Prop :=
  ∀ before entry after, past = before ++ entry :: after →
    entry.2 ≤ ((b.replay before).refill entry.1).level

@[simp] theorem Bucket.replay_nil (b : Bucket K) : b.replay [] = b := rfl

theorem Bucket.replay_snoc (b : Bucket K) (past : List (K × K)) (entry : K × K) :
    b.replay (past ++ [entry]) = ((b.replay past).refill entry.1).spend entry.2 := by
  simp [Bucket.replay]

@[simp] theorem Bucket.replay_capacity (b : Bucket K) (past : List (K × K)) :
    (b.replay past).capacity = b.capacity := by
  induction past using List.reverseRecOn with
  | nil => rfl
  | append_singleton past entry ih => simpa [Bucket.replay_snoc, Bucket.refill, Bucket.spend] using ih

@[simp] theorem Bucket.replay_rate (b : Bucket K) (past : List (K × K)) :
    (b.replay past).rate = b.rate := by
  induction past using List.reverseRecOn with
  | nil => rfl
  | append_singleton past entry ih => simpa [Bucket.replay_snoc, Bucket.refill, Bucket.spend] using ih

theorem Bucket.covers_nil (b : Bucket K) : b.Covers [] := by
  intro before entry after split
  simp at split

theorem Bucket.Covers.snoc {b : Bucket K} {past : List (K × K)} {entry : K × K} (covered : b.Covers past)
    (available : entry.2 ≤ ((b.replay past).refill entry.1).level) : b.Covers (past ++ [entry]) := by
  intro before e after split
  rcases List.eq_nil_or_concat after with rfl | ⟨rest, last, rfl⟩
  · obtain ⟨rfl, same⟩ := List.append_inj' split rfl
    cases same
    exact available
  · have regrouped : past ++ [entry] = (before ++ e :: rest) ++ [last] := by simpa using split
    obtain ⟨inside, -⟩ := List.append_inj' regrouped rfl
    exact covered before e rest inside

theorem Bucket.refill_level_le (b : Bucket K) (t : K) : (b.refill t).level ≤ b.capacity := min_le_left _ _

theorem Bucket.replay_stamp_le (b : Bucket K) (past : List (K × K)) (t : K) (started : b.stamp ≤ t)
    (bound : ∀ entry ∈ past, entry.1 ≤ t) : (b.replay past).stamp ≤ t := by
  induction past using List.reverseRecOn with
  | nil => exact started
  | append_singleton past entry ih =>
    simpa [Bucket.replay_snoc, Bucket.refill, Bucket.spend] using bound entry (by simp)

variable [IsStrictOrderedRing K]

theorem Bucket.Covers.level_nonneg {b : Bucket K} {past : List (K × K)} (covered : b.Covers past)
    (nonneg : 0 ≤ b.level) : 0 ≤ (b.replay past).level := by
  rcases List.eq_nil_or_concat past with rfl | ⟨before, last, rfl⟩
  · exact nonneg
  · rw [List.concat_eq_append] at covered ⊢
    rw [Bucket.replay_snoc]
    exact sub_nonneg.mpr (covered before last [] rfl)

/-- A refill on the way to a later one changes nothing, capped or not. -/
theorem Bucket.refill_refill (b : Bucket K) {t u : K} (growing : 0 ≤ b.rate) (later : t ≤ u) :
    (b.refill t).refill u = b.refill u := by
  have grown : 0 ≤ (u - t) * b.rate := mul_nonneg (sub_nonneg.mpr later) growing
  have split : b.level + (t - b.stamp) * b.rate + (u - t) * b.rate = b.level + (u - b.stamp) * b.rate := by
    ring
  have level : min b.capacity (min b.capacity (b.level + (t - b.stamp) * b.rate) + (u - t) * b.rate) =
      min b.capacity (b.level + (u - b.stamp) * b.rate) := by
    rw [← min_add_add_right, ← min_assoc, min_eq_left (le_add_of_nonneg_right grown), split]
  simp only [Bucket.refill, level]

theorem Bucket.refill_level_nonneg (b : Bucket K) (t : K) (nonneg : 0 ≤ b.level) (room : 0 ≤ b.capacity)
    (growing : 0 ≤ b.rate) (later : b.stamp ≤ t) : 0 ≤ (b.refill t).level :=
  le_min room (add_nonneg nonneg (mul_nonneg (sub_nonneg.mpr later) growing))

/-- The refilled level is the smallest slack over all windows that end now: the lazily capped
    balance is a min-plus closed form of the whole history. -/
theorem Bucket.le_refill_replay_iff (b : Bucket K) (full : b.level = b.capacity) (growing : 0 ≤ b.rate)
    (past : List (K × K)) (started : ∀ entry ∈ past, b.stamp ≤ entry.1) (t : K) (later : b.stamp ≤ t) (x : K) :
    x ≤ ((b.replay past).refill t).level ↔
      x ≤ b.capacity ∧ ∀ j (bound : j < past.length),
        x + spentFrom past j ≤ b.capacity + (t - past[j].1) * b.rate := by
  induction past using List.reverseRecOn generalizing t x with
  | nil =>
    have grown : 0 ≤ (t - b.stamp) * b.rate := mul_nonneg (sub_nonneg.mpr later) growing
    have capped : b.capacity ≤ b.capacity + (t - b.stamp) * b.rate := le_add_of_nonneg_right grown
    simp [Bucket.refill, full, min_eq_left capped]
  | append_singleton past entry ih =>
    have here := ih (fun e member => started e (by simp [member])) entry.1 (started entry (by simp))
      (x + entry.2 - (t - entry.1) * b.rate)
    have unfolded : ((b.replay (past ++ [entry])).refill t).level =
        min b.capacity (((b.replay past).refill entry.1).level - entry.2 + (t - entry.1) * b.rate) := by
      simp [Bucket.replay_snoc, Bucket.refill, Bucket.spend]
    have shifted : x ≤ ((b.replay past).refill entry.1).level - entry.2 + (t - entry.1) * b.rate ↔
        x + entry.2 - (t - entry.1) * b.rate ≤ ((b.replay past).refill entry.1).level := by
      constructor <;> intro h <;> linarith
    rw [unfolded, le_min_iff, shifted, here]
    constructor
    · rintro ⟨capped, own, earlier⟩
      refine ⟨capped, fun j bound => ?_⟩
      rw [List.length_append, List.length_singleton] at bound
      rcases Nat.lt_succ_iff_lt_or_eq.mp bound with inside | rfl
      · have window := earlier j inside
        rw [spentFrom_snoc _ _ _ inside.le, List.getElem_append_left inside]
        linarith
      · simp only [spentFrom, List.drop_left, List.getElem_concat_length]
        simp only [List.map_cons, List.map_nil, List.sum_cons, List.sum_nil]
        linarith
    · rintro ⟨capped, windows⟩
      refine ⟨capped, ?_, fun j bound => ?_⟩
      · have own := windows past.length (by simp)
        simp only [spentFrom, List.drop_left, List.getElem_concat_length] at own
        simp only [List.map_cons, List.map_nil, List.sum_cons, List.sum_nil] at own
        linarith
      · have window := windows j (by simp; omega)
        rw [spentFrom_snoc _ _ _ bound.le, List.getElem_append_left bound] at window
        linarith

/-- A covered history never spends more than `capacity + d * rate` inside a window of length `d`. -/
theorem Bucket.window_spent_le (b : Bucket K) (full : b.level = b.capacity) (growing : 0 ≤ b.rate)
    (nonneg : 0 ≤ b.capacity) (past : List (K × K)) (started : ∀ entry ∈ past, b.stamp ≤ entry.1)
    (amounts : ∀ entry ∈ past, 0 ≤ entry.2) (covered : b.Covers past) (a d : K) (length : 0 ≤ d) :
    ((past.filter fun entry => within a d entry.1).map Prod.snd).sum ≤
      b.capacity + d * b.rate := by
  have slack : 0 ≤ d * b.rate := mul_nonneg length growing
  induction past using List.reverseRecOn with
  | nil => simpa using add_nonneg nonneg slack
  | append_singleton past entry ih =>
    have startedPast : ∀ e ∈ past, b.stamp ≤ e.1 := fun e member => started e (by simp [member])
    have amountsPast : ∀ e ∈ past, 0 ≤ e.2 := fun e member => amounts e (by simp [member])
    have earlier := ih startedPast amountsPast (fun before e after split =>
      covered before e (after ++ [entry]) (by simp [split]))
    rw [List.filter_append, List.map_append, List.sum_append]
    by_cases inside : within a d entry.1 = true
    · have available := covered past entry [] rfl
      rw [b.le_refill_replay_iff full growing past startedPast _ (started entry (by simp))] at available
      cases found : past.find? fun e => within a d e.1 with
      | none =>
        have empty : (past.filter fun e => within a d e.1) = [] := by
          rw [List.filter_eq_nil_iff]
          exact fun e member => by simpa using List.find?_eq_none.mp found e member
        simp only [empty, List.filter_cons, inside, if_true, List.filter_nil,
          List.map_nil, List.map_cons, List.sum_nil, List.sum_cons]
        linarith [available.1]
      | some first =>
        obtain ⟨hit, before, after, rfl, missed⟩ := List.find?_eq_some_iff_append.mp found
        have window := available.2 before.length (by simp)
        have dropped : (before.filter fun e => within a d e.1) = [] := by
          rw [List.filter_eq_nil_iff]
          exact fun e member => by simpa using missed e member
        have sub : (((before ++ first :: after).filter fun e => within a d e.1).map Prod.snd).sum ≤
            spentFrom (before ++ first :: after) before.length := by
          rw [List.filter_append, dropped, List.nil_append, spentFrom, List.drop_left]
          refine List.Sublist.sum_le_sum (List.filter_sublist.map _) ?_
          intro amount member
          obtain ⟨e, inTail, rfl⟩ := List.mem_map.mp member
          exact amountsPast e (by simp [List.mem_append, inTail])
        have startIn : a ≤ first.1 := (of_decide_eq_true hit).1
        have endIn : entry.1 ≤ a + d := (of_decide_eq_true inside).2
        have span : (entry.1 - first.1) * b.rate ≤ d * b.rate :=
          mul_le_mul_of_nonneg_right (by linarith) growing
        simp only [List.getElem_append_right (Nat.le_refl _), Nat.sub_self, List.getElem_cons_zero] at window
        simp only [List.filter_cons, inside, if_true, List.filter_nil,
          List.map_nil, List.map_cons, List.sum_nil, List.sum_cons]
        linarith
    · simpa [List.filter_cons, inside] using earlier

end TokenBucket
