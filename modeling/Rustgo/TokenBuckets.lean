import Rustgo.BucketTable

namespace Rustgo.Observation.TokenBucket

variable {bucket : TokenBucket} {capacity refillInterval now start finish : Nat} {times : List Nat}

/-- The calls that a bucket grants. -/
def grants (bucket : TokenBucket) (capacity refillInterval : Nat) : List Nat → List Nat
  | [] => []
  | now :: times =>
      let (taken, bucket) := bucket.take capacity refillInterval now
      if taken then now :: bucket.grants capacity refillInterval times else bucket.grants capacity refillInterval times

theorem grants_cons (bucket : TokenBucket) (capacity refillInterval now : Nat) (times : List Nat) :
    bucket.grants capacity refillInterval (now :: times) =
      if (bucket.take capacity refillInterval now).1 = true then
        now :: (bucket.take capacity refillInterval now).2.grants capacity refillInterval times
      else (bucket.take capacity refillInterval now).2.grants capacity refillInterval times := rfl

theorem take_eq (h : bucket.capacity = capacity) : bucket.take capacity refillInterval now =
    if (bucket.refill capacity refillInterval now).tokens = 0 then (false, bucket.refill capacity refillInterval now)
    else (true, { bucket.refill capacity refillInterval now with tokens := (bucket.refill capacity refillInterval now).tokens - 1 }) := by
  rw [take, if_pos h]

theorem capacity_refill (bucket : TokenBucket) (capacity refillInterval now : Nat) :
    (bucket.refill capacity refillInterval now).capacity = bucket.capacity := by
  rw [refill]
  split <;> rfl

theorem capacity_take (h : bucket.capacity = capacity) : (bucket.take capacity refillInterval now).2.capacity = capacity := by
  rw [take_eq h]
  split <;> exact (capacity_refill _ _ _ _).trans h

theorem lastRefill_take (h : bucket.capacity = capacity) :
    (bucket.take capacity refillInterval now).2.lastRefill = (bucket.refill capacity refillInterval now).lastRefill := by
  rw [take_eq h]
  split <;> rfl

theorem lastRefill_refill_le (capacity refillInterval : Nat) (h : bucket.lastRefill ≤ now) : (bucket.refill capacity refillInterval now).lastRefill ≤ now := by
  rw [refill]
  split
  · exact le_refl _
  · exact h

theorem tokens_refill_le (refillInterval now : Nat) (h : bucket.tokens ≤ capacity) : (bucket.refill capacity refillInterval now).tokens ≤ capacity := by
  rw [refill]
  split
  · exact min_le_right _ _
  · exact h

theorem tokens_take_le (hcapacity : bucket.capacity = capacity) (h : bucket.tokens ≤ capacity) :
    (bucket.take capacity refillInterval now).2.tokens ≤ capacity := by
  have hrefill := tokens_refill_le refillInterval now h
  rw [take_eq hcapacity]
  split
  · exact hrefill
  · exact (Nat.sub_le _ _).trans hrefill

/-- A refill at most turns the time that has passed into tokens. -/
theorem potential_refill (capacity refillInterval : Nat) (hlast : bucket.lastRefill ≤ now) (hnow : now ≤ finish) :
    (bucket.refill capacity refillInterval now).tokens + (finish - (bucket.refill capacity refillInterval now).lastRefill) / refillInterval ≤
      bucket.tokens + (finish - bucket.lastRefill) / refillInterval := by
  rw [refill]
  split
  · have hsplit : (now - bucket.lastRefill) / refillInterval + (finish - now) / refillInterval ≤
        (finish - bucket.lastRefill) / refillInterval := by
      have hsum : now - bucket.lastRefill + (finish - now) = finish - bucket.lastRefill := by omega
      exact hsum ▸ Nat.div_add_div_le_add_div
    dsimp only
    omega
  · exact le_refl _

theorem mem_grants {time : Nat} (h : time ∈ bucket.grants capacity refillInterval times) : time ∈ times := by
  induction times generalizing bucket with
  | nil => exact h
  | cons now times ih =>
      rw [grants_cons] at h
      split at h
      · rcases List.mem_cons.mp h with rfl | h
        · exact List.mem_cons_self
        · exact List.mem_cons_of_mem _ (ih h)
      · exact List.mem_cons_of_mem _ (ih h)

/-- A call leaves a bucket that the later calls find in order. -/
theorem sorted_take (refillInterval : Nat) (hcapacity : bucket.capacity = capacity) (hsorted : (bucket.lastRefill :: now :: times).Pairwise (· ≤ ·)) :
    ((bucket.take capacity refillInterval now).2.lastRefill :: times).Pairwise (· ≤ ·) := by
  obtain ⟨hlast, hnow, hsorted⟩ := by simpa only [List.pairwise_cons] using hsorted
  rw [lastRefill_take hcapacity]
  have hrefill := lastRefill_refill_le capacity refillInterval (hlast now List.mem_cons_self)
  exact List.pairwise_cons.mpr ⟨fun time htime => hrefill.trans (hnow time htime), hsorted⟩

/-- Up to a time a bucket grants at most its tokens and those that the time brings. -/
theorem grants_potential (refillInterval finish : Nat) (hcapacity : bucket.capacity = capacity) (hsorted : (bucket.lastRefill :: times).Pairwise (· ≤ ·)) :
    (bucket.grants capacity refillInterval times).countP (· ≤ finish) ≤
      bucket.tokens + (finish - bucket.lastRefill) / refillInterval := by
  induction times generalizing bucket with
  | nil => exact Nat.zero_le _
  | cons now times ih =>
      have hrest := ih (capacity_take hcapacity) (sorted_take refillInterval hcapacity hsorted)
      obtain ⟨hlast, hnow, -⟩ := by simpa only [List.pairwise_cons] using hsorted
      by_cases hfinish : now ≤ finish
      · have hpotential := potential_refill capacity refillInterval (hlast now List.mem_cons_self) hfinish
        rw [grants_cons]
        rw [take_eq hcapacity] at hrest ⊢
        split
        · next hempty =>
          rw [if_pos hempty] at hrest
          exact hrest.trans hpotential
        · next htaken =>
          rw [if_neg htaken] at hrest
          rw [if_pos rfl, List.countP_cons_of_pos (p := fun time => decide (time ≤ finish)) (decide_eq_true hfinish)]
          dsimp only at hrest ⊢
          omega
      · have hlate : (bucket.grants capacity refillInterval (now :: times)).countP (· ≤ finish) = 0 := by
          refine List.countP_eq_zero.mpr fun time htime => ?_
          rcases List.mem_cons.mp (mem_grants htime) with rfl | htime
          · simpa using hfinish
          · have hle := hnow time htime
            simp only [decide_eq_true_eq]
            omega
        rw [hlate]
        exact Nat.zero_le _

/-- A call that comes at once finds the bucket refilled. -/
theorem refill_refill (bucket : TokenBucket) (capacity refillInterval now : Nat) :
    (bucket.refill capacity refillInterval now).refill capacity refillInterval now = bucket.refill capacity refillInterval now := by
  by_cases h : 0 < (now - bucket.lastRefill) / refillInterval
  · rw [refill, refill, if_pos h]
    dsimp only
    rw [Nat.sub_self, Nat.zero_div, if_neg (lt_irrefl 0)]
  · rw [refill, refill, if_neg h, if_neg h]

theorem grants_refill (hcapacity : bucket.capacity = capacity) :
    (bucket.refill capacity refillInterval now).grants capacity refillInterval (now :: times) =
      bucket.grants capacity refillInterval (now :: times) := by
  have htake : (bucket.refill capacity refillInterval now).take capacity refillInterval now = bucket.take capacity refillInterval now := by
    rw [take_eq ((capacity_refill _ _ _ _).trans hcapacity), take_eq hcapacity, refill_refill]
  rw [grants_cons, grants_cons, htake]

/-- What a bucket grants in a window. -/
theorem grants_window (hinterval : 0 < refillInterval) (hcapacity : bucket.capacity = capacity) (htokens : bucket.tokens ≤ capacity)
    (hsorted : (bucket.lastRefill :: times).Pairwise (· ≤ ·)) (length : Nat) :
    (bucket.grants capacity refillInterval times).countP (fun time => start ≤ time ∧ time ≤ start + length) ≤
      capacity + (length + (refillInterval - 1)) / refillInterval := by
  induction times generalizing bucket with
  | nil => exact Nat.zero_le _
  | cons now times ih =>
      have hrest := ih (capacity_take hcapacity) (tokens_take_le hcapacity htokens) (sorted_take refillInterval hcapacity hsorted)
      by_cases hstart : now < start
      · -- The window has not begun.
        rw [grants_cons]
        split
        · rwa [List.countP_cons_of_neg (by simp only [decide_eq_true_eq]; omega)]
        · exact hrest
      · -- From here on the tokens are those of the refilled bucket and those that time brings.
        have hlast := (List.pairwise_cons.mp hsorted).1 now List.mem_cons_self
        have hrefill := lastRefill_refill_le capacity refillInterval hlast
        have hle := tokens_refill_le refillInterval now htokens
        have hpotential := @grants_potential _ capacity (now :: times) refillInterval (start + length)
          ((capacity_refill bucket capacity refillInterval now).trans hcapacity)
          (List.pairwise_cons.mpr ⟨fun time htime => ?_, (List.pairwise_cons.mp hsorted).2⟩)
        · rw [grants_refill hcapacity] at hpotential
          have hmono : (bucket.grants capacity refillInterval (now :: times)).countP (fun time => start ≤ time ∧ time ≤ start + length) ≤
              (bucket.grants capacity refillInterval (now :: times)).countP (· ≤ start + length) :=
            List.countP_mono_left fun time _ h => decide_eq_true (of_decide_eq_true h).2
          have hdiv : (start + length - (bucket.refill capacity refillInterval now).lastRefill) / refillInterval ≤
              (length + (refillInterval - 1)) / refillInterval := by
            refine Nat.div_le_div_right ?_
            rw [refill]
            split
            · dsimp only
              omega
            · next hno =>
              have hlt := (Nat.div_eq_zero_iff_lt hinterval).mp (Nat.eq_zero_of_not_pos hno)
              omega
          omega
        · rcases List.mem_cons.mp htime with rfl | htime
          · exact hrefill
          · exact hrefill.trans ((List.pairwise_cons.mp (List.pairwise_cons.mp hsorted).2).1 time htime)

/-- A call that comes a refill interval after the last refill is granted. -/
theorem take_granted (hinterval : 0 < refillInterval) (hcapacity : bucket.capacity = capacity) (hpos : 0 < capacity)
    (h : bucket.lastRefill + refillInterval ≤ now ∨ 0 < bucket.tokens) : (bucket.take capacity refillInterval now).1 = true := by
  have hrefilled : 0 < (bucket.refill capacity refillInterval now).tokens := by
    rw [refill]
    split
    · next hrefill =>
      have hmax : 0 < u32Max := by decide
      dsimp only
      omega
    · next hno =>
      rcases h with h | h
      · exact absurd (Nat.div_pos (by omega) hinterval) hno
      · exact h
  rw [take_eq hcapacity, if_neg hrefilled.ne']

/-- Calls that are a refill interval apart are granted. -/
theorem grants_spaced (hinterval : 0 < refillInterval) (hcapacity : bucket.capacity = capacity) (hpos : 0 < capacity)
    (hlast : bucket.lastRefill + refillInterval ≤ now ∨ 0 < bucket.tokens) (hnow : bucket.lastRefill ≤ now)
    (hspaced : (now :: times).IsChain (fun earlier later => earlier + refillInterval ≤ later)) :
    bucket.grants capacity refillInterval (now :: times) = now :: times := by
  induction times generalizing bucket now with
  | nil => rw [grants_cons, if_pos (take_granted hinterval hcapacity hpos hlast)]; rfl
  | cons later times ih =>
      obtain ⟨hlater, hspaced⟩ := List.isChain_cons_cons.mp hspaced
      have hrefill := lastRefill_refill_le capacity refillInterval hnow
      have hnext := @ih (bucket.take capacity refillInterval now).2 later (capacity_take hcapacity) (.inl ?_) ?_ hspaced
      · rw [grants_cons, if_pos (take_granted hinterval hcapacity hpos hlast), hnext]
      · rw [lastRefill_take hcapacity]
        omega
      · rw [lastRefill_take hcapacity]
        omega

/-- In a window of some length a bucket grants at most its capacity and the refills that the length touches, and a caller
that waits for a refill after every call is never refused once the bucket was full. -/
theorem bucket_bounded (hinterval : 0 < refillInterval) (hsorted : (now :: times).Pairwise (· ≤ ·)) :
    (∀ start length, ((TokenBucket.new capacity now).grants capacity refillInterval times).countP
        (fun time => start ≤ time ∧ time ≤ start + length) ≤ capacity + (length + (refillInterval - 1)) / refillInterval) ∧
      ∀ first spaced lastRefill, 0 < capacity → lastRefill ≤ first →
        (first :: spaced).IsChain (fun earlier later => earlier + refillInterval ≤ later) →
        (⟨capacity, capacity, lastRefill⟩ : TokenBucket).grants capacity refillInterval (first :: spaced) = first :: spaced :=
  ⟨fun _ => grants_window hinterval rfl (le_refl _) hsorted, fun _ _ _ hpos hlast => grants_spaced hinterval rfl hpos (.inr hpos) hlast⟩

/-- A bucket of one token that is a nanosecond away from a refill grants two calls in that nanosecond. -/
theorem bucket_bounded_second : ((TokenBucket.new 1 0).grants 1 1000000000 [999999999, 1000000000]).countP
      (fun time => 999999999 ≤ time ∧ time ≤ 999999999 + 1) ≤ 1 + (1 + (1000000000 - 1)) / 1000000000 :=
  (bucket_bounded (by decide) (by decide)).1 999999999 1

/-- The tokens of a window are not bounded by the whole refill intervals in it. -/
theorem bucket_exceeds_floor : ¬∀ capacity refillInterval now times start length, 0 < refillInterval → (now :: times).Pairwise (· ≤ ·) →
    ((TokenBucket.new capacity now).grants capacity refillInterval times).countP (fun time => start ≤ time ∧ time ≤ start + length) ≤
      capacity + length / refillInterval := fun h =>
  absurd (h 1 1000000000 0 [999999999, 1000000000] 999999999 1 (by decide) (by decide)) (by decide)

end Rustgo.Observation.TokenBucket
