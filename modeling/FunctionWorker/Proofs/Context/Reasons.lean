import FunctionWorker.Context.Basic

/-!
# Why a context is done, and when a wait for that ends

Results:
1. `reason_eq_canceled_iff`, `reason_eq_deadlineExceeded_iff`: the reasons, of which a cancellation
   comes first.
2. `isOver_alarm_iff`: a wait is over when the context is done; but a deadline that had passed when
   the wait began shows only when the clock moves.
-/

namespace FunctionWorker.Context

/-! ## Reasons -/

section

variable {ctx : Context} {c : Cancellations} {now : Int}

theorem reason_eq_canceled_iff :
    ctx.reason? c now = some .canceled ↔ ctx.point.any c.isCancelled = true := by
  unfold reason?
  split
  · next h => simp [h]
  · next h => split <;> simp [h]

theorem reason_eq_deadlineExceeded_iff :
    ctx.reason? c now = some .deadlineExceeded ↔
      ctx.point.any c.isCancelled = false ∧ ctx.deadline.any (· ≤ now) = true := by
  unfold reason?
  split
  · next h => simp [h]
  · next h => split <;> simp [*]

theorem reason_isSome_iff :
    (ctx.reason? c now).isSome = true ↔
      ctx.point.any c.isCancelled = true ∨ ctx.deadline.any (· ≤ now) = true := by
  unfold reason?
  split
  · next h => simp [h]
  · next h => split <;> simp [*]

/-- The reason depends on the cancellations only through the nearest point. -/
theorem reason_congr {c' : Cancellations}
    (h : ctx.point.any c.isCancelled = ctx.point.any c'.isCancelled) :
    ctx.reason? c now = ctx.reason? c' now := by
  unfold reason?
  rw [h]

end

/-! ## Waits -/

section

variable {ctx : Context} {c : Cancellations} {since now : Int}

/-- The alarm rings when the deadline has passed, but not before the clock moves. -/
theorem alarm_any_iff :
    (ctx.alarm since).any (· ≤ now) = true ↔
      ctx.deadline.any (· ≤ now) = true ∧ since < now := by
  cases hdeadline : ctx.deadline with
  | none => simp [alarm, hdeadline]
  | some deadline =>
    simp only [alarm, hdeadline, Option.map_some, Option.any_some, decide_eq_true_eq]
    omega

/-- A wait that began at `since`. -/
theorem isOver_alarm_iff :
    ctx.isOver (ctx.alarm since) c now = true ↔
      ctx.reason? c now = some .canceled ∨
        (ctx.reason? c now).isSome = true ∧ since < now := by
  rw [reason_eq_canceled_iff, reason_isSome_iff, isOver, Bool.or_eq_true, alarm_any_iff]
  constructor
  · rintro (hcanceled | ⟨hpassed, hlater⟩)
    · exact .inl hcanceled
    · exact .inr ⟨.inr hpassed, hlater⟩
  · rintro (hcanceled | ⟨hcanceled | hpassed, hlater⟩)
    · exact .inl hcanceled
    · exact .inl hcanceled
    · exact .inr ⟨hpassed, hlater⟩

theorem done_of_isOver (h : ctx.isOver (ctx.alarm since) c now = true) :
    (ctx.reason? c now).isSome = true := by
  rcases isOver_alarm_iff.1 h with hcanceled | hdone
  · rw [hcanceled]
    rfl
  · exact hdone.1

end

end FunctionWorker.Context
