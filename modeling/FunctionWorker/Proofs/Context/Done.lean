import FunctionWorker.Proofs.Context.Tree

/-!
# When the contexts of a tree are done

Results:
1. `reason_of_cancel`: only what is derived from a node notices that it is cancelled.
2. `reason_of_same`: the order of the steps does not matter, nor does repetition.
3. `done_below`: what is done stays done, and so is what is derived from it.
4. `reasons_follow_cancels`: all of this at every moment of a tree's growth.
-/

namespace FunctionWorker.ContextTree

/-- The steps that derive contexts. -/
def derivations (ss : List TreeStep) : List TreeStep :=
  ss.filter fun
    | .derive .. => true
    | .cancel _ => false

section Run

variable {t : ContextTree} {ss : List TreeStep}

theorem steps_append {more : List TreeStep} {later : ContextTree} (h : start.steps ss = some t)
    (hmore : t.steps more = some later) : start.steps (ss ++ more) = some later := by
  rw [steps, List.foldlM_append]
  exact Option.bind_eq_some_iff.2 ⟨t, h, hmore⟩

/-- Nodes stay where they are. -/
theorem nodes_prefix {more : List TreeStep} {later : ContextTree}
    (hmore : t.steps more = some later) : t.nodes <+: later.nodes := by
  induction more generalizing t with
  | nil =>
    cases hmore
    exact List.prefix_refl _
  | cons x rest ih =>
    obtain ⟨next, hnext, hrest⟩ := Option.bind_eq_some_iff.1 hmore
    refine List.IsPrefix.trans ?_ (ih hrest)
    cases steps_of_step hnext with
    | derive _ => exact List.prefix_append _ _
    | cancel _ _ => exact List.prefix_refl _

/-- The nodes of a tree are as if nothing had been cancelled. -/
theorem nodes_of_derivations (h : start.steps ss = some t) :
    ∃ plain, start.steps (derivations ss) = some plain ∧ plain.nodes = t.nodes ∧
      plain.cancellations.made = t.cancellations.made := by
  induction ss using List.reverseRecOn generalizing t with
  | nil =>
    cases h
    exact ⟨start, rfl, rfl, rfl⟩
  | append_singleton ss x ih =>
    obtain ⟨before, hbefore, hlast⟩ := steps_concat h
    obtain ⟨plain, hplain, hnodes, hmade⟩ := ih hbefore
    cases hlast with
    | @derive parent now d node hnode =>
      obtain ⟨hderived, hnext⟩ := TreeLemmas.apply_congr d now node.context hmade
      refine ⟨⟨plain.nodes ++ [(d.apply now node.context plain.cancellations).1],
        (d.apply now node.context plain.cancellations).2⟩, ?_, by rw [hnodes, hderived], hnext⟩
      rw [derivations, List.filter_append]
      refine steps_append hplain (Option.bind_eq_some_iff.2 ⟨_, ?_, rfl⟩)
      rw [← hnodes] at hnode
      exact Option.bind_eq_some_iff.2 ⟨node, hnode, rfl⟩
    | cancel _ _ =>
      refine ⟨plain, ?_, hnodes, hmade⟩
      rw [derivations, List.filter_append]
      exact (congrArg start.steps (List.append_nil _)).trans hplain

theorem parents_derivations (ss : List TreeStep) : parents (derivations ss) = parents ss := by
  induction ss with
  | nil => rfl
  | cons x rest ih =>
    cases x with
    | derive parent now d => exact congrArg (parent :: ·) ih
    | cancel k => exact ih

theorem Above.congr {ss' : List TreeStep} {a k : Nat} (hsame : parents ss = parents ss')
    (h : Above ss a k) : Above ss' a k := by
  induction h with
  | self => exact .self
  | derived hparent _ ih => exact .derived (hsame ▸ hparent) ih

theorem Above.trans {a b k : Nat} (h : Above ss a b) (h' : Above ss b k) : Above ss a k := by
  induction h' with
  | self => exact h
  | derived hparent _ ih => exact .derived hparent ih

theorem struck_concat (h : Follows ss t) {a k : Nat} (hk : k < t.nodes.length) :
    Struck (ss ++ [.cancel a]) k ↔ Struck ss k ∨ Above ss a k := by
  simp only [Struck, h.above_append_iff hk, cancels, List.filterMap_append, List.mem_append,
    or_and_right, exists_or]
  simp

/-- Only the nodes that it is above notice that a node is cancelled. -/
theorem reason_of_cancel (h : Follows ss t) {a k : Nat} {node : Derived} {t' : ContextTree}
    (hcancel : t.step (.cancel a) = some t') (hnode : t.nodes[k]? = some node)
    (habove : ¬ Above ss a k) (now : Int) :
    t'.nodes[k]? = some node ∧
      node.context.reason? t'.cancellations now = node.context.reason? t.cancellations now := by
  have hsteps := steps_of_step hcancel
  have hfollows := follows_step h hsteps
  have hnode' : t'.nodes[k]? = some node := by
    cases hsteps
    exact hnode
  refine ⟨hnode', Context.reason_congr (Bool.eq_iff_iff.2 ?_)⟩
  rw [canceled_iff hfollows hnode', canceled_iff h hnode,
    struck_concat h (List.getElem?_eq_some_iff.1 hnode).1]
  exact or_iff_left habove

/-- The order of derivations and cancellations does not matter, nor how often a node is cancelled.
-/
theorem reason_of_same (h : start.steps ss = some t) {ss' : List TreeStep} {t' : ContextTree}
    (h' : start.steps ss' = some t') (hderivations : derivations ss' = derivations ss)
    (hcancels : ∀ a, a ∈ cancels ss' ↔ a ∈ cancels ss) :
    t'.nodes = t.nodes ∧ ∀ node ∈ t.nodes, ∀ now,
      node.context.reason? t'.cancellations now = node.context.reason? t.cancellations now := by
  obtain ⟨plain, hplain, hnodes, _⟩ := nodes_of_derivations h
  obtain ⟨plain', hplain', hnodes', _⟩ := nodes_of_derivations h'
  rw [hderivations, hplain] at hplain'
  cases hplain'
  have hsame : t'.nodes = t.nodes := hnodes'.symm.trans hnodes
  have hparents : parents ss' = parents ss := by
    rw [← parents_derivations ss', hderivations, parents_derivations]
  refine ⟨hsame, fun node hmem now => Context.reason_congr (Bool.eq_iff_iff.2 ?_)⟩
  obtain ⟨k, hk⟩ := List.mem_iff_getElem?.1 hmem
  rw [canceled_iff (follows_of_steps h') (hsame ▸ hk), canceled_iff (follows_of_steps h) hk]
  exact exists_congr fun a => and_congr (hcancels a) ⟨Above.congr hparents, Above.congr hparents.symm⟩

/-- What is done stays done, and so is all that is derived from it. -/
theorem done_below (h : start.steps ss = some t) {more : List TreeStep} {later : ContextTree}
    (hmore : t.steps more = some later) {k j : Nat} {node node' : Derived} {now now' : Int}
    (hnode : t.nodes[k]? = some node) (hnode' : later.nodes[j]? = some node')
    (habove : Above (ss ++ more) k j) (hnow : now ≤ now')
    (hdone : (node.context.reason? t.cancellations now).isSome = true) :
    (node'.context.reason? later.cancellations now').isSome = true := by
  have hlater := follows_of_steps (steps_append h hmore)
  rw [Context.reason_isSome_iff] at hdone ⊢
  rcases hdone with hcanceled | hpassed
  · obtain ⟨a, ha, hak⟩ := (canceled_iff (follows_of_steps h) hnode).1 hcanceled
    refine .inl ((canceled_iff hlater hnode').2 ⟨a, ?_, hak.append.trans habove⟩)
    rw [cancels, List.filterMap_append]
    exact List.mem_append_left _ ha
  · simp only [Option.any_eq_true, decide_eq_true_eq] at hpassed ⊢
    obtain ⟨deadline, hdeadline, hle⟩ := hpassed
    -- The node below has this deadline or an earlier one.
    obtain ⟨rest, hrest⟩ := nodes_prefix hmore
    have hsame : later.nodes[k]? = some node := by
      rw [← hrest, List.getElem?_append_left (List.getElem?_eq_some_iff.1 hnode).1, hnode]
    obtain ⟨nearer, hnearer, heq⟩ := hlater.deadline hsame hnode' habove hdeadline
    exact .inr ⟨nearer, heq, Int.le_trans hnearer (Int.le_trans hle hnow)⟩

end Run

/-! ## The contexts of a tree -/

/-- At every moment of a tree's growth, whatever the order of its steps: a context is cancelled
exactly when its node or one above it was cancelled, and else it is done exactly when its deadline
has passed; its own handle tells the same. A wait for a context to be done is over when the context
is done, save that a deadline shows only when the clock has moved since the wait began. Nodes that
are not below a cancelled one do not notice it; order and repetition of cancellations do not matter;
and what is done stays done, with all that is or will be derived from it. -/
theorem reasons_follow_cancels {ss : List TreeStep} {t : ContextTree}
    (h : start.steps ss = some t) :
    (∀ (k : Nat) (node : Derived) (now : Int), t.nodes[k]? = some node →
      (node.context.reason? t.cancellations now = some .canceled ↔ Struck ss k) ∧
      (node.context.reason? t.cancellations now = some .deadlineExceeded ↔
        ¬ Struck ss k ∧ ∃ deadline ≤ now, node.context.deadline = some deadline) ∧
      (∀ point, node.point = some point →
        (t.cancellations.isCancelled point = true ↔
          node.context.reason? t.cancellations now = some .canceled)) ∧
      ∀ since, node.context.isOver (node.context.alarm since) t.cancellations now = true ↔
        node.context.reason? t.cancellations now = some .canceled ∨
          (node.context.reason? t.cancellations now).isSome = true ∧ since < now) ∧
    (∀ (a k : Nat) (node : Derived) (t' : ContextTree) (now : Int),
      t.step (.cancel a) = some t' → t.nodes[k]? = some node → ¬ Above ss a k →
        t'.nodes[k]? = some node ∧
          node.context.reason? t'.cancellations now = node.context.reason? t.cancellations now) ∧
    (∀ (ss' : List TreeStep) (t' : ContextTree), start.steps ss' = some t' →
      derivations ss' = derivations ss → (∀ a, a ∈ cancels ss' ↔ a ∈ cancels ss) →
        t'.nodes = t.nodes ∧ ∀ node ∈ t.nodes, ∀ now,
          node.context.reason? t'.cancellations now = node.context.reason? t.cancellations now) ∧
    ∀ (more : List TreeStep) (later : ContextTree) (k j : Nat) (node node' : Derived)
      (now now' : Int), t.steps more = some later → t.nodes[k]? = some node →
        later.nodes[j]? = some node' → Above (ss ++ more) k j → now ≤ now' →
          (node.context.reason? t.cancellations now).isSome = true →
            (node'.context.reason? later.cancellations now').isSome = true := by
  have hfollows := follows_of_steps h
  refine ⟨fun k node now hnode => ⟨?canceled, ?deadline, ?handle, fun since => ?wait⟩,
    fun a k node t' now hcancel hnode habove => reason_of_cancel hfollows hcancel hnode habove now,
    fun ss' t' h' => reason_of_same h h',
    fun more later k j node node' now now' hmore hnode hnode' habove hnow =>
      done_below h hmore hnode hnode' habove hnow⟩
  case canceled => rw [Context.reason_eq_canceled_iff, canceled_iff hfollows hnode]
  case deadline =>
    rw [Context.reason_eq_deadlineExceeded_iff, ← canceled_iff hfollows hnode,
      Bool.not_eq_true, Option.any_eq_true]
    simp only [decide_eq_true_eq, and_comm]
  case handle =>
    intro point hpoint
    rw [Context.reason_eq_canceled_iff, hfollows.own hnode hpoint, Option.any_some]
  case wait => exact Context.isOver_alarm_iff

/-- A branch under a cancelled node, and one beside it. -/
def branching : List TreeStep :=
  [.derive 0 0 .cancel, .derive 0 0 .cancel, .derive 1 0 (.entry (.traceId "id")), .cancel 1,
    .derive 3 0 (.deadline 5)]

/-- A node that was derived below a cancelled one is cancelled at once, and one beside it is not. -/
theorem reasons_follow_cancels_branching :
    ∃ t, start.steps branching = some t ∧ ∀ node node' now, t.nodes[4]? = some node →
      t.nodes[2]? = some node' →
        node.context.reason? t.cancellations now = some .canceled ∧
          node'.context.reason? t.cancellations now ≠ some .canceled := by
  obtain ⟨t, ht⟩ : ∃ t, start.steps branching = some t := ⟨_, rfl⟩
  have hreasons := (reasons_follow_cancels ht).1
  refine ⟨t, ht, fun node node' now hnode hnode' => ⟨?_, fun hcanceled => ?_⟩⟩
  · have habove : Above branching 1 4 := .derived rfl (.derived rfl .self)
    exact (hreasons 4 node now hnode).1.2 ⟨1, by decide, habove⟩
  · obtain ⟨a, ha, habove⟩ := (hreasons 2 node' now hnode').1.1 hcanceled
    obtain rfl : a = 1 := by simpa [cancels, branching] using ha
    cases habove with
    | derived hparent habove =>
      cases hparent
      cases habove

/-- A wait that begins when the deadline has passed is not over at once. -/
theorem waits_past_deadline :
    ∃ t node, start.steps [.derive 0 0 (.deadline 0)] = some t ∧ t.nodes[1]? = some node ∧
      node.context.reason? t.cancellations 0 = some .deadlineExceeded ∧
      node.context.isOver (node.context.alarm 0) t.cancellations 0 = false :=
  ⟨_, _, rfl, rfl, by decide, by decide⟩

end FunctionWorker.ContextTree
