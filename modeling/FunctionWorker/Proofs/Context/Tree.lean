import Mathlib.Data.List.Induction
import FunctionWorker.Context.Derivation
import FunctionWorker.Proofs.Context.Reasons

/-!
# Cancellation in a tree of contexts

A context looks only at its nearest point of cancellation. That this is enough needs an invariant:
the points around the nearest point of a node are just the points of the nodes above it, whatever
lies between them and in whatever order contexts were derived and points were cancelled.

Results:
1. `steps_of_step`: all that a step of a tree can be.
2. `follows_of_steps`: the invariant, kept by every step of a tree.
3. `canceled_iff`: a node is cancelled exactly when it or a node above it was.
-/

namespace FunctionWorker

/-! ## Definitions -/

/-- The numbers of the points that can cancel a context. -/
def Context.numbers (ctx : Context) : List Nat := (ctx.point.map CancelPoint.path).getD []

namespace ContextTree

/-- The nodes from which the others were derived, in the order of the derivations. -/
def parents (ss : List TreeStep) : List Nat :=
  ss.filterMap fun
    | .derive parent _ _ => some parent
    | .cancel _ => none

/-- The nodes that were cancelled by themselves. -/
def cancels (ss : List TreeStep) : List Nat :=
  ss.filterMap fun
    | .derive .. => none
    | .cancel node => some node

/-- `Above ss a k`: node `a` is node `k`, or `k` was derived from a node that it is above. The root
has no parent, and the first derivation makes node 1. -/
inductive Above (ss : List TreeStep) : Nat → Nat → Prop
  | self {k : Nat} : Above ss k k
  | derived {a parent k : Nat} : (parents ss)[k]? = some parent → Above ss a parent →
      Above ss a (k + 1)

/-- The node itself or one above it was cancelled. -/
def Struck (ss : List TreeStep) (k : Nat) : Prop := ∃ a ∈ cancels ss, Above ss a k

/-- The number of a node's own point, if it has one. -/
def numberOf (t : ContextTree) (k : Nat) : Option Nat :=
  (t.nodes[k]?.bind (·.point)).map (·.number)

/-- The steps that a tree can make. -/
inductive Steps (t : ContextTree) : TreeStep → ContextTree → Prop
  | derive {parent : Nat} {now : Int} {d : Derivation} {node : Derived} :
      t.nodes[parent]? = some node →
      Steps t (.derive parent now d)
        ⟨t.nodes ++ [(d.apply now node.context t.cancellations).1],
          (d.apply now node.context t.cancellations).2⟩
  | cancel {k : Nat} {node : Derived} {point : CancelPoint} :
      t.nodes[k]? = some node → node.point = some point →
      Steps t (.cancel k) { t with cancellations := t.cancellations.cancel point }

/-- How the points and the deadlines of a tree follow the steps that have made it. -/
structure Follows (ss : List TreeStep) (t : ContextTree) : Prop where
  size : t.nodes.length = (parents ss).length + 1
  earlier : ∀ {k parent : Nat}, (parents ss)[k]? = some parent → parent ≤ k
  struck : ∀ k ∈ cancels ss, ∃ n, t.numberOf k = some n
  own : ∀ {k : Nat} {node : Derived} {point : CancelPoint}, t.nodes[k]? = some node →
    node.point = some point → node.context.point = some point
  below : ∀ {k n}, t.numberOf k = some n → n < t.cancellations.made
  different : ∀ {j k n}, t.numberOf j = some n → t.numberOf k = some n → j = k
  numbers : ∀ {k : Nat} {node : Derived}, t.nodes[k]? = some node → ∀ n,
    n ∈ node.context.numbers ↔ ∃ a, Above ss a k ∧ t.numberOf a = some n
  cancelled : ∀ n, n ∈ t.cancellations.cancelled ↔ ∃ a ∈ cancels ss, t.numberOf a = some n
  deadline : ∀ {a k : Nat} {node node' : Derived} {deadline : Int}, t.nodes[a]? = some node →
    t.nodes[k]? = some node' → Above ss a k → node.context.deadline = some deadline →
      ∃ nearer ≤ deadline, node'.context.deadline = some nearer

end ContextTree

/-! ## Derivations -/

/-- What a derivation makes of a context: a context with the same points, or one with a new point
of its own inside them. -/
inductive Derivation.Makes (ctx : Context) (c : Cancellations) : Derived → Cancellations → Prop
  | plain {derived : Derived} : derived.point = none → derived.context.point = ctx.point →
      Makes ctx c derived c
  | own {derived : Derived} : derived.point = some (c.create ctx.point).1 →
      derived.context.point = some (c.create ctx.point).1 →
      Makes ctx c derived (c.create ctx.point).2

theorem Derivation.makes_apply (d : Derivation) (now : Int) (ctx : Context) (c : Cancellations) :
    Makes ctx c (d.apply now ctx c).1 (d.apply now ctx c).2 := by
  cases d with
  | entry e => exact .plain rfl rfl
  | attach h => exact .plain rfl rfl
  | cancel => exact .own rfl rfl
  | deadline ms => exact .own rfl rfl
  | timeout ms => exact .own rfl rfl

namespace TreeLemmas

/-- A derived context has the nearest deadline of its parent, or an earlier one. -/
theorem tightened_le {ctx : Context} {wanted deadline : Int} (h : ctx.deadline = some deadline) :
    ctx.tightened wanted ≤ deadline := by
  simp only [Context.tightened, h]
  split <;> omega

theorem deadline_apply {ctx : Context} {deadline : Int} (d : Derivation) (now : Int)
    (c : Cancellations) (h : ctx.deadline = some deadline) :
    ∃ nearer ≤ deadline, (d.apply now ctx c).1.context.deadline = some nearer := by
  cases d with
  | entry e => exact ⟨deadline, Int.le_refl _, h⟩
  | attach hooks => exact ⟨deadline, Int.le_refl _, h⟩
  | cancel => exact ⟨deadline, Int.le_refl _, h⟩
  | deadline ms => exact ⟨ctx.tightened ms, tightened_le h, rfl⟩
  | timeout ms => exact ⟨ctx.tightened (now + ms), tightened_le h, rfl⟩

/-- What is derived depends on the cancellations only through the number that comes next. -/
theorem apply_congr (d : Derivation) (now : Int) (ctx : Context) {c c' : Cancellations}
    (h : c.made = c'.made) :
    (d.apply now ctx c).1 = (d.apply now ctx c').1 ∧
      (d.apply now ctx c).2.made = (d.apply now ctx c').2.made := by
  cases d <;>
    simp [Derivation.apply, Derivation.apply.own, Context.withCancel, Context.withDeadline,
      Context.withTimeout, Cancellations.create, h]

theorem isCancelled_iff {ctx : Context} {c : Cancellations} :
    ctx.point.any c.isCancelled = true ↔ ∃ n ∈ ctx.numbers, n ∈ c.cancelled := by
  cases h : ctx.point <;> simp [Context.numbers, h, Cancellations.isCancelled]

end TreeLemmas

namespace ContextTree

open TreeLemmas

/-! ## Single steps -/

section Step

variable {t t' : ContextTree} {ss more : List TreeStep} {x : TreeStep}

theorem steps_of_step (h : t.step x = some t') : t.Steps x t' := by
  cases x with
  | derive parent now d =>
    obtain ⟨node, hnode, h⟩ := Option.bind_eq_some_iff.1 h
    cases h
    exact .derive hnode
  | cancel k =>
    obtain ⟨node, hnode, h⟩ := Option.bind_eq_some_iff.1 h
    obtain ⟨point, hpoint, h⟩ := Option.bind_eq_some_iff.1 h
    cases h
    exact .cancel hnode hpoint

theorem Above.append {a k : Nat} (h : Above ss a k) : Above (ss ++ more) a k := by
  induction h with
  | self => exact .self
  | derived hparent _ ih =>
    refine .derived ?_ ih
    rw [parents, List.filterMap_append]
    exact (List.getElem?_append_left (List.getElem?_eq_some_iff.1 hparent).1).trans hparent

/-- Later derivations put nothing above a node. -/
theorem Follows.above_append_iff (h : Follows ss t) {a k : Nat} (hk : k < t.nodes.length) :
    Above (ss ++ more) a k ↔ Above ss a k := by
  refine ⟨fun habove => ?_, Above.append⟩
  induction habove with
  | self => exact .self
  | @derived parent k hparent _ ih =>
    have hlt : k < (parents ss).length := by
      rw [h.size] at hk
      exact Nat.lt_of_succ_lt_succ hk
    rw [parents, List.filterMap_append] at hparent
    have hold : (parents ss)[k]? = some parent :=
      (List.getElem?_append_left hlt).symm.trans hparent
    exact .derived hold (ih (Nat.lt_of_le_of_lt (h.earlier hold) (Nat.lt_of_succ_lt hk)))

/-- What stands above the node that was derived last: itself, and what stands above its parent. -/
theorem Follows.above_last_iff (h : Follows ss t) {a parent : Nat} {now : Int} {d : Derivation}
    (hparent : parent < t.nodes.length) :
    Above (ss ++ [.derive parent now d]) a t.nodes.length ↔
      a = t.nodes.length ∨ Above ss a parent := by
  have hlast : (parents (ss ++ [.derive parent now d]))[(parents ss).length]? = some parent := by
    rw [parents, List.filterMap_append]
    exact List.getElem?_concat_length
  have hparents : Above (ss ++ [.derive parent now d]) a parent ↔ Above ss a parent :=
    h.above_append_iff hparent
  rw [← hparents, h.size]
  constructor
  · intro habove
    cases habove with
    | self => exact .inl rfl
    | derived hother habove =>
      rw [hlast] at hother
      cases hother
      exact .inr habove
  · rintro (rfl | habove)
    · exact .self
    · exact .derived hlast habove

theorem Follows.above_le (h : Follows ss t) {a k : Nat} (habove : Above ss a k) : a ≤ k := by
  induction habove with
  | self => exact Nat.le_refl _
  | derived hparent _ ih => exact Nat.le_succ_of_le (Nat.le_trans ih (h.earlier hparent))

theorem numberOf_push (t : ContextTree) (derived : Derived) (c : Cancellations) (k : Nat) :
    numberOf ⟨t.nodes ++ [derived], c⟩ k =
      if k = t.nodes.length then derived.point.map (·.number) else t.numberOf k := by
  unfold numberOf
  split
  · next h =>
    subst h
    simp
  · next h =>
    rcases Nat.lt_or_gt_of_ne h with hlt | hgt
    · rw [List.getElem?_append_left hlt]
    · rw [List.getElem?_eq_none (by simp; omega), List.getElem?_eq_none (Nat.le_of_lt hgt)]

theorem numberOf_lt {k n : Nat} (h : t.numberOf k = some n) : k < t.nodes.length := by
  simp only [numberOf, Option.map_eq_some_iff, Option.bind_eq_some_iff] at h
  obtain ⟨_, ⟨_, hnode, _⟩, _⟩ := h
  exact (List.getElem?_eq_some_iff.1 hnode).1

end Step

/-- What a derivation adds to the points around a context: nothing, or the next number. -/
structure Adds (ctx : Context) (c : Cancellations) (derived : Derived) (c' : Cancellations) :
    Prop where
  numbers : derived.context.numbers = (derived.point.map (·.number)).toList ++ ctx.numbers
  next : derived.point.map (·.number) = none ∧ c'.made = c.made ∨
    derived.point.map (·.number) = some c.made ∧ c'.made = c.made + 1
  cancelled : c'.cancelled = c.cancelled
  own : ∀ point, derived.point = some point → derived.context.point = some point

theorem adds_of_makes {ctx : Context} {c c' : Cancellations} {derived : Derived}
    (h : Derivation.Makes ctx c derived c') : Adds ctx c derived c' := by
  cases h with
  | plain hpoint hsame =>
    refine ⟨?_, .inl ⟨by simp [hpoint], rfl⟩, rfl, fun point h => ?_⟩
    · simp [Context.numbers, hpoint, hsame]
    · rw [hpoint] at h
      cases h
  | own hpoint hnew =>
    refine ⟨?_, .inr ⟨by simp [hpoint, Cancellations.create], rfl⟩, rfl, fun point h => ?_⟩
    · simp [Context.numbers, hpoint, hnew, CancelPoint.path, Cancellations.create]
    · rw [hnew, ← hpoint, h]

section Kept

variable {t t' : ContextTree} {ss : List TreeStep} {x : TreeStep}

theorem follows_start : Follows [] start := by
  constructor
  case size => rfl
  case earlier | struck | cancelled => simp [parents, cancels, start, Cancellations.start]
  case own =>
    intro k node point hnode hpoint
    obtain rfl := List.mem_singleton.1 (List.mem_of_getElem? hnode)
    cases hpoint
  case below =>
    intro k n h
    cases k <;> simp [numberOf, start] at h
  case different =>
    intro j k n h
    cases j <;> simp [numberOf, start] at h
  case numbers =>
    intro k node hnode n
    obtain rfl := List.mem_singleton.1 (List.mem_of_getElem? hnode)
    have hnone : ∀ a, numberOf start a = none := by
      intro a
      cases a <;> simp [numberOf, start]
    simp [Context.numbers, Context.point, Context.background, hnone]
  case deadline =>
    intro a k node node' deadline hnode _ _ hdeadline
    obtain rfl := List.mem_singleton.1 (List.mem_of_getElem? hnode)
    cases hdeadline

/-! ### A tree with one more node -/

section Push

variable {parent : Nat} {now : Int} {d : Derivation} {node derived : Derived} {c' : Cancellations}

/-- A node of the new tree is an old one, or it was derived just now. -/
theorem getElem?_push {k : Nat} {found : Derived}
    (h : (t.nodes ++ [derived])[k]? = some found) :
    k < t.nodes.length ∧ t.nodes[k]? = some found ∨ k = t.nodes.length ∧ found = derived := by
  rcases Nat.lt_or_ge k t.nodes.length with hlt | hge
  · exact .inl ⟨hlt, (List.getElem?_append_left hlt).symm.trans h⟩
  · rw [List.getElem?_append_right hge, List.getElem?_singleton] at h
    split at h
    · cases h
      exact .inr ⟨by omega, rfl⟩
    · cases h

/-- Old nodes keep their numbers. -/
theorem numberOf_push_old {k : Nat} (hk : k < t.nodes.length) :
    numberOf ⟨t.nodes ++ [derived], c'⟩ k = t.numberOf k := by
  rw [numberOf_push, if_neg (Nat.ne_of_lt hk)]

theorem numberOf_push_new :
    numberOf ⟨t.nodes ++ [derived], c'⟩ t.nodes.length = derived.point.map (·.number) := by
  rw [numberOf_push, if_pos rfl]

theorem below_push (h : Follows ss t) (hadds : Adds node.context t.cancellations derived c')
    {k n : Nat} (hk : numberOf ⟨t.nodes ++ [derived], c'⟩ k = some n) : n < c'.made := by
  rw [numberOf_push] at hk
  rcases hadds.next with ⟨hnone, hmade⟩ | ⟨hsome, hmade⟩ <;> rw [hmade]
  · split at hk
    · rw [hnone] at hk
      cases hk
    · exact h.below hk
  · split at hk
    · rw [hsome] at hk
      cases hk
      exact Nat.lt_succ_self _
    · exact Nat.lt_succ_of_lt (h.below hk)

theorem different_push (h : Follows ss t) (hadds : Adds node.context t.cancellations derived c')
    {j k n : Nat} (hj : numberOf ⟨t.nodes ++ [derived], c'⟩ j = some n)
    (hk : numberOf ⟨t.nodes ++ [derived], c'⟩ k = some n) : j = k := by
  rw [numberOf_push] at hj hk
  -- The new number is greater than all that were given out before.
  have hnew : ∀ {i}, t.numberOf i = some n → derived.point.map (·.number) ≠ some n := by
    intro i hi hn
    rcases hadds.next with ⟨hnone, _⟩ | ⟨hsome, _⟩
    · rw [hnone] at hn
      cases hn
    · rw [hsome] at hn
      cases hn
      exact Nat.lt_irrefl _ (h.below hi)
  split at hj <;> split at hk
  · omega
  · exact absurd hj (hnew hk)
  · exact absurd hk (hnew hj)
  · exact h.different hj hk

theorem numbers_push (h : Follows ss t) (hadds : Adds node.context t.cancellations derived c')
    (hnode : t.nodes[parent]? = some node) {k : Nat} {found : Derived}
    (hk : (t.nodes ++ [derived])[k]? = some found) (n : Nat) :
    n ∈ found.context.numbers ↔ ∃ a, Above (ss ++ [.derive parent now d]) a k ∧
      numberOf ⟨t.nodes ++ [derived], c'⟩ a = some n := by
  -- Nothing above an old node is new.
  have hold : ∀ {a k}, k < t.nodes.length → Above ss a k →
      numberOf ⟨t.nodes ++ [derived], c'⟩ a = t.numberOf a := fun hk habove =>
    numberOf_push_old (Nat.lt_of_le_of_lt (h.above_le habove) hk)
  rcases getElem?_push hk with ⟨hlt, hk⟩ | ⟨rfl, rfl⟩
  · rw [h.numbers hk]
    refine exists_congr fun a => ?_
    rw [h.above_append_iff hlt]
    exact and_congr_right fun habove => by rw [hold hlt habove]
  · have hparent : parent < t.nodes.length := (List.getElem?_eq_some_iff.1 hnode).1
    simp only [h.above_last_iff hparent, hadds.numbers, List.mem_append, Option.mem_toList,
      h.numbers hnode, or_and_right, exists_or, exists_eq_left, numberOf_push_new]
    refine or_congr_right (exists_congr fun a => and_congr_right fun habove => ?_)
    rw [hold hparent habove]

theorem deadline_push (h : Follows ss t) (hnode : t.nodes[parent]? = some node)
    (hnearer : ∀ {deadline : Int}, node.context.deadline = some deadline →
      ∃ nearer ≤ deadline, derived.context.deadline = some nearer)
    {a k : Nat} {upper lower : Derived} {deadline : Int}
    (hupper : (t.nodes ++ [derived])[a]? = some upper)
    (hlower : (t.nodes ++ [derived])[k]? = some lower)
    (habove : Above (ss ++ [.derive parent now d]) a k)
    (hdeadline : upper.context.deadline = some deadline) :
    ∃ nearer ≤ deadline, lower.context.deadline = some nearer := by
  rcases getElem?_push hlower with ⟨hlt, hlower⟩ | ⟨rfl, rfl⟩
  · rw [h.above_append_iff hlt] at habove
    have ha := Nat.lt_of_le_of_lt (h.above_le habove) hlt
    exact h.deadline ((List.getElem?_append_left ha).symm.trans hupper) hlower habove hdeadline
  · have hparent : parent < t.nodes.length := (List.getElem?_eq_some_iff.1 hnode).1
    rcases (h.above_last_iff hparent).1 habove with rfl | habove
    · rw [hupper] at hlower
      cases hlower
      exact ⟨deadline, Int.le_refl _, hdeadline⟩
    · have ha := Nat.lt_of_le_of_lt (h.above_le habove) hparent
      obtain ⟨nearer, hle, hparentDeadline⟩ :=
        h.deadline ((List.getElem?_append_left ha).symm.trans hupper) hnode habove hdeadline
      obtain ⟨nearest, hle', hlast⟩ := hnearer hparentDeadline
      exact ⟨nearest, Int.le_trans hle' hle, hlast⟩

end Push

theorem follows_derive (h : Follows ss t) {parent : Nat} {now : Int} {d : Derivation}
    {node : Derived} (hnode : t.nodes[parent]? = some node) :
    Follows (ss ++ [.derive parent now d])
      ⟨t.nodes ++ [(d.apply now node.context t.cancellations).1],
        (d.apply now node.context t.cancellations).2⟩ := by
  have hadds := adds_of_makes (d.makes_apply now node.context t.cancellations)
  have hparents : parents (ss ++ [.derive parent now d]) = parents ss ++ [parent] := by
    simp [parents, List.filterMap_append]
  have hcancels : cancels (ss ++ [.derive parent now d]) = cancels ss := by
    simp [cancels, List.filterMap_append]
  constructor
  case size => simp [hparents, h.size]
  case earlier =>
    intro k q hq
    rw [hparents] at hq
    rcases Nat.lt_or_ge k (parents ss).length with hlt | hge
    · exact h.earlier ((List.getElem?_append_left hlt).symm.trans hq)
    · rw [List.getElem?_append_right hge, List.getElem?_singleton] at hq
      split at hq
      · cases hq
        have hparent := (List.getElem?_eq_some_iff.1 hnode).1
        rw [h.size] at hparent
        omega
      · cases hq
  case struck =>
    intro k hk
    rw [hcancels] at hk
    obtain ⟨n, hn⟩ := h.struck k hk
    exact ⟨n, (numberOf_push_old (numberOf_lt hn)).trans hn⟩
  case own =>
    intro k found point hk hpoint
    rcases getElem?_push hk with ⟨_, hk⟩ | ⟨_, rfl⟩
    · exact h.own hk hpoint
    · exact hadds.own point hpoint
  case below => exact below_push h hadds
  case different => exact different_push h hadds
  case numbers => exact numbers_push h hadds hnode
  case cancelled =>
    intro n
    rw [hadds.cancelled, h.cancelled, hcancels]
    refine exists_congr fun a => and_congr_right fun ha => ?_
    obtain ⟨m, hm⟩ := h.struck a ha
    rw [numberOf_push_old (numberOf_lt hm)]
  case deadline =>
    exact deadline_push h hnode fun hdeadline => TreeLemmas.deadline_apply d now _ hdeadline

theorem follows_cancel (h : Follows ss t) {k : Nat} {node : Derived} {point : CancelPoint}
    (hnode : t.nodes[k]? = some node) (hpoint : node.point = some point) :
    Follows (ss ++ [.cancel k]) { t with cancellations := t.cancellations.cancel point } := by
  have hparents : parents (ss ++ [.cancel k]) = parents ss := by
    simp [parents, List.filterMap_append]
  have hcancels : cancels (ss ++ [.cancel k]) = cancels ss ++ [k] := by
    simp [cancels, List.filterMap_append]
  have hnumber : t.numberOf k = some point.number := by simp [numberOf, hnode, hpoint]
  have habove : ∀ {a j node'}, t.nodes[j]? = some node' →
      (Above (ss ++ [.cancel k]) a j ↔ Above ss a j) := fun hj =>
    h.above_append_iff (List.getElem?_eq_some_iff.1 hj).1
  constructor
  case size => rw [hparents, h.size]
  case earlier =>
    rw [hparents]
    exact h.earlier
  case struck =>
    intro a ha
    rw [hcancels, List.mem_append, List.mem_singleton] at ha
    rcases ha with ha | rfl
    · exact h.struck a ha
    · exact ⟨_, hnumber⟩
  case own => exact h.own
  case below => exact h.below
  case different => exact h.different
  case numbers =>
    intro j node' hj n
    rw [h.numbers hj]
    exact exists_congr fun a => and_congr_left fun _ => (habove hj).symm
  case cancelled =>
    intro n
    change n ∈ point.number :: t.cancellations.cancelled ↔ ∃ a ∈ _, t.numberOf a = some n
    simp only [List.mem_cons, h.cancelled, hcancels, List.mem_append, List.not_mem_nil,
      or_false, or_and_right, exists_or, exists_eq_left, hnumber, Option.some.injEq]
    rw [or_comm, eq_comm]
  case deadline =>
    intro a j node₁ node₂ deadline hnode₁ hnode₂ ha hdeadline
    exact h.deadline hnode₁ hnode₂ ((habove hnode₂).1 ha) hdeadline

theorem follows_step (h : Follows ss t) (hstep : t.Steps x t') : Follows (ss ++ [x]) t' := by
  cases hstep with
  | derive hnode => exact follows_derive h hnode
  | cancel hnode hpoint => exact follows_cancel h hnode hpoint

end Kept

/-! ## Runs -/

section Run

variable {t : ContextTree} {ss : List TreeStep}

theorem steps_concat {root : ContextTree} {x : TreeStep} (h : root.steps (ss ++ [x]) = some t) :
    ∃ before, root.steps ss = some before ∧ before.Steps x t := by
  rw [steps, List.foldlM_append] at h
  obtain ⟨before, hbefore, hlast⟩ := Option.bind_eq_some_iff.1 h
  obtain ⟨after, hafter, hdone⟩ := Option.bind_eq_some_iff.1 hlast
  cases hdone
  exact ⟨before, hbefore, steps_of_step hafter⟩

theorem follows_of_steps (h : start.steps ss = some t) : Follows ss t := by
  induction ss using List.reverseRecOn generalizing t with
  | nil =>
    cases h
    exact follows_start
  | append_singleton ss x ih =>
    obtain ⟨before, hbefore, hlast⟩ := steps_concat h
    exact follows_step (ih hbefore) hlast

/-- A node is cancelled exactly when it or a node above it was, at whatever time. -/
theorem canceled_iff (h : Follows ss t) {k : Nat} {node : Derived} (hnode : t.nodes[k]? = some node) :
    node.context.point.any t.cancellations.isCancelled = true ↔ Struck ss k := by
  rw [TreeLemmas.isCancelled_iff]
  constructor
  · rintro ⟨n, hn, hcancelled⟩
    obtain ⟨a, habove, ha⟩ := (h.numbers hnode n).1 hn
    obtain ⟨b, hb, hb'⟩ := (h.cancelled n).1 hcancelled
    -- The number belongs to one node only, so the one that was cancelled stands above.
    obtain rfl := h.different ha hb'
    exact ⟨a, hb, habove⟩
  · rintro ⟨a, ha, habove⟩
    obtain ⟨n, hn⟩ := h.struck a ha
    exact ⟨n, (h.numbers hnode n).2 ⟨a, habove, hn⟩, (h.cancelled n).2 ⟨a, ha, hn⟩⟩

end Run

end ContextTree

end FunctionWorker
