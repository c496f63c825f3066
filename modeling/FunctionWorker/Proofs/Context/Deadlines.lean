import FunctionWorker.Proofs.Context.Done
import FunctionWorker.Proofs.Invoke.Fields
import FunctionWorker.Proofs.Worker.Outcomes
import FunctionWorker.Proofs.Worker.Pools

/-!
# Deadlines only tighten

A context looks only at its nearest deadline. That this is the earliest of all that were asked for
above it holds because each derivation that brings a deadline of its own compares it with the
nearest one so far. What is said here holds in a tree that has grown from any context.

Results:
1. `deadline_apply_eq`: the deadline after a single derivation.
2. `deadlines_of_steps`: the deadlines of all nodes of a tree, whatever steps have made it.
3. `deadline_of_entered`: the deadline of a context with which a handler is entered.
4. `deadlines_tighten`: all of this together.
-/

namespace FunctionWorker

/-! ## Definitions -/

/-- The earliest of the deadlines that are asked for and of the one that is inherited, if there is
one. -/
def earliest (inherited : Option Int) (wanted : List Int) : Option Int :=
  (inherited.toList ++ wanted).min?

namespace ContextTree

/-- The tree of a single context. -/
def root (ctx : Context) (c : Cancellations) : ContextTree := ⟨[⟨ctx, none⟩], c⟩

/-- The deadlines that are asked for on the way from the root to each node, after one more step. -/
def lengthen (ways : List (List Int)) : TreeStep → List (List Int)
  | .derive parent now d => ways ++ [ways[parent]?.getD [] ++ (d.wanted? now).toList]
  | .cancel _ => ways

/-- The deadlines that are asked for on the way from the root to each node. On the way to the root
itself there are none. -/
def asked (ss : List TreeStep) : List (List Int) := ss.foldl lengthen [[]]

end ContextTree

/-! ## The earliest deadline -/

@[simp] theorem earliest_nil {inherited : Option Int} : earliest inherited [] = inherited := by
  cases inherited <;> rfl

theorem earliest_cons (inherited : Option Int) (x : Int) (xs : List Int) :
    earliest inherited (x :: xs) = earliest (some (inherited.elim x (min · x))) xs := by
  cases inherited <;> rfl

/-- What comes later on the way is compared with the earliest so far. -/
theorem earliest_append (inherited : Option Int) (xs ys : List Int) :
    earliest inherited (xs ++ ys) = earliest (earliest inherited xs) ys := by
  induction xs generalizing inherited with
  | nil => rw [List.nil_append, earliest_nil]
  | cons x xs ih => rw [List.cons_append, earliest_cons, ih, ← earliest_cons]

/-! ## Derivations -/

theorem tightened_eq (wanted : Int) (ctx : Context) :
    some (ctx.tightened wanted) = earliest ctx.deadline [wanted] := by
  unfold Context.tightened
  cases ctx.deadline with
  | none => rfl
  | some inherited =>
    simp only [earliest_cons, earliest_nil, Option.elim_some, Option.some.injEq]
    split <;> omega

/-- A derived context has the nearest deadline of its parent or, if the derivation asks for an
earlier one, that. -/
theorem deadline_apply_eq (d : Derivation) (now : Int) (ctx : Context) (c : Cancellations) :
    (d.apply now ctx c).1.context.deadline = earliest ctx.deadline (d.wanted? now).toList := by
  cases d with
  | entry e => exact earliest_nil.symm
  | attach h => exact earliest_nil.symm
  | cancel => exact earliest_nil.symm
  | deadline ms => exact tightened_eq ms ctx
  | timeout ms => exact tightened_eq (now + ms) ctx

/-! ## Trees -/

namespace ContextTree

open TreeLemmas

variable {ctx : Context} {c : Cancellations} {t : ContextTree} {ss : List TreeStep}

theorem asked_concat (ss : List TreeStep) (x : TreeStep) :
    asked (ss ++ [x]) = lengthen (asked ss) x := List.foldl_concat ..

/-- One more step: a new node compares what its derivation asks for with what its parent has. -/
theorem deadlines_step {inherited : Option Int} {ways : List (List Int)} {x : TreeStep}
    {t' : ContextTree} (h : t.nodes.map (·.context.deadline) = ways.map (earliest inherited))
    (hstep : t.Steps x t') :
    t'.nodes.map (·.context.deadline) = (lengthen ways x).map (earliest inherited) := by
  cases hstep with
  | @derive parent now d node hnode =>
    have hparent : (ways[parent]?).map (earliest inherited) = some node.context.deadline := by
      rw [← List.getElem?_map, ← h, List.getElem?_map, hnode]
      rfl
    obtain ⟨way, hway, hdeadline⟩ := Option.map_eq_some_iff.1 hparent
    simp only [lengthen, List.map_append, List.map_cons, List.map_nil, h, hway, Option.getD_some]
    rw [deadline_apply_eq, ← hdeadline, ← earliest_append]
  | cancel _ _ => exact h

/-- Every node has the earliest of the deadlines that were asked for on the way to it, and of the
deadline of the root. -/
theorem deadlines_of_steps (h : (root ctx c).steps ss = some t) :
    t.nodes.map (·.context.deadline) = (asked ss).map (earliest ctx.deadline) := by
  induction ss using List.reverseRecOn generalizing t with
  | nil =>
    cases h
    exact congrArg (fun deadline => [deadline]) earliest_nil.symm
  | append_singleton ss x ih =>
    obtain ⟨before, hbefore, hlast⟩ := steps_concat h
    rw [asked_concat]
    exact deadlines_step (ih hbefore) hlast

/-- A new node is put behind the others; it is due no later than its parent, and at the same time
if its derivation asks for no deadline. -/
theorem derived_of_step {parent : Nat} {now : Int} {d : Derivation} {t' : ContextTree}
    (h : t.step (.derive parent now d) = some t') :
    ∃ node child, t.nodes[parent]? = some node ∧ t'.nodes = t.nodes ++ [child] ∧
      (∀ deadline, node.context.deadline = some deadline →
        ∃ nearer ≤ deadline, child.context.deadline = some nearer) ∧
      (d.wanted? now = none → child.context.deadline = node.context.deadline) := by
  cases steps_of_step h with
  | @derive _ _ _ node hnode =>
    refine ⟨node, _, hnode, rfl, fun _ hdeadline => deadline_apply d now _ hdeadline,
      fun hwanted => ?_⟩
    rw [deadline_apply_eq, hwanted]
    exact earliest_nil

end ContextTree

/-! ## Contexts of invokes -/

section Entered

variable {s : Setup} {i : Invoke} {ctx : Context} {q : ProcessState} {w : Worker}

/-- Metadata and a trace id leave the deadline as it is. -/
theorem deadline_contextOf (s : Setup) (i : Invoke) (m : Metadata) (p : ProcessState) :
    (Worker.contextOf s i m p).1.1.deadline = earliest s.base.deadline [(m.deadlineMs : Int)] := by
  rw [← tightened_eq]
  simp only [Worker.contextOf]
  split <;> rfl

/-- An invoke that is accepted is given to the handler with such a deadline. -/
theorem deadline_of_take (w : Worker) (p : ProcessState) {m : Metadata}
    (hm : i.metadata s.build = .ok m) :
    ∃ ctx point, (w.take s i p).1.position = .handling i ctx point ∧
      ctx.deadline = earliest s.base.deadline [(m.deadlineMs : Int)] := by
  refine ⟨(Worker.contextOf s i m (Worker.exportTrace s i p)).1.1,
    (Worker.contextOf s i m (Worker.exportTrace s i p)).1.2, ?_, deadline_contextOf ..⟩
  simp only [Worker.take, hm]
  rfl

/-- A handler has until the deadline of the invoke or that of the base context, whichever is
earlier. -/
theorem deadline_of_entered (h : w.Told s) (hentered : .entered i ctx q ∈ w.deeds) :
    ∃ ms : Nat, i.deadlineMs = .ok ms ∧ ctx.deadline = earliest s.base.deadline [(ms : Int)] := by
  obtain ⟨m, q', hm, rfl⟩ := entered_of_told h hentered
  exact ⟨m.deadlineMs, (Invoke.metadata_eq_ok_iff.1 hm).2.2.2.2, deadline_contextOf s i m q'⟩

end Entered

/-- Whatever contexts are derived from a context, in whatever order: each of them has the earliest
of the deadlines that were asked for on the way to it, and of the root's own; it is due no later
than the one from which it was derived, and at the same time if it asks for no deadline itself; and
no context changes when others are derived or cancelled. So a handler, in a worker on its own or in
one of many, has until the deadline of its invoke or that of the base context, whichever is earlier,
and the former is the number in the invoke's header field. -/
theorem deadlines_tighten (s : Setup) (p : ProcessState) :
    (∀ ctx c ss t, (ContextTree.root ctx c).steps ss = some t →
      t.nodes.map (·.context.deadline) = (ContextTree.asked ss).map (earliest ctx.deadline) ∧
      (∀ parent now d t', t.step (.derive parent now d) = some t' →
        ∃ node child, t.nodes[parent]? = some node ∧ t'.nodes = t.nodes ++ [child] ∧
          (∀ deadline, node.context.deadline = some deadline →
            ∃ nearer ≤ deadline, child.context.deadline = some nearer) ∧
          (d.wanted? now = none → child.context.deadline = node.context.deadline)) ∧
      ∀ more later, t.steps more = some later → t.nodes <+: later.nodes) ∧
    (∀ (w : Worker) i m, i.metadata s.build = .ok m →
      ∃ ctx point, (w.take s i p).1.position = .handling i ctx point ∧
        ctx.deadline = earliest s.base.deadline [(m.deadlineMs : Int)]) ∧
    (∀ arrivals i ctx q, .entered i ctx q ∈ (Worker.run s .start p arrivals).1.1.deeds →
      ∃ ms : Nat, i.deadlineMs = .ok ms ∧
        ctx.deadline = earliest s.base.deadline [(ms : Int)]) ∧
    (∀ workers moves pool, (Pool.start s workers p).steps moves = some pool →
      ∀ w ∈ pool.workers, ∀ i ctx q, .entered i ctx q ∈ w.deeds →
        ∃ ms : Nat, i.deadlineMs = .ok ms ∧
          ctx.deadline = earliest s.base.deadline [(ms : Int)]) ∧
    ∀ (i : Invoke) (ms : Nat), ms ≤ Invoke.maxDeadline →
      i.headers.get? Invoke.deadlineHeader = some (Bytes.ofText (Json.integerText ms)) →
        i.deadlineMs = .ok ms := by
  refine ⟨fun ctx c ss t h => ⟨ContextTree.deadlines_of_steps h,
      fun parent now d t' => ContextTree.derived_of_step,
      fun more later => ContextTree.nodes_prefix⟩,
    fun w i m => deadline_of_take w p,
    fun arrivals i ctx q => deadline_of_entered (told_run s p arrivals),
    fun workers moves pool hrun w hw i ctx q hentered => ?_,
    fun i ms => Invoke.deadlineMs_digits⟩
  have hentered' := deadline_of_entered ((Pool.sound_steps hrun).told w hw) hentered
  -- The parent of a pool is the base context with a point of cancellation, and it is due as late.
  have hbase : (Pool.start s workers p).setup.base.deadline = s.base.deadline := rfl
  rwa [hbase] at hentered'

/-- A deadline, a point of cancellation, a deadline that is later and a timeout that ends earlier,
each below the other, and a cancelled node beside them. -/
def tightening : List TreeStep :=
  [.derive 0 0 (.deadline 7), .derive 1 0 .cancel, .derive 2 0 (.deadline 8),
    .derive 3 2 (.timeout 3), .derive 0 0 .cancel, .cancel 5]

/-- An invoke that is due in the fifth millisecond. -/
def dueSoon : Invoke :=
  ⟨"a", [], [("lambda-runtime-aws-request-id", Bytes.ofText "a"),
    ("lambda-runtime-deadline-ms", Bytes.ofText "5")]⟩

/-- A worker is handed that invoke. -/
def runDueSoon (base : Context) : Worker :=
  (Worker.run (.failing base) .start (.start 0)
    [.answer (.answered 200 dueSoon.headers (.ok []))]).1.1

/-- Below a context that is due in the ninth millisecond only the earlier deadlines count, and a
handler under it gets the earlier deadline of its invoke. -/
theorem deadlines_tighten_below_nine :
    ∃ base t later, base.deadline = some 9 ∧
      (ContextTree.root base .start).steps tightening = some t ∧
      t.nodes.map (·.context.deadline) = [some 9, some 7, some 7, some 7, some 5, some 9] ∧
      t.steps [.derive 4 0 .cancel] = some later ∧ t.nodes <+: later.nodes ∧
      ∃ ctx q, .entered dueSoon ctx q ∈ (runDueSoon base).deeds ∧ ctx.deadline = some 5 := by
  let base : Context := .mk [⟨some 9, none, none⟩]
  obtain ⟨t, ht⟩ : ∃ t, (ContextTree.root base .start).steps tightening = some t := ⟨_, rfl⟩
  obtain ⟨later, hlater⟩ : ∃ later, t.steps [.derive 4 0 .cancel] = some later := by
    cases ht
    exact ⟨_, rfl⟩
  obtain ⟨ctx, q, hentered⟩ : ∃ ctx q, .entered dueSoon ctx q ∈ (runDueSoon base).deeds := by
    have hentered : (runDueSoon base).deeds.filterMap Deed.entered? = [dueSoon] := by
      decide +kernel
    have hmem : dueSoon ∈ (runDueSoon base).deeds.filterMap Deed.entered? := by simp [hentered]
    obtain ⟨deed, hdeed, hsome⟩ := List.mem_filterMap.1 hmem
    obtain ⟨ctx, q, rfl⟩ := Deed.entered?_eq_some_iff.1 hsome
    exact ⟨ctx, q, hdeed⟩
  obtain ⟨htree, -, hrun, -, hheader⟩ := deadlines_tighten (.failing base) (.start 0)
  obtain ⟨hdeadlines, -, hprefix⟩ := htree base .start tightening t ht
  refine ⟨base, t, later, rfl, ht, hdeadlines, hlater, hprefix _ later hlater, ctx, q, hentered, ?_⟩
  obtain ⟨ms, hms, hctx⟩ := hrun _ dueSoon ctx q hentered
  rw [hheader dueSoon 5 (by decide) rfl] at hms
  cases hms
  exact hctx

end FunctionWorker
