import FunctionWorker.Proofs.Context.Ways
import FunctionWorker.Proofs.Handler.Pipeline
import FunctionWorker.Proofs.Start.Values

/-!
# Hooks along the way to a context

A context carries one value of hooks: those of all layers that were attached on the way to it, put
together. Attaching a layer looks the value up and puts a longer one inside, so that the hooks of
the layer run after all others; derivations of another kind hide nothing.

Results:
1. `hookNames_of_along`: the hooks of a context, by the way to it.
2. `hooks_of_calls`: a handler is called with the hooks of the base context.
3. `hooks_fire_in_order`: which hooks fire on the contexts of a tree, and on those of invokes.
-/

namespace FunctionWorker

/-- The layer of hooks that is attached in a derivation. -/
def Derivation.hooks? : Derivation → Option Hooks
  | .attach h => some h
  | _ => none

/-- A derivation that attaches nothing, and that does not put hooks into the context as a value
either, leaves the hooks as they are. -/
theorem hookNames_apply (d : Derivation) (now : Int) (ctx : Context) (c : Cancellations)
    (hplain : ∀ h, d ≠ .entry (.hooks h)) (stage : HookStage) :
    (d.apply now ctx c).1.context.hookNames stage =
      ctx.hookNames stage ++ d.hooks?.toList.flatMap (·.names stage) := by
  cases d with
  | entry e =>
    cases e with
    | hooks h => exact absurd rfl (hplain h)
    | metadata m | traceId id | user type value => exact (List.append_nil _).symm
  | attach h =>
    rw [Derivation.hooks?, Option.toList_some, List.flatMap_singleton]
    exact hookNames_attach h ctx stage
  | cancel | deadline ms | timeout ms => exact (List.append_nil _).symm

/-- The hooks of the first context, and then those of the layers in the order in which they were
attached. -/
theorem hookNames_of_along {ctx below : Context} {way : List Derivation} (h : ctx.Along way below)
    (hplain : ∀ h, .entry (.hooks h) ∉ way) (stage : HookStage) :
    below.hookNames stage =
      ctx.hookNames stage ++ (way.filterMap Derivation.hooks?).flatMap (·.names stage) := by
  induction h with
  | self => exact (List.append_nil _).symm
  | @derived way below d now c _ ih =>
    have hbefore := ih fun h hmem => hplain h (List.mem_append_left _ hmem)
    have hlast : ∀ h, d ≠ .entry (.hooks h) := by
      rintro h rfl
      exact hplain h (List.mem_append_right _ (List.mem_singleton_self _))
    have hlayer : [d].filterMap Derivation.hooks? = d.hooks?.toList := by
      cases hd : d.hooks? <;> simp [hd]
    rw [hookNames_apply d now below c hlast, hbefore, List.filterMap_append, List.flatMap_append,
      List.append_assoc, hlayer]

/-- What the loop itself derives has no hooks of its own: a handler is called with the hooks of the
base context. -/
theorem hooks_of_calls {s : Setup} {p : ProcessState} {start crew : Crew} {moves : List Pool.Move}
    (hbegins : start.Begins s p) (h : start.steps moves = some crew) {x : Call}
    (hx : x ∈ crew.calls) (stage : HookStage) :
    x.context.hookNames stage = s.base.hookNames stage := by
  have hsame : x.context.hooks? = s.base.hooks? :=
    (Crew.finds_of_steps hbegins h x hx).others _ (fun _ => rfl) fun _ => rfl
  rw [Context.hookNames, Context.hookNames, hsame]

/-- Hooks run in the order in which they were attached. However a tree of contexts has grown from
any context, with values of other types, points and deadlines in between: an event at a node fires
the hooks of the root, and then those of each layer that was attached on the way to the node, each
once and no others. Later steps, attaching included, change neither the nodes that are there nor the
ways to them. And in every run of one worker or of several, each handler is called with the hooks of
the base context, so that what it derives itself goes on from there. -/
theorem hooks_fire_in_order {ctx : Context} {c : Cancellations} {ss : List TreeStep}
    {t : ContextTree} (h : (ContextTree.root ctx c).steps ss = some t) :
    (∀ (k : Nat) (node : Derived), t.nodes[k]? = some node →
      ∃ way, (ContextTree.ways ss)[k]? = some way ∧
        ((∀ hooks, .entry (.hooks hooks) ∉ way) → ∀ stage event (p : ProcessState),
          (p.fire stage node.context event).happened = p.happened ++
            (ctx.hookNames stage ++
              (way.filterMap Derivation.hooks?).flatMap (·.names stage)).map fun name =>
                .hooked name stage node.context event)) ∧
    (∀ more later, t.steps more = some later → t.nodes <+: later.nodes ∧
      ContextTree.ways ss <+: ContextTree.ways (ss ++ more)) ∧
    ∀ (s : Setup) (p : ProcessState) (start crew : Crew) (moves : List Pool.Move),
      start.Begins s p → start.steps moves = some crew → ∀ x ∈ crew.calls, ∀ stage,
        x.context.hookNames stage = s.base.hookNames stage := by
  obtain ⟨hlength, halong⟩ := ContextTree.along_of_steps h
  refine ⟨fun k node hnode => ?_,
    fun more later hmore => ⟨ContextTree.nodes_prefix hmore, ContextTree.ways_prefix ss more⟩,
    fun s p start crew moves hbegins hrun x hx stage => hooks_of_calls hbegins hrun hx stage⟩
  have hin : k < (ContextTree.ways ss).length :=
    hlength ▸ (List.getElem?_eq_some_iff.1 hnode).1
  have hway := List.getElem?_eq_getElem hin
  refine ⟨_, hway, fun hplain stage event p => ?_⟩
  rw [← hookNames_of_along (halong k _ node hway hnode) hplain stage]
  rfl

/-- Three layers on one way, of which the second one watches only what comes out; and beside them a
context that was derived from the first layer. -/
def layered : List TreeStep :=
  [.derive 0 0 (.attach ⟨some (.named "a"), none⟩), .derive 1 0 .cancel,
    .derive 2 0 (.attach ⟨none, some (.named "b")⟩), .derive 3 0 (.deadline 5),
    .derive 4 0 (.attach ⟨some (.named "c"), some (.named "d")⟩),
    .derive 1 0 (.entry (.traceId "id")), .cancel 2]

/-- A base context with a layer of hooks. -/
def hookedBase : Context := Context.background.attach ⟨some (.named "a"), some (.named "d")⟩

/-- The layers run in their order, and the context beside them has only the first one. A handler has
the hooks of the base context. -/
theorem hooks_fire_in_order_layered :
    ∃ t last beside, (ContextTree.root .background .start).steps layered = some t ∧
      t.nodes[5]? = some last ∧ t.nodes[6]? = some beside ∧
      (∀ event (p : ProcessState), (p.fire .request last.context event).happened = p.happened ++
        ["a", "c"].map fun name => .hooked name .request last.context event) ∧
      (∀ event (p : ProcessState), (p.fire .request beside.context event).happened = p.happened ++
        ["a"].map fun name => .hooked name .request beside.context event) ∧
      ∃ crew, (Crew.alone (.failing hookedBase) .start (.start 0)).steps Crew.tracedFirst =
          some crew ∧ crew.calls.length = 2 ∧
        ∀ x ∈ crew.calls, x.context.hookNames .response = ["d"] := by
  obtain ⟨t, last, beside, ht, hlast, hbeside⟩ : ∃ t last beside,
      (ContextTree.root .background .start).steps layered = some t ∧
        t.nodes[5]? = some last ∧ t.nodes[6]? = some beside := ⟨_, _, _, rfl, rfl, rfl⟩
  obtain ⟨hfire, -, hcalls⟩ := hooks_fire_in_order ht
  have hlength : ((Crew.alone (.failing hookedBase) .start (.start 0)).steps
      Crew.tracedFirst).map (·.calls.length) = some 2 := by decide +kernel
  obtain ⟨crew, hcrew, hlength⟩ := Option.map_eq_some_iff.1 hlength
  refine ⟨t, last, beside, ht, hlast, hbeside, fun event p => ?_, fun event p => ?_,
    crew, hcrew, hlength, fun x hx => hcalls _ _ _ _ _ .alone hcrew x hx .response⟩
  · have hway : (ContextTree.ways layered)[5]? =
        some [.attach ⟨some (.named "a"), none⟩, .cancel, .attach ⟨none, some (.named "b")⟩,
          .deadline 5, .attach ⟨some (.named "c"), some (.named "d")⟩] := rfl
    obtain ⟨way, hway', hfired⟩ := hfire 5 last hlast
    obtain rfl := Option.some.inj (hway'.symm.trans hway)
    exact hfired (by simp) .request event p
  · have hway : (ContextTree.ways layered)[6]? =
        some [.attach ⟨some (.named "a"), none⟩, .entry (.traceId "id")] := rfl
    obtain ⟨way, hway', hfired⟩ := hfire 6 beside hbeside
    obtain rfl := Option.some.inj (hway'.symm.trans hway)
    exact hfired (by simp) .request event p

end FunctionWorker
