import FunctionWorker.Proofs.Context.Deadlines

/-!
# The ways on which contexts were derived

What a context has, it has from the derivations on the way to it, and no other steps of a tree
matter. So a property of contexts is proved along a way and then holds at every node.

Results:
1. `numbers_subset_of_along`: the points around a context stay around all that is derived from it.
2. `ContextTree.along_of_steps`: the way to each node of a tree.
3. `ContextTree.ways_prefix`: later steps change neither nodes nor ways.
-/

namespace FunctionWorker

/-! ## Definitions -/

/-- The context was derived from the first one by these derivations, at any times and with any
cancellations in between. -/
inductive Context.Along (ctx : Context) : List Derivation → Context → Prop
  | self : Along ctx [] ctx
  | derived {way : List Derivation} {below : Context} (d : Derivation) (now : Int)
      (c : Cancellations) : Along ctx way below →
      Along ctx (way ++ [d]) (d.apply now below c).1.context

namespace ContextTree

/-- The ways to the nodes after one more step. -/
def extend (ways : List (List Derivation)) : TreeStep → List (List Derivation)
  | .derive parent _ d => ways ++ [ways[parent]?.getD [] ++ [d]]
  | .cancel _ => ways

/-- The derivations on the way from the root to each node. -/
def ways (ss : List TreeStep) : List (List Derivation) := ss.foldl extend [[]]

/-- There is one way for each node, and the node was derived on it. -/
def Led (ctx : Context) (ways : List (List Derivation)) (nodes : List Derived) : Prop :=
  ways.length = nodes.length ∧ ∀ (k : Nat) (way : List Derivation) (node : Derived),
    ways[k]? = some way → nodes[k]? = some node → ctx.Along way node.context

end ContextTree

/-! ## Along a way -/

theorem numbers_subset_of_along {ctx below : Context} {way : List Derivation}
    (h : ctx.Along way below) : ctx.numbers ⊆ below.numbers := by
  induction h with
  | self => exact List.Subset.refl _
  | derived d now c _ ih =>
    rw [(ContextTree.adds_of_makes (d.makes_apply now _ c)).numbers]
    exact List.Subset.trans ih (List.subset_append_right _ _)

/-! ## Trees -/

namespace ContextTree

variable {ctx : Context} {c : Cancellations} {t t' : ContextTree} {ss : List TreeStep}

theorem ways_concat (ss : List TreeStep) (x : TreeStep) : ways (ss ++ [x]) = extend (ways ss) x :=
  List.foldl_concat ..

theorem Led.push {ways : List (List Derivation)} {nodes : List Derived} {way : List Derivation}
    {derived : Derived} (h : Led ctx ways nodes) (hnew : ctx.Along way derived.context) :
    Led ctx (ways ++ [way]) (nodes ++ [derived]) := by
  refine ⟨by simp [h.1], fun k way' node hway hnode => ?_⟩
  rcases Nat.lt_or_ge k nodes.length with hlt | hge
  · rw [List.getElem?_append_left (h.1 ▸ hlt)] at hway
    rw [List.getElem?_append_left hlt] at hnode
    exact h.2 k way' node hway hnode
  · rw [List.getElem?_append_right (h.1 ▸ hge), h.1] at hway
    rw [List.getElem?_append_right hge] at hnode
    cases hk : k - nodes.length with
    | zero =>
      rw [hk] at hway hnode
      cases hway
      cases hnode
      exact hnew
    | succ j =>
      rw [hk] at hway
      cases hway

/-- A node that is derived just now lies one derivation behind its parent. -/
theorem led_step {ways : List (List Derivation)} {x : TreeStep} (h : Led ctx ways t.nodes)
    (hstep : t.Steps x t') : Led ctx (extend ways x) t'.nodes := by
  cases hstep with
  | @derive parent now d node hnode =>
    obtain ⟨way, hway⟩ : ∃ way, ways[parent]? = some way :=
      ⟨_, List.getElem?_eq_getElem (h.1 ▸ (List.getElem?_eq_some_iff.1 hnode).1)⟩
    rw [extend, hway, Option.getD_some]
    exact h.push ((h.2 parent way node hway hnode).derived d now _)
  | cancel _ _ => exact h

theorem along_of_steps (h : (root ctx c).steps ss = some t) : Led ctx (ways ss) t.nodes := by
  induction ss using List.reverseRecOn generalizing t with
  | nil =>
    cases h
    refine ⟨rfl, fun k way node hway hnode => ?_⟩
    cases k with
    | zero =>
      cases hway
      cases hnode
      exact .self
    | succ k => cases hway
  | append_singleton ss x ih =>
    obtain ⟨before, hbefore, hlast⟩ := steps_concat h
    rw [ways_concat]
    exact led_step (ih hbefore) hlast

/-- Later steps add ways, and they change none. -/
theorem ways_prefix (ss more : List TreeStep) : ways ss <+: ways (ss ++ more) := by
  induction more using List.reverseRecOn with
  | nil => simp only [List.append_nil, List.prefix_refl]
  | append_singleton more x ih =>
    rw [← List.append_assoc, ways_concat]
    refine ih.trans ?_
    cases x with
    | derive parent now d => exact List.prefix_append _ _
    | cancel node => exact List.prefix_refl _

end ContextTree

end FunctionWorker
