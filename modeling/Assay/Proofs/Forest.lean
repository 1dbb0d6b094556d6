import Mathlib
import Assay.Matching.Forest

/-!
# Trees are what chains of edges connect

The root of an item is all that a forest says of it. Looking up a root changes none (`root_find`), and joining two items
changes the roots of one tree only, which become the root of the other one (`root_join`). So every further edge keeps
what ties a forest to its edges (`Spans.addEdge`): the items are the ends of edges, the ends of an edge have one root,
and a chain of edges leads from every item to its root. Two items then have one root exactly if a chain connects them
(`Spans.root_eq_iff`).
-/

namespace Assay

/-! ## Edges -/

section
variable {es es' : List (ℕ × ℕ)} {e : ℕ × ℕ} {v w : Vertex}

/-- An edge ends at an item. -/
def IsEnd (es : List (ℕ × ℕ)) (v : Vertex) : Prop := ∃ e ∈ es, v = .defect e.1 ∨ v = .finding e.2

/-- An edge joins two items, in either direction. -/
def Joined (es : List (ℕ × ℕ)) (v w : Vertex) : Prop :=
  ∃ e ∈ es, v = .defect e.1 ∧ w = .finding e.2 ∨ v = .finding e.2 ∧ w = .defect e.1

/-- A chain of edges leads from one item to another; the empty chain leads from an item to itself. -/
def Connected (es : List (ℕ × ℕ)) : Vertex → Vertex → Prop := Relation.ReflTransGen (Joined es)

theorem Joined.symm (h : Joined es v w) : Joined es w v := by
  obtain ⟨e, he, h⟩ := h
  exact ⟨e, he, h.symm.imp And.symm And.symm⟩

theorem connected_of_mem (h : e ∈ es) : Connected es (.defect e.1) (.finding e.2) :=
  .single ⟨e, h, .inl ⟨rfl, rfl⟩⟩

theorem Connected.refl (es : List (ℕ × ℕ)) (v : Vertex) : Connected es v v := Relation.ReflTransGen.refl

theorem Connected.symm (h : Connected es v w) : Connected es w v := by
  induction h with
  | refl => exact .refl _ _
  | tail _ hjoined ih => exact .head hjoined.symm ih

theorem Connected.trans {u : Vertex} (h : Connected es u v) (h' : Connected es v w) : Connected es u w :=
  Relation.ReflTransGen.trans h h'

theorem Connected.mono (hsub : ∀ e ∈ es, e ∈ es') (h : Connected es v w) : Connected es' v w :=
  Relation.ReflTransGen.mono (fun _ _ ⟨e, he, h⟩ => ⟨e, hsub e he, h⟩) v w h

/-- What the two ends of every edge share is shared along every chain. -/
theorem Connected.eq_of {α : Type} {f : Vertex → α} (hf : ∀ e ∈ es, f (.defect e.1) = f (.finding e.2))
    (h : Connected es v w) : f v = f w := by
  induction h with
  | refl => rfl
  | tail _ hjoined ih =>
    obtain ⟨e, he, ⟨rfl, rfl⟩ | ⟨rfl, rfl⟩⟩ := hjoined
    · rw [ih, hf e he]
    · rw [ih, hf e he]

end

/-! ## Roots -/

namespace Forest

section
variable {f : Forest} {a b v w r : Vertex}

theorem root_root (f : Forest) (v : Vertex) : f.root (f.root v) = f.root v := root_of_parent_eq (f.parent_root v)

/-- The root of an item that is not in the forest is the item itself. -/
theorem root_of_not_mem (h : v ∉ f.vertices) : f.root v = v := root_of_parent_eq (parent_of_not_mem h)

theorem mem_of_root_mem (h : f.root v ∈ f.vertices) : v ∈ f.vertices := by
  by_contra hv
  exact hv (root_of_not_mem hv ▸ h)

/-- A link of an item to its own root changes no root. -/
theorem root_relink_root (hv : v ∈ f.vertices) (w : Vertex) :
    (f.relink v (f.root v) (root_mem hv) (f.root_le v)).root w = f.root w := by
  have hparent := parent_relink hv (root_mem hv) (f.root_le v)
  induction w using f.induction_on with
  | root w hw =>
    rw [root_of_parent_eq hw, root_of_parent_eq]
    rw [hparent]
    split
    next e => rw [← e, root_of_parent_eq hw]
    next => exact hw
  | step w hlt ih =>
    rw [← root_parent, hparent]
    split
    next e =>
      subst e
      have hroot : f.root w < w := by
        rw [← root_parent]
        exact Vertex.lt_of_le_of_lt (f.root_le _) hlt
      rw [root_relink_of_lt hv _ _ hroot, root_root]
    next => rw [ih, root_parent]

/-- A link of one root to another one gives all items of its tree the other root. -/
theorem root_relink_of_root (hv : v ∈ f.vertices) (hr : r ∈ f.vertices) (hlt : r < v) (hroot : f.root v = v)
    (hroot' : f.root r = r) (w : Vertex) :
    (f.relink v r hr (Vertex.le_of_lt hlt)).root w = if f.root w = v then r else f.root w := by
  have hparent := parent_relink hv hr (Vertex.le_of_lt hlt)
  have hv' : (f.relink v r hr (Vertex.le_of_lt hlt)).root v = r := by
    rw [← root_parent, hparent, if_pos rfl, root_relink_of_lt hv _ _ hlt, hroot']
  induction w using f.induction_on with
  | root w hw =>
    rw [root_of_parent_eq hw]
    split
    next e => rw [e, hv']
    next hne => exact root_of_parent_eq ((hparent w).trans ((if_neg hne).trans hw))
  | step w hw ih =>
    by_cases hwv : w = v
    · rw [hwv, hv', if_pos hroot]
    · rw [← root_parent, hparent, if_neg hwv, ih, root_parent]

theorem root_compress (hv : v ∈ f.vertices) (hr : f.root v = r) (w : Vertex) :
    (f.compress v r hv hr).root w = f.root w := by
  fun_induction compress f v r hv hr with
  | case1 => rfl
  | case2 f v hv hr h hmem hle hlt ih =>
    subst hr
    rw [ih, root_relink_root hv]

/-- **Looking up.** What is found is the root, and the forest that is left has the same roots. -/
theorem root_find (hv : v ∈ f.vertices) (w : Vertex) : (f.find v hv).2.root w = f.root w := root_compress hv rfl w

theorem root_add (f : Forest) (v w : Vertex) : (f.add v).root w = f.root w := by
  have hparent : ∀ w, (f.add v).parent w = f.parent w := by
    intro w
    rw [add]
    split
    next => rfl
    next h =>
      rw [parent, parent, List.lookup_append]
      cases f.links.lookup w with
      | some p => rfl
      | none =>
        by_cases hw : w = v
        · simp [hw]
        · simp [List.lookup_cons, beq_eq_false_iff_ne.2 hw]
  induction w using f.induction_on with
  | root w hw => rw [root_of_parent_eq hw, root_of_parent_eq ((hparent w).trans hw)]
  | step w _ ih => rw [← root_parent, hparent, ih, root_parent]

theorem vertices_unite (hv : v ∈ f.vertices) (hr : r ∈ f.vertices) : (f.unite v r hv hr).vertices = f.vertices := by
  rw [unite]
  split
  next => rfl
  next =>
    split
    next h => exact vertices_relink hv (Vertex.le_of_lt h)
    next h => exact vertices_relink hr h

/-- Of two roots one is kept, and it takes the place of the other one. -/
theorem root_unite (hv : v ∈ f.vertices) (hr : r ∈ f.vertices) (hroot : f.root v = v) (hroot' : f.root r = r) :
    ∃ keep drop, (keep = v ∧ drop = r ∨ keep = r ∧ drop = v) ∧
      ∀ w, (f.unite v r hv hr).root w = if f.root w = drop then keep else f.root w := by
  rw [unite]
  split
  next e =>
    subst e
    exact ⟨v, v, .inl ⟨rfl, rfl⟩, fun w => by split <;> simp_all⟩
  next hne =>
    split
    next h => exact ⟨v, r, .inl ⟨rfl, rfl⟩, root_relink_of_root hr hv h hroot' hroot⟩
    next h =>
      have hlt : r < v := Vertex.lt_of_le_of_ne h (Ne.symm hne)
      exact ⟨r, v, .inr ⟨rfl, rfl⟩, root_relink_of_root hv hr hlt hroot hroot'⟩

theorem vertices_join (ha : a ∈ f.vertices) (hb : b ∈ f.vertices) : (f.join a b ha hb).vertices = f.vertices := by
  rw [join, vertices_unite, vertices_find, vertices_find]

/-- **Joining.** Of the roots of two items one is kept, and it takes the place of the other one. -/
theorem root_join (ha : a ∈ f.vertices) (hb : b ∈ f.vertices) : ∃ keep drop,
    (keep = f.root a ∧ drop = f.root b ∨ keep = f.root b ∧ drop = f.root a) ∧
      ∀ w, (f.join a b ha hb).root w = if f.root w = drop then keep else f.root w := by
  have hb' : b ∈ (f.find a ha).2.vertices := vertices_find ha ▸ hb
  have hroots : ∀ w, ((f.find a ha).2.find b hb').2.root w = f.root w := fun w =>
    (root_find hb' w).trans (root_find ha w)
  have hsecond : (f.find a ha).2.root b = f.root b := root_find ha b
  obtain ⟨keep, drop, hends, hroot⟩ := root_unite (f := ((f.find a ha).2.find b hb').2) (v := f.root a)
    (r := (f.find a ha).2.root b) (by rw [vertices_find, vertices_find]; exact root_mem ha)
    (by rw [vertices_find]; exact root_mem hb') (by rw [hroots, root_root]) (by rw [hroots, hsecond, root_root])
  rw [hsecond] at hends
  refine ⟨keep, drop, hends, fun w => (hroot w).trans ?_⟩
  rw [hroots]

end

end Forest

/-! ## The forest of a graph -/

/-- A forest holds the ends of edges, and its trees are what chains of edges connect. -/
structure Forest.Spans (f : Forest) (es : List (ℕ × ℕ)) : Prop where
  mem : ∀ v, v ∈ f.vertices ↔ IsEnd es v
  joined : ∀ e ∈ es, f.root (.defect e.1) = f.root (.finding e.2)
  connected : ∀ v, Connected es v (f.root v)

namespace Forest

section
variable {f : Forest} {es : List (ℕ × ℕ)} {e : ℕ × ℕ} {v w : Vertex}

/-- Two items have one root exactly if a chain of edges connects them. -/
theorem Spans.root_eq_iff (h : f.Spans es) : f.root v = f.root w ↔ Connected es v w := by
  constructor
  · intro heq
    exact (h.connected v).trans (heq ▸ (h.connected w).symm)
  · exact Connected.eq_of h.joined

theorem spans_empty : Spans empty [] := by
  refine ⟨fun v => ?_, nofun, fun v => ?_⟩
  · simp [vertices, empty, IsEnd]
  · rw [root_of_not_mem List.not_mem_nil]
    exact .refl _ _

/-- **Edges.** One more edge keeps what ties a forest to its edges. -/
theorem Spans.addEdge (h : f.Spans es) (e : ℕ × ℕ) : (f.addEdge e).Spans (es ++ [e]) := by
  obtain ⟨keep, drop, hends, hroot⟩ := root_join (f := (f.add (.defect e.1)).add (.finding e.2))
    (a := .defect e.1) (b := .finding e.2) (mem_add.2 (.inl (mem_add.2 (.inr rfl)))) (mem_add.2 (.inr rfl))
  simp only [root_add] at hends hroot
  have hnew : ∀ w, (f.addEdge e).root w = if f.root w = drop then keep else f.root w := hroot
  have hsub : ∀ {v w}, Connected es v w → Connected (es ++ [e]) v w := Connected.mono fun _ => List.mem_append_left _
  -- The two roots are connected by way of the new edge.
  have hedge : Connected (es ++ [e]) drop keep := by
    have hmid : Connected (es ++ [e]) (.defect e.1) (.finding e.2) :=
      connected_of_mem (List.mem_append_right _ (List.mem_cons_self ..))
    have hd := hsub (h.connected (.defect e.1))
    have hf := hsub (h.connected (.finding e.2))
    rcases hends with ⟨rfl, rfl⟩ | ⟨rfl, rfl⟩
    · exact hf.symm.trans (hmid.symm.trans hd)
    · exact hd.symm.trans (hmid.trans hf)
  refine ⟨fun v => ?_, fun e' he' => ?_, fun v => ?_⟩
  · have hmem : v ∈ (f.addEdge e).vertices ↔ v ∈ ((f.add (.defect e.1)).add (.finding e.2)).vertices := by
      rw [Forest.addEdge, vertices_join]
    rw [hmem, mem_add, mem_add, h.mem, or_assoc]
    simp [IsEnd, or_and_right, exists_or]
  · rw [hnew, hnew]
    rcases List.mem_append.1 he' with he' | he'
    · rw [h.joined e' he']
    · obtain rfl : e' = e := List.mem_singleton.1 he'
      rcases hends with ⟨rfl, rfl⟩ | ⟨rfl, rfl⟩ <;> simp
  · rw [hnew]
    split
    next heq => exact (heq ▸ hsub (h.connected v)).trans hedge
    next => exact hsub (h.connected v)

/-- **Trees.** The trees of the forest of a graph are what chains of its edges connect. -/
theorem spans_ofEdges (es : List (ℕ × ℕ)) : (ofEdges es).Spans es := by
  induction es using List.reverseRecOn with
  | nil => exact spans_empty
  | append_singleton es e ih =>
    rw [ofEdges, List.foldl_concat]
    exact ih.addEdge e

end

end Forest

end Assay
