import Assay.Matching.Component
import Assay.Proofs.Forest

/-!
# Components are what chains of edges connect

Gathering puts every item to the others of its root (`lookup_gather`), so a component is a tree of the forest of the
edges, with its items in order. What follows for the components of a graph (`IsSplit`) leaves no choice: no other list
of components has it (`IsSplit.unique`), and so the order of the edges is of no account (`ofEdges_isSplit`). That
components share nothing and that every edge lies within one is all that matching needs of them (`separates_ofEdges`).
-/

namespace Assay.Component

/-! ## Gathering -/

/-- Whether an item is in a component. -/
def Has (c : Component) : Vertex → Prop
  | .defect n => n ∈ c.defects
  | .finding n => n ∈ c.findings

/-- The component of some items, in their order. -/
def ofVertices (vs : List Vertex) : Component := vs.foldl append empty

/-- The items that have a root, in order. -/
def tree (f : Forest) (r : Vertex) : List Vertex := (f.vertices.mergeSort (· ≤ ·)).filter (f.root · = r)

section
variable {f : Forest} {groups : List (Vertex × Component)} {vs : List Vertex} {c : Component} {r v w : Vertex}

theorem ofVertices_append (vs : List Vertex) (v : Vertex) : ofVertices (vs ++ [v]) = (ofVertices vs).append v :=
  List.foldl_concat ..

theorem has_append : (c.append v).Has w ↔ c.Has w ∨ w = v := by
  cases v <;> cases w <;> simp [append, Has]

theorem has_ofVertices : (ofVertices vs).Has v ↔ v ∈ vs := by
  induction vs using List.reverseRecOn with
  | nil => cases v <;> simp [ofVertices, empty, Has]
  | append_singleton vs w ih => rw [ofVertices_append, has_append, ih, List.mem_append, List.mem_singleton]

/-- Items in order make a component whose lists are in order. -/
theorem pairwise_ofVertices (h : vs.Pairwise (· < ·)) :
    (ofVertices vs).defects.Pairwise (· < ·) ∧ (ofVertices vs).findings.Pairwise (· < ·) := by
  induction vs using List.reverseRecOn with
  | nil => exact ⟨.nil, .nil⟩
  | append_singleton vs v ih =>
    obtain ⟨hvs, -, hlast⟩ := List.pairwise_append.1 h
    obtain ⟨hdefects, hfindings⟩ := ih hvs
    have hlt : ∀ w, (ofVertices vs).Has w → w < v := fun w hw =>
      hlast w (has_ofVertices.1 hw) v (List.mem_singleton_self v)
    rw [ofVertices_append]
    cases v with
    | defect n =>
      refine ⟨List.pairwise_append.2 ⟨hdefects, List.pairwise_singleton .., fun m hm k hk => ?_⟩, hfindings⟩
      rw [List.mem_singleton.1 hk]
      simpa [Vertex.lt_iff, Vertex.side, Vertex.number] using hlt (.defect m) hm
    | finding n =>
      refine ⟨hdefects, List.pairwise_append.2 ⟨hfindings, List.pairwise_singleton .., fun m hm k hk => ?_⟩⟩
      rw [List.mem_singleton.1 hk]
      simpa [Vertex.lt_iff, Vertex.side, Vertex.number] using hlt (.finding m) hm

theorem lookup_place (r v : Vertex) (groups : List (Vertex × Component)) (w : Vertex) : (place r v groups).lookup w =
    if w = r then some (((groups.lookup r).getD empty).append v) else groups.lookup w := by
  induction groups with
  | nil =>
    by_cases hw : w = r
    · simp [place, hw]
    · simp [place, List.lookup_cons, hw, beq_eq_false_iff_ne.2 hw]
  | cons g rest ih =>
    obtain ⟨k, c⟩ := g
    by_cases hk : k = r
    · subst hk
      by_cases hw : w = k
      · simp [place, hw]
      · simp [place, List.lookup_cons, hw, beq_eq_false_iff_ne.2 hw]
    · rw [place, if_neg hk, List.lookup_cons, ih, List.lookup_cons, List.lookup_cons,
        beq_eq_false_iff_ne.2 (Ne.symm hk)]
      by_cases hw : w = k
      · simp [hw, hk]
      · simp [beq_eq_false_iff_ne.2 hw]

theorem mem_keys_place : w ∈ (place r v groups).map (·.1) ↔ w ∈ groups.map (·.1) ∨ w = r := by
  induction groups with
  | nil => simp [place]
  | cons g rest ih =>
    obtain ⟨k, c⟩ := g
    by_cases hk : k = r
    · subst hk
      simp [place, or_comm]
    · rw [place, if_neg hk, List.map_cons, List.mem_cons, ih, List.map_cons, List.mem_cons, or_assoc]

theorem nodup_keys_place (h : (groups.map (·.1)).Nodup) : ((place r v groups).map (·.1)).Nodup := by
  induction groups with
  | nil => simp [place]
  | cons g rest ih =>
    obtain ⟨k, c⟩ := g
    obtain ⟨hnot, hrest⟩ := List.nodup_cons.1 h
    by_cases hk : k = r
    · rw [place, if_pos hk]
      exact h
    · rw [place, if_neg hk, List.map_cons, List.nodup_cons, mem_keys_place]
      exact ⟨fun hmem => hmem.elim hnot hk, ih hrest⟩

theorem mem_iff_lookup (h : (groups.map (·.1)).Nodup) : (r, c) ∈ groups ↔ groups.lookup r = some c := by
  induction groups with
  | nil => simp
  | cons g rest ih =>
    obtain ⟨k, c'⟩ := g
    obtain ⟨hnot, hrest⟩ := List.nodup_cons.1 h
    rw [List.mem_cons, ih hrest, List.lookup_cons]
    by_cases hr : r = k
    · subst hr
      have hnone : rest.lookup r ≠ some c := fun e => hnot (List.mem_map.2 ⟨_, (ih hrest).2 e, rfl⟩)
      simp [hnone, eq_comm]
    · simp [hr, beq_eq_false_iff_ne.2 hr]

/-- Looking up roots on the way changes nothing of what is gathered. -/
theorem gather_eq (h : ∀ v ∈ vs, v ∈ f.vertices) :
    gather f vs h groups = vs.foldl (fun groups v => place (f.root v) v groups) groups := by
  induction vs generalizing f groups with
  | nil => rfl
  | cons v vs ih =>
    rw [gather, ih, List.foldl_cons]
    simp only [Forest.root_find]
    rfl

/-- **Gathering.** Each root that was met leads to the items that have it, in their order. -/
theorem lookup_gather (h : ∀ v ∈ vs, v ∈ f.vertices) (r : Vertex) : (gather f vs h []).lookup r =
    if vs.filter (f.root · = r) = [] then none else some (ofVertices (vs.filter (f.root · = r))) := by
  rw [gather_eq]
  induction vs using List.reverseRecOn with
  | nil => rfl
  | append_singleton vs v ih =>
    have hvs : ∀ w ∈ vs, w ∈ f.vertices := fun w hw => h w (List.mem_append_left _ hw)
    rw [List.foldl_concat, lookup_place, List.filter_append]
    by_cases hr : r = f.root v
    · rw [if_pos hr, ← hr, ih hvs]
      have hlast : [v].filter (f.root · = r) = [v] := by simp [hr]
      rw [hlast, ofVertices_append]
      by_cases hnil : vs.filter (f.root · = r) = []
      · rw [hnil]
        rfl
      · rw [if_neg hnil, if_neg (by simp)]
        rfl
    · have hlast : [v].filter (f.root · = r) = [] := by simp [Ne.symm hr]
      rw [if_neg hr, ih hvs, hlast, List.append_nil]

theorem nodup_keys_gather (h : ∀ v ∈ vs, v ∈ f.vertices) : ((gather f vs h []).map (·.1)).Nodup := by
  rw [gather_eq]
  induction vs using List.reverseRecOn with
  | nil => exact .nil
  | append_singleton vs v ih =>
    rw [List.foldl_concat]
    exact nodup_keys_place (ih fun w hw => h w (List.mem_append_left _ hw))

end

/-! ## Components of a forest -/

section
variable {f : Forest} {es : List (ℕ × ℕ)} {c c' : Component} {v w : Vertex} {r : Vertex}

theorem mem_tree : v ∈ tree f r ↔ v ∈ f.vertices ∧ f.root v = r := by
  rw [tree, List.mem_filter, List.mem_mergeSort, decide_eq_true_iff]

/-- The items of a forest in order, each once. -/
theorem pairwise_tree (f : Forest) (r : Vertex) : (tree f r).Pairwise (· < ·) := by
  have hsorted : (f.vertices.mergeSort (· ≤ ·)).Pairwise fun a b => decide (a ≤ b) = true := by
    refine List.pairwise_mergeSort (fun a b c hab hbc => ?_) (fun a b => ?_) f.vertices
    · exact decide_eq_true (Vertex.le_trans (of_decide_eq_true hab) (of_decide_eq_true hbc))
    · simpa using a.le_total b
  have hdistinct : (f.vertices.mergeSort (· ≤ ·)).Nodup := (List.mergeSort_perm _ _).nodup_iff.2 f.distinct
  refine List.Pairwise.filter _ ((hsorted.and hdistinct).imp fun hab => ?_)
  exact Vertex.lt_of_le_of_ne (of_decide_eq_true hab.1) hab.2

/-- The components of a forest, by their roots. -/
theorem mem_gather {vs : List Vertex} (h : ∀ v ∈ vs, v ∈ f.vertices) :
    (r, c) ∈ gather f vs h [] ↔ (∃ v ∈ vs, f.root v = r) ∧ c = ofVertices (vs.filter (f.root · = r)) := by
  rw [mem_iff_lookup (nodup_keys_gather h), lookup_gather]
  split
  next hnil =>
    refine iff_of_false nofun fun hr => ?_
    obtain ⟨⟨v, hv, hroot⟩, -⟩ := hr
    exact List.filter_eq_nil_iff.1 hnil v hv (decide_eq_true hroot)
  next hne =>
    obtain ⟨v, hv⟩ := List.exists_mem_of_ne_nil _ hne
    obtain ⟨hv, hroot⟩ := List.mem_filter.1 hv
    rw [and_iff_right ⟨v, hv, of_decide_eq_true hroot⟩, Option.some.injEq, eq_comm]

/-- The components of a forest are its trees. -/
theorem mem_ofForest : c ∈ ofForest f ↔ ∃ v ∈ f.vertices, c = ofVertices (tree f (f.root v)) := by
  rw [ofForest, List.mem_mergeSort, List.mem_map]
  constructor
  · rintro ⟨⟨r, c⟩, hmem, rfl⟩
    obtain ⟨⟨v, hv, rfl⟩, hc⟩ := (mem_gather _).1 hmem
    exact ⟨v, List.mem_mergeSort.1 hv, hc⟩
  · rintro ⟨v, hv, rfl⟩
    exact ⟨(f.root v, _), (mem_gather _).2 ⟨⟨v, List.mem_mergeSort.2 hv, rfl⟩, rfl⟩, rfl⟩

/-- No two roots have the same component. -/
theorem nodup_ofForest (f : Forest) : (ofForest f).Nodup := by
  rw [ofForest, (List.mergeSort_perm _ _).nodup_iff]
  refine (nodup_keys_gather _).of_map.map_on fun g hg g' hg' heq => ?_
  obtain ⟨r, c⟩ := g
  obtain ⟨r', c'⟩ := g'
  obtain rfl : c = c' := heq
  obtain ⟨⟨v, hv, rfl⟩, hc⟩ := (mem_gather _).1 hg
  obtain ⟨-, hc'⟩ := (mem_gather _).1 hg'
  have hin : c.Has v := by
    rw [hc, has_ofVertices]
    exact List.mem_filter.2 ⟨hv, decide_eq_true rfl⟩
  rw [hc', has_ofVertices] at hin
  rw [of_decide_eq_true (List.mem_filter.1 hin).2]

theorem least_mem (h : c.defects ≠ []) : c.least ∈ c.defects := by
  rw [least]
  cases hc : c.defects with
  | nil => exact absurd hc h
  | cons d ds => exact List.mem_cons_self ..

theorem least_le (h : c.defects.Pairwise (· < ·)) {d : ℕ} (hd : d ∈ c.defects) : c.least ≤ d := by
  rw [least]
  cases hc : c.defects with
  | nil => exact absurd (hc ▸ hd) List.not_mem_nil
  | cons d' ds =>
    rw [hc] at h hd
    rcases List.mem_cons.1 hd with rfl | hd
    · exact le_rfl
    · exact (List.rel_of_pairwise_cons h hd).le

end

/-! ## Components of a graph -/

/-- What the components of a graph are. An end of an edge is in exactly one of them and nothing else is in any; two ends
are in the same one exactly if a chain of edges connects them; each has a defect and a finding and lists them in
strictly ascending order; and they stand in the order of their smallest defects. -/
structure IsSplit (es : List (ℕ × ℕ)) (cs : List Component) : Prop where
  once : ∀ v, IsEnd es v → ∃! c, c ∈ cs ∧ c.Has v
  only : ∀ c ∈ cs, ∀ v, c.Has v → IsEnd es v
  together : ∀ v w, IsEnd es v → ((∃ c ∈ cs, c.Has v ∧ c.Has w) ↔ Connected es v w)
  filled : ∀ c ∈ cs, c.defects ≠ [] ∧ c.findings ≠ []
  sorted : ∀ c ∈ cs, c.defects.Pairwise (· < ·) ∧ c.findings.Pairwise (· < ·)
  ordered : cs.Pairwise fun a b => ∃ d ∈ a.defects, ∀ d' ∈ b.defects, d < d'

section
variable {es es' : List (ℕ × ℕ)} {cs cs' : List Component} {c c' : Component} {v w : Vertex}

/-- The items of a component are what chains connect with one of them. -/
theorem IsSplit.has_iff (h : IsSplit es cs) (hc : c ∈ cs) (hv : c.Has v) : c.Has w ↔ Connected es v w := by
  have hend := h.only c hc v hv
  constructor
  · exact fun hw => (h.together v w hend).1 ⟨c, hc, hv, hw⟩
  · intro hchain
    obtain ⟨c', hc', hv', hw'⟩ := (h.together v w hend).2 hchain
    rwa [(h.once v hend).unique ⟨hc, hv⟩ ⟨hc', hv'⟩]

/-- The trees of a forest of a graph are its components. -/
theorem isSplit_ofForest {f : Forest} (h : f.Spans es) : IsSplit es (ofForest f) := by
  have hhas : ∀ {v w}, (ofVertices (tree f (f.root v))).Has w ↔ w ∈ f.vertices ∧ f.root w = f.root v :=
    has_ofVertices.trans mem_tree
  have hsorted : ∀ c ∈ ofForest f, c.defects.Pairwise (· < ·) ∧ c.findings.Pairwise (· < ·) := by
    intro c hc
    obtain ⟨v, -, rfl⟩ := mem_ofForest.1 hc
    exact pairwise_ofVertices (pairwise_tree f _)
  have hfilled : ∀ c ∈ ofForest f, c.defects ≠ [] ∧ c.findings ≠ [] := by
    intro c hc
    obtain ⟨v, hv, rfl⟩ := mem_ofForest.1 hc
    -- The edge that ends at `v` has both ends in the tree of `v`.
    obtain ⟨e, he, hend⟩ := (h.mem v).1 hv
    have hroot : f.root (.defect e.1) = f.root v ∧ f.root (.finding e.2) = f.root v := by
      have hjoined := h.joined e he
      rcases hend with rfl | rfl
      · exact ⟨rfl, hjoined.symm⟩
      · exact ⟨hjoined, rfl⟩
    exact ⟨List.ne_nil_of_mem (hhas.2 ⟨(h.mem _).2 ⟨e, he, .inl rfl⟩, hroot.1⟩),
      List.ne_nil_of_mem (hhas.2 ⟨(h.mem _).2 ⟨e, he, .inr rfl⟩, hroot.2⟩)⟩
  have hunique : ∀ {c c' v}, c ∈ ofForest f → c' ∈ ofForest f → c.Has v → c'.Has v → c = c' := by
    intro c c' v hc hc' hv hv'
    obtain ⟨u, -, rfl⟩ := mem_ofForest.1 hc
    obtain ⟨u', -, rfl⟩ := mem_ofForest.1 hc'
    rw [(hhas.1 hv).2.symm.trans (hhas.1 hv').2]
  refine ⟨fun v hv => ?_, fun c hc v hv => ?_, fun v w hv => ?_, hfilled, hsorted, ?_⟩
  · have hin := (h.mem v).2 hv
    refine ⟨_, ⟨mem_ofForest.2 ⟨v, hin, rfl⟩, hhas.2 ⟨hin, rfl⟩⟩, fun c hc => ?_⟩
    exact hunique hc.1 (mem_ofForest.2 ⟨v, hin, rfl⟩) hc.2 (hhas.2 ⟨hin, rfl⟩)
  · obtain ⟨u, -, rfl⟩ := mem_ofForest.1 hc
    exact (h.mem v).1 (hhas.1 hv).1
  · have hin := (h.mem v).2 hv
    rw [← h.root_eq_iff]
    constructor
    · rintro ⟨c, hc, hcv, hcw⟩
      obtain ⟨u, -, rfl⟩ := mem_ofForest.1 hc
      exact (hhas.1 hcv).2.trans (hhas.1 hcw).2.symm
    · intro hroot
      have hin' : w ∈ f.vertices := Forest.mem_of_root_mem (hroot ▸ Forest.root_mem hin)
      exact ⟨_, mem_ofForest.2 ⟨v, hin, rfl⟩, hhas.2 ⟨hin, rfl⟩, hhas.2 ⟨hin', hroot.symm⟩⟩
  · have hleast : (ofForest f).Pairwise fun a b => a.least ≤ b.least := by
      rw [ofForest]
      refine (List.pairwise_mergeSort (fun a b c hab hbc => ?_) (fun a b => ?_) _).imp of_decide_eq_true
      · exact decide_eq_true ((of_decide_eq_true hab).trans (of_decide_eq_true hbc))
      · simpa using Nat.le_total a.least b.least
    refine (hleast.and (nodup_ofForest f)).imp_of_mem fun {a b} ha hb hab => ?_
    have hmem : a.Has (.defect a.least) := least_mem (hfilled a ha).1
    have hmem' : b.Has (.defect b.least) := least_mem (hfilled b hb).1
    have hne : a.least ≠ b.least := fun e => hab.2 (hunique ha hb hmem (e ▸ hmem'))
    exact ⟨a.least, hmem, fun d hd => (lt_of_le_of_ne hab.1 hne).trans_le (least_le (hsorted b hb).1 hd)⟩

/-- Lists without repetitions in ascending order are equal if they hold the same. -/
theorem eq_of_pairwise_lt {l l' : List ℕ} (h : l.Pairwise (· < ·)) (h' : l'.Pairwise (· < ·))
    (hmem : ∀ n, n ∈ l ↔ n ∈ l') : l = l' :=
  ((List.perm_ext_iff_of_nodup (h.imp ne_of_lt) (h'.imp ne_of_lt)).2 hmem).eq_of_pairwise
    (fun _ _ _ _ hab hba => absurd hab hba.asymm) h h'

/-- Two lists of components of one graph hold the same components. -/
theorem IsSplit.subset (h : IsSplit es cs) (h' : IsSplit es cs') (hc : c ∈ cs) : c ∈ cs' := by
  obtain ⟨d, hd⟩ := List.exists_mem_of_ne_nil _ (h.filled c hc).1
  have hv : c.Has (.defect d) := hd
  obtain ⟨c', ⟨hc', hv'⟩, -⟩ := h'.once _ (h.only c hc _ hv)
  have hsame : ∀ w, c.Has w ↔ c'.Has w := fun w => (h.has_iff hc hv).trans (h'.has_iff hc' hv').symm
  have hdefects : c.defects = c'.defects :=
    eq_of_pairwise_lt (h.sorted c hc).1 (h'.sorted c' hc').1 fun n => hsame (.defect n)
  have hfindings : c.findings = c'.findings :=
    eq_of_pairwise_lt (h.sorted c hc).2 (h'.sorted c' hc').2 fun n => hsame (.finding n)
  have heq : c = c' := by
    cases c
    cases c'
    simp_all
  rwa [heq]

/-- **Uniqueness.** A graph has one list of components. -/
theorem IsSplit.unique (h : IsSplit es cs) (h' : IsSplit es cs') : cs = cs' := by
  have hnodup : ∀ {cs}, IsSplit es cs → cs.Nodup := fun h => h.ordered.imp fun hlt e => by
    obtain ⟨d, hd, hlt⟩ := hlt
    exact lt_irrefl d (hlt d (e ▸ hd))
  refine ((List.perm_ext_iff_of_nodup (hnodup h) (hnodup h')).2 fun c => ⟨h.subset h', h'.subset h⟩).eq_of_pairwise
    (fun a b _ _ hab hba => ?_) h.ordered h'.ordered
  obtain ⟨d, hd, hlt⟩ := hab
  obtain ⟨d', hd', hlt'⟩ := hba
  exact absurd (hlt d' hd') (hlt' d hd).asymm

/-- What the components of a graph are depends on what edges there are. -/
theorem IsSplit.congr (hsame : ∀ e, e ∈ es' ↔ e ∈ es) (h : IsSplit es cs) : IsSplit es' cs := by
  have hend : ∀ v, IsEnd es' v ↔ IsEnd es v := fun v => exists_congr fun e => and_congr_left' (hsame e)
  have hchain : ∀ v w, Connected es' v w ↔ Connected es v w := fun v w =>
    ⟨.mono fun e => (hsame e).1, .mono fun e => (hsame e).2⟩
  refine ⟨fun v hv => h.once v ((hend v).1 hv), fun c hc v hv => (hend v).2 (h.only c hc v hv), fun v w hv => ?_,
    h.filled, h.sorted, h.ordered⟩
  rw [h.together v w ((hend v).1 hv), hchain]

theorem isSplit_ofEdges (es : List (ℕ × ℕ)) : IsSplit es (ofEdges es) := isSplit_ofForest (Forest.spans_ofEdges es)

/-- **Components.** The components of a graph are what chains of its edges connect, each once and in order; whatever
the order of the edges is and however often each is there, they are the same. -/
theorem ofEdges_isSplit (es : List (ℕ × ℕ)) :
    IsSplit es (ofEdges es) ∧ ∀ es', (∀ e, e ∈ es' ↔ e ∈ es) → ofEdges es' = ofEdges es := by
  refine ⟨isSplit_ofEdges es, fun es' hsame => ?_⟩
  exact (isSplit_ofEdges es').unique ((isSplit_ofEdges es).congr hsame)

/-! ## Matching within components -/

/-- The components list no number twice, and every edge lies within one of them. -/
structure Separates (cs : List Component) (es : List (ℕ × ℕ)) : Prop where
  defects : (cs.flatMap (·.defects)).Nodup
  findings : (cs.flatMap (·.findings)).Nodup
  covers : ∀ e ∈ es, ∃ c ∈ cs, e.1 ∈ c.defects ∧ e.2 ∈ c.findings

/-- Components share nothing, and every edge lies within one. -/
theorem IsSplit.separates (h : IsSplit es cs) : Separates cs es := by
  have hdisjoint : cs.Pairwise fun a b => ∀ v, a.Has v → ¬ b.Has v := by
    refine h.ordered.imp_of_mem fun {a b} ha hb hab v hv hv' => ?_
    obtain ⟨d, hd, hlt⟩ := hab
    have hd' : b.Has (.defect d) := (h.has_iff hb hv').2 ((h.has_iff ha hv).1 hd)
    exact lt_irrefl d (hlt d hd')
  refine ⟨List.nodup_flatMap.2 ⟨fun c hc => (h.sorted c hc).1.imp ne_of_lt, ?_⟩,
    List.nodup_flatMap.2 ⟨fun c hc => (h.sorted c hc).2.imp ne_of_lt, ?_⟩, fun e he => ?_⟩
  · exact hdisjoint.imp fun hab d hd hd' => hab (.defect d) hd hd'
  · exact hdisjoint.imp fun hab n hn hn' => hab (.finding n) hn hn'
  · obtain ⟨c, hc, hd, hf⟩ := (h.together _ _ ⟨e, he, .inl rfl⟩).2 (connected_of_mem he)
    exact ⟨c, hc, hd, hf⟩

theorem separates_ofEdges (es : List (ℕ × ℕ)) : Separates (ofEdges es) es := (isSplit_ofEdges es).separates

theorem ofEdges_nil : ofEdges [] = [] := by
  simp [ofEdges, ofForest, Forest.ofEdges, Forest.vertices, Forest.empty, gather]

/-- The edges of one defect make one component. -/
theorem ofEdges_star (d : ℕ) {fs : List ℕ} (hne : fs ≠ []) (h : fs.Pairwise (· < ·)) :
    ofEdges (fs.map fun n => (d, n)) = [⟨[d], fs⟩] := by
  have hedge : ∀ {n}, n ∈ fs → (d, n) ∈ fs.map fun n => (d, n) := fun hn => List.mem_map_of_mem hn
  have hhas : ∀ v, Has ⟨[d], fs⟩ v ↔ IsEnd (fs.map fun n => (d, n)) v := by
    intro v
    obtain ⟨n, hn⟩ := List.exists_mem_of_ne_nil _ hne
    cases v with
    | defect m => simpa [Has, IsEnd] using fun _ => ⟨n, hn⟩
    | finding m => simp [Has, IsEnd]
  have hcentre : ∀ v, Has ⟨[d], fs⟩ v → Connected (fs.map fun n => (d, n)) (.defect d) v := by
    intro v hv
    cases v with
    | defect m =>
      rw [List.mem_singleton.1 hv]
      exact .refl _ _
    | finding m => exact connected_of_mem (hedge hv)
  refine (isSplit_ofEdges _).unique ⟨fun v hv => ?_, fun c hc v hv => ?_, fun v w hv => ?_, ?_, ?_, ?_⟩
  · exact ⟨_, ⟨List.mem_singleton_self _, (hhas v).2 hv⟩, fun c hc => List.mem_singleton.1 hc.1⟩
  · rw [List.mem_singleton.1 hc] at hv
    exact (hhas v).1 hv
  · have hv' := (hhas v).2 hv
    constructor
    · rintro ⟨c, hc, -, hw⟩
      rw [List.mem_singleton.1 hc] at hw
      exact (hcentre v hv').symm.trans (hcentre w hw)
    · intro hchain
      have heq := hchain.eq_of (f := Has ⟨[d], fs⟩) fun e he => by
        obtain ⟨n, hn, rfl⟩ := List.mem_map.1 he
        simp [Has, hn]
      exact ⟨_, List.mem_singleton_self _, hv', heq ▸ hv'⟩
  · simpa using hne
  · simpa using h
  · exact List.pairwise_singleton ..

end

end Assay.Component
