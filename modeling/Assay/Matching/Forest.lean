/-!
# Forest of the candidate graph

Which defects and findings hang together is found out edge by edge. Every item of the graph is linked to an item that
does not stand behind it, an item that is linked to itself is a root, and items with one root are in one tree. A new
edge makes one tree of two by a link between their roots. Looking up a root links everything on the way to it straight
to the root, which changes no root (`root_find`). That a link never leads to a later item is what makes every way end.
-/

namespace Assay

/-- An item of the candidate graph, by its number among the items of its kind. -/
inductive Vertex where
  | finding (n : Nat)
  | defect (n : Nat)
  deriving Repr, DecidableEq, Inhabited

namespace Vertex

/-- Every finding stands before every defect. -/
def side : Vertex → Nat
  | .finding _ => 0
  | .defect _ => 1

/-- The number of an item. -/
def number : Vertex → Nat
  | .finding n => n
  | .defect n => n

/-- Items stand by their kinds, those of one kind by their numbers. -/
instance : LT Vertex := ⟨fun a b => a.side < b.side ∨ a.side = b.side ∧ a.number < b.number⟩

instance : LE Vertex := ⟨fun a b => ¬ b < a⟩

instance (a b : Vertex) : Decidable (a < b) :=
  inferInstanceAs (Decidable (a.side < b.side ∨ a.side = b.side ∧ a.number < b.number))

instance (a b : Vertex) : Decidable (a ≤ b) := inferInstanceAs (Decidable (¬ b < a))

variable {a b c : Vertex}

theorem lt_iff : a < b ↔ a.side < b.side ∨ a.side = b.side ∧ a.number < b.number := Iff.rfl

/-- No way leads before and before for ever. -/
instance : WellFoundedRelation Vertex where
  rel a b := a < b
  wf := by
    refine Subrelation.wf ?_ (invImage (fun v => (v.side, v.number)) Prod.instWellFoundedRelation).wf
    intro a b h
    exact Prod.lex_def.2 h

theorem le_iff : a ≤ b ↔ a.side < b.side ∨ a.side = b.side ∧ a.number ≤ b.number := by
  have h : a ≤ b ↔ ¬ b < a := Iff.rfl
  rw [h, lt_iff]
  omega

theorem eq_of_side_of_number (hs : a.side = b.side) (hn : a.number = b.number) : a = b := by
  cases a <;> cases b <;> simp_all [side, number]

theorem le_refl (a : Vertex) : a ≤ a := by
  rw [le_iff]
  omega

theorem le_trans (hab : a ≤ b) (hbc : b ≤ c) : a ≤ c := by
  rw [le_iff] at *
  omega

theorem lt_of_lt_of_le (hab : a < b) (hbc : b ≤ c) : a < c := by
  rw [le_iff] at hbc
  rw [lt_iff] at *
  omega

theorem lt_of_le_of_lt (hab : a ≤ b) (hbc : b < c) : a < c := by
  rw [le_iff] at hab
  rw [lt_iff] at *
  omega

theorem le_of_lt (h : a < b) : a ≤ b := by
  rw [lt_iff] at h
  rw [le_iff]
  omega

theorem ne_of_lt (h : a < b) : a ≠ b := by
  rintro rfl
  rw [lt_iff] at h
  omega

theorem lt_of_le_of_ne (h : a ≤ b) (hne : a ≠ b) : a < b := by
  rw [le_iff] at h
  rw [lt_iff]
  rcases h with h | ⟨hs, hn⟩
  · exact .inl h
  · exact .inr ⟨hs, Nat.lt_of_le_of_ne hn fun e => hne (eq_of_side_of_number hs e)⟩

theorem le_total (a b : Vertex) : a ≤ b ∨ b ≤ a := by
  rw [le_iff, le_iff]
  omega

end Vertex

/-- Items with links between them. -/
structure Forest where
  /-- Each item with the one that it is linked to, in the order in which the items were added. -/
  links : List (Vertex × Vertex)
  /-- No item is there twice. -/
  distinct : (links.map (·.1)).Nodup
  /-- No link leads to a later item. -/
  descends : ∀ l ∈ links, l.2 ≤ l.1
  /-- Every link leads to an item that is there. -/
  closed : ∀ l ∈ links, l.2 ∈ links.map (·.1)

namespace Forest

/-- No items. -/
def empty : Forest := ⟨[], .nil, nofun, nofun⟩

/-- The items of a forest. -/
def vertices (f : Forest) : List Vertex := f.links.map (·.1)

/-- The item that an item is linked to. -/
def parent (f : Forest) (v : Vertex) : Vertex := (f.links.lookup v).getD v

variable {f : Forest} {v w p r : Vertex}

theorem exists_lookup (h : v ∈ f.vertices) : ∃ p, f.links.lookup v = some p := by
  obtain ⟨l, hl, rfl⟩ := List.mem_map.1 h
  rw [← Option.isSome_iff_exists, List.lookup_isSome_iff]
  exact ⟨l, hl, by simp⟩

theorem mem_links (h : v ∈ f.vertices) : (v, f.parent v) ∈ f.links := by
  obtain ⟨p, hp⟩ := exists_lookup h
  obtain ⟨before, after, hsplit, -⟩ := List.lookup_eq_some_iff.1 hp
  rw [parent, hp, hsplit]
  simp

theorem parent_of_not_mem (h : v ∉ f.vertices) : f.parent v = v := by
  have hnone : f.links.lookup v = none := by
    rw [List.lookup_eq_none_iff]
    intro l hl
    simpa using fun e => h (List.mem_map.2 ⟨l, hl, e.symm⟩)
  rw [parent, hnone]
  rfl

/-- A link leads to no later item. -/
theorem parent_le (f : Forest) (v : Vertex) : f.parent v ≤ v := by
  by_cases h : v ∈ f.vertices
  · exact f.descends _ (mem_links h)
  · rw [parent_of_not_mem h]
    exact v.le_refl

theorem parent_mem (h : v ∈ f.vertices) : f.parent v ∈ f.vertices := f.closed _ (mem_links h)

/-- The item at which the links from an item end. -/
def root (f : Forest) (v : Vertex) : Vertex :=
  if f.parent v = v then v else f.root (f.parent v)
termination_by v
decreasing_by exact Vertex.lt_of_le_of_ne (f.parent_le v) ‹_›

theorem root_of_parent_eq (h : f.parent v = v) : f.root v = v := by rw [root, if_pos h]

theorem root_parent (f : Forest) (v : Vertex) : f.root (f.parent v) = f.root v := by
  by_cases h : f.parent v = v
  · rw [h]
  · rw [root.eq_1 f v, if_neg h]

/-- What holds of every item if it holds of roots, and of an item if it holds of the one that it is linked to. -/
theorem induction_on {motive : Vertex → Prop} (f : Forest) (v : Vertex)
    (root : ∀ v, f.parent v = v → motive v)
    (step : ∀ v, f.parent v < v → motive (f.parent v) → motive v) : motive v := by
  by_cases h : f.parent v = v
  · exact root v h
  · have hlt := Vertex.lt_of_le_of_ne (f.parent_le v) h
    exact step v hlt (induction_on f (f.parent v) root step)
termination_by v
decreasing_by exact hlt

theorem parent_root (f : Forest) (v : Vertex) : f.parent (f.root v) = f.root v := by
  induction v using f.induction_on with
  | root v h => rw [root_of_parent_eq h, h]
  | step v _ ih => rwa [root_parent] at ih

theorem root_le (f : Forest) (v : Vertex) : f.root v ≤ v := by
  induction v using f.induction_on with
  | root v h =>
    rw [root_of_parent_eq h]
    exact v.le_refl
  | step v hlt ih =>
    rw [root_parent] at ih
    exact Vertex.le_trans ih (f.parent_le v)

theorem root_mem (h : v ∈ f.vertices) : f.root v ∈ f.vertices := by
  induction v using f.induction_on with
  | root v hv => rwa [root_of_parent_eq hv]
  | step v _ ih =>
    rw [← root_parent]
    exact ih (parent_mem h)

/-- Links an item of the forest to another one that does not stand behind it. -/
def relink (f : Forest) (v p : Vertex) (hp : p ∈ f.vertices) (hle : p ≤ v) : Forest :=
  have keys : (f.links.map fun l => if l.1 = v then (v, p) else l).map (·.1) = f.links.map (·.1) := by
    rw [List.map_map]
    refine List.map_congr_left fun l _ => ?_
    by_cases h : l.1 = v <;> simp [h]
  { links := f.links.map fun l => if l.1 = v then (v, p) else l
    distinct := keys ▸ f.distinct
    descends := by
      intro l hl
      obtain ⟨l', hl', rfl⟩ := List.mem_map.1 hl
      split
      · exact hle
      · exact f.descends l' hl'
    closed := by
      intro l hl
      obtain ⟨l', hl', rfl⟩ := List.mem_map.1 hl
      rw [keys]
      split
      · exact hp
      · exact f.closed l' hl' }

theorem vertices_relink (hp : p ∈ f.vertices) (hle : p ≤ v) : (f.relink v p hp hle).vertices = f.vertices := by
  rw [vertices, vertices, relink, List.map_map]
  refine List.map_congr_left fun l _ => ?_
  by_cases h : l.1 = v <;> simp [h]

theorem lookup_replace (links : List (Vertex × Vertex)) (v p w : Vertex) :
    (links.map fun l => if l.1 = v then (v, p) else l).lookup w =
      if w = v then (links.lookup w).map fun _ => p else links.lookup w := by
  induction links with
  | nil => simp
  | cons l rest ih =>
    obtain ⟨k, q⟩ := l
    rw [List.map_cons, List.lookup_cons]
    by_cases hk : k = v
    · by_cases hw : w = v
      · simp [hk, hw]
      · have hne : (w == v) = false := beq_eq_false_iff_ne.2 hw
        simp [hk, hw, hne, ih, List.lookup_cons]
    · by_cases hw : w = k
      · simp [hk, hw]
      · have hne : (w == k) = false := beq_eq_false_iff_ne.2 hw
        simp [hk, hne, ih, List.lookup_cons]

theorem parent_relink (hv : v ∈ f.vertices) (hp : p ∈ f.vertices) (hle : p ≤ v) (w : Vertex) :
    (f.relink v p hp hle).parent w = if w = v then p else f.parent w := by
  rw [parent, relink, lookup_replace]
  by_cases hw : w = v
  · obtain ⟨q, hq⟩ := exists_lookup hv
    simp [hw, hq]
  · simp [hw, parent]

/-- A link of an item does not change the roots of items before it. -/
theorem root_relink_of_lt (hv : v ∈ f.vertices) (hp : p ∈ f.vertices) (hle : p ≤ v) (h : w < v) :
    (f.relink v p hp hle).root w = f.root w := by
  have hparent : ∀ {w : Vertex}, w < v → (f.relink v p hp hle).parent w = f.parent w := fun h => by
    rw [parent_relink hv, if_neg (Vertex.ne_of_lt h)]
  induction w using f.induction_on with
  | root w hw => rw [root_of_parent_eq hw, root_of_parent_eq ((hparent h).trans hw)]
  | step w hlt ih =>
    rw [← root_parent, hparent h, ih (Vertex.lt_of_lt_of_le hlt (Vertex.le_of_lt h)), root_parent]

/-- Links everything on the way from an item to its root straight to the root. -/
def compress (f : Forest) (v r : Vertex) (hv : v ∈ f.vertices) (hr : f.root v = r) : Forest :=
  if h : f.parent v = r then f
  else
    have hmem : r ∈ f.vertices := hr ▸ root_mem hv
    have hle : r ≤ v := hr ▸ f.root_le v
    have hlt : f.parent v < v := Vertex.lt_of_le_of_ne (f.parent_le v) fun e =>
      h (e.trans ((root_of_parent_eq e).symm.trans hr))
    compress (f.relink v r hmem hle) (f.parent v) r (vertices_relink hmem hle ▸ parent_mem hv)
      ((root_relink_of_lt hv hmem hle hlt).trans ((f.root_parent v).trans hr))
termination_by v
decreasing_by exact hlt

/-- The root of an item, and the forest with everything on the way linked to it. -/
def find (f : Forest) (v : Vertex) (hv : v ∈ f.vertices) : Vertex × Forest := (f.root v, f.compress v (f.root v) hv rfl)

theorem vertices_compress (hv : v ∈ f.vertices) (hr : f.root v = r) : (f.compress v r hv hr).vertices = f.vertices := by
  fun_induction compress f v r hv hr with
  | case1 => rfl
  | case2 f v hv hr h hmem hle hlt ih => rw [ih, vertices_relink]

theorem vertices_find (hv : v ∈ f.vertices) : (f.find v hv).2.vertices = f.vertices := vertices_compress hv rfl

/-- The forest with an item that stands alone, unless the item is there. -/
def add (f : Forest) (v : Vertex) : Forest :=
  if h : v ∈ f.vertices then f
  else
    { links := f.links ++ [(v, v)]
      distinct := by
        rw [List.map_append, List.nodup_append]
        refine ⟨f.distinct, by simp, ?_⟩
        intro a ha b hb hab
        obtain rfl : b = v := List.mem_singleton.1 hb
        exact h (hab ▸ ha)
      descends := by
        intro l hl
        rcases List.mem_append.1 hl with hl | hl
        · exact f.descends l hl
        · rw [List.mem_singleton.1 hl]
          exact v.le_refl
      closed := by
        intro l hl
        rw [List.map_append, List.mem_append]
        rcases List.mem_append.1 hl with hl | hl
        · exact .inl (f.closed l hl)
        · rw [List.mem_singleton.1 hl]
          exact .inr (List.mem_cons_self ..) }

theorem mem_add : w ∈ (f.add v).vertices ↔ w ∈ f.vertices ∨ w = v := by
  rw [add]
  split
  next h => exact ⟨.inl, fun hw => hw.elim id fun e => e ▸ h⟩
  next => simp [vertices]

/-- Makes one tree of the trees of two roots: the root that stands behind is linked to the other one. -/
def unite (f : Forest) (r s : Vertex) (hr : r ∈ f.vertices) (hs : s ∈ f.vertices) : Forest :=
  if r = s then f
  else if h : r < s then f.relink s r hr (Vertex.le_of_lt h)
  else f.relink r s hs h

/-- Makes one tree of the trees of two items. -/
def join (f : Forest) (a b : Vertex) (ha : a ∈ f.vertices) (hb : b ∈ f.vertices) : Forest :=
  let first := f.find a ha
  have hb' : b ∈ first.2.vertices := vertices_find ha ▸ hb
  let second := first.2.find b hb'
  have keeps : second.2.vertices = first.2.vertices := vertices_find hb'
  second.2.unite first.1 second.1 (keeps ▸ vertices_find ha ▸ root_mem ha) (keeps ▸ root_mem hb')

/-- The forest with one more edge, from a defect to a finding. -/
def addEdge (f : Forest) (e : Nat × Nat) : Forest :=
  ((f.add (.defect e.1)).add (.finding e.2)).join (.defect e.1) (.finding e.2)
    (mem_add.2 (.inl (mem_add.2 (.inr rfl)))) (mem_add.2 (.inr rfl))

/-- The forest of a graph given by its edges. -/
def ofEdges (es : List (Nat × Nat)) : Forest := es.foldl addEdge empty

end Forest
end Assay
