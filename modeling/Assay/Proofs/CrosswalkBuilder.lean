import Assay.Proofs.RegisteredRows

/-!
# Calls of a crosswalk builder

A builder is called to register rows, to resolve rules and to freeze the table, in any order; registrations may be
refused. One call keeps what is held the keyed maximum of the rows that were taken (`Builder.Kept.after`), and so do
all (`Builder.Kept.run`). From the first freezing on the table stays (`Builder.run_frozen`), and before it the order
of the calls is of no account (`Builder.taken_of_unfrozen`).
-/

namespace Assay

namespace Crosswalk

namespace Builder

/-! ## Calls -/

/-- A call of a builder. -/
inductive Call where
  | register (standard rule category confidence : Value)
  | resolve (standard rule : Value)
  | freeze

/-- The builder after a call. A registration that is refused leaves it as it was. -/
def after (b : Builder) : Call → Builder
  | .register standard rule category confidence =>
    match b.register standard rule category confidence with
    | .ok b' => b'
    | .error _ => b
  | .resolve _ _ => b
  | .freeze => b.freeze

/-- The row of a registration, refused or not. -/
def Call.row? : Call → Option CrosswalkRow
  | .register standard rule category confidence => (rowOf standard rule category confidence).toOption
  | .resolve _ _ => none
  | .freeze => none

/-- The row that a call adds: that of a registration that is not refused. -/
def added? (b : Builder) (call : Call) : Option CrosswalkRow :=
  match call with
  | .register standard rule category confidence =>
    if (b.register standard rule category confidence).isOk then call.row? else none
  | .resolve _ _ => none
  | .freeze => none

/-- The builder after some calls. -/
def run (b : Builder) (calls : List Call) : Builder := calls.foldl after b

/-- The rows that some calls add. -/
def taken (b : Builder) : List Call → List CrosswalkRow
  | [] => []
  | call :: rest => (b.added? call).toList ++ (b.after call).taken rest

/-- The answer to a rule of two values. -/
def answer (b : Builder) (standard rule : Value) : Except NumeralError (List Classification) :=
  return b.table.resolve (← RuleKey.read standard rule)

section
variable {b b' : Builder} {given : List CrosswalkRow} {standard rule category confidence : Value}

theorem register_frozen {x : Crosswalk} (h : b.frozen = some x) :
    b.register standard rule category confidence = .error (.crosswalk (.frozen b.version)) := by
  rw [register, h]
  rfl

/-! ## One call -/

/-- What a call does: it adds a row that was read, or freezes the table, or nothing. -/
theorem after_cases (b : Builder) (call : Call) :
    (∃ r, b.added? call = some r ∧ call.row? = some r ∧ r.IsSound ∧ b.frozen = none ∧
      b.after call = { b with rows := insertRow r b.rows }) ∨
    (b.added? call = none ∧ call = .freeze ∧ b.after call = b.freeze) ∨
    (b.added? call = none ∧ call ≠ .freeze ∧ (b.frozen = none → call.row? = none) ∧ b.after call = b) := by
  cases call with
  | resolve standard rule => exact .inr (.inr ⟨rfl, nofun, fun _ => rfl, rfl⟩)
  | freeze => exact .inr (.inl ⟨rfl, rfl, rfl⟩)
  | register standard rule category confidence =>
    cases hregister : b.register standard rule category confidence with
    | ok b' =>
      obtain ⟨hfrozen, r, hr, rfl⟩ := register_eq_ok.1 hregister
      obtain ⟨hcategory, hlow, hhigh⟩ := range_of_rowOf hr
      have hrow : Call.row? (.register standard rule category confidence) = some r := by rw [Call.row?, hr]; rfl
      refine .inl ⟨r, ?_, hrow, ⟨hcategory, hlow, hhigh⟩, hfrozen, ?_⟩
      · rw [added?, hregister]
        exact hrow
      · simp only [after, hregister]
    | error f =>
      refine .inr (.inr ⟨?_, nofun, fun hfrozen => ?_, ?_⟩)
      · rw [added?, hregister]
        rfl
      · -- Nothing but the row can be at fault before the table is frozen.
        cases hr : rowOf standard rule category confidence with
        | ok r => cases hregister.symm.trans (register_eq_ok.2 ⟨hfrozen, r, hr, rfl⟩)
        | error e => rw [Call.row?, hr]; rfl
      · simp only [after, hregister]

/-- A frozen builder stays as it is. -/
theorem after_frozen {x : Crosswalk} (h : b.frozen = some x) (call : Call) : b.after call = b := by
  cases call with
  | register standard rule category confidence => simp only [after, register_frozen h]
  | resolve standard rule => rfl
  | freeze =>
    have htable : b.table = x := by rw [table, h]; rfl
    rw [after, freeze, htable, ← h]

theorem version_after (b : Builder) (call : Call) : (b.after call).version = b.version := by
  obtain ⟨r, -, -, -, -, hafter⟩ | ⟨-, -, hafter⟩ | ⟨-, -, -, hafter⟩ := after_cases b call
  · rw [hafter]
  · rw [hafter, freeze]
  · rw [hafter]

/-- What a builder holds when some rows were taken: the most confident of them, frozen or not. -/
structure Kept (b : Builder) (given : List CrosswalkRow) : Prop where
  tops : Tops b.rows given
  sound : ∀ r ∈ given, r.IsSound
  frozen : ∀ x, b.frozen = some x → x = b.snapshot

theorem Kept.start {version : Value} (h : Builder.start version = .ok b) : Kept b [] := by
  obtain ⟨hrows, hfrozen⟩ := empty_of_start h
  refine ⟨hrows ▸ Tops.nil, fun r hr => absurd hr List.not_mem_nil, fun x hx => ?_⟩
  rw [hfrozen] at hx
  cases hx

theorem Kept.table_eq (h : Kept b given) : b.table = b.snapshot := by
  unfold table
  cases hf : b.frozen with
  | none => rfl
  | some x => exact h.frozen x hf

theorem Kept.isTableOf (h : Kept b given) : b.table.IsTableOf given := by
  rw [h.table_eq]
  exact h.tops.isTableOf h.sound b.version

/-- One call keeps the most confident rows. -/
theorem Kept.after (h : Kept b given) (call : Call) : Kept (b.after call) (given ++ (b.added? call).toList) := by
  obtain ⟨r, hadded, -, hr, hfrozen, hafter⟩ | ⟨hadded, -, hafter⟩ | ⟨hadded, -, -, hafter⟩ := after_cases b call
  · rw [hafter, hadded]
    refine ⟨h.tops.insertRow h.sound hr, fun s hs => ?_, fun x hx => ?_⟩
    · rcases List.mem_append.1 hs with hs | hs
      · exact h.sound s hs
      · exact List.mem_singleton.1 hs ▸ hr
    · exact absurd (hfrozen.symm.trans hx) nofun
  · rw [hafter, hadded, Option.toList_none, List.append_nil]
    refine ⟨h.tops, h.sound, fun x hx => ?_⟩
    exact (Option.some.inj hx).symm.trans h.table_eq
  · rw [hafter, hadded, Option.toList_none, List.append_nil]
    exact h

/-! ## Any number of calls -/

/-- A builder holds the most confident of the rows that were taken, after any calls. -/
theorem Kept.run (h : Kept b given) (calls : List Call) : Kept (b.run calls) (given ++ b.taken calls) := by
  induction calls generalizing b given with
  | nil => simpa [Builder.run, taken] using h
  | cons call rest ih =>
    have hrest := ih (h.after call)
    rwa [List.append_assoc] at hrest

theorem run_frozen {x : Crosswalk} (h : b.frozen = some x) (calls : List Call) : b.run calls = b := by
  induction calls with
  | nil => rfl
  | cons call rest ih => rw [run, List.foldl_cons, after_frozen h call]; exact ih

theorem version_run (b : Builder) (calls : List Call) : (b.run calls).version = b.version := by
  induction calls generalizing b with
  | nil => rfl
  | cons call rest ih => exact (ih (b.after call)).trans (version_after b call)

/-- As long as nothing is frozen, every row that can be read is taken. -/
theorem taken_of_unfrozen {calls : List Call} (h : b.frozen = none) (hcalls : .freeze ∉ calls) :
    b.taken calls = calls.filterMap Call.row? := by
  induction calls generalizing b with
  | nil => rfl
  | cons call rest ih =>
    have hrest : .freeze ∉ rest := fun hmem => hcalls (List.mem_cons_of_mem call hmem)
    unfold taken
    obtain ⟨r, hadded, hrow, -, -, hafter⟩ | ⟨-, hfreeze, -⟩ | ⟨hadded, -, hrow, hafter⟩ := after_cases b call
    · rw [hadded, List.filterMap_cons_some hrow, hafter]
      exact congrArg (r :: ·) (ih h hrest)
    · exact absurd (hfreeze ▸ List.mem_cons_self) hcalls
    · rw [hadded, List.filterMap_cons_none (hrow h), hafter]
      exact ih h hrest

/-- **The builder is a keyed maximum.** After any calls its table is that of the rows that were taken, and it answers
every rule of two texts from it. Resolving a rule and a registration that is refused change nothing. Once the table
is frozen it stays, whatever is called, and every registration is refused. Without a freezing among the calls,
another order of them comes to the same table. -/
theorem keyed_maximum {version : Value} (hstart : Builder.start version = .ok b) (calls : List Call) :
    (b.run calls).table.IsTableOf (b.taken calls) ∧
    (∀ standard rule : String, (b.run calls).answer (.text standard) (.text rule) =
      .ok ((b.run calls).table.resolve (RuleKey.of standard rule))) ∧
    (∀ call, call ≠ .freeze → (b.run calls).added? call = none → (b.run calls).after call = b.run calls) ∧
    (∀ more, (((b.run calls).after .freeze).run more).frozen = some (b.run calls).table ∧
      (((b.run calls).after .freeze).run more).table = (b.run calls).table ∧
      ∀ standard rule category confidence,
        (((b.run calls).after .freeze).run more).register standard rule category confidence =
          .error (.crosswalk (.frozen b.version))) ∧
    (.freeze ∉ calls → ∀ calls', calls.Perm calls' → (b.run calls).table.Same (b.run calls').table) := by
  have hkept : ∀ cs, Kept (b.run cs) (b.taken cs) := fun cs => (Kept.start hstart).run cs
  refine ⟨(hkept calls).isTableOf, fun standard rule => ?_, fun call hcall hadded => ?_, fun more => ?_, ?_⟩
  · have hkey : RuleKey.read (.text standard) (.text rule) = .ok (RuleKey.of standard rule) := by
      rw [RuleKey.read, Value.textOrEmpty?_text, Value.textOrEmpty?_text]
      rfl
    rw [answer, hkey]
    rfl
  · obtain ⟨r, hsome, -⟩ | ⟨-, hfreeze, -⟩ | ⟨-, -, -, hafter⟩ := after_cases (b.run calls) call
    · rw [hadded] at hsome
      cases hsome
    · exact absurd hfreeze hcall
    · exact hafter
  · have hfrozen : ((b.run calls).after .freeze).frozen = some (b.run calls).table := rfl
    rw [run_frozen hfrozen more]
    refine ⟨hfrozen, rfl, fun standard rule category confidence => ?_⟩
    rw [register_frozen hfrozen, version_after, version_run]
  · intro hcalls calls' hperm
    obtain ⟨-, hunfrozen⟩ := empty_of_start hstart
    have htaken : (b.taken calls).Perm (b.taken calls') := by
      rw [taken_of_unfrozen hunfrozen hcalls, taken_of_unfrozen hunfrozen (fun h => hcalls (hperm.mem_iff.2 h))]
      exact hperm.filterMap _
    refine ⟨?_, (hkept calls).isTableOf.same_rows (hkept calls').isTableOf htaken (hkept calls).sound⟩
    rw [(hkept calls).table_eq, (hkept calls').table_eq]
    exact (version_run b calls).trans (version_run b calls').symm

end

/-- A builder to which nothing was registered. -/
def fresh : Builder := ⟨"v1", [], none⟩

/-- The registration of a row. -/
def Call.listed : Call := .register (.text "generic") (.text "R1") (.text "other") (.float 1)

/-- A row is taken and the table frozen; the same registration is refused then. -/
theorem keyed_maximum_frozen : Builder.start (.text "v1") = .ok fresh ∧
    fresh.taken [.listed, .freeze, .listed] = [⟨⟨"generic", "R1"⟩, .other, 1⟩] ∧
    (fresh.run [.listed, .freeze, .listed]).table.IsTableOf (fresh.taken [.listed, .freeze, .listed]) := by
  have hregister : fresh.register (.text "generic") (.text "R1") (.text "other") (.float 1) =
      .ok ⟨"v1", [⟨⟨"generic", "R1"⟩, .other, 1⟩], none⟩ :=
    register_eq_ok.2 ⟨rfl, _, rowOf_listed, rfl⟩
  have hafter : fresh.after .listed = ⟨"v1", [⟨⟨"generic", "R1"⟩, .other, 1⟩], none⟩ := by
    simp only [Call.listed, after, hregister]
  have hadded : fresh.added? .listed = some ⟨⟨"generic", "R1"⟩, .other, 1⟩ := by
    simp only [Call.listed, added?, hregister, Call.row?, rowOf_listed]
    rfl
  have hstart : Builder.start (.text "v1") = .ok fresh := start_empty
  refine ⟨hstart, ?_, (keyed_maximum hstart [.listed, .freeze, .listed]).1⟩
  simp only [taken, hafter, hadded]
  rfl

end Builder

end Crosswalk

end Assay
