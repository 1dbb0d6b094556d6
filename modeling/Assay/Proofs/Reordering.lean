import Assay.Proofs.Faultless
import Assay.Value.Convert

/-!
# Values up to the order of entries

A document does not keep the order of the entries of a mapping. What is read by key does not depend on
that order as long as the keys are different (`Reordered.fields`), and everything without entries is the
same value.
-/

namespace Assay.Value

/-- The first value is the second one, perhaps with the entries of mappings in another order. -/
inductive Reordered : Value → Value → Prop where
  | refl (v : Value) : Reordered v v
  | list {as bs : List Value} : List.Forall₂ Reordered as bs → Reordered (.list as) (.list bs)
  | map {es fs gs : List (Value × Value)} :
      es.map (·.1) = fs.map (·.1) → List.Forall₂ Reordered (es.map (·.2)) (fs.map (·.2)) → fs.Perm gs →
        Reordered (.map es) (.map gs)

/-- A value that has no parts. -/
def IsScalar : Value → Prop
  | .list _ | .map _ => False
  | _ => True

section
variable {v w : Value} {es fs : List (Value × Value)} {entries : List (String × Value)} {key : String}

theorem Reordered.eq_of_isScalar (h : v.Reordered w) (hw : w.IsScalar) : v = w := by
  cases h with
  | refl => rfl
  | list => cases hw
  | map => cases hw

/-- A key that occurs once leads to its value. -/
theorem lookupText?_of_mem (distinct : (es.map (·.1)).Nodup) (h : (.text key, w) ∈ es) :
    lookupText? key es = some w := by
  induction es with
  | nil => cases h
  | cons e es ih =>
    obtain ⟨k, x⟩ := e
    obtain ⟨hk, hrest⟩ := List.nodup_cons.1 distinct
    rcases List.mem_cons.1 h with he | he
    · obtain ⟨rfl, rfl⟩ := Prod.mk.inj he
      simp [lookupText?]
    · have hkey : Value.text key ∈ es.map (·.1) := List.mem_map.2 ⟨_, he, rfl⟩
      cases k with
      | text s =>
        have hne : s ≠ key := fun e => hk (e ▸ hkey)
        rw [lookupText?, if_neg hne]
        exact ih hrest he
      | _ => exact ih hrest he

/-- A key that does not occur leads nowhere. -/
theorem lookupText?_of_not_mem (h : .text key ∉ es.map (·.1)) : lookupText? key es = none := by
  induction es with
  | nil => rfl
  | cons e es ih =>
    obtain ⟨k, x⟩ := e
    obtain ⟨hk, hrest⟩ := not_or.1 (fun hm => h (List.mem_cons.2 hm))
    cases k with
    | text s =>
      have hne : s ≠ key := fun e => hk (congrArg Value.text e).symm
      rw [lookupText?, if_neg hne, ih hrest]
    | _ => exact ih hrest

theorem nodup_record (distinct : (entries.map (·.1)).Nodup) :
    ((entries.map fun (k, v) => (Value.text k, v)).map (·.1)).Nodup := by
  have hmap : (entries.map fun (k, v) => (Value.text k, v)).map (·.1) = (entries.map (·.1)).map Value.text := by
    simp
  rw [hmap]
  exact distinct.map fun a b h => Value.text.inj h

/-- The fields of a record in another order are those of the record. -/
theorem Reordered.fields (h : v.Reordered (.record entries)) (distinct : (entries.map (·.1)).Nodup) :
    v.isMap = true ∧ ∀ f ∈ entries, (v.get f.1).Reordered f.2 := by
  have hkeys := nodup_record distinct
  have hmem : ∀ f ∈ entries, (Value.text f.1, f.2) ∈ entries.map fun (k, v) => (Value.text k, v) :=
    fun f hf => List.mem_map_of_mem hf
  unfold record at h
  generalize (entries.map fun (k, v) => (Value.text k, v)) = gs at h hkeys hmem
  cases h with
  | refl =>
    refine ⟨rfl, fun f hf => ?_⟩
    have hget : (Value.map gs).get f.1 = f.2 := congrArg (·.getD Value.null) (lookupText?_of_mem hkeys (hmem f hf))
    rw [hget]
    exact .refl _
  | @map es fs _ hsame hvalues hperm =>
    refine ⟨rfl, fun f hf => ?_⟩
    have hes : (es.map (·.1)).Nodup := by
      rw [hsame]
      exact (hperm.map (·.1)).nodup_iff.2 hkeys
    obtain ⟨i, hi, hfi⟩ := List.mem_iff_getElem.1 (hperm.mem_iff.2 (hmem f hf))
    have hlen : es.length = fs.length := by simpa using congrArg List.length hsame
    have hi' : i < es.length := hlen ▸ hi
    have hkey : (es[i]).1 = .text f.1 := by
      have := congrArg (·[i]?) hsame
      simpa [hi, hi', hfi] using this
    have hvalue : (es[i]).2.Reordered f.2 := by
      have := hvalues.get (i := i) (by simpa using hi') (by simpa using hi)
      simpa [hfi] using this
    have hin : (Value.text f.1, (es[i]).2) ∈ es := hkey ▸ List.getElem_mem hi'
    have hget : (Value.map es).get f.1 = (es[i]).2 := congrArg (·.getD Value.null) (lookupText?_of_mem hes hin)
    rw [hget]
    exact hvalue

/-- A record in another order has no other fields. -/
theorem Reordered.get_absent (h : v.Reordered (.record entries)) (absent : key ∉ entries.map (·.1)) :
    v.get key = .null := by
  have hkey : Value.text key ∉ (entries.map fun (k, v) => (Value.text k, v)).map (·.1) := by
    simpa [List.mem_map] using absent
  unfold record at h
  generalize (entries.map fun (k, v) => (Value.text k, v)) = gs at h hkey
  cases h with
  | refl => exact congrArg (·.getD Value.null) (lookupText?_of_not_mem hkey)
  | @map es fs _ hsame _ hperm =>
    have hes : Value.text key ∉ es.map (·.1) := by
      rw [hsame]
      exact fun hm => hkey ((hperm.map (·.1)).mem_iff.1 hm)
    exact congrArg (·.getD Value.null) (lookupText?_of_not_mem hes)

end

end Assay.Value
