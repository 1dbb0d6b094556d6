import Assay.Proofs.SuccessiveRuns

/-!
# How many runs a day holds

The numbers below the next one are in use: each is the number of a name like that of a run of the day
(`RunStore.InUse`). So a day is full only if its ninety-nine numbers are, and as a call takes one number and no
number is given twice, the first ninety-nine calls of a day are successful and no other one is
(`RunStore.day_capacity`). What is named like a run and is no directory counts as well, as it is in the way of a run
that is stored at its time of day.
-/

namespace Assay

namespace RunStore

/-- Whether an entry is named like a run of a day. -/
def isNamed (day : String) (entry : String × Node) : Bool := isRunOf day (entry.1, .dir [])

/-- The entries that are named like runs of a day. -/
def named (day : String) (runs : Directory) : Directory := runs.filter (isNamed day)

/-- Every number below the next one is that of an entry. -/
def InUse (day : String) (runs : Directory) : Prop :=
  ∀ n, 1 ≤ n → n < nextNumber day runs → ∃ e ∈ named day runs, numberOf e.1 = n

section
variable {s : RunStore} {start : Disk} {place : Path} {now : Moment} {day : Date} {r : Report} {k m n : ℕ}
  {o : Except Fault String} {os : List (Except Fault String)} {runs runs' files : Directory}
  {calls : List (Moment × Report)}

/-! ## Numbers in use -/

theorem mem_named_of_isSome (hnow : now.IsShown) (hn : n ≤ maxNumber) (h : (runs.get? (idOf now n)).isSome) :
    ∃ e ∈ named now.date.stamp runs, numberOf e.1 = n := by
  obtain ⟨node, hnode⟩ := Option.isSome_iff_exists.1 h
  exact ⟨_, List.mem_filter.2 ⟨Directory.mem_of_get? hnode, isRunOf_idOf hnow hn⟩, numberOf_idOf hnow hn⟩

theorem named_put (hnow : now.IsShown) (h : Allots now runs k) :
    named now.date.stamp (runs.put (idOf now k) (.dir files)) =
      named now.date.stamp runs ++ [(idOf now k, .dir files)] := by
  have hname : isNamed now.date.stamp (idOf now k, .dir files) = true := isRunOf_idOf hnow h.le_max
  rw [named, Directory.put_of_new h.new, List.filter_append, named]
  simp [hname]

theorem InUse.put (hnow : now.IsShown) (h : Allots now runs k) (huse : InUse now.date.stamp runs) :
    InUse now.date.stamp (runs.put (idOf now k) (.dir files)) := by
  intro n hn hlt
  rw [nextNumber_put hnow h] at hlt
  rw [named_put hnow h]
  have old : ∀ {e : String × Node}, e ∈ named now.date.stamp runs → numberOf e.1 = n →
      ∃ e ∈ named now.date.stamp runs ++ [(idOf now k, .dir files)], numberOf e.1 = n := fun he hnumber =>
    ⟨_, List.mem_append_left _ he, hnumber⟩
  obtain rfl | hlt := (Nat.le_of_lt_succ hlt).eq_or_lt
  · exact ⟨_, List.mem_append_right _ (List.mem_singleton_self _), numberOf_idOf hnow h.le_max⟩
  have hmax := h.le_max
  by_cases hnext : n < nextNumber now.date.stamp runs
  · obtain ⟨e, he, hnumber⟩ := huse n hn hnext
    exact old he hnumber
  · -- The number was passed over because its name was taken.
    have htaken := h.taken n (by omega) hlt
    obtain ⟨e, he, hnumber⟩ := mem_named_of_isSome hnow (by omega) htaken
    exact old he hnumber

/-- A day is full only if all of its numbers are in use. -/
theorem maxNumber_le_of_full (hnow : now.IsShown) (huse : InUse now.date.stamp runs) (h : freeId now runs = none) :
    maxNumber ≤ (named now.date.stamp runs).length := by
  have hall : ∀ n ∈ List.range' 1 maxNumber, n ∈ (named now.date.stamp runs).map fun e => numberOf e.1 := by
    intro n hn
    obtain ⟨hpos, hlt⟩ := List.mem_range'_1.1 hn
    obtain ⟨e, he, rfl⟩ : ∃ e ∈ named now.date.stamp runs, numberOf e.1 = n := by
      by_cases hnext : n < nextNumber now.date.stamp runs
      · exact huse n hpos hnext
      · exact mem_named_of_isSome hnow (by omega) (taken_of_freeId_eq_none h (by omega) (by omega))
    exact List.mem_map_of_mem he
  have hlen := (List.subperm_of_subset List.nodup_range' hall).length_le
  rwa [List.length_range', List.length_map] at hlen

/-! ## Calls of one day -/

/-- A call for a report that can be written stores it, unless the day is full. -/
theorem Turn.stored_or_full (hnow : now.IsShown) (hr : s.Storable r) (h : Turn s.runs now r runs o runs') :
    (∃ k files, Allots now runs k ∧ o = .ok (idOf now k) ∧ runs' = runs.put (idOf now k) (.dir files)) ∨
      freeId now runs = none ∧ o = .error (.storeFull now.date.stamp s.runs.toText) ∧ runs' = runs := by
  cases h with
  | @stored k a b hk => exact .inl ⟨k, filesOf a b, hk, rfl, rfl⟩
  | torn hk hplan _ | refused hk hplan =>
    rw [hr _ (digits_idOf hnow hk.le_max)] at hplan
    cases hplan
  | full hfree => exact .inr ⟨hfree, rfl, rfl⟩

/-- The calls of a day, for reports that can be written. -/
structure OfDay (s : RunStore) (day : Date) (c : Moment × Report) : Prop where
  shown : c.1.IsShown
  date : c.1.date = day
  storable : s.Storable c.2

/-- What calls of a day come to. -/
theorem Turns.stored_or_full (hcalls : ∀ c ∈ calls, s.OfDay day c) (h : Turns s.runs runs calls os runs') :
    ∀ o ∈ os, (∃ id, o = .ok id) ∨ o = .error (.storeFull day.stamp s.runs.toText) := by
  induction h with
  | nil => nofun
  | cons hturn _ ih =>
    obtain ⟨hfirst, hrest⟩ := List.forall_mem_cons.1 hcalls
    refine List.forall_mem_cons.2 ⟨?_, ih hrest⟩
    rcases hturn.stored_or_full hfirst.shown hfirst.storable with ⟨k, files, -, rfl, -⟩ | ⟨-, rfl, -⟩
    · exact .inl ⟨_, rfl⟩
    · exact .inr (by rw [hfirst.date])

/-- While not all numbers of the day are in use, its calls are successful. -/
theorem Turns.stored (hcalls : ∀ c ∈ calls, s.OfDay day c) (huse : InUse day.stamp runs)
    (hm : (named day.stamp runs).length + m ≤ maxNumber) (h : Turns s.runs runs calls os runs') :
    ∀ o ∈ os.take m, ∃ id, o = .ok id := by
  induction h generalizing m with
  | nil => simp
  | @cons runs runs' runs'' now r o calls os hturn _ ih =>
    obtain ⟨hfirst, hrest⟩ := List.forall_mem_cons.1 hcalls
    have hnow : now.IsShown := hfirst.shown
    obtain rfl : now.date = day := hfirst.date
    cases m with
    | zero => simp
    | succ m =>
      rw [List.take_succ_cons]
      rcases hturn.stored_or_full hnow hfirst.storable with ⟨k, files, hk, rfl, rfl⟩ | ⟨hfull, -, -⟩
      · refine List.forall_mem_cons.2 ⟨⟨_, rfl⟩, ih hrest (huse.put hnow hk) ?_⟩
        rw [named_put hnow hk, List.length_append, List.length_singleton]
        omega
      · have hlen := maxNumber_le_of_full hnow huse hfull
        omega

/-- A day has no more runs than numbers. -/
theorem Turns.length_idsOf (hcalls : ∀ c ∈ calls, s.OfDay day c) (hnext : nextNumber day.stamp runs ≤ maxNumber + 1)
    (h : Turns s.runs runs calls os runs') : (idsOf os).length + nextNumber day.stamp runs ≤ maxNumber + 1 := by
  induction h with
  | nil => simpa [idsOf] using hnext
  | @cons runs runs' runs'' now r o calls os hturn _ ih =>
    obtain ⟨hfirst, hrest⟩ := List.forall_mem_cons.1 hcalls
    have hnow : now.IsShown := hfirst.shown
    obtain rfl : now.date = day := hfirst.date
    rcases hturn.stored_or_full hnow hfirst.storable with ⟨k, files, hk, rfl, rfl⟩ | ⟨-, rfl, rfl⟩
    · have hle := hk.next_le
      have hmax := hk.le_max
      have hrec := ih hrest (by rw [nextNumber_put hnow hk]; omega)
      rw [nextNumber_put hnow hk] at hrec
      have hcons : (idsOf (.ok (idOf now k) :: os)).length = (idsOf os).length + 1 := rfl
      omega
    · exact ih hrest hnext

theorem Turns.length_eq (h : Turns place runs calls os runs') : os.length = calls.length := by
  induction h with
  | nil => rfl
  | cons _ _ ih => exact congrArg (· + 1) ih

theorem length_idsOf_of_ok (h : ∀ o ∈ os, ∃ id, o = .ok id) : (idsOf os).length = os.length := by
  induction os with
  | nil => rfl
  | cons o os ih =>
    obtain ⟨⟨id, rfl⟩, hrest⟩ := List.forall_mem_cons.1 h
    exact congrArg (· + 1) (ih hrest)

/-- Once as many calls of a day as it has numbers were successful, all others are refused. -/
theorem Turns.refused (hcalls : ∀ c ∈ calls, s.OfDay day c) (hnext : nextNumber day.stamp runs = 1)
    (hstored : ∀ o ∈ os.take maxNumber, ∃ id, o = .ok id) (h : Turns s.runs runs calls os runs') :
    ∀ o ∈ os.drop maxNumber, o = .error (.storeFull day.stamp s.runs.toText) := by
  intro o ho
  refine (h.stored_or_full hcalls o (List.mem_of_mem_drop ho)).resolve_left ?_
  rintro ⟨id, rfl⟩
  have hmany : maxNumber ≤ os.length := by
    have hpos := List.length_pos_of_mem ho
    rw [List.length_drop] at hpos
    omega
  have htaken : (idsOf (os.take maxNumber)).length = maxNumber := by
    rw [length_idsOf_of_ok hstored, List.length_take_of_le hmany]
  have hmore : 0 < (idsOf (os.drop maxNumber)).length :=
    List.length_pos_of_mem (List.mem_filterMap.2 ⟨_, ho, rfl⟩)
  have hsplit : idsOf os = idsOf (os.take maxNumber) ++ idsOf (os.drop maxNumber) := by
    rw [idsOf, idsOf, idsOf, ← List.filterMap_append, List.take_append_drop]
  have hlen := h.length_idsOf hcalls (by rw [hnext]; decide)
  rw [hsplit, List.length_append] at hlen
  omega

/-- Calls of one day give different ids. -/
theorem Turns.nodup_idsOf (hcalls : ∀ c ∈ calls, s.OfDay day c) (h : Turns s.runs runs calls os runs') :
    (idsOf os).Nodup := by
  have hdays : calls.Pairwise fun b c => b.1.date.rank ≤ c.1.date.rank :=
    List.pairwise_of_forall_mem_list fun b hb c hc => by rw [(hcalls b hb).date, (hcalls c hc).date]
  refine (h.pairwise_before (fun c hc => (hcalls c hc).shown) hdays).imp fun hbefore => ?_
  rintro rfl
  exact lt_irrefl _ (Text.before_iff.1 hbefore)

/-- A call of a day that is refused does no more than make the directory of all runs. -/
theorem OfDay.full_of_error {d d' : Disk} {e : Fault} (hcall : s.OfDay day (now, r)) (hholds : s.Holds d runs)
    (h : (s.store now r).run d = (.error e, d')) :
    e = .storeFull day.stamp s.runs.toText ∧ d.mkdirs s.runs = (.ok (), d') ∧ d'.find s.runs = .ok (.dir runs) := by
  obtain ⟨made, place, runs', -, -, hturn, -⟩ := turn_of_store hholds h
  obtain ⟨k, files, -, hout, -⟩ | ⟨-, hout, -⟩ := hturn.stored_or_full hcall.shown hcall.storable
  · cases hout
  · cases hout
    have hdate : now.date = day := hcall.date
    exact ⟨by rw [hdate], mkdirs_of_full hholds h⟩

/-- **Capacity.** Calls of `store` are made one after the other on one day, of which no run is there yet, for reports
that can be written. They give different ids, and no more of them than a day has numbers. The first calls are
successful, one for each number less one for each entry that is in the way. If nothing is in the way, all other
calls are refused. A call that is refused finds the day full and leaves all runs as they are. -/
theorem day_capacity (hholds : s.Holds start runs) (hnone : ∀ e ∈ runs, isRunOf day.stamp e = false)
    (hcalls : ∀ c ∈ calls, s.OfDay day c) :
    (idsOf (s.outcomes start calls)).Nodup ∧ (idsOf (s.outcomes start calls)).length ≤ maxNumber ∧
    (∀ o ∈ (s.outcomes start calls).take (maxNumber - (named day.stamp runs).length), ∃ id, o = .ok id) ∧
    (named day.stamp runs = [] →
      ∀ o ∈ (s.outcomes start calls).drop maxNumber, o = .error (.storeFull day.stamp s.runs.toText)) ∧
    ∀ earlier now r later, calls = earlier ++ (now, r) :: later → ∃ present, s.Holds (s.after start earlier) present ∧
      ∀ e d, (s.store now r).run (s.after start earlier) = (.error e, d) →
        e = .storeFull day.stamp s.runs.toText ∧ (s.after start earlier).mkdirs s.runs = (.ok (), d) ∧
          d.find s.runs = .ok (.dir present) := by
  obtain ⟨runs', hturns, -⟩ := turns_of_holds hholds calls
  have hnext : nextNumber day.stamp runs = 1 := nextNumber_of_none hnone
  have hlen := hturns.length_idsOf hcalls (by rw [hnext]; decide)
  rw [hnext] at hlen
  have huse : InUse day.stamp runs := fun n hn hlt => by omega
  refine ⟨hturns.nodup_idsOf hcalls, Nat.le_of_succ_le_succ hlen, ?_, fun hempty => ?_, ?_⟩
  · by_cases hroom : (named day.stamp runs).length ≤ maxNumber
    · exact hturns.stored hcalls huse (by omega)
    · rw [Nat.sub_eq_zero_of_le (by omega)]
      simp
  · exact hturns.refused hcalls hnext (hturns.stored hcalls huse (by rw [hempty]; simp))
  · rintro earlier now r later rfl
    obtain ⟨present, -, hpresent⟩ := turns_of_holds hholds earlier
    have hcall := hcalls (now, r) (List.mem_append_right _ List.mem_cons_self)
    exact ⟨present, hpresent, fun e d hrun => hcall.full_of_error hpresent hrun⟩

end

end RunStore

namespace Corpus.Nested

open RunStore

theorem ofDay_now : store.OfDay now.date (now, report) := ⟨isShown_now, rfl, storable_report⟩

/-- Ninety-nine of a hundred and twenty calls at one time are successful, and the others are refused; a file that is
in the way of the first run costs one of them. -/
theorem day_capacity_one_time :
    (∀ o ∈ (store.outcomes (diskWith []) (List.replicate 120 (now, report))).take 99, ∃ id, o = .ok id) ∧
    (∀ o ∈ (store.outcomes (diskWith []) (List.replicate 120 (now, report))).drop 99,
      o = .error (.storeFull "20240101" "/store/runs")) ∧
    ∀ o ∈ (store.outcomes (diskWith [("2024010101123015", .file [])]) (List.replicate 120 (now, report))).take 98,
      ∃ id, o = .ok id := by
  have hcalls : ∀ c ∈ List.replicate 120 (now, report), store.OfDay now.date c := fun c hc => by
    rw [List.eq_of_mem_replicate hc]
    exact ofDay_now
  obtain ⟨-, -, hfirst, hrest, -⟩ := day_capacity (holds_of_find (isAt_diskWith []).find) nofun hcalls
  obtain ⟨-, -, hbeside, -, -⟩ := day_capacity (holds_of_find (isAt_diskWith [("2024010101123015", .file [])]).find)
    (by decide) hcalls
  have hday : now.date.stamp = "20240101" := by decide +kernel
  have hplace : store.runs.toText = "/store/runs" := by decide +kernel
  have hrest := hrest rfl
  rw [hday, hplace] at hrest
  exact ⟨hfirst, hrest, hbeside⟩

/-- Not all of the first hundred calls of a day are successful. -/
theorem day_capacity_hundred : store.Holds (diskWith []) [] ∧ store.OfDay now.date (now, report) ∧
    ¬ ∀ o ∈ (store.outcomes (diskWith []) (List.replicate 100 (now, report))).take 100, ∃ id, o = .ok id := by
  have hholds := holds_of_find (isAt_diskWith []).find
  refine ⟨hholds, ofDay_now, fun hall => ?_⟩
  have hcalls : ∀ c ∈ List.replicate 100 (now, report), store.OfDay now.date c := fun c hc => by
    rw [List.eq_of_mem_replicate hc]
    exact ofDay_now
  obtain ⟨runs', hturns, -⟩ := turns_of_holds hholds (List.replicate 100 (now, report))
  have hlen := hturns.length_idsOf hcalls (by decide)
  have hmany : (store.outcomes (diskWith []) (List.replicate 100 (now, report))).length = 100 := by
    rw [hturns.length_eq, List.length_replicate]
  rw [List.take_of_length_le hmany.le] at hall
  rw [length_idsOf_of_ok hall, hmany] at hlen
  exact absurd hlen (by decide)

end Corpus.Nested

end Assay
