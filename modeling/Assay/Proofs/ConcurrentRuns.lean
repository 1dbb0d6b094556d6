import Assay.Proofs.SuccessiveRuns
import Mathlib.Logic.Function.Basic

/-!
# Runs stored at the same time

A call that takes an id reads the clock, then looks for the highest number of its day, and then tries one name after
the other; only making a directory is a step that no other call can interrupt. Whatever the order of the steps of
many calls, no two of them take one id (`RunStore.concurrent_ids`). Their numbers differ as well if one of them looks
for the highest number after the other one made its directory, but two calls that both looked before may take one
number at different times of day (`RunStore.concurrent_ids_one_number`).
-/

namespace Assay

namespace RunStore

/-- How far a call has come that takes an id. -/
inductive Phase where
  | begun
  /-- The clock was read. -/
  | timed
  /-- The name with this number is tried next. -/
  | trying (n : ℕ)
  /-- The directory with this number was made. -/
  | took (n : ℕ)
  /-- No number was left. -/
  | full
  deriving DecidableEq, Repr

/-- The next step of a call: the runs after it, and how far the call has come then. -/
def Phase.next (now : Moment) (runs : Directory) : Phase → Directory × Phase
  | .begun => (runs, .timed)
  | .timed => (runs, .trying (nextNumber now.date.stamp runs))
  | .trying n =>
    if maxNumber < n then (runs, .full)
    else if isFree runs (idOf now n) then (Step.apply runs (.create (idOf now n)), .took n)
    else (runs, .trying (n + 1))
  | .took n => (runs, .took n)
  | .full => (runs, .full)

/-- The runs, and how far each call has come. -/
structure World (ι : Type) where
  runs : Directory
  phase : ι → Phase

/-- No call has made a step. -/
def World.start (ι : Type) (runs : Directory) : World ι := ⟨runs, fun _ => .begun⟩

section
variable {ι : Type} [DecidableEq ι]

/-- One call makes its next step. Each call has a clock reading of its own. -/
def World.step (clock : ι → Moment) (w : World ι) (i : ι) : World ι :=
  let (runs, phase) := (w.phase i).next (clock i) w.runs
  ⟨runs, Function.update w.phase i phase⟩

/-- The calls make steps in some order. -/
def World.run (clock : ι → Moment) (w : World ι) (order : List ι) : World ι := order.foldl (World.step clock) w

variable {clock : ι → Moment} {w : World ι} {i j : ι} {order more : List ι} {k m n : ℕ} {now : Moment}
  {runs : Directory} {p : Phase} {name : String}

/-! ## One step -/

/-- What a step does to the runs: it makes a directory of a new name, or it does nothing. -/
theorem Phase.next_eq (now : Moment) (runs : Directory) (p : Phase) :
    (∃ n, p = .trying n ∧ n ≤ maxNumber ∧ runs.get? (idOf now n) = none ∧
      p.next now runs = (runs.put (idOf now n) (.dir []), .took n)) ∨
    (p.next now runs).1 = runs ∧ ∀ n, (p.next now runs).2 = .took n → p = .took n := by
  cases p with
  | trying n =>
    rw [next]
    split
    · exact .inr ⟨rfl, nofun⟩
    next hle =>
    split
    next hfree => exact .inl ⟨n, rfl, by omega, Option.isNone_iff_eq_none.1 hfree, rfl⟩
    · exact .inr ⟨rfl, nofun⟩
  | begun | timed | full => exact .inr ⟨rfl, nofun⟩
  | took n => exact .inr ⟨rfl, fun _ => id⟩

theorem World.phase_step_self (w : World ι) (i : ι) :
    (w.step clock i).phase i = ((w.phase i).next (clock i) w.runs).2 := Function.update_self ..

theorem World.phase_step_of_ne (w : World ι) (h : j ≠ i) : (w.step clock i).phase j = w.phase j :=
  Function.update_of_ne h ..

theorem World.runs_step (w : World ι) (i : ι) :
    (w.step clock i).runs = ((w.phase i).next (clock i) w.runs).1 := rfl

/-- What stands for something in the directory of all runs keeps standing for it. -/
theorem World.get?_step {node : Node} (i : ι) (h : w.runs.get? name = some node) :
    (w.step clock i).runs.get? name = some node := by
  rw [runs_step]
  obtain ⟨n, -, -, hnew, heq⟩ | ⟨hsame, -⟩ := (w.phase i).next_eq (clock i) w.runs
  · rw [heq, Directory.get?_put_of_ne, h]
    rintro rfl
    rw [hnew] at h
    cases h
  · rw [hsame, h]

/-! ## Different ids -/

/-- The ids that were taken are directories, and no two calls have one of them. -/
structure World.Separate (clock : ι → Moment) (w : World ι) : Prop where
  made : ∀ i n, w.phase i = .took n → n ≤ maxNumber ∧ w.runs.get? (idOf (clock i) n) = some (.dir [])
  distinct : ∀ i j m n, i ≠ j → w.phase i = .took m → w.phase j = .took n → idOf (clock i) m ≠ idOf (clock j) n

/-- A step that makes a directory keeps the ids apart: what the other calls took has a name already, so it is not the
new one. -/
theorem World.Separate.step_took (h : w.Separate clock) (hk : k ≤ maxNumber)
    (hnew : w.runs.get? (idOf (clock i) k) = none)
    (hnext : (w.phase i).next (clock i) w.runs = (w.runs.put (idOf (clock i) k) (.dir []), .took k)) :
    (w.step clock i).Separate clock := by
  have htook : (w.step clock i).phase i = .took k := by rw [phase_step_self, hnext]
  have other : ∀ j n, j ≠ i → (w.step clock i).phase j = .took n →
      n ≤ maxNumber ∧ w.runs.get? (idOf (clock j) n) = some (.dir []) ∧ idOf (clock j) n ≠ idOf (clock i) k := by
    intro j n hj hn
    rw [phase_step_of_ne w hj] at hn
    obtain ⟨hle, hmade⟩ := h.made j n hn
    refine ⟨hle, hmade, fun hsame => ?_⟩
    rw [hsame, hnew] at hmade
    cases hmade
  refine ⟨fun j n hn => ?_, fun j j' m n hne hm hn => ?_⟩
  · by_cases hj : j = i
    · subst hj
      cases htook.symm.trans hn
      refine ⟨hk, ?_⟩
      rw [runs_step, hnext]
      exact Directory.get?_put_self
    · obtain ⟨hle, hmade, -⟩ := other j n hj hn
      exact ⟨hle, get?_step i hmade⟩
  by_cases hj : j = i
  · subst hj
    cases htook.symm.trans hm
    exact (other j' n hne.symm hn).2.2.symm
  by_cases hj' : j' = i
  · subst hj'
    cases htook.symm.trans hn
    exact (other j m hj hm).2.2
  rw [phase_step_of_ne w hj] at hm
  rw [phase_step_of_ne w hj'] at hn
  exact h.distinct j j' m n hne hm hn

/-- A step that makes no directory gives no id to a call. -/
theorem World.Separate.step_kept (h : w.Separate clock) (hruns : ((w.phase i).next (clock i) w.runs).1 = w.runs)
    (hphase : ∀ n, ((w.phase i).next (clock i) w.runs).2 = .took n → w.phase i = .took n) :
    (w.step clock i).Separate clock := by
  have hkept : ∀ j n, (w.step clock i).phase j = .took n → w.phase j = .took n := by
    intro j n hn
    by_cases hj : j = i
    · subst hj
      rw [phase_step_self] at hn
      exact hphase n hn
    · rwa [phase_step_of_ne w hj] at hn
  refine ⟨fun j n hn => ?_, fun j j' m n hne hm hn => h.distinct j j' m n hne (hkept j m hm) (hkept j' n hn)⟩
  rw [runs_step, hruns]
  exact h.made j n (hkept j n hn)

theorem World.Separate.step (h : w.Separate clock) (i : ι) : (w.step clock i).Separate clock := by
  obtain ⟨k, -, hk, hnew, hnext⟩ | ⟨hruns, hphase⟩ := (w.phase i).next_eq (clock i) w.runs
  · exact h.step_took hk hnew hnext
  · exact h.step_kept hruns hphase

omit [DecidableEq ι] in
theorem World.separate_start (runs : Directory) : (World.start ι runs).Separate clock := ⟨nofun, nofun⟩

theorem World.Separate.run (h : w.Separate clock) (order : List ι) : (w.run clock order).Separate clock := by
  induction order generalizing w with
  | nil => exact h
  | cons i order ih => exact ih (h.step i)

/-! ## Calls that look later -/

/-- A call that gets no number up to a bound: it has not looked for the highest number yet, or it has a higher one. -/
def Phase.IsAbove (m : ℕ) : Phase → Prop
  | .begun | .timed | .full => True
  | .trying n | .took n => m < n

theorem Phase.IsAbove.next (h : p.IsAbove m) (hnext : m < nextNumber now.date.stamp runs) :
    (p.next now runs).2.IsAbove m := by
  cases p with
  | begun | full => trivial
  | timed => exact hnext
  | took n => exact h
  | trying n =>
    have hn : m < n := h
    rw [Phase.next]
    split
    · trivial
    split
    · exact hn
    · exact hn.trans n.lt_succ_self

theorem World.took_step (j : ι) (h : w.phase i = .took m) : (w.step clock j).phase i = .took m := by
  by_cases hi : i = j
  · subst hi
    rw [phase_step_self, h]
    rfl
  · rw [phase_step_of_ne w hi, h]

/-- A call that looks for the highest number after another one made its directory gets a higher number. -/
theorem World.Separate.isAbove_run (h : w.Separate clock) (hi : (clock i).IsShown) (hday : (clock i).date = (clock j).date)
    (htook : w.phase i = .took m) (habove : (w.phase j).IsAbove m) (more : List ι) :
    ((w.run clock more).phase j).IsAbove m := by
  induction more generalizing w with
  | nil => exact habove
  | cons k more ih =>
    refine ih (h.step k) (took_step k htook) ?_
    by_cases hk : j = k
    · subst hk
      obtain ⟨hle, hmade⟩ := h.made i m htook
      have hnext := numberOf_lt_next (Directory.mem_of_get? hmade) (isRunOf_idOf hi hle)
      rw [numberOf_idOf hi hle, hday] at hnext
      rw [phase_step_self]
      exact habove.next hnext
    · rwa [phase_step_of_ne w hk]

/-! ## A call alone -/

theorem World.step_eq {runs' : Directory} (h : (w.phase i).next (clock i) w.runs = (runs', p)) :
    w.step clock i = ⟨runs', Function.update w.phase i p⟩ := by
  rw [step, h]

/-- How a call ends that nobody interrupts. -/
def World.ended (clock : ι → Moment) (w : World ι) (i : ι) : Option String → World ι → Prop
  | some id, w' => ∃ n, id = idOf (clock i) n ∧
      w' = ⟨Step.apply w.runs (.create id), Function.update w.phase i (.took n)⟩
  | none, w' => w' = ⟨w.runs, Function.update w.phase i .full⟩

/-- Steps that changed nothing but how far a call has come do not show at its end. -/
theorem World.ended_of_update {o : Option String} {w' : World ι}
    (h : World.ended clock ⟨w.runs, Function.update w.phase i p⟩ i o w') : w.ended clock i o w' := by
  cases o with
  | none => simpa [ended] using h
  | some id => simpa [ended] using h

theorem World.exists_ended_of_trying (hphase : w.phase i = .trying n) :
    ∃ k, w.ended clock i (freeFrom (clock i) w.runs (maxNumber + 1 - n) n) (w.run clock (List.replicate k i)) := by
  obtain ⟨fuel, hfuel⟩ : ∃ fuel, fuel = maxNumber + 1 - n := ⟨_, rfl⟩
  induction fuel generalizing w n with
  | zero =>
    refine ⟨1, ?_⟩
    have hstep : w.step clock i = ⟨w.runs, Function.update w.phase i .full⟩ :=
      step_eq (by rw [hphase, Phase.next, if_pos (by omega)])
    rw [← hfuel, freeFrom]
    exact hstep
  | succ fuel ih =>
    have hle : ¬ maxNumber < n := by omega
    rw [← hfuel, freeFrom]
    by_cases hfree : isFree w.runs (idOf (clock i) n) = true
    · refine ⟨1, ?_⟩
      have hstep : w.step clock i =
          ⟨Step.apply w.runs (.create (idOf (clock i) n)), Function.update w.phase i (.took n)⟩ :=
        step_eq (by rw [hphase, Phase.next, if_neg hle, if_pos hfree])
      rw [if_pos hfree]
      exact ⟨n, rfl, hstep⟩
    · have hstep : w.step clock i = ⟨w.runs, Function.update w.phase i (.trying (n + 1))⟩ :=
        step_eq (by rw [hphase, Phase.next, if_neg hle, if_neg hfree])
      obtain ⟨k, hk⟩ := @ih ⟨w.runs, Function.update w.phase i (.trying (n + 1))⟩ (n + 1)
        (Function.update_self ..) (by omega)
      refine ⟨k + 1, ?_⟩
      rw [if_neg hfree, List.replicate_succ, run, List.foldl_cons, hstep, show fuel = maxNumber + 1 - (n + 1) by omega]
      exact ended_of_update hk

/-- A call that nobody interrupts takes the first free id. -/
theorem World.exists_ended (hphase : w.phase i = .begun) :
    ∃ k, w.ended clock i (freeId (clock i) w.runs) (w.run clock (List.replicate k i)) := by
  let first := nextNumber (clock i).date.stamp w.runs
  have htimed : w.step clock i = ⟨w.runs, Function.update w.phase i .timed⟩ := step_eq (by rw [hphase]; rfl)
  have hscan : (Function.update w.phase i .timed i).next (clock i) w.runs = (w.runs, .trying first) := by
    rw [Function.update_self]
    rfl
  have htrying : World.step clock ⟨w.runs, Function.update w.phase i .timed⟩ i =
      ⟨w.runs, Function.update w.phase i (.trying first)⟩ := by
    rw [@step_eq ι _ clock ⟨w.runs, Function.update w.phase i .timed⟩ i _ _ hscan, Function.update_idem]
  obtain ⟨k, hk⟩ := @exists_ended_of_trying ι _ clock ⟨w.runs, Function.update w.phase i (.trying first)⟩ i first
    (Function.update_self ..)
  refine ⟨k + 2, ?_⟩
  rw [List.replicate_succ, List.replicate_succ, run, List.foldl_cons, List.foldl_cons, htimed, htrying]
  exact ended_of_update hk

/-- **Calls at the same time.** Calls that take ids make their steps in any order. No two of them take one id, so on
one day they take one number only at different times of day. A call that looks for the highest number of the day
after another call made its directory takes a higher number. A call that nobody interrupts takes the first free id. -/
theorem concurrent_ids (clock : ι → Moment) (hshown : ∀ i, (clock i).IsShown) (runs : Directory) (order : List ι) :
    let w := (World.start ι runs).run clock order
    (∀ i j m n, i ≠ j → w.phase i = .took m → w.phase j = .took n → idOf (clock i) m ≠ idOf (clock j) n) ∧
    (∀ i j n, i ≠ j → w.phase i = .took n → w.phase j = .took n → (clock i).date = (clock j).date →
      (clock i).clockStamp ≠ (clock j).clockStamp) ∧
    (∀ i j m n more, w.phase i = .took m → (w.phase j = .begun ∨ w.phase j = .timed) →
      (clock i).date = (clock j).date → (w.run clock more).phase j = .took n → m < n) ∧
    ∀ i, w.phase i = .begun → ∃ k, w.ended clock i (freeId (clock i) w.runs) (w.run clock (List.replicate k i)) := by
  intro w
  have hseparate : w.Separate clock := (World.separate_start runs).run order
  refine ⟨hseparate.distinct, fun i j n hne hi hj hday hclock => ?_, fun i j m n more hi hj hday hn => ?_, ?_⟩
  · exact hseparate.distinct i j n n hne hi hj (by rw [idOf, idOf, hday, hclock])
  · have habove : (w.phase j).IsAbove m := by rcases hj with hj | hj <;> rw [hj] <;> trivial
    have hrun := hseparate.isAbove_run (hshown i) hday hi habove more
    rwa [hn] at hrun
  · exact fun i hi => World.exists_ended hi

end

/-- The readings of two clocks, one second apart. -/
def twoClocks (late : Bool) : Moment := ⟨⟨2026, 10, 18⟩, 9, 30, if late then 6 else 5, 0, some 0⟩

/-- Two calls that look for the highest number before either of them makes its directory take one number, with
different ids; one that looks later takes a higher number. -/
theorem concurrent_ids_two :
    (((World.start Bool []).run twoClocks [false, true, false, true, false, true]).phase false = .took 1 ∧
      ((World.start Bool []).run twoClocks [false, true, false, true, false, true]).phase true = .took 1 ∧
      idOf (twoClocks false) 1 ≠ idOf (twoClocks true) 1) ∧
    ((World.start Bool []).run twoClocks [false, true, false, false]).phase false = .took 1 ∧
      (((World.start Bool []).run twoClocks [false, true, false, false]).run twoClocks [true, true]).phase true = .took 2 ∧
        1 < 2 := by
  have hshown : ∀ late, (twoClocks late).IsShown := by
    intro late
    cases late <;> exact ⟨by decide, by decide, by decide, by decide, by decide, by decide⟩
  obtain ⟨hids, -, -, -⟩ := concurrent_ids twoClocks hshown [] [false, true, false, true, false, true]
  obtain ⟨-, -, hlater, -⟩ := concurrent_ids twoClocks hshown [] [false, true, false, false]
  have hfalse : ((World.start Bool []).run twoClocks [false, true, false, true, false, true]).phase false = .took 1 := by
    decide +kernel
  have htrue : ((World.start Bool []).run twoClocks [false, true, false, true, false, true]).phase true = .took 1 := by
    decide +kernel
  have hfirst : ((World.start Bool []).run twoClocks [false, true, false, false]).phase false = .took 1 := by
    decide +kernel
  have hsecond : (((World.start Bool []).run twoClocks [false, true, false, false]).run twoClocks
      [true, true]).phase true = .took 2 := by decide +kernel
  exact ⟨⟨hfalse, htrue, hids false true 1 1 (by decide) hfalse htrue⟩, hfirst, hsecond,
    hlater false true 1 2 [true, true] hfirst (.inr (by decide +kernel)) rfl hsecond⟩

/-- The calls of two clocks take the ids of one number. So does a call that meets a file of the name that another
call would have, as the file does not count as a run of the day. -/
theorem concurrent_ids_one_number :
    (((World.start Bool []).run twoClocks [false, true, false, true, false, true]).phase false = .took 1 ∧
      ((World.start Bool []).run twoClocks [false, true, false, true, false, true]).phase true = .took 1) ∧
    idOf (twoClocks false) 1 = "2026101801093005" ∧ idOf (twoClocks true) 1 = "2026101801093006" ∧
    (twoClocks false).date = (twoClocks true).date ∧
    freeId (twoClocks true) [("2026101801093005", .file [])] = some "2026101801093006" := by
  decide +kernel

end RunStore

end Assay
