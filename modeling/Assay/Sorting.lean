/-!
# Sorting by insertion

A list whose order need not be total is sorted in a fixed way: the run that it starts with is taken
as it is, or turned around if it descends, and every further item is put into the part that is
sorted, by halving. An item goes behind those that it ties with. `sort_perm` says that nothing is
lost, `sort_eq_self` that a list in order is left alone.
-/

namespace Assay.Sorting

/-- The items after `last` as long as each relates to the one before it, and those that are left. -/
def run (related : α → α → Bool) (last : α) : List α → List α × List α
  | [] => ([], [])
  | x :: rest =>
    if related last x then ((run related x rest).map (x :: ·) id) else ([], x :: rest)

/-- The run that a list starts with, in ascending order, and the items behind it. -/
def firstRun (lt : α → α → Bool) : List α → List α × List α
  | x :: y :: rest =>
    if lt y x then
      let (more, rest) := run (fun a b => lt b a) y rest
      ((x :: y :: more).reverse, rest)
    else
      let (more, rest) := run (fun a b => !lt b a) y rest
      (x :: y :: more, rest)
  | xs => (xs, [])

/-- A list with one more item, put by halving behind those that it is not less than. -/
def insert (lt : α → α → Bool) (x : α) (xs : List α) : List α :=
  let half := xs.length / 2
  match h : xs.drop half with
  | [] => xs ++ [x]
  | y :: rest =>
    have hl := congrArg List.length h
    have : (xs.take half).length < xs.length := by
      simp only [List.length_drop, List.length_cons] at hl
      simp only [List.length_take]
      omega
    have : rest.length < xs.length := by
      simp only [List.length_drop, List.length_cons] at hl
      omega
    if lt x y then insert lt x (xs.take half) ++ y :: rest
    else xs.take half ++ y :: insert lt x rest
termination_by xs.length

/-- The items of a list in order. -/
def sort (lt : α → α → Bool) (xs : List α) : List α :=
  let (front, rest) := firstRun lt xs
  rest.foldl (fun sorted x => insert lt x sorted) front

/-! ## Nothing is lost -/

theorem run_append (related : α → α → Bool) (last : α) (xs : List α) :
    (run related last xs).1 ++ (run related last xs).2 = xs := by
  induction xs generalizing last with
  | nil => rfl
  | cons x rest ih =>
    unfold run
    split
    · simp [ih x]
    · rfl

theorem insert_perm (lt : α → α → Bool) (x : α) (xs : List α) :
    (insert lt x xs).Perm (x :: xs) := by
  fun_induction insert lt x xs with
  | case1 xs => exact List.perm_append_singleton x xs
  | case2 xs half y rest h _ _ _ _ ih =>
    have hxs : xs.take half ++ y :: rest = xs := by rw [← h]; exact List.take_append_drop ..
    have := ih.append_right (y :: rest)
    simpa [hxs] using this
  | case3 xs half y rest h _ _ _ _ ih =>
    have hxs : xs.take half ++ y :: rest = xs := by rw [← h]; exact List.take_append_drop ..
    have step : (xs.take half ++ y :: insert lt x rest).Perm (xs.take half ++ y :: x :: rest) :=
      (ih.cons y).append_left _
    have swap : (xs.take half ++ y :: x :: rest).Perm (x :: (xs.take half ++ y :: rest)) :=
      ((List.Perm.swap x y rest).append_left _).trans List.perm_middle
    rw [hxs] at swap
    exact step.trans swap

theorem firstRun_perm (lt : α → α → Bool) (xs : List α) :
    ((firstRun lt xs).1 ++ (firstRun lt xs).2).Perm xs := by
  match xs with
  | [] => exact .refl _
  | [x] => exact .refl _
  | x :: y :: rest =>
    by_cases hd : lt y x = true
    · have h := run_append (fun a b => lt b a) y rest
      have p := (List.reverse_perm (x :: y :: (run (fun a b => lt b a) y rest).1)).append_right
        (run (fun a b => lt b a) y rest).2
      simpa [firstRun, hd, h] using p
    · simp [firstRun, hd, run_append]

/-- Sorting keeps every item. -/
theorem sort_perm (lt : α → α → Bool) (xs : List α) : (sort lt xs).Perm xs := by
  have fold : ∀ (rest front : List α),
      (rest.foldl (fun sorted x => insert lt x sorted) front).Perm (front ++ rest) := by
    intro rest
    induction rest with
    | nil => intro front; simp
    | cons x rest ih =>
      intro front
      refine (ih _).trans ?_
      exact ((insert_perm lt x front).append_right rest).trans List.perm_middle.symm
  exact (fold _ _).trans (firstRun_perm lt xs)

/-! ## A list in order -/

/-- No item is less than the one before it. -/
def InOrder (lt : α → α → Bool) : List α → Prop
  | x :: y :: rest => lt y x = false ∧ InOrder lt (y :: rest)
  | _ => True

theorem run_eq_self {lt : α → α → Bool} {last : α} {xs : List α} (h : InOrder lt (last :: xs)) :
    run (fun a b => !lt b a) last xs = (xs, []) := by
  induction xs generalizing last with
  | nil => rfl
  | cons x rest ih => simp [run, h.1, ih h.2]

/-- A list in order is left alone. -/
theorem sort_eq_self {lt : α → α → Bool} {xs : List α} (h : InOrder lt xs) : sort lt xs = xs := by
  match xs with
  | [] => rfl
  | [x] => rfl
  | x :: y :: rest => simp [sort, firstRun, h.1, run_eq_self h.2]

end Assay.Sorting
