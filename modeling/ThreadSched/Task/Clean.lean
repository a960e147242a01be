import ThreadSched.Task.Task

/-!
# Cleaning the pool

`clean_dead_task` runs its loop while the pool is empty or the quota is used up, where it should run
it while neither is so.

* `Cleaned` — the first `k` tasks of the pool are freed, and nothing else has changed.
* `cleanDeadTask_quota`, `cleanDeadTask_pair`, `cleanDeadTask_single` — what the loop does instead.
* `cleanDeadTask_ok_iff` — the cleaning frees what it should exactly when the pool is empty.
-/

set_option autoImplicit false

namespace ThreadSched

/-- The number of tasks a cleaning is to free. -/
def cleanQuota (s : Sched) : Nat := min s.taskPoolList.length (min 16 (s.taskAllNums.toNat / 8))

/-- The first `k` tasks of the pool are taken off it, their structs and stacks freed. -/
structure Cleaned (k : Nat) (s s' : Sched) : Prop where
  pool : s'.taskPoolList = s.taskPoolList.drop k
  allocated : ∀ t, s'.allocated t = true ↔ s.allocated t = true ∧ t ∉ s.taskPoolList.take k
  stackAllocated : ∀ stack, s'.stackAllocated stack = true ↔
    s.stackAllocated stack = true ∧
      ∀ t ∈ s.taskPoolList.take k, (s.tasks t).stackMinAddr ≠ stack
  rest : { s' with
    taskPoolList := s.taskPoolList
    allocated := s.allocated
    stackAllocated := s.stackAllocated } = s

/-- What `clean_dead_task` is to do. -/
def CleanOk (s : Sched) : Prop := ∃ s', cleanDeadTask s = .ok s' ∧ Cleaned (cleanQuota s) s s'

section

variable {s : Sched}

theorem Cleaned.none : Cleaned 0 s s := by
  refine ⟨rfl, ?_, ?_, rfl⟩
  · intro t
    simp
  · intro stack
    simp

/-- Freeing one task and its stack. -/
def Sched.freeTask (s : Sched) (task : TaskId) (pool : List TaskId) : Sched :=
  { s with
    taskPoolList := pool
    stackAllocated := Function.update s.stackAllocated (s.tasks task).stackMinAddr false
    allocated := Function.update s.allocated task false }

/-- With a task in the pool and a quota that is not used up the loop ends at once. -/
theorem cleanDeadTask_quota (hne : s.taskPoolList ≠ []) (hnums : 8 ≤ s.taskAllNums) :
    cleanDeadTask s = .ok s := by
  have hquot : 1 ≤ s.taskAllNums.tdiv 8 := by
    rw [Int.tdiv_eq_ediv_of_nonneg (by omega)]
    omega
  unfold cleanDeadTask
  rw [if_neg hne]
  simp only [cleanLoop]
  rw [if_neg]
  rintro (hnil | hzero)
  · exact hne hnil
  · split at hzero <;> omega

theorem tdiv_eight_eq_zero (hnonneg : 0 ≤ s.taskAllNums) (hnums : s.taskAllNums < 8) :
    s.taskAllNums.tdiv 8 = 0 := by
  rw [Int.tdiv_eq_ediv_of_nonneg hnonneg]
  omega

/-- With a quota of zero and two tasks or more in the pool it frees the first one. -/
theorem cleanDeadTask_pair {t u : TaskId} {rest : List TaskId}
    (hpool : s.taskPoolList = t :: u :: rest) (hnonneg : 0 ≤ s.taskAllNums)
    (hnums : s.taskAllNums < 8) : cleanDeadTask s = .ok (s.freeTask t (u :: rest)) := by
  unfold cleanDeadTask
  rw [if_neg (by rw [hpool]; exact List.cons_ne_nil _ _), hpool]
  simp [cleanLoop, hpool, listPop, tdiv_eight_eq_zero hnonneg hnums, Sched.freeTask]
  rfl

/-- With a quota of zero and one task in the pool it pops the empty list. -/
theorem cleanDeadTask_single {t : TaskId} (hpool : s.taskPoolList = [t])
    (hnonneg : 0 ≤ s.taskAllNums) (hnums : s.taskAllNums < 8) :
    cleanDeadTask s = .error .nullDeref := by
  unfold cleanDeadTask
  rw [if_neg (by rw [hpool]; exact List.cons_ne_nil _ _), hpool]
  simp [cleanLoop, hpool, listPop, tdiv_eight_eq_zero hnonneg hnums]
  rfl

/-- With a task in the pool the wrong number of tasks is freed. -/
theorem not_cleanOk_of_ne_nil (hnonneg : 0 ≤ s.taskAllNums) (hne : s.taskPoolList ≠ []) :
    ¬ CleanOk s := by
  rintro ⟨s', hrun, hclean⟩
  have hlen := congrArg List.length hclean.pool
  rw [List.length_drop] at hlen
  have hpos : 0 < s.taskPoolList.length := List.length_pos_of_ne_nil hne
  unfold cleanQuota at hlen
  by_cases hnums : 8 ≤ s.taskAllNums
  · rw [cleanDeadTask_quota hne hnums] at hrun
    cases hrun
    omega
  · match hpool : s.taskPoolList with
    | [] => exact hne hpool
    | [t] =>
        rw [cleanDeadTask_single hpool hnonneg (by omega)] at hrun
        cases hrun
    | t :: u :: rest =>
        rw [cleanDeadTask_pair hpool hnonneg (by omega)] at hrun
        cases hrun
        simp only [Sched.freeTask, hpool, List.length_cons] at hlen
        omega

theorem cleanOk_of_nil (hnil : s.taskPoolList = []) : CleanOk s := by
  refine ⟨s, ?_, ?_⟩
  · unfold cleanDeadTask
    rw [if_pos hnil]
  · have hquota : cleanQuota s = 0 := by
      unfold cleanQuota
      rw [hnil]
      exact Nat.zero_min _
    rw [hquota]
    exact Cleaned.none

end

/-- **`clean_dead_task`** frees the tasks it should exactly when the pool is empty. -/
theorem cleanDeadTask_ok_iff (s : Sched) (hnonneg : 0 ≤ s.taskAllNums) :
    CleanOk s ↔ s.taskPoolList = [] := by
  constructor
  · intro hok
    by_contra hne
    exact not_cleanOk_of_ne_nil hnonneg hne hok
  · exact cleanOk_of_nil

/-- With two dead tasks in the pool and seven live ones no task should be freed, and one is. -/
theorem cleanDeadTask_ok_iff_two :
    cleanQuota { boot with taskPoolList := [3, 5], taskAllNums := 7 } = 0 ∧
      ¬ CleanOk { boot with taskPoolList := [3, 5], taskAllNums := 7 } := by
  refine ⟨by decide, fun hok => ?_⟩
  have hnil := (cleanDeadTask_ok_iff { boot with taskPoolList := [3, 5], taskAllNums := 7 }
    (by decide)).1 hok
  exact List.cons_ne_nil 3 [5] hnil

/-- With `main` alive and one dead task in the pool the cleaning pops the empty list. -/
theorem clean_pops_empty_list : ¬ ∀ s : Sched, 0 ≤ s.taskAllNums → CleanOk s := by
  intro hall
  exact not_cleanOk_of_ne_nil (s := { boot with taskPoolList := [1], taskAllNums := 1 })
    Int.one_nonneg (List.cons_ne_nil 1 []) (hall _ Int.one_nonneg)

end ThreadSched
