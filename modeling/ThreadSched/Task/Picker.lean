import ThreadSched.Task.Partition

/-!
# The picker in the style of Linux 0.11 (`get_next_task_011`)

One pass over `task_all_list` recharges the tasks that wait and selects, among those that are ready, the
first with the most ticks; the winner is then unlinked from `task_ready_list`.

* `pickLoop`, `getNextTask011` — the function.
* `pickLoop_tasks`, `pickLoop_next` — what the pass does to the tasks, and which one it selects.
* `Picked` — what the function is to do.
* `getNextTask011_spec` — it does so in every partitioned state with a ready task and ticks of at most
  twice the priority, and keeps that bound over any number of calls.
-/

set_option autoImplicit false

namespace ThreadSched

/-! ## The function -/

/-- The tasks that get new ticks. -/
def Recharges (task : TaskStruct) : Prop :=
  task.status = .WAITING ∨ task.status = .BLOCKED ∨ task.status = .HANGING ∨
    task.isCollaborativeSchedule = true

instance (task : TaskStruct) : Decidable (Recharges task) := by unfold Recharges; infer_instance

/-- The first `if` of the loop. -/
def recharge (task : TaskStruct) : TaskStruct :=
  if Recharges task then
    { task with ticks := u8 ((task.ticks : Int) / 2 + task.priority) }
  else task

/-- The loop over `task_all_list`, with `c` and `next_task`. -/
def pickLoop : List TaskId → Int → Option TaskId → Sched → Option TaskId × Sched
  | [], _, nextTask, s => (nextTask, s)
  | task :: rest, c, nextTask, s =>
    let s := s.modTask task recharge
    if (s.tasks task).status = .READY ∧ ((s.tasks task).ticks : Int) > c then
      pickLoop rest (s.tasks task).ticks (some task) s
    else pickLoop rest c nextTask s

/-- `get_next_task_011`; `none` when it uses `next_task` uninitialised. -/
def getNextTask011 (s : Sched) : Option (TaskId × Sched) :=
  match pickLoop s.taskAllList (-1) none s with
  | (none, _) => none
  | (some nextTask, s) =>
    let s := { s with taskReadyList := listRemove s.taskReadyList nextTask }
    some (nextTask, s.modTask nextTask fun task => { task with status := .RUNNING })

/-! ## The pass -/

theorem recharge_status (task : TaskStruct) : (recharge task).status = task.status := by
  unfold recharge
  split <;> rfl

/-- Ticks of at most twice the priority do not wrap around. -/
theorem recharge_ticks {task : TaskStruct} (hprio : task.priority ≤ 127)
    (hticks : task.ticks ≤ 2 * task.priority) (h : Recharges task) :
    recharge task = { task with ticks := task.ticks / 2 + task.priority } := by
  have hu8 : u8 ((task.ticks : Int) / 2 + task.priority) = task.ticks / 2 + task.priority := by
    unfold u8
    omega
  rw [recharge, if_pos h, hu8]

/-- The bound the picker needs, and keeps. -/
def TicksBounded (task : TaskStruct) : Prop := task.priority ≤ 127 ∧ task.ticks ≤ 2 * task.priority

theorem TicksBounded.recharge {task : TaskStruct} (h : TicksBounded task) :
    TicksBounded (recharge task) := by
  obtain ⟨hprio, hticks⟩ := h
  by_cases hr : Recharges task
  · rw [recharge_ticks hprio hticks hr]
    exact ⟨hprio, by simp only; omega⟩
  · rw [ThreadSched.recharge, if_neg hr]
    exact ⟨hprio, hticks⟩

/-- Every task of the list is recharged once, and nothing else changes. -/
theorem pickLoop_tasks (l : List TaskId) (hl : l.Nodup) (c : Int) (nextTask : Option TaskId)
    (s : Sched) :
    (pickLoop l c nextTask s).2 =
      { s with tasks := fun t => if t ∈ l then recharge (s.tasks t) else s.tasks t } := by
  induction l generalizing c nextTask s with
  | nil => simp [pickLoop]
  | cons task rest ih =>
      obtain ⟨hnot, hrest⟩ := List.nodup_cons.1 hl
      have htasks : ∀ c nextTask, (pickLoop rest c nextTask (s.modTask task recharge)).2 =
          { s with tasks := fun t =>
              if t ∈ task :: rest then recharge (s.tasks t) else s.tasks t } := by
        intro c nextTask
        rw [ih hrest]
        have heq : (fun t => if t ∈ rest then recharge ((s.modTask task recharge).tasks t)
            else (s.modTask task recharge).tasks t) =
            fun t => if t ∈ task :: rest then recharge (s.tasks t) else s.tasks t := by
          funext t
          by_cases ht : t = task
          · subst ht
            simp [Sched.modTask, hnot]
          · simp [Sched.modTask, ht]
        rw [heq]
        rfl
      rw [pickLoop]
      split <;> exact htasks _ _

/-- The task selected: nothing better than what was there, or the first task of the list with the most
ticks among those that are ready. -/
theorem pickLoop_next (l : List TaskId) (hl : l.Nodup) (c : Int) (nextTask : Option TaskId)
    (s : Sched) :
    ((pickLoop l c nextTask s).1 = nextTask ∧
      ∀ t ∈ l, (s.tasks t).status = .READY → ((recharge (s.tasks t)).ticks : Int) ≤ c) ∨
    ∃ before task after, l = before ++ task :: after ∧ (pickLoop l c nextTask s).1 = some task ∧
      (s.tasks task).status = .READY ∧ c < (recharge (s.tasks task)).ticks ∧
      (∀ t ∈ before, (s.tasks t).status = .READY →
        (recharge (s.tasks t)).ticks < (recharge (s.tasks task)).ticks) ∧
      ∀ t ∈ after, (s.tasks t).status = .READY →
        (recharge (s.tasks t)).ticks ≤ (recharge (s.tasks task)).ticks := by
  induction l generalizing c nextTask s with
  | nil =>
      left
      exact ⟨rfl, fun t ht => absurd ht List.not_mem_nil⟩
  | cons task rest ih =>
      obtain ⟨hnot, hrest⟩ := List.nodup_cons.1 hl
      have hself : (s.modTask task recharge).tasks task = recharge (s.tasks task) := by
        simp [Sched.modTask]
      have hother : ∀ t ∈ rest, (s.modTask task recharge).tasks t = s.tasks t := by
        intro t ht
        have hne : t ≠ task := by
          rintro rfl
          exact hnot ht
        simp [Sched.modTask, hne]
      have hin : ∀ {before : List TaskId} {best : TaskId} {after : List TaskId},
          rest = before ++ best :: after →
          (∀ t ∈ before, t ∈ rest) ∧ best ∈ rest ∧ ∀ t ∈ after, t ∈ rest := by
        rintro before best after rfl
        simp +contextual
      rw [pickLoop]
      simp only [hself, recharge_status]
      by_cases hwins : (s.tasks task).status = .READY ∧ ((recharge (s.tasks task)).ticks : Int) > c
      · simp only [if_pos hwins]
        obtain ⟨hready, hgt⟩ := hwins
        rcases ih hrest (recharge (s.tasks task)).ticks (some task) (s.modTask task recharge) with
          ⟨heq, hle⟩ | ⟨before, best, after, hsplit, heq, hbest, hlt, hbefore, hafter⟩
        · refine Or.inr ⟨[], task, rest, rfl, heq, hready, hgt, ?_, ?_⟩
          · intro t ht
            cases ht
          · intro t ht hst
            have hkey := hle t ht
            rw [hother t ht] at hkey
            exact_mod_cast hkey hst
        · obtain ⟨hb, hm, ha⟩ := hin hsplit
          rw [hother best hm] at hbest hlt hbefore hafter
          refine Or.inr ⟨task :: before, best, after, by rw [hsplit]; rfl, heq, hbest, by omega, ?_, ?_⟩
          · intro t ht hst
            rcases List.mem_cons.1 ht with rfl | ht
            · exact_mod_cast hlt
            · have hkey := hbefore t ht
              rw [hother t (hb t ht)] at hkey
              exact hkey hst
          · intro t ht hst
            have hkey := hafter t ht
            rw [hother t (ha t ht)] at hkey
            exact hkey hst
      · simp only [if_neg hwins]
        rcases ih hrest c nextTask (s.modTask task recharge) with
          ⟨heq, hle⟩ | ⟨before, best, after, hsplit, heq, hbest, hlt, hbefore, hafter⟩
        · refine Or.inl ⟨heq, ?_⟩
          intro t ht hst
          rcases List.mem_cons.1 ht with rfl | ht
          · by_contra hgt
            exact hwins ⟨hst, by omega⟩
          · have hkey := hle t ht
            rw [hother t ht] at hkey
            exact hkey hst
        · obtain ⟨hb, hm, ha⟩ := hin hsplit
          rw [hother best hm] at hbest hlt hbefore hafter
          refine Or.inr ⟨task :: before, best, after, by rw [hsplit]; rfl, heq, hbest, hlt, ?_, ?_⟩
          · intro t ht hst
            rcases List.mem_cons.1 ht with rfl | ht
            · by_contra hge
              exact hwins ⟨hst, by omega⟩
            · have hkey := hbefore t ht
              rw [hother t (hb t ht)] at hkey
              exact hkey hst
          · intro t ht hst
            have hkey := hafter t ht
            rw [hother t (ha t ht)] at hkey
            exact hkey hst

/-! ## What the function does -/

/-- **What the picker is to do** in state `s`: it returns `nextTask` and leaves `s'`.  Ticks are compared
as they are after the recharge, which changes those of a ready task only when it is collaborative. -/
structure Picked (s : Sched) (nextTask : TaskId) (s' : Sched) : Prop where
  ready : (s.tasks nextTask).status = .READY
  first : ∃ before after, s.taskAllList = before ++ nextTask :: after ∧
    (∀ t ∈ before, (s.tasks t).status = .READY → (s'.tasks t).ticks < (s'.tasks nextTask).ticks) ∧
    ∀ t ∈ after, (s.tasks t).status = .READY → (s'.tasks t).ticks ≤ (s'.tasks nextTask).ticks
  unlinked : ∃ before after, s.taskReadyList = before ++ nextTask :: after ∧
    nextTask ∉ before ++ after ∧ s'.taskReadyList = before ++ after
  winner : s'.tasks nextTask =
    if Recharges (s.tasks nextTask) then
      { s.tasks nextTask with
        status := .RUNNING
        ticks := (s.tasks nextTask).ticks / 2 + (s.tasks nextTask).priority }
    else { s.tasks nextTask with status := .RUNNING }
  recharged : ∀ t ∈ s.taskAllList, t ≠ nextTask → Recharges (s.tasks t) →
    s'.tasks t = { s.tasks t with ticks := (s.tasks t).ticks / 2 + (s.tasks t).priority }
  others : ∀ t, t ≠ nextTask → ¬ (t ∈ s.taskAllList ∧ Recharges (s.tasks t)) →
    s'.tasks t = s.tasks t
  rest : { s' with tasks := s.tasks, taskReadyList := s.taskReadyList } = s
  bounded : ∀ t ∈ s'.taskAllList, TicksBounded (s'.tasks t)

/-- `n` calls, each with a ready task. -/
def pickTimes : Nat → Sched → Option Sched
  | 0, s => some s
  | n + 1, s => do
    let (_, s) ← getNextTask011 s
    pickTimes n s

section

variable {p : TaskId → Nat} {pl : TaskId → Option Place} {s : Sched}

theorem Filed.all_nodup (h : Filed p pl s) : s.taskAllList.Nodup := by
  rw [List.nodup_iff_count_le_one]
  intro t
  have hall : s.taskAllList.count t = _ := (h.fits t).all
  rw [hall]
  split <;> omega

/-- A ready task is linked in `task_ready_list`, once. -/
theorem Filed.ready_count (h : Filed p pl s) {t : TaskId} (ht : t ∈ s.taskAllList)
    (hst : (s.tasks t).status = .READY) : s.taskReadyList.count t = 1 := by
  have hf := h.fits t
  have hall : s.taskAllList.count t = _ := hf.all
  have hpos := List.count_pos_iff.2 ht
  cases hx : pl t with
  | none =>
      rw [hx] at hall
      simp at hall
      omega
  | some x =>
      rw [hx] at hf
      have hstatus : (s.tasks t).status = x.status := hf.status x rfl
      rw [hst] at hstatus
      have hready : s.taskReadyList.count t = _ := hf.ready
      cases x with
      | ready => exact hready.trans (if_pos rfl)
      | current => cases hstatus
      | waiting l => cases hstatus
      | ioWaiting q w => cases hstatus
      | asleep => cases hstatus
      | exited => cases hstatus

/-- The state the function leaves, when the pass has selected a task. -/
theorem getNextTask011_eq (hn : s.taskAllList.Nodup) {nextTask : TaskId}
    (h : (pickLoop s.taskAllList (-1) none s).1 = some nextTask) :
    getNextTask011 s = some (nextTask, { s with
      tasks := Function.update
        (fun t => if t ∈ s.taskAllList then recharge (s.tasks t) else s.tasks t) nextTask
        { (if nextTask ∈ s.taskAllList then recharge (s.tasks nextTask) else s.tasks nextTask) with
          status := .RUNNING }
      taskReadyList := s.taskReadyList.erase nextTask }) := by
  have htasks := pickLoop_tasks s.taskAllList hn (-1) none s
  unfold getNextTask011
  cases hloop : pickLoop s.taskAllList (-1) none s with
  | mk next s' =>
      rw [hloop] at h htasks
      simp only at h htasks
      subst h htasks
      rfl

/-- A partitioned state with a ready task and bounded ticks. -/
theorem Filed.getNextTask011_picked (h : Filed p pl s)
    (hready : ∃ t ∈ s.taskAllList, (s.tasks t).status = .READY)
    (hbound : ∀ t ∈ s.taskAllList, TicksBounded (s.tasks t)) :
    ∃ nextTask s', getNextTask011 s = some (nextTask, s') ∧ Picked s nextTask s' := by
  have hn := h.all_nodup
  rcases pickLoop_next s.taskAllList hn (-1) none s with
    ⟨-, hle⟩ | ⟨before, task, after, hsplit, heq, hst, -, hbefore, hafter⟩
  · obtain ⟨t, ht, hst⟩ := hready
    have := hle t ht hst
    omega
  · have hmem : task ∈ s.taskAllList := by
      rw [hsplit]
      exact List.mem_append_right _ List.mem_cons_self
    rw [hsplit] at hn
    obtain ⟨-, hn', hdisj⟩ := List.nodup_append.1 hn
    have hne_before : ∀ t ∈ before, t ≠ task := fun t ht => hdisj t ht task List.mem_cons_self
    have hne_after : ∀ t ∈ after, t ≠ task := by
      rintro t ht rfl
      exact (List.nodup_cons.1 hn').1 ht
    have hin_before : ∀ t ∈ before, t ∈ s.taskAllList := by
      intro t ht
      rw [hsplit]
      exact List.mem_append_left _ ht
    have hin_after : ∀ t ∈ after, t ∈ s.taskAllList := by
      intro t ht
      rw [hsplit]
      exact List.mem_append_right _ (List.mem_cons_of_mem _ ht)
    refine ⟨task, _, getNextTask011_eq h.all_nodup heq, ?_⟩
    constructor
    · exact hst
    · refine ⟨before, after, hsplit, ?_, ?_⟩
      · intro t ht hst'
        simpa [Function.update_of_ne (hne_before t ht), hin_before t ht, hmem]
          using hbefore t ht hst'
      · intro t ht hst'
        simpa [Function.update_of_ne (hne_after t ht), hin_after t ht, hmem]
          using hafter t ht hst'
    · have hcount := h.ready_count hmem hst
      obtain ⟨front, back, hfront⟩ :=
        List.append_of_mem (List.count_pos_iff.1 (by omega : 0 < s.taskReadyList.count task))
      rw [hfront, List.count_append, List.count_cons_self] at hcount
      have hnot_front : task ∉ front := List.count_eq_zero.1 (by omega)
      have hnot_back : task ∉ back := List.count_eq_zero.1 (by omega)
      refine ⟨front, back, hfront, ?_, ?_⟩
      · intro hmem'
        rcases List.mem_append.1 hmem' with h' | h'
        · exact hnot_front h'
        · exact hnot_back h'
      · show s.taskReadyList.erase task = _
        rw [hfront, List.erase_append_right _ hnot_front, List.erase_cons_head]
    · obtain ⟨hprio, hticks⟩ := hbound task hmem
      simp only [Function.update_self, if_pos hmem]
      by_cases hr : Recharges (s.tasks task)
      · rw [if_pos hr, recharge_ticks hprio hticks hr]
      · rw [if_neg hr, recharge, if_neg hr]
    · intro t ht hne hr
      obtain ⟨hprio, hticks⟩ := hbound t ht
      simp only [Function.update_of_ne hne, if_pos ht]
      exact recharge_ticks hprio hticks hr
    · intro t hne hnot
      simp only [Function.update_of_ne hne]
      split
      · rename_i ht
        rw [recharge, if_neg fun hr => hnot ⟨ht, hr⟩]
      · rfl
    · rfl
    · intro t ht
      change t ∈ s.taskAllList at ht
      have hb := (hbound t ht).recharge
      by_cases hne : t = task
      · subst hne
        simp only [Function.update_self, if_pos ht]
        exact hb
      · simp only [Function.update_of_ne hne, if_pos ht]
        exact hb

/-- A call keeps the bound, whatever the state. -/
theorem getNextTask011_bounded (hn : s.taskAllList.Nodup)
    (hbound : ∀ t ∈ s.taskAllList, TicksBounded (s.tasks t)) {nextTask : TaskId} {s' : Sched}
    (h : getNextTask011 s = some (nextTask, s')) :
    s'.taskAllList = s.taskAllList ∧ ∀ t ∈ s'.taskAllList, TicksBounded (s'.tasks t) := by
  cases hloop : (pickLoop s.taskAllList (-1) none s).1 with
  | none =>
      unfold getNextTask011 at h
      cases hpair : pickLoop s.taskAllList (-1) none s with
      | mk next m =>
          rw [hpair] at h hloop
          simp only at hloop
          subst hloop
          cases h
  | some task =>
      rw [getNextTask011_eq hn hloop] at h
      obtain ⟨rfl, rfl⟩ := Prod.mk.inj (Option.some.inj h)
      refine ⟨rfl, ?_⟩
      intro t ht
      change t ∈ s.taskAllList at ht
      have hb := (hbound t ht).recharge
      by_cases hne : t = task
      · subst hne
        simp only [Function.update_self, if_pos ht]
        exact hb
      · simp only [Function.update_of_ne hne, if_pos ht]
        exact hb

theorem pickTimes_bounded (n : Nat) (s : Sched) (hn : s.taskAllList.Nodup)
    (hbound : ∀ t ∈ s.taskAllList, TicksBounded (s.tasks t)) {s' : Sched}
    (h : pickTimes n s = some s') : ∀ t ∈ s'.taskAllList, TicksBounded (s'.tasks t) := by
  induction n generalizing s with
  | zero =>
      cases h
      exact hbound
  | succ n ih =>
      obtain ⟨⟨nextTask, m⟩, hcall, hrest⟩ := Option.bind_eq_some_iff.1 h
      obtain ⟨hall, hm⟩ := getNextTask011_bounded hn hbound hcall
      exact ih m (hall ▸ hn) hm hrest

end

/-- **The picker** in every partitioned state with a ready task, priorities of at most `127` and ticks of
at most twice the priority. -/
theorem getNextTask011_spec {p : TaskId → Nat} {s : Sched} (h : Running p s)
    (hready : ∃ t ∈ s.taskAllList, (s.tasks t).status = .READY)
    (hbound : ∀ t ∈ s.taskAllList, TicksBounded (s.tasks t)) :
    (∃ nextTask s', getNextTask011 s = some (nextTask, s') ∧ Picked s nextTask s') ∧
      ∀ n s', pickTimes n s = some s' → ∀ t ∈ s'.taskAllList, TicksBounded (s'.tasks t) := by
  obtain ⟨pl, hf, -⟩ := h
  constructor
  · exact hf.getNextTask011_picked hready hbound
  · intro n s' hs'
    exact pickTimes_bounded n s hf.all_nodup hbound hs'

/-- The main task takes a lock, task `3` runs and waits for it, and the main task starts tasks `5` and `7`. -/
def oneWaits : List Action :=
  [.taskStart 3 4 3, .lockAcquire 0, .resume, .resume, .resume, .tick 0, .tick 0, .tick 0, .tick 0,
    .lockAcquire 0, .resume, .resume, .taskStart 5 6 2, .taskStart 7 8 4]

/-- Of two ready tasks the one with more ticks is picked, and the blocked task `3` gets new ticks. -/
theorem getNextTask011_spec_recharged : ∃ s nextTask s', s.taskAllList = [1, 3, 5, 7] ∧
    (s.tasks 3).status = .BLOCKED ∧ (s.tasks 5).status = .READY ∧ (s.tasks 7).status = .READY ∧
    getNextTask011 s = some (nextTask, s') ∧ Picked s nextTask s' ∧ nextTask = 7 ∧
    (s.tasks 3).ticks = 3 ∧ (s'.tasks 3).ticks = 4 := by
  have hrun : ((start 1 2 0).toOption.bind fun w => oneWaits.foldlM World.nextBusy w).map (fun w =>
      ((w.sched.taskAllList, [3, 5, 7].map fun t => (w.sched.tasks t).status),
        [1, 3, 5, 7].map (fun t => ((w.sched.tasks t).priority, (w.sched.tasks t).ticks)),
        (getNextTask011 w.sched).map fun x => (x.1, (x.2.tasks 3).ticks))) =
      some (([1, 3, 5, 7], [.BLOCKED, .READY, .READY]), [(3, 3), (3, 3), (2, 2), (4, 4)], some (7, 4)) := by
    decide +kernel
  obtain ⟨w, hw, hf⟩ := exists_reach (M := busyRuns) (fun _ h => h) busyRuns_nextBusy (by norm_num) hrun
  simp only [List.map_cons, List.map_nil, Prod.mk.injEq, List.cons.injEq, and_true] at hf
  obtain ⟨⟨hall, hblocked, hready₅, hready₇⟩, ⟨⟨hprio₁, hticks₁⟩, ⟨hprio₃, hticks₃⟩, ⟨hprio₅, hticks₅⟩,
    hprio₇, hticks₇⟩, hpick⟩ := hf
  have hbound : ∀ t ∈ w.sched.taskAllList, TicksBounded (w.sched.tasks t) := by
    rw [hall]
    simp only [List.forall_mem_cons, List.not_mem_nil, false_implies, implies_true, and_true, TicksBounded]
    omega
  obtain ⟨nextTask, s', hcall, hpicked⟩ := (getNextTask011_spec (busyRuns_inv hw).1
    ⟨7, by rw [hall]; decide, hready₇⟩ hbound).1
  rw [hcall] at hpick
  obtain ⟨hnext, hticks⟩ := Prod.mk.inj (Option.some.inj hpick)
  exact ⟨w.sched, nextTask, s', hall, hblocked, hready₅, hready₇, hcall, hpicked, hnext, hticks₃, hticks⟩

end ThreadSched
