import ThreadSched.Task.Turns

/-!
# The timers that are pending

In every state of every run the wheel holds the periodic timer that cleans up dead tasks, one helper timer for
each sleeper, and nothing else: no timer is lost, and none is left behind.

* `Wheel.Recurring` — a periodic timer that is in the wheel once; ticks keep it there.
* `Filed.count_sleepers` — the sleepers, read off the tasks, are those that have a helper timer.
* `pending_timers` — the timers in the wheel.
-/

set_option autoImplicit false

namespace ThreadSched

namespace Wheel

section

variable {α : Type} [DecidableEq α] {tm : TimerManager α} {l : List (TimerNode α)} {f : α} {period : Nat}

/-- One node has the callback `f`, and it is periodic. -/
structure Recurring (f : α) (period : Nat) (tm : TimerManager α) : Prop where
  once : (tm.linked.map TimerNode.timer).count f = 1
  periodic : ∀ n ∈ tm.linked, n.timer = f → n.uPeriod = period

/-- Periodic timers are all armed again. -/
theorem count_rearmed (j : Nat) (h : ∀ n ∈ l, n.timer = f → n.uPeriod ≠ 0) :
    ((rearmed j l).map TimerNode.timer).count f = (l.map TimerNode.timer).count f := by
  induction l with
  | nil => rfl
  | cons n l ih =>
      have ih := ih fun m hm => h m (List.mem_cons_of_mem _ hm)
      unfold rearmed at ih ⊢
      rw [List.filter_cons, List.map_cons]
      by_cases hp : n.uPeriod = 0
      · have hn : n.timer ≠ f := fun hn => h n List.mem_cons_self hn hp
        rw [if_neg (by simpa using hp), ih, List.count_cons_of_ne hn]
      · rw [if_pos (by simpa using hp), List.map_cons, List.map_cons, List.count_cons, List.count_cons, ih]
        rfl

/-- **A tick** leaves a periodic timer in the wheel. -/
theorem Recurring.tick (h : Recurring f period tm) (hperiod : period ≠ 0) :
    Recurring f period (tickWheel tm) := by
  obtain ⟨rest, hr, hr'⟩ := tickWheel_linked tm
  have hnodes : ∀ n ∈ tickNodes tm, n.timer = f → n.uPeriod = period := fun n hn =>
    h.periodic n (by rw [hr]; exact Multiset.mem_add.2 (.inr hn))
  constructor
  · have honce := h.once
    rw [hr, Multiset.map_add, Multiset.map_coe, Multiset.count_add, Multiset.coe_count] at honce
    rw [hr', Multiset.map_add, Multiset.map_coe, Multiset.count_add, Multiset.coe_count,
      count_rearmed _ fun n hn hf => (hnodes n hn hf).trans_ne hperiod]
    exact honce
  · intro n hn hf
    rw [hr'] at hn
    rcases Multiset.mem_add.1 hn with hn | hn
    · exact h.periodic n (by rw [hr]; exact Multiset.mem_add.2 (.inl hn)) hf
    · obtain ⟨m, hm, rfl⟩ := List.mem_map.1 (Multiset.mem_coe.1 hn)
      exact hnodes m (List.mem_filter.1 hm).1 hf

theorem Recurring.createTimer (h : Recurring f period tm) (node : Nat) {timer : α} (d p : Nat)
    (hne : timer ≠ f) : Recurring f period (createTimer tm node timer d p) := by
  unfold Wheel.createTimer
  constructor
  · have hnode : f ≠ (newTimer tm node timer d p).timer := hne.symm
    rw [addTimer_linked, Multiset.map_cons, Multiset.count_cons_of_ne hnode]
    exact h.once
  · intro n hn hf
    rw [addTimer_linked, Multiset.mem_cons] at hn
    rcases hn with rfl | hn
    · exact absurd hf hne
    · exact h.periodic n hn hf

end

end Wheel

open Wheel (TimerManager TimerNode tickWheel Recurring)

/-- The tasks that are marked as running and are not. -/
def Sched.sleepers (s : Sched) : List TaskId :=
  s.taskAllList.filter fun t => t ≠ s.currentTask ∧ (s.tasks t).status = .RUNNING

section

variable {w : World} {s : Sched} {p : TaskId → Nat} {pl : TaskId → Option Place} {a : Action}

/-! ## The cleaner -/

/-- The timer that `timer_init` creates. -/
def Cleaner (w : World) : Prop := Recurring .cleanDeadTask 150000 w.tm

theorem Cleaner.act (h : Cleaner w) (hexit : w.tm.uExitFlag = 0) (a : Action) : Returns (w.act a) Cleaner := by
  have hsched : Returns (schedAction w.sched a >>= fun s => pure { w with sched := s }) Cleaner :=
    returns_bind_any fun _ => Returns.pure h
  cases a with
  | tick r =>
      exact (returns_handler_tm (fun _ htm _ => htm.tick (by norm_num))
        (fun v _ htm => htm.createTimer v.nodes v.sched.current.sleepMillisecond 0 nofun) hexit h).imp
          fun _ => And.left
  | _ => exact hsched

theorem Cleaner.init (h : World.Init w) : Cleaner w := by
  obtain ⟨addr, stack, j, -, hw⟩ := h
  rw [start_eq] at hw
  cases hw
  unfold Cleaner Wheel.createTimer
  constructor
  · rw [Wheel.addTimer_linked, Wheel.empty_linked]
    rfl
  · intro n hn _
    rw [Wheel.addTimer_linked, Wheel.empty_linked, Multiset.mem_cons] at hn
    rcases hn with rfl | hn
    · rfl
    · exact absurd hn (Multiset.notMem_zero n)

/-- The cleaner is in the wheel in every run. -/
theorem cleaner_of_reach (h : busyRuns.Reach w) : Cleaner w := by
  induction h with
  | init h => exact Cleaner.init h
  | step hreach hstep ih =>
      obtain ⟨⟨a, -, hact⟩, -⟩ := hstep
      exact ih.act (busyRuns_inv hreach).exitFlag a _ hact

/-! ## The sleepers -/

/-- The sleepers are those that a helper timer is pending for. -/
theorem Filed.count_sleepers (h : Filed p pl s) (hcur : pl s.currentTask = some .current) (t : TaskId) :
    s.sleepers.count t = p t := by
  have hf := h.fits t
  have hall : s.taskAllList.count t = if pl t ≠ none ∧ pl t ≠ some .exited then 1 else 0 := hf.all
  rw [hf.pending]
  by_cases ht : pl t = some .asleep
  · have hne : t ≠ s.currentTask := by
      rintro rfl
      rw [hcur] at ht
      cases ht
    have hstatus : (s.tasks t).status = .RUNNING := hf.status .asleep ht
    rw [if_pos ht, Sched.sleepers, List.count_filter (by simp [hne, hstatus]), hall, ht]
    rfl
  · rw [if_neg ht, List.count_eq_zero]
    intro hmem
    obtain ⟨hmem, hmarked⟩ := List.mem_filter.1 hmem
    obtain ⟨hne, hrun⟩ := of_decide_eq_true hmarked
    have hpos : 0 < s.taskAllList.count t := List.count_pos_iff.2 hmem
    cases hx : pl t with
    | none =>
        rw [hall, hx] at hpos
        simp at hpos
    | some x =>
        have hstatus : (s.tasks t).status = x.status := hf.status x hx
        rw [hrun] at hstatus
        cases x with
        | current => exact hne (h.cur t hx)
        | asleep => exact ht hx
        | ready => cases hstatus
        | waiting l => cases hstatus
        | ioWaiting q b => cases hstatus
        | exited => cases hstatus

/-- The current task is live and no sleeper. -/
theorem Filed.length_sleepers (h : Filed p pl s) (hcur : pl s.currentTask = some .current) :
    s.sleepers.length < s.taskAllList.length := by
  refine List.length_filter_lt_length_iff_exists.2 ⟨s.currentTask, h.mem_all hcur nofun, ?_⟩
  simp

/-- The timers in the wheel, from how often each is there. -/
theorem timers_eq (hclean : Cleaner w) (hcount : ∀ t, w.sched.sleepers.count t = pendingHelpers w.tm t) :
    w.tm.linked.map TimerNode.timer =
      .cleanDeadTask ::ₘ (w.sched.sleepers.map .collaborativeScheduleHelper : List TimerFn) := by
  ext f
  cases f with
  | cleanDeadTask =>
      rw [hclean.once, Multiset.count_cons_self, Multiset.coe_count, List.count_eq_zero_of_not_mem (by simp)]
  | collaborativeScheduleHelper t =>
      have hne : TimerFn.collaborativeScheduleHelper t ≠ .cleanDeadTask := TimerFn.noConfusion
      have hinj : Function.Injective TimerFn.collaborativeScheduleHelper :=
        fun _ _ => TimerFn.collaborativeScheduleHelper.inj
      rw [Multiset.count_cons_of_ne hne, Multiset.coe_count, List.count_map_of_injective _ _ hinj, hcount]
      rfl

/-- **The timers in the wheel** in every state of a run: the periodic one that cleans up, and a one-shot helper
for each sleeper; so there are at most as many as there are live tasks. -/
theorem pending_timers (h : busyRuns.Reach w) :
    w.tm.linked.map TimerNode.timer =
        .cleanDeadTask ::ₘ (w.sched.sleepers.map .collaborativeScheduleHelper : List TimerFn) ∧
      (∀ n ∈ w.tm.linked, n.uPeriod = if n.timer = .cleanDeadTask then 150000 else 0) ∧
        (w.tm.linked.card : Int) ≤ w.sched.taskAllNums := by
  have hinv := busyRuns_inv h
  have hclean := cleaner_of_reach h
  obtain ⟨pl, hf, hcur⟩ := hinv.running
  have htimers := timers_eq hclean (hf.count_sleepers hcur)
  refine ⟨htimers, fun n hn => ?_, ?_⟩
  · cases ht : n.timer with
    | cleanDeadTask => exact hclean.periodic n hn ht
    | collaborativeScheduleHelper t => exact hinv.oneShot n hn t ht
  · have hcard := congrArg Multiset.card htimers
    rw [Multiset.card_map, Multiset.card_cons, Multiset.coe_card, List.length_map] at hcard
    have hlt := hf.length_sleepers hcur
    rw [hf.nums, hcard]
    omega

end

/-- The main task sleeps and the next one runs. -/
theorem pending_timers_first : ∃ w, busyRuns.Reach w ∧ w.sched.sleepers = [1] ∧
    w.tm.linked.map TimerNode.timer = {.cleanDeadTask, .collaborativeScheduleHelper 1} := by
  obtain ⟨w, hreach, ⟨hcur, hall, hstatus⟩, -⟩ := reach_dispatch
  have hsleepers : w.sched.sleepers = [1] := by
    simp [Sched.sleepers, hcur, hall, hstatus]
  have htimers := (pending_timers hreach).1
  rw [hsleepers] at htimers
  exact ⟨w, hreach, hsleepers, htimers⟩

end ThreadSched
