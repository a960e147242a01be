import ThreadSched.Task.Marks
import ThreadSched.Task.Waiting

/-!
# The tick handlers of the two trees (`interrupt/timer.c`)

`Thread/` and `User_Schedule/` have the same scheduler, wheel, helper and `create_timer`; they differ in
`interrupt_timer_handler`.  The one of `Thread/` switches tasks at every tick and has the call of
`run_timer` commented out.

* `Thread.interruptTimerHandler` — the handler of `Thread/`.
* `WakeAlike` — both trees return the same sleepers, and in neither one sleeps past its `uExpires`.
* `Keeps` — the tasks that sleep are the given ones, with the given timers, and none was returned.  Both
  handlers keep it, that of `User_Schedule/` as long as it calls none of these timers.
* `returnsDue_handler` — a sleeper whose timer the wheel reaches is returned in `User_Schedule/`.
* `trees_wake_alike_iff` — the two trees wake alike exactly when every reading is before the timers are due.
-/

set_option autoImplicit false

namespace ThreadSched

open Wheel (TimerManager TimerNode Slot tickWheel tickNodes Sound DueAt dueAt pHead)

/-- `interrupt_timer_handler` of the `Thread` tree.  It does not read the clock. -/
def Thread.interruptTimerHandler (w : World) : Except Fault World := do
  assertThat (w.sched.current.stackMagic = stackMagic)
  if w.sched.current.isCollaborativeSchedule = false then do
    let s ← schedule w.sched
    pure { w with sched := s }
  else do
    let w ← w.createTimer (.collaborativeScheduleHelper w.sched.currentTask)
      w.sched.current.sleepMillisecond 0
    let s ← collaborativeSchedule w.sched
    pure { w with sched := s }

/-- One handler call for each clock reading, in `Thread`. -/
def Thread.handlerRun (rs : List Nat) (w : World) : Except Fault World :=
  rs.foldlM (fun w _ => Thread.interruptTimerHandler w) w

/-- The timer hangs in a slot. -/
def Pending (tm : TimerManager TimerFn) (n : TimerNode TimerFn) : Prop :=
  ∃ s ∈ Wheel.allSlots, n ∈ tm.arrListTimer s

theorem pending_iff {tm : TimerManager TimerFn} {n : TimerNode TimerFn} :
    Pending tm n ↔ n ∈ tm.linked :=
  Wheel.mem_linked.symm

/-- `t` sleeps: it is neither running nor ready, and `n` is its one pending timer. -/
structure Asleep (w : World) (t : TaskId) (n : TimerNode TimerFn) : Prop where
  notCurrent : t ≠ w.sched.currentTask
  notReady : t ∉ w.sched.taskReadyList
  timer : n.timer = .collaborativeScheduleHelper t
  pending : Pending w.tm n
  only : ∀ m, Pending w.tm m → m.timer = .collaborativeScheduleHelper t → m = n

/-- `t` has been put on the ready list since the state `w`. -/
def Returned (w w' : World) (t : TaskId) : Prop :=
  ∃ via, Event.ready t via ∈ w'.sched.log.drop w.sched.log.length

/-- `t` sleeps in one of the states that the calls go through. -/
def Slept (run : List Nat → World → Except Fault World) (w : World) (rs : List Nat) (t : TaskId) : Prop :=
  ∃ ps x n, ps <+: rs ∧ run ps w = .ok x ∧ Asleep x t n

/-- After the calls `rs`, the last with reading `r`: of the tasks that slept both trees have returned the
same, and in neither does a task sleep whose timer's `uExpires` the reading has reached. -/
structure AlikeAfter (w : World) (rs : List Nat) (r : Nat) (u v : World) : Prop where
  returned : ∀ t, Slept handlerRun w rs t ∨ Slept Thread.handlerRun w rs t → (Returned w u t ↔ Returned w v t)
  user : ∀ t n, Asleep u t n → r < n.uExpires
  thread : ∀ t n, Asleep v t n → r < n.uExpires

/-- The trees wake alike after each of the calls. -/
def WakeAlike (w : World) (rs : List Nat) : Prop :=
  ∀ rs' r, rs' ++ [r] <+: rs → ∀ u v, handlerRun (rs' ++ [r]) w = .ok u →
    Thread.handlerRun (rs' ++ [r]) w = .ok v → AlikeAfter w (rs' ++ [r]) r u v

/-- The timer that the current task gets when it is put to sleep at clock `j`. -/
def napTimer (w : World) (j : Nat) : TimerNode TimerFn :=
  Wheel.newTimer (.empty j) w.nodes (.collaborativeScheduleHelper w.sched.currentTask)
    w.sched.current.sleepMillisecond 0

/-- When that timer is due. -/
def napDue (w : World) (j : Nat) : Nat := dueAt j (pHead j (napTimer w j).uExpires) (napTimer w j).uExpires

/-- The reading `r` is before each timer is due: those of the sleepers, and, when the current task has asked to
sleep, those that the two trees give it in the first call, which has the reading `r₁`. -/
structure NotYet (w : World) (r₁ r : Nat) : Prop where
  asleep : ∀ t n, Asleep w t n → ∀ s, n ∈ w.tm.arrListTimer s → r < dueAt w.tm.uJiffies s n.uExpires
  thread : w.sched.current.isCollaborativeSchedule = true → r < (napTimer w w.tm.uJiffies).uExpires
  user : w.sched.current.isCollaborativeSchedule = true → r < napDue w (max w.tm.uJiffies (r₁ + 1))

/-- Every reading is before each timer is due, as long as both trees return. -/
def NoneDue (w : World) (rs : List Nat) : Prop :=
  ∀ rs' r, rs' ++ [r] <+: rs → (∃ u, handlerRun (rs' ++ [r]) w = .ok u) →
    (∃ v, Thread.handlerRun (rs' ++ [r]) w = .ok v) → NotYet w ((rs' ++ [r]).headD 0) r

/-- A state both trees can start from: some tasks sleep, each with one helper timer, and another one runs. -/
structure Started (w : World) : Prop where
  managed : Managed w
  sound : Sound w.tm
  tame : Tame w.sched
  sleepers : ∀ n ∈ w.tm.linked, ∀ t, n.timer = .collaborativeScheduleHelper t → n.uPeriod = 0 ∧ Asleep w t n
  once : ∀ n t, n.timer = .collaborativeScheduleHelper t → ∀ s ∈ Wheel.allSlots, ∀ s' ∈ Wheel.allSlots,
    n ∈ w.tm.arrListTimer s → n ∈ w.tm.arrListTimer s' → s = s'
  distinct : (w.sched.currentTask :: w.sched.taskReadyList).Nodup
  unmarked : ∀ t ∈ w.sched.taskReadyList, w.sched.marked t = false
  delay : w.sched.current.sleepMillisecond < 2 ^ 32

/-! ## The states of a run -/

/-- A task has one helper timer. -/
theorem pending_unique {tm : TimerManager TimerFn} {t : TaskId} (h : pendingHelpers tm t = 1) {s s' : Slot}
    {n m : TimerNode TimerFn} (hs : s ∈ Wheel.allSlots) (hn : n ∈ tm.arrListTimer s)
    (hnt : n.timer = .collaborativeScheduleHelper t) (hs' : s' ∈ Wheel.allSlots) (hm : m ∈ tm.arrListTimer s')
    (hmt : m.timer = .collaborativeScheduleHelper t) : s = s' ∧ n = m := by
  have hcount : (Buckets.all Wheel.allSlots fun s => (tm.arrListTimer s).map TimerNode.timer).count
      (.collaborativeScheduleHelper t) = 1 := by
    rw [← Buckets.all_map]
    unfold pendingHelpers helpers TimerManager.linked at h
    exact h
  obtain ⟨s₀, -, hone, hothers⟩ := Buckets.exists_slot_of_count_one hcount
  have hslot : ∀ x ∈ Wheel.allSlots, ∀ k ∈ tm.arrListTimer x, k.timer = .collaborativeScheduleHelper t →
      x = s₀ := by
    intro x hx k hk hkt
    by_contra hne
    exact hothers x hx hne (List.mem_map.2 ⟨k, hk, hkt⟩)
  obtain rfl := hslot s hs n hn hnt
  obtain rfl := hslot s' hs' m hm hmt
  refine ⟨rfl, ?_⟩
  rw [List.count, List.countP_map, List.countP_eq_length_filter] at hone
  obtain ⟨k, hk⟩ := List.length_eq_one_iff.1 hone
  have hmem : ∀ x ∈ tm.arrListTimer s', x.timer = .collaborativeScheduleHelper t → x = k := by
    intro x hx hxt
    have : x ∈ [k] := hk ▸ List.mem_filter.2 ⟨hx, by simp [hxt]⟩
    exact List.mem_singleton.1 this
  rw [hmem n hn hnt, hmem m hm hmt]

/-- The task of a helper timer is asleep. -/
theorem helper_asleep {w : World} {pl : TaskId → Option Place} (hf : Filed (pendingHelpers w.tm) pl w.sched)
    {n : TimerNode TimerFn} (hn : n ∈ w.tm.linked) {t : TaskId} (ht : n.timer = .collaborativeScheduleHelper t) :
    pl t = some .asleep ∧ pendingHelpers w.tm t = 1 := by
  have hpos : 0 < pendingHelpers w.tm t := Multiset.count_pos.2 (Multiset.mem_map.2 ⟨n, hn, ht⟩)
  have hpending := (hf.fits t).pending
  by_cases hx : pl t = some .asleep
  · rw [if_pos hx] at hpending
    exact ⟨hx, hpending⟩
  · rw [if_neg hx] at hpending
    omega

/-- Only live tasks sleep. -/
theorem Asleep.live {w : World} (h : busyRuns.Reach w) {t : TaskId} {n : TimerNode TimerFn} (hn : Asleep w t n) :
    t ∈ w.sched.taskAllList := by
  obtain ⟨pl, hf, -⟩ := (busyRuns_inv h).running
  obtain ⟨hx, -⟩ := helper_asleep hf (pending_iff.1 hn.pending) hn.timer
  have hall : w.sched.taskAllList.count t = if pl t ≠ none ∧ pl t ≠ some .exited then 1 else 0 := (hf.fits t).all
  rw [hx, if_pos (by simp)] at hall
  exact List.count_pos_iff.1 (by omega)

/-- **Every state** of a run of `User_Schedule` is one both trees can start from. -/
theorem started_of_reach {w : World} (h : busyRuns.Reach w) : Started w := by
  have hinv := busyRuns_inv h
  obtain ⟨pl, hf, hcur⟩ := hinv.running
  refine ⟨allRuns_managed (busyRuns_all h), busyRuns_sound h, hinv.tame, fun n hn t ht => ?_,
    fun n t ht s hs s' hs' hn hn' => ?_, ?_, fun t ht => ?_, ?_⟩
  · obtain ⟨hx, hone⟩ := helper_asleep hf hn ht
    refine ⟨hinv.oneShot n hn t ht, ⟨?_, fun hmem => ?_, ht, pending_iff.2 hn, ?_⟩⟩
    · rintro rfl
      rw [hcur] at hx
      cases hx
    · have hready := hf.place_of_ready hmem
      rw [hx] at hready
      cases hready
    · rintro m ⟨s', hs', hm⟩ hmt
      obtain ⟨s, hs, hn'⟩ := Wheel.mem_linked.1 hn
      exact (pending_unique hone hs' hm hmt hs hn' ht).2
  · obtain ⟨-, hone⟩ := helper_asleep hf (Wheel.mem_linked.2 ⟨s, hs, hn⟩) ht
    exact (pending_unique hone hs hn ht hs' hn' ht).1
  · refine List.nodup_cons.2 ⟨hf.current_not_ready hcur, List.nodup_iff_count_le_one.2 fun t => ?_⟩
    have hready : w.sched.taskReadyList.count t = if pl t = some .ready then 1 else 0 := (hf.fits t).ready
    rw [hready]
    split <;> omega
  · by_contra hmark
    have hrun := busyRuns_markedRun h t (by simpa using hmark)
    have hstatus : (w.sched.tasks t).status = .READY := (hf.fits t).status .ready (hf.place_of_ready ht)
    rw [hstatus] at hrun
    cases hrun
  · have halloc := (hf.fits w.sched.currentTask).allocated
    rw [hcur] at halloc
    exact allRuns_delays (busyRuns_all h) _ halloc

/-! ## Tasks that are not returned -/

/-- The tasks of `A` are neither running nor ready, and have not been since the log was `log₀`. -/
structure Resting (A : TaskId → Prop) (log₀ : List Event) (s : Sched) : Prop where
  notCurrent : ∀ t, A t → t ≠ s.currentTask
  notReady : ∀ t, A t → t ∉ s.taskReadyList
  log : ∃ es, s.log = log₀ ++ es ∧ ∀ t, A t → ∀ via, Event.ready t via ∉ es

section resting

variable {A : TaskId → Prop} {log₀ : List Event} {s : Sched}

theorem Resting.of_eq (h : Resting A log₀ s) {s' : Sched} (hcurrent : s'.currentTask = s.currentTask)
    (hready : s'.taskReadyList = s.taskReadyList) (hlog : s'.log = s.log) : Resting A log₀ s' := by
  constructor
  · rw [hcurrent]
    exact h.notCurrent
  · rw [hready]
    exact h.notReady
  · rw [hlog]
    exact h.log

/-- Another event. -/
theorem Resting.emit (h : Resting A log₀ s) (e : Event) (he : ∀ t, A t → ∀ via, e ≠ .ready t via) :
    Resting A log₀ (s.emit e) := by
  refine ⟨h.notCurrent, h.notReady, ?_⟩
  obtain ⟨es, hes, hnot⟩ := h.log
  refine ⟨es ++ [e], ?_, ?_⟩
  · show s.log ++ [e] = _
    rw [hes, List.append_assoc]
  · intro t ht via hmem
    rcases List.mem_append.1 hmem with hmem | hmem
    · exact hnot t ht via hmem
    · exact he t ht via (List.mem_singleton.1 hmem).symm

theorem Resting.getNextTask (h : Resting A log₀ s) :
    Returns (ThreadSched.getNextTask s) (Resting A log₀) := by
  unfold ThreadSched.getNextTask
  cases hr : s.taskReadyList with
  | nil => exact Returns.error
  | cons next rest =>
      have hnot : ∀ t, A t → t ∉ next :: rest := by
        rw [← hr]
        exact h.notReady
      apply Returns.pure
      apply Resting.emit
      · constructor
        · rintro t ht rfl
          exact hnot t ht List.mem_cons_self
        · intro t ht hmem
          exact hnot t ht (List.mem_cons_of_mem _ hmem)
        · exact h.log
      · intro t _ via
        exact nofun

/-- The current task goes to the end of the ready list. -/
theorem Resting.schedule (h : Resting A log₀ s) :
    Returns (ThreadSched.schedule s) (Resting A log₀) := by
  refine returns_assertThat fun _ => Returns.ite (fun _ => Returns.error) fun _ => ?_
  apply Resting.getNextTask
  apply Resting.emit
  · constructor
    · exact h.notCurrent
    · intro t ht hmem
      rcases List.mem_append.1 hmem with hmem | hmem
      · exact h.notReady t ht hmem
      · exact h.notCurrent t ht (List.mem_singleton.1 hmem)
    · exact h.log
  · intro t ht via heq
    cases heq
    exact h.notCurrent _ ht rfl

end resting

theorem not_returned {w w' : World} {A : TaskId → Prop} (h : Resting A w.sched.log w'.sched)
    {t : TaskId} (ht : A t) : ¬ Returned w w' t := by
  rintro ⟨via, hmem⟩
  obtain ⟨es, hes, hnot⟩ := h.log
  rw [hes, List.drop_left] at hmem
  exact hnot t ht via hmem

/-! ## The wheel while they sleep -/

/-- Which task sleeps on which timer, and from which reading on it is due. -/
abbrev Dozing := TaskId → TimerNode TimerFn → Nat → Prop

/-- The task is one of them. -/
def Dozing.Task (K : Dozing) (t : TaskId) : Prop := ∃ n τ, K t n τ

/-- The helper timers of the wheel are those of `K`. -/
structure Wheeled (K : Dozing) (tm : TimerManager TimerFn) : Prop where
  sound : Sound tm
  known : ∀ n ∈ tm.linked, ∀ t, n.timer = .collaborativeScheduleHelper t → ∃ τ, K t n τ
  holds : ∀ t n τ, K t n τ →
    n ∈ tm.linked ∧ n.timer = .collaborativeScheduleHelper t ∧ n.uPeriod = 0 ∧ DueAt tm n τ
  one : ∀ t n m τ τ', K t n τ → K t m τ' → n = m

section wheeled

variable {K : Dozing} {tm : TimerManager TimerFn} {r : Nat}

/-- A tick at or before the reading calls no helper, if the reading is before each timer is due. -/
theorem Wheeled.not_called (h : Wheeled K tm) (hnone : ∀ t n τ, K t n τ → r < τ) (hle : tm.uJiffies ≤ r)
    {n : TimerNode TimerFn} (hn : n ∈ tickNodes tm) (t : TaskId) : n.timer ≠ .collaborativeScheduleHelper t := by
  intro ht
  obtain ⟨τ, hK⟩ := h.known n (Wheel.mem_linked_of_tickNodes hn) t ht
  obtain ⟨-, -, -, hdue⟩ := h.holds t n τ hK
  have hreached := hdue.of_tickNodes h.sound hn
  have hlater := hnone t n τ hK
  omega

theorem Wheeled.tick (h : Wheeled K tm) (hnone : ∀ t n τ, K t n τ → r < τ) (hle : tm.uJiffies ≤ r)
    (hr : r < 2 ^ 32 - 1) : Wheeled K (tickWheel tm) := by
  have hj : tm.uJiffies < 2 ^ 32 - 1 := by omega
  refine ⟨h.sound.tick hj, fun n hn t ht => ?_, fun t n τ hK => ?_, h.one⟩
  · obtain ⟨rest, hbefore, hafter⟩ := Wheel.tickWheel_linked tm
    rw [hafter, Multiset.mem_add] at hn
    rcases hn with hn | hn
    · refine h.known n ?_ t ht
      rw [hbefore, Multiset.mem_add]
      exact Or.inl hn
    · -- a timer armed again is one that was called, with the same callback
      obtain ⟨m, hm, -, rfl⟩ := Wheel.mem_rearmed.1 (Multiset.mem_coe.1 hn)
      exact absurd ht (h.not_called hnone hle hm t)
  · obtain ⟨hn, ht, hperiod, hdue⟩ := h.holds t n τ hK
    refine ⟨Wheel.mem_linked_tickWheel hn fun hmem => ?_, ht, hperiod, hdue.tick h.sound hj hperiod⟩
    exact h.not_called hnone hle hmem t ht

/-- What `run_timer` leaves alone when it calls no helper. -/
structure Untouched (s s' : Sched) : Prop where
  tasks : s'.tasks = s.tasks
  current : s'.currentTask = s.currentTask
  ready : s'.taskReadyList = s.taskReadyList
  log : s'.log = s.log

theorem Untouched.trans {s s' s'' : Sched} (h : Untouched s s') (h' : Untouched s' s'') : Untouched s s'' :=
  ⟨h'.tasks.trans h.tasks, h'.current.trans h.current, h'.ready.trans h.ready, h'.log.trans h.log⟩

theorem timerCall_untouched {n : TimerNode TimerFn} (hn : ∀ t, n.timer ≠ .collaborativeScheduleHelper t) (j : Nat)
    (s : Sched) : Returns (timerCall n j s) (Untouched s) := by
  unfold timerCall
  cases htimer : n.timer with
  | collaborativeScheduleHelper t => exact absurd htimer (hn t)
  | cleanDeadTask =>
      refine (cleanDeadTask_freed s).imp ?_
      rintro s' ⟨pool, stackMem, structMem, rfl⟩
      exact ⟨rfl, rfl, rfl, rfl⟩

/-- One tick. -/
theorem Wheeled.runTick (h : Wheeled K tm) (hnone : ∀ t n τ, K t n τ → r < τ) (hle : tm.uJiffies ≤ r)
    (hr : r < 2 ^ 32 - 1) (s : Sched) :
    Returns (Wheel.runTick timerCall (tm, s)) fun v => Wheeled K v.1 ∧ Untouched s v.2 := by
  have hwalk := Returns.foldlM (f := fun s n => timerCall n tm.uJiffies s)
    (I := fun l s' => (∀ m ∈ l, m ∈ tickNodes tm) ∧ Untouched s s') ?_ (tickNodes tm) s
    ⟨fun _ hm => hm, rfl, rfl, rfl, rfl⟩
  · rw [Wheel.runTick_eq]
    intro v hv
    cases hf : (tickNodes tm).foldlM (fun s n => timerCall n tm.uJiffies s) s with
    | error e =>
        rw [hf] at hv
        cases hv
    | ok s' =>
        rw [hf] at hv
        cases hv
        exact ⟨h.tick hnone hle hr, (hwalk s' hf).2⟩
  · rintro m l s' ⟨hl, hs'⟩
    refine (timerCall_untouched (h.not_called hnone hle (hl m List.mem_cons_self)) _ s').imp ?_
    intro s'' hs''
    exact ⟨fun m' hm' => hl m' (List.mem_cons_of_mem _ hm'), hs'.trans hs''⟩

/-- **The loop of `run_timer`** wakes nobody before the timers are due. -/
theorem Wheeled.runTimerLoop (h : Wheeled K tm) (hnone : ∀ t n τ, K t n τ → r < τ) (hr : r < 2 ^ 32 - 1)
    (fuel : Nat) (s : Sched) :
    Returns (Wheel.runTimerLoop timerCall .hang r fuel (tm, s)) fun v => Wheeled K v.1 ∧ Untouched s v.2 := by
  induction fuel generalizing tm s with
  | zero => exact Returns.error
  | succ fuel ih =>
      refine Returns.ite (fun hle => ?_) fun _ => Returns.ok ⟨h, rfl, rfl, rfl, rfl⟩
      have hle' : tm.uJiffies ≤ r := by
        unfold Wheel.TIME_AFTER_EQ at hle
        simp only at hle
        omega
      refine (h.runTick hnone hle' hr s).bind ?_
      rintro ⟨tm', s₁⟩ ⟨h₁, hs₁⟩
      exact (ih h₁ s₁).imp fun v hv => ⟨hv.1, hs₁.trans hv.2⟩

end wheeled

/-! ## The task that is put to sleep -/

/-- `K`, with the timer that the current task gets at clock `j` if it has asked to sleep. -/
def Dozing.nap (K : Dozing) (u : World) (j : Nat) : Dozing := fun t n τ =>
  K t n τ ∨ (u.sched.current.isCollaborativeSchedule = true ∧ t = u.sched.currentTask ∧
    n = napTimer u j ∧ τ = napDue u j)

theorem Dozing.nap_of_unmarked {K : Dozing} {u : World} (h : u.sched.current.isCollaborativeSchedule = false)
    (j : Nat) : K.nap u j = K := by
  funext t n τ
  simp [Dozing.nap, h]

/-- In which slot a timer hangs matters only while its expiry lies ahead. -/
theorem dueAt_unique {tm : TimerManager TimerFn} (h : Sound tm) {n : TimerNode TimerFn} {s : Slot} (s' : Slot)
    (hn : n ∈ tm.arrListTimer s) (heq : n.due < 2 ^ 32 → s = s') :
    dueAt tm.uJiffies s n.uExpires = dueAt tm.uJiffies s' n.uExpires := by
  by_cases hd : n.due < 2 ^ 32
  · rw [heq hd]
  · have hlt := (h.wrapped s n hn).2 (Nat.not_lt.1 hd)
    rw [Wheel.dueAt_of_lt hlt, Wheel.dueAt_of_lt hlt]

/-- A timer whose expiry lies ahead hangs in one of the slots. -/
theorem slot_mem {tm : TimerManager TimerFn} (h : Sound tm) {n : TimerNode TimerFn} {s : Slot}
    (hn : n ∈ tm.arrListTimer s) (hd : n.due < 2 ^ 32) : s ∈ Wheel.allSlots := by
  obtain ⟨-, hp⟩ := h.expires hn hd
  rw [hp.slot]
  exact Wheel.mem_allSlots.2 (Nat.mod_lt _ (by unfold Wheel.slots; split <;> norm_num))

/-- **`create_timer`** for the current task, which is not one of those that sleep. -/
theorem Wheeled.createTimer {K : Dozing} {u : World} (h : Wheeled K u.tm)
    (hmark : u.sched.current.isCollaborativeSchedule = true) (hcur : ¬ K.Task u.sched.currentTask)
    (hd : u.sched.current.sleepMillisecond < 2 ^ 32) :
    Wheeled (K.nap u u.tm.uJiffies) (Wheel.createTimer u.tm u.nodes
      (.collaborativeScheduleHelper u.sched.currentTask) u.sched.current.sleepMillisecond 0) := by
  have hnew : Wheel.newTimer u.tm u.nodes (.collaborativeScheduleHelper u.sched.currentTask)
      u.sched.current.sleepMillisecond 0 = napTimer u u.tm.uJiffies := rfl
  have hsound := h.sound.createTimer u.nodes (.collaborativeScheduleHelper u.sched.currentTask) hd
    (p := 0) (by norm_num)
  have hlinked : (Wheel.createTimer u.tm u.nodes (.collaborativeScheduleHelper u.sched.currentTask)
      u.sched.current.sleepMillisecond 0).linked = napTimer u u.tm.uJiffies ::ₘ u.tm.linked := by
    unfold Wheel.createTimer
    rw [Wheel.addTimer_linked, hnew]
  have hj : (Wheel.createTimer u.tm u.nodes (.collaborativeScheduleHelper u.sched.currentTask)
      u.sched.current.sleepMillisecond 0).uJiffies = u.tm.uJiffies := by
    unfold Wheel.createTimer
    rw [Wheel.addTimer_uJiffies]
  refine ⟨hsound, fun n hn t ht => ?_, ?_, ?_⟩
  · rw [hlinked, Multiset.mem_cons] at hn
    rcases hn with rfl | hn
    · have heq : TimerFn.collaborativeScheduleHelper u.sched.currentTask = .collaborativeScheduleHelper t := ht
      cases heq
      exact ⟨_, Or.inr ⟨hmark, rfl, rfl, rfl⟩⟩
    · obtain ⟨τ, hK⟩ := h.known n hn t ht
      exact ⟨τ, Or.inl hK⟩
  · rintro t n τ (hK | ⟨-, rfl, rfl, rfl⟩)
    · obtain ⟨hn, ht, hperiod, hdue⟩ := h.holds t n τ hK
      refine ⟨by rw [hlinked, Multiset.mem_cons]; exact Or.inr hn, ht, hperiod, fun s hs => ?_⟩
      rw [hj]
      rcases Wheel.mem_addTimer.1 hs with hs | ⟨rfl, -⟩
      · exact hdue s hs
      · have heq : TimerFn.collaborativeScheduleHelper u.sched.currentTask = .collaborativeScheduleHelper t := ht
        cases heq
        exact absurd ⟨_, _, hK⟩ hcur
    · refine ⟨by rw [hlinked]; exact Multiset.mem_cons_self _ _, rfl, rfl, fun s hs => ?_⟩
      have hunique := dueAt_unique hsound (pHead u.tm.uJiffies (napTimer u u.tm.uJiffies).uExpires) hs
      rw [hj] at hunique ⊢
      refine hunique fun hdue => ?_
      rcases Wheel.mem_addTimer.1 hs with hold | ⟨-, rfl⟩
      · -- no timer of this task hung in the wheel before
        have hlinked' := Wheel.mem_linked.2 ⟨s, slot_mem h.sound hold hdue, hold⟩
        obtain ⟨τ, hK⟩ := h.known _ hlinked' u.sched.currentTask rfl
        exact absurd ⟨_, _, hK⟩ hcur
      · rfl
  · rintro t n m τ τ' (hK | ⟨-, rfl, rfl, rfl⟩) (hK' | ⟨-, ht', rfl, rfl⟩)
    · exact h.one t n m τ τ' hK hK'
    · rw [ht'] at hK
      exact absurd ⟨_, _, hK⟩ hcur
    · exact absurd ⟨_, _, hK'⟩ hcur
    · rfl

/-! ## The two handlers while nobody is woken -/

/-- The queue of the scheduler: the sleepers rest, and the others wait their turn, unmarked. -/
structure Lined (K : Dozing) (log₀ : List Event) (s : Sched) : Prop where
  tame : Tame s
  resting : Resting K.Task log₀ s
  distinct : (s.currentTask :: s.taskReadyList).Nodup
  unmarked : ∀ t ∈ s.taskReadyList, s.marked t = false

/-- The tasks of `K` sleep, and none of them has been returned since the log was `log₀`.  A task that has asked
to sleep is the one that was running then. -/
structure Keeps (K : Dozing) (log₀ : List Event) (u : World) : Prop where
  managed : Managed u
  wheel : Wheeled K u.tm
  line : Lined K log₀ u.sched
  asked : u.sched.current.isCollaborativeSchedule = true →
    u.sched.log = log₀ ∧ u.sched.current.sleepMillisecond < 2 ^ 32

section keeps

variable {K : Dozing} {log₀ : List Event} {s : Sched} {u : World} {r : Nat}

/-- The head of an unmarked queue is next. -/
theorem getNextTask_unmarked (hdistinct : s.taskReadyList.Nodup)
    (hunmarked : ∀ t ∈ s.taskReadyList, s.marked t = false) :
    Returns (getNextTask s) fun s' => (s'.currentTask :: s'.taskReadyList).Nodup ∧
      (∀ t ∈ s'.taskReadyList, s'.marked t = false) ∧ s'.marked s'.currentTask = false := by
  unfold getNextTask
  cases hr : s.taskReadyList with
  | nil => exact Returns.error
  | cons next rest =>
      rw [hr] at hdistinct hunmarked
      have hmarked : ∀ t ∈ next :: rest,
          (({ s with taskReadyList := rest }).modTask next fun task => { task with status := .RUNNING }).marked t =
            false := by
        intro t ht
        by_cases hne : t = next
        · subst hne
          simpa [Sched.marked, Sched.modTask] using hunmarked t ht
        · simpa [Sched.marked, Sched.modTask, Function.update_of_ne hne] using hunmarked t ht
      refine Returns.pure ⟨hdistinct, fun t ht => hmarked t (List.mem_cons_of_mem _ ht), ?_⟩
      exact hmarked next List.mem_cons_self

/-- The current task, not marked, goes to the end of the queue. -/
theorem Lined.schedule (h : Lined K log₀ s) (hcur : s.marked s.currentTask = false) :
    Returns (schedule s) fun s' => Lined K log₀ s' ∧ s'.marked s'.currentTask = false := by
  have hqueue : Returns (ThreadSched.schedule s) fun s' => (s'.currentTask :: s'.taskReadyList).Nodup ∧
      (∀ t ∈ s'.taskReadyList, s'.marked t = false) ∧ s'.marked s'.currentTask = false := by
    refine returns_assertThat fun _ => Returns.ite (fun _ => Returns.error) fun _ => ?_
    apply getNextTask_unmarked
    · show (s.taskReadyList ++ [s.currentTask]).Nodup
      exact (List.perm_append_singleton _ _).nodup_iff.2 h.distinct
    · intro t ht
      have hold : s.marked t = false := by
        rcases List.mem_append.1 ht with ht | ht
        · exact h.unmarked t ht
        · rw [List.mem_singleton.1 ht]
          exact hcur
      by_cases hne : t = s.currentTask
      · subst hne
        simpa [Sched.marked, Sched.modTask, Sched.emit] using hold
      · simpa [Sched.marked, Sched.modTask, Sched.emit, Function.update_of_ne hne] using hold
  refine ((h.tame.schedule.and h.resting.schedule).and hqueue).imp ?_
  rintro s' ⟨⟨htame, hrest⟩, hdistinct, hunmarked, hcur'⟩
  exact ⟨⟨htame, hrest, hdistinct, hunmarked⟩, hcur'⟩

/-- The current task rests too. -/
theorem Lined.collaborativeSchedule (h : Lined K log₀ s) (hlog : s.log = log₀) {K' : Dozing}
    (hK : ∀ t, K'.Task t → K.Task t ∨ t = s.currentTask) :
    Returns (collaborativeSchedule s) fun s' => Lined K' log₀ s' ∧ s'.marked s'.currentTask = false := by
  obtain ⟨hnotReady, hnodup⟩ := List.nodup_cons.1 h.distinct
  have hrest : Returns (ThreadSched.collaborativeSchedule s) (Resting K'.Task log₀) := by
    refine Returns.ite (fun _ => Returns.error) fun _ => ?_
    unfold ThreadSched.getNextTask
    cases hr : s.taskReadyList with
    | nil => exact Returns.error
    | cons next rest =>
        have hnot : ∀ t, K'.Task t → t ∉ next :: rest := by
          intro t ht
          rw [← hr]
          rcases hK t ht with ht | rfl
          · exact h.resting.notReady t ht
          · exact hnotReady
        refine Returns.pure ⟨?_, fun t ht hmem => hnot t ht (List.mem_cons_of_mem _ hmem), [.dispatch next], ?_, ?_⟩
        · rintro t ht rfl
          exact hnot t ht List.mem_cons_self
        · show s.log ++ _ = _
          rw [hlog]
        · simp
  have hqueue : Returns (ThreadSched.collaborativeSchedule s) fun s' =>
      (s'.currentTask :: s'.taskReadyList).Nodup ∧ (∀ t ∈ s'.taskReadyList, s'.marked t = false) ∧
        s'.marked s'.currentTask = false :=
    Returns.ite (fun _ => Returns.error) fun _ => getNextTask_unmarked hnodup h.unmarked
  refine ((h.tame.collaborativeSchedule.and hrest).and hqueue).imp ?_
  rintro s' ⟨⟨htame, hrest⟩, hdistinct, hunmarked, hcur'⟩
  exact ⟨⟨htame, hrest, hdistinct, hunmarked⟩, hcur'⟩

theorem Keeps.current_not (h : Keeps K log₀ u) : ¬ K.Task u.sched.currentTask :=
  fun hK => h.line.resting.notCurrent _ hK rfl

/-- Either handler ends so if the current task has not asked to sleep. -/
theorem Keeps.schedule (h : Keeps K log₀ u) (hcur : u.sched.current.isCollaborativeSchedule = false) :
    Returns (ThreadSched.schedule u.sched >>= fun s => pure { u with sched := s })
      fun v => Keeps K log₀ v ∧ v.sched.current.isCollaborativeSchedule = false := by
  refine (h.line.schedule hcur).bind ?_
  rintro s ⟨hs, hunmarked⟩
  refine Returns.pure ⟨⟨⟨h.managed.freed, h.managed.exitFlag⟩, h.wheel, hs, fun hmark => ?_⟩, hunmarked⟩
  exact absurd (hunmarked.symm.trans hmark) Bool.false_ne_true

/-- Either handler ends so if it has. -/
theorem Keeps.sleep (h : Keeps K log₀ u) (hmark : u.sched.current.isCollaborativeSchedule = true) :
    Returns (u.createTimer (.collaborativeScheduleHelper u.sched.currentTask)
        u.sched.current.sleepMillisecond 0 >>= fun v => do
          let s ← collaborativeSchedule v.sched
          pure { v with sched := s })
      fun v => Keeps (K.nap u u.tm.uJiffies) log₀ v ∧ v.sched.current.isCollaborativeSchedule = false := by
  obtain ⟨hlog, hdelay⟩ := h.asked hmark
  have hK : ∀ t, (K.nap u u.tm.uJiffies).Task t → K.Task t ∨ t = u.sched.currentTask := by
    rintro t ⟨n, τ, hK | ⟨-, ht, -⟩⟩
    · exact Or.inl ⟨n, τ, hK⟩
    · exact Or.inr ht
  refine returns_createTimer h.line.tame.timer ?_
  refine (h.line.collaborativeSchedule hlog hK).bind ?_
  rintro s ⟨hs, hunmarked⟩
  have hwheel := h.wheel.createTimer hmark h.current_not hdelay
  refine Returns.pure ⟨⟨⟨h.managed.freed, hwheel.sound.exitFlag⟩, hwheel, hs, fun hmark' => ?_⟩, hunmarked⟩
  exact absurd (hunmarked.symm.trans hmark') Bool.false_ne_true

/-- **The handler of `Thread`** wakes nobody. -/
theorem Keeps.threadHandler (h : Keeps K log₀ u) : Returns (Thread.interruptTimerHandler u) fun v =>
    Keeps (K.nap u u.tm.uJiffies) log₀ v ∧ v.sched.current.isCollaborativeSchedule = false := by
  refine returns_assertThat fun _ => Returns.ite (fun hcur => ?_) fun hmark => ?_
  · rw [Dozing.nap_of_unmarked hcur]
    exact h.schedule hcur
  · exact h.sleep (by simpa using hmark)

/-- `run_timer` is its loop between the two operations of the lock. -/
theorem runTimer_of_loop (h : Tame u.sched) {P : TimerManager TimerFn × Sched → Prop}
    (hloop : Returns (Wheel.runTimer timerCall .hang r
      (u.tm, u.sched.modLock .timer fun _ => heldBy u.sched.currentTask)) P) :
    Returns (u.runTimer r) fun v => v.freed = u.freed ∧ v.nodes = u.nodes ∧
      ∃ s, P (v.tm, s) ∧ v.sched = { s with locks := u.sched.locks } := by
  unfold World.runTimer
  rw [lockAcquireNow_eq h.timer, ok_bind]
  refine Returns.bind (hloop.and (runTimerLoop_undisturbed r _ _)) ?_
  rintro ⟨tm, s⟩ ⟨hp, hu⟩
  show Returns (lockRelease .timer s >>= _) _
  rw [withLock_eq h.timer s hu.locks hu.current]
  exact Returns.pure ⟨rfl, rfl, s, hp, rfl⟩

theorem Lined.untouched (h : Lined K log₀ s) {s' : Sched} (hs : Untouched s s') (ht : Tame s') :
    Lined K log₀ s' := by
  refine ⟨ht, h.resting.of_eq hs.current hs.ready hs.log, ?_, fun t hmem => ?_⟩
  · rw [hs.current, hs.ready]
    exact h.distinct
  · rw [hs.ready] at hmem
    rw [Sched.marked, hs.tasks]
    exact h.unmarked t hmem

/-- The clock of the wheel after a call with reading `r`. -/
theorem Keeps.advance (h : Keeps K log₀ u) (hnone : ∀ t n τ, K t n τ → r < τ) :
    Returns (u.advance r) fun v => Keeps K log₀ v ∧ Untouched u.sched v.sched ∧ v.nodes = u.nodes ∧
      v.tm.uJiffies = max u.tm.uJiffies (r + 1) := by
  intro v hv
  obtain ⟨hend, hlt⟩ := h.managed.ends h.wheel.sound.jiffies v hv
  have htame := h.line.tame.advance r v hv
  rw [h.managed.advance r] at hv
  obtain ⟨hfreed, hnodes, s, ⟨hwheel, hs⟩, heq⟩ := runTimer_of_loop h.line.tame
    (h.wheel.runTimerLoop hnone (by omega) _ _) v hv
  have huntouched : Untouched u.sched v.sched := by
    rw [heq]
    exact ⟨hs.tasks, hs.current, hs.ready, hs.log⟩
  have hcurrent : v.sched.current = u.sched.current := by
    unfold Sched.current
    rw [huntouched.tasks, huntouched.current]
  refine ⟨⟨⟨hfreed.trans h.managed.freed, hwheel.sound.exitFlag⟩, hwheel, h.line.untouched huntouched htame, ?_⟩,
    huntouched, hnodes, hend⟩
  rw [hcurrent, huntouched.log]
  exact h.asked

/-- **The handler of `User_Schedule`** wakes nobody before the timers are due. -/
theorem Keeps.handler (h : Keeps K log₀ u) (hnone : ∀ t n τ, K t n τ → r < τ) :
    Returns (interruptTimerHandler r u) fun v => Keeps (K.nap u (max u.tm.uJiffies (r + 1))) log₀ v ∧
      v.sched.current.isCollaborativeSchedule = false := by
  refine returns_assertThat fun _ => (h.advance hnone).bind ?_
  rintro m ⟨hm, huntouched, hnodes, hj⟩
  have hcurrent : m.sched.current = u.sched.current := by
    unfold Sched.current
    rw [huntouched.tasks, huntouched.current]
  have hnap : K.nap u (max u.tm.uJiffies (r + 1)) = K.nap m m.tm.uJiffies := by
    unfold Dozing.nap napDue napTimer
    rw [hcurrent, huntouched.current, hnodes, hj]
  rw [hnap]
  refine Returns.ite (fun hz => ?_) fun _ => Returns.ite (fun hcur => ?_) fun hmark => ?_
  · rw [Dozing.nap_of_unmarked hz.1]
    exact hm.schedule hz.1
  · rw [Dozing.nap_of_unmarked hcur]
    have hmarked : ∀ t, m.sched.countDown.marked t = m.sched.marked t := by
      intro t
      by_cases hne : t = m.sched.currentTask
      · subst hne
        simp [Sched.marked, Sched.countDown, Sched.modTask]
      · simp [Sched.marked, Sched.countDown, Sched.modTask, Function.update_of_ne hne]
    have hunmarked : m.sched.countDown.marked m.sched.currentTask = false := (hmarked _).trans hcur
    refine Returns.pure ⟨⟨⟨hm.managed.freed, hm.managed.exitFlag⟩, hm.wheel, ?_, fun hmark => ?_⟩, hunmarked⟩
    · exact ⟨hm.line.tame.of rfl rfl fun _ _ => Or.inl, hm.line.resting.of_eq rfl rfl rfl, hm.line.distinct,
        fun t ht => (hmarked t).trans (hm.line.unmarked t ht)⟩
    · exact absurd (hunmarked.symm.trans hmark) Bool.false_ne_true
  · exact hm.sleep (by simpa using hmark)

end keeps

/-! ## Sleepers that fall due -/

/-- `t` has been put on the ready list since `s₀`. -/
def ReturnedSince (t : TaskId) (s₀ s : Sched) : Prop :=
  ∃ es, s.log = s₀.log ++ es ∧ ∃ via, Event.ready t via ∈ es

section due

variable {s s' s'' : Sched} {t : TaskId}

theorem ReturnedSince.grown (h : ReturnedSince t s s') (hg : Grown s' s'') : ReturnedSince t s s'' := by
  obtain ⟨es, hes, via, hvia⟩ := h
  obtain ⟨es', hes'⟩ := hg
  exact ⟨es ++ es', by rw [hes', hes, List.append_assoc], via, List.mem_append_left _ hvia⟩

theorem Grown.returned (hg : Grown s s') (h : ReturnedSince t s' s'') : ReturnedSince t s s'' := by
  obtain ⟨es, hes⟩ := hg
  obtain ⟨es', hes', via, hvia⟩ := h
  exact ⟨es ++ es', by rw [hes', hes, List.append_assoc], via, List.mem_append_right _ hvia⟩

theorem timerCall_returns (n : TimerNode TimerFn) (j : Nat) (s : Sched) :
    Returns (timerCall n j s) fun s' => Grown s s' ∧
      ∀ t, n.timer = .collaborativeScheduleHelper t → ReturnedSince t s s' := by
  have hput : Returns (timerCall n j s) fun s' =>
      ∀ t, n.timer = .collaborativeScheduleHelper t → ReturnedSince t s s' := by
    unfold timerCall
    cases htimer : n.timer with
    | collaborativeScheduleHelper u =>
        refine returns_assertThat fun _ => Returns.pure ?_
        intro t ht
        cases ht
        exact ⟨_, rfl, _, List.mem_singleton_self _⟩
    | cleanDeadTask =>
        intro s' _ t ht
        cases ht
  exact ((timerCall_called s n j).and hput).imp fun s' hs' => ⟨hs'.1.grown, hs'.2⟩

theorem foldlM_timerCall_returns (j : Nat) (l : List (TimerNode TimerFn)) (s : Sched) :
    Returns (l.foldlM (fun s n => timerCall n j s) s) fun s' => Grown s s' ∧
      ∀ n ∈ l, ∀ t, n.timer = .collaborativeScheduleHelper t → ReturnedSince t s s' := by
  induction l generalizing s with
  | nil => exact Returns.pure ⟨⟨[], (List.append_nil _).symm⟩, nofun⟩
  | cons n l ih =>
      rw [List.foldlM_cons]
      refine (timerCall_returns n j s).bind ?_
      rintro s₁ ⟨hg, hn⟩
      refine (ih s₁).imp ?_
      rintro s' ⟨hg', hl⟩
      refine ⟨hg.trans hg', ?_⟩
      intro m hm t ht
      rcases List.mem_cons.1 hm with rfl | hm
      · exact (hn t ht).grown hg'
      · exact hg.returned (hl m hm t ht)

theorem runTick_returns (tm : TimerManager TimerFn) (s : Sched) :
    Returns (Wheel.runTick timerCall (tm, s)) fun v => v.1 = tickWheel tm ∧ Grown s v.2 ∧
      ∀ n ∈ tickNodes tm, ∀ t, n.timer = .collaborativeScheduleHelper t → ReturnedSince t s v.2 := by
  rw [Wheel.runTick_eq]
  intro v hv
  cases hf : (tickNodes tm).foldlM (fun s n => timerCall n tm.uJiffies s) s with
  | error e =>
      rw [hf] at hv
      cases hv
  | ok s' =>
      rw [hf] at hv
      cases hv
      exact ⟨rfl, foldlM_timerCall_returns _ _ s s' hf⟩

/-- **The loop of `run_timer` calls every timer it reaches.** -/
theorem runTimerLoop_returns {r : Nat} (hr : r < 2 ^ 32) (fuel : Nat) (tm : TimerManager TimerFn) (s : Sched) :
    Returns (Wheel.runTimerLoop timerCall .hang r fuel (tm, s)) fun v => Grown s v.2 ∧
      ∀ i, tm.uJiffies + i ≤ r → ∀ n ∈ tickNodes (tickWheel^[i] tm), ∀ t,
        n.timer = .collaborativeScheduleHelper t → ReturnedSince t s v.2 := by
  induction fuel generalizing tm s with
  | zero => exact Returns.error
  | succ fuel ih =>
      refine Returns.ite (fun _ => ?_) fun hlt => Returns.ok ⟨⟨[], (List.append_nil _).symm⟩, ?_⟩
      · refine (runTick_returns tm s).bind ?_
        rintro ⟨tm', s₁⟩ ⟨rfl, hg, htick⟩
        refine (ih _ s₁).imp ?_
        rintro v ⟨hg', hlater⟩
        refine ⟨hg.trans hg', ?_⟩
        intro i hi n hn t ht
        cases i with
        | zero => exact (htick n hn t ht).grown hg'
        | succ i =>
            have hj : (tickWheel tm).uJiffies = tm.uJiffies + 1 := by
              rw [Wheel.tickWheel_uJiffies, Wheel.u32_of_lt (by omega)]
            rw [Function.iterate_succ_apply] at hn
            exact hg.returned (hlater i (by omega) n hn t ht)
      · intro i hi
        exfalso
        unfold Wheel.TIME_AFTER_EQ at hlt
        simp only at hlt
        omega

/-- The sleepers that a call with reading `r` finds due in the wheel of `u` have been returned in `s`. -/
def ReturnsDue (u : World) (r : Nat) (s : Sched) : Prop :=
  ∀ i, u.tm.uJiffies + i ≤ r → ∀ n ∈ tickNodes (tickWheel^[i] u.tm), ∀ t,
    n.timer = .collaborativeScheduleHelper t → ReturnedSince t u.sched s

/-- **The handler of `User_Schedule`** returns the sleepers that fall due. -/
theorem returnsDue_handler {u : World} (ht : Tame u.sched) (hm : Managed u) {r : Nat} (hr : r < 2 ^ 32) :
    Returns (interruptTimerHandler r u) fun v => ReturnsDue u r v.sched := by
  have hadvance : Returns (u.advance r) fun v => ReturnsDue u r v.sched := by
    rw [hm.advance r]
    refine (runTimer_of_loop ht (runTimerLoop_returns hr _ _ _)).imp ?_
    rintro v ⟨-, -, s, ⟨-, hdue⟩, hs⟩ i hi n hn t htimer
    obtain ⟨es, hes, hvia⟩ := hdue i hi n hn t htimer
    exact ⟨es, by rw [hs]; exact hes, hvia⟩
  -- the switch only adds to the log
  have hlater : ∀ {s s'}, ReturnsDue u r s → Quiet none s s' → ReturnsDue u r s' :=
    fun hs hq i hi n hn t htimer => (hs i hi n hn t htimer).grown hq.grown
  refine returns_assertThat fun _ => (hadvance.and (ht.advance r)).bind ?_
  rintro v ⟨hv, htv⟩
  refine Returns.ite (fun _ => ?_) fun _ => Returns.ite (fun _ => ?_) fun _ => ?_
  · exact (schedule_quiet v.sched).bind fun s hs => Returns.pure (hlater hv hs)
  · exact Returns.pure (hlater hv (countDown_quiet v.sched))
  · refine returns_createTimer htv.timer ?_
    exact (collaborativeSchedule_quiet v.sched).bind fun s hs => Returns.pure (hlater hv hs)

end due

/-! ## Runs of the two handlers -/

/-- The tasks that sleep in `w`. -/
def dozing (w : World) : Dozing := fun t n τ =>
  Asleep w t n ∧ ∃ s, n ∈ w.tm.arrListTimer s ∧ τ = dueAt w.tm.uJiffies s n.uExpires

section runs

variable {K : Dozing} {log₀ : List Event} {w u v : World} {rs : List Nat} {r r₁ j : Nat} {t : TaskId}
  {n : TimerNode TimerFn} {τ : Nat}

theorem Keeps.start (hw : Started w) : Keeps (dozing w) w.sched.log w := by
  refine ⟨hw.managed, ⟨hw.sound, fun n hn t ht => ?_, ?_, ?_⟩, ⟨hw.tame, ?_, hw.distinct, hw.unmarked⟩,
    fun _ => ⟨rfl, hw.delay⟩⟩
  · obtain ⟨s, -, hs⟩ := Wheel.mem_linked.1 hn
    exact ⟨_, (hw.sleepers n hn t ht).2, s, hs, rfl⟩
  · rintro t n τ ⟨hasleep, s, hs, rfl⟩
    have hn := pending_iff.1 hasleep.pending
    refine ⟨hn, hasleep.timer, (hw.sleepers n hn t hasleep.timer).1, fun s' hs' => ?_⟩
    exact dueAt_unique hw.sound s hs' fun hd => hw.once n t hasleep.timer s' (slot_mem hw.sound hs' hd) s
      (slot_mem hw.sound hs hd) hs' hs
  · rintro t n m τ τ' ⟨hn, -⟩ ⟨hm, -⟩
    exact hm.only n hn.pending hn.timer
  · exact ⟨fun t ⟨_, _, hn, _⟩ => hn.notCurrent, fun t ⟨_, _, hn, _⟩ => hn.notReady, [],
      (List.append_nil _).symm, fun _ _ _ => List.not_mem_nil⟩

/-- A task of `K` sleeps. -/
theorem Keeps.asleep (h : Keeps K log₀ u) (hK : K t n τ) : Asleep u t n := by
  obtain ⟨hn, ht, -, -⟩ := h.wheel.holds t n τ hK
  refine ⟨h.line.resting.notCurrent t ⟨n, τ, hK⟩, h.line.resting.notReady t ⟨n, τ, hK⟩, ht, pending_iff.2 hn, ?_⟩
  intro m hm hmt
  obtain ⟨τ', hK'⟩ := h.wheel.known m (pending_iff.1 hm) t hmt
  exact h.wheel.one t m n τ' τ hK' hK

/-- No other does. -/
theorem Keeps.dozes (h : Keeps K log₀ u) (hn : Asleep u t n) : ∃ τ, K t n τ :=
  h.wheel.known n (pending_iff.1 hn.pending) t hn.timer

theorem Keeps.not_returned (h : Keeps K w.sched.log u) (hK : K t n τ) : ¬ Returned w u t :=
  ThreadSched.not_returned h.line.resting ⟨n, τ, hK⟩

/-- A task of `K` is returned in `User_Schedule` by the call whose reading reaches its timer. -/
theorem Keeps.returned (h : Keeps K w.sched.log u) (hK : K t n τ) (hd : n.due < 2 ^ 32) (hτ : τ ≤ r)
    (hr : r < 2 ^ 32) : Returns (interruptTimerHandler r u) fun v => Returned w v t := by
  intro v hv
  obtain ⟨m, hm⟩ := exists_advance hv
  obtain ⟨hend, hlt⟩ := h.managed.ends h.wheel.sound.jiffies m hm
  obtain ⟨hn, ht, hperiod, hdue⟩ := h.wheel.holds t n τ hK
  obtain ⟨i, hi, hmem⟩ := Wheel.exists_tickNodes h.wheel.sound hn hperiod hd hdue hτ (by omega)
  have hreturned := returnsDue_handler h.line.tame h.managed hr v hv i hi n hmem t ht
  obtain ⟨es₀, hes₀, -⟩ := h.line.resting.log
  have hgrown : Grown w.sched u.sched := ⟨es₀, hes₀⟩
  obtain ⟨es, hes, via, hvia⟩ := hgrown.returned hreturned
  refine ⟨via, ?_⟩
  rw [hes, List.drop_left]
  exact hvia

/-- Calls of the handler of `Thread` after the first. -/
theorem Keeps.threadRun (h : Keeps K log₀ u) (hcur : u.sched.current.isCollaborativeSchedule = false)
    (rs : List Nat) : Returns (Thread.handlerRun rs u) (Keeps K log₀) := by
  induction rs generalizing u with
  | nil => exact Returns.pure h
  | cons r rs ih =>
      have hcall := h.threadHandler
      rw [Dozing.nap_of_unmarked hcur] at hcall
      exact hcall.bind fun v hv => ih hv.1 hv.2

/-- Calls of the handler of `User_Schedule` after the first, before the timers are due. -/
theorem Keeps.run (h : Keeps K log₀ u) (hcur : u.sched.current.isCollaborativeSchedule = false)
    (hnone : ∀ r ∈ rs, ∀ t n τ, K t n τ → r < τ) : Returns (handlerRun rs u) (Keeps K log₀) := by
  induction rs generalizing u with
  | nil => exact Returns.pure h
  | cons r rs ih =>
      have hcall := h.handler (hnone r List.mem_cons_self)
      rw [Dozing.nap_of_unmarked hcur] at hcall
      exact hcall.bind fun v hv => ih hv.1 hv.2 fun r' hr' => hnone r' (List.mem_cons_of_mem _ hr')

/-- **`Thread` wakes nobody.** -/
theorem Started.threadRun (hw : Started w) (r₁ : Nat) (rs : List Nat) :
    Returns (Thread.handlerRun (r₁ :: rs) w) (Keeps ((dozing w).nap w w.tm.uJiffies) w.sched.log) :=
  (Keeps.start hw).threadHandler.bind fun _ hu => hu.1.threadRun hu.2 rs

/-- **`User_Schedule` wakes nobody** before the timers are due. -/
theorem Started.run (hw : Started w) (hasleep : ∀ r ∈ r₁ :: rs, ∀ t n τ, dozing w t n τ → r < τ)
    (hnap : ∀ r ∈ rs, w.sched.current.isCollaborativeSchedule = true →
      r < napDue w (max w.tm.uJiffies (r₁ + 1))) :
    Returns (handlerRun (r₁ :: rs) w)
      (Keeps ((dozing w).nap w (max w.tm.uJiffies (r₁ + 1))) w.sched.log) := by
  refine ((Keeps.start hw).handler (hasleep r₁ List.mem_cons_self)).bind fun u hu => hu.1.run hu.2 ?_
  rintro r hr t n τ (hK | ⟨hmark, -, -, rfl⟩)
  · exact hasleep r (List.mem_cons_of_mem _ hr) t n τ hK
  · exact hnap r hr hmark

/-! ## When the trees wake alike -/

theorem NotYet.dozing (h : NotYet w r₁ r) : ∀ t n τ, dozing w t n τ → r < τ := by
  rintro t n τ ⟨hn, s, hs, rfl⟩
  exact h.asleep t n hn s hs

/-- The readings of a run of both trees are all before the timers are due. -/
theorem NoneDue.notYet (h : NoneDue w rs) (hu : handlerRun rs w = .ok u) (hv : Thread.handlerRun rs w = .ok v)
    (hr : r ∈ rs) : NotYet w (rs.headD 0) r := by
  obtain ⟨ps, qs, rfl⟩ := List.append_of_mem hr
  have hsplit : ps ++ r :: qs = (ps ++ [r]) ++ qs := by simp
  have hhead : (ps ++ r :: qs).headD 0 = (ps ++ [r]).headD 0 := by cases ps <;> rfl
  rw [hsplit] at hu hv
  obtain ⟨u', hu', -⟩ := foldlM_append_eq_ok.1 hu
  obtain ⟨v', hv', -⟩ := foldlM_append_eq_ok.1 hv
  rw [hhead]
  exact h ps r (hsplit ▸ List.prefix_append _ _) ⟨u', hu'⟩ ⟨v', hv'⟩

theorem napDue_of_lt (h : (napTimer w j).uExpires < j) : napDue w j = (napTimer w j).uExpires :=
  Wheel.dueAt_of_lt h

/-- Where an expiry that wraps lies. -/
theorem napTimer_wrapped (hd : 2 ^ 32 ≤ (napTimer w j).due) :
    (napTimer w j).uExpires + 2 ^ 32 ≤ j + w.sched.current.sleepMillisecond := by
  have hdue : (napTimer w j).due = j + w.sched.current.sleepMillisecond := by
    simp only [napTimer, Wheel.newTimer, TimerManager.empty]
  have hexp : (napTimer w j).uExpires = u32 (napTimer w j).due := Wheel.newTimer_stored _ _ _ _ _
  rw [hexp, hdue]
  unfold u32
  omega

theorem lt_napDue (h : r < (napTimer w (max j (r + 1))).uExpires) : r < napDue w (max j (r + 1)) := by
  have he : (napTimer w (max j (r + 1))).uExpires < 2 ^ 32 := Wheel.u32_lt _
  unfold napDue
  by_cases hlt : (napTimer w (max j (r + 1))).uExpires < max j (r + 1)
  · rw [Wheel.dueAt_of_lt hlt]
    exact h
  · rw [Wheel.dueAt_of_le (Nat.not_lt.1 hlt)]
    have hplaced := (Wheel.placed_pHead (Nat.not_lt.1 hlt) he).le_callTick
    omega

/-- If the trees are alike after a call, its reading is before the timers of the first sleepers are due: otherwise
that of `User_Schedule` is called, or the reading is past it in `Thread`. -/
theorem AlikeAfter.dozing_lt (hal : AlikeAfter w rs r u v) (hw : Started w) {u₀ : World}
    (h₀ : Keeps K w.sched.log u₀) (hK : K t n τ) (hu : interruptTimerHandler r u₀ = .ok u) {K' : Dozing}
    (hv : Keeps K' w.sched.log v) (hK' : K' t n τ) (hn : dozing w t n τ) (hr : r < 2 ^ 32) : r < τ := by
  by_contra hτ
  by_cases hd : n.due < 2 ^ 32
  · have huser := h₀.returned hK hd (Nat.not_lt.1 hτ) hr u hu
    have hslept : Slept handlerRun w rs t := ⟨[], w, n, List.nil_prefix, rfl, hn.1⟩
    exact hv.not_returned hK' ((hal.returned t (Or.inl hslept)).1 huser)
  · obtain ⟨-, s, hs, rfl⟩ := hn
    rw [Wheel.dueAt_of_lt ((hw.sound.wrapped s n hs).2 (Nat.not_lt.1 hd))] at hτ
    exact hτ (hal.thread t n (hv.asleep hK'))

/-- The first call. -/
theorem AlikeAfter.first (hal : AlikeAfter w [r] r u v) (hw : Started w) (hu : interruptTimerHandler r w = .ok u)
    (hv : Thread.interruptTimerHandler w = .ok v) (hr : r < 2 ^ 32) : NotYet w r r := by
  have hthread := (Keeps.start hw).threadHandler v hv
  have hdozing : ∀ t n τ, dozing w t n τ → r < τ := fun t n τ hn =>
    hal.dozing_lt hw (Keeps.start hw) hn hu hthread.1 (Or.inl hn) hn hr
  have huser := (Keeps.start hw).handler hdozing u hu
  refine ⟨fun t n hn s hs => hdozing t n _ ⟨hn, s, hs, rfl⟩, fun hmark => ?_, fun hmark => ?_⟩
  · exact hal.thread _ _ (hthread.1.asleep (Or.inr ⟨hmark, rfl, rfl, rfl⟩))
  · exact lt_napDue (hal.user _ _ (huser.1.asleep (Or.inr ⟨hmark, rfl, rfl, rfl⟩)))

/-- A later call. -/
theorem AlikeAfter.later (hal : AlikeAfter w (r₁ :: rs ++ [r]) r u v) (hw : Started w)
    (hnot : ∀ r ∈ r₁ :: rs, NotYet w r₁ r) {u₀ : World} (hu₀ : handlerRun (r₁ :: rs) w = .ok u₀)
    (hu : interruptTimerHandler r u₀ = .ok u) (hv : Thread.handlerRun (r₁ :: rs ++ [r]) w = .ok v)
    (hr : r < 2 ^ 32) : NotYet w r₁ r := by
  have h₀ := hw.run (fun r hr => (hnot r hr).dozing)
    (fun r hr hmark => (hnot r (List.mem_cons_of_mem _ hr)).user hmark) u₀ hu₀
  have hthread := hw.threadRun r₁ (rs ++ [r]) v hv
  refine ⟨fun t n hn s hs => ?_, fun hmark => ?_, fun hmark => ?_⟩
  · have hdozing : dozing w t n (dueAt w.tm.uJiffies s n.uExpires) := ⟨hn, s, hs, rfl⟩
    exact hal.dozing_lt hw h₀ (Or.inl hdozing) hu hthread (Or.inl hdozing) hdozing hr
  · exact hal.thread _ _ (hthread.asleep (Or.inr ⟨hmark, rfl, rfl, rfl⟩))
  · have hnap : ((dozing w).nap w (max w.tm.uJiffies (r₁ + 1))) w.sched.currentTask
        (napTimer w (max w.tm.uJiffies (r₁ + 1))) (napDue w (max w.tm.uJiffies (r₁ + 1))) :=
      Or.inr ⟨hmark, rfl, rfl, rfl⟩
    by_contra hτ
    by_cases hd : (napTimer w (max w.tm.uJiffies (r₁ + 1))).due < 2 ^ 32
    · have hreturned := h₀.returned hnap hd (Nat.not_lt.1 hτ) hr u hu
      have hslept : Slept handlerRun w (r₁ :: rs ++ [r]) w.sched.currentTask :=
        ⟨r₁ :: rs, u₀, _, List.prefix_append _ _, hu₀, h₀.asleep hnap⟩
      have hthreadNap : ((dozing w).nap w w.tm.uJiffies) w.sched.currentTask (napTimer w w.tm.uJiffies)
          (napDue w w.tm.uJiffies) := Or.inr ⟨hmark, rfl, rfl, rfl⟩
      exact hthread.not_returned hthreadNap ((hal.returned _ (Or.inl hslept)).1 hreturned)
    · have hwrapped := napTimer_wrapped (Nat.not_lt.1 hd)
      have hdelay := hw.delay
      have hbehind : (napTimer w (max w.tm.uJiffies (r₁ + 1))).uExpires < max w.tm.uJiffies (r₁ + 1) := by omega
      rw [napDue_of_lt hbehind] at hτ
      rcases Nat.le_total (r₁ + 1) w.tm.uJiffies with hle | hle
      · -- both trees give the task the same timer
        rw [Nat.max_eq_left hle] at hτ
        exact hτ (hal.thread _ _ (hthread.asleep (Or.inr ⟨hmark, rfl, rfl, rfl⟩)))
      · -- the expiry is not past the first reading
        have hfirst := (hnot r₁ List.mem_cons_self).user hmark
        rw [napDue_of_lt hbehind] at hfirst
        rw [Nat.max_eq_right hle] at hfirst hwrapped
        omega

/-- If the trees wake alike, every reading is before the timers are due. -/
theorem noneDue_of_wakeAlike (hw : Started w) (hr : ∀ r ∈ rs, r < 2 ^ 32) (halike : WakeAlike w rs) :
    NoneDue w rs := by
  suffices hprefixes : ∀ ps, ps <+: rs → NoneDue w ps from hprefixes rs (List.prefix_refl rs)
  intro ps
  induction ps using List.reverseRecOn with
  | nil =>
      rintro - rs' r hrs
      exact absurd (List.prefix_nil.1 hrs) (by simp)
  | append_singleton ps r ih =>
      rintro hps rs' r' hrs ⟨u, hu⟩ ⟨v, hv⟩
      have hbefore := ih ((List.prefix_append ps [r]).trans hps)
      rcases List.prefix_concat_iff.1 hrs with heq | hshorter
      · obtain ⟨rfl, rfl⟩ : rs' = ps ∧ r' = r := by simpa using List.append_inj' heq rfl
        have hal := halike rs' r' hps u v hu hv
        have hr' : r' < 2 ^ 32 := hr r' (hps.subset (by simp))
        obtain ⟨u₀, hu₀, hlast⟩ := foldlM_concat_eq_ok.1 hu
        obtain ⟨v₀, hv₀, hlastv⟩ := foldlM_concat_eq_ok.1 hv
        cases rs' with
        | nil =>
            cases hu₀
            cases hv₀
            exact hal.first hw hlast hlastv hr'
        | cons r₁ rs₁ =>
            exact hal.later hw (fun r hr => hbefore.notYet hu₀ hv₀ hr) hu₀ hlast hv hr'
      · exact hbefore rs' r' hshorter ⟨u, hu⟩ ⟨v, hv⟩

/-- A task that slept in a run of one tree is one of those that sleep. -/
theorem nap_task {j' : Nat} (h : ((dozing w).nap w j).Task t) : ((dozing w).nap w j').Task t := by
  obtain ⟨n, τ, hn | ⟨hmark, ht, -⟩⟩ := h
  · exact ⟨n, τ, Or.inl hn⟩
  · exact ⟨_, _, Or.inr ⟨hmark, ht, rfl, rfl⟩⟩

theorem slept_task {run : List Nat → World → Except Fault World} (hstart : run [] w = .ok w)
    (hrun : ∀ rs', r₁ :: rs' <+: r₁ :: rs →
      Returns (run (r₁ :: rs') w) (Keeps ((dozing w).nap w j) w.sched.log)) (hw : Started w)
    (h : Slept run w (r₁ :: rs) t) : ((dozing w).nap w j).Task t := by
  obtain ⟨ps, x, n, hps, hx, hn⟩ := h
  cases ps with
  | nil =>
      cases hstart.symm.trans hx
      obtain ⟨τ, hK⟩ := (Keeps.start hw).dozes hn
      exact ⟨n, τ, Or.inl hK⟩
  | cons r ps =>
      obtain rfl : r = r₁ := (List.cons_prefix_cons.1 hps).1
      obtain ⟨τ, hK⟩ := (hrun ps hps x hx).dozes hn
      exact ⟨n, τ, hK⟩

/-- Otherwise neither tree returns anyone, and no expiry is reached. -/
theorem wakeAlike_of_noneDue (hw : Started w) (hnone : NoneDue w rs) : WakeAlike w rs := by
  intro rs' r hrs u v hu hv
  have hall : NoneDue w (rs' ++ [r]) := fun qs q hqs => hnone qs q (hqs.trans hrs)
  have hnot : ∀ q ∈ rs' ++ [r], NotYet w ((rs' ++ [r]).headD 0) q := fun q hq => hall.notYet hu hv hq
  have hlast := hnot r (by simp)
  obtain ⟨r₁, rs₁, heq⟩ := List.exists_cons_of_ne_nil (show rs' ++ [r] ≠ [] by simp)
  rw [heq] at hu hv hnot hlast ⊢
  have huser : ∀ ps, r₁ :: ps <+: r₁ :: rs₁ → Returns (handlerRun (r₁ :: ps) w)
      (Keeps ((dozing w).nap w (max w.tm.uJiffies (r₁ + 1))) w.sched.log) := fun ps hps =>
    hw.run (fun q hq => (hnot q (hps.subset hq)).dozing)
      (fun q hq hmark => (hnot q (hps.subset (List.mem_cons_of_mem _ hq))).user hmark)
  have hthread : ∀ ps, r₁ :: ps <+: r₁ :: rs₁ → Returns (Thread.handlerRun (r₁ :: ps) w)
      (Keeps ((dozing w).nap w w.tm.uJiffies) w.sched.log) := fun ps _ => hw.threadRun r₁ ps
  have hku := huser rs₁ (List.prefix_refl _) u hu
  have hkv := hthread rs₁ (List.prefix_refl _) v hv
  refine ⟨fun t ht => ?_, fun t n hn => ?_, fun t n hn => ?_⟩
  · have htask : ((dozing w).nap w w.tm.uJiffies).Task t :=
      ht.elim (fun ht => nap_task (slept_task rfl huser hw ht)) fun ht => slept_task rfl hthread hw ht
    exact iff_of_false (not_returned hku.line.resting (nap_task htask)) (not_returned hkv.line.resting htask)
  · obtain ⟨τ, hK⟩ := hku.dozes hn
    rcases hK with hK | ⟨hmark, -, rfl, rfl⟩
    · obtain ⟨-, s, -, rfl⟩ := id hK
      exact (hlast.dozing t n _ hK).trans_le (Wheel.dueAt_le _ _ _)
    · exact (hlast.user hmark).trans_le (Wheel.dueAt_le _ _ _)
  · obtain ⟨τ, hK⟩ := hkv.dozes hn
    rcases hK with hK | ⟨hmark, -, rfl, rfl⟩
    · obtain ⟨-, s, -, rfl⟩ := id hK
      exact (hlast.dozing t n _ hK).trans_le (Wheel.dueAt_le _ _ _)
    · exact hlast.thread hmark

/-- **The two trees wake sleepers alike exactly when there is none to wake.** -/
theorem trees_wake_alike_iff (hw : Started w) (hr : ∀ r ∈ rs, r < 2 ^ 32) : WakeAlike w rs ↔ NoneDue w rs :=
  ⟨noneDue_of_wakeAlike hw hr, wakeAlike_of_noneDue hw⟩

end runs

/-! ## A sleeper that is forgotten -/

/-- The timer that the main task sleeps on. -/
def mainTimer : TimerNode TimerFn where
  node := 1
  uExpires := 6
  uPeriod := 0
  timer := .collaborativeScheduleHelper 1
  round := 0
  due := 6

/-- The main task sleeps until tick 6 while task `3` runs, and both trees get through a call. -/
def Forgotten (w : World) : Prop :=
  (w.sched.taskAllList = [1, 3] ∧ w.sched.currentTask = 3) ∧
  w.sched.current.isCollaborativeSchedule = false ∧ w.tm.uJiffies = 1 ∧ mainTimer ∈ w.tm.arrListTimer (0, 6) ∧
  (handlerRun [6] w).isOk = true ∧ (Thread.handlerRun [6] w).isOk = true

instance (w : World) : Decidable (Forgotten w) := inferInstanceAs (Decidable (_ ∧ _))

/-- The main task has asked to sleep for 5 milliseconds and still runs, and both trees get through two calls. -/
def Drowsy (w : World) : Prop :=
  (w.sched.taskAllList = [1, 3] ∧ w.sched.currentTask = 1 ∧ w.sched.taskReadyList = [3]) ∧
  w.sched.current.isCollaborativeSchedule = true ∧
  (napTimer w w.tm.uJiffies).uExpires = 5 ∧ napDue w (max w.tm.uJiffies 1) = 6 ∧
  (handlerRun [0, 5] w).isOk = true ∧ (Thread.handlerRun [0, 5] w).isOk = true

instance (w : World) : Decidable (Drowsy w) := inferInstanceAs (Decidable (_ ∧ _))

/-- The main task starts task `3`, sleeps for 5 milliseconds and is switched away from. -/
theorem exists_forgotten : ∃ w, busyRuns.Reach w ∧ Forgotten w := by
  have hrun : ((start 1 2 0).toOption.bind fun w => [Action.taskStart 3 4 3, .sleep 5, .tick 0].foldlM
      World.nextBusy w).map (fun w => decide (Forgotten w)) = some true := by
    decide +kernel
  obtain ⟨w, hw, hf⟩ := exists_reach (M := busyRuns) (fun _ h => h) busyRuns_nextBusy (by norm_num) hrun
  exact ⟨w, hw, of_decide_eq_true hf⟩

/-- The same before it is switched away from. -/
theorem exists_drowsy : ∃ w, busyRuns.Reach w ∧ Drowsy w := by
  have hrun : ((start 1 2 0).toOption.bind fun w => [Action.taskStart 3 4 3, .sleep 5].foldlM
      World.nextBusy w).map (fun w => decide (Drowsy w)) = some true := by
    decide +kernel
  obtain ⟨w, hw, hf⟩ := exists_reach (M := busyRuns) (fun _ h => h) busyRuns_nextBusy (by norm_num) hrun
  exact ⟨w, hw, of_decide_eq_true hf⟩

theorem Forgotten.asleep {w : World} (h : Forgotten w) (hw : Started w) : Asleep w 1 mainTimer :=
  (hw.sleepers mainTimer (Wheel.mem_linked.2 ⟨(0, 6), Wheel.mem_allSlots.2 (by decide), h.2.2.2.1⟩) 1 rfl).2

/-- A call with the reading 6 is one call too many. -/
theorem Forgotten.not_noneDue {w : World} (h : Forgotten w) (hw : Started w) : ¬ NoneDue w [6] := by
  intro hnone
  have hasleep := h.asleep hw
  obtain ⟨-, -, hj, hmem, huser, hthread⟩ := h
  obtain ⟨u, hu⟩ := exists_ok_of_isOk huser
  obtain ⟨v, hv⟩ := exists_ok_of_isOk hthread
  have hlt := (hnone.notYet hu hv List.mem_cons_self).asleep 1 mainTimer hasleep (0, 6) hmem
  rw [hj] at hlt
  exact absurd hlt (by decide)

/-- **A sleeper of `Thread` is forgotten**: not in every run do the trees wake alike. -/
theorem forgotten_not_wakeAlike : ¬ ∀ w, busyRuns.Reach w →
    ∀ rs, (∀ r ∈ rs, r < 2 ^ 32) → WakeAlike w rs := by
  intro halike
  obtain ⟨w, hreach, hforgotten⟩ := exists_forgotten
  have hw := started_of_reach hreach
  have hr : ∀ r ∈ [6], r < 2 ^ 32 := by simp
  exact hforgotten.not_noneDue hw (noneDue_of_wakeAlike hw hr (halike w hreach [6] hr))

theorem noneDue_of_notYet {w : World} {rs : List Nat} (h : ∀ r ∈ rs, NotYet w (rs.headD 0) r) : NoneDue w rs := by
  rintro rs' r ⟨qs, rfl⟩ - -
  have hhead : (rs' ++ [r]).headD 0 = (rs' ++ [r] ++ qs).headD 0 := by cases rs' <;> rfl
  rw [hhead]
  exact h r (by simp)

/-- The reading 5 is before the timer is due. -/
theorem Forgotten.noneDue {w : World} (h : Forgotten w) (hreach : busyRuns.Reach w) (hw : Started w) :
    NoneDue w [5] := by
  refine noneDue_of_notYet fun r hr => ?_
  rw [List.mem_singleton.1 hr]
  have hasleep := h.asleep hw
  obtain ⟨⟨hall, hcurrent⟩, hcur, hj, hmem, -⟩ := h
  refine ⟨fun t n hn s hs => ?_, fun hmark => absurd (hcur.symm.trans hmark) Bool.false_ne_true,
    fun hmark => absurd (hcur.symm.trans hmark) Bool.false_ne_true⟩
  have hlive := hn.live hreach
  have hother := hn.notCurrent
  rw [hall] at hlive
  rw [hcurrent] at hother
  obtain rfl : t = 1 := by simpa [hother] using hlive
  obtain rfl := hasleep.only n hn.pending hn.timer
  obtain rfl := hw.once mainTimer 1 rfl s (slot_mem hw.sound hs (by decide)) (0, 6)
    (Wheel.mem_allSlots.2 (by decide)) hs hmem
  rw [hj]
  decide

/-- The readings 0 and 4 are before the timers that the main task gets in the two trees are due. -/
theorem Drowsy.noneDue {w : World} (h : Drowsy w) (hreach : busyRuns.Reach w) : NoneDue w [0, 4] := by
  refine noneDue_of_notYet fun r hr => ?_
  have hle : r ≤ 4 := by
    simp only [List.mem_cons, List.not_mem_nil, or_false] at hr
    omega
  obtain ⟨⟨hall, hcurrent, hready⟩, -, hthread, huser, -⟩ := h
  refine ⟨fun t n hn => ?_, fun _ => by omega, fun _ => ?_⟩
  · have hlive := hn.live hreach
    have hnotCurrent := hn.notCurrent
    have hnotReady := hn.notReady
    rw [hall] at hlive
    rw [hcurrent] at hnotCurrent
    rw [hready] at hnotReady
    rcases List.mem_pair.1 hlive with rfl | rfl
    · exact absurd rfl hnotCurrent
    · exact absurd (List.mem_singleton_self 3) hnotReady
  · show r < napDue w (max w.tm.uJiffies 1)
    omega

/-- The reading 5 reaches the timer that `Thread` gives it. -/
theorem Drowsy.not_noneDue {w : World} (h : Drowsy w) : ¬ NoneDue w [0, 5] := by
  intro hnone
  obtain ⟨-, hmark, hexp, -, huser, hthread⟩ := h
  obtain ⟨u, hu⟩ := exists_ok_of_isOk huser
  obtain ⟨v, hv⟩ := exists_ok_of_isOk hthread
  have hlt := (hnone.notYet hu hv (r := 5) (by simp)).thread hmark
  omega

/-- The main task sleeps until tick 6: up to the reading 5 the trees are alike, and with 6 no longer.  If the
sleep begins in the first of the calls, the reading 5 is already too late. -/
theorem trees_wake_alike_six :
    (∃ w, busyRuns.Reach w ∧ Asleep w 1 mainTimer ∧ WakeAlike w [5] ∧ ¬ WakeAlike w [6]) ∧
    ∃ w, busyRuns.Reach w ∧ w.sched.current.isCollaborativeSchedule = true ∧ WakeAlike w [0, 4] ∧
      ¬ WakeAlike w [0, 5] := by
  constructor
  · obtain ⟨w, hreach, hforgotten⟩ := exists_forgotten
    have hw := started_of_reach hreach
    exact ⟨w, hreach, hforgotten.asleep hw, (trees_wake_alike_iff hw (by simp)).2 (hforgotten.noneDue hreach hw),
      fun halike => hforgotten.not_noneDue hw ((trees_wake_alike_iff hw (by simp)).1 halike)⟩
  · obtain ⟨w, hreach, hdrowsy⟩ := exists_drowsy
    have hw := started_of_reach hreach
    exact ⟨w, hreach, hdrowsy.2.1, (trees_wake_alike_iff hw (by simp)).2 (hdrowsy.noneDue hreach),
      fun halike => hdrowsy.not_noneDue ((trees_wake_alike_iff hw (by simp)).1 halike)⟩

end ThreadSched
