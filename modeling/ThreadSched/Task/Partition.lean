import ThreadSched.Kernel.Scan
import ThreadSched.Task.Lifecycle
import ThreadSched.Timer.Placement

/-!
# The partition of the tasks

Every allocated task is in exactly one of five situations, in every state of every run in which the
operations that switch away find a ready task.

* `WorldInv` — the invariant: the scheduler's data file every task in a place, the helper timers
  linked in the wheel are those of the sleepers, and the two internal locks are free.
* `WorldInv.act` — each action keeps it, or leaves the old task looping.
* `scheduler_partition` — the situations.
-/

set_option autoImplicit false

namespace ThreadSched

open Wheel (TimerManager TimerNode tickNodes tickWheel rearmed)

/-! ## Pending helper timers -/

/-- How many helper timers a multiset of callbacks holds for each task. -/
def helpers (M : Multiset TimerFn) (t : TaskId) : Nat :=
  M.count (.collaborativeScheduleHelper t)

/-- The helper timers linked in the wheel, by task. -/
def pendingHelpers (tm : TimerManager TimerFn) : TaskId → Nat :=
  helpers (tm.linked.map TimerNode.timer)

/-- Helper timers are not periodic. -/
def OneShot (tm : TimerManager TimerFn) : Prop :=
  ∀ n ∈ tm.linked, ∀ t, n.timer = .collaborativeScheduleHelper t → n.uPeriod = 0

theorem helpers_cons (f : TimerFn) (M : Multiset TimerFn) (t : TaskId) : helpers (f ::ₘ M) t =
    helpers M t + if f = .collaborativeScheduleHelper t then 1 else 0 := by
  unfold helpers
  rw [Multiset.count_cons]
  simp [eq_comm]

theorem helpers_cons_self (t : TaskId) (M : Multiset TimerFn) :
    Function.update (helpers (.collaborativeScheduleHelper t ::ₘ M)) t
      (helpers (.collaborativeScheduleHelper t ::ₘ M) t - 1) = helpers M := by
  funext u
  by_cases hu : u = t
  · subst hu
    rw [Function.update_self, helpers_cons]
    simp
  · rw [Function.update_of_ne hu, helpers_cons]
    simp [Ne.symm hu]

theorem helpers_cons_clean (M : Multiset TimerFn) : helpers (.cleanDeadTask ::ₘ M) = helpers M := by
  funext t
  rw [helpers_cons]
  simp

/-! ## Callbacks and ticks -/

variable {s : Sched} {tm : TimerManager TimerFn}

/-- A callback whose timer is the first of those pending. -/
theorem Running.timerCall {n : TimerNode TimerFn} {M : Multiset TimerFn} {j : Nat}
    (h : Running (helpers (n.timer ::ₘ M)) s) :
    Returns (timerCall n j s) (Running (helpers M)) := by
  obtain ⟨pl, h, hcur⟩ := h
  unfold ThreadSched.timerCall
  cases hn : n.timer with
  | collaborativeScheduleHelper t =>
      rw [hn] at h
      have hp : helpers (.collaborativeScheduleHelper t ::ₘ M) t ≠ 0 := by
        rw [helpers_cons]; simp
      have := h.collaborativeScheduleHelper hcur hp n.node j
      rwa [helpers_cons_self] at this
  | cleanDeadTask =>
      rw [hn, helpers_cons_clean] at h
      exact h.cleanDeadTask hcur

/-- `J` is kept by a callback whose timer is pending. -/
def KeptByCallbacks (J : Sched → Prop) : Prop :=
  ∀ (n : TimerNode TimerFn) (M : Multiset TimerFn) (j : Nat) (s : Sched),
    Running (helpers (n.timer ::ₘ M)) s → J s → Returns (ThreadSched.timerCall n j s) J

/-- The expiry walk takes the timers it calls from those pending. -/
theorem Running.walk {J : Sched → Prop} (hJ : KeptByCallbacks J) (R : Multiset TimerFn) (j : Nat)
    (l : List (TimerNode TimerFn))
    (h : Running (helpers (R + (l.map TimerNode.timer : List TimerFn))) s) (hs : J s) :
    Returns (l.foldlM (fun s n => ThreadSched.timerCall n j s) s)
      fun s' => Running (helpers R) s' ∧ J s' := by
  have := Returns.foldlM (f := fun s n => ThreadSched.timerCall n j s)
    (I := fun l s' => Running (helpers (R + (l.map TimerNode.timer : List TimerFn))) s' ∧ J s') ?_
    l s ⟨h, hs⟩
  · simpa using this
  · rintro n l s' ⟨hr, hs'⟩
    have hcons : R + ((n :: l).map TimerNode.timer : List TimerFn) =
        n.timer ::ₘ (R + (l.map TimerNode.timer : List TimerFn)) := by
      rw [List.map_cons, ← Multiset.cons_coe, Multiset.add_cons]
    rw [hcons] at hr
    exact hr.timerCall.and (hJ n _ j s' hr hs')

theorem helpers_rearmed {l : List (TimerNode TimerFn)} (R : Multiset TimerFn) (j : Nat)
    (hl : ∀ n ∈ l, ∀ t, n.timer = .collaborativeScheduleHelper t → n.uPeriod = 0) :
    helpers (R + ((rearmed j l).map TimerNode.timer : List TimerFn)) = helpers R := by
  funext t
  have hnot : TimerFn.collaborativeScheduleHelper t ∉ (rearmed j l).map TimerNode.timer := by
    intro hmem
    obtain ⟨m, hm, heq⟩ := List.mem_map.1 hmem
    obtain ⟨n, hn, rfl⟩ := List.mem_map.1 hm
    obtain ⟨hn, hp⟩ := List.mem_filter.1 hn
    have := hl n hn t heq
    simp [this] at hp
  unfold helpers
  rw [Multiset.count_add, Multiset.coe_count, List.count_eq_zero_of_not_mem hnot, Nat.add_zero]

/-- What run_timer's loop keeps, with the timer lock held. -/
structure Ticking (w : TimerManager TimerFn × Sched) : Prop where
  running : Running (pendingHelpers w.1) w.2
  oneShot : OneShot w.1
  exitFlag : w.1.uExitFlag = 0

theorem Ticking.runTick {J : Sched → Prop} (hJ : KeptByCallbacks J) (h : Ticking (tm, s))
    (hs : J s) : Returns (Wheel.runTick timerCall (tm, s)) fun w => Ticking w ∧ J w.2 := by
  obtain ⟨rest, hr, hr'⟩ := Wheel.tickWheel_linked tm
  have hone : ∀ n ∈ tickNodes tm, ∀ t, n.timer = .collaborativeScheduleHelper t → n.uPeriod = 0 :=
    fun n hn => h.oneShot n (by rw [hr]; exact Multiset.mem_add.2 (Or.inr hn))
  have hrun := h.running
  unfold pendingHelpers at hrun
  rw [hr, Multiset.map_add, Multiset.map_coe] at hrun
  rw [Wheel.runTick_eq]
  intro w hw
  have hwalk := Running.walk hJ _ tm.uJiffies _ hrun hs
  cases hf : (tickNodes tm).foldlM (fun s n => timerCall n tm.uJiffies s) s with
  | error e => rw [hf] at hw; cases hw
  | ok s' =>
      rw [hf] at hw
      cases hw
      obtain ⟨hrun', hs'⟩ := hwalk s' hf
      refine ⟨⟨?_, ?_, ?_⟩, hs'⟩
      · unfold pendingHelpers
        rw [hr', Multiset.map_add, Multiset.map_coe, helpers_rearmed _ _ hone]
        exact hrun'
      · intro n hn t ht
        rw [hr'] at hn
        rcases Multiset.mem_add.1 hn with hn | hn
        · exact h.oneShot n (by rw [hr]; exact Multiset.mem_add.2 (Or.inl hn)) t ht
        · obtain ⟨m, hm, rfl⟩ := List.mem_map.1 (Multiset.mem_coe.1 hn)
          exact hone m (List.mem_filter.1 hm).1 t ht
      · exact (Wheel.tickWheel_uExitFlag tm).trans h.exitFlag

theorem Ticking.runTimerLoop {J : Sched → Prop} (hJ : KeptByCallbacks J) (r fuel : Nat)
    {w : TimerManager TimerFn × Sched} (h : Ticking w) (hs : J w.2) :
    Returns (Wheel.runTimerLoop timerCall .hang r fuel w) fun w' => Ticking w' ∧ J w'.2 := by
  induction fuel generalizing w with
  | zero => exact Returns.error
  | succ fuel ih =>
      exact Returns.ite (fun _ => (h.runTick hJ hs).bind fun w' hw' => ih hw'.1 hw'.2)
        fun _ => Returns.ok ⟨h, hs⟩

/-! ## The handler and the other actions -/

/-- **The invariant** of the whole scheduler between two actions. -/
structure WorldInv (w : World) : Prop where
  running : Running (pendingHelpers w.tm) w.sched
  tame : Tame w.sched
  oneShot : OneShot w.tm
  exitFlag : w.tm.uExitFlag = 0

theorem Running.modLock {p : TaskId → Nat} (h : Running p s) (l : LockId) (f : Lock → Lock)
    (hf : (f (s.locks l)).semaphore.waiters = (s.locks l).semaphore.waiters) :
    Running p (s.modLock l f) := by
  obtain ⟨pl, h, hcur⟩ := h
  exact ⟨pl, h.running_modLock hcur l f hf⟩

/-- `run_timer`, with its lock; `J` does not depend on locks. -/
theorem WorldInv.runTimer {J : Sched → Prop} (hJ : KeptByCallbacks J)
    (hlocks : ∀ s locks, J s → J { s with locks := locks }) {w : World} (h : WorldInv w)
    (hw : J w.sched) (r : Nat) :
    Returns (w.runTimer r) fun w' => WorldInv w' ∧ J w'.sched := by
  unfold World.runTimer
  rw [lockAcquireNow_eq h.tame.timer]
  have hheld : Ticking (w.tm, w.sched.modLock .timer fun _ => heldBy w.sched.currentTask) :=
    ⟨h.running.modLock .timer (fun _ => heldBy _) (by rw [h.tame.timer]; rfl), h.oneShot,
      h.exitFlag⟩
  refine ((hheld.runTimerLoop hJ r _ (hlocks _ _ hw)).and (runTimerLoop_undisturbed r _ _)).bind ?_
  rintro ⟨tm, s⟩ ⟨⟨⟨⟨pl, hf, hcur⟩, hone, hexit⟩, hs⟩, hu⟩
  show Returns (lockRelease .timer s >>= _) _
  rw [withLock_eq h.tame.timer s hu.locks hu.current]
  refine Returns.pure ⟨⟨⟨pl, ?_, hcur⟩, ⟨h.tame.tid, h.tame.timer, ?_⟩, hone, hexit⟩, hlocks _ _ hs⟩
  · refine hf.congr (fun t => ?_) rfl rfl rfl rfl
    have hlocks : ∀ l, (w.sched.locks l).semaphore.waiters = (s.locks l).semaphore.waiters := by
      intro l
      rw [hu.locks]
      by_cases hl : l = .timer
      · subst hl; rw [h.tame.timer]; simp [Sched.modLock, heldBy, lockInit]
      · simp [Sched.modLock, Function.update_of_ne hl]
    simp only [Sched.obs, hlocks]
  · intro t st hst
    exact h.tame.conts t st (by rw [← show s.conts = w.sched.conts from hu.conts]; exact hst)

theorem pendingHelpers_createTimer (tm : TimerManager TimerFn) (node : Nat) (timer : TimerFn)
    (d p : Nat) : pendingHelpers (Wheel.createTimer tm node timer d p) =
      helpers (timer ::ₘ tm.linked.map TimerNode.timer) := by
  unfold pendingHelpers Wheel.createTimer
  rw [Wheel.addTimer_linked, Multiset.map_cons]
  rfl

theorem OneShot.createTimer (h : OneShot tm) (node : Nat) (timer : TimerFn) (d p : Nat)
    (hp : ∀ t, timer = .collaborativeScheduleHelper t → p = 0) :
    OneShot (Wheel.createTimer tm node timer d p) := by
  intro n hn t ht
  unfold Wheel.createTimer at hn
  rw [Wheel.addTimer_linked, Multiset.mem_cons] at hn
  rcases hn with rfl | hn
  · exact hp t ht
  · exact h n hn t ht

/-- The current task goes to sleep: it leaves, and a helper timer is pending for it. -/
theorem Filed.sleep {p : TaskId → Nat} {pl : TaskId → Option Place} (h : Filed p pl s)
    (hcur : pl s.currentTask = some .current)
    (hflag : s.current.isCollaborativeSchedule = true) :
    Filed (Function.update p s.currentTask 1) (Function.update pl s.currentTask (some .asleep)) s := by
  have hf := h.fits s.currentTask
  rw [hcur] at hf
  refine h.move s.currentTask _ (fun u _ => rfl) (fun u hu => Function.update_of_ne hu _ _) rfl
    h.nums ?_ (fun u _ => h.cur u) nofun nofun
  exact ⟨hf.allocated, by rintro y ⟨⟩; exact hf.status .current rfl, fun _ => hflag, hf.ready, hf.waiters,
    hf.io, hf.all, hf.pool, by rw [Function.update_self]; rfl⟩

theorem WorldInv.advance_with {J : Sched → Prop} (hJ : KeptByCallbacks J)
    (hlocks : ∀ s locks, J s → J { s with locks := locks }) {w : World} (h : WorldInv w)
    (hw : J w.sched) (r : Nat) : Returns (w.advance r) fun v => WorldInv v ∧ J v.sched :=
  Returns.ite (fun _ => Returns.error) fun _ =>
    Returns.ite (fun _ => h.runTimer hJ hlocks hw r) fun hne => absurd h.exitFlag hne

theorem WorldInv.advance {w : World} (h : WorldInv w) (r : Nat) :
    Returns (w.advance r) WorldInv :=
  (h.advance_with (J := fun _ => True) (fun _ _ _ _ _ _ _ _ => trivial) (fun _ _ _ => trivial)
    trivial r).imp fun _ => And.left

/-- The handler runs the timers, then switches, counts down, or puts the current task to sleep. -/
theorem WorldInv.interruptTimerHandler {w : World} (h : WorldInv w) (r : Nat) :
    Returns (ThreadSched.interruptTimerHandler r w) fun w' => w'.sched.Looping ∨
      Running (pendingHelpers w'.tm) w'.sched ∧ OneShot w'.tm ∧ w'.tm.uExitFlag = 0 := by
  refine returns_assertThat fun _ => (h.advance r).bind fun w h => ?_
  obtain ⟨pl, hf, hcur⟩ := h.running
  refine Returns.ite (fun _ => ?_) fun _ => Returns.ite (fun _ => Returns.pure (Or.inr ?_))
    fun hflag => ?_
  · exact (hf.schedule hcur).bind fun s' hs' =>
      Returns.pure (hs'.imp_right fun hr => ⟨hr, h.oneShot, h.exitFlag⟩)
  · have hobs : ∀ t, w.sched.countDown.obs t = w.sched.obs t := fun t =>
      Sched.obs_modTask _ _ _ _ rfl rfl
    exact ⟨⟨pl, hf.congr hobs rfl rfl rfl rfl, hcur⟩, h.oneShot, h.exitFlag⟩
  · refine returns_createTimer h.tame.timer ?_
    have hsleep := hf.sleep hcur (by simpa using hflag)
    have hp0 : pendingHelpers w.tm w.sched.currentTask = 0 := by
      simpa [hcur] using (hf.fits w.sched.currentTask).pending
    refine (hsleep.collaborativeSchedule (hf.no_current nofun)).bind fun s' hs' =>
      Returns.pure ?_
    refine hs'.imp_right fun hr => ⟨?_, ?_, ?_⟩
    · have hpend : pendingHelpers (Wheel.createTimer w.tm w.nodes
          (.collaborativeScheduleHelper w.sched.currentTask)
          w.sched.current.sleepMillisecond 0) =
          Function.update (pendingHelpers w.tm) w.sched.currentTask 1 := by
        rw [pendingHelpers_createTimer]
        funext u
        rw [helpers_cons]
        by_cases hu : u = w.sched.currentTask
        · subst hu
          rw [Function.update_self]
          have : helpers (w.tm.linked.map TimerNode.timer) w.sched.currentTask = 0 := hp0
          simp [this]
        · rw [Function.update_of_ne hu]
          simp [Ne.symm hu, pendingHelpers]
      show Running (pendingHelpers (Wheel.createTimer _ _ _ _ _)) s'
      rw [hpend]
      exact hr
    · exact h.oneShot.createTimer _ _ _ _ fun _ _ => rfl
    · show (Wheel.createTimer _ _ _ _ _).uExitFlag = 0
      unfold Wheel.createTimer
      rw [Wheel.addTimer_uExitFlag]
      exact h.exitFlag

/-- An action of the current task. -/
theorem Filed.schedAction {p : TaskId → Nat} {pl : TaskId → Option Place} (h : Filed p pl s)
    (hcur : pl s.currentTask = some .current) (ht : Tame s) {a : Action} {w : World}
    (hw : w.sched = s) (ha : a.enabled w) : Returns (ThreadSched.schedAction s a) (Safe p) := by
  have hpush : ∀ st : Stmt, Safe p (s.push s.currentTask [st]) := fun st =>
    Or.inr ⟨pl, h.congr (fun _ => rfl) rfl rfl rfl rfl, hcur⟩
  cases a with
  | taskStart addr stack prio =>
      exact (h.taskStart hcur ht prio (by rw [← hw]; exact ha.2.1)).imp fun _ => Or.inr
  | taskExit => exact h.taskExit hcur ht
  | lockAcquire l => exact Returns.pure (hpush _)
  | lockRelease l => exact Returns.pure (hpush _)
  | ioqGetchar q => exact Returns.pure (hpush _)
  | ioqPutchar q byte => exact Returns.pure (hpush _)
  | sleep milliseconds =>
      refine Returns.pure (Or.inr ⟨pl, ?_, hcur⟩)
      have hf := h.fits s.currentTask
      rw [hcur] at hf
      have hmove : Filed p (Function.update pl s.currentTask (some .current))
          (markAsleep milliseconds s) := by
        refine h.move s.currentTask _ (fun u hu => (Sched.obs_push _ _ _ _).trans
          (Sched.obs_modTask_ne _ _ _ _ hu)) (fun _ _ => rfl) rfl h.nums ?_ (fun u _ => h.cur u)
          (fun _ => rfl) nofun
        unfold markAsleep
        rw [Sched.obs_push, Sched.obs_modTask_self]
        exact ⟨hf.allocated, hf.status, nofun, hf.ready, hf.waiters, hf.io, hf.all, hf.pool,
          hf.pending⟩
      rwa [← hcur, Function.update_eq_self] at hmove
  | resume => exact h.runStmt hcur
  | tick r => exact Returns.pure (Or.inr ⟨pl, h, hcur⟩)

/-- **Every action keeps the invariant**, or leaves the old task looping. -/
theorem WorldInv.act {w : World} (h : WorldInv w) {a : Action} (ha : a.enabled w) :
    Returns (w.act a) fun w' => w'.sched.Looping ∨ WorldInv w' := by
  obtain ⟨pl, hf, hcur⟩ := h.running
  have hsched : Returns (ThreadSched.schedAction w.sched a >>= fun s => pure { w with sched := s })
      fun w' : World => w'.sched.Looping ∨
        Running (pendingHelpers w'.tm) w'.sched ∧ OneShot w'.tm ∧ w'.tm.uExitFlag = 0 :=
    (hf.schedAction hcur h.tame rfl ha).bind fun s hs =>
      Returns.pure (hs.imp_right fun hr => ⟨hr, h.oneShot, h.exitFlag⟩)
  have hact : Returns (w.act a) fun w' => w'.sched.Looping ∨
      Running (pendingHelpers w'.tm) w'.sched ∧ OneShot w'.tm ∧ w'.tm.uExitFlag = 0 := by
    cases a with
    | tick r => exact h.interruptTimerHandler r
    | _ => exact hsched
  exact (hact.and (h.tame.act a)).imp fun w' hw' =>
    hw'.1.imp_right fun hr => ⟨hr.1, hw'.2, hr.2.1, hr.2.2⟩

/-! ## The start -/

theorem locks_boot (l : LockId) : (tidPoolInit boot).locks l = lockInit := by
  by_cases hl : l = .tid
  · subst hl; simp [tidPoolInit]
  · simp [tidPoolInit, boot]

/-- A bitmap whose first byte is clear gives index `0`. -/
theorem bitmapScan_clear {btmp : Bitmap} (hlen : 0 < btmp.btmpBytesLen) (h : btmp.bits 0 = 0) :
    bitmapScan btmp 1 = some 0 := by
  have hfirst : FirstClear btmp 0 := by
    refine ⟨by omega, ?_, fun m hm => absurd hm (Nat.not_lt_zero m)⟩
    simp [Bitmap.bit, h]
  exact hfirst.bitmapScan_one

/-- The scheduler after `task_init`. -/
def mainOnly (addr stack : Nat) : Sched :=
  { inited addr stack 3 0 { tidPoolInit boot with
      mainTask := addr
      allocated := Function.update boot.allocated addr true } with
    taskAllList := [addr]
    taskAllNums := 1 }

theorem taskInit_eq (addr stack : Nat) : taskInit addr stack boot = .ok (mainOnly addr stack) := by
  have hscan : bitmapScan (tidPoolInit boot).tidPool.tidBitmap 1 = some 0 :=
    bitmapScan_clear (by simp [tidPoolInit, bitmapInit]) (by simp [tidPoolInit, bitmapInit])
  unfold taskInit makeMainTask
  show (initTask addr stack 3 { tidPoolInit boot with
      mainTask := addr
      allocated := Function.update boot.allocated addr true } >>= _) = _
  have hinit := initTask_eq (s := { tidPoolInit boot with
      mainTask := addr
      allocated := Function.update boot.allocated addr true }) (locks_boot .tid) addr stack 3
  rw [hinit]
  simp only [hscan]
  rw [ok_bind, assertThat_bind (by simp [inited, tidPoolInit, boot])]
  rfl

/-- The program starts with the main task running, for any addresses and any clock. -/
theorem start_eq (addr stack j : Nat) : start addr stack j = .ok
    { sched := mainOnly addr stack
      tm := Wheel.createTimer (.empty j) 0 .cleanDeadTask 150000 150000
      freed := false
      nodes := 1 } := by
  have htimer : (mainOnly addr stack).locks .timer = lockInit := locks_boot .timer
  have hs : ({ mainOnly addr stack with
      locks := Function.update (mainOnly addr stack).locks .timer lockInit } : Sched) =
      mainOnly addr stack := by
    rw [← htimer, Function.update_eq_self]
  unfold start
  rw [taskInit_eq]
  show timerInit j (mainOnly addr stack) = _
  unfold timerInit
  rw [hs, createTimer_eq rfl htimer]

theorem currentTask_mainOnly (addr stack : Nat) : (mainOnly addr stack).currentTask = addr := by
  simp [mainOnly, inited]

theorem running_mainOnly (addr stack : Nat) : Running (fun _ => 0) (mainOnly addr stack) := by
  refine ⟨fun t => if t = addr then some .current else none,
    ⟨fun t => ?_, rfl, fun t ht => ?_, by simp [mainOnly, inited]⟩,
    by simp [currentTask_mainOnly]⟩
  · have hlocks : ∀ l, ((mainOnly addr stack).locks l).semaphore.waiters = [] := fun l => by
      show ((tidPoolInit boot).locks l).semaphore.waiters = []
      rw [locks_boot]; rfl
    by_cases ht : t = addr
    · subst ht
      simp only [if_true]
      refine ⟨?_, ?_, by simp, ?_, fun l => ?_, fun q w => ?_, ?_, ?_, rfl⟩
      · simp [Sched.obs, mainOnly, inited]
      · rintro y ⟨⟩
        simp [Sched.obs, mainOnly, inited, initedTask, initFields, Place.status]
      · simp [Sched.obs, mainOnly, inited, tidPoolInit, boot]
      · exact (congrArg (List.count t) (hlocks l)).trans (by simp)
      · simp [Sched.obs, mainOnly, inited, tidPoolInit, boot, ioqueueInit]
      · simp [Sched.obs, mainOnly]
      · simp [Sched.obs, mainOnly, inited, tidPoolInit, boot]
    · simp only [ht, if_false]
      refine ⟨?_, by simp, by simp, ?_, fun l => ?_, fun q w => ?_, ?_, ?_, rfl⟩
      · simp [Sched.obs, mainOnly, inited, ht, boot]
      · simp [Sched.obs, mainOnly, inited, tidPoolInit, boot]
      · exact (congrArg (List.count t) (hlocks l)).trans (by simp)
      · simp [Sched.obs, mainOnly, inited, tidPoolInit, boot, ioqueueInit]
      · simp [Sched.obs, mainOnly, Ne.symm ht]
      · simp [Sched.obs, mainOnly, inited, tidPoolInit, boot]
  · rw [currentTask_mainOnly]
    by_contra hta
    simp [hta] at ht

theorem WorldInv.init {w : World} (h : World.Init w) : WorldInv w := by
  obtain ⟨addr, stack, j, _, hw⟩ := h
  rw [start_eq] at hw
  cases hw
  refine ⟨?_, ⟨locks_boot .tid, locks_boot .timer, fun t st hst => ?_⟩, ?_, ?_⟩
  · have hpend : pendingHelpers (Wheel.createTimer (TimerManager.empty j) 0 .cleanDeadTask
        150000 150000) = fun _ => 0 := by
      rw [pendingHelpers_createTimer, helpers_cons_clean, Wheel.empty_linked]
      rfl
    rw [hpend]
    exact running_mainOnly addr stack
  · simp [mainOnly, inited, tidPoolInit, boot] at hst
  · refine OneShot.createTimer ?_ _ _ _ _ (by simp)
    intro n hn
    rw [Wheel.empty_linked] at hn
    exact absurd hn (Multiset.notMem_zero n)
  · show (Wheel.createTimer _ _ _ _ _).uExitFlag = 0
    unfold Wheel.createTimer
    rw [Wheel.addTimer_uExitFlag]
    rfl

/-- **Every reachable state** satisfies the invariant. -/
theorem busyRuns_inv {w : World} (h : busyRuns.Reach w) : WorldInv w := by
  refine busyRuns.invariant (fun w => WorldInv.init) ?_ h
  rintro w w' hw ⟨⟨a, ha, hact⟩, hloop⟩
  exact (hw.act ha w' hact).resolve_left hloop

/-! ## The five situations -/

/-- The situations an allocated task can be in. -/
inductive Situation
  | current | ready | blocked | asleep | exited
  deriving DecidableEq, Repr

/-- The task's general_tag is in no list. -/
def Unlinked (s : Sched) (t : TaskId) : Prop :=
  t ∉ s.taskReadyList ∧ ∀ l, t ∉ (s.locks l).semaphore.waiters

/-- A blocked task waits in the waiters list of exactly one semaphore, or in none and is recorded as
the producer or consumer of exactly one ioqueue. -/
def Waits (s : Sched) (t : TaskId) : Prop :=
  ((∃ l, (s.locks l).semaphore.waiters.count t = 1 ∧
      ∀ l', l' ≠ l → t ∉ (s.locks l').semaphore.waiters) ∧
    ∀ q w, (s.ioqs q).waiter w ≠ some t) ∨
  ((∀ l, t ∉ (s.locks l).semaphore.waiters) ∧
    ∃! qw : IoqId × Waiter, (s.ioqs qw.1).waiter qw.2 = some t)

/-- What each situation says of the scheduler's data. -/
def InSituation (w : World) (t : TaskId) : Situation → Prop
  | .current => t = w.sched.currentTask ∧ (w.sched.tasks t).status = .RUNNING ∧ Unlinked w.sched t
  | .ready => t ≠ w.sched.currentTask ∧ (w.sched.tasks t).status = .READY ∧
      w.sched.taskReadyList.count t = 1 ∧ ∀ l, t ∉ (w.sched.locks l).semaphore.waiters
  | .blocked => t ≠ w.sched.currentTask ∧ (w.sched.tasks t).status = .BLOCKED ∧
      t ∉ w.sched.taskReadyList ∧ Waits w.sched t
  | .asleep => t ≠ w.sched.currentTask ∧ (w.sched.tasks t).status = .RUNNING ∧
      (w.sched.tasks t).isCollaborativeSchedule = true ∧ Unlinked w.sched t ∧
      pendingHelpers w.tm t = 1
  | .exited => t ≠ w.sched.currentTask ∧ (w.sched.tasks t).status = .DIED ∧ Unlinked w.sched t ∧
      (t = w.sched.mainTask ∨ w.sched.taskPoolList.count t = 1)

/-- The situation of a place. -/
def Place.situation : Place → Situation
  | .current => .current
  | .ready => .ready
  | .waiting _ | .ioWaiting _ _ => .blocked
  | .asleep => .asleep
  | .exited => .exited

namespace Filed

variable {w : World} {pl : TaskId → Option Place}

theorem not_mem_ready {p : TaskId → Nat} (h : Filed p pl s) {t : TaskId}
    (ht : pl t ≠ some .ready) : t ∉ s.taskReadyList := fun hm => ht (h.place_of_ready hm)

theorem not_mem_waiters {p : TaskId → Nat} (h : Filed p pl s) {t : TaskId} {l : LockId}
    (ht : pl t ≠ some (.waiting l)) : t ∉ (s.locks l).semaphore.waiters :=
  fun hm => ht (h.place_of_waiters hm)

theorem waits {p : TaskId → Nat} (h : Filed p pl s) {t : TaskId} {x : Place} (ht : pl t = some x)
    (hx : x.situation = .blocked) : Waits s t := by
  have hf := h.fits t
  rw [ht] at hf
  cases x with
  | waiting l =>
      refine Or.inl ⟨⟨l, by simpa [Sched.obs] using hf.waiters l, fun l' hl => ?_⟩, fun q w hq => ?_⟩
      · exact h.not_mem_waiters (by rw [ht]; simpa using Ne.symm hl)
      · exact absurd (ht.symm.trans (h.place_of_io hq)) (by simp)
  | ioWaiting q w =>
      refine Or.inr ⟨fun l => h.not_mem_waiters (by rw [ht]; simp), ⟨(q, w), ?_, ?_⟩⟩
      · simpa [Sched.obs] using hf.io q w
      · rintro ⟨q', w'⟩ hqw
        have heq := ht.symm.trans (h.place_of_io hqw)
        simp only [Option.some.injEq, Place.ioWaiting.injEq] at heq
        exact Prod.ext heq.1.symm heq.2.symm
  | current => cases hx
  | ready => cases hx
  | asleep => cases hx
  | exited => cases hx

/-- A task is in the situation of its place. -/
theorem inSituation (h : Filed (pendingHelpers w.tm) pl w.sched)
    (hcur : pl w.sched.currentTask = some .current) {t : TaskId} {x : Place} (ht : pl t = some x) :
    InSituation w t x.situation := by
  have hf := h.fits t
  rw [ht] at hf
  have hstatus : (w.sched.tasks t).status = x.status := hf.status x rfl
  have hne : x ≠ .current → t ≠ w.sched.currentTask := by
    rintro hx rfl
    rw [hcur] at ht
    exact hx (Option.some.inj ht).symm
  have hunlinked : x.situation ≠ .ready → x.situation ≠ .blocked → Unlinked w.sched t :=
    fun hr hb => ⟨h.not_mem_ready (by rw [ht]; rintro ⟨⟩; exact hr rfl),
      fun l => h.not_mem_waiters (by rw [ht]; rintro ⟨⟩; exact hb rfl)⟩
  have hwaits := h.waits ht
  cases x with
  | current => exact ⟨h.cur t ht, hstatus, hunlinked (by decide) (by decide)⟩
  | ready =>
      exact ⟨hne (by simp), hstatus, by simpa [Sched.obs] using hf.ready,
        fun l => h.not_mem_waiters (by rw [ht]; simp)⟩
  | waiting l => exact ⟨hne (by simp), hstatus, h.not_mem_ready (by rw [ht]; simp), hwaits rfl⟩
  | ioWaiting q w => exact ⟨hne (by simp), hstatus, h.not_mem_ready (by rw [ht]; simp), hwaits rfl⟩
  | asleep =>
      exact ⟨hne (by simp), hstatus, hf.collaborative rfl, hunlinked (by decide) (by decide), by simpa using hf.pending⟩
  | exited =>
      refine ⟨hne (by simp), hstatus, hunlinked (by decide) (by decide), ?_⟩
      by_cases hm : t = w.sched.mainTask
      · exact Or.inl hm
      · exact Or.inr (by simpa [Sched.obs, hm] using hf.pool)

end Filed

/-- The situation that the status and `current_task` tell. -/
def World.situation (w : World) (t : TaskId) : Situation :=
  match (w.sched.tasks t).status with
  | .READY => .ready
  | .BLOCKED => .blocked
  | .DIED => .exited
  | _ => if t = w.sched.currentTask then .current else .asleep

/-- The situations exclude each other: status and `current_task` tell them apart. -/
theorem InSituation.eq_situation {w : World} {t : TaskId} {x : Situation}
    (hx : InSituation w t x) : x = w.situation t := by
  unfold World.situation
  cases x with
  | current =>
      rw [hx.2.1]
      exact (if_pos hx.1).symm
  | ready => simp [hx.2.1]
  | blocked => simp [hx.2.1]
  | asleep => simp [hx.2.1, hx.1]
  | exited => simp [hx.2.1]

/-- **The partition.**  In every state of every run in which the operations that switch away find a
ready task, every allocated task struct is in exactly one of the five situations; the tasks in
`task_all_list` are, once each, the allocated ones that have not exited, and `task_all_nums` counts
them; and helper timers are pending only for sleepers. -/
theorem scheduler_partition {w : World} (h : busyRuns.Reach w) :
    (∀ t, w.sched.allocated t = true → ∃! x, InSituation w t x) ∧
    (∀ t, w.sched.taskAllList.count t =
      if w.sched.allocated t = true ∧ (w.sched.tasks t).status ≠ .DIED then 1 else 0) ∧
    w.sched.taskAllNums = w.sched.taskAllList.length ∧
    ∀ t, pendingHelpers w.tm t ≠ 0 → InSituation w t .asleep := by
  obtain ⟨⟨pl, hf, hcur⟩, _, _, _⟩ := busyRuns_inv h
  have halloc : ∀ t, w.sched.allocated t = (pl t).isSome := fun t => (hf.fits t).allocated
  refine ⟨fun t ht => ?_, fun t => ?_, hf.nums, fun t hp => ?_⟩
  · rw [halloc] at ht
    obtain ⟨x, hx⟩ := Option.isSome_iff_exists.1 ht
    exact ⟨x.situation, hf.inSituation hcur hx, fun y hy =>
      hy.eq_situation.trans (hf.inSituation hcur hx).eq_situation.symm⟩
  · refine ((hf.fits t).all).trans ?_
    rw [halloc]
    cases hx : pl t with
    | none => simp
    | some x =>
        have hstatus : (w.sched.tasks t).status = x.status := (hf.fits t).status x hx
        rw [hstatus]
        cases x <;> simp [Place.status]
  · have hasleep : pl t = some .asleep := by
      by_contra hne
      exact hp (by simpa [hne] using (hf.fits t).pending)
    exact hf.inSituation hcur hasleep

/-- A run with a task in each of the five situations. -/
def fiveSituations : List Action :=
  [.taskStart 3 4 0, .taskStart 5 6 0, .taskStart 7 8 0, .taskStart 9 10 0, .taskStart 11 12 0,
    -- main sleeps, and the handler switches to task 3, which exits
    .sleep 50, .tick 0, .taskExit,
    -- task 5 blocks as the consumer of queue 0, holding its lock
    .ioqGetchar 0, .resume, .resume, .resume, .resume, .resume,
    -- task 7 blocks in the waiters list of that lock
    .ioqGetchar 0, .resume, .resume, .resume]

/-- After that run task 9 is the current one, 11 is ready, 5 and 7 are blocked, 1 sleeps and 3 has
exited: each is in that situation only. -/
theorem scheduler_partition_five : ∃ w, busyRuns.Reach w ∧
    w.sched.taskAllList = [1, 5, 7, 9, 11] ∧ w.sched.taskAllNums = 5 ∧
    ∀ tx ∈ [((9 : TaskId), Situation.current), (11, .ready), (5, .blocked), (7, .blocked),
      (1, .asleep), (3, .exited)],
      InSituation w tx.1 tx.2 ∧ ∀ y, InSituation w tx.1 y → y = tx.2 := by
  have hrun : ((start 1 2 0).toOption.bind fun w => fiveSituations.foldlM World.nextBusy w).map
      (fun w => (w.sched.taskAllList, w.sched.taskAllNums,
        [1, 3, 5, 7, 9, 11].map fun t => (w.sched.allocated t, w.situation t))) =
      some ([1, 5, 7, 9, 11], 5, [(true, .asleep), (true, .exited), (true, .blocked),
        (true, .blocked), (true, .current), (true, .ready)]) := by
    decide +kernel
  obtain ⟨w, hw, hf⟩ := exists_reach (fun _ h => h) busyRuns_nextBusy (by norm_num) hrun
  simp only [List.map_cons, List.map_nil, Prod.mk.injEq, List.cons.injEq] at hf
  obtain ⟨hall, hnums, ⟨a1, s1⟩, ⟨a3, s3⟩, ⟨a5, s5⟩, ⟨a7, s7⟩, ⟨a9, s9⟩, ⟨a11, s11⟩, -⟩ := hf
  have hin : ∀ t x, w.sched.allocated t = true → w.situation t = x →
      InSituation w t x ∧ ∀ y, InSituation w t y → y = x := by
    intro t x ha hs
    obtain ⟨z, hz, hu⟩ := (scheduler_partition hw).1 t ha
    obtain rfl : z = x := hz.eq_situation.trans hs
    exact ⟨hz, hu⟩
  refine ⟨w, hw, hall, hnums, ?_⟩
  simp only [List.forall_mem_cons, List.not_mem_nil, false_implies, implies_true, and_true]
  exact ⟨hin 9 _ a9 s9, hin 11 _ a11 s11, hin 5 _ a5 s5, hin 7 _ a7 s7, hin 1 _ a1 s1,
    hin 3 _ a3 s3⟩

end ThreadSched
