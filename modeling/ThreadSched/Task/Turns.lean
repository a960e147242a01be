import ThreadSched.Task.Picker
import ThreadSched.Task.Waiting

/-!
# What the log says

The scheduler as a machine that reads the log: who runs, who waits for a turn in which order, who is live.
`task_unblock` puts a task in front, everybody else puts it behind, and only the first is dispatched.

* `Roster.next` — what an event makes of the roster; most events must not happen in most rosters;
* `log_roster` — in the runs of the whole scheduler the log is accepted and ends in what the lists say;
* `log_turns` — one task's view of it: it is created, dispatched, made ready, dispatched again, and so on until
  it exits.
-/

set_option autoImplicit false

namespace ThreadSched

/-! ## Rosters -/

structure Roster where
  current : TaskId
  queue : List TaskId
  live : List TaskId
  deriving DecidableEq, Repr

/-- The roster after an event; `none` when it must not happen. -/
def Roster.next (r : Roster) : Event → Option Roster
  | .ready t .taskStart =>
    if t ∈ r.live then none else some { r with queue := r.queue ++ [t], live := r.live ++ [t] }
  | .ready t .taskUnblock =>
    if t ∈ r.live ∧ t ∉ r.queue ∧ t ≠ r.current then some { r with queue := t :: r.queue } else none
  | .ready t .schedule =>
    if t ∈ r.live ∧ t ∉ r.queue ∧ t = r.current then some { r with queue := r.queue ++ [t] } else none
  | .ready t (.helper _ _) =>
    if t ∈ r.live ∧ t ∉ r.queue ∧ t ≠ r.current then some { r with queue := r.queue ++ [t] } else none
  | .dispatch t =>
    if r.queue.head? = some t then some { r with current := t, queue := r.queue.tail } else none
  | .exit t =>
    if t ∈ r.live ∧ t ∉ r.queue ∧ t = r.current then some { r with live := r.live.erase t } else none
  | .getchar t _ _ => if t ∈ r.live ∧ t ∉ r.queue ∧ t = r.current then some r else none

/-- `main` runs when the log begins. -/
def Roster.start (main : TaskId) : Roster := ⟨main, [], [main]⟩

def Roster.after (main : TaskId) (log : List Event) : Option Roster := log.foldlM Roster.next (.start main)

/-- No task waits twice or after its end. -/
structure Roster.Good (r : Roster) : Prop where
  queue : r.queue.Nodup
  live : r.live.Nodup
  sub : ∀ t ∈ r.queue, t ∈ r.live

theorem Roster.good_start (main : TaskId) : (Roster.start main).Good where
  queue := List.nodup_nil
  live := List.nodup_singleton main
  sub := by simp [Roster.start]

/-- A task that is put behind the others. -/
theorem Roster.Good.append {r : Roster} (h : r.Good) {t : TaskId} (ht : t ∈ r.live) (hnot : t ∉ r.queue) :
    Roster.Good { r with queue := r.queue ++ [t] } where
  queue := List.nodup_append.2 ⟨h.queue, List.nodup_singleton t, by rintro u hu v hv rfl; simp_all⟩
  live := h.live
  sub u hu := by
    rcases List.mem_append.1 hu with hu | hu
    · exact h.sub u hu
    · rw [List.mem_singleton.1 hu]
      exact ht

theorem Roster.Good.next {r r' : Roster} (h : r.Good) {e : Event} (hn : r.next e = some r') : r'.Good := by
  cases e with
  | ready t via =>
      cases via with
      | taskStart =>
          simp only [Roster.next, Option.ite_none_left_eq_some, Option.some.injEq] at hn
          obtain ⟨hnot, rfl⟩ := hn
          have hlive : Roster.Good { r with live := r.live ++ [t] } := by
            refine ⟨h.queue, ?_, fun u hu => List.mem_append_left _ (h.sub u hu)⟩
            exact List.nodup_append.2 ⟨h.live, List.nodup_singleton t, by rintro u hu v hv rfl; simp_all⟩
          exact hlive.append (List.mem_append_right _ List.mem_cons_self) fun hq => hnot (h.sub t hq)
      | taskUnblock =>
          simp only [Roster.next, Option.ite_none_right_eq_some, Option.some.injEq] at hn
          obtain ⟨⟨ht, hnot, -⟩, rfl⟩ := hn
          refine ⟨List.nodup_cons.2 ⟨hnot, h.queue⟩, h.live, fun u hu => ?_⟩
          rcases List.mem_cons.1 hu with rfl | hu
          · exact ht
          · exact h.sub u hu
      | schedule =>
          simp only [Roster.next, Option.ite_none_right_eq_some, Option.some.injEq] at hn
          obtain ⟨⟨ht, hnot, -⟩, rfl⟩ := hn
          exact h.append ht hnot
      | helper node tick =>
          simp only [Roster.next, Option.ite_none_right_eq_some, Option.some.injEq] at hn
          obtain ⟨⟨ht, hnot, -⟩, rfl⟩ := hn
          exact h.append ht hnot
  | dispatch t =>
      simp only [Roster.next, Option.ite_none_right_eq_some, Option.some.injEq] at hn
      obtain ⟨-, rfl⟩ := hn
      exact ⟨h.queue.tail, h.live, fun u hu => h.sub u (List.mem_of_mem_tail hu)⟩
  | exit t =>
      simp only [Roster.next, Option.ite_none_right_eq_some, Option.some.injEq] at hn
      obtain ⟨⟨ht, hnot, -⟩, rfl⟩ := hn
      refine ⟨h.queue, h.live.erase t, fun u hu => h.live.mem_erase_iff.2 ⟨?_, h.sub u hu⟩⟩
      rintro rfl
      exact hnot hu
  | getchar t q byte =>
      simp only [Roster.next, Option.ite_none_right_eq_some, Option.some.injEq] at hn
      exact hn.2 ▸ h

/-! ## One task -/

/-- A task is in none of the lists, in the ready list, or has had its turn: it runs, is blocked or sleeps. -/
inductive Turn
  | off | ready | running
  deriving DecidableEq, Repr

/-- What an event makes of the turn of `t`; `none` when it must not happen. -/
def Turn.next (t : TaskId) (x : Turn) : Event → Option Turn
  | .ready u via =>
    if u ≠ t then some x
    else if via = .taskStart then if x = .off then some .ready else none
    else if x = .running then some .ready else none
  | .dispatch u => if u ≠ t then some x else if x = .ready then some .running else none
  | .exit u => if u ≠ t then some x else if x = .running then some .off else none
  | .getchar u _ _ => if u ≠ t then some x else if x = .running then some x else none

def turnAfter (main t : TaskId) (log : List Event) : Option Turn :=
  log.foldlM (Turn.next t) (if t = main then .running else .off)

def Roster.turn (r : Roster) (t : TaskId) : Turn :=
  if t ∈ r.queue then .ready else if t ∈ r.live then .running else .off

/-- The turns follow the roster. -/
theorem Roster.Good.turn_next {r r' : Roster} (h : r.Good) {e : Event} (hn : r.next e = some r') (t : TaskId) :
    Turn.next t (r.turn t) e = some (r'.turn t) := by
  cases e with
  | ready u via =>
      cases via with
      | taskStart =>
          simp only [Roster.next, Option.ite_none_left_eq_some, Option.some.injEq] at hn
          obtain ⟨hnot, rfl⟩ := hn
          have hq : u ∉ r.queue := fun hq => hnot (h.sub u hq)
          by_cases hu : u = t
          · subst hu
            simp [Turn.next, Roster.turn, hnot, hq]
          · simp [Turn.next, Roster.turn, hu, Ne.symm hu]
      | taskUnblock =>
          simp only [Roster.next, Option.ite_none_right_eq_some, Option.some.injEq] at hn
          obtain ⟨⟨hl, hq, -⟩, rfl⟩ := hn
          by_cases hu : u = t
          · subst hu
            simp [Turn.next, Roster.turn, hl, hq]
          · simp [Turn.next, Roster.turn, hu, Ne.symm hu]
      | schedule =>
          simp only [Roster.next, Option.ite_none_right_eq_some, Option.some.injEq] at hn
          obtain ⟨⟨hl, hq, -⟩, rfl⟩ := hn
          by_cases hu : u = t
          · subst hu
            simp [Turn.next, Roster.turn, hl, hq]
          · simp [Turn.next, Roster.turn, hu, Ne.symm hu]
      | helper node tick =>
          simp only [Roster.next, Option.ite_none_right_eq_some, Option.some.injEq] at hn
          obtain ⟨⟨hl, hq, -⟩, rfl⟩ := hn
          by_cases hu : u = t
          · subst hu
            simp [Turn.next, Roster.turn, hl, hq]
          · simp [Turn.next, Roster.turn, hu, Ne.symm hu]
  | dispatch u =>
      simp only [Roster.next, Option.ite_none_right_eq_some, Option.some.injEq] at hn
      obtain ⟨hhead, rfl⟩ := hn
      obtain ⟨rest, hrest⟩ := List.head?_eq_some_iff.1 hhead
      have hnodup := h.queue
      have hl : u ∈ r.live := h.sub u (by simp [hrest])
      rw [hrest, List.nodup_cons] at hnodup
      by_cases hu : u = t
      · subst hu
        simp [Turn.next, Roster.turn, hrest, hl, hnodup.1]
      · simp [Turn.next, Roster.turn, hrest, hu, Ne.symm hu]
  | exit u =>
      simp only [Roster.next, Option.ite_none_right_eq_some, Option.some.injEq] at hn
      obtain ⟨⟨hl, hq, -⟩, rfl⟩ := hn
      by_cases hu : u = t
      · subst hu
        simp [Turn.next, Roster.turn, hl, hq, h.live.mem_erase_iff]
      · simp [Turn.next, Roster.turn, hu, Ne.symm hu, h.live.mem_erase_iff]
  | getchar u q byte =>
      simp only [Roster.next, Option.ite_none_right_eq_some, Option.some.injEq] at hn
      obtain ⟨⟨hl, hq, -⟩, rfl⟩ := hn
      by_cases hu : u = t
      · subst hu
        simp [Turn.next, Roster.turn, hl, hq]
      · simp [Turn.next, hu]

/-- A log that is accepted is accepted for every task. -/
theorem Roster.Good.turn_after {log : List Event} {r r' : Roster} (h : r.Good)
    (hlog : log.foldlM Roster.next r = some r') (t : TaskId) :
    log.foldlM (Turn.next t) (r.turn t) = some (r'.turn t) := by
  induction log generalizing r with
  | nil =>
      cases hlog
      rfl
  | cons e log ih =>
      rw [List.foldlM_cons, Option.bind_eq_bind, Option.bind_eq_some_iff] at hlog ⊢
      obtain ⟨m, hm, hrest⟩ := hlog
      exact ⟨m.turn t, h.turn_next hm t, ih (h.next hm) hrest⟩

/-! ## What the lists say -/

def Sched.roster (s : Sched) : Roster := ⟨s.currentTask, s.taskReadyList, s.taskAllList⟩

/-- The log ends in the lists. -/
def Recorded (s : Sched) : Prop := Roster.after s.mainTask s.log = some s.roster

section

variable {s s' m : Sched} {t u : TaskId} {e : Event}

theorem Recorded.congr (h : Recorded s) (hmain : s'.mainTask = s.mainTask) (hlog : s'.log = s.log)
    (hroster : s'.roster = s.roster) : Recorded s' := by
  unfold Recorded
  rw [hmain, hlog, hroster, show Roster.after s.mainTask s.log = some s.roster from h]

theorem Recorded.emit (h : Recorded s) (hmain : s'.mainTask = s.mainTask) (hlog : s'.log = s.log ++ [e])
    (hnext : s.roster.next e = some s'.roster) : Recorded s' := by
  have hlast : [e].foldlM Roster.next s.roster = some s'.roster := by
    rw [List.foldlM_cons, hnext]
    rfl
  unfold Recorded Roster.after
  rw [hmain, hlog, List.foldlM_append, show s.log.foldlM Roster.next (.start s.mainTask) = some s.roster from h]
  exact hlast

/-! ## The current task -/

/-- The current task has its turn. -/
structure AtWork (s : Sched) : Prop where
  mem : s.currentTask ∈ s.taskAllList
  notReady : s.currentTask ∉ s.taskReadyList
  status : s.current.status = .RUNNING

variable {p : TaskId → Nat} {pl : TaskId → Option Place}

theorem Filed.mem_all (h : Filed p pl s) {x : Place} (ht : pl t = some x) (hx : x ≠ .exited) :
    t ∈ s.taskAllList := by
  have hall := (h.fits t).all
  rw [ht, if_pos ⟨by simp, by simpa using hx⟩] at hall
  have hpos : 0 < s.taskAllList.count t := by
    show 0 < (s.obs t).all
    omega
  exact List.count_pos_iff.1 hpos

theorem Filed.ready_all (h : Filed p pl s) (ht : t ∈ s.taskReadyList) : t ∈ s.taskAllList :=
  h.mem_all (h.place_of_ready ht) (by simp)

theorem Running.ready_all (h : Running p s) (ht : t ∈ s.taskReadyList) : t ∈ s.taskAllList := by
  obtain ⟨pl, hf, -⟩ := h
  exact hf.ready_all ht

theorem Running.atWork (h : Running p s) : AtWork s := by
  obtain ⟨pl, hf, hcur⟩ := h
  exact ⟨hf.mem_all hcur (by simp), hf.current_not_ready hcur, (hf.fits s.currentTask).status _ hcur⟩

/-! ## Without a switch -/

/-- The same task goes on. -/
structure Stays (s s' : Sched) : Prop where
  current : s'.currentTask = s.currentTask
  main : s'.mainTask = s.mainTask
  all : s'.taskAllList = s.taskAllList
  log : ∃ es, s'.log = s.log ++ es ∧ dispatches es = 0

theorem Stays.refl (s : Sched) : Stays s s := ⟨rfl, rfl, rfl, [], (List.append_nil _).symm, rfl⟩

theorem Stays.trans (h : Stays s m) (h' : Stays m s') : Stays s s' := by
  obtain ⟨es, hlog, hes⟩ := h.log
  obtain ⟨es', hlog', hes'⟩ := h'.log
  refine ⟨h'.current.trans h.current, h'.main.trans h.main, h'.all.trans h.all, es ++ es', ?_, ?_⟩
  · rw [hlog', hlog, List.append_assoc]
  · unfold dispatches at hes hes' ⊢
    rw [List.countP_append, hes, hes']

theorem Stays.of_eq (hcurrent : s'.currentTask = s.currentTask) (hmain : s'.mainTask = s.mainTask)
    (hall : s'.taskAllList = s.taskAllList) (hlog : s'.log = s.log) : Stays s s' :=
  ⟨hcurrent, hmain, hall, [], by rw [hlog, List.append_nil], rfl⟩

theorem Stays.of_roster (hroster : s'.roster = s.roster) (hmain : s'.mainTask = s.mainTask)
    (hlog : s'.log = s.log) : Stays s s' :=
  .of_eq (congrArg Roster.current hroster) hmain (congrArg Roster.live hroster) hlog

theorem Prim.stays (h : Prim s s') : Stays s s' := by
  cases h with
  | wake u hu hn => exact ⟨rfl, rfl, rfl, [.ready u .taskUnblock], rfl, rfl⟩
  | getchar q byte => exact ⟨rfl, rfl, rfl, [.getchar s.currentTask q byte], rfl, rfl⟩
  | _ => exact Stays.of_eq rfl rfl rfl rfl

theorem Prims.stays (h : Prims s s') : Stays s s' := by
  induction h with
  | refl => exact Stays.refl s
  | tail _ hp ih => exact ih.trans hp.stays

/-- The ready list only grows. -/
theorem Prim.grows (h : Prim s s') (ht : t ∈ s.taskReadyList) : t ∈ s'.taskReadyList := by
  cases h with
  | wake u hu hn => exact List.mem_cons_of_mem _ ht
  | _ => exact ht

theorem Prim.atWork (h : Prim s s') (hw : AtWork s) : AtWork s' := by
  cases h with
  | wake u hu hn =>
      have hne : s.currentTask ≠ u := by
        rintro rfl
        rw [show (s.tasks s.currentTask).status = .RUNNING from hw.status] at hu
        simp [Blocking] at hu
      refine ⟨hw.mem, ?_, ?_⟩
      · show s.currentTask ∉ u :: s.taskReadyList
        simp [hne, hw.notReady]
      · show ((Function.update s.tasks u _) s.currentTask).status = .RUNNING
        rw [Function.update_of_ne hne]
        exact hw.status
  | _ => exact ⟨hw.mem, hw.notReady, hw.status⟩

theorem Prims.atWork (h : Prims s s') (hw : AtWork s) : AtWork s' := by
  induction h with
  | refl => exact hw
  | tail _ hp ih => exact hp.atWork ih

/-- One write; the tasks it makes ready are live. -/
theorem Prim.recorded (h : Prim s s') (hw : AtWork s) (hall : ∀ t ∈ s'.taskReadyList, t ∈ s'.taskAllList)
    (hr : Recorded s) : Recorded s' := by
  cases h with
  | wake u hu hn =>
      have hne : u ≠ s.currentTask := by
        rintro rfl
        rw [show (s.tasks s.currentTask).status = .RUNNING from hw.status] at hu
        simp [Blocking] at hu
      have hlive : u ∈ s.taskAllList := hall u List.mem_cons_self
      exact hr.emit rfl rfl (if_pos ⟨hlive, hn, hne⟩)
  | getchar q byte => exact hr.emit rfl rfl (if_pos ⟨hw.mem, hw.notReady, rfl⟩)
  | _ => exact hr.congr rfl rfl rfl

theorem Prims.recorded (h : Prims s s') (hw : AtWork s) (hall : ∀ t ∈ s'.taskReadyList, t ∈ s'.taskAllList)
    (hr : Recorded s) : Recorded s' := by
  induction h with
  | refl => exact hr
  | tail hps hp ih =>
      have hm := ih fun t hmem => by
        rw [← hp.stays.all]
        exact hall t (hp.grows hmem)
      exact hp.recorded (Prims.atWork hps hw) hall hm

/-! ## Switches -/

theorem getNextTask_lists (h : getNextTask m = .ok s') : ∃ u rest,
    m.taskReadyList = u :: rest ∧ s'.taskReadyList = rest ∧ s'.log = m.log ++ [.dispatch u] ∧
      s'.currentTask = u ∧ s'.taskAllList = m.taskAllList ∧ s'.mainTask = m.mainTask := by
  unfold getNextTask at h
  cases hr : m.taskReadyList with
  | nil => rw [hr] at h; cases h
  | cons u rest =>
      rw [hr] at h
      cases h
      exact ⟨u, rest, rfl, rfl, rfl, rfl, rfl, rfl⟩

theorem Recorded.switch (h : Recorded m) (hs : getNextTask m = .ok s') : Recorded s' := by
  obtain ⟨u, rest, hready, hrest, hlog, hcur, hall, hmain⟩ := getNextTask_lists hs
  refine h.emit hmain hlog ?_
  simp [Roster.next, Sched.roster, hready, hrest, hcur, hall]

/-- The tasks that were ready before the switch are live. -/
theorem ready_all_of_switch (hs : getNextTask m = .ok s') (hr : Running p s') :
    ∀ t ∈ m.taskReadyList, t ∈ m.taskAllList := by
  obtain ⟨u, rest, hready, hrest, -, hcur, hall, -⟩ := getNextTask_lists hs
  intro t ht
  rw [hready, List.mem_cons] at ht
  rw [← hall]
  rcases ht with rfl | ht
  · rw [← hcur]
    exact hr.atWork.mem
  · exact hr.ready_all (hrest ▸ ht)

/-- The statements of a call. -/
theorem Recorded.acts (h : Recorded s) (hw : AtWork s) (ha : Acts s s') (hloop : ¬ s'.Looping)
    (hr : Running p s') : Recorded s' := by
  cases ha with
  | stay hp => exact hp.recorded hw (fun t ht => hr.ready_all ht) h
  | switch m status hp _ hs =>
      have hm : Recorded m := hp.recorded hw (ready_all_of_switch (m := m.setStatus status) hs hr) h
      exact Recorded.switch (m := m.setStatus status) (hm.congr rfl rfl rfl) hs
  | idle m status _ _ _ hs =>
      refine absurd ?_ hloop
      rw [hs]
      exact Filed.looping_push (m.setStatus status)

/-! ## Creation and exit -/

/-- The lists and the log after `task_start`. -/
structure Creates (addr : TaskId) (s s' : Sched) : Prop where
  current : s'.currentTask = s.currentTask
  main : s'.mainTask = s.mainTask
  all : s'.taskAllList = s.taskAllList ++ [addr]
  ready : s'.taskReadyList = s.taskReadyList ++ [addr]
  log : s'.log = s.log ++ [.ready addr .taskStart]
  notReady : addr ∉ s.taskReadyList
  notAll : addr ∉ s.taskAllList

theorem Filed.taskStart_creates (h : Filed p pl s) (htame : Tame s) {addr : Nat} (stack : Nat) (prio : Int)
    (ha : s.allocated addr = false) : Returns (ThreadSched.taskStart addr stack prio s) (Creates addr s) := by
  have hmain : addr ≠ s.mainTask := fun hc => h.main (hc ▸ h.fits_none ha)
  by_cases hpool : s.taskPoolList = []
  · unfold ThreadSched.taskStart takeTask
    rw [if_neg (by simp [hpool])]
    show Returns (initTask addr stack prio _ >>= _) _
    rw [initTask_eq (s := { s with allocated := Function.update s.allocated addr true }) htame.tid]
    cases bitmapScan s.tidPool.tidBitmap 1 with
    | none => exact Returns.error
    | some bitIdx =>
        refine returns_assertThat fun hr => returns_assertThat fun hall =>
          Returns.pure ⟨?_, ?_, rfl, rfl, rfl, hr, hall⟩
        · simp [Sched.emit, inited, hmain]
        · simp [Sched.emit, inited]
  · intro s' hs'
    rw [h.poolDied.taskStart_fails hpool] at hs'
    cases hs'

theorem Creates.recorded {addr : TaskId} (h : Creates addr s s') (hr : Recorded s) : Recorded s' :=
  hr.emit h.main h.log (by simp [Roster.next, Sched.roster, h.notAll, h.current, h.ready, h.all])

/-- `task_exit` of the current task up to its switch. -/
structure Leaves (s m : Sched) : Prop where
  current : m.currentTask = s.currentTask
  main : m.mainTask = s.mainTask
  all : m.taskAllList = s.taskAllList.erase s.currentTask
  ready : m.taskReadyList = s.taskReadyList
  log : m.log = s.log ++ [.exit s.currentTask]

theorem AtWork.taskExit (h : AtWork s) (htame : Tame s) : Returns (ThreadSched.taskExit s.currentTask s) fun s' =>
    s'.Looping ∨ ∃ m, Leaves s m ∧ getNextTask m = .ok s' := by
  have hready : (exitLists s.currentTask s).taskReadyList = s.taskReadyList := by
    simp [exitLists, elemFind, h.notReady]
  unfold ThreadSched.taskExit
  show Returns (releaseTid _ (exitLists s.currentTask s) >>= _) _
  rw [releaseTid_eq (htame.exitLists _).tid, ok_bind]
  refine Returns.ite (fun _ => Returns.ok (.inl (Filed.looping_push _))) fun _ s' hs' => .inr ⟨_, ?_, hs'⟩
  exact ⟨rfl, rfl, rfl, hready, rfl⟩

theorem Leaves.recorded (h : Leaves s m) (hw : AtWork s) (hr : Recorded s) : Recorded m :=
  hr.emit h.main h.log
    (by simp [Roster.next, Sched.roster, hw.mem, hw.notReady, h.current, h.ready, h.all])

/-! ## The handler -/

/-- What an action that neither creates nor ends a task does. -/
inductive Passes (s s' : Sched) : Prop
  | stay : Recorded s' → Stays s s' → Passes s s'
  | switch (m : Sched) : Recorded m → Stays s m → getNextTask m = .ok s' → Passes s s'

theorem recorded_kept (s₀ : Sched) : KeptByCallbacks fun s => Recorded s ∧ Stays s₀ s := by
  rintro n M j s ⟨pl, hf, hcur⟩ ⟨hr, hs⟩
  unfold timerCall
  cases hn : n.timer with
  | collaborativeScheduleHelper u =>
      have hp : helpers (n.timer ::ₘ M) u ≠ 0 := by
        rw [hn, helpers_cons]
        simp
      have hasleep : pl u = some .asleep := by
        by_contra hne
        exact hp (by simpa [hne] using (hf.fits u).pending)
      have hne : u ≠ s.currentTask := by
        rintro rfl
        rw [hcur] at hasleep
        cases hasleep
      refine returns_assertThat fun hnot => Returns.pure ⟨?_, hs.trans ?_⟩
      · exact hr.emit (e := .ready u (.helper n.node j)) rfl rfl
          (if_pos ⟨hf.mem_all hasleep (by simp), hnot, hne⟩)
      · exact ⟨rfl, rfl, rfl, [.ready u (.helper n.node j)], rfl, rfl⟩
  | cleanDeadTask =>
      refine (cleanDeadTask_freed s).imp ?_
      rintro s' ⟨pool, stackMem, structMem, rfl⟩
      exact ⟨hr.congr rfl rfl rfl, hs.trans (.of_roster rfl rfl rfl)⟩

theorem recorded_locks {s₀ : Sched} (s : Sched) (locks : LockId → Lock) (h : Recorded s ∧ Stays s₀ s) :
    Recorded { s with locks := locks } ∧ Stays s₀ { s with locks := locks } :=
  ⟨h.1.congr rfl rfl rfl, h.2.trans (Stays.of_eq rfl rfl rfl rfl)⟩

/-- `schedule` makes the current task ready and switches. -/
theorem AtWork.schedule (h : AtWork s) (hr : Recorded s) : Returns (ThreadSched.schedule s) (Passes s) := by
  refine returns_assertThat fun _ => Returns.ite (fun _ => Returns.error) fun _ s' hs' => ?_
  refine .switch _ ?_ ?_ hs'
  · exact hr.emit (e := .ready s.currentTask .schedule) rfl rfl (if_pos ⟨h.mem, h.notReady, rfl⟩)
  · exact ⟨rfl, rfl, rfl, [.ready s.currentTask .schedule], rfl, rfl⟩

theorem Passes.after (h : Passes m s') (hs : Stays s m) : Passes s s' := by
  cases h with
  | stay hr hm => exact .stay hr (hs.trans hm)
  | switch n hr hn hg => exact .switch n hr (hs.trans hn) hg

/-- The handler switches at its end, if at all. -/
theorem WorldInv.handler_passes {w : World} (h : WorldInv w) (hr : Recorded w.sched) (r : Nat) :
    Returns (ThreadSched.interruptTimerHandler r w) fun w' => Passes w.sched w'.sched := by
  refine returns_assertThat fun _ =>
    (h.advance_with (recorded_kept w.sched) recorded_locks ⟨hr, Stays.refl _⟩ r).bind ?_
  rintro v ⟨hv, hrv, hs⟩
  have hw := hv.running.atWork
  refine Returns.ite (fun _ => ?_) fun _ => Returns.ite (fun _ => Returns.pure ?_) fun _ => ?_
  · refine Returns.bind (P := fun s' => Passes w.sched s') ?_ fun s' hs' => Returns.pure hs'
    exact (hw.schedule hrv).imp fun s' hs' => hs'.after hs
  · exact .stay (hrv.congr rfl rfl rfl) (hs.trans (Stays.of_eq rfl rfl rfl rfl))
  · refine returns_createTimer hv.tame.timer ?_
    refine Returns.bind (P := fun s' => Passes w.sched s') ?_ fun s' hs' => Returns.pure hs'
    exact Returns.ite (fun _ => Returns.error) fun _ => fun s' hs' => .switch _ hrv hs hs'

theorem Passes.recorded (h : Passes s s') : Recorded s' := by
  cases h with
  | stay hr _ => exact hr
  | switch m hr _ hs => exact hr.switch hs

/-! ## Runs -/

/-- What holds of the scheduler after an action holds of it in the world after the action. -/
theorem returns_act {P : Sched → Prop} {w w' : World} {a : Action} (hact : w.act a = .ok w')
    (ha : ∀ r, a ≠ .tick r) (hP : Returns (schedAction w.sched a) P) : P w'.sched := by
  have hworld : Returns (schedAction w.sched a >>= fun s => pure { w with sched := s })
      fun v : World => P v.sched := hP.bind fun _ hs => Returns.pure hs
  cases a with
  | tick r => exact absurd rfl (ha r)
  | _ => exact hworld w' hact

/-- The call of a function that the next statements execute. -/
def Action.Begins : Action → Prop
  | .lockAcquire _ | .lockRelease _ | .ioqGetchar _ | .ioqPutchar _ _ | .sleep _ => True
  | _ => False

theorem begins_roster {w w' : World} {a : Action} (ha : a.Begins) (hact : w.act a = .ok w') :
    w'.sched.roster = w.sched.roster ∧ w'.sched.mainTask = w.sched.mainTask ∧ w'.sched.log = w.sched.log := by
  refine returns_act (P := fun s => s.roster = w.sched.roster ∧ s.mainTask = w.sched.mainTask ∧
    s.log = w.sched.log) hact ?_ ?_
  · rintro r rfl
    exact ha
  · cases a with
    | lockAcquire l => exact Returns.pure ⟨rfl, rfl, rfl⟩
    | lockRelease l => exact Returns.pure ⟨rfl, rfl, rfl⟩
    | ioqGetchar q => exact Returns.pure ⟨rfl, rfl, rfl⟩
    | ioqPutchar q byte => exact Returns.pure ⟨rfl, rfl, rfl⟩
    | sleep milliseconds => exact Returns.pure ⟨rfl, rfl, rfl⟩
    | _ => exact ha.elim

theorem WorldInv.recorded {w w' : World} (h : WorldInv w) (hr : Recorded w.sched) {a : Action}
    (ha : a.enabled w) (hact : w.act a = .ok w') (hloop : ¬ w'.sched.Looping) : Recorded w'.sched := by
  have h' : WorldInv w' := (h.act ha w' hact).resolve_left hloop
  obtain ⟨pl, hf, hcur⟩ := h.running
  have hbegins : a.Begins → Recorded w'.sched := fun hb =>
    let ⟨hroster, hmain, hlog⟩ := begins_roster hb hact
    hr.congr hmain hlog hroster
  cases a with
  | taskStart addr stack prio =>
      exact (returns_act hact (by simp) (hf.taskStart_creates h.tame stack prio ha.2.1)).recorded hr
  | taskExit =>
      rcases returns_act hact (by simp) (h.running.atWork.taskExit h.tame) with hl | ⟨m, hm, hs⟩
      · exact absurd hl hloop
      · exact (hm.recorded h.running.atWork hr).switch hs
  | resume =>
      exact hr.acts h.running.atWork (returns_act hact (by simp) (runStmt_acts h.tame)) hloop h'.running
  | tick r => exact (h.handler_passes hr r w' hact).recorded
  | lockAcquire l => exact hbegins trivial
  | lockRelease l => exact hbegins trivial
  | ioqGetchar q => exact hbegins trivial
  | ioqPutchar q byte => exact hbegins trivial
  | sleep milliseconds => exact hbegins trivial

theorem busyRuns_recorded {w : World} (h : busyRuns.Reach w) : Recorded w.sched := by
  refine busyRuns.invariant_of (I := fun w => Recorded w.sched) (fun w => busyRuns_inv) ?_ ?_ h
  · rintro w ⟨addr, stack, j, _, hw⟩
    rw [start_eq] at hw
    cases hw
    simp [Recorded, Roster.after, Roster.start, Sched.roster, mainOnly, inited, tidPoolInit, boot]
  · rintro w w' hw hr ⟨⟨a, ha, hact⟩, hloop⟩
    exact hw.recorded hr ha hact hloop

/-- **Every run** in which no operation that has to switch finds the ready list empty. -/
theorem log_roster {w : World} (h : busyRuns.Reach w) :
    Roster.after w.sched.mainTask w.sched.log = some w.sched.roster := busyRuns_recorded h

theorem log_turns {w : World} (h : busyRuns.Reach w) (t : TaskId) :
    turnAfter w.sched.mainTask t w.sched.log = some (w.sched.roster.turn t) := by
  have hstart : (Roster.start w.sched.mainTask).turn t = if t = w.sched.mainTask then .running else .off := by
    simp [Roster.turn, Roster.start]
  unfold turnAfter
  rw [← hstart]
  exact (Roster.good_start _).turn_after (busyRuns_recorded h) t

/-! ## Who runs after an action -/

/-- What an action does about the current task and the live tasks. -/
inductive Effect (s s' : Sched) : Action → Prop
  | stays {a : Action} (hs : Stays s s') (hstart : ∀ addr stack prio, a ≠ .taskStart addr stack prio) :
      Effect s s' a
  | creates {addr stack : Nat} {prio : Int} (hc : Creates addr s s') : Effect s s' (.taskStart addr stack prio)
  | preempts {r : Nat} (m : Sched) (hs : Stays s m) (hg : getNextTask m = .ok s') : Effect s s' (.tick r)
  | blocks (m : Sched) (hs : Stays s m) (hg : getNextTask m = .ok s') (hne : s'.currentTask ≠ s.currentTask) :
      Effect s s' .resume
  | leaves (m : Sched) (hm : Leaves s m) (hg : getNextTask m = .ok s') : Effect s s' .taskExit

/-- A switch takes another task, unless the current one is ready. -/
theorem switch_ne (hnot : m.currentTask ∉ m.taskReadyList) (hs : getNextTask m = .ok s') :
    s'.currentTask ≠ m.currentTask := by
  obtain ⟨u, rest, hready, -, -, hcur, -, -⟩ := getNextTask_lists hs
  rintro heq
  refine hnot ?_
  rw [← heq, hcur, hready]
  exact List.mem_cons_self

theorem Effect.of_acts (hw : AtWork s) (ha : Acts s s') (hloop : ¬ s'.Looping) : Effect s s' .resume := by
  cases ha with
  | stay hp => exact .stays hp.stays (by simp)
  | switch m status hp _ hs =>
      have hm : AtWork m := hp.atWork hw
      refine .blocks (m.setStatus status) (hp.stays.trans (Stays.of_eq rfl rfl rfl rfl)) hs ?_
      rw [← hp.stays.current]
      exact switch_ne (m := m.setStatus status) hm.notReady hs
  | idle m status _ _ _ hs =>
      refine absurd ?_ hloop
      rw [hs]
      exact Filed.looping_push (m.setStatus status)

theorem WorldInv.effect {w w' : World} (h : WorldInv w) (hr : Recorded w.sched) {a : Action} (ha : a.enabled w)
    (hact : w.act a = .ok w') (hloop : ¬ w'.sched.Looping) : Effect w.sched w'.sched a := by
  obtain ⟨pl, hf, hcur⟩ := h.running
  have hbegins : a.Begins → (∀ addr stack prio, a ≠ .taskStart addr stack prio) →
      Effect w.sched w'.sched a := by
    intro hb hstart
    obtain ⟨hroster, hmain, hlog⟩ := begins_roster hb hact
    exact .stays (.of_roster hroster hmain hlog) hstart
  cases a with
  | taskStart addr stack prio =>
      exact .creates (returns_act hact (by simp) (hf.taskStart_creates h.tame stack prio ha.2.1))
  | taskExit =>
      rcases returns_act hact (by simp) (h.running.atWork.taskExit h.tame) with hl | ⟨m, hm, hs⟩
      · exact absurd hl hloop
      · exact .leaves m hm hs
  | resume => exact .of_acts h.running.atWork (returns_act hact (by simp) (runStmt_acts h.tame)) hloop
  | tick r =>
      cases h.handler_passes hr r w' hact with
      | stay _ hs => exact .stays hs (by simp)
      | switch m _ hs hg => exact .preempts m hs hg
  | lockAcquire l => exact hbegins trivial (by simp)
  | lockRelease l => exact hbegins trivial (by simp)
  | ioqGetchar q => exact hbegins trivial (by simp)
  | ioqPutchar q byte => exact hbegins trivial (by simp)
  | sleep milliseconds => exact hbegins trivial (by simp)

/-- What the current task still has to do does not start with the endless loop. -/
theorem not_looping_of_conts {w : World} {ss : List Stmt} (hc : w.sched.conts w.sched.currentTask = ss)
    (hs : ss.head? ≠ some .loop) : ¬ w.sched.Looping :=
  fun hl => hs (hc ▸ hl)

end

/-- The main task creates task `3` and sleeps; a tick dispatches the new task. -/
theorem reach_dispatch : ∃ w, busyRuns.Reach w ∧
    (w.sched.currentTask = 3 ∧ w.sched.taskAllList = [1, 3] ∧ (w.sched.tasks 1).status = .RUNNING) ∧
      w.sched.mainTask = 1 ∧ w.sched.log = [.ready 3 .taskStart, .dispatch 3] := by
  have hinit : World.Init _ := ⟨1, 2, 0, by norm_num, start_eq 1 2 0⟩
  obtain ⟨w₁, h₁, hx₁, he₁⟩ := exists_next (start_eq 1 2 0) (a := .taskStart 3 4 3)
    (f := fun w => w.sched.conts w.sched.currentTask) (b := []) rfl
  obtain ⟨w₂, h₂, hx₂, he₂⟩ := exists_next hx₁ (a := .sleep 5)
    (f := fun w => w.sched.conts w.sched.currentTask) (b := [.sleepSpin]) (by decide +kernel)
  obtain ⟨w₃, h₃, _, he₃⟩ := exists_next hx₂ (a := .tick 0)
    (f := fun w => (w.sched.conts w.sched.currentTask,
      (w.sched.currentTask, w.sched.taskAllList, (w.sched.tasks 1).status), w.sched.mainTask, w.sched.log))
    (b := ([], (3, [1, 3], .RUNNING), 1, [.ready 3 .taskStart, .dispatch 3])) (by decide +kernel)
  simp only [Prod.mk.injEq] at he₃
  have hreach₁ : busyRuns.Reach w₁ := (Trans.Sys.Reach.init hinit).step
    ⟨⟨.taskStart 3 4 3, ⟨rfl, rfl, rfl⟩, h₁⟩, not_looping_of_conts he₁ (by simp)⟩
  have hreach₂ : busyRuns.Reach w₂ :=
    hreach₁.step ⟨⟨.sleep 5, ⟨he₁, by norm_num⟩, h₂⟩, not_looping_of_conts he₂ (by simp)⟩
  have hreach₃ : busyRuns.Reach w₃ := hreach₂.step
    ⟨⟨.tick 0, by norm_num [Action.enabled], h₃⟩, not_looping_of_conts he₃.1 (by simp)⟩
  exact ⟨w₃, hreach₃, he₃.2⟩

theorem log_roster_first : ∃ w, busyRuns.Reach w ∧ w.sched.log = [.ready 3 .taskStart, .dispatch 3] ∧
    Roster.after 1 w.sched.log = some w.sched.roster := by
  obtain ⟨w, hreach, -, hmain, hlog⟩ := reach_dispatch
  have hroster := log_roster hreach
  rw [hmain] at hroster
  exact ⟨w, hreach, hlog, hroster⟩

theorem log_turns_first : ∃ w, busyRuns.Reach w ∧ w.sched.log = [.ready 3 .taskStart, .dispatch 3] ∧
    turnAfter 1 3 w.sched.log = some (w.sched.roster.turn 3) := by
  obtain ⟨w, hreach, -, hmain, hlog⟩ := reach_dispatch
  have hturn := log_turns hreach 3
  rw [hmain] at hturn
  exact ⟨w, hreach, hlog, hturn⟩

end ThreadSched
