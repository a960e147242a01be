import ThreadSched.Task.Progress
import ThreadSched.Task.Recycle

/-!
# Bounded waiting

A task in the ready list moves forward with every dispatch and back only when `task_unblock` puts
another task at the head.  The running task gives way after at most its priority plus one ticks.

* `Sliced` — no time slice is longer than the priority.
* `Calm` — what happens between two switches: the position of `t` grows by the number of unblocks.
* `Ahead` — the potential: handler calls until `t` is dispatched, if nothing is unblocked.
* `bounded_waiting` — the bound over any continuation of a run.
-/

set_option autoImplicit false

namespace ThreadSched

open Wheel (TimerManager TimerNode)

variable {s m s' : Sched} {t : TaskId}

/-! ## Time slices -/

/-- Every time slice is at most the priority, which is a `uint8_t`. -/
def Sliced (s : Sched) : Prop :=
  ∀ t, (s.tasks t).ticks ≤ (s.tasks t).priority ∧ (s.tasks t).priority < 256

theorem Sliced.modTask (h : Sliced s) (t : TaskId) (f : TaskStruct → TaskStruct)
    (hf : (f (s.tasks t)).ticks ≤ (f (s.tasks t)).priority ∧ (f (s.tasks t)).priority < 256) :
    Sliced (s.modTask t f) := by
  intro u
  by_cases hu : u = t
  · subst hu
    simpa [Sched.modTask] using hf
  · simpa [Sched.modTask, Function.update_of_ne hu] using h u

theorem Sliced.prim (h : Sliced s) (hp : Prim s s') : Sliced s' := by
  cases hp with
  | wake t _ ht =>
      have hlist : Sliced { s with taskReadyList := t :: s.taskReadyList } := h
      exact hlist.modTask t (fun task => { task with status := .READY }) (h t)
  | _ => exact h

theorem Sliced.getNextTask (h : Sliced s) : Returns (getNextTask s) Sliced := by
  unfold ThreadSched.getNextTask
  cases s.taskReadyList with
  | nil => exact Returns.error
  | cons t rest =>
      have hlist : Sliced { s with taskReadyList := rest } := h
      exact Returns.pure (hlist.modTask t (fun task => { task with status := .RUNNING }) (h t))

theorem u8_lt (x : Int) : u8 x < 256 := by
  unfold u8
  omega

/-- A new task has the whole slice of its priority. -/
theorem Sliced.taskStart (h : Sliced s) (ht : Tame s) (addr stack : Nat) (prio : Int) :
    Returns (taskStart addr stack prio s) Sliced := by
  unfold ThreadSched.taskStart
  refine Returns.bind (P := fun r => Sliced r.2 ∧ Tame r.2) ?_ ?_
  · refine Returns.ite (fun _ => ?_) fun _ => Returns.pure ⟨h, ht.of rfl rfl fun _ _ => Or.inl⟩
    cases s.taskPoolList with
    | nil => exact Returns.error
    | cons t rest =>
        exact returns_assertThat fun _ => Returns.pure ⟨h, ht.of rfl rfl fun _ _ => Or.inl⟩
  · rintro ⟨t, s₁⟩ ⟨h₁, ht₁⟩
    show Returns (initTask t stack prio s₁ >>= _) _
    rw [initTask_eq ht₁.tid]
    cases bitmapScan s₁.tidPool.tidBitmap 1 with
    | none => exact Returns.error
    | some bitIdx =>
        refine returns_assertThat fun _ => returns_assertThat fun _ => Returns.pure fun u => ?_
        by_cases hu : u = t
        · subst hu
          simp [Sched.emit, inited, initedTask, initFields, u8_lt]
        · simpa [Sched.emit, inited, Function.update_of_ne hu] using h₁ u

theorem Sliced.taskExit (h : Sliced s) (ht : Tame s) (t : TaskId) :
    Returns (taskExit t s) Sliced := by
  have hex : Sliced (exitLists t s) := h.modTask t (fun ptask => { ptask with status := .DIED }) (h t)
  unfold ThreadSched.taskExit
  show Returns (releaseTid _ (exitLists t s) >>= _) _
  rw [releaseTid_eq (ht.exitLists t).tid, ok_bind]
  exact Returns.ite (fun _ => Returns.ok hex) fun _ => Sliced.getNextTask hex

theorem Sliced.timerCall (h : Sliced s) (n : TimerNode TimerFn) (j : Nat) :
    Returns (timerCall n j s) Sliced := by
  unfold ThreadSched.timerCall
  cases n.timer with
  | collaborativeScheduleHelper u =>
      refine returns_assertThat fun _ => Returns.pure ?_
      have hlist : Sliced ({ s with taskReadyList := listAppend s.taskReadyList u }.emit
          (.ready u (.helper n.node j))) := h
      exact hlist.modTask u _ ⟨Nat.le_refl _, (h u).2⟩
  | cleanDeadTask =>
      refine (cleanDeadTask_freed s).imp ?_
      rintro s' ⟨pool, stackMem, structMem, rfl⟩
      exact h

theorem Sliced.schedule (h : Sliced s) : Returns (schedule s) Sliced := by
  refine returns_assertThat fun _ => Returns.ite (fun _ => Returns.error) fun _ => ?_
  have hlist : Sliced { s with taskReadyList := listAppend s.taskReadyList s.currentTask } := h
  exact Sliced.getNextTask (hlist.modTask s.currentTask
    (fun task => { task with ticks := task.priority, status := .READY })
    ⟨Nat.le_refl _, (h s.currentTask).2⟩)

/-- The decrement of the handler does not wrap. -/
theorem countDown_ticks (h : Sliced s) (hpos : s.current.ticks ≠ 0) :
    s.countDown.current.ticks + 1 = s.current.ticks := by
  have hle := h s.currentTask
  have hcur : s.countDown.current.ticks = u8 ((s.current.ticks : Int) - 1) := by
    simp [Sched.countDown, Sched.current, Sched.modTask]
  rw [hcur]
  unfold Sched.current at hpos ⊢
  unfold u8
  omega

theorem Sliced.countDown (h : Sliced s) (hpos : s.current.ticks ≠ 0) : Sliced s.countDown := by
  have hticks := countDown_ticks h hpos
  intro u
  by_cases hu : u = s.currentTask
  · subst hu
    have hcur : (s.countDown.tasks s.currentTask).ticks = s.countDown.current.ticks := rfl
    have hprio : (s.countDown.tasks s.currentTask).priority = (s.tasks s.currentTask).priority := by
      simp [Sched.countDown, Sched.modTask]
    have hle := h s.currentTask
    unfold Sched.current at hticks hpos
    rw [hcur, hprio]
    unfold Sched.current
    omega
  · simpa [Sched.countDown, Sched.modTask, Function.update_of_ne hu] using h u

theorem sliced_kept : KeptByActions Sliced where
  locks _ _ h := h
  call n j _ h := h.timerCall n j
  next _ h := h.getNextTask
  schedule _ h := h.schedule
  countDown _ h hpos := h.countDown hpos
  prim _ _ h hp := h.prim hp
  status s status h _ := h.modTask s.currentTask (fun task => { task with status := status }) (h _)
  loop _ h := h
  start addr stack prio _ h ht := h.taskStart ht addr stack prio

/-- **Every action** keeps the time slices within the priorities. -/
theorem Sliced.act {w : World} (h : Sliced w.sched) (ht : Tame w.sched) (a : Action) :
    Returns (w.act a) fun w' => Sliced w'.sched :=
  sliced_kept.act h ht a
    (fun milliseconds _ => h.modTask w.sched.currentTask (fun task => { task with
      isCollaborativeSchedule := true
      sleepMillisecond := milliseconds }) (h _))
    fun _ => h.taskExit ht _

theorem sliced_mainOnly (addr stack : Nat) : Sliced (mainOnly addr stack) := by
  intro t
  by_cases ht : t = addr
  · subst ht
    simp [mainOnly, inited, initedTask, initFields, u8_lt]
  · simp [mainOnly, inited, ht, tidPoolInit, boot, TaskStruct.zero]

/-- **In every run** the time slices stay within the priorities. -/
theorem allRuns_sliced {w : World} (h : allRuns.Reach w) : Sliced w.sched := by
  refine (allRuns.invariant (I := fun w => Sliced w.sched ∧ Tame w.sched) ?_ ?_ h).1
  · intro w hinit
    refine ⟨?_, (WorldInv.init hinit).tame⟩
    obtain ⟨addr, stack, j, _, hw⟩ := hinit
    rw [start_eq] at hw
    cases hw
    exact sliced_mainOnly addr stack
  · rintro w w' ⟨hs, ht⟩ ⟨a, _, hact⟩
    exact ⟨hs.act ht a w' hact, ht.act a w' hact⟩

/-! ## The position in the ready list -/

def Event.isDispatch : Event → Bool
  | .dispatch _ => true
  | _ => false

/-- A call of `task_unblock` that put a task at the head. -/
def Event.isUnblock : Event → Bool
  | .ready _ .taskUnblock => true
  | _ => false

def dispatches (es : List Event) : Nat := es.countP Event.isDispatch

def unblocks (es : List Event) : Nat := es.countP Event.isUnblock

/-- The 0-based position in the ready list. -/
def Sched.position (s : Sched) (t : TaskId) : Nat := s.taskReadyList.idxOf t

/-- Without a switch, `t` has moved back by the number of unblocks. -/
structure Calm (t : TaskId) (es : List Event) (s s' : Sched) : Prop where
  log : s'.log = s.log ++ es
  none : dispatches es = 0
  mem : t ∈ s'.taskReadyList
  pos : s'.position t = s.position t + unblocks es

/-- The same task runs, with the same time slice left. -/
def SameSlice (s s' : Sched) : Prop :=
  s'.currentTask = s.currentTask ∧ s'.current.ticks = s.current.ticks

/-- No task is in a `while(1)` loop. -/
def NoLoop (s : Sched) : Prop := ∀ u, .loop ∉ s.conts u

/-- What an action does to a waiting task `t`: at most one switch, at the end. -/
inductive Onward (t : TaskId) (s s' : Sched) : Prop
  | stay (es : List Event) : Calm t es s s' → SameSlice s s' → Onward t s s'
  | switch (m : Sched) (es : List Event) : Calm t es s m → getNextTask m = .ok s' → Onward t s s'

theorem Calm.refl (ht : t ∈ s.taskReadyList) : Calm t [] s s :=
  ⟨(List.append_nil _).symm, rfl, ht, rfl⟩

theorem Calm.trans {es es' : List Event} (h : Calm t es s m) (h' : Calm t es' m s') :
    Calm t (es ++ es') s s' := by
  refine ⟨by rw [h'.log, h.log, List.append_assoc], ?_, h'.mem, ?_⟩
  · have h₁ := h.none
    have h₂ := h'.none
    unfold dispatches at h₁ h₂ ⊢
    rw [List.countP_append, h₁, h₂]
  · rw [h'.pos, h.pos]
    unfold unblocks
    rw [List.countP_append]
    omega

/-- Nothing about the ready list or the log changes. -/
theorem Calm.of_eq (ht : t ∈ s.taskReadyList) (hready : s'.taskReadyList = s.taskReadyList)
    (hlog : s'.log = s.log) : Calm t [] s s' :=
  ⟨by rw [hlog, List.append_nil], rfl, by rw [hready]; exact ht, by
    unfold Sched.position
    rw [hready]
    rfl⟩

/-- A task is put at the end of the ready list, or it is not touched. -/
theorem Calm.of_append (ht : t ∈ s.taskReadyList) {e : Event} (l : List TaskId)
    (hready : s'.taskReadyList = s.taskReadyList ++ l) (hlog : s'.log = s.log ++ [e])
    (hd : e.isDispatch = false) (hu : e.isUnblock = false) : Calm t [e] s s' := by
  refine ⟨hlog, by simp [dispatches, hd], by rw [hready]; exact List.mem_append_left _ ht, ?_⟩
  unfold Sched.position unblocks
  rw [hready, List.idxOf_append_of_mem ht]
  simp [hu]

theorem Calm.prim (ht : t ∈ s.taskReadyList) (h : Prim s s') : ∃ es, Calm t es s s' := by
  cases h with
  | wake u _ hu =>
      refine ⟨[.ready u .taskUnblock], rfl, rfl, List.mem_cons_of_mem _ ht, ?_⟩
      have hne : u ≠ t := fun heq => hu (heq ▸ ht)
      show (u :: s.taskReadyList).idxOf t = s.taskReadyList.idxOf t + 1
      rw [List.idxOf_cons_ne _ hne]
  | getchar q byte => exact ⟨_, Calm.of_append ht [] (List.append_nil _).symm rfl rfl rfl⟩
  | _ => exact ⟨[], Calm.of_eq ht rfl rfl⟩

theorem SameSlice.refl (s : Sched) : SameSlice s s := ⟨rfl, rfl⟩

theorem SameSlice.trans (h : SameSlice s m) (h' : SameSlice m s') : SameSlice s s' :=
  ⟨h'.1.trans h.1, h'.2.trans h.2⟩

theorem SameSlice.modTask (s : Sched) (u : TaskId) (f : TaskStruct → TaskStruct)
    (hf : (f (s.tasks u)).ticks = (s.tasks u).ticks) : SameSlice s (s.modTask u f) := by
  refine ⟨rfl, ?_⟩
  by_cases hu : s.currentTask = u
  · subst hu
    simpa [Sched.current, Sched.modTask] using hf
  · simp [Sched.current, Sched.modTask, Function.update_of_ne hu]

theorem SameSlice.prim (h : Prim s s') : SameSlice s s' := by
  cases h with
  | wake u _ hu =>
      exact SameSlice.modTask { s with taskReadyList := u :: s.taskReadyList } u
        (fun task => { task with status := .READY }) rfl
  | _ => exact SameSlice.refl s

theorem NoLoop.prim (h : NoLoop s) (hp : Prim s s') : NoLoop s' := by
  cases hp with
  | push ss hss =>
      intro u hu
      by_cases huc : u = s.currentTask
      · subst huc
        simp only [Sched.push, Function.update_self, List.mem_append] at hu
        exact hu.elim (fun hu => (hss _ hu).2 rfl) (h _)
      · simp only [Sched.push, Function.update_of_ne huc] at hu
        exact h u hu
  | pop st rest _ hc =>
      intro u hu
      by_cases huc : u = s.currentTask
      · subst huc
        simp only [Function.update_self] at hu
        exact h s.currentTask (by rw [hc]; exact List.mem_cons_of_mem _ hu)
      · simp only [Function.update_of_ne huc] at hu
        exact h u hu
  | _ => exact h

theorem Calm.prims (ht : t ∈ s.taskReadyList) (h : Prims s s') :
    (∃ es, Calm t es s s') ∧ SameSlice s s' := by
  induction h with
  | refl => exact ⟨⟨[], Calm.refl ht⟩, SameSlice.refl s⟩
  | tail _ hp ih =>
      obtain ⟨⟨es, hc⟩, hs⟩ := ih
      obtain ⟨es', hc'⟩ := Calm.prim hc.mem hp
      exact ⟨⟨es ++ es', hc.trans hc'⟩, hs.trans (SameSlice.prim hp)⟩

/-- A switch takes the head of the list. -/
theorem getNextTask_eq {m : Sched} (h : getNextTask m = .ok s') : ∃ u rest,
    m.taskReadyList = u :: rest ∧ s'.taskReadyList = rest ∧ s'.log = m.log ++ [.dispatch u] ∧
      s'.currentTask = u ∧ s'.conts = m.conts := by
  unfold getNextTask at h
  cases hr : m.taskReadyList with
  | nil => rw [hr] at h; cases h
  | cons u rest =>
      rw [hr] at h
      cases h
      exact ⟨u, rest, rfl, rfl, rfl, rfl, rfl⟩

/-- The statements of a call, while `t` waits: the task never finds the list empty. -/
theorem Onward.acts (ht : t ∈ s.taskReadyList) (hloop : NoLoop s) (h : Acts s s') :
    Onward t s s' ∧ NoLoop s' := by
  cases h with
  | stay hp =>
      obtain ⟨⟨es, hc⟩, hs⟩ := Calm.prims ht hp
      exact ⟨.stay es hc hs, hp.invariant (fun _ _ => NoLoop.prim) hloop⟩
  | switch m status hp _ hs =>
      obtain ⟨⟨es, hc⟩, _⟩ := Calm.prims ht hp
      refine ⟨.switch (m.setStatus status) es ⟨hc.1, hc.2, hc.3, hc.4⟩ hs, ?_⟩
      obtain ⟨u, rest, _, _, _, _, hconts⟩ := getNextTask_eq hs
      intro v
      rw [hconts]
      exact hp.invariant (fun _ _ => NoLoop.prim) hloop v
  | idle m status hp _ hr _ =>
      obtain ⟨⟨es, hc⟩, _⟩ := Calm.prims ht hp
      have hmem := hc.mem
      rw [hr] at hmem
      cases hmem

/-! ## The other actions -/

variable {p : TaskId → Nat} {pl : TaskId → Option Place}

theorem Onward.taskStart (h : Filed p pl s) (hcur : pl s.currentTask = some .current) (htame : Tame s)
    (ht : t ∈ s.taskReadyList) (hloop : NoLoop s) {addr : Nat} (stack : Nat) (prio : Int)
    (ha : s.allocated addr = false) :
    Returns (taskStart addr stack prio s) fun s' => Onward t s s' ∧ NoLoop s' := by
  have hnone := h.fits_none ha
  have hmain : addr ≠ s.mainTask := fun hc => h.main (hc ▸ hnone)
  have hne : s.currentTask ≠ addr := fun hc => by rw [hc, hnone] at hcur; cases hcur
  by_cases hpool : s.taskPoolList = []
  · unfold ThreadSched.taskStart takeTask
    rw [if_neg (by simp [hpool])]
    show Returns (initTask addr stack prio _ >>= _) _
    rw [initTask_eq (s := { s with allocated := Function.update s.allocated addr true }) htame.tid]
    cases bitmapScan s.tidPool.tidBitmap 1 with
    | none => exact Returns.error
    | some bitIdx =>
        refine returns_assertThat fun _ => returns_assertThat fun _ => Returns.pure ⟨?_, ?_⟩
        · refine .stay _ (Calm.of_append ht [addr] rfl rfl rfl rfl) ⟨?_, ?_⟩
          · simp [Sched.emit, inited, hmain]
          · simp [Sched.current, Sched.emit, inited, hmain, Function.update_of_ne hne]
        · intro u hu
          by_cases hua : u = addr
          · subst hua
            simp [Sched.emit] at hu
          · simp only [Sched.emit, Function.update_of_ne hua] at hu
            exact hloop u hu
  · intro s' hs'
    rw [h.poolDied.taskStart_fails hpool] at hs'
    cases hs'

theorem Onward.taskExit (h : Filed p pl s) (hcur : pl s.currentTask = some .current) (htame : Tame s)
    (ht : t ∈ s.taskReadyList) (hloop : NoLoop s) :
    Returns (taskExit s.currentTask s) fun s' => Onward t s s' ∧ NoLoop s' := by
  have hnot := h.current_not_ready hcur
  have hready : (exitLists s.currentTask s).taskReadyList = s.taskReadyList := by
    simp [exitLists, elemFind, hnot]
  unfold ThreadSched.taskExit
  show Returns (releaseTid _ (exitLists s.currentTask s) >>= _) _
  rw [releaseTid_eq (htame.exitLists _).tid, ok_bind]
  refine Returns.ite (fun hidle => ?_) fun _ => ?_
  · exfalso
    have hnil : s.taskReadyList = [] := hready.symm.trans hidle
    rw [hnil] at ht
    cases ht
  · intro s' hs'
    refine ⟨.switch _ _ (Calm.of_append ht [] ?_ rfl rfl rfl) hs', ?_⟩
    · exact hready.trans (List.append_nil _).symm
    · obtain ⟨u, rest, _, _, _, _, hconts⟩ := getNextTask_eq hs'
      intro v
      rw [hconts]
      exact hloop v

/-- What the callbacks do to a waiting task. -/
def Undelayed (t : TaskId) (s s' : Sched) : Prop :=
  (∃ es, Calm t es s s') ∧ SameSlice s s' ∧ s'.conts = s.conts

theorem undelayed_kept (t : TaskId) (s₀ : Sched) : KeptByCallbacks (Undelayed t s₀) := by
  rintro n M j s ⟨pl, hf, hcur⟩ ⟨⟨es, hc⟩, hs, hconts⟩
  unfold timerCall
  cases hn : n.timer with
  | collaborativeScheduleHelper u =>
      have hp : helpers (n.timer ::ₘ M) u ≠ 0 := by
        rw [hn, helpers_cons]
        simp
      have hasleep : pl u = some .asleep := by
        by_contra hne
        exact hp (by simpa [hne] using (hf.fits u).pending)
      have hne : s.currentTask ≠ u := by
        rintro heq
        rw [heq, hasleep] at hcur
        cases hcur
      refine returns_assertThat fun _ => Returns.pure
        ⟨⟨es ++ [.ready u (.helper n.node j)], hc.trans ?_⟩, hs.trans ⟨rfl, ?_⟩, hconts⟩
      · exact Calm.of_append (e := .ready u (.helper n.node j)) hc.mem [u] rfl rfl rfl rfl
      · simp [Sched.current, Sched.modTask, Sched.emit, Function.update_of_ne hne]
  | cleanDeadTask =>
      refine (cleanDeadTask_freed s).imp ?_
      rintro s' ⟨pool, stackMem, structMem, rfl⟩
      exact ⟨⟨_, hc.trans (Calm.of_eq hc.mem rfl rfl)⟩, hs.trans ⟨rfl, rfl⟩, hconts⟩

theorem undelayed_advance {w : World} (hinv : WorldInv w) (ht : t ∈ w.sched.taskReadyList) (r : Nat) :
    Returns (w.advance r) fun v => WorldInv v ∧ Undelayed t w.sched v.sched :=
  hinv.advance_with (undelayed_kept t w.sched)
    (fun _ _ hs => ⟨hs.1.imp fun _ hc => ⟨hc.log, hc.none, hc.mem, hc.pos⟩, hs.2.1, hs.2.2⟩)
    ⟨⟨[], Calm.refl ht⟩, SameSlice.refl _, rfl⟩ r

/-! ## The potential -/

/-- The handler calls until `t` is dispatched, if nothing is unblocked and no priority is over `P`. -/
def Sched.ahead (s : Sched) (t : TaskId) (P : Nat) : Nat :=
  s.position t * (P + 1) + s.current.ticks + 1

/-- `t` still waits, after `c` handler calls. -/
structure Advances (t : TaskId) (P c : Nat) (es : List Event) (s s' : Sched) : Prop where
  mem : t ∈ s'.taskReadyList
  pos : s'.position t + dispatches es = s.position t + unblocks es
  cost : c + s'.ahead t P ≤ s.ahead t P + unblocks es * (P + 1)

/-- `t` was dispatched, or it has come nearer. -/
def Outcome (t : TaskId) (P c : Nat) (s s' : Sched) : Prop :=
  ∃ es, s'.log = s.log ++ es ∧ (.dispatch t ∈ es ∨ Advances t P c es s s')

theorem Calm.outcome {es : List Event} (h : Calm t es s s') {P c : Nat}
    (hticks : c + s'.current.ticks ≤ s.current.ticks) : Outcome t P c s s' := by
  refine ⟨es, h.log, Or.inr ⟨h.mem, by rw [h.none, h.pos, Nat.add_zero], ?_⟩⟩
  unfold Sched.ahead
  rw [h.pos, Nat.add_mul]
  omega

/-- A switch pays for a handler call. -/
theorem Calm.outcome_switch {es : List Event} (h : Calm t es s m) (hs : getNextTask m = .ok s')
    {P : Nat} (hP : s'.current.ticks ≤ P) : Outcome t P 1 s s' := by
  obtain ⟨u, rest, hready, hrest, hlog, _, _⟩ := getNextTask_eq hs
  refine ⟨es ++ [.dispatch u], by rw [hlog, h.log, List.append_assoc], ?_⟩
  by_cases hu : u = t
  · subst hu
    exact Or.inl (List.mem_append_right _ (List.mem_singleton.2 rfl))
  · right
    have hmem := h.mem
    have hpos := h.pos
    rw [hready] at hmem
    have hd : dispatches (es ++ [.dispatch u]) = 1 := by
      have := h.none
      unfold dispatches at this ⊢
      rw [List.countP_append, this]
      rfl
    have hu' : unblocks (es ++ [.dispatch u]) = unblocks es := by
      unfold unblocks
      rw [List.countP_append]
      rfl
    have hidx : m.position t = s'.position t + 1 := by
      unfold Sched.position
      rw [hready, hrest, List.idxOf_cons_ne _ hu]
    refine ⟨?_, by rw [hd, hu']; omega, ?_⟩
    · rw [hrest]
      exact (List.mem_cons.1 hmem).resolve_left (Ne.symm hu)
    · have hsum : (s'.position t + 1) * (P + 1) = (s.position t + unblocks es) * (P + 1) := by
        rw [← hidx, hpos]
      rw [Nat.add_mul, Nat.add_mul] at hsum
      unfold Sched.ahead
      rw [hu']
      omega

theorem Outcome.weaken {P : Nat} (h : Outcome t P 1 s s') : Outcome t P 0 s s' := by
  obtain ⟨es, hlog, h⟩ := h
  refine ⟨es, hlog, h.imp_right fun h => ⟨h.mem, h.pos, ?_⟩⟩
  have := h.cost
  omega

theorem Onward.outcome (h : Onward t s s') {P : Nat} (hP : s'.current.ticks ≤ P) :
    Outcome t P 0 s s' := by
  cases h with
  | stay es hc hs => exact hc.outcome (by rw [hs.2]; omega)
  | switch m es hc hs => exact (hc.outcome_switch hs hP).weaken

/-- The handler: a switch, or a tick less in the slice. -/
theorem handler_outcome {w : World} (hinv : WorldInv w) (hsl : Sliced w.sched)
    (hloop : NoLoop w.sched) (ht : t ∈ w.sched.taskReadyList) (r P : Nat) :
    Returns (interruptTimerHandler r w) fun w' =>
      NoLoop w'.sched ∧ (w'.sched.current.ticks ≤ P → Outcome t P 1 w.sched w'.sched) := by
  refine returns_assertThat fun _ => ?_
  refine ((undelayed_advance hinv ht r).and (sliced_kept.advance hsl hinv.tame r)).bind ?_
  rintro v ⟨⟨hv, ⟨es, hc⟩, hs, hconts⟩, hslv⟩
  have hloopv : NoLoop v.sched := fun u => by rw [hconts]; exact hloop u
  have hswitch : ∀ {m s' : Sched} (es : List Event), getNextTask m = .ok s' →
      m.conts = v.sched.conts → Calm t es w.sched m →
      NoLoop s' ∧ (s'.current.ticks ≤ P → Outcome t P 1 w.sched s') := by
    intro m s' es hs' hmc hcm
    refine ⟨fun u => ?_, fun hP => hcm.outcome_switch hs' hP⟩
    obtain ⟨_, _, _, _, _, _, hc'⟩ := getNextTask_eq hs'
    rw [hc', hmc]
    exact hloopv u
  refine Returns.ite (fun _ => ?_) fun hz => Returns.ite (fun hflag => Returns.pure ?_) fun _ => ?_
  · refine Returns.bind (P := fun s' => NoLoop s' ∧ (s'.current.ticks ≤ P → Outcome t P 1 w.sched s'))
      ?_ fun s' hs' => Returns.pure hs'
    refine returns_assertThat fun _ => Returns.ite (fun _ => Returns.error) fun _ => fun s' hs' => ?_
    refine hswitch (es ++ [.ready v.sched.currentTask .schedule]) hs' rfl (hc.trans ?_)
    exact Calm.of_append (e := .ready v.sched.currentTask .schedule) hc.mem
      [v.sched.currentTask] rfl rfl rfl rfl
  · have hpos : v.sched.current.ticks ≠ 0 := fun h0 => hz ⟨hflag, h0⟩
    have hticks := countDown_ticks hslv hpos
    refine ⟨hloopv, fun _ => ?_⟩
    have hcd : Calm t es w.sched v.sched.countDown := ⟨hc.log, hc.none, hc.mem, hc.pos⟩
    refine hcd.outcome ?_
    rw [← hs.2]
    show 1 + v.sched.countDown.current.ticks ≤ v.sched.current.ticks
    omega
  · refine returns_createTimer hv.tame.timer ?_
    refine Returns.bind (P := fun s' => NoLoop s' ∧ (s'.current.ticks ≤ P → Outcome t P 1 w.sched s'))
      ?_ fun s' hs' => Returns.pure hs'
    exact Returns.ite (fun _ => Returns.error) fun _ => fun s' hs' => hswitch es hs' rfl hc

/-! ## Runs without an idle task -/

theorem NoLoop.getNextTask (h : NoLoop s) : Returns (getNextTask s) NoLoop := by
  intro s' hs' u
  obtain ⟨_, _, _, _, _, _, hconts⟩ := getNextTask_eq hs'
  rw [hconts]
  exact h u

theorem NoLoop.taskStart (h : NoLoop s) (ht : Tame s) (addr stack : Nat) (prio : Int) :
    Returns (taskStart addr stack prio s) NoLoop := by
  unfold ThreadSched.taskStart
  refine Returns.bind (P := fun r => NoLoop r.2 ∧ Tame r.2) ?_ ?_
  · refine Returns.ite (fun _ => ?_) fun _ => Returns.pure ⟨h, ht.of rfl rfl fun _ _ => Or.inl⟩
    cases s.taskPoolList with
    | nil => exact Returns.error
    | cons t rest =>
        exact returns_assertThat fun _ => Returns.pure ⟨h, ht.of rfl rfl fun _ _ => Or.inl⟩
  · rintro ⟨t, s₁⟩ ⟨h₁, ht₁⟩
    show Returns (initTask t stack prio s₁ >>= _) _
    rw [initTask_eq ht₁.tid]
    cases bitmapScan s₁.tidPool.tidBitmap 1 with
    | none => exact Returns.error
    | some bitIdx =>
        refine returns_assertThat fun _ => returns_assertThat fun _ => Returns.pure fun u hu => ?_
        by_cases hut : u = t
        · subst hut
          simp [Sched.emit] at hu
        · simp only [Sched.emit, Function.update_of_ne hut] at hu
          exact h₁ u hu

/-- An action leaves no loop, or the current task has just entered one. -/
theorem NoLoop.act {w : World} (h : NoLoop w.sched) (ht : Tame w.sched) (a : Action) :
    Returns (w.act a) fun w' => NoLoop w'.sched ∨ w'.sched.Looping := by
  have hpush : ∀ st : Stmt, st ≠ .loop → NoLoop (w.sched.push w.sched.currentTask [st]) := by
    intro st hst u hu
    by_cases huc : u = w.sched.currentTask
    · subst huc
      simp only [Sched.push, Function.update_self, List.cons_append, List.nil_append,
        List.mem_cons] at hu
      exact hu.elim (fun heq => hst heq.symm) (h _)
    · simp only [Sched.push, Function.update_of_ne huc] at hu
      exact h u hu
  have hsched : Returns (schedAction w.sched a >>= fun s => pure { w with sched := s })
      fun w' : World => NoLoop w'.sched ∨ w'.sched.Looping := by
    refine Returns.bind (P := fun s => NoLoop s ∨ s.Looping) ?_ fun s hs => Returns.pure hs
    cases a with
    | taskStart addr stack prio => exact (h.taskStart ht addr stack prio).imp fun _ => Or.inl
    | taskExit =>
        show Returns (releaseTid _ (exitLists w.sched.currentTask w.sched) >>= _) _
        rw [releaseTid_eq (ht.exitLists _).tid, ok_bind]
        refine Returns.ite (fun _ => Returns.ok (Or.inr (Filed.looping_push _))) fun _ => ?_
        exact (NoLoop.getNextTask (by exact h)).imp fun _ => Or.inl
    | resume =>
        refine (runStmt_acts ht).imp fun s' ha => ?_
        cases ha with
        | stay hp => exact Or.inl (hp.invariant (fun _ _ => NoLoop.prim) h)
        | switch m status hp _ hs =>
            have hm : NoLoop m := hp.invariant (fun _ _ => NoLoop.prim) h
            exact Or.inl (NoLoop.getNextTask (s := m.setStatus status) (by exact hm) s' hs)
        | idle m status _ _ _ hs =>
            rw [hs]
            exact Or.inr (Filed.looping_push (m.setStatus status))
    | tick r => exact Returns.pure (Or.inl h)
    | lockAcquire l => exact Returns.pure (Or.inl (hpush _ (by simp)))
    | lockRelease l => exact Returns.pure (Or.inl (hpush _ (by simp)))
    | ioqGetchar q => exact Returns.pure (Or.inl (hpush _ (by simp)))
    | ioqPutchar q byte => exact Returns.pure (Or.inl (hpush _ (by simp)))
    | sleep milliseconds => exact Returns.pure (Or.inl (hpush _ (by simp)))
  cases a with
  | tick r =>
      have hadvance := World.advance_invariant (I := fun s => s.conts = w.sched.conts)
        (fun n j s hs => (timerCall_undisturbed n j s).imp fun _ hu => hu.conts.trans hs)
        (fun _ _ hs => hs) r ht rfl
      refine returns_assertThat fun _ => (hadvance.and (ht.advance r)).bind ?_
      rintro v ⟨hconts, htv⟩
      have hv : NoLoop v.sched := fun u => by rw [hconts]; exact h u
      refine Returns.ite (fun _ => ?_) fun _ => Returns.ite (fun _ => Returns.pure (Or.inl hv))
        fun _ => ?_
      · refine Returns.bind (P := NoLoop) ?_ fun s hs => Returns.pure (Or.inl hs)
        exact returns_assertThat fun _ => Returns.ite (fun _ => Returns.error) fun _ =>
          NoLoop.getNextTask hv
      · refine returns_createTimer htv.timer ?_
        refine Returns.bind (P := NoLoop) ?_ fun s hs => Returns.pure (Or.inl hs)
        exact Returns.ite (fun _ => Returns.error) fun _ => hv.getNextTask
  | _ => exact hsched

theorem busyRuns_noLoop {w : World} (h : busyRuns.Reach w) : NoLoop w.sched := by
  refine (busyRuns.invariant (I := fun w => NoLoop w.sched ∧ Tame w.sched) ?_ ?_ h).1
  · intro w hinit
    refine ⟨?_, (WorldInv.init hinit).tame⟩
    obtain ⟨addr, stack, j, _, hw⟩ := hinit
    rw [start_eq] at hw
    cases hw
    intro u hu
    simp [mainOnly, inited, tidPoolInit, boot] at hu
  · rintro w w' ⟨hl, ht⟩ ⟨⟨a, _, hact⟩, hloop⟩
    exact ⟨(hl.act ht a w' hact).resolve_right hloop, ht.act a w' hact⟩

theorem NoLoop.not_looping (h : NoLoop s) : ¬ s.Looping := by
  intro hl
  refine h s.currentTask ?_
  unfold Sched.Looping at hl
  cases hc : s.conts s.currentTask with
  | nil => rw [hc] at hl; cases hl
  | cons st rest =>
      rw [hc] at hl
      cases hl
      exact List.mem_cons_self

/-! ## The bound -/

/-- The handler calls of an action. -/
def Action.handlerCalls : Action → Nat
  | .tick _ => 1
  | _ => 0

/-- No priority in use is over `P`. -/
def Priorities (P : Nat) : Sched → Prop := Stamped fun task => task.priority ≤ P

/-- A continuation of a run: any actions, `n` of them calls of the handler. -/
inductive Continues (P : Nat) (w : World) : Nat → World → Prop
  | refl : Priorities P w.sched → Continues P w 0 w
  | step {n : Nat} {v v' : World} (a : Action) : Continues P w n v → a.enabled v →
      v.act a = .ok v' → Priorities P v'.sched → Continues P w (n + a.handlerCalls) v'

/-- What holds of the scheduler while a task waits. -/
structure Orderly (w : World) : Prop where
  inv : WorldInv w
  slices : Sliced w.sched
  loops : NoLoop w.sched

theorem Orderly.ticks_le {w : World} (h : Orderly w) {P : Nat} (hP : Priorities P w.sched) :
    w.sched.current.ticks ≤ P := by
  obtain ⟨pl, hf, hcur⟩ := h.inv.running
  have halloc : w.sched.allocated w.sched.currentTask = true := by
    have := (hf.fits w.sched.currentTask).allocated
    rw [hcur] at this
    exact this
  exact (h.slices w.sched.currentTask).1.trans (hP _ halloc)

/-- **One action**: `t` is dispatched or comes nearer. -/
theorem Orderly.act {w w' : World} (h : Orderly w) (ht : t ∈ w.sched.taskReadyList) {a : Action}
    (ha : a.enabled w) (hact : w.act a = .ok w') {P : Nat} (hP : Priorities P w'.sched) :
    Orderly w' ∧ Outcome t P a.handlerCalls w.sched w'.sched := by
  obtain ⟨pl, hf, hcur⟩ := h.inv.running
  have hsl' := h.slices.act h.inv.tame a w' hact
  have hend : ∀ hl : NoLoop w'.sched, Orderly w' := fun hl =>
    ⟨(h.inv.act ha w' hact).resolve_left hl.not_looping, hsl', hl⟩
  have hother : Returns (schedAction w.sched a) (fun s => Onward t w.sched s ∧ NoLoop s) →
      w.act a = (schedAction w.sched a >>= fun s => pure { w with sched := s }) →
      Orderly w' ∧ Outcome t P 0 w.sched w'.sched := by
    intro hsched heq
    rw [heq] at hact
    have hw' : Onward t w.sched w'.sched ∧ NoLoop w'.sched :=
      (hsched.bind (R := fun w' : World => Onward t w.sched w'.sched ∧ NoLoop w'.sched)
        fun s hs => Returns.pure hs) w' hact
    exact ⟨hend hw'.2, hw'.1.outcome ((hend hw'.2).ticks_le hP)⟩
  have hpush : ∀ st : Stmt, st.Plain → st ≠ .loop → Returns
      (pure (w.sched.push w.sched.currentTask [st]) : Except Fault Sched)
      (fun s => Onward t w.sched s ∧ NoLoop s) := by
    intro st hst hne
    refine Returns.pure (Onward.acts ht h.loops (.stay (.single (.push [st] ?_))))
    simpa using ⟨hst, hne⟩
  cases a with
  | tick r =>
      obtain ⟨hl, hout⟩ := handler_outcome h.inv h.slices h.loops ht r P w' hact
      exact ⟨hend hl, hout ((hend hl).ticks_le hP)⟩
  | taskStart addr stack prio =>
      exact hother (Onward.taskStart hf hcur h.inv.tame ht h.loops stack prio ha.2.1) rfl
  | taskExit => exact hother (Onward.taskExit hf hcur h.inv.tame ht h.loops) rfl
  | resume =>
      exact hother ((runStmt_acts h.inv.tame).imp fun _ => Onward.acts ht h.loops) rfl
  | lockAcquire l => exact hother (hpush _ ⟨nofun, nofun⟩ nofun) rfl
  | lockRelease l => exact hother (hpush _ ⟨nofun, nofun⟩ nofun) rfl
  | ioqGetchar q => exact hother (hpush _ trivial nofun) rfl
  | ioqPutchar q byte => exact hother (hpush _ trivial nofun) rfl
  | sleep milliseconds =>
      refine hother (Returns.pure ⟨.stay [] (Calm.of_eq ht rfl rfl) ?_, ?_⟩) rfl
      · refine ⟨rfl, ?_⟩
        simp [markAsleep, Sched.current, Sched.push, Sched.modTask]
      · exact NoLoop.prim (s := w.sched.modTask w.sched.currentTask _) h.loops
          (.push [.sleepSpin] (by simp [Stmt.Plain]))

theorem act_grown (w : World) (a : Action) :
    Returns (w.act a) fun w' => Grown w.sched w'.sched := by
  have hsched : (∀ milliseconds, a ≠ .sleep milliseconds) →
      Returns (schedAction w.sched a >>= fun s => pure { w with sched := s })
        fun w' : World => Grown w.sched w'.sched := fun hne =>
    (schedAction_quiet w.sched hne).bind fun s hs => Returns.pure hs.grown
  cases a with
  | tick r => exact handler_grown r w
  | sleep milliseconds => exact Returns.pure ⟨[], (List.append_nil _).symm⟩
  | _ => exact hsched nofun

/-- **The run lemma**: since `w`, `t` was dispatched, or the potential has gone down. -/
theorem Orderly.continues {w v : World} (h : Orderly w) (ht : t ∈ w.sched.taskReadyList)
    {P n : Nat} (hrun : Continues P w n v) :
    ∃ es, v.sched.log = w.sched.log ++ es ∧
      (.dispatch t ∈ es ∨ Orderly v ∧ Advances t P n es w.sched v.sched) := by
  induction hrun with
  | refl _ => exact ⟨[], (List.append_nil _).symm, Or.inr ⟨h, ht, rfl, by simp [unblocks]⟩⟩
  | step a _ ha hact hP ih =>
      obtain ⟨es, hlog, hes⟩ := ih
      rcases hes with hdispatch | ⟨hv, hadv⟩
      · obtain ⟨es', hlog'⟩ := act_grown _ a _ hact
        exact ⟨es ++ es', by rw [hlog', hlog, List.append_assoc],
          Or.inl (List.mem_append_left _ hdispatch)⟩
      · obtain ⟨hv', es', hlog', hes'⟩ := hv.act hadv.mem ha hact hP
        refine ⟨es ++ es', by rw [hlog', hlog, List.append_assoc], ?_⟩
        rcases hes' with hdispatch | hadv'
        · exact Or.inl (List.mem_append_right _ hdispatch)
        · refine Or.inr ⟨hv', hadv'.mem, ?_, ?_⟩
          · have h₁ := hadv.pos
            have h₂ := hadv'.pos
            unfold dispatches unblocks at h₁ h₂ ⊢
            rw [List.countP_append, List.countP_append]
            omega
          · have h₁ := hadv.cost
            have h₂ := hadv'.cost
            unfold unblocks at h₁ h₂ ⊢
            rw [List.countP_append, Nat.add_mul]
            omega

/-! ## Progress -/

/-- No task was unblocked since the log was `log₀`. -/
def NoUnblock (log₀ : List Event) (s : Sched) : Prop := ∃ es, s.log = log₀ ++ es ∧ unblocks es = 0

theorem NoUnblock.emit {log₀ : List Event} (h : NoUnblock log₀ s) {e : Event}
    (he : e.isUnblock = false) : NoUnblock log₀ (s.emit e) := by
  obtain ⟨es, hlog, hes⟩ := h
  refine ⟨es ++ [e], by rw [Sched.emit, hlog, List.append_assoc], ?_⟩
  unfold unblocks at hes ⊢
  rw [List.countP_append, hes]
  simp [he]

theorem NoUnblock.getNextTask {log₀ : List Event} (h : NoUnblock log₀ s) :
    Returns (getNextTask s) (NoUnblock log₀) := by
  intro s' hs'
  obtain ⟨u, rest, _, _, hlog, _, _⟩ := getNextTask_eq hs'
  obtain ⟨es, he⟩ := h.emit (e := .dispatch u) rfl
  exact ⟨es, hlog.trans he.1, he.2⟩

/-- The handler unblocks nobody. -/
theorem noUnblock_kept (log₀ : List Event) : KeptByHandler (NoUnblock log₀) where
  locks _ _ h := h
  call n j s h := by
    refine (timerCall_called s n j).imp fun s' hc => ?_
    obtain ⟨es, hlog, hes⟩ := h
    obtain ⟨es', hlog', hes'⟩ := hc.log
    refine ⟨es ++ es', by rw [hlog', hlog, List.append_assoc], ?_⟩
    have hnone : unblocks es' = 0 := by
      refine List.countP_eq_zero.2 fun e he => ?_
      obtain ⟨u, rfl⟩ := hes' e he
      exact Bool.false_ne_true
    unfold unblocks at hes hnone ⊢
    rw [List.countP_append, hes, hnone]
  next _ h := h.getNextTask
  schedule s h := by
    refine returns_assertThat fun _ => Returns.ite (fun _ => Returns.error) fun _ => ?_
    have hput : NoUnblock log₀ ((({ s with taskReadyList := listAppend s.taskReadyList s.currentTask }).modTask
        s.currentTask fun task => { task with ticks := task.priority, status := .READY }).emit
          (.ready s.currentTask .schedule)) := NoUnblock.emit (by exact h) rfl
    exact hput.getNextTask
  countDown _ h _ := h

/-- **A handler call while `t` waits** returns when `run_timer` does. -/
theorem Orderly.serves {w m : World} (h : Orderly w) (hall : allRuns.Reach w)
    (ht : t ∈ w.sched.taskReadyList) {r : Nat} (hm : w.runTimer r = .ok m) :
    ∃ w', interruptTimerHandler r w = .ok w' ∧ Serves m.sched w'.sched := by
  obtain ⟨hmagic, hmanaged⟩ := allRuns_magic hall
  have hadvance : w.advance r = .ok m := (hmanaged.advance r).trans hm
  obtain ⟨-, ⟨es, hcalm⟩, -⟩ := undelayed_advance h.inv ht r m hadvance
  exact handler_serves h.inv hmagic hmanaged hm fun _ => List.ne_nil_of_mem hcalm.mem

/-- **Enough handler calls dispatch `t`.** -/
theorem Orderly.dispatched {w : World} (h : Orderly w) (hall : allRuns.Reach w)
    (ht : t ∈ w.sched.taskReadyList) {P : Nat} (hP : Priorities P w.sched) {rs : List Nat}
    (hr : ∀ r ∈ rs, r < 2 ^ 32) (htimers : TimersReturn rs w) (hlen : w.sched.ahead t P ≤ rs.length) :
    ∃ ps w', ps <+: rs ∧ handlerRun ps w = .ok w' ∧
      ∃ es, w'.sched.log = w.sched.log ++ es ∧ .dispatch t ∈ es := by
  induction rs generalizing w with
  | nil =>
      simp [Sched.ahead] at hlen
  | cons r rs ih =>
      obtain ⟨⟨m, hm⟩, hrest⟩ := htimers
      obtain ⟨v, hv, -⟩ := h.serves hall ht hm
      have htick : Action.enabled w (.tick r) := hr r List.mem_cons_self
      have hPv : Priorities P v.sched := (stamped_handler ⟨fun _ _ => id, fun _ _ => id, fun _ => id⟩).handler hP h.inv.tame r v hv
      obtain ⟨hov, es, hlog, hes⟩ := h.act ht htick hv hPv
      have hcall : ∀ ps, handlerRun (r :: ps) w = handlerRun ps v := by
        intro ps
        unfold handlerRun
        rw [List.foldlM_cons, hv, ok_bind]
      rcases hes with hdispatch | hadv
      · refine ⟨[r], v, List.prefix_append [r] rs, ?_, es, hlog, hdispatch⟩
        rw [hcall]
        rfl
      · obtain ⟨es₀, hlog₀, hnone⟩ := (noUnblock_kept w.sched.log).handler
          ⟨[], (List.append_nil _).symm, rfl⟩ h.inv.tame r v hv
        have hes₀ : es = es₀ := List.append_cancel_left (hlog.symm.trans hlog₀)
        have hcost : 1 + v.sched.ahead t P ≤ w.sched.ahead t P + unblocks es * (P + 1) := hadv.cost
        rw [hes₀, hnone] at hcost
        have hlen' : v.sched.ahead t P ≤ rs.length := by
          rw [List.length_cons] at hlen
          omega
        obtain ⟨ps, w', hps, hcalls, es', hlog', hdispatch⟩ := ih hov (hall.step ⟨_, htick, hv⟩) hadv.mem hPv
          (fun r' hr' => hr r' (List.mem_cons_of_mem _ hr')) (hrest v hv) hlen'
        refine ⟨r :: ps, w', List.cons_prefix_cons.2 ⟨rfl, hps⟩, (hcall ps).trans hcalls, es ++ es', ?_,
          List.mem_append_right _ hdispatch⟩
        rw [hlog', hlog, List.append_assoc]

theorem idxOf_le_of_getElem? {l : List TaskId} {k : Nat} (h : l[k]? = some t) : l.idxOf t ≤ k := by
  induction l generalizing k with
  | nil => cases h
  | cons u l ih =>
      by_cases hu : u = t
      · subst hu
        rw [List.idxOf_cons_self]
        exact Nat.zero_le k
      · rw [List.idxOf_cons_ne _ hu]
        cases k with
        | zero => exact absurd (Option.some.inj h) hu
        | succ k => exact Nat.succ_le_succ (ih h)

theorem busyRuns_orderly {w : World} (h : busyRuns.Reach w) : Orderly w :=
  ⟨busyRuns_inv h, allRuns_sliced (busyRuns_all h), busyRuns_noLoop h⟩

theorem Continues.reach {w v : World} {P n : Nat} (hw : allRuns.Reach w) (h : Continues P w n v) :
    allRuns.Reach v := by
  induction h with
  | refl _ => exact hw
  | step a _ ha hact _ ih => exact ih.step ⟨a, ha, hact⟩

theorem Continues.priorities {w v : World} {P n : Nat} (h : Continues P w n v) :
    Priorities P w.sched := by
  induction h with
  | refl hP => exact hP
  | step _ _ _ _ _ ih => exact ih

theorem Continues.priorities_end {w v : World} {P n : Nat} (h : Continues P w n v) :
    Priorities P v.sched := by
  cases h with
  | refl hP => exact hP
  | step _ _ _ _ hP => exact hP

/-- **Bounded waiting.**  Take any state of a run in which the operations that switch away find a
ready task, and a task `t` at position `k` of the ready list.  In any continuation in which no
priority is over `P` and `t` has not been dispatched yet, at most `k` tasks plus one for each unblock
were dispatched, and fewer than `(k + 1 + unblocks) * (P + 1)` handler calls made.  A handler call then
returns whenever `run_timer` does, and dispatches the next task when the slice is used up; so `t` is
dispatched once that many handler calls were made.  All the time no slice is over the priority, and the
handler's decrement does not wrap. -/
theorem bounded_waiting {w v : World} (h : busyRuns.Reach w) {k : Nat}
    (hk : w.sched.taskReadyList[k]? = some t) {P n : Nat} (hrun : Continues P w n v) :
    (∃ es, v.sched.log = w.sched.log ++ es ∧ (.dispatch t ∉ es →
      (dispatches es < k + 1 + unblocks es ∧ n < (k + 1 + unblocks es) * (P + 1)) ∧
      (∀ r m, v.runTimer r = .ok m →
        ∃ v', interruptTimerHandler r v = .ok v' ∧ Serves m.sched v'.sched) ∧
      ∀ rs, (∀ r ∈ rs, r < 2 ^ 32) → TimersReturn rs v →
        (k + 1 + unblocks es) * (P + 1) ≤ n + rs.length →
          ∃ ps v', ps <+: rs ∧ handlerRun ps v = .ok v' ∧
            ∃ es', v'.sched.log = v.sched.log ++ es' ∧ .dispatch t ∈ es')) ∧
    (∀ u, (v.sched.tasks u).ticks ≤ (v.sched.tasks u).priority) ∧
    ∀ r v', v.advance r = .ok v' → v'.sched.current.ticks ≠ 0 →
      v'.sched.countDown.current.ticks + 1 = v'.sched.current.ticks := by
  have hall := busyRuns_all h
  have horderly := busyRuns_orderly h
  have hv := hrun.reach hall
  have hslices := allRuns_sliced hv
  refine ⟨?_, fun u => (hslices u).1, fun r v' hadv hpos => ?_⟩
  · obtain ⟨es, hlog, hes⟩ := horderly.continues (List.mem_of_getElem? hk) hrun
    refine ⟨es, hlog, fun hnot => ?_⟩
    obtain ⟨hov, hadv⟩ := hes.resolve_left hnot
    have hposition : w.sched.position t ≤ k := idxOf_le_of_getElem? hk
    have hticks := horderly.ticks_le hrun.priorities
    have hpos := hadv.pos
    have hcost : n + v.sched.ahead t P ≤ (k + 1 + unblocks es) * (P + 1) := by
      have hcost := hadv.cost
      have hmul : w.sched.position t * (P + 1) ≤ k * (P + 1) := Nat.mul_le_mul_right _ hposition
      unfold Sched.ahead at hcost ⊢
      rw [Nat.add_mul, Nat.add_mul, Nat.one_mul]
      omega
    refine ⟨⟨by omega, ?_⟩, fun r m hm => hov.serves hv hadv.mem hm, fun rs hr htimers hlen => ?_⟩
    · unfold Sched.ahead at hcost
      omega
    · exact hov.dispatched hv hadv.mem hrun.priorities_end hr htimers (by omega)
  · exact countDown_ticks (sliced_kept.advance hslices (allRuns_tame_marksSpin hv).1 r v' hadv) hpos

/-- The priorities of the structs in `task_all_list` and `task_pool_list`, and of the main task. -/
def Sched.ListedWithin (P : Nat) (s : Sched) : Prop :=
  ∀ u ∈ s.mainTask :: (s.taskAllList ++ s.taskPoolList), (s.tasks u).priority ≤ P

instance (P : Nat) (s : Sched) : Decidable (s.ListedWithin P) := inferInstanceAs (Decidable (∀ u ∈ _, _))

/-- No other struct is allocated. -/
theorem Sched.ListedWithin.priorities {w : World} {P : Nat} (hP : w.sched.ListedWithin P)
    (h : WorldInv w) : Priorities P w.sched := by
  intro u hu
  obtain ⟨pl, hf, -⟩ := h.running
  refine hP u ?_
  by_cases hmain : u = w.sched.mainTask
  · exact hmain ▸ List.mem_cons_self
  · exact List.mem_cons_of_mem _ (List.mem_append.2 (hf.listed_iff.2 ⟨hu, fun hx => hmain hx.1⟩))

/-- An action that does not end in an idle loop or give a priority over `P`. -/
abbrev World.nextWithin (P : Nat) : World → Action → Option World :=
  World.next fun _ _ w' => ¬ w'.sched.Looping ∧ w'.sched.ListedWithin P

/-- The main task takes a lock, task `3` runs and waits for it, and the main task starts task `5`. -/
def lockHeld : List Action :=
  [.taskStart 3 4 3, .lockAcquire 0, .resume, .resume, .resume, .tick 0, .tick 0, .tick 0, .tick 0,
    .lockAcquire 0, .resume, .resume, .taskStart 5 6 2]

/-- What the main task then does with the lock. -/
def released (w : World) : Option World := [.lockRelease 0, .resume].foldlM (World.nextWithin 3) w

/-- Task `5` waits at position `0`; the main task releases the lock, which puts task `3` before it; and
task `5` is dispatched within `(0 + 1 + 1) * (3 + 1)` calls of the handler. -/
theorem bounded_waiting_overtaken : ∃ w v v' : World, ∃ es es' ps, busyRuns.Reach w ∧
    w.sched.taskReadyList[0]? = some 5 ∧ v.sched.log = w.sched.log ++ es ∧
    es = [.ready 3 .taskUnblock] ∧ ps <+: List.replicate 8 0 ∧ handlerRun ps v = .ok v' ∧
    v'.sched.log = v.sched.log ++ es' ∧ .dispatch 5 ∈ es' := by
  have hrun : ((start 1 2 0).toOption.bind fun w => lockHeld.foldlM World.nextBusy w).map (fun w =>
      (w.sched.taskReadyList[0]?, decide (w.sched.ListedWithin 3), (released w).map fun v =>
        (v.sched.log.drop w.sched.log.length, (handlerRun (List.replicate 8 0) v).isOk))) =
      some (some 5, true, some ([.ready 3 .taskUnblock], true)) := by
    decide +kernel
  obtain ⟨w, hw, hf⟩ := exists_reach (M := busyRuns) (fun _ h => h) busyRuns_nextBusy (by norm_num) hrun
  simp only [Prod.mk.injEq, decide_eq_true_eq, Option.map_eq_some_iff] at hf
  obtain ⟨hk, hPw, v, hv, hlog, hok⟩ := hf
  simp only [released, List.foldlM_cons, List.foldlM_nil, Option.bind_eq_bind, Option.pure_def,
    Option.bind_eq_some_iff, Option.some.injEq, exists_eq_right] at hv
  obtain ⟨v₁, hv₁, hv⟩ := hv
  obtain ⟨hact₁, hen₁, hloop₁, hP₁⟩ := World.next_eq_some hv₁
  obtain ⟨hact, hen, hloop, hP⟩ := World.next_eq_some hv
  have hr₁ : busyRuns.Reach v₁ := hw.step ⟨⟨_, hen₁, hact₁⟩, hloop₁⟩
  have hr : busyRuns.Reach v := hr₁.step ⟨⟨_, hen, hact⟩, hloop⟩
  have hcont : Continues 3 w 0 v :=
    .step .resume (.step (.lockRelease 0) (.refl (hPw.priorities (busyRuns_inv hw))) hen₁ hact₁
      (hP₁.priorities (busyRuns_inv hr₁))) hen hact (hP.priorities (busyRuns_inv hr))
  obtain ⟨es, hes, hwait⟩ := (bounded_waiting hw hk hcont).1
  rw [hes, List.drop_left] at hlog
  subst hlog
  obtain ⟨u, hu⟩ := exists_ok_of_isOk hok
  have htimers := timersReturn_of_run (allRuns_magic (busyRuns_all hr)).2 hu
  obtain ⟨ps, v', hps, hcalls, es', hes', hmem⟩ :=
    (hwait (by simp)).2.2 (List.replicate 8 0) (by simp) htimers (by decide)
  exact ⟨w, v, v', _, es', ps, hw, hk, hes, rfl, hps, hcalls, hes', hmem⟩

end ThreadSched
