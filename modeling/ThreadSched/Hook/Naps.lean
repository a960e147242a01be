import ThreadSched.Hook.Sleep
import ThreadSched.Task.Wakeups

/-!
# Sleeping calls, statement by statement (`hook.c` and `interrupt/timer.c`)

Tasks call `sleep`, `nanosleep` and `usleep` in the middle of everything else they do, and the clock may
interrupt a call between any two of its statements.

* `Nap`, `Naps` — a call with the statements it has left and the timers created for it, and the
  scheduler with the call each task is in.
* `NapAction`, `Naps.next`, `napRuns` — the runs.
* `SleepOk` — one timer, for the milliseconds requested, and no return before it has fired.
* `naps_sleepOk` — this holds of a task whose calls are not interrupted between the mark and the duration
  it is to be read with; `sleep_cut_short` — it fails of others.
-/

set_option autoImplicit false

namespace ThreadSched.Hook

/-- A call of one of the wrappers: the milliseconds requested, the statements left to execute, and the
timers the handler created during the call, each a node and a delay. -/
structure Nap where
  requested : Nat
  left : List SleepStmt
  created : List (Nat × Nat)
  deriving DecidableEq

/-- The scheduler, and the call of a wrapper that each task made last. -/
structure Naps where
  world : World
  call : TaskId → Option Nap

/-- The milliseconds requested, rounded down. -/
def LibraryCall.milliseconds : LibraryCall → Nat
  | .sleep seconds => seconds * 1000
  | .nanosleep tvSec tvNsec => (tvSec * 1000 + tvNsec / 1000000).toNat
  | .usleep usec => usec / 1000

/-- `unsigned int` and `useconds_t` have 32 bits; `nanosleep` takes times that are not negative, with
`tv_nsec` less than a second. -/
def LibraryCall.InRange : LibraryCall → Prop
  | .sleep seconds => seconds < 2 ^ 32
  | .nanosleep tvSec tvNsec => 0 ≤ tvSec ∧ tvSec < 2 ^ 63 ∧ 0 ≤ tvNsec ∧ tvNsec < 1000000000
  | .usleep usec => usec < 2 ^ 32

/-- The wrapper that is called. -/
def wrapper (current : TaskStruct) : LibraryCall → Wrapped
  | .sleep seconds => sleep seconds current
  | .nanosleep tvSec tvNsec => nanosleep tvSec tvNsec current
  | .usleep usec => usleep usec current

namespace Naps

/-- `t` is in a call. -/
def InCall (x : Naps) (t : TaskId) : Prop := ∃ c, x.call t = some c ∧ c.left ≠ []

instance (x : Naps) (t : TaskId) : Decidable (x.InCall t) :=
  match h : x.call t with
  | none => .isFalse (by rintro ⟨c, hc, -⟩; rw [h] at hc; cases hc)
  | some c => decidable_of_iff (c.left ≠ []) ⟨fun hc => ⟨c, h, hc⟩, by
      rintro ⟨c', hc', hleft⟩
      rw [h] at hc'
      cases hc'
      exact hleft⟩

/-- The current task calls a wrapper. -/
def enter (x : Naps) (f : LibraryCall) : Naps :=
  match wrapper x.world.sched.current f with
  | .library _ => x
  | .body stmts => { x with
      call := Function.update x.call x.world.sched.currentTask (some ⟨f.milliseconds, stmts, []⟩) }

/-- The current task executes the next statement `st` of its call `c`. -/
def execute (x : Naps) (c : Nap) (st : SleepStmt) (rest : List SleepStmt) : Naps where
  world := { x.world with
    sched := x.world.sched.modTask x.world.sched.currentTask fun task => st.exec task }
  call := Function.update x.call x.world.sched.currentTask (some { c with left := rest })

/-- The current task goes on with its call; it spins as long as it is marked. -/
def statement (x : Naps) : Naps :=
  match x.call x.world.sched.currentTask with
  | none => x
  | some c =>
    match c.left with
    | [] => x
    | st :: rest =>
      if st = .spin ∧ x.world.sched.current.isCollaborativeSchedule = true then x
      else x.execute c st rest

/-- The handler created a timer for the current task: it belongs to the call the task is in. -/
def record (call : TaskId → Option Nap) (v : World) : TaskId → Option Nap :=
  Function.update call v.sched.currentTask ((call v.sched.currentTask).map fun c =>
    { c with created := c.created ++ [(v.nodes, v.sched.current.sleepMillisecond)] })

/-- `interrupt_timer_handler`. -/
def tick (uJiffies : Nat) (x : Naps) : Except ThreadSched.Fault Naps := do
  let w ← interruptTimerHandler uJiffies x.world
  let v ← x.world.advance uJiffies
  pure ⟨w, if v.sched.current.isCollaborativeSchedule then record x.call v else x.call⟩

/-- `co_enable_hook_sys`. -/
def coEnableHookSys (x : Naps) : Naps :=
  { x with world := { x.world with
      sched := x.world.sched.modTask x.world.sched.currentTask fun task =>
        { task with isHook := true } } }

end Naps

/-- What the current task does next, or that the clock interrupts it. -/
inductive NapAction
  | call (f : LibraryCall)
  /-- The next statement of the wrapper. -/
  | statement
  | coEnableHookSys
  /-- Anything else a task does. -/
  | act (a : Action)
  | tick (uJiffies : Nat)

/-- When an action can happen. -/
def NapAction.enabled (x : Naps) : NapAction → Prop
  | .call f => x.world.sched.conts x.world.sched.currentTask = [] ∧
      ¬ x.InCall x.world.sched.currentTask ∧ f.InRange
  | .statement => x.InCall x.world.sched.currentTask
  | .coEnableHookSys => x.world.sched.conts x.world.sched.currentTask = [] ∧
      ¬ x.InCall x.world.sched.currentTask
  | .act a => ¬ x.InCall x.world.sched.currentTask ∧ a.enabled x.world ∧
      (∀ milliseconds, a ≠ .sleep milliseconds) ∧ ∀ uJiffies, a ≠ .tick uJiffies
  | .tick uJiffies => uJiffies < 2 ^ 32

/-- One action. -/
def Naps.next (x : Naps) : NapAction → Except ThreadSched.Fault Naps
  | .call f => .ok (x.enter f)
  | .statement => .ok x.statement
  | .coEnableHookSys => .ok x.coEnableHookSys
  | .act a => do
    let w ← x.world.act a
    pure { x with world := w }
  | .tick uJiffies => x.tick uJiffies

/-- The runs whose actions all meet the condition `C`. -/
def napRuns (C : Naps → NapAction → Prop) : Trans.Sys Naps where
  init x := World.Init x.world ∧ x.call = fun _ => none
  step x x' := ∃ a : NapAction, a.enabled x ∧ C x a ∧ x.next a = .ok x'

/-! ## Sleeping right -/

/-- The last call of `t` got one timer at most, for the milliseconds requested; and one, which has
fired, if it has returned. -/
def SleepOk (t : TaskId) (x : Naps) : Prop :=
  ∀ c, x.call t = some c → c.created.length ≤ 1 ∧ (∀ p ∈ c.created, p.2 = c.requested) ∧
    (c.left = [] → ∃ n j, c.created = [(n, c.requested)] ∧
      Event.ready t (.helper n j) ∈ x.world.sched.log)

/-- What `t` asks for fits into 32 bits, and the clock does not interrupt its call between the mark and
the last write to `sleep_millisecond`, unless the milliseconds requested are already there. -/
def Timely (t : TaskId) (x : Naps) : NapAction → Prop
  | .call f => t = x.world.sched.currentTask → f.milliseconds < 2 ^ 32
  | .tick _ => t = x.world.sched.currentTask → x.world.sched.marked t = true →
      ∀ c, x.call t = some c → c.left ≠ [.spin] →
        (x.world.sched.tasks t).sleepMillisecond = c.requested
  | _ => True

/-! ## The invariant -/

section

variable {g : Sleeping} {w : World} {x x' : Naps} {t : TaskId}

/-- The statements that set the duration. -/
def SleepStmt.Writes (st : SleepStmt) : Prop := st ≠ .spin ∧ st ≠ .setCollaborative

/-- The milliseconds a task has after the statements `ws`. -/
def msAfter (ws : List SleepStmt) (task : TaskStruct) : Nat :=
  (ws.foldl SleepStmt.exec task).sleepMillisecond

/-- **The phases of a call.** -/
inductive Phase (g : Sleeping) (s : Sched) (t : TaskId) (c : Nap) : Prop
  | entered (ws : List SleepStmt) (hw : ∀ st ∈ ws, st.Writes)
      (hleft : c.left = .setCollaborative :: (ws ++ [.spin]))
      (hms : ∀ task, msAfter ws task = c.requested)
      (hmark : g.marked t = false) (hcreated : c.created = [])
  | marked (ws : List SleepStmt) (hw : ∀ st ∈ ws, st.Writes) (hleft : c.left = ws ++ [.spin])
      (hms : msAfter ws (s.tasks t) = c.requested) (hcur : t = s.currentTask)
      (hmark : g.marked t = true) (hcreated : c.created = [])
  | asleep (ws : List SleepStmt) (hw : ∀ st ∈ ws, st.Writes) (hleft : c.left = ws ++ [.spin]) (n : Nat)
      (htimers : g.timers t = {n}) (hcreated : c.created = [(n, c.requested)])
  | woken (n j : Nat) (hleft : .setCollaborative ∉ c.left) (hmark : g.marked t = false)
      (hcreated : c.created = [(n, c.requested)]) (hlog : Event.ready t (.helper n j) ∈ s.log)

/-- A call ends with the loop. -/
def Nap.Ends (c : Nap) : Prop := c.left ≠ [] → c.left.getLast? = some .spin

/-- **The invariant** for the calls of `t`. -/
structure NapInv (t : TaskId) (x : Naps) (g : Sleeping) : Prop where
  watch : Watch g x.world
  inCall : ∀ u, g.inCall u ↔ x.InCall u
  ends : ∀ u c, x.call u = some c → c.Ends
  phase : ∀ c, x.call t = some c → Phase g x.world.sched t c

theorem NapInv.sleepOk (h : NapInv t x g) : SleepOk t x := by
  intro c hc
  cases h.phase c hc with
  | entered ws hw hleft hms hmark hcreated =>
      rw [hcreated, hleft]
      exact ⟨Nat.zero_le 1, nofun, nofun⟩
  | marked ws hw hleft hms hcur hmark hcreated =>
      rw [hcreated, hleft]
      exact ⟨Nat.zero_le 1, nofun, fun hnil => absurd hnil (by simp)⟩
  | asleep ws hw hleft n htimers hcreated =>
      rw [hcreated, hleft]
      exact ⟨le_refl 1, by simp, fun hnil => absurd hnil (by simp)⟩
  | woken n j hleft hmark hcreated hlog =>
      rw [hcreated]
      exact ⟨le_refl 1, by simp, fun _ => ⟨n, j, rfl, hlog⟩⟩

/-- The body of a wrapper marks the task, writes the duration and spins; what it writes are the
milliseconds requested, where these fit. -/
theorem wrapper_body {current : TaskStruct} {f : LibraryCall} {stmts : List SleepStmt}
    (hf : wrapper current f = .body stmts) :
    ∃ ws, (∀ st ∈ ws, st.Writes) ∧ stmts = .setCollaborative :: (ws ++ [.spin]) ∧
      (f.InRange → f.milliseconds < 2 ^ 32 → ∀ task, msAfter ws task = f.milliseconds) := by
  cases f with
  | sleep seconds =>
      have hf : sleep seconds current = .body stmts := hf
      rw [sleep_eq_body] at hf
      cases hf
      refine ⟨[.setMillisecond _], by simp [SleepStmt.Writes], rfl, ?_⟩
      intro _ hsmall _
      exact uint32_of_lt hsmall
  | nanosleep tvSec tvNsec =>
      have hf : nanosleep tvSec tvNsec current = .body stmts := hf
      unfold nanosleep at hf
      split at hf
      · cases hf
      · cases hf
        refine ⟨[.setMillisecond _, .addMillisecond _], by simp [SleepStmt.Writes], rfl, ?_⟩
        rintro ⟨hsec, -, hnsec, -⟩ hsmall task
        obtain ⟨sec, rfl⟩ := Int.eq_ofNat_of_zero_le hsec
        obtain ⟨nsec, rfl⟩ := Int.eq_ofNat_of_zero_le hnsec
        have hms : LibraryCall.milliseconds (.nanosleep sec nsec) = sec * 1000 + nsec / 1000000 := by
          show ((sec : Int) * 1000 + (nsec : Int) / 1000000).toNat = _
          omega
        rw [hms] at hsmall ⊢
        have hfirst : uint32 ((sec : Int) * 1000) = sec * 1000 := by
          have hlt : sec * 1000 < 2 ^ 32 := lt_of_le_of_lt (Nat.le_add_right _ _) hsmall
          rw [← uint32_of_lt hlt]
          congr 1
        have hsum : (nsec : Int).tdiv 1000000 = ((nsec / 1000000 : Nat) : Int) := by
          rw [Int.tdiv_eq_ediv_of_nonneg hnsec]
          omega
        simp only [msAfter, List.foldl_cons, List.foldl_nil, SleepStmt.exec, hfirst, hsum]
        rw [← Nat.cast_add]
        exact uint32_of_lt hsmall
  | usleep usec =>
      have hf : usleep usec current = .body stmts := hf
      unfold usleep at hf
      split at hf
      · cases hf
      · cases hf
        exact ⟨[.setMillisecond _], by simp [SleepStmt.Writes], rfl, fun _ _ _ => rfl⟩

/-! ## Steps -/

/-- A task that is not current stays where it is in its call. -/
theorem Phase.other {g' : Sleeping} {s s' : Sched} {c : Nap} (h : Phase g s t c)
    (ht : t ≠ s.currentTask) (hmarked : g'.marked t = g.marked t) (htimers : g'.timers t = g.timers t)
    (hgrown : Grown s s') : Phase g' s' t c := by
  cases h with
  | entered ws hw hleft hms hmark hcreated =>
      exact .entered ws hw hleft hms (hmarked.trans hmark) hcreated
  | marked ws hw hleft hms hcur hmark hcreated => exact absurd hcur ht
  | asleep ws hw hleft n hn hcreated => exact .asleep ws hw hleft n (htimers.trans hn) hcreated
  | woken n j hleft hmark hcreated hlog =>
      exact .woken n j hleft (hmarked.trans hmark) hcreated (hgrown.mem hlog)

/-- So does one that has returned. -/
theorem Phase.returned {g' : Sleeping} {s s' : Sched} {c : Nap} (h : Phase g s t c)
    (hleft : c.left = []) (hmarked : g'.marked t = g.marked t) (hgrown : Grown s s') :
    Phase g' s' t c := by
  cases h with
  | entered ws hw hl hms hmark hcreated =>
      rw [hleft] at hl
      cases hl
  | marked ws hw hl hms hcur hmark hcreated =>
      rw [hleft] at hl
      exact absurd hl.symm (by simp)
  | asleep ws hw hl n hn hcreated =>
      rw [hleft] at hl
      exact absurd hl.symm (by simp)
  | woken n j hleft hmark hcreated hlog =>
      exact .woken n j hleft (hmarked.trans hmark) hcreated (hgrown.mem hlog)

theorem Naps.inCall_congr {u : TaskId} (hcall : x'.call u = x.call u) :
    x'.InCall u ↔ x.InCall u := by
  unfold Naps.InCall
  rw [hcall]

theorem Naps.left_of_not_inCall {u : TaskId} {c : Nap} (hu : ¬ x.InCall u) (hc : x.call u = some c) :
    c.left = [] := by
  by_contra hleft
  exact hu ⟨c, hc, hleft⟩

theorem NapInv.enter (h : NapInv t x g) {f : LibraryCall}
    (hconts : x.world.sched.conts x.world.sched.currentTask = [])
    (hcall : ¬ x.InCall x.world.sched.currentTask) (hrange : f.InRange)
    (hsmall : t = x.world.sched.currentTask → f.milliseconds < 2 ^ 32) :
    ∃ g', NapInv t (x.enter f) g' := by
  cases hf : wrapper x.world.sched.current f with
  | library call =>
      have hx : x.enter f = x := by
        unfold Naps.enter
        rw [hf]
      rw [hx]
      exact ⟨g, h⟩
  | body stmts =>
      obtain ⟨ws, hw, hstmts, hms⟩ := wrapper_body hf
      have hx : x.enter f = { x with
          call := Function.update x.call x.world.sched.currentTask
            (some ⟨f.milliseconds, stmts, []⟩) } := by
        unfold Naps.enter
        rw [hf]
      have hworld : (x.enter f).world = x.world := by rw [hx]
      have hself : (x.enter f).call x.world.sched.currentTask = some ⟨f.milliseconds, stmts, []⟩ := by
        rw [hx]
        exact Function.update_self _ _ _
      have hother : ∀ u, u ≠ x.world.sched.currentTask → (x.enter f).call u = x.call u := by
        intro u hu
        rw [hx]
        exact Function.update_of_ne hu _ _
      have hseat := h.watch.steady.seated (not_stuck_of_conts hconts)
      have hmark : g.marked x.world.sched.currentTask = false := by
        by_contra hm
        exact hcall ((h.inCall _).1 (h.watch.steady.upright.markedInCall _ (by simpa using hm)))
      refine ⟨{ g with inCall := (x.enter f).InCall }, ?_, fun u => Iff.rfl, ?_, ?_⟩
      · rw [hworld]
        refine h.watch.calls ?_ ?_
        · intro u hu
          by_cases huc : u = x.world.sched.currentTask
          · subst huc
            exact ⟨hconts, hseat.allocated, Or.inl hseat.running⟩
          · rw [Naps.inCall_congr (hother u huc)] at hu
            exact h.watch.steady.upright.resting u ((h.inCall u).2 hu)
        · intro u hu
          have hin := (h.inCall u).1 (h.watch.steady.upright.markedInCall u hu)
          have huc : u ≠ x.world.sched.currentTask := by
            rintro rfl
            exact hcall hin
          exact (Naps.inCall_congr (hother u huc)).2 hin
      · intro u c hc
        by_cases huc : u = x.world.sched.currentTask
        · rw [huc, hself] at hc
          cases hc
          intro _
          rw [hstmts, List.getLast?_cons, List.getLast?_append]
          rfl
        · rw [hother u huc] at hc
          exact h.ends u c hc
      · intro c hc
        rw [hworld]
        by_cases htc : t = x.world.sched.currentTask
        · rw [htc, hself] at hc
          cases hc
          refine .entered ws hw hstmts (hms hrange (hsmall htc)) ?_ rfl
          rw [htc]
          exact hmark
        · rw [hother t htc] at hc
          exact (h.phase c hc).other htc rfl rfl (Grown.refl _)

/-- The statements other than the mark leave it. -/
theorem exec_marked {st : SleepStmt} (hst : st ≠ .setCollaborative) (task : TaskStruct) :
    (st.exec task).isCollaborativeSchedule = task.isCollaborativeSchedule := by
  cases st with
  | setCollaborative => exact absurd rfl hst
  | setMillisecond ms => rfl
  | addMillisecond ms => rfl
  | spin => rfl

theorem exec_status (st : SleepStmt) (task : TaskStruct) : (st.exec task).status = task.status := by
  cases st with
  | setCollaborative => rfl
  | setMillisecond ms => rfl
  | addMillisecond ms => rfl
  | spin => rfl

/-- **A statement** of the current task's call. -/
theorem Phase.exec {g' : Sleeping} {s s' : Sched} {c : Nap} (h : Phase g s t c)
    (hpend : g.timers t = 0) (hmarks : s.marked t = g.marked t) {st : SleepStmt}
    {rest : List SleepStmt} (hleft : c.left = st :: rest)
    (hspin : ¬ (st = .spin ∧ (s.tasks t).isCollaborativeSchedule = true))
    (hmarked : g'.marked t = (st.exec (s.tasks t)).isCollaborativeSchedule)
    (htask : s'.tasks t = st.exec (s.tasks t)) (hcur : t = s'.currentTask) (hgrown : Grown s s') :
    Phase g' s' t { c with left := rest } := by
  cases h with
  | entered ws hw hl hms hmark hcreated =>
      rw [hleft] at hl
      cases hl
      refine .marked ws hw rfl ?_ hcur hmarked hcreated
      rw [htask]
      exact hms _
  | marked ws hw hl hms hcur' hmark hcreated =>
      rw [hleft] at hl
      cases ws with
      | nil =>
          cases hl
          exact absurd ⟨rfl, hmarks.trans hmark⟩ hspin
      | cons st' ws =>
          cases hl
          have hst := hw st List.mem_cons_self
          refine .marked ws (fun st' hst' => hw st' (List.mem_cons_of_mem _ hst')) rfl ?_ hcur ?_ hcreated
          · rw [htask]
            exact hms
          · rw [hmarked, exec_marked hst.2]
            exact hmarks.trans hmark
  | asleep ws hw hl n hn hcreated =>
      rw [hpend] at hn
      exact absurd hn.symm (Multiset.singleton_ne_zero n)
  | woken n j hl hmark hcreated hlog =>
      rw [hleft, List.mem_cons, not_or] at hl
      refine .woken n j hl.2 ?_ hcreated (hgrown.mem hlog)
      rw [hmarked, exec_marked (Ne.symm hl.1)]
      exact hmarks.trans hmark

theorem NapInv.execute (h : NapInv t x g) {c : Nap} {st : SleepStmt} {rest : List SleepStmt}
    (hc : x.call x.world.sched.currentTask = some c) (hleft : c.left = st :: rest)
    (hspin : ¬ (st = .spin ∧ x.world.sched.current.isCollaborativeSchedule = true)) :
    ∃ g', NapInv t (x.execute c st rest) g' := by
  have hin : g.inCall x.world.sched.currentTask :=
    (h.inCall _).2 ⟨c, hc, by rw [hleft]; exact List.cons_ne_nil st rest⟩
  have hns := h.watch.steady.upright.not_stuck hin
  have hmarks : g.marked x.world.sched.currentTask = x.world.sched.current.isCollaborativeSchedule :=
    (h.watch.steady.upright.marks _).symm
  have hself : (x.execute c st rest).call x.world.sched.currentTask = some { c with left := rest } :=
    Function.update_self _ _ _
  have hother : ∀ u, u ≠ x.world.sched.currentTask → (x.execute c st rest).call u = x.call u :=
    fun u hu => Function.update_of_ne hu _ _
  have hcur : (x.execute c st rest).world.sched.currentTask = x.world.sched.currentTask := rfl
  have htask : (x.execute c st rest).world.sched.tasks x.world.sched.currentTask =
      st.exec x.world.sched.current := Function.update_self _ _ _
  have hin' : ∀ u, (x.execute c st rest).InCall u → x.InCall u := by
    intro u hu
    by_cases huc : u = x.world.sched.currentTask
    · rw [huc]
      exact (h.inCall _).1 hin
    · exact (Naps.inCall_congr (hother u huc)).1 hu
  -- the loop comes last
  have hends : ∀ st' rest', rest = st' :: rest' → rest.getLast? = some .spin := by
    intro st' rest' hrest
    have hlast := h.ends _ c hc (by rw [hleft]; exact List.cons_ne_nil st rest)
    rw [hleft, hrest, List.getLast?_cons_cons] at hlast
    rw [hrest]
    exact hlast
  have hnil : st ≠ .spin → rest ≠ [] := by
    rintro hst rfl
    have hlast := h.ends _ c hc (by rw [hleft]; exact List.cons_ne_nil st [])
    rw [hleft, List.getLast?_singleton] at hlast
    exact hst (Option.some.inj hlast)
  have hwatch := h.watch.modCurrent hns (fun task => st.exec task) (exec_status st _) fun _ => hin
  refine ⟨⟨(x.execute c st rest).InCall, Function.update g.marked x.world.sched.currentTask
    (st.exec x.world.sched.current).isCollaborativeSchedule, g.timers⟩,
    hwatch.calls ?_ ?_, fun u => Iff.rfl, ?_, ?_⟩
  · intro u hu
    exact hwatch.steady.upright.resting u ((h.inCall u).2 (hin' u hu))
  · intro u hu
    by_cases huc : u = x.world.sched.currentTask
    · subst huc
      refine ⟨_, hself, hnil ?_⟩
      rintro rfl
      exact hspin ⟨rfl, (Function.update_self _ _ g.marked).symm.trans hu⟩
    · have hu := (Function.update_of_ne huc _ g.marked).symm.trans hu
      exact (Naps.inCall_congr (hother u huc)).2
        ((h.inCall u).1 (h.watch.steady.upright.markedInCall u hu))
  · intro u c' hc'
    by_cases huc : u = x.world.sched.currentTask
    · rw [huc, hself] at hc'
      cases hc'
      intro hne
      obtain ⟨st', rest', hrest⟩ := List.exists_cons_of_ne_nil hne
      exact hends st' rest' hrest
    · rw [hother u huc] at hc'
      exact h.ends u c' hc'
  · intro c' hc'
    by_cases htc : t = x.world.sched.currentTask
    · subst htc
      rw [hself] at hc'
      cases hc'
      exact (h.phase c hc).exec (h.watch.steady.seated hns).pending (h.watch.steady.upright.marks _)
        hleft hspin (Function.update_self _ _ g.marked) htask rfl (Grown.refl _)
    · rw [hother t htc] at hc'
      exact (h.phase c' hc').other htc (Function.update_of_ne htc _ g.marked) rfl (Grown.refl _)

theorem NapInv.statement (h : NapInv t x g) : ∃ g', NapInv t x.statement g' := by
  unfold Naps.statement
  cases hc : x.call x.world.sched.currentTask with
  | none => exact ⟨g, h⟩
  | some c =>
      cases hleft : c.left with
      | nil =>
          simp only [hleft]
          exact ⟨g, h⟩
      | cons st rest =>
          simp only [hleft]
          split
          · exact ⟨g, h⟩
          · exact h.execute hc hleft ‹_›

theorem NapInv.coEnableHookSys (h : NapInv t x g)
    (hconts : x.world.sched.conts x.world.sched.currentTask = [])
    (hcall : ¬ x.InCall x.world.sched.currentTask) : ∃ g', NapInv t x.coEnableHookSys g' := by
  have hmarks := h.watch.steady.upright.marks x.world.sched.currentTask
  have hwatch := h.watch.modCurrent (not_stuck_of_conts hconts)
    (fun task => { task with isHook := true }) rfl
    fun hm => h.watch.steady.upright.markedInCall _ (hmarks.symm.trans hm)
  refine ⟨_, hwatch, h.inCall, h.ends, ?_⟩
  intro c hc
  by_cases htc : t = x.world.sched.currentTask
  · refine (h.phase c hc).returned ?_ ?_ (Grown.refl _)
    · exact Naps.left_of_not_inCall (htc ▸ hcall) hc
    · subst htc
      exact (Function.update_self _ _ g.marked).trans hmarks
  · exact (h.phase c hc).other htc (Function.update_of_ne htc _ g.marked) rfl (Grown.refl _)

theorem NapInv.act (h : NapInv t x g) {a : Action} (hcall : ¬ x.InCall x.world.sched.currentTask)
    (ha : a.enabled x.world) (hsleep : ∀ milliseconds, a ≠ .sleep milliseconds)
    (htick : ∀ r, a ≠ .tick r) {w : World} (hact : x.world.act a = .ok w) :
    NapInv t { x with world := w } g := by
  have hnot : ¬ g.inCall x.world.sched.currentTask := fun hin => hcall ((h.inCall _).1 hin)
  obtain ⟨hwatch, hgrown⟩ := h.watch.act hnot ha hsleep htick w hact
  refine ⟨hwatch, h.inCall, h.ends, ?_⟩
  intro c hc
  by_cases htc : t = x.world.sched.currentTask
  · exact (h.phase c hc).returned (Naps.left_of_not_inCall (htc ▸ hcall) hc) rfl hgrown
  · exact (h.phase c hc).other htc rfl rfl hgrown

theorem Naps.record_other {call : TaskId → Option Nap} {v : World} {u : TaskId}
    (hu : u ≠ v.sched.currentTask) : Naps.record call v u = call u := Function.update_of_ne hu _ _

theorem Naps.record_self {call : TaskId → Option Nap} {v : World} {c : Nap}
    (hc : call v.sched.currentTask = some c) : Naps.record call v v.sched.currentTask =
      some { c with created := c.created ++ [(v.nodes, v.sched.current.sleepMillisecond)] } := by
  unfold Naps.record
  rw [Function.update_self, hc]
  rfl

/-- What is left of a call does not depend on the timers. -/
theorem Naps.record_left {call : TaskId → Option Nap} {v : World} {u : TaskId} {c : Nap}
    (hc : Naps.record call v u = some c) : ∃ c₀, call u = some c₀ ∧ c.left = c₀.left := by
  by_cases hu : u = v.sched.currentTask
  · subst hu
    cases hcall : call v.sched.currentTask with
    | none =>
        unfold Naps.record at hc
        rw [Function.update_self, hcall] at hc
        cases hc
    | some c₀ =>
        rw [Naps.record_self hcall] at hc
        cases hc
        exact ⟨c₀, rfl, rfl⟩
  · rw [Naps.record_other hu] at hc
    exact ⟨c, hc, rfl⟩

/-- A tick does not end a call, whether a timer is created or not. -/
theorem NapInv.record (h : NapInv t x g) (v w : World) (b : Bool) :
    (∀ u, Naps.InCall ⟨w, if b then Naps.record x.call v else x.call⟩ u ↔ x.InCall u) ∧
    ∀ u c, (if b then Naps.record x.call v else x.call) u = some c → c.Ends := by
  cases b with
  | false => exact ⟨fun u => Iff.rfl, h.ends⟩
  | true =>
      constructor
      · intro u
        constructor
        · rintro ⟨c, hc, hleft⟩
          obtain ⟨c₀, hc₀, heq⟩ := Naps.record_left hc
          rw [heq] at hleft
          exact ⟨c₀, hc₀, hleft⟩
        · rintro ⟨c, hc, hleft⟩
          by_cases hu : u = v.sched.currentTask
          · subst hu
            exact ⟨_, Naps.record_self hc, hleft⟩
          · exact ⟨c, (Naps.record_other hu).trans hc, hleft⟩
      · intro u c hc
        obtain ⟨c₀, hc₀, heq⟩ := Naps.record_left hc
        unfold Nap.Ends
        rw [heq]
        exact h.ends u c₀ hc₀

/-- A tick does nothing to a call that it does not interrupt between mark and loop, other than to wake
the sleeper. -/
theorem Phase.tick {g' g'' : Sleeping} {s v s' : Sched} {c : Nap} (h : Phase g s t c)
    (ht : t ≠ s.currentTask ∨ g.marked t = false) (haw : Awakened g g' v)
    (hmarked : g''.marked t = g'.marked t) (htimers : g''.timers t = g'.timers t)
    (hgrown : Grown s s') (hgrown' : Grown v s') : Phase g'' s' t c := by
  have hunmarked : g.marked t = false → g''.marked t = false := by
    intro hmark
    rw [hmarked]
    rcases haw.each t with ⟨hm, -⟩ | ⟨hm, -⟩
    · exact hm.trans hmark
    · exact hm
  cases h with
  | entered ws hw hleft hms hmark hcreated =>
      exact .entered ws hw hleft hms (hunmarked hmark) hcreated
  | marked ws hw hleft hms hcur hmark hcreated =>
      rcases ht with hne | hm
      · exact absurd hcur hne
      · rw [hmark] at hm
        cases hm
  | asleep ws hw hleft n hn hcreated =>
      rcases haw.each t with ⟨-, heq⟩ | ⟨hm, -, n', j, hn', hlog⟩
      · exact .asleep ws hw hleft n ((htimers.trans heq).trans hn) hcreated
      · -- its timer has fired
        have hnn : n' = n := Multiset.singleton_inj.1 (hn'.symm.trans hn)
        subst hnn
        refine .woken n' j ?_ (hmarked.trans hm) hcreated (hgrown'.mem hlog)
        rw [hleft, List.mem_append, List.mem_singleton]
        rintro (hin | hin)
        · exact (hw _ hin).2 rfl
        · cases hin
  | woken n j hleft hmark hcreated hlog =>
      exact .woken n j hleft (hunmarked hmark) hcreated (hgrown.mem hlog)

/-- **A tick.** -/
theorem NapInv.tick (h : NapInv t x g) {r : Nat} (htimely : Timely t x (.tick r)) :
    Returns (x.tick r) fun x' => ∃ g', NapInv t x' g' := by
  intro x' hx'
  unfold Naps.tick at hx'
  cases hw : interruptTimerHandler r x.world with
  | error e => rw [hw] at hx'; cases hx'
  | ok w =>
      obtain ⟨v, hadv, g', hint⟩ := h.watch.handler r w hw
      rw [hw, ok_bind, hadv, ok_bind] at hx'
      cases hx'
      have hgrown := handler_grown r x.world w hw
      obtain ⟨hin, hends⟩ := h.record v w v.sched.current.isCollaborativeSchedule
      have hmarks := hint.watch.steady.upright.marks v.sched.currentTask
      refine ⟨_, hint.armed, ?_, hends, ?_⟩
      · intro u
        rw [hin u, ← h.inCall u, ← hint.awakened.inCall]
        split
        · exact Iff.rfl
        · exact Iff.rfl
      · intro c hc
        by_cases hcase : t = x.world.sched.currentTask ∧ g.marked t = true
        · -- the call that is interrupted between mark and loop
          obtain ⟨hcur, hmark⟩ := hcase
          have hns := h.watch.steady.upright.not_stuck
            (h.watch.steady.upright.markedInCall t hmark)
          have hpend : g.timers t = 0 := by
            rw [hcur] at hns ⊢
            exact (h.watch.steady.seated hns).pending
          have hmark' : g'.marked t = true := by
            rcases hint.awakened.each t with ⟨hm, -⟩ | ⟨-, -, n, -, hn, -⟩
            · exact hm.trans hmark
            · rw [hpend] at hn
              exact absurd hn.symm (Multiset.singleton_ne_zero n)
          have htask := hint.same t hpend
          have htc : t = v.sched.currentTask := hcur.trans hint.current.symm
          rw [← htc] at hmarks
          have hflag : v.sched.current.isCollaborativeSchedule = true := by
            rw [Sched.current, ← htc]
            exact hmarks.trans hmark'
          rw [if_pos hflag] at hc ⊢
          obtain ⟨c₀, hc₀, -⟩ := Naps.record_left hc
          have hms : ∀ ws, c₀.left = ws ++ [.spin] → msAfter ws (x.world.sched.tasks t) = c₀.requested →
              (x.world.sched.tasks t).sleepMillisecond = c₀.requested := by
            intro ws hleft hafter
            cases ws with
            | nil => exact hafter
            | cons st ws =>
                refine htimely hcur ((h.watch.steady.upright.marks t).trans hmark) c₀ hc₀ ?_
                rw [hleft]
                simp
          have hc : Naps.record x.call v t = some c := hc
          rw [htc, Naps.record_self (htc ▸ hc₀)] at hc
          cases hc
          cases h.phase c₀ hc₀ with
          | entered ws hw hleft hafter hm hcreated =>
              rw [hmark] at hm
              cases hm
          | marked ws hw hleft hafter hcur' hm hcreated =>
              refine .asleep ws hw hleft v.nodes ?_ ?_
              · rw [htc]
                exact Function.update_self _ _ g'.timers
              · rw [hcreated, List.nil_append, Sched.current, ← htc, htask, hms ws hleft hafter]
          | asleep ws hw hleft n hn hcreated =>
              rw [hpend] at hn
              exact absurd hn.symm (Multiset.singleton_ne_zero n)
          | woken n j hleft hm hcreated hlog =>
              rw [hmark] at hm
              cases hm
        · have hoff : t ≠ x.world.sched.currentTask ∨ g.marked t = false := by
            by_contra hboth
            rw [not_or, not_not] at hboth
            exact hcase ⟨hboth.1, by simpa using hboth.2⟩
          by_cases hflag : v.sched.current.isCollaborativeSchedule = true
          · have htc : t ≠ v.sched.currentTask := by
              rw [hint.current]
              rcases hoff with hne | hm
              · exact hne
              · rintro hcur
                have hm' := hmarks.symm.trans hflag
                rw [hint.current, ← hcur] at hm'
                rcases hint.awakened.each t with ⟨heq, -⟩ | ⟨heq, -⟩
                · rw [heq, hm] at hm'
                  cases hm'
                · rw [heq] at hm'
                  cases hm'
            rw [if_pos hflag] at hc ⊢
            have hc : x.call t = some c := (Naps.record_other htc).symm.trans hc
            exact (h.phase c hc).tick hoff hint.awakened rfl (Function.update_of_ne htc _ g'.timers)
              hgrown hint.grown
          · rw [if_neg hflag] at hc ⊢
            exact (h.phase c hc).tick hoff hint.awakened rfl rfl hgrown hint.grown

/-! ## Runs -/

theorem NapInv.init (hx : World.Init x.world) (hcall : x.call = fun _ => none) :
    NapInv t x .none := by
  have hnone : ∀ u c, x.call u ≠ some c := by
    intro u c hc
    rw [hcall] at hc
    cases hc
  refine ⟨Watch.init hx, ?_, fun u c hc => absurd hc (hnone u c), fun c hc => absurd hc (hnone t c)⟩
  intro u
  constructor
  · exact False.elim
  · rintro ⟨c, hc, -⟩
    exact absurd hc (hnone u c)

/-- **The step lemma.** -/
theorem NapInv.next (h : NapInv t x g) {a : NapAction} (ha : a.enabled x) (htimely : Timely t x a)
    (hact : x.next a = .ok x') : ∃ g', NapInv t x' g' := by
  cases a with
  | call f =>
      cases hact
      exact h.enter ha.1 ha.2.1 ha.2.2 htimely
  | statement =>
      cases hact
      exact h.statement
  | coEnableHookSys =>
      cases hact
      exact h.coEnableHookSys ha.1 ha.2
  | act a =>
      obtain ⟨hcall, henabled, hsleep, htick⟩ := ha
      have hact : (do
          let w ← x.world.act a
          pure { x with world := w }) = Except.ok x' := hact
      cases hw : x.world.act a with
      | error e =>
          rw [hw] at hact
          cases hact
      | ok w =>
          rw [hw] at hact
          cases hact
          exact ⟨g, h.act hcall henabled hsleep htick hw⟩
  | tick r => exact h.tick htimely x' hact

/-- **Sleep.**  In a run whose calls of `t` ask for what fits and are not interrupted between the mark
and the duration, each of them gets one timer, for what it asked, and returns after it has fired. -/
theorem naps_sleepOk (t : TaskId) {x : Naps} (h : (napRuns (Timely t)).Reach x) : SleepOk t x := by
  obtain ⟨g, hg⟩ := (napRuns (Timely t)).invariant (I := fun x => ∃ g, NapInv t x g)
    (fun x hx => ⟨.none, NapInv.init hx.1 hx.2⟩)
    (fun x x' ⟨g, hg⟩ ⟨a, ha, htimely, hact⟩ => hg.next ha htimely hact) h
  exact hg.sleepOk

/-- The next state of a run that is evaluated, with what is needed to know of it. -/
theorem Naps.exists_next {α : Type} {m : Except ThreadSched.Fault Naps} (hx : m = .ok x) {a : NapAction}
    {f : Naps → α} {b : α} (h : (m >>= fun x => x.next a).map f = .ok b) :
    ∃ x', x.next a = .ok x' ∧ (m >>= fun x => x.next a) = .ok x' ∧ f x' = b := by
  subst hx
  change (x.next a).map f = .ok b at h
  cases hact : x.next a with
  | error e => rw [hact] at h; cases h
  | ok x' =>
      rw [hact] at h
      exact ⟨x', rfl, hact, Except.ok.inj h⟩

/-- Who runs, whether it can begin something else, whether it is in a call, and the last call of
`main`. -/
def napFacts (x : Naps) : TaskId × Bool × Bool × Option Nap :=
  (x.world.sched.currentTask, (x.world.sched.conts x.world.sched.currentTask).isEmpty,
    decide (x.InCall x.world.sched.currentTask), x.call 1)

theorem napFacts_eq {x : Naps} {t : TaskId} {b : Bool} {call : Option Nap}
    (h : napFacts x = (t, true, b, call)) : x.world.sched.currentTask = t ∧
      x.world.sched.conts x.world.sched.currentTask = [] ∧
      (x.InCall x.world.sched.currentTask ↔ b = true) ∧ x.call 1 = call := by
  simp only [napFacts, Prod.mk.injEq, List.isEmpty_iff] at h
  obtain ⟨hcur, hconts, hin, hcall⟩ := h
  refine ⟨hcur, hconts, ?_, hcall⟩
  rw [← hin, decide_eq_true_iff]

theorem napStart_eq : (start 1 2 0 >>= fun w => pure (⟨w, fun _ => none⟩ : Naps)) =
    .ok ⟨{ sched := mainOnly 1 2
           tm := Wheel.createTimer (.empty 0) 0 .cleanDeadTask 150000 150000
           freed := false
           nodes := 1 }, fun _ => none⟩ := by
  rw [start_eq]
  rfl

theorem napStart_init (C : Naps → NapAction → Prop) : (napRuns C).init
    ⟨{ sched := mainOnly 1 2
       tm := Wheel.createTimer (.empty 0) 0 .cleanDeadTask 150000 150000
       freed := false
       nodes := 1 }, fun _ => none⟩ :=
  ⟨⟨1, 2, 0, by norm_num, start_eq 1 2 0⟩, rfl⟩

/-- `main` starts task `3`, asks to be hooked, and calls a wrapper. -/
theorem exists_called (C : Naps → NapAction → Prop) (f : LibraryCall) (hrange : f.InRange)
    (hC : ∀ x, C x (.act (.taskStart 3 4 1)) ∧ C x .coEnableHookSys ∧ C x (.call f)) {c : Nap}
    (hc : ((((start 1 2 0 >>= fun w => pure (⟨w, fun _ => none⟩ : Naps)) >>= fun x =>
      x.next (.act (.taskStart 3 4 1))) >>= fun x => x.next .coEnableHookSys) >>= fun x =>
      x.next (.call f)).map napFacts = .ok (1, true, true, some c)) :
    ∃ x, (napRuns C).Reach x ∧ ((((start 1 2 0 >>= fun w => pure (⟨w, fun _ => none⟩ : Naps)) >>=
      fun x => x.next (.act (.taskStart 3 4 1))) >>= fun x => x.next .coEnableHookSys) >>= fun x =>
      x.next (.call f)) = .ok x ∧ napFacts x = (1, true, true, some c) := by
  obtain ⟨x₁, h₁, hx₁, he₁⟩ := Naps.exists_next napStart_eq (a := .act (.taskStart 3 4 1))
    (f := napFacts) (b := (1, true, false, none)) (by decide +kernel)
  obtain ⟨x₂, h₂, hx₂, he₂⟩ := Naps.exists_next hx₁ (a := .coEnableHookSys)
    (f := napFacts) (b := (1, true, false, none)) (by decide +kernel)
  obtain ⟨x₃, h₃, hx₃, he₃⟩ := Naps.exists_next hx₂ (a := .call f) hc
  obtain ⟨-, hconts₁, hin₁, -⟩ := napFacts_eq he₁
  obtain ⟨-, hconts₂, hin₂, -⟩ := napFacts_eq he₂
  have hr₁ : (napRuns C).Reach x₁ := by
    refine .step (.init (napStart_init C))
      ⟨.act (.taskStart 3 4 1), ⟨?_, ⟨rfl, rfl, rfl⟩, nofun, nofun⟩, (hC _).1, h₁⟩
    rintro ⟨c, hc, -⟩
    cases hc
  have hr₂ : (napRuns C).Reach x₂ :=
    hr₁.step ⟨.coEnableHookSys, ⟨hconts₁, by rw [hin₁]; nofun⟩, (hC _).2.1, h₂⟩
  exact ⟨x₃, hr₂.step ⟨.call f, ⟨hconts₂, by rw [hin₂]; nofun, hrange⟩, (hC _).2.2, h₃⟩, hx₃, he₃⟩

/-- The call `usleep(1000)` of `main` is interrupted in its loop, and returns after its timer has
fired. -/
theorem naps_sleepOk_usleep : ∃ x, (napRuns (Timely 1)).Reach x ∧
    (∃ c, x.call 1 = some c ∧ c.left = []) ∧ SleepOk 1 x := by
  obtain ⟨x₁, hr₁, hx₁, he₁⟩ := exists_called (Timely 1) (.usleep 1000) (by norm_num [LibraryCall.InRange])
    (fun x => ⟨trivial, trivial, fun _ => by norm_num [LibraryCall.milliseconds]⟩)
    (c := ⟨1, [.setCollaborative, .setMillisecond 1, .spin], []⟩) (by decide +kernel)
  obtain ⟨x₂, h₂, hx₂, he₂⟩ := Naps.exists_next hx₁ (a := .statement)
    (f := napFacts) (b := (1, true, true, some ⟨1, [.setMillisecond 1, .spin], []⟩)) (by decide +kernel)
  obtain ⟨x₃, h₃, hx₃, he₃⟩ := Naps.exists_next hx₂ (a := .statement)
    (f := napFacts) (b := (1, true, true, some ⟨1, [.spin], []⟩)) (by decide +kernel)
  obtain ⟨x₄, h₄, hx₄, he₄⟩ := Naps.exists_next hx₃ (a := .tick 0)
    (f := napFacts) (b := (3, true, false, some ⟨1, [.spin], [(1, 1)]⟩)) (by decide +kernel)
  obtain ⟨x₅, h₅, hx₅, he₅⟩ := Naps.exists_next hx₄ (a := .tick 3)
    (f := napFacts) (b := (3, true, false, some ⟨1, [.spin], [(1, 1)]⟩)) (by decide +kernel)
  obtain ⟨x₆, h₆, hx₆, he₆⟩ := Naps.exists_next hx₅ (a := .tick 3)
    (f := napFacts) (b := (1, true, true, some ⟨1, [.spin], [(1, 1)]⟩)) (by decide +kernel)
  obtain ⟨x₇, h₇, -, he₇⟩ := Naps.exists_next hx₆ (a := .statement)
    (f := napFacts) (b := (1, true, false, some ⟨1, [], [(1, 1)]⟩)) (by decide +kernel)
  obtain ⟨-, -, hin₁, -⟩ := napFacts_eq he₁
  obtain ⟨-, -, hin₂, -⟩ := napFacts_eq he₂
  obtain ⟨-, -, -, hcall₃⟩ := napFacts_eq he₃
  obtain ⟨hcur₄, -, -, -⟩ := napFacts_eq he₄
  obtain ⟨hcur₅, -, -, -⟩ := napFacts_eq he₅
  obtain ⟨-, -, hin₆, -⟩ := napFacts_eq he₆
  obtain ⟨-, -, -, hcall₇⟩ := napFacts_eq he₇
  have hr₂ := hr₁.step ⟨.statement, hin₁.2 rfl, trivial, h₂⟩
  have hr₃ := hr₂.step ⟨.statement, hin₂.2 rfl, trivial, h₃⟩
  have hr₄ : (napRuns (Timely 1)).Reach x₄ := by
    refine hr₃.step ⟨.tick 0, by norm_num [NapAction.enabled], ?_, h₄⟩
    intro _ _ c hc hleft
    rw [hcall₃] at hc
    cases hc
    exact absurd rfl hleft
  have hr₅ : (napRuns (Timely 1)).Reach x₅ := by
    refine hr₄.step ⟨.tick 3, by norm_num [NapAction.enabled], ?_, h₅⟩
    intro hcur
    rw [hcur₄] at hcur
    cases hcur
  have hr₆ : (napRuns (Timely 1)).Reach x₆ := by
    refine hr₅.step ⟨.tick 3, by norm_num [NapAction.enabled], ?_, h₆⟩
    intro hcur
    rw [hcur₅] at hcur
    cases hcur
  have hr₇ := hr₆.step ⟨.statement, hin₆.2 rfl, trivial, h₇⟩
  exact ⟨x₇, hr₇, ⟨_, hcall₇, rfl⟩, naps_sleepOk 1 hr₇⟩

/-- The clock interrupts `sleep(1)` of `main` after its first statement: the timer created is for no
time at all. -/
theorem sleep_cut_short : ¬ ∀ t x, (napRuns fun _ _ => True).Reach x →
    (x.world.sched.tasks t).isHook = true → SleepOk t x := by
  intro hall
  obtain ⟨x₁, hr₁, hx₁, he₁⟩ := exists_called (fun _ _ => True) (.sleep 1) (by norm_num [LibraryCall.InRange])
    (fun x => ⟨trivial, trivial, trivial⟩)
    (c := ⟨1000, [.setCollaborative, .setMillisecond 1000, .spin], []⟩) (by decide +kernel)
  obtain ⟨x₂, h₂, hx₂, he₂⟩ := Naps.exists_next hx₁ (a := .statement)
    (f := napFacts) (b := (1, true, true, some ⟨1000, [.setMillisecond 1000, .spin], []⟩)) (by decide +kernel)
  obtain ⟨x₃, h₃, -, he₃⟩ := Naps.exists_next hx₂ (a := .tick 0)
    (f := fun x => ((x.world.sched.tasks 1).isHook, x.call 1))
    (b := (true, some ⟨1000, [.setMillisecond 1000, .spin], [(1, 0)]⟩)) (by decide +kernel)
  obtain ⟨-, -, hin₁, -⟩ := napFacts_eq he₁
  have hr₂ := hr₁.step ⟨.statement, hin₁.2 rfl, trivial, h₂⟩
  have hr₃ : (napRuns fun _ _ => True).Reach x₃ :=
    hr₂.step ⟨.tick 0, by norm_num [NapAction.enabled], trivial, h₃⟩
  simp only [Prod.mk.injEq] at he₃
  obtain ⟨-, hdelay, -⟩ := hall 1 x₃ hr₃ he₃.1 _ he₃.2
  have hzero := hdelay (1, 0) List.mem_cons_self
  cases hzero

end

end ThreadSched.Hook
