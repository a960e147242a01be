import ThreadSched.Kernel.Scan
import ThreadSched.Lib.Trans
import ThreadSched.Task.Tame

/-!
# The tid pool

`allocate_tid` hands out the lowest clear index of the bitmap, plus one, as a `tid_t`; `release_tid`
computes the index back from the `tid_t`.  A `tid_t` has 16 bits and the bitmap a million, so this
works as long as no index reaches `32767`.

* `tidSys` — creations and exits, in any order, with a limit on the number of live tasks.
* `TidsOk` — what the pool should provide.
* `tidPool_ok_iff` — it does so exactly when the limit is at most `32767`.
-/

set_option autoImplicit false

namespace ThreadSched

/-- The scheduler, and (ghost) the index `allocate_tid` chose for each task. -/
structure TidRun where
  sched : Sched
  index : TaskId → Int

/-- Bit `i` of the tid bitmap, or of the memory after it. -/
def Sched.tidBit (s : Sched) (i : Nat) : Bool := s.tidPool.tidBitmap.bit i

/-- A task is created or exits.  Only what concerns tids and `task_all_list`: which struct the task
gets and which task runs next do not matter. -/
inductive TidStep (limit : Nat) (r : TidRun) : TidRun → Prop
  | start (t stack : Nat) (prio i : Int) (s : Sched) : t ∉ r.sched.taskAllList →
      r.sched.taskAllList.length < limit → bitmapScan r.sched.tidPool.tidBitmap 1 = some i →
      initTask t stack prio r.sched = .ok s →
      TidStep limit r ⟨{ s with taskAllList := listAppend s.taskAllList t },
        Function.update r.index t i⟩
  | exit (t : TaskId) (s : Sched) : t ∈ r.sched.taskAllList →
      releaseTid (r.sched.tasks t).tid (exitLists t r.sched) = .ok s →
      TidStep limit r ⟨s, r.index⟩

/-- The runs in which at most `limit` tasks are live at a time. -/
def tidSys (limit : Nat) : Trans.Sys TidRun where
  init r := ∃ s, s.taskAllList = [] ∧ r.sched = tidPoolInit s
  step := TidStep limit

/-- What the pool should provide. -/
structure TidsOk (r : TidRun) : Prop where
  distinct : ∀ t ∈ r.sched.taskAllList, ∀ u ∈ r.sched.taskAllList,
    (r.sched.tasks t).tid = (r.sched.tasks u).tid → t = u
  bits : ∀ i : Nat, i < 125100 * 8 →
    (r.sched.tidBit i = true ↔ ∃ t ∈ r.sched.taskAllList, r.index t = i)
  /-- `release_tid` returns, clears the bit of its task and no other, and writes inside the bitmap. -/
  release : ∀ t ∈ r.sched.taskAllList, ∃ s, releaseTid (r.sched.tasks t).tid r.sched = .ok s ∧
    ∀ i : Nat, s.tidBit i = if (i : Int) = r.index t then false else r.sched.tidBit i
  inside : ∀ t ∈ r.sched.taskAllList,
    ((r.sched.tasks t).tid - r.sched.tidPool.tidStart) % 2 ^ 32 < 125100 * 8
  lookup : ∀ t ∈ r.sched.taskAllList, tid2task (r.sched.tasks t).tid r.sched = some t
  absent : ∀ tid, (∀ t ∈ r.sched.taskAllList, (r.sched.tasks t).tid ≠ tid) →
    tid2task tid r.sched = none

/-! ## The invariant -/

/-- The bits are the indices of the live tasks, and each tid is its index plus one, truncated. -/
structure TidInv (r : TidRun) : Prop where
  lock : r.sched.locks .tid = lockInit
  len : r.sched.tidPool.tidBitmap.btmpBytesLen = 125100
  first : r.sched.tidPool.tidStart = 1
  nodup : r.sched.taskAllList.Nodup
  index : ∀ t ∈ r.sched.taskAllList, 0 ≤ r.index t ∧ r.index t < 125100 * 8 ∧
    (r.sched.tasks t).tid = i16 (r.index t + 1)
  inj : ∀ t ∈ r.sched.taskAllList, ∀ u ∈ r.sched.taskAllList, r.index t = r.index u → t = u
  bits : ∀ i : Nat, i < 125100 * 8 →
    (r.sched.tidBit i = true ↔ ∃ t ∈ r.sched.taskAllList, r.index t = i)

/-- No index has overflowed. -/
def Small (r : TidRun) : Prop := ∀ t ∈ r.sched.taskAllList, r.index t < 32767

theorem i16_of_lt {x : Int} (h0 : 0 ≤ x) (h : x < 32768) : i16 x = x := by
  unfold i16 Int.bmod
  simp only [Nat.cast_ofNat]
  split <;> omega

variable {r r' : TidRun} {limit : Nat}

theorem TidInv.tid_eq (h : TidInv r) (hsmall : Small r) {t : TaskId}
    (ht : t ∈ r.sched.taskAllList) : (r.sched.tasks t).tid = r.index t + 1 := by
  obtain ⟨h0, _, htid⟩ := h.index t ht
  have := hsmall t ht
  rw [htid, i16_of_lt (by omega) (by omega)]

theorem tidBit_setTidBit (s : Sched) {i : Int} (h0 : 0 ≤ i) (h : i < 2 ^ 32) (value : Bool)
    (j : Nat) : (s.setTidBit i value).tidBit j = if (j : Int) = i then value else s.tidBit j := by
  unfold Sched.tidBit Sched.setTidBit
  rw [bit_bitmapSet, Int.emod_eq_of_lt h0 h]
  have hiff : j = i.toNat ↔ (j : Int) = i := by omega
  simp only [hiff]

theorem TidInv.init (h : (tidSys limit).init r) : TidInv r := by
  obtain ⟨s, hall, hr⟩ := h
  have hnil : r.sched.taskAllList = [] := by rw [hr]; exact hall
  refine ⟨by rw [hr]; simp [tidPoolInit], by rw [hr]; simp [tidPoolInit, bitmapInit],
    by rw [hr]; rfl, by rw [hnil]; exact List.nodup_nil, ?_, ?_, fun i hi => ?_⟩
  · intro t ht
    rw [hnil] at ht
    cases ht
  · intro t ht
    rw [hnil] at ht
    cases ht
  · have hclear : r.sched.tidBit i = false := by
      rw [hr]
      exact bit_bitmapInit _ (by simp; omega)
    rw [hclear, hnil]
    simp

/-- A creation takes the lowest index that is not in use. -/
theorem TidInv.start (h : TidInv r) {t stack : Nat} {prio i : Int} {s : Sched}
    (ht : t ∉ r.sched.taskAllList) (hi : bitmapScan r.sched.tidPool.tidBitmap 1 = some i)
    (hs : initTask t stack prio r.sched = .ok s) :
    TidInv ⟨{ s with taskAllList := listAppend s.taskAllList t }, Function.update r.index t i⟩ := by
  obtain ⟨n, rfl, hn, hclear, _⟩ := bitmapScan_spec _ (by rw [h.len]; decide) hi
  rw [h.len] at hn
  rw [initTask_eq h.lock, hi] at hs
  cases hs
  have hne : ∀ u ∈ r.sched.taskAllList, u ≠ t := fun u hu heq => ht (heq ▸ hu)
  have hfree : ∀ u ∈ r.sched.taskAllList, r.index u ≠ n := by
    intro u hu heq
    have hset : r.sched.tidBit n = true := (h.bits n (by omega)).2 ⟨u, hu, heq⟩
    rw [show r.sched.tidBit n = false from hclear] at hset
    cases hset
  refine ⟨h.lock, h.len, h.first, ?_, ?_, ?_, ?_⟩
  · show (r.sched.taskAllList ++ [t]).Nodup
    rw [List.nodup_append]
    refine ⟨h.nodup, List.nodup_singleton t, ?_⟩
    rintro u hu v hv rfl
    exact ht (List.mem_singleton.1 hv ▸ hu)
  · intro u hu
    rcases List.mem_append.1 hu with hu | hu
    · have hut := hne u hu
      simp only [inited, Function.update_of_ne hut]
      exact h.index u hu
    · rw [List.mem_singleton.1 hu]
      simp only [inited, Function.update_self, initedTask, initFields, h.first]
      exact ⟨by omega, by omega, rfl⟩
  · intro u hu v hv heq
    rcases List.mem_append.1 hu with hu | hu <;> rcases List.mem_append.1 hv with hv | hv
    · simp only [Function.update_of_ne (hne u hu), Function.update_of_ne (hne v hv)] at heq
      exact h.inj u hu v hv heq
    · rw [List.mem_singleton.1 hv] at heq
      simp only [Function.update_of_ne (hne u hu), Function.update_self] at heq
      exact absurd heq (hfree u hu)
    · rw [List.mem_singleton.1 hu] at heq
      simp only [Function.update_of_ne (hne v hv), Function.update_self] at heq
      exact absurd heq.symm (hfree v hv)
    · rw [List.mem_singleton.1 hu, List.mem_singleton.1 hv]
  · intro j hj
    have hbit : (inited t stack prio n r.sched).tidBit j =
        if (j : Int) = n then true else r.sched.tidBit j :=
      tidBit_setTidBit r.sched (by omega) (by omega) true j
    show (inited t stack prio n r.sched).tidBit j = true ↔ _
    rw [hbit]
    constructor
    · intro hset
      by_cases hjn : (j : Int) = n
      · exact ⟨t, List.mem_append_right _ (List.mem_singleton.2 rfl), by
          simp only [Function.update_self]; exact hjn.symm⟩
      · rw [if_neg hjn] at hset
        obtain ⟨u, hu, hidx⟩ := (h.bits j hj).1 hset
        exact ⟨u, List.mem_append_left _ hu, by
          simp only [Function.update_of_ne (hne u hu)]; exact hidx⟩
    · rintro ⟨u, hu, hidx⟩
      rcases List.mem_append.1 hu with hu | hu
      · simp only [Function.update_of_ne (hne u hu)] at hidx
        split
        · rfl
        · exact (h.bits j hj).2 ⟨u, hu, hidx⟩
      · rw [List.mem_singleton.1 hu] at hidx
        simp only [Function.update_self] at hidx
        rw [if_pos hidx.symm]

/-- What `release_tid` writes when no index has overflowed. -/
theorem TidInv.releaseTid (h : TidInv r) (hsmall : Small r) {t : TaskId}
    (ht : t ∈ r.sched.taskAllList) {s : Sched} (hlock : s.locks .tid = lockInit)
    (hpool : s.tidPool = r.sched.tidPool) :
    ThreadSched.releaseTid (r.sched.tasks t).tid s = .ok (s.setTidBit (r.index t) false) := by
  have hindex : (r.sched.tasks t).tid - s.tidPool.tidStart = r.index t := by
    rw [hpool, h.first, h.tid_eq hsmall ht]
    omega
  rw [releaseTid_eq hlock, hindex]

/-- An exit gives its index back. -/
theorem TidInv.exit (h : TidInv r) (hsmall : Small r) {t : TaskId} {s : Sched}
    (ht : t ∈ r.sched.taskAllList)
    (hs : ThreadSched.releaseTid (r.sched.tasks t).tid (exitLists t r.sched) = .ok s) :
    TidInv ⟨s, r.index⟩ ∧ s.taskAllList = r.sched.taskAllList.erase t := by
  obtain ⟨h0, hcap, _⟩ := h.index t ht
  rw [h.releaseTid hsmall ht (s := exitLists t r.sched) h.lock rfl] at hs
  cases hs
  have hmem : ∀ u, u ∈ r.sched.taskAllList.erase t ↔ u ≠ t ∧ u ∈ r.sched.taskAllList := fun u =>
    h.nodup.mem_erase_iff
  have htid : ∀ u, ((exitLists t r.sched).tasks u).tid = (r.sched.tasks u).tid := by
    intro u
    by_cases hu : u = t
    · subst hu; simp [exitLists, Sched.modTask]
    · simp [exitLists, Sched.modTask, Function.update_of_ne hu]
  refine ⟨⟨h.lock, h.len, h.first, h.nodup.erase t, fun u hu => ?_, fun u hu v hv => ?_,
    fun j hj => ?_⟩, rfl⟩
  · show _ ∧ _ ∧ ((exitLists t r.sched).tasks u).tid = _
    rw [htid u]
    exact h.index u ((hmem u).1 hu).2
  · exact h.inj u ((hmem u).1 hu).2 v ((hmem v).1 hv).2
  · have hbit : ((exitLists t r.sched).setTidBit (r.index t) false).tidBit j =
        if (j : Int) = r.index t then false else r.sched.tidBit j :=
      tidBit_setTidBit (exitLists t r.sched) h0 (by omega) false j
    show ((exitLists t r.sched).setTidBit (r.index t) false).tidBit j = true ↔
      ∃ u ∈ r.sched.taskAllList.erase t, r.index u = j
    rw [hbit]
    constructor
    · intro hset
      split at hset
      · cases hset
      · rename_i hjt
        obtain ⟨u, hu, hidx⟩ := (h.bits j hj).1 hset
        refine ⟨u, (hmem u).2 ⟨?_, hu⟩, hidx⟩
        rintro rfl
        exact hjt hidx.symm
    · rintro ⟨u, hu, hidx⟩
      obtain ⟨hut, hu⟩ := (hmem u).1 hu
      rw [if_neg ?_]
      · exact (h.bits j hj).2 ⟨u, hu, hidx⟩
      · intro hjt
        exact hut (h.inj u hu t ht (hidx.trans hjt))

/-- The lowest clear index is at most the number of live tasks. -/
theorem TidInv.scan_le (h : TidInv r) {i : Int}
    (hi : bitmapScan r.sched.tidPool.tidBitmap 1 = some i) : i ≤ r.sched.taskAllList.length := by
  obtain ⟨n, rfl, hn, _, hset⟩ := bitmapScan_spec _ (by rw [h.len]; decide) hi
  rw [h.len] at hn
  have hsub : List.range n ⊆ r.sched.taskAllList.map fun u => (r.index u).toNat := by
    intro k hk
    have hk := List.mem_range.1 hk
    obtain ⟨u, hu, hidx⟩ := (h.bits k (by omega)).1 (hset k hk)
    exact List.mem_map.2 ⟨u, hu, by omega⟩
  have hle := (List.nodup_range.subperm hsub).length_le
  rw [List.length_map, List.length_range] at hle
  omega

/-- **With at most `32767` live tasks** no index overflows, in any run. -/
theorem tidSys_small (hlimit : limit ≤ 32767) (h : (tidSys limit).Reach r) :
    TidInv r ∧ Small r := by
  refine (tidSys limit).invariant (I := fun r => TidInv r ∧ Small r) ?_ ?_ h
  · intro r hr
    refine ⟨TidInv.init hr, fun t ht => ?_⟩
    obtain ⟨s, hall, hr⟩ := hr
    rw [show r.sched.taskAllList = [] by rw [hr]; exact hall] at ht
    cases ht
  · rintro r r' ⟨hinv, hsmall⟩ hstep
    cases hstep with
    | start t stack prio i s ht hlen hi hs =>
        refine ⟨hinv.start ht hi hs, ?_⟩
        have hle := hinv.scan_le hi
        rw [initTask_eq hinv.lock, hi] at hs
        cases hs
        intro u hu
        by_cases hut : u = t
        · subst hut
          simp only [Function.update_self]
          omega
        · simp only [Function.update_of_ne hut]
          refine hsmall u ((List.mem_append.1 hu).resolve_right fun hu => ?_)
          exact hut (List.mem_singleton.1 hu)
    | exit t s ht hs =>
        obtain ⟨hinv', hall⟩ := hinv.exit hsmall ht hs
        refine ⟨hinv', fun u hu => ?_⟩
        rw [show (TidRun.mk s r.index).sched.taskAllList = _ from hall] at hu
        exact hsmall u (List.mem_of_mem_erase hu)

/-- What the invariant gives when no index has overflowed. -/
theorem TidInv.ok (h : TidInv r) (hsmall : Small r) : TidsOk r := by
  have hdistinct : ∀ t ∈ r.sched.taskAllList, ∀ u ∈ r.sched.taskAllList,
      (r.sched.tasks t).tid = (r.sched.tasks u).tid → t = u := by
    intro t ht u hu heq
    rw [h.tid_eq hsmall ht, h.tid_eq hsmall hu] at heq
    exact h.inj t ht u hu (by omega)
  refine ⟨hdistinct, h.bits, ?_, ?_, ?_, ?_⟩
  · intro t ht
    obtain ⟨h0, hcap, _⟩ := h.index t ht
    exact ⟨_, h.releaseTid hsmall ht h.lock rfl, tidBit_setTidBit r.sched h0 (by omega) false⟩
  · intro t ht
    obtain ⟨h0, hcap, _⟩ := h.index t ht
    rw [h.tid_eq hsmall ht, h.first]
    omega
  · intro t ht
    unfold tid2task
    rw [List.find?_eq_some_iff_append]
    refine ⟨by simp [tidCheck], ?_⟩
    obtain ⟨as, bs, hsplit⟩ := List.append_of_mem ht
    refine ⟨as, bs, hsplit, fun u hu => ?_⟩
    have hmem : u ∈ r.sched.taskAllList := by rw [hsplit]; exact List.mem_append_left _ hu
    have hne : u ≠ t := by
      rintro rfl
      have hnodup := h.nodup
      rw [hsplit, List.nodup_append] at hnodup
      exact hnodup.2.2 u hu u List.mem_cons_self rfl
    simpa [tidCheck] using fun heq => hne (hdistinct u hmem t ht heq)
  · intro tid habsent
    unfold tid2task
    rw [List.find?_eq_none]
    intro u hu
    simpa [tidCheck] using habsent u hu

/-! ## A large pool -/

/-- Tasks `0` to `n - 1` are created, one after the other. -/
theorem create_many {limit : Nat} (n : Nat) (hn : n ≤ limit) (hcap : n ≤ 125100 * 8) :
    ∃ r, (tidSys limit).Reach r ∧ TidInv r ∧ r.sched.taskAllList = List.range n ∧
      ∀ t, t < n → r.index t = t := by
  induction n with
  | zero =>
      have hinit : (tidSys limit).init ⟨tidPoolInit boot, fun _ => 0⟩ := ⟨boot, rfl, rfl⟩
      exact ⟨_, .init hinit, TidInv.init hinit, rfl, fun t ht => absurd ht (Nat.not_lt_zero t)⟩
  | succ n ih =>
      obtain ⟨r, hreach, hinv, hall, hidx⟩ := ih (by omega) (by omega)
      have hbits : ∀ i : Nat, i < 125100 * 8 → (r.sched.tidBit i = true ↔ i < n) := by
        intro i hi
        rw [hinv.bits i hi, hall]
        constructor
        · rintro ⟨t, ht, heq⟩
          have ht := List.mem_range.1 ht
          rw [hidx t ht] at heq
          omega
        · intro hin
          exact ⟨i, List.mem_range.2 hin, hidx i hin⟩
      have hclear : r.sched.tidBit n = false := by
        cases hb : r.sched.tidBit n with
        | false => rfl
        | true => exact absurd ((hbits n (by omega)).1 hb) (Nat.lt_irrefl n)
      obtain ⟨i, hi⟩ := bitmapScan_some _ (by rw [hinv.len]; omega) hclear
      have hin : i = n := by
        obtain ⟨k, rfl, hk, hkclear, hkset⟩ := bitmapScan_spec _ (by rw [hinv.len]; decide) hi
        rw [hinv.len] at hk
        have hge : n ≤ k := by
          by_contra hlt
          have hset := (hbits k (by omega)).2 (by omega)
          rw [show r.sched.tidBit k = false from hkclear] at hset
          cases hset
        by_contra hne
        have hset := (hbits n (by omega)).1 (hkset n (by omega))
        omega
      have ht : n ∉ r.sched.taskAllList := by
        rw [hall]
        exact List.not_mem_range_self
      have hs : initTask n 0 0 r.sched = .ok (inited n 0 0 i r.sched) := by
        rw [initTask_eq hinv.lock, hi]
      have hlen : r.sched.taskAllList.length < limit := by
        rw [hall, List.length_range]
        omega
      refine ⟨_, hreach.step (TidStep.start n 0 0 i _ ht hlen hi hs), hinv.start ht hi hs, ?_, ?_⟩
      · show r.sched.taskAllList ++ [n] = _
        rw [hall, List.range_succ]
      · intro t htn
        by_cases htn' : t = n
        · subst htn'
          simp only [Function.update_self]
          exact hin
        · simp only [Function.update_of_ne htn']
          exact hidx t (by omega)

/-- The task with index `32767` has the tid `-32768`, and releasing it writes outside the bitmap. -/
theorem not_ok_of_large {t : TaskId} (h : TidInv r) (ht : t ∈ r.sched.taskAllList)
    (hidx : r.index t = 32767) : ¬ TidsOk r := by
  intro hok
  have hinside := hok.inside t ht
  rw [(h.index t ht).2.2, hidx, h.first] at hinside
  revert hinside
  decide

theorem reach_large {limit : Nat} (hlimit : 32767 < limit) :
    ∃ r, (tidSys limit).Reach r ∧ ¬ TidsOk r := by
  obtain ⟨r, hreach, hinv, hall, hidx⟩ := create_many 32768 hlimit (by norm_num)
  refine ⟨r, hreach, not_ok_of_large hinv (t := 32767) ?_ (hidx 32767 (by norm_num))⟩
  rw [hall]
  exact List.mem_range.2 (by norm_num)

/-- **The tid pool works exactly up to `32767` live tasks.** -/
theorem tidPool_ok_iff (limit : Nat) :
    (∀ r, (tidSys limit).Reach r → TidsOk r) ↔ limit ≤ 32767 := by
  constructor
  · intro hok
    by_contra hlimit
    obtain ⟨r, hreach, hbad⟩ := reach_large (Nat.lt_of_not_le hlimit)
    exact hbad (hok r hreach)
  · intro hlimit r hreach
    obtain ⟨hinv, hsmall⟩ := tidSys_small hlimit hreach
    exact hinv.ok hsmall

/-- The limit that the bitmap and the documents promise is too large. -/
theorem tidPool_capacity_fails : ∃ r, (tidSys (125100 * 8)).Reach r ∧ ¬ TidsOk r :=
  reach_large (by norm_num)

end ThreadSched
