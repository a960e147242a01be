import ThreadSched.Hook.Fcntl

/-!
# When the interposed functions are transparent

Each call should return what the kernel returns and have its effect; `O_NONBLOCK` forced for a hooked
task should not be seen.

* `Call.expected` — result and effect that a call should have, from those of the kernel.
* `Call.agrees_iff` — one call has them exactly when `Call.Meets` holds before it.
* `Shows` — the invariant of a run: what the program has set is set in the kernel.
* `transparent_iff` — a sequence of calls.
-/

set_option autoImplicit false

namespace ThreadSched.Hook

variable {κ : Type}

/-- A call of the program, by a task that is hooked or not. -/
inductive Call
  | fcntl (isHook : Bool) (fd cmd : CInt) (arg : Arg)
  | socket (isHook : Bool) (domain type protocol : CInt)

def Call.exec (K : Kernel κ) (w : Process κ) : Call → Except Fault (CInt × Process κ)
  | .fcntl isHook fd cmd arg => Hook.fcntl K isHook fd cmd arg w
  | .socket isHook domain type protocol => Hook.socket K isHook domain type protocol w

/-- The `O_NONBLOCK` that the program itself has last given a descriptor, if it has. -/
abbrev Own := CInt → Option Bool

/-- Status flags with the bit as the program has set it. -/
def shown : Option Bool → CInt → CInt
  | none, flags => flags
  | some true, flags => flags ||| O_NONBLOCK
  | some false, flags => flags &&& ~~~O_NONBLOCK

/-- What a call should return, and the kernel's state after it. -/
def Call.expected (K : Kernel κ) (own : Own) (k : κ) : Call → CInt × κ
  | .fcntl isHook fd cmd arg =>
    if cmd = F_SETFL ∧ isHook = true then K.fcntl fd cmd (arg ||| intArg O_NONBLOCK) k
    else if cmd = F_GETFL ∧ (K.fcntl fd cmd arg k).1 ≠ -1 then
      (shown (own fd) (K.fcntl fd cmd arg k).1, (K.fcntl fd cmd arg k).2)
    else K.fcntl fd cmd arg k
  | .socket isHook domain type protocol =>
    let (fd, k) := K.socket domain type protocol k
    if isHook = true ∧ 0 ≤ fd.toInt then
      let (flags, k) := K.fcntl fd F_GETFL 0 k
      (fd, (K.fcntl fd F_SETFL (intArg (flags ||| O_NONBLOCK)) k).2)
    else (fd, k)

/-- What the program has set after a call.  A duplicate has what the original has. -/
def Call.next (K : Kernel κ) (own : Own) (k : κ) (c : Call) : Own :=
  match c with
  | .fcntl _ fd cmd arg =>
    if cmd = F_SETFL ∧ (c.expected K own k).1 = 0 then
      Function.update own fd (some (nonblock (vaInt arg)))
    else if cmd = F_DUPFD ∧ 0 ≤ (c.expected K own k).1.toInt then
      Function.update own (c.expected K own k).1 (own fd)
    else own
  | .socket _ domain type protocol =>
    let (fd, k) := K.socket domain type protocol k
    if 0 ≤ fd.toInt then Function.update own fd (some (nonblock (K.statusFlags k fd))) else own

/-- Every call returns what it should and has the effect it should have; none accesses the table out
of its bounds. -/
def Transparent (K : Kernel κ) : Own → Process κ → List Call → Prop
  | _, _, [] => True
  | own, w, c :: cs => ∃ ret w', c.exec K w = .ok (ret, w') ∧
      (ret, w'.kernel) = c.expected K own w.kernel ∧
      Transparent K (c.next K own w.kernel) w' cs

/-- When `fcntl` does what it should. -/
structure FcntlMeets (K : Kernel κ) (own : Own) (fd cmd : CInt) (arg : Arg) (w : Process κ) : Prop where
  inTable : InTable fd
  getfd : cmd = F_GETFD → nonblock (K.fcntl fd cmd arg w.kernel).1 = true →
    ∃ a, w.fd2Attributes fd = some a ∧ nonblock a.fdFlag = true
  setfd : cmd = F_SETFD → (K.fcntl fd cmd arg w.kernel).1 = 0
  getfl : cmd = F_GETFL → (K.fcntl fd cmd arg w.kernel).1 ≠ -1 → own fd = some false →
    nonblock (K.statusFlags w.kernel fd) = false
  other : cmd ∉ [F_DUPFD, F_GETFD, F_SETFD, F_GETFL, F_SETFL, F_GETLK, F_SETLK, F_SETLKW] →
    K.fcntl fd cmd arg w.kernel = (0, w.kernel)

/-- When a call does what it should. -/
def Call.Meets (K : Kernel κ) (own : Own) (w : Process κ) : Call → Prop
  | .fcntl _ fd cmd arg => FcntlMeets K own fd cmd arg w
  | .socket isHook domain type protocol =>
    isHook = true → 0 ≤ (K.socket domain type protocol w.kernel).1.toInt →
      InTable (K.socket domain type protocol w.kernel).1

/-- The condition holds before every call. -/
def AllMeet (K : Kernel κ) : Own → Process κ → List Call → Prop
  | _, _, [] => True
  | own, w, c :: cs => c.Meets K own w ∧ ∀ ret w', c.exec K w = .ok (ret, w') →
      AllMeet K (c.next K own w.kernel) w' cs

/-! ## The table -/

/-- The entry that is found, or that of a descriptor not seen before. -/
def Entry (w : Process κ) (fd : CInt) (a : FdAttributes) : Prop :=
  w.fd2Attributes fd = some a ∨ w.fd2Attributes fd = none ∧ a.fdFlag = 0

theorem createFdAttributes_ok {fd : CInt} (h : InTable fd) (w : Process κ) :
    ∃ a w', createFdAttributes fd w = .ok (some a, w') ∧ w'.kernel = w.kernel ∧
      Entry w fd a := by
  unfold createFdAttributes
  rw [if_neg (by intro hneg; exact absurd hneg.1 (by have := h.1; omega)), if_neg (not_not.2 h)]
  cases ha : w.fd2Attributes fd with
  | some a => exact ⟨a, w, rfl, rfl, Or.inl ha⟩
  | none => exact ⟨_, _, rfl, rfl, Or.inr ⟨ha, rfl⟩⟩

theorem createFdAttributes_error {fd : CInt} (h : ¬ InTable fd) (w : Process κ) :
    createFdAttributes fd w = .error .outOfBounds := by
  unfold createFdAttributes
  rw [if_neg, if_pos h]
  rintro ⟨hneg, hlarge⟩
  unfold attributesLength at hlarge
  omega

/-! ## The commands -/

/-- What the program and the kernel see of a call. -/
def observe (x : CInt × Process κ) : CInt × κ := (x.1, x.2.kernel)

section commands

variable {K : Kernel κ} (isHook : Bool) (fd : CInt) (arg : Arg) (a : FdAttributes) (w : Process κ)

theorem switch_getfd (hK : K.Documented) :
    observe (fcntlSwitch K isHook fd F_GETFD arg (some a) w) =
      if nonblock a.fdFlag = true then K.fcntl fd F_GETFD arg w.kernel
      else ((K.fcntl fd F_GETFD arg w.kernel).1 &&& ~~~O_NONBLOCK, (K.fcntl fd F_GETFD arg w.kernel).2) := by
  have harg := hK.noArg fd F_GETFD arg w.kernel (Or.inl rfl)
  simp only [fcntlSwitch, if_true, Process.call, harg, Option.any_some, decide_eq_true_eq,
    and_eq_zero_iff]
  cases nonblock a.fdFlag with
  | true => rfl
  | false => rfl

theorem switch_setfd (hK : K.Documented) :
    observe (fcntlSwitch K isHook fd F_SETFD arg (some a) w) =
      (0, (K.fcntl fd F_SETFD arg w.kernel).2) := by
  have harg := hK.intArg fd F_SETFD arg w.kernel (Or.inl rfl)
  simp only [fcntlSwitch, show F_SETFD ≠ F_GETFD by decide, if_true, if_false, Process.call, harg]
  rfl

theorem switch_getfl (hK : K.Documented) :
    observe (fcntlSwitch K isHook fd F_GETFL arg (some a) w) = K.fcntl fd F_GETFL arg w.kernel := by
  have harg := hK.noArg fd F_GETFL arg w.kernel (Or.inr rfl)
  simp only [fcntlSwitch, show F_GETFL ≠ F_GETFD by decide, show F_GETFL ≠ F_SETFD by decide, if_true,
    if_false, Process.call, harg]
  rfl

theorem switch_setfl (hK : K.Documented) :
    observe (fcntlSwitch K isHook fd F_SETFL arg (some a) w) =
      K.fcntl fd F_SETFL (if isHook = true then arg ||| intArg O_NONBLOCK else arg) w.kernel := by
  have hforced := hK.intArg fd F_SETFL (arg ||| intArg O_NONBLOCK) w.kernel (Or.inr (Or.inl rfl))
  have hplain := hK.intArg fd F_SETFL arg w.kernel (Or.inr (Or.inl rfl))
  rw [vaInt_or] at hforced
  simp only [fcntlSwitch, show F_SETFL ≠ F_GETFD by decide, show F_SETFL ≠ F_SETFD by decide,
    show F_SETFL ≠ F_GETFL by decide, if_true, if_false, Process.call, Option.isSome_some, and_true]
  cases isHook with
  | true =>
      simp only [if_true, hforced]
      split <;> rfl
  | false =>
      simp only [Bool.false_eq_true, if_false, hplain]
      split <;> rfl

theorem switch_lock {cmd : CInt} (hcmd : cmd = F_GETLK ∨ cmd = F_SETLK ∨ cmd = F_SETLKW) :
    observe (fcntlSwitch K isHook fd cmd arg (some a) w) = K.fcntl fd cmd arg w.kernel := by
  rcases hcmd with rfl | rfl | rfl
  · rfl
  · rfl
  · rfl

theorem switch_dupfd (hK : K.Documented) :
    observe (fcntlSwitch K isHook fd F_DUPFD arg (some a) w) = K.fcntl fd F_DUPFD arg w.kernel := by
  rw [← hK.intArg fd F_DUPFD arg w.kernel (Or.inr (Or.inr rfl))]
  rfl

theorem switch_other {cmd : CInt}
    (hcmd : cmd ∉ [F_DUPFD, F_GETFD, F_SETFD, F_GETFL, F_SETFL, F_GETLK, F_SETLK, F_SETLKW]) :
    observe (fcntlSwitch K isHook fd cmd arg (some a) w) = (0, w.kernel) := by
  simp only [List.mem_cons, List.not_mem_nil, or_false, not_or] at hcmd
  simp only [fcntlSwitch, hcmd, if_false, or_self]
  rfl

end commands

/-! ## One call -/

section calls

variable {K : Kernel κ} {own : Own} {w : Process κ}

/-- What the program has set is set in the kernel. -/
def Shows (K : Kernel κ) (own : Own) (k : κ) : Prop :=
  ∀ fd, own fd = some true → nonblock (K.statusFlags k fd) = true

theorem shown_eq_iff {own : Option Bool} {flags : CInt} (h : own = some true → nonblock flags = true) :
    flags = shown own flags ↔ (own = some false → nonblock flags = false) := by
  cases own with
  | none => simp [shown]
  | some b =>
      cases b with
      | true =>
          have hor : flags ||| O_NONBLOCK = flags := or_eq_iff.2 (h rfl)
          simp [shown, hor]
      | false =>
          have heq : flags = flags &&& ~~~O_NONBLOCK ↔ nonblock flags = false :=
            eq_comm.trans and_not_eq_iff
          simpa [shown] using heq

/-- `F_GETFL` shows the flags of the kernel. -/
theorem getfl_agrees (hK : K.Documented) (hown : Shows K own w.kernel) (isHook : Bool) (fd : CInt)
    (arg : Arg) : K.fcntl fd F_GETFL arg w.kernel =
        (Call.fcntl isHook fd F_GETFL arg).expected K own w.kernel ↔
      ((K.fcntl fd F_GETFL arg w.kernel).1 ≠ -1 → own fd = some false →
        nonblock (K.statusFlags w.kernel fd) = false) := by
  simp only [Call.expected, show F_GETFL ≠ F_SETFL by decide, false_and, if_false, true_and]
  by_cases hret : (K.fcntl fd F_GETFL arg w.kernel).1 = -1
  · simp [hret]
  · rw [if_pos hret]
    have hflags : K.fcntl fd F_GETFL arg w.kernel = (K.statusFlags w.kernel fd, w.kernel) := by
      rcases hK.getfl fd arg w.kernel with h | h
      · rw [h] at hret
        exact absurd rfl hret
      · exact h
    rw [hflags] at hret ⊢
    rw [Prod.mk.injEq, and_iff_left rfl, shown_eq_iff (hown fd)]
    exact ⟨fun h _ => h, fun h => h hret⟩

theorem expected_fcntl (isHook : Bool) (fd : CInt) {cmd : CInt} (arg : Arg) (hset : cmd ≠ F_SETFL)
    (hget : cmd ≠ F_GETFL) (k : κ) :
    (Call.fcntl isHook fd cmd arg).expected K own k = K.fcntl fd cmd arg k := by
  simp only [Call.expected, hset, hget, false_and, if_false]

theorem entry_nonblock {fd : CInt} {a : FdAttributes} (ha : Entry w fd a) :
    nonblock a.fdFlag = true ↔ ∃ a', w.fd2Attributes fd = some a' ∧ nonblock a'.fdFlag = true := by
  constructor
  · intro h
    rcases ha with ha | ⟨_, hzero⟩
    · exact ⟨a, ha, h⟩
    · rw [hzero] at h
      cases h
  · rintro ⟨a', ha', h⟩
    rcases ha with ha | ⟨hnone, _⟩
    · rw [ha] at ha'
      cases ha'
      exact h
    · rw [hnone] at ha'
      cases ha'

/-- `F_GETFD` masks the bit where `F_GETFL` should. -/
theorem getfd_agrees {fd : CInt} {a : FdAttributes} (ha : Entry w fd a) (x : CInt × κ) :
    (if nonblock a.fdFlag = true then x else (x.1 &&& ~~~O_NONBLOCK, x.2)) = x ↔
      (nonblock x.1 = true → ∃ a', w.fd2Attributes fd = some a' ∧ nonblock a'.fdFlag = true) := by
  rw [← entry_nonblock ha]
  cases nonblock a.fdFlag with
  | true => simp
  | false =>
      have hiff : (x.1 &&& ~~~O_NONBLOCK, x.2) = x ↔ nonblock x.1 = false := by
        rw [← and_not_eq_iff]
        constructor
        · exact congrArg Prod.fst
        · intro h
          rw [h]
      simpa using hiff

/-- The `switch` does what the call should do exactly when the rest of the condition holds. -/
theorem switch_agrees (hK : K.Documented) (hown : Shows K own w.kernel) (isHook : Bool) {fd : CInt}
    (cmd : CInt) (arg : Arg) (hfd : InTable fd) {a : FdAttributes} {w' : Process κ}
    (hw' : w'.kernel = w.kernel) (ha : Entry w fd a) :
    observe (fcntlSwitch K isHook fd cmd arg (some a) w') =
        (Call.fcntl isHook fd cmd arg).expected K own w.kernel ↔
      FcntlMeets K own fd cmd arg w := by
  by_cases hgetfd : cmd = F_GETFD
  · subst hgetfd
    rw [switch_getfd isHook fd arg a w' hK, hw', expected_fcntl _ _ _ (by decide) (by decide),
      getfd_agrees ha]
    constructor
    · intro h
      exact ⟨hfd, fun _ => h, nofun, nofun, fun h => absurd (by decide) h⟩
    · intro h
      exact h.getfd rfl
  by_cases hsetfd : cmd = F_SETFD
  · subst hsetfd
    rw [switch_setfd isHook fd arg a w' hK, hw', expected_fcntl _ _ _ (by decide) (by decide)]
    constructor
    · intro h
      exact ⟨hfd, nofun, fun _ => (congrArg Prod.fst h).symm, nofun, fun h => absurd (by decide) h⟩
    · intro h
      rw [← h.setfd rfl]
  by_cases hgetfl : cmd = F_GETFL
  · subst hgetfl
    rw [switch_getfl isHook fd arg a w' hK, hw', getfl_agrees hK hown]
    constructor
    · intro h
      exact ⟨hfd, nofun, nofun, fun _ => h, fun h => absurd (by decide) h⟩
    · intro h
      exact h.getfl rfl
  by_cases hsetfl : cmd = F_SETFL
  · subst hsetfl
    rw [switch_setfl isHook fd arg a w' hK, hw']
    constructor
    · intro _
      exact ⟨hfd, nofun, nofun, nofun, fun h => absurd (by decide) h⟩
    · intro _
      cases isHook with
      | true => rfl
      | false => rfl
  rw [expected_fcntl _ _ _ hsetfl hgetfl]
  have hmeets : (cmd ∉ [F_DUPFD, F_GETFD, F_SETFD, F_GETFL, F_SETFL, F_GETLK, F_SETLK, F_SETLKW] →
      K.fcntl fd cmd arg w.kernel = (0, w.kernel)) → FcntlMeets K own fd cmd arg w := fun h =>
    ⟨hfd, fun h => absurd h hgetfd, fun h => absurd h hsetfd, fun h => absurd h hgetfl, h⟩
  by_cases hlock : cmd = F_GETLK ∨ cmd = F_SETLK ∨ cmd = F_SETLKW
  · rw [switch_lock isHook fd arg a w' hlock, hw']
    constructor
    · intro _
      apply hmeets
      intro h
      exfalso
      apply h
      rcases hlock with rfl | rfl | rfl <;> decide
    · intro _
      rfl
  by_cases hdupfd : cmd = F_DUPFD
  · subst hdupfd
    rw [switch_dupfd isHook fd arg a w' hK, hw']
    constructor
    · intro _
      exact hmeets fun h => absurd (by decide) h
    · intro _
      rfl
  have hother : cmd ∉ [F_DUPFD, F_GETFD, F_SETFD, F_GETFL, F_SETFL, F_GETLK, F_SETLK, F_SETLKW] := by
    simp only [List.mem_cons, List.not_mem_nil, or_false, not_or]
    rw [not_or, not_or] at hlock
    exact ⟨hdupfd, hgetfd, hsetfd, hgetfl, hsetfl, hlock⟩
  rw [switch_other isHook fd arg a w' hother, hw']
  constructor
  · intro h
    exact hmeets fun _ => h.symm
  · intro h
    exact (h.other hother).symm

theorem fcntl_eq {fd : CInt} (hfd : InTable fd) (isHook : Bool) (cmd : CInt) (arg : Arg)
    (w : Process κ) : ∃ a w', fcntl K isHook fd cmd arg w =
        .ok (fcntlSwitch K isHook fd cmd arg (some a) w') ∧
      w'.kernel = w.kernel ∧ Entry w fd a := by
  obtain ⟨a, w', hcreate, hw', ha⟩ := createFdAttributes_ok hfd w
  refine ⟨a, w', ?_, hw', ha⟩
  have hneg : ¬ fd.toInt < 0 := by
    have := hfd.1
    omega
  unfold fcntl
  rw [if_neg hneg, hcreate]
  rfl

/-- `fcntl` does what it should, exactly when the condition holds. -/
theorem fcntl_agrees_iff (hK : K.Documented) (hown : Shows K own w.kernel) (isHook : Bool)
    (fd cmd : CInt) (arg : Arg) :
    (∃ ret w', fcntl K isHook fd cmd arg w = .ok (ret, w') ∧
      (ret, w'.kernel) = (Call.fcntl isHook fd cmd arg).expected K own w.kernel) ↔
      FcntlMeets K own fd cmd arg w := by
  by_cases hfd : InTable fd
  · obtain ⟨a, w', hrun, hw', ha⟩ := fcntl_eq (K := K) hfd isHook cmd arg w
    rw [← switch_agrees hK hown isHook cmd arg hfd hw' ha, hrun]
    constructor
    · rintro ⟨ret, w'', heq, hexpected⟩
      rw [Except.ok.inj heq]
      exact hexpected
    · intro hexpected
      exact ⟨_, _, rfl, hexpected⟩
  · constructor
    · rintro ⟨ret, w', hrun, hexpected⟩
      exfalso
      unfold fcntl at hrun
      by_cases hneg : fd.toInt < 0
      · -- the kernel would have returned -1
        rw [if_pos hneg] at hrun
        cases hrun
        have hbad : (Call.fcntl isHook fd cmd arg).expected K own w.kernel = (-1, w.kernel) := by
          simp only [Call.expected, hK.badFd _ _ _ _ hneg, ne_eq, not_true_eq_false, and_false,
            if_false, ite_self]
        rw [hbad] at hexpected
        cases hexpected
      · rw [if_neg hneg, createFdAttributes_error hfd] at hrun
        cases hrun
    · intro h
      exact absurd h.inTable hfd

theorem call_eq {f : κ → CInt × κ} {ret : CInt} {k : κ} (h : f w.kernel = (ret, k)) :
    w.call f = (ret, { w with kernel := k }) := by
  unfold Process.call
  rw [h]

/-- `socket` for a task that is hooked, when the kernel returns a descriptor. -/
theorem socket_hooked (hK : K.Documented) {domain type protocol fd flags : CInt} {k k' : κ}
    (hsocket : K.socket domain type protocol w.kernel = (fd, k))
    (hget : K.fcntl fd F_GETFL 0 k = (flags, k')) (hfd : InTable fd) :
    ∃ w', socket K true domain type protocol w = .ok (fd, w') ∧
      w'.kernel = (K.fcntl fd F_SETFL (intArg (flags ||| O_NONBLOCK)) k').2 := by
  have hneg : ¬ fd.toInt < 0 := by
    have := hfd.1
    omega
  obtain ⟨a, w₂, hcreate, hw₂, _⟩ := createFdAttributes_ok hfd { w with kernel := k }
  have hget' : K.fcntl fd F_GETFL 0 (w₂.setAttributes fd { a with domain := domain }).kernel =
      (flags, k') := by
    show K.fcntl fd F_GETFL 0 w₂.kernel = _
    rw [hw₂]
    exact hget
  obtain ⟨a', w₃, hset, hw₃, _⟩ := fcntl_eq (K := K) hfd true F_SETFL (intArg flags)
    { w₂.setAttributes fd { a with domain := domain } with kernel := k' }
  have hlast := switch_setfl true fd (intArg flags) a' w₃ hK
  refine ⟨(fcntlSwitch K true fd F_SETFL (intArg flags) (some a') w₃).2, ?_, ?_⟩
  · unfold socket
    rw [if_neg (by decide), call_eq hsocket]
    simp only [hneg, if_false, hcreate]
    show (fcntl K true fd F_SETFL (intArg (Process.call _ _).1) (Process.call _ _).2 >>= _) = _
    rw [call_eq hget', hset]
    rfl
  · rw [intArg_or]
    rw [hw₃] at hlast
    exact congrArg Prod.snd hlast

theorem expected_socket {domain type protocol fd : CInt} {k₀ k : κ}
    (hsocket : K.socket domain type protocol k₀ = (fd, k)) (isHook : Bool) :
    (Call.socket isHook domain type protocol).expected K own k₀ =
      if isHook = true ∧ 0 ≤ fd.toInt then
        (fd, (K.fcntl fd F_SETFL (intArg ((K.fcntl fd F_GETFL 0 k).1 ||| O_NONBLOCK))
          (K.fcntl fd F_GETFL 0 k).2).2)
      else (fd, k) := by
  rw [Call.expected, hsocket]

/-- `socket` does what it should, exactly when the new descriptor is in the table. -/
theorem socket_agrees_iff (hK : K.Documented) (isHook : Bool) (domain type protocol : CInt) :
    (∃ ret w', socket K isHook domain type protocol w = .ok (ret, w') ∧
      (ret, w'.kernel) = (Call.socket isHook domain type protocol).expected K own w.kernel) ↔
      (Call.socket isHook domain type protocol).Meets K own w := by
  obtain ⟨fd, k, hsocket⟩ : ∃ fd k, K.socket domain type protocol w.kernel = (fd, k) := ⟨_, _, rfl⟩
  rw [expected_socket hsocket, Call.Meets, hsocket]
  cases isHook with
  | false =>
      constructor
      · intro _ h
        cases h
      · intro _
        refine ⟨fd, { w with kernel := k }, ?_, rfl⟩
        unfold socket
        rw [if_pos rfl, call_eq hsocket]
  | true =>
      by_cases hneg : fd.toInt < 0
      · have hpos : ¬ 0 ≤ fd.toInt := by omega
        constructor
        · intro _ _ h
          exact absurd h hpos
        · intro _
          refine ⟨fd, { w with kernel := k }, ?_, ?_⟩
          · unfold socket
            rw [if_neg (by decide), call_eq hsocket]
            simp only [hneg, if_true]
            rfl
          · rw [if_neg (fun h => hpos h.2)]
      · have hpos : 0 ≤ fd.toInt := by omega
        rw [if_pos ⟨rfl, hpos⟩]
        constructor
        · rintro ⟨ret, w', hrun, _⟩ _ _
          by_contra hfd
          have herror := createFdAttributes_error hfd { w with kernel := k }
          unfold socket at hrun
          rw [if_neg (by decide), call_eq hsocket] at hrun
          simp only [hneg, if_false, herror] at hrun
          cases hrun
        · intro hfd
          obtain ⟨w', hrun, hw'⟩ := socket_hooked hK hsocket rfl (hfd rfl hpos)
          refine ⟨fd, w', hrun, ?_⟩
          rw [hw']

/-- **One call** does what it should, exactly when the condition holds before it. -/
theorem Call.agrees_iff (hK : K.Documented) (hown : Shows K own w.kernel) (c : Call) :
    (∃ ret w', c.exec K w = .ok (ret, w') ∧ (ret, w'.kernel) = c.expected K own w.kernel) ↔
      c.Meets K own w := by
  cases c with
  | fcntl isHook fd cmd arg => exact fcntl_agrees_iff hK hown isHook fd cmd arg
  | socket isHook domain type protocol => exact socket_agrees_iff hK isHook domain type protocol

/-! ## What the program has set stays set -/

theorem Shows.congr {own : Own} {k k' : κ} (h : Shows K own k)
    (hflags : K.statusFlags k' = K.statusFlags k) : Shows K own k' := by
  intro fd hfd
  rw [hflags]
  exact h fd hfd

theorem not_nonneg_minus_one : ¬ 0 ≤ (-1 : CInt).toInt := by decide

theorem next_socket {domain type protocol fd : CInt} {k₀ k : κ}
    (hsocket : K.socket domain type protocol k₀ = (fd, k)) (isHook : Bool) :
    (Call.socket isHook domain type protocol).next K own k₀ = if 0 ≤ fd.toInt then
      Function.update own fd (some (nonblock (K.statusFlags k fd))) else own := by
  rw [Call.next, hsocket]

/-- `F_SETFL`, with the bit forced or not. -/
theorem Shows.setfl (hK : K.Documented) {k : κ} (h : Shows K own k) (fd : CInt) (arg arg' : Arg)
    (harg : nonblock (vaInt arg) = true → nonblock (vaInt arg') = true) :
    Shows K (if (K.fcntl fd F_SETFL arg' k).1 = 0 then
      Function.update own fd (some (nonblock (vaInt arg))) else own) (K.fcntl fd F_SETFL arg' k).2 := by
  rcases hK.setfl fd arg' k with hfail | ⟨k', hok, hbit, hothers⟩
  · rw [hfail, if_neg (show (-1 : CInt) ≠ 0 by decide)]
    exact h
  · rw [hok, if_pos rfl]
    intro fd' hfd'
    by_cases heq : fd' = fd
    · subst heq
      rw [Function.update_self, Option.some.injEq] at hfd'
      rw [hbit]
      exact harg hfd'
    · rw [Function.update_of_ne heq] at hfd'
      rw [hothers fd' heq]
      exact h fd' hfd'

/-- `F_DUPFD`. -/
theorem Shows.dupfd (hK : K.Documented) {k : κ} (h : Shows K own k) (fd : CInt) (arg : Arg) :
    Shows K (if 0 ≤ (K.fcntl fd F_DUPFD arg k).1.toInt then
      Function.update own (K.fcntl fd F_DUPFD arg k).1 (own fd) else own)
      (K.fcntl fd F_DUPFD arg k).2 := by
  rcases hK.dupfd fd arg k with hfail | ⟨fd', k', hok, hpos, hflags⟩
  · rw [hfail, if_neg not_nonneg_minus_one]
    exact h
  · rw [hok, if_pos hpos]
    intro fd'' hfd''
    rw [hflags]
    by_cases heq : fd'' = fd'
    · subst heq
      rw [Function.update_self] at hfd'' ⊢
      exact h fd hfd''
    · rw [Function.update_of_ne heq] at hfd'' ⊢
      exact h fd'' hfd''

/-- A new socket. -/
theorem Shows.socket (hK : K.Documented) {k : κ} (h : Shows K own k) (isHook : Bool)
    (domain type protocol : CInt) :
    Shows K ((Call.socket isHook domain type protocol).next K own k)
      ((Call.socket isHook domain type protocol).expected K own k).2 := by
  rcases hK.socket domain type protocol k with hfail | ⟨fd, k', hok, hpos, hothers⟩
  · rw [expected_socket hfail, next_socket hfail, if_neg not_nonneg_minus_one,
      if_neg fun hpos => not_nonneg_minus_one hpos.2]
    exact h
  · rw [expected_socket hok, next_socket hok, if_pos hpos]
    have hnew : Shows K (Function.update own fd (some (nonblock (K.statusFlags k' fd)))) k' := by
      intro fd' hfd'
      by_cases heq : fd' = fd
      · subst heq
        rw [Function.update_self, Option.some.injEq] at hfd'
        exact hfd'
      · rw [Function.update_of_ne heq] at hfd'
        rw [hothers fd' heq]
        exact h fd' hfd'
    cases isHook with
    | false => exact hnew
    | true =>
        rw [if_pos ⟨rfl, hpos⟩]
        have hget : Shows K (Function.update own fd (some (nonblock (K.statusFlags k' fd))))
            (K.fcntl fd F_GETFL 0 k').2 := hnew.congr (hK.others fd F_GETFL 0 k' (by decide))
        -- the bit is forced on a descriptor that may have it
        intro fd' hfd'
        have hset := hget.setfl hK fd (intArg O_NONBLOCK)
          (intArg ((K.fcntl fd F_GETFL 0 k').1 ||| O_NONBLOCK)) (by
            intro _
            rw [vaInt_intArg]
            exact nonblock_or _)
        apply hset fd'
        by_cases heq : fd' = fd
        · subst heq
          split
          · rw [Function.update_self, vaInt_intArg]
            decide
          · exact hfd'
        · split
          · rw [Function.update_of_ne heq]
            exact hfd'
          · exact hfd'

theorem Call.shows_next (hK : K.Documented) {c : Call} (hown : Shows K own w.kernel)
    (hmeets : c.Meets K own w) : Shows K (c.next K own w.kernel) (c.expected K own w.kernel).2 := by
  cases c with
  | socket isHook domain type protocol => exact hown.socket hK isHook domain type protocol
  | fcntl isHook fd cmd arg =>
      rw [Call.next]
      by_cases hset : cmd = F_SETFL
      · subst hset
        simp only [Call.expected, true_and, show F_SETFL ≠ F_GETFL by decide,
          show F_SETFL ≠ F_DUPFD by decide, false_and, if_false]
        cases isHook with
        | true =>
            apply hown.setfl hK
            intro _
            rw [vaInt_or]
            exact nonblock_or _
        | false => exact hown.setfl hK fd _ _ id
      by_cases hdup : cmd = F_DUPFD
      · subst hdup
        rw [expected_fcntl _ _ _ (by decide) (by decide)]
        simp only [show F_DUPFD ≠ F_SETFL by decide, false_and, if_false, true_and]
        exact hown.dupfd hK fd arg
      have hkernel : ((Call.fcntl isHook fd cmd arg).expected K own w.kernel).2 =
          (K.fcntl fd cmd arg w.kernel).2 := by
        rw [Call.expected, if_neg fun h => hset h.1]
        split <;> rfl
      rw [if_neg fun h => hset h.1, if_neg fun h => hdup h.1, hkernel]
      apply hown.congr
      by_cases hother : cmd ∈ [F_DUPFD, F_GETFD, F_SETFD, F_GETFL, F_SETFL, F_GETLK, F_SETLK, F_SETLKW]
      · apply hK.others
        simp only [List.mem_cons, List.not_mem_nil, or_false, hset, hdup, false_or] at hother ⊢
        exact hother
      · rw [hmeets.other hother]

end calls

/-! ## Sequences of calls -/

theorem transparent_iff_of_shows {K : Kernel κ} (hK : K.Documented) {own : Own} {w : Process κ}
    (hown : Shows K own w.kernel) (cs : List Call) : Transparent K own w cs ↔ AllMeet K own w cs := by
  induction cs generalizing own w with
  | nil => exact Iff.rfl
  | cons c cs ih =>
      have hcall := c.agrees_iff hK hown
      constructor
      · rintro ⟨ret, w', hexec, hexpected, hrest⟩
        have hmeets := hcall.1 ⟨ret, w', hexec, hexpected⟩
        have hnext := Call.shows_next hK hown hmeets
        rw [← hexpected] at hnext
        refine ⟨hmeets, ?_⟩
        intro ret' w'' hexec'
        rw [hexec] at hexec'
        cases hexec'
        exact (ih hnext).1 hrest
      · rintro ⟨hmeets, hrest⟩
        obtain ⟨ret, w', hexec, hexpected⟩ := hcall.2 hmeets
        have hnext := Call.shows_next hK hown hmeets
        rw [← hexpected] at hnext
        exact ⟨ret, w', hexec, hexpected, (ih hnext).2 (hrest ret w' hexec)⟩

/-- The process at its start, when no call has been made. -/
def Process.start (k : κ) : Process κ := ⟨k, fun _ => none⟩

/-- **The interposed functions are transparent, exactly when** every call meets the condition. -/
theorem transparent_iff {K : Kernel κ} (hK : K.Documented) (k : κ) (cs : List Call) :
    Transparent K (fun _ => none) (Process.start k) cs ↔
      AllMeet K (fun _ => none) (Process.start k) cs := by
  apply transparent_iff_of_shows hK
  intro fd hfd
  cases hfd

/-! ## A kernel with a full table of descriptors -/

/-- What the kernel keeps of an open descriptor. -/
structure Descriptor where
  statusFlags : CInt
  fdFlags : CInt

/-- `O_APPEND | O_NONBLOCK | O_ASYNC | O_DIRECT | O_NOATIME`, the flags that `F_SETFL` sets. -/
def setflMask : CInt := 0x46C00#32

/-- No descriptor can be added: `socket` and `F_DUPFD` fail. -/
def fullTable : Kernel (CInt → Option Descriptor) where
  fcntl fd cmd arg k :=
    match k fd with
    | none => (-1, k)
    | some d =>
      if fd.toInt < 0 then (-1, k)
      else if cmd = F_GETFD then (d.fdFlags, k)
      else if cmd = F_SETFD then
        (0, Function.update k fd (some { d with fdFlags := vaInt arg &&& 1 }))
      else if cmd = F_GETFL then (d.statusFlags, k)
      else if cmd = F_SETFL then
        (0, Function.update k fd (some { d with
          statusFlags := d.statusFlags &&& ~~~setflMask ||| vaInt arg &&& setflMask }))
      else (-1, k)
  socket _ _ _ k := (-1, k)
  statusFlags k fd := (k fd).elim 0 Descriptor.statusFlags

theorem fullTable_documented : fullTable.Documented where
  intArg fd cmd arg k hcmd := by
    simp only [fullTable, vaInt_intArg]
  noArg fd cmd arg k hcmd := by
    simp only [fullTable]
    rcases hcmd with rfl | rfl
    · rfl
    · rfl
  badFd fd cmd arg k hneg := by
    simp only [fullTable]
    split
    · rfl
    · rw [if_pos hneg]
  getfl fd arg k := by
    simp only [fullTable]
    split
    · exact Or.inl rfl
    · next d hd =>
        split
        · exact Or.inl rfl
        · right
          simp only [hd]
          rfl
  setfl fd arg k := by
    simp only [fullTable]
    split
    · exact Or.inl rfl
    · next d hd =>
        split
        · exact Or.inl rfl
        · refine Or.inr ⟨_, rfl, ?_, ?_⟩
          · simp [nonblock, setflMask, Function.update_self]
          · intro fd' hfd'
            rw [Function.update_of_ne hfd']
  others fd cmd arg k hcmd := by
    funext fd'
    simp only [fullTable]
    split
    · rfl
    · next d hd =>
        split
        · rfl
        split
        · rfl
        split
        · -- only the descriptor's own flags change
          show (Function.update k fd _ fd').elim 0 Descriptor.statusFlags = _
          by_cases heq : fd' = fd
          · subst heq
            rw [Function.update_self, hd]
            rfl
          · rw [Function.update_of_ne heq]
        split
        · rfl
        split
        · next hset =>
            subst hset
            exact absurd hcmd (by decide)
        · rfl
  dupfd fd arg k := by
    left
    simp only [fullTable]
    split
    · rfl
    · split <;> rfl
  socket domain type protocol k := Or.inl rfl

/-- Descriptor `3` is open for reading and writing. -/
def threeOpen : CInt → Option Descriptor :=
  fun fd => if fd = 3 then some ⟨2, 0⟩ else none

/-- A hooked task sets no flags, and reads them back. -/
def readBack : List Call :=
  [.fcntl true 3 F_SETFL (intArg 2), .fcntl true 3 F_GETFL 0]

theorem transparent_iff_readBack :
    Transparent fullTable (fun _ => none) (Process.start threeOpen) readBack ↔
      AllMeet fullTable (fun _ => none) (Process.start threeOpen) readBack :=
  transparent_iff fullTable_documented threeOpen readBack

/-- It sees the bit that was forced. -/
theorem readBack_sees_forced_bit : ¬ ∀ cs,
    Transparent fullTable (fun _ => none) (Process.start threeOpen) cs := by
  intro hclaim
  have hmeets := (transparent_iff_of_shows fullTable_documented (fun _ hfd => by cases hfd) _).1
    (hclaim readBack)
  have hsecond := (hmeets.2 _ _ rfl).1
  have hclear := hsecond.getfl rfl (by decide) (by decide)
  revert hclear
  decide

end ThreadSched.Hook
