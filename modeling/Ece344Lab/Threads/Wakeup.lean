import Ece344Lab.Threads.Mutex
import Ece344Lab.Threads.WaitQueues

set_option autoImplicit false

/- No wake-up is lost: nobody waits for a lock that is free, and a thread that waits for a condition
waits before anybody else has the lock. -/
namespace Ece344Lab.Threads

open Outcome State

variable {s s' m : State} {t u lock cv : Nat} {w : WaitQueue} {k : List Frame} {c : Call}
  {f : Frame} {ie : Bool} {a : Action} {woken rest : List Nat} {x : Except Fault State}

/-- Threads leave a queue at its start and join it at its end. -/
def Fifo (xs ys : List Nat) : Prop := ∃ n new, ys = xs.drop n ++ new

/-- Nobody waits for a lock that is free. -/
def Vacant (s : State) : Prop :=
  ∀ lock, (s.locks lock).status = .free → s.waiting (.ofLock lock) = []

/-- The wait queues are used in order, and nobody waits for a free lock in the end. -/
structure Orderly (s s' : State) : Prop where
  fifo : ∀ w, Fifo (s.waiting w) (s'.waiting w)
  vacant : Vacant s'

theorem Fifo.refl (xs : List Nat) : Fifo xs xs := ⟨0, [], by simp⟩

theorem Orderly.of_still (vacant : Vacant s) (queues : s'.waitQueues = s.waitQueues)
    (locks : s'.locks = s.locks) : Orderly s s' := by
  have waiting : s'.waiting = s.waiting := by
    funext w
    unfold State.waiting
    rw [queues]
  refine ⟨fun w => waiting ▸ .refl _, fun lock free => ?_⟩
  rw [locks] at free
  rw [waiting]
  exact vacant lock free

theorem Orderly.of_wakes (split : s.waiting w = woken ++ rest) (wakes : Wakes w woken rest s s')
    (vacant : ∀ lock, (s.locks lock).status = .free → s'.waiting (.ofLock lock) = []) :
    Orderly s s' := by
  refine ⟨fun v => ?_, fun lock free => vacant lock (wakes.locks ▸ free)⟩
  by_cases same : v = w
  · subst same
    refine ⟨woken.length, [], ?_⟩
    rw [wakes.waiting, split, List.drop_left, List.append_nil]
  · rw [wakes.others v same]
    exact .refl _

/-- The computation keeps the wait queues in order. -/
abbrev Orders (s : State) (x : Except Fault State) : Prop := Sat x (Orderly s) fun _ => True

section Calls

theorem orders_of_still (vacant : Vacant s) (affects : Affects k s x) (still : Still s x) :
    Orders s x :=
  (affects.and still).weaken fun _ both => by
    obtain ⟨⟨_, effect⟩, queues⟩ := both
    exact .of_still vacant queues effect.locks

theorem threadWakeup_orders (vacant : Vacant s) (w : WaitQueue) (all : Int) (k : List Frame) :
    Orders s (threadWakeup (some w) all k s) := by
  obtain ⟨s', runs, woken, rest, split, wakes⟩ := threadWakeup_wakes w all k s
  rw [runs]
  refine .of_wakes split wakes fun lock free => ?_
  have empty := vacant lock free
  by_cases same : .ofLock lock = w
  · subst same
    rw [split] at empty
    rw [wakes.waiting]
    exact (List.append_eq_nil_iff.mp empty).2
  · rw [wakes.others _ same]
    exact empty

/-- `thread_sleep` in a queue that is not that of a free lock. -/
theorem threadSleep_orders (vacant : Vacant s) (calling : s.Calling k)
    (busy : ∀ lock, w = .ofLock lock → (s.locks lock).status ≠ .free) :
    Orders s (threadSleep (some w) k s) := by
  obtain ⟨rest, first⟩ := (calling.called (.threadSleep (some w))).exists_ready
  change s.ready = s.running :: rest at first
  have effect := threadSleep_effect (k := k) calling.head (some w)
  cases rest with
  | nil =>
      obtain ⟨s', runs, queued, locks, _⟩ := threadSleep_alone k first w
      rw [runs]
      have waiting : ∀ v, s'.waiting v = s.waiting v := fun v => congrFun queued (some v)
      refine ⟨fun v => waiting v ▸ .refl _, fun lock free => ?_⟩
      rw [locks] at free
      exact (waiting _).trans (vacant lock free)
  | cons u rest =>
      obtain ⟨s', runs, _, joined, others, _⟩ := threadSleep_sleeps k first calling.active w
      rw [runs] at effect ⊢
      obtain ⟨_, effect⟩ := effect
      refine ⟨fun v => ?_, fun lock free => ?_⟩
      · by_cases same : v = w
        · subst same
          exact ⟨0, [s.running], joined⟩
        · rw [others v same]
          exact .refl _
      · rw [effect.locks] at free
        have other : .ofLock lock ≠ w := fun same => busy lock same.symm free
        rw [others _ other]
        exact vacant lock free

/-- A thread that has been woken up does not go to sleep again. -/
theorem sleepGot_still {controlId : Int} (ok : s.Ok)
    (suspended : s.frames = .sleep w controlId ie :: k) :
    Still s (sleepGot w controlId ie k s) := by
  obtain ⟨rest, first⟩ := ok.exists_ready
  unfold sleepGot
  rw [ThreadQueue.top_ok first, ok_bind]
  dsimp only
  rw [if_neg (ok.idle suspended rfl)]
  by_cases idle : (s.threads s.running).status = .idle
  · rw [if_pos idle]
    rfl
  · rw [if_neg idle]
    rfl

theorem acquireLoop_orders (vacant : Vacant s) (inside : s.Inside (.lockAcquire lock) ie k)
    (bare : Bare k) : Orders s (acquireLoop lock ie k s) := by
  unfold acquireLoop
  refine Sat.ite (fun busy => ?_) fun _ => ?_
  · refine threadSleep_orders vacant
      (inside.calling (f := .acquire lock ie) rfl rfl rfl rfl bare) fun lock' same => ?_
    cases same
    exact busy
  · rw [top_of_head inside.head, ok_bind]
    refine ⟨fun w => .refl _, fun lock' free => ?_⟩
    have other : lock' ≠ lock := by
      rintro rfl
      rw [show (State.locks _ lock') = _ from Function.update_self _ _ _] at free
      cases free
    rw [show (State.locks _ lock') = _ from Function.update_of_ne other _ _] at free
    exact vacant lock' free

theorem lockAcquire_orders (vacant : Vacant s) (calling : s.Calling k) (bare : Bare k) :
    Orders s (lockAcquire lock k s) := by
  have orders := acquireLoop_orders (s := (s.called (.lockAcquire lock)).interruptsSet false) vacant
    (calling.called (.lockAcquire lock)) bare
  exact orders.weaken fun s' orderly => ⟨orderly.fifo, orderly.vacant⟩

/-- Everybody who waits for the lock is woken up. -/
theorem lockRelease_orders (vacant : Vacant s) (lock : Nat) (k : List Frame) :
    Orders s (lockRelease lock k s) := by
  obtain ⟨s', runs, wakes, _⟩ := threadWakeup_all (.ofLock lock) (.release lock s.enabled :: k)
    (((s.called (.lockRelease lock)).interruptsSet false).setLock lock
      { s.locks lock with status := .free })
  have orderly := Orderly.of_wakes (List.append_nil _).symm wakes fun lock' free => ?_
  · have released : lockRelease lock k s = .ok s' := runs
    rw [released]
    exact ⟨orderly.fifo, orderly.vacant⟩
  · by_cases same : lock' = lock
    · subst same
      exact wakes.waiting
    · rw [show (State.locks _ lock') = _ from Function.update_of_ne same _ _] at free
      rw [wakes.others _ fun equal => same (WaitQueue.ofLock.inj equal)]
      exact vacant lock' free

/-- The wait queues of locks and condition variables are used by the package only, and locks are
released by their holders. -/
def Ordinary (s : State) : Action → Prop
  | .invoke (.threadSleep (some (.ofLock _))) | .invoke (.threadSleep (some (.ofCv _)))
  | .invoke (.threadWakeup (some (.ofLock _)) _) | .invoke (.threadWakeup (some (.ofCv _)) _) =>
      False
  | a => Disciplined s a

theorem Ordinary.disciplined (may : Ordinary s a) : Disciplined s a := by
  unfold Ordinary at may
  split at may <;> first | exact may.elim | exact may

theorem enter_orders (vacant : Vacant s) (calling : s.Calling [])
    (may : Ordinary s (.invoke c)) : Orders s (enter c [] s) := by
  have head := calling.head
  have wakes : ∀ c w all k, Orders s (threadWakeup (some w) all k
      ((s.called c).interruptsSet false)) := fun c w all k =>
    (threadWakeup_orders (s := (s.called c).interruptsSet false) vacant w all k).weaken
      fun s' orderly => ⟨orderly.fifo, orderly.vacant⟩
  cases c with
  | threadCreate t =>
    exact orders_of_still vacant (threadCreate_effect (k := []) t) (threadCreate_still t)
  | threadYield wantTid =>
      exact orders_of_still vacant (threadYield_effect (k := []) head wantTid)
        (threadYield_still wantTid)
  | threadExit tid =>
      have permitted : (Call.threadExit tid).Permitted s := may
      exact orders_of_still vacant (threadExit_effect (k := []) head permitted.several)
        (threadExit_still tid)
  | threadSleep queue =>
      match queue, may with
      | none, _ => exact .of_still vacant rfl rfl
      | some (.other i), _ => exact threadSleep_orders vacant calling nofun
  | threadWakeup queue all =>
      match queue, may with
      | none, _ => exact .of_still vacant rfl rfl
      | some (.other i), _ => exact threadWakeup_orders vacant _ all []
  | lockAcquire lock => exact lockAcquire_orders vacant calling nofun
  | lockRelease lock => exact lockRelease_orders vacant lock []
  | cvWait cv lock =>
      rw [enter, cvWait_eq head]
      refine Sat.ite (fun _ => ?_) fun _ => .of_still vacant rfl rfl
      exact (lockRelease_orders (s := (s.called (.cvWait cv lock)).interruptsSet false) vacant lock
        _).weaken fun s' orderly => ⟨orderly.fifo, orderly.vacant⟩
  | cvSignal cv lock =>
      rw [enter, cvSignal_eq head]
      exact Sat.ite (fun _ => wakes _ _ _ _) fun _ => .of_still vacant rfl rfl
  | cvBroadcast cv lock =>
      rw [enter, cvBroadcast_eq head]
      exact Sat.ite (fun _ => wakes _ _ _ _) fun _ => .of_still vacant rfl rfl

theorem resume_orders (vacant : Vacant s) (ok : s.Ok) (suspended : s.frames = f :: k) :
    Orders s (resume f k s) := by
  have nested := ok.nested
  rw [suspended] at nested
  have bare := nested.2.2.2.1
  have between := Between.start k s
  cases f with
  | yieldAny ie => exact orders_of_still vacant (yieldAnyGot_effect between) (yieldAnyGot_still rfl)
  | yieldTo wantTid ie =>
      exact orders_of_still vacant (yieldToGot_effect between) (yieldToGot_still rfl)
  | sleep queue controlId ie =>
      exact orders_of_still vacant (sleepGot_effect between) (sleepGot_still ok suspended)
  | acquire lock ie => exact acquireLoop_orders vacant (ok.inside suspended rfl rfl) bare
  | release lock ie =>
      refine ⟨fun w => .refl _, fun lock' free => ?_⟩
      have status : ∀ l, (Function.update s.locks lock { s.locks lock with lockedThread := none }
          l).status = (s.locks l).status := by
        intro l
        by_cases same : l = lock
        · rw [same, Function.update_self]
        · rw [Function.update_of_ne same]
      exact vacant lock' ((status lock').symm.trans free)
  | waitReleased cv lock ie =>
      have inside := ok.inside suspended rfl rfl
      unfold resume
      exact threadSleep_orders vacant
        (inside.calling (f := .waitSlept cv lock ie) rfl rfl rfl rfl bare) nofun
  | waitSlept cv lock ie =>
      have inside := ok.inside suspended rfl rfl
      unfold resume
      exact lockAcquire_orders vacant
        (inside.calling (f := .waitAcquired cv lock ie) rfl rfl rfl rfl bare) (bare.cons rfl)
  | waitAcquired cv lock ie => exact .of_still vacant rfl rfl
  | signalled cv lock ie => exact .of_still vacant rfl rfl
  | broadcasted cv lock ie => exact .of_still vacant rfl rfl
  | exitMain ie => cases nested.1
  | handler e => exact .of_still vacant rfl rfl
  | stub => exact .of_still vacant rfl rfl

theorem Step.orderly (vacant : Vacant s) (ok : s.Ok) (may : Ordinary s a) (step : Step s a s') :
    Orderly s s' := by
  cases step with
  | invoke user fresh runs => exact (enter_orders vacant (ok.calling user) may).of_ok runs
  | interruptsSet user enabled => exact .of_still vacant rfl rfl
  | timer on runs =>
      have orderly := (orders_of_still (s := s.interruptsSet false) vacant
        (threadYield_effect (s := s.interruptsSet false) ok.head _)
          (threadYield_still _)).of_ok runs
      exact ⟨orderly.fifo, orderly.vacant⟩
  | goOn suspended runs => exact (resume_orders vacant ok suspended).of_ok runs

theorem Reachable.vacant (run : Reachable Ordinary s) : Vacant s := by
  have ok : ∀ {s}, Reachable Ordinary s → s.Ok := fun run =>
    (run.mono (q := Permitted) fun _ _ may => may.disciplined.permitted).ok
  induction run with
  | init runs => exact fun _ _ => (threadInit_begun runs).waiting _
  | step before may step ih => exact (step.orderly ih (ok before) may).vacant

end Calls

/-- However a run goes on, its states satisfy `p` until one satisfies `q`, and it does go on. -/
inductive Until (permitted : State → Action → Prop) (p q : State → Prop) : State → Prop
  | now {s : State} (there : q s) : Until permitted p q s
  | next {s : State} (still : p s) (goes : ∃ a s', permitted s a ∧ Step s a s')
      (each : ∀ a s', permitted s a → Step s a s' → Until permitted p q s') : Until permitted p q s

/-- A thread runs in a call with the timer signal blocked, and nobody else has the lock. -/
structure Undisturbed (lock t : Nat) (s : State) : Prop where
  running : s.running = t
  off : s.enabled = false
  inside : s.frames ≠ []
  alone : ∀ u, Holds lock u s.log → u = t

/-- The thread that has called `cv_wait` in the state `s` is in the queue of the condition variable,
or back from the call if no other thread could run, and nobody else has had the lock. -/
structure Settled (cv lock : Nat) (s s' : State) : Prop where
  alone : ∀ u, Holds lock u s'.log → u = s.running
  settled : s.running ∈ s'.waiting (.ofCv cv) ∨
    s.ready = [s.running] ∧ s.waiting (.ofLock lock) = [] ∧ s'.running = s.running ∧
      s'.frames = [] ∧ Holds lock s.running s'.log

section Waits

/-- With the timer signal blocked a call goes on undisturbed. -/
theorem Step.goes_on (off : s.enabled = false) (suspended : s.frames = f :: k)
    (step : Step s a s') :
    a = .goOn ∧ resume f k s = .ok s' := by
  cases step with
  | invoke user _ _ =>
      rw [suspended] at user
      cases user
  | interruptsSet user _ =>
      rw [suspended] at user
      cases user
  | timer on _ =>
      rw [off] at on
      cases on
  | goOn suspended' runs =>
      rw [suspended] at suspended'
      cases suspended'
      exact ⟨rfl, runs⟩

variable {p q : State → Prop}

theorem Until.goOn (still : p s) (off : s.enabled = false) (suspended : s.frames = f :: k)
    (resumes : resume f k s = .ok s') (later : Until Ordinary p q s') : Until Ordinary p q s := by
  refine .next still ⟨.goOn, s', trivial, .goOn suspended resumes⟩ fun a m _ step => ?_
  obtain ⟨_, runs⟩ := step.goes_on off suspended
  obtain rfl := Except.ok.inj (resumes.symm.trans runs)
  exact later

theorem State.LockOk.alone_of_free (lockOk : s.LockOk) (free : (s.locks lock).status = .free)
    (holds : Holds lock u s.log) : u = t := by
  rw [lockOk.guarded.held lock u holds] at free
  cases free

theorem State.LockOk.alone_of_owner (lockOk : s.LockOk)
    (owner : (s.locks lock).lockedThread = some t) (holds : Holds lock u s.log) : u = t := by
  rw [lockOk.guarded.held lock u holds] at owner
  exact Option.some.inj owner

theorem Reachable.lockOk_ordinary (run : Reachable Ordinary s) : s.Ok ∧ s.LockOk :=
  Reachable.lockOk (run.mono fun _ _ may => may.disciplined)

theorem Reachable.goOn (run : Reachable Ordinary s) (step : Step s .goOn s') :
    Reachable Ordinary s' :=
  have may : Ordinary s .goOn := trivial
  .step run may step

theorem lockAcquire_free (head : s.ready.head? = some s.running)
    (free : (s.locks lock).status = .free) : lockAcquire lock k s =
      .ok (((((s.called (.lockAcquire lock)).interruptsSet false).setLock lock
        ⟨some s.running, .locked⟩).interruptsSet s.enabled).returned
        (.lockAcquire lock) none k) := by
  unfold lockAcquire acquireLoop
  refine (if_neg (not_not.mpr free)).trans ?_
  rw [top_of_head (s := (s.called (.lockAcquire lock)).interruptsSet false) head]
  rfl

/-- The rest of `cv_wait` from the state `s`. -/
abbrev Waits (cv lock : Nat) (s m : State) : Prop :=
  Until Ordinary (Undisturbed lock s.running) (Settled cv lock s) m

section Parts

variable (run : Reachable Ordinary m) (running : m.running = s.running) (off : m.enabled = false)
include run running off

theorem waits_acquired (frames : m.frames = [.waitAcquired cv lock ie])
    (owner : (m.locks lock).lockedThread = some s.running) (holds : Holds lock s.running m.log)
    (ready : s.ready = [s.running]) (waiting : s.waiting (.ofLock lock) = []) :
    Waits cv lock s m := by
  have lockOk := run.lockOk_ordinary.2
  have alone : ∀ u, Holds lock u m.log → u = s.running := fun u => lockOk.alone_of_owner owner
  refine .goOn ⟨running, off, frames ▸ List.cons_ne_nil _ _, alone⟩ off frames rfl
    (.now ⟨fun u again => ?_, Or.inr ⟨ready, waiting, running, rfl, Or.inr ⟨rfl, holds⟩⟩⟩)
  exact alone u (.of_cons rfl again)

theorem waits_slept (frames : m.frames = [.waitSlept cv lock ie])
    (free : (m.locks lock).status = .free) (ready : s.ready = [s.running])
    (waiting : s.waiting (.ofLock lock) = []) : Waits cv lock s m := by
  have lockOk := run.lockOk_ordinary.2
  have head := run.lockOk_ordinary.1.head
  have acquires : resume (.waitSlept cv lock ie) [] m =
      .ok (((((m.called (.lockAcquire lock)).interruptsSet false).setLock lock
        ⟨some m.running, .locked⟩).interruptsSet m.enabled).returned
        (.lockAcquire lock) none [.waitAcquired cv lock ie]) :=
    lockAcquire_free head free
  refine .goOn ⟨running, off, frames ▸ List.cons_ne_nil _ _,
    fun u => lockOk.alone_of_free free⟩ off frames acquires ?_
  refine waits_acquired (run.goOn (.goOn frames acquires)) running off rfl ?_ ?_ ready waiting
  · change (Function.update m.locks lock _ lock).lockedThread = _
    rw [Function.update_self, running]
  · exact Or.inl (decide_eq_true ⟨running, rfl⟩)

theorem waits_released (frames : m.frames = [.waitReleased cv lock ie])
    (free : (m.locks lock).status = .free) (top : s.ready.head? = some s.running)
    (ready : m.ready = s.ready ++ s.waiting (.ofLock lock)) : Waits cv lock s m := by
  have ok := run.lockOk_ordinary.1
  have lockOk := run.lockOk_ordinary.2
  have still : Undisturbed lock s.running m :=
    ⟨running, off, frames ▸ List.cons_ne_nil _ _, fun u => lockOk.alone_of_free free⟩
  have active := ok.active (by
    rw [frames]
    exact not_switching_of_plain (by simp [Frame.switches]))
  obtain ⟨rest, first⟩ := ok.exists_ready
  cases rest with
  | nil =>
      have both : s.ready = [s.running] ∧ s.waiting (.ofLock lock) = [] := by
        rw [first, running] at ready
        cases lists : s.ready with
        | nil =>
            rw [lists] at top
            cases top
        | cons v rest =>
            rw [lists, List.cons_append] at ready
            obtain ⟨rfl, none'⟩ := List.cons.inj ready
            obtain ⟨rfl, none''⟩ := List.append_eq_nil_iff.mp none'.symm
            exact ⟨rfl, none''⟩
      obtain ⟨s', sleeps, queued, locks, running', frames', off'⟩ :=
        threadSleep_alone [.waitSlept cv lock ie] first (.ofCv cv)
      have step : Step m .goOn s' := .goOn frames sleeps
      refine .goOn still off frames sleeps (waits_slept (run.goOn step)
        (running'.trans running) (off'.trans off) frames' ?_ both.1 both.2)
      rw [locks]
      exact free
  | cons u rest =>
      obtain ⟨s', sleeps, _, joined, _⟩ :=
        threadSleep_sleeps [.waitSlept cv lock ie] first active (.ofCv cv)
      have step : Step m .goOn s' := .goOn frames sleeps
      have lockOk' := (run.goOn step).lockOk_ordinary.2
      have effect := (threadSleep_effect (k := [.waitSlept cv lock ie]) ok.head
        (some (.ofCv cv))).of_ok sleeps
      obtain ⟨_, effect⟩ := effect
      refine .goOn still off frames sleeps (.now ⟨fun u => lockOk'.alone_of_free ?_, Or.inl ?_⟩)
      · rw [effect.locks]
        exact free
      · rw [joined, running]
        simp

end Parts

/-- `cv_wait` of the holder of the lock. -/
theorem cvWait_waits (run : Reachable Ordinary s) (holds : Holds lock s.running s.log)
    (call : Step s (.invoke (.cvWait cv lock)) s') : Waits cv lock s s' := by
  have head := run.lockOk_ordinary.1.head
  have fields := run.lockOk_ordinary.2.guarded.held lock s.running holds
  have may : Ordinary s (.invoke (.cvWait cv lock)) := trivial
  have run' := Reachable.step run may call
  have holder : isHolder s lock s.running = true := by
    unfold isHolder
    rw [fields]
    exact decide_eq_true ⟨rfl, rfl⟩
  cases call with
  | invoke user _ runs =>
      rw [enter, cvWait_eq head, if_pos holder] at runs
      obtain ⟨m, wakes, woken, frames, off, _⟩ := threadWakeup_all (.ofLock lock)
        [.release lock false, .waitReleased cv lock s.enabled]
        (((((s.called (.cvWait cv lock)).interruptsSet false).called
          (.lockRelease lock)).interruptsSet false).setLock lock
          { s.locks lock with status := .free })
      obtain rfl : m = s' := Except.ok.inj (wakes.symm.trans runs)
      have free : (m.locks lock).status = .free := by
        rw [woken.locks]
        exact congrArg Lock.status (Function.update_self lock { s.locks lock with status := .free }
          s.locks)
      have still : Undisturbed lock s.running m :=
        ⟨woken.running, off, frames ▸ List.cons_ne_nil _ _,
          fun u => run'.lockOk_ordinary.2.alone_of_free free⟩
      refine .goOn still off frames rfl (waits_released (run'.goOn (.goOn frames rfl)) woken.running
        rfl rfl ?_ head woken.ready)
      change (Function.update m.locks lock _ lock).status = .free
      rw [Function.update_self]
      exact free

end Waits

/-- Nobody waits for a free lock, nobody else gets the lock before a thread that calls `cv_wait`
waits, and signals wake up threads in the order in which they have come to wait. -/
structure State.NoLostWakeup (s : State) : Prop where
  free : Vacant s
  waits : ∀ cv lock s', Holds lock s.running s.log → Step s (.invoke (.cvWait cv lock)) s' →
    Waits cv lock s s'
  signal : ∀ cv lock s', Holds lock s.running s.log → Step s (.invoke (.cvSignal cv lock)) s' →
    ∀ t rest, s.waiting (.ofCv cv) = t :: rest →
      s'.waiting (.ofCv cv) = rest ∧ s'.ready = s.ready ++ [t]
  broadcast : ∀ cv lock s', Holds lock s.running s.log →
    Step s (.invoke (.cvBroadcast cv lock)) s' →
      s'.waiting (.ofCv cv) = [] ∧ s'.ready = s.ready ++ s.waiting (.ofCv cv)
  order : ∀ a s', Ordinary s a → Step s a s' → ∀ w, Fifo (s.waiting w) (s'.waiting w)

/-- No wake-up is lost in any state of a run. -/
theorem no_lost_wakeup (run : Reachable Ordinary s) : s.NoLostWakeup := by
  obtain ⟨ok, lockOk⟩ := run.lockOk_ordinary
  have holder : ∀ lock, Holds lock s.running s.log → isHolder s lock s.running = true := by
    intro lock holds
    unfold isHolder
    rw [lockOk.guarded.held lock s.running holds]
    exact decide_eq_true ⟨rfl, rfl⟩
  refine ⟨run.vacant, fun cv lock s' => cvWait_waits run,
    fun cv lock s' holds call t rest waits => ?_,
    fun cv lock s' holds call => ?_, fun a s' may step => (step.orderly run.vacant ok may).fifo⟩
  · cases call with
    | invoke _ _ runs =>
        rw [enter, cvSignal_eq ok.head, if_pos (holder lock holds)] at runs
        obtain ⟨m, wakes, woken, _⟩ := threadWakeup_one
          (s := (s.called (.cvSignal cv lock)).interruptsSet false)
          [.signalled cv lock s.enabled] waits (show (0 : Int) ≠ 1 by decide)
        obtain rfl := Except.ok.inj (wakes.symm.trans runs)
        exact ⟨woken.waiting, woken.ready⟩
  · cases call with
    | invoke _ _ runs =>
        rw [enter, cvBroadcast_eq ok.head, if_pos (holder lock holds)] at runs
        obtain ⟨m, wakes, woken, _⟩ := threadWakeup_all (.ofCv cv)
          [.broadcasted cv lock s.enabled] ((s.called (.cvBroadcast cv lock)).interruptsSet false)
        obtain rfl := Except.ok.inj (wakes.symm.trans runs)
        exact ⟨woken.waiting, woken.ready⟩

instance (s : State) : ∀ a, Decidable (Ordinary s a)
  | .invoke (.threadSleep (some (.ofLock _))) | .invoke (.threadSleep (some (.ofCv _)))
  | .invoke (.threadWakeup (some (.ofLock _)) _) | .invoke (.threadWakeup (some (.ofCv _)) _) =>
      isFalse id
  | .invoke (.lockRelease lock) => inferInstanceAs (Decidable (Holds lock s.running s.log))
  | .invoke (.threadExit tid) => inferInstanceAs (Decidable ((Call.threadExit tid).Permitted s))
  | .invoke (.threadCreate _) | .invoke (.threadYield _) | .invoke (.threadSleep none)
  | .invoke (.threadSleep (some (.other _))) | .invoke (.threadWakeup none _)
  | .invoke (.threadWakeup (some (.other _)) _) | .invoke (.lockAcquire _) | .invoke (.cvWait _ _)
  | .invoke (.cvSignal _ _) | .invoke (.cvBroadcast _ _) | .interruptsSet _ | .timer
  | .goOn => isTrue trivial

/-- A run in which one thread waits for a condition and another one has the lock. -/
theorem no_lost_wakeup_wait : ∃ s, (Reachable Ordinary s ∧ Holds 0 s.running s.log ∧
    s.waiting (.ofCv 0) = [0]) ∧ s.NoLostWakeup := by
  obtain ⟨s, run, waits⟩ : ∃ s, Reachable Ordinary s ∧
      (Holds 0 s.running s.log ∧ s.waiting (.ofCv 0) = [0]) :=
    exists_reachable Ordinary 0 true [.invoke (.threadCreate 1), .invoke (.lockAcquire 0),
      .invoke (.cvWait 0 0), .goOn, .goOn, .goOn, .invoke (.lockAcquire 0)] (by decide +kernel)
  exact ⟨s, ⟨run, waits⟩, no_lost_wakeup run⟩

end Ece344Lab.Threads
