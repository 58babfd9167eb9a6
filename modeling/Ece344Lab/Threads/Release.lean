import Ece344Lab.Threads.Mutex
import Ece344Lab.Threads.WaitQueues

set_option autoImplicit false

/- The calls that only the holder of a lock should go through with, made by other threads. -/
namespace Ece344Lab.Threads

open Outcome State

variable {s s' s₁ s₂ : State} {c : Call} {lock : Nat} {f : Frame}

/-- The calls that release a lock or are about a condition that it protects. -/
def Call.Uses (lock : Nat) : Call → Prop
  | .lockRelease l | .cvWait _ l | .cvSignal _ l | .cvBroadcast _ l => l = lock
  | _ => False

/-- The call is made and has returned, with nothing else in between. -/
def Completes (s : State) (c : Call) (s' : State) : Prop :=
  ∃ s₁, Step s (.invoke c) s₁ ∧ Relation.ReflTransGen (fun a b => Step a .goOn b) s₁ s' ∧
    s'.frames = []

/-- A lock and all queues are as they have been. -/
structure Untouched (lock : Nat) (s s' : State) : Prop where
  fields : s'.locks lock = s.locks lock
  queued : s'.queued = s.queued

/-- The call is not a release, or the lock belongs to nobody and nobody waits for it. -/
def Harmless (s : State) (lock : Nat) (c : Call) : Prop :=
  c ≠ .lockRelease lock ∨ s.locks lock = ⟨none, .free⟩ ∧ s.waiting (.ofLock lock) = []

theorem goesOn_of_user (user : s.frames = [])
    (run : Relation.ReflTransGen (fun a b => Step a .goOn b) s s') : s' = s := by
  cases run using Relation.ReflTransGen.head_induction_on with
  | refl => rfl
  | head step _ =>
      cases step with
      | goOn suspended _ =>
          rw [user] at suspended
          cases suspended

theorem completes_iff (user : s.frames = []) (fresh : ∀ t, c ≠ .threadCreate t)
    (enters : enter c [] s = .ok s₁) (done : s₁.frames = []) : Completes s c s' ↔ s' = s₁ := by
  constructor
  · rintro ⟨m, step, run, _⟩
    cases step with
    | invoke _ _ runs =>
        obtain rfl := Except.ok.inj (enters.symm.trans runs)
        exact goesOn_of_user done run
  · rintro rfl
    exact ⟨s', .invoke user (fun t same => absurd same (fresh t)) enters, .refl, done⟩

theorem completes_iff_goOn (user : s.frames = []) (fresh : ∀ t, c ≠ .threadCreate t)
    (enters : enter c [] s = .ok s₁) (frames : s₁.frames = [f]) (resumes : resume f [] s₁ = .ok s₂)
    (done : s₂.frames = []) : Completes s c s' ↔ s' = s₂ := by
  constructor
  · rintro ⟨m, step, run, user'⟩
    cases step with
    | invoke _ _ runs =>
        obtain rfl := Except.ok.inj (enters.symm.trans runs)
        cases run using Relation.ReflTransGen.head_induction_on with
        | refl =>
            rw [frames] at user'
            cases user'
        | head step run =>
            cases step with
            | goOn suspended runs' =>
                rw [frames] at suspended
                cases suspended
                obtain rfl := Except.ok.inj (resumes.symm.trans runs')
                exact goesOn_of_user done run
  · rintro rfl
    exact ⟨s₁, .invoke user (fun t same => absurd same (fresh t)) enters,
      .single (.goOn frames resumes), done⟩

section Strangers

variable {cv : Nat}

/-- A call of a condition variable by a thread that is not the holder returns at once. -/
theorem enter_stranger (head : s.ready.head? = some s.running)
    (stranger : isHolder s lock s.running = false) (uses : c.Uses lock)
    (other : c ≠ .lockRelease lock) :
    Returns (enter c [] s) fun s' => Untouched lock s s' ∧ s'.frames = [] := by
  have fails : ¬ isHolder s lock s.running = true := by
    rw [stranger]
    nofun
  cases c with
  | lockRelease l => exact absurd (congrArg Call.lockRelease uses) other
  | cvWait cv l | cvSignal cv l | cvBroadcast cv l =>
      obtain rfl : l = lock := uses
      simp only [enter, cvWait_eq head, cvSignal_eq head, cvBroadcast_eq head]
      rw [if_neg fails]
      exact ⟨_, rfl, ⟨rfl, rfl⟩, rfl⟩
  | _ => exact uses.elim

/-- `lock_release` frees the lock and wakes up all threads that wait for it, whoever calls it. -/
theorem lockRelease_completes (user : s.frames = []) (lock : Nat) :
    ∃ s₁, (∀ s', Completes s (.lockRelease lock) s' ↔ s' = s₁) ∧
      s₁.locks lock = ⟨none, .free⟩ ∧ s₁.ready = s.ready ++ s.waiting (.ofLock lock) ∧
      s₁.waiting (.ofLock lock) = [] ∧ ∀ v, v ≠ .ofLock lock → s₁.waiting v = s.waiting v := by
  obtain ⟨m, wakes, woken, frames, _⟩ := threadWakeup_all (.ofLock lock) [.release lock s.enabled]
    (((s.called (.lockRelease lock)).interruptsSet false).setLock lock
      { s.locks lock with status := .free })
  have enters : enter (.lockRelease lock) [] s = .ok m := wakes
  refine ⟨_, fun s' => completes_iff_goOn user nofun enters frames rfl rfl, ?_, woken.ready,
    woken.waiting, woken.others⟩
  have fields : m.locks lock = { s.locks lock with status := .free } := by
    rw [woken.locks]
    exact Function.update_self _ _ _
  exact (Function.update_self _ _ _).trans (by rw [fields])

theorem untouched_iff (lock : Nat) (fields : s'.locks lock = ⟨none, .free⟩)
    (ready : s'.ready = s.ready ++ s.waiting (.ofLock lock))
    (waiting : s'.waiting (.ofLock lock) = [])
    (others : ∀ v, v ≠ .ofLock lock → s'.waiting v = s.waiting v) :
    Untouched lock s s' ↔ s.locks lock = ⟨none, .free⟩ ∧ s.waiting (.ofLock lock) = [] := by
  constructor
  · intro same
    have queue := congrFun same.queued (some (.ofLock lock))
    exact ⟨same.fields.symm.trans fields, queue.symm.trans waiting⟩
  · rintro ⟨free, none'⟩
    refine ⟨fields.trans free.symm, funext fun p => ?_⟩
    cases p with
    | none =>
        change s'.ready = s.ready
        rw [ready, none', List.append_nil]
    | some v =>
        by_cases same : v = .ofLock lock
        · subst same
          exact waiting.trans none'.symm
        · exact others v same

end Strangers

/-- A lock is released only by its holder, or when it belongs to nobody. -/
def Checked (s : State) : Action → Prop
  | .invoke (.lockRelease lock) =>
      isHolder s lock s.running = true ∨ Harmless s lock (.lockRelease lock)
  | a => Permitted s a

theorem Checked.permitted {a : Action} (may : Checked s a) : Permitted s a := by
  cases a with
  | invoke c =>
      cases c with
      | lockRelease lock => trivial
      | _ => exact may
  | _ => trivial

theorem Reachable.exclusive (run : Reachable Checked s) : s.Exclusive := by
  refine (run.lockOk_of (fun s a may => may.permitted) fun s lock lockOk may u holds =>
    ?_).2.exclusive
  have fields := lockOk.guarded.held lock u holds
  cases may with
  | inl holder =>
      have mine := of_decide_eq_true holder
      rw [fields] at mine
      exact Option.some.inj mine.1
  | inr harmless =>
      have free := (harmless.resolve_left fun other => other rfl).1
      rw [fields] at free
      cases free

/-- A call by a thread that is not the holder of the lock changes nothing exactly when it is
harmless, and where all releases by such threads are harmless locks exclude each other. -/
theorem ownership_checked (run : Reachable Permitted s) (user : s.frames = [])
    (stranger : isHolder s lock s.running = false) (uses : c.Uses lock) :
    ((∃ s', Completes s c s') ∧
      ∀ s', Completes s c s' → (Untouched lock s s' ↔ Harmless s lock c)) ∧
    ∀ s, Reachable Checked s → s.Exclusive := by
  have head := run.ok.head
  refine ⟨?_, fun s run => run.exclusive⟩
  by_cases release : c = .lockRelease lock
  · subst release
    obtain ⟨s₁, completes, fields, ready, waiting, others⟩ := lockRelease_completes user lock
    refine ⟨⟨s₁, (completes s₁).mpr rfl⟩, fun s' done => ?_⟩
    obtain rfl := (completes s').mp done
    rw [untouched_iff lock fields ready waiting others]
    exact ⟨Or.inr, fun harmless => harmless.resolve_left fun other => other rfl⟩
  · obtain ⟨s₁, enters, untouched, done⟩ := enter_stranger head stranger uses release
    have fresh : ∀ t, c ≠ .threadCreate t := by
      rintro t rfl
      exact uses
    refine ⟨⟨s₁, (completes_iff user fresh enters done).mpr rfl⟩, fun s' completes => ?_⟩
    obtain rfl := (completes_iff user fresh enters done).mp completes
    exact ⟨fun _ => Or.inl release, fun _ => untouched⟩

instance (s : State) : ∀ a, Decidable (Checked s a)
  | .invoke (.lockRelease lock) =>
      inferInstanceAs (Decidable (isHolder s lock s.running = true ∨
        (Call.lockRelease lock ≠ .lockRelease lock ∨
          s.locks lock = ⟨none, .free⟩ ∧ s.waiting (.ofLock lock) = [])))
  | .invoke (.threadExit tid) => inferInstanceAs (Decidable ((Call.threadExit tid).Permitted s))
  | .invoke (.threadCreate _) | .invoke (.threadYield _) | .invoke (.threadSleep _)
  | .invoke (.threadWakeup _ _) | .invoke (.lockAcquire _) | .invoke (.cvWait _ _)
  | .invoke (.cvSignal _ _) | .invoke (.cvBroadcast _ _) | .interruptsSet _ | .timer
  | .goOn => isTrue trivial

/-- A second thread releases the lock of the first one, and then both have it. -/
theorem ownership_unchecked :
    (∃ s, Reachable Permitted s ∧ s.running = 1 ∧ isHolder s 0 1 = false ∧
      s.locks 0 = ⟨some 0, .locked⟩ ∧ ∃ s', Completes s (.lockRelease 0) s' ∧ ¬ Untouched 0 s s') ∧
    ∃ s, Reachable Permitted s ∧ Holds 0 0 s.log ∧ Holds 0 1 s.log := by
  refine ⟨?_, exists_reachable Permitted 0 true [.invoke (.threadCreate 1),
    .invoke (.lockAcquire 0), .timer, .goOn, .invoke (.lockRelease 0), .goOn,
    .invoke (.lockAcquire 0)] (by decide +kernel)⟩
  obtain ⟨s, run, user, running, stranger, locked⟩ : ∃ s, Reachable Permitted s ∧ s.frames = [] ∧
      s.running = 1 ∧ isHolder s 0 1 = false ∧ s.locks 0 = ⟨some 0, .locked⟩ :=
    exists_reachable Permitted 0 true [.invoke (.threadCreate 1), .invoke (.lockAcquire 0), .timer,
      .goOn] (by decide +kernel)
  obtain ⟨s', completes, fields, _⟩ := lockRelease_completes user 0
  refine ⟨s, run, running, stranger, locked, s', (completes s').mpr rfl, fun same => ?_⟩
  have kept := same.fields
  rw [fields, locked] at kept
  cases kept

/-- The second thread tries to signal while the first one has the lock. -/
theorem ownership_checked_signal : ∃ s, (Reachable Permitted s ∧ s.frames = [] ∧
    isHolder s 0 s.running = false ∧ s.locks 0 = ⟨some 0, .locked⟩) ∧
    ((∃ s', Completes s (.cvSignal 0 0) s') ∧ ∀ s', Completes s (.cvSignal 0 0) s' →
      (Untouched 0 s s' ↔ Harmless s 0 (.cvSignal 0 0))) ∧
    ∀ s, Reachable Checked s → s.Exclusive := by
  obtain ⟨s, run, user, stranger, locked⟩ : ∃ s, Reachable Permitted s ∧ s.frames = [] ∧
      isHolder s 0 s.running = false ∧ s.locks 0 = ⟨some 0, .locked⟩ :=
    exists_reachable Permitted 0 true [.invoke (.threadCreate 1), .invoke (.lockAcquire 0), .timer,
      .goOn] (by decide +kernel)
  exact ⟨s, ⟨run, user, stranger, locked⟩,
    ownership_checked (c := .cvSignal 0 0) run user stranger rfl⟩

/-- Two threads take turns with a lock. -/
example : ∃ s, Reachable Checked s ∧ Holds 0 1 s.log :=
  exists_reachable Checked 0 true [.invoke (.threadCreate 1), .invoke (.lockAcquire 0),
    .timer, .goOn,
    .invoke (.threadYield threadAny), .goOn, .goOn, .invoke (.lockRelease 0), .goOn, .timer, .goOn,
    .invoke (.lockAcquire 0)] (by decide +kernel)

end Ece344Lab.Threads
