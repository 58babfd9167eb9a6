import Ece344Lab.Threads.Interrupts

set_option autoImplicit false

/- Who has a lock, from what has happened, and that the fields of the lock say the same. -/
namespace Ece344Lab.Threads

open Outcome State

/-- A thread comes back from `lock_acquire`. -/
def Event.takes (lock t : Nat) : Event → Bool
  | .ret u (.lockAcquire l) _ _ => decide (u = t ∧ l = lock)
  | _ => false

/-- A thread calls `lock_release` or `cv_wait`, or exits. -/
def Event.gives (lock t : Nat) : Event → Bool
  | .call u (.lockRelease l) _ | .call u (.cvWait _ l) _ => decide (u = t ∧ l = lock)
  | .exited u => decide (u = t)
  | _ => false

/-- The thread is between its return from `lock_acquire` and its next `lock_release` or `cv_wait` on
that lock. -/
def Holds (lock t : Nat) : List Event → Prop
  | [] => False
  | e :: log => e.takes lock t = true ∨ e.gives lock t = false ∧ Holds lock t log

instance (lock t : Nat) : ∀ log, Decidable (Holds lock t log)
  | [] => isFalse id
  | e :: log =>
      have := instDecidableHolds lock t log
      inferInstanceAs
        (Decidable (e.takes lock t = true ∨ e.gives lock t = false ∧ Holds lock t log))

/-- `cv_wait` returns to a thread that has made the call as the holder of the lock only when the
thread is the holder again. -/
def Waited (t cv lock : Nat) (ie : Bool) (log : List Event) : Prop :=
  ∃ during before, log = during ++ .call t (.cvWait cv lock) ie :: before ∧ .created t ∉ during ∧
    pending t during = some [] ∧ (Holds lock t before → Holds lock t log)

/-- Every return from `cv_wait` is such a return. -/
def Regained : List Event → Prop
  | [] => True
  | e :: log =>
      (∀ t cv lock value ie, e = .ret t (.cvWait cv lock) value ie → Waited t cv lock ie log) ∧
        Regained log

/-- Right inside the last part of `cv_wait` there is only the loop of `lock_acquire`. -/
def Stacked : List Frame → Prop
  | [] => True
  | f :: k =>
      (∀ cv lock ie, k.head? = some (.waitAcquired cv lock ie) → ∃ ie', f = .acquire lock ie') ∧
        Stacked k

/-- Where a thread goes on that does not run. -/
structure Parked (frames : List Frame) : Prop where
  stacked : Stacked frames
  head : ∀ f, frames.head? = some f → f = .stub ∨ f.switches = true

/-- The locks belong to the threads that hold them, where the running thread goes on at the frames
`k`. -/
structure State.Guarded (s : State) (k : List Frame) : Prop where
  held : ∀ lock t, Holds lock t s.log → s.locks lock = ⟨some t, .locked⟩
  regained : Regained s.log
  released : ∀ lock ie, k.head? = some (.release lock ie) → (s.locks lock).status = .free
  stacked : Stacked k
  parked : ∀ t, Parked (s.context t).frames

/-- The invariant of the locks. -/
structure State.LockOk (s : State) : Prop where
  guarded : s.Guarded s.frames
  acquired : ∀ cv lock ie, s.frames.head? = some (.waitAcquired cv lock ie) →
    Holds lock s.running s.log

/-- The frames do not begin with the last part of `cv_wait`. -/
def Unclaimed (k : List Frame) : Prop := ∀ cv lock ie, k.head? ≠ some (.waitAcquired cv lock ie)

variable {s s' m : State} {k : List Frame} {t u lock lock' cv : Nat} {c : Call} {ie : Bool}
  {log events : List Event} {e : Event} {f : Frame}

section Holders

theorem Holds.of_cons (takes : e.takes lock t = false) (holds : Holds lock t (e :: log)) :
    Holds lock t log := by
  cases holds with
  | inl took => exact absurd (takes.symm.trans took) nofun
  | inr kept => exact kept.2

theorem takes_of_plain {r : Nat} (plain : e.Plain r) (lock t : Nat) : e.takes lock t = false := by
  cases e with
  | ret u c value ie => cases c <;> first | rfl | exact plain.2.elim
  | _ => rfl

/-- Nobody takes a lock in the course of plain events. -/
theorem Holds.of_plain {r : Nat} (plain : ∀ e ∈ events, e.Plain r)
    (holds : Holds lock t (events ++ log)) : Holds lock t log := by
  induction events with
  | nil => exact holds
  | cons e events ih =>
      exact ih (fun e' member => plain e' (List.mem_cons_of_mem _ member))
        (Holds.of_cons (takes_of_plain (plain e List.mem_cons_self) lock t) holds)

theorem Regained.of_plain {r : Nat} (plain : ∀ e ∈ events, e.Plain r) (regained : Regained log) :
    Regained (events ++ log) := by
  induction events with
  | nil => exact regained
  | cons e events ih =>
      refine ⟨fun t cv lock value ie same => ?_,
        ih fun e' member => plain e' (List.mem_cons_of_mem _ member)⟩
      subst same
      exact (plain _ List.mem_cons_self).2.elim

theorem Regained.cons (other : ∀ t cv lock value ie, e ≠ .ret t (.cvWait cv lock) value ie)
    (regained : Regained log) : Regained (e :: log) :=
  ⟨fun t cv lock value ie same => absurd same (other t cv lock value ie), regained⟩

end Holders

section Frames

theorem Stacked.unclaimed (stacked : Stacked (f :: k)) (other : ∀ lock ie, f ≠ .acquire lock ie) :
    Unclaimed k := by
  intro cv lock ie head
  obtain ⟨ie', same⟩ := stacked.1 cv lock ie head
  exact other lock ie' same

theorem Unclaimed.stacked (unclaimed : Unclaimed k) (stacked : Stacked k) (f : Frame) :
    Stacked (f :: k) :=
  ⟨fun cv lock ie head => absurd head (unclaimed cv lock ie), stacked⟩

theorem Parked.saved {old new : Context} (saved : Saved k old new) (unclaimed : Unclaimed k)
    (stacked : Stacked k) (parked : Parked old.frames) : Parked new.frames := by
  rcases saved with rfl | stub | ⟨f, switches, frames⟩
  · exact parked
  · rw [stub]
    exact ⟨⟨nofun, trivial⟩, fun f head => Or.inl (Option.some.inj head).symm⟩
  · rw [frames]
    exact ⟨unclaimed.stacked stacked f, fun g head => Or.inr (Option.some.inj head ▸ switches)⟩

theorem Parked.not_release (parked : Parked k) (lock : Nat) (ie : Bool) :
    k.head? ≠ some (.release lock ie) := by
  intro head
  cases parked.head _ head with
  | inl stub => cases stub
  | inr switches => cases switches

theorem Parked.unclaimed (parked : Parked k) : Unclaimed k := by
  intro cv lock ie head
  cases parked.head _ head with
  | inl stub => cases stub
  | inr switches => cases switches

theorem Bare.not_release (bare : Bare k) (lock : Nat) (ie : Bool) :
    k.head? ≠ some (.release lock ie) := by
  intro head
  have plain := bare _ (List.mem_of_mem_head? head)
  cases plain

end Frames

section Steps

abbrev Guards (x : Except Fault State) : Prop := Sat x State.LockOk fun _ => True

/-- Where the frames are not the last part of `cv_wait`, nothing is to be known about them. -/
theorem State.Guarded.lockOk (guarded : s.Guarded s.frames) (unclaimed : Unclaimed s.frames) :
    s.LockOk :=
  ⟨guarded, fun cv lock ie head => absurd head (unclaimed cv lock ie)⟩

/-- A scheduling call keeps the locks as they are. -/
theorem Effect.guards (guarded : s.Guarded k) (unclaimed : Unclaimed k)
    (effect : Effect k s s' events) : s'.LockOk := by
  have parked : ∀ t, Parked (s'.context t).frames := fun t =>
    .saved (effect.saved t) unclaimed guarded.stacked (guarded.parked t)
  have held : ∀ lock t, Holds lock t s'.log → s'.locks lock = ⟨some t, .locked⟩ := by
    intro lock t holds
    rw [effect.log] at holds
    rw [effect.locks]
    exact guarded.held lock t (.of_plain effect.plain holds)
  have regained : Regained s'.log := effect.log ▸ .of_plain effect.plain guarded.regained
  cases effect.lands with
  | inl stays =>
      apply State.Guarded.lockOk
      · rw [stays.2]
        refine ⟨held, regained, fun lock ie head => ?_, guarded.stacked, parked⟩
        rw [effect.locks]
        exact guarded.released lock ie head
      · exact stays.2 ▸ unclaimed
  | inr switched =>
      have there := parked s'.running
      rw [← switched] at there
      exact State.Guarded.lockOk ⟨held, regained,
        fun lock ie head => absurd head (there.not_release lock ie), there.stacked, parked⟩
        there.unclaimed

theorem Affects.guards {x : Except Fault State} (guarded : s.Guarded k) (unclaimed : Unclaimed k)
    (affects : Affects k s x) : Guards x :=
  affects.mono (fun _ ⟨_, effect⟩ => effect.guards guarded unclaimed) fun _ _ => trivial

namespace State.Guarded

theorem called (guarded : s.Guarded k) (c : Call) : ((s.called c).interruptsSet false).Guarded k :=
  ⟨fun lock t holds => guarded.held lock t (.of_cons rfl holds), guarded.regained.cons nofun,
    guarded.released, guarded.stacked, guarded.parked⟩

theorem inner (guarded : s.Guarded k) (unclaimed : Unclaimed k) (f : Frame)
    (plain : f.releases = false) : s.Guarded (f :: k) := by
  refine ⟨guarded.held, guarded.regained, fun lock ie head => ?_,
    unclaimed.stacked guarded.stacked f, guarded.parked⟩
  obtain rfl := Option.some.inj head
  cases plain

theorem returned (guarded : s.Guarded k) (unclaimed : Unclaimed k)
    (other : ∀ lock, c ≠ .lockAcquire lock)
    (waited : ∀ cv lock, c = .cvWait cv lock → Waited s.running cv lock ie s.log)
    (value : Option Int) : ((s.interruptsSet ie).returned c value k).LockOk := by
  have takes : ∀ lock t, (Event.ret s.running c value ie).takes lock t = false := by
    intro lock t
    cases c <;> first | rfl | exact absurd rfl (other _)
  refine State.Guarded.lockOk ⟨fun lock t holds => ?_, ⟨fun t cv lock value ie same => ?_,
    guarded.regained⟩, guarded.released, guarded.stacked, guarded.parked⟩ unclaimed
  · exact guarded.held lock t (.of_cons (takes lock t) holds)
  · cases same
    exact waited cv lock rfl

end State.Guarded

theorem acquireLoop_guards (guarded : s.Guarded k) (head : s.ready.head? = some s.running)
    (bare : Bare k) (stacked : Stacked (.acquire lock ie :: k)) :
    Guards (acquireLoop lock ie k s) := by
  unfold acquireLoop
  refine Sat.ite (fun _ => ?_) fun free => ?_
  · have inside : s.Guarded (.acquire lock ie :: k) :=
      ⟨guarded.held, guarded.regained, nofun, stacked, guarded.parked⟩
    exact (threadSleep_effect head _).guards inside nofun
  · rw [top_of_head head, ok_bind]
    have free : (s.locks lock).status = .free := by simpa using free
    -- nobody has had the lock until now
    have held : ∀ lock' t, Holds lock' t (.ret s.running (.lockAcquire lock) none ie :: s.log) →
        (s.setLock lock ⟨some s.running, .locked⟩).locks lock' = ⟨some t, .locked⟩ := by
      intro lock' t holds
      cases holds with
      | inl took =>
          obtain ⟨rfl, rfl⟩ := of_decide_eq_true took
          exact Function.update_self _ _ _
      | inr kept =>
          have before := guarded.held lock' t kept.2
          have other : lock' ≠ lock := by
            rintro rfl
            rw [before] at free
            cases free
          exact (Function.update_of_ne other _ _).trans before
    refine ⟨⟨held, guarded.regained.cons nofun, fun lock' ie' head' => ?_, guarded.stacked,
      guarded.parked⟩, fun cv lock' ie' head' => ?_⟩
    · exact absurd head' (bare.not_release lock' ie')
    · obtain ⟨_, same⟩ := stacked.1 cv lock' ie' head'
      cases same
      exact Or.inl (decide_eq_true ⟨rfl, rfl⟩)

theorem lockAcquire_guards (guarded : s.Guarded k) (head : s.ready.head? = some s.running)
    (bare : Bare k) (stacked : ∀ ie, Stacked (.acquire lock ie :: k)) :
    Guards (lockAcquire lock k s) :=
  acquireLoop_guards (guarded.called (.lockAcquire lock)) head bare (stacked _)

/-- A lock is released that nobody else has. -/
theorem lockRelease_guards (guarded : s.Guarded k) (unclaimed : Unclaimed k)
    (careful : ∀ u, Holds lock u s.log → u = s.running) : Guards (lockRelease lock k s) := by
  have held : ∀ lock' t, Holds lock' t (.call s.running (.lockRelease lock) s.enabled :: s.log) →
      Function.update s.locks lock { s.locks lock with status := .free } lock' =
        ⟨some t, .locked⟩ := by
    intro lock' t holds
    obtain took | ⟨kept, before⟩ := holds
    · cases took
    · have other : lock' ≠ lock := by
        rintro rfl
        have gone := of_decide_eq_false kept
        exact gone ⟨(careful t before).symm, rfl⟩
      exact (Function.update_of_ne other _ _).trans (guarded.held lock' t before)
  have inside : (((s.called (.lockRelease lock)).interruptsSet false).setLock lock
      { s.locks lock with status := .free }).Guarded (.release lock s.enabled :: k) := by
    refine ⟨held, guarded.regained.cons nofun, fun lock' ie' head' => ?_,
      unclaimed.stacked guarded.stacked _, guarded.parked⟩
    cases head'
    simp [setLock]
  unfold lockRelease
  exact (threadWakeup_effect _ _).guards inside nofun

theorem cvWait_guards (guarded : s.Guarded k) (head : s.ready.head? = some s.running)
    (unclaimed : Unclaimed k) : Guards (cvWait cv lock k s) := by
  have called := guarded.called (.cvWait cv lock)
  rw [cvWait_eq head]
  refine Sat.ite (fun holder => ?_) fun stranger => ?_
  · have fields := of_decide_eq_true holder
    refine lockRelease_guards (called.inner unclaimed (.waitReleased cv lock s.enabled) rfl)
      (by nofun) fun u holds => ?_
    have same := congrArg Lock.lockedThread (called.held lock u holds)
    exact Option.some.inj (same.symm.trans fields.1)
  · refine called.returned unclaimed (by nofun) (fun cv' lock' same => ?_) none
    cases same
    refine ⟨[], s.log, rfl, by simp, rfl, fun holds => absurd ?_ stranger⟩
    have fields := guarded.held lock s.running holds
    exact decide_eq_true ⟨congrArg Lock.lockedThread fields, congrArg Lock.status fields⟩

theorem cvSignal_guards (guarded : s.Guarded k) (head : s.ready.head? = some s.running)
    (unclaimed : Unclaimed k) : Guards (cvSignal cv lock k s) := by
  have called := guarded.called (.cvSignal cv lock)
  rw [cvSignal_eq head]
  refine Sat.ite (fun _ => ?_) fun _ => called.returned unclaimed (by nofun) (by nofun) none
  exact (threadWakeup_effect _ _).guards
    (called.inner unclaimed (.signalled cv lock s.enabled) rfl) (by nofun)

theorem cvBroadcast_guards (guarded : s.Guarded k) (head : s.ready.head? = some s.running)
    (unclaimed : Unclaimed k) : Guards (cvBroadcast cv lock k s) := by
  have called := guarded.called (.cvBroadcast cv lock)
  rw [cvBroadcast_eq head]
  refine Sat.ite (fun _ => ?_) fun _ => called.returned unclaimed (by nofun) (by nofun) none
  exact (threadWakeup_effect _ _).guards
    (called.inner unclaimed (.broadcasted cv lock s.enabled) rfl) (by nofun)

theorem enter_guards (guarded : s.Guarded []) (head : s.ready.head? = some s.running)
    (may : c.Permitted s)
    (careful : ∀ lock, c = .lockRelease lock → ∀ u, Holds lock u s.log → u = s.running) :
    Guards (enter c [] s) := by
  cases c with
  | threadCreate t => exact (threadCreate_effect t).guards guarded nofun
  | threadYield wantTid => exact (threadYield_effect head wantTid).guards guarded nofun
  | threadExit tid => exact (threadExit_effect head may.several).guards guarded nofun
  | threadSleep queue => exact (threadSleep_effect head queue).guards guarded nofun
  | threadWakeup queue all => exact (threadWakeup_effect queue all).guards guarded nofun
  | lockAcquire lock => exact lockAcquire_guards guarded head nofun fun _ => ⟨nofun, trivial⟩
  | lockRelease lock => exact lockRelease_guards guarded nofun (careful lock rfl)
  | cvWait cv lock => exact cvWait_guards guarded head nofun
  | cvSignal cv lock => exact cvSignal_guards guarded head nofun
  | cvBroadcast cv lock => exact cvBroadcast_guards guarded head nofun

theorem resume_guards (ok : s.Ok) (lockOk : s.LockOk) (suspended : s.frames = f :: k) :
    Guards (resume f k s) := by
  have nested := ok.nested
  have guarded := lockOk.guarded
  have acquired := lockOk.acquired
  have pends := ok.pending
  rw [suspended] at nested guarded acquired pends
  have bare := nested.2.2.2.1
  have tail : s.Guarded k := ⟨guarded.held, guarded.regained,
    fun lock ie head => absurd head (bare.not_release lock ie), guarded.stacked.2, guarded.parked⟩
  have unclaimed : (∀ lock ie, f ≠ .acquire lock ie) → Unclaimed k := guarded.stacked.unclaimed
  have between := Between.start k s
  cases f with
  | yieldAny ie => exact (yieldAnyGot_effect between).guards tail (unclaimed nofun)
  | yieldTo wantTid ie => exact (yieldToGot_effect between).guards tail (unclaimed nofun)
  | sleep queue controlId ie => exact (sleepGot_effect between).guards tail (unclaimed nofun)
  | acquire lock ie => exact acquireLoop_guards tail ok.head bare guarded.stacked
  | release lock ie =>
      have free := guarded.released lock ie rfl
      have cleared : (s.setLock lock { s.locks lock with lockedThread := none }).Guarded k := by
        refine ⟨fun lock' t holds => ?_, tail.regained, fun lock' ie' head => ?_, tail.stacked,
          tail.parked⟩
        · have before := tail.held lock' t holds
          have other : lock' ≠ lock := by
            rintro rfl
            rw [before] at free
            cases free
          exact (Function.update_of_ne other _ _).trans before
        · exact absurd head (bare.not_release lock' ie')
      exact cleared.returned (unclaimed nofun) (by nofun) (by nofun) none
  | waitReleased cv lock ie =>
      have inside := tail.inner (unclaimed nofun) (.waitSlept cv lock ie) rfl
      unfold resume
      exact (threadSleep_effect ok.head _).guards inside (by nofun)
  | waitSlept cv lock ie =>
      have inside := tail.inner (unclaimed nofun) (.waitAcquired cv lock ie) rfl
      refine lockAcquire_guards inside ok.head (bare.cons rfl) fun ie' => ⟨?_, inside.stacked⟩
      intro cv' lock' _ head
      cases head
      exact ⟨ie', rfl⟩
  | waitAcquired cv lock ie =>
      refine tail.returned (unclaimed nofun) (by nofun) (fun cv' lock' same => ?_) none
      cases same
      obtain ⟨during, before, split, old, complete, _⟩ := exists_call pends
      exact ⟨during, before, split, old, complete, fun _ => acquired cv lock ie rfl⟩
  | signalled cv lock ie => exact tail.returned (unclaimed nofun) (by nofun) (by nofun) none
  | broadcasted cv lock ie => exact tail.returned (unclaimed nofun) (by nofun) (by nofun) none
  | exitMain ie => cases nested.1
  | handler e =>
      exact State.Guarded.lockOk (s := { s.interruptsSet e with frames := k })
        ⟨tail.held, tail.regained, tail.released, tail.stacked, tail.parked⟩ (unclaimed nofun)
  | stub =>
      exact State.Guarded.lockOk (s := { s.interruptsSet true with frames := k }.happened
          (.started s.running true))
        ⟨fun lock t holds => tail.held lock t (.of_cons rfl holds), tail.regained.cons (by nofun),
          tail.released, tail.stacked, tail.parked⟩ (unclaimed nofun)

end Steps

section Runs

/-- A step that releases a lock that nobody else has keeps the invariant. -/
theorem Step.guards {a : Action} (ok : s.Ok) (lockOk : s.LockOk) (may : Permitted s a)
    (careful : ∀ lock, a = .invoke (.lockRelease lock) → ∀ u, Holds lock u s.log → u = s.running)
    (step : Step s a s') : s'.LockOk := by
  have guarded := lockOk.guarded
  cases step with
  | invoke user fresh runs =>
      rw [user] at guarded
      exact (enter_guards guarded ok.head may fun lock same => careful lock (same ▸ rfl)).of_ok runs
  | interruptsSet user enabled =>
      exact ⟨⟨guarded.held, guarded.regained, guarded.released, guarded.stacked, guarded.parked⟩,
        lockOk.acquired⟩
  | timer on runs =>
      have user := ok.outer on
      rw [user] at guarded
      have inside : (s.interruptsSet false).Guarded [.handler s.enabled] :=
        ⟨guarded.held, guarded.regained, nofun, ⟨nofun, trivial⟩, guarded.parked⟩
      rw [user] at runs
      exact ((threadYield_effect (s := s.interruptsSet false) ok.head threadAny).guards inside
        nofun).of_ok runs
  | goOn suspended runs => exact (resume_guards ok lockOk suspended).of_ok runs

theorem threadInit_lockOk {newthread : Nat} {enabled : Bool}
    (runs : threadInit newthread enabled = .ok s) : s.LockOk := by
  obtain ⟨⟨_, log⟩, frames, saved, _, _⟩ := threadInit_begun runs
  refine ⟨⟨fun lock t holds => ?_, ?_, ?_, ?_, fun t => ?_⟩, ?_⟩
  · rw [log] at holds
    cases holds with
    | inl took => cases took
    | inr kept => exact kept.2.elim
  · rw [log]
    exact ⟨nofun, trivial⟩
  · rw [frames]
    exact nofun
  · rw [frames]
    exact trivial
  · rw [saved]
    exact ⟨trivial, nofun⟩
  · rw [frames]
    exact nofun

/-- Only the thread that has acquired a lock releases it. -/
def Disciplined (s : State) : Action → Prop
  | .invoke (.lockRelease lock) => Holds lock s.running s.log
  | a => Permitted s a

theorem Disciplined.permitted {a : Action} (may : Disciplined s a) : Permitted s a := by
  cases a with
  | invoke c =>
      cases c with
      | lockRelease lock => trivial
      | _ => exact may
  | _ => trivial

/-- A run in which nobody releases the lock of somebody else. -/
theorem Reachable.lockOk_of {p : State → Action → Prop} (permitted : ∀ s a, p s a → Permitted s a)
    (careful : ∀ s lock, s.LockOk → p s (.invoke (.lockRelease lock)) →
      ∀ u, Holds lock u s.log → u = s.running) (run : Reachable p s) : s.Ok ∧ s.LockOk := by
  induction run with
  | init runs => exact ⟨threadInit_ok runs, threadInit_lockOk runs⟩
  | @step s s' a _ may step ih =>
      refine ⟨step.keeps ih.1 (permitted s a may), step.guards ih.1 ih.2 (permitted s a may)
        fun lock same => ?_⟩
      subst same
      exact careful s lock ih.2 may

theorem Reachable.lockOk (run : Reachable Disciplined s) : s.Ok ∧ s.LockOk := by
  refine run.lockOk_of (fun s a may => may.permitted) fun s lock lockOk mine u holds => ?_
  have fields := lockOk.guarded.held lock s.running mine
  rw [lockOk.guarded.held lock u holds] at fields
  exact Option.some.inj (congrArg Lock.lockedThread fields)

theorem Regained.waited (regained : Regained log) {later earlier : List Event} {value : Option Int}
    (split : log = later ++ .ret t (.cvWait cv lock) value ie :: earlier) :
    Waited t cv lock ie earlier := by
  induction later generalizing log with
  | nil =>
      subst split
      exact regained.1 t cv lock value ie rfl
  | cons e later ih =>
      subst split
      exact ih regained.2 rfl

/-- A lock has at most one holder at a time, its fields name the holder, and the holder gets it back
before `cv_wait` returns. -/
structure State.Exclusive (s : State) : Prop where
  one : ∀ lock t u, Holds lock t s.log → Holds lock u s.log → t = u
  fields : ∀ lock t, Holds lock t s.log → s.locks lock = ⟨some t, .locked⟩
  waited : ∀ later earlier t cv lock value ie,
    s.log = later ++ .ret t (.cvWait cv lock) value ie :: earlier → Waited t cv lock ie earlier

theorem State.LockOk.exclusive (lockOk : s.LockOk) : s.Exclusive := by
  have held := lockOk.guarded.held
  refine ⟨fun lock t u here there => ?_, held, fun later earlier t cv lock value ie split => ?_⟩
  · have same := (held lock t here).symm.trans (held lock u there)
    exact Option.some.inj (congrArg Lock.lockedThread same)
  · exact lockOk.guarded.regained.waited split

/-- Mutual exclusion, in every state of a run. -/
theorem mutual_exclusion (run : Reachable Disciplined s) : s.Exclusive := run.lockOk.2.exclusive

instance (s : State) : ∀ a, Decidable (Disciplined s a)
  | .invoke (.lockRelease lock) => inferInstanceAs (Decidable (Holds lock s.running s.log))
  | .invoke (.threadExit tid) => inferInstanceAs (Decidable ((Call.threadExit tid).Permitted s))
  | .invoke (.threadCreate _) | .invoke (.threadYield _) | .invoke (.threadSleep _)
  | .invoke (.threadWakeup _ _) | .invoke (.lockAcquire _) | .invoke (.cvWait _ _)
  | .invoke (.cvSignal _ _) | .invoke (.cvBroadcast _ _) | .interruptsSet _ | .timer
  | .goOn => isTrue trivial

/-- A run in which one thread waits for a condition that another one signals, and has the lock
again. -/
theorem mutual_exclusion_wait : ∃ s, Reachable Disciplined s ∧
    (Holds 0 0 s.log ∧ s.waiting (.ofLock 0) = [1]) ∧ s.Exclusive := by
  obtain ⟨s, run, holds⟩ : ∃ s, Reachable Disciplined s ∧
      (Holds 0 0 s.log ∧ s.waiting (.ofLock 0) = [1]) :=
    exists_reachable Disciplined 0 true [.invoke (.threadCreate 1), .invoke (.lockAcquire 0),
      .invoke (.cvWait 0 0), .goOn, .goOn, .goOn, .invoke (.lockAcquire 0),
      .invoke (.cvSignal 0 0), .goOn, .invoke (.lockRelease 0), .goOn, .timer, .goOn, .goOn, .goOn,
      .invoke (.threadYield threadAny), .goOn, .goOn, .invoke (.lockAcquire 0), .goOn]
      (by decide +kernel)
  exact ⟨s, run, holds, mutual_exclusion run⟩

end Runs

end Ece344Lab.Threads
