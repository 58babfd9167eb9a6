import Ece344Lab.Threads.Bystanders

set_option autoImplicit false

/- A thread that ends with a lock leaves the lock locked, and nobody gets it any more. -/
namespace Ece344Lab.Threads

open Outcome State

/-- Nobody has the lock, but it is not free. -/
structure Abandoned (lock : Nat) (s : State) : Prop where
  locked : (s.locks lock).status = .locked
  nobody : ∀ t, ¬ Holds lock t s.log

variable {s s' m : State} {k : List Frame} {lock lock' cv : Nat} {c : Call} {ie : Bool} {f : Frame}
  {events : List Event} {e : Event} {a : Action} {x : Except Fault State}

/-- The computation leaves the lock abandoned. -/
abbrev Abandons (lock : Nat) (x : Except Fault State) : Prop := Sat x (Abandoned lock) fun _ => True

theorem Effect.abandoned (effect : Effect k s s' events) (abandoned : Abandoned lock s) :
    Abandoned lock s' := by
  refine ⟨by rw [effect.locks]; exact abandoned.locked, fun t holds => ?_⟩
  rw [effect.log] at holds
  exact abandoned.nobody t (.of_plain effect.plain holds)

theorem Affects.abandons (affects : Affects k s x) (abandoned : Abandoned lock s) :
    Abandons lock x :=
  affects.weaken fun _ ⟨_, effect⟩ => effect.abandoned abandoned

namespace Abandoned

theorem happened (abandoned : Abandoned lock s) (takes : ∀ t, e.takes lock t = false) :
    Abandoned lock (s.happened e) :=
  ⟨abandoned.locked, fun t holds => abandoned.nobody t (.of_cons (takes t) holds)⟩

theorem called (abandoned : Abandoned lock s) (c : Call) :
    Abandoned lock ((s.called c).interruptsSet false) :=
  ⟨abandoned.locked, fun t holds => abandoned.nobody t (.of_cons rfl holds)⟩

theorem setLock (abandoned : Abandoned lock s) {l : Lock}
    (same : lock' = lock → l.status = (s.locks lock).status) :
    Abandoned lock (s.setLock lock' l) := by
  refine ⟨?_, abandoned.nobody⟩
  by_cases this : lock' = lock
  · subst this
    exact (congrArg Lock.status (Function.update_self _ _ _)).trans
      ((same rfl).trans abandoned.locked)
  · exact (congrArg Lock.status (Function.update_of_ne (Ne.symm this) _ _)).trans abandoned.locked

theorem returned (abandoned : Abandoned lock s) (c : Call) (other : c ≠ .lockAcquire lock) :
    Abandoned lock ((s.interruptsSet ie).returned c none k) := by
  refine ⟨abandoned.locked, fun t holds => abandoned.nobody t (.of_cons ?_ holds)⟩
  cases c with
  | lockAcquire l =>
      have different : l ≠ lock := fun same => other (same ▸ rfl)
      simp [Event.takes, different]
  | _ => rfl

end Abandoned

theorem acquireLoop_abandons (head : s.ready.head? = some s.running)
    (abandoned : Abandoned lock s) :
    Abandons lock (acquireLoop lock' ie k s) := by
  unfold acquireLoop
  refine Sat.ite (fun _ => Affects.abandons (threadSleep_effect head _) abandoned) fun free => ?_
  have other : lock' ≠ lock := by
    rintro rfl
    rw [abandoned.locked] at free
    exact absurd free (by simp)
  rw [top_of_head head, ok_bind]
  exact (abandoned.setLock fun same => absurd same other).returned (.lockAcquire lock')
    fun same => other (Call.lockAcquire.inj same)

theorem lockRelease_abandons (other : lock' ≠ lock) (abandoned : Abandoned lock s) :
    Abandons lock (lockRelease lock' k s) := by
  have freed := (abandoned.called (.lockRelease lock')).setLock
    (l := { s.locks lock' with status := .free }) fun same => absurd same other
  unfold lockRelease
  exact Affects.abandons (threadWakeup_effect _ _) freed

/-- No call gets the lock, as long as those who do not have it do not give it up. -/
theorem enter_abandons (head : s.ready.head? = some s.running) (may : c.Permitted s)
    (keeps : ¬ c.Gives lock) (abandoned : Abandoned lock s) : Abandons lock (enter c [] s) := by
  have called := abandoned.called c
  cases c with
  | threadCreate t => exact Affects.abandons (threadCreate_effect t) abandoned
  | threadYield wantTid => exact Affects.abandons (threadYield_effect head wantTid) abandoned
  | threadExit tid => exact Affects.abandons (threadExit_effect head may.several) abandoned
  | threadSleep queue => exact Affects.abandons (threadSleep_effect head queue) abandoned
  | threadWakeup queue all => exact Affects.abandons (threadWakeup_effect queue all) abandoned
  | lockAcquire l => exact acquireLoop_abandons head called
  | lockRelease l => exact lockRelease_abandons keeps abandoned
  | cvWait cv l =>
      rw [enter, cvWait_eq head]
      exact Sat.ite (fun _ => lockRelease_abandons keeps called) fun _ =>
        called.returned (.cvWait cv l) (by simp)
  | cvSignal cv l =>
      rw [enter, cvSignal_eq head]
      exact Sat.ite (fun _ => Affects.abandons (threadWakeup_effect _ _) called) fun _ =>
        called.returned (.cvSignal cv l) (by simp)
  | cvBroadcast cv l =>
      rw [enter, cvBroadcast_eq head]
      exact Sat.ite (fun _ => Affects.abandons (threadWakeup_effect _ _) called) fun _ =>
        called.returned (.cvBroadcast cv l) (by simp)

theorem resume_abandons (ok : s.Ok) (suspended : s.frames = f :: k) (abandoned : Abandoned lock s) :
    Abandons lock (resume f k s) := by
  have nested := ok.nested
  rw [suspended] at nested
  have between := Between.start k s
  cases f with
  | yieldAny ie => exact Affects.abandons (yieldAnyGot_effect between) abandoned
  | yieldTo wantTid ie => exact Affects.abandons (yieldToGot_effect between) abandoned
  | sleep queue controlId ie => exact Affects.abandons (sleepGot_effect between) abandoned
  | acquire l ie => exact acquireLoop_abandons ok.head abandoned
  | release l ie =>
      have cleared := abandoned.setLock (l := { s.locks l with lockedThread := none }) fun same =>
        congrArg (fun lock => (s.locks lock).status) same
      exact cleared.returned (.lockRelease l) (by simp)
  | waitReleased cv l ie =>
      unfold resume
      exact Affects.abandons (threadSleep_effect ok.head _) abandoned
  | waitSlept cv l ie => exact acquireLoop_abandons ok.head (abandoned.called (.lockAcquire l))
  | waitAcquired cv l ie => exact abandoned.returned (.cvWait cv l) (by simp)
  | signalled cv l ie => exact abandoned.returned (.cvSignal cv l) (by simp)
  | broadcasted cv l ie => exact abandoned.returned (.cvBroadcast cv l) (by simp)
  | exitMain ie => cases nested.1
  | handler e => exact ⟨abandoned.locked, abandoned.nobody⟩
  | stub =>
      exact ⟨abandoned.locked, fun t holds => abandoned.nobody t (.of_cons rfl holds)⟩

/-- A lock that has been abandoned stays so. -/
theorem Step.abandoned (ok : s.Ok) (may : Permitted s a) (step : Step s a s')
    (keeps : ∀ c, a = .invoke c → ¬ c.Gives lock) (abandoned : Abandoned lock s) :
    Abandoned lock s' := by
  cases step with
  | invoke user fresh runs => exact (enter_abandons ok.head may (keeps _ rfl) abandoned).of_ok runs
  | interruptsSet user enabled => exact ⟨abandoned.locked, abandoned.nobody⟩
  | timer on runs =>
      have inside : Abandoned lock (s.interruptsSet false) := ⟨abandoned.locked, abandoned.nobody⟩
      exact (Affects.abandons (threadYield_effect (s := s.interruptsSet false) ok.head threadAny)
        inside).of_ok runs
  | goOn suspended runs => exact (resume_abandons ok suspended abandoned).of_ok runs

end Ece344Lab.Threads
