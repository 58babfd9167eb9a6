import Ece344Lab.Threads.Stack

set_option autoImplicit false

/- What one step does to the holder of a lock and to the stack of the thread that makes it. -/
namespace Ece344Lab.Threads

open Outcome State

def Frame.Takes (lock : Nat) : Frame → Prop
  | .acquire l _ | .waitReleased _ l _ | .waitSlept _ l _ | .waitAcquired _ l _ => l = lock
  | _ => False

/-- The running thread goes on in a call. `mask` is the state of the signal that the call restores,
`takes` says that it takes the lock before it returns to the frames `k`, and `before` that the
thread has the lock and does not give it up now. -/
structure Proceeds (lock : Nat) (mask : Bool) (takes before : Prop) (k : List Frame)
    (s s' : State) :
    Prop where
  keeps : before → Holds lock s.running s'.log
  gets : Holds lock s.running s'.log → before ∨ takes
  stack : (s'.running = s.running ∧ s'.frames = k ∧ s'.enabled = mask ∧
      (takes → Holds lock s.running s'.log)) ∨
    ∃ front g, s'.stack s.running = front ++ g :: k ∧ g.mask = mask ∧ (g.Takes lock ↔ takes) ∧
      ∀ h ∈ front, h.Takes lock → takes

/-- The calls that end with the lock. -/
def Call.Gets (lock : Nat) : Call → Prop
  | .lockAcquire l | .cvWait _ l => l = lock
  | _ => False

/-- The calls that begin by giving up the lock. -/
def Call.Gives (lock : Nat) : Call → Prop
  | .lockRelease l | .cvWait _ l => l = lock
  | _ => False

variable {s s' m : State} {k : List Frame} {t u r lock lock' cv : Nat} {c : Call} {ie : Bool}
  {f g : Frame} {log events : List Event} {e : Event} {w : WaitQueue} {a : Action}
  {x : Except Fault State} {takes before : Prop}

theorem Frame.not_takes_of_switches (switches : f.switches = true) : ¬ f.Takes lock := by
  cases f <;> first | exact id | cases switches

/-- The computation goes on in a call of the running thread of `s`. -/
abbrev ProceedsIn (lock : Nat) (mask : Bool) (takes before : Prop) (k : List Frame) (s : State)
    (x : Except Fault State) : Prop :=
  Sat x (Proceeds lock mask takes before k s) fun _ => True

section Rules

/-- A scheduling call that returns to the caller's own frames. -/
theorem Turn.proceeds (turn : Turn s.running ie k log s')
    (same : Holds lock s.running log ↔ before) :
    Proceeds lock ie False before k s s' := by
  have holds : Holds lock s.running s'.log ↔ before := turn.holds.trans same
  refine ⟨holds.mpr, fun after => Or.inl (holds.mp after), ?_⟩
  obtain ⟨running, frames, enabled⟩ | ⟨f, switches, mask, stack⟩ := turn.stack
  · exact Or.inl ⟨running, frames, enabled, False.elim⟩
  · exact Or.inr ⟨[], f, stack, mask, iff_false_intro (Frame.not_takes_of_switches switches), nofun⟩

theorem Turn.proceeds_inside {h : Frame} (turn : Turn s.running ie (h :: k) log s')
    (front : List Frame) (free : ∀ h ∈ front, ¬ h.Takes lock) {k' : List Frame} {g : Frame}
    (split : h :: k = front ++ g :: k') (same : Holds lock s.running log ↔ before)
    (took : g.Takes lock ↔ takes) : Proceeds lock g.mask takes before k' s s' := by
  have holds : Holds lock s.running s'.log ↔ before := turn.holds.trans same
  refine ⟨holds.mpr, fun after => Or.inl (holds.mp after), Or.inr ?_⟩
  obtain ⟨running, frames, _⟩ | ⟨f, switches, _, stack⟩ := turn.stack
  · refine ⟨front, g, ?_, rfl, took, fun h member there => absurd there (free h member)⟩
    rw [← running, stack_running, frames, split]
  · refine ⟨f :: front, g, ?_, rfl, took, fun h member there => ?_⟩
    · rw [stack, split]
      rfl
    · cases List.mem_cons.mp member with
      | inl same => exact absurd (same ▸ there) (Frame.not_takes_of_switches switches)
      | inr later => exact absurd there (free h later)

theorem returned_proceeds (running : m.running = s.running) (other : ∀ lock, c ≠ .lockAcquire lock)
    (same : Holds lock s.running m.log ↔ before) (took : takes → before) (value : Option Int) :
    Proceeds lock ie takes before k s ((m.interruptsSet ie).returned c value k) := by
  have quiet : (Event.ret m.running c value ie).takes lock s.running = false := by
    cases c <;> first | rfl | exact absurd rfl (other _)
  have holds : Holds lock s.running ((m.interruptsSet ie).returned c value k).log ↔ before :=
    (holds_cons quiet rfl).trans same
  exact ⟨holds.mpr, fun after => Or.inl (holds.mp after),
    Or.inl ⟨running, rfl, rfl, fun there => holds.mpr (took there)⟩⟩

end Rules

section Calls

theorem acquireLoop_proceeds (head : m.ready.head? = some m.running)
    (running : m.running = s.running) (same : Holds lock' s.running m.log ↔ before) :
    ProceedsIn lock' ie (lock = lock') before k s (acquireLoop lock ie k m) := by
  unfold acquireLoop
  refine Sat.ite (fun _ => ?_) fun _ => ?_
  · refine (threadSleep_turns head _).weaken fun s' turn => ?_
    rw [running] at turn
    exact turn.proceeds_inside [] nofun rfl same Iff.rfl
  · rw [top_of_head head, ok_bind]
    refine ⟨fun before => Or.inr ⟨rfl, same.mpr before⟩, fun after => ?_,
      Or.inl ⟨running, rfl, rfl, fun equal => Or.inl (decide_eq_true ⟨running, equal⟩)⟩⟩
    obtain took | ⟨_, kept⟩ := after
    · exact Or.inr (of_decide_eq_true took).2
    · exact Or.inl (same.mp kept)

theorem lockAcquire_proceeds (head : m.ready.head? = some m.running)
    (running : m.running = s.running) (same : Holds lock' s.running m.log ↔ before) :
    ProceedsIn lock' m.enabled (lock = lock') before k s (lockAcquire lock k m) :=
  acquireLoop_proceeds (m := (m.called (.lockAcquire lock)).interruptsSet false) head running
    ((holds_cons rfl rfl).trans same)

/-- The record of a call that gives up a lock. -/
theorem holds_given (log : List Event) (gives : e.gives lock' t = decide (lock = lock'))
    (takes : e.takes lock' t = false) (same : Holds lock' t log ↔ before) :
    Holds lock' t (e :: log) ↔ before ∧ lock ≠ lock' := by
  constructor
  · rintro (took | ⟨kept, holds⟩)
    · rw [takes] at took
      cases took
    · rw [gives] at kept
      exact ⟨same.mp holds, of_decide_eq_false kept⟩
  · exact fun ⟨holds, other⟩ => Or.inr ⟨gives.trans (decide_eq_false other), same.mpr holds⟩

theorem gives_release (r lock lock' : Nat) (ie : Bool) :
    (Event.call r (.lockRelease lock) ie).gives lock' r = decide (lock = lock') := by
  simp [Event.gives]

theorem gives_wait (r cv lock lock' : Nat) (ie : Bool) :
    (Event.call r (.cvWait cv lock) ie).gives lock' r = decide (lock = lock') := by
  simp [Event.gives]

theorem lockRelease_turns (running : m.running = s.running)
    (same : Holds lock' s.running m.log ↔ before) :
    Sat (lockRelease lock k m) (fun s' => ∃ log, Turn s.running false (.release lock m.enabled :: k)
      log s' ∧ (Holds lock' s.running log ↔ before ∧ lock ≠ lock')) fun _ => True := by
  have gives := gives_release s.running lock lock' m.enabled
  unfold lockRelease
  refine (threadWakeup_turns _ _).weaken fun s' turn =>
    ⟨.call m.running (.lockRelease lock) m.enabled :: m.log, ?_, ?_⟩
  · rw [← running]
    exact turn
  · rw [running]
    exact holds_given _ gives rfl same

theorem lockRelease_proceeds (running : m.running = s.running)
    (same : Holds lock' s.running m.log ↔ before) :
    ProceedsIn lock' m.enabled False (before ∧ lock ≠ lock') k s (lockRelease lock k m) :=
  (lockRelease_turns running same).weaken fun s' after => by
    obtain ⟨log, turn, same⟩ := after
    exact turn.proceeds_inside [] nofun rfl same Iff.rfl

theorem cvWait_proceeds (head : s.ready.head? = some s.running)
    (holder : lock = lock' → isHolder s lock s.running = true) :
    ProceedsIn lock' s.enabled (lock = lock') (Holds lock' s.running s.log ∧ lock ≠ lock') k s
      (cvWait cv lock k s) := by
  have given := holds_given s.log (gives_wait s.running cv lock lock' s.enabled) rfl Iff.rfl
  rw [cvWait_eq head]
  refine Sat.ite (fun _ => ?_) fun stranger => ?_
  · refine (lockRelease_turns (s := s) (m := (s.called (.cvWait cv lock)).interruptsSet false) rfl
      given).weaken fun s' after => ?_
    obtain ⟨log, turn, same⟩ := after
    have once : ((Holds lock' s.running s.log ∧ lock ≠ lock') ∧ lock ≠ lock') ↔
        Holds lock' s.running s.log ∧ lock ≠ lock' := by tauto
    exact turn.proceeds_inside [.release lock false] (by simp [Frame.Takes]) rfl (same.trans once)
      Iff.rfl
  · exact returned_proceeds (s := s) (m := (s.called (.cvWait cv lock)).interruptsSet false)
      (c := .cvWait cv lock) rfl (by nofun) given (fun equal => absurd (holder equal) stranger) none

theorem cvSignal_proceeds (head : s.ready.head? = some s.running) :
    ProceedsIn lock' s.enabled False (Holds lock' s.running s.log) k s (cvSignal cv lock k s) := by
  have called : Holds lock' s.running (.call s.running (.cvSignal cv lock) s.enabled :: s.log) ↔
      _ :=
    holds_cons rfl rfl
  rw [cvSignal_eq head]
  refine Sat.ite (fun _ => ?_) fun _ => ?_
  · exact (threadWakeup_turns _ _).weaken fun s' turn =>
      Turn.proceeds_inside (s := s) turn [] nofun rfl called Iff.rfl
  · exact returned_proceeds (s := s) (m := (s.called (.cvSignal cv lock)).interruptsSet false)
      (c := .cvSignal cv lock) rfl (by nofun) called False.elim none

theorem cvBroadcast_proceeds (head : s.ready.head? = some s.running) :
    ProceedsIn lock' s.enabled False (Holds lock' s.running s.log) k s
      (cvBroadcast cv lock k s) := by
  have called : Holds lock' s.running (.call s.running (.cvBroadcast cv lock) s.enabled :: s.log) ↔
      _ := holds_cons rfl rfl
  rw [cvBroadcast_eq head]
  refine Sat.ite (fun _ => ?_) fun _ => ?_
  · exact (threadWakeup_turns _ _).weaken fun s' turn =>
      Turn.proceeds_inside (s := s) turn [] nofun rfl called Iff.rfl
  · exact returned_proceeds (s := s) (m := (s.called (.cvBroadcast cv lock)).interruptsSet false)
      (c := .cvBroadcast cv lock) rfl (by nofun) called False.elim none

end Calls

section Steps

theorem back_turn (suspended : s.frames = f :: k) (switches : f.switches = true) (ok : s.Ok) :
    Turns s.running f.mask k s.log (resume f k s) := by
  have speaks : Speaks s.running s.log s := ⟨rfl, [], rfl, nofun⟩
  have running : Speaks s.running s.log (s.setStatus s.running .run) := ⟨rfl, [], rfl, nofun⟩
  have idle := ok.idle suspended switches
  cases f with
  | yieldAny ie =>
      change Turns s.running ie k s.log (yieldAnyGot ie k s)
      unfold yieldAnyGot
      rw [top_of_head ok.head, ok_bind]
      dsimp only
      rw [if_neg idle]
      exact running.returned (by trivial) ie _ k
  | yieldTo wantTid ie =>
      change Turns s.running ie k s.log (yieldToGot wantTid ie k s)
      unfold yieldToGot
      refine (sat_true _).bind fun _ _ => ?_
      rw [top_of_head ok.head, ok_bind]
      dsimp only
      rw [if_neg idle]
      exact running.returned (by trivial) ie _ k
  | sleep queue controlId ie =>
      change Turns s.running ie k s.log (sleepGot queue controlId ie k s)
      unfold sleepGot
      rw [top_of_head ok.head, ok_bind]
      dsimp only
      rw [if_neg idle]
      by_cases status : (s.threads s.running).status = .idle
      · rw [if_pos status]
        exact running.returned (by trivial) ie _ k
      · rw [if_neg status]
        exact speaks.returned (by trivial) ie _ k
  | _ => cases switches

theorem resume_proceeds (ok : s.Ok) (lockOk : s.LockOk) (suspended : s.frames = f :: k) :
    ProceedsIn lock f.mask (f.Takes lock) (Holds lock s.running s.log) k s (resume f k s) := by
  have nested := ok.nested
  rw [suspended] at nested
  cases f with
  | yieldAny ie => exact (back_turn suspended rfl ok).weaken fun s' turn => turn.proceeds Iff.rfl
  | yieldTo wantTid ie =>
      exact (back_turn suspended rfl ok).weaken fun s' turn => turn.proceeds Iff.rfl
  | sleep queue controlId ie =>
      exact (back_turn suspended rfl ok).weaken fun s' turn => turn.proceeds Iff.rfl
  | acquire l ie => exact acquireLoop_proceeds ok.head rfl Iff.rfl
  | release l ie =>
      exact returned_proceeds (s := s) (m := s.setLock l { s.locks l with lockedThread := none })
        (c := .lockRelease l) rfl (by nofun) Iff.rfl False.elim none
  | waitReleased cv l ie =>
      unfold resume
      refine (threadSleep_turns ok.head _).weaken fun s' turn => ?_
      exact turn.proceeds_inside (g := .waitSlept cv l ie) [] nofun rfl Iff.rfl Iff.rfl
  | waitSlept cv l ie =>
      have acquires : ProceedsIn lock s.enabled (l = lock) (Holds lock s.running s.log)
          (.waitAcquired cv l ie :: k) s (lockAcquire l (.waitAcquired cv l ie :: k) s) :=
        lockAcquire_proceeds ok.head rfl Iff.rfl
      refine acquires.weaken fun s' inside => ?_
      refine ⟨inside.keeps, inside.gets, Or.inr ?_⟩
      obtain ⟨running, frames, _, _⟩ | ⟨front, g, stack, _, takes, free⟩ := inside.stack
      · refine ⟨[], .waitAcquired cv l ie, ?_, rfl, Iff.rfl, nofun⟩
        rw [← running, stack_running, frames]
        rfl
      · refine ⟨front ++ [g], .waitAcquired cv l ie, ?_, rfl, Iff.rfl, fun h member there => ?_⟩
        · rw [stack, List.append_assoc]
          rfl
        · cases List.mem_append.mp member with
          | inl old => exact free h old there
          | inr new => exact takes.mp (List.mem_singleton.mp new ▸ there)
  | waitAcquired cv l ie =>
      refine returned_proceeds (s := s) (c := .cvWait cv l) rfl (by nofun) Iff.rfl
        (fun equal => ?_) none
      have equal : l = lock := equal
      subst equal
      exact lockOk.acquired cv l ie (by rw [suspended]; rfl)
  | signalled cv l ie =>
      exact returned_proceeds (s := s) (c := .cvSignal cv l) rfl (by nofun) Iff.rfl False.elim none
  | broadcasted cv l ie =>
      exact returned_proceeds (s := s) (c := .cvBroadcast cv l) rfl (by nofun) Iff.rfl
        False.elim none
  | exitMain ie => cases nested.1
  | handler e => exact ⟨id, Or.inl, Or.inl ⟨rfl, rfl, rfl, False.elim⟩⟩
  | stub =>
      have same : Holds lock s.running (.started s.running true :: s.log) ↔ _ := holds_cons rfl rfl
      exact ⟨same.mpr, fun after => Or.inl (same.mp after), Or.inl ⟨rfl, rfl, rfl, False.elim⟩⟩

/-- The running thread enters a call other than `thread_create` and `thread_exit`. It has the lock
when it waits for a condition. -/
theorem enter_proceeds (head : s.ready.head? = some s.running) (lock : Nat)
    (creates : ∀ t, c ≠ .threadCreate t) (exits : ∀ tid, c ≠ .threadExit tid)
    (holder : ∀ cv, c = .cvWait cv lock → isHolder s lock s.running = true) :
    ProceedsIn lock s.enabled (c.Gets lock) (Holds lock s.running s.log ∧ ¬ c.Gives lock) [] s
      (enter c [] s) := by
  have kept : Holds lock s.running s.log ↔ Holds lock s.running s.log ∧ ¬ False := by simp
  cases c with
  | threadCreate t => exact absurd rfl (creates t)
  | threadExit tid => exact absurd rfl (exits tid)
  | threadYield wantTid =>
      exact (threadYield_turns head wantTid).weaken fun s' turn => turn.proceeds kept
  | threadSleep queue =>
      exact (threadSleep_turns head queue).weaken fun s' turn => turn.proceeds kept
  | threadWakeup queue all =>
      exact (threadWakeup_turns queue all).weaken fun s' turn => turn.proceeds kept
  | lockAcquire l => exact lockAcquire_proceeds head rfl kept
  | lockRelease l => exact lockRelease_proceeds (s := s) rfl Iff.rfl
  | cvWait cv l =>
      refine cvWait_proceeds head fun same => ?_
      subst same
      exact holder cv rfl
  | cvSignal cv l =>
      exact (cvSignal_proceeds head).weaken fun s' after =>
        ⟨fun before => after.keeps before.1, fun holds => (after.gets holds).imp kept.mp id,
          after.stack⟩
  | cvBroadcast cv l =>
      exact (cvBroadcast_proceeds head).weaken fun s' after =>
        ⟨fun before => after.keeps before.1, fun holds => (after.gets holds).imp kept.mp id,
          after.stack⟩

end Steps

end Ece344Lab.Threads
