import Ece344Lab.Threads.Effects

set_option autoImplicit false

/- What a step does to the threads that do not make it: their contexts stay, and the events are
those of the running thread. -/
namespace Ece344Lab.Threads

open Outcome State

def Event.Within (r : Nat) : Event → Prop
  | .call t _ _ | .ret t _ _ _ | .started t _ => t = r
  | .created _ | .exited _ => True

/-- A step of the running thread. Another thread goes on where its context has been saved. -/
structure Advance (s s' : State) (events : List Event) : Prop where
  log : s'.log = events ++ s.log
  within : ∀ e ∈ events, e.Within s.running
  context : ∀ t, t ≠ s.running → .created t ∉ events → s'.context t = s.context t
  ids : ∀ t, .created t ∉ events → s'.id t = s.id t
  pStacks : ∀ t, s'.pStack t = s.pStack t ∨ s'.pStack t = some newStack
  lands : s'.running = s.running ∨ s'.frames = (s'.context s'.running).frames

/-- The computation is such a step. -/
abbrev Advances (s : State) (x : Except Fault State) : Prop :=
  Sat x (fun s' => ∃ events, Advance s s' events) fun _ => True

/-- The running thread has recorded some events. -/
structure Prior (s m : State) (events : List Event) : Prop where
  log : m.log = events ++ s.log
  within : ∀ e ∈ events, e.Within s.running
  context : ∀ t, m.context t = s.context t
  ids : ∀ t, m.id t = s.id t
  pStacks : ∀ t, m.pStack t = s.pStack t
  running : m.running = s.running

variable {s s' m : State} {k : List Frame} {t u lock cv : Nat} {c : Call} {ie : Bool} {f : Frame}
  {a : Action} {events earlier : List Event} {e : Event} {x : Except Fault State}

theorem Event.Plain.within {r : Nat} (plain : e.Plain r) : e.Within r := by
  cases e with
  | call t c ie => exact plain.1
  | ret t c value ie => exact plain.1
  | created t => trivial
  | started t ie => exact plain.elim
  | exited t => trivial

namespace Prior

theorem refl (s : State) : Prior s s [] :=
  ⟨rfl, nofun, fun _ => rfl, fun _ => rfl, fun _ => rfl, rfl⟩

variable (prior : Prior s m earlier)
include prior

theorem cons (own : e.Within m.running) (log : s'.log = e :: m.log)
    (context : ∀ t, s'.context t = m.context t) (ids : ∀ t, s'.id t = m.id t)
    (pStacks : ∀ t, s'.pStack t = m.pStack t) (running : s'.running = m.running) :
    Prior s s' (e :: earlier) := by
  refine ⟨?_, fun e' member => ?_, fun t => (context t).trans (prior.context t),
    fun t => (ids t).trans (prior.ids t), fun t => (pStacks t).trans (prior.pStacks t),
    running.trans prior.running⟩
  · rw [log, prior.log]
    rfl
  · cases List.mem_cons.mp member with
    | inl same => exact same ▸ prior.running ▸ own
    | inr later => exact prior.within e' later

theorem called (c : Call) :
    Prior s ((m.called c).interruptsSet false) (.call m.running c m.enabled :: earlier) :=
  prior.cons (e := .call m.running c m.enabled) (by rfl) rfl (fun _ => rfl) (fun _ => rfl)
    (fun _ => rfl) rfl

theorem setLock (lock : Nat) (l : Lock) : Prior s (m.setLock lock l) earlier :=
  ⟨prior.log, prior.within, prior.context, prior.ids, prior.pStacks, prior.running⟩

theorem advance : Advance s m earlier :=
  ⟨prior.log, prior.within, fun t _ _ => prior.context t, fun t _ => prior.ids t,
    fun t => Or.inl (prior.pStacks t), Or.inl prior.running⟩

theorem returned (c : Call) (ie : Bool) (value : Option Int) (k : List Frame) :
    Advance s ((m.interruptsSet ie).returned c value k) (.ret m.running c value ie :: earlier) :=
  advance (prior.cons (e := .ret m.running c value ie) (by rfl) rfl (fun _ => rfl) (fun _ => rfl)
    (fun _ => rfl) rfl)

theorem affects (affects : Affects k m x) : Advances s x := by
  refine affects.weaken fun s' effect => ?_
  obtain ⟨events, effect⟩ := effect
  refine ⟨events ++ earlier, ?_, fun e member => ?_, fun t other absent => ?_, fun t absent => ?_,
    fun t => ?_, ?_⟩
  · rw [effect.log, prior.log, List.append_assoc]
  · cases List.mem_append.mp member with
    | inl new => exact prior.running ▸ (effect.plain e new).within
    | inr old => exact prior.within e old
  · rw [effect.context t (prior.running ▸ other) fun member =>
      absent (List.mem_append_left _ member)]
    exact prior.context t
  · rw [effect.ids t fun member => absent (List.mem_append_left _ member)]
    exact prior.ids t
  · rw [← prior.pStacks t]
    exact effect.pStacks t
  · exact effect.lands.imp (fun stays => stays.1.trans prior.running) id

variable (head : m.ready.head? = some m.running)
include head

theorem acquireLoop : Advances s (acquireLoop lock ie k m) := by
  unfold Threads.acquireLoop
  refine Sat.ite (fun _ => prior.affects (threadSleep_effect head _)) fun _ => ?_
  rw [top_of_head head, ok_bind]
  exact ⟨_, (prior.setLock lock _).returned _ _ _ _⟩

theorem lockAcquire : Advances s (lockAcquire lock k m) := (prior.called _).acquireLoop head

omit head in
theorem lockRelease : Advances s (lockRelease lock k m) := by
  unfold Threads.lockRelease
  exact ((prior.called (.lockRelease lock)).setLock lock _).affects (threadWakeup_effect _ _)

theorem cvWait : Advances s (cvWait cv lock k m) := by
  rw [cvWait_eq head]
  exact Sat.ite (fun _ => (prior.called _).lockRelease) fun _ =>
    ⟨_, (prior.called _).returned _ _ _ _⟩

theorem cvSignal : Advances s (cvSignal cv lock k m) := by
  rw [cvSignal_eq head]
  exact Sat.ite (fun _ => (prior.called _).affects (threadWakeup_effect _ _)) fun _ =>
    ⟨_, (prior.called _).returned _ _ _ _⟩

theorem cvBroadcast : Advances s (cvBroadcast cv lock k m) := by
  rw [cvBroadcast_eq head]
  exact Sat.ite (fun _ => (prior.called _).affects (threadWakeup_effect _ _)) fun _ =>
    ⟨_, (prior.called _).returned _ _ _ _⟩

end Prior

theorem enter_advances (head : s.ready.head? = some s.running) (may : c.Permitted s) :
    Advances s (enter c k s) := by
  have prior := Prior.refl s
  cases c with
  | threadCreate t => exact prior.affects (threadCreate_effect t)
  | threadYield wantTid => exact prior.affects (threadYield_effect head wantTid)
  | threadExit tid => exact prior.affects (threadExit_effect head may.several)
  | threadSleep queue => exact prior.affects (threadSleep_effect head queue)
  | threadWakeup queue all => exact prior.affects (threadWakeup_effect queue all)
  | lockAcquire lock => exact prior.lockAcquire head
  | lockRelease lock => exact prior.lockRelease
  | cvWait cv lock => exact prior.cvWait head
  | cvSignal cv lock => exact prior.cvSignal head
  | cvBroadcast cv lock => exact prior.cvBroadcast head

theorem resume_advances (head : s.ready.head? = some s.running) (running : f.final = false) :
    Advances s (resume f k s) := by
  have prior := Prior.refl s
  have between := Between.start k s
  cases f with
  | yieldAny ie => exact prior.affects (yieldAnyGot_effect between)
  | yieldTo wantTid ie => exact prior.affects (yieldToGot_effect between)
  | sleep queue controlId ie => exact prior.affects (sleepGot_effect between)
  | acquire lock ie => exact prior.acquireLoop head
  | release lock ie => exact ⟨_, (prior.setLock lock _).returned _ _ _ _⟩
  | waitReleased cv lock ie =>
      unfold resume
      exact prior.affects (threadSleep_effect head _)
  | waitSlept cv lock ie => exact prior.lockAcquire head
  | waitAcquired cv lock ie => exact ⟨_, prior.returned _ _ _ _⟩
  | signalled cv lock ie => exact ⟨_, prior.returned _ _ _ _⟩
  | broadcasted cv lock ie => exact ⟨_, prior.returned _ _ _ _⟩
  | handler e => exact ⟨[], rfl, nofun, fun _ _ _ => rfl, fun _ _ => rfl,
      fun _ => Or.inl rfl, Or.inl rfl⟩
  | exitMain ie => cases running
  | stub =>
      exact ⟨[.started s.running true], rfl, fun e member => by
        rw [List.mem_singleton.mp member]
        rfl, fun _ _ _ => rfl, fun _ _ => rfl,
      fun _ => Or.inl rfl, Or.inl rfl⟩

/-- Every step of a run is a step of the running thread. -/
theorem Step.advance (ok : s.Ok) (may : Permitted s a) (step : Step s a s') :
    ∃ events, Advance s s' events := by
  cases step with
  | invoke user fresh runs => exact (enter_advances ok.head may).of_ok runs
  | interruptsSet user enabled => exact ⟨[], rfl, nofun, fun _ _ _ => rfl, fun _ _ => rfl,
      fun _ => Or.inl rfl, Or.inl rfl⟩
  | timer on runs =>
      have prior : Prior s (s.interruptsSet false) [] := 
        ⟨rfl, nofun, fun _ => rfl, fun _ => rfl, fun _ => rfl, rfl⟩
      exact (prior.affects (threadYield_effect (s := s.interruptsSet false) ok.head _)).of_ok runs
  | goOn suspended runs =>
      have nested := ok.nested
      rw [suspended] at nested
      exact (resume_advances ok.head nested.1).of_ok runs

end Ece344Lab.Threads
