import Ece344Lab.Threads.Bystanders

set_option autoImplicit false

/- Programs whose threads share memory. A thread is at a place in its own code when it is not in a
call of the package; each access to the memory is atomic, and the timer can strike between any two.
-/
namespace Ece344Lab.Threads

open Outcome State

/-- What a thread does next in its own code. `ℓ` are the places in the code, with the local
variables, and `σ` is the shared memory. -/
inductive Instruction (σ ℓ : Type)
  | call (c : Call) (next : ℓ)
  /-- `thread_create`; the new thread begins at `start` -/
  | create (start next : ℓ)
  /-- the function returns, and `thread_stub` calls `thread_exit(THREAD_SELF)` -/
  | exit
  /-- `main` returns, and the process ends -/
  | halt
  /-- reads, writes and assertions, which may look at the state of the timer signal -/
  | access (run : Bool → σ → Except Fault (σ × ℓ))

/-- The package, the memory, and where the threads are in their code. -/
structure System (σ ℓ : Type) where
  package : State
  memory : σ
  locals : Nat → Option ℓ

instance (t : Nat) : ∀ log, Decidable (Live t log)
  | [] => isFalse id
  | .created u :: log =>
      have := instDecidableLive t log
      inferInstanceAs (Decidable (u = t ∨ Live t log))
  | .exited u :: log =>
      have := instDecidableLive t log
      inferInstanceAs (Decidable (u ≠ t ∧ Live t log))
  | .call _ _ _ :: log | .ret _ _ _ _ :: log | .started _ _ :: log => instDecidableLive t log

namespace System

variable {σ ℓ : Type}

def moved (sys : System σ ℓ) (p : State) (t : Nat) (l : Option ℓ) : System σ ℓ :=
  { sys with package := p, locals := Function.update sys.locals t l }

/-- One step: of the running thread in its own code, or of the package. A program ends when its last
ready thread exits. -/
inductive Step (program : ℓ → Instruction σ ℓ) (sys : System σ ℓ) : System σ ℓ → Prop
  | call {l next : ℓ} {c : Call} {p : State} (here : sys.locals sys.package.running = some l)
      (instruction : program l = .call c next) (step : Threads.Step sys.package (.invoke c) p) :
      Step program sys (sys.moved p sys.package.running (some next))
  | create {l start next : ℓ} {v : Nat} {p : State} (here : sys.locals sys.package.running = some l)
      (instruction : program l = .create start next)
      (step : Threads.Step sys.package (.invoke (.threadCreate v)) p) (created : Live v p.log) :
      Step program sys ((sys.moved p v (some start)).moved p sys.package.running (some next))
  | createFails {l start next : ℓ} {v : Nat} {p : State}
      (here : sys.locals sys.package.running = some l)
      (instruction : program l = .create start next)
      (step : Threads.Step sys.package (.invoke (.threadCreate v)) p) (failed : ¬ Live v p.log) :
      Step program sys (sys.moved p sys.package.running (some next))
  | exit {l : ℓ} {p : State} (here : sys.locals sys.package.running = some l)
      (instruction : program l = .exit) (several : 1 < sys.package.ready.length)
      (step : Threads.Step sys.package (.invoke (.threadExit threadSelf)) p) :
      Step program sys (sys.moved p sys.package.running none)
  | access {l next : ℓ} {run : Bool → σ → Except Fault (σ × ℓ)} {memory : σ}
      (user : sys.package.frames = []) (here : sys.locals sys.package.running = some l)
      (instruction : program l = .access run)
      (runs : run sys.package.enabled sys.memory = .ok (memory, next)) :
      Step program sys
        ({ sys with memory := memory }.moved sys.package sys.package.running (some next))
  | timer {p : State} (step : Threads.Step sys.package .timer p) :
      Step program sys { sys with package := p }
  | goOn {p : State} (step : Threads.Step sys.package .goOn p) :
      Step program sys { sys with package := p }

/-- The runs of a program whose first thread begins at `main`, with the timer signal unblocked. -/
inductive Run (program : ℓ → Instruction σ ℓ) (main : ℓ) (memory : σ) : System σ ℓ → Prop
  | start {t : Nat} {p : State} (init : threadInit t true = .ok p) :
      Run program main memory ⟨p, memory, fun u => if u = t then some main else none⟩
  | step {sys sys' : System σ ℓ} (before : Run program main memory sys)
      (step : Step program sys sys') : Run program main memory sys'

section Replay

variable (program : ℓ → Instruction σ ℓ)

/-- The running thread goes on; `thread_create` gets memory at an address. -/
def advance (address : Nat) (sys : System σ ℓ) : Except Fault (System σ ℓ) :=
  match sys.package.frames, sys.locals sys.package.running with
  | _ :: _, _ => do
      let p ← act sys.package .goOn
      .ok { sys with package := p }
  | [], none => .error .undefined
  | [], some l =>
      match program l with
      | .call c next => do
          let p ← act sys.package (.invoke c)
          .ok (sys.moved p sys.package.running (some next))
      | .create start next => do
          let p ← act sys.package (.invoke (.threadCreate address))
          if Live address p.log then
            .ok ((sys.moved p address (some start)).moved p sys.package.running (some next))
          else .ok (sys.moved p sys.package.running (some next))
      | .exit =>
          if 1 < sys.package.ready.length then do
            let p ← act sys.package (.invoke (.threadExit threadSelf))
            .ok (sys.moved p sys.package.running none)
          else .error .undefined
      | .halt => .error .undefined
      | .access run => do
          let (memory, next) ← run sys.package.enabled sys.memory
          .ok ({ sys with memory := memory }.moved sys.package sys.package.running (some next))

def replay : List (Option Nat) → System σ ℓ → Except Fault (System σ ℓ)
  | [], sys => .ok sys
  | none :: rest, sys => do
      let p ← act sys.package .timer
      replay rest { sys with package := p }
  | some address :: rest, sys => do
      let sys ← advance program address sys
      replay rest sys

end Replay

variable {program : ℓ → Instruction σ ℓ} {main : ℓ} {memory : σ} {sys sys' : System σ ℓ}
  {address : Nat} {choices : List (Option Nat)}

theorem advance_step (advances : advance program address sys = .ok sys') :
    Step program sys sys' := by
  unfold advance at advances
  split at advances
  · obtain ⟨p, acts, same⟩ := ok_of_bind advances
    obtain rfl := Except.ok.inj same
    exact .goOn (act_step acts)
  · cases advances
  · next l user here =>
    split at advances
    · next c next instruction =>
      obtain ⟨p, acts, same⟩ := ok_of_bind advances
      obtain rfl := Except.ok.inj same
      exact .call here instruction (act_step acts)
    · next start next instruction =>
      obtain ⟨p, acts, same⟩ := ok_of_bind advances
      split at same
      · next created =>
        obtain rfl := Except.ok.inj same
        exact .create here instruction (act_step acts) created
      · next failed =>
        obtain rfl := Except.ok.inj same
        exact .createFails here instruction (act_step acts) failed
    · next instruction =>
      split at advances
      · next several =>
        obtain ⟨p, acts, same⟩ := ok_of_bind advances
        obtain rfl := Except.ok.inj same
        exact .exit here instruction several (act_step acts)
      · cases advances
    · cases advances
    · next run instruction =>
      obtain ⟨⟨m, next⟩, runs, same⟩ := ok_of_bind advances
      obtain rfl := Except.ok.inj same
      exact .access user here instruction runs

theorem Run.replay (run : Run program main memory sys)
    (replays : replay program choices sys = .ok sys') : Run program main memory sys' := by
  induction choices generalizing sys with
  | nil =>
      obtain rfl := Except.ok.inj replays
      exact run
  | cons choice rest ih =>
      cases choice with
      | none =>
          obtain ⟨p, acts, replays⟩ := ok_of_bind replays
          exact ih (.step run (.timer (act_step acts))) replays
      | some address =>
          obtain ⟨sys₁, advances, replays⟩ := ok_of_bind replays
          exact ih (.step run (advance_step advances)) replays

theorem exists_run {p : System σ ℓ → Prop} (choices : List (Option Nat))
    (replays : Returns (threadInit 0 true >>= fun package =>
      System.replay program choices
        ⟨package, memory, fun u => if u = 0 then some main else none⟩) p) :
    ∃ sys, Run program main memory sys ∧ p sys := by
  obtain ⟨sys, returned, holds⟩ := replays
  obtain ⟨package, init, replays⟩ := ok_of_bind returned
  exact ⟨sys, .replay (.start init) replays, holds⟩

end System

end Ece344Lab.Threads
