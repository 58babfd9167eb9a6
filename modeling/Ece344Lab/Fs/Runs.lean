import Ece344Lab.Fs.Session

set_option autoImplicit false

/- Whole runs of `testfs` on a new file system. -/
namespace Ece344Lab.Fs

open Outcome Ownership

/-- The sessions that commands lead to, one after the other, each of them allowed. -/
inductive Run (allowed : Session → Command → Session → Prop) (start : Session) : Session → Prop
  | start : Run allowed start start
  | command {s s' : Session} {c : Command} {ret : Int} (run : Run allowed start s)
      (ran : s.handleCommand c = .ok (ret, s')) (allows : allowed s c s') : Run allowed start s'

namespace Run

variable {allowed : Session → Command → Session → Prop} {start s : Session}

/-- What holds at the start and is kept by every allowed command holds throughout. -/
theorem invariant {I : Session → Prop} (run : Run allowed start s) (initial : I start)
    (step : ∀ s s' c ret, I s → s.handleCommand c = .ok (ret, s') → allowed s c s' → I s') :
    I s := by
  induction run with
  | start => exact initial
  | command _ ran allows ih => exact step _ _ _ _ ih ran allows

end Run

theorem Started.ok {maxFsBlocks : Nat} {s : Session} (started : Started maxFsBlocks s) : s.Ok := by
  refine ⟨⟨_, started.space⟩, ?_, ?_⟩
  · rw [started.curDir]
    exact started.space.root
  · intro m flag
    rw [started.dirty] at flag
    cases flag

def Session.script (cs : List Command) (s : Session) : Except Halt Session :=
  cs.foldlM (fun s c => do
    let (_, s) ← s.handleCommand c
    .ok s) s

theorem Run.script {start s s' : Session} {cs : List Command}
    (run : Run (fun _ _ _ => True) start s) (ran : s.script cs = .ok s') :
    Run (fun _ _ _ => True) start s' := by
  induction cs generalizing s with
  | nil =>
      cases ran
      exact run
  | cons c cs ih =>
      unfold Session.script at ran
      rw [List.foldlM_cons] at ran
      cases first : s.handleCommand c with
      | error e =>
          rw [first] at ran
          cases ran
      | ok r =>
          rw [first] at ran
          exact ih (run.command first trivial) ran

/-- A script that ends in a state with a property, from a new file system. -/
theorem Run.of_script {fsSizeMb : Nat} {cs : List Command} {p : Session → Prop}
    (ends : Returns (mktestfs fsSizeMb >>= testfsStart >>= Session.script cs) p) :
    ∃ start s, Fresh fsSizeMb start ∧ Run (fun _ _ _ => True) start s ∧ p s := by
  obtain ⟨s, ran, holds⟩ := ends
  cases made : mktestfs fsSizeMb >>= testfsStart with
  | error e =>
      rw [made] at ran
      cases ran
  | ok start =>
      rw [made] at ran
      exact ⟨start, s, made, Run.start.script ran, holds⟩

def nameA : Arg := ⟨[97], by decide, by decide⟩

def nameB : Arg := ⟨[98], by decide, by decide⟩

/-- The invariant of the directories holds as long as nothing is stranded. -/
theorem Run.ok {allowed : Session → Command → Session → Prop} {fsSizeMb : Nat}
    {start s : Session} (run : Run allowed start s) (fresh : Fresh fsSizeMb start)
    (safe : ∀ s c s', allowed s c s' → ¬ (s.Strands c ∧ s'.fs.sb.allocFailed = true)) : s.Ok := by
  refine run.invariant fresh.started.ok ?_
  intro s s' c ret ok ran allows
  cases (ok.handleCommand c).of_ok ran with
  | inl stepped => exact stepped.ok
  | inr stranded => exact absurd stranded (safe s c s' allows)

/-- The entry "a" is short, and there is room for it in the block of the root. -/
theorem Started.create {maxFsBlocks : Nat} {s : Session} (started : Started maxFsBlocks s)
    (several : 2 ≤ maxFsBlocks) :
    ¬ s.Strands (.create [nameA]) ∧ ¬ s.Creates CreateMiscounts (.create [nameA]) ∧
      ¬ s.Creates CreateStarves (.create [nameA]) := by
  have space := started.space
  have root := (space.listed 0 space.root).listing
  have small : ∀ es, Listing s.fs.sb (s.fs.view s.curDir) es → direntsSize es = 21 := by
    intro es listing
    have size := listing.size
    rw [started.curDir, root.size] at size
    have whole : direntsSize (rootOnly 0) = 21 := rfl
    omega
  refine ⟨fun strands => ?_, fun miscounts => ?_, fun starves => ?_⟩
  · cases strands with
    | inl creates =>
        obtain ⟨es, listing, strands⟩ := creates
        have at' := strands.strands
        rw [small es listing] at at'
        exact not_strands_first _ _ _ _ _ (by decide) at'
    | inr writes => exact writes
  · obtain ⟨es, _, miscounts⟩ := miscounts
    exact absurd miscounts.giant (by decide)
  · obtain ⟨es, listing, starves⟩ := starves
    have short := starves.short
    have free := started.free
    have none : InodeType.file.cost = 0 := rfl
    have one : s.fs.entryNeed s.curDir nameA.bytes es ≤ 1 := by
      unfold State.entryNeed
      rw [small es listing, started.curDir,
        need_first s.fs 0 _ _ space.root.1 (by decide) (by decide)]
      split <;> omega
    omega

theorem create_run : ∃ start s, Fresh 1 start ∧ start.handleCommand (.create [nameA]) = .ok (0, s) ∧
    s.fs.sb.allocFailed = false := by
  have ends : Returns (mktestfs 1 >>= testfsStart >>= fun s => s.handleCommand (.create [nameA]))
      fun r => r.1 = 0 ∧ r.2.fs.sb.allocFailed = false := by
    decide +kernel
  obtain ⟨⟨ret, s⟩, ran, zero, unfailed⟩ := ends
  cases made : mktestfs 1 >>= testfsStart with
  | error e =>
      rw [made] at ran
      cases ran
  | ok start =>
      rw [made] at ran
      change ret = 0 at zero
      subst zero
      exact ⟨start, s, made, ran, unfailed⟩

end Ece344Lab.Fs
