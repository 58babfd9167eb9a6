import Ece344Lab.Fs.Runs

set_option autoImplicit false

/- Which inode owns which block. -/
namespace Ece344Lab.Fs

open Outcome Ownership

/-- Block pointers of inodes in use and bits of the block freemap correspond one to one, and every
inode counts its pointers. -/
structure BlocksOwned (s : State) : Prop where
  marked : ∀ n, s.sb.InodeAllocated n → ∀ slot, ptr s.sb.dev (s.view n) slot ≠ 0 →
    s.sb.Allocated (ptr s.sb.dev (s.view n) slot)
  distinct : ∀ n m, s.sb.InodeAllocated n → s.sb.InodeAllocated m → ∀ slot slot',
    ptr s.sb.dev (s.view n) slot ≠ 0 →
      ptr s.sb.dev (s.view n) slot = ptr s.sb.dev (s.view m) slot' → n = m ∧ slot = slot'
  reached : ∀ k, s.sb.Allocated k →
    ∃ n slot, s.sb.InodeAllocated n ∧ ptr s.sb.dev (s.view n) slot = k
  counted : ∀ n, s.sb.InodeAllocated n →
    (s.view n).blockCount.toNat = held (ptr s.sb.dev (s.view n))

theorem Intact.blocksOwned {s : State} (intact : Intact s) : BlocksOwned s := by
  refine ⟨?_, ?_, ?_, ?_⟩
  · intro n allocated slot nonzero
    exact (owned_of_owns intact.owns allocated).inside slot nonzero
  · intro n m allocated allocated' slot slot' nonzero same
    rw [← State.slots_eq allocated] at nonzero same
    rw [← State.slots_eq allocated'] at same
    have equal := intact.owns.distinct (n, slot) (m, slot') nonzero same
    exact ⟨congrArg Prod.fst equal, congrArg Prod.snd equal⟩
  · intro k marked
    obtain ⟨p, named⟩ := intact.full k marked
    have allocated : s.sb.InodeAllocated p.1 := by
      by_contra free
      have null : s.pointers p = 0 := congrFun (State.slots_free free) p.2
      have lower := marked.1
      omega
    refine ⟨p.1, p.2, allocated, ?_⟩
    rw [← State.slots_eq allocated]
    exact named
  · intro n allocated
    have owned := owned_of_owns intact.owns allocated
    have most := owned.held_le 1048722 fun k marked => marked.2.1
    rw [intact.counts n allocated, State.slots_eq allocated, BitVec.toNat_ofNat]
    exact Nat.mod_eq_of_lt (by omega)

/-- As long as no command strands an indirect block, every block has one owner. -/
theorem run_blocks_owned (fsSizeMb : Nat) (start s : Session) (fresh : Fresh fsSizeMb start)
    (run : Run (fun s c _ => ¬ s.Strands c) start s) : BlocksOwned s.fs := by
  have ok := run.ok fresh fun s c s' allows stranded => allows stranded.1
  obtain ⟨_, space⟩ := ok.space
  exact space.intact.blocksOwned

theorem run_blocks_owned_create : ∃ start s, Fresh 1 start ∧
    start.handleCommand (.create [nameA]) = .ok (0, s) ∧ BlocksOwned s.fs := by
  obtain ⟨start, s, fresh, ran, _⟩ := create_run
  have safe := (fresh.started.create (by decide)).1
  exact ⟨start, s, fresh, ran, run_blocks_owned 1 start s fresh (.command .start ran safe)⟩

def digits : Nat → Nat → List Byte
  | 0, n => [BitVec.ofNat 8 (48 + n % 10)]
  | fuel + 1, n =>
      if n < 10 then [BitVec.ofNat 8 (48 + n)]
      else BitVec.ofNat 8 (48 + n % 10) :: digits fuel (n / 10)

theorem digits_spec (fuel n : Nat) : digits fuel n ≠ [] ∧ ∀ b ∈ digits fuel n, b ≠ 0 := by
  have digit : ∀ k < 10, BitVec.ofNat 8 (48 + k) ≠ 0 := by decide
  induction fuel generalizing n with
  | zero =>
      refine ⟨List.cons_ne_nil _ _, fun b member => ?_⟩
      rw [List.mem_singleton.mp member]
      exact digit _ (Nat.mod_lt _ (by decide))
  | succ fuel ih =>
      unfold digits
      split
      · rename_i small
        refine ⟨List.cons_ne_nil _ _, fun b member => ?_⟩
        rw [List.mem_singleton.mp member]
        exact digit n small
      · refine ⟨List.cons_ne_nil _ _, fun b member => ?_⟩
        cases List.mem_cons.mp member with
        | inl same =>
            rw [same]
            exact digit _ (Nat.mod_lt _ (by decide))
        | inr later => exact (ih (n / 10)).2 b later

def number (n : Nat) : Arg where
  bytes := (digits 20 n).reverse
  nonempty := by
    rw [ne_eq, List.reverse_eq_nil_iff]
    exact (digits_spec 20 n).1
  noNul b member := (digits_spec 20 n).2 b (List.mem_reverse.mp member)

/-- Two bytes at the end of one page of double-indirect blocks and the start of the next. -/
def acrossPages (k : Nat) : Command :=
  .write [nameA, number ((2058 + 2048 * (2 * k + 1)) * blockSize - 1),
    ⟨[120, 120], by decide, by decide⟩]

/-- Fill the disk with "a" up to one block, then write behind the direct blocks of "b". -/
def strandingScript : List Command :=
  [.create [nameA], .create [nameB]] ++ (List.range 31).map acrossPages ++
    [.write [nameA, number 0, nameA], .write [nameB, number (10 * blockSize), nameB]]

/-- The file "b" keeps a pointer to a block that has been freed. -/
theorem stranding_run : ∃ start s, Fresh 1 start ∧ Run (fun _ _ _ => True) start s ∧
    ¬ BlocksOwned s.fs := by
  have dangles : Returns (mktestfs 1 >>= testfsStart >>= Session.script strandingScript)
      fun s => s.fs.sb.InodeAllocated 2 ∧ (s.fs.view 2).iIndirect.toNat ≠ 0 ∧
        bitmapIsset s.fs.sb.blockFreemap ((s.fs.view 2).iIndirect.toNat - 146) = false := by
    decide +kernel
  obtain ⟨start, s, fresh, run, allocated, nonzero, clear⟩ := Run.of_script dangles
  refine ⟨start, s, fresh, run, fun owned => ?_⟩
  have marked := (owned.marked 2 allocated .indirect nonzero).2.2
  change bitmapIsset s.fs.sb.blockFreemap ((s.fs.view 2).iIndirect.toNat - 146) = true at marked
  rw [clear] at marked
  cases marked

end Ece344Lab.Fs
