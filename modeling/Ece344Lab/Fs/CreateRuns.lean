import Ece344Lab.Fs.CreateReturns

set_option autoImplicit false

/- Failed creations in the states that successful commands lead to. -/
namespace Ece344Lab.Fs

open Outcome Ownership

/-- The inodes, their contents, the freemaps and the counters are as before, in memory and on the
device, and inode `p` is not dirty. -/
structure Restored (p : Nat) (s s' : State) : Prop where
  inodeFreemap : s'.sb.inodeFreemap = s.sb.inodeFreemap
  blockFreemap : s'.sb.blockFreemap = s.sb.blockFreemap
  freemapBlocks : ∀ k, 1 ≤ k → k < 18 → s'.sb.dev.block k = s.sb.dev.block k
  usedInodeCount : s'.sb.sb.usedInodeCount = s.sb.sb.usedInodeCount
  usedBlockCount : s'.sb.sb.usedBlockCount = s.sb.sb.usedBlockCount
  superBlock : s'.sb.dev.block 0 = s'.sb.sb.block
  refs : s'.refs = s.refs
  dirty : s'.dirty = s.dirty
  memory : ∀ n, s.sb.InodeAllocated n → s'.view n = s.view n
  disk : ∀ n, s.sb.InodeAllocated n → diskInode s'.sb.dev n = diskInode s.sb.dev n
  contents : ∀ n, s.sb.InodeAllocated n → ∀ q : Nat, (q : Int) < (s.view n).size →
    content s'.sb.dev (s'.view n) q = content s.sb.dev (s.view n) q
  clean : s'.dirty p = false

section Metadata

variable {s s' : State}

/-- The inodes in use are what the inode freemap says. -/
theorem Intact.inodeFreemap_eq (intact : Intact s) (intact' : Intact s')
    (same : ∀ m, s'.sb.InodeAllocated m ↔ s.sb.InodeAllocated m) :
    s'.sb.inodeFreemap = s.sb.inodeFreemap := by
  have bit : ∀ t : State, Intact t → ∀ i, bitmapIsset t.sb.inodeFreemap i = true ↔
      t.sb.InodeAllocated i :=
    fun t intact i => ⟨fun set => ⟨intact.bits i set, set⟩, fun held => held.2⟩
  have words : s'.sb.inodeFreemap.v = s.sb.inodeFreemap.v := by
    apply Bitmap.v_eq_of_isset
    intro i
    rw [Bool.eq_iff_iff, bit s' intact', bit s intact, same]
  have size := intact'.consistent.inodeBits.trans intact.consistent.inodeBits.symm
  exact congrArg₂ Bitmap.mk size words

theorem Intact.blockFreemap_eq (intact : Intact s) (intact' : Intact s')
    (same : s'.pointers = s.pointers) : s'.sb.blockFreemap = s.sb.blockFreemap := by
  have named : ∀ t : State, Intact t → ∀ k, t.sb.Allocated k ↔ k ≠ 0 ∧ ∃ p, t.pointers p = k := by
    intro t intact k
    constructor
    · intro held
      have lower := held.1
      exact ⟨by omega, intact.full k held⟩
    · intro both
      obtain ⟨nonzero, p, equal⟩ := both
      rw [← equal] at nonzero ⊢
      exact intact.owns.inside p nonzero
  have bit : ∀ t : State, Intact t → ∀ i, bitmapIsset t.sb.blockFreemap i = true ↔
      t.sb.Allocated (i + 146) := by
    intro t intact i
    constructor
    · intro set
      have inside : i < 1048576 := by
        by_contra beyond
        have word := intact.consistent.blockTail (i / 8) (by omega)
        rw [bitmapIsset_eq, word] at set
        simp at set
      exact ⟨by omega, by omega, by rw [Nat.add_sub_cancel]; exact set⟩
    · intro held
      have set := held.2.2
      rw [Nat.add_sub_cancel] at set
      exact set
  have words : s'.sb.blockFreemap.v = s.sb.blockFreemap.v := by
    apply Bitmap.v_eq_of_isset
    intro i
    rw [Bool.eq_iff_iff, bit s' intact', bit s intact, named s' intact', named s intact, same]
  have size := intact'.consistent.blockBits.trans intact.consistent.blockBits.symm
  exact congrArg₂ Bitmap.mk size words

theorem GaveUp.pointers_eq {p : Nat} (gaveUp : GaveUp p s s') : s'.pointers = s.pointers := by
  funext at'
  obtain ⟨n, slot⟩ := at'
  change s'.slots n slot = s.slots n slot
  by_cases allocated : s.sb.InodeAllocated n
  · by_cases here : n = p
    · rw [here, gaveUp.slots]
    · rw [(gaveUp.rewritten.others n allocated here).slots]
  · rw [State.slots_free allocated, State.slots_free]
    exact fun after => allocated ((gaveUp.rewritten.inodes n).mp after)

theorem GaveUp.restored {p : Nat} (gaveUp : GaveUp p s s') (intact : Intact s)
    (clean : ∀ m, s.dirty m = false) : Restored p s s' := by
  have step := gaveUp.rewritten
  have intact' := step.intact
  have inodes := intact.inodeFreemap_eq intact' step.inodes
  have blocks := intact.blockFreemap_eq intact' gaveUp.pointers_eq
  have dirty : s'.dirty = s.dirty := by
    funext m
    by_cases here : m = p
    · rw [here, gaveUp.dirty]
    · exact step.dirty m here
  have memory : ∀ n, s.sb.InodeAllocated n → s'.view n = s.view n := by
    intro n allocated
    by_cases here : n = p
    · rw [here, gaveUp.view]
    · exact (step.others n allocated here).view
  refine ⟨inodes, blocks, ?_, ?_, ?_, intact'.consistent.superOnDisk, step.refs, dirty, memory, ?_,
    ?_, ?_⟩
  · intro k lower upper
    have consistent := intact.consistent
    have consistent' := intact'.consistent
    by_cases first : k = 1
    · rw [first, consistent.inodesOnDisk, consistent'.inodesOnDisk, inodes]
    · have page : k - 2 < blockFreemapSize := by
        change k - 2 < 16
        omega
      have same := consistent'.blocksOnDisk (k - 2) page
      rw [blocks, ← consistent.blocksOnDisk (k - 2) page] at same
      have number : 2 + (k - 2) = k := by omega
      rw [number] at same
      exact same
  · rw [intact'.consistent.inodeCount, inodes, intact.consistent.inodeCount]
  · rw [intact'.consistent.blockCount, blocks, intact.consistent.blockCount]
  · intro n allocated
    have clean' : s'.dirty n = false := by rw [dirty, clean]
    rw [← intact'.table.not_dirty clean', ← intact.table.not_dirty (clean n), memory n allocated]
  · intro n allocated q below
    by_cases here : n = p
    · rw [here] at below ⊢
      exact gaveUp.content q below
    · exact (step.others n allocated here).content q
  · rw [dirty, clean]

end Metadata

def Succeeds (s : Session) (c : Command) (s' : Session) : Prop :=
  ∃ ret, s.handleCommand c = .ok (ret, s') ∧ 0 ≤ ret

section Success

variable {s s' : Session} {c : Command} {ret : Int}

theorem Session.Ok.creates (ok : s.Ok) (name : Arg) (type : InodeType)
    (kind : type = .file ∨ type = .dir)
    (ran : s.cmdCreateOrMkdir [name] type = .ok (ret, s')) (nonneg : 0 ≤ ret) :
    s'.Ok ∧ ∀ m, s'.fs.dirty m = true → s.fs.dirty m = true := by
  obtain ⟨dirs, space⟩ := ok.space
  have outcome := testfsCreateFileOrDir_sat s.fs s.curDir type name.bytes _ space.intact
    (space.listed _ ok.dir) name.noNul ok.clean_free
  unfold Session.cmdCreateOrMkdir at ran
  dsimp only at ran
  cases created : testfsCreateFileOrDir s.fs (some s.curDir) type name.bytes with
  | error e =>
      rw [created] at ran
      cases ran
  | ok r =>
      rw [created] at ran outcome
      cases ran
      cases outcome with
      | failed negative _ => omega
      | stranded negative _ _ => omega
      | created _ n es' new =>
          have entered := ok.entered (c := .create [name]) name.noNul space kind new
          exact ⟨entered.ok, fun m flag => (new.dirty m flag).1⟩

/-- A successful command keeps the invariant and leaves no inode dirty. -/
theorem Session.Ok.succeeds (ok : s.Ok) (ran : s.handleCommand c = .ok (ret, s'))
    (nonneg : 0 ≤ ret) : s'.Ok ∧ ∀ m, s'.fs.dirty m = true → s.fs.dirty m = true := by
  have handled := (ok.handleCommand c).of_ok ran
  have looks : (∀ P, ¬ s.Creates P c) → Session.Stepped c s s' →
      s'.Ok ∧ ∀ m, s'.fs.dirty m = true → s.fs.dirty m = true := by
    intro none stepped
    refine ⟨stepped.ok, fun m flag => ?_⟩
    rcases stepped.soils m flag with before | miscounts | starves
    · exact before
    · exact absurd miscounts (none _)
    · exact absurd starves.2 (none _)
  have quiet : (∀ P, ¬ s.Creates P c) → ¬ s.WriteStrands c →
      s'.Ok ∧ ∀ m, s'.fs.dirty m = true → s.fs.dirty m = true := by
    intro none writes
    cases handled with
    | inl stepped => exact looks none stepped
    | inr stranded => exact (stranded.1.elim (none _) writes).elim
  cases c with
  | create args =>
      rcases args with _ | ⟨name, _ | ⟨_, _⟩⟩
      · exact quiet (fun _ none => none) fun none => none
      · exact ok.creates name .file (Or.inl rfl) ran nonneg
      · exact quiet (fun _ none => none) fun none => none
  | mkdir args =>
      rcases args with _ | ⟨name, _ | ⟨_, _⟩⟩
      · exact quiet (fun _ none => none) fun none => none
      · exact ok.creates name .dir (Or.inr rfl) ran nonneg
      · exact quiet (fun _ none => none) fun none => none
  | write args =>
      cases (ok.cmdWrite_returns args).of_ok ran with
      | inl stepped => exact looks (fun _ none => none) stepped
      | inr stranded =>
          have negative := stranded.1
          dsimp only at negative
          omega
  | _ => exact quiet (fun _ none => none) fun none => none

theorem Run.clean {fsSizeMb : Nat} {start s : Session} (run : Run Succeeds start s)
    (fresh : Fresh fsSizeMb start) : s.Ok ∧ ∀ m, s.fs.dirty m = false := by
  have started := fresh.started
  apply run.invariant (I := fun s => s.Ok ∧ ∀ m, s.fs.dirty m = false) ⟨started.ok, started.dirty⟩
  intro s s' c ret before _ allows
  obtain ⟨ret, ran, nonneg⟩ := allows
  obtain ⟨ok, dirty⟩ := before.1.succeeds ran nonneg
  refine ⟨ok, fun m => Bool.eq_false_iff.mpr fun flag => ?_⟩
  have flag' := dirty m flag
  rw [before.2 m] at flag'
  cases flag'

end Success

/-- After successful commands, a creation that fails restores everything unless it has stopped
between the new inode and its record. -/
theorem create_restores_iff (fsSizeMb : Nat) (start s : Session) (fresh : Fresh fsSizeMb start)
    (run : Run Succeeds start s) : ∃ es, Listing s.fs.sb (s.fs.view s.curDir) es ∧
      ∀ (type : InodeType) (name : List Byte) (ret : Int) (fs : State), (∀ b ∈ name, b ≠ 0) →
        testfsCreateFileOrDir s.fs (some s.curDir) type name = .ok (ret, fs) → ret < 0 →
          (Restored s.curDir s.fs fs ↔ ¬ Halfway s.fs s.curDir name type es) := by
  obtain ⟨ok, clean⟩ := run.clean fresh
  obtain ⟨dirs, space⟩ := ok.space
  have dir := space.listed _ ok.dir
  refine ⟨dirs s.curDir, dir.listing, fun type name ret fs noNul ran negative => ?_⟩
  have fails := (testfsCreateFileOrDir_fails s.fs s.curDir type name _ space.intact dir noNul
    fun m _ => clean m).of_ok ran negative
  cases fails with
  | inl gaveUp =>
      exact ⟨fun _ => gaveUp.2, fun _ => gaveUp.1.restored space.intact clean⟩
  | inr soiled =>
      constructor
      · intro restored
        have flag := soiled.1
        dsimp only at flag
        rw [restored.clean] at flag
        cases flag
      · exact fun other => absurd soiled.2 other

/-- After "a" has been created, a second creation of "a" restores everything. -/
theorem create_restores_iff_existing : ∃ start s, Fresh 1 start ∧ Run Succeeds start s ∧
    Returns (testfsCreateFileOrDir s.fs (some s.curDir) .file nameA.bytes) fun r =>
      r.1 = -eEXIST ∧ Restored s.curDir s.fs r.2 := by
  have ends : Returns (mktestfs 1 >>= testfsStart) fun s =>
      Returns (s.handleCommand (.create [nameA])) fun r => 0 ≤ r.1 ∧
      Returns (testfsDirNameToInodeNr r.2.fs.sb (r.2.fs.view r.2.curDir) nameA.bytes) (0 ≤ ·) ∧
      Returns (testfsCreateFileOrDir r.2.fs (some r.2.curDir) .file nameA.bytes)
        fun again => again.1 = -eEXIST := by
    decide +kernel
  obtain ⟨start, fresh, r, ran, nonneg, found, again, refused, ret⟩ := ends
  have run : Run Succeeds start r.2 := .command .start ran ⟨r.1, ran, nonneg⟩
  obtain ⟨es, listing, restores⟩ := create_restores_iff 1 start r.2 fresh run
  refine ⟨start, r.2, fresh, run, again, refused, ret, ?_⟩
  refine (restores .file nameA.bytes again.1 again.2 nameA.noNul refused ?_).mpr ?_
  · rw [ret]
    decide
  · intro halfway
    obtain ⟨d, same⟩ := (listing.carries found).found
    rw [halfway.entry.absent] at same
    cases same

/-- The blocks behind the direct ones are missing when the index block is. -/
theorem le_missing (dev : Device) (d : Dinode) (first last k : Nat) (null : d.iIndirect = 0)
    (before : first ≤ 10) (small : k ≤ 2048) (reaches : k + 9 ≤ last) :
    k ≤ missing dev d first last := by
  have distinct : Set.InjOn (fun i => Slot.entry (Fin.ofNat 2048 i)) (Finset.range k) := by
    intro i below j below' same
    rw [Finset.mem_coe, Finset.mem_range] at below below'
    have equal := congrArg Fin.val (Slot.entry.inj same)
    rwa [Fin.val_ofNat, Fin.val_ofNat, Nat.mod_eq_of_lt (by omega), Nat.mod_eq_of_lt (by omega)]
      at equal
  rw [← Finset.card_range k]
  apply Finset.card_le_card_of_injOn _ _ distinct
  intro i below
  have below := Finset.mem_range.mp below
  have lower : first ≤ i + 10 := by omega
  have member : Slot.entry (Fin.ofNat 2048 i) ∈ path (leaf (i + 10)) := by
    have shape : leaf (i + 10) = .entry (Fin.ofNat 2048 i) := by
      rw [leaf_entry _ (by omega) (by omega)]
      congr 1
      exact Fin.ext (Nat.mod_eq_of_lt (by omega)).symm
    rw [shape]
    exact mem_path _
  refine Finset.mem_filter.mpr ⟨(mem_spanSlots _ _ _).mpr ?_, ?_⟩
  · exact Span.block lower (by omega) (by omega) member
  · by_contra nonzero
    have index := ptr_path_ne_zero nonzero (t := .indirect) (by simp [path])
    exact index ((toNat_eq_zero _).mpr null)

/-- A name of 2 MiB takes more blocks than a file system of 1 MiB has: the file is not there, and
the blocks that were left are in the root directory, whose inode is dirty. -/
theorem create_keeps_blocks : ∃ start s name, Fresh 1 start ∧ Run Succeeds start s ∧ name ≠ [] ∧
    (∀ b ∈ name, b ≠ 0) ∧ Returns (testfsCreateFileOrDir s.fs (some s.curDir) .file name) fun r =>
      r.1 < 0 ∧ ¬ Restored s.curDir s.fs r.2 := by
  have made : Returns (mktestfs 1 >>= testfsStart) fun s => (s.fs.view 0).iIndirect = 0 := by
    decide +kernel
  obtain ⟨start, fresh, null⟩ := made
  have started := (show Fresh 1 start from fresh).started
  have free : start.fs.sb.free = 127 := Nat.succ.inj started.free
  obtain ⟨name, same⟩ : ∃ name : List Byte, name = List.replicate (2 ^ 21) 97 := ⟨_, rfl⟩
  have length : name.length = 2 ^ 21 := by rw [same, List.length_replicate]
  have noNul : ∀ b ∈ name, b ≠ 0 := by
    intro b member
    rw [same] at member
    rw [List.eq_of_mem_replicate member]
    decide
  have nonempty : name ≠ [] := List.ne_nil_of_length_pos (by omega)
  have need : 128 ≤ start.fs.entryNeed 0 name (emptyDir 0 0) := by
    have size : direntsSize (emptyDir 0 0) = 21 := by decide
    apply le_missing _ _ _ _ _ null
    · rw [size]
      decide
    · decide
    · rw [size]
      unfold lastBlock
      omega
  obtain ⟨r, ran, negative, soiled, _⟩ :=
    started.create_soils (by decide) (by omega) (by omega) noNul
    fun enough => by omega
  refine ⟨start, start, name, fresh, .start, nonempty, noNul, ?_⟩
  rw [started.curDir]
  refine ⟨r, ran, negative, fun restored => ?_⟩
  rw [restored.clean] at soiled
  cases soiled

end Ece344Lab.Fs
