import Ece344Lab.Fs.DirState

set_option autoImplicit false

/- `testfs_add_dirent` and `testfs_remove_dirent` on directories. -/
namespace Ece344Lab.Fs

open Outcome Ownership

/-- The entry that `testfs_write_dirent` makes. -/
def newDirent (name : List Byte) (inodeNr : Nat) : Dirent :=
  ⟨BitVec.ofNat 32 (name.length + 1), BitVec.ofNat 32 inodeNr, name ++ [0]⟩

section NewDirent

variable {name : List Byte} {inodeNr : Nat}

theorem length_newDirent : (newDirent name inodeNr).name.length = name.length + 1 := by
  simp [newDirent]

theorem newDirent_wf (small : 8 + (name.length + 1) < 2 ^ 31) (noNul : ∀ b ∈ name, b ≠ 0) :
    (newDirent name inodeNr).Wf := by
  refine ⟨?_, ?_, name, rfl, noNul⟩
  · rw [length_newDirent]
    simp only [newDirent, BitVec.toNat_ofNat]
    omega
  · rw [length_newDirent]
    exact small

theorem newDirent_number (inside : inodeNr < 16384) :
    (newDirent name inodeNr).dInodeNr.toInt = inodeNr := by
  have value : (BitVec.ofNat 32 inodeNr).toNat = inodeNr := by
    rw [BitVec.toNat_ofNat]
    omega
  change (BitVec.ofNat 32 inodeNr).toInt = inodeNr
  rw [toInt_of_small _ (by omega), value]

theorem newDirent_live (inside : inodeNr < 16384) : (newDirent name inodeNr).live = true := by
  unfold Dirent.live
  rw [newDirent_number inside]
  simp

theorem cString_terminated (noNul : ∀ b ∈ name, b ≠ 0) : cString (name ++ [0]) = name := by
  unfold cString
  rw [List.takeWhile_append_of_pos]
  · simp
  · intro b member
    exact decide_eq_true (noNul b member)

theorem newDirent_named (noNul : ∀ b ∈ name, b ≠ 0) (other : List Byte) :
    (newDirent name inodeNr).named other = true ↔ name = other := by
  unfold Dirent.named newDirent
  rw [cString_terminated noNul]
  exact decide_eq_true_iff

end NewDirent

/-- A name whose entry is counted wrongly: `sizeof(struct dirent) + len` does not fit an `int`. -/
def Giant (name : List Byte) : Prop :=
  2 ^ 31 ≤ 8 + (name.length + 1) ∧ name.length + 1 < 2 ^ 31

instance (name : List Byte) : Decidable (Giant name) := by
  unfold Giant
  infer_instance

/-- A new entry for directory `n` would strand an indirect block when `free` blocks are left. -/
structure EntryStrands (s : State) (free n : Nat) (name : List Byte) (es : List Dirent) : Prop where
  room : name.length + 1 < 2 ^ 31
  absent : es.find? (addDirentTest name) = none
  strands : StrandsAt s free n (direntsSize es) (8 + (name.length + 1))

def State.entryNeed (s : State) (n : Nat) (name : List Byte) (es : List Dirent) : Nat :=
  s.need n (direntsSize es) (8 + (name.length + 1))

/-- A freed entry of the same length is replaced by `d`, or `d` comes to the end. -/
inductive InsertedAt (d : Dirent) : List Dirent → List Dirent → Prop
  | append : InsertedAt d [] [d]
  | reuse (old : Dirent) (after : List Dirent) (freed : old.live = false)
      (length : d.name.length = old.name.length) : InsertedAt d (old :: after) (d :: after)
  | later (e : Dirent) {es es' : List Dirent} (rest : InsertedAt d es es') :
      InsertedAt d (e :: es) (e :: es')

theorem InsertedAt.behind {d : Dirent} {es es' : List Dirent} (before : List Dirent)
    (rest : InsertedAt d es es') : InsertedAt d (before ++ es) (before ++ es') := by
  induction before with
  | nil => exact rest
  | cons e before ih => exact .later e ih

theorem InsertedAt.perm {d : Dirent} {es es' : List Dirent} (step : InsertedAt d es es')
    (live : d.live = true) : (es'.filter Dirent.live).Perm (d :: es.filter Dirent.live) := by
  induction step with
  | append => simp [live]
  | reuse old after freed _ => simp [live, freed]
  | later e rest ih =>
      by_cases alive : e.live = true
      · rw [List.filter_cons_of_pos alive, List.filter_cons_of_pos alive]
        exact (List.Perm.cons e ih).trans (List.Perm.swap d e _)
      · rw [List.filter_cons_of_neg alive, List.filter_cons_of_neg alive]
        exact ih

theorem InsertedAt.mem {d e : Dirent} {es es' : List Dirent} (step : InsertedAt d es es')
    (member : e ∈ es') : e ∈ es ∨ e = d := by
  induction step with
  | append => exact Or.inr (List.mem_singleton.mp member)
  | reuse old after freed _ =>
      cases List.mem_cons.mp member with
      | inl same => exact Or.inr same
      | inr later => exact Or.inl (List.mem_cons_of_mem _ later)
  | later first rest ih =>
      cases List.mem_cons.mp member with
      | inl same => exact Or.inl (same ▸ List.mem_cons_self)
      | inr later =>
          cases ih later with
          | inl before => exact Or.inl (List.mem_cons_of_mem _ before)
          | inr same => exact Or.inr same

/-- A freed entry has been replaced, or one has been added at the end. -/
structure Inserted (n : Nat) (name : List Byte) (inodeNr : Nat) (es : List Dirent) (s s' : State)
    (es' : List Dirent) : Prop where
  rewritten : Rewritten n s s'
  dir : DirOk s' n es'
  place : InsertedAt (newDirent name inodeNr) es es'
  dirty : s'.dirty n = true
  ghost : s'.sb.allocFailed = s.sb.allocFailed
  small : ¬ Giant name
  free : es.find? (addDirentTest name) = none →
    es' = es ++ [newDirent name inodeNr] ∧ s'.sb.free + s.entryNeed n name es = s.sb.free

/-- The entries are as they were, and the disk is full or the name is too long. -/
structure NotInserted (n : Nat) (name : List Byte) (es : List Dirent) (s s' : State) : Prop where
  rewritten : Rewritten n s s'
  dir : DirOk s' n es
  absent : es.find? (addDirentTest name) = none
  room : name.length + 1 < 2 ^ 31
  reason : Starved n (direntsSize es) (8 + (name.length + 1)) s s' ∨
    Giant name ∧ s.entryNeed n name es ≤ s.sb.free ∧ s'.sb.allocFailed = s.sb.allocFailed

/-- How `testfs_add_dirent` can return. -/
inductive AddOutcome (n : Nat) (name : List Byte) (inodeNr : Nat) (es : List Dirent) (s : State)
    (r : Int × State) : Prop
  | refused (ret : r.1 < 0) (same : r.2 = s)
      (reason : 2 ^ 31 ≤ name.length + 1 ∨ ∃ d ∈ es, d.live = true ∧ d.named name = true)
  | inserted (ret : 0 ≤ r.1) (es' : List Dirent)
      (done : Inserted n name inodeNr es s r.2 es')
  | failed (ret : r.1 < 0) (failed : NotInserted n name es s r.2)
  | stranded (ret : r.1 < 0) (strands : EntryStrands s s.sb.free n name es)
      (ghost : r.2.sb.allocFailed = true)

section Write

variable {s : State} {n : Nat} {name : List Byte} {inodeNr : Nat} {es : List Dirent}

theorem testfsWriteDirent_eq (s : State) (n : Nat) (name : List Byte) (inodeNr offset : Nat) :
    2 ^ 31 ≤ name.length + 1 ∧ testfsWriteDirent s n name inodeNr offset = .ok (-eNOMEM, s) ∨
    testfsWriteDirent s n name inodeNr offset = .error .undefined ∨
    name.length + 1 < 2 ^ 31 ∧
      testfsWriteDirent s n name inodeNr offset = s.onInode n fun sb inode =>
        testfsWriteData sb inode (newDirent name inodeNr).bytes (toInt32 offset) := by
  unfold testfsWriteDirent
  by_cases wrapped : toInt32 (name.length + 1 : Nat) < -8
  · refine Or.inl ⟨?_, if_pos wrapped⟩
    by_contra small
    have exact' := toInt32_small (name.length + 1) (Nat.not_le.mp small)
    omega
  · by_cases same : toInt32 (name.length + 1 : Nat) = (name.length + 1 : Nat)
    · have upper := Int.bmod_lt (x := ((name.length + 1 : Nat) : Int)) (m := 2 ^ 32) (by decide)
      have below : name.length + 1 < 2 ^ 31 := by
        change toInt32 _ < _ at upper
        rw [same] at upper
        omega
      refine Or.inr (Or.inr ⟨below, ?_⟩)
      rw [if_neg wrapped, if_neg (not_not.mpr same)]
      rfl
    · refine Or.inr (Or.inl ?_)
      rw [if_neg wrapped, if_pos same]

theorem testfsWriteDirent_sat (s : State) (n : Nat) (name : List Byte) (inodeNr offset : Nat)
    {Q : Int × State → Prop} (refused : 2 ^ 31 ≤ name.length + 1 → Q (-eNOMEM, s))
    (write : name.length + 1 < 2 ^ 31 →
      Sat (s.onInode n fun sb inode =>
        testfsWriteData sb inode (newDirent name inodeNr).bytes (toInt32 offset)) Q
        fun _ => True) :
    Sat (testfsWriteDirent s n name inodeNr offset) Q (fun _ => True) := by
  cases testfsWriteDirent_eq s n name inodeNr offset with
  | inl long =>
      rw [long.2]
      exact refused long.1
  | inr other =>
      cases other with
      | inl same =>
          rw [same]
          trivial
      | inr written =>
          rw [written.2]
          exact write written.1

theorem writeData_negative (sb : SuperBlock) (inode : Inode) (buf : List Byte) (start : Int)
    (negative : start < 0) : ∃ e, testfsWriteData sb inode buf start = .error e := by
  unfold testfsWriteData
  by_cases far : start ≤ -(blockSize : Int)
  · rw [if_pos far]
    exact ⟨_, rfl⟩
  · rw [if_neg far, if_pos negative]
    exact ⟨_, rfl⟩

/-- An `int` offset that has wrapped around does not come back from the write. -/
theorem write_wrapped (s : State) (n : Nat) (buf : List Byte) (offset : Nat)
    (lower : 2 ^ 31 ≤ offset) (upper : offset < 2 ^ 32) :
    ∃ e, (s.onInode n fun sb inode => testfsWriteData sb inode buf (toInt32 offset)) =
      .error e := by
  have shifted : toInt32 offset = Int.bmod ((offset : Int) - 4294967296) 4294967296 :=
    (Int.sub_bmod_right (offset : Int) 4294967296).symm
  have value : toInt32 offset = (offset : Int) - 4294967296 := by
    rw [shifted]
    apply Int.bmod_eq_of_le <;> omega
  unfold State.onInode
  cases s.inode n with
  | error e => exact ⟨e, rfl⟩
  | ok inode =>
      obtain ⟨e, stopped⟩ := writeData_negative s.sb inode buf (toInt32 offset)
        (by rw [value]; omega)
      rw [ok_bind]
      dsimp only
      rw [stopped]
      exact ⟨e, rfl⟩

/-- Where a search that succeeds stops. -/
theorem find_split {es : List Dirent} {test : Dirent → Bool} {d : Dirent}
    (found : es.find? test = some d) : test d = true ∧ ∃ after,
      es = (es.takeWhile fun e => !test e) ++ d :: after := by
  obtain ⟨passes, before, after, split, fails⟩ := List.find?_eq_some_iff_append.mp found
  refine ⟨passes, after, ?_⟩
  have prefix' : es.takeWhile (fun e => !test e) = before := by
    rw [split, List.takeWhile_append_of_pos fails, List.takeWhile_cons, passes]
    simp
  rw [prefix']
  exact split

theorem takeWhile_of_find_none {es : List Dirent} {test : Dirent → Bool}
    (none : es.find? test = none) : (es.takeWhile fun e => !test e) = es := by
  have whole : ((es ++ []).takeWhile fun e => !test e) = es ++ [].takeWhile fun e => !test e := by
    apply List.takeWhile_append_of_pos
    intro e member
    simpa using List.find?_eq_none.mp none e member
  simpa using whole

theorem writeDirent_end (intact : Intact s) (dir : DirOk s n es) (noNul : ∀ b ∈ name, b ≠ 0)
    (absent : es.find? (addDirentTest name) = none) :
    Sat (testfsWriteDirent s n name inodeNr (direntsSize es))
      (AddOutcome n name inodeNr es s) (fun _ => True) := by
  have length : (newDirent name inodeNr).bytes.length = 8 + (name.length + 1) := by
    rw [Dirent.length_bytes, length_newDirent]
  have negative : -eNOMEM < 0 := by decide
  refine testfsWriteDirent_sat s n name inodeNr _ (fun long => ?_) fun room => ?_
  · exact .refused negative rfl (Or.inl long)
  · have small := dir.listing.small
    by_cases start : direntsSize es < 2 ^ 31
    · have stranded : ∀ r : Int × State, r.1 < 0 ∧ StrandedAt n (direntsSize es)
          (newDirent name inodeNr).bytes.length s r.2 → AddOutcome n name inodeNr es s r := by
        intro r spec
        obtain ⟨ret, strands, ghost⟩ := spec
        rw [length] at strands
        exact .stranded ret ⟨room, absent, strands⟩ ghost
      rw [toInt32_small _ start]
      by_cases giant : Giant name
      · refine (dir_append_giant s n es _ intact dir (by rw [length]; exact giant.1)
          (by rw [length]; omega) start).mono ?_ fun _ _ => trivial
        intro r spec
        cases spec with
        | inl strands => exact stranded r strands
        | inr written =>
            obtain ⟨rewritten, ret, dir', reason⟩ := written
            rw [length] at reason
            refine .failed ret ⟨rewritten, dir', absent, room, ?_⟩
            cases reason with
            | inl enough => exact Or.inr ⟨giant, enough⟩
            | inr starved => exact Or.inl starved
      · have wf : (newDirent name inodeNr).Wf := by
          apply newDirent_wf _ noNul
          by_contra large
          exact giant ⟨by omega, room⟩
        refine (dir_append s n es _ intact dir wf start).mono ?_ fun _ _ => trivial
        intro r spec
        cases spec with
        | inl strands => exact stranded r strands
        | inr written =>
            obtain ⟨rewritten, outcome⟩ := written
            rw [length] at outcome
            cases outcome with
            | inl done =>
                obtain ⟨ret, dir', dirty, free, ghost⟩ := done
                refine .inserted (by omega) _ ⟨rewritten, dir', ?_, dirty, ghost, giant,
                  fun _ => ⟨rfl, free⟩⟩
                have place := InsertedAt.append.behind (d := newDirent name inodeNr) es
                rw [List.append_nil] at place
                exact place
            | inr failed =>
                exact .failed failed.1 ⟨rewritten, failed.2.1, absent, room, Or.inl failed.2.2⟩
    · obtain ⟨e, stopped⟩ := write_wrapped s n (newDirent name inodeNr).bytes (direntsSize es)
        (by omega) small
      rw [stopped]
      trivial

theorem testfsAddDirent_sat (s : State) (n : Nat) (name : List Byte) (inodeNr : Nat)
    (es : List Dirent) (intact : Intact s) (dir : DirOk s n es) (noNul : ∀ b ∈ name, b ≠ 0) :
    Sat (testfsAddDirent s n name inodeNr) (AddOutcome n name inodeNr es s)
      (fun _ => True) := by
  unfold testfsAddDirent
  cases read : s.inode n with
  | error e => trivial
  | ok inode =>
      obtain ⟨_, view, _⟩ := intact.table.of_read read
      have listing := dir.listing
      rw [← view] at listing
      rw [ok_bind, cAssert_pos listing.kind, ok_bind]
      apply Sat.bind (listing.first (addDirentTest name)).anyStop
      intro r same
      rw [same]
      cases found : es.find? (addDirentTest name) with
      | none =>
          dsimp only
          rw [takeWhile_of_find_none found, cAssert_pos listing.size.symm, ok_bind]
          exact writeDirent_end intact dir noNul found
      | some d =>
          dsimp only
          obtain ⟨passes, after, split⟩ := find_split found
          by_cases live : d.live = true
          · have negative : -eEXIST < 0 := by decide
            unfold addDirentTest at passes
            rw [if_pos live] at passes
            rw [if_pos live]
            exact .refused negative rfl (Or.inr ⟨d, by rw [split]; simp, live, passes⟩)
          · rw [if_neg live]
            have freed : d.live = false := Bool.eq_false_iff.mpr live
            let before := es.takeWhile fun e => !addDirentTest name e
            have negative : -eNOMEM < 0 := by decide
            refine testfsWriteDirent_sat s n name inodeNr _ (fun long => ?_) fun room => ?_
            · exact .refused negative rfl (Or.inl long)
            · have small := listing.small
              have whole : direntsSize es = direntsSize before + direntsSize (d :: after) := by
                rw [← direntsSize_append]
                exact congrArg direntsSize split
              by_cases start : direntsSize before < 2 ^ 31
              · have wf := listing.wf d (by rw [split]; simp)
                have bound := wf.small
                have length : d.name.length = name.length + 1 := by
                  have value := wf.length
                  unfold addDirentTest at passes
                  rw [if_neg live, decide_eq_true_eq, toInt_of_small _ (by omega),
                    toInt32_small _ room] at passes
                  omega
                have wf' : (newDirent name inodeNr).Wf := newDirent_wf (by omega) noNul
                have dir' : DirOk s n (before ++ d :: after) := split ▸ dir
                rw [toInt32_small _ start]
                refine (dir_overwrite s n before after d (newDirent name inodeNr) intact dir' wf'
                  (by rw [length_newDirent, length])).mono ?_ fun _ _ => trivial
                intro r spec
                obtain ⟨ret, rewritten, dir'', dirty, free, ghost⟩ := spec
                refine .inserted (by omega) _ ⟨rewritten, dir'', ?_, dirty, ghost, ?_, ?_⟩
                · have place := (InsertedAt.reuse (d := newDirent name inodeNr) d after freed
                    (by rw [length_newDirent, length])).behind before
                  rw [← split] at place
                  exact place
                · intro giant
                  have lower := giant.1
                  omega
                · intro none
                  rw [found] at none
                  cases none
              · obtain ⟨e, stopped⟩ := write_wrapped s n (newDirent name inodeNr).bytes
                  (direntsSize before) (by omega) (by omega)
                rw [stopped]
                trivial

end Write

end Ece344Lab.Fs
