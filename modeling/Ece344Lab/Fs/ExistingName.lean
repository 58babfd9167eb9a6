import Ece344Lab.Fs.DirectoryRuns

set_option autoImplicit false

/- `testfs_add_dirent` with a name that the directory has already. -/
namespace Ece344Lab.Fs

open Outcome Ownership

/-- A live record carries the name. -/
def Carries (name : List Byte) (es : List Dirent) : Prop :=
  ∃ d ∈ es, d.live = true ∧ d.named name = true

instance (name : List Byte) (es : List Dirent) : Decidable (Carries name es) :=
  inferInstanceAs (Decidable (∃ d ∈ es, d.live = true ∧ d.named name = true))

/-- A freed record of the length that the name needs stands before any live record of that name. -/
def FreedFirst (name : List Byte) (es : List Dirent) : Prop :=
  ∃ before d after, es = before ++ d :: after ∧ d.live = false ∧
    d.dNameLen.toNat = name.length + 1 ∧ ∀ e ∈ before, ¬ (e.live = true ∧ e.named name = true)

/-- Where `testfs_add_dirent` stops looking: the place of the new record. -/
def direntPlace (name : List Byte) (es : List Dirent) : Nat :=
  direntsSize (es.takeWhile fun e => !addDirentTest name e)

/-- The new record can be written: an `int` holds its length and its place, and a record at the end
finds its blocks. -/
structure Fits (s : State) (n : Nat) (name : List Byte) (es : List Dirent) : Prop where
  length : 8 + (name.length + 1) < 2 ^ 31
  place : direntPlace name es < 2 ^ 31
  blocks : es.find? (addDirentTest name) = none → s.entryNeed n name es ≤ s.sb.free

/-- A name that is there is refused, and any other is added once. -/
structure AddContract (n : Nat) (name : List Byte) (inodeNr : Nat) (es : List Dirent) (s : State)
    (r : Int × State) : Prop where
  refuses : Carries name es → r = (-eEXIST, s)
  adds : ¬ Carries name es → 0 ≤ r.1 ∧ ∃ es', DirOk r.2 n es' ∧
    (es'.filter Dirent.live).Perm (newDirent name inodeNr :: es.filter Dirent.live)

section Lists

variable {name : List Byte} {es : List Dirent}

theorem Carries.small (carries : Carries name es) (wf : ∀ d ∈ es, d.Wf) :
    8 + (name.length + 1) < 2 ^ 31 := by
  obtain ⟨d, member, _, named⟩ := carries
  have wf := wf d member
  obtain ⟨own, same, noNul⟩ := wf.terminated
  have named' : cString d.name = name := of_decide_eq_true named
  rw [same, cString_terminated noNul] at named'
  have small := wf.small
  rw [same, named', List.length_append] at small
  exact small

theorem addDirentTest_live {d : Dirent} (live : d.live = true) :
    addDirentTest name d = d.named name := if_pos live

theorem addDirentTest_freed {d : Dirent} (freed : d.live = false) (wf : d.Wf)
    (small : name.length + 1 < 2 ^ 31) :
    addDirentTest name d = true ↔ d.dNameLen.toNat = name.length + 1 := by
  have bound := wf.small
  have length := wf.length
  unfold addDirentTest
  rw [freed, if_neg Bool.false_ne_true, decide_eq_true_eq, toInt_of_small _ (by omega),
    toInt32_small _ small]
  exact Int.ofNat_inj

theorem Carries.found (carries : Carries name es) :
    ∃ d, es.find? (addDirentTest name) = some d := by
  obtain ⟨d, member, live, named⟩ := carries
  have passes : addDirentTest name d = true := (addDirentTest_live live).trans named
  exact Option.isSome_iff_exists.mp (List.find?_isSome.mpr ⟨d, member, passes⟩)

theorem Carries.of_found {d : Dirent} (found : es.find? (addDirentTest name) = some d)
    (live : d.live = true) : Carries name es := by
  have passes := List.find?_some found
  rw [addDirentTest_live live] at passes
  exact ⟨d, List.mem_of_find?_eq_some found, live, passes⟩

/-- The search stops at a freed record exactly when one stands first. -/
theorem freedFirst_iff (wf : ∀ d ∈ es, d.Wf) (small : name.length + 1 < 2 ^ 31) {d : Dirent}
    (found : es.find? (addDirentTest name) = some d) : FreedFirst name es ↔ d.live = false := by
  constructor
  · intro first
    obtain ⟨before, freed, after, split, dead, length, apart⟩ := first
    have passes : addDirentTest name freed = true :=
      (addDirentTest_freed dead (wf freed (by simp [split])) small).mpr length
    rw [split, List.find?_append, List.find?_cons_of_pos passes] at found
    cases early : before.find? (addDirentTest name) with
    | none =>
        rw [early] at found
        cases found
        exact dead
    | some e =>
        rw [early] at found
        cases found
        by_contra live
        rw [Bool.not_eq_false] at live
        have named := List.find?_some early
        rw [addDirentTest_live live] at named
        exact apart _ (List.mem_of_find?_eq_some early) ⟨live, named⟩
  · intro dead
    obtain ⟨passes, before, after, split, fails⟩ := List.find?_eq_some_iff_append.mp found
    refine ⟨before, d, after, split, dead,
      (addDirentTest_freed dead (wf d (by simp [split])) small).mp passes, ?_⟩
    intro e member both
    have fails := fails e member
    rw [addDirentTest_live both.1, both.2] at fails
    cases fails

end Lists

section Add

variable {s : State} {n : Nat} {name : List Byte} {inodeNr : Nat} {es : List Dirent}

/-- `testfs_add_dirent`, once its search is known. -/
theorem testfsAddDirent_eq (intact : Intact s) (dir : DirOk s n es) (readable : s.Readable n) :
    testfsAddDirent s n name inodeNr =
      if (es.find? (addDirentTest name)).any Dirent.live then .ok (-eEXIST, s)
      else testfsWriteDirent s n name inodeNr (direntPlace name es) := by
  obtain ⟨inode, _, read, view, _⟩ := intact.table.inode_eq readable.inTable
  have listing := dir.listing
  have stored := readable.stored
  rw [← view] at listing stored
  obtain ⟨r, search, same⟩ := (listing.first (addDirentTest name)).exists_of
    fun e stop => stop.2 stored
  unfold testfsAddDirent
  rw [read, ok_bind, cAssert_pos listing.kind, ok_bind, search, ok_bind, same]
  unfold direntPlace
  cases found : es.find? (addDirentTest name) with
  | none =>
      dsimp only
      rw [takeWhile_of_find_none found, cAssert_pos listing.size.symm, ok_bind, Option.any_none,
        if_neg Bool.false_ne_true]
  | some d =>
      dsimp only
      rw [Option.any_some]

theorem testfsWriteDirent_room (offset : Nat) (room : name.length + 1 < 2 ^ 31) :
    testfsWriteDirent s n name inodeNr offset = s.onInode n fun sb inode =>
      testfsWriteData sb inode (newDirent name inodeNr).bytes (toInt32 offset) := by
  unfold testfsWriteDirent
  rw [toInt32_small _ room, if_neg (by omega), if_neg (not_not.mpr rfl)]
  rfl

theorem direntPlace_le (name : List Byte) (es : List Dirent) :
    direntPlace name es ≤ direntsSize es := by
  have whole := List.takeWhile_append_dropWhile (p := fun e => !addDirentTest name e) (l := es)
  rw [← whole, direntsSize_append, whole]
  exact Nat.le_add_right _ _

/-- A record at a place that is no `int` stops the program. -/
theorem testfsWriteDirent_far (inodeNr : Nat) (room : name.length + 1 < 2 ^ 31) (dir : DirOk s n es)
    (far : 2 ^ 31 ≤ direntPlace name es) :
    ∃ e, testfsWriteDirent s n name inodeNr (direntPlace name es) = .error e := by
  have small := dir.listing.small
  have inside := direntPlace_le name es
  rw [testfsWriteDirent_room _ room]
  exact write_wrapped s n _ _ far (by omega)

theorem testfsWriteDirent_reuse (inodeNr : Nat) (intact : Intact s) (dir : DirOk s n es)
    (readable : s.Readable n) (noNul : ∀ b ∈ name, b ≠ 0) (small : 8 + (name.length + 1) < 2 ^ 31)
    (place : direntPlace name es < 2 ^ 31) {d : Dirent}
    (found : es.find? (addDirentTest name) = some d) (dead : d.live = false) :
    Returns (testfsWriteDirent s n name inodeNr (direntPlace name es)) fun r => 0 ≤ r.1 := by
  obtain ⟨passes, after, split⟩ := find_split found
  have wf := dir.listing.wf d (by rw [split]; simp)
  have room : name.length + 1 < 2 ^ 31 := by omega
  have length : d.name.length = name.length + 1 :=
    wf.length ▸ (addDirentTest_freed dead wf room).mp passes
  rw [testfsWriteDirent_room _ room, toInt32_small _ place]
  rw [split] at dir
  have wrote := dir_overwrite s n _ after d (newDirent name inodeNr) intact dir
    (newDirent_wf small noNul) (length_newDirent.trans length.symm)
  obtain ⟨r, ran, ret, _⟩ := wrote.exists_of fun e stop => stop readable
  exact ⟨r, ran, by omega⟩

theorem testfsWriteDirent_append (intact : Intact s) (dir : DirOk s n es)
    (readable : s.Readable n) (noNul : ∀ b ∈ name, b ≠ 0)
    (small : 8 + (name.length + 1) < 2 ^ 31) (place : direntsSize es < 2 ^ 31)
    (blocks : s.entryNeed n name es ≤ s.sb.free) :
    Returns (testfsWriteDirent s n name inodeNr (direntsSize es)) fun r => 0 ≤ r.1 := by
  have room : name.length + 1 < 2 ^ 31 := by omega
  have length : (newDirent name inodeNr).bytes.length = 8 + (name.length + 1) := by
    rw [Dirent.length_bytes, length_newDirent]
  rw [testfsWriteDirent_room _ room, toInt32_small _ place]
  have wrote :=
    dir_append s n es (newDirent name inodeNr) intact dir (newDirent_wf small noNul) place
  obtain ⟨r, ran, spec⟩ := wrote.exists_of fun e stop => stop readable
  rw [length] at spec
  refine ⟨r, ran, ?_⟩
  rcases spec with ⟨_, strands, _⟩ | ⟨_, ⟨ret, _⟩ | ⟨_, _, starved⟩⟩
  · have upper : direntsSize es / 8192 ≤ lastBlock (direntsSize es) (8 + (name.length + 1)) := by
      unfold lastBlock
      omega
    have short := (Strands.short strands s.sb.dev upper).2
    unfold State.entryNeed State.need at blocks
    omega
  · omega
  · have short := starved.short
    unfold State.entryNeed at blocks
    omega

/-- A new name is added exactly when there is room for it. -/
theorem testfsAddDirent_new_iff (inodeNr : Nat) (intact : Intact s) (dir : DirOk s n es)
    (readable : s.Readable n) (noNul : ∀ b ∈ name, b ≠ 0) (new : ¬ Carries name es) :
    Returns (testfsAddDirent s n name inodeNr) (fun r => 0 ≤ r.1) ↔ Fits s n name es := by
  have written : testfsAddDirent s n name inodeNr =
      testfsWriteDirent s n name inodeNr (direntPlace name es) := by
    rw [testfsAddDirent_eq intact dir readable, if_neg]
    cases found : es.find? (addDirentTest name) with
    | none => exact Bool.false_ne_true
    | some d => exact fun live => new (.of_found found live)
  constructor
  · intro returns
    obtain ⟨r, ran, ret⟩ := returns
    have outcome := (testfsAddDirent_sat s n name inodeNr es intact dir noNul).of_ok ran
    have room : name.length + 1 < 2 ^ 31 := by
      rcases testfsWriteDirent_eq s n name inodeNr (direntPlace name es) with long | stops | short
      · rw [written, long.2] at ran
        cases ran
        have negative : -eNOMEM < 0 := by decide
        exact absurd ret (Int.not_le.mpr negative)
      · rw [written, stops] at ran
        cases ran
      · exact short.1
    have place : direntPlace name es < 2 ^ 31 := by
      by_contra far
      obtain ⟨e, stops⟩ := testfsWriteDirent_far inodeNr room dir (Nat.not_lt.mp far)
      rw [written, stops] at ran
      cases ran
    cases outcome with
    | refused negative _ _ => omega
    | failed negative _ => omega
    | stranded negative _ _ => omega
    | inserted _ es' done =>
        refine ⟨?_, place, fun none => ?_⟩
        · by_contra large
          exact done.small ⟨Nat.not_lt.mp large, room⟩
        · have taken := (done.free none).2
          omega
  · intro fits
    rw [written]
    cases found : es.find? (addDirentTest name) with
    | none =>
        have place := fits.place
        unfold direntPlace at place ⊢
        rw [takeWhile_of_find_none found] at place ⊢
        exact testfsWriteDirent_append intact dir readable noNul fits.length place
          (fits.blocks found)
    | some d =>
        have dead : d.live = false := by
          by_contra live
          rw [Bool.not_eq_false] at live
          exact new (.of_found found live)
        exact testfsWriteDirent_reuse inodeNr intact dir readable noNul fits.length
          fits.place found dead

/-- A name that is there is refused exactly when no freed record stops the search before it. -/
theorem testfsAddDirent_existing_iff (inodeNr : Nat) (intact : Intact s) (dir : DirOk s n es)
    (readable : s.Readable n) (noNul : ∀ b ∈ name, b ≠ 0) (carries : Carries name es) :
    testfsAddDirent s n name inodeNr = .ok (-eEXIST, s) ↔ ¬ FreedFirst name es := by
  have wf := dir.listing.wf
  have small := carries.small wf
  obtain ⟨d, found⟩ := carries.found
  rw [freedFirst_iff wf (by omega) found, testfsAddDirent_eq intact dir readable, found,
    Option.any_some]
  constructor
  · intro refused dead
    rw [dead, if_neg Bool.false_ne_true] at refused
    by_cases place : direntPlace name es < 2 ^ 31
    · obtain ⟨r, ran, ret⟩ := testfsWriteDirent_reuse inodeNr intact dir readable
        noNul small place found dead
      rw [refused] at ran
      cases ran
      have negative : -eEXIST < 0 := by decide
      exact absurd ret (Int.not_le.mpr negative)
    · obtain ⟨e, stops⟩ := testfsWriteDirent_far inodeNr (by omega) dir
        (Nat.not_lt.mp place)
      rw [refused] at stops
      cases stops
  · intro live
    rw [Bool.not_eq_false] at live
    rw [if_pos live]

/-- `testfs_add_dirent` refuses a name that is there unless a freed record of the right length comes
before it, and it adds a new name when there is room for it. -/
theorem testfsAddDirent_contract_iff (s : State) (n : Nat) (name : List Byte) (inodeNr : Nat)
    (es : List Dirent) (intact : Intact s) (dir : DirOk s n es) (readable : s.Readable n)
    (noNul : ∀ b ∈ name, b ≠ 0) (inside : inodeNr < 16384) :
    Returns (testfsAddDirent s n name inodeNr) (AddContract n name inodeNr es s) ↔
      (Carries name es → ¬ FreedFirst name es) ∧ (¬ Carries name es → Fits s n name es) := by
  by_cases carries : Carries name es
  · have refused := testfsAddDirent_existing_iff inodeNr intact dir readable noNul
      carries
    constructor
    · intro returns
      obtain ⟨r, ran, contract⟩ := returns
      rw [contract.refuses carries] at ran
      exact ⟨fun _ => refused.mp ran, fun new => absurd carries new⟩
    · intro condition
      exact ⟨_, refused.mpr (condition.1 carries), fun _ => rfl, fun new => absurd carries new⟩
  · have added := testfsAddDirent_new_iff inodeNr intact dir readable noNul carries
    constructor
    · intro returns
      obtain ⟨r, ran, contract⟩ := returns
      exact ⟨fun there => absurd there carries,
        fun _ => added.mp ⟨r, ran, (contract.adds carries).1⟩⟩
    · intro condition
      obtain ⟨r, ran, ret⟩ := added.mpr (condition.2 carries)
      refine ⟨r, ran, fun there => absurd there carries, fun _ => ⟨ret, ?_⟩⟩
      cases (testfsAddDirent_sat s n name inodeNr es intact dir noNul).of_ok ran with
      | refused negative _ _ => omega
      | failed negative _ => omega
      | stranded negative _ _ => omega
      | inserted _ es' done => exact ⟨es', done.dir, done.place.perm (newDirent_live inside)⟩

end Add

theorem Mapped.readable {s : Session} {g : NameMap} {dirs : Nat → List Dirent}
    (mapped : Mapped s g dirs) {n : Nat} (dir : s.fs.IsDir n) (inTable : 0 < s.fs.refs n) :
    s.fs.Readable n :=
  ⟨inTable, mapped.backed.stored mapped.space.intact.owns dir.1⟩

theorem Listing.carries {sb : SuperBlock} {dir : Dinode} {es : List Dirent}
    (listing : Listing sb dir es) {name : List Byte}
    (found : Returns (testfsDirNameToInodeNr sb dir name) (0 ≤ ·)) : Carries name es := by
  obtain ⟨n, looked, nonneg⟩ := found
  have result := (listing.nameToInodeNr name).of_ok looked
  cases same : es.find? fun d => d.live && d.named name with
  | none =>
      rw [same] at result
      have negative : -eNOENT < 0 := by decide
      rw [result] at nonneg
      exact absurd nonneg (Int.not_le.mpr negative)
  | some d =>
      have both := List.find?_some same
      rw [Bool.and_eq_true] at both
      exact ⟨d, List.mem_of_find?_eq_some same, both⟩

/-- The root directory of a new file system takes "a". -/
theorem testfsAddDirent_contract_iff_root : ∃ start, Fresh 1 start ∧
    Returns (testfsAddDirent start.fs 0 nameA.bytes 1)
      (AddContract 0 nameA.bytes 1 (emptyDir 0 0) start.fs) := by
  obtain ⟨start, s, fresh, ran, unfailed⟩ := create_run
  have mapped := fresh.started.mapped
  have inTable : 0 < start.fs.refs 0 := by
    rw [fresh.started.refs, Function.update_self]
    exact Nat.zero_lt_one
  have new : ¬ Carries nameA.bytes (emptyDir 0 0) := by decide
  have place : direntPlace nameA.bytes (emptyDir 0 0) = 21 := by decide
  have iff := testfsAddDirent_contract_iff start.fs 0 nameA.bytes 1 (emptyDir 0 0)
    mapped.space.intact (mapped.space.listed 0 mapped.space.root)
    (mapped.readable mapped.space.root inTable) nameA.noNul (by decide)
  refine ⟨start, fresh, iff.mpr ⟨fun there => absurd there new, fun _ => ⟨by decide, ?_, ?_⟩⟩⟩
  · rw [place]
    decide
  · intro _
    have free := fresh.started.free
    have one : start.fs.entryNeed 0 nameA.bytes (emptyDir 0 0) ≤ 1 := by
      unfold State.entryNeed
      rw [need_first start.fs 0 _ _ mapped.space.root.1 (by decide) (by decide)]
      split <;> omega
    omega

/-- After "a" and "b" have been created and "a" removed, "b" is taken a second time: its record goes
into the freed one, which is of the same length and comes first. -/
theorem add_existing_name : ∃ start s es, Fresh 1 start ∧
    Run (fun _ _ _ => True) start s ∧ Intact s.fs ∧ DirOk s.fs 0 es ∧ s.fs.Readable 0 ∧
    Carries nameB.bytes es ∧
    ¬ Returns (testfsAddDirent s.fs 0 nameB.bytes 3) (AddContract 0 nameB.bytes 3 es s.fs) := by
  have ends : Returns (mktestfs 1 >>= testfsStart) fun s =>
      Returns (s.handleCommand (.create [nameA])) fun r => r.2.fs.sb.allocFailed = false ∧
      Returns (r.2.handleCommand (.create [nameB])) fun r => r.2.fs.sb.allocFailed = false ∧
      Returns (r.2.handleCommand (.rm [nameA])) fun r => r.2.fs.sb.allocFailed = false ∧
      0 < r.2.fs.refs 0 ∧
      Returns (testfsDirNameToInodeNr r.2.fs.sb (r.2.fs.view 0) nameB.bytes) (0 ≤ ·) ∧
      Returns (testfsAddDirent r.2.fs 0 nameB.bytes 3) fun r => 0 ≤ r.1 := by
    decide +kernel
  obtain ⟨start, fresh, r₁, ran₁, unfailed₁, r₂, ran₂, unfailed₂, r₃, ran₃, unfailed₃,
    inTable, found, added⟩ := ends
  have named : NamedRun start r₃.2 _ :=
    ((NamedRun.start.command ran₁ unfailed₁).command ran₂ unfailed₂).command ran₃ unfailed₃
  obtain ⟨dirs, mapped⟩ := named.mapped (show Fresh 1 start from fresh)
  have root := mapped.space.root
  have dir := mapped.space.listed 0 root
  have readable := mapped.readable root inTable
  have carries := dir.listing.carries found
  refine ⟨start, r₃.2, dirs 0, fresh,
    ((Run.start.command ran₁ trivial).command ran₂ trivial).command
    ran₃ trivial, mapped.space.intact, dir, readable, carries, ?_⟩
  intro returns
  obtain ⟨r, ran, contract⟩ := returns
  obtain ⟨r', ran', nonneg⟩ := added
  rw [contract.refuses carries] at ran
  rw [ran] at ran'
  cases ran'
  have negative : -eEXIST < 0 := by decide
  exact absurd nonneg (Int.not_le.mpr negative)

end Ece344Lab.Fs
