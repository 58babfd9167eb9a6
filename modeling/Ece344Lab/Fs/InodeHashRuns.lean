import Ece344Lab.Fs.InodeHash

set_option autoImplicit false

/- The inode hash table over whole runs, beside the list of its members. -/
namespace Ece344Lab.Fs

open Outcome

namespace InodeHash

/-- The table finds what the list of the members finds. -/
structure Refines (t : InodeHash) (inodes : List Inode) : Prop where
  distinct : (inodes.map Inode.iNr).Nodup
  found : ∃ chains, t.Represents chains ∧
    ∀ nr, (Chained.find number inodeHashfn chains nr).map Prod.snd = inodeHashFind inodes nr

/-- What `inode.c` does with the table, and the same on the list of the members. -/
inductive Run : InodeHash → List Inode → Prop
  | init : Run inodeHashInit []
  | insert {t t' inodes n inode} (before : Run t inodes) (fresh : t.nodes n = none)
      (absent : inodeHashFind inodes inode.iNr = none) (ran : t.insert n inode = .ok t') :
      Run t' (inodeHashInsert inodes inode)
  | remove {t t' inodes fuel nr n} (before : Run t inodes) (found : t.find fuel nr = .ok (some n))
      (ran : t.remove n = .ok t') : Run t' (inodeHashRemove inodes nr)
  | write {t t' inodes fuel n inode} (before : Run t inodes)
      (found : t.find fuel inode.iNr = .ok (some n)) (ran : t.write n inode = .ok t') :
      Run t' (inodeHashUpdate inodes inode)

section Runs

variable {t : InodeHash} {chains : Chained.Chains (Nat × Inode)} {inodes : List Inode}

theorem Represents.found (represents : t.Represents chains) {fuel nr n : Nat}
    (found : t.find fuel nr = .ok (some n)) :
    ∃ inode, (n, inode) ∈ chains (inodeHashfn inode.iNr) ∧ inode.iNr = nr := by
  obtain ⟨⟨n', inode⟩, at', rfl⟩ :=
    Option.map_eq_some_iff.mp ((represents.find nr).2 fuel _ found).symm
  have key : number (n', inode) = nr := Chained.find_key at'
  have member := Chained.find_mem at'
  rw [← key] at member
  exact ⟨inode, member, key⟩

theorem Refines.insert (refines : t.Refines inodes) {n : Nat} {inode : Inode}
    (fresh : t.nodes n = none) (absent : inodeHashFind inodes inode.iNr = none) :
    ∃ t', t.insert n inode = .ok t' ∧ t'.Refines (inodeHashInsert inodes inode) := by
  obtain ⟨chains, represents, agree⟩ := refines.found
  have absent' : Chained.find number inodeHashfn chains inode.iNr = none := by
    have none := agree inode.iNr
    rw [absent] at none
    exact Option.map_eq_none_iff.mp none
  obtain ⟨t', ran, represents'⟩ := represents.insert fresh absent'
  refine ⟨t', ran, Keyed.nodup_cons refines.distinct absent, _, represents', fun nr => ?_⟩
  have front : Chained.find number inodeHashfn (Function.update chains (inodeHashfn inode.iNr)
      ((n, inode) :: chains (inodeHashfn inode.iNr))) nr =
      if number (n, inode) = nr then some (n, inode)
        else Chained.find number inodeHashfn chains nr :=
    Chained.find_cons (n, inode) nr
  have list : inodeHashFind (inodeHashInsert inodes inode) nr =
      if inode.iNr = nr then some inode else inodeHashFind inodes nr :=
        Keyed.lookup_cons inode inodes nr
  refine (congrArg (Option.map Prod.snd) front).trans ?_
  rw [list]
  by_cases own : inode.iNr = nr
  · have own' : number (n, inode) = nr := own
    rw [if_pos own, if_pos own']
    rfl
  · have other : ¬ number (n, inode) = nr := own
    rw [if_neg own, if_neg other]
    exact agree nr

theorem Refines.remove (refines : t.Refines inodes) {fuel nr n : Nat}
    (found : t.find fuel nr = .ok (some n)) :
    ∃ t', t.remove n = .ok t' ∧ t'.Refines (inodeHashRemove inodes nr) := by
  obtain ⟨chains, represents, agree⟩ := refines.found
  obtain ⟨inode, member, rfl⟩ := represents.found found
  obtain ⟨t', ran, represents'⟩ := represents.remove member
  refine ⟨t', ran, Keyed.nodup_remove refines.distinct _, _, represents', fun nr => ?_⟩
  rw [represents.placed.find_remove]
  by_cases own : nr = inode.iNr
  · rw [if_pos own, own]
    exact (Keyed.lookup_remove_same inodes inode.iNr refines.distinct).symm
  · rw [if_neg own, agree nr]
    exact (Keyed.lookup_remove_of_ne inodes inode.iNr nr own).symm

theorem Refines.write (refines : t.Refines inodes) {fuel n : Nat} {inode : Inode}
    (found : t.find fuel inode.iNr = .ok (some n)) :
    ∃ t', t.write n inode = .ok t' ∧ t'.Refines (inodeHashUpdate inodes inode) := by
  obtain ⟨chains, represents, agree⟩ := refines.found
  obtain ⟨old, member, same⟩ := represents.found found
  obtain ⟨t', ran, represents'⟩ := represents.write member same.symm
  refine ⟨t', ran, ?_, _, represents', fun nr => ?_⟩
  · exact Keyed.nodup_replace refines.distinct inode
  · by_cases own : nr = inode.iNr
    · have present : inode.iNr ∈ inodes.map Inode.iNr := by
        by_contra absent
        have none : inodeHashFind inodes inode.iNr = none := Keyed.lookup_eq_none.mpr absent
        have there := represents.placed.find_of_mem member
        have some := agree old.iNr
        have key : number (n, old) = old.iNr := rfl
        rw [key] at there
        rw [there, same, none] at some
        cases some
      have inside : number (n, inode) ∈ (chains (inodeHashfn inode.iNr)).map number := by
        rw [same] at member
        exact List.mem_map.mpr ⟨(n, old), member, same⟩
      have list : inodeHashFind (inodeHashUpdate inodes inode) inode.iNr = some inode :=
        Keyed.lookup_replace_same inodes inode present
      have chain :
          Chained.find number inodeHashfn (fun b => Keyed.replace number (chains b) (n, inode))
            inode.iNr = some (n, inode) :=
        Keyed.lookup_replace_same _ (n, inode) inside
      rw [own, list, chain]
      rfl
    · have list : inodeHashFind (inodeHashUpdate inodes inode) nr = inodeHashFind inodes nr :=
        Keyed.lookup_replace_of_ne inodes inode nr own
      have chain :
          Chained.find number inodeHashfn (fun b => Keyed.replace number (chains b) (n, inode)) nr =
            Chained.find number inodeHashfn chains nr :=
        Keyed.lookup_replace_of_ne _ (n, inode) nr own
      rw [list, chain]
      exact agree nr

theorem Run.refines (run : Run t inodes) : t.Refines inodes := by
  induction run with
  | init => exact ⟨List.nodup_nil, _, represents_init, fun _ => rfl⟩
  | insert before fresh absent ran ih =>
      obtain ⟨t', ran', refines⟩ := ih.insert fresh absent
      rw [ran] at ran'
      exact Except.ok.inj ran' ▸ refines
  | remove before found ran ih =>
      obtain ⟨t', ran', refines⟩ := ih.remove found
      rw [ran] at ran'
      exact Except.ok.inj ran' ▸ refines
  | write before found ran ih =>
      obtain ⟨t', ran', refines⟩ := ih.write found
      rw [ran] at ran'
      exact Except.ok.inj ran' ▸ refines

theorem inodeHashfn_lt (nr : Nat) : inodeHashfn nr < 256 := by
  have small : nr % 2 ^ 32 * 0x9e370001 % 2 ^ 32 < 2 ^ 32 := Nat.mod_lt _ (by decide)
  unfold inodeHashfn hashInt
  rw [Nat.shiftRight_eq_div_pow]
  omega

theorem Refines.allEmpty_iff (refines : t.Refines inodes) : t.allEmpty ↔ inodes = [] := by
  obtain ⟨chains, represents, agree⟩ := refines.found
  constructor
  · intro empty
    rw [List.eq_nil_iff_forall_not_mem]
    intro inode member
    have found : inodeHashFind inodes inode.iNr = some inode :=
      Keyed.lookup_of_mem refines.distinct member
    have head := represents.heads (inodeHashfn inode.iNr)
    rw [empty _ (inodeHashfn_lt _)] at head
    have chain : chains (inodeHashfn inode.iNr) = [] := by
      cases cells : chains (inodeHashfn inode.iNr) with
      | nil => rfl
      | cons c rest =>
          rw [cells] at head
          cases head
    have none := agree inode.iNr
    rw [found] at none
    unfold Chained.find at none
    rw [chain] at none
    cases none
  · rintro rfl b _
    rw [represents.heads]
    cases cells : chains b with
    | nil => rfl
    | cons c rest =>
        have member : c ∈ chains b := cells ▸ List.mem_cons_self
        have found := agree (number c)
        rw [represents.placed.find_of_mem member] at found
        cases found

end Runs

end InodeHash

/-- The inode hash table and the list of its members never differ, and no pointer of it goes wrong.
-/
theorem inode_hash_refines {t : InodeHash} {inodes : List Inode} (run : InodeHash.Run t inodes) :
    (∀ nr, ∃ fuel found, t.find fuel nr = .ok found ∧
        found.bind (fun n => (t.nodes n).map HlistNode.inode) = inodeHashFind inodes nr) ∧
      (∀ n inode, t.nodes n = none → inodeHashFind inodes inode.iNr = none →
        ∃ t', t.insert n inode = .ok t') ∧
      (∀ fuel nr n, t.find fuel nr = .ok (some n) → (∃ t', t.remove n = .ok t') ∧
        ∀ inode : Inode, inode.iNr = nr → ∃ t', t.write n inode = .ok t') ∧
      (t.allEmpty ↔ inodes = []) := by
  have refines := run.refines
  refine ⟨?_, ?_, ?_, refines.allEmpty_iff⟩
  · intro nr
    obtain ⟨chains, represents, agree⟩ := refines.found
    obtain ⟨fuel, ran⟩ := (represents.find nr).1
    refine ⟨fuel, _, ran, ?_⟩
    rw [← agree nr]
    cases at' : Chained.find InodeHash.number inodeHashfn chains nr with
    | none => rfl
    | some c =>
        obtain ⟨node, found, value⟩ := (represents.chain _).found (Chained.find_mem at')
        rw [Option.map_some, Option.map_some, Option.bind_some, found, Option.map_some, value]
  · intro n inode fresh absent
    obtain ⟨t', ran, _⟩ := refines.insert fresh absent
    exact ⟨t', ran⟩
  · intro fuel nr n found
    constructor
    · obtain ⟨t', ran, _⟩ := refines.remove found
      exact ⟨t', ran⟩
    · rintro inode rfl
      obtain ⟨t', ran, _⟩ := refines.write found
      exact ⟨t', ran⟩

def blankInode (nr : Nat) : Inode := ⟨Dinode.ofBytes [], false, nr, 1⟩

/-- Three inodes share a chain, and the one in the middle is removed. -/
theorem inode_hash_refines_three : ∃ t, InodeHash.Run t [blankInode 466, blankInode 0] ∧
    (∀ nr, ∃ fuel found, t.find fuel nr = .ok found ∧
        found.bind (fun n => (t.nodes n).map HlistNode.inode) =
          inodeHashFind [blankInode 466, blankInode 0] nr) ∧
      (∃ t', t.insert 1 (blankInode 233) = .ok t') ∧ ¬ t.allEmpty := by
  have ends : Returns (inodeHashInit.insert 0 (blankInode 0)) fun t => (t.nodes 1).isNone ∧
      Returns (t.insert 1 (blankInode 233)) fun t => (t.nodes 2).isNone ∧
      Returns (t.insert 2 (blankInode 466)) fun t => Returns (t.find 3 233) (· = some 1) ∧
      Returns (t.remove 1) fun t => (t.nodes 1).isNone := by
    decide +kernel
  obtain ⟨t₁, ran₁, fresh₁, t₂, ran₂, fresh₂, t₃, ran₃, ⟨_, found, rfl⟩, t₄, ran₄, fresh₄⟩ := ends
  have run₁ := InodeHash.Run.init.insert rfl rfl ran₁
  have run₂ := run₁.insert (Option.isNone_iff_eq_none.mp fresh₁) (by decide) ran₂
  have run₃ := run₂.insert (Option.isNone_iff_eq_none.mp fresh₂) (by decide) ran₃
  have run : InodeHash.Run t₄ [blankInode 466, blankInode 0] := run₃.remove found ran₄
  obtain ⟨finds, inserts, _, empty⟩ := inode_hash_refines run
  refine ⟨t₄, run, finds, inserts 1 (blankInode 233) (Option.isNone_iff_eq_none.mp fresh₄) rfl, ?_⟩
  exact fun all => absurd (empty.mp all) (List.cons_ne_nil _ _)

end Ece344Lab.Fs
