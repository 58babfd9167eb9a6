import Ece344Lab.Fs.Dir
import Ece344Lab.Fs.ReadData

set_option autoImplicit false

/- Directories as lists of entries, and the searches in them. -/
namespace Ece344Lab.Fs

open Outcome Ownership

/-- The entries that `testfs_write_dirent` makes: the length is that of the name with its NUL, and
the whole entry is counted by an `int`. -/
structure Dirent.Wf (d : Dirent) : Prop where
  length : d.name.length = d.dNameLen.toNat
  small : 8 + d.name.length < 2 ^ 31
  terminated : ∃ name : List Byte, d.name = name ++ [0] ∧ ∀ b ∈ name, b ≠ 0

@[simp] theorem Dirent.length_bytes (d : Dirent) : d.bytes.length = 8 + d.name.length := by
  simp only [Dirent.bytes, List.length_append, Bytes.length_le32]

def direntsBytes (es : List Dirent) : List Byte := es.flatMap Dirent.bytes

@[simp] theorem direntsBytes_append (es es' : List Dirent) :
    direntsBytes (es ++ es') = direntsBytes es ++ direntsBytes es' :=
  List.flatMap_append

@[simp] theorem direntsBytes_cons (d : Dirent) (es : List Dirent) :
    direntsBytes (d :: es) = d.bytes ++ direntsBytes es :=
  List.flatMap_cons

@[simp] theorem direntsBytes_nil : direntsBytes [] = [] := rfl

/-- Where the entries after `es` start. -/
def direntsSize (es : List Dirent) : Nat := (direntsBytes es).length

theorem direntsSize_append (es es' : List Dirent) :
    direntsSize (es ++ es') = direntsSize es + direntsSize es' := by
  simp [direntsSize]

theorem direntsSize_cons (d : Dirent) (es : List Dirent) :
    direntsSize (d :: es) = 8 + d.name.length + direntsSize es := by
  simp [direntsSize]

/-- A directory inode whose data are the entries `es`. -/
structure Listing (sb : SuperBlock) (dir : Dinode) (es : List Dirent) : Prop where
  owned : Owned sb dir
  kind : dir.iType = InodeType.dir.code
  size : dir.size = direntsSize es
  small : direntsSize es < 2 ^ 32
  wf : ∀ d ∈ es, d.Wf
  bytes : fileBytes sb.dev dir 0 (direntsSize es) = direntsBytes es

theorem fileBytes_middle {dev : Device} {d : Dinode} (a b c : List Byte)
    (bytes : fileBytes dev d 0 (a ++ b ++ c).length = a ++ b ++ c) :
    fileBytes dev d a.length b.length = b := by
  rw [List.length_append, List.length_append, fileBytes_add, fileBytes_add, Nat.zero_add] at bytes
  have front := List.append_inj_left bytes (by simp)
  exact List.append_inj_right front (by simp)

namespace Listing

variable {sb : SuperBlock} {dir : Dinode} {es : List Dirent}

theorem read (listing : Listing sb dir es) (a b c : List Byte)
    (split : direntsBytes es = a ++ b ++ c) :
    Sat (testfsReadData sb dir a.length b.length) (fun r => r = ⟨toInt32 b.length, b⟩)
      (fun e => e = .exit ∧ ¬ Stored sb.dev dir) := by
  have small := listing.small
  have whole : direntsSize es = a.length + b.length + c.length := by
    rw [direntsSize, split, List.length_append, List.length_append]
  have bytes := listing.bytes
  rw [direntsSize, split] at bytes
  have size : ((a.length + b.length : Nat) : Int) ≤ dir.size := by
    rw [listing.size, whole]
    omega
  have room : a.length / 8192 < 4196362 := by omega
  have fits : a.length + b.length ≤ 4196362 * 8192 := by omega
  apply (testfsReadData_sat sb dir a.length b.length listing.owned size room fits).weaken
  intro r same
  rw [same, fileBytes_middle a b c bytes]

/-- `testfs_next_dirent` at the start of an entry. -/
theorem next (listing : Listing sb dir es) (before after : List Dirent) (d : Dirent)
    (split : es = before ++ d :: after) :
    Sat (testfsNextDirent sb dir (direntsSize before))
      (fun r => r = some (d, direntsSize (before ++ [d])))
      (fun e => e = .exit ∧ ¬ Stored sb.dev dir) := by
  have wf := listing.wf d (by simp [split])
  have length := wf.length
  have bound := wf.small
  have whole : direntsSize es = direntsSize before + (8 + d.name.length) + direntsSize after := by
    rw [split, direntsSize_append, direntsSize_cons]
    omega
  have inside : ¬ dir.size ≤ (direntsSize before : Nat) := by
    rw [listing.size, whole]
    omega
  have positive : 0 < d.name.length := by
    obtain ⟨name, same, _⟩ := wf.terminated
    simp [same]
  have value : d.dNameLen.toInt = d.dNameLen.toNat := toInt_of_small _ (by omega)
  have header : direntsBytes es = direntsBytes before ++
      (Bytes.le32 d.dNameLen ++ Bytes.le32 d.dInodeNr) ++ (d.name ++ direntsBytes after) := by
    simp [split, Dirent.bytes]
  have name : direntsBytes es = (direntsBytes before ++
      (Bytes.le32 d.dNameLen ++ Bytes.le32 d.dInodeNr)) ++ d.name ++ direntsBytes after := by
    simp [split, Dirent.bytes]
  have eight : (Bytes.le32 d.dNameLen ++ Bytes.le32 d.dInodeNr).length = 8 := by
    simp [Bytes.length_le32]
  have read := listing.read _ _ _ header
  have read' := listing.read _ _ _ name
  rw [eight] at read
  rw [List.length_append, eight, length] at read'
  unfold testfsNextDirent
  rw [cAssert_pos listing.kind, ok_bind, if_neg inside]
  apply Sat.bind read
  intro r same
  have nonneg : ¬ toInt32 (8 : Nat) < 0 := by decide
  have first : Bytes.of32 (Bytes.le32 d.dNameLen ++ Bytes.le32 d.dInodeNr) = d.dNameLen :=
    Bytes.of32_append _ _
  have second : Bytes.of32 ((Bytes.le32 d.dNameLen ++ Bytes.le32 d.dInodeNr).drop 4) =
      d.dInodeNr := by
    rw [List.drop_left' (Bytes.length_le32 _), Bytes.of32_le32]
  rw [same]
  simp only [nonneg, ↓reduceIte, eight, Nat.lt_irrefl, first, second]
  rw [cAssert_pos (by omega), ok_bind]
  apply Sat.bind read'
  intro r' same'
  have nonneg' : ¬ toInt32 (d.dNameLen.toNat : Nat) < 0 := by
    have exact : toInt32 (d.dNameLen.toNat : Nat) = d.dNameLen.toNat := by
      apply Int.bmod_eq_of_le <;> omega
    omega
  rw [same']
  simp only [nonneg', ↓reduceIte, length, Nat.lt_irrefl, sat_ok, Option.some.injEq, Prod.mk.injEq,
    true_and]
  rw [direntsSize_append, direntsSize_cons, length]
  change direntsSize before + 8 + d.dNameLen.toNat = direntsSize before + (_ + 0)
  omega

theorem next_end (listing : Listing sb dir es) :
    testfsNextDirent sb dir (direntsSize es) = .ok none := by
  unfold testfsNextDirent
  rw [cAssert_pos listing.kind, ok_bind, if_pos]
  rw [listing.size]

/-- The search loop, by induction on the entries still ahead. -/
theorem search (listing : Listing sb dir es) (test : Dirent → Bool) (after before : List Dirent)
    (split : es = before ++ after) (fuel : Nat) (enough : after.length < fuel) :
    Sat (searchDirents sb dir test fuel (direntsSize before))
      (fun r => r = (after.find? test,
        direntsSize (before ++ after.takeWhile fun d => !test d)))
      (fun e => e = .exit ∧ ¬ Stored sb.dev dir) := by
  induction after generalizing before fuel with
  | nil =>
      obtain ⟨fuel, rfl⟩ := Nat.exists_eq_add_of_lt enough
      rw [List.append_nil] at split
      unfold searchDirents
      rw [← split, listing.next_end]
      simp
  | cons d rest ih =>
      obtain ⟨fuel, rfl⟩ : ∃ k, fuel = k + 1 := ⟨fuel - 1, by omega⟩
      unfold searchDirents
      apply Sat.bind (listing.next before rest d split)
      intro r same
      rw [same]
      by_cases found : test d = true
      · simp [found]
      · have later := ih (before ++ [d]) (by simp [split]) fuel
          (by rw [List.length_cons] at enough; omega)
        simp only [found, Bool.false_eq_true, ↓reduceIte]
        apply later.weaken
        intro r' same'
        rw [same']
        simp [found]

theorem length_le (listing : Listing sb dir es) : es.length ≤ dir.size.toNat := by
  have count : ∀ ds : List Dirent, ds.length ≤ direntsSize ds := by
    intro ds
    induction ds with
    | nil => exact Nat.le_refl 0
    | cons d rest ih =>
        rw [direntsSize_cons, List.length_cons]
        omega
  rw [listing.size, Int.toNat_natCast]
  exact count es

/-- All searches in a directory: the first entry that passes the test, and where it starts. -/
theorem first (listing : Listing sb dir es) (test : Dirent → Bool) :
    Sat (firstDirent sb dir test)
      (fun r => r = (es.find? test, direntsSize (es.takeWhile fun d => !test d)))
      (fun e => e = .exit ∧ ¬ Stored sb.dev dir) :=
  listing.search test es [] rfl _ (Nat.lt_succ_of_le listing.length_le)

theorem nameToInodeNr (listing : Listing sb dir es) (name : List Byte) :
    Sat (testfsDirNameToInodeNr sb dir name)
      (fun r => r = match es.find? fun d => d.live && d.named name with
        | some d => d.dInodeNr.toInt
        | none => -eNOENT)
      (fun e => e = .exit ∧ ¬ Stored sb.dev dir) := by
  unfold testfsDirNameToInodeNr
  rw [cAssert_pos listing.kind, ok_bind]
  apply Sat.bind (listing.first _)
  intro r same
  rw [same]
  rfl

end Listing

end Ece344Lab.Fs
