import Ece344Lab.Webserver.Rio

set_option autoImplicit false

/- What a line is when it is read in pieces of any sizes. -/
namespace Ece344Lab.Webserver

open Line Outcome

def stream : List ReadResult → List Byte
  | [] => []
  | .interrupted :: reads => stream reads
  | .failed :: reads => stream reads
  | .data bytes _ _ :: reads => bytes ++ stream reads

/-- The bytes before the first call that fails. -/
def available : List ReadResult → List Byte
  | [] => []
  | .interrupted :: reads => available reads
  | .failed :: _ => []
  | .data bytes _ _ :: reads => bytes ++ available reads

namespace Rio

def buffered (rp : Rio) : List Byte := (rp.rioBuf.drop rp.rioBufptr).take rp.rioCnt.toNat

def unread (rp : Rio) : List Byte := rp.buffered ++ stream rp.reads

/-- The bytes that can be read before `read` fails. -/
def ahead (rp : Rio) : List Byte := rp.buffered ++ available rp.reads

theorem buffered_emptied (rp : Rio) {cnt : Int} (none : cnt ≤ 0) (reads : List ReadResult) :
    (rp.emptied cnt none reads).buffered = [] := by
  unfold buffered emptied
  dsimp only
  rw [Int.toNat_of_nonpos none, List.take_zero]

theorem buffered_refilled (rp : Rio) {bytes : List Byte} (fits : bytes.length ≤ rioBufsize)
    (reads : List ReadResult) : (rp.refilled bytes fits reads).buffered = bytes := by
  unfold buffered refilled
  dsimp only
  rw [List.drop_zero, Int.toNat_natCast, List.take_left]

theorem exists_buffered {rp : Rio} (some : 0 < rp.rioCnt) :
    ∃ c, (rp.rioBuf.drop rp.rioBufptr).take (min 1 rp.rioCnt.toNat) = [c] ∧
      rp.buffered = c :: (rp.advanced 1).buffered := by
  obtain ⟨cnt, count⟩ : ∃ cnt, rp.rioCnt.toNat = cnt + 1 := ⟨rp.rioCnt.toNat - 1, by omega⟩
  have one : min 1 rp.rioCnt.toNat = 1 := by omega
  have rest : (rp.rioCnt - (min 1 rp.rioCnt.toNat : Nat)).toNat = cnt := by omega
  have inside := rp.inside
  have bound : rp.rioBufptr < rp.rioBuf.length := by rw [rp.size]; omega
  have first := List.drop_eq_getElem_cons bound
  refine ⟨rp.rioBuf[rp.rioBufptr], ?_, ?_⟩
  · rw [one, first]
    rfl
  · unfold buffered advanced
    dsimp only
    rw [rest, one, count, first, List.take_succ_cons]

end Rio

/-- What `rio_readb` gives for one byte. -/
inductive ReadsByte (rp : Rio) : Int × List Byte × Rio → Prop
  | byte (c : Byte) (rp' : Rio) (ahead : rp.ahead = c :: rp'.ahead)
    (unread : rp.unread = c :: rp'.unread) :
      ReadsByte rp (1, [c], rp')
  | ended (rp' : Rio) (ahead : rp.ahead = []) (unread : rp.unread = []) (ahead' : rp'.ahead = [])
      (unread' : rp'.unread = []) : ReadsByte rp (0, [], rp')
  | failed (rp' : Rio) (ahead : rp.ahead = []) : ReadsByte rp (-1, [], rp')

theorem refillLoop_cases (reads : List ReadResult) : ∀ rp : Rio,
    (∃ rp', refillLoop rp reads = (none, rp') ∧ 0 < rp'.rioCnt ∧ rp'.ahead = available reads ∧
      rp'.unread = stream reads) ∨
    (∃ rp', refillLoop rp reads = (some 0, rp') ∧ available reads = [] ∧ stream reads = [] ∧
      rp'.ahead = [] ∧ rp'.unread = []) ∨
    (∃ rp', refillLoop rp reads = (some (-1), rp') ∧ available reads = []) := by
  induction reads with
  | nil =>
      intro rp
      have empty := rp.buffered_emptied (Int.le_refl 0) []
      exact Or.inr (Or.inl ⟨_, rfl, rfl, rfl, congrArg (· ++ []) empty, congrArg (· ++ []) empty⟩)
  | cons read reads ih =>
      intro rp
      cases read with
      | interrupted => exact ih _
      | failed => exact Or.inr (Or.inr ⟨_, rfl, rfl⟩)
      | data bytes some fits =>
          have full := rp.buffered_refilled fits reads
          have count := List.length_pos_of_ne_nil some
          refine Or.inl ⟨_, rfl, ?_, congrArg (· ++ available reads) full,
            congrArg (· ++ stream reads) full⟩
          change 0 < (bytes.length : Int)
          omega

/-- One byte of the stream is read, however `read` splits it. -/
theorem rioReadb_one (rp : Rio) : ReadsByte rp (rioReadb rp 1) := by
  unfold rioReadb
  have buffer : ∀ rp' : Rio, 0 < rp'.rioCnt → rp'.ahead = rp.ahead → rp'.unread = rp.unread →
      ReadsByte rp ((min 1 rp'.rioCnt.toNat : Nat), (rp'.rioBuf.drop rp'.rioBufptr).take
        (min 1 rp'.rioCnt.toNat), rp'.advanced 1) := by
    intro rp' some ahead unread
    obtain ⟨c, copied, buffered⟩ := Rio.exists_buffered some
    have one : ((min 1 rp'.rioCnt.toNat : Nat) : Int) = 1 := by omega
    rw [copied, one]
    refine .byte c _ ?_ ?_
    · rw [← ahead, Rio.ahead, buffered]
      rfl
    · rw [← unread, Rio.unread, buffered]
      rfl
  by_cases empty : rp.rioCnt ≤ 0
  · have none : rp.buffered = [] := by
      unfold Rio.buffered
      rw [Int.toNat_of_nonpos empty, List.take_zero]
    have ahead : rp.ahead = available rp.reads := congrArg (· ++ available rp.reads) none
    have unread : rp.unread = stream rp.reads := congrArg (· ++ stream rp.reads) none
    rw [if_pos empty]
    rcases refillLoop_cases rp.reads rp with ⟨rp', run, some, ahead', unread'⟩ |
      ⟨rp', run, none, none', ahead', unread'⟩ | ⟨rp', run, none⟩
    · rw [run]
      exact buffer rp' some (ahead'.trans ahead.symm) (unread'.trans unread.symm)
    · rw [run]
      exact .ended rp' (ahead.trans none) (unread.trans none') ahead' unread'
    · rw [run]
      exact .failed rp' (ahead.trans none)
  · rw [if_neg empty]
    exact buffer rp (Int.not_le.mp empty) rfl rfl

theorem storeByte_append (done rest : List Byte) (d c : Byte) :
    storeByte (done ++ d :: rest) done.length c = .ok (done ++ c :: rest) := by
  have inside : done.length < (done ++ d :: rest).length := by
    rw [List.length_append, List.length_cons]
    omega
  unfold storeByte
  rw [if_pos inside, List.set_append_right _ _ (Nat.le_refl _), Nat.sub_self, List.set_cons_zero]

theorem storeByte_outside (usrbuf : List Byte) (c : Byte) :
    storeByte usrbuf usrbuf.length c = .error .undefined :=
  if_neg (Nat.lt_irrefl _)

theorem finishLine_append (rp : Rio) (done rest : List Byte) (d : Byte) :
    finishLine rp (done ++ d :: rest) done.length =
      .ok ((done.length : Nat), done ++ 0 :: rest, rp) := by
  unfold finishLine
  rw [storeByte_append]
  rfl

/-- A line is in the buffer, behind the bytes that were there; it ended with the stream if not with
a newline. -/
structure LineRead (rp rp' : Rio) (front : List Byte) : Prop where
  ahead : rp.ahead = front ++ rp'.ahead
  unread : rp.unread = front ++ rp'.unread
  ends : newline ∈ front ∨ rp'.ahead = [] ∧ rp'.unread = []

theorem LineRead.cons {rp rp₁ rp' : Rio} {c : Byte} {front : List Byte}
    (ahead : rp.ahead = c :: rp₁.ahead)
    (unread : rp.unread = c :: rp₁.unread) (read : LineRead rp₁ rp' front) :
    LineRead rp rp' (c :: front) where
  ahead := by rw [ahead, read.ahead, List.cons_append]
  unread := by rw [unread, read.unread, List.cons_append]
  ends := read.ends.imp_left (List.mem_cons_of_mem c)

/-- The loop reads a line that has room, and for which an `int` can count. -/
theorem lineLoop_inside (left : Nat) : ∀ (rp : Rio) (done rest : List Byte), rest.length = left →
    (line newline rp.ahead).length < left → done.length + (line newline rp.ahead).length < 2 ^ 31 →
    (∃ rp' after, lineLoop left rp (done ++ rest) done.length =
        .ok ((done.length + (line newline rp.ahead).length : Nat),
          done ++ line newline rp.ahead ++ 0 :: after, rp') ∧
      rest.length = (line newline rp.ahead).length + 1 + after.length ∧
      0 < done.length + (line newline rp.ahead).length ∧ LineRead rp rp' (line newline rp.ahead)) ∨
    (∃ rp', lineLoop left rp (done ++ rest) done.length = .ok (0, done ++ rest, rp') ∧ done = [] ∧
      rp.ahead = [] ∧ rp'.ahead = []) ∨
    (∃ usrbuf rp', lineLoop left rp (done ++ rest) done.length = .ok (-1, usrbuf, rp') ∧
      newline ∉ rp.ahead) := by
  induction left with
  | zero => exact fun _ _ _ _ short => absurd short (Nat.not_lt_zero _)
  | succ left ih =>
      intro rp done rest room short few
      obtain ⟨d, rest, rfl⟩ := List.exists_cons_of_length_eq_add_one room
      rw [List.length_cons, Nat.add_right_cancel_iff] at room
      have read := rioReadb_one rp
      unfold lineLoop
      generalize rioReadb rp 1 = result at read
      cases read with
      | byte c rp₁ ahead unread =>
          have fits : done.length + 1 < 2 ^ 31 := by
            have some : 0 < (line newline rp.ahead).length := by
              rw [ahead]
              unfold line
              split <;> simp
            omega
          dsimp only
          rw [if_pos rfl, List.headD_cons, storeByte_append, ok_bind, increment,
            if_pos fits, ok_bind]
          by_cases last : c = newline
          · subst last
            have one : line newline rp.ahead = [newline] := by rw [ahead, line_same]
            have length : (done ++ [newline]).length = done.length + 1 := by
              rw [List.length_append, List.length_singleton]
            rw [one] at short ⊢
            rw [List.length_singleton] at short
            obtain ⟨e, after, rfl⟩ := List.exists_cons_of_length_pos (l := rest) (by omega)
            have finish := finishLine_append rp₁ (done ++ [newline]) after e
            rw [length, List.append_assoc] at finish
            refine Or.inl ⟨rp₁, after, ?_, ?_, by simp, ⟨ahead, unread, Or.inl (by simp)⟩⟩
            · rw [if_pos rfl]
              exact finish
            · simp only [List.length_cons, List.length_nil]
              omega
          · have front : line newline rp.ahead =
                c :: line newline rp₁.ahead := by rw [ahead, line_cons last]
            have length : (done ++ [c]).length = done.length + 1 := by
              rw [List.length_append, List.length_singleton]
            rw [front, List.length_cons] at short few
            have later := ih rp₁ (done ++ [c]) rest room (by omega) (by omega)
            rw [length, List.append_assoc, List.singleton_append] at later
            rw [if_neg last, front, List.length_cons]
            rcases later with ⟨rp', after, run, size, some, read⟩ | ⟨_, _, none, _⟩ | failed
            · refine Or.inl ⟨rp', after, ?_, by rw [List.length_cons]; omega, by omega,
                read.cons ahead unread⟩
              rw [run, List.append_assoc, List.append_assoc, List.append_assoc, Nat.add_assoc,
                Nat.add_comm 1]
              rfl
            · exact absurd none (List.append_ne_nil_of_right_ne_nil _ (List.cons_ne_nil c []))
            · obtain ⟨usrbuf, rp', run, absent⟩ := failed
              refine Or.inr (Or.inr ⟨usrbuf, rp', run, ?_⟩)
              rw [ahead, List.mem_cons, not_or]
              exact ⟨Ne.symm last, absent⟩
      | ended rp₁ ahead unread ahead' unread' =>
          have front : line newline rp.ahead = [] := by rw [ahead]; rfl
          dsimp only
          rw [if_neg (by decide), if_pos rfl, front]
          by_cases first : done.length = 0
          · rw [if_pos first]
            exact Or.inr (Or.inl ⟨rp₁, rfl, List.eq_nil_of_length_eq_zero first, ahead, ahead'⟩)
          · rw [if_neg first, finishLine_append]
            refine Or.inl ⟨rp₁, rest, by rw [List.append_nil]; rfl,
              by rw [List.length_cons]; simp; omega,
              Nat.pos_of_ne_zero first, by rw [ahead, ahead']; rfl, by rw [unread, unread']; rfl,
              Or.inr ⟨ahead', unread'⟩⟩
      | failed rp₁ ahead => exact Or.inr (Or.inr ⟨_, _, rfl, by rw [ahead]; exact List.not_mem_nil⟩)

/-- A line without room for the NUL, or one that an `int` cannot count, is not read. -/
theorem lineLoop_outside (left : Nat) : ∀ (rp : Rio) (done rest : List Byte), rest.length = left →
    done.length < 2 ^ 31 →
    ¬ ((line newline rp.ahead).length < left ∧
      done.length + (line newline rp.ahead).length < 2 ^ 31) →
    lineLoop left rp (done ++ rest) done.length = .error .undefined := by
  induction left with
  | zero =>
      intro rp done rest room _ _
      obtain rfl := List.eq_nil_of_length_eq_zero room
      unfold lineLoop finishLine
      rw [List.append_nil, storeByte_outside]
      rfl
  | succ left ih =>
      intro rp done rest room small long
      obtain ⟨d, rest, rfl⟩ := List.exists_cons_of_length_eq_add_one room
      rw [List.length_cons, Nat.add_right_cancel_iff] at room
      have read := rioReadb_one rp
      unfold lineLoop
      generalize rioReadb rp 1 = result at read
      have empty : rp.ahead = [] → False := by
        intro none
        rw [none] at long
        exact long ⟨Nat.succ_pos left, small⟩
      cases read with
      | ended rp₁ ahead => exact (empty ahead).elim
      | failed rp₁ ahead => exact (empty ahead).elim
      | byte c rp₁ ahead unread =>
          dsimp only
          rw [if_pos rfl, List.headD_cons, storeByte_append, ok_bind, increment]
          by_cases fits : done.length + 1 < 2 ^ 31
          · have length : (done ++ [c]).length = done.length + 1 := by
              rw [List.length_append, List.length_singleton]
            rw [if_pos fits, ok_bind]
            by_cases last : c = newline
            · subst last
              have one : line newline rp.ahead = [newline] := by rw [ahead, line_same]
              rw [one, List.length_singleton] at long
              obtain rfl := List.eq_nil_of_length_eq_zero (show rest.length = 0 by omega)
              have full := storeByte_outside (done ++ [newline]) 0
              rw [length] at full
              rw [if_pos rfl, finishLine, full]
              rfl
            · have front : line newline rp.ahead = c :: line newline rp₁.ahead := by
                rw [ahead, line_cons last]
              rw [front, List.length_cons] at long
              have later := ih rp₁ (done ++ [c]) rest room (by omega) (by omega)
              rw [length, List.append_assoc, List.singleton_append] at later
              rw [if_neg last, later]
          · rw [if_neg fits]
            rfl

variable {rp : Rio} {usrbuf : List Byte} {maxlen : Nat}

/-- What `rio_readlineb` does with a buffer that has room for the next line and a NUL. -/
theorem rioReadlineb_inside (room : usrbuf.length = maxlen)
    (short : (line newline rp.ahead).length < maxlen)
    (few : (line newline rp.ahead).length < 2 ^ 31) :
    (∃ rp' after, rioReadlineb rp usrbuf maxlen =
        .ok (((line newline rp.ahead).length : Nat), line newline rp.ahead ++ 0 :: after, rp') ∧
      (line newline rp.ahead ++ 0 :: after).length = maxlen ∧
      LineRead rp rp' (line newline rp.ahead)) ∨
    (∃ rp', rioReadlineb rp usrbuf maxlen = .ok (0, usrbuf, rp') ∧ rp.ahead = [] ∧ rp'.ahead = []) ∨
    (∃ usrbuf' rp', rioReadlineb rp usrbuf maxlen = .ok (-1, usrbuf', rp') ∧
      newline ∉ rp.ahead) := by
  have read := lineLoop_inside maxlen rp [] usrbuf room short (by simpa using few)
  rw [List.length_nil, Nat.zero_add, List.nil_append, List.nil_append] at read
  rcases read with ⟨rp', after, run, size, _, read⟩ | ⟨rp', run, _, none⟩ | failed
  · refine Or.inl ⟨rp', after, run, ?_, read⟩
    rw [List.length_append, List.length_cons]
    omega
  · exact Or.inr (Or.inl ⟨rp', run, none⟩)
  · exact Or.inr (Or.inr failed)

theorem rioReadlineb_outside (room : usrbuf.length = maxlen)
    (long : ¬ ((line newline rp.ahead).length < maxlen ∧ (line newline rp.ahead).length < 2 ^ 31)) :
    rioReadlineb rp usrbuf maxlen = .error .undefined :=
  lineLoop_outside maxlen rp [] usrbuf room (by decide) (by simpa using long)

/-- `rio_readlineb` stores within `maxlen` bytes. When it returns a positive number it has read the
shortest beginning of the stream that ends in a newline, at the end of file or at the limit, and
stored it with a NUL. -/
def ReadsInside (rp : Rio) (maxlen : Nat) : Prop :=
  ∀ usrbuf, usrbuf.length = maxlen →
    ∃ n usrbuf' rp', rioReadlineb rp usrbuf maxlen = .ok (n, usrbuf', rp') ∧
    (0 < n → ∃ front, Stops newline maxlen rp.unread front ∧
      (∀ other, Stops newline maxlen rp.unread other → front.length ≤ other.length) ∧
      n = front.length ∧ rp.unread = front ++ rp'.unread ∧ front ++ [0] <+: usrbuf')

theorem LineRead.line_unread {rp rp' : Rio} (read : LineRead rp rp' (line newline rp.ahead)) :
    line newline rp.unread = line newline rp.ahead := by
  cases line_cases newline rp.ahead with
  | inl whole =>
      obtain ⟨absent, whole⟩ := whole
      have ended := read.ends.resolve_left (by rw [whole]; exact absent)
      have same : rp.unread = rp.ahead := by rw [read.unread, ended.2, List.append_nil, whole]
      rw [same]
  | inr split =>
      obtain ⟨front, back, absent, _, line⟩ := split
      have unread := read.unread
      rw [line, List.append_assoc] at unread
      rw [line, unread]
      exact line_append absent rp'.unread

/-- The next line is read as it should be exactly when the NUL has room behind it and an `int` can
count it. -/
theorem rio_readlineb_inside_iff (rp : Rio) (maxlen : Nat) : ReadsInside rp maxlen ↔
    (line newline rp.ahead).length < maxlen ∧ (line newline rp.ahead).length < 2 ^ 31 := by
  constructor
  · intro inside
    obtain ⟨n, usrbuf', rp', run, _⟩ := inside (List.replicate maxlen 0) List.length_replicate
    by_contra long
    rw [rioReadlineb_outside List.length_replicate long] at run
    cases run
  · rintro ⟨short, few⟩ usrbuf room
    rcases rioReadlineb_inside room short few with ⟨rp', after, run, _, read⟩ | ⟨rp', run, _⟩ |
      ⟨usrbuf', rp', run, _⟩
    · refine ⟨_, _, rp', run, fun _ => ⟨line newline rp.ahead, ?_, fun other stops => ?_, rfl,
        read.unread, after, by simp⟩⟩
      · have stops := stops_take_line newline maxlen rp.unread
        rw [read.line_unread, List.take_of_length_le short.le] at stops
        exact stops
      · have least := length_take_line_le stops
        rw [read.line_unread, List.take_of_length_le short.le] at least
        exact least
    · exact ⟨0, _, rp', run, fun positive => absurd positive (Int.lt_irrefl 0)⟩
    · exact ⟨-1, usrbuf', rp', run, fun positive => absurd positive (by decide)⟩

/-- One call of `read` gives all bytes. -/
def readAtOnce (bytes : List Byte) (some : bytes ≠ []) (fits : bytes.length ≤ rioBufsize) : Rio :=
  rioInit [.data bytes some fits] (List.replicate rioBufsize 0) List.length_replicate

/-- Two letters and a newline are read into three bytes. -/
def threeBytes : Rio := readAtOnce [97#8, 98#8, newline] (List.cons_ne_nil _ _) (by decide)

/-- A line as long as the buffer has its NUL stored behind it. -/
theorem rio_readlineb_outside : threeBytes.unread = [97#8, 98#8, newline] ∧
    rioReadlineb threeBytes [0, 0, 0] 3 = .error .undefined ∧ ¬ ReadsInside threeBytes 3 := by
  have ahead : threeBytes.ahead = [97#8, 98#8, newline] := rfl
  have undefined : rioReadlineb threeBytes [0, 0, 0] 3 = .error .undefined :=
    lineLoop_outside 3 threeBytes [] [0, 0, 0] rfl (by decide) (by rw [ahead]; decide)
  refine ⟨rfl, undefined, fun inside => ?_⟩
  obtain ⟨_, _, _, run, _⟩ := inside [0, 0, 0] rfl
  rw [undefined] at run
  cases run

end Ece344Lab.Webserver
