import Ece344Lab.Webserver.ReadLine
import Ece344Lab.Webserver.Request

set_option autoImplicit false

/- The reading of request headers. -/
namespace Ece344Lab.Webserver

open Line Outcome

/-- `Rio_readlineb`. -/
def wrapperRioReadlineb (rp : Rio) (usrbuf : List Byte) (maxlen : Nat) :
    Except Fault (Int × List Byte × Rio) := do
  let (rc, usrbuf, rp) ← rioReadlineb rp usrbuf maxlen
  -- `unix_error`
  if rc < 0 then .error .exits else .ok (rc, usrbuf, rp)

/-- An empty line. -/
abbrev crlf : List Byte := [13#8, newline]

/-- Whether `strcmp` finds a buffer and a string equal. -/
def strcmpEqual (buf str : List Byte) : Bool := (str ++ [0#8]).isPrefixOf buf

/-- `request_read_headers`, as far as it comes with a number of calls of `Rio_readlineb`. At first
`buf` holds any bytes. -/
def requestReadHeaders : Nat → Rio → List Byte → Except Fault Rio
  | 0, _, _ => .error .diverges
  | calls + 1, rp, buf => do
      let (_, buf, rp) ← wrapperRioReadlineb rp buf maxLine
      if strcmpEqual buf crlf then .ok rp else requestReadHeaders calls rp buf

/-- Lines with room in the buffer, and behind them an empty one. -/
inductive HeadersEnd : List Byte → Prop
  | empty (rest : List Byte) : HeadersEnd (crlf ++ rest)
  | more {front rest : List Byte} (text : newline ∉ front) (short : front.length + 1 < maxLine)
      (later : HeadersEnd rest) : HeadersEnd (front ++ newline :: rest)

theorem not_headersEnd_nil : ¬ HeadersEnd [] := by
  intro ends
  generalize none : ([] : List Byte) = bytes at ends
  cases ends with
  | empty rest => cases none
  | @more front => exact List.append_ne_nil_of_right_ne_nil front (List.cons_ne_nil _ _) none.symm

/-- A line that has been read is the empty one when `strcmp` says so. -/
theorem strcmpEqual_line (bytes after : List Byte) :
    strcmpEqual (line newline bytes ++ 0 :: after) crlf = true ↔ line newline bytes = crlf := by
  unfold strcmpEqual
  rw [List.isPrefixOf_iff_prefix]
  constructor
  · intro same
    obtain ⟨after', same⟩ := same
    cases line_cases newline bytes with
    | inl whole =>
        obtain ⟨absent, line⟩ := whole
        rw [line] at same ⊢
        match bytes, absent, same with
        | a :: b :: rest, absent, same =>
            obtain ⟨_, rfl, _⟩ : 13#8 = a ∧ newline = b ∧ _ := by simpa using same
            exact absurd (List.mem_cons_of_mem a List.mem_cons_self) absent
    | inr split =>
        obtain ⟨front, _, absent, _, line⟩ := split
        rw [line] at same ⊢
        match front, absent, same with
        | [a], _, same =>
            obtain ⟨rfl, _⟩ : 13#8 = a ∧ _ := by simpa using same
            rfl
        | a :: b :: rest, absent, same =>
            obtain ⟨_, rfl, _⟩ : 13#8 = a ∧ newline = b ∧ _ := by simpa using same
            exact absurd (List.mem_cons_of_mem a List.mem_cons_self) absent
  · intro same
    rw [same]
    exact ⟨after, rfl⟩

variable {rp : Rio} {buf : List Byte}

/-- What a call does to the buffer of `request_read_headers`. -/
theorem readHeaderLine (rp : Rio) (room : buf.length = maxLine) :
    (∃ rc rp' after, wrapperRioReadlineb rp buf maxLine =
        .ok (rc, line newline rp.ahead ++ 0 :: after, rp') ∧
      (line newline rp.ahead ++ 0 :: after).length = maxLine ∧
      (line newline rp.ahead).length < maxLine ∧ LineRead rp rp' (line newline rp.ahead)) ∨
    (∃ rp', wrapperRioReadlineb rp buf maxLine = .ok (0, buf, rp') ∧ rp.ahead = [] ∧
      rp'.ahead = []) ∨
    (∃ e, wrapperRioReadlineb rp buf maxLine = .error e ∧
      (newline ∉ rp.ahead ∨ maxLine ≤ (line newline rp.ahead).length)) := by
  unfold wrapperRioReadlineb
  by_cases short : (line newline rp.ahead).length < maxLine
  · rcases rioReadlineb_inside room short (short.trans (by decide)) with
      ⟨rp', after, run, size, read⟩ | ⟨rp', run, none⟩ | ⟨usrbuf, rp', run, absent⟩
    · refine Or.inl ⟨((line newline rp.ahead).length : Nat), rp', after, ?_, size, short, read⟩
      rw [run, ok_bind]
      exact if_neg (Int.not_lt.mpr (Int.natCast_nonneg _))
    · refine Or.inr (Or.inl ⟨rp', ?_, none⟩)
      rw [run]
      rfl
    · refine Or.inr (Or.inr ⟨.exits, ?_, Or.inl absent⟩)
      rw [run]
      rfl
  · refine Or.inr (Or.inr ⟨.undefined, ?_, Or.inr (Nat.le_of_not_lt short)⟩)
    rw [rioReadlineb_outside room fun both => short both.1]
    rfl

/-- A line that is complete and has room is read. -/
theorem readHeaderLine_whole (room : buf.length = maxLine) (whole : newline ∈ rp.ahead)
    (short : (line newline rp.ahead).length < maxLine) :
    ∃ rc rp' after, wrapperRioReadlineb rp buf maxLine =
        .ok (rc, line newline rp.ahead ++ 0 :: after, rp') ∧
      (line newline rp.ahead ++ 0 :: after).length = maxLine ∧
      LineRead rp rp' (line newline rp.ahead) := by
  rcases readHeaderLine rp room with ⟨rc, rp', after, run, size, _, read⟩ | ⟨_, _, none, _⟩ |
    ⟨_, _, absent | long⟩
  · exact ⟨rc, rp', after, run, size, read⟩
  · rw [none] at whole
    cases whole
  · exact absurd whole absent
  · omega

/-- Headers that end are read to their end. -/
theorem HeadersEnd.returns {bytes : List Byte} (ends : HeadersEnd bytes) :
    ∀ (rp : Rio) (buf : List Byte),
    rp.ahead = bytes → buf.length = maxLine →
      ∃ calls rp', requestReadHeaders calls rp buf = .ok rp' := by
  induction ends with
  | empty rest =>
      intro rp buf ahead room
      have first : line newline rp.ahead = crlf := by
        rw [ahead]
        exact line_append (by decide : newline ∉ [13#8]) rest
      have whole : newline ∈ rp.ahead := by
        rw [ahead]
        exact List.mem_cons_of_mem _ List.mem_cons_self
      obtain ⟨rc, rp', after, run, _, _⟩ := readHeaderLine_whole room whole (by rw [first]; decide)
      refine ⟨1, rp', ?_⟩
      rw [requestReadHeaders, run, ok_bind]
      exact if_pos ((strcmpEqual_line rp.ahead after).mpr first)
  | @more front rest text short later ih =>
      intro rp buf ahead room
      have first : line newline rp.ahead = front ++ [newline] := by
        rw [ahead]
        exact line_append text rest
      have whole : newline ∈ rp.ahead := by
        rw [ahead]
        exact List.mem_append_right _ List.mem_cons_self
      obtain ⟨rc, rp', after, run, size, read⟩ :=
        readHeaderLine_whole room whole (by rw [first, List.length_append]; exact short)
      have behind : rp'.ahead = rest := by
        have split := read.ahead
        rw [first, ahead, List.append_assoc] at split
        exact (List.cons_injective (List.append_cancel_left split)).symm
      obtain ⟨calls, rp'', run'⟩ := ih rp' _ behind size
      by_cases last : strcmpEqual (line newline rp.ahead ++ 0 :: after) crlf = true
      · refine ⟨1, rp', ?_⟩
        rw [requestReadHeaders, run, ok_bind]
        exact if_pos last
      · refine ⟨calls + 1, rp'', ?_⟩
        rw [requestReadHeaders, run, ok_bind]
        exact (if_neg last).trans run'

/-- What `request_read_headers` has read when it returns, unless `buf` held an empty line before. -/
theorem headersEnd_of_returns (calls : Nat) :
    ∀ (rp rp' : Rio) (buf : List Byte), buf.length = maxLine →
    strcmpEqual buf crlf = false → requestReadHeaders calls rp buf = .ok rp' →
      HeadersEnd rp.ahead := by
  induction calls with
  | zero =>
      intro _ _ _ _ _ run
      cases run
  | succ calls ih =>
      intro rp rp' buf room other run
      unfold requestReadHeaders at run
      rcases readHeaderLine rp room with ⟨rc, rp₁, after, called, size, short, read⟩ |
        ⟨rp₁, called, none, none'⟩ | ⟨e, called, _⟩
      · rw [called, ok_bind] at run
        dsimp only at run
        by_cases last : strcmpEqual (line newline rp.ahead ++ 0 :: after) crlf = true
        · rw [read.ahead, (strcmpEqual_line rp.ahead after).mp last]
          exact .empty rp₁.ahead
        · rw [if_neg last] at run
          have later := ih rp₁ rp' _ size (by simpa using last) run
          cases line_cases newline rp.ahead with
          | inl whole =>
              have ended := read.ends.resolve_left (by rw [whole.2]; exact whole.1)
              rw [ended.1] at later
              exact absurd later not_headersEnd_nil
          | inr split =>
              obtain ⟨front, _, text, _, line⟩ := split
              rw [read.ahead, line, List.append_assoc]
              rw [line, List.length_append] at short
              exact .more text short later
      · rw [called, ok_bind] at run
        dsimp only at run
        rw [other] at run
        have later := ih rp₁ rp' buf room other run
        rw [none'] at later
        exact absurd later not_headersEnd_nil
      · rw [called] at run
        cases run

/-- `request_read_headers` returns, whatever `buf` holds at first, exactly when the client sends
lines shorter than `buf` and then an empty one. -/
theorem request_read_headers_returns_iff (rp : Rio) :
    (∀ buf, buf.length = maxLine → ∃ calls rp', requestReadHeaders calls rp buf = .ok rp') ↔
      HeadersEnd rp.ahead := by
  constructor
  · intro returns
    obtain ⟨calls, rp', run⟩ := returns (List.replicate maxLine 0) List.length_replicate
    exact headersEnd_of_returns calls rp rp' _ List.length_replicate rfl run
  · exact fun ends buf => ends.returns rp buf rfl

/-- A client that has sent a header line and closes. -/
def closedEarly : Rio := readAtOnce [97#8, 13#8, newline] (List.cons_ne_nil _ _) (by decide)

theorem request_read_headers_hangs : closedEarly.unread = [97#8, 13#8, newline] ∧
    ReadResult.failed ∉ closedEarly.reads ∧
    ∀ calls rp', requestReadHeaders calls closedEarly (List.replicate maxLine 0) ≠ .ok rp' := by
  refine ⟨rfl, ?_, fun calls rp' run => ?_⟩
  · intro member
    cases List.mem_singleton.mp member
  · have ends := headersEnd_of_returns calls _ rp' _ List.length_replicate rfl run
    generalize sent : closedEarly.ahead = bytes at ends
    cases ends with
    | empty rest => cases sent
    | @more front rest text _ later =>
        have ahead : closedEarly.ahead = [97#8, 13#8, newline] ++ [] := rfl
        have first : line newline closedEarly.ahead = [97#8, 13#8, newline] := rfl
        rw [sent, line_append text rest] at first
        rw [sent, List.append_cons, first] at ahead
        exact not_headersEnd_nil (List.append_cancel_left ahead ▸ later)

end Ece344Lab.Webserver
