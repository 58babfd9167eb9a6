import Mathlib.Data.List.Infix

set_option autoImplicit false

/- Streams of lines. A line ends with its first separator. -/
namespace Ece344Lab.Line

universe u

variable {α : Type u} [DecidableEq α] (sep : α)

def line : List α → List α
  | [] => []
  | a :: as => if a = sep then [a] else a :: line as

omit [DecidableEq α] in
/-- A beginning of a stream that ends with a separator, with the stream or when it is long enough.
-/
structure Stops (limit : Nat) (as front : List α) : Prop where
  beginning : front <+: as
  reason : front.getLast? = some sep ∨ front = as ∨ front.length = limit

variable {sep} {a : α} {as bs front : List α}

theorem line_same (as : List α) : line sep (sep :: as) = [sep] := if_pos rfl

theorem line_cons (other : a ≠ sep) (as : List α) : line sep (a :: as) = a :: line sep as :=
  if_neg other

theorem line_of_not_mem (absent : sep ∉ as) : line sep as = as := by
  induction as with
  | nil => rfl
  | cons a as ih =>
      rw [List.mem_cons, not_or] at absent
      rw [line_cons (Ne.symm absent.1), ih absent.2]

theorem line_append (absent : sep ∉ as) (bs : List α) :
    line sep (as ++ sep :: bs) = as ++ [sep] := by
  induction as with
  | nil => exact line_same bs
  | cons a as ih =>
      rw [List.mem_cons, not_or] at absent
      rw [List.cons_append, line_cons (Ne.symm absent.1), ih absent.2, List.cons_append]

/-- A stream without a separator is one line. -/
theorem line_cases (sep : α) (as : List α) : sep ∉ as ∧ line sep as = as ∨
    ∃ front back, sep ∉ front ∧ as = front ++ sep :: back ∧ line sep as = front ++ [sep] := by
  by_cases present : sep ∈ as
  · obtain ⟨front, back, rfl, absent⟩ := List.eq_append_cons_of_mem present
    exact Or.inr ⟨front, back, absent, rfl, line_append absent back⟩
  · exact Or.inl ⟨present, line_of_not_mem present⟩

theorem line_begins (sep : α) (as : List α) : line sep as <+: as := by
  cases line_cases sep as with
  | inl whole => rw [whole.2]
  | inr split =>
      obtain ⟨front, back, _, rfl, line⟩ := split
      rw [line]
      exact ⟨back, by rw [List.append_assoc]; rfl⟩

/-- The first line, or as much of it as is wanted, is where the reading stops first. -/
theorem stops_take_line (sep : α) (limit : Nat) (as : List α) :
    Stops sep limit as ((line sep as).take limit) := by
  refine ⟨(List.take_prefix limit _).trans (line_begins sep as), ?_⟩
  by_cases short : (line sep as).length ≤ limit
  · rw [List.take_of_length_le short]
    cases line_cases sep as with
    | inl whole => exact Or.inr (Or.inl whole.2)
    | inr split =>
        obtain ⟨front, back, _, rfl, line⟩ := split
        rw [line]
        exact Or.inl List.getLast?_concat
  · exact Or.inr (Or.inr (List.length_take_of_le (Nat.le_of_not_le short)))

theorem length_take_line_le {limit : Nat} (stops : Stops sep limit as front) :
    ((line sep as).take limit).length ≤ front.length := by
  have shorter := List.length_take_le limit (line sep as)
  have whole := (line_begins sep as).length_le
  rcases stops.reason with last | rfl | full
  · obtain ⟨back, rfl⟩ := stops.beginning
    obtain ⟨start, same⟩ := List.getLast?_eq_some_iff.mp last
    have member : sep ∈ front := same ▸ List.mem_append_right _ (List.mem_singleton_self sep)
    obtain ⟨first, rest, rfl, absent⟩ := List.eq_append_cons_of_mem member
    have line : line sep (first ++ sep :: rest ++ back) = first ++ [sep] := by
      rw [List.append_assoc]
      exact line_append absent _
    rw [line, List.length_take]
    simp only [List.length_append, List.length_cons, List.length_nil]
    omega
  · rw [List.length_take]
    omega
  · omega

/-- Every line has fewer than `limit` elements, with its end. -/
inductive Short (sep : α) (limit : Nat) : List α → Prop
  | last {as : List α} (absent : sep ∉ as) (short : as.length < limit) : Short sep limit as
  | more {front rest : List α} (absent : sep ∉ front) (short : front.length + 1 < limit)
      (later : Short sep limit rest) : Short sep limit (front ++ sep :: rest)

/-- The first line and the lines behind it. -/
theorem Short.of_line {limit : Nat} (short : (line sep as).length < limit)
    (later : as = line sep as ++ bs) (rest : sep ∈ line sep as → Short sep limit bs) :
    Short sep limit as := by
  rcases line_cases sep as with ⟨absent, whole⟩ | ⟨front, back, absent, split, whole⟩
  · rw [whole] at short
    exact .last absent short
  · rw [whole] at short later rest
    rw [List.append_assoc, List.singleton_append] at later
    rw [List.length_append, List.length_singleton] at short
    rw [later]
    exact .more absent short (rest (List.mem_append_right _ (List.mem_singleton_self sep)))

omit [DecidableEq α] in
/-- A list that is all one line. -/
theorem short_iff_of_not_mem {limit : Nat} (absent : sep ∉ as) :
    Short sep limit as ↔ as.length < limit := by
  constructor
  · intro short
    cases short with
    | last _ few => exact few
    | more _ _ _ => exact absurd (List.mem_append_right _ List.mem_cons_self) absent
  · exact .last absent

end Ece344Lab.Line
