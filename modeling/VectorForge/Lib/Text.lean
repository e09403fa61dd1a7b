import Mathlib

/-! Searching a text and trimming it. -/

namespace Text
variable {α : Type} [DecidableEq α]

/-- Where `pattern` first occurs. -/
def find (pattern : List α) : List α → Option Nat
  | [] => if pattern = [] then some 0 else none
  | a :: rest => if pattern <+: a :: rest then some 0 else (find pattern rest).map (· + 1)

/-- A text without what `space` holds of at its ends. -/
def trim (space : α → Bool) (text : List α) : List α := ((text.dropWhile space).reverse.dropWhile space).reverse

theorem length_of_find {pattern : List α} : ∀ {text : List α} {k : Nat}, find pattern text = some k →
    k + pattern.length ≤ text.length
  | [], k, found => by
    rw [find] at found
    split at found
    next none =>
      cases found
      rw [none]
      exact Nat.le_refl _
    next => cases found
  | a :: rest, k, found => by
    rw [find] at found
    split at found
    next here =>
      cases found
      rw [Nat.zero_add]
      exact here.length_le
    next =>
      obtain ⟨j, later, rfl⟩ := Option.map_eq_some_iff.mp found
      have inside := length_of_find later
      rw [List.length_cons]
      omega

/-- A text that goes on behind the first occurrence has the same first occurrence. -/
theorem find_append {pattern : List α} (tail : List α) : ∀ {text : List α} {k : Nat}, find pattern text = some k →
    find pattern (text ++ tail) = some k
  | [], k, found => by
    rw [find] at found
    split at found
    next none =>
      cases found
      rw [none]
      cases tail with
      | nil => rfl
      | cons a tail => exact if_pos List.nil_prefix
    next => cases found
  | a :: rest, k, found => by
    rw [find] at found
    rw [List.cons_append, find]
    split at found
    next here =>
      cases found
      exact if_pos (here.trans (List.prefix_append (a :: rest) tail))
    next apart =>
      obtain ⟨j, later, rfl⟩ := Option.map_eq_some_iff.mp found
      have inside := length_of_find later
      rw [if_neg, find_append tail later]
      · rfl
      · intro early
        refine apart (List.prefix_of_prefix_length_le early (List.prefix_append (a :: rest) tail) ?_)
        rw [List.length_cons]
        omega

/-- Up to a character that does not occur before. -/
theorem takeWhile_ne {a : α} : ∀ {body : List α} (tail : List α), a ∉ body →
    (body ++ a :: tail).takeWhile (· ≠ a) = body
  | [], tail, _ => by simp
  | b :: body, tail, absent => by
    rw [List.cons_append, List.takeWhile_cons, takeWhile_ne tail fun mem => absent (List.mem_cons_of_mem _ mem)]
    have other : b ≠ a := fun same => absent (same ▸ List.mem_cons_self)
    simp [other]

section Trim
variable {space : α → Bool} {core white : List α}

omit [DecidableEq α] in
theorem dropWhile_all : ∀ {white : List α}, (∀ a ∈ white, space a = true) → white.dropWhile space = []
  | [], _ => rfl
  | a :: white, all => by
    rw [List.dropWhile_cons, all a List.mem_cons_self]
    exact dropWhile_all fun b mem => all b (List.mem_cons_of_mem _ mem)

omit [DecidableEq α] in
/-- Nothing is dropped in front of a text that starts with something else. -/
theorem dropWhile_of_head (head : ∀ a ∈ core.head?, space a = false) : core.dropWhile space = core := by
  cases core with
  | nil => rfl
  | cons a core => rw [List.dropWhile_cons, head a rfl]; simp

omit [DecidableEq α] in
theorem trim_append (some : core ≠ []) (head : ∀ a ∈ core.head?, space a = false)
    (last : ∀ a ∈ core.getLast?, space a = false)
    (all : ∀ a ∈ white, space a = true) : trim space (core ++ white) = core := by
  have front : (core ++ white).dropWhile space = core ++ white := by
    refine dropWhile_of_head fun a inside => head a ?_
    obtain ⟨b, rest, rfl⟩ := List.exists_cons_of_ne_nil some
    exact inside
  have back : (white.reverse ++ core.reverse).dropWhile space = core.reverse := by
    rw [List.dropWhile_append_of_pos fun a mem => all a (List.mem_reverse.mp mem)]
    exact dropWhile_of_head fun a inside => last a (by rwa [List.head?_reverse] at inside)
  rw [trim, front, List.reverse_append, back, List.reverse_reverse]

omit [DecidableEq α] in
theorem trim_solid (head : ∀ a ∈ core.head?, space a = false) (last : ∀ a ∈ core.getLast?, space a = false) :
    trim space core = core := by
  by_cases some : core = []
  · rw [some]
    rfl
  · have same : trim space (core ++ []) = core := trim_append some head last fun a mem => (by cases mem)
    rwa [List.append_nil] at same

omit [DecidableEq α] in
theorem trim_cons {a : α} (white : space a = true) (text : List α) : trim space (a :: text) = trim space text := by
  rw [trim, List.dropWhile_cons, white]
  rfl

end Trim
end Text
