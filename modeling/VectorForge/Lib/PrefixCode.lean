import Mathlib

/-! Texts that can only be read in one way. -/

namespace PrefixCode
variable {α β : Type}

/-- Words without separators, each followed by nothing or by a separator. -/
theorem append_inj {separator : α → Bool} : ∀ {x y s t : List α}, (∀ a ∈ x, separator a = false) →
    (∀ a ∈ y, separator a = false) →
    (∀ a ∈ s.head?, separator a = true) → (∀ a ∈ t.head?, separator a = true) → x ++ s = y ++ t → x = y ∧ s = t
  | [], [], _, _, _, _, _, _, same => ⟨rfl, same⟩
  | [], b :: y, s, t, _, solid, stops, _, same => by
    rw [List.nil_append] at same
    have first := stops b (by rw [same]; rfl)
    rw [solid b List.mem_cons_self] at first
    cases first
  | a :: x, [], s, t, solid, _, _, stops, same => by
    rw [List.nil_append] at same
    have first := stops a (by rw [← same]; rfl)
    rw [solid a List.mem_cons_self] at first
    cases first
  | a :: x, b :: y, s, t, solidX, solidY, stopsS, stopsT, same => by
    obtain ⟨rfl, rest⟩ := List.cons.inj same
    obtain ⟨rfl, tail⟩ := append_inj (fun c member => solidX c (List.mem_cons_of_mem _ member))
      (fun c member => solidY c (List.mem_cons_of_mem _ member))
      stopsS stopsT rest
    exact ⟨rfl, tail⟩

/-- No code word begins another one. -/
def PrefixFree (code : α → List β) : Prop := ∀ a b s t, code a ++ s = code b ++ t → a = b ∧ s = t

/-- Code words up to a mark that begins none of them. -/
theorem flatMap_inj {code : α → List β} {mark : β} (free : PrefixFree code)
    (apart : ∀ a s t, code a ++ s ≠ mark :: t) :
    ∀ {x y : List α} {s t : List β}, x.flatMap code ++ mark :: s = y.flatMap code ++ mark :: t → x = y ∧ s = t
  | [], [], _, _, same => ⟨rfl, (List.cons.inj same).2⟩
  | [], b :: y, s, t, same => by
    rw [List.flatMap_nil, List.nil_append, List.flatMap_cons, List.append_assoc] at same
    exact absurd same.symm (apart b _ _)
  | a :: x, [], s, t, same => by
    rw [List.flatMap_nil, List.nil_append, List.flatMap_cons, List.append_assoc] at same
    exact absurd same (apart a _ _)
  | a :: x, b :: y, s, t, same => by
    rw [List.flatMap_cons, List.flatMap_cons, List.append_assoc, List.append_assoc] at same
    obtain ⟨rfl, rest⟩ := free a b _ _ same
    obtain ⟨rfl, tail⟩ := flatMap_inj free apart rest
    exact ⟨rfl, tail⟩

end PrefixCode
