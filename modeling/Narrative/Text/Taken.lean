/-!
What a reader takes from the front of a text, with the bound that lets readers be repeated.
-/

set_option autoImplicit false

namespace Narrative

/-- A value read from the front of a text, and the text after it. -/
structure Taken (α : Type) (source : List Char) where
  value : α
  rest : List Char
  shorter : rest.length ≤ source.length

/-- A value for which nothing is taken. -/
def Taken.nothing {α : Type} (source : List Char) (value : α) : Taken α source :=
  ⟨value, source, Nat.le_refl _⟩

/-- The same value taken from a longer text. -/
def Taken.widen {α : Type} {inner outer : List Char} (taken : Taken α inner)
    (bound : inner.length ≤ outer.length) : Taken α outer :=
  ⟨taken.value, taken.rest, Nat.le_trans taken.shorter bound⟩

theorem length_dropWhile_le (accept : Char → Bool) (source : List Char) :
    (source.dropWhile accept).length ≤ source.length :=
  (List.dropWhile_suffix accept).length_le

theorem length_le_of_dropWhile {accept : Char → Bool} {source rest : List Char}
    (split : source.dropWhile accept = rest) : rest.length ≤ source.length :=
  split ▸ length_dropWhile_le accept source

end Narrative
