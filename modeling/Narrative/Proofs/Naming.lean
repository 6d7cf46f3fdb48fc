import Narrative.Document.Parser

/-!
What an identity tells. Both namings write the name of the document, an at sign, and numbers, and
numbers hold none of the signs that stand between. So an identity tells the document, whatever signs
its name holds, and the place where the directive begins.
-/

set_option autoImplicit false

namespace Narrative

/-! ### Numbers -/

theorem not_mem_toDigits {c : Char} (sign : c.isDigit = false) (number : Nat) :
    c ∉ Nat.toDigits 10 number := by
  intro member
  rw [Nat.isDigit_of_mem_toDigits (by decide) (by decide) member] at sign
  cases sign

theorem toDigits_inj {first second : Nat}
    (same : Nat.toDigits 10 first = Nat.toDigits 10 second) : first = second := by
  rw [← Nat.ofDigitChars_ten_toDigits (n := first), same, Nat.ofDigitChars_ten_toDigits]

/-- A text is cut in one way at the last of its signs. -/
theorem append_cons_inj {c : Char} {front other back rest : List Char} (last : c ∉ back)
    (lastToo : c ∉ rest) (same : front ++ c :: back = other ++ c :: rest) :
    front = other ∧ back = rest := by
  -- Of two cuts at different places, the earlier one has the later sign behind it.
  rcases List.append_eq_append_iff.1 same with ⟨between, rfl, split⟩ | ⟨between, rfl, split⟩
  · cases between with
    | nil => exact ⟨(List.append_nil front).symm, (List.cons.inj split).2⟩
    | cons first between =>
      obtain ⟨rfl, rfl⟩ := List.cons.inj split
      simp at last
  · cases between with
    | nil => exact ⟨List.append_nil other, (List.cons.inj split).2.symm⟩
    | cons first between =>
      obtain ⟨rfl, rfl⟩ := List.cons.inj split
      simp at lastToo

/-! ### Places and identities -/

theorem Position.toList_display (place : Position) :
    place.display.toList =
      Nat.toDigits 10 place.line ++ ':' :: Nat.toDigits 10 place.column := by
  simp [display]

/-- A place as it is written tells the line and the column. -/
theorem Position.display_inj {first second : Position}
    (same : first.display.toList = second.display.toList) :
    first.line = second.line ∧ first.column = second.column := by
  rw [toList_display, toList_display] at same
  obtain ⟨lines, columns⟩ := append_cons_inj (not_mem_toDigits rfl first.column)
    (not_mem_toDigits rfl second.column) same
  exact ⟨toDigits_inj lines, toDigits_inj columns⟩

theorem Position.not_mem_display (place : Position) : '@' ∉ place.display.toList := by
  have line := not_mem_toDigits (c := '@') rfl place.line
  have column := not_mem_toDigits (c := '@') rfl place.column
  simp [toList_display, line, column]

namespace Naming

theorem toList_byOffset (document : String) (span : Span) :
    (byOffset document span).toList =
      document.toList ++ '@' :: Nat.toDigits 10 span.start.offset := by
  simp [byOffset]

theorem toList_byLine (document : String) (span : Span) :
    (byLine document span).toList = document.toList ++ '@' :: span.start.display.toList := by
  simp [byLine]

/-- The namings that a host need not bring itself. -/
def BuiltIn (naming : Naming) : Prop := naming = byOffset ∨ naming = byLine

/-- Behind the name of the document and the at sign, an identity has no further at sign. -/
theorem BuiltIn.exists_toList {naming : Naming} (builtIn : naming.BuiltIn) (document : String)
    (span : Span) :
    ∃ place, '@' ∉ place ∧ (naming document span).toList = document.toList ++ '@' :: place := by
  rcases builtIn with rfl | rfl
  · exact ⟨_, not_mem_toDigits rfl span.start.offset, toList_byOffset document span⟩
  · exact ⟨_, span.start.not_mem_display, toList_byLine document span⟩

/-- An identity tells the document and the place. -/
theorem BuiltIn.inj {naming : Naming} (builtIn : naming.BuiltIn) {document other : String}
    {first second : Span} (same : naming document first = naming other second) :
    document = other ∧ (first.start.offset = second.start.offset ∨
      first.start.line = second.start.line ∧ first.start.column = second.start.column) := by
  have texts := congrArg String.toList same
  rcases builtIn with rfl | rfl
  · rw [toList_byOffset, toList_byOffset] at texts
    obtain ⟨documents, offsets⟩ := append_cons_inj (not_mem_toDigits rfl first.start.offset)
      (not_mem_toDigits rfl second.start.offset) texts
    exact ⟨String.toList_inj.1 documents, Or.inl (toDigits_inj offsets)⟩
  · rw [toList_byLine, toList_byLine] at texts
    obtain ⟨documents, places⟩ := append_cons_inj first.start.not_mem_display
      second.start.not_mem_display texts
    exact ⟨String.toList_inj.1 documents, Or.inr (Position.display_inj places)⟩

end Naming

end Narrative
