import Records.Proofs.Sql.Building
import Records.Proofs.Sql.Steps

/-!
# The numbers of a page

A page statement takes the number of rows that it shows and of those it skips as signed 64-bit
integers.  The second is a product of two numbers that are bounded only by 64 bits themselves, and
it is cut off at the greatest of them.  Since a product that is cut off does not fit a signed
integer either (`offset_lt_iff`), the statement is built exactly when both numbers fit, and then
they are bound as they are (`page_numbers_bound`).
-/

set_option autoImplicit false

namespace Records

/-- The number of rows before a page, whatever its size; the pages are counted from one. -/
def Paging.before (paging : Paging) : Nat := (max paging.page 1 - 1) * paging.perPage

namespace Paging

/-- The offset of a page is the number of rows before it, up to the greatest that fits. -/
theorem offset_eq_min (paging : Paging) :
    paging.offset = min paging.before Numeral.greatestNat64 := by
  have hpage : max paging.page 1 - 1 = paging.page - 1 := by omega
  rw [offset, before, hpage]

/-- A number of rows that is cut off does not fit a signed integer, so cutting off is not seen. -/
theorem offset_lt_iff (paging : Paging) : paging.offset < 2 ^ 63 ↔ paging.before < 2 ^ 63 := by
  have hgreatest : 2 ^ 63 ≤ Numeral.greatestNat64 := by decide
  rw [offset_eq_min]
  omega

/-- An offset that can be bound is the number of rows before the page. -/
theorem offset_eq_before {paging : Paging} (h : paging.before < 2 ^ 63) :
    paging.offset = paging.before := by
  have hgreatest : 2 ^ 63 ≤ Numeral.greatestNat64 := by decide
  rw [offset_eq_min]
  omega

end Paging

namespace Sql

variable {model : Model} {query : Query}

/-- What the page statement of a query is, from its parts and the number of rows before the page. -/
theorem Parts.pageOf_eq (parts : Parts model query) (paging : Paging) :
    pageOf model query paging =
      if 2 ^ 63 ≤ paging.perPage then .error (.invalid .perPageTooLarge)
      else if 2 ^ 63 ≤ paging.before then .error (.invalid .pageTooLarge)
      else .ok
        (⟨parts.selection (.window (parts.shown.values.length + 1) (parts.shown.values.length + 2)),
            parts.shown.values ++ [.int paging.perPage, .int paging.before]⟩,
          ⟨⟨tableOf parts.resource, parts.restriction⟩, parts.counted.values⟩) := by
  rw [pageOf, Outcome.bind_of_ok parts.requires]
  show (restrictionOf model parts.resource query {} >>= _) = _
  rw [Outcome.bind_of_ok parts.restricts]
  show (embeddedOf model parts.resource query.eager parts.counted >>= _) = _
  rw [Outcome.bind_of_ok parts.embeds, int64OrFault_eq, int64OrFault_eq]
  by_cases hperPage : 2 ^ 63 ≤ paging.perPage
  · rw [if_pos hperPage, if_pos hperPage]
    rfl
  · rw [if_neg hperPage, if_neg hperPage]
    by_cases hbefore : 2 ^ 63 ≤ paging.before
    · have hoffset : 2 ^ 63 ≤ paging.offset := by
        have := paging.offset_lt_iff
        omega
      rw [if_pos hoffset, if_pos hbefore]
      rfl
    · rw [Paging.offset_eq_before (Nat.not_le.mp hbefore), if_neg hbefore, if_neg hbefore]
      show Except.ok _ = _
      simp [Parts.selection]

/-- A page statement of a query that is rendered is built exactly when the number of its rows and
the number of the rows before them, without a bound, fit signed 64-bit integers.  It binds these two
numbers last, and the fault names the first of them that does not fit. -/
theorem page_numbers_bound {first : Bound Selection} (renders : firstOf model query = .ok first)
    (paging : Paging) :
    ((∃ out, pageOf model query paging = .ok out) ↔
        paging.perPage ≤ 2 ^ 63 - 1 ∧ paging.before ≤ 2 ^ 63 - 1) ∧
      (∀ page tally, pageOf model query paging = .ok (page, tally) →
        page.statement = { first.statement with
          extent := .window (first.values.length + 1) (first.values.length + 2) } ∧
        page.values = first.values ++ [.int paging.perPage, .int paging.before]) ∧
      ∀ why, pageOf model query paging = .error why ↔
        2 ^ 63 - 1 < paging.perPage ∧ why = .invalid .perPageTooLarge ∨
          paging.perPage ≤ 2 ^ 63 - 1 ∧ 2 ^ 63 - 1 < paging.before ∧
            why = .invalid .pageTooLarge := by
  obtain ⟨parts, rfl⟩ := firstOf_built renders
  have hfits : ∀ n : Nat, n ≤ 2 ^ 63 - 1 ↔ ¬ 2 ^ 63 ≤ n := by omega
  have hexceeds : ∀ n : Nat, 2 ^ 63 - 1 < n ↔ 2 ^ 63 ≤ n := by omega
  simp only [hfits, hexceeds, parts.pageOf_eq]
  -- the size is bound first, so its fault comes before that of the offset
  by_cases hperPage : 2 ^ 63 ≤ paging.perPage
  · simp only [hperPage, if_true, not_true, false_and, true_and, or_false]
    exact ⟨by simp, by simp, fun why => by rw [Except.error.injEq, eq_comm]⟩
  · by_cases hbefore : 2 ^ 63 ≤ paging.before
    · simp only [hperPage, hbefore, if_true, if_false, not_true, not_false_iff, and_false, false_and,
        true_and, false_or]
      exact ⟨by simp, by simp, fun why => by rw [Except.error.injEq, eq_comm]⟩
    · simp only [hperPage, hbefore, if_false, not_false_iff, and_self, false_and, true_and,
        false_or, iff_true]
      refine ⟨⟨_, rfl⟩, ?_, by simp⟩
      intro page tally hpage
      cases hpage
      exact ⟨rfl, rfl⟩

/-- Pages at the edge of what fits: the last one of one row, one of more rows than that, and one
whose number of rows before it is cut off. -/
theorem page_numbers_bound_at_edges :
    let query : Query := {
      resource := "posts"
      clause := [(.and, .condition "title" (.equals (.str "Lean")))] }
    ∃ first page tally, firstOf Config.journal query = .ok first ∧
      pageOf Config.journal query ⟨2 ^ 63, 1⟩ = .ok (page, tally) ∧
      page.values = first.values ++ [.int 1, .int Numeral.greatestInt64] ∧
      pageOf Config.journal query ⟨1, 2 ^ 63⟩ = .error (.invalid .perPageTooLarge) ∧
      pageOf Config.journal query ⟨2 ^ 33 + 1, 2 ^ 32⟩ = .error (.invalid .pageTooLarge) := by
  intro query
  obtain ⟨first, renders⟩ : ∃ first, firstOf Config.journal query = .ok first := ⟨_, rfl⟩
  have bound := page_numbers_bound renders
  obtain ⟨⟨page, tally⟩, hpage⟩ := (bound ⟨2 ^ 63, 1⟩).1.mpr (by decide)
  refine ⟨first, page, tally, renders, hpage, ?_, ?_, ?_⟩
  · exact ((bound ⟨2 ^ 63, 1⟩).2.1 page tally hpage).2
  · exact ((bound ⟨1, 2 ^ 63⟩).2.2 _).mpr (.inl ⟨by decide, rfl⟩)
  · exact ((bound ⟨2 ^ 33 + 1, 2 ^ 32⟩).2.2 _).mpr (.inr ⟨by decide, by decide, rfl⟩)

end Sql

end Records
