import LicenseDepot.Proofs.Content.Reread
import LicenseDepot.Proofs.LicenseDocument.Layout

/-!
# Licences in documents with layout

Whoever edits a document may indent it, and put blanks around what is trimmed: the licence in it is
the same as before. What is not trimmed is kept to the last blank. Main statement:
`toLicense_laidOut`.
-/

namespace LicenseDepot.Content

open Text Markup LicenseDocument

/-- A document that is laid out holds the licence that the document as it was written holds: the
same one in all its terms, and with the entries and the features that have been written, blank as
they may be at their ends or altogether. -/
theorem toLicense_laidOut {l : License} {s laidOut : List Char} (h : l.document = .ok s)
    (hlaid : IsLaidOut l.terms laidOut) :
    s.Sublist laidOut ∧ ∃ u : Terms, toLicense (.text s) = .ok (.plain u) ∧
      toLicense (.text laidOut) = .ok (.plain u) ∧
      u.licensee.entries = l.terms.licensee.entries ∧ u.features = l.terms.features := by
  refine ⟨sublist_of_isLaidOut h hlaid, termsAsRead l.terms, toLicense_write h, ?_, rfl, rfl⟩
  have hread : readTerms laidOut = .ok (termsAsRead l.terms) :=
    readTerms_eq_ok_iff.2 (read_of_isLaidOut hlaid)
  rw [toLicense, hread]
  rfl

/-- Texts on lines of their own, with a tab before each of them. -/
def onLines (ts : List (List Char)) : List Char :=
  ts.flatMap (fun t => ['\n', '\t'] ++ t) ++ ['\n']

theorem spaced_onLines (ts : List (List Char)) : Spaced ts (onLines ts) := by
  induction ts with
  | nil =>
    apply Spaced.nil
    simp [IsRun, onLines]
  | cons t ts ih =>
    have hcons : onLines (t :: ts) = ['\n', '\t'] ++ (t ++ onLines ts) := by simp [onLines]
    rw [hcons]
    apply Spaced.cons _ ih
    simp [IsRun]

/-- A text that stands on a line of its own. -/
def onLine (s : List Char) : List Char :=
  ['\n', ' '] ++ (s ++ ['\t', '\n'])

theorem padded_onLine (s : List Char) : Padded s (onLine s) :=
  ⟨_, _, by simp [IsRun], by simp [IsRun], rfl⟩

/-- The document of the awkward terms with layout wherever it may have some. -/
def awkwardLayout : List Char :=
  declaration ++ within "license" (onLines
    [(leaf "id" (onLine awkwardTerms.id.chars)).render,
      (leaf "type" (onLine "PAID".toList)).render,
      within "licensee" (onLines
        ((awkwardTerms.licensee.entries.map entryLeaf).map Element.render)),
      within "features" (onLines ((awkwardTerms.features.map featureLeaf).map Element.render)),
      (leaf "expirationDate" (onLine "2024-02-29T23:59:59.000007-00:00:00.500000".toList)).render,
      (leaf "maxUserCount" (onLine "-3".toList)).render])

theorem isLaidOut_awkwardLayout : IsLaidOut awkwardTerms awkwardLayout := by
  have hid : awkwardTerms.id.chars ≠ [] := by decide
  refine ⟨_, _, _, toElement_eq_ok_iff.2 ⟨termsWritable_awkwardTerms, rfl⟩, ?_,
    spaced_onLines _, rfl⟩
  exact .cons (.padded (by decide) hid (padded_onLine _)) <|
    .cons (.padded (by decide) (by decide) (padded_onLine _)) <|
    .cons (.spaced (by decide) (by decide) (spaced_onLines _)) <|
    .cons (.spaced (by decide) (by decide) (spaced_onLines _)) <|
    .cons (.padded (by decide) (by decide) (padded_onLine _)) <|
    .cons (.padded (by decide) (by decide) (padded_onLine _)) .nil

theorem awkwardLayout_ne {s : List Char} (h : (License.plain awkwardTerms).document = .ok s) :
    awkwardLayout ≠ s := by
  obtain ⟨-, rfl⟩ := write_eq_ok_iff.1 h
  intro heq
  have hid : (leaf "id" awkwardTerms.id.chars).render
      = within "id" (escape awkwardTerms.id.chars) := render_leaf (by decide)
  have hrender : (termsElement awkwardTerms).render = within "license"
      ((leaf "id" awkwardTerms.id.chars).render
        ++ (termsElement awkwardTerms).children.tail.flatMap Element.render) :=
    render_branch (List.cons_ne_nil _ _)
  -- After the first tag, one document goes on with a line end and the other one with a tag.
  have hlicense := (List.append_cancel_left heq).trans hrender
  rw [hid] at hlicense
  have hnext := congrArg (fun t => (t.drop "<license>".length).head?) hlicense
  cases hnext

theorem toLicense_laidOut_awkwardLayout :
    ∃ s u, (License.plain awkwardTerms).document = .ok s ∧ IsLaidOut awkwardTerms awkwardLayout ∧
      awkwardLayout ≠ s ∧ toLicense (.text s) = .ok (.plain u) ∧
      toLicense (.text awkwardLayout) = .ok (.plain u) ∧
      u.licensee.entries = [("a\"<", "x\ty\n&]]>"), ("", "")] ∧ u.features = ["", "  ", "ñ🦊"] := by
  obtain ⟨s, hs⟩ := document_awkwardTerms
  obtain ⟨-, u, hread, hlaid, hentries, hfeatures⟩ := toLicense_laidOut hs isLaidOut_awkwardLayout
  exact ⟨s, u, hs, isLaidOut_awkwardLayout, awkwardLayout_ne hs, hread, hlaid, hentries, hfeatures⟩

end LicenseDepot.Content
