import DocComment.Proofs.Flush

/-!
Texts that are laid out already.

* **Trimmed lines.** No line of such a text begins or ends with white space, which is to say that it
  is flush, read forwards and backwards (`Text.hasTrimmedLines_iff`).
* **Normal forms.** A text is in normal form if it is trimmed and, by its spacing, single-spaced or
  made of trimmed lines. A fragment on its own is laid out to a normal form
  (`Spacing.isNormal_normalize`), and a normal form is left as it is
  (`Spacing.IsNormal.normalize_eq`), so the normal forms are just what laying out gives
  (`Spacing.exists_normalize_eq_iff`).
-/

namespace DocComment

namespace Text

/-! ### Lines put together -/

/-- The lines of a text are its pieces between line feeds. -/
lemma lines_eq_splitOn (t : Text) : lines t = t.splitOn '\n' := by
  induction t with
  | nil => rfl
  | cons c t ih =>
      rw [lines, List.splitOn_cons_eq_if_modifyHead, ← ih]
      by_cases hc : c = '\n'
      · rw [if_pos hc, if_pos (beq_iff_eq.mpr hc)]
      · rw [if_neg hc, if_neg (mt beq_iff_eq.mp hc)]
        cases hlines : lines t with
        | nil => exact absurd hlines (lines_ne_nil t)
        | cons first rest => rfl

lemma unlines_eq_intercalate (ls : List Text) : unlines ls = ['\n'].intercalate ls := by
  induction ls with
  | nil => rfl
  | cons l ls ih =>
      cases ls with
      | nil => exact List.intercalate_singleton.symm
      | cons m ms => simp [unlines, ih]

/-- Lines that have been put together are found again. -/
lemma lines_unlines {ls : List Text} (hne : ls ≠ []) (h : ∀ l ∈ ls, '\n' ∉ l) :
    lines (unlines ls) = ls := by
  rw [unlines_eq_intercalate, lines_eq_splitOn, List.splitOn_intercalate '\n' h hne]

lemma unlines_append {xs ys : List Text} (hx : xs ≠ []) (hy : ys ≠ []) :
    unlines (xs ++ ys) = unlines xs ++ '\n' :: unlines ys := by
  induction xs with
  | nil => exact absurd rfl hx
  | cons l ls ih =>
      cases ls with
      | nil =>
          obtain ⟨m, ms, rfl⟩ := List.exists_cons_of_ne_nil hy
          rfl
      | cons m ms => simpa [unlines] using ih (List.cons_ne_nil m ms)

lemma reverse_unlines (ls : List Text) :
    (unlines ls).reverse = unlines (ls.map List.reverse).reverse := by
  induction ls with
  | nil => rfl
  | cons l ls ih =>
      cases ls with
      | nil => rfl
      | cons m ms =>
          have hne : ((m :: ms).map List.reverse).reverse ≠ [] := by simp
          calc (l ++ '\n' :: unlines (m :: ms)).reverse
              = (unlines (m :: ms)).reverse ++ '\n' :: l.reverse := by simp
            _ = unlines ((m :: ms).map List.reverse).reverse ++ '\n' :: unlines [l.reverse] := by
              rw [ih, unlines]
            _ = unlines ((l :: m :: ms).map List.reverse).reverse := by
              rw [← unlines_append hne (by simp), ← List.reverse_cons, ← List.map_cons]

/-- Backwards, the lines of a text are the same lines backwards. -/
lemma lines_reverse (t : Text) : lines t.reverse = ((lines t).map List.reverse).reverse := by
  have hne : ((lines t).map List.reverse).reverse ≠ [] := by simp [lines_ne_nil]
  have hfeed : ∀ l ∈ ((lines t).map List.reverse).reverse, '\n' ∉ l := by
    intro l hl hmem
    obtain ⟨line, hline, rfl⟩ := List.mem_map.mp (List.mem_reverse.mp hl)
    exact ne_lineFeed_of_mem_lines hline _ (List.mem_reverse.mp hmem) rfl
  rw [← lines_unlines hne hfeed, ← reverse_unlines, unlines_lines]

/-! ### Trimmed lines -/

/-- Whether no line of a text begins or ends with white space. -/
def HasTrimmedLines (t : Text) : Prop :=
  ∀ line ∈ lines t, IsTrimmed line

lemma isTrimmed_iff {t : Text} :
    IsTrimmed t ↔ BeginsAtMargin t ∧ BeginsAtMargin t.reverse := by
  rw [BeginsAtMargin, BeginsAtMargin, List.head?_reverse]
  exact ⟨fun h => ⟨h.head, h.last⟩, fun h => ⟨h.1, h.2⟩⟩

/-- The lines of a text are trimmed if it is flush from both ends. -/
lemma hasTrimmedLines_iff {t : Text} : HasTrimmedLines t ↔ IsFlush t ∧ IsFlush t.reverse := by
  simp only [HasTrimmedLines, IsFlush, lines_reverse, List.mem_reverse, List.forall_mem_map,
    isTrimmed_iff]
  exact forall₂_and

lemma isTrimmed_reverse {t : Text} (h : IsTrimmed t) : IsTrimmed t.reverse := by
  rw [isTrimmed_iff, List.reverse_reverse]
  exact (isTrimmed_iff.mp h).symm

lemma trim_reverse (t : Text) : trim t.reverse = (trim t).reverse := by
  obtain ⟨u, v, ht, hu, hv⟩ := exists_eq_append_trim t
  have hu' : isBlank u.reverse = true := by simpa [isBlank] using hu
  have hv' : isBlank v.reverse = true := by simpa [isBlank] using hv
  have hsplit : t.reverse = v.reverse ++ (trim t).reverse ++ u.reverse := by
    conv_lhs => rw [ht]
    simp
  rw [hsplit, trim_append_append hv' hu', (isTrimmed_reverse (isTrimmed_trim t)).trim_eq]

/-- Trimming a text leaves its lines trimmed. -/
lemma HasTrimmedLines.trim {t : Text} (h : HasTrimmedLines t) : HasTrimmedLines (Text.trim t) := by
  obtain ⟨hforwards, hbackwards⟩ := hasTrimmedLines_iff.mp h
  refine hasTrimmedLines_iff.mpr ⟨hforwards.trim, ?_⟩
  rw [← trim_reverse]
  exact hbackwards.trim

end Text

namespace Spacing

open Text

lemma lines_trimLines (t : Text) : lines (trimLines t) = (lines t).map trim := by
  refine lines_unlines (by simp [lines_ne_nil]) fun l hl hmem => ?_
  obtain ⟨line, hline, rfl⟩ := List.mem_map.mp hl
  exact ne_lineFeed_of_mem_lines hline _ ((trim_isInfix line).subset hmem) rfl

lemma hasTrimmedLines_trimLines (t : Text) : HasTrimmedLines (trimLines t) := by
  intro line hline
  rw [lines_trimLines] at hline
  obtain ⟨l, -, rfl⟩ := List.mem_map.mp hline
  exact isTrimmed_trim l

lemma trimLines_eq_self {t : Text} (h : HasTrimmedLines t) : trimLines t = t := by
  have hlines : (lines t).map trim = (lines t).map id :=
    List.map_congr_left fun line hline => (h line hline).trim_eq
  rw [trimLines, hlines, List.map_id, unlines_lines]

/-! ### Normal forms -/

/-- Where white space stands alone, collapsing runs changes nothing. -/
lemma collapseAfter_eq_append {gap : Gap} {t : Text} (hgap : gap ≠ .many)
    (hspace : ∀ c ∈ gap.text, isSpace c = true) (h : IsSingleSpaced (gap.text ++ t)) :
    collapseAfter gap t = gap.text ++ t := by
  induction t generalizing gap with
  | nil => rw [collapseAfter, List.append_nil]
  | cons c t ih =>
      rw [collapseAfter]
      cases hc : isSpace c with
      | true =>
          rw [if_pos rfl]
          cases gap with
          | empty => exact ih (by simp [Gap.push]) (by simpa [Gap.push, Gap.text] using hc) h
          | one d =>
              have hd : isSpace d = true := hspace d (by simp [Gap.text])
              have hpair := (List.isChain_cons_cons.mp h).1
              exact absurd ⟨hd, hc⟩ hpair
          | many => exact absurd rfl hgap
      | false =>
          have ht : IsSingleSpaced t := List.IsChain.infix h
            ((List.suffix_cons c t).trans (List.suffix_append gap.text (c :: t))).isInfix
          have hrest : collapseAfter .empty t = t := ih (by simp) (by simp [Gap.text]) ht
          rw [if_neg Bool.false_ne_true, hrest]

lemma collapseRuns_eq_self {t : Text} (h : IsSingleSpaced t) : collapseRuns t = t :=
  collapseAfter_eq_append (by simp) (by simp [Gap.text]) h

/-- Whether a text is laid out already. -/
structure IsNormal (s : Spacing) (t : Text) : Prop where
  isTrimmed : IsTrimmed t
  isSingleSpaced : s = .collapse → IsSingleSpaced t
  hasTrimmedLines : s = .preserve → HasTrimmedLines t

/-- **Laying out** a fragment on its own gives a normal form. -/
theorem isNormal_normalize (s : Spacing) (fragment : Text) :
    s.IsNormal (s.normalize fragment) := by
  rw [normalize, append_nil]
  refine ⟨isTrimmed_trim _, ?_, ?_⟩
  · rintro rfl
    exact List.IsChain.infix (isSingleSpaced_layOut _) (trim_isInfix _)
  · rintro rfl
    exact (hasTrimmedLines_trimLines _).trim

/-- **A normal form** stays as it is. -/
theorem IsNormal.normalize_eq {s : Spacing} {t : Text} (h : s.IsNormal t) :
    s.normalize t = t := by
  have hlaid : s.layOut t = t := by
    cases s with
    | collapse => rw [layOut, collapseRuns_eq_self (h.isSingleSpaced rfl), h.isTrimmed.trim_eq]
    | preserve => exact trimLines_eq_self (h.hasTrimmedLines rfl)
  rw [normalize, append_nil, trimStart_eq_self h.isTrimmed.head, hlaid, h.isTrimmed.trim_eq]

lemma exists_normalize_eq {s : Spacing} {t : Text} :
    (∃ fragment, s.normalize fragment = t) ↔ s.IsNormal t := by
  constructor
  · rintro ⟨fragment, rfl⟩
    exact isNormal_normalize s fragment
  · exact fun h => ⟨t, h.normalize_eq⟩

/-- **The normal forms are the results of laying out.** What has been laid out stays as it is when
it is laid out again. Collapsing gives just the trimmed texts without neighbouring white space, and
preserving just the trimmed texts with trimmed lines. -/
theorem exists_normalize_eq_iff (t : Text) :
    (∀ s : Spacing, s.normalize (s.normalize t) = s.normalize t) ∧
      ((∃ fragment, collapse.normalize fragment = t) ↔ IsTrimmed t ∧ IsSingleSpaced t) ∧
      ((∃ fragment, preserve.normalize fragment = t) ↔ IsTrimmed t ∧ HasTrimmedLines t) := by
  refine ⟨fun s => (isNormal_normalize s t).normalize_eq, ?_, ?_⟩
  · rw [exists_normalize_eq]
    exact ⟨fun h => ⟨h.isTrimmed, h.isSingleSpaced rfl⟩, fun h => ⟨h.1, fun _ => h.2, nofun⟩⟩
  · rw [exists_normalize_eq]
    exact ⟨fun h => ⟨h.isTrimmed, h.hasTrimmedLines rfl⟩, fun h => ⟨h.1, nofun, fun _ => h.2⟩⟩

end Spacing

end DocComment
