import DocComment.Text.Space
import Mathlib.Data.List.DropRight
import Mathlib.Data.List.Infix

/-!
Texts without white space at their ends.

* **Trimmed texts** neither begin nor end with white space (`Text.IsTrimmed`). Trimming makes a
  text trimmed and leaves a trimmed text as it is.
* **A text is its trimmed middle between two blanks** (`Text.exists_eq_append_trim`), and any cut
  into a blank, a trimmed text and a blank is this one (`Text.trim_append_append`).
* **Pieces.** A trimmed piece of a text is a piece of the trimmed text
  (`Text.IsTrimmed.isInfix_trim`).
-/

namespace DocComment.Text

/-- Whether a text neither begins nor ends with white space. -/
structure IsTrimmed (t : Text) : Prop where
  head : ∀ c ∈ t.head?, isSpace c = false
  last : ∀ c ∈ t.getLast?, isSpace c = false

lemma isBlank_iff {t : Text} : isBlank t = true ↔ ∀ c ∈ t, isSpace c = true :=
  List.all_eq_true

lemma isBlank_append {t u : Text} :
    isBlank (t ++ u) = true ↔ isBlank t = true ∧ isBlank u = true := by
  simp [isBlank]

/-! ### Trimming one end -/

lemma trimStart_append_of_isBlank {u : Text} (h : isBlank u = true) (t : Text) :
    trimStart (u ++ t) = trimStart t :=
  List.dropWhile_append_of_pos (isBlank_iff.mp h)

lemma trimStart_eq_self {t : Text} (h : ∀ c ∈ t.head?, isSpace c = false) : trimStart t = t := by
  cases t with
  | nil => rfl
  | cons c t => exact List.dropWhile_cons_of_neg (by simp [h c rfl])

/-- What is left begins with a visible character. -/
lemma isSpace_of_mem_head?_trimStart {t : Text} {c : Char} (h : c ∈ (trimStart t).head?) :
    isSpace c = false := by
  have hnot := List.head?_dropWhile_not isSpace t
  rw [← trimStart, Option.mem_def.mp h] at hnot
  simpa using hnot

lemma trimEnd_append_of_isBlank {v : Text} (h : isBlank v = true) (t : Text) :
    trimEnd (t ++ v) = trimEnd t := by
  have hv : isBlank v.reverse = true := by simpa [isBlank] using h
  have hstart := trimStart_append_of_isBlank hv t.reverse
  rw [trimStart, trimStart] at hstart
  rw [trimEnd, trimEnd, List.reverse_append, hstart]

lemma trimEnd_eq_self {t : Text} (h : ∀ c ∈ t.getLast?, isSpace c = false) : trimEnd t = t := by
  have hstart : trimStart t.reverse = t.reverse := trimStart_eq_self (by simpa using h)
  rw [trimStart] at hstart
  rw [trimEnd, hstart, List.reverse_reverse]

/-- What is left ends with a visible character. -/
lemma isSpace_of_mem_getLast?_trimEnd {t : Text} {c : Char} (h : c ∈ (trimEnd t).getLast?) :
    isSpace c = false := by
  rw [trimEnd, List.getLast?_reverse] at h
  exact isSpace_of_mem_head?_trimStart h

lemma trimEnd_isPrefix (t : Text) : trimEnd t <+: t :=
  List.rdropWhile_prefix isSpace t

lemma head?_of_mem_trimEnd {t : Text} {c : Char} (h : c ∈ (trimEnd t).head?) : c ∈ t.head? := by
  obtain ⟨v, hv⟩ := trimEnd_isPrefix t
  rw [← hv]
  cases hnil : trimEnd t with
  | nil => simp [hnil] at h
  | cons d u => simpa [hnil] using h

/-! ### Trimming both ends -/

/-- **Trimming trims.** -/
lemma isTrimmed_trim (t : Text) : IsTrimmed (trim t) where
  head _ hc := isSpace_of_mem_head?_trimStart (head?_of_mem_trimEnd hc)
  last _ hc := isSpace_of_mem_getLast?_trimEnd hc

lemma IsTrimmed.trim_eq {t : Text} (h : IsTrimmed t) : trim t = t := by
  rw [trim, trimStart_eq_self h.head, trimEnd_eq_self h.last]

lemma isTrimmed_nil : IsTrimmed [] :=
  ⟨nofun, nofun⟩

lemma IsTrimmed.ne_lineFeed {t : Text} (h : IsTrimmed t) : ∀ c ∈ t.getLast?, c ≠ '\n' := by
  rintro c hc rfl
  exact absurd (h.last _ hc) (by decide)

/-- A text is its trimmed middle between two blanks. -/
lemma exists_eq_append_trim (t : Text) :
    ∃ u v, t = u ++ trim t ++ v ∧ isBlank u = true ∧ isBlank v = true := by
  refine ⟨t.takeWhile isSpace, (trimStart t).rtakeWhile isSpace, ?_, ?_, ?_⟩
  · have hend : trim t ++ (trimStart t).rtakeWhile isSpace = trimStart t :=
      List.rdropWhile_append_rtakeWhile
    rw [List.append_assoc, hend]
    exact List.takeWhile_append_dropWhile.symm
  · exact isBlank_iff.mpr fun c hc => List.mem_takeWhile_imp hc
  · exact isBlank_iff.mpr fun c hc => List.mem_rtakeWhile_imp hc

/-- Between blanks nothing but the middle is left. -/
lemma trim_append_append {u v : Text} (hu : isBlank u = true) (hv : isBlank v = true) (t : Text) :
    trim (u ++ t ++ v) = trim t := by
  by_cases ht : isBlank t = true
  · rw [trim_eq_nil_iff.mpr ht, trim_eq_nil_iff, isBlank_append, isBlank_append]
    exact ⟨⟨hu, ht⟩, hv⟩
  · have hstart : trimStart (t ++ v) = trimStart t ++ v := by
      have hne : trimStart t ≠ [] := mt trimStart_eq_nil_iff.mp ht
      rw [trimStart] at hne
      rw [trimStart, List.dropWhile_append, if_neg (by simpa using hne), trimStart]
    rw [List.append_assoc, trim, trimStart_append_of_isBlank hu, hstart,
      trimEnd_append_of_isBlank hv, trim]

lemma trim_isInfix (t : Text) : trim t <:+: t := by
  obtain ⟨u, v, h, -, -⟩ := exists_eq_append_trim t
  exact ⟨u, v, h.symm⟩

/-- A piece that begins with a visible character is not trimmed away in front. -/
lemma isInfix_trimStart {w t : Text} (hw : ∀ c ∈ w.head?, isSpace c = false) (h : w <:+: t) :
    w <:+: trimStart t := by
  induction t with
  | nil => exact h
  | cons c t ih =>
      by_cases hc : isSpace c = true
      · rw [trimStart, List.dropWhile_cons_of_pos hc]
        rcases List.infix_cons_iff.mp h with ⟨b, hb⟩ | htail
        · cases w with
          | nil => exact List.nil_infix
          | cons d w =>
              obtain ⟨rfl, -⟩ := List.cons.inj hb
              rw [hw d rfl] at hc
              cases hc
        · exact ih htail
      · rw [trimStart, List.dropWhile_cons_of_neg hc]
        exact h

lemma isInfix_trimEnd {w t : Text} (hw : ∀ c ∈ w.getLast?, isSpace c = false) (h : w <:+: t) :
    w <:+: trimEnd t := by
  have hstart : w.reverse <:+: trimStart t.reverse :=
    isInfix_trimStart (by simpa using hw) (List.reverse_infix.mpr h)
  rw [trimEnd, ← List.reverse_infix, List.reverse_reverse]
  exact hstart

/-- A trimmed piece of a text is a piece of the trimmed text. -/
lemma IsTrimmed.isInfix_trim {w t : Text} (hw : IsTrimmed w) (h : w <:+: t) : w <:+: trim t :=
  isInfix_trimEnd hw.last (isInfix_trimStart hw.head h)

end DocComment.Text
