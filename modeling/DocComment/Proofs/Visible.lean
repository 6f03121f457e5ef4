import DocComment.Spacing
import DocComment.Text.Numeral
import Mathlib.Tactic.Common

/-!
The visible characters of a text.

* **Visible characters** are those that are no white space (`Text.visible`). Joining texts joins
  them, and trimming leaves them alone.
* **Laying out** a fragment touches white space only, whichever spacing it goes by, so that
  appending a fragment appends its visible characters (`Spacing.visible_append`).
-/

namespace DocComment

namespace Text

/-- The characters of a text that are no white space. -/
def visible (t : Text) : Text :=
  t.filter fun c => !isSpace c

@[simp] lemma visible_nil : visible [] = [] := rfl

@[simp] lemma visible_append (t u : Text) : visible (t ++ u) = visible t ++ visible u :=
  List.filter_append ..

lemma visible_cons_of_isSpace {c : Char} (h : isSpace c = true) (t : Text) :
    visible (c :: t) = visible t := by
  simp [visible, h]

lemma visible_cons_of_not_isSpace {c : Char} (h : isSpace c = false) (t : Text) :
    visible (c :: t) = c :: visible t := by
  simp [visible, h]

@[simp] lemma visible_lineFeed (t : Text) : visible ('\n' :: t) = visible t :=
  visible_cons_of_isSpace rfl t

/-- Nothing is seen of a blank text. -/
lemma visible_eq_nil_iff {t : Text} : visible t = [] ↔ isBlank t = true := by
  simp [visible, isBlank]

/-- A text without white space is all visible. -/
lemma visible_of_forall {t : Text} (h : ∀ c ∈ t, isSpace c = false) : visible t = t := by
  simpa [visible] using h

/-! ### Trimming -/

@[simp] lemma visible_trimStart (t : Text) : visible (trimStart t) = visible t := by
  induction t with
  | nil => rfl
  | cons c t ih =>
      rw [trimStart] at ih ⊢
      cases h : isSpace c with
      | true => rw [List.dropWhile_cons_of_pos h, ih, visible_cons_of_isSpace h]
      | false => rw [List.dropWhile_cons_of_neg (by simp [h])]

@[simp] lemma visible_trimEnd (t : Text) : visible (trimEnd t) = visible t := by
  have h := visible_trimStart t.reverse
  rw [visible, visible, List.filter_reverse] at h
  rw [trimEnd, visible, visible, List.filter_reverse]
  exact List.reverse_eq_iff.mpr h

@[simp] lemma visible_trim (t : Text) : visible (trim t) = visible t := by
  rw [trim, visible_trimEnd, visible_trimStart]

/-- A trimmed text of which nothing is seen is empty. -/
lemma isEmpty_visible_trim (t : Text) : (visible (trim t)).isEmpty = (trim t).isEmpty := by
  rw [Bool.eq_iff_iff, List.isEmpty_iff, List.isEmpty_iff, visible_trim, visible_eq_nil_iff,
    trim_eq_nil_iff]

/-! ### Lines -/

lemma visible_unlines (ls : List Text) : visible (unlines ls) = ls.flatMap visible := by
  induction ls with
  | nil => rfl
  | cons l ls ih =>
      cases ls with
      | nil => simp [unlines]
      | cons m ms => simp [unlines, ih]

/-- What is seen of a text is what is seen of its lines. -/
lemma flatMap_visible_lines (t : Text) : (lines t).flatMap visible = visible t := by
  rw [← visible_unlines, unlines_lines]

/-! ### Numerals -/

lemma isSpace_of_isDigit {c : Char} (h : c.isDigit = true) : isSpace c = false := by
  simp only [Char.isDigit, Bool.and_eq_true, decide_eq_true_eq] at h
  have hlow : 48 ≤ c.toNat := h.1
  have hhigh : c.toNat ≤ 57 := h.2
  refine Bool.eq_false_iff.mpr fun hspace => ?_
  obtain ⟨r, hr, hfirst, hlast⟩ := CharClass.contains_iff.mp hspace
  have houtside : ∀ r ∈ spaces, r.2 < 48 ∨ 57 < r.1 := by decide
  rcases houtside r hr with hbelow | habove
  · omega
  · omega

/-- Numerals are all visible. -/
lemma visible_signedDecimal (n : Int) : visible (signedDecimal n) = signedDecimal n := by
  have hdigits : ∀ k : Nat, ∀ c ∈ decimal k, isSpace c = false := fun k c hc =>
    isSpace_of_isDigit (Nat.isDigit_of_mem_toDigits (by decide) (by decide) hc)
  refine visible_of_forall ?_
  cases n with
  | ofNat k => exact hdigits k
  | negSucc k =>
      intro c hc
      rcases List.mem_cons.mp hc with rfl | hc
      · rfl
      · exact hdigits (k + 1) c hc

end Text

/-! ### Laying out -/

namespace Spacing

open Text

/-- Runs of white space are collapsed to white space. -/
lemma visible_collapseAfter {gap : Gap} (hgap : visible gap.text = []) (t : Text) :
    visible (collapseAfter gap t) = visible t := by
  induction t generalizing gap with
  | nil => exact hgap
  | cons c t ih =>
      rw [collapseAfter]
      cases h : isSpace c with
      | true =>
          have hpush : visible (gap.push c).text = [] := by
            cases gap with
            | empty => exact visible_cons_of_isSpace h []
            | one d => rfl
            | many => rfl
          rw [if_pos rfl, ih hpush, visible_cons_of_isSpace h]
      | false =>
          rw [if_neg (by simp), Text.visible_append, hgap, List.nil_append,
            visible_cons_of_not_isSpace h, visible_cons_of_not_isSpace h, ih rfl]

lemma visible_trimLines (t : Text) : visible (trimLines t) = visible t := by
  rw [trimLines, visible_unlines, List.flatMap_map, ← flatMap_visible_lines t]
  simp only [visible_trim]

lemma visible_layOut (s : Spacing) (t : Text) : visible (s.layOut t) = visible t := by
  cases s with
  | collapse => rw [layOut, visible_trim, collapseRuns, visible_collapseAfter rfl]
  | preserve => rw [layOut, visible_trimLines]

lemma visible_separator (out fragment : Text) : visible (separator out fragment) = [] := by
  rw [separator]
  split
  · rfl
  · rfl

/-- **Appending** a fragment appends its visible characters. -/
lemma visible_append (s : Spacing) (out fragment : Text) :
    visible (s.append out fragment) = visible out ++ visible fragment := by
  rw [append, Text.visible_append, Text.visible_append, visible_separator, visible_layOut,
    visible_trimStart, List.append_nil]

lemma visible_normalize (s : Spacing) (fragment : Text) :
    visible (s.normalize fragment) = visible fragment := by
  rw [normalize, visible_trim, visible_append, visible_nil, List.nil_append]

/-- A fragment laid out by itself is empty if nothing is seen of it. -/
lemma isEmpty_normalize (s : Spacing) (fragment : Text) :
    (s.normalize fragment).isEmpty = (visible fragment).isEmpty := by
  rw [← visible_normalize s fragment, normalize, isEmpty_visible_trim]

end Spacing

end DocComment
