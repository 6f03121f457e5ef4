import DocComment.Proofs.NormalForm
import Mathlib.Data.List.SplitBy

/-!
What collapsing does to a text, run by run.

* **The gap is the run so far.** While white space is read, the gap that is kept stands for all of
  it: it is written as that run shrunk, a single character as it is and more of them as a blank
  (`Spacing.text_foldl_push`).
* **A text falls apart** behind each of its visible characters (`Spacing.collapseRuns_append`), and
  behind a run of white space if a visible character comes next (`Spacing.collapseRuns_run_append`).
* **The runs and nothing else.** So just the maximal runs of two or more white-space characters are
  replaced, each by one blank (`Spacing.collapseRuns_shrinks`).
-/

namespace DocComment

open Text

namespace Spacing

/-! ### Shrinking a run -/

/-- What a run becomes: two or more white-space characters become a blank, anything else stays. -/
def shrink (run : Text) : Text :=
  if isBlank run = true ∧ 2 ≤ run.length then [' '] else run

lemma shrink_of_isBlank {run : Text} (h : isBlank run = true) :
    shrink run = if 2 ≤ run.length then [' '] else run := by
  rw [shrink]
  simp only [h, true_and]

lemma shrink_of_visible {run : Text} (h : ∀ c ∈ run, isSpace c = false) : shrink run = run := by
  refine if_neg ?_
  rintro ⟨hblank, hlength⟩
  obtain ⟨c, rest, rfl⟩ := List.exists_cons_of_length_pos (Nat.zero_lt_of_lt hlength)
  have hspace := isBlank_iff.mp hblank c List.mem_cons_self
  rw [h c List.mem_cons_self] at hspace
  cases hspace

lemma foldl_push_many (run : Text) : run.foldl (fun gap c => gap.push c) Gap.many = .many := by
  induction run with
  | nil => rfl
  | cons c run ih => exact ih

/-- **The gap stands for the run** that has been read. -/
lemma text_foldl_push {run : Text} (h : isBlank run = true) :
    (run.foldl (fun gap c => gap.push c) Gap.empty).text = shrink run := by
  rw [shrink_of_isBlank h]
  match run with
  | [] => rfl
  | [c] => rfl
  | c :: d :: rest =>
      have hlength : 2 ≤ (c :: d :: rest).length := by simp
      have hmany : (c :: d :: rest).foldl (fun gap c => gap.push c) Gap.empty = .many :=
        foldl_push_many rest
      rw [if_pos hlength, hmany]
      rfl

/-! ### Where a text falls apart -/

/-- A visible character ends the gap in front of it, and behind it nothing is pending. -/
lemma collapseAfter_append_cons {c : Char} (hc : isSpace c = false) (gap : Gap) (t u : Text) :
    collapseAfter gap (t ++ c :: u) = collapseAfter gap (t ++ [c]) ++ collapseRuns u := by
  induction t generalizing gap with
  | nil =>
      simp only [List.nil_append, collapseAfter, hc, collapseRuns]
      simp [Gap.text]
  | cons d t ih =>
      simp only [List.cons_append, collapseAfter]
      split
      · exact ih _
      · rw [ih, List.append_assoc, List.cons_append]

/-- Behind a visible character, and at the beginning, collapsing begins anew. -/
lemma collapseRuns_append {t : Text} (h : ∀ c ∈ t.getLast?, isSpace c = false) (u : Text) :
    collapseRuns (t ++ u) = collapseRuns t ++ collapseRuns u := by
  rcases List.eq_nil_or_concat' t with rfl | ⟨front, c, rfl⟩
  · rfl
  · have hc : isSpace c = false := h c List.getLast?_concat
    rw [List.append_assoc, List.singleton_append]
    exact collapseAfter_append_cons hc .empty front u

/-- White space goes into the gap, which is written when a visible character comes or at the end. -/
lemma collapseAfter_run_append {run u : Text} (hrun : isBlank run = true)
    (hu : ∀ c ∈ u.head?, isSpace c = false) (gap : Gap) :
    collapseAfter gap (run ++ u) =
      (run.foldl (fun gap c => gap.push c) gap).text ++ collapseRuns u := by
  induction run generalizing gap with
  | nil =>
      cases u with
      | nil => simp [collapseAfter, collapseRuns, Gap.text]
      | cons c u =>
          have hc : isSpace c = false := hu c rfl
          simp [collapseAfter, collapseRuns, hc, Gap.text]
  | cons c run ih =>
      obtain ⟨hc, hrest⟩ := List.forall_mem_cons.mp (isBlank_iff.mp hrun)
      rw [List.cons_append, collapseAfter, if_pos hc, ih (isBlank_iff.mpr hrest), List.foldl_cons]

/-- A run of white space is shrunk, and what follows is collapsed by itself. -/
lemma collapseRuns_run_append {run u : Text} (hrun : isBlank run = true)
    (hu : ∀ c ∈ u.head?, isSpace c = false) :
    collapseRuns (run ++ u) = shrink run ++ collapseRuns u := by
  rw [collapseRuns, collapseAfter_run_append hrun hu, text_foldl_push hrun]

lemma collapseRuns_of_visible {t : Text} (h : ∀ c ∈ t, isSpace c = false) :
    collapseRuns t = t := by
  refine collapseRuns_eq_self (List.Pairwise.isChain ?_)
  refine List.pairwise_of_forall_mem_list fun a ha b _ hab => ?_
  rw [h a ha] at hab
  exact Bool.false_ne_true hab.1

/-! ### Maximal runs -/

/-- Whether two characters are both white space or both visible. -/
def sameClass (c d : Char) : Bool :=
  isSpace c == isSpace d

/-- The runs of a text: its longest pieces that are either white space or free of it. -/
def runs (t : Text) : List Text :=
  t.splitBy sameClass

/-- A piece of one class is white space or free of it. -/
lemma isBlank_or_visible {run : Text} (h : run.IsChain fun c d => sameClass c d = true) :
    isBlank run = true ∨ ∀ c ∈ run, isSpace c = false := by
  induction run with
  | nil => exact .inl rfl
  | cons c run ih =>
      obtain ⟨hfirst, hrest⟩ := List.isChain_cons.mp h
      cases run with
      | nil =>
          cases hc : isSpace c with
          | true => exact .inl (isBlank_iff.mpr (List.forall_mem_singleton.mpr hc))
          | false => exact .inr (List.forall_mem_singleton.mpr hc)
      | cons d run =>
          have hsame : isSpace c = isSpace d := beq_iff_eq.mp (hfirst d rfl)
          rcases ih hrest with hblank | hvisible
          · have hall := isBlank_iff.mp hblank
            exact .inl (isBlank_iff.mpr
              (List.forall_mem_cons.mpr ⟨hsame.trans (hall d List.mem_cons_self), hall⟩))
          · exact .inr
              (List.forall_mem_cons.mpr ⟨hsame.trans (hvisible d List.mem_cons_self), hvisible⟩)

/-- Where a run ends the class changes. -/
lemma isSpace_ne_of_isChain {run : Text} {rest : List Text}
    (h : (run :: rest).IsChain fun a b => ∃ ha hb, sameClass (a.getLast ha) (b.head hb) = false) :
    ∀ c ∈ run.getLast?, ∀ d ∈ rest.flatten.head?, isSpace c ≠ isSpace d := by
  intro c hc d hd
  cases rest with
  | nil => cases hd
  | cons next rest =>
      obtain ⟨hrun, hnext, hclass⟩ := (List.isChain_cons.mp h).1 next rfl
      have hlast : run.getLast hrun = c := by
        rw [List.getLast?_eq_some_getLast hrun] at hc
        exact Option.some.inj hc
      have hhead : next.head hnext = d := by
        rw [List.flatten_cons, List.head?_append_of_ne_nil _ hnext,
          List.head?_eq_some_head hnext] at hd
        exact Option.some.inj hd
      rw [hlast, hhead] at hclass
      exact beq_eq_false_iff_ne.mp hclass

/-- Pieces that are runs are shrunk one by one. -/
lemma collapseRuns_flatten {rs : List Text} (hne : [] ∉ rs)
    (hruns : ∀ run ∈ rs, run.IsChain fun c d => sameClass c d = true)
    (hnext : rs.IsChain fun a b => ∃ ha hb, sameClass (a.getLast ha) (b.head hb) = false) :
    collapseRuns rs.flatten = rs.flatMap shrink := by
  induction rs with
  | nil => rfl
  | cons run rest ih =>
      obtain ⟨hrun, hrest⟩ := List.forall_mem_cons.mp hruns
      have hnil : run ≠ [] ∧ [] ∉ rest := by simpa [eq_comm] using hne
      have hseam := isSpace_ne_of_isChain hnext
      have hlast := List.getLast?_eq_some_getLast hnil.1
      have hih := ih hnil.2 hrest (List.isChain_cons.mp hnext).2
      rw [List.flatten_cons, List.flatMap_cons, ← hih]
      -- the next run is of the other class, so for either class the text falls apart here
      rcases isBlank_or_visible hrun with hblank | hvisible
      · refine collapseRuns_run_append hblank fun d hd => ?_
        have hspace := isBlank_iff.mp hblank _ (List.getLast_mem hnil.1)
        exact Bool.eq_false_iff.mpr fun h => hseam _ hlast d hd (hspace.trans h.symm)
      · rw [collapseRuns_append fun c hc => hvisible c (List.mem_of_getLast? hc),
          collapseRuns_of_visible hvisible, shrink_of_visible hvisible]

/-- **Just the maximal runs are shrunk.** Between a text that does not end with white space and one
that does not begin with it, white space of two or more characters becomes a blank and a single
character stays, and the texts on the two sides are collapsed as if they stood alone; a text without
white space is not changed. So collapsing replaces the runs of a text one by one. -/
theorem collapseRuns_shrinks :
    (∀ x w y : Text, (∀ c ∈ x.getLast?, isSpace c = false) → isBlank w = true →
      (∀ c ∈ y.head?, isSpace c = false) →
        collapseRuns (x ++ w ++ y) =
          collapseRuns x ++ (if 2 ≤ w.length then [' '] else w) ++ collapseRuns y) ∧
      (∀ x : Text, (∀ c ∈ x, isSpace c = false) → collapseRuns x = x) ∧
      ∀ t, collapseRuns t = (runs t).flatMap shrink := by
  refine ⟨fun x w y hx hw hy => ?_, fun x hx => collapseRuns_of_visible hx, fun t => ?_⟩
  · rw [List.append_assoc, collapseRuns_append hx, collapseRuns_run_append hw hy,
      shrink_of_isBlank hw, List.append_assoc]
  · have hruns : ∀ run ∈ runs t, run.IsChain fun c d => sameClass c d = true :=
      fun _ hrun => List.isChain_of_mem_splitBy hrun
    have hflat := collapseRuns_flatten (List.nil_notMem_splitBy sameClass t) hruns
      (List.isChain_getLast_head_splitBy sameClass t)
    rwa [List.flatten_splitBy] at hflat

theorem collapseRuns_shrinks_wideGap :
    (∀ c ∈ "a\tb".toList.getLast?, isSpace c = false) ∧ isBlank " \u00a0\n".toList = true ∧
      (∀ c ∈ ['c'].head?, isSpace c = false) ∧ (∀ c ∈ ['c'], isSpace c = false) ∧
      collapseRuns ("a\tb".toList ++ " \u00a0\n".toList ++ ['c']) = "a\tb c".toList := by
  obtain ⟨hlaw, hvisible, -⟩ := collapseRuns_shrinks
  have hx : ∀ c ∈ "a\tb".toList.getLast?, isSpace c = false := by
    rintro c ⟨⟩
    rfl
  have hw : isBlank " \u00a0\n".toList = true := by decide
  have hc : ∀ c ∈ ['c'], isSpace c = false := List.forall_mem_singleton.mpr rfl
  have hy : ∀ c ∈ ['c'].head?, isSpace c = false := fun c hhead =>
    hc c (List.mem_of_head? hhead)
  refine ⟨hx, hw, hy, hc, ?_⟩
  rw [hlaw _ _ _ hx hw hy, hvisible _ hc]
  decide

end Spacing

end DocComment
