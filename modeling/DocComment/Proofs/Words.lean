import DocComment.Proofs.Flush

/-!
The words of a text, and what appending a fragment does to them.

* **Words** are what stands between white space. Everything about them follows from one equation:
  a text falls apart at each of its white-space characters (`Text.words_append_cons`).
* **Laying out** drops, moves and replaces white space, but never all of it between two words, so
  a fragment keeps its words (`Spacing.words_layOut`).
* **The seam** keeps the words on its two sides apart, unless a symbol comes directly behind a
  word: then the last word and the first one become one (`Spacing.words_append`).
-/

namespace DocComment

namespace Text

/-! ### Words -/

/-- The words of a text: the pieces between its white-space characters, without empty ones. -/
def words (t : Text) : List Text :=
  (t.splitOnP isSpace).filter fun w => !w.isEmpty

@[simp] lemma words_nil : words [] = [] := rfl

/-- A text falls apart at a white-space character. -/
lemma words_append_cons (t : Text) {c : Char} (hc : isSpace c = true) (u : Text) :
    words (t ++ c :: u) = words t ++ words u := by
  rw [words, List.splitOnP_append_cons t u hc, List.filter_append, words, words]

lemma words_cons {c : Char} (hc : isSpace c = true) (t : Text) : words (c :: t) = words t :=
  words_append_cons [] hc t

/-- Behind white space, and at the beginning, words begin anew. -/
lemma words_append_of_last {t : Text} (h : ∀ c ∈ t.getLast?, isSpace c = true) (u : Text) :
    words (t ++ u) = words t ++ words u := by
  rcases List.eq_nil_or_concat' t with rfl | ⟨front, c, rfl⟩
  · rfl
  · have hc : isSpace c = true := h c List.getLast?_concat
    rw [List.append_assoc, List.singleton_append, words_append_cons front hc,
      words_append_cons front hc, words_nil, List.append_nil]

/-- In front of white space, and at the end, words are finished. -/
lemma words_append_of_head (t : Text) {u : Text} (h : ∀ c ∈ u.head?, isSpace c = true) :
    words (t ++ u) = words t ++ words u := by
  cases u with
  | nil => rw [List.append_nil, words_nil, List.append_nil]
  | cons c u => rw [words_append_cons t (h c rfl), words_cons (h c rfl)]

lemma words_of_isBlank {t : Text} (h : isBlank t = true) : words t = [] := by
  induction t with
  | nil => rfl
  | cons c t ih =>
      obtain ⟨hc, ht⟩ := List.forall_mem_cons.mp (isBlank_iff.mp h)
      rw [words_cons hc, ih (isBlank_iff.mpr ht)]

/-- White space belongs to no word. -/
lemma words_blank_append {blank : Text} (h : isBlank blank = true) (t : Text) :
    words (blank ++ t) = words t := by
  have hlast : ∀ c ∈ blank.getLast?, isSpace c = true := fun c hc =>
    isBlank_iff.mp h c (List.mem_of_getLast? hc)
  rw [words_append_of_last hlast, words_of_isBlank h, List.nil_append]

/-- Between words it does not matter what white space there is, as long as there is some. -/
lemma words_append_blank_append {blank : Text} (hne : blank ≠ []) (h : isBlank blank = true)
    (t u : Text) : words (t ++ blank ++ u) = words t ++ words u := by
  obtain ⟨c, rest, rfl⟩ := List.exists_cons_of_ne_nil hne
  have hc : isSpace c = true := isBlank_iff.mp h c List.mem_cons_self
  rw [List.append_assoc, words_append_of_head t (by simpa using hc), words_blank_append h]

lemma words_trimStart (t : Text) : words (trimStart t) = words t := by
  have hblank : isBlank (t.takeWhile isSpace) = true :=
    isBlank_iff.mpr fun c hc => List.mem_takeWhile_imp hc
  calc words (trimStart t)
      = words (t.takeWhile isSpace ++ trimStart t) := (words_blank_append hblank _).symm
    _ = words t := by rw [trimStart, List.takeWhile_append_dropWhile]

lemma words_trim (t : Text) : words (trim t) = words t := by
  obtain ⟨u, v, ht, hu, hv⟩ := exists_eq_append_trim t
  have hhead : ∀ c ∈ v.head?, isSpace c = true := fun c hc =>
    isBlank_iff.mp hv c (List.mem_of_head? hc)
  conv_rhs => rw [ht]
  rw [List.append_assoc, words_blank_append hu, words_append_of_head _ hhead,
    words_of_isBlank hv, List.append_nil]

/-- The words of lines are not changed by putting the lines together. -/
lemma words_unlines (ls : List Text) : words (unlines ls) = ls.flatMap words := by
  induction ls with
  | nil => rfl
  | cons l ls ih =>
      cases ls with
      | nil => rw [unlines, List.flatMap_singleton]
      | cons m ms =>
          rw [List.flatMap_cons, ← ih]
          exact words_append_cons l (by decide) (unlines (m :: ms))

lemma flatMap_words_lines (t : Text) : (lines t).flatMap words = words t := by
  rw [← words_unlines, unlines_lines]

/-! ### The first and the last word -/

/-- Whether a text is a word: there is something to see and no white space. -/
def IsWord (w : Text) : Prop :=
  w ≠ [] ∧ ∀ c ∈ w, isSpace c = false

lemma IsWord.words_eq {w : Text} (h : IsWord w) : words w = [w] := by
  rw [words, List.splitOnP_eq_singleton h.2]
  simp [h.1]

lemma IsWord.reverse {w : Text} (h : IsWord w) : IsWord w.reverse :=
  ⟨mt List.reverse_eq_nil_iff.mp h.1, fun c hc => h.2 c (List.mem_reverse.mp hc)⟩

/-- What begins with a visible character begins with a word. -/
lemma exists_word_append {t : Text} {c : Char} (hc : t.head? = some c)
    (hvisible : isSpace c = false) :
    ∃ w rest, t = w ++ rest ∧ IsWord w ∧ ∀ d ∈ rest.head?, isSpace d = true := by
  let isVisible (d : Char) : Bool := !isSpace d
  obtain ⟨u, rfl⟩ := List.head?_eq_some_iff.mp hc
  refine ⟨(c :: u).takeWhile isVisible, (c :: u).dropWhile isVisible,
    List.takeWhile_append_dropWhile.symm, ⟨?_, fun d hd => ?_⟩, fun d hd => ?_⟩
  · rw [List.takeWhile_cons_of_pos (by simp [isVisible, hvisible])]
    exact List.cons_ne_nil _ _
  · simpa [isVisible] using List.mem_takeWhile_imp hd
  · have hnot := List.head?_dropWhile_not isVisible (c :: u)
    rw [Option.mem_def.mp hd] at hnot
    simpa [isVisible] using hnot

/-- What ends with a visible character ends with a word. -/
lemma exists_append_word {t : Text} {c : Char} (hc : t.getLast? = some c)
    (hvisible : isSpace c = false) :
    ∃ before w, t = before ++ w ∧ IsWord w ∧ ∀ d ∈ before.getLast?, isSpace d = true := by
  have hhead : t.reverse.head? = some c := by rw [List.head?_reverse, hc]
  obtain ⟨w, rest, ht, hw, hrest⟩ := exists_word_append hhead hvisible
  refine ⟨rest.reverse, w.reverse, ?_, hw.reverse, fun d hd => hrest d ?_⟩
  · rw [← List.reverse_append, ← ht, List.reverse_reverse]
  · rwa [List.getLast?_reverse] at hd

/-- A word with white space, or nothing, on its two sides is one of the words. -/
lemma words_append_word_append {before w rest : Text}
    (hbefore : ∀ c ∈ before.getLast?, isSpace c = true) (hw : IsWord w)
    (hrest : ∀ c ∈ rest.head?, isSpace c = true) :
    words (before ++ w ++ rest) = words before ++ w :: words rest := by
  rw [words_append_of_head _ hrest, words_append_of_last hbefore, hw.words_eq, List.append_assoc,
    List.singleton_append]

/-- **Two texts that meet in the middle of a word**: the last word of the one and the first word of
the other become one. -/
lemma exists_words_append {t u : Text} {c d : Char} (hc : t.getLast? = some c)
    (hvisible : isSpace c = false) (hd : u.head? = some d) (hvisible' : isSpace d = false) :
    ∃ before last first rest, words t = before ++ [last] ∧ words u = first :: rest ∧
      words (t ++ u) = before ++ (last ++ first) :: rest := by
  obtain ⟨before, last, rfl, hlast, hbefore⟩ := exists_append_word hc hvisible
  obtain ⟨first, rest, rfl, hfirst, hrest⟩ := exists_word_append hd hvisible'
  have hglued : IsWord (last ++ first) :=
    ⟨by simp [hlast.1], List.forall_mem_append.mpr ⟨hlast.2, hfirst.2⟩⟩
  refine ⟨words before, last, first, words rest, ?_, ?_, ?_⟩
  · rw [words_append_of_last hbefore, hlast.words_eq]
  · rw [words_append_of_head first hrest, hfirst.words_eq, List.singleton_append]
  · rw [← words_append_word_append hbefore hglued hrest]
    simp only [List.append_assoc]

end Text

namespace Spacing

open Text

/-! ### Laying out -/

lemma isBlank_empty : isBlank Gap.empty.text = true := rfl

lemma isBlank_push {gap : Gap} {c : Char} (hc : isSpace c = true) :
    isBlank (gap.push c).text = true := by
  cases gap with
  | empty => simpa [Gap.push, Gap.text, isBlank] using hc
  | one d => rfl
  | many => rfl

lemma push_ne_nil (gap : Gap) (c : Char) : (gap.push c).text ≠ [] := by
  cases gap with
  | empty => exact List.cons_ne_nil _ _
  | one d => exact List.cons_ne_nil _ _
  | many => exact List.cons_ne_nil _ _

/-- Collapsing runs keeps the words, whatever stands in front. -/
lemma words_append_collapseAfter {gap : Gap} (hgap : isBlank gap.text = true) (t before : Text) :
    words (before ++ collapseAfter gap t) = words (before ++ gap.text ++ t) := by
  induction t generalizing gap before with
  | nil => rw [collapseAfter, List.append_nil]
  | cons c t ih =>
      rw [collapseAfter]
      cases hc : isSpace c with
      | true =>
          have hrun : isBlank (gap.text ++ [c]) = true :=
            isBlank_append.mpr ⟨hgap, by simpa [isBlank] using hc⟩
          have hsame : before ++ gap.text ++ c :: t = before ++ (gap.text ++ [c]) ++ t := by simp
          rw [if_pos rfl, ih (isBlank_push hc), hsame,
            words_append_blank_append (push_ne_nil gap c) (isBlank_push hc),
            words_append_blank_append (by simp) hrun]
      | false =>
          have hrest := ih isBlank_empty (before ++ gap.text ++ [c])
          have hempty : before ++ gap.text ++ [c] ++ Gap.empty.text ++ t =
              before ++ gap.text ++ c :: t := by simp [Gap.text]
          rw [if_neg Bool.false_ne_true, ← hempty, ← hrest]
          simp

lemma words_trimLines (t : Text) : words (trimLines t) = words t := by
  rw [trimLines, words_unlines, List.flatMap_map, ← flatMap_words_lines t]
  simp only [words_trim]

/-- **Laying out** a fragment keeps its words. -/
lemma words_layOut (s : Spacing) (t : Text) : words (s.layOut t) = words t := by
  cases s with
  | collapse => exact (words_trim _).trans (words_append_collapseAfter isBlank_empty t [])
  | preserve => exact words_trimLines t

lemma layOut_nil (s : Spacing) : s.layOut [] = [] := by
  cases s with
  | collapse => rfl
  | preserve => rfl

lemma head?_trim_cons {c : Char} (hc : isSpace c = false) (t : Text) :
    (trim (c :: t)).head? = some c := by
  have hstart : trimStart (c :: t) = c :: t := trimStart_eq_self (by simpa using hc)
  have hne : trimEnd (c :: t) ≠ [] := by
    rw [Ne, trimEnd_eq_nil_iff, isBlank, List.all_cons, hc]
    exact Bool.false_ne_true
  obtain ⟨d, u, hd⟩ := List.exists_cons_of_ne_nil hne
  have hmem : d ∈ (c :: t).head? := head?_of_mem_trimEnd (by rw [hd]; rfl)
  rw [trim, hstart, hd]
  exact hmem.symm

/-- A visible character at the beginning stays where it is. -/
lemma head?_layOut_cons (s : Spacing) {c : Char} (hc : isSpace c = false) (t : Text) :
    (s.layOut (c :: t)).head? = some c := by
  cases s with
  | collapse =>
      rw [layOut, collapseRuns, collapseAfter, if_neg (Bool.eq_false_iff.mp hc)]
      exact head?_trim_cons hc _
  | preserve =>
      have hfeed : c ≠ '\n' := by
        rintro rfl
        exact absurd hc (by decide)
      obtain ⟨first, rest, -, hlines⟩ := exists_lines_cons t
      have hhead := head?_trim_cons hc first
      obtain ⟨u, hu⟩ := List.head?_eq_some_iff.mp hhead
      rw [layOut, trimLines, hlines c hfeed, List.map_cons, hu]
      cases rest with
      | nil => rfl
      | cons m ms => rfl

/-! ### The seam -/

/-- Whether the words of a fragment stay apart from those in front of it: it begins with a letter, a
number or a low line, or there is no word directly in front, or it has no words. -/
def StaysApart (out fragment : Text) : Prop :=
  (∃ c ∈ (trimStart fragment).head?, isWordChar c = true) ∨
    (out = [] ∨ ∃ c ∈ out.getLast?, isSpace c = true) ∨ isBlank fragment = true

/-- A fragment that does not stay apart begins with a symbol directly behind a word. -/
lemma exists_of_not_staysApart {out fragment : Text} (h : ¬ StaysApart out fragment) :
    ∃ c d t, out.getLast? = some c ∧ isSpace c = false ∧ trimStart fragment = d :: t ∧
      isSpace d = false ∧ isWordChar d = false := by
  rw [StaysApart, not_or, not_or, not_or] at h
  obtain ⟨hsymbol, ⟨hne, hlast⟩, hblank⟩ := h
  obtain ⟨d, t, hd⟩ := List.exists_cons_of_ne_nil (mt trimStart_eq_nil_iff.mp hblank)
  have hc := List.getLast?_eq_some_getLast hne
  have hvisible : isSpace d = false := isSpace_of_mem_head?_trimStart (by rw [hd]; rfl)
  refine ⟨_, d, t, hc, ?_, hd, hvisible, ?_⟩
  · exact Bool.eq_false_iff.mpr fun hspace => hlast ⟨_, hc, hspace⟩
  · exact Bool.eq_false_iff.mpr fun hword => hsymbol ⟨d, by rw [hd]; rfl, hword⟩

lemma separator_eq_or (out fragment : Text) :
    separator out fragment = [' '] ∨ separator out fragment = [] := by
  rw [separator]
  split
  · exact .inl rfl
  · exact .inr rfl

/-- Where nothing is written at the seam of words that stay apart, there is a gap already. -/
lemma isSpace_last_of_separator {out fragment : Text} (h : StaysApart out fragment)
    (hvisible : isBlank fragment = false) (hseparator : separator out (trimStart fragment) = []) :
    ∀ c ∈ out.getLast?, isSpace c = true := by
  rcases h with ⟨d, hd, hword⟩ | (rfl | ⟨d, hd, hspace⟩) | hblank
  · obtain ⟨u, hu⟩ := List.head?_eq_some_iff.mp hd
    have hline : inLine out = false := by
      simpa [separator, opensWithSymbol, hu, hword] using hseparator
    intro c hc
    have hfeed : c = '\n' := by simpa [inLine, Option.mem_def.mp hc] using hline
    rw [hfeed]
    rfl
  · intro c hc
    cases hc
  · intro c hc
    rwa [Option.mem_unique hc hd]
  · rw [hblank] at hvisible
    cases hvisible

/-- **Appending keeps words.** What was written before stays in front. The words of a fragment come
behind the words there are; only if a fragment begins with a symbol directly behind a word, the last
word is glued to the first word of the fragment, and the others follow. -/
theorem words_append (s : Spacing) (out fragment : Text) :
    out <+: s.append out fragment ∧
      (StaysApart out fragment →
        words (s.append out fragment) = words out ++ words fragment) ∧
      (¬ StaysApart out fragment →
        ∃ before last first rest, words out = before ++ [last] ∧ words fragment = first :: rest ∧
          words (s.append out fragment) = before ++ (last ++ first) :: rest) := by
  have hbody : words (s.layOut (trimStart fragment)) = words fragment := by
    rw [words_layOut, words_trimStart]
  refine ⟨isPrefix_append s out fragment, fun h => ?_, fun h => ?_⟩
  · rcases separator_eq_or out (trimStart fragment) with hblank | hnone
    · rw [append, hblank, words_append_blank_append (by simp) rfl, hbody]
    · rw [append, hnone, List.append_nil]
      cases hvisible : isBlank fragment with
      | true => rw [trimStart_eq_nil_iff.mpr hvisible, layOut_nil, List.append_nil,
          words_of_isBlank hvisible, List.append_nil]
      | false => rw [words_append_of_last (isSpace_last_of_separator h hvisible hnone), hbody]
  · obtain ⟨c, d, t, hc, hvisible, hd, hvisible', hsymbol⟩ := exists_of_not_staysApart h
    have hseparator : separator out (trimStart fragment) = [] := by
      simp [separator, opensWithSymbol, hd, hsymbol]
    have hhead : (s.layOut (trimStart fragment)).head? = some d := by
      rw [hd]
      exact head?_layOut_cons s hvisible' t
    have hglued := exists_words_append hc hvisible hhead hvisible'
    rw [hbody] at hglued
    rw [append, hseparator, List.append_nil]
    exact hglued

/-- A mark is glued to the word that it follows, and a low line is not. -/
theorem words_append_mark :
    (∃ before last first rest, words "see it".toList = before ++ [last] ∧
      words " (now)\n".toList = first :: rest ∧
        words (collapse.append "see it".toList " (now)\n".toList) =
          before ++ (last ++ first) :: rest) ∧
      words (preserve.append "see it".toList " _now\n".toList) =
        words "see it".toList ++ words " _now\n".toList := by
  have hmark : ¬ StaysApart "see it".toList " (now)\n".toList := by
    have hsymbol : isWordChar '(' = false := by decide +kernel
    simp [StaysApart, isBlank, trimStart, hsymbol, isSpace, spaces, CharClass.contains]
  have hlow : StaysApart "see it".toList " _now\n".toList :=
    .inl ⟨'_', rfl, by simp [isWordChar]⟩
  exact ⟨(words_append collapse _ _).2.2 hmark, (words_append preserve _ _).2.1 hlow⟩

example : words (collapse.append "see it".toList " (now)\n".toList) =
    ["see".toList, "it(now)".toList] := by
  decide +kernel

end Spacing

end DocComment
