import DocComment.Proofs.SingleSpaced

/-!
Texts whose lines begin at the margin.

* **Flush texts.** A text is flush if none of its lines begins with white space
  (`Text.IsFlush`). This depends on neighbours only: no line feed, and no beginning, stands before
  white space that is no line feed (`Text.isFlush_iff_isChain`). So flush texts can be joined.
* **Laying out** a fragment makes it flush, in either spacing, and the blank that sets it off stands
  within a line (`Spacing.isFlush_append`).
-/

namespace DocComment

namespace Text

/-! ### Lines at the margin -/

/-- Whether a line does not begin with white space. -/
def BeginsAtMargin (line : Text) : Prop :=
  ∀ c ∈ line.head?, isSpace c = false

/-- Whether no line of a text begins with white space. -/
def IsFlush (t : Text) : Prop :=
  ∀ line ∈ lines t, BeginsAtMargin line

/-- Whether the second of two neighbours does not indent a line that the first has opened. -/
def KeepsMargin (a b : Char) : Prop :=
  a = '\n' → isSpace b = true → b = '\n'

lemma lines_lineFeed (t : Text) : lines ('\n' :: t) = [] :: lines t :=
  if_pos rfl

/-- The lines of a text are those of the text behind its first character, with this at the front of
the first unless it is a line feed. -/
lemma exists_lines_cons (t : Text) : ∃ first rest, lines t = first :: rest ∧
    ∀ c, c ≠ '\n' → lines (c :: t) = (c :: first) :: rest := by
  cases h : lines t with
  | nil => exact absurd h (lines_ne_nil t)
  | cons first rest => exact ⟨first, rest, rfl, fun c hc => by rw [lines, if_neg hc, h]⟩

/-- The first line begins at the margin unless white space other than a line feed stands first. -/
lemma beginsAtMargin_head_lines {t first : Text} {rest : List Text} (h : lines t = first :: rest) :
    BeginsAtMargin first ↔ ∀ c ∈ t.head?, isSpace c = true → c = '\n' := by
  cases t with
  | nil =>
      obtain ⟨rfl, -⟩ := List.cons.inj h
      simp [BeginsAtMargin]
  | cons c t =>
      by_cases hc : c = '\n'
      · subst hc
        rw [lines_lineFeed] at h
        obtain ⟨rfl, -⟩ := List.cons.inj h
        simp [BeginsAtMargin]
      · obtain ⟨first', rest', -, hcons⟩ := exists_lines_cons t
        rw [hcons c hc] at h
        obtain ⟨rfl, -⟩ := List.cons.inj h
        simp [BeginsAtMargin, hc]

lemma forall_mem_tail_lines (t : Text) :
    (∀ line ∈ (lines t).tail, BeginsAtMargin line) ↔ t.IsChain KeepsMargin := by
  induction t with
  | nil => simp [lines]
  | cons c t ih =>
      obtain ⟨first, rest, hlines, hcons⟩ := exists_lines_cons t
      rw [hlines, List.tail_cons] at ih
      rw [List.isChain_cons, ← ih]
      by_cases hc : c = '\n'
      · subst hc
        rw [lines_lineFeed, hlines, List.tail_cons, List.forall_mem_cons,
          beginsAtMargin_head_lines hlines]
        simp [KeepsMargin]
      · rw [hcons c hc, List.tail_cons]
        simp [KeepsMargin, hc]

/-- A text is flush if neighbours keep the margin, the beginning counting as a line feed. -/
lemma isFlush_iff_isChain {t : Text} : IsFlush t ↔ ('\n' :: t).IsChain KeepsMargin := by
  rw [← forall_mem_tail_lines, lines_lineFeed, List.tail_cons, IsFlush]

lemma isFlush_iff {t : Text} :
    IsFlush t ↔ (∀ c ∈ t.head?, isSpace c = true → c = '\n') ∧ t.IsChain KeepsMargin := by
  rw [isFlush_iff_isChain, List.isChain_cons]
  simp [KeepsMargin]

lemma isFlush_nil : IsFlush [] :=
  isFlush_iff.mpr ⟨nofun, .nil⟩

lemma isFlush_lineFeed : IsFlush ['\n'] :=
  isFlush_iff.mpr ⟨fun _ hc _ => (Option.some.inj hc).symm, .singleton '\n'⟩

/-! ### Joining flush texts -/

namespace IsFlush

variable {t u : Text}

lemma isChain (h : IsFlush t) : t.IsChain KeepsMargin :=
  (isFlush_iff.mp h).2

lemma append (ht : IsFlush t) (hu : IsFlush u) : IsFlush (t ++ u) := by
  rw [isFlush_iff_isChain, ← List.cons_append]
  refine List.IsChain.append (isFlush_iff_isChain.mp ht) hu.isChain fun _ _ b hb _ => ?_
  exact (isFlush_iff.mp hu).1 b hb

/-- Behind the beginning of a line anything may stand that keeps the margin itself. -/
lemma append_of_inLine (ht : IsFlush t) (hline : Spacing.inLine t = true)
    (hu : u.IsChain KeepsMargin) : IsFlush (t ++ u) := by
  obtain ⟨hhead, hchain⟩ := isFlush_iff.mp ht
  have hne : t ≠ [] := by
    rintro rfl
    cases hline
  have hlast : ∀ a ∈ t.getLast?, a ≠ '\n' := fun a ha => by
    rw [Spacing.inLine, Option.mem_def.mp ha] at hline
    exact bne_iff_ne.mp hline
  refine isFlush_iff.mpr ⟨?_, ?_⟩
  · rwa [List.head?_append_of_ne_nil _ hne]
  · exact List.IsChain.append hchain hu fun a ha b _ hfeed => absurd hfeed (hlast a ha)

end IsFlush

/-- A text that begins visibly and keeps the margin is flush. -/
lemma isFlush_of_isChain {t : Text} (hhead : ∀ c ∈ t.head?, isSpace c = false)
    (h : t.IsChain KeepsMargin) : IsFlush t := by
  refine isFlush_iff.mpr ⟨fun c hc hspace => ?_, h⟩
  rw [hhead c hc] at hspace
  cases hspace

/-- A piece of a flush text that begins visibly is flush. -/
lemma IsFlush.of_isInfix {t u : Text} (h : IsFlush t) (hu : u <:+: t)
    (hhead : ∀ c ∈ u.head?, isSpace c = false) : IsFlush u := by
  have hchain := List.IsChain.infix h.isChain hu
  exact isFlush_of_isChain hhead hchain

lemma IsFlush.trim {t : Text} (h : IsFlush t) : IsFlush (Text.trim t) :=
  h.of_isInfix (trim_isInfix t) (isTrimmed_trim t).head

/-- Where white space stands alone, none stands behind a line feed. -/
lemma IsSingleSpaced.isChain {t : Text} (h : IsSingleSpaced t) : t.IsChain KeepsMargin := by
  refine List.IsChain.imp (fun a b hsingle hfeed hspace => ?_) h
  subst hfeed
  exact absurd ⟨rfl, hspace⟩ hsingle

/-- Within a line the margin does not matter. -/
lemma isChain_of_ne_lineFeed {t : Text} (h : ∀ c ∈ t, c ≠ '\n') : t.IsChain KeepsMargin := by
  rw [List.isChain_iff_forall_rel_of_append_cons_cons]
  rintro a b before after rfl hfeed
  exact absurd hfeed (h a (by simp))

/-- A visible text begins at the margin and stays within its line. -/
lemma isFlush_of_visible {t : Text} (h : ∀ c ∈ t, isSpace c = false) : IsFlush t := by
  refine isFlush_of_isChain (fun c hc => h c (List.mem_of_mem_head? hc)) ?_
  refine isChain_of_ne_lineFeed fun c hc hfeed => ?_
  subst hfeed
  exact absurd (h _ hc) (by decide)

/-! ### Lines put together -/

lemma ne_lineFeed_of_mem_lines {t line : Text} (h : line ∈ lines t) : ∀ c ∈ line, c ≠ '\n' := by
  induction t generalizing line with
  | nil =>
      obtain rfl := List.mem_singleton.mp h
      exact nofun
  | cons c t ih =>
      obtain ⟨first, rest, hlines, hcons⟩ := exists_lines_cons t
      by_cases hc : c = '\n'
      · subst hc
        rw [lines_lineFeed] at h
        rcases List.mem_cons.mp h with rfl | htail
        · exact nofun
        · exact ih htail
      · rw [hcons c hc] at h
        rcases List.mem_cons.mp h with rfl | htail
        · exact List.forall_mem_cons.mpr ⟨hc, ih (hlines ▸ .head _)⟩
        · exact ih (hlines ▸ .tail _ htail)

lemma isFlush_unlines {ls : List Text} (h : ∀ line ∈ ls, IsFlush line) : IsFlush (unlines ls) := by
  induction ls with
  | nil => exact isFlush_nil
  | cons line ls ih =>
      obtain ⟨hline, hls⟩ := List.forall_mem_cons.mp h
      cases ls with
      | nil => exact hline
      | cons next ls =>
          rw [unlines, ← List.singleton_append]
          · exact hline.append (isFlush_lineFeed.append (ih hls))
          · exact List.cons_ne_nil next ls

end Text

namespace Spacing

open Text

lemma isFlush_trimLines (t : Text) : IsFlush (trimLines t) := by
  refine isFlush_unlines (List.forall_mem_map.mpr fun line hline => ?_)
  have hfeed := ne_lineFeed_of_mem_lines hline
  exact isFlush_of_isChain (isTrimmed_trim line).head
    (isChain_of_ne_lineFeed fun c hc => hfeed c ((trim_isInfix line).subset hc))

/-- **Laying out** makes a fragment flush. -/
lemma isFlush_layOut (s : Spacing) (t : Text) : IsFlush (s.layOut t) := by
  cases s with
  | collapse =>
      have htrimmed : IsTrimmed (collapse.layOut t) := isTrimmed_trim _
      exact isFlush_of_isChain htrimmed.head (isSingleSpaced_layOut t).isChain
  | preserve => exact isFlush_trimLines t

/-- **Appending** a fragment to a flush text gives a flush text. -/
lemma isFlush_append (s : Spacing) {out : Text} (h : IsFlush out) (fragment : Text) :
    IsFlush (s.append out fragment) := by
  have hbody := isFlush_layOut s (trimStart fragment)
  rw [append, separator]
  split
  · rename_i hseam
    rw [List.append_assoc]
    refine h.append_of_inLine (Bool.and_eq_true_iff.mp hseam).1 ?_
    exact List.isChain_cons.mpr ⟨fun _ _ hfeed => absurd hfeed (by decide), hbody.isChain⟩
  · rw [List.append_nil]
    exact h.append hbody

end Spacing

end DocComment
