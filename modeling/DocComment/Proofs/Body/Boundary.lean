import DocComment.Proofs.Body.ItemLine
import DocComment.Proofs.SingleSpaced

/-!
Blocks as boundaries in a body.

* **Behind a finished line** everything is written as on a page without text, except that a block
  without text leaves a line feed only on the latter. `Continues` relates what has been written on
  the two pages, and every piece of content keeps it (`continues_writeNode`), so a whole content
  does (`continues_writeContent`).
* **The gaps.** In front of a block the line that has begun is ended, and behind it a new one
  begins. What stands there besides is white space, which is trimmed where no text follows
  (`exists_endLine_eq`, `exists_lineFeed_cons_eq`).
* So a block that shows anything parts the text of a body in two, and each side is what it is
  without the block and the other side (`render_block_between`).
-/

namespace DocComment

open Xml Text Spacing

namespace Body

/-! ### Behind a finished line -/

/-- Whether a text goes on behind a front as another does by itself, which may have a line feed more
at its beginning. -/
def Continues (front t u : Text) : Prop :=
  ∃ v, t = front ++ v ∧ (u = v ∨ u = '\n' :: v)

/-- Behind a finished line, whether a line has begun depends on what is behind it. -/
lemma inLine_append_of_getLast? {front : Text} (h : front.getLast? = some '\n') (v : Text) :
    inLine (front ++ v) = inLine v := by
  cases v with
  | nil => rw [List.append_nil, inLine, h]; rfl
  | cons c v => rw [inLine, inLine, List.getLast?_append_of_ne_nil _ (List.cons_ne_nil c v)]

namespace Continues

variable {front t u : Text} (h : Continues front t u)

include h

lemma append (x : Text) : Continues front (t ++ x) (u ++ x) := by
  obtain ⟨v, rfl, hu⟩ := h
  refine ⟨v ++ x, List.append_assoc front v x, ?_⟩
  rcases hu with rfl | rfl
  · exact .inl rfl
  · exact .inr rfl

variable (hfront : front.getLast? = some '\n')

include hfront

lemma inLine_eq : inLine t = inLine u := by
  obtain ⟨v, rfl, hu⟩ := h
  have hfeed : inLine ('\n' :: v) = inLine v := inLine_append_of_getLast? List.getLast?_singleton v
  rw [inLine_append_of_getLast? hfront]
  rcases hu with rfl | rfl
  · rfl
  · exact hfeed.symm

lemma inline (s : Spacing) (fragment : Text) :
    Continues front (s.append t fragment) (s.append u fragment) := by
  have hseparator : separator t (trimStart fragment) = separator u (trimStart fragment) := by
    rw [separator, separator, h.inLine_eq hfront]
  rw [Spacing.append, Spacing.append, hseparator]
  exact (h.append _).append _

lemma endLine : Continues front (Page.endLine t) (Page.endLine u) := by
  rw [Page.endLine, Page.endLine, h.inLine_eq hfront]
  split
  · exact h.append ['\n']
  · exact h

/-- A line feed that is there behind the front may have to be added without it. -/
lemma withLineFeed : Continues front (Page.withLineFeed t) (Page.withLineFeed u) := by
  obtain ⟨v, rfl, hu⟩ := h
  cases v with
  | nil =>
      have hpage : Page.withLineFeed u = ['\n'] := by
        rcases hu with rfl | rfl
        · rfl
        · rfl
      have hbehind : Page.withLineFeed (front ++ []) = front ++ [] := by
        rw [List.append_nil, Page.withLineFeed, if_pos hfront]
      exact ⟨[], hbehind, .inr hpage⟩
  | cons c v =>
      have hlast : u.getLast? = (front ++ c :: v).getLast? := by
        rw [List.getLast?_append_of_ne_nil _ (List.cons_ne_nil c v)]
        rcases hu with rfl | rfl
        · rfl
        · exact List.getLast?_cons_cons
      have h' : Continues front (front ++ c :: v) u := ⟨c :: v, rfl, hu⟩
      rw [Page.withLineFeed, Page.withLineFeed, hlast]
      split
      · exact h'
      · exact h'.append ['\n']

lemma block (b : Text) : Continues front (Page.withLineFeed (Page.endLine t ++ b))
    (Page.withLineFeed (Page.endLine u ++ b)) :=
  ((h.endLine hfront).append b).withLineFeed hfront

end Continues

section Front

variable {front : Text} (hfront : front.getLast? = some '\n')

include hfront

/-- **A piece of content** is written behind a finished line as on a page without text. -/
lemma continues_writeNode (s : Spacing) {p q : Page} (h : Continues front p.text q.text)
    (n : Node) : Continues front (writeNode s p n).text (writeNode s q n).text := by
  cases n with
  | text t =>
      rw [writeNode, writeNode]
      split
      · exact h
      · exact h.inline hfront s t
  | element tag content =>
      simp only [writeNode]
      cases Role.ofName tag.localName with
      | block =>
          simp only [Page.block, text_writeContent]
          exact h.block hfront _
      | list =>
          have hitems := fun p : Page => text_writeItems (ListKind.ofTag tag) (firstNumber tag)
            { p with text := p.text ++ ['\n'] } ⟨tag, content⟩
          dsimp only at hitems ⊢
          rw [hitems, hitems]
          exact (h.append ['\n']).append _
      | seeAlso =>
          simp only [Page.inline, text_writeContent]
          exact h.inline hfront s _
      | code => exact h.inline hfront .preserve _
      | parameter => exact h.inline hfront s _
      | see => exact h.inline hfront s _
      | plain => exact h.inline hfront s _

/-- **A content** is written behind a finished line as on a page without text. -/
lemma continues_writeContent (s : Spacing) {p q : Page} (h : Continues front p.text q.text)
    (content : List Node) :
    Continues front (writeContent s p content).text (writeContent s q content).text := by
  induction content generalizing p q with
  | nil => exact h
  | cons n ns ih => exact ih (continues_writeNode hfront s h n)

end Front

/-! ### The gaps on the two sides -/

lemma getLast?_of_not_inLine {t : Text} (hne : t ≠ []) (h : inLine t = false) :
    t.getLast? = some '\n' := by
  have hlast := List.getLast?_eq_some_getLast hne
  rw [inLine, hlast] at h
  rw [hlast, bne_eq_false_iff_eq.mp h]

/-- Ending the line adds a line feed at most, and then no line has begun. -/
lemma exists_endLine_eq_append (t : Text) :
    ∃ x, Page.endLine t = t ++ x ∧ isBlank x = true ∧ inLine (t ++ x) = false := by
  rw [Page.endLine]
  cases hline : inLine t with
  | true => exact ⟨['\n'], rfl, rfl, by rw [inLine, List.getLast?_concat]; rfl⟩
  | false => exact ⟨[], (List.append_nil t).symm, rfl, by rwa [List.append_nil]⟩

/-- In front of a block stands the trimmed text and, unless this is empty, the end of its line. -/
lemma exists_endLine_eq (t : Text) :
    ∃ u w, Page.endLine t = u ++ trim t ++ w ∧ isBlank u = true ∧ isBlank w = true ∧
      (trim t = [] → w = []) ∧ (trim t ≠ [] → w.getLast? = some '\n') := by
  obtain ⟨u, v, ht, hu, hv⟩ := exists_eq_append_trim t
  obtain ⟨x, hend, hx, hline⟩ := exists_endLine_eq_append t
  have hpage : Page.endLine t = u ++ trim t ++ (v ++ x) := by
    rw [hend, ← List.append_assoc, ← ht]
  have hgap : isBlank (v ++ x) = true := isBlank_append.mpr ⟨hv, hx⟩
  by_cases hblank : trim t = []
  · refine ⟨u ++ (v ++ x), [], ?_, isBlank_append.mpr ⟨hu, hgap⟩, rfl, fun _ => rfl,
      fun hne => absurd hblank hne⟩
    rw [hpage, hblank, List.append_nil, List.append_nil, List.append_nil]
  · refine ⟨u, v ++ x, hpage, hu, hgap, fun hnil => absurd hnil hblank, fun _ => ?_⟩
    rw [← hend, hpage] at hline
    -- Without white space behind it, the trimmed text would leave a line that has begun.
    have hne : v ++ x ≠ [] := by
      intro hnil
      rw [hnil, List.append_nil, inLine_append hblank (isTrimmed_trim t).ne_lineFeed] at hline
      cases hline
    have hlast := getLast?_of_not_inLine (List.append_ne_nil_of_right_ne_nil _ hne) hline
    rwa [List.getLast?_append_of_ne_nil _ hne] at hlast

/-- Behind a block stands a line feed and then the trimmed text, unless this is empty. -/
lemma exists_lineFeed_cons_eq (t : Text) :
    ∃ w v, '\n' :: t = w ++ trim t ++ v ∧ isBlank w = true ∧ isBlank v = true ∧
      (trim t = [] → w = []) ∧ (trim t ≠ [] → w.head? = some '\n') := by
  obtain ⟨u, v, ht, hu, hv⟩ := exists_eq_append_trim t
  by_cases hblank : trim t = []
  · have hspace : isBlank ('\n' :: t) = true := trim_eq_nil_iff.mp hblank
    exact ⟨[], '\n' :: t, by rw [hblank]; rfl, rfl, hspace, fun _ => rfl,
      fun hne => absurd hblank hne⟩
  · refine ⟨'\n' :: u, v, ?_, hu, hv, fun hnil => absurd hnil hblank, fun _ => rfl⟩
    rw [List.cons_append, List.cons_append, ← ht]

/-- A trimmed text between two others that are trimmed: the whole is trimmed if there is no gap
where a side is empty. -/
lemma isTrimmed_between {a w₁ b w₂ c : Text} (ha : IsTrimmed a) (hb : IsTrimmed b)
    (hc : IsTrimmed c) (hne : b ≠ []) (hw₁ : a = [] → w₁ = []) (hw₂ : c = [] → w₂ = []) :
    IsTrimmed (a ++ w₁ ++ b ++ w₂ ++ c) := by
  constructor
  · by_cases hnil : a = []
    · rw [hw₁ hnil, hnil, List.append_nil, List.nil_append, List.append_assoc,
        List.head?_append_of_ne_nil _ hne]
      exact hb.head
    · rw [List.append_assoc, List.append_assoc, List.append_assoc,
        List.head?_append_of_ne_nil _ hnil]
      exact ha.head
  · by_cases hnil : c = []
    · rw [hw₂ hnil, hnil, List.append_nil, List.append_nil, List.getLast?_append_of_ne_nil _ hne]
      exact hb.last
    · rw [List.getLast?_append_of_ne_nil _ hnil]
      exact hc.last

/-! ### Blocks -/

lemma writeContent_append (s : Spacing) (p : Page) (xs ys : List Node) :
    writeContent s p (xs ++ ys) = writeContent s (writeContent s p xs) ys := by
  induction xs generalizing p with
  | nil => rfl
  | cons n ns ih => exact ih (writeNode s p n)

/-- A block that shows anything ends with a line feed that it adds itself. -/
lemma text_writeNode_block {k : Element} (hrole : k.role = .block)
    (hne : trim (contentText .preserve k.content) ≠ []) (s : Spacing) (p : Page) :
    (writeNode s p k.toNode).text =
      Page.endLine p.text ++ trim (contentText .preserve k.content) ++ ['\n'] := by
  have hlast : (Page.endLine p.text ++ trim (contentText .preserve k.content)).getLast? ≠
      some '\n' := by
    rw [List.getLast?_append_of_ne_nil _ hne]
    exact fun hfeed => (isTrimmed_trim _).ne_lineFeed _ hfeed rfl
  rw [Element.role] at hrole
  rw [Element.toNode, writeNode, hrole]
  simp only [Page.block, text_writeContent]
  rw [Page.withLineFeed, if_neg hlast]

/-- A block that shows anything stands between the text before it, whose line it ends, and a text
that differs from the one behind it in a line feed at its beginning at most. -/
lemma exists_contentText_eq {k : Element} (hrole : k.role = .block)
    (hne : trim (contentText .preserve k.content) ≠ []) (s : Spacing) (before after : List Node) :
    ∃ c, contentText s (before ++ k.toNode :: after) =
        Page.endLine (contentText s before) ++ trim (contentText .preserve k.content) ++ '\n' :: c ∧
      trim (contentText s after) = trim c := by
  set front := Page.endLine (contentText s before) ++ trim (contentText .preserve k.content) ++
    ['\n'] with hfront
  have hpage : (writeNode s (writeContent s {} before) k.toNode).text = front :=
    text_writeNode_block hrole hne s _
  have hwhole : contentText s (before ++ k.toNode :: after) =
      (writeContent s (writeNode s (writeContent s {} before) k.toNode) after).text := by
    rw [contentText, writeContent_append, writeContent]
  obtain ⟨c, hc, hafter⟩ : Continues front (contentText s (before ++ k.toNode :: after))
      (contentText s after) := by
    rw [hwhole, contentText]
    refine continues_writeContent (by rw [hfront, List.getLast?_concat]) s ⟨[], ?_, .inl rfl⟩ after
    rw [hpage, List.append_nil]
  refine ⟨c, ?_, ?_⟩
  · rw [hc, hfront, List.append_assoc _ ['\n'], List.singleton_append]
  · rcases hafter with hsame | hfeed
    · rw [hsame]
    · have hdrop := trim_append_append (u := ['\n']) (v := []) rfl rfl c
      rwa [List.append_nil, List.singleton_append, ← hfeed] at hdrop

/-- **A block is a boundary.** Where a code or para element shows anything, the text of the body is
the text of what stands before it, the block's own, and the text of what stands behind it, each as
rendered by itself. Between them there is white space with a line feed next to the block's
neighbours, and none where a side is empty. -/
theorem render_block_between {e k : Element} {before after : List Node}
    (hcontent : e.content = before ++ k.toNode :: after)
    (hname : k.tag.localName = "code".toList ∨ k.tag.localName = "para".toList)
    (hshown : (render .preserve .empty k).1 ≠ []) (s : Spacing) (m m₁ m₂ m₃ : SeeAlsos) :
    ∃ w₁ w₂, (render s m e).1 =
        (render s m₁ { e with content := before }).1 ++ w₁ ++ (render .preserve m₂ k).1 ++ w₂ ++
          (render s m₃ { e with content := after }).1 ∧
      isBlank w₁ = true ∧ isBlank w₂ = true ∧
      ((render s m₁ { e with content := before }).1 = [] → w₁ = []) ∧
      ((render s m₁ { e with content := before }).1 ≠ [] → w₁.getLast? = some '\n') ∧
      ((render s m₃ { e with content := after }).1 = [] → w₂ = []) ∧
      ((render s m₃ { e with content := after }).1 ≠ [] → w₂.head? = some '\n') := by
  have hrole : k.role = .block := by
    rcases hname with hcode | hpara
    · rw [Element.role, hcode]; rfl
    · rw [Element.role, hpara]; rfl
  simp only [text_render] at hshown ⊢
  obtain ⟨c, hwhole, hafter⟩ := exists_contentText_eq hrole hshown s before after
  obtain ⟨u, w₁, hleft, hu, hw₁, hempty₁, hend₁⟩ := exists_endLine_eq (contentText s before)
  obtain ⟨w₂, v, hright, hw₂, hv, hempty₂, hstart₂⟩ := exists_lineFeed_cons_eq c
  rw [hcontent, hafter]
  refine ⟨w₁, w₂, ?_, hw₁, hw₂, hempty₁, hend₁, hempty₂, hstart₂⟩
  set a := trim (contentText s before)
  set b := trim (contentText .preserve k.content)
  have hcut : contentText s (before ++ k.toNode :: after) =
      u ++ (a ++ w₁ ++ b ++ w₂ ++ trim c) ++ v := by
    rw [hwhole, hleft, hright]
    simp only [List.append_assoc]
  rw [hcut, trim_append_append hu hv]
  exact (isTrimmed_between (isTrimmed_trim _) (isTrimmed_trim _) (isTrimmed_trim c) hshown hempty₁
    hempty₂).trim_eq

/-- A block between two texts, followed by one without text. -/
def interruptedElement : Element where
  tag := { name := "summary".toList }
  content :=
    [.text "Intro ".toList,
      .element { name := "para".toList } [.text "Body".toList],
      .element { name := "para".toList } [],
      .text " outro".toList]

/-- A block on its own lines within a summary. -/
theorem render_interruptedElement :
    ∃ w₁ w₂, (render .collapse .empty interruptedElement).1 =
        "Intro".toList ++ w₁ ++ "Body".toList ++ w₂ ++ "outro".toList ∧
      isBlank w₁ = true ∧ isBlank w₂ = true ∧
      w₁.getLast? = some '\n' ∧ w₂.head? = some '\n' := by
  have hcontent : interruptedElement.content = interruptedElement.content.take 1 ++
      (⟨{ name := "para".toList }, [.text "Body".toList]⟩ : Element).toNode ::
        interruptedElement.content.drop 2 := rfl
  have hbefore : (render .collapse .empty
      { interruptedElement with content := interruptedElement.content.take 1 }).1 =
        "Intro".toList := by decide +kernel
  have hblock : (render .preserve .empty
      ⟨{ name := "para".toList }, [.text "Body".toList]⟩).1 = "Body".toList := by decide +kernel
  have hafter : (render .collapse .empty
      { interruptedElement with content := interruptedElement.content.drop 2 }).1 =
        "outro".toList := by decide +kernel
  obtain ⟨w₁, w₂, htext, hw₁, hw₂, -, hend, -, hstart⟩ := render_block_between hcontent
    (.inr rfl) (by rw [hblock]; decide) .collapse .empty .empty .empty .empty
  rw [hbefore] at htext hend
  rw [hblock, hafter] at htext
  rw [hafter] at hstart
  exact ⟨w₁, w₂, htext, hw₁, hw₂, hend (by decide), hstart (by decide)⟩

end Body

end DocComment
