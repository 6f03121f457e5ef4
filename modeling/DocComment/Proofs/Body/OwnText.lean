import DocComment.Proofs.Body.Shown
import DocComment.Proofs.Flush

/-!
Items that show their own text.

* **Own texts.** A marked item with nothing in its term and nothing in its description shows the
  text in it as it is, but for the white space around it. `contentOwnTexts` collects these texts
  along the parts of a content that are written.
* **Everything else is flush.** Texts, references, inline code, blocks and markers are written
  flush. So writing a content is flush if its own texts are (`lays_writeContent`), and as each of
  these is seen in one piece, only then (`isFlush_render_iff`).
-/

namespace DocComment

open Xml Text

namespace Body

/-! ### Own texts -/

/-- Whether nothing is shown of the parts of an item. -/
def partsAreBlank (content : List Node) : Bool :=
  let parts : ItemParts := ⟨partShows "term" content, partShows "description" content⟩
  parts.termText.isEmpty && parts.descriptionText.isEmpty

mutual

/-- The own texts in a piece of content. -/
def nodeOwnTexts : Node → List Text
  | .text _ => []
  | .element tag content =>
    match Role.ofName tag.localName with
    | .block => contentOwnTexts content
    | .list => itemsOwnTexts (ListKind.ofTag tag) content
    | .seeAlso => []
    | .code => []
    | .parameter => []
    | .see => []
    | .plain => []

/-- The own texts in a content. -/
def contentOwnTexts : List Node → List Text
  | [] => []
  | n :: ns => nodeOwnTexts n ++ contentOwnTexts ns

/-- The own texts in the items of a list. -/
def itemsOwnTexts (kind : ListKind) : List Node → List Text
  | [] => []
  | .text _ :: ns => itemsOwnTexts kind ns
  | .element tag content :: ns =>
    if tag.name = "item".toList then
      partOwnTexts "term" content ++ partOwnTexts "description" content ++
        (if kind = .definition then if lacksParts content then contentOwnTexts content else []
          else if partsAreBlank content then [trim (textOf content)] else []) ++
        itemsOwnTexts kind ns
    else itemsOwnTexts kind ns

/-- The own texts in the first element with a given name. -/
def partOwnTexts (name : String) : List Node → List Text
  | [] => []
  | .text _ :: ns => partOwnTexts name ns
  | .element tag content :: ns =>
    if tag.name = name.toList then contentOwnTexts content else partOwnTexts name ns

end

/-- The own texts in an item. -/
def itemOwnTexts (kind : ListKind) (content : List Node) : List Text :=
  partOwnTexts "term" content ++ partOwnTexts "description" content ++
    if kind = .definition then if lacksParts content then contentOwnTexts content else []
    else if partsAreBlank content then [trim (textOf content)] else []

lemma itemsOwnTexts_item {tag : Tag} (h : tag.name = "item".toList) (kind : ListKind)
    (content ns : List Node) :
    itemsOwnTexts kind (.element tag content :: ns) =
      itemOwnTexts kind content ++ itemsOwnTexts kind ns := by
  rw [itemsOwnTexts, if_pos h]
  rfl

/-! ### Growing texts -/

/-- What becomes of a text when more is written that shows some own texts: it grows, the own texts
are seen in it, and it stays flush if they are flush. -/
structure Lays (owns : List Text) (before after : Text) : Prop where
  grows : before <+: after
  trimmed : ∀ own ∈ owns, IsTrimmed own
  shown : ∀ own ∈ owns, own <:+: after
  isFlush : (∀ own ∈ owns, IsFlush own) → IsFlush before → IsFlush after

namespace Lays

variable {xs ys : List Text} {t u v : Text}

lemma refl (t : Text) : Lays [] t t :=
  ⟨List.prefix_rfl, nofun, nofun, fun _ h => h⟩

lemma trans (h : Lays xs t u) (h' : Lays ys u v) : Lays (xs ++ ys) t v where
  grows := h.grows.trans h'.grows
  trimmed := List.forall_mem_append.mpr ⟨h.trimmed, h'.trimmed⟩
  shown := List.forall_mem_append.mpr
    ⟨fun own hown => (h.shown own hown).trans h'.grows.isInfix, h'.shown⟩
  isFlush howns ht := by
    obtain ⟨hxs, hys⟩ := List.forall_mem_append.mp howns
    exact h'.isFlush hys (h.isFlush hxs ht)

/-- A text that was laid by itself may be put behind. -/
lemma append (h : Lays xs t u) (h' : Lays ys [] v) : Lays (xs ++ ys) t (u ++ v) where
  grows := h.grows.trans (List.prefix_append u v)
  trimmed := List.forall_mem_append.mpr ⟨h.trimmed, h'.trimmed⟩
  shown := List.forall_mem_append.mpr
    ⟨fun own hown => List.infix_append_of_infix_left (h.shown own hown),
      fun own hown => List.infix_append_of_infix_right (h'.shown own hown)⟩
  isFlush howns ht := by
    obtain ⟨hxs, hys⟩ := List.forall_mem_append.mp howns
    exact (h.isFlush hxs ht).append (h'.isFlush hys isFlush_nil)

lemma of_isFlush (h : IsFlush t) : Lays [] [] t :=
  ⟨List.nil_prefix, nofun, nofun, fun _ _ => h⟩

lemma appendFlush (h : Lays xs t u) (hv : IsFlush v) : Lays xs t (u ++ v) := by
  simpa using h.append (of_isFlush hv)

/-- Within a line that has begun, anything without a line feed may be put behind. -/
lemma appendInLine (h : Lays xs t u) (hline : Spacing.inLine u = true) (hv : ∀ c ∈ v, c ≠ '\n') :
    Lays xs t (u ++ v) where
  grows := h.grows.trans (List.prefix_append u v)
  trimmed := h.trimmed
  shown own hown := List.infix_append_of_infix_left (h.shown own hown)
  isFlush howns ht := (h.isFlush howns ht).append_of_inLine hline (isChain_of_ne_lineFeed hv)

lemma inline (s : Spacing) (t fragment : Text) : Lays [] t (s.append t fragment) :=
  ⟨Spacing.isPrefix_append s t fragment, nofun, nofun, fun _ h => Spacing.isFlush_append s h _⟩

/-- Own texts stay when the white space around them goes. -/
lemma trim (h : Lays xs [] t) : Lays xs [] (trim t) where
  grows := List.nil_prefix
  trimmed := h.trimmed
  shown own hown := (h.trimmed own hown).isInfix_trim (h.shown own hown)
  isFlush howns hnil := (h.isFlush howns hnil).trim

lemma endLine (h : Lays xs t u) : Lays xs t (Page.endLine u) := by
  rw [Page.endLine]
  split
  · exact h.appendFlush isFlush_lineFeed
  · exact h

lemma withLineFeed (h : Lays xs t u) : Lays xs t (Page.withLineFeed u) := by
  rw [Page.withLineFeed]
  split
  · exact h
  · exact h.appendFlush isFlush_lineFeed

lemma block (p : Page) {body : Page} (h : Lays xs [] body.text) :
    Lays xs p.text (p.block body).text :=
  ((refl p.text).endLine.append h.trim).withLineFeed

lemma line (p : Page) (m : SeeAlsos) (h : Lays xs [] t) : Lays xs p.text (p.line t m).text :=
  ((refl p.text).append h).appendFlush isFlush_lineFeed

/-- Of what was laid on an empty page, the own texts decide whether it is flush. -/
lemma isFlush_iff (h : Lays xs [] t) : IsFlush t ↔ ∀ own ∈ xs, IsFlush own := by
  refine ⟨fun ht own hown => ?_, fun howns => h.isFlush howns isFlush_nil⟩
  exact ht.of_isInfix (h.shown own hown) (h.trimmed own hown).head

end Lays

/-! ### Lines of items -/

/-- A marker begins its line visibly. -/
lemma isFlush_marker (kind : ListKind) (number : Int) : IsFlush (kind.marker number) := by
  cases kind with
  | bullet =>
      have hstar : ∀ c ∈ "* ".toList, c ≠ '\n' := by simp
      exact isFlush_of_isChain (by rintro c ⟨⟩; rfl) (isChain_of_ne_lineFeed hstar)
  | numbered =>
      have hdot : ∀ c ∈ ". ".toList, c ≠ '\n' := by simp
      refine IsFlush.append (isFlush_of_visible fun c hc => ?_) ?_
      · rw [← visible_signedDecimal] at hc
        simpa using List.of_mem_filter hc
      · exact isFlush_of_isChain (by rintro c ⟨⟩; rfl) (isChain_of_ne_lineFeed hdot)
  | definition => exact isFlush_nil

/-- Parts of an item that were laid by themselves. -/
structure LaysParts (xs ys : List Text) (p : ItemParts) : Prop where
  isTrimmed : IsTrimmed p.termText
  term : Lays xs [] p.termText
  description : Lays ys [] p.descriptionText

namespace LaysParts

variable {xs ys : List Text} {p : ItemParts} (h : LaysParts xs ys p)

include h

/-- An empty part may be left out: there is nothing to be seen of its own texts. -/
lemma lays_description (hempty : p.termText.isEmpty = true) :
    Lays (xs ++ ys) [] p.descriptionText := by
  have hterm := h.term
  rw [List.isEmpty_iff.mp hempty] at hterm
  exact hterm.trans h.description

lemma lays_term (hempty : p.descriptionText.isEmpty = true) : Lays (xs ++ ys) [] p.termText := by
  have hdescription := h.description
  rw [List.isEmpty_iff.mp hempty] at hdescription
  simpa using h.term.append hdescription

/-- Without parts there is nothing to be seen of their own texts. -/
lemma lays_nil (habsent : p.isAbsent = true) : Lays (xs ++ ys) [] [] := by
  obtain ⟨hterm, hdescription⟩ := Bool.and_eq_true_iff.mp habsent
  have htermText : p.termText = [] := by
    rw [ItemParts.termText, Option.isNone_iff_eq_none.mp hterm, Option.getD_none]
  have hdescriptionText : p.descriptionText = [] := by
    rw [ItemParts.descriptionText, Option.isNone_iff_eq_none.mp hdescription, Option.getD_none]
  have hparts := h.lays_description (by rw [htermText]; rfl)
  rwa [hdescriptionText] at hparts

/-- Two parts in one line: the separator follows what is seen of the term. -/
lemma lays_both (hne : ¬ p.termText.isEmpty = true) {separator : Text}
    (hseparator : ∀ c ∈ separator, c ≠ '\n') :
    Lays (xs ++ ys) [] (p.termText ++ separator ++ p.descriptionText) := by
  have hline := Spacing.inLine_of_isTrimmed h.isTrimmed (mt List.isEmpty_iff.mpr hne)
  exact (h.term.appendInLine hline hseparator).append h.description

lemma lays_definitionLine : Lays (xs ++ ys) [] p.definitionLine := by
  rw [ItemParts.definitionLine]
  split
  · rename_i hterm
    exact h.lays_description hterm
  · rename_i hterm
    split
    · rename_i hdescription
      exact h.lays_term hdescription
    · exact h.lays_both hterm (by simp)

lemma lays_markedLine (own : Text) :
    Lays (xs ++ ys ++
      if p.termText.isEmpty && p.descriptionText.isEmpty then [trim own] else []) []
      (p.markedLine own) := by
  rw [ItemParts.markedLine]
  split
  · rename_i hempty
    obtain ⟨hterm, hdescription⟩ := Bool.and_eq_true_iff.mp hempty
    have hparts := h.lays_description hterm
    rw [List.isEmpty_iff.mp hdescription] at hparts
    refine hparts.trans ⟨List.nil_prefix, ?_, ?_, ?_⟩
    · exact List.forall_mem_singleton.mpr (isTrimmed_trim own)
    · exact List.forall_mem_singleton.mpr List.infix_rfl
    · exact fun howns _ => List.forall_mem_singleton.mp howns
  · rw [List.append_nil]
    split
    · rename_i hterm
      exact h.lays_description hterm
    · rename_i hterm
      exact h.lays_both hterm (by simp)

end LaysParts

/-! ### Writing -/

/-- The text of a part of an item was laid by itself, and its ends are trimmed. -/
structure LaysPart (owns : List Text) (part : Option Text) : Prop where
  isTrimmed : IsTrimmed (part.getD [])
  lays : Lays owns [] (part.getD [])

/-- Writing finds no part of an item just if there is none. -/
lemma isAbsent_writePart (content : List Node) (m : SeeAlsos) :
    (⟨(writePart "term" m content).1,
      (writePart "description" (writePart "term" m content).2 content).1⟩ : ItemParts).isAbsent =
      lacksParts content := by
  obtain ⟨term, hterm, hwriteTerm⟩ := listsPart "term" content
  obtain ⟨description, hdescription, hwriteDescription⟩ := listsPart "description" content
  rw [ItemParts.isAbsent, hwriteTerm, hwriteDescription, hterm, hdescription, lacksParts]

section Element

variable {content : List Node}
  (body : ∀ (s : Spacing) (p : Page),
    Lays (contentOwnTexts content) p.text (writeContent s p content).text)

include body

/-- Of the elements, blocks and lists lay own texts. Everything else is joined to the line. -/
lemma lays_writeNode_element
    (items : ∀ (kind : ListKind) (number : Int) (p : Page),
      Lays (itemsOwnTexts kind content) p.text (writeItems kind number p content).text)
    (s : Spacing) (tag : Tag) (p : Page) :
    Lays (nodeOwnTexts (.element tag content)) p.text
      (writeNode s p (.element tag content)).text := by
  simp only [writeNode, nodeOwnTexts]
  cases Role.ofName tag.localName with
  | block => exact Lays.block p (body .preserve { seeAlsos := p.seeAlsos })
  | list =>
      have hlist := items (ListKind.ofTag tag) (firstNumber tag) { p with text := p.text ++ ['\n'] }
      exact ((Lays.refl p.text).appendFlush isFlush_lineFeed).trans hlist
  | seeAlso => exact .inline s p.text _
  | code => exact .inline .preserve p.text _
  | parameter => exact .inline s p.text _
  | see => exact .inline s p.text _
  | plain => exact .inline s p.text _

/-- An item lays the own texts of its parts, and its own if its parts are blank. -/
lemma lays_writeItem
    (part : ∀ (name : String) (m : SeeAlsos),
      LaysPart (partOwnTexts name content) (writePart name m content).1)
    (kind : ListKind) (number : Int) (p : Page) :
    Lays (itemOwnTexts kind content) p.text (writeItem kind number p content).text := by
  have hterm := part "term" p.seeAlsos
  have hdescription := part "description" (writePart "term" p.seeAlsos content).2
  have hparts : LaysParts (partOwnTexts "term" content) (partOwnTexts "description" content)
      ⟨(writePart "term" p.seeAlsos content).1,
        (writePart "description" (writePart "term" p.seeAlsos content).2 content).1⟩ :=
    ⟨hterm.isTrimmed, hterm.lays, hdescription.lays⟩
  have hshows : ShowsParts
      ⟨(writePart "term" p.seeAlsos content).1,
        (writePart "description" (writePart "term" p.seeAlsos content).2 content).1⟩
      ⟨partShows "term" content, partShows "description" content⟩ :=
    ⟨showsPart_writePart "term" _ _, showsPart_writePart "description" _ _⟩
  have hmarked := hparts.lays_markedLine (textOf content)
  rw [hshows.isEmpty_termText, hshows.isEmpty_descriptionText] at hmarked
  simp only [writeItem, itemOwnTexts]
  cases kind with
  | bullet => exact .line p _ ((Lays.of_isFlush (isFlush_marker .bullet number)).append hmarked)
  | numbered => exact .line p _ ((Lays.of_isFlush (isFlush_marker .numbered number)).append hmarked)
  | definition =>
      have habsent := isAbsent_writePart content p.seeAlsos
      simp only [habsent, ↓reduceIte]
      split
      · rename_i hlacks
        have hbody := body .preserve ⟨[], (writePart "description"
          (writePart "term" p.seeAlsos content).2 content).2⟩
        exact .line p _ ((hparts.lays_nil (habsent.trans hlacks)).trans hbody.trim)
      · rw [List.append_nil]
        exact .line p _ hparts.lays_definitionLine

end Element

mutual

theorem lays_writeNode (s : Spacing) (p : Page) : ∀ n : Node,
    Lays (nodeOwnTexts n) p.text (writeNode s p n).text
  | .text t => by
      rw [writeNode, nodeOwnTexts]
      split
      · exact .refl p.text
      · exact .inline s p.text t
  | .element tag content =>
      lays_writeNode_element (fun s p => lays_writeContent s p content)
        (fun kind number p => lays_writeItems kind number p content) s tag p

/-- **Writing a content** shows its own texts, and all else it writes is flush. -/
theorem lays_writeContent (s : Spacing) (p : Page) : ∀ ns : List Node,
    Lays (contentOwnTexts ns) p.text (writeContent s p ns).text
  | [] => .refl p.text
  | n :: ns => by
      rw [writeContent, contentOwnTexts]
      exact (lays_writeNode s p n).trans (lays_writeContent s (writeNode s p n) ns)

theorem lays_writeItems (kind : ListKind) (number : Int) (p : Page) : ∀ ns : List Node,
    Lays (itemsOwnTexts kind ns) p.text (writeItems kind number p ns).text
  | [] => .refl p.text
  | .text t :: ns => by
      rw [writeItems, itemsOwnTexts]
      exact lays_writeItems kind number p ns
  | .element tag content :: ns => by
      by_cases h : tag.name = "item".toList
      · have hitem := lays_writeItem (fun s p => lays_writeContent s p content)
          (fun name m => laysPart_writePart name m content) kind number p
        rw [writeItems_item h, itemsOwnTexts_item h]
        exact hitem.trans (lays_writeItems kind (number + 1) _ ns)
      · rw [writeItems, itemsOwnTexts, if_neg h, if_neg h]
        exact lays_writeItems kind number p ns

theorem laysPart_writePart (name : String) (m : SeeAlsos) : ∀ ns : List Node,
    LaysPart (partOwnTexts name ns) (writePart name m ns).1
  | [] => ⟨isTrimmed_nil, .refl []⟩
  | .text t :: ns => by
      rw [writePart, partOwnTexts]
      exact laysPart_writePart name m ns
  | .element tag content :: ns => by
      rw [writePart, partOwnTexts]
      split
      · exact ⟨isTrimmed_trim _, (lays_writeContent .preserve { seeAlsos := m } content).trim⟩
      · exact laysPart_writePart name m ns

end

/-- **A rendered body is flush** just if the own texts in it are. -/
theorem isFlush_render_iff (s : Spacing) (m : SeeAlsos) (e : Element) :
    IsFlush (render s m e).1 ↔ ∀ own ∈ contentOwnTexts e.content, IsFlush own :=
  (lays_writeContent s { seeAlsos := m } e.content).trim.isFlush_iff

end Body

end DocComment
