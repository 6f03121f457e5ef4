import DocComment.Proofs.Comment
import DocComment.Proofs.SectionByTag
import DocComment.Proofs.SeeAlsoReach
import DocComment.Proofs.SingleSpaced

/-!
Summaries as running text.

* **Fragments.** Apart from blocks, lists and inline code, each piece of a body is a fragment of
  running text: a text, a name that is mentioned, a reference, or the text of a tag without a role
  (`Body.fragment?`). Writing such a body joins its fragments
  (`Body.text_writeContent_of_not_standsOut`).
* **Single spaces.** So a summary of this kind has two white-space characters side by side just if
  its fragments leave a wide gap (`Comment.isSingleSpaced_summary_iff`).
* **Gaps happen.** A reference that names nothing is a blank fragment, and the word behind it is set
  off once more (`Comment.not_forall_isSingleSpaced_summary`).
-/

namespace DocComment

open Xml

namespace Body

/-! ### Fragments -/

/-- The fragment of running text that a piece of content is. Blank text between tags is none, nor
are blocks, lists and inline code. -/
def fragment? (s : Spacing) : Node → Option Text
  | .text t => if Text.isBlank t then none else some t
  | .element tag content =>
    match Role.ofName tag.localName with
    | .parameter => some (nameIn tag "name")
    | .see => some (if content.isEmpty then nameIn tag "cref" else textOf content)
    | .seeAlso => some (seeAlsoDisplay s tag (contentText s content))
    | .plain => some (textOf content)
    | .block => none
    | .list => none
    | .code => none

/-- The fragments of a content. -/
def fragments (s : Spacing) (content : List Node) : List Text :=
  content.filterMap (fragment? s)

/-- Whether an element is laid out in a way of its own, and is no running text. -/
def StandsOut (e : Element) : Prop :=
  e.role = .block ∨ e.role = .list ∨ e.role = .code

/-- A piece of running text adds its fragment. -/
lemma text_writeNode_of_not_standsOut {n : Node} (h : ∀ e ∈ n.element?, ¬ StandsOut e)
    (s : Spacing) (p : Page) :
    (writeNode s p n).text = (fragment? s n).toList.foldl s.append p.text := by
  cases n with
  | text t =>
      rw [writeNode, fragment?]
      split
      · rfl
      · rfl
  | element tag content =>
      have hout := h ⟨tag, content⟩ rfl
      rw [StandsOut, Element.role] at hout
      simp only [writeNode, fragment?]
      cases hrole : Role.ofName tag.localName with
      | seeAlso =>
          simp only [writeContent_eq s { seeAlsos := p.seeAlsos } content]
          rfl
      | parameter | see | plain => rfl
      | block | list | code => simp [hrole] at hout

/-- **Writing running text** joins its fragments. -/
theorem text_writeContent_of_not_standsOut {content : List Node}
    (h : ∀ e ∈ content.filterMap Node.element?, ¬ StandsOut e) (s : Spacing) (p : Page) :
    (writeContent s p content).text = (fragments s content).foldl s.append p.text := by
  induction content generalizing p with
  | nil => rfl
  | cons n ns ih =>
      have hn : ∀ e ∈ n.element?, ¬ StandsOut e := fun e he =>
        h e (List.mem_filterMap.mpr ⟨n, List.mem_cons_self, he⟩)
      have hns : ∀ e ∈ ns.filterMap Node.element?, ¬ StandsOut e := fun e he => by
        obtain ⟨m, hm, hme⟩ := List.mem_filterMap.mp he
        exact h e (List.mem_filterMap.mpr ⟨m, List.mem_cons_of_mem n hm, hme⟩)
      have hfragments : fragments s (n :: ns) = (fragment? s n).toList ++ fragments s ns := by
        rw [fragments, List.filterMap_cons]
        cases fragment? s n <;> rfl
      rw [writeContent, ih hns, text_writeNode_of_not_standsOut hn, hfragments, List.foldl_append]

/-- The text of a body that is running text. -/
lemma bodyText_eq_joined {e : Element} (h : ∀ c ∈ e.elements, ¬ StandsOut c) :
    bodyText .collapse e = Spacing.joined (fragments .collapse e.content) := by
  rw [bodyText, contentText, text_writeContent_of_not_standsOut h, Spacing.joined]

end Body

namespace Comment

open Body Text

/-- **Summaries are single-spaced prose**, as far as their fragments leave no wide gap: a summary
without blocks, lists and inline code has two white-space characters side by side just if between
visible fragments there is a blank one, and the next is blank too or opens with a word. -/
theorem isSingleSpaced_summary_iff {t : Text} {r : Record} (h : read (some t) = .ok (some r)) :
    ∃ root, readDocument t = .ok root ∧
      ∀ sec, root.child? "summary".toList = some sec → (∀ c ∈ sec.elements, ¬ StandsOut c) →
        (IsSingleSpaced r.summary ↔
          ¬ Spacing.LeaveWideGap (fragments .collapse sec.content)) := by
  obtain ⟨-, root, hroot, rfl⟩ := read_eq_ok_some_iff.mp h
  refine ⟨root, hroot, fun sec hsec hrunning => ?_⟩
  have hchild : root.child? TextSection.summary.tagName = some sec := hsec
  have hsummary : (Record.ofRoot root).summary = bodyText .collapse sec := by
    have htext := Record.text_ofRoot_eq_child? root .summary
    rw [hchild, Option.map_some, Option.getD_some] at htext
    exact htext
  rw [hsummary, bodyText_eq_joined hrunning, Spacing.isSingleSpaced_joined_iff]

/-- A reference that names nothing. -/
def namelessSee : Element where
  tag := { name := "see".toList, selfClosing := true }

/-- A summary with this reference. -/
def namelessSummary : Element where
  tag := { name := "summary".toList }
  content := [.text "See ".toList, namelessSee.toNode, .text " here".toList]

/-- A comment with this summary. -/
def namelessRoot : Element where
  tag := { name := "doc".toList }
  content := [namelessSummary.toNode]

/-- The comment as it is written. -/
def namelessText : Text := "<doc><summary>See <see/> here</summary></doc>".toList

lemma writesNode_namelessRoot : WritesNode namelessRoot.toNode namelessText := by
  have hwritten : namelessRoot.toNode.written = namelessText := by decide +kernel
  rw [← hwritten]
  exact writesNode_written _ rfl

lemma not_standsOut_namelessSee : ¬ StandsOut namelessSee := by
  rintro (hrole | hrole | hrole)
  · exact absurd hrole (by decide)
  · exact absurd hrole (by decide)
  · exact absurd hrole (by decide)

/-- The blank fragment of the reference leaves a wide gap. -/
theorem isSingleSpaced_summary_namelessRoot :
    read (some namelessText) = .ok (some (Record.ofRoot namelessRoot)) ∧
      ¬ IsSingleSpaced (Record.ofRoot namelessRoot).summary := by
  have hread := read_of_writesNode writesNode_namelessRoot rfl
  obtain ⟨root, hroot, hsummary⟩ := isSingleSpaced_summary_iff hread
  obtain rfl : namelessRoot = root := eq_of_readDocument writesNode_namelessRoot rfl hroot
  refine ⟨hread, fun hsingle => (hsummary _ rfl ?_).mp hsingle ?_⟩
  · intro c hc
    obtain rfl := List.mem_singleton.mp hc
    exact not_standsOut_namelessSee
  · exact ⟨["See ".toList], [], " here".toList, [], rfl, ⟨_, List.mem_cons_self, by decide⟩,
      fun hclose => absurd (hclose rfl) (by decide), _, List.mem_cons_self, by decide⟩

/-- So not all summaries of running text are single-spaced. -/
theorem not_forall_isSingleSpaced_summary :
    ¬ ∀ t r, read (some t) = .ok (some r) → ∃ root, readDocument t = .ok root ∧
      ∀ sec, root.child? "summary".toList = some sec → (∀ x, IsBelow sec x → ¬ StandsOut x) →
        IsSingleSpaced r.summary := by
  intro hall
  have hread := read_of_writesNode writesNode_namelessRoot rfl
  obtain ⟨root, hroot, hsummary⟩ := hall _ _ hread
  obtain rfl : namelessRoot = root := eq_of_readDocument writesNode_namelessRoot rfl hroot
  have hrunning : ∀ x, IsBelow namelessSummary x → ¬ StandsOut x := by
    intro x hx
    cases hx with
    | child hc =>
        obtain rfl := List.mem_singleton.mp hc
        exact not_standsOut_namelessSee
    | inside hc hx =>
        obtain rfl := List.mem_singleton.mp hc
        cases hx with
        | child hc => cases hc
        | inside hc => cases hc
  have hsingle := hsummary _ rfl hrunning
  rw [show (Record.ofRoot namelessRoot).summary = "See  here".toList by decide +kernel] at hsingle
  exact List.isChain_iff_forall_rel_of_append_cons_cons.mp hsingle
    (show "See  here".toList = "See".toList ++ ' ' :: ' ' :: "here".toList from rfl)
    ⟨rfl, rfl⟩

end Comment

end DocComment
