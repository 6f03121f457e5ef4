import DocComment.Proofs.Body.ItemLine
import DocComment.Proofs.SeeAlsoReach

/-!
What writing does to the list of references, and that the list does nothing to writing.

* **The list is never read.** Whatever references were found before, an element, the items of a
  list and a see-also that stands by itself give the same text, and the same entries are inserted,
  one after another (`Body.exists_insertAll`).
* **Where the keys come from.** The entries are those of see-alsos below the element
  (`Body.KeysFromBelow`), and a see-also that stands by itself adds its own entry after them, its
  key with the text that is shown for it.
-/

namespace DocComment

open Xml Comment

namespace Body

/-! ### What is reached is below -/

/-- What is below a part of an item is below the item. -/
lemma isBelow_of_part {item part x : Element}
    (hpart : item.child? "term".toList = some part ∨
      item.child? "description".toList = some part)
    (hx : IsBelow part x) : IsBelow item x := by
  rcases hpart with hterm | hdescription
  · exact .inside (List.mem_of_find?_eq_some hterm) hx
  · exact .inside (List.mem_of_find?_eq_some hdescription) hx

/-- What is below an item is below its list. -/
lemma isBelow_of_item {list item x : Element} (hitem : item ∈ list.childrenNamed "item".toList)
    (hx : IsBelow item x) : IsBelow list x :=
  .inside (List.mem_filter.mp hitem).1 hx

lemma Reaches.isBelow {e x : Element} (h : Reaches e x) : IsBelow e x := by
  induction h with
  | child hc => exact .child hc
  | inside hc _ _ ih => exact .inside hc ih
  | part hlist _ hitem hpart _ ih =>
      exact .inside hlist (isBelow_of_item hitem (isBelow_of_part hpart ih))
  | plainItem hlist _ _ hitem _ _ _ ih => exact .inside hlist (isBelow_of_item hitem ih)

lemma ReachesInItem.isBelow {kind : ListKind} {item x : Element} (h : ReachesInItem kind item x) :
    IsBelow item x := by
  cases h with
  | part hpart hx => exact isBelow_of_part hpart hx.isBelow
  | plain _ _ _ hx => exact hx.isBelow

/-! ### Keys -/

/-- Whether every key of some entries is that of a see-also below an element. -/
def KeysFromBelow (e : Element) (entries : List (Text × Text)) : Prop :=
  ∀ key ∈ entries.map Prod.fst,
    ∃ x, IsBelow e x ∧ x.tag.localName = "seealso".toList ∧ seeAlsoKey x.tag = key

/-- The keys that a trace lists are those of the see-alsos that are met. -/
lemma keysFromBelow_listed {e : Element} {evs : List Event}
    (h : ∀ s x, .seeAlso s x ∈ evs → IsBelow e x ∧ x.role = .seeAlso) :
    KeysFromBelow e (listed evs) := by
  intro key hkey
  obtain ⟨entry, hentry, rfl⟩ := List.mem_map.mp hkey
  obtain ⟨ev, hev, hfound⟩ := List.mem_filterMap.mp hentry
  cases ev with
  | seeAlso s x =>
      cases hfound
      obtain ⟨hbelow, hrole⟩ := h s x hev
      exact ⟨x, hbelow, Element.role_eq_seeAlso_iff.mp hrole, rfl⟩
  | item content => cases hfound

lemma keysFromBelow_contentTrace (s : Spacing) (e : Element) :
    KeysFromBelow e (listed (contentTrace .termFirst s e.content)) :=
  keysFromBelow_listed fun _ _ hmet =>
    (reaches_of_mem_contentTrace s e.content hmet e (.refl _)).imp_left Reaches.isBelow

lemma keysFromBelow_itemsTrace (kind : ListKind) (list : Element) :
    KeysFromBelow list (listed (itemsTrace .termFirst kind list.content)) := by
  refine keysFromBelow_listed fun _ _ hmet => ?_
  obtain ⟨⟨item, hitem, hreach⟩, hrole⟩ :=
    reaches_of_mem_itemsTrace kind list.content hmet list (.refl _)
  exact ⟨isBelow_of_item hitem hreach.isBelow, hrole⟩

/-! ### The list is only written -/

/-- Writing a list adds the lines of its items to the text, and what the items list to the
references. -/
lemma writeItems_eq (kind : ListKind) (number : Int) (p : Page) (list : Element) :
    writeItems kind number p list.content =
      ⟨p.text ++ (itemLines kind number (list.childrenNamed "item".toList)).flatMap
          fun line => line ++ ['\n'],
        p.seeAlsos.insertAll (listed (itemsTrace .termFirst kind list.content))⟩ := by
  rw [(lists_writeItems kind number list.content).eq p, text_writeItems]

/-- What is shown for a see-also that is listed after some references. -/
def seeAlsoText (s : Spacing) (m : SeeAlsos) (e : Element) : Text :=
  seeAlsoDisplay s e.tag (writeContent s { seeAlsos := m } e.content).text

/-- A see-also in a body is listed like one that stands by itself, and the text that is shown for it
is joined to the line. -/
lemma writeNode_of_seeAlso {e : Element} (h : e.role = .seeAlso) (s : Spacing) (p : Page) :
    writeNode s p e.toNode =
      { p with seeAlsos := registerSeeAlso s p.seeAlsos e }.inline s
        (seeAlsoText s p.seeAlsos e) := by
  rw [Element.role] at h
  rw [Element.toNode, writeNode, h]
  rfl

/-- **The list of references is only written.** For an element there are a text and entries, with
keys of see-alsos below it, such that, whatever was listed before, rendering the element gives this
text and inserts these entries one after another. The same goes for writing its items to any page,
and for listing it as a see-also, where the last entry is its own key with the text shown for it;
in a body this text is joined to the line. -/
theorem exists_insertAll (s : Spacing) (e : Element) :
    (∃ t entries, KeysFromBelow e entries ∧ ∀ m, render s m e = (t, m.insertAll entries)) ∧
      (∃ t entries, KeysFromBelow e entries ∧ ∀ p,
        writeItems (ListKind.ofTag e.tag) (firstNumber e.tag) p e.content =
          ⟨p.text ++ t, p.seeAlsos.insertAll entries⟩) ∧
      ∃ t entries, KeysFromBelow e entries ∧
        (∀ m, (seeAlsoText s m e, registerSeeAlso s m e) =
          (t, m.insertAll (entries ++ [(seeAlsoKey e.tag, t)]))) ∧
        (e.role = .seeAlso → ∀ p, writeNode s p e.toNode =
          { p with seeAlsos := p.seeAlsos.insertAll (entries ++ [(seeAlsoKey e.tag, t)]) }.inline
            s t) := by
  have hkeys := keysFromBelow_contentTrace s e
  have htext : ∀ m, seeAlsoText s m e = seeAlsoDisplay s e.tag (contentText s e.content) :=
    fun m => by rw [seeAlsoText, text_writeContent]
  have hlist : ∀ m, registerSeeAlso s m e =
      m.insertAll (listed (contentTrace .termFirst s e.content) ++ [seeAlsoEntry s e]) :=
    fun m => by rw [registerSeeAlso_eq, seeAlsoTrace, listed_append]; rfl
  refine ⟨⟨_, _, hkeys, fun m => render_eq s m e⟩,
    ⟨_, _, keysFromBelow_itemsTrace _ e, fun p => writeItems_eq _ _ p e⟩,
    ⟨_, _, hkeys, fun m => Prod.ext (htext m) (hlist m), fun hrole p => ?_⟩⟩
  rw [writeNode_of_seeAlso hrole, htext, hlist]
  rfl

/-- A see-also with another one in its body. -/
def nestedSeeAlso : Element where
  tag := { name := "seealso".toList, attributes := .ofList [("cref".toList, "T:A".toList)] }
  content := [seeAlsoTo "M:B" [.text ['b']]]

theorem exists_insertAll_nestedSeeAlso :
    nestedSeeAlso.role = .seeAlso ∧
      ∃ entries, KeysFromBelow nestedSeeAlso entries ∧
        ∀ p, writeNode .preserve p nestedSeeAlso.toNode =
          { p with seeAlsos := p.seeAlsos.insertAll (entries ++ [(['A'], ['b'])]) }.inline
            .preserve ['b'] := by
  have hrole : nestedSeeAlso.role = .seeAlso := by decide
  obtain ⟨-, -, t, entries, hkeys, hlist, hwrite⟩ := exists_insertAll .preserve nestedSeeAlso
  have htext : seeAlsoText .preserve .empty nestedSeeAlso = ['b'] := by decide
  obtain rfl : ['b'] = t := htext.symm.trans (congrArg Prod.fst (hlist .empty))
  exact ⟨hrole, entries, hkeys, hwrite hrole⟩

end Body

end DocComment
