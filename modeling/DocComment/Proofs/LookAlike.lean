import DocComment.Section
import Mathlib.Tactic.Common

/-!
What of a tag counts.

* **Tags.** Of a tag only the name and four attributes are looked at. Tags that agree in these look
  alike, whatever else is said in them and whether they close themselves or not (`Tag.LooksLike`).
* **Contents** look alike if they have the same texts and their tags look alike, at any depth
  (`LookAlike`).
* **Nothing else counts.** Contents that look alike are written alike (`LookAlike.writtenAlike`), so
  roots with such contents have the same record (`Record.ofRoot_eq_of_lookAlike`). Hence any other
  attribute can be set without a difference (`Record.ofRoot_setAttribute`).
-/

namespace DocComment

open Xml

namespace Xml

/-! ### Looking alike -/

/-- The names of the attributes that are looked at. -/
def Tag.lookedAt : List Text :=
  ["type".toList, "start".toList, "name".toList, "cref".toList]

/-- Whether two tags agree in what is looked at. -/
structure Tag.LooksLike (tag other : Tag) : Prop where
  name : other.name = tag.name
  attributes : ∀ key ∈ lookedAt, other.attributes.get? key = tag.attributes.get? key

/-- Whether two contents have the same texts and agree in what is looked at in their tags. -/
inductive LookAlike : List Node → List Node → Prop where
  | refl (ns : List Node) : LookAlike ns ns
  | text {ns ms : List Node} (t : Text) (h : LookAlike ns ms) :
      LookAlike (.text t :: ns) (.text t :: ms)
  | element {tag other : Tag} {content body ns ms : List Node} (htag : tag.LooksLike other)
      (hcontent : LookAlike content body) (h : LookAlike ns ms) :
      LookAlike (.element tag content :: ns) (.element other body :: ms)

lemma Tag.LooksLike.refl (tag : Tag) : tag.LooksLike tag :=
  ⟨rfl, fun _ _ => rfl⟩

/-- An attribute that is not looked at can be set. -/
lemma Element.looksLike_setAttribute {key : Text} (hkey : key ∉ Tag.lookedAt) (e : Element)
    (value : Text) : e.tag.LooksLike (e.setAttribute key value).tag := by
  refine ⟨rfl, fun k hk => ?_⟩
  have hne : k ≠ key := fun h => hkey (h ▸ hk)
  exact (e.attribute?_setAttribute key value k).trans (if_neg hne)

lemma LookAlike.append_left {ns ms : List Node} (h : LookAlike ns ms) (before : List Node) :
    LookAlike (before ++ ns) (before ++ ms) := by
  induction before with
  | nil => exact h
  | cons n before ih =>
      cases n with
      | text t => exact .text t ih
      | element tag content => exact .element (.refl tag) (.refl content) ih

end Xml

/-! ### Reading a tag -/

section Tag

open Body

variable {tag other : Tag} (h : tag.LooksLike other)

include h

lemma localName_eq_of_looksLike : other.localName = tag.localName := by
  rw [Tag.localName, Tag.localName, h.name]

lemma nameIn_eq_of_looksLike (key : String) (hkey : key.toList ∈ Tag.lookedAt) :
    nameIn other key = nameIn tag key := by
  rw [nameIn, nameIn, h.attributes _ hkey]

lemma ofTag_eq_of_looksLike : ListKind.ofTag other = ListKind.ofTag tag := by
  rw [ListKind.ofTag, ListKind.ofTag, h.attributes "type".toList (by decide)]

lemma firstNumber_eq_of_looksLike : firstNumber other = firstNumber tag := by
  rw [firstNumber, firstNumber, h.attributes "start".toList (by decide)]

lemma seeAlsoKey_eq_of_looksLike : seeAlsoKey other = seeAlsoKey tag :=
  nameIn_eq_of_looksLike h "cref" (by decide)

lemma seeAlsoDisplay_eq_of_looksLike (s : Spacing) (body : Text) :
    seeAlsoDisplay s other body = seeAlsoDisplay s tag body := by
  rw [seeAlsoDisplay, seeAlsoDisplay, seeAlsoKey_eq_of_looksLike h]

lemma listSeeAlso_eq_of_looksLike (s : Spacing) (body : Page) :
    listSeeAlso s other body = listSeeAlso s tag body := by
  rw [listSeeAlso, listSeeAlso, seeAlsoKey_eq_of_looksLike h, seeAlsoDisplay_eq_of_looksLike h]

lemma key?_eq_of_looksLike (kind : KeyedSection) (content body : List Node) :
    kind.key? ⟨other, body⟩ = kind.key? ⟨tag, content⟩ := by
  have hkey : kind.keyAttribute ∈ Tag.lookedAt := by cases kind <;> decide
  rw [KeyedSection.key?, KeyedSection.key?, Element.attribute?, Element.attribute?,
    h.attributes _ hkey]

end Tag

namespace Body

/-! ### Writing -/

/-- Whether two contents are written alike: as text, as items and as parts of an item, wherever
this is done, and as text without markup. -/
structure WrittenAlike (ns ms : List Node) : Prop where
  content : ∀ (s : Spacing) (p : Page), writeContent s p ms = writeContent s p ns
  items : ∀ (kind : ListKind) (number : Int) (p : Page),
    writeItems kind number p ms = writeItems kind number p ns
  part : ∀ (name : String) (m : SeeAlsos), writePart name m ms = writePart name m ns
  text : textOf ms = textOf ns
  isEmpty : ms.isEmpty = ns.isEmpty

section Element

variable {tag other : Tag} {content body ns ms : List Node} (htag : tag.LooksLike other)
  (hcontent : WrittenAlike content body)

include htag hcontent

lemma writeNode_eq_of_looksLike (s : Spacing) (p : Page) :
    writeNode s p (.element other body) = writeNode s p (.element tag content) := by
  rw [writeNode, writeNode, localName_eq_of_looksLike htag]
  cases Role.ofName tag.localName with
  | block => simp only [hcontent.content]
  | list =>
      simp only [ofTag_eq_of_looksLike htag, firstNumber_eq_of_looksLike htag, hcontent.items]
  | parameter => simp only [nameIn_eq_of_looksLike htag "name" (by decide)]
  | see =>
      simp only [hcontent.isEmpty, hcontent.text,
        nameIn_eq_of_looksLike htag "cref" (by decide)]
  | seeAlso =>
      simp only [hcontent.content, listSeeAlso_eq_of_looksLike htag,
        seeAlsoDisplay_eq_of_looksLike htag]
  | code | plain => simp only [hcontent.text]

/-- Contents stay alike if an element is put in front of each, and these two look alike. -/
lemma WrittenAlike.element (h : WrittenAlike ns ms) :
    WrittenAlike (.element tag content :: ns) (.element other body :: ms) where
  content s p := by
    rw [writeContent, writeContent, writeNode_eq_of_looksLike htag hcontent, h.content]
  items kind number p := by
    rw [writeItems, writeItems, htag.name]
    simp only [hcontent.part, hcontent.content, hcontent.text, h.items]
  part name m := by
    rw [writePart, writePart, htag.name, hcontent.content, h.part]
  text := by
    rw [textOf, textOf, Node.textOf, Node.textOf, hcontent.text, h.text]
  isEmpty := rfl

end Element

end Body

open Body

/-- **Contents that look alike are written alike.** -/
theorem Xml.LookAlike.writtenAlike {ns ms : List Node} (h : LookAlike ns ms) :
    WrittenAlike ns ms := by
  induction h with
  | refl ns => exact ⟨fun _ _ => rfl, fun _ _ _ => rfl, fun _ _ => rfl, rfl, rfl⟩
  | text t _ ih =>
      exact
        { content := fun s p => by rw [writeContent, writeContent, ih.content]
          items := fun kind number p => by rw [writeItems, writeItems, ih.items]
          part := fun name m => by rw [writePart, writePart, ih.part]
          text := by rw [textOf, textOf, ih.text]
          isEmpty := rfl }
  | element htag _ _ hcontent ih => exact .element htag hcontent ih

/-! ### Records -/

lemma Extraction.take_eq_of_lookAlike {tag other : Tag} {content body : List Node}
    (htag : tag.LooksLike other) (hcontent : LookAlike content body) (x : Extraction) :
    x.take ⟨other, body⟩ = x.take ⟨tag, content⟩ := by
  have hwritten := hcontent.writtenAlike.content
  have hrender : ∀ (s : Spacing) (m : SeeAlsos),
      render s m ⟨other, body⟩ = render s m ⟨tag, content⟩ := fun s m => by
    simp only [render, hwritten]
  have hregister : ∀ (s : Spacing) (m : SeeAlsos),
      registerSeeAlso s m ⟨other, body⟩ = registerSeeAlso s m ⟨tag, content⟩ := fun s m => by
    simp only [registerSeeAlso, hwritten, listSeeAlso_eq_of_looksLike htag]
  simp only [take, htag.name]
  cases Section.ofName? tag.name with
  | none => rfl
  | some sec =>
      cases sec with
      | text kind => simp only [takeSection, hrender]
      | keyed kind =>
          simp only [takeSection, hrender, key?_eq_of_looksLike htag kind content body]
      | seeAlso => simp only [takeSection, hregister]

lemma Extraction.foldl_take_eq_of_lookAlike {ns ms : List Node} (h : LookAlike ns ms)
    (x : Extraction) :
    (ms.filterMap Node.element?).foldl take x = (ns.filterMap Node.element?).foldl take x := by
  induction h generalizing x with
  | refl ns => rfl
  | text t _ ih => exact ih x
  | @element tag other content body ns ms htag hcontent _ _ ih =>
      show (ms.filterMap Node.element?).foldl take (x.take ⟨other, body⟩) =
        (ns.filterMap Node.element?).foldl take (x.take ⟨tag, content⟩)
      rw [take_eq_of_lookAlike htag hcontent, ih]

namespace Record

/-- **Roots with contents that look alike have the same record**, whatever their own tags are. -/
theorem ofRoot_eq_of_lookAlike {root other : Element} (h : LookAlike root.content other.content) :
    ofRoot other = ofRoot root :=
  congrArg Extraction.record (Extraction.foldl_take_eq_of_lookAlike h {})

/-- So an attribute with another name than those that are looked at makes no difference. -/
theorem ofRoot_setAttribute {key : Text} (hkey : key ∉ Tag.lookedAt) (value : Text) (tag : Tag)
    (before after : List Node) (e : Element) :
    ofRoot ⟨tag, before ++ (e.setAttribute key value).toNode :: after⟩ =
      ofRoot ⟨tag, before ++ e.toNode :: after⟩ := by
  have helement : LookAlike (e.toNode :: after) ((e.setAttribute key value).toNode :: after) :=
    .element (e.looksLike_setAttribute hkey value) (.refl e.content) (.refl after)
  exact ofRoot_eq_of_lookAlike (helement.append_left before)

end Record

end DocComment
