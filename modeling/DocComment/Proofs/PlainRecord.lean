import DocComment.Proofs.Comment
import DocComment.Proofs.Section
import Mathlib.Data.List.Basic

/-!
Records of plain text, written as comments and read back.

* **Plain records** (`Record.IsPlain`) have texts that are laid out already, so that laying them
  out again changes nothing, and keys that are not blank.
* **Writing.** `PlainSection` is a section with plain text; sections `LaysOut` a record if there
  is one for each of its texts and one for each entry of its maps, those of a map in the order of
  the map. Kinds may be mixed, an empty body may be written as a tag that closes itself, and any
  text may stand between the sections (`commentRoot`).
* **Reading.** Every written form of such a comment has the record that was written
  (`read_of_laysOut`), provided that the body of a see-also is laid out already; a see-also whose
  value is its key need not have a body.
-/

namespace DocComment

open Xml Body

/-! ### Plain text -/

namespace Spacing

/-- A blank fragment is laid out as nothing. -/
lemma normalize_of_isBlank (s : Spacing) {t : Text} (h : Text.isBlank t = true) :
    s.normalize t = [] := by
  rw [normalize, append_nil, Text.trimStart_eq_nil_iff.mpr h]
  cases s <;> rfl

end Spacing

/-- The content that is a text: nothing for the empty text. -/
def textContent (t : Text) : List Node :=
  if t.isEmpty then [] else [.text t]

lemma textContent_of_ne {t : Text} (h : t ≠ []) : textContent t = [.text t] := by
  rw [textContent, if_neg (by simpa using h)]

/-- The body of a plain text is the text laid out. -/
lemma trim_contentText_textContent (s : Spacing) (t : Text) :
    Text.trim (contentText s (textContent t)) = s.normalize t := by
  cases t with
  | nil => rw [Spacing.normalize_of_isBlank s rfl]; rfl
  | cons c t =>
      rw [textContent_of_ne (List.cons_ne_nil c t), contentText, writeContent, writeContent,
        writeNode]
      split
      · rename_i h
        rw [Spacing.normalize_of_isBlank s h]
        rfl
      · rfl

/-- A plain text has no see-alsos. -/
lemma contentTrace_textContent (o : PartOrder) (s : Spacing) (t : Text) :
    contentTrace o s (textContent t) = [] := by
  cases t <;> rfl

/-! ### Plain sections -/

/-- A section whose body is plain text. -/
inductive PlainSection where
  | text (kind : TextSection) (t : Text)
  | keyed (kind : KeyedSection) (key t : Text)
  /-- A see-also. It is bare if its body is left out, so that it shows its key. -/
  | seeAlso (key t : Text) (bare : Bool)

namespace PlainSection

/-- The kind of a section. -/
def kind : PlainSection → Section
  | .text kind _ => .text kind
  | .keyed kind _ _ => .keyed kind
  | .seeAlso _ _ _ => .seeAlso

/-- The name of the tag of a section. -/
def tagName : PlainSection → Text
  | .text kind _ => kind.tagName
  | .keyed kind _ _ => kind.tagName
  | .seeAlso _ _ _ => "seealso".toList

/-- The attributes of a section: a key is written as the name of a type. -/
def attributes : PlainSection → Attributes
  | .text _ _ => .empty
  | .keyed kind key _ => ⟨[(kind.keyAttribute, 'T' :: ':' :: key)], List.pairwise_singleton _ _⟩
  | .seeAlso key _ _ => ⟨[("cref".toList, 'T' :: ':' :: key)], List.pairwise_singleton _ _⟩

/-- The body of a section. -/
def body : PlainSection → Text
  | .text _ t => t
  | .keyed _ _ t => t
  | .seeAlso _ t bare => if bare then [] else t

/-- The text that a section has for a kind of texts. -/
def text? (kind : TextSection) : PlainSection → Option Text
  | .text k t => if k = kind then some t else none
  | _ => none

/-- The entry that a section has for a kind of keyed sections. -/
def entryFor? (kind : KeyedSection) : PlainSection → Option (Text × Text)
  | .keyed k key t => if k = kind then some (key, t) else none
  | _ => none

/-- The entry that a see-also has. -/
def seeAlso? : PlainSection → Option (Text × Text)
  | .seeAlso key t _ => some (key, t)
  | _ => none

/-- The element of a section. If wanted, an empty body is written by a tag that closes itself. -/
def element (sec : PlainSection) (close : Bool) : Element where
  tag :=
    { name := sec.tagName, attributes := sec.attributes, selfClosing := close && sec.body.isEmpty }
  content := textContent sec.body

lemma of?_element (sec : PlainSection) (close : Bool) :
    Section.of? (sec.element close) = some sec.kind := by
  cases sec with
  | text kind t => cases kind <;> rfl
  | keyed kind key t => cases kind <;> rfl
  | seeAlso key t bare => rfl

lemma bodyText_element (s : Spacing) (sec : PlainSection) (close : Bool) :
    bodyText s (sec.element close) = s.normalize sec.body :=
  trim_contentText_textContent s sec.body

lemma contentTrace_element (o : PartOrder) (s : Spacing) (sec : PlainSection) (close : Bool) :
    contentTrace o s (sec.element close).content = [] :=
  contentTrace_textContent o s sec.body

/-! ### Reading a plain section -/

/-- A text section is read as its text, if that is laid out already. -/
lemma text?_element {kind : TextSection} {sec : PlainSection}
    (h : ∀ t, sec.text? kind = some t → kind.spacing.normalize t = t) (close : Bool) :
    kind.text? (sec.element close) = sec.text? kind := by
  rw [TextSection.text?, of?_element, bodyText_element]
  cases sec with
  | text k t =>
      by_cases hk : k = kind
      · subst hk
        simpa [PlainSection.kind, text?, body] using h t (by simp [text?])
      · simp [PlainSection.kind, text?, hk]
  | keyed k key t => simp [PlainSection.kind, text?]
  | seeAlso key t bare => simp [PlainSection.kind, text?]

/-- The mark in front of a key is dropped. -/
lemma name_mark_key (key : Text) : MemberId.name ('T' :: ':' :: key) = key :=
  MemberId.name_cons_colon (List.mem_cons_of_mem _ List.mem_cons_self) key

lemma attribute?_keyAttribute (kind : KeyedSection) (key t : Text) (close : Bool) :
    ((keyed kind key t).element close).attribute? kind.keyAttribute = some ('T' :: ':' :: key) := by
  simp [element, Element.attribute?, attributes, Attributes.get?]

/-- A key is never missed, since it has a mark in front. -/
lemma key?_element (kind : KeyedSection) (key t : Text) (close : Bool) :
    kind.key? ((keyed kind key t).element close) = some ('T' :: ':' :: key) := by
  have hmark : Text.isBlank ('T' :: ':' :: key) = false := by
    have hT : Text.isSpace 'T' = false := rfl
    simp [Text.isBlank, hT]
  rw [KeyedSection.key?, attribute?_keyAttribute]
  simp [hmark]

/-- A keyed section is read as its entry, if the text is laid out already. -/
lemma entryFor?_element {kind : KeyedSection} {sec : PlainSection}
    (h : ∀ e, sec.entryFor? kind = some e → Spacing.preserve.normalize e.2 = e.2) (close : Bool) :
    kind.entryIn? (sec.element close) = sec.entryFor? kind := by
  rw [KeyedSection.entryIn?, of?_element, bodyText_element]
  cases sec with
  | text k t => simp [PlainSection.kind, entryFor?]
  | keyed k key t =>
      by_cases hk : k = kind
      · subst hk
        have ht : Spacing.preserve.normalize t = t := h (key, t) (by simp [entryFor?])
        rw [key?_element]
        simp [PlainSection.kind, entryFor?, body, ht, name_mark_key]
      · simp [PlainSection.kind, entryFor?, hk]
  | seeAlso key t bare => simp [PlainSection.kind, entryFor?]

/-- Whether a see-also shows its value: a bare one if that is its key, any other if the value is
laid out already. An empty value is shown only if it is the key. -/
def Shows : PlainSection → Prop
  | .seeAlso key t bare =>
    (bare = true → t = key) ∧ (bare = false → Spacing.preserve.normalize t = t) ∧
      (t ≠ [] ∨ t = key)
  | _ => True

lemma seeAlsoEntry_element {key t : Text} {bare : Bool} (h : (seeAlso key t bare).Shows)
    (close : Bool) :
    seeAlsoEntry .preserve ((seeAlso key t bare).element close) = (key, t) := by
  obtain ⟨hbare, hfixed, hne⟩ := h
  have hkey : seeAlsoKey ((seeAlso key t bare).element close).tag = key := by
    simp [seeAlsoKey, nameIn, element, attributes, Attributes.get?, name_mark_key]
  have hbody : Text.trim (contentText .preserve ((seeAlso key t bare).element close).content) =
      Spacing.preserve.normalize (seeAlso key t bare).body :=
    trim_contentText_textContent .preserve (seeAlso key t bare).body
  simp only [seeAlsoEntry, seeAlsoDisplay, hbody, hkey]
  cases bare with
  | true =>
      have hempty : Spacing.preserve.normalize [] = [] := rfl
      simp [body, hempty, hbare rfl]
  | false =>
      simp only [body, Bool.false_eq_true, if_false, hfixed rfl]
      rcases hne with hne | rfl
      · simp [hne]
      · simp

end PlainSection

/-! ### Plain records -/

/-- A record of plain text: laying out its texts changes nothing, its keys are not blank, and
what is shown for a see-also is a text or the key. -/
structure Record.IsPlain (d : Record) : Prop where
  texts : ∀ kind, kind.spacing.normalize (d.text kind) = d.text kind
  keys : ∀ kind, ∀ key ∈ (d.entries kind).keys, Text.isBlank key = false
  entries : ∀ kind, ∀ e ∈ (d.entries kind).entries, Spacing.preserve.normalize e.2 = e.2
  seeAlsoKeys : ∀ key ∈ d.seeAlsos.keys, Text.isBlank key = false
  seeAlsos : ∀ e ∈ d.seeAlsos.entries,
    e.2 ≠ [] ∧ Spacing.preserve.normalize e.2 = e.2 ∨ e.2 = e.1

/-- **Sections that lay out a record**: one for each text and one for each entry. -/
structure LaysOut (secs : List PlainSection) (d : Record) : Prop where
  texts : ∀ kind, secs.filterMap (PlainSection.text? kind) = [d.text kind]
  entries : ∀ kind, secs.filterMap (PlainSection.entryFor? kind) = (d.entries kind).entries
  seeAlsos : secs.filterMap PlainSection.seeAlso? = d.seeAlsos.entries
  /-- Only a see-also that shows its key is bare. -/
  bare : ∀ key t, PlainSection.seeAlso key t true ∈ secs → t = key

/-- A section in its place, with the text in front of it. -/
structure PlacedSection where
  gap : Text := []
  sec : PlainSection
  /-- Whether an empty body is written by a tag that closes itself. -/
  close : Bool := false

/-- The element of a section. -/
def PlacedSection.element (p : PlacedSection) : Element :=
  p.sec.element p.close

/-- The content that sections are, with the text after the last one. -/
def sectionsContent (gap : Text) : List PlacedSection → List Node
  | [] => textContent gap
  | p :: ps => textContent p.gap ++ p.element.toNode :: sectionsContent gap ps

/-- The root of a comment with given sections. -/
def commentRoot (ps : List PlacedSection) (gap : Text) : Element where
  tag := { name := "doc".toList }
  content := sectionsContent gap ps

lemma elements_commentRoot (ps : List PlacedSection) (gap : Text) :
    (commentRoot ps gap).elements = ps.map PlacedSection.element := by
  have htext : ∀ t, (textContent t).filterMap Node.element? = [] := by
    intro t
    cases t <;> rfl
  show (sectionsContent gap ps).filterMap Node.element? = _
  induction ps with
  | nil => exact htext gap
  | cons p ps ih =>
      rw [sectionsContent, List.filterMap_append, htext, List.nil_append, List.filterMap_cons, ih]
      rfl

lemma areWritable_textContent (t : Text) : areWritable (textContent t) = true := by
  cases t <;> rfl

lemma isWritable_element (p : PlacedSection) : p.element.toNode.isWritable = true := by
  obtain ⟨gap, sec, close⟩ := p
  have hplain : (sec.element close).tag.isPlain = true := by
    cases sec with
    | text kind t => cases kind <;> rfl
    | keyed kind key t => cases kind <;> rfl
    | seeAlso key t bare => rfl
  have hclose : (!(close && sec.body.isEmpty) || (textContent sec.body).isEmpty) = true := by
    cases sec.body <;> simp [textContent]
  show ((sec.element close).tag.isPlain &&
    (!(close && sec.body.isEmpty) || (textContent sec.body).isEmpty) &&
      areWritable (textContent sec.body)) = true
  rw [hplain, hclose, areWritable_textContent]
  rfl

lemma areWritable_sectionsContent (ps : List PlacedSection) (gap : Text) :
    areWritable (sectionsContent gap ps) = true := by
  induction ps with
  | nil => exact areWritable_textContent gap
  | cons p ps ih =>
      have hsection : areWritable (p.element.toNode :: sectionsContent gap ps) = true := by
        rw [areWritable, isWritable_element, ih]
        rfl
      rw [sectionsContent]
      cases hgap : p.gap with
      | nil => exact hsection
      | cons c t =>
          rw [textContent_of_ne (List.cons_ne_nil c t)]
          show (true && !(true && false) && areWritable (p.element.toNode :: _)) = true
          rw [hsection]
          rfl

lemma isWritable_commentRoot (ps : List PlacedSection) (gap : Text) :
    (commentRoot ps gap).toNode.isWritable = true := by
  show (true && areWritable (sectionsContent gap ps)) = true
  rw [areWritable_sectionsContent]
  rfl

/-! ### Reading a plain record -/

/-- A plain section lists what it shows as a see-also. -/
lemma listed_sectionTrace (o : PartOrder) (read : List TextSection) {p : PlacedSection}
    (h : p.sec.Shows) : listed (sectionTrace o read p.element) = p.sec.seeAlso?.toList := by
  obtain ⟨gap, sec, close⟩ := p
  rw [sectionTrace, PlacedSection.element, PlainSection.of?_element]
  cases sec with
  | text kind t =>
      simp only [PlainSection.kind, PlainSection.contentTrace_element, ite_self]
      rfl
  | keyed kind key t =>
      simp only [PlainSection.kind, PlainSection.contentTrace_element, ite_self]
      rfl
  | seeAlso key t bare =>
      simp only [PlainSection.kind, seeAlsoTrace, PlainSection.contentTrace_element,
        List.nil_append, listed_seeAlso, PlainSection.seeAlsoEntry_element h]
      rfl

/-- The see-alsos of plain sections are those they show. -/
lemma listed_sectionsTrace (o : PartOrder) (ps : List PlacedSection)
    (h : ∀ p ∈ ps, p.sec.Shows) (read : List TextSection) :
    listed (sectionsTrace o read (ps.map PlacedSection.element)) =
      (ps.map PlacedSection.sec).filterMap PlainSection.seeAlso? := by
  induction ps generalizing read with
  | nil => rfl
  | cons p ps ih =>
      obtain ⟨hp, hps⟩ := List.forall_mem_cons.mp h
      rw [List.map_cons, sectionsTrace, listed_append, listed_sectionTrace o read hp, ih hps,
        List.map_cons, List.filterMap_cons]
      cases p.sec.seeAlso? <;> rfl

section Record

variable {d : Record} {ps : List PlacedSection}

lemma text_ofRoot_commentRoot (hplain : d.IsPlain)
    (hlays : LaysOut (ps.map PlacedSection.sec) d) (gap : Text) (kind : TextSection) :
    (Record.ofRoot (commentRoot ps gap)).text kind = d.text kind := by
  have hread : ∀ p ∈ ps, kind.text? p.element = p.sec.text? kind := by
    intro p hp
    refine PlainSection.text?_element (fun t ht => ?_) p.close
    have hmem : t ∈ [d.text kind] := by
      rw [← hlays.texts kind]
      exact List.mem_filterMap.mpr ⟨p.sec, List.mem_map_of_mem hp, ht⟩
    rw [List.mem_singleton.mp hmem]
    exact hplain.texts kind
  have hall : (ps.map PlacedSection.element).filterMap kind.text? = [d.text kind] := by
    rw [← hlays.texts kind, List.filterMap_map, List.filterMap_map]
    exact List.filterMap_congr hread
  rw [Record.text_ofRoot, elements_commentRoot, ← List.head?_filterMap, hall]
  rfl

lemma entries_ofRoot_commentRoot (hplain : d.IsPlain)
    (hlays : LaysOut (ps.map PlacedSection.sec) d) (gap : Text) (kind : KeyedSection) :
    (Record.ofRoot (commentRoot ps gap)).entries kind = d.entries kind := by
  have hread : ∀ p ∈ ps, kind.entryIn? p.element = p.sec.entryFor? kind := by
    intro p hp
    refine PlainSection.entryFor?_element (fun e he => hplain.entries kind e ?_) p.close
    rw [← hlays.entries kind]
    exact List.mem_filterMap.mpr ⟨p.sec, List.mem_map_of_mem hp, he⟩
  have hall :
      (ps.map PlacedSection.element).filterMap kind.entryIn? = (d.entries kind).entries := by
    rw [← hlays.entries kind, List.filterMap_map, List.filterMap_map]
    exact List.filterMap_congr hread
  rw [Record.entries_ofRoot, elements_commentRoot, hall, OrderedMap.ofList_entries]

lemma seeAlsos_ofRoot_commentRoot (hplain : d.IsPlain)
    (hlays : LaysOut (ps.map PlacedSection.sec) d)
    (hfixed : ∀ key t, PlainSection.seeAlso key t false ∈ ps.map PlacedSection.sec →
      Spacing.preserve.normalize t = t) (gap : Text) :
    (Record.ofRoot (commentRoot ps gap)).seeAlsos = d.seeAlsos := by
  have hshows : ∀ p ∈ ps, p.sec.Shows := by
    intro p hp
    have hmem : p.sec ∈ ps.map PlacedSection.sec := List.mem_map_of_mem hp
    cases hsec : p.sec with
    | text kind t => trivial
    | keyed kind key t => trivial
    | seeAlso key t bare =>
        rw [hsec] at hmem
        have hentry : (key, t) ∈ d.seeAlsos.entries := by
          rw [← hlays.seeAlsos]
          exact List.mem_filterMap.mpr ⟨_, hmem, rfl⟩
        refine ⟨?_, ?_, (hplain.seeAlsos _ hentry).imp_left And.left⟩
        · rintro rfl
          exact hlays.bare key t hmem
        · rintro rfl
          exact hfixed key t hmem
  rw [Record.seeAlsos_ofRoot, elements_commentRoot, listed_sectionsTrace _ ps hshows,
    hlays.seeAlsos, OrderedMap.ofList_entries]

end Record

namespace Comment

/-- **Plain records are read back.** A comment whose sections lay out a plain record can be
written, and every written form of it has exactly that record, if the bodies of the see-alsos that
are not bare are laid out already. -/
theorem read_of_laysOut {d : Record} {ps : List PlacedSection} (hplain : d.IsPlain)
    (hlays : LaysOut (ps.map PlacedSection.sec) d)
    (hfixed : ∀ key t, PlainSection.seeAlso key t false ∈ ps.map PlacedSection.sec →
      Spacing.preserve.normalize t = t) (gap : Text) :
    WritesNode (commentRoot ps gap).toNode (commentRoot ps gap).toNode.written ∧
      ∀ t, WritesNode (commentRoot ps gap).toNode t → read (some t) = .ok (some d) := by
  have hwritable := isWritable_commentRoot ps gap
  refine ⟨writesNode_written _ hwritable, fun t ht => ?_⟩
  have hrecord : Record.ofRoot (commentRoot ps gap) = d :=
    Record.ext_fields (text_ofRoot_commentRoot hplain hlays gap)
      (entries_ofRoot_commentRoot hplain hlays gap)
      (seeAlsos_ofRoot_commentRoot hplain hlays hfixed gap)
  rw [read_of_writesNode ht hwritable, hrecord]

/-- A record with all kinds of sections. -/
def sampleRecord : Record where
  summary := "Adds two numbers.".toList
  remarks := "if a < b\nthen a & b".toList
  params := .ofList [("a b".toList, "left".toList), ("T:c".toList, [])]
  typeParams := .ofList [("T".toList, "\"any\"".toList)]
  seeAlsos := .ofList [(" L ".toList, " L ".toList), ("M".toList, "the map".toList)]

/-- Sections for the record, with a see-also in front and the summary last. -/
def sampleSections : List PlacedSection :=
  [{ gap := ['\n'], sec := .seeAlso " L ".toList " L ".toList true, close := true },
    { sec := .keyed .params "a b".toList "left".toList },
    { gap := "\n  ".toList, sec := .text .remarks "if a < b\nthen a & b".toList },
    { sec := .keyed .typeParams "T".toList "\"any\"".toList },
    { sec := .keyed .params "T:c".toList [] },
    { sec := .text .returns [], close := true },
    { sec := .text .value [] },
    { sec := .text .sample [] },
    { sec := .seeAlso "M".toList "the map".toList false },
    { sec := .text .summary "Adds two numbers.".toList }]

/-- The comment that the sections are. -/
def sampleText : Text :=
  "<doc>\n<seealso cref=\"T: L \"/><param name=\"T:a b\">left</param>\n  ".toList ++
    "<remarks>if a &lt; b\nthen a &amp; b</remarks><typeparam name=\"T:T\">".toList ++
    "\"any\"</typeparam><param name=\"T:T:c\"></param><returns/><value></value>".toList ++
    "<example></example><seealso cref=\"T:M\">the map</seealso>".toList ++
    "<summary>Adds two numbers.</summary></doc>".toList

theorem read_sampleText :
    sampleRecord.IsPlain ∧ LaysOut (sampleSections.map PlacedSection.sec) sampleRecord ∧
      read (some sampleText) = .ok (some sampleRecord) := by
  have hplain : sampleRecord.IsPlain := by
    refine ⟨?_, ?_, ?_, by decide, by decide⟩
    · intro kind
      cases kind <;> decide
    · intro kind
      cases kind <;> decide
    · intro kind
      cases kind <;> decide
  have hlays : LaysOut (sampleSections.map PlacedSection.sec) sampleRecord := by
    refine ⟨?_, ?_, by decide, ?_⟩
    · intro kind
      cases kind <;> decide
    · intro kind
      cases kind <;> decide
    · intro key t h
      simp [sampleSections] at h
      rw [h.1, h.2]
  have hfixed : ∀ key t, PlainSection.seeAlso key t false ∈ sampleSections.map PlacedSection.sec →
      Spacing.preserve.normalize t = t := by
    intro key t h
    simp [sampleSections] at h
    rw [h.2]
    decide
  have hwritten : (commentRoot sampleSections []).toNode.written = sampleText := by
    decide +kernel
  obtain ⟨hwrites, hread⟩ := read_of_laysOut hplain hlays hfixed []
  exact ⟨hplain, hlays, hread _ (hwritten ▸ hwrites)⟩

/-- A see-also whose value is its key, and a key with white space at its end. -/
def spacedKeyRecord : Record where
  seeAlsos := .ofList [("a ".toList, "a ".toList)]

/-- Sections for the record. The see-also has its value for a body. -/
def spacedKeySections : List PlacedSection :=
  [{ sec := .text .summary [] }, { sec := .text .remarks [] }, { sec := .text .returns [] },
    { sec := .text .value [] }, { sec := .text .sample [] },
    { sec := .seeAlso "a ".toList "a ".toList false }]

/-- So the bodies of see-alsos have to be laid out already. -/
theorem not_forall_read_of_laysOut :
    ¬ ∀ d ps gap t, d.IsPlain → LaysOut (ps.map PlacedSection.sec) d →
      WritesNode (commentRoot ps gap).toNode t → read (some t) = .ok (some d) := by
  intro hall
  have hplain : spacedKeyRecord.IsPlain := by
    refine ⟨?_, ?_, ?_, by decide, by decide⟩
    · intro kind
      cases kind <;> decide
    · intro kind
      cases kind <;> decide
    · intro kind
      cases kind <;> decide
  have hlays : LaysOut (spacedKeySections.map PlacedSection.sec) spacedKeyRecord := by
    refine ⟨?_, ?_, by decide, ?_⟩
    · intro kind
      cases kind <;> decide
    · intro kind
      cases kind <;> decide
    · intro key t h
      simp [spacedKeySections] at h
  have hwritable := isWritable_commentRoot spacedKeySections []
  have hwrites := writesNode_written _ hwritable
  have hread := hall _ _ _ _ hplain hlays hwrites
  rw [read_of_writesNode hwrites hwritable] at hread
  have hrecord := congrArg (fun r => r.seeAlsos.get? "a ".toList)
    (Option.some.inj (Except.ok.inj hread))
  exact absurd hrecord (by decide)

end Comment

end DocComment
