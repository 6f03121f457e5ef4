import DocComment.Proofs.Xml.StartTag

/-!
Documents as they are written, and reading them back.

* **Writing.** `WritesNode` and `WritesContent` relate a tree to its written forms: texts and
  attribute values are spelled in any way, attributes stand in any order, a tag that closes
  itself has a slash and every other tag an end tag.
* **Which trees can be written** is `Node.isWritable`: names are ASCII names, no attribute
  declares a namespace, no text is empty, no two texts stand side by side, and a tag that closes
  itself has no content.
* **Reading.** A written node is appended to the innermost open element (`read_writesNode`), and
  so is a written content (`read_writesContent`), by induction on the tree. A written root is a
  whole document (`read_root`), so that reading undoes writing (`readDocument_of_writesNode`).
-/

namespace DocComment.Xml

/-! ### Trees that can be written -/

/-- Whether a node is a text. -/
def Node.isText : Node → Bool
  | .text _ => true
  | .element _ _ => false

/-- Whether a content begins with a text. -/
def startsWithText (content : List Node) : Bool :=
  content.head?.any Node.isText

/-- Whether a content ends with a text. -/
def endsWithText (content : List Node) : Bool :=
  content.getLast?.any Node.isText

mutual

/-- Whether a node can be written so that it is read back. -/
def Node.isWritable : Node → Bool
  | .text t => !t.isEmpty
  | .element tag content =>
      tag.isPlain && (!tag.selfClosing || content.isEmpty) && areWritable content

/-- Whether a content can be written so that it is read back. -/
def areWritable : List Node → Bool
  | [] => true
  | n :: ns => n.isWritable && !(n.isText && startsWithText ns) && areWritable ns

end

/-! ### Written forms -/

mutual

/-- **The written forms of a node.** -/
inductive WritesNode : Node → Text → Prop
  | text {t w : Text} (h : Spells isSpecialInContent t w) : WritesNode (.text t) w
  | selfClosing {tag : Tag} {es : List (Text × Text)} {w : Text} (htag : tag.selfClosing = true)
      (hes : es.Perm tag.attributes.entries) (hw : Tag.WritesAttributes es w) :
      WritesNode (.element tag []) ('<' :: (tag.name ++ w) ++ ['/', '>'])
  | paired {tag : Tag} {content : List Node} {es : List (Text × Text)} {w v : Text}
      (htag : tag.selfClosing = false) (hes : es.Perm tag.attributes.entries)
      (hw : Tag.WritesAttributes es w) (hv : WritesContent content v) :
      WritesNode (.element tag content)
        ('<' :: (tag.name ++ w) ++ '>' :: v ++ ['<', '/'] ++ tag.name ++ ['>'])

/-- **The written forms of a content**: one node after another. -/
inductive WritesContent : List Node → Text → Prop
  | nil : WritesContent [] []
  | cons {n : Node} {ns : List Node} {v w : Text} (hv : WritesNode n v)
      (hw : WritesContent ns w) : WritesContent (n :: ns) (v ++ w)

end

mutual

/-- A node as it is usually written. -/
def Node.written : Node → Text
  | .text t => usualSpelling isSpecialInContent t
  | .element tag content =>
      if tag.selfClosing then
        '<' :: (tag.name ++ Tag.attributesWritten tag.attributes.entries) ++ ['/', '>']
      else
        '<' :: (tag.name ++ Tag.attributesWritten tag.attributes.entries) ++
          '>' :: contentWritten content ++ ['<', '/'] ++ tag.name ++ ['>']

/-- A content as it is usually written. -/
def contentWritten : List Node → Text
  | [] => []
  | n :: ns => n.written ++ contentWritten ns

end

/-- What is special in content is special in attribute values. -/
lemma isSpecialInValue_of_isSpecialInContent (c : Char) (h : isSpecialInContent c = true) :
    isSpecialInValue c = true := by
  rcases (Bool.or_eq_true _ _).mp h with h | h
  · rw [beq_iff_eq.mp h]; decide
  · rw [beq_iff_eq.mp h]; decide

mutual

/-- Every node that can be written is written in the usual way. -/
lemma writesNode_written (n : Node) (hn : n.isWritable = true) : WritesNode n n.written := by
  match n with
  | .text t => exact .text (Spells.usual isSpecialInValue_of_isSpecialInContent t)
  | .element tag content =>
      simp only [Node.isWritable, Bool.and_eq_true, Bool.or_eq_true, Bool.not_eq_true'] at hn
      have hw := Tag.WritesAttributes.usual tag.attributes.entries
      rw [Node.written]
      split
      · rename_i htag
        have hnil : content = [] := by simpa [htag] using hn.1.2
        subst hnil
        exact .selfClosing htag (.refl _) hw
      · rename_i htag
        exact .paired (by simpa using htag) (.refl _) hw (writesContent_written content hn.2)

/-- Every content that can be written is written in the usual way. -/
lemma writesContent_written (ns : List Node) (hns : areWritable ns = true) :
    WritesContent ns (contentWritten ns) := by
  match ns with
  | [] => exact .nil
  | n :: ns =>
      simp only [areWritable, Bool.and_eq_true] at hns
      exact .cons (writesNode_written n hns.1.1) (writesContent_written ns hns.2)

end

/-! ### Reading a written node -/

namespace Nest

/-- Appends nodes to the innermost element, without joining any texts. -/
def append (n : Nest) (ns : List Node) : Nest :=
  { n with top := { n.top with content := n.top.content ++ ns } }

lemma append_append (n : Nest) (ns ms : List Node) :
    (n.append ns).append ms = n.append (ns ++ ms) := by
  simp only [append, List.append_assoc]

lemma append_nil (n : Nest) : n.append [] = n := by
  simp only [append, List.append_nil]

end Nest

lemma Element.appendText_of_not_endsWithText {content : List Node}
    (h : endsWithText content = false) (t : Text) :
    appendText t content = content ++ [.text t] := by
  induction content using appendText.induct with
  | case1 => rfl
  | case2 last => cases h
  | case3 n ns hne ih =>
      rw [appendText.eq_3 _ _ _ hne, List.cons_append]
      cases ns with
      | nil => rfl
      | cons m ms =>
          rw [ih]
          rwa [endsWithText, List.getLast?_cons_cons] at h

lemma endsWithText_append (content : List Node) (n : Node) :
    endsWithText (content ++ [n]) = n.isText := by
  simp [endsWithText]

namespace Progress

open Token

/-- A start tag ends at the bracket after its balanced source. -/
lemma read_startTag (p : Progress) {c : Char} {s t : Text} (hc : c.isAlpha = true)
    (hs : Text.IsBalanced '>' (c :: s)) :
    p.read ('<' :: (c :: s ++ '>' :: t)) =
      (p.step (openingTag (c :: s))).bind fun q => q.read t := by
  have hne : c ≠ '!' ∧ c ≠ '?' ∧ c ≠ '/' := by
    refine ⟨?_, ?_, ?_⟩ <;> (rintro rfl; cases hc)
  have hmarkup : markup (c :: s ++ '>' :: t) = upToBracket openingTag (c :: s ++ '>' :: t) := by
    rw [List.cons_append, markup]
    · simp
    · exact fun rest h => hne.1 (List.cons.inj h).1
    · exact fun rest h => hne.2.1 (List.cons.inj h).1
    · exact fun rest h => hne.2.2 (List.cons.inj h).1
  have hnext : next '<' (c :: s ++ '>' :: t) = .ok ⟨openingTag (c :: s), t⟩ := by
    rw [next, if_pos rfl, hmarkup, upToBracket, hs.breakUnquoted_append]
  exact read_cons p hnext

lemma endName_of_isName {name : Text} (h : Tag.isName name = true) : endName name = name := by
  have hall : ∀ c ∈ name.reverse, ¬ Text.isMarkupSpace c = true := fun c hc => by
    rw [Tag.isMarkupSpace_of_isNameChar (Tag.isNameChar_of_mem h c (List.mem_reverse.mp hc))]
    exact Bool.false_ne_true
  have hdrop : name.reverse.dropWhile Text.isMarkupSpace = name.reverse := by
    cases hr : name.reverse with
    | nil => rfl
    | cons c t =>
        rw [hr] at hall
        exact List.dropWhile_cons_of_neg (hall c List.mem_cons_self)
  rw [endName, hdrop, List.reverse_reverse]
  split <;> rfl

lemma read_endTag (p : Progress) {name : Text} (h : Tag.isName name = true) (t : Text) :
    p.read ('<' :: '/' :: (name ++ '>' :: t)) =
      (p.step (.endTag name)).bind fun q => q.read t := by
  have hnext : next '<' ('/' :: (name ++ '>' :: t)) = .ok ⟨.endTag name, t⟩ := by
    rw [next, if_pos rfl, markup, upToBracket,
      (Tag.isBalanced_of_isName h).breakUnquoted_append]
    simp only [endName_of_isName h]
  exact read_cons p hnext

section Tags

variable {tag : Tag} {es : List (Text × Text)} {w : Text}

/-- The token of a written tag with an end tag. -/
lemma read_paired (p : Progress) (htag : tag.isPlain = true)
    (hes : es.Perm tag.attributes.entries) (hw : Tag.WritesAttributes es w) (t : Text) :
    p.read ('<' :: (tag.name ++ w ++ '>' :: t)) =
      (p.step (.startTag (tag.name ++ w))).bind fun q => q.read t := by
  obtain ⟨hname, hplain⟩ := Tag.isPlain_iff.mp htag
  have hbalanced : Text.IsBalanced '>' (tag.name ++ w) :=
    (Tag.isBalanced_of_isName hname).append (hw.isBalanced (Tag.arePlain_of_perm hes hplain))
  have htoken : openingTag (tag.name ++ w) = .startTag (tag.name ++ w) := by
    rw [openingTag, if_neg (hw.getLast?_append_ne hname)]
  rw [← htoken]
  obtain ⟨c, s, hcons, hc⟩ := Tag.eq_cons_of_isName hname
  rw [hcons] at hbalanced ⊢
  exact read_startTag p hc hbalanced

/-- The token of a written tag that closes itself. -/
lemma read_selfClosing (p : Progress) (htag : tag.isPlain = true)
    (hes : es.Perm tag.attributes.entries) (hw : Tag.WritesAttributes es w) (t : Text) :
    p.read ('<' :: (tag.name ++ w ++ ['/'] ++ '>' :: t)) =
      (p.step (.emptyTag (tag.name ++ w))).bind fun q => q.read t := by
  obtain ⟨hname, hplain⟩ := Tag.isPlain_iff.mp htag
  have hslash : Text.IsBalanced '>' ['/'] := Text.isBalanced_singleton (by decide) rfl
  have hbalanced : Text.IsBalanced '>' (tag.name ++ w ++ ['/']) :=
    ((Tag.isBalanced_of_isName hname).append
      (hw.isBalanced (Tag.arePlain_of_perm hes hplain))).append hslash
  have htoken : openingTag (tag.name ++ w ++ ['/']) = .emptyTag (tag.name ++ w) := by
    rw [openingTag, List.getLast?_concat, if_pos rfl, List.dropLast_concat]
  rw [← htoken]
  obtain ⟨c, s, hcons, hc⟩ := Tag.eq_cons_of_isName hname
  rw [hcons] at hbalanced ⊢
  exact read_startTag p hc hbalanced

end Tags

mutual

/-- **A written node is read back**: it is appended to the innermost open element, unless it
is a text that meets another. -/
theorem read_writesNode (n : Node) {w : Text} (h : WritesNode n w) (hn : n.isWritable = true)
    (nest : Nest) (hmeet : (endsWithText nest.top.content && n.isText) = false) (t : Text) :
    (inside nest).read (w ++ t) = (inside (nest.append [n])).read t := by
  match n, h with
  | .text s, .text hw =>
      have hs : s ≠ [] := by simpa [Node.isWritable] using hn
      have hends : endsWithText nest.top.content = false := by simpa [Node.isText] using hmeet
      rw [hw.read (by decide) (by decide) hs, Nest.pushText, Element.pushText,
        Element.appendText_of_not_endsWithText hends]
      rfl
  | .element tag [], .selfClosing htag hes hw =>
      have hplain : tag.isPlain = true := by
        simp only [Node.isWritable, Bool.and_eq_true] at hn
        exact hn.1.1
      have hread := Tag.read_of_writes hplain hes hw
      rw [htag] at hread
      rename_i es w
      have happ : '<' :: (tag.name ++ w) ++ ['/', '>'] ++ t =
          '<' :: (tag.name ++ w ++ ['/'] ++ '>' :: t) := by simp
      rw [happ, read_selfClosing _ hplain hes hw]
      simp only [step, stepInside, hread]
      rfl
  | .element tag content, .paired htag hes hw hv =>
      simp only [Node.isWritable, Bool.and_eq_true] at hn
      have hname := (Tag.isPlain_iff.mp hn.1.1).1
      have hread := Tag.read_of_writes hn.1.1 hes hw
      rw [htag] at hread
      rename_i es w v
      have happ : '<' :: (tag.name ++ w) ++ '>' :: v ++ ['<', '/'] ++ tag.name ++ ['>'] ++ t =
          '<' :: (tag.name ++ w ++ '>' :: (v ++ '<' :: '/' :: (tag.name ++ '>' :: t))) := by
        simp
      rw [happ, read_paired _ hn.1.1 hes hw]
      simp only [step, stepInside, hread]
      show (inside (nest.openElement { tag := tag })).read _ = _
      rw [read_writesContent content hv hn.2 _ rfl, read_endTag _ hname]
      show (if tag.name = tag.name then _ else _ : Except Error Progress).bind _ = _
      rw [if_pos rfl]
      rfl

/-- **A written content is read back** behind the content of the innermost open element. -/
theorem read_writesContent (ns : List Node) {w : Text} (h : WritesContent ns w)
    (hns : areWritable ns = true) (nest : Nest)
    (hmeet : (endsWithText nest.top.content && startsWithText ns) = false) (t : Text) :
    (inside nest).read (w ++ t) = (inside (nest.append ns)).read t := by
  match ns, h with
  | [], .nil => rw [List.nil_append, Nest.append_nil]
  | n :: ns, .cons hv hw =>
      simp only [areWritable, Bool.and_eq_true, Bool.not_eq_true'] at hns
      obtain ⟨⟨hn, hsep⟩, hns⟩ := hns
      have hrest : (endsWithText (nest.append [n]).top.content && startsWithText ns) = false := by
        rw [Nest.append, endsWithText_append]
        exact hsep
      rw [List.append_assoc, read_writesNode n hv hn nest hmeet,
        read_writesContent ns hw hns _ hrest, Nest.append_append]
      rfl

end

/-! ### Reading a written document -/

/-- A written root is read as that root, and the reading goes on after it. -/
theorem read_root {root : Element} {w : Text} (h : WritesNode root.toNode w)
    (hroot : root.toNode.isWritable = true) (t : Text) :
    before.read (w ++ t) = (after root).read t := by
  obtain ⟨tag, content⟩ := root
  simp only [Element.toNode] at h hroot
  simp only [Node.isWritable, Bool.and_eq_true] at hroot
  have hname := (Tag.isPlain_iff.mp hroot.1.1).1
  cases h with
  | @selfClosing _ es w htag hes hw =>
      have hread := Tag.read_of_writes hroot.1.1 hes hw
      have happ : '<' :: (tag.name ++ w) ++ ['/', '>'] ++ t =
          '<' :: (tag.name ++ w ++ ['/'] ++ '>' :: t) := by simp
      rw [htag] at hread
      rw [happ, read_selfClosing _ hroot.1.1 hes hw]
      simp only [step, stepOutside, hread, Except.bind, ofRootTag, htag, if_true]
  | @paired _ _ es w v htag hes hw hv =>
      have hread := Tag.read_of_writes hroot.1.1 hes hw
      have happ : '<' :: (tag.name ++ w) ++ '>' :: v ++ ['<', '/'] ++ tag.name ++ ['>'] ++ t =
          '<' :: (tag.name ++ w ++ '>' :: (v ++ '<' :: '/' :: (tag.name ++ '>' :: t))) := by
        simp
      rw [htag] at hread
      rw [happ, read_paired _ hroot.1.1 hes hw]
      simp only [step, stepOutside, hread, Except.bind, ofRootTag, htag, Bool.false_eq_true,
        if_false]
      rw [read_writesContent content hv hroot.2 _ rfl, read_endTag _ hname]
      show (if tag.name = tag.name then _ else _ : Except Error Progress).bind _ = _
      rw [if_pos rfl]
      rfl

end Progress

/-- A written element does not begin with a byte order mark. -/
lemma dropByteOrderMark_of_writesNode {root : Element} {t : Text} (h : WritesNode root.toNode t) :
    dropByteOrderMark t = t := by
  obtain ⟨tag, content⟩ := root
  cases h <;> rfl

/-- A written root is a document with that root. -/
lemma readDocument_eq_ok {root : Element} {t : Text} (h : WritesNode root.toNode t)
    (hroot : root.toNode.isWritable = true) : readDocument t = .ok root := by
  have hread := Progress.read_root h hroot []
  rw [List.append_nil, Progress.read_nil] at hread
  rw [Progress.readDocument_eq_read, dropByteOrderMark_of_writesNode h, hread]
  rfl

/-- What is read from a written root is this root. -/
lemma eq_of_readDocument {root read : Element} {t : Text} (h : WritesNode root.toNode t)
    (hroot : root.toNode.isWritable = true) (hread : readDocument t = .ok read) : root = read :=
  Except.ok.inj ((readDocument_eq_ok h hroot).symm.trans hread)

/-- **Reading undoes writing.** Every element that can be written has the usual written form,
and whichever of its written forms is read, the element comes back: its names, its map of
attributes, the order of its content, its texts and the tags that close themselves. -/
theorem readDocument_of_writesNode {root : Element} (hroot : root.toNode.isWritable = true) :
    WritesNode root.toNode root.toNode.written ∧
      ∀ t, WritesNode root.toNode t → readDocument t = .ok root :=
  ⟨writesNode_written root.toNode hroot, fun _ h => readDocument_eq_ok h hroot⟩

/-- A text that looks like markup, in front of an empty tag whose attribute value has all kinds
of references in it. -/
def sampleRoot : Element where
  tag := { name := ['p'] }
  content :=
    [.text ['<', '/', 'p', '>', '&'],
      .element
        { name := ['x', ':', 'i'],
          attributes := ⟨[(['a'], ['"']), (['b'], ['\n', '&'])], by decide⟩,
          selfClosing := true } []]

theorem readDocument_sampleRoot :
    sampleRoot.toNode.isWritable = true ∧
      readDocument "<p>&lt;/p>&amp;<x:i b=\"&#xA;&#038;\"\ta=\"&quot;\" /></p>".toList =
        .ok sampleRoot := by
  have hvalueA : Spells isSpecialInValue ['"'] "&quot;".toList :=
    .reference (.predefined (by decide : ("quot", '"') ∈ _)) .nil
  have hnewline : Reference.Names ['#', 'x', 'A'] '\n' :=
    .hexadecimal ⟨by decide, [10], by decide, by decide⟩ (by decide)
  have hampersand : Reference.Names ['#', '0', '3', '8'] '&' :=
    .decimal ⟨by decide, [0, 3, 8], by decide, by decide⟩ (by decide)
  have hvalueB : Spells isSpecialInValue ['\n', '&'] "&#xA;&#038;".toList :=
    .reference hnewline (.reference hampersand .nil)
  have htext : Spells isSpecialInContent ['<', '/', 'p', '>', '&'] "&lt;/p>&amp;".toList :=
    .reference (.predefined (by decide : ("lt", '<') ∈ _)) (.plain rfl (.plain rfl (.plain rfl
      (.reference (.predefined (by decide : ("amp", '&') ∈ _)) .nil))))
  have hattributes : Tag.WritesAttributes [(['b'], ['\n', '&']), (['a'], ['"'])]
      " b=\"&#xA;&#038;\"\ta=\"&quot;\" ".toList :=
    .cons (by decide : Tag.IsGap [' ']) (by decide) hvalueB
      (.cons (by decide : Tag.IsGap ['\t']) (by decide) hvalueA
        (.nil (by decide : Tag.IsGap [' '])))
  have hnode : WritesNode sampleRoot.toNode
      "<p>&lt;/p>&amp;<x:i b=\"&#xA;&#038;\"\ta=\"&quot;\" /></p>".toList :=
    .paired (w := []) rfl (.refl _) (.nil fun c hc => absurd hc List.not_mem_nil)
      (.cons (.text htext) (.cons (.selfClosing rfl (.swap _ _ _) hattributes) .nil))
  exact ⟨by decide, (readDocument_of_writesNode (by decide)).2 _ hnode⟩

end DocComment.Xml
