import DocComment.Proofs.Xml.RoundTrip

/-!
References in the two places where they can stand, in content and in an attribute value.

* **Loose references.** Content reads numeric references that attribute values refuse: those with
  a plus sign in front of their digits, and those to the null character (`Reference.IsLoose`).
  Apart from these, the two places read the same references, and as the same characters
  (`Reference.ofAttribute_eq_ok_iff`).
* **Documents.** A document whose only text is a reference is read exactly if content reads that
  reference (`readDocument_inContent`), and a document whose only attribute value is a reference
  if attribute values read it (`readDocument_inValue`).
-/

namespace DocComment

namespace Xml

namespace Reference

/-! ### Loose references -/

/-- Digits that only content reads: there is a plus sign in front of them, or they are all
zero. -/
def AreLoose (digits : Text) : Prop :=
  (∃ t, digits = '+' :: t) ∨ digits ≠ [] ∧ ∀ c ∈ digits, c = '0'

/-- A numeric reference that only content reads. -/
def IsLoose (name : Text) : Prop :=
  ∃ mark ∈ ["#".toList, "#x".toList], ∃ digits, name = mark ++ digits ∧ AreLoose digits

lemma isLoose_numberSign_iff {numeral : Text} :
    IsLoose ('#' :: numeral) ↔ AreLoose (radixOf numeral).2 := by
  have hx : ∀ t : Text, ¬ AreLoose ('x' :: t) := by
    rintro t (⟨u, hu⟩ | ⟨-, hall⟩)
    · cases hu
    · exact absurd (hall 'x' List.mem_cons_self) (by decide)
  cases numeral with
  | nil => simp [IsLoose, radixOf]
  | cons c t =>
      by_cases hc : c = 'x'
      · subst hc
        simp [IsLoose, radixOf, hx]
      · have hradix : radixOf (c :: t) = (10, c :: t) := by
          rw [radixOf]
          exact fun _ h => hc (List.cons.inj h).1
        simp [IsLoose, hradix, hc]

/-- Only numeric references are loose. -/
lemma not_isLoose {name : Text} (h : ∀ t, name ≠ '#' :: t) : ¬ IsLoose name := by
  rintro ⟨mark, hmark, digits, rfl, -⟩
  simp only [List.mem_cons, List.not_mem_nil, or_false] at hmark
  rcases hmark with rfl | rfl
  · exact h _ rfl
  · exact h _ rfl

/-- A code in an attribute value is read like a code in content, unless it is loose. -/
lemma attributeCode_eq_ok_iff {numeral : Text} {c : Char} :
    attributeCode numeral = .ok c ↔
      contentCode? numeral = some c ∧ ¬ AreLoose (radixOf numeral).2 := by
  have hr : 0 < (radixOf numeral).1 := by
    unfold radixOf
    split <;> simp
  generalize hradix : radixOf numeral = radixed at hr ⊢
  obtain ⟨radix, digits⟩ := radixed
  simp only [attributeCode, contentCode?, hradix]
  split
  · rename_i t
    exact iff_of_false (by simp) fun h => h.2 (.inl ⟨t, rfl⟩)
  · -- a minus sign is no digit in content
    simp [dropPlus, Text.readDigits, Text.readMore, Text.digit?]
  · rename_i hplus hminus
    have hdrop : dropPlus digits = digits := by
      rw [dropPlus]
      exact hplus
    rw [hdrop]
    cases hread : Text.readDigits radix maxCode digits with
    | error fault => simp
    | ok code =>
        have hloose : AreLoose digits ↔ code = 0 := by
          have hzero : Text.readDigits radix maxCode digits = .ok 0 ↔ _ :=
            Text.readDigits_eq_zero_iff hr
          rw [hread, Except.ok.injEq] at hzero
          rw [hzero, AreLoose, or_iff_right]
          rintro ⟨t, ht⟩
          exact hplus t ht
        rw [hloose]
        by_cases hcode : code = 0
        · simp [hcode]
        · simp only [hcode, if_false, not_false_eq_true, and_true]
          cases Text.charOfCode? code <;> simp

/-- **Attribute values read just what content reads**, loose references apart, and as the same
character. -/
theorem ofAttribute_eq_ok_iff {start : ℕ} {name : Text} {c : Char} :
    ofAttribute start name = .ok c ↔ ofContent name = .ok c ∧ ¬ IsLoose name := by
  by_cases h : ∃ numeral, name = '#' :: numeral
  · obtain ⟨numeral, rfl⟩ := h
    rw [isLoose_numberSign_iff]
    have hcode : attributeCode numeral = .ok c ↔ _ := attributeCode_eq_ok_iff
    simp only [ofAttribute, ofContent, predefined?_numberSign]
    cases hattribute : attributeCode numeral <;> cases hcontent : contentCode? numeral <;>
      simp_all
  · have hsign : ∀ t, name ≠ '#' :: t := fun t ht => h ⟨t, ht⟩
    rw [ofAttribute.eq_2 _ _ hsign, ofContent, and_iff_left (not_isLoose hsign)]
    · cases predefined? name with
      | some d => simp
      | none => simp
    · exact hsign

end Reference

/-! ### Documents that are a reference -/

/-- The document `<a>&name;</a>`, whose only text is a reference. -/
def inContent (name : Text) : Text :=
  ['<', 'a', '>', '&'] ++ name ++ [';', '<', '/', 'a', '>']

/-- The source `a x="&name;"` of a tag whose only attribute value is a reference. -/
def valueSource (name : Text) : Text :=
  ['a', ' ', 'x', '='] ++ '"' :: ('&' :: (name ++ [';']) ++ ['"'])

/-- The document `<a x="&name;"/>`, whose only attribute value is a reference. -/
def inValue (name : Text) : Text :=
  '<' :: (valueSource name ++ ['/'] ++ ['>'])

/-- The root of a document whose only text is a reference to a character. -/
def contentRoot (c : Char) : Element where
  tag := { name := ['a'] }
  content := [.text [c]]

/-- The root of a document whose only attribute value is a reference to a character. -/
def valueRoot (c : Char) : Element where
  tag := { name := ['a'], attributes := .ofList [(['x'], [c])], selfClosing := true }

open Progress

lemma readDocument_inContent {name : Text} (h : ∀ c ∈ name, Token.endsName c = false) :
    readDocument (inContent name) = (Reference.ofContent name).map contentRoot := by
  let opened : Nest := { top := { tag := { name := ['a'] } } }
  let closing : Text := '<' :: '/' :: (['a'] ++ ['>'])
  have hdocument : inContent name = '<' :: (['a'] ++ '>' :: ('&' :: (name ++ ';' :: closing))) :=
    List.append_assoc _ _ _
  have hstart : before.step (Token.openingTag ['a']) = .ok (inside opened) := by
    show (Tag.read false ['a']).bind _ = _
    rw [Tag.read_bare false (List.forall_mem_singleton.mpr rfl)]
    rfl
  have hend : ∀ c, (inside (opened.pushText [c])).read closing = .ok (contentRoot c) := fun c =>
    (read_endTag _ (by decide : Tag.isName ['a'] = true) []).trans (read_nil _)
  calc readDocument (inContent name)
      = before.read ('<' :: (['a'] ++ '>' :: ('&' :: (name ++ ';' :: closing)))) := by
        rw [← hdocument]
        rfl
    _ = (inside opened).read ('&' :: (name ++ ';' :: closing)) := by
        rw [read_startTag _ (by decide) (Tag.isBalanced_of_isName (by decide)), hstart]
        rfl
    _ = ((Reference.ofContent name).map fun c => inside (opened.pushText [c])).bind
          fun q => q.read closing := read_cons _ (next_reference h closing)
    _ = (Reference.ofContent name).map contentRoot := by
        cases Reference.ofContent name with
        | error e => rfl
        | ok c => exact hend c

/-- An attribute value that is a reference. -/
lemma resolve_reference {name : Text} (h : ∀ c ∈ name, Reference.endsName c = false) :
    Reference.resolve ('&' :: (name ++ [';'])) = (Reference.ofAttribute 1 name).map ([·]) := by
  have hstart : Text.byteLength ('&' :: (name ++ [';'])) - Text.byteLength (name ++ [';']) = 1 :=
    Nat.add_sub_cancel _ _
  rw [Reference.resolve, Reference.resolveFrom_reference h, hstart, Reference.resolveFrom]
  rfl

lemma read_valueSource {name : Text} (hquote : '"' ∉ name)
    (hname : ∀ c ∈ name, Reference.endsName c = false) :
    Tag.read true (valueSource name) =
      ((Reference.ofAttribute 1 name).map fun c => (valueRoot c).tag).mapError .badEscape := by
  have hvalue : '"' ∉ '&' :: (name ++ [';']) := by simp [hquote]
  rw [Tag.read]
  generalize Text.byteLength _ = size
  have hattribute : Tag.readAttribute size [] 'x' _ = .ok _ :=
    @Tag.readAttribute_of_written size [] 'x' [] [] [] _ [] '"' (List.forall_mem_nil _)
      (List.forall_mem_nil _) (List.forall_mem_nil _) rfl hvalue rfl
  have hrest : ∀ seen, Tag.readAttributes size seen [] = .ok [] := fun seen =>
    Tag.readAttributes_nil rfl
  show (Tag.readAttributes size [] (' ' :: 'x' :: '=' :: '"' :: _)).map _ = _
  rw [Tag.readAttributes_of_readAttribute (by rfl) hattribute, resolve_reference hname]
  simp only [hrest]
  cases Reference.ofAttribute 1 name with
  | error fault => rfl
  | ok c => rfl

lemma isBalanced_valueSource {name : Text} (hquote : '"' ∉ name) :
    Text.IsBalanced '>' (valueSource name ++ ['/']) := by
  have hvalue : '"' ∉ '&' :: (name ++ [';']) := by simp [hquote]
  have hfront : Text.IsBalanced '>' ['a', ' ', 'x', '='] :=
    Text.isBalanced_of_forall (by simp [Text.isQuote])
  exact (hfront.append (Text.isBalanced_quotation (by decide) (by decide) hvalue)).append
    (Text.isBalanced_singleton (by decide) (by decide))

lemma readDocument_inValue {name : Text} (hquote : '"' ∉ name)
    (hname : ∀ c ∈ name, Reference.endsName c = false) :
    readDocument (inValue name) =
      ((Reference.ofAttribute 1 name).map valueRoot).mapError .badEscape := by
  have htoken : Token.openingTag (valueSource name ++ ['/']) = .emptyTag (valueSource name) := by
    rw [Token.openingTag, List.getLast?_concat, if_pos rfl, List.dropLast_concat]
  calc readDocument (inValue name)
      = before.read ('<' :: (valueSource name ++ ['/'] ++ '>' :: [])) := rfl
    _ = (before.step (.emptyTag (valueSource name))).bind fun q => q.read [] := by
        rw [← htoken]
        exact read_startTag _ (by decide) (isBalanced_valueSource hquote)
    _ = ((Reference.ofAttribute 1 name).map valueRoot).mapError .badEscape := by
        show ((Tag.read true (valueSource name)).bind _).bind _ = _
        rw [read_valueSource hquote hname]
        cases Reference.ofAttribute 1 name with
        | error fault => rfl
        | ok c => exact read_nil _

/-! ### The two places compared -/

/-- A text that can stand between the marks of a reference in either place. -/
def FitsReference (name : Text) : Prop :=
  ∀ c ∈ name, c ≠ ';' ∧ c ≠ '&' ∧ c ≠ '<' ∧ c ≠ '"'

instance (name : Text) : Decidable (FitsReference name) :=
  List.decidableBAll _ name

namespace FitsReference

variable {name : Text}

lemma endsName_content (h : FitsReference name) : ∀ c ∈ name, Token.endsName c = false := by
  intro c hc
  obtain ⟨hsemi, hamp, hlt, -⟩ := h c hc
  simp [Token.endsName, hsemi, hamp, hlt]

lemma endsName_value (h : FitsReference name) : ∀ c ∈ name, Reference.endsName c = false := by
  intro c hc
  obtain ⟨hsemi, hamp, -, -⟩ := h c hc
  simp [Reference.endsName, hsemi, hamp]

lemma not_mem_quote (h : FitsReference name) : '"' ∉ name := fun hmem =>
  (h '"' hmem).2.2.2 rfl

end FitsReference

/-- **A reference in an attribute value.** It is read exactly if it is read in content and is not
loose, and then it stands for the same text in both places. -/
theorem readDocument_inValue_iff {name : Text} (h : FitsReference name) :
    ((∃ e, readDocument (inValue name) = .ok e) ↔
        (∃ e, readDocument (inContent name) = .ok e) ∧ ¬ Reference.IsLoose name) ∧
      ∀ e f, readDocument (inContent name) = .ok e → readDocument (inValue name) = .ok f →
        f.attribute? ['x'] = some e.text := by
  rw [readDocument_inContent h.endsName_content,
    readDocument_inValue h.not_mem_quote h.endsName_value]
  have hagree : ∀ c, Reference.ofAttribute 1 name = .ok c ↔ _ :=
    fun _ => Reference.ofAttribute_eq_ok_iff
  cases hvalue : Reference.ofAttribute 1 name with
  | ok c =>
      obtain ⟨hcontent, hloose⟩ := (hagree c).mp hvalue
      rw [hcontent]
      refine ⟨by simp [Except.map, Except.mapError, hloose], ?_⟩
      rintro _ _ ⟨⟩ ⟨⟩
      rfl
  | error fault =>
      refine ⟨iff_of_false (by simp [Except.map, Except.mapError]) ?_, ?_⟩
      · rintro ⟨⟨e, he⟩, hloose⟩
        cases hcontent : Reference.ofContent name with
        | ok c =>
            have hread := (hagree c).mpr ⟨hcontent, hloose⟩
            rw [hvalue] at hread
            cases hread
        | error error =>
            rw [hcontent] at he
            cases he
      · intro e f _ hf
        cases hf

/-- A dash, by its code with two zeros in front. -/
theorem readDocument_inValue_dash :
    FitsReference "#x002014".toList ∧
      ∃ f, readDocument (inValue "#x002014".toList) = .ok f ∧ f.attribute? ['x'] = some ['—'] := by
  have hfits : FitsReference "#x002014".toList := by decide
  have hcontent : readDocument (inContent "#x002014".toList) = .ok (contentRoot '—') :=
    readDocument_inContent hfits.endsName_content
  have hloose : ¬ Reference.IsLoose "#x002014".toList := by
    rw [show "#x002014".toList = '#' :: "x002014".toList from rfl,
      Reference.isLoose_numberSign_iff]
    rintro (⟨t, ht⟩ | ⟨-, hall⟩)
    · cases ht
    · exact absurd (hall '2' (by decide)) (by decide)
  obtain ⟨hiff, hsame⟩ := readDocument_inValue_iff hfits
  obtain ⟨f, hf⟩ := hiff.mpr ⟨⟨_, hcontent⟩, hloose⟩
  exact ⟨hfits, f, hf, hsame _ f hcontent hf⟩

/-- So a reference does not mean the same in both places: with a plus sign in its code it is read
in content only. -/
theorem not_forall_places_agree :
    ¬ ∀ name, FitsReference name →
      ((∃ e, readDocument (inContent name) = .ok e) ↔
        ∃ e, readDocument (inValue name) = .ok e) ∧
      ∀ e f, readDocument (inContent name) = .ok e → readDocument (inValue name) = .ok f →
        f.attribute? ['x'] = some e.text := by
  intro hall
  have hfits : FitsReference "#+65".toList := by decide
  have hcontent := readDocument_inContent hfits.endsName_content
  have hvalue := readDocument_inValue hfits.not_mem_quote hfits.endsName_value
  obtain ⟨f, hf⟩ := (hall _ hfits).1.mp ⟨contentRoot 'A', hcontent⟩
  rw [hvalue] at hf
  cases hf

end Xml

end DocComment
